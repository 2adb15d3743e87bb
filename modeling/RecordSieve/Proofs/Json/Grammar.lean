import Mathlib.Tactic.Choose
import RecordSieve.Proofs.Datum.Json
import RecordSieve.Proofs.Json.Text

namespace RecordSieve.Json

open NumeralParts (Ends ends_nil)

def IsBlank (cs : List Char) : Prop := ∀ c ∈ cs, isSpace c = true

inductive SpellsExponent : List Char → Prop
  | none : SpellsExponent []
  | some {mark : Char} {sign digits : List Char} : mark = 'e' ∨ mark = 'E' →
      sign = [] ∨ sign = ['+'] ∨ sign = ['-'] → digits ≠ [] → digits.all Char.isDigit = true →
      SpellsExponent (mark :: (sign ++ digits))

inductive SpellsNumeral : List Char → Prop
  | intro (p : NumeralParts) {exponent : List Char} : p.power = none → SpellsExponent exponent →
      SpellsNumeral (p.text ++ exponent)

inductive SpellsString : List Char → Prop
  | nil : SpellsString []
  | plain {c : Char} {cs : List Char} : c ≠ '\x22' → c ≠ '\\' → 0x20 ≤ c.toNat → SpellsString cs →
      SpellsString (c :: cs)
  | simple {e c : Char} {cs : List Char} : simpleEscape? e = some c → SpellsString cs →
      SpellsString ('\\' :: e :: cs)
  | unit {a b c d : Char} {n : Nat} {cs : List Char} : hexValue4? a b c d = some n → SpellsString cs →
      SpellsString ('\\' :: 'u' :: a :: b :: c :: d :: cs)

def commas (texts : List (List Char)) : List Char := [','].intercalate texts

def memberText (key : String) (cs : List Char) : List Char := Text.quoteList key.toList ++ ':' :: cs

inductive Part where
  | value
  | element
  | member

inductive Spells : Part → List Char → Prop
  | null : Spells .value ['n', 'u', 'l', 'l']
  | true : Spells .value ['t', 'r', 'u', 'e']
  | false : Spells .value ['f', 'a', 'l', 's', 'e']
  | number {cs : List Char} : SpellsNumeral cs → Spells .value cs
  | string {body : List Char} : SpellsString body → Spells .value ('\x22' :: (body ++ ['\x22']))
  | emptyArray {blank : List Char} : IsBlank blank → Spells .value ('[' :: (blank ++ [']']))
  | array {items : List (List Char)} : items ≠ [] → (∀ item ∈ items, Spells .element item) →
      Spells .value ('[' :: (commas items ++ [']']))
  | emptyObject {blank : List Char} : IsBlank blank → Spells .value ('\x7b' :: (blank ++ ['\x7d']))
  | object {members : List (List Char)} : members ≠ [] → (∀ m ∈ members, Spells .member m) →
      Spells .value ('\x7b' :: (commas members ++ ['\x7d']))
  | element {before cs after : List Char} : IsBlank before → Spells .value cs → IsBlank after →
      Spells .element (before ++ (cs ++ after))
  | member {before key after cs : List Char} : IsBlank before → SpellsString key → IsBlank after →
      Spells .element cs → Spells .member (before ++ '\x22' :: (key ++ '\x22' :: (after ++ ':' :: cs)))

def IsObjectText (cs : List Char) : Prop := Spells .element cs ∧ (skipSpace cs).head? = some '\x7b'

theorem isBlank_nil : IsBlank [] := List.forall_mem_nil _

theorem skipSpace_append {blank : List Char} (h : IsBlank blank) (cs : List Char) :
    skipSpace (blank ++ cs) = skipSpace cs := by
  rw [skipSpace, List.dropWhile_append_of_pos h, ← skipSpace]

theorem ends_append {blank rest : List Char} (h : IsBlank blank) (hr : Ends rest) : Ends (blank ++ rest) := by
  cases blank with
  | nil => exact hr
  | cons c cs =>
      rintro _ ⟨⟩
      have hspace := h c List.mem_cons_self
      simp only [isSpace, Bool.or_eq_true, decide_eq_true_eq] at hspace
      rcases hspace with ((rfl | rfl) | rfl) | rfl <;> decide

theorem readValue_congr {stack : List Frame} {cs cs' : List Char} (h : skipSpace cs = skipSpace cs') :
    readValue stack cs = readValue stack cs' := by
  rw [readValue, readValue, h]

theorem readMember_congr {stack : List Frame} {before : Entries Json} {cs cs' : List Char}
    (h : skipSpace cs = skipSpace cs') : readMember stack before cs = readMember stack before cs' := by
  rw [readMember, readMember, h]

theorem readAfter_congr {stack : List Frame} {j : Json} {cs cs' : List Char}
    (h : skipSpace cs = skipSpace cs') : readAfter stack j cs = readAfter stack j cs' := by
  cases stack with
  | nil => rw [readAfter, readAfter, h]
  | cons frame outer => cases frame <;> rw [readAfter, readAfter, h]

theorem exists_cons_of_digits {digits : List Char} (hne : digits ≠ []) (h : digits.all Char.isDigit = true) :
    ∃ d ds, digits = d :: ds ∧ d ≠ '+' ∧ d ≠ '-' := by
  obtain ⟨d, ds, rfl⟩ := List.exists_cons_of_ne_nil hne
  rw [List.all_cons, Bool.and_eq_true] at h
  exact ⟨d, ds, rfl, by rintro rfl; simp at h, by rintro rfl; simp at h⟩

theorem exponentPart_spelled {exponent rest : List Char} (h : SpellsExponent exponent) (hr : Ends rest)
    (taken : List Char) : exponentPart taken (exponent ++ rest) = .ok (taken ++ exponent, rest) := by
  cases h with
  | none =>
      rw [List.nil_append, List.append_nil]
      cases rest with
      | nil => rfl
      | cons c cs =>
          obtain ⟨-, -, he, hE⟩ := hr c rfl
          simp [exponentPart, he, hE]
  | @some mark sign digits hmark hsign hne hdigits =>
      have hmore (taken : List Char) : moreDigits taken (digits ++ rest) = .ok (taken ++ digits, rest) :=
        NumeralParts.moreDigits_append taken hne hdigits fun c hc => (hr c hc).1
      obtain ⟨d, ds, rfl, hd⟩ := exists_cons_of_digits hne hdigits
      rw [List.cons_append, exponentPart.eq_def]
      dsimp only
      rw [if_pos hmark]
      rcases hsign with rfl | rfl | rfl
      · rw [List.nil_append, List.cons_append]
        dsimp only
        rw [if_neg (by simp [hd]), ← List.cons_append, hmore, List.append_assoc]
        rfl
      · rw [List.append_assoc, List.cons_append, List.nil_append]
        dsimp only
        rw [if_pos (.inl rfl), hmore, List.append_assoc]
        rfl
      · rw [List.append_assoc, List.cons_append, List.nil_append]
        dsimp only
        rw [if_pos (.inr rfl), hmore, List.append_assoc]
        rfl

theorem head?_exponent {exponent rest : List Char} (h : SpellsExponent exponent) (hr : Ends rest) :
    ∀ c ∈ (exponent ++ rest).head?, c.isDigit = false ∧ c ≠ '.' := by
  cases h with
  | none => exact fun c hc => ⟨(hr c hc).1, (hr c hc).2.1⟩
  | some hmark => 
      rintro _ ⟨⟩
      rcases hmark with rfl | rfl <;> decide

theorem exists_cons_numeral {cs : List Char} (h : SpellsNumeral cs) :
    ∃ c t, cs = c :: t ∧ (c = '-' ∨ c.isDigit = true) := by
  obtain ⟨p, -, -⟩ := h
  obtain ⟨c, t, htext, hc⟩ := p.exists_cons_text
  exact ⟨c, _, by rw [htext]; rfl, hc⟩

theorem numeral_spelled {cs rest : List Char} (h : SpellsNumeral cs) (hr : Ends rest) :
    numeral (cs ++ rest) = .ok (cs, rest) := by
  obtain ⟨p, hpower, hexponent⟩ := h
  have hhead := head?_exponent hexponent hr
  have htext : p.text = signText p.negative ++ (p.whole ++ p.fractionText) := by
    rw [NumeralParts.text, NumeralParts.powerText, hpower, List.append_nil]
  simp only [numeral, htext, List.append_assoc, NumeralParts.signPart_text,
    NumeralParts.wholeDigits_text _ (p.not_isDigit_fractionText_append hhead),
    NumeralParts.fractionPart_text _ hhead, exponentPart_spelled hexponent hr, bind, Except.bind]

theorem exists_exponentOf? {exponent : List Char} (h : SpellsExponent exponent) :
    ∃ e, exponentOf? exponent = some e := by
  cases h with
  | none => exact ⟨0, rfl⟩
  | @some mark sign digits hmark hsign hne hdigits =>
      have hsplit : ∃ negative, splitSign (sign ++ digits) = (negative, digits) := by
        obtain ⟨d, ds, rfl, hplus, hminus⟩ := exists_cons_of_digits hne hdigits
        rcases hsign with rfl | rfl | rfl
        · exact ⟨false, by simp [splitSign, hplus, hminus]⟩
        · exact ⟨_, rfl⟩
        · exact ⟨_, rfl⟩
      obtain ⟨negative, hsplit⟩ := hsplit
      exact ⟨_, by rw [exponentOf?, hsplit]; exact if_pos ⟨hmark, hne, hdigits⟩⟩

theorem toBinary64_ne_nan (d : Decimal) : d.toBinary64 ≠ .nan := by
  rw [Decimal.toBinary64]
  cases Magnitude.ofDecimal? d.coefficient d.exponent <;> simp [Binary64.ofMagnitude?]

theorem isDefinite_float {x : Binary64} (h : x ≠ .nan) : (Json.number (.float x)).isDefinite = true := by
  cases x with
  | nan => exact absurd rfl h
  | infinite | finite => rfl

theorem isDefinite_numberOf {cs : List Char} (h : SpellsNumeral cs) :
    (Json.number (numberOf cs)).isDefinite = true := by
  obtain ⟨p, hpower, hexponent⟩ := h
  rename_i exponent
  obtain ⟨e, he⟩ := exists_exponentOf? hexponent
  have hhead := head?_exponent hexponent ends_nil
  rw [List.append_nil] at hhead
  have htext : p.text = signText p.negative ++ (p.whole ++ p.fractionText) := by
    rw [NumeralParts.text, NumeralParts.powerText, hpower, List.append_nil]
  obtain ⟨d, hd⟩ : ∃ d, Decimal.parse? (p.text ++ exponent) = some d := by
    refine Option.isSome_iff_exists.1 ?_
    simp only [Decimal.parse?, htext, List.append_assoc, NumeralParts.splitSign_text,
      p.unsignedDecimal?_append hhead, he, bind, Option.bind]
    rfl
  have hfloat := isDefinite_float (toBinary64_ne_nan d)
  rw [numberOf, hd, Option.elim_some]
  split
  · split
    · exact hfloat
    · rfl
  · exact hfloat

def ReadsString (body : List Char) : Prop :=
  ∃ s, ∀ taken rest, stringBody taken (body ++ '\x22' :: rest) = .ok (taken.reverse ++ s, rest)

theorem ReadsString.of_step {body cs : List Char} {c : Char}
    (h : ∀ taken rest, stringBody taken (body ++ '\x22' :: rest) = stringBody (c :: taken) (cs ++ '\x22' :: rest))
    (hcs : ReadsString cs) : ReadsString body := by
  obtain ⟨s, hs⟩ := hcs
  refine ⟨c :: s, fun taken rest => ?_⟩
  rw [h, hs, List.reverse_cons, List.append_assoc, List.singleton_append]

theorem ReadsString.of_escaped {body cs : List Char} {c : Char}
    (h : ∀ rest, escaped? (body ++ '\x22' :: rest) = some (c, cs ++ '\x22' :: rest)) (hcs : ReadsString cs) :
    ReadsString ('\\' :: body) :=
  .of_step (fun _ rest => stringBody_escaped (h rest)) hcs

def ReadsTrail (body : List Char) : Prop :=
  (∀ rest, trailUnit? (body ++ '\x22' :: rest) = none) ∨
    ∃ trail cs, (∀ rest, trailUnit? (body ++ '\x22' :: rest) = some (trail, cs ++ '\x22' :: rest)) ∧
      ReadsString cs

theorem codeUnit?_of_hexValue4? {a b c d : Char} {n : Nat} (h : hexValue4? a b c d = some n)
    (rest : List Char) : codeUnit? ('u' :: a :: b :: c :: d :: rest) = some (n, rest) := by
  rw [codeUnit?, h]
  rfl

theorem ReadsString.of_unit {a b c d : Char} {n : Nat} {cs : List Char} (h : hexValue4? a b c d = some n)
    (hcs : ReadsString cs) (htrail : ReadsTrail cs) :
    ReadsString ('\\' :: 'u' :: a :: b :: c :: d :: cs) := by
  have hescaped (rest : List Char) : escaped? ('u' :: a :: b :: c :: d :: rest) =
      some ((if isLeadUnit n then trailUnit? rest else none).elim (unitChar n, rest)
        fun trail => (pairChar n trail.1, trail.2)) := by
    have hsimple : simpleEscape? 'u' = none := by decide
    rw [escaped?, codeUnit?_of_hexValue4? h]
    cases hnext : if isLeadUnit n then trailUnit? rest else none <;> simp [hsimple, hnext]
  by_cases hlead : isLeadUnit n = true
  · rcases htrail with hnone | ⟨trail, cs', hsome, hcs'⟩
    · refine .of_escaped (c := unitChar n) (fun rest => ?_) hcs
      simp only [List.cons_append, hescaped, if_pos hlead, hnone, Option.elim_none]
    · refine .of_escaped (c := pairChar n trail) (fun rest => ?_) hcs'
      simp only [List.cons_append, hescaped, if_pos hlead, hsome, Option.elim_some]
  · refine .of_escaped (c := unitChar n) (fun rest => ?_) hcs
    simp only [List.cons_append, hescaped, if_neg hlead, Option.elim_none]

theorem readsString_of_spells {body : List Char} (h : SpellsString body) :
    ReadsString body ∧ ReadsTrail body := by
  induction h with
  | nil =>
      exact ⟨⟨[], fun taken rest => by rw [List.nil_append, stringBody, if_pos rfl, List.append_nil]⟩,
        .inl fun _ => rfl⟩
  | @plain c cs hquote hslash hc _ ih =>
      refine ⟨.of_step (c := c) (fun taken rest => ?_) ih.1, .inl fun rest => ?_⟩
      · rw [List.cons_append, stringBody, if_neg hquote, if_neg hslash, if_neg (by omega)]
      · exact trailUnit?.eq_2 _ fun _ h => hslash (List.cons_eq_cons.1 h).1
  | @simple e c cs he _ ih =>
      refine ⟨.of_escaped (fun rest => escaped?_simple he _) ih.1, .inl fun rest => ?_⟩
      have hnone (rest : List Char) : codeUnit? (e :: rest) = none := by
        unfold codeUnit?
        split
        · rename_i hu
          rw [(List.cons_eq_cons.1 hu).1] at he
          cases he
        · rfl
      rw [List.cons_append, List.cons_append, trailUnit?, hnone, Option.filter_none]
  | @unit a b c d n cs hunit _ ih =>
      refine ⟨.of_unit hunit ih.1 ih.2, ?_⟩
      have htrail (rest : List Char) : trailUnit? ('\\' :: 'u' :: a :: b :: c :: d :: rest) =
          if isTrailUnit n then some (n, rest) else none := by
        rw [trailUnit?, codeUnit?_of_hexValue4? hunit, Option.filter_some]
      by_cases hn : isTrailUnit n = true
      · refine .inr ⟨n, cs, fun rest => ?_, ih.1⟩
        simp only [List.cons_append, htrail, if_pos hn]
      · refine .inl fun rest => ?_
        simp only [List.cons_append, htrail, if_neg hn]

def Continues (r : Except Stop Json) : Option (Except Stop Json) → Prop
  | some next => r = next
  | none => ∃ e, r = .error e

theorem Continues.trans {α : Type} {r : Except Stop Json} {o : Option α} {next : α → Except Stop Json}
    {o' : α → Option (Except Stop Json)} (h : Continues r (o.map next))
    (hnext : ∀ a, o = some a → Continues (next a) (o' a)) : Continues r (o.bind o') := by
  cases o with
  | none => exact h
  | some a =>
      have hr : r = next a := h
      rw [hr]
      exact hnext a rfl

/-- A text that is one value wherever it stands, or that none can be read of. -/
def IsReadAs (cs : List Char) (o : Option Json) : Prop :=
  ∀ stack rest, Ends rest → Continues (readValue stack (cs ++ rest)) (o.map fun j => readAfter stack j rest)

def IsMemberReadAs (cs : List Char) (key : String) (o : Option Json) : Prop :=
  ∀ stack before rest, Ends rest → ∃ mark, Continues (readMember stack before (cs ++ rest))
    (o.map fun j => readAfter (.object before key mark :: stack) j rest)

theorem IsReadAs.of_blanks {before cs after : List Char} {o : Option Json} (h : IsReadAs cs o)
    (hbefore : IsBlank before) (hafter : IsBlank after) : IsReadAs (before ++ (cs ++ after)) o := by
  intro stack rest hr
  have hread := h stack (after ++ rest) (ends_append hafter hr)
  have hskip : readValue stack (before ++ (cs ++ after) ++ rest) = readValue stack (cs ++ (after ++ rest)) :=
    readValue_congr (by rw [List.append_assoc, List.append_assoc, skipSpace_append hbefore])
  have hnext (j : Json) : readAfter stack j (after ++ rest) = readAfter stack j rest :=
    readAfter_congr (skipSpace_append hafter rest)
  simpa only [hskip, hnext] using hread

theorem IsReadAs.toMemberOf {before key after cs name : List Char} {o : Option Json} (h : IsReadAs cs o)
    (hbefore : IsBlank before) (hkey : ∀ rest, stringBody [] (key ++ '\x22' :: rest) = .ok (name, rest))
    (hafter : IsBlank after) :
    IsMemberReadAs (before ++ '\x22' :: (key ++ '\x22' :: (after ++ ':' :: cs))) (String.ofList name) o := by
  intro stack entries rest hr
  have hmember : memberKey (skipSpace (before ++ '\x22' :: (key ++ '\x22' :: (after ++ ':' :: cs)) ++ rest)) =
      .ok (String.ofList name, key ++ '\x22' :: (after ++ ':' :: (cs ++ rest)), cs ++ rest) := by
    have hcolon : skipSpace (after ++ ':' :: (cs ++ rest)) = ':' :: (cs ++ rest) := by
      rw [skipSpace_append hafter, skipSpace_cons (by decide)]
    rw [List.append_assoc, skipSpace_append hbefore, List.cons_append, skipSpace_cons (by decide)]
    simp only [List.append_assoc, List.cons_append, memberKey, hkey, hcolon, bind, Except.bind]
  exact ⟨_, readMember_of_memberKey hmember ▸ h _ rest hr⟩

theorem IsReadAs.toMember {before key after cs : List Char} {o : Option Json} (h : IsReadAs cs o)
    (hbefore : IsBlank before) (hkey : SpellsString key) (hafter : IsBlank after) :
    ∃ name, IsMemberReadAs (before ++ '\x22' :: (key ++ '\x22' :: (after ++ ':' :: cs))) name o := by
  obtain ⟨s, hs⟩ := (readsString_of_spells hkey).1
  exact ⟨String.ofList s, h.toMemberOf hbefore (hs []) hafter⟩

theorem IsReadAs.toQuotedMember {cs : List Char} {o : Option Json} (h : IsReadAs cs o) (key : String) :
    IsMemberReadAs (memberText key cs) key o := by
  intro stack before rest hr
  obtain ⟨mark, hmark⟩ := memberKey_quoted key (cs ++ rest)
  have hmember : memberKey (skipSpace (memberText key cs ++ rest)) = .ok (key, mark, cs ++ rest) := by
    rw [memberText, List.append_assoc, List.cons_append, ← hmark]
    exact congrArg memberKey (skipSpace_cons (by decide) _)
  exact ⟨mark, readMember_of_memberKey hmember ▸ h _ rest hr⟩

theorem commas_singleton (text : List Char) : commas [text] = text := List.intercalate_singleton

theorem commas_cons_cons (text text' : List Char) (texts : List (List Char)) :
    commas (text :: text' :: texts) = text ++ ',' :: commas (text' :: texts) := by
  rw [commas, List.intercalate_cons_cons]
  simp [commas]

theorem exists_of_mem_mapM {α β : Type} {f : α → Option β} {as : List α} {bs : List β}
    (h : as.mapM f = some bs) {b : β} (hb : b ∈ bs) : ∃ a ∈ as, f a = some b := by
  induction as generalizing bs with
  | nil =>
      cases h
      cases hb
  | cons a as ih =>
      rw [List.mapM_cons] at h
      obtain ⟨b', hb', h⟩ := Option.bind_eq_some_iff.1 h
      obtain ⟨bs', hbs', h⟩ := Option.bind_eq_some_iff.1 h
      cases h
      rcases List.mem_cons.1 hb with rfl | hb
      · exact ⟨a, List.mem_cons_self, hb'⟩
      · obtain ⟨a', ha', hf⟩ := ih hbs' hb
        exact ⟨a', List.mem_cons_of_mem _ ha', hf⟩

theorem readValue_commas {items : List (List Char)} {f : List Char → Option Json}
    (h : ∀ item ∈ items, IsReadAs item (f item)) (hne : items ≠ []) (stack : List Frame)
    (before : List Json) (rest : List Char) :
    Continues (readValue (.array before :: stack) (commas items ++ ']' :: rest))
      ((items.mapM f).map fun js => readAfter stack (.array (before.reverse ++ js)) rest) := by
  induction items generalizing before with
  | nil => exact absurd rfl hne
  | cons item items ih =>
      obtain ⟨hitem, hitems⟩ := List.forall_mem_cons.1 h
      have hmapM : ((item :: items).mapM f).map (fun js => readAfter stack (.array (before.reverse ++ js)) rest) =
          (f item).bind fun j => (items.mapM f).map fun js =>
            readAfter stack (.array ((j :: before).reverse ++ js)) rest := by
        rw [List.mapM_cons]
        cases f item with
        | none => rfl
        | some j => cases items.mapM f <;> simp
      rw [hmapM]
      cases items with
      | nil =>
          rw [commas_singleton]
          refine (hitem _ _ (ends_cons (.inr (.inl rfl)) rest)).trans fun j _ => ?_
          rw [readAfter_array (by decide), if_neg (by decide), if_pos rfl, List.mapM_nil]
          exact congrArg (readAfter stack · rest) (by simp)
      | cons item' items =>
          rw [commas_cons_cons, List.append_assoc, List.cons_append]
          refine (hitem _ _ (ends_cons (.inl rfl) _)).trans fun j _ => ?_
          rw [readAfter_array (by decide), if_pos rfl]
          exact ih hitems (by simp) (j :: before)

def IsDefinite (o : Option Json) : Prop := ∀ j ∈ o, j.everywhere isDefinite = true

theorem readAfter_duplicate {stack : List Frame} {before : Entries Json} {key : String} {mark : List Char}
    {j : Json} (h : addMember? key j before = none) (rest : List Char) :
    readAfter (.object before key mark :: stack) j rest = .error (.duplicateKey key, mark) := by
  rw [readAfter]
  split
  · rfl
  · rename_i h'
    rw [h] at h'
    cases h'

theorem eq_define_of_addMember? {key : String} {j : Json} {before members : Entries Json}
    (h : addMember? key j before = some members) : members = before.define key j := by
  rw [addMember?] at h
  split at h
  · split at h <;> cases h
    rfl
  · cases h
    rfl

theorem isDefinite_of_addMember? {key : String} {j : Json} {before members : Entries Json}
    (h : addMember? key j before = some members) (hj : j.everywhere isDefinite = true)
    (hbefore : ∀ e ∈ before, e.2.everywhere isDefinite = true) :
    ∀ e ∈ members, e.2.everywhere isDefinite = true := by
  intro e he
  rw [eq_define_of_addMember? h] at he
  rcases Entries.mem_define he with he | he
  · exact hbefore e he
  · rwa [he]

theorem readMember_append {m : List Char} {key : String} {o : Option Json} (h : IsMemberReadAs m key o)
    (before : Entries Json) {c : Char} (hc : c = ',' ∨ c = '\x7d') (stack : List Frame) (rest : List Char) :
    Continues (readMember stack before (m ++ c :: rest))
      ((o.bind fun j => addMember? key j before).map fun members =>
        if c = ',' then readMember stack members rest else readAfter stack (.object members) rest) := by
  obtain ⟨mark, hread⟩ := h stack before (c :: rest) (ends_cons (hc.imp_right .inr) rest)
  have hspace : isSpace c = false := by rcases hc with rfl | rfl <;> decide
  rw [Option.map_bind]
  refine hread.trans fun j _ => ?_
  rw [Function.comp_apply]
  cases hadd : addMember? key j before with
  | none => exact ⟨_, readAfter_duplicate hadd _⟩
  | some members =>
      show readAfter (.object before key mark :: stack) j (c :: rest) = _
      rw [readAfter_object hadd hspace]
      rcases hc with rfl | rfl
      · rfl
      · rw [if_neg (by decide), if_pos rfl]
        exact (if_neg (by decide)).symm

def gather (before : Entries Json) : List (String × Option Json) → Option (Entries Json)
  | [] => some before
  | (key, o) :: members => (o.bind fun j => addMember? key j before).bind fun es => gather es members

theorem isDefinite_of_gather {members : List (String × Option Json)} (h : ∀ m ∈ members, IsDefinite m.2)
    {before es : Entries Json} (hbefore : ∀ e ∈ before, e.2.everywhere isDefinite = true)
    (hes : gather before members = some es) : ∀ e ∈ es, e.2.everywhere isDefinite = true := by
  induction members generalizing before with
  | nil =>
      cases hes
      exact hbefore
  | cons m ms ih =>
      obtain ⟨hm, hms⟩ := List.forall_mem_cons.1 h
      obtain ⟨added, hadded, hes⟩ := Option.bind_eq_some_iff.1 hes
      obtain ⟨j, hj, hadd⟩ := Option.bind_eq_some_iff.1 hadded
      exact ih hms (isDefinite_of_addMember? hadd (hm j hj) hbefore) hes

theorem readMember_commas {members : List (List Char × String × Option Json)}
    (h : ∀ m ∈ members, IsMemberReadAs m.1 m.2.1 m.2.2) (hne : members ≠ []) (stack : List Frame)
    (before : Entries Json) (rest : List Char) :
    Continues (readMember stack before (commas (members.map (·.1)) ++ '\x7d' :: rest))
      ((gather before (members.map (·.2))).map fun es => readAfter stack (.object es) rest) := by
  induction members generalizing before with
  | nil => exact absurd rfl hne
  | cons m ms ih =>
      obtain ⟨hm, hms⟩ := List.forall_mem_cons.1 h
      obtain ⟨text, key, o⟩ := m
      cases ms with
      | nil =>
          have hread := readMember_append hm before (.inr rfl) stack rest
          rw [List.map_singleton, commas_singleton, List.map_singleton, gather]
          exact Option.bind_fun_some _ ▸ hread
      | cons m' ms =>
          have hread := readMember_append hm before (.inl rfl) stack
            (commas ((m' :: ms).map (·.1)) ++ '\x7d' :: rest)
          rw [List.map_cons, List.map_cons, commas_cons_cons, List.append_assoc, List.cons_append,
            List.map_cons, gather, Option.map_bind]
          refine hread.trans fun es _ => ?_
          rw [if_pos rfl]
          exact ih hms (by simp) es

def Opens (cs : List Char) : Prop :=
  ∃ c more, skipSpace cs = c :: more ∧ isSpace c = false ∧ c ≠ ']' ∧ c ≠ '\x7d'

theorem opens_cons {c : Char} (hspace : isSpace c = false) (harray : c ≠ ']') (hobject : c ≠ '\x7d')
    (cs : List Char) : Opens (c :: cs) :=
  ⟨c, cs, skipSpace_cons hspace cs, hspace, harray, hobject⟩

theorem Opens.blank_append {blank cs : List Char} (h : Opens cs) (hblank : IsBlank blank) :
    Opens (blank ++ cs) := by
  rwa [Opens, skipSpace_append hblank]

theorem Spells.opens {part : Part} {cs : List Char} (h : Spells part cs) (rest : List Char) :
    Opens (cs ++ rest) := by
  induction h generalizing rest with
  | number h =>
      obtain ⟨c, t, rfl, hc⟩ := exists_cons_numeral h
      rcases hc with rfl | hc
      · exact opens_cons (by decide) (by decide) (by decide) _
      · exact opens_cons (isSpace_of_isDigit hc) (by rintro rfl; simp at hc) (by rintro rfl; simp at hc) _
  | element hbefore _ _ ih =>
      rw [List.append_assoc, List.append_assoc]
      exact (ih _).blank_append hbefore
  | member hbefore =>
      rw [List.append_assoc]
      exact (opens_cons (by decide) (by decide) (by decide) _).blank_append hbefore
  | _ => exact opens_cons (by decide) (by decide) (by decide) _

theorem opens_commas {part : Part} {texts : List (List Char)} (h : ∀ t ∈ texts, Spells part t)
    (hne : texts ≠ []) (rest : List Char) : Opens (commas texts ++ rest) := by
  obtain ⟨t, ts, rfl⟩ := List.exists_cons_of_ne_nil hne
  have ht := h t List.mem_cons_self
  cases ts with
  | nil => rw [commas_singleton]; exact ht.opens rest
  | cons t' ts =>
      rw [commas_cons_cons, List.append_assoc]
      exact ht.opens _

theorem readValue_bracket {inner : List Char} (h : Opens inner) (stack : List Frame) :
    readValue stack ('[' :: inner) = readValue (.array [] :: stack) inner := by
  obtain ⟨c, more, hskip, hspace, hc, -⟩ := h
  rw [readValue_array rfl hskip, if_neg hc]
  exact readValue_congr (by rw [hskip, skipSpace_cons hspace])

theorem readValue_brace {inner : List Char} (h : Opens inner) (stack : List Frame) :
    readValue stack ('\x7b' :: inner) = readMember stack [] inner := by
  obtain ⟨c, more, hskip, hspace, -, hc⟩ := h
  rw [readValue_object rfl hskip, if_neg hc]
  exact readMember_congr (by rw [hskip, skipSpace_cons hspace])

theorem isReadAs_array {items : List (List Char)} {f : List Char → Option Json}
    (h : ∀ item ∈ items, IsReadAs item (f item)) (hne : items ≠ [])
    (hopens : ∀ rest, Opens (commas items ++ rest)) :
    IsReadAs ('[' :: (commas items ++ [']'])) ((items.mapM f).map .array) := by
  intro stack rest _
  rw [List.cons_append, List.append_assoc, readValue_bracket (hopens _), Option.map_map]
  exact readValue_commas h hne stack [] rest

theorem isReadAs_object {members : List (List Char × String × Option Json)}
    (h : ∀ m ∈ members, IsMemberReadAs m.1 m.2.1 m.2.2) (hne : members ≠ [])
    (hopens : ∀ rest, Opens (commas (members.map (·.1)) ++ rest)) :
    IsReadAs ('\x7b' :: (commas (members.map (·.1)) ++ ['\x7d']))
      ((gather [] (members.map (·.2))).map .object) := by
  intro stack rest _
  rw [List.cons_append, List.append_assoc, readValue_brace (hopens _), Option.map_map]
  exact readMember_commas h hne stack [] rest

def Reads : Part → List Char → Prop
  | .member, cs => ∃ key o, IsDefinite o ∧ IsMemberReadAs cs key o
  | .value, cs | .element, cs => ∃ o, IsDefinite o ∧ IsReadAs cs o

theorem reads_scalar {cs : List Char} {j : Json} (hj : j.everywhere isDefinite = true)
    (hopens : ∀ rest, skipSpace (cs ++ rest) = cs ++ rest)
    (h : ∀ rest, Ends rest → beginning? (cs ++ rest) = .ok (some (.scalar j, rest))) : Reads .value cs :=
  ⟨some j, by rintro _ ⟨⟩; exact hj, fun stack rest hr => readValue_scalar (by rw [hopens]; exact h rest hr)⟩

theorem isReadAs_numeral {cs : List Char} (h : SpellsNumeral cs) :
    IsReadAs cs (some (.number (numberOf cs))) := by
  intro stack rest hr
  have hskip : skipSpace (cs ++ rest) = cs ++ rest := by
    obtain ⟨c, t, rfl, hc⟩ := exists_cons_numeral h
    exact skipSpace_cons (hc.elim (fun h => h ▸ by decide) isSpace_of_isDigit) _
  refine readValue_scalar ?_
  rw [hskip]
  exact beginning?_of_numeral (exists_cons_numeral h) (numeral_spelled h hr)

theorem isReadAs_member (key : String) {cs : List Char} {j : Json} (h : IsReadAs cs (some j)) :
    IsReadAs ('\x7b' :: (memberText key cs ++ ['\x7d'])) (some (.object [(key, j)])) := by
  have hmember : ∀ m ∈ [(memberText key cs, key, some j)], IsMemberReadAs m.1 m.2.1 m.2.2 :=
    List.forall_mem_singleton.2 (h.toQuotedMember key)
  have hobject := isReadAs_object hmember (by simp)
    fun _ => opens_cons (by decide) (by decide) (by decide) _
  rwa [List.map_singleton, commas_singleton] at hobject

theorem reads_of_spells {part : Part} {cs : List Char} (h : Spells part cs) : Reads part cs := by
  induction h with
  | null | true | false => exact reads_scalar rfl (fun _ => rfl) fun _ _ => rfl
  | number h => exact ⟨_, by rintro _ ⟨⟩; exact isDefinite_numberOf h, isReadAs_numeral h⟩
  | @string body h =>
      obtain ⟨s, hs⟩ := (readsString_of_spells h).1
      refine reads_scalar (j := .string (String.ofList s)) rfl (fun _ => skipSpace_cons (by decide) _)
        fun rest _ => ?_
      have hbody := hs [] rest
      rw [List.reverse_nil, List.nil_append] at hbody
      rw [List.cons_append, List.append_assoc, List.singleton_append, beginning?, hbody]
      rfl
  | @emptyArray blank hblank =>
      refine ⟨some (.array []), by rintro _ ⟨⟩; rfl, fun stack rest _ => ?_⟩
      have hskip : skipSpace (blank ++ [']'] ++ rest) = ']' :: rest := by
        rw [List.append_assoc, skipSpace_append hblank]
        exact skipSpace_cons (by decide) rest
      rw [List.cons_append, readValue_array rfl hskip, if_pos rfl]
      rfl
  | @array items hne h ih =>
      choose! f hf using ih
      refine ⟨(items.mapM f).map .array, fun j hj => ?_,
        isReadAs_array (fun item hin => (hf item hin).2) hne (opens_commas h hne)⟩
      obtain ⟨js, hjs, rfl⟩ := Option.map_eq_some_iff.1 hj
      refine everywhere_array.2 ⟨rfl, fun j hin => ?_⟩
      obtain ⟨item, hitem, hj⟩ := exists_of_mem_mapM hjs hin
      exact (hf item hitem).1 j hj
  | @emptyObject blank hblank =>
      refine ⟨some (.object []), by rintro _ ⟨⟩; rfl, fun stack rest _ => ?_⟩
      have hskip : skipSpace (blank ++ ['\x7d'] ++ rest) = '\x7d' :: rest := by
        rw [List.append_assoc, skipSpace_append hblank]
        exact skipSpace_cons (by decide) rest
      rw [List.cons_append, readValue_object rfl hskip, if_pos rfl]
      rfl
  | @object members hne h ih =>
      choose! key f hf using ih
      let read := members.map fun m => (m, key m, f m)
      have hdefinite : ∀ m ∈ read.map (·.2), IsDefinite m.2 := by
        simpa [read] using fun m hm => (hf m hm).1
      have hread : ∀ m ∈ read, IsMemberReadAs m.1 m.2.1 m.2.2 := by
        simpa [read] using fun m hm => (hf m hm).2
      have htexts : read.map (·.1) = members := by simp [read, Function.comp_def]
      refine ⟨(gather [] (read.map (·.2))).map .object, fun j hj => ?_, ?_⟩
      · obtain ⟨es, hes, rfl⟩ := Option.map_eq_some_iff.1 hj
        exact everywhere_object.2 ⟨rfl, isDefinite_of_gather hdefinite (by simp) hes⟩
      · have hobject := isReadAs_object hread (by simpa [read] using hne)
        rw [htexts] at hobject
        exact hobject (opens_commas h hne)
  | element hbefore _ hafter ih =>
      obtain ⟨o, hdefinite, hread⟩ := ih
      exact ⟨o, hdefinite, hread.of_blanks hbefore hafter⟩
  | member hbefore hkey hafter _ ih =>
      obtain ⟨o, hdefinite, hread⟩ := ih
      obtain ⟨name, hmember⟩ := hread.toMember hbefore hkey hafter
      exact ⟨name, o, hdefinite, hmember⟩

theorem spellsString_escaped (s : List Char) : SpellsString (s.flatMap Text.escapeChar) := by
  induction s with
  | nil => exact .nil
  | cons c cs ih =>
      rw [List.flatMap_cons]
      unfold Text.escapeChar
      split
      case h_8 hquote hslash _ _ _ _ _ =>
        split
        · rename_i hc
          exact .unit (hexValue4?_hexDigit _ hc) ih
        · rename_i hc
          exact .plain hquote hslash (Nat.not_lt.1 hc) ih
      all_goals exact .simple rfl ih

theorem spellsExponent_powerText (p : NumeralParts) : SpellsExponent p.powerText := by
  rw [NumeralParts.powerText]
  split
  · exact .none
  · rename_i e _
    by_cases he : e < 0
    · rw [if_pos he]
      exact .some (.inl rfl) (.inr (.inr rfl)) (digitsOf_ne_nil _) (all_isDigit_digitsOf _)
    · rw [if_neg he]
      exact .some (.inl rfl) (.inr (.inl rfl)) (digitsOf_ne_nil _) (all_isDigit_digitsOf _)

theorem spellsNumeral_text (p : NumeralParts) : SpellsNumeral p.text := by
  have htext : p.text = NumeralParts.text { p with power := none } ++ p.powerText := by
    simp [NumeralParts.text, NumeralParts.powerText, NumeralParts.fractionText]
  rw [htext]
  exact .intro _ rfl (spellsExponent_powerText p)

theorem Spells.bare {cs : List Char} (h : Spells .value cs) : Spells .element cs := by
  simpa using Spells.element isBlank_nil h isBlank_nil

theorem charsOfItems_eq_commas (items : List Json) : charsOfItems items = commas (items.map chars) := by
  induction items with
  | nil => rfl
  | cons j js ih =>
      cases js with
      | nil => rw [charsOfItems, List.map_singleton, commas_singleton]
      | cons k ks =>
          rw [List.map_cons] at ih
          rw [charsOfItems_cons_cons, ih, List.map_cons, List.map_cons, commas_cons_cons]

theorem charsOfProperties_eq_commas (properties : List (String × Json)) :
    charsOfProperties properties = commas (properties.map fun e => memberText e.1 e.2.chars) := by
  induction properties with
  | nil => rfl
  | cons e es ih =>
      cases es with
      | nil => rw [charsOfProperties, List.map_singleton, commas_singleton]; rfl
      | cons f fs =>
          rw [List.map_cons] at ih
          rw [charsOfProperties_cons_cons, ih, List.map_cons, List.map_cons, commas_cons_cons]
          rfl

theorem spells_chars (j : Json) : Spells .value j.chars := by
  induction j using byParts with
  | null => exact .null
  | boolean b =>
      cases b with
      | true => exact .true
      | false => exact .false
  | number n =>
      rw [chars]
      cases hn : n.isFinite with
      | false =>
          rw [numberText_of_not_isFinite hn]
          exact .null
      | true =>
          obtain ⟨p, htext, -⟩ := NumeralParts.exists_isTextOf hn
          rw [← htext]
          exact .number (spellsNumeral_text p)
  | string s => exact .string (spellsString_escaped s.toList)
  | array items ih =>
      rw [chars, charsOfItems_eq_commas]
      cases items with
      | nil => exact .emptyArray isBlank_nil
      | cons k ks =>
          refine .array (by simp) fun item hitem => ?_
          obtain ⟨j, hj, rfl⟩ := List.mem_map.1 hitem
          exact (ih j hj).bare
  | object properties ih =>
      rw [chars, charsOfProperties_eq_commas]
      cases properties with
      | nil => exact .emptyObject isBlank_nil
      | cons f fs =>
          refine .object (by simp) fun m hm => ?_
          obtain ⟨e, he, rfl⟩ := List.mem_map.1 hm
          have hmember := Spells.member isBlank_nil (spellsString_escaped e.1.toList) isBlank_nil (ih e he).bare
          simpa [memberText, Text.quoteList] using hmember

theorem isObjectText_chars (properties : List (String × Json)) :
    IsObjectText (Json.object properties).chars := by
  refine ⟨(spells_chars _).bare, ?_⟩
  rw [chars, List.cons_append, skipSpace_cons (by decide)]
  rfl

theorem IsObjectText.exists_cons {cs : List Char} (h : IsObjectText cs) :
    ∃ c more, cs = c :: more ∧ (isSpace c = true ∨ c = '\x7b') := by
  obtain ⟨-, hopen⟩ := h
  cases cs with
  | nil => cases hopen
  | cons c more =>
      refine ⟨c, more, rfl, ?_⟩
      cases hc : isSpace c with
      | true => exact .inl rfl
      | false =>
          rw [skipSpace_cons hc, List.head?_cons, Option.some_inj] at hopen
          exact .inr hopen

theorem IsReadAs.toOption_parse {cs : List Char} {o : Option Json} (h : IsReadAs cs o) :
    (parse (String.ofList cs)).toOption = o := by
  have hread := h [] [] ends_nil
  rw [List.append_nil] at hread
  rw [parse, String.toList_ofList]
  cases o with
  | none =>
      obtain ⟨e, he⟩ := hread
      rw [he]
      rfl
  | some j =>
      rw [show readValue [] cs = readAfter [] j [] from hread, readAfter]
      rfl

theorem isReadAs_of_spells {cs : List Char} (h : Spells .element cs) :
    IsReadAs cs (parse (String.ofList cs)).toOption ∧ IsDefinite (parse (String.ofList cs)).toOption := by
  obtain ⟨o, hdefinite, hread⟩ : Reads .element cs := reads_of_spells h
  rw [hread.toOption_parse]
  exact ⟨hread, hdefinite⟩

end RecordSieve.Json
