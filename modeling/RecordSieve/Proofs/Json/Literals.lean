import RecordSieve.Proofs.Json.Agreement
import RecordSieve.Proofs.Value.Rereading
import Mathlib.Data.List.Induction

namespace RecordSieve

theorem digitsValue_singleton {c : Char} (h : c.isDigit = true) :
    digitsValue [c] < 10 ∧ digitsOf (digitsValue [c]) = [c] := by
  have hchars : ∀ n < 10, digitsOf n = [Char.ofNat (0x30 + n)] := by decide
  have hbounds := Text.toNat_of_isDigit h
  have hvalue : digitsValue [c] = c.toNat - 0x30 := by simp [digitsValue, Nat.ofDigitChars]
  have hlt : digitsValue [c] < 10 := by omega
  refine ⟨hlt, ?_⟩
  rw [hchars _ hlt, hvalue, Nat.add_sub_cancel' hbounds.1, Char.ofNat_toNat]

theorem digitsOf_digitsValue {cs : List Char} (hne : cs ≠ []) (h : cs.all Char.isDigit = true)
    (hlead : cs.head? = some '0' → cs = ['0']) : digitsOf (digitsValue cs) = cs := by
  induction cs using List.reverseRecOn with
  | nil => exact absurd rfl hne
  | append_singleton cs c ih =>
      rw [List.all_append, Bool.and_eq_true] at h
      obtain ⟨hlt, hc⟩ := digitsValue_singleton (c := c) (by simpa using h.2)
      by_cases hnil : cs = []
      · rw [hnil]
        exact hc
      · have hhead : cs.head? ≠ some '0' := fun hzero => by
          obtain ⟨tail, rfl⟩ := List.head?_eq_some_iff.1 hzero
          simpa using hlead rfl
        have hdigits := ih hnil h.1 fun hzero => absurd hzero hhead
        have hpos : 0 < digitsValue cs := Nat.pos_of_ne_zero fun hzero => hhead (by
          rw [← hdigits, hzero]
          rfl)
        have hjoin := Nat.toDigits_append_toDigits (b := 10) (by decide) hpos hlt
        rw [digitsValue_append, List.length_singleton, Nat.pow_one, digitsOf, ← hjoin]
        exact congrArg₂ (· ++ ·) hdigits hc

namespace Json

def IsInteger (cs : List Char) : Prop := isInteger cs = true ∧ cs ≠ ['-', '0']

theorem isDigit_of_isInteger {cs : List Char} (h : isInteger cs = true) {c : Char} (hc : c ∈ cs) :
    c = '-' ∨ c.isDigit = true := by
  unfold isInteger at h
  split at h <;> obtain ⟨-, hdigits⟩ := Bool.and_eq_true_iff.1 h
  · exact (List.mem_cons.1 hc).imp_right (List.all_eq_true.1 hdigits c)
  · exact .inr (List.all_eq_true.1 hdigits c hc)

theorem exists_isWhole_of_isInteger {cs : List Char} (h : SpellsNumber cs) (hinteger : isInteger cs = true) :
    ∃ p : NumeralParts, p.isWhole = true ∧ p.text = cs := by
  cases h with
  | whole h =>
      obtain ⟨p, hpower, hexponent⟩ := h
      cases hexponent with
      | none =>
          rw [List.append_nil] at hinteger ⊢
          exact ⟨p, p.isInteger_text ▸ hinteger, rfl⟩
      | @some mark _ _ hmark =>
          have hdigit := isDigit_of_isInteger hinteger (c := mark) (by simp)
          rcases hmark with rfl | rfl <;> simp at hdigit
  | bare p h hne =>
      obtain ⟨c, t, hcons, hc⟩ := exists_cons_bare h hne
      have hdigit := isDigit_of_isInteger hinteger (c := c) (by simp [hcons])
      rcases hc with rfl | rfl | rfl <;> simp at hdigit

theorem IsInteger.numberText_numberOf {cs : List Char} (h : IsInteger cs) (hspells : SpellsNumber cs) :
    (numberOf cs).isFinite = true ∧ numberText (numberOf cs) = cs := by
  obtain ⟨hinteger, hzero⟩ := h
  obtain ⟨p, hwhole, rfl⟩ := exists_isWhole_of_isInteger hspells hinteger
  have hdigits := digitsOf_digitsValue p.ne_nil p.whole_digits p.lead
  have htext : (NumeralParts.natural p.negative (digitsValue p.whole)).text = p.text := by
    rw [NumeralParts.text_natural, p.text_of_isWhole hwhole, hdigits]
  have hpos : p.negative = true → 0 < digitsValue p.whole := fun hneg => by
    refine Nat.pos_of_ne_zero fun hvalue => hzero ?_
    rw [← htext, NumeralParts.text_natural, hneg, hvalue]
    rfl
  rw [← htext, NumeralParts.numberOf_natural hpos]
  refine ⟨Number.isFinite_ofInteger _, ?_⟩
  rw [Number.numberText_ofInteger, intText_eq, decide_signed_neg hpos, Binary64.natAbs_signed,
    NumeralParts.text_natural]

namespace Source

def Keeps (s : Source) (j : Json) : Prop :=
  j.everywhere isReadNode = true ∧
    ∀ {path : List String} {cs : List Char}, IsInteger cs → s.Holds path cs → j.Holds path cs

def Form.Keeps : Form → Prop
  | .value s | .element s | .member _ s => ∀ j, s.value? = some j → s.Keeps j
  | .items ss => ∀ js, valuesIn? ss = some js → (∀ j ∈ js, j.everywhere isReadNode = true) ∧
      ∀ (i : Nat) (s : Source), ss[i]? = some s → ∃ j, js[i]? = some j ∧ s.Keeps j
  | .members ms => ∀ before es, valuesUnder? before ms = some es →
      (Json.object before).everywhere isReadNode = true → (Json.object es).everywhere isReadNode = true ∧
      (∀ path cs, (Json.object before).Holds path cs → (Json.object es).Holds path cs) ∧
      ∀ m ∈ ms, ∀ path cs, IsInteger cs → m.2.Holds path cs → (Json.object es).Holds (m.1 :: path) cs

theorem keeps_scalar {s : Source} {j : Json} (hs : s.value? = some j) (hj : j.everywhere isReadNode = true)
    (h : ∀ path cs, ¬s.Holds path cs) : (Form.value s).Keeps := by
  intro k hk
  rw [hs] at hk
  cases hk
  exact ⟨hj, fun _ hcs => absurd hcs (h _ _)⟩

theorem keeps_numeral {cs : List Char} (h : SpellsNumber cs) : (Form.value (.numeral cs)).Keeps := by
  intro j hj
  cases hj
  refine ⟨isReadNode_numberOf cs, fun hint hcs => ?_⟩
  cases hcs
  obtain ⟨hfinite, htext⟩ := hint.numberText_numberOf h
  exact holds_number.2 ⟨rfl, hfinite, htext.symm⟩

theorem keeps_no_items : (Form.items []).Keeps := by
  intro js h
  cases h
  simp

theorem keeps_items {s : Source} {ss : List Source} (hs : (Form.element s).Keeps)
    (hss : (Form.items ss).Keeps) : (Form.items (s :: ss)).Keeps := by
  intro js h
  rw [valuesIn?] at h
  obtain ⟨j, hj, h⟩ := Option.bind_eq_some_iff.1 h
  obtain ⟨rest, hrest, rfl⟩ := Option.map_eq_some_iff.1 h
  have hkeeps := hs j hj
  obtain ⟨hreads, hall⟩ := hss rest hrest
  refine ⟨List.forall_mem_cons.2 ⟨hkeeps.1, hreads⟩, fun i t ht => ?_⟩
  cases i with
  | zero =>
      cases ht
      exact ⟨j, rfl, hkeeps⟩
  | succ i => exact hall i t ht

theorem keeps_array {ss : List Source} (h : (Form.items ss).Keeps) : (Form.value (.array ss)).Keeps := by
  intro j hj
  obtain ⟨js, hjs, rfl⟩ := Option.map_eq_some_iff.1 hj
  obtain ⟨hreads, hall⟩ := h js hjs
  refine ⟨everywhere_array.2 ⟨rfl, hreads⟩, fun hint hcs => ?_⟩
  cases hcs with
  | @item i s _ path _ hs hcs =>
      obtain ⟨j, hj, -, hkeeps⟩ := hall i s hs
      exact holds_array.2 ⟨i, j, path, hj, rfl, hkeeps hint hcs⟩

theorem keeps_no_members : (Form.members []).Keeps := by
  intro before es h hbefore
  cases h
  exact ⟨hbefore, fun _ _ hcs => hcs, by simp⟩

theorem keeps_members {key : String} {s : Source} {ms : List (String × Source)}
    (hs : (Form.member key s).Keeps) (hms : (Form.members ms).Keeps) :
    (Form.members ((key, s) :: ms)).Keeps := by
  intro before es h hbefore
  rw [valuesUnder?] at h
  obtain ⟨added, hadded, h⟩ := Option.bind_eq_some_iff.1 h
  obtain ⟨j, hj, hadd⟩ := Option.bind_eq_some_iff.1 hadded
  obtain ⟨hread, hkeeps⟩ := hs j hj
  obtain ⟨hold, hnew⟩ := holds_of_addMember? hadd hread hbefore
  obtain ⟨hes, hlater, hrest⟩ := hms added es h (everywhere_addMember? hadd hread hbefore)
  refine ⟨hes, fun path cs hcs => hlater path cs (hold path cs hcs), ?_⟩
  refine List.forall_mem_cons.2 ⟨fun path cs hint hcs => ?_, hrest⟩
  exact hlater _ cs (hnew path cs (hkeeps hint hcs))

theorem keeps_object {ms : List (String × Source)} (h : (Form.members ms).Keeps) :
    (Form.value (.object ms)).Keeps := by
  intro j hj
  obtain ⟨es, hes, rfl⟩ := Option.map_eq_some_iff.1 hj
  obtain ⟨hread, -, hall⟩ := h [] es hes rfl
  refine ⟨hread, fun hint hcs => ?_⟩
  cases hcs with
  | member hmem hcs => exact hall _ hmem _ _ hint hcs

theorem Spells.keeps {form : Form} {text : List Char} (h : Spells form text) : form.Keeps := by
  induction h with
  | null | true | false | string => exact keeps_scalar rfl rfl (by rintro _ _ ⟨⟩)
  | numeral h => exact keeps_numeral h
  | emptyArray => exact keeps_array keeps_no_items
  | array _ ih => exact keeps_array ih
  | emptyObject => exact keeps_object keeps_no_members
  | object _ ih => exact keeps_object ih
  | element _ _ _ ih => exact ih
  | lastItem _ ih => exact keeps_items ih keeps_no_items
  | item _ _ ih ih' => exact keeps_items ih ih'
  | member _ _ _ _ ih => exact ih
  | lastMember _ ih => exact keeps_members ih keeps_no_members
  | moreMembers _ _ ih ih' => exact keeps_members ih ih'

end Source

/-- Data that was read is written as a text that is read as data with that text again. A numeral of an
integer stands in the text as it was written and where it was written. -/
theorem text_stable_of_parse {t : String} {j : Json} (h : parse t = .ok j) :
    ∃ c, (Input.ofJson j).text = .ok c ∧ (∃ k, parse c = .ok k ∧ (Input.ofJson k).text = .ok c) ∧
      (∃ s, Source.Spells (.element s) t.toList) ∧
      ∀ s, Source.Spells (.element s) t.toList → ∃ s', Source.Spells (.element s') c.toList ∧
        ∀ path cs, IsInteger cs → s.Holds path cs → s'.Holds path cs := by
  have hordered : j.everywhere hasOrderedKeys = true :=
    everywhere_imp hasOrderedKeys_of_isReadNode (everywhere_of_parse h)
  have hstable : j.reread.text = j.text := congrArg String.ofList j.chars_reread
  obtain ⟨s₀, hs₀, -⟩ := Source.parse_eq_ok_iff.1 h
  refine ⟨j.text, Input.text_ofJson j, ⟨j.reread, parse_eq_reread hordered, ?_⟩, ⟨s₀, hs₀⟩, fun s hs => ?_⟩
  · rw [Input.text_ofJson, hstable]
  · have hvalue : s.value? = some j := by
      rw [← hs.toOption_parse, h]
      rfl
    refine ⟨j.source, ?_, fun path cs hint hcs => (hs.keeps j hvalue).2 hint hcs⟩
    rw [text, String.toList_ofList]
    exact (Source.spells_source j).bare

theorem spellsNumber_natural (negative : Bool) (n : Nat) :
    SpellsNumber (signText negative ++ digitsOf n) := by
  rw [← NumeralParts.text_natural]
  exact .whole (spellsNumeral_text _)

def spacedText : String := "\x7b\x22n\x22: [ 12345678901234567890 , -7 ]\x7d"

def spacedSource : Source :=
  .object [("n", .array [.numeral "12345678901234567890".toList, .numeral "-7".toList])]

theorem text_stable_of_parse_spaced :
    ∃ j c s', parse spacedText = .ok j ∧ (Input.ofJson j).text = .ok c ∧
      Source.Spells (.element s') c.toList ∧ s'.Holds ["n", "0"] "12345678901234567890".toList ∧
      s'.Holds ["n", "1"] "-7".toList := by
  have hspace : IsBlank [' '] := List.forall_mem_singleton.2 (by decide)
  have hspells : Source.Spells (.element spacedSource) spacedText.toList := by
    have hlong := spellsNumber_natural false 12345678901234567890
    have hfirst := Source.Spells.element hspace (.numeral hlong) hspace
    have hsecond := Source.Spells.element hspace (.numeral (spellsNumber_natural true 7)) hspace
    have harray := Source.Spells.element hspace (.array (.item hfirst (.lastItem hsecond))) isBlank_nil
    have hmember := Source.Spells.member isBlank_nil (spellsText_escaped "n") isBlank_nil harray
    exact (Source.Spells.object (.lastMember hmember)).bare
  have hvalue : ∃ j, spacedSource.value? = some j := ⟨_, rfl⟩
  obtain ⟨j, hvalue⟩ := hvalue
  have hparse : parse spacedText = .ok j := Source.parse_eq_ok_iff.2 ⟨_, hspells, hvalue⟩
  obtain ⟨c, hc, -, -, hkept⟩ := text_stable_of_parse hparse
  obtain ⟨s', hs', hkept⟩ := hkept _ hspells
  refine ⟨j, c, s', hparse, hc, hs', hkept _ _ ⟨by decide, by decide⟩ ?_, hkept _ _ ⟨by decide, by decide⟩ ?_⟩
  · exact .member (List.mem_singleton_self _) (.item (i := 0) rfl .numeral)
  · exact .member (List.mem_singleton_self _) (.item (i := 1) rfl .numeral)

end Json

end RecordSieve
