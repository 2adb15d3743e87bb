import RecordSieve.Proofs.Json.Spelling
import RecordSieve.Proofs.Records.Lines

namespace RecordSieve

namespace Json

theorem any_isControl_of_spellsNumber {cs : List Char} (h : SpellsNumber cs) :
    cs.any Text.isControl = false := by
  cases h with
  | whole h => exact Lines.any_isControl_numeral h
  | @bare p exponent h hne =>
      -- the numeral with the digits that are missing ends with the same characters
      have hnumeral : SpellsNumeral (NumeralParts.text { p with power := none } ++ exponent) := .intro _ rfl h
      have hall := Lines.any_isControl_numeral hnumeral
      simp only [NumeralParts.text, List.any_append, Bool.or_eq_false_iff] at hall
      rw [List.any_append, Bool.or_eq_false_iff]
      exact ⟨hall.1.2.2.1, hall.2⟩

theorem Source.Spells.exists_concat {s : Source} {cs : List Char} (h : Spells (.value s) cs) :
    ∃ front c, cs = front ++ [c] ∧ c ≠ '\r' := by
  cases h with
  | null => exact ⟨['n', 'u', 'l'], _, rfl, by decide⟩
  | true => exact ⟨['t', 'r', 'u'], _, rfl, by decide⟩
  | false => exact ⟨['f', 'a', 'l', 's'], _, rfl, by decide⟩
  | numeral h =>
      obtain ⟨c, t, hcons, -⟩ := h.exists_cons
      rcases List.eq_nil_or_concat' cs with rfl | ⟨front, last, rfl⟩
      · cases hcons
      · refine ⟨front, last, rfl, ?_⟩
        rintro rfl
        exact List.any_eq_false.1 (any_isControl_of_spellsNumber h) '\r' (by simp) rfl
  | _ => exact ⟨_, _, (List.cons_append ..).symm, by decide⟩

theorem Source.Spells.append_return_iff {s : Source} {cs : List Char} :
    Spells (.element s) (cs ++ ['\r']) ↔ Spells (.element s) cs := by
  constructor
  · intro h
    generalize htext : cs ++ ['\r'] = text at h
    cases h with
    | @element _ before value after hbefore hvalue hafter =>
        rcases List.eq_nil_or_concat' after with rfl | ⟨after, last, rfl⟩
        · obtain ⟨front, c, rfl, hc⟩ := hvalue.exists_concat
          rw [List.append_nil, ← List.append_assoc] at htext
          exact absurd (List.singleton_inj.1 (List.append_inj' htext rfl).2).symm hc
        · rw [← List.append_assoc, ← List.append_assoc] at htext
          rw [(List.append_inj' htext rfl).1, List.append_assoc]
          exact .element hbefore hvalue fun c hc => hafter c (List.mem_append_left _ hc)
  · intro h
    cases h with
    | element hbefore hvalue hafter =>
        rw [List.append_assoc, List.append_assoc]
        exact .element hbefore hvalue (List.forall_mem_append.2 ⟨hafter, by simp [isSpace]⟩)

theorem parse_append_return (cs : List Char) (j : Json) :
    parse (String.ofList (cs ++ ['\r'])) = .ok j ↔ parse (String.ofList cs) = .ok j := by
  simp only [Source.parse_eq_ok_iff, String.toList_ofList, Source.Spells.append_return_iff]

end Json

namespace Lines

structure IsSameRecord (line line' : List Char) : Prop where
  isBlankLine_eq : isBlankLine line = isBlankLine line'
  parse_iff : ∀ j, Json.parse (String.ofList line) = .ok j ↔ Json.parse (String.ofList line') = .ok j

def IsReturned (line line' : List Char) : Prop := line = line' ∨ line = line' ++ ['\r']

theorem IsReturned.cons {line line' : List Char} (h : IsReturned line line') (c : Char) :
    IsReturned (c :: line) (c :: line') :=
  h.imp (congrArg (c :: ·)) (congrArg (c :: ·))

theorem IsReturned.isSameRecord {line line' : List Char} (h : IsReturned line line') :
    IsSameRecord line line' := by
  rcases h with rfl | rfl
  · exact ⟨rfl, fun _ => .rfl⟩
  · refine ⟨?_, Json.parse_append_return line'⟩
    rw [isBlankLine, List.all_append, isBlankLine]
    exact Bool.and_true _

theorem exists_cons_split (cs : List Char) : ∃ line lines, split cs = line :: lines := by
  fun_induction split cs <;> exact ⟨_, _, rfl⟩

theorem exists_split_append (a b : List Char) :
    ∃ lines, split (a ++ '\n' :: b) = lines ++ split b ∧ List.Forall₂ IsReturned (split a) lines := by
  have hfeed (cs : List Char) : split ('\n' :: cs) = [] :: split cs :=
    (split.eq_3 _ _ fun _ h => by cases h).trans (if_pos rfl)
  fun_induction split a with
  | case1 => exact ⟨[[]], hfeed b, .cons (.inl rfl) .nil⟩
  | case2 cs ih =>
      obtain ⟨lines, hsplit, hlines⟩ := ih
      refine ⟨[] :: lines, ?_, .cons (.inl rfl) hlines⟩
      rw [List.cons_append, List.cons_append, split, hsplit, List.cons_append]
  | case3 cs _ ih =>
      obtain ⟨lines, hsplit, hlines⟩ := ih
      refine ⟨[] :: lines, ?_, .cons (.inl rfl) hlines⟩
      rw [List.cons_append, hfeed, hsplit, List.cons_append]
  | case4 c cs _ _ hnil =>
      obtain ⟨line, lines, hcons⟩ := exists_cons_split cs
      rw [hnil] at hcons
      cases hcons
  | case5 c cs hend hc line lines hcons ih =>
      by_cases hjoint : c = '\r' ∧ cs = []
      · obtain ⟨rfl, rfl⟩ := hjoint
        cases hcons
        refine ⟨[[]], ?_, .cons (.inr rfl) .nil⟩
        rw [List.singleton_append, split, List.singleton_append]
      · obtain ⟨lines', hsplit, hlines⟩ := ih
        rw [hcons] at hlines
        cases hlines with
        | @cons _ line' _ lines' hline hlines =>
            refine ⟨(c :: line') :: lines', ?_, .cons (hline.cons c) hlines⟩
            rw [List.cons_append, split, if_neg hc, hsplit]
            · rfl
            · intro cs' hreturn hcs
              cases cs with
              | nil => exact hjoint ⟨hreturn, rfl⟩
              | cons d ds =>
                  cases hcs
                  exact hend ds hreturn rfl

theorem length_split (cs : List Char) : (split cs).length = cs.count '\n' + 1 := by
  fun_induction split cs with
  | case1 => rfl
  | case2 cs ih => simp [ih]
  | case3 cs _ ih => simp [ih]
  | case4 c cs _ hc hnil ih => simp [hnil] at ih
  | case5 c cs _ hc line lines hcons ih =>
      rw [hcons] at ih
      rw [List.count_cons_of_ne hc, ← ih]
      rfl

theorem parseFrom_append (n : Nat) (xs ys : List (List Char)) :
    parseFrom n (xs ++ ys) =
      (parseFrom n xs).bind fun js => (parseFrom (n + xs.length) ys).map (js ++ ·) := by
  induction xs generalizing n with
  | nil =>
      rw [List.nil_append, parseFrom]
      cases parseFrom n ys <;> rfl
  | cons line xs ih =>
      have hnext : n + (line :: xs).length = n + 1 + xs.length := by rw [List.length_cons]; omega
      rw [List.cons_append, parseFrom, parseFrom, ih, hnext]
      split
      · rfl
      · cases Json.parse (String.ofList line) with
        | error => rfl
        | ok j =>
            cases parseFrom (n + 1) xs with
            | error => rfl
            | ok js => cases parseFrom (n + 1 + xs.length) ys <;> rfl

/-- The same records, or failures of which the second is on a line with a number that is greater by `m`. -/
inductive Alike (m : Nat) : Except FormError (List Json) → Except FormError (List Json) → Prop
  | ok (js : List Json) : Alike m (.ok js) (.ok js)
  | error (k : Nat) (e e' : Json.SyntaxError) :
      Alike m (.error { fault := .invalidJsonLine k e }) (.error { fault := .invalidJsonLine (m + k) e' })

theorem Alike.map {m : Nat} {r r' : Except FormError (List Json)} (h : Alike m r r')
    (f : List Json → List Json) : Alike m (r.map f) (r'.map f) := by
  cases h with
  | ok js => exact .ok _
  | error k e e' => exact .error k e e'

theorem alike_parseFrom {xs ys : List (List Char)} (h : List.Forall₂ IsReturned xs ys) (m n : Nat) :
    Alike m (parseFrom n xs) (parseFrom (m + n) ys) := by
  induction h generalizing n with
  | nil => exact .ok []
  | @cons line line' xs ys hline _ ih =>
      have hrest := ih (n + 1)
      obtain ⟨hblank, hparse⟩ := hline.isSameRecord
      rw [parseFrom, parseFrom, ← hblank]
      split
      · exact hrest
      · cases hread : Json.parse (String.ofList line) with
        | ok j =>
            rw [(hparse j).1 hread]
            exact hrest.map _
        | error e =>
            cases hread' : Json.parse (String.ofList line') with
            | ok j =>
                rw [(hparse j).2 hread'] at hread
                cases hread
            | error e' => exact .error n e e'

def FailsOn (text : String) (k : Nat) : Prop := ∃ e, parse text = .error { fault := .invalidJsonLine k e }

def lineCount (text : String) : Nat := text.toList.count '\n' + 1

theorem parse_joint (a b : String) : ∃ r r', Alike 0 (parse a) r ∧ Alike (lineCount a) (parse b) r' ∧
    parse (a ++ "\n" ++ b) = r.bind fun js => r'.map (js ++ ·) := by
  obtain ⟨lines, hsplit, hlines⟩ := exists_split_append a.toList b.toList
  have hsame : List.Forall₂ IsReturned (split b.toList) (split b.toList) :=
    List.forall₂_same.2 fun _ _ => .inl rfl
  have htext : (a ++ "\n" ++ b).toList = a.toList ++ '\n' :: b.toList := by simp
  have hcount : lines.length = lineCount a := by rw [← hlines.length_eq, length_split, lineCount]
  refine ⟨parseFrom 1 lines, parseFrom (lineCount a + 1) (split b.toList), ?_,
    alike_parseFrom hsame _ 1, ?_⟩
  · have hread := alike_parseFrom hlines 0 1
    rw [Nat.zero_add] at hread
    exact hread
  · rw [parse, htext, hsplit, parseFrom_append, hcount, Nat.add_comm 1]

variable {a b : String} {js ks : List Json} {k : Nat}

theorem parse_or_failsOn (text : String) : (∃ js, parse text = .ok js) ∨ ∃ k, FailsOn text k := by
  obtain ⟨r, -, h, -⟩ := parse_joint text ""
  generalize hparse : parse text = r₀ at h
  cases h with
  | ok js => exact .inl ⟨js, rfl⟩
  | error k e e' => exact .inr ⟨k, e, hparse⟩

theorem FailsOn.joined (h : FailsOn a k) (b : String) : FailsOn (a ++ "\n" ++ b) k := by
  obtain ⟨e, he⟩ := h
  obtain ⟨r, r', hr, -, hparse⟩ := parse_joint a b
  rw [he] at hr
  cases hr with
  | error _ _ e' => exact ⟨e', by rw [hparse, Nat.zero_add]; rfl⟩

theorem FailsOn.joined_of_parse (ha : parse a = .ok js) (h : FailsOn b k) :
    FailsOn (a ++ "\n" ++ b) (lineCount a + k) := by
  obtain ⟨e, he⟩ := h
  obtain ⟨r, r', hr, hr', hparse⟩ := parse_joint a b
  rw [ha] at hr
  rw [he] at hr'
  cases hr
  cases hr' with
  | error _ _ e' => exact ⟨e', hparse⟩

theorem parse_append (ha : parse a = .ok js) (hb : parse b = .ok ks) :
    parse (a ++ "\n" ++ b) = .ok (js ++ ks) := by
  obtain ⟨r, r', hr, hr', hparse⟩ := parse_joint a b
  rw [ha] at hr
  rw [hb] at hr'
  cases hr
  cases hr'
  exact hparse

theorem parse_intercalate {pieces : List String} {jss : List (List Json)} (hne : pieces ≠ [])
    (h : List.Forall₂ (fun piece js => parse piece = .ok js) pieces jss) :
    parse ("\n".intercalate pieces) = .ok jss.flatten := by
  induction h with
  | nil => exact absurd rfl hne
  | @cons piece js pieces jss hpiece hpieces ih =>
      cases hpieces with
      | nil => rw [String.intercalate_singleton, hpiece, List.flatten_singleton]
      | cons =>
          rw [String.intercalate_cons_cons]
          exact parse_append hpiece (ih (by simp))

theorem failsOn_intercalate {piece : String} (h : FailsOn piece k) (after : List String)
    {before : List String} (hbefore : ∀ text ∈ before, ∃ js, parse text = .ok js) :
    FailsOn ("\n".intercalate (before ++ piece :: after)) ((before.map lineCount).sum + k) := by
  induction before with
  | nil =>
      rw [List.nil_append, List.map_nil, List.sum_nil, Nat.zero_add]
      cases after with
      | nil => rwa [String.intercalate_singleton]
      | cons =>
          rw [String.intercalate_cons_cons]
          exact h.joined _
  | cons text before ih =>
      obtain ⟨⟨js, hjs⟩, hbefore⟩ := List.forall_mem_cons.1 hbefore
      have hrest := FailsOn.joined_of_parse hjs (ih hbefore)
      rw [List.map_cons, List.sum_cons, Nat.add_assoc, List.cons_append,
        String.intercalate_cons_of_ne_nil (by simp)]
      exact hrest

/-- A text joined of two fails where the first does, or else where the second does, its lines counted on
from those of the first, and otherwise gives the records of both. So does one joined of any number. -/
theorem parse_joined (a b : String) :
    (∀ k, FailsOn a k → FailsOn (a ++ "\n" ++ b) k) ∧
    (∀ js k, parse a = .ok js → FailsOn b k → FailsOn (a ++ "\n" ++ b) (lineCount a + k)) ∧
    (∀ js ks, parse a = .ok js → parse b = .ok ks → parse (a ++ "\n" ++ b) = .ok (js ++ ks)) ∧
    (∀ text, (∃ js, parse text = .ok js) ∨ ∃ k, FailsOn text k) ∧
    (∀ pieces jss, pieces ≠ [] → List.Forall₂ (fun piece js => parse piece = .ok js) pieces jss →
      parse ("\n".intercalate pieces) = .ok jss.flatten) ∧
    ∀ before piece after k, (∀ text ∈ before, ∃ js, parse text = .ok js) → FailsOn piece k →
      FailsOn ("\n".intercalate (before ++ piece :: after)) ((before.map lineCount).sum + k) :=
  ⟨fun _ h => h.joined b, fun _ _ ha h => .joined_of_parse ha h, fun _ _ => parse_append, parse_or_failsOn,
    fun _ _ => parse_intercalate, fun _ _ after _ hbefore h => failsOn_intercalate h after hbefore⟩

end Lines

end RecordSieve
