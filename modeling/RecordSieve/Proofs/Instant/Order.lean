import RecordSieve.Proofs.Datum.Tracking
import RecordSieve.Proofs.Instant.Calendar
import RecordSieve.Proofs.Number.Digits
import RecordSieve.Proofs.Text.Char
import RecordSieve.Proofs.Text.Order

namespace RecordSieve

theorem length_padded {width n : Nat} (hwidth : 0 < width) (hn : n < 10 ^ width) :
    (padded width n).length = width := by
  have hle : (digitsOf n).length ≤ width := (Nat.length_toDigits_le_iff (by decide) hwidth).2 hn
  rw [padded, List.length_append, List.length_replicate]
  omega

theorem all_isDigit_padded (width n : Nat) : (padded width n).all Char.isDigit = true := by
  rw [padded, List.all_append, all_isDigit_zeros, all_isDigit_digitsOf, Bool.and_self]

theorem digitsValue_padded (width n : Nat) : digitsValue (padded width n) = n := by
  rw [padded, digitsValue_append, digitsValue_zeros, Nat.mul_zero, Nat.zero_add, digitsValue_digitsOf]

theorem digitsValue_cons (c : Char) (cs : List Char) :
    digitsValue (c :: cs) = 10 ^ cs.length * (c.toNat - '0'.toNat) + digitsValue cs := by
  rw [← List.singleton_append, digitsValue_append]
  simp [digitsValue, Nat.ofDigitChars]

theorem digitsValue_lt {cs : List Char} (h : cs.all Char.isDigit = true) :
    digitsValue cs < 10 ^ cs.length := by
  induction cs with
  | nil => decide
  | cons c cs ih =>
      obtain ⟨hc, hcs⟩ := Bool.and_eq_true_iff.1 h
      have hdigit : c.toNat - '0'.toNat ≤ 9 := Nat.sub_le_of_le_add (Text.toNat_of_isDigit hc).2
      have hscaled := Nat.mul_le_mul_left (10 ^ cs.length) hdigit
      have hrest := ih hcs
      rw [digitsValue_cons, List.length_cons, Nat.pow_succ]
      omega

theorem digits_append_lt {cs ds : List Char} (hcs : cs.all Char.isDigit = true)
    (hds : ds.all Char.isDigit = true) (hlength : cs.length = ds.length)
    (h : digitsValue cs < digitsValue ds) (xs ys : List Char) :
    (cs ++ xs).map Char.toNat < (ds ++ ys).map Char.toNat := by
  induction cs generalizing ds with
  | nil =>
      rw [List.length_eq_zero_iff.1 hlength.symm] at h
      exact absurd h (Nat.lt_irrefl _)
  | cons c cs ih =>
      cases ds with
      | nil => cases hlength
      | cons d ds =>
          obtain ⟨hc, hcs⟩ := Bool.and_eq_true_iff.1 hcs
          obtain ⟨hd, hds⟩ := Bool.and_eq_true_iff.1 hds
          have hlength : cs.length = ds.length := Nat.succ.inj hlength
          refine List.cons_lt_cons_iff.2 ?_
          rcases Nat.lt_trichotomy c.toNat d.toNat with hlt | heq | hgt
          · exact .inl hlt
          · refine .inr ⟨heq, ih hcs hds hlength ?_⟩
            rw [digitsValue_cons, digitsValue_cons, heq, hlength] at h
            omega
          · have hdigit := (Text.toNat_of_isDigit hd).1
            have hstep : d.toNat - '0'.toNat + 1 ≤ c.toNat - '0'.toNat := by
              show d.toNat - 0x30 + 1 ≤ c.toNat - 0x30
              omega
            have hscaled := Nat.mul_le_mul_left (10 ^ ds.length) hstep
            have hrest := digitsValue_lt hds
            rw [digitsValue_cons, digitsValue_cons, hlength] at h
            rw [Nat.mul_add, Nat.mul_one] at hscaled
            omega

def spread : List (Nat × Char) → List Nat → List Char
  | (width, mark) :: form, n :: ns => padded width n ++ mark :: spread form ns
  | _, _ => []

inductive Fits : List (Nat × Char) → List Nat → Prop
  | nil : Fits [] []
  | cons {width n : Nat} {mark : Char} {form : List (Nat × Char)} {ns : List Nat} : 0 < width →
      n < 10 ^ width → Fits form ns → Fits ((width, mark) :: form) (n :: ns)

theorem spread_lt {form : List (Nat × Char)} {ms ns : List Nat} (hms : Fits form ms) (hns : Fits form ns)
    (h : ms < ns) : (spread form ms).map Char.toNat < (spread form ns).map Char.toNat := by
  induction hms generalizing ns with
  | nil =>
      cases hns
      exact absurd h (List.lt_irrefl _)
  | @cons width m mark form ms hwidth hm _ ih =>
      cases hns with
      | @cons _ n _ _ ns _ hn hns =>
          rw [spread, spread]
          rcases List.cons_lt_cons_iff.1 h with hlt | ⟨rfl, hlater⟩
          · refine digits_append_lt (all_isDigit_padded width m) (all_isDigit_padded width n) ?_ ?_ _ _
            · rw [length_padded hwidth hm, length_padded hwidth hn]
            · rwa [digitsValue_padded, digitsValue_padded]
          · rw [List.map_append, List.map_append, List.map_cons, List.map_cons]
            exact List.append_left_lt (List.cons_lt_cons_iff.2 (.inr ⟨rfl, ih hns hlater⟩))

namespace Instant

open Calendar (civil IsDate Precedes isDate_civil precedes_civil monthDays)

def dayMillis : Int := 86400000

def year (millis : Int) : Int := (civil (Int.fdiv millis dayMillis)).1

def IsOrdinary (millis : Int) : Prop := 0 ≤ year millis ∧ year millis ≤ 9999

instance (millis : Int) : Decidable (IsOrdinary millis) := inferInstanceAs (Decidable (_ ∧ _))

def form : List (Nat × Char) := [(4, '-'), (2, '-'), (2, 'T'), (2, ':'), (2, ':'), (2, '.'), (3, 'Z')]

def timeNumbers (rest : Nat) : List Nat := [rest / 3600000, rest / 60000 % 60, rest / 1000 % 60, rest % 1000]

def numbers (date : Int × Nat × Nat) (rest : Nat) : List Nat :=
  date.1.toNat :: date.2.1 :: date.2.2 :: timeNumbers rest

variable {millis later : Int} {date date' : Int × Nat × Nat} {rest rest' : Nat}

theorem text_eq (h : IsOrdinary millis) : text millis =
    spread form (numbers (civil (Int.fdiv millis dayMillis)) (Int.fmod millis dayMillis).toNat) := by
  have hyear : yearText (year millis) = padded 4 (year millis).toNat := if_pos h
  simp only [year, dayMillis] at hyear
  simp only [text, form, numbers, timeNumbers, spread, hyear, dayMillis, List.append_assoc, List.cons_append]

theorem monthDays_le (year : Int) (month : Nat) : monthDays year month ≤ 31 := by
  have := Calendar.leapDays_le_one year
  unfold monthDays
  split <;> omega

theorem fits_numbers (hdate : IsDate date) (hyear : 0 ≤ date.1 ∧ date.1 ≤ 9999) (hrest : rest < 86400000) :
    Fits form (numbers date rest) := by
  obtain ⟨⟨-, hmonth⟩, -, hday⟩ := hdate
  have := monthDays_le date.1 date.2.1
  exact .cons (by decide) (by omega) (.cons (by decide) (by omega) (.cons (by decide) (by omega)
    (.cons (by decide) (by omega) (.cons (by decide) (by omega) (.cons (by decide) (by omega)
      (.cons (by decide) (by omega) .nil))))))

theorem timeNumbers_lt (h : rest < rest') : timeNumbers rest < timeNumbers rest' := by
  simp only [timeNumbers, List.cons_lt_cons_iff]
  omega

theorem numbers_lt_of_precedes (hyear : 0 ≤ date.1) (h : Precedes date date') :
    numbers date rest < numbers date' rest' := by
  have hlt : date.1.toNat < date'.1.toNat ∨ date.1.toNat = date'.1.toNat ∧
      (date.2.1 < date'.2.1 ∨ date.2.1 = date'.2.1 ∧ date.2.2 < date'.2.2) := by
    rcases h with h | ⟨heq, h⟩
    · exact .inl (by omega)
    · exact .inr ⟨by rw [heq], h⟩
  simp only [numbers, List.cons_lt_cons_iff]
  exact hlt.imp_right (And.imp_right (Or.imp_right (And.imp_right .inl)))

theorem numbers_lt_of_rest (h : rest < rest') : numbers date rest < numbers date rest' := by
  simp only [numbers, List.cons_lt_cons_iff]
  exact .inr ⟨trivial, .inr ⟨trivial, .inr ⟨trivial, timeNumbers_lt h⟩⟩⟩

theorem fdiv_dayMillis (millis : Int) : Int.fdiv millis dayMillis = millis / 86400000 :=
  Int.fdiv_eq_ediv_of_nonneg _ (by decide)

theorem fmod_dayMillis (millis : Int) : Int.fmod millis dayMillis = millis % 86400000 :=
  Int.fmod_eq_emod_of_nonneg _ (by decide)

theorem rest_lt (millis : Int) : (Int.fmod millis dayMillis).toNat < 86400000 := by
  rw [fmod_dayMillis]
  omega

theorem split_lt (h : millis < later) : Int.fdiv millis dayMillis < Int.fdiv later dayMillis ∨
    Int.fdiv millis dayMillis = Int.fdiv later dayMillis ∧
      (Int.fmod millis dayMillis).toNat < (Int.fmod later dayMillis).toNat := by
  rw [fdiv_dayMillis, fdiv_dayMillis, fmod_dayMillis, fmod_dayMillis]
  omega

theorem text_lt (hmillis : IsOrdinary millis) (hlater : IsOrdinary later) (h : millis < later) :
    (text millis).map Char.toNat < (text later).map Char.toNat := by
  rw [text_eq hmillis, text_eq hlater]
  refine spread_lt (fits_numbers (isDate_civil _).1 hmillis (rest_lt millis))
    (fits_numbers (isDate_civil _).1 hlater (rest_lt later)) ?_
  rcases split_lt h with hdays | ⟨hdays, hrest⟩
  · exact numbers_lt_of_precedes hmillis.1 (precedes_civil hdays)
  · rw [hdays]
    exact numbers_lt_of_rest hrest

end Instant

theorem OrderOp.relates_congr {α β : Type} [LinearOrder α] [LinearOrder β] {x y : α} {u v : β}
    (hlt : x < y → u < v) (heq : x = y → u = v) (hgt : y < x → v < u) (op : OrderOp) :
    op.Relates u v ↔ op.Relates x y := by
  rcases lt_trichotomy x y with h | h | h
  · have := hlt h
    cases op <;> simp [Relates, h, h.le, h.not_gt, h.not_ge, this, this.le, this.not_gt, this.not_ge]
  · rw [heq h, h]
    cases op <;> simp [Relates]
  · have := hgt h
    cases op <;> simp [Relates, h, h.le, h.not_gt, h.not_ge, this, this.le, this.not_gt, this.not_ge]

namespace Datum

theorem project_date (objects : Objects) (millis : Int) :
    (date (some millis)).project objects = .string (String.ofList (Instant.text millis)) := by
  simp only [project]
  rfl

theorem project_of_resolve {objects : Objects} {d : Datum} {millis : Int}
    (h : d.resolve objects = .date (some millis)) :
    d.project objects = .string (String.ofList (Instant.text millis)) := by
  cases d with
  | ref name =>
      rw [resolve] at h
      cases hfind : objects.find? name with
      | none =>
          rw [hfind] at h
          cases h
      | some object =>
          rw [hfind, Option.getD_some] at h
          rw [project_ref, hfind, Option.elim_some, h, project_date]
  | date =>
      cases h
      exact project_date objects millis
  | _ => cases h

end Datum

namespace Query

/-- Dates in fields are compared with dates as time goes. -/
theorem eval_order_instants {input : Input} {view : RecordView} {field : String} {d : Datum}
    {first second : Int} (hview : input.view? = .ok (some view)) (hfield : view.field? field = some d)
    (hd : d.resolve input.objects = .date (some first)) (hfirst : Instant.IsOrdinary first)
    (hsecond : Instant.IsOrdinary second) (op : OrderOp) (options : Options) :
    ∃ matched, (Query.order op field (Input.toValue ⟨[], .date (some second)⟩)).eval options input = .ok matched ∧
      (matched = true ↔ op.Relates first second) := by
  have hlookup : input.lookup field = .ok (some (.string (String.ofList (Instant.text first)))) := by
    rw [Input.lookup, hview, ← Datum.project_of_resolve hd]
    simp only [Except.map, Option.bind_some, hfield, Option.map_some]
  refine ⟨op.holdsFor (.string (String.ofList (Instant.text first)))
    (Input.toValue ⟨[], .date (some second)⟩), by rw [eval_order, Input.test_subject, hlookup]; rfl, ?_⟩
  have hlt := Instant.text_lt hfirst hsecond
  have hgt := Instant.text_lt hsecond hfirst
  rw [Input.toValue, Datum.project_date, Text.holdsFor_string_iff]
  simp only [Text.codePoints, Value.text, String.toList_ofList]
  exact OrderOp.relates_congr hlt (fun h => by rw [h]) hgt op

theorem eval_order_instants_leap_day :
    let input : Input := ⟨[], .object [("at", .ok (.date (some 951868799999)))] []⟩
    let operand := Input.toValue ⟨[], .date (some 951868800000)⟩
    operand = .string "2000-03-01T00:00:00.000Z" ∧
      (Query.order .lt "at" operand).eval {} input = .ok true ∧
      (Query.order .gte "at" operand).eval {} input = .ok false := by
  intro input operand
  obtain ⟨view, hview, hfield⟩ : ∃ view : RecordView, input.view? = .ok (some view) ∧
    view.field? "at" = some (.date (some 951868799999)) := ⟨_, rfl, rfl⟩
  have hfirst : Instant.IsOrdinary 951868799999 := by decide
  have hsecond : Instant.IsOrdinary 951868800000 := by decide
  have hcompares := eval_order_instants hview hfield rfl hfirst hsecond
  obtain ⟨before, hbefore, hlt⟩ := hcompares .lt {}
  obtain ⟨after, hafter, hge⟩ := hcompares .gte {}
  refine ⟨?_, ?_, ?_⟩
  · exact (Datum.project_date [] _).trans (congrArg Value.string (by rfl))
  · rw [hbefore, hlt.2 (by show (951868799999 : Int) < _; decide)]
  · rw [hafter, Bool.eq_false_iff.2 fun h => absurd (hge.1 h) (by show ¬(_ : Int) ≤ _; decide)]

end Query

end RecordSieve
