import RecordSieve.Proofs.Value.Operand

namespace RecordSieve

namespace Query

@[elab_as_elim]
theorem byChildren {motive : Query → Prop} (empty : motive .empty)
    (check : ∀ op field operand, motive (.check op field operand))
    (order : ∀ op field operand, motive (.order op field operand))
    (joined : ∀ joint children, (∀ q ∈ children, motive q) → motive (.joined joint children))
    (not : ∀ child, motive child → motive (.not child))
    (compare : ∀ op lhs rhs, motive (.compare op lhs rhs)) (q : Query) : motive q :=
  match q with
  | .empty => empty
  | .check op field operand => check op field operand
  | .order op field operand => order op field operand
  | .joined joint children =>
      joined joint children fun q _ => byChildren empty check order joined not compare q
  | .not child => not child (byChildren empty check order joined not compare child)
  | .compare op lhs rhs => compare op lhs rhs

def operand? : Query → Option Value
  | .check _ _ operand => some operand
  | .order _ _ operand => some operand
  | _ => none

def field? : Query → Option String
  | .check _ field _ => some field
  | .order _ field _ => some field
  | _ => none

def isComparison : Query → Bool
  | .compare _ _ _ => true
  | _ => false

theorem operand?_all_and (p p' : Value → Bool) (q : Query) :
    q.operand?.all (fun v => p v && p' v) = (q.operand?.all p && q.operand?.all p') := by
  cases q.operand? <;> rfl

mutual

def everywhere (p : Query → Bool) : Query → Bool
  | .joined joint children => p (.joined joint children) && everywhereIn p children
  | .not child => p (.not child) && everywhere p child
  | q => p q

def everywhereIn (p : Query → Bool) : List Query → Bool
  | [] => true
  | q :: qs => everywhere p q && everywhereIn p qs

end

theorem everywhereIn_eq_true_iff {p : Query → Bool} {qs : List Query} :
    everywhereIn p qs = true ↔ ∀ q ∈ qs, everywhere p q = true := by
  induction qs with
  | nil => simp [everywhereIn]
  | cons q qs ih => simp [everywhereIn, ih]

theorem everywhere_joined {p : Query → Bool} {joint : Joint} {children : List Query} :
    everywhere p (.joined joint children) = true ↔
      p (.joined joint children) = true ∧ ∀ q ∈ children, everywhere p q = true := by
  rw [everywhere, Bool.and_eq_true, everywhereIn_eq_true_iff]

theorem everywhere_not {p : Query → Bool} {child : Query} :
    everywhere p (.not child) = true ↔ p (.not child) = true ∧ everywhere p child = true := by
  rw [everywhere, Bool.and_eq_true]

theorem everywhere_imp {p p' : Query → Bool} (h : ∀ s, p s = true → p' s = true) (q : Query)
    (hq : everywhere p q = true) : everywhere p' q = true := by
  induction q using byChildren with
  | empty | check | order | compare => exact h _ hq
  | joined joint children ih =>
      obtain ⟨hp, hall⟩ := everywhere_joined.1 hq
      exact everywhere_joined.2 ⟨h _ hp, fun q hin => ih q hin (hall q hin)⟩
  | not child ih =>
      obtain ⟨hp, hc⟩ := everywhere_not.1 hq
      exact everywhere_not.2 ⟨h _ hp, ih hc⟩

theorem everywhere_self {p : Query → Bool} {q : Query} (hq : everywhere p q = true) : p q = true := by
  cases q with
  | empty | check | order | compare => exact hq
  | joined joint children => exact (everywhere_joined.1 hq).1
  | not child => exact (everywhere_not.1 hq).1

theorem everywhere_and {p p' : Query → Bool} {q : Query} (hq : everywhere p q = true)
    (hq' : everywhere p' q = true) : everywhere (fun s => p s && p' s) q = true := by
  induction q using byChildren with
  | empty | check | order | compare => exact Bool.and_eq_true_iff.2 ⟨hq, hq'⟩
  | joined joint children ih =>
      obtain ⟨hp, hall⟩ := everywhere_joined.1 hq
      obtain ⟨hp', hall'⟩ := everywhere_joined.1 hq'
      exact everywhere_joined.2 ⟨Bool.and_eq_true_iff.2 ⟨hp, hp'⟩,
        fun q hin => ih q hin (hall q hin) (hall' q hin)⟩
  | not child ih =>
      obtain ⟨hp, hc⟩ := everywhere_not.1 hq
      obtain ⟨hp', hc'⟩ := everywhere_not.1 hq'
      exact everywhere_not.2 ⟨Bool.and_eq_true_iff.2 ⟨hp, hp'⟩, ih hc hc'⟩

theorem everywhere_congr {p p' r : Query → Bool} (h : ∀ s, r s = true → (p s = true ↔ p' s = true))
    (q : Query) (hq : everywhere r q = true) : everywhere p q = true ↔ everywhere p' q = true := by
  induction q using byChildren with
  | empty | check | order | compare => exact h _ hq
  | joined joint children ih =>
      obtain ⟨hr, hall⟩ := everywhere_joined.1 hq
      rw [everywhere_joined, everywhere_joined, h _ hr]
      exact and_congr_right fun _ => forall₂_congr fun q hin => ih q hin (hall q hin)
  | not child ih =>
      obtain ⟨hr, hc⟩ := everywhere_not.1 hq
      rw [everywhere_not, everywhere_not, h _ hr, ih hc]

theorem everywhere_true (q : Query) : everywhere (fun _ => true) q = true := by
  induction q using byChildren with
  | empty | check | order | compare => rfl
  | joined joint children ih => exact everywhere_joined.2 ⟨rfl, ih⟩
  | not child ih => exact everywhere_not.2 ⟨rfl, ih⟩

end Query

namespace Joint

def neutral : Joint → Bool
  | .all => true
  | .any => false

def combine : Joint → Except Failure Bool → Except Failure Bool → Except Failure Bool
  | .all, .ok true, b => b
  | .any, .ok false, b => b
  | _, a, _ => a

theorem combine_neutral (joint : Joint) (a : Except Failure Bool) :
    joint.combine a (.ok joint.neutral) = a := by
  rcases joint with _ | _ <;> rcases a with _ | _ | _ <;> rfl

theorem combine_assoc (joint : Joint) (a b c : Except Failure Bool) :
    joint.combine (joint.combine a b) c = joint.combine a (joint.combine b c) := by
  rcases joint with _ | _ <;> rcases a with _ | _ | _ <;> rfl

end Joint

namespace Query

variable {options : Options} {s : Subject} {input : Input}

theorem evalAll_eq_foldr (qs : List Query) : evalAll options s qs =
    qs.foldr (fun q rest => Joint.all.combine (q.evalOn options s) rest) (.ok true) := by
  induction qs with
  | nil => rfl
  | cons q qs ih =>
      rw [evalAll, List.foldr_cons, ← ih]
      rcases q.evalOn options s with _ | _ | _ <;> rfl

theorem evalAny_eq_foldr (qs : List Query) : evalAny options s qs =
    qs.foldr (fun q rest => Joint.any.combine (q.evalOn options s) rest) (.ok false) := by
  induction qs with
  | nil => rfl
  | cons q qs ih =>
      rw [evalAny, List.foldr_cons, ← ih]
      rcases q.evalOn options s with _ | _ | _ <;> rfl

theorem evalOn_joined (joint : Joint) (children : List Query) :
    evalOn options s (.joined joint children) = children.foldr
      (fun q rest => joint.combine (q.evalOn options s) rest) (.ok joint.neutral) := by
  cases joint with
  | all => rw [evalOn, evalAll_eq_foldr]; rfl
  | any => rw [evalOn, evalAny_eq_foldr]; rfl

theorem evalOn_joined_cons (joint : Joint) (q : Query) (qs : List Query) :
    evalOn options s (.joined joint (q :: qs)) =
      joint.combine (q.evalOn options s) (evalOn options s (.joined joint qs)) := by
  rw [evalOn_joined, evalOn_joined, List.foldr_cons]

theorem eval_joined (joint : Joint) (children : List Query) :
    eval options input (.joined joint children) = children.foldr
      (fun q rest => joint.combine (q.eval options input) rest) (.ok joint.neutral) :=
  evalOn_joined joint children

theorem eval_joined_cons (joint : Joint) (q : Query) (qs : List Query) :
    eval options input (.joined joint (q :: qs)) =
      joint.combine (q.eval options input) (eval options input (.joined joint qs)) := by
  rw [eval_joined, eval_joined, List.foldr_cons]

theorem eval_joined_map {joint : Joint} {f : Query → Query} {qs : List Query}
    (h : ∀ q ∈ qs, (f q).eval options input = q.eval options input) :
    eval options input (.joined joint (qs.map f)) = eval options input (.joined joint qs) := by
  induction qs with
  | nil => rfl
  | cons q qs ih =>
      rw [List.map_cons, eval_joined_cons, eval_joined_cons, h q (by simp),
        ih fun r hr => h r (by simp [hr])]

mutual

def mapOperands (g : Value → Value) : Query → Query
  | .check op field operand => .check op field (g operand)
  | .order op field operand => .order op field (g operand)
  | .joined joint children => .joined joint (mapOperandsIn g children)
  | .not child => .not (mapOperands g child)
  | q => q

def mapOperandsIn (g : Value → Value) : List Query → List Query
  | [] => []
  | q :: qs => mapOperands g q :: mapOperandsIn g qs

end

theorem mapOperandsIn_eq_map (g : Value → Value) (qs : List Query) :
    mapOperandsIn g qs = qs.map (mapOperands g) := by
  induction qs with
  | nil => rfl
  | cons q qs ih => rw [mapOperandsIn, ih, List.map_cons]

/-- Whether a change of operands leaves every test as it is that a query makes itself. -/
def KeepsTests (g : Value → Value) : Query → Prop
  | .check op _ v => ∀ loose f, op.holds loose f (g v) = op.holds loose f v
  | .order op _ v => ∀ f, op.holdsFor f (g v) = op.holdsFor f v
  | _ => True

theorem keepsTests_of_interchangeable {g : Value → Value} {q : Query}
    (h : ∀ v, q.operand? = some v → (g v).Interchangeable v) : q.KeepsTests g := by
  cases q with
  | check op field v => exact fun loose f => MatchOp.holds_congr (h v rfl) op loose f
  | order op field v => exact fun f => OrderOp.holdsFor_congr (h v rfl).text ((h v rfl).place f) op
  | _ => trivial

theorem eval_mapOperands_of_keepsTests {p : Query → Bool} {g : Value → Value}
    (hg : ∀ s, p s = true → s.KeepsTests g) (q : Query) (hq : q.everywhere p = true) :
    (q.mapOperands g).eval options input = q.eval options input := by
  induction q using byChildren with
  | empty | compare => simp only [mapOperands]
  | check op field operand =>
      have htests : (check op field operand).KeepsTests g := hg _ hq
      simp only [mapOperands, eval_check, htests options.looseEquality _]
  | order op field operand =>
      have htests : (order op field operand).KeepsTests g := hg _ hq
      simp only [mapOperands, eval_order, htests _]
  | joined joint children ih =>
      rw [mapOperands, mapOperandsIn_eq_map]
      exact eval_joined_map fun q hin => ih q hin ((everywhere_joined.1 hq).2 q hin)
  | not child ih => rw [mapOperands, eval_not, eval_not, ih (everywhere_not.1 hq).2]

theorem eval_mapOperands {p : Value → Bool} {g : Value → Value}
    (hg : ∀ v, p v = true → (g v).Interchangeable v) (q : Query)
    (hq : q.everywhere (·.operand?.all p) = true) :
    (q.mapOperands g).eval options input = q.eval options input := by
  refine eval_mapOperands_of_keepsTests (fun s hs => ?_) q hq
  exact keepsTests_of_interchangeable fun v hv => hg v (by simpa [hv] using hs)

theorem mapOperands_congr {p : Value → Bool} {g g' : Value → Value} (hg : ∀ v, p v = true → g v = g' v)
    (q : Query) (hq : q.everywhere (·.operand?.all p) = true) : q.mapOperands g = q.mapOperands g' := by
  induction q using byChildren with
  | empty | compare => simp only [mapOperands]
  | check op field operand => rw [mapOperands, mapOperands, hg operand hq]
  | order op field operand => rw [mapOperands, mapOperands, hg operand hq]
  | joined joint children ih =>
      rw [mapOperands, mapOperands, mapOperandsIn_eq_map, mapOperandsIn_eq_map, List.map_congr_left]
      exact fun q hin => ih q hin ((everywhere_joined.1 hq).2 q hin)
  | not child ih => rw [mapOperands, mapOperands, ih (everywhere_not.1 hq).2]

theorem mapOperands_eq_self {p : Value → Bool} {g : Value → Value} (hg : ∀ v, p v = true → g v = v)
    (q : Query) (hq : q.everywhere (·.operand?.all p) = true) : q.mapOperands g = q := by
  induction q using byChildren with
  | empty | compare => simp only [mapOperands]
  | check op field operand => rw [mapOperands, hg operand hq]
  | order op field operand => rw [mapOperands, hg operand hq]
  | joined joint children ih =>
      rw [mapOperands, mapOperandsIn_eq_map, List.map_congr_left (g := id), List.map_id]
      exact fun q hin => ih q hin ((everywhere_joined.1 hq).2 q hin)
  | not child ih => rw [mapOperands, ih (everywhere_not.1 hq).2]

mutual

def paired : Query → Query
  | .joined joint (q :: qs) => pairedFrom joint (paired q) qs
  | .not child => .not (paired child)
  | q => q

def pairedFrom (joint : Joint) (left : Query) : List Query → Query
  | [] => left
  | q :: qs => pairedFrom joint (.joined joint [left, paired q]) qs

end

theorem eval_pairedFrom {joint : Joint} {left : Query} {qs : List Query}
    (h : ∀ q ∈ qs, (paired q).eval options input = q.eval options input) :
    (pairedFrom joint left qs).eval options input = eval options input (.joined joint (left :: qs)) := by
  induction qs generalizing left with
  | nil =>
      rw [pairedFrom, eval_joined_cons, eval_joined, List.foldr_nil, Joint.combine_neutral]
  | cons q qs ih =>
      rw [pairedFrom, ih fun r hr => h r (by simp [hr])]
      simp only [eval_joined_cons, h q (by simp)]
      rw [eval_joined, List.foldr_nil, Joint.combine_neutral, Joint.combine_assoc]

theorem eval_paired (q : Query) : q.paired.eval options input = q.eval options input := by
  induction q using byChildren with
  | empty | check | order | compare => simp only [paired]
  | joined joint children ih =>
      cases children with
      | nil => simp only [paired]
      | cons q qs =>
          rw [paired, eval_pairedFrom fun r hr => ih r (by simp [hr]), eval_joined_cons,
            eval_joined_cons, ih q (by simp)]
  | not child ih => rw [paired, eval_not, eval_not, ih]

theorem paired_eq_self (q : Query)
    (hq : q.everywhere (fun | .joined _ children => children.length == 2 | _ => true) = true) :
    q.paired = q := by
  induction q using byChildren with
  | empty | check | order | compare => simp only [paired]
  | joined joint children ih =>
      obtain ⟨hlen, hall⟩ := everywhere_joined.1 hq
      obtain ⟨l, r, rfl⟩ : ∃ l r, children = [l, r] := by
        match children, hlen with
        | [l, r], _ => exact ⟨l, r, rfl⟩
      rw [paired, pairedFrom, pairedFrom, ih l (by simp) (hall l (by simp)),
        ih r (by simp) (hall r (by simp))]
  | not child ih => rw [paired, ih (everywhere_not.1 hq).2]

end Query

end RecordSieve
