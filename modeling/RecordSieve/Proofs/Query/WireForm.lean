import RecordSieve.Proofs.Datum.Json
import RecordSieve.Proofs.Outcome
import RecordSieve.Proofs.Value.Recoding
import RecordSieve.Proofs.Query.Shape
import RecordSieve.Query.Wire

namespace RecordSieve

namespace Value

def lacksPrototypeKey : Value → Bool
  | .map entries => entries.all (·.1 != "__proto__")
  | _ => true

end Value

namespace Query

open Except

mutual

def height : Query → Nat
  | .joined _ children => heightIn children
  | .not child => height child + 1
  | _ => 0

def heightIn : List Query → Nat
  | [] => 0
  | q :: qs => max (height q + 1) (heightIn qs)

end

def fieldFits (field : String) : Bool :=
  decide (1 ≤ Text.units field ∧ Text.units field ≤ greatestFieldLength)

def isWithinSizes (q : Query) : Bool :=
  q.field?.all fieldFits &&
    match q with
    | .joined _ children => decide (children.length ≤ greatestChildCount)
    | _ => true

def isWithinLimits (q : Query) : Bool :=
  q.field?.all fieldFits && q.operand?.all (·.everywhere Value.lacksPrototypeKey) &&
    match q with
    | .joined _ children => decide (children.length ≤ greatestChildCount)
    | _ => true

theorem isWithinSizes_of_isWithinLimits {q : Query} (h : q.isWithinLimits = true) :
    q.isWithinSizes = true := by
  unfold isWithinLimits at h
  obtain ⟨hboth, hcount⟩ := Bool.and_eq_true_iff.1 h
  exact Bool.and_eq_true_iff.2 ⟨(Bool.and_eq_true_iff.1 hboth).1, hcount⟩

def HasExpression (j : Json) (type : String) (payload : Entries Json) : Prop :=
  ∃ properties expression, j = .object properties ∧
    Entries.find? "Expression" properties = some (.object expression) ∧
    Entries.find? "Type" expression = some (.string type) ∧
    Entries.find? "Expression" expression = some (.object payload)

def IsLeafPayload (payload : Entries Json) (field : String) (operand : Value) : Prop :=
  Entries.find? "Field" payload = some (.string field) ∧ fieldFits field = true ∧
    match Entries.find? "Value" payload with
    | none => operand = .null
    | some j => j.everywhere Json.isDefinite = true ∧ operand = .ofJson j.withoutPrototypes

def ListsChildren (payload : Entries Json) (items : List Json) : Prop :=
  match Entries.find? "Expressions" payload with
  | none => items = []
  | some list => list = .array items ∧ items.length ≤ greatestChildCount

mutual

/-- Whether JSON data is the form of a query, whatever its depth. -/
def HasForm (j : Json) : Query → Prop
  | .empty => ∃ properties, j = .object properties ∧
      (Entries.find? "Expression" properties = none ∨
        Entries.find? "Expression" properties = some .null)
  | .check op field operand =>
      ∃ payload, HasExpression j op.name payload ∧ IsLeafPayload payload field operand
  | .order op field operand =>
      ∃ payload, HasExpression j op.name payload ∧ IsLeafPayload payload field operand
  | .joined joint children =>
      ∃ payload items, HasExpression j joint.name payload ∧ ListsChildren payload items ∧
        HaveForms items children
  | .not child =>
      ∃ payload c, HasExpression j "Not" payload ∧ Entries.find? "Expression" payload = some c ∧
        HasForm c child
  | .compare _ _ _ => False

def HaveForms (items : List Json) : List Query → Prop
  | [] => items = []
  | q :: qs =>
      match items with
      | [] => False
      | j :: js => HasForm j q ∧ HaveForms js qs

end

variable {objects : Objects}

theorem demandObject_ofJson (what : String) (path place : Path) (properties : List (String × Json)) :
    demandObject what path place (.ofJson (.object properties)) = .ok () := by
  rw [demandObject, if_pos (Datum.isObject_ofJson properties)]

def IsForm (e : Failure) : Prop := ∃ f, e = .form f

theorem failsWithin_demandObject (what : String) (path place : Path) (d : Datum) :
    FailsWithin IsForm (demandObject what path place d) := by
  rw [demandObject]
  split
  · exact failsWithin_ok _
  · exact failsWithin_error ⟨_, rfl⟩

def memberOf (name : String) (properties : Entries Json) : Datum :=
  ((Entries.find? name properties).map .ofJson).getD .undefined

section Members

variable {name : String} {properties : Entries Json}

theorem member_eq_memberOf (objects : Objects) (name : String) (properties : Entries Json) :
    (Datum.ofJson (.object properties)).member objects name = .ok (memberOf name properties) :=
  Datum.member_ofJson objects name properties

theorem memberOf_none (h : Entries.find? name properties = none) :
    memberOf name properties = .undefined := by
  rw [memberOf, h]
  rfl

theorem memberOf_some {j : Json} (h : Entries.find? name properties = some j) :
    memberOf name properties = .ofJson j := by
  rw [memberOf, h]
  rfl

theorem memberOf_eq_string_iff {s : String} :
    memberOf name properties = .string s ↔ Entries.find? name properties = some (.string s) := by
  rw [memberOf]
  rcases Entries.find? name properties with _ | j
  · simp
  · cases j <;> simp [Datum.ofJson]

theorem isObject_ofJson_iff {j : Json} :
    (Datum.ofJson j).isObject = true ↔ ∃ properties, j = .object properties := by
  cases j with
  | object properties => simp [Datum.isObject_ofJson]
  | number n => rcases n with n | (_ | _ | _) <;> simp [Datum.ofJson, Datum.isObject, Datum.kindName]
  | _ => simp [Datum.ofJson, Datum.isObject, Datum.kindName]

theorem isObject_memberOf_iff : (memberOf name properties).isObject = true ↔
    ∃ ps, Entries.find? name properties = some (.object ps) := by
  rw [memberOf]
  cases Entries.find? name properties with
  | none => simp [Datum.isObject, Datum.kindName]
  | some j => simp [isObject_ofJson_iff]

end Members

theorem demandObject_eq_ok_iff {what : String} {path place : Path} {d : Datum} {u : Unit} :
    demandObject what path place d = .ok u ↔ d.isObject = true := by
  rw [demandObject]
  split <;> simp_all

def ExpressionType.name : ExpressionType → String
  | .check op => op.name
  | .order op => op.name
  | .joined joint => joint.name
  | .not => "Not"

theorem ExpressionType.ofName?_name (type : ExpressionType) : ofName? type.name = some type := by
  rcases type with op | op | joint | _
  · cases op <;> rfl
  · cases op <;> rfl
  · cases joint <;> rfl
  · rfl

theorem ExpressionType.name_nonempty (type : ExpressionType) : type.name.isEmpty = false := by
  rcases type with op | op | joint | _
  · cases op <;> rfl
  · cases op <;> rfl
  · cases joint <;> rfl
  · rfl

theorem ExpressionType.ofName?_eq_some_iff {name : String} {type : ExpressionType} :
    ofName? name = some type ↔ name = type.name := by
  constructor
  · intro h
    unfold ofName? at h
    split at h <;> cases h <;> rfl
  · rintro rfl
    exact type.ofName?_name

theorem typeOf_eq_ok_iff {path : Path} {j : Json} {type : ExpressionType} :
    typeOf objects path (.ofJson j) = .ok type ↔ ∃ expression, j = .object expression ∧
      Entries.find? "Type" expression = some (.string type.name) := by
  constructor
  · intro h
    obtain ⟨_, hobject, h⟩ := bind_eq_ok_iff.1 h
    obtain ⟨expression, rfl⟩ := isObject_ofJson_iff.1 (demandObject_eq_ok_iff.1 hobject)
    obtain ⟨d, hd, h⟩ := bind_eq_ok_iff.1 h
    rw [member_eq_memberOf] at hd
    cases hd
    split at h
    · rename_i name hname
      split at h
      · cases h
      · split at h
        · rename_i type' htype
          cases h
          refine ⟨expression, rfl, ?_⟩
          rw [memberOf_eq_string_iff.1 hname, ExpressionType.ofName?_eq_some_iff.1 htype]
        · cases h
    · cases h
  · rintro ⟨expression, rfl, htype⟩
    have hobject := demandObject_ofJson "expression header" path [] expression
    rw [typeOf, hobject, member_eq_memberOf, memberOf_eq_string_iff.2 htype]
    simp only [bind, Except.bind, type.name_nonempty, type.ofName?_name, Bool.false_eq_true, if_false]

theorem failsWithin_typeOf (path : Path) (j : Json) :
    FailsWithin IsForm (typeOf objects path (.ofJson j)) := by
  refine (failsWithin_demandObject _ _ _ _).bind fun _ hobject => ?_
  obtain ⟨expression, rfl⟩ := isObject_ofJson_iff.1 (demandObject_eq_ok_iff.1 hobject)
  rw [member_eq_memberOf]
  refine (failsWithin_ok _).bind fun d _ => ?_
  split
  · split
    · exact failsWithin_error ⟨_, rfl⟩
    · split
      · exact failsWithin_ok _
      · exact failsWithin_error ⟨_, rfl⟩
  · exact failsWithin_error ⟨_, rfl⟩

theorem operandJson?_memberOf (name : String) (properties : Entries Json) :
    operandJson? objects (memberOf name properties) = .ok (match Entries.find? name properties with
      | none => some .null
      | some j => if j.everywhere Json.isDefinite then some j.withoutPrototypes else none) := by
  cases h : Entries.find? name properties with
  | none =>
      rw [memberOf_none h]
      rfl
  | some j =>
      have hread := Datum.toJson?_ofJson objects j
      rw [memberOf_some h]
      cases j <;> simp only [Datum.ofJson] at hread ⊢ <;> rw [operandJson?, hread] <;>
        simp [Except.mapError]

theorem fieldNameIssues_of_fits {field : String} (h : fieldFits field = true) (place : Path) :
    fieldNameIssues place (.string field) = [] := by
  obtain ⟨hleast, hgreatest⟩ := of_decide_eq_true h
  rw [fieldNameIssues, textIssues, if_neg (by omega), if_neg (by omega)]

theorem fieldNameIssues_eq_nil_iff {place : Path} {d : Datum} :
    fieldNameIssues place d = [] ↔ ∃ field, d = .string field ∧ fieldFits field = true := by
  cases d with
  | string s =>
      simp only [fieldNameIssues, textIssues, fieldFits, Datum.string.injEq, exists_eq_left',
        decide_eq_true_eq]
      split <;> [simp; split <;> simp] <;> omega
  | _ => simp [fieldNameIssues]

section Payloads

variable {what : String} {path place : Path} {expression : Entries Json}

theorem payload_eq_ok_iff {α : Type} {read : Datum → Except Failure α} {a : α} :
    (do let payload ← (Datum.ofJson (.object expression)).member objects "Expression"
        demandObject what path place payload
        read payload) = .ok a ↔
      ∃ payload, Entries.find? "Expression" expression = some (.object payload) ∧
        read (.ofJson (.object payload)) = .ok a := by
  rw [member_eq_memberOf]
  constructor
  · intro h
    obtain ⟨d, hd, h⟩ := bind_eq_ok_iff.1 h
    cases hd
    obtain ⟨_, hobject, h⟩ := bind_eq_ok_iff.1 h
    obtain ⟨payload, hpayload⟩ := isObject_memberOf_iff.1 (demandObject_eq_ok_iff.1 hobject)
    exact ⟨payload, hpayload, memberOf_some hpayload ▸ h⟩
  · rintro ⟨payload, hpayload, h⟩
    rw [memberOf_some hpayload]
    simpa only [demandObject_ofJson, bind, Except.bind] using h

theorem failsWithin_payload {α : Type} {read : Datum → Except Failure α}
    (h : ∀ payload, FailsWithin IsForm (read (.ofJson (.object payload)))) :
    FailsWithin IsForm (do
      let payload ← (Datum.ofJson (.object expression)).member objects "Expression"
      demandObject what path place payload
      read payload) := by
  rw [member_eq_memberOf]
  refine (failsWithin_demandObject _ _ _ _).bind fun _ hobject => ?_
  obtain ⟨payload, hpayload⟩ := isObject_memberOf_iff.1 (demandObject_eq_ok_iff.1 hobject)
  exact memberOf_some hpayload ▸ h payload

theorem leafPayload_eq_ok_iff {field : String} {operand : Value} :
    leafPayload objects what path (.ofJson (.object expression)) = .ok (field, operand) ↔
      ∃ payload, Entries.find? "Expression" expression = some (.object payload) ∧
        IsLeafPayload payload field operand := by
  refine payload_eq_ok_iff.trans (exists_congr fun payload => and_congr_right fun _ => ?_)
  simp only [member_eq_memberOf, operandJson?_memberOf, bind, Except.bind, IsLeafPayload]
  constructor
  · intro h
    split at h
    · rename_i hfield hjson hissues
      cases h
      obtain ⟨hname, -⟩ := List.append_eq_nil_iff.1 hissues
      rw [hfield] at hname
      obtain ⟨_, hstring, hfits⟩ := fieldNameIssues_eq_nil_iff.1 hname
      cases hstring
      refine ⟨memberOf_eq_string_iff.1 hfield, hfits, ?_⟩
      cases hv : Entries.find? "Value" payload with
      | none =>
          rw [hv] at hjson
          cases hjson
          rfl
      | some v =>
          rw [hv, Option.ite_none_right_eq_some] at hjson
          obtain ⟨hdefinite, hj⟩ := hjson
          exact ⟨hdefinite, congrArg Value.ofJson (Option.some.inj hj).symm⟩
    · cases h
  · rintro ⟨hfield, hfits, hvalue⟩
    rw [memberOf_eq_string_iff.2 hfield, fieldNameIssues_of_fits hfits]
    cases hv : Entries.find? "Value" payload with
    | none =>
        rw [hv] at hvalue
        simp [hvalue, Value.ofJson]
    | some j =>
        rw [hv] at hvalue
        simp [hvalue.1, hvalue.2]

theorem failsWithin_leafPayload :
    FailsWithin IsForm (leafPayload objects what path (.ofJson (.object expression))) := by
  refine failsWithin_payload fun payload => ?_
  simp only [member_eq_memberOf, operandJson?_memberOf, bind, Except.bind]
  split
  · exact failsWithin_ok _
  · exact failsWithin_error ⟨_, rfl⟩

theorem childrenPayload_eq_ok_iff {children : List Datum} :
    childrenPayload objects what path (.ofJson (.object expression)) = .ok children ↔
      ∃ payload, Entries.find? "Expression" expression = some (.object payload) ∧
        ∃ items, ListsChildren payload items ∧ items.map .ofJson = children := by
  refine payload_eq_ok_iff.trans (exists_congr fun payload => and_congr_right fun _ => ?_)
  simp only [member_eq_memberOf, bind, Except.bind, ListsChildren]
  cases hl : Entries.find? "Expressions" payload with
  | none => simp [memberOf_none hl]
  | some j =>
      rw [memberOf_some hl]
      cases j with
      | array items =>
          rw [Datum.ofJson_array]
          by_cases hcount : greatestChildCount < items.length
          · simp [hcount, Nat.not_le.2 hcount]
          · simp [hcount, Nat.not_lt.1 hcount]
      | _ => simp [Datum.ofJson]

theorem failsWithin_childrenPayload :
    FailsWithin IsForm (childrenPayload objects what path (.ofJson (.object expression))) := by
  refine failsWithin_payload fun payload => ?_
  simp only [member_eq_memberOf, bind, Except.bind]
  split
  · exact failsWithin_ok _
  · split
    · exact failsWithin_error ⟨_, rfl⟩
    · exact failsWithin_ok _
  · exact failsWithin_error ⟨_, rfl⟩

theorem negationPayload_eq_ok_iff {child : Datum} :
    negationPayload objects path (.ofJson (.object expression)) = .ok child ↔
      ∃ payload, Entries.find? "Expression" expression = some (.object payload) ∧
        memberOf "Expression" payload = child := by
  refine payload_eq_ok_iff.trans (exists_congr fun payload => and_congr_right fun _ => ?_)
  rw [member_eq_memberOf, Except.ok.injEq]

theorem failsWithin_negationPayload :
    FailsWithin IsForm (negationPayload objects path (.ofJson (.object expression))) := by
  refine failsWithin_payload fun payload => ?_
  rw [member_eq_memberOf]
  exact failsWithin_ok _

end Payloads

variable {path : Path} {j : Json} {q : Query}

theorem readChildren_cons_eq_ok_iff {read : Path → Datum → Except Failure Query} {i : Nat} {d : Datum}
    {ds : List Datum} {qs : List Query} : readChildren read path i (d :: ds) = .ok qs ↔
      ∃ q rest, read (path ++ [.key "Expressions", .index i]) d = .ok q ∧
        readChildren read path (i + 1) ds = .ok rest ∧ q :: rest = qs := by
  rw [readChildren]
  cases read (path ++ [.key "Expressions", .index i]) d with
  | error e => simp
  | ok q => simp [Except.map_eq_ok_iff]

theorem readChildren_eq_ok_iff {read : Path → Datum → Except Failure Query} {levels : Nat}
    {items : List Json} {i : Nat} {qs : List Query}
    (h : ∀ j ∈ items, ∀ path q, read path (.ofJson j) = .ok q ↔ q.height < levels ∧ HasForm j q) :
    readChildren read path i (items.map .ofJson) = .ok qs ↔
      heightIn qs ≤ levels ∧ HaveForms items qs := by
  induction items generalizing i qs with
  | nil => cases qs <;> simp [readChildren, heightIn, HaveForms]
  | cons j js ih =>
      obtain ⟨hj, hjs⟩ := List.forall_mem_cons.1 h
      rw [List.map_cons, readChildren_cons_eq_ok_iff]
      cases qs with
      | nil => simp [HaveForms]
      | cons q qs =>
          simp only [hj, ih hjs, List.cons.injEq, HaveForms, heightIn, Nat.max_le, Nat.succ_le_iff]
          constructor
          · rintro ⟨q', qs', ⟨hheight, hform⟩, ⟨hheights, hforms⟩, rfl, rfl⟩
            exact ⟨⟨hheight, hheights⟩, hform, hforms⟩
          · rintro ⟨⟨hheight, hheights⟩, hform, hforms⟩
            exact ⟨q, qs, ⟨hheight, hform⟩, ⟨hheights, hforms⟩, rfl, rfl⟩

theorem failsWithin_readChildren {read : Path → Datum → Except Failure Query} {ds : List Datum} {i : Nat}
    (h : ∀ d ∈ ds, ∀ path, FailsWithin IsForm (read path d)) :
    FailsWithin IsForm (readChildren read path i ds) := by
  induction ds generalizing i with
  | nil => exact failsWithin_ok _
  | cons d ds ih =>
      obtain ⟨hd, hds⟩ := List.forall_mem_cons.1 h
      rw [readChildren]
      split
      · exact failsWithin_error (hd _ _ ‹_›)
      · exact (ih hds).map _

theorem hasExpression_object_iff {properties payload : Entries Json} {expression : Json} {type : String}
    (h : Entries.find? "Expression" properties = some expression) :
    HasExpression (.object properties) type payload ↔ ∃ e, expression = .object e ∧
      Entries.find? "Type" e = some (.string type) ∧
      Entries.find? "Expression" e = some (.object payload) := by
  constructor
  · rintro ⟨properties', e, hproperties, he, hrest⟩
    cases hproperties
    rw [h] at he
    exact ⟨e, Option.some.inj he, hrest⟩
  · rintro ⟨e, rfl, hrest⟩
    exact ⟨properties, e, rfl, h, hrest⟩

theorem readExpression_of_type {read : Path → Datum → Except Failure Query} {expression : Entries Json}
    {type : ExpressionType} (h : Entries.find? "Type" expression = some (.string type.name)) :
    readExpression objects read path (.ofJson (.object expression)) = (match type with
      | .check op => (leafPayload objects (op.name ++ " payload") path
          (.ofJson (.object expression))).map fun (field, operand) => .check op field operand
      | .order op => (leafPayload objects (op.name ++ " payload") path
          (.ofJson (.object expression))).map fun (field, operand) => .order op field operand
      | .joined joint => (childrenPayload objects (joint.name ++ " payload") path
          (.ofJson (.object expression))).bind fun children =>
            (readChildren read path 0 children).map (.joined joint)
      | .not => (negationPayload objects path (.ofJson (.object expression))).bind fun child =>
          (read (path ++ [.key "Expression"]) child).map .not) := by
  have htype : typeOf objects path (.ofJson (.object expression)) = .ok type :=
    typeOf_eq_ok_iff.2 ⟨expression, rfl, h⟩
  rw [readExpression, htype]
  cases type <;> rfl

theorem ofWireAt_memberOf_iff {levels : Nat} {name : String} {properties : Entries Json} :
    ofWireAt objects levels path (memberOf name properties) = .ok q ↔
      ∃ j, Entries.find? name properties = some j ∧ ofWireAt objects levels path (.ofJson j) = .ok q := by
  cases h : Entries.find? name properties with
  | some j => simp [memberOf_some h]
  | none =>
      rw [memberOf_none h]
      cases levels with
      | zero => simp [ofWireAt]
      | succ levels => simp [ofWireAt, Datum.resolve, demandObject, Datum.isObject, Datum.kindName, bind,
          Except.bind]

theorem readExpression_eq_ok_iff {levels : Nat} {properties : Entries Json} {expression : Json}
    (hexpression : Entries.find? "Expression" properties = some expression) (hne : expression ≠ .null)
    (ih : ∀ j path q, ofWireAt objects levels path (.ofJson j) = .ok q ↔ q.height < levels ∧ HasForm j q) :
    readExpression objects (ofWireAt objects levels) path (.ofJson expression) = .ok q ↔
      q.height ≤ levels ∧ HasForm (.object properties) q := by
  constructor
  · intro h
    obtain ⟨type, htype, -⟩ := bind_eq_ok_iff.1 h
    obtain ⟨e, rfl, hname⟩ := typeOf_eq_ok_iff.1 htype
    have hform : ∀ payload, Entries.find? "Expression" e = some (.object payload) →
        HasExpression (.object properties) type.name payload := fun payload hpayload =>
      (hasExpression_object_iff hexpression).2 ⟨e, rfl, hname, hpayload⟩
    rw [readExpression_of_type hname] at h
    cases type with
    | check op | order op =>
        obtain ⟨leaf, hleaf, rfl⟩ := map_eq_ok_iff.1 h
        obtain ⟨payload, hpayload, hleaf⟩ := leafPayload_eq_ok_iff.1 hleaf
        exact ⟨Nat.zero_le _, payload, hform payload hpayload, hleaf⟩
    | joined joint =>
        obtain ⟨children, hchildren, h⟩ := bind_eq_ok_iff.1 h
        obtain ⟨payload, hpayload, items, hlists, rfl⟩ := childrenPayload_eq_ok_iff.1 hchildren
        obtain ⟨qs, hqs, rfl⟩ := map_eq_ok_iff.1 h
        obtain ⟨hheight, hforms⟩ := (readChildren_eq_ok_iff fun j _ => ih j).1 hqs
        exact ⟨hheight, payload, items, hform payload hpayload, hlists, hforms⟩
    | not =>
        obtain ⟨child, hchild, h⟩ := bind_eq_ok_iff.1 h
        obtain ⟨payload, hpayload, rfl⟩ := negationPayload_eq_ok_iff.1 hchild
        obtain ⟨q, hq, rfl⟩ := map_eq_ok_iff.1 h
        obtain ⟨c, hc, hq⟩ := ofWireAt_memberOf_iff.1 hq
        obtain ⟨hheight, hq⟩ := (ih _ _ _).1 hq
        exact ⟨hheight, payload, c, hform payload hpayload, hc, hq⟩
  · rintro ⟨hheight, hform⟩
    have hread : ∀ (type : ExpressionType) payload, HasExpression (.object properties) type.name payload →
        ∃ e, expression = .object e ∧ Entries.find? "Type" e = some (.string type.name) ∧
          Entries.find? "Expression" e = some (.object payload) := fun _ _ =>
      (hasExpression_object_iff hexpression).1
    cases q with
    | empty =>
        obtain ⟨_, hproperties, hnone⟩ := hform
        cases hproperties
        simp [hexpression, hne] at hnone
    | check op field operand =>
        obtain ⟨payload, hexp, hleaf⟩ := hform
        obtain ⟨e, rfl, hname, hpayload⟩ := hread (.check op) payload hexp
        rw [readExpression_of_type hname]
        exact map_eq_ok_iff.2 ⟨_, leafPayload_eq_ok_iff.2 ⟨payload, hpayload, hleaf⟩, rfl⟩
    | order op field operand =>
        obtain ⟨payload, hexp, hleaf⟩ := hform
        obtain ⟨e, rfl, hname, hpayload⟩ := hread (.order op) payload hexp
        rw [readExpression_of_type hname]
        exact map_eq_ok_iff.2 ⟨_, leafPayload_eq_ok_iff.2 ⟨payload, hpayload, hleaf⟩, rfl⟩
    | joined joint children =>
        obtain ⟨payload, items, hexp, hlists, hforms⟩ := hform
        obtain ⟨e, rfl, hname, hpayload⟩ := hread (.joined joint) payload hexp
        rw [readExpression_of_type hname]
        refine bind_eq_ok_iff.2
          ⟨_, childrenPayload_eq_ok_iff.2 ⟨payload, hpayload, items, hlists, rfl⟩, ?_⟩
        exact map_eq_ok_iff.2
          ⟨_, (readChildren_eq_ok_iff fun j _ => ih j).2 ⟨hheight, hforms⟩, rfl⟩
    | not child =>
        obtain ⟨payload, c, hexp, hc, hchild⟩ := hform
        obtain ⟨e, rfl, hname, hpayload⟩ := hread .not payload hexp
        rw [readExpression_of_type hname]
        refine bind_eq_ok_iff.2 ⟨_, negationPayload_eq_ok_iff.2 ⟨payload, hpayload, rfl⟩, ?_⟩
        exact map_eq_ok_iff.2 ⟨_, ofWireAt_memberOf_iff.2 ⟨c, hc, (ih _ _ _).2 ⟨hheight, hchild⟩⟩, rfl⟩
    | compare => exact hform.elim

theorem failsWithin_readExpression {read : Path → Datum → Except Failure Query}
    (hread : ∀ path j, FailsWithin IsForm (read path (.ofJson j)))
    (hmissing : ∀ path, FailsWithin IsForm (read path .undefined)) (expression : Json) :
    FailsWithin IsForm (readExpression objects read path (.ofJson expression)) := by
  refine (failsWithin_typeOf _ _).bind fun type htype => ?_
  obtain ⟨e, rfl, -⟩ := typeOf_eq_ok_iff.1 htype
  cases type with
  | check | order => exact failsWithin_leafPayload.bind fun _ _ => failsWithin_ok _
  | joined joint =>
      refine failsWithin_childrenPayload.bind fun children hchildren => ?_
      obtain ⟨-, -, items, -, rfl⟩ := childrenPayload_eq_ok_iff.1 hchildren
      refine (failsWithin_readChildren fun d hd path => ?_).bind fun _ _ => failsWithin_ok _
      obtain ⟨j, -, rfl⟩ := List.mem_map.1 hd
      exact hread path j
  | not =>
      refine failsWithin_negationPayload.bind fun child hchild => ?_
      obtain ⟨payload, -, rfl⟩ := negationPayload_eq_ok_iff.1 hchild
      refine FailsWithin.bind ?_ fun _ _ => failsWithin_ok _
      cases h : Entries.find? "Expression" payload with
      | none => exact memberOf_none h ▸ hmissing _
      | some c => exact memberOf_some h ▸ hread _ c

theorem ofWireAt_object {levels : Nat} (properties : Entries Json) :
    ofWireAt objects (levels + 1) path (.ofJson (.object properties)) =
      match Entries.find? "Expression" properties with
      | none | some .null => .ok .empty
      | some e => readExpression objects (ofWireAt objects levels) (path ++ [.key "Expression"]) (.ofJson e) := by
  rw [ofWireAt, Datum.resolve_ofJson, demandObject_ofJson, member_eq_memberOf]
  cases h : Entries.find? "Expression" properties with
  | none =>
      rw [memberOf_none h]
      rfl
  | some e =>
      rw [memberOf_some h]
      cases e <;> rfl

theorem hasForm_object_iff_empty {properties : Entries Json}
    (h : Entries.find? "Expression" properties = none ∨ Entries.find? "Expression" properties = some .null) :
    HasForm (.object properties) q ↔ q = .empty := by
  have hnone : ∀ {type payload}, ¬ HasExpression (.object properties) type payload := by
    rintro type payload ⟨_, e, hproperties, he, -⟩
    cases hproperties
    simp [he] at h
  cases q with
  | empty => simpa [HasForm] using h
  | compare => simp [HasForm]
  | _ => simp [HasForm, hnone]

theorem HasForm.isObject (h : HasForm j q) : ∃ properties, j = .object properties := by
  cases q with
  | empty =>
      obtain ⟨properties, rfl, -⟩ := h
      exact ⟨properties, rfl⟩
  | check | order =>
      obtain ⟨-, ⟨properties, -, rfl, -⟩, -⟩ := h
      exact ⟨properties, rfl⟩
  | joined =>
      obtain ⟨-, -, ⟨properties, -, rfl, -⟩, -⟩ := h
      exact ⟨properties, rfl⟩
  | not =>
      obtain ⟨-, -, ⟨properties, -, rfl, -⟩, -⟩ := h
      exact ⟨properties, rfl⟩
  | compare => exact h.elim

theorem ofWireAt_eq_ok_iff {levels : Nat} : ofWireAt objects levels path (.ofJson j) = .ok q ↔
    q.height < levels ∧ HasForm j q := by
  induction levels generalizing j q path with
  | zero => simp [ofWireAt]
  | succ levels ih =>
      by_cases hobject : ∃ properties, j = .object properties
      · obtain ⟨properties, rfl⟩ := hobject
        have hempty : (.ok .empty : Except Failure Query) = .ok q ↔ q.height < levels + 1 ∧ q = .empty := by
          constructor
          · rintro ⟨⟩
            exact ⟨Nat.succ_pos _, rfl⟩
          · rintro ⟨-, rfl⟩
            rfl
        rw [ofWireAt_object, Nat.lt_succ_iff]
        split
        · rename_i h
          rw [hempty, hasForm_object_iff_empty (.inl h), Nat.lt_succ_iff]
        · rename_i h
          rw [hempty, hasForm_object_iff_empty (.inr h), Nat.lt_succ_iff]
        · rename_i e hne h
          exact readExpression_eq_ok_iff h (fun hnull => hne (hnull ▸ rfl)) fun _ _ _ => ih
      · constructor
        · intro h
          rw [ofWireAt, Datum.resolve_ofJson] at h
          obtain ⟨_, hdemand, -⟩ := bind_eq_ok_iff.1 h
          exact absurd (isObject_ofJson_iff.1 (demandObject_eq_ok_iff.1 hdemand)) hobject
        · rintro ⟨-, hform⟩
          exact absurd hform.isObject hobject

theorem failsWithin_ofWireAt_undefined (levels : Nat) :
    FailsWithin IsForm (ofWireAt objects levels path .undefined) := by
  cases levels with
  | zero => exact failsWithin_error ⟨_, rfl⟩
  | succ levels => exact failsWithin_error ⟨_, rfl⟩

theorem failsWithin_ofWireAt (levels : Nat) :
    FailsWithin IsForm (ofWireAt objects levels path (.ofJson j)) := by
  induction levels generalizing j path with
  | zero => exact failsWithin_error ⟨_, rfl⟩
  | succ levels ih =>
      by_cases hobject : ∃ properties, j = .object properties
      · obtain ⟨properties, rfl⟩ := hobject
        rw [ofWireAt_object]
        split
        · exact failsWithin_ok _
        · exact failsWithin_ok _
        · exact failsWithin_readExpression (fun _ _ => ih)
            (fun _ => failsWithin_ofWireAt_undefined levels) _
      · have hdemand := failsWithin_demandObject "query" path [] (.ofJson j)
        rw [ofWireAt, Datum.resolve_ofJson]
        refine hdemand.bind fun _ h => ?_
        exact absurd (isObject_ofJson_iff.1 (demandObject_eq_ok_iff.1 h)) hobject

end Query

end RecordSieve
