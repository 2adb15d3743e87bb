import RecordSieve.Proofs.Query.Reading
import RecordSieve.Proofs.Query.WireText

namespace RecordSieve

namespace Number

theorem reread_eq_ofInteger {m : Number} {n : Int} (hfinite : m.isFinite = true)
    (htext : Json.numberText m = intText n) : m.reread = ofInteger n := by
  cases m with
  | integer k =>
      have hk := integer?_intText k
      rw [show intText k = intText n from htext, integer?_intText] at hk
      rw [Option.some.inj hk]
      rfl
  | float x =>
      rw [Json.numberText, if_pos (show x.isFinite = true from hfinite)] at htext
      rw [reread, htext, integer?_intText]

theorem reread_ofInteger (n : Int) : (ofInteger n).reread = ofInteger n :=
  reread_eq_ofInteger (isFinite_ofInteger n) (numberText_ofInteger n)

end Number

namespace Value

def keepsKind : Value → Bool
  | .float x => (integer? x.text).isNone
  | _ => true

theorem rewritten_eq_self {v : Value} (hread : v.isRead = true) (hfinite : v.isFiniteNode = true)
    (hkind : v.keepsKind = true) : v.rewritten = v := by
  obtain ⟨hform, hprintable⟩ := Bool.and_eq_true_iff.1 hread
  cases v with
  | string | boolean | null => simp only [rewritten, toJson, Json.reread, ofJson]
  | integer n =>
      rw [rewritten, toJson, Json.reread, if_pos (Number.isFinite_ofInteger n), Number.reread_ofInteger,
        ofJson_ofInteger]
  | unsigned => cases hform
  | float x =>
      have hnone : integer? x.text = none := Option.isNone_iff_eq_none.1 hkind
      have hunsafe : x.safeInteger? = none := Option.isNone_iff_eq_none.1 hform
      have hnumber : (Number.float x).isFinite = true := hfinite
      rw [rewritten, toJson, Json.reread, if_pos hnumber, Number.reread, hnone, ofJson, ofBinary64, hunsafe]
  | list | map => cases hprintable

theorem everywhere_of_isRead {p : Value → Bool} {v : Value} (hread : v.isRead = true) (hv : p v = true) :
    v.everywhere p = true := by
  obtain ⟨-, hprintable⟩ := Bool.and_eq_true_iff.1 hread
  cases v with
  | list | map => cases hprintable
  | _ => simpa only [everywhere] using hv

end Value

namespace Query

open Except

theorem HasExpression.unique {j : Json} {type type' : String} {payload payload' : Entries Json}
    (h : HasExpression j type payload) (h' : HasExpression j type' payload') :
    type = type' ∧ payload = payload' := by
  obtain ⟨properties, expression, rfl, hexpression, htype, hpayload⟩ := h
  obtain ⟨_, _, hproperties, hexpression', htype', hpayload'⟩ := h'
  cases hproperties
  rw [hexpression] at hexpression'
  cases hexpression'
  rw [htype] at htype'
  rw [hpayload] at hpayload'
  cases htype'
  cases hpayload'
  exact ⟨rfl, rfl⟩

def type? : Query → Option ExpressionType
  | .check op _ _ => some (.check op)
  | .order op _ _ => some (.order op)
  | .joined joint _ => some (.joined joint)
  | .not _ => some .not
  | .empty | .compare _ _ _ => none

theorem HasForm.type?_eq {j : Json} {q : Query} {type : ExpressionType} {payload : Entries Json}
    (h : HasForm j q) (htype : HasExpression j type.name payload) : q.type? = some type := by
  have hname (type' : ExpressionType) {payload' : Entries Json}
      (h' : HasExpression j type'.name payload') : some type' = some type := by
    rw [← type'.ofName?_name, (h'.unique htype).1, type.ofName?_name]
  cases q with
  | empty =>
      obtain ⟨_, rfl, hnone⟩ := h
      obtain ⟨_, _, hproperties, hexpression, -⟩ := htype
      cases hproperties
      simp [hexpression] at hnone
  | check op =>
      obtain ⟨_, hexpression, -⟩ := h
      exact hname (.check op) hexpression
  | order op =>
      obtain ⟨_, hexpression, -⟩ := h
      exact hname (.order op) hexpression
  | joined joint =>
      obtain ⟨_, _, hexpression, -⟩ := h
      exact hname (.joined joint) hexpression
  | not =>
      obtain ⟨_, _, hexpression, -⟩ := h
      exact hname .not hexpression
  | compare => exact h.elim

def hasFittingField (q : Query) : Bool := q.field?.all fieldFits

theorem limits_of_haveForms {f : Value → Json} {qs rs : List Query}
    (ih : ∀ q ∈ qs, ∀ r, HasForm (q.form f) r →
      r.height = q.height ∧ q.everywhere hasFittingField = true)
    (h : HaveForms (qs.map (form f)) rs) :
    heightIn rs = heightIn qs ∧ ∀ q ∈ qs, q.everywhere hasFittingField = true := by
  induction qs generalizing rs with
  | nil =>
      cases rs with
      | nil => exact ⟨rfl, fun _ hin => absurd hin List.not_mem_nil⟩
      | cons => exact h.elim
  | cons q qs ihs =>
      obtain ⟨hq, hqs⟩ := List.forall_mem_cons.1 ih
      cases rs with
      | nil => cases h
      | cons r rs =>
          obtain ⟨hfirst, hrest⟩ := h
          obtain ⟨hheight, hfields⟩ := hq r hfirst
          obtain ⟨hheights, hall⟩ := ihs hqs hrest
          exact ⟨by rw [heightIn, heightIn, hheight, hheights], List.forall_mem_cons.2 ⟨hfields, hall⟩⟩

theorem limits_of_hasForm_form {f : Value → Json} {q r : Query} (h : HasForm (q.form f) r) :
    r.height = q.height ∧ q.everywhere hasFittingField = true := by
  induction q using byChildren generalizing r with
  | empty | compare =>
      rw [(hasForm_object_iff_empty (.inr rfl)).1 h]
      exact ⟨rfl, rfl⟩
  | check op field operand =>
      have hexpression := hasExpression_wrap_typed (ExpressionType.check op).name
        [("Field", .string field), ("Value", f operand)]
      have htype := h.type?_eq hexpression
      cases r <;> cases htype
      obtain ⟨_, hread, hfield, hfits, -⟩ := h
      obtain ⟨-, rfl⟩ := hexpression.unique hread
      cases hfield
      exact ⟨rfl, hfits⟩
  | order op field operand =>
      have hexpression := hasExpression_wrap_typed (ExpressionType.order op).name
        [("Field", .string field), ("Value", f operand)]
      have htype := h.type?_eq hexpression
      cases r <;> cases htype
      obtain ⟨_, hread, hfield, hfits, -⟩ := h
      obtain ⟨-, rfl⟩ := hexpression.unique hread
      cases hfield
      exact ⟨rfl, hfits⟩
  | joined joint children ih =>
      have hexpression := hasExpression_wrap_typed (ExpressionType.joined joint).name
        [("Expressions", .array (expressionForms f children))]
      have htype := h.type?_eq hexpression
      cases r <;> cases htype
      obtain ⟨_, items, hread, hlists, hforms⟩ := h
      obtain ⟨-, rfl⟩ := hexpression.unique hread
      obtain ⟨hitems, -⟩ : Json.array (expressionForms f children) = .array items ∧ _ := hlists
      cases hitems
      rw [expressionForms_eq_map] at hforms
      obtain ⟨hheights, hall⟩ := limits_of_haveForms (fun q hin r => ih q hin) hforms
      exact ⟨hheights, everywhere_joined.2 ⟨rfl, hall⟩⟩
  | not child ih =>
      have hexpression := hasExpression_wrap_typed ExpressionType.not.name
        [("Expression", wrap (child.expressionForm f))]
      have htype := h.type?_eq hexpression
      cases r <;> cases htype
      obtain ⟨_, c, hread, hc, hform⟩ := h
      obtain ⟨-, rfl⟩ := hexpression.unique hread
      cases hc
      obtain ⟨hheight, hfields⟩ := ih hform
      exact ⟨by rw [height, height, hheight], everywhere_not.2 ⟨rfl, hfields⟩⟩

theorem isRead_of_isReadNode {s : Query} (h : isReadNode s = true) {v : Value} (hv : s.operand? = some v) :
    v.isRead = true := by
  cases s with
  | check | order =>
      cases hv
      exact (Bool.and_eq_true_iff.1 h).2
  | _ => cases hv

section Parsed

variable {text : String} {q : Query} (h : parse text = .ok q)

include h

theorem operands_of_parse {p : Value → Bool} (hp : ∀ v : Value, v.isRead = true → p v = true) :
    q.everywhere (·.operand?.all (·.everywhere p)) = true := by
  refine everywhere_imp (fun s hs => (Option.all_eq_true _ _).2 fun v hv => ?_) q (isReadNode_of_parse h)
  have hread := isRead_of_isReadNode hs hv
  exact Value.everywhere_of_isRead hread (hp v hread)

theorem hasDistinctKeys_of_parse : q.everywhere hasDistinctKeys = true :=
  operands_of_parse h fun v hread => by
    cases v with
    | map => cases hread
    | _ => rfl

theorem isWithinLimits_of_parse (hfields : q.everywhere hasFittingField = true) :
    q.everywhere isWithinLimits = true := by
  have hoperands : q.everywhere (·.operand?.all (·.everywhere Value.lacksPrototypeKey)) = true :=
    operands_of_parse h fun v hread => by
      cases v with
      | map => cases hread
      | _ => rfl
  refine everywhere_imp (fun s hs => ?_) q
    (everywhere_and (everywhere_and hfields hoperands) (isReadNode_of_parse h))
  simp only [Bool.and_eq_true] at hs
  obtain ⟨⟨hfield, hoperand⟩, hread⟩ := hs
  unfold isWithinLimits
  rw [Bool.and_eq_true, Bool.and_eq_true]
  refine ⟨⟨hfield, hoperand⟩, ?_⟩
  split
  · rename_i children
    have hpair : children.length = 2 := by simpa [isReadNode] using hread
    exact decide_eq_true (hpair ▸ by decide)
  · rfl

theorem ofWire_reread_iff_of_parse {wire : Json} (hwire : q.toWire = .ok wire) (r : Query) :
    ofWire wire.reread = .ok r ↔
      (q.height ≤ greatestDepth ∧ q.everywhere hasFittingField = true) ∧
        r = q.mapOperands Value.rewritten := by
  obtain ⟨rfl, hwritable⟩ := toWire_eq_ok hwire
  rw [reread_form]
  have hof (hlimits : q.height ≤ greatestDepth ∧ q.everywhere hasFittingField = true) :
      ofWire (q.form (Json.reread ∘ Value.toJson)) = .ok (q.mapOperands Value.rewritten) := by
    refine ofWire_form hlimits.1 (hasReadableForm_of_isWritable (fun v hf hd hp => ?_) hwritable
      (isWithinLimits_of_parse h hlimits.2) (hasDistinctKeys_of_parse h))
    exact Json.isPlain_reread (Value.isPlain_toJson hf hd hp)
      (Value.everywhere_toJson (fun _ => Value.isFiniteNode_toJson) hd hf)
  constructor
  · intro hr
    obtain ⟨hheight, hform⟩ := ofWireAt_eq_ok_iff.1 hr
    obtain ⟨hsame, hfields⟩ := limits_of_hasForm_form hform
    have hlimits := And.intro (hsame ▸ Nat.le_of_lt_succ hheight) hfields
    rw [hof hlimits] at hr
    exact ⟨hlimits, (Except.ok.inj hr).symm⟩
  · rintro ⟨hlimits, rfl⟩
    exact hof hlimits

theorem mapOperands_rewritten_of_parse {wire : Json} (hwire : q.toWire = .ok wire)
    (hkinds : q.everywhere (·.operand?.all Value.keepsKind) = true) :
    q.mapOperands Value.rewritten = q := by
  obtain ⟨-, hwritable⟩ := toWire_eq_ok hwire
  refine mapOperands_eq_self (p := fun v => v.isRead && v.isFiniteNode && v.keepsKind)
    (fun v hv => ?_) q ?_
  · simp only [Bool.and_eq_true] at hv
    exact Value.rewritten_eq_self hv.1.1 hv.1.2 hv.2
  · refine everywhere_imp (fun s hs => (Option.all_eq_true _ _).2 fun v hv => ?_) q
      (everywhere_and (everywhere_and hwritable hkinds) (isReadNode_of_parse h))
    simp only [Bool.and_eq_true] at hs ⊢
    obtain ⟨⟨hwritable, hkind⟩, hread⟩ := hs
    have hfinite := (Option.all_eq_true _ _).1 (Bool.and_eq_true_iff.1 hwritable).2 v hv
    exact ⟨⟨isRead_of_isReadNode hread hv, Value.everywhere_self hfinite⟩,
      (Option.all_eq_true _ _).1 hkind v hv⟩

end Parsed

end Query

end RecordSieve
