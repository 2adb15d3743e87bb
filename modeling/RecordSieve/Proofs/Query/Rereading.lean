import RecordSieve.Proofs.Json.Reading
import RecordSieve.Proofs.Query.Restating
import RecordSieve.Proofs.Value.Rereading

namespace RecordSieve

namespace Number

def IsTwin : Number → Number → Prop
  | .integer m, .integer n => m = n
  | .float x, .float y => x.place? = y.place? ∧ x.isFinite = y.isFinite ∧ x.text = y.text
  | _, _ => False

namespace IsTwin

theorem refl (n : Number) : n.IsTwin n := by
  cases n with
  | integer => exact rfl
  | float => exact ⟨rfl, rfl, rfl⟩

variable {m n : Number}

theorem alike (h : m.IsTwin n) : m.Alike n := by
  cases m <;> cases n
  case integer.integer =>
    cases h
    exact ⟨rfl, rfl, rfl⟩
  case float.float x y =>
    obtain ⟨hplace, hfinite, htext⟩ := h
    refine ⟨equals_projected_of_place? hplace, ?_, ?_⟩
    · simp only [Json.projected_number, Value.toJson, Json.chars_number, Json.numberText, hfinite, htext]
    · simp only [Json.projected_number, Value.text, htext]
  all_goals exact h.elim

theorem holdsFor_projected (h : m.IsTwin n) (op : OrderOp) (v : Value) :
    op.holdsFor (Json.projected (.number m)) v = op.holdsFor (Json.projected (.number n)) v := by
  cases m <;> cases n
  case integer.integer =>
    cases h
    rfl
  case float.float x y =>
    have hplace : (Number.float x).place? = (Number.float y).place? := h.1
    simp only [Json.projected_number, OrderOp.holdsFor, Value.number?, Number.bind_compare?, hplace]
    rfl
  all_goals exact h.elim

end IsTwin

end Number

namespace Json

def keepsKind : Json → Bool
  | .number (.float x) => x.isFinite && (x.safeInteger?.isSome || (integer? x.text).isNone)
  | _ => true

theorem isTwin_reread {n : Number} (hread : (Json.number n).isReadNode = true)
    (hkind : (Json.number n).keepsKind = true) : n.isFinite = true ∧ n.IsTwin n.reread := by
  cases n with
  | integer n =>
      have hunsafe : isSafe n = false := by simpa [isReadNode] using hread
      refine ⟨rfl, ?_⟩
      rw [Number.reread, Number.ofInteger, hunsafe]
      exact rfl
  | float x =>
      obtain ⟨hfinite, hkind⟩ := Bool.and_eq_true_iff.1 hkind
      refine ⟨hfinite, ?_⟩
      rw [Number.reread]
      cases hsafe : x.safeInteger? with
      | none =>
          rw [hsafe, Option.isSome_none, Bool.false_or, Option.isNone_iff_eq_none] at hkind
          rw [hkind]
          exact .refl _
      | some n =>
          obtain ⟨hinteger, hn⟩ := Binary64.safeInteger?_eq_some.1 hsafe
          have hback := Binary64.integer?_ofInt hn
          have htext := Binary64.text_eq_intText hsafe
          rw [htext, integer?_intText]
          dsimp only
          rw [Number.ofInteger, if_pos hn]
          exact ⟨(Binary64.place?_eq_of_integer? hinteger).trans (Binary64.place?_eq_of_integer? hback).symm,
            hfinite.trans (Binary64.isFinite_of_integer? hback).symm,
            htext.trans (Binary64.text_eq_intText (Binary64.safeInteger?_ofInt hn)).symm⟩

end Json

theorem Query.eval_reread {q : Query} (hq : q.everywhere (!·.isComparison) = true) {j : Json}
    (hread : j.everywhere Json.isReadNode = true) (hkind : j.everywhere Json.keepsKind = true)
    (options : Options) : q.eval options (.ofJson j.reread) = q.eval options (.ofJson j) := by
  have hrestates : j.Restates Number.IsTwin j.reread := by
    refine Json.restates_reread (fun n hn => ?_) (Json.everywhere_and hread hkind)
    obtain ⟨hread, hkind⟩ := Bool.and_eq_true_iff.1 hn
    exact Json.isTwin_reread hread hkind
  exact (eval_restates (fun h => h.alike) (fun _ _ _ h => h.holdsFor_projected _ _) hq q.everywhere_true
    hrestates options).symm

end RecordSieve
