import RecordSieve.Proofs.Datum.Record
import RecordSieve.Proofs.Query.Failures
import RecordSieve.Proofs.Query.Reading
import RecordSieve.Proofs.Query.WireForm
import RecordSieve.Records.Csv

namespace RecordSieve

open Except

namespace Query

theorem everywhere_not_isComparison_of_parse {text : String} {q : Query} (h : parse text = .ok q) :
    q.everywhere (!·.isComparison) = true := by
  refine everywhere_imp (fun s hs => ?_) q (isReadNode_of_parse h)
  cases s with
  | compare => cases hs
  | _ => rfl

theorem exists_hasForm_of_haveForms {items : List Json} {qs : List Query} (h : HaveForms items qs)
    {q : Query} (hq : q ∈ qs) : ∃ j, HasForm j q := by
  induction qs generalizing items with
  | nil => exact absurd hq List.not_mem_nil
  | cons r rs ih =>
      cases items with
      | nil => exact h.elim
      | cons j js =>
          rcases List.mem_cons.1 hq with rfl | hq
          · exact ⟨j, h.1⟩
          · exact ih h.2 hq

theorem HasForm.everywhere_not_isComparison {j : Json} {q : Query} (h : HasForm j q) :
    q.everywhere (!·.isComparison) = true := by
  induction q using byChildren generalizing j with
  | empty | check | order => rfl
  | joined joint children ih =>
      obtain ⟨-, items, -, -, hforms⟩ := h
      refine everywhere_joined.2 ⟨rfl, fun q hin => ?_⟩
      obtain ⟨c, hc⟩ := exists_hasForm_of_haveForms hforms hin
      exact ih q hin hc
  | not child ih =>
      obtain ⟨-, c, -, -, hc⟩ := h
      exact everywhere_not.2 ⟨rfl, ih hc⟩
  | compare => exact h.elim

theorem everywhere_not_isComparison_of_ofWire {j : Json} {q : Query} (h : ofWire j = .ok q) :
    q.everywhere (!·.isComparison) = true :=
  (ofWireAt_eq_ok_iff.1 h).2.everywhere_not_isComparison

end Query

namespace Input

theorem getterFault?_ofJson (j : Json) : (Input.ofJson j).getterFault? = none := by
  rw [getterFault?, Input.ofJson, Datum.resolve_ofJson]
  cases j with
  | object properties =>
      rw [Datum.property?_ofJson]
      cases Entries.find? "getField" properties <;> rfl
  | _ => rfl

theorem getterFault?_record (header row : List String) :
    (Table.record header row).getterFault? = none := rfl

end Input

namespace Query

variable {q : Query} {options : Options}

def accepts (q : Query) (options : Options) (input : Input) : Bool :=
  match q.eval options input with
  | .ok b => b
  | .error _ => false

theorem eval_eq_ok_accepts (hq : q.everywhere (!·.isComparison) = true) {input : Input}
    (hinput : input.getterFault? = none) : q.eval options input = .ok (q.accepts options input) := by
  rw [accepts]
  cases h : q.eval options input with
  | ok b => rfl
  | error e =>
      obtain ⟨message, hmessage, -⟩ := failsWithin_eval hq e h
      simp [hinput] at hmessage

theorem select_eq_ok {α : Type} {record : α → Input}
    (h : ∀ a, q.eval options (record a) = .ok (q.accepts options (record a))) (as : List α) :
    q.select options record as = .ok (as.filter fun a => q.accepts options (record a)) := by
  induction as with
  | nil => rfl
  | cons a as ih =>
      simp only [select, h, ih, bind, Except.bind, pure, Except.pure, List.filter_cons]

theorem select_sublist {α : Type} {record : α → Input} {as kept : List α}
    (h : q.select options record as = .ok kept) : kept.Sublist as := by
  induction as generalizing kept with
  | nil =>
      cases h
      exact .slnil
  | cons a as ih =>
      obtain ⟨b, -, h⟩ := bind_eq_ok_iff.1 h
      obtain ⟨rest, hrest, h⟩ := bind_eq_ok_iff.1 h
      cases h
      cases b with
      | true => exact (ih hrest).cons_cons a
      | false => exact (ih hrest).cons a

theorem select_ofJson (hq : q.everywhere (!·.isComparison) = true) (options : Options)
    (records : List Json) : q.select options .ofJson records =
      .ok (records.filter fun j => q.accepts options (.ofJson j)) :=
  select_eq_ok (fun j => eval_eq_ok_accepts hq (Input.getterFault?_ofJson j)) records

end Query

theorem Table.select_eq_ok {q : Query} (hq : q.everywhere (!·.isComparison) = true) (options : Options)
    (t : Table) : t.select q options = .ok { t with
      rows := t.rows.filter fun row => q.accepts options (record t.header row) } := by
  have hrow (row : List String) : q.eval options (record t.header row) =
      .ok (q.accepts options (record t.header row)) :=
    Query.eval_eq_ok_accepts hq (Input.getterFault?_record t.header row)
  have hrows := Query.select_eq_ok hrow t.rows
  simp only [Table.select, hrows, bind, Except.bind, pure, Except.pure]

end RecordSieve
