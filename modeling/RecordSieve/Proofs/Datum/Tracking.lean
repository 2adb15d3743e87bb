import RecordSieve.Datum.Projection
import Mathlib.Data.Finset.Basic

namespace RecordSieve

namespace Objects

def without (objects : Objects) (inside : Finset Nat) : Objects := objects.filter (·.1 ∉ inside)

@[simp]
theorem without_empty (objects : Objects) : objects.without ∅ = objects := by
  simp [without]

theorem erase_without (objects : Objects) (inside : Finset Nat) (name : Nat) :
    (objects.without inside).erase name = objects.without (insert name inside) := by
  rw [erase, without, without, List.filter_filter]
  refine List.filter_congr fun object _ => ?_
  rw [Bool.eq_iff_iff]
  simp

theorem find?_without {inside : Finset Nat} {name : Nat} (objects : Objects) (h : name ∉ inside) :
    (objects.without inside).find? name = objects.find? name := by
  induction objects with
  | nil => rfl
  | cons object objects ih =>
      obtain ⟨other, d⟩ := object
      simp only [find?, without] at ih ⊢
      by_cases hother : other ∈ inside
      · have hne : (name == other) = false := beq_eq_false_iff_ne.2 fun heq => h (heq ▸ hother)
        rw [List.filter_cons_of_neg (by simpa using hother), List.lookup_cons, hne, ih]
      · rw [List.filter_cons_of_pos (by simpa using hother), List.lookup_cons, List.lookup_cons, ih]

theorem find?_without_of_mem {inside : Finset Nat} {name : Nat} (objects : Objects)
    (h : name ∈ inside) : (objects.without inside).find? name = none := by
  refine List.lookup_eq_none_iff.2 fun object hin => ?_
  have hout : object.1 ∉ inside := by simpa using (List.mem_filter.1 hin).2
  have hne : name ≠ object.1 := fun heq => hout (heq ▸ h)
  simpa using hne

theorem length_without_insert_lt {objects : Objects} {inside : Finset Nat} {name : Nat} {d : Datum}
    (h : name ∉ inside) (hfind : objects.find? name = some d) :
    (objects.without (insert name inside)).length < (objects.without inside).length := by
  rw [← erase_without]
  exact length_erase_lt ((find?_without objects h).trans hfind)

end Objects

namespace Datum

abbrev Tracked := ExceptT String (StateM (Finset Nat))

def entering {α : Type} (name : Nat) (run : Tracked α) : Tracked α := do
  modify (insert name)
  try run finally modify (·.erase name)

mutual

/-- At most `depth` named objects are entered inside one another; a run that needs more breaks off. -/
def projectTracked (objects : Objects) (depth : Nat) : Datum → Tracked Value
  | .array items => return .list (← projectItemsTracked objects depth items)
  | .keyed entries => return .map (Entries.ofList (← projectEntriesTracked objects depth entries))
  | .object own _ => return .map (← projectPropertiesTracked objects depth own)
  | .ref name => do
      if name ∈ (← get) then
        return .null
      match objects.find? name, depth with
      | none, _ => return .null
      | some _, 0 => throw "too much recursion"
      | some d, depth + 1 => entering name (projectTracked objects depth d)
  | d => return d.project []
  termination_by d => (depth, sizeOf d)

def projectItemsTracked (objects : Objects) (depth : Nat) : List Datum → Tracked (List Value)
  | [] => return []
  | d :: ds => return (← projectTracked objects depth d) :: (← projectItemsTracked objects depth ds)
  termination_by ds => (depth, sizeOf ds)

def projectEntriesTracked (objects : Objects) (depth : Nat) :
    List (Datum × Datum) → Tracked (List (String × Value))
  | [] => return []
  | (.string k, d) :: rest =>
      return (k, ← projectTracked objects depth d) :: (← projectEntriesTracked objects depth rest)
  | _ :: rest => projectEntriesTracked objects depth rest
  termination_by es => (depth, sizeOf es)

def projectPropertiesTracked (objects : Objects) (depth : Nat) :
    List (String × Slot) → Tracked (List (String × Value))
  | [] => return []
  | (_, .ok (.function _)) :: rest => projectPropertiesTracked objects depth rest
  | (k, .ok d) :: rest =>
      return (k, ← projectTracked objects depth d) :: (← projectPropertiesTracked objects depth rest)
  | (k, .error message) :: rest => do
      let v ← tryCatch (throw message) fun _ => return .null
      return (k, v) :: (← projectPropertiesTracked objects depth rest)
  termination_by ps => (depth, sizeOf ps)

end

theorem run_entering {α : Type} {name : Nat} {inside after : Finset Nat} {run : Tracked α}
    {result : Except String α} (h : run.run.run (insert name inside) = (result, after)) :
    (entering name run).run.run inside = (result, after.erase name) := by
  replace h : run (insert name inside) = (result, after) := h
  change ((·.1) <$> tryFinally' run fun _ => modify (·.erase name) : Tracked α) (insert name inside) = _
  simp only [tryFinally', Functor.map, ExceptT.map, ExceptT.mk, bind, StateT.bind, h]
  cases result <;> rfl

/-- From `inside`, a run gives `a` and leaves the set as it was; unless `enough` holds it may break off,
and that leaves the set as it was too. -/
def Yields {α : Type} (enough : Prop) (inside : Finset Nat) (run : Tracked α) (a : α) : Prop :=
  run.run.run inside = (.ok a, inside) ∨ ¬enough ∧ ∃ message, run.run.run inside = (.error message, inside)

namespace Yields

variable {α β : Type} {enough enough' : Prop} {inside : Finset Nat} {run : Tracked α} {a : α}

theorem pure (a : α) : Yields enough inside (Pure.pure a) a := .inl rfl

theorem bind {f : α → Tracked β} {b : β} (h : Yields enough inside run a)
    (hf : Yields enough inside (f a) b) : Yields enough inside (run >>= f) b := by
  rcases h with h | ⟨hnot, message, h⟩
  · have hbind : (run >>= f).run.run inside = (f a).run.run inside := by
      rw [ExceptT.run_bind, StateT.run_bind, h]
      rfl
    rwa [Yields, hbind]
  · refine .inr ⟨hnot, message, ?_⟩
    rw [ExceptT.run_bind, StateT.run_bind, h]
    rfl

theorem snd_run (h : Yields enough inside run a) : (run.run.run inside).2 = inside := by
  rcases h with h | ⟨-, message, h⟩ <;> rw [h]

theorem fst_run (h : Yields enough inside run a) (henough : enough) :
    (run.run.run inside).1 = .ok a := by
  rw [h.resolve_right fun hbroken => hbroken.1 henough]

theorem mono (h : Yields enough inside run a) (himp : enough' → enough) :
    Yields enough' inside run a :=
  h.imp_right fun ⟨hnot, hbroken⟩ => ⟨fun h' => hnot (himp h'), hbroken⟩

theorem entering {name : Nat} (h : Yields enough (insert name inside) run a) (hname : name ∉ inside) :
    Yields enough inside (entering name run) a := by
  have hout : (insert name inside).erase name = inside := Finset.erase_insert hname
  rcases h with h | ⟨hnot, message, h⟩
  · exact .inl (by rw [run_entering h, hout])
  · exact .inr ⟨hnot, message, by rw [run_entering h, hout]⟩

theorem ite_mem {name : Nat} {run' : Tracked α} (h : name ∈ inside → Yields enough inside run a)
    (h' : name ∉ inside → Yields enough inside run' a) :
    Yields enough inside (do if name ∈ (← get) then run else run') a := by
  have hget : Yields enough inside get inside := .inl rfl
  refine hget.bind ?_
  split
  · exact h ‹_›
  · exact h' ‹_›

end Yields

theorem project_ref (objects : Objects) (name : Nat) :
    project objects (.ref name) =
      (objects.find? name).elim .null (project (objects.erase name)) := by
  rw [project]
  split
  · next d hfind => rw [hfind, Option.elim_some]
  · next hfind => rw [hfind, Option.elim_none]

section Run

variable (objects : Objects)

mutual

theorem yields_projectTracked (depth : Nat) (inside : Finset Nat) (d : Datum) :
    Yields ((objects.without inside).length ≤ depth) inside (projectTracked objects depth d)
      (d.project (objects.without inside)) := by
  cases d with
  | array items =>
      rw [projectTracked, project]
      exact (yields_projectItemsTracked depth inside items).bind (.pure _)
  | keyed entries =>
      rw [projectTracked, project]
      exact (yields_projectEntriesTracked depth inside entries).bind (.pure _)
  | object own _ =>
      rw [projectTracked, project]
      exact (yields_projectPropertiesTracked depth inside own).bind (.pure _)
  | ref name =>
      unfold projectTracked
      refine .ite_mem (fun hin => ?_) fun hout => ?_
      · rw [project_ref, objects.find?_without_of_mem hin]
        exact .pure _
      have hfind := objects.find?_without hout
      split
      · next hnone =>
          rw [project_ref, hfind.trans hnone]
          exact .pure _
      · next d hd =>
          have hlt := Objects.length_without_insert_lt hout hd
          exact .inr ⟨by omega, _, rfl⟩
      · next d depth hd =>
          -- one level less of depth, but also one object less that is left to enter
          have hlt := Objects.length_without_insert_lt hout hd
          rw [project_ref, hfind.trans hd, Objects.erase_without]
          exact .entering ((yields_projectTracked depth (insert name inside) d).mono (by omega)) hout
  | number n => cases n <;> simp only [projectTracked, project] <;> exact .pure _
  | boxed content =>
      rcases content with (_ | _) | _ | _ <;> simp only [projectTracked, project] <;> exact .pure _
  | _ => simp only [projectTracked, project]; exact .pure _
  termination_by (depth, sizeOf d)

theorem yields_projectItemsTracked (depth : Nat) (inside : Finset Nat) (items : List Datum) :
    Yields ((objects.without inside).length ≤ depth) inside (projectItemsTracked objects depth items)
      (projectItems (objects.without inside) items) := by
  cases items with
  | nil =>
      rw [projectItemsTracked, projectItems]
      exact .pure _
  | cons d ds =>
      rw [projectItemsTracked, projectItems]
      exact (yields_projectTracked depth inside d).bind
        ((yields_projectItemsTracked depth inside ds).bind (.pure _))
  termination_by (depth, sizeOf items)

theorem yields_projectEntriesTracked (depth : Nat) (inside : Finset Nat)
    (entries : List (Datum × Datum)) :
    Yields ((objects.without inside).length ≤ depth) inside
      (projectEntriesTracked objects depth entries)
      (projectEntries (objects.without inside) entries) := by
  cases entries with
  | nil =>
      rw [projectEntriesTracked, projectEntries]
      exact .pure _
  | cons e rest =>
      obtain ⟨key, d⟩ := e
      have hrest := yields_projectEntriesTracked depth inside rest
      cases key with
      | string k =>
          rw [projectEntriesTracked, projectEntries]
          exact (yields_projectTracked depth inside d).bind (hrest.bind (.pure _))
      | _ => simpa only [projectEntriesTracked, projectEntries] using hrest
  termination_by (depth, sizeOf entries)

theorem yields_projectPropertiesTracked (depth : Nat) (inside : Finset Nat)
    (own : List (String × Slot)) :
    Yields ((objects.without inside).length ≤ depth) inside
      (projectPropertiesTracked objects depth own)
      (projectProperties (objects.without inside) own) := by
  cases own with
  | nil =>
      rw [projectPropertiesTracked, projectProperties]
      exact .pure _
  | cons e rest =>
      have hrest := yields_projectPropertiesTracked depth inside rest
      obtain ⟨k, message | d⟩ := e
      · rw [projectPropertiesTracked, projectProperties]
        exact .bind (.pure Value.null) (hrest.bind (.pure _))
      · have hd := yields_projectTracked depth inside d
        cases d with
        | function call => simpa only [projectPropertiesTracked, projectProperties] using hrest
        | _ =>
            simp only [projectPropertiesTracked, projectProperties]
            exact hd.bind (hrest.bind (.pure _))
  termination_by (depth, sizeOf own)

end

end Run

end Datum

end RecordSieve
