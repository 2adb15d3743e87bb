import RecordSieve.Cache
import RecordSieve.Proofs.Entries

namespace RecordSieve.QueryCache

variable {c : QueryCache} {text : String} {q : Query}

def IsSound (c : QueryCache) : Prop := ∀ e ∈ c.queries, Query.parse e.1 = .ok e.2

theorem isSound_empty (capacity : Nat) : IsSound { capacity } := List.forall_mem_nil _

theorem IsSound.store (h : c.IsSound) (hq : Query.parse text = .ok q) : (c.store text q).IsSound := by
  intro e he
  rcases List.mem_cons.1 (List.mem_of_mem_take he) with rfl | he
  · exact hq
  · exact h e (List.mem_filter.1 he).1

theorem IsSound.parse (h : c.IsSound) (text : String) :
    (c.parse text).1.IsSound ∧ (c.parse text).2 = Query.parse text := by
  rw [parse_eq]
  split
  · rename_i q hfind
    have hq := h _ (Entries.mem_of_find? hfind)
    exact ⟨h.store hq, hq.symm⟩
  · split
    · rename_i q hq
      exact ⟨h.store hq, hq.symm⟩
    · rename_i e he
      exact ⟨h, he.symm⟩

end RecordSieve.QueryCache
