import RecordSieve.Proofs.Cache
import Mathlib.Data.List.DropRight
import Mathlib.Data.List.Dedup

namespace RecordSieve.QueryCache

variable {c : QueryCache} {text : String}

theorem has_iff : c.has text = true ↔ text ∈ c.keys := by
  rw [has, find?]
  refine ⟨fun h => ?_, fun hin => ?_⟩
  · obtain ⟨q, hq⟩ := Option.isSome_iff_exists.1 h
    exact List.mem_map.2 ⟨_, Entries.mem_of_find? hq, rfl⟩
  · exact Entries.isSome_find? hin

theorem keys_store (c : QueryCache) (text : String) (q : Query) :
    (c.store text q).keys = (text :: c.keys.filter (· ≠ text)).take c.capacity := by
  rw [keys, store, List.map_take, List.map_cons, delete, keys, List.filter_map]
  rfl

theorem keys_delete (c : QueryCache) (text : String) : (c.delete text).keys = c.keys.filter (· ≠ text) := by
  rw [keys, delete, keys, List.filter_map]
  rfl

theorem capacity_parse (c : QueryCache) (text : String) : (c.parse text).1.capacity = c.capacity := by
  rw [parse_eq]
  split
  · rfl
  · split <;> rfl

theorem keys_parse (h : c.IsSound) (text : String) :
    (c.parse text).1.keys = match Query.parse text with
      | .ok _ => (text :: c.keys.filter (· ≠ text)).take c.capacity
      | .error _ => c.keys := by
  rw [parse_eq]
  cases hfind : c.find? text with
  | some q =>
      rw [h _ (Entries.mem_of_find? hfind)]
      exact keys_store c text q
  | none =>
      cases Query.parse text with
      | ok q => exact keys_store c text q
      | error e => rfl

theorem parseBy_notedParse (c : QueryCache) (text : String) (calls : List String) :
    (c.parseBy notedParse text).run calls =
      (c.parse text, calls ++ if text ∈ c.keys then [] else [text]) := by
  rw [parseBy, parse_eq]
  split
  · rename_i q hfind
    have hin : text ∈ c.keys := List.mem_map.2 ⟨_, Entries.mem_of_find? hfind, rfl⟩
    rw [if_pos hin, List.append_nil]
    rfl
  · rename_i hfind
    have hout : text ∉ c.keys := fun hin => by simpa [has, hfind] using has_iff.2 hin
    rw [if_neg hout]
    cases hq : Query.parse text <;> simp [notedParse, hq] <;> rfl

def Step.after (c : QueryCache) : Step → QueryCache
  | .parse text => (c.parse text).1
  | .has _ => c
  | .delete text => c.delete text
  | .clear => c.clear

def Step.reply (c : QueryCache) : Step → Reply
  | .parse text => .query (c.parse text).2
  | .has text => .held (c.has text)
  | .delete text => .held (c.has text)
  | .clear => .cleared

def Step.calls (c : QueryCache) : Step → List String
  | .parse text => if text ∈ c.keys then [] else [text]
  | .has _ | .delete _ | .clear => []

theorem Step.run_notedParse (c : QueryCache) (step : Step) (calls : List String) :
    (step.run notedParse c).run calls = ((step.after c, step.reply c), calls ++ step.calls c) := by
  cases step with
  | parse text =>
      rw [Step.run, StateT.run_bind, parseBy_notedParse]
      rfl
  | has text | delete text | clear =>
      rw [Step.calls, List.append_nil]
      rfl

theorem run_cons (c : QueryCache) (step : Step) (rest : List Step) (calls : List String) :
    (run notedParse c (step :: rest)).run calls =
      let ((after, replies), made) := (run notedParse (step.after c) rest).run (calls ++ step.calls c)
      ((after, step.reply c :: replies), made) := by
  rw [run, StateT.run_bind, Step.run_notedParse]
  rfl

theorem run_concat (c : QueryCache) (steps : List Step) (last : Step) (calls : List String) :
    (run notedParse c (steps ++ [last])).run calls =
      let ((after, replies), made) := (run notedParse c steps).run calls
      ((last.after after, replies ++ [last.reply after]), made ++ last.calls after) := by
  induction steps generalizing c calls with
  | nil =>
      rw [List.nil_append, run_cons]
      rfl
  | cons step steps ih =>
      rw [List.cons_append, run_cons, run_cons, ih]
      rfl

theorem trace_concat (capacity : Nat) (steps : List Step) (last : Step) :
    trace capacity (steps ++ [last]) =
      let before := trace capacity steps
      ⟨last.after before.cache, before.replies ++ [last.reply before.cache],
        before.calls ++ last.calls before.cache⟩ := by
  rw [trace, run_concat]
  rfl

structure IsTidy (capacity : Nat) (c : QueryCache) : Prop where
  isSound : c.IsSound
  capacity_eq : c.capacity = capacity
  nodup_keys : c.keys.Nodup
  length_keys_le : c.keys.length ≤ capacity

theorem isTidy_empty (capacity : Nat) : IsTidy capacity { capacity } :=
  ⟨isSound_empty capacity, rfl, List.nodup_nil, Nat.zero_le _⟩

theorem IsTidy.parse {capacity : Nat} (h : IsTidy capacity c) (text : String) :
    IsTidy capacity (c.parse text).1 := by
  refine ⟨(h.isSound.parse text).1, (capacity_parse c text).trans h.capacity_eq, ?_, ?_⟩ <;>
    rw [keys_parse h.isSound text] <;> split
  · refine List.Nodup.sublist (List.take_sublist _ _) (List.nodup_cons.2 ⟨?_, h.nodup_keys.filter _⟩)
    simp
  · exact h.nodup_keys
  · rw [h.capacity_eq]
    exact List.length_take_le _ _
  · exact h.length_keys_le

theorem IsTidy.delete {capacity : Nat} (h : IsTidy capacity c) (text : String) :
    IsTidy capacity (c.delete text) := by
  refine ⟨fun e he => h.isSound e (List.mem_filter.1 he).1, h.capacity_eq, ?_, ?_⟩ <;> rw [keys_delete]
  · exact h.nodup_keys.filter _
  · exact (List.length_filter_le _ _).trans h.length_keys_le

theorem IsTidy.after {capacity : Nat} (h : IsTidy capacity c) (step : Step) :
    IsTidy capacity (step.after c) := by
  cases step with
  | parse text => exact h.parse text
  | has text => exact h
  | delete text => exact h.delete text
  | clear => exact ⟨List.forall_mem_nil _, h.capacity_eq, List.nodup_nil, Nat.zero_le _⟩

theorem isTidy_trace (capacity : Nat) (steps : List Step) : IsTidy capacity (trace capacity steps).cache := by
  induction steps using List.reverseRecOn with
  | nil => exact isTidy_empty capacity
  | append_singleton steps last ih =>
      rw [trace_concat]
      exact ih.after last

theorem IsTidy.exists_parse {capacity : Nat} (h : IsTidy capacity c) (hin : text ∈ c.keys) :
    ∃ q, Query.parse text = .ok q := by
  obtain ⟨e, he, rfl⟩ := List.mem_map.1 hin
  exact ⟨e.2, h.isSound e he⟩

theorem reply_parse (capacity : Nat) (steps : List Step) :
    List.Forall₂ (fun step reply => ∀ text, step = .parse text → reply = .query (Query.parse text)) steps
      (trace capacity steps).replies := by
  induction steps using List.reverseRecOn with
  | nil => exact .nil
  | append_singleton steps last ih =>
      rw [trace_concat]
      refine List.rel_append ih (.cons ?_ .nil)
      rintro text rfl
      exact congrArg Reply.query ((isTidy_trace capacity steps).isSound.parse text).2

def Step.misses (c : QueryCache) : Step → Bool
  | .parse text => text ∉ c.keys
  | .has _ | .delete _ | .clear => false

theorem Step.length_calls (c : QueryCache) (step : Step) : (step.calls c).length = (step.misses c).toNat := by
  cases step with
  | parse text => by_cases h : text ∈ c.keys <;> simp [Step.calls, Step.misses, h]
  | has text | delete text | clear => rfl

/-- Whether the step in a place misses, with what is kept at that moment. -/
def missesAt (capacity : Nat) (steps : List Step) (i : Nat) : Bool :=
  steps[i]?.any fun step => step.misses (trace capacity (steps.take i)).cache

theorem missesAt_append {capacity i : Nat} {steps : List Step} (hi : i < steps.length) (more : List Step) :
    missesAt capacity (steps ++ more) i = missesAt capacity steps i := by
  rw [missesAt, List.getElem?_append_left hi, List.take_append_of_le_length hi.le, missesAt]

theorem missesAt_last (capacity : Nat) (steps : List Step) (last : Step) :
    missesAt capacity (steps ++ [last]) steps.length = last.misses (trace capacity steps).cache := by
  rw [missesAt, List.getElem?_concat_length, List.take_left]
  rfl

theorem length_calls (capacity : Nat) (steps : List Step) :
    (trace capacity steps).calls.length =
      (List.range steps.length).countP (missesAt capacity steps) := by
  induction steps using List.reverseRecOn with
  | nil => rfl
  | append_singleton steps last ih =>
      have hbefore : (List.range steps.length).countP (missesAt capacity (steps ++ [last])) =
          (List.range steps.length).countP (missesAt capacity steps) :=
        List.countP_congr fun i hi => by rw [missesAt_append (List.mem_range.1 hi)]
      rw [trace_concat, List.length_append, ih, List.length_append, List.length_singleton, List.range_succ,
        List.countP_append, hbefore, List.countP_singleton, missesAt_last, Step.length_calls]
      cases last.misses (trace capacity steps).cache <;> rfl

def Step.readText? : Step → Option String
  | .parse text => (Query.parse text).toOption.map fun _ => text
  | .has _ | .delete _ | .clear => none

/-- The texts that were parsed since the last clearing, newest first and each at its last time. -/
def recent (steps : List Step) : List String :=
  ((steps.rtakeWhile (· ≠ .clear)).filterMap Step.readText?).dedup.reverse

theorem nodup_recent (steps : List Step) : (recent steps).Nodup :=
  List.nodup_reverse.2 (List.nodup_dedup _)

theorem dedup_concat (texts : List String) (text : String) :
    (texts ++ [text]).dedup = texts.dedup.filter (· ≠ text) ++ [text] := by
  induction texts with
  | nil => rfl
  | cons t texts ih =>
      rw [List.cons_append, List.dedup_cons, ih, List.dedup_cons]
      by_cases hin : t ∈ texts
      · rw [if_pos hin, if_pos (List.mem_append_left _ hin)]
      · rw [if_neg hin]
        by_cases ht : t = text
        · rw [if_pos (by simp [ht]), List.filter_cons_of_neg (by simpa using ht)]
        · rw [if_neg (by simp [ht, hin]), List.filter_cons_of_pos (by simpa using ht), List.cons_append]

theorem recent_clear (steps : List Step) : recent (steps ++ [.clear]) = [] := by
  rw [recent, List.rtakeWhile_concat]
  rfl

theorem recent_of_read {last : Step} (h : last.readText? = some text) (steps : List Step) :
    recent (steps ++ [last]) = text :: (recent steps).filter (· ≠ text) := by
  have hlast : last ≠ .clear := by
    rintro rfl
    cases h
  rw [recent, List.rtakeWhile_concat, if_pos (by simpa using hlast), List.filterMap_append,
    List.filterMap_cons_some h, List.filterMap_nil, dedup_concat, List.reverse_concat, ← List.filter_reverse]
  rfl

theorem recent_of_silent {last : Step} (h : last.readText? = none) (hlast : last ≠ .clear)
    (steps : List Step) : recent (steps ++ [last]) = recent steps := by
  rw [recent, List.rtakeWhile_concat, if_pos (by simpa using hlast), List.filterMap_append,
    List.filterMap_cons_none h, List.filterMap_nil, List.append_nil]
  rfl

theorem take_filter_take {texts : List String} (hd : texts.Nodup) (text : String) (n : Nat) :
    ((texts.take (n + 1)).filter (· ≠ text)).take n = (texts.filter (· ≠ text)).take n := by
  induction texts generalizing n with
  | nil => simp
  | cons t texts ih =>
      obtain ⟨ht, hd⟩ := List.nodup_cons.1 hd
      rw [List.take_succ_cons]
      by_cases h : t = text
      · subst h
        have hself {texts : List String} (hout : t ∉ texts) : texts.filter (· ≠ t) = texts :=
          List.filter_eq_self.2 fun s hs => by
            simpa using fun heq : s = t => hout (heq ▸ hs)
        rw [List.filter_cons_of_neg (by simp), List.filter_cons_of_neg (by simp), hself ht,
          hself fun hin => ht (List.mem_of_mem_take hin), List.take_take, Nat.min_self]
      · rw [List.filter_cons_of_pos (by simpa using h), List.filter_cons_of_pos (by simpa using h)]
        cases n with
        | zero => rfl
        | succ n => rw [List.take_succ_cons, List.take_succ_cons, ih hd]

theorem keys_trace (capacity : Nat) (steps : List Step) (h : ∀ text, .delete text ∉ steps) :
    (trace capacity steps).cache.keys = (recent steps).take capacity := by
  induction steps using List.reverseRecOn with
  | nil => exact List.take_nil.symm
  | append_singleton steps last ih =>
      have ih := ih fun text hin => h text (List.mem_append_left _ hin)
      have htidy := isTidy_trace capacity steps
      rw [trace_concat]
      cases last with
      | parse text =>
          have hkeys := keys_parse htidy.isSound text
          rw [htidy.capacity_eq, ih] at hkeys
          cases hq : Query.parse text with
          | ok q =>
              have hread : Step.readText? (.parse text) = some text := by rw [Step.readText?, hq]; rfl
              rw [recent_of_read hread]
              refine (hkeys.trans (by rw [hq])).trans ?_
              cases capacity with
              | zero => rfl
              | succ n => rw [List.take_succ_cons, List.take_succ_cons, take_filter_take (nodup_recent steps)]
          | error e =>
              have hread : Step.readText? (.parse text) = none := by rw [Step.readText?, hq]; rfl
              rw [recent_of_silent hread (by rintro ⟨⟩)]
              exact hkeys.trans (by rw [hq])
      | has text => exact ih.trans (by rw [recent_of_silent rfl (by rintro ⟨⟩)])
      | delete text => exact absurd (List.mem_append_right _ List.mem_cons_self) (h text)
      | clear => exact (recent_clear steps) ▸ List.take_nil.symm

/-- A cache answers as the parser does, calls it only for texts that it does not keep, and keeps no text
that fails, none twice and not more than it can; without deletions it keeps the latest. -/
theorem trace_spec (capacity : Nat) (steps : List Step) :
    let t := trace capacity steps
    List.Forall₂ (fun step reply => ∀ text, step = .parse text → reply = .query (Query.parse text))
        steps t.replies ∧
      (∀ text e, Query.parse text = .error e → text ∉ t.cache.keys) ∧
      t.calls.length = (List.range steps.length).countP (missesAt capacity steps) ∧
      t.cache.keys.Nodup ∧ t.cache.keys.length ≤ capacity ∧
      ((∀ text, .delete text ∉ steps) → t.cache.keys = (recent steps).take capacity) := by
  intro t
  have htidy := isTidy_trace capacity steps
  refine ⟨reply_parse capacity steps, fun text e he hin => ?_, length_calls capacity steps,
    htidy.nodup_keys, htidy.length_keys_le, keys_trace capacity steps⟩
  obtain ⟨q, hq⟩ := htidy.exists_parse hin
  rw [hq] at he
  cases he

theorem trace_spec_evicting :
    let steps : List Step :=
      [.parse "a is 1", .parse "b is 1", .parse "a is 1", .has "b is 1", .parse "c is", .parse "c is 1"]
    (∀ text, .delete text ∉ steps) ∧ (trace 2 steps).cache.keys = ["c is 1", "a is 1"] ∧
      (trace 2 steps).calls = ["a is 1", "b is 1", "c is", "c is 1"] := by
  intro steps
  have hdelete : ∀ text, .delete text ∉ steps := by
    intro text
    simp [steps]
  refine ⟨hdelete, ?_, ?_⟩
  · rw [(trace_spec 2 steps).2.2.2.2.2 hdelete]
    decide +kernel
  · decide +kernel

end RecordSieve.QueryCache
