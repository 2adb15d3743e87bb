import RecordSieve.Proofs.Datum.Tracking
import RecordSieve.Proofs.Datum.Record
import RecordSieve.Proofs.Value.Tree

namespace RecordSieve

namespace Datum

def listed (own : List (String × Slot)) : Entries Datum :=
  own.filterMap fun
    | (_, .ok (.function _)) => none
    | (k, .ok d) => some (k, d)
    | (k, .error _) => some (k, .undefined)

def layer (objects : Objects) (d : Datum) : Layer Datum :=
  match d.resolve objects with
  | .array items => .list items
  | .keyed entries => .keyed (textEntries entries)
  | .object own _ => .keyed (listed own)
  | .boxed (.number (.integer _)) => .keyed []
  | d => .leaf (d.project [])

def parts (objects : Objects) (d : Datum) : List Datum := (d.layer objects).parts

def at? (objects : Objects) (d : Datum) (path : List Nat) : Option Datum := follow (parts objects) d path

def isContainer : Datum → Bool
  | .array _ | .keyed _ | .object _ _ => true
  | _ => false

end Datum

namespace Objects

def IsDirect (objects : Objects) : Prop := ∀ object ∈ objects, ∀ name, object.2 ≠ .ref name

theorem IsDirect.ne_ref {objects : Objects} (h : objects.IsDirect) {name : Nat} {object : Datum}
    (hfind : objects.find? name = some object) (other : Nat) : object ≠ .ref other := by
  obtain ⟨before, after, rfl, -⟩ := List.lookup_eq_some_iff.1 hfind
  exact h (name, object) (by simp) other

def IsCyclic (objects : Objects) (name : Nat) : Prop :=
  ∃ path ≠ [], (Datum.ref name).at? objects path = some (.ref name)

end Objects

namespace Input

def at? (input : Input) (path : List Nat) : Option Datum := input.root.at? input.objects path

def IsInside (input : Input) (path : List Nat) (name : Nat) : Prop :=
  ∃ above, IsAbove above path ∧ input.at? above = some (.ref name)

def IsRepeat (input : Input) (path : List Nat) : Prop :=
  ∃ name, input.at? path = some (.ref name) ∧ input.IsInside path name

/-- A value that is the graph of an input unfolded to a tree and cut at its repeats. -/
structure IsUnfolding (input : Input) (v : Value) : Prop where
  reaches : ∀ path, (v.at? path).isSome ↔
    (input.at? path).isSome ∧ ∀ above, IsAbove above path → ¬input.IsRepeat above
  cut : ∀ path w, v.at? path = some w → input.IsRepeat path → w = .null
  full : ∀ path w d, v.at? path = some w → input.at? path = some d → ¬input.IsRepeat path →
    w.layer.shape = (d.layer input.objects).shape

end Input

namespace Datum

theorem ofList_projectEntries (objects : Objects) (entries : List (Datum × Datum)) :
    Entries.ofList (projectEntries objects entries) =
      (textEntries entries).mapValues (project objects) := by
  rw [textEntries, ← Entries.ofList_mapValues]
  congr 1
  induction entries with
  | nil => rw [projectEntries]; rfl
  | cons e rest ih =>
      obtain ⟨key, d⟩ := e
      cases key with
      | string k => rw [projectEntries, ih]; rfl
      | _ =>
          simp only [projectEntries]
          exact ih

theorem projectProperties_eq (objects : Objects) (own : List (String × Slot)) :
    projectProperties objects own = (listed own).mapValues (project objects) := by
  induction own with
  | nil => rw [projectProperties]; rfl
  | cons e rest ih =>
      obtain ⟨k, message | d⟩ := e
      · have hnull : project objects .undefined = .null := by rw [project]
        rw [projectProperties, ih, ← hnull]
        rfl
      · cases d with
        | function call =>
            rw [projectProperties]
            exact ih
        | _ =>
            simp only [projectProperties, ih]
            rfl

theorem layer_project {d : Datum} (objects outside : Objects) (h : ∀ name, d ≠ .ref name) :
    (d.project outside).layer = (d.layer objects).map (project outside) := by
  cases d with
  | array items => rw [project, projectItems_eq]; rfl
  | keyed entries => rw [project, ofList_projectEntries]; rfl
  | object own inherited => rw [project, projectProperties_eq]; rfl
  | ref name => exact absurd rfl (h name)
  | number n => cases n <;> simp only [project, layer, resolve] <;> rfl
  | date millis => cases millis <;> simp only [project, layer, resolve] <;> rfl
  | boxed content =>
      rcases content with (_ | _) | _ | _ <;> simp only [project, layer, resolve] <;> rfl
  | _ => simp only [project, layer, resolve]; rfl

theorem layer_ref_of_none {objects : Objects} {name : Nat} (h : objects.find? name = none) :
    (ref name).layer objects = .leaf .null := by
  simp only [layer, resolve, h, Option.getD_none, project]

theorem layer_ref {objects : Objects} {name : Nat} {object : Datum}
    (hfind : objects.find? name = some object) (h : ∀ name, object ≠ .ref name) :
    (ref name).layer objects = object.layer objects := by
  have hresolve : object.resolve objects = object := by
    cases object <;> first | rfl | exact absurd rfl (h _)
  rw [layer, layer, resolve, hfind, Option.getD_some, hresolve]

theorem shape_layer_ne_leaf {objects : Objects} {d : Datum} {v : Value}
    (h : (d.resolve objects).isContainer = true) : (d.layer objects).shape ≠ .leaf v := by
  rw [layer]
  cases hd : d.resolve objects <;> simp [hd, isContainer, Layer.shape, Layer.map] at h ⊢

def isWithin (inside : Finset Nat) : Datum → Bool
  | .ref name => name ∈ inside
  | _ => false

def enter (inside : Finset Nat) : Datum → Finset Nat
  | .ref name => insert name inside
  | _ => inside

theorem mem_enter {inside : Finset Nat} {d : Datum} {name : Nat} :
    name ∈ d.enter inside ↔ name ∈ inside ∨ d = .ref name := by
  cases d <;> simp [enter, or_comm, eq_comm]

theorem isWithin_iff {inside : Finset Nat} {d : Datum} :
    d.isWithin inside = true ↔ ∃ name ∈ inside, d = .ref name := by
  cases d <;> simp [isWithin]

section Inside

variable (objects : Objects)

/-- A datum inside of objects, without the parts of one that is inside of itself. -/
def cutParts (occurrence : Finset Nat × Datum) : List (Finset Nat × Datum) :=
  let (inside, d) := occurrence
  if d.isWithin inside then [] else (d.parts objects).map (d.enter inside, ·)

def projectInside (occurrence : Finset Nat × Datum) : Value :=
  occurrence.2.project (objects.without occurrence.1)

variable {objects}

theorem projectInside_of_isWithin {inside : Finset Nat} {d : Datum} (h : d.isWithin inside = true) :
    projectInside objects (inside, d) = .null := by
  obtain ⟨name, hin, rfl⟩ := isWithin_iff.1 h
  rw [projectInside, project_ref, objects.find?_without_of_mem hin, Option.elim_none]

theorem layer_projectInside (hobjects : objects.IsDirect) {inside : Finset Nat} {d : Datum}
    (h : d.isWithin inside = false) :
    (projectInside objects (inside, d)).layer =
      (d.layer objects).map fun part => projectInside objects (d.enter inside, part) := by
  cases d with
  | ref name =>
      have hout : name ∉ inside := by simpa [isWithin] using h
      have hlookup := objects.find?_without hout
      cases hfind : objects.find? name with
      | none =>
          rw [projectInside, project_ref, hlookup.trans hfind, layer_ref_of_none hfind]
          rfl
      | some object =>
          have hobject := hobjects.ne_ref hfind
          rw [projectInside, project_ref, hlookup.trans hfind, Option.elim_some,
            Objects.erase_without, layer_project objects _ hobject, layer_ref hfind hobject]
          rfl
  | _ => exact layer_project objects _ (by simp)

theorem parts_projectInside (hobjects : objects.IsDirect) (occurrence : Finset Nat × Datum) :
    (projectInside objects occurrence).parts =
      (cutParts objects occurrence).map (projectInside objects) := by
  obtain ⟨inside, d⟩ := occurrence
  cases h : d.isWithin inside with
  | true => rw [projectInside_of_isWithin h, cutParts, if_pos h]; rfl
  | false =>
      rw [Value.parts, layer_projectInside hobjects h, Layer.parts_map, cutParts, if_neg (by simp [h]),
        List.map_map]
      rfl

theorem at?_projectInside (hobjects : objects.IsDirect) (occurrence : Finset Nat × Datum)
    (path : List Nat) : (projectInside objects occurrence).at? path =
      (follow (cutParts objects) occurrence path).map (projectInside objects) :=
  follow_map (parts_projectInside hobjects) occurrence path

variable (objects)

def IsInside (inside : Finset Nat) (d : Datum) (path : List Nat) (name : Nat) : Prop :=
  name ∈ inside ∨ ∃ above, IsAbove above path ∧ d.at? objects above = some (.ref name)

def IsRepeat (inside : Finset Nat) (d : Datum) (path : List Nat) : Prop :=
  ∃ name, d.at? objects path = some (.ref name) ∧ d.IsInside objects inside path name

variable {objects} {inside : Finset Nat} {d part : Datum} {i : Nat} {path : List Nat}

theorem at?_cons (h : (d.parts objects)[i]? = some part) :
    d.at? objects (i :: path) = part.at? objects path := by
  rw [at?, follow, h]
  rfl

theorem isInside_nil {name : Nat} : d.IsInside objects inside [] name ↔ name ∈ inside := by
  simp [IsInside, not_isAbove_nil]

theorem isInside_cons (h : (d.parts objects)[i]? = some part) {name : Nat} :
    d.IsInside objects inside (i :: path) name ↔
      part.IsInside objects (d.enter inside) path name := by
  have hself : d.at? objects [] = some (.ref name) ↔ d = .ref name := Option.some_inj
  rw [IsInside, IsInside, mem_enter, or_assoc]
  refine or_congr_right ?_
  constructor
  · rintro ⟨above, habove, hat⟩
    rcases isAbove_cons.1 habove with rfl | ⟨above', rfl, habove'⟩
    · exact .inl (hself.1 hat)
    · exact .inr ⟨above', habove', (at?_cons h).symm.trans hat⟩
  · rintro (hd | ⟨above, habove, hat⟩)
    · exact ⟨[], isAbove_cons.2 (.inl rfl), hself.2 hd⟩
    · exact ⟨i :: above, isAbove_cons.2 (.inr ⟨above, rfl, habove⟩), (at?_cons h).trans hat⟩

theorem isRepeat_nil : d.IsRepeat objects inside [] ↔ d.isWithin inside = true := by
  simp only [IsRepeat, isInside_nil, isWithin_iff, at?, follow, Option.some_inj, and_comm]

theorem isRepeat_cons (h : (d.parts objects)[i]? = some part) :
    d.IsRepeat objects inside (i :: path) ↔ part.IsRepeat objects (d.enter inside) path := by
  simp only [IsRepeat, isInside_cons h, at?_cons h]

theorem follow_cutParts_cons (hwithin : d.isWithin inside = false) :
    follow (cutParts objects) (inside, d) (i :: path) =
      (d.parts objects)[i]?.bind fun part => follow (cutParts objects) (d.enter inside, part) path := by
  rw [follow, cutParts, if_neg (by simp [hwithin]), List.getElem?_map, Option.bind_map]
  rfl

theorem follow_cutParts_cons_of_isWithin (hwithin : d.isWithin inside = true) :
    follow (cutParts objects) (inside, d) (i :: path) = none := by
  rw [follow, cutParts, if_pos hwithin]
  rfl

theorem mem_of_follow {inside' : Finset Nat} {d' : Datum}
    (h : follow (cutParts objects) (inside, d) path = some (inside', d')) {name : Nat} :
    name ∈ inside' ↔ d.IsInside objects inside path name := by
  induction path generalizing inside d with
  | nil =>
      cases h
      exact isInside_nil.symm
  | cons i path ih =>
      cases hwithin : d.isWithin inside with
      | true => simp [follow_cutParts_cons_of_isWithin hwithin] at h
      | false =>
          rw [follow_cutParts_cons hwithin] at h
          obtain ⟨part, hpart, hfollow⟩ := Option.bind_eq_some_iff.1 h
          rw [ih hfollow, isInside_cons hpart]

theorem exists_follow_iff {d' : Datum} :
    (∃ inside', follow (cutParts objects) (inside, d) path = some (inside', d')) ↔
      d.at? objects path = some d' ∧ ∀ above, IsAbove above path → ¬d.IsRepeat objects inside above := by
  induction path generalizing inside d with
  | nil => simp [follow, at?, not_isAbove_nil]
  | cons i path ih =>
      cases hwithin : d.isWithin inside with
      | true =>
          have hrepeat : d.IsRepeat objects inside [] := isRepeat_nil.2 hwithin
          simp only [follow_cutParts_cons_of_isWithin hwithin, reduceCtorEq, exists_false, false_iff]
          exact fun h => h.2 [] (isAbove_cons.2 (.inl rfl)) hrepeat
      | false =>
          have hself : ¬d.IsRepeat objects inside [] := by simp [isRepeat_nil, hwithin]
          rw [follow_cutParts_cons hwithin]
          cases hpart : (d.parts objects)[i]? with
          | none => simp [at?, follow, hpart]
          | some part =>
              rw [Option.bind_some, ih, at?_cons hpart]
              refine and_congr_right fun _ => ?_
              simp only [isAbove_cons, or_imp, forall_and, forall_eq, hself, not_false_eq_true, true_and]
              constructor
              · rintro h _ ⟨above, rfl, habove⟩
                exact fun hrepeat => h above habove ((isRepeat_cons hpart).1 hrepeat)
              · exact fun h above habove hrepeat =>
                  h _ ⟨above, rfl, habove⟩ ((isRepeat_cons hpart).2 hrepeat)

end Inside

end Datum

namespace Input

variable {input : Input} {v w : Value} {path : List Nat} {name : Nat}

theorem isInside_iff : input.IsInside path name ↔ input.root.IsInside input.objects ∅ path name := by
  simp only [IsInside, Datum.IsInside, Finset.notMem_empty, false_or, at?]

theorem isRepeat_iff : input.IsRepeat path ↔ input.root.IsRepeat input.objects ∅ path := by
  simp only [IsRepeat, Datum.IsRepeat, isInside_iff, at?]

theorem at?_toValue (hobjects : input.objects.IsDirect) (path : List Nat) :
    input.toValue.at? path = (follow (Datum.cutParts input.objects) (∅, input.root) path).map
      (Datum.projectInside input.objects) := by
  rw [← Datum.at?_projectInside hobjects, Datum.projectInside, Objects.without_empty, toValue]

theorem exists_of_at?_toValue (hobjects : input.objects.IsDirect)
    (h : input.toValue.at? path = some w) :
    ∃ inside d, input.at? path = some d ∧ (∀ name, name ∈ inside ↔ input.IsInside path name) ∧
      w = Datum.projectInside input.objects (inside, d) := by
  rw [at?_toValue hobjects] at h
  obtain ⟨⟨inside, d⟩, hfollow, rfl⟩ := Option.map_eq_some_iff.1 h
  refine ⟨inside, d, (Datum.exists_follow_iff.1 ⟨inside, hfollow⟩).1, fun name => ?_, rfl⟩
  rw [Datum.mem_of_follow hfollow, isInside_iff]

theorem isUnfolding_toValue (hobjects : input.objects.IsDirect) :
    input.IsUnfolding input.toValue where
  reaches path := by
    rw [at?_toValue hobjects, Option.isSome_map, Option.isSome_iff_exists, Option.isSome_iff_exists,
      Prod.exists, exists_comm, ← exists_and_right]
    simp only [isRepeat_iff]
    exact exists_congr fun d => Datum.exists_follow_iff
  cut path w hw hrepeat := by
    obtain ⟨inside, d, hd, hinside, rfl⟩ := exists_of_at?_toValue hobjects hw
    obtain ⟨name, hat, hin⟩ := hrepeat
    refine Datum.projectInside_of_isWithin (Datum.isWithin_iff.2 ⟨name, (hinside name).2 hin, ?_⟩)
    exact Option.some_inj.1 (hd.symm.trans hat)
  full path w d hw hd hrepeat := by
    obtain ⟨inside, d', hd', hinside, rfl⟩ := exists_of_at?_toValue hobjects hw
    obtain rfl : d' = d := Option.some_inj.1 (hd'.symm.trans hd)
    have hwithin : d'.isWithin inside = false := by
      refine Bool.eq_false_iff.2 fun hwithin => hrepeat ?_
      obtain ⟨name, hin, rfl⟩ := Datum.isWithin_iff.1 hwithin
      exact ⟨name, hd, (hinside name).1 hin⟩
    rw [Datum.layer_projectInside hobjects hwithin, Layer.shape_map]

theorem IsUnfolding.unique (h : input.IsUnfolding v) (h' : input.IsUnfolding w) : v = w := by
  refine Value.eq_of_shapes fun path => ?_
  have hreaches : (v.at? path).isSome ↔ (w.at? path).isSome := (h.reaches path).trans (h'.reaches path).symm
  cases hv : v.at? path with
  | none =>
      have hw : w.at? path = none := by
        rw [← Option.not_isSome_iff_eq_none, ← hreaches, hv]
        exact Bool.false_ne_true
      rw [hw]
  | some a =>
      obtain ⟨b, hw⟩ := Option.isSome_iff_exists.1 (hreaches.1 (by rw [hv]; rfl))
      obtain ⟨d, hd⟩ := Option.isSome_iff_exists.1 ((h.reaches path).1 (by rw [hv]; rfl)).1
      rw [hw, Option.map_some, Option.map_some]
      by_cases hrepeat : input.IsRepeat path
      · rw [h.cut path a hv hrepeat, h'.cut path b hw hrepeat]
      · rw [h.full path a d hv hd hrepeat, h'.full path b d hw hd hrepeat]

theorem IsUnfolding.eq_null_iff (h : input.IsUnfolding v) {d : Datum}
    (hd : (d.resolve input.objects).isContainer = true) (hat : input.at? path = some d)
    (hw : v.at? path = some w) : w = .null ↔ input.IsRepeat path := by
  refine ⟨fun hnull => ?_, h.cut path w hw⟩
  by_contra hrepeat
  have hshape := h.full path w d hw hat hrepeat
  rw [hnull] at hshape
  exact Datum.shape_layer_ne_leaf hd hshape.symm

theorem at?_append (hat : input.at? path = some (.ref name)) (below : List Nat) :
    input.at? (path ++ below) = Input.at? ⟨input.objects, .ref name⟩ below := by
  rw [at?, Datum.at?, follow_append]
  exact congrArg (Option.bind · _) hat

theorem isRepeat_append {below : List Nat} (hat : input.at? path = some (.ref name))
    (hcyclic : ¬input.objects.IsCyclic name) :
    input.IsRepeat (path ++ below) ↔ Input.IsRepeat ⟨input.objects, .ref name⟩ below := by
  rw [IsRepeat, at?_append hat]
  refine exists_congr fun other => and_congr_right fun hother => ?_
  constructor
  · rintro ⟨above, habove, hin⟩
    rcases isAbove_append.1 habove with ⟨⟨rest, rfl⟩, hne⟩ | ⟨above', rfl, habove'⟩
    · -- the other object is above this one and below it, so this one is on a cycle
      have hback : Input.at? ⟨input.objects, .ref name⟩ (below ++ rest) = some (.ref name) := by
        rw [at?_append hother, ← hat, at?_append hin]
      exact absurd ⟨below ++ rest, by simpa using fun _ => hne, hback⟩ hcyclic
    · exact ⟨above', habove', (at?_append hat above').symm.trans hin⟩
  · rintro ⟨above, habove, hin⟩
    exact ⟨path ++ above, isAbove_append.2 (.inr ⟨above, rfl, habove⟩), (at?_append hat above).trans hin⟩

theorem IsUnfolding.below (h : input.IsUnfolding v) (hat : input.at? path = some (.ref name))
    (hcyclic : ¬input.objects.IsCyclic name) (hw : v.at? path = some w) :
    IsUnfolding ⟨input.objects, .ref name⟩ w := by
  have hvalue : ∀ below, w.at? below = v.at? (path ++ below) := fun below => by
    rw [v.at?_append, hw, Option.bind_some]
  have hdatum := at?_append hat
  have hrepeat : ∀ {below}, input.IsRepeat (path ++ below) ↔ _ := isRepeat_append hat hcyclic
  constructor
  · intro below
    have habove := ((h.reaches path).1 (by rw [hw]; rfl)).2
    rw [hvalue, h.reaches, hdatum]
    refine and_congr_right fun _ => ?_
    constructor
    · exact fun hall above hin hrepeat' =>
        hall _ (isAbove_append.2 (.inr ⟨above, rfl, hin⟩)) (hrepeat.2 hrepeat')
    · intro hall above hin
      rcases isAbove_append.1 hin with hin | ⟨above', rfl, hin'⟩
      · exact habove above hin
      · exact fun hrepeat' => hall above' hin' (hrepeat.1 hrepeat')
  · intro below part hpart hin
    exact h.cut (path ++ below) part ((hvalue below).symm.trans hpart) (hrepeat.2 hin)
  · intro below part d hpart hd hin
    exact h.full (path ++ below) part d ((hvalue below).symm.trans hpart) ((hdatum below).trans hd)
      fun hin' => hin (hrepeat.1 hin')

/-- Projection comes to an end, with its set of ancestors after every call as it was before, also when
one breaks off. It is the graph of the input unfolded to a tree, where an array, a collection or an
object is null just where it stands inside of itself, and an object on no cycle is at each of its places
what it is by itself. -/
theorem toValue_unfolds (input : Input) (hobjects : input.objects.IsDirect) :
    (∀ (depth : Nat) (inside : Finset Nat) (d : Datum),
      ((d.projectTracked input.objects depth).run.run inside).2 = inside ∧
      ((input.objects.without inside).length ≤ depth →
        ((d.projectTracked input.objects depth).run.run inside).1 =
          .ok (d.project (input.objects.without inside)))) ∧
    (input.root.projectTracked input.objects input.objects.length).run.run ∅ = (.ok input.toValue, ∅) ∧
    (∀ v, input.IsUnfolding v ↔ v = input.toValue) ∧
    (∀ path d w, (d.resolve input.objects).isContainer = true →
      input.at? path = some d → input.toValue.at? path = some w → (w = .null ↔ input.IsRepeat path)) ∧
    ∀ path name w, ¬input.objects.IsCyclic name →
      input.at? path = some (.ref name) → input.toValue.at? path = some w →
        w = toValue ⟨input.objects, .ref name⟩ := by
  have hunfolding := isUnfolding_toValue hobjects
  have hyields := Datum.yields_projectTracked input.objects
  refine ⟨fun depth inside d => ⟨(hyields depth inside d).snd_run, (hyields depth inside d).fst_run⟩,
    ?_, fun v => ⟨fun hv => hv.unique hunfolding, fun hv => hv ▸ hunfolding⟩,
    fun path d w hd hat hw => hunfolding.eq_null_iff hd hat hw, ?_⟩
  · have hroot := hyields input.objects.length ∅ input.root
    rw [Objects.without_empty] at hroot
    exact Prod.ext (hroot.fst_run le_rfl) hroot.snd_run
  · intro path name w hcyclic hat hw
    exact (hunfolding.below hat hcyclic hw).unique (isUnfolding_toValue hobjects)

def tangled : Input where
  objects := [
    (0, .object [("self", .ok (.ref 0)), ("broken", .error "boom"), ("kept", .ok (.ref 1)),
      ("tags", .ok (.ref 2))] []),
    (1, .keyed [(.string "owner", .ref 0), (.string "tags", .ref 2)]),
    (2, .array [.string "x"])]
  root := .ref 0

def untangled : Value :=
  .map [("self", .null), ("broken", .null),
    ("kept", .map [("owner", .null), ("tags", .list [.string "x"])]), ("tags", .list [.string "x"])]

theorem toValue_unfolds_tangled :
    tangled.objects.IsDirect ∧ tangled.IsUnfolding untangled ∧
    (tangled.root.projectTracked tangled.objects 3).run.run ∅ = (.ok untangled, ∅) := by
  have hobjects : tangled.objects.IsDirect := by
    simp [Objects.IsDirect, tangled]
  have hvalue : untangled = tangled.toValue := by
    simp [untangled, tangled, toValue, Datum.project_ref, Datum.project, Datum.projectItems,
      Datum.projectEntries, Datum.projectProperties, Objects.find?, Objects.erase, List.lookup_cons,
      Entries.ofList, Entries.insert]
  obtain ⟨-, hrun, hunfolding, -⟩ := toValue_unfolds tangled hobjects
  exact ⟨hobjects, (hunfolding untangled).2 hvalue, hvalue ▸ hrun⟩

end Input

end RecordSieve
