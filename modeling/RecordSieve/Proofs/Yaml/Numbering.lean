import RecordSieve.Proofs.Yaml.Marks

namespace RecordSieve.Yaml

def Composition.known (s : Composition) : List Nat := s.anchors.map Prod.snd

def IsSilent {α : Type} (x : Compose α) : Prop :=
  ∀ s : Composition, (x s).2.known = s.known

/-- A step of composing that adds marks to those so far: every alias among them refers back, and the anchors
among them are set. -/
def Adds {α : Type} (x : Compose α) (start : List Mark) (marks : α → List Mark) : Prop :=
  ∀ s : Composition, ∃ ms, marks (x s).1 = start ++ ms ∧ RefersBack s.known ms ∧
    (x s).2.known = knownBehind s.known ms

section

variable {α β : Type} {start : List Mark} {marks : α → List Mark} {others : β → List Mark}

theorem isSilent_require (holds : Bool) : IsSilent (require holds) := fun _ => rfl

theorem isSilent_pure (a : α) : IsSilent (pure a : Compose α) := fun _ => rfl

theorem IsSilent.bind {x : Compose α} {f : α → Compose β} (hx : IsSilent x)
    (hf : ∀ a, IsSilent (f a)) : IsSilent (x >>= f) :=
  fun s => (hf _ _).trans (hx s)

theorem adds_pure {a : α} (h : marks a = start) : Adds (pure a) start marks :=
  fun s => ⟨[], by rw [List.append_nil]; exact h, trivial, rfl⟩

theorem IsSilent.adds {x : Compose α} {f : α → Compose β} (hx : IsSilent x)
    (hf : ∀ a, Adds (f a) start others) : Adds (x >>= f) start others := by
  intro s
  obtain ⟨ms, hmarks, hback, hknown⟩ := hf (x s).1 (x s).2
  rw [hx s] at hback hknown
  exact ⟨ms, hmarks, hback, hknown⟩

theorem Adds.bind {x : Compose α} {f : α → Compose β} (hx : Adds x start marks)
    (hf : ∀ a, Adds (f a) (marks a) others) : Adds (x >>= f) start others := by
  intro s
  obtain ⟨ms, hmarks, hback, hknown⟩ := hx s
  obtain ⟨more, hmarks', hback', hknown'⟩ := hf (x s).1 (x s).2
  rw [hknown] at hback' hknown'
  refine ⟨ms ++ more, ?_, refersBack_append.2 ⟨hback, hback'⟩, ?_⟩
  · rw [← List.append_assoc, ← hmarks]
    exact hmarks'
  · rw [knownBehind_append]
    exact hknown'

theorem Adds.map {x : Compose α} {f : α → β} (hx : Adds x start marks)
    (hf : ∀ a, others (f a) = marks a) : Adds (f <$> x) start others := by
  intro s
  obtain ⟨ms, hmarks, hback, hknown⟩ := hx s
  exact ⟨ms, (hf _).trans hmarks, hback, hknown⟩

theorem adds_ite {c : Bool} {x y : Compose Unit} {f : Unit → Compose β} (hx : IsSilent x)
    (hy : IsSilent y) (hf : ∀ a, Adds (f a) start others) :
    Adds (if c = true then x >>= f else y >>= f) start others := by
  split
  · exact hx.adds hf
  · exact hy.adds hf

theorem adds_foldlM {γ : Type} {f : α → γ → Compose α} (items : List γ) (a : α)
    (hf : ∀ a i, Adds (f a i) (marks a) marks) : Adds (items.foldlM f a) (marks a) marks := by
  induction items generalizing a with
  | nil => exact adds_pure rfl
  | cons i items ih =>
      rw [List.foldlM_cons]
      exact (hf a i).bind fun b => ih b

end

theorem isSilent_tagName (directives : Directives) (p : Properties) : IsSilent (tagName directives p) := by
  rw [tagName]
  split
  · exact isSilent_pure none
  · exact (isSilent_require _).bind fun _ => isSilent_pure _

theorem adds_nodeNumber (p : Properties) (start : List Mark) :
    Adds (nodeNumber p) start fun number => start ++ anchorMarks number := by
  rw [nodeNumber]
  split
  · exact adds_pure (List.append_nil _)
  · exact (isSilent_require _).adds fun _ s => ⟨[.anchor s.count], rfl, trivial, rfl⟩

theorem adds_scalarNode (directives : Directives) (p : Properties) (isPlain : Bool)
    (reading : Reading (List Char)) (start : List Mark) :
    Adds (scalarNode directives p isPlain reading) start fun node => start ++ node.marks := by
  rw [scalarNode]
  refine (isSilent_require _).adds fun _ => (adds_nodeNumber p start).bind fun number => ?_
  exact (isSilent_tagName directives p).adds fun _ => adds_pure (by rw [Node.marks])

theorem adds_aliasNode (p : Properties) (t : Token) (start : List Mark) :
    Adds (aliasNode p t) start fun node => start ++ node.marks := by
  rw [aliasNode]
  refine (isSilent_require _).adds fun _ s => ?_
  refine ⟨[.alias _ _], rfl, ⟨?_, trivial⟩, rfl⟩
  intro n hn
  exact List.mem_map.2 ⟨_, mem_of_lookup hn, rfl⟩

def IsOrderly (compose : Composer) : Prop :=
  ∀ atRoot tree p start, Adds (compose atRoot tree p) start fun node => start ++ node.marks

section

variable {compose : Composer} {directives : Directives} {start : List Mark}

theorem IsOrderly.adds_or (h : IsOrderly compose) (tree : Option Tree) (p : Properties) :
    Adds (composeOr compose directives tree p) start fun node => start ++ node.marks := by
  cases tree with
  | some t => exact h false t p start
  | none => exact adds_scalarNode directives p true ⟨[], true⟩ start

theorem IsOrderly.adds_listItem (h : IsOrderly compose) (indent : Nat) (nodes : List Node)
    (i : Item Tree) :
    Adds (composeListItem compose directives indent nodes i) (start ++ marksOfItems nodes)
      fun nodes => start ++ marksOfItems nodes := by
  rw [composeListItem]
  refine (isSilent_require _).adds fun _ => ?_
  split
  · exact adds_pure rfl
  · refine (isSilent_require _).adds fun _ => (h.adds_or i.value _).bind fun node => adds_pure ?_
    rw [marksOfItems_concat, List.append_assoc]

theorem isSilent_requireIndent (indent : Nat) (key : Option Tree) :
    IsSilent (composeMapItem.requireIndent indent key) := by
  cases key with
  | some t => exact isSilent_require _
  | none => exact isSilent_pure ()

theorem isSilent_requireImplicitKey (fuel indent : Nat) (p : Properties) (key : Option Tree) :
    IsSilent (requireImplicitKey fuel indent p key) := by
  rw [requireImplicitKey.eq_def]
  split <;> exact isSilent_require _

theorem IsOrderly.adds_mapItem (h : IsOrderly compose) (fuel indent : Nat)
    (pairs : List (Node × Option Node)) (i : Item Tree) :
    Adds (composeMapItem compose directives fuel indent pairs i) (start ++ marksOfPairs pairs)
      fun pairs => start ++ marksOfPairs pairs := by
  have hpair (key : Node) (value : Option Node) :
      start ++ marksOfPairs (pairs ++ [(key, value)]) =
        start ++ marksOfPairs pairs ++ key.marks ++ marksOfValue value := by
    simp only [marksOfPairs_concat, List.append_assoc]
  rw [composeMapItem]
  refine (isSilent_require _).adds fun _ => ?_
  dsimp only
  split
  · exact (isSilent_requireIndent _ _).adds fun _ => adds_pure rfl
  · refine adds_ite (isSilent_requireImplicitKey _ _ _ _) (isSilent_require _) fun _ => ?_
    refine (h.adds_or i.key _).bind fun key => (isSilent_require _).adds fun _ => ?_
    refine (isSilent_require _).adds fun _ => ?_
    have hvalue (v : Properties) : Adds (do
        let value ← composeOr compose directives i.value v
        return pairs ++ [(key, some value)]) (start ++ marksOfPairs pairs ++ key.marks)
          fun pairs => start ++ marksOfPairs pairs :=
      (h.adds_or i.value v).bind fun value => adds_pure (hpair key (some value))
    split
    · split
      · exact (isSilent_require _).adds fun _ => (isSilent_require _).adds fun _ => hvalue _
      · exact hvalue _
    · refine (isSilent_require _).adds fun _ => adds_pure ?_
      rw [hpair]
      exact List.append_nil _

theorem IsOrderly.adds_blockMap (h : IsOrderly compose) (fuel indent : Nat) (items : List (Item Tree)) :
    Adds (composeBlockMap compose directives fuel indent items) start
      fun pairs => start ++ marksOfPairs pairs := by
  have hitems : Adds (items.foldlM (composeMapItem compose directives fuel indent) [])
      (start ++ marksOfPairs []) fun pairs => start ++ marksOfPairs pairs :=
    adds_foldlM items [] (h.adds_mapItem fuel indent)
  rw [marksOfPairs, List.append_nil] at hitems
  rw [composeBlockMap]
  exact (isSilent_require _).adds fun _ => hitems

theorem IsOrderly.adds_blockList (h : IsOrderly compose) (indent : Nat) (items : List (Item Tree)) :
    Adds (items.foldlM (composeListItem compose directives indent) []) start
      fun nodes => start ++ marksOfItems nodes := by
  have hitems : Adds (items.foldlM (composeListItem compose directives indent) [])
      (start ++ marksOfItems []) fun nodes => start ++ marksOfItems nodes :=
    adds_foldlM items [] (h.adds_listItem indent)
  rwa [marksOfItems, List.append_nil] at hitems

def flowMarks (isMap : Bool) (acc : FlowItems) : List Mark :=
  if isMap then marksOfPairs acc.pairs else marksOfItems acc.elements

theorem IsOrderly.adds_flowPair (h : IsOrderly compose) (isMap : Bool) (indent : Nat)
    (acc : FlowItems) (p : Properties) (i : Item Tree) :
    Adds (composeFlowPair compose directives isMap indent acc p i) (start ++ flowMarks isMap acc)
      fun acc => start ++ flowMarks isMap acc := by
  rw [composeFlowPair]
  refine (h.adds_or i.key _).bind fun key => (isSilent_require _).adds fun _ => ?_
  refine (isSilent_require _).adds fun _ => ?_
  extract_lets finish next
  have hfinish (value : Option Node) : Adds (finish value)
      (start ++ flowMarks isMap acc ++ key.marks ++ marksOfValue value)
        fun acc => start ++ flowMarks isMap acc := by
    refine (isSilent_require _).adds fun _ => ?_
    cases isMap with
    | true =>
        refine (isSilent_require _).adds fun _ => adds_pure ?_
        simp [flowMarks, marksOfPairs_concat]
    | false =>
        refine adds_pure ?_
        cases value <;>
          simp [flowMarks, marksOfItems_concat, Node.marks, anchorMarks, marksOfPairs, marksOfValue]
  have hnext (r : Unit) : Adds (next r) (start ++ flowMarks isMap acc ++ key.marks)
      fun acc => start ++ flowMarks isMap acc := by
    dsimp only [next]
    split
    · refine Adds.bind ?_ hfinish
      exact adds_pure (List.append_nil _)
    · refine Adds.bind ?_ hfinish
      exact (h.adds_or _ _).map fun value => rfl
  split
  · split
    · exact (isSilent_require _).adds fun r => hnext r
    · exact hnext ()
  · exact (isSilent_require _).adds fun r => hnext r

theorem IsOrderly.adds_flowItem (h : IsOrderly compose) (fuel : Nat) (isMap : Bool)
    (indent last : Nat) (acc : FlowItems) (item : Item Tree × Nat) :
    Adds (composeFlowItem compose directives fuel isMap indent last acc item)
      (start ++ flowMarks isMap acc) fun acc => start ++ flowMarks isMap acc := by
  obtain ⟨i, n⟩ := item
  rw [composeFlowItem]
  refine (isSilent_require _).adds fun _ => ?_
  split
  · exact (isSilent_require _).adds fun _ => adds_pure rfl
  · refine (isSilent_require _).adds fun _ => (isSilent_require _).adds fun _ => ?_
    split
    · rename_i hlone
      have hmap : isMap = false := by
        cases isMap with
        | true => cases hlone
        | false => rfl
      subst hmap
      refine (h.adds_or i.value _).bind fun node => (isSilent_require _).adds fun _ => adds_pure ?_
      simp [flowMarks, marksOfItems_concat]
    · exact h.adds_flowPair isMap indent acc _ i

theorem IsOrderly.adds_flow (h : IsOrderly compose) (fuel : Nat) (isMap : Bool) (indent : Nat)
    (items : List (Item Tree)) (closing : List Token) :
    Adds (composeFlow compose directives fuel isMap indent items closing) start
      fun acc => start ++ flowMarks isMap acc := by
  have hempty : start ++ flowMarks isMap {} = start := by
    cases isMap <;> exact List.append_nil start
  rw [composeFlow]
  have hitems : Adds
      (items.zipIdx.foldlM (composeFlowItem compose directives fuel isMap indent (items.length - 1)) {})
      (start ++ flowMarks isMap {}) fun acc => start ++ flowMarks isMap acc :=
    adds_foldlM items.zipIdx {} (h.adds_flowItem fuel isMap indent (items.length - 1))
  rw [hempty] at hitems
  refine hitems.bind fun acc => ?_
  split
  · exact (isSilent_require _).adds fun _ => adds_pure rfl
  · exact (isSilent_require _).adds fun _ => (isSilent_require _).adds fun _ => adds_pure rfl

end

theorem adds_collectionNumber (directives : Directives) (p : Properties) (start : List Mark) :
    Adds (compose.collectionNumber directives p) start fun number => start ++ anchorMarks number := by
  rw [compose.collectionNumber]
  exact (isSilent_tagName directives p).adds fun _ => adds_nodeNumber p start

theorem isOrderly_compose (directives : Directives) (fuel : Nat) : IsOrderly (compose directives fuel) := by
  induction fuel with
  | zero =>
      intro atRoot tree p start
      rw [compose]
      exact (isSilent_require _).adds fun _ => adds_scalarNode directives p true ⟨[], true⟩ start
  | succ fuel ih =>
      intro atRoot tree p start
      unfold compose
      cases tree with
      | scalar t ending =>
          refine (isSilent_require _).adds fun _ => ?_
          split
          · exact adds_aliasNode p t start
          · exact adds_scalarNode directives p _ _ start
      | blockScalar indent header text => exact adds_scalarNode directives p false _ start
      | blockMap indent items =>
          refine (adds_collectionNumber directives p start).bind fun number => ?_
          refine Adds.bind (ih.adds_blockMap fuel indent items.reverse) fun pairs => adds_pure ?_
          rw [Node.marks, List.append_assoc]
      | blockList indent items =>
          refine (isSilent_require _).adds fun _ => ?_
          refine (adds_collectionNumber directives p start).bind fun number => ?_
          refine Adds.bind (ih.adds_blockList indent items.reverse) fun items => adds_pure ?_
          rw [Node.marks, List.append_assoc]
      | flow opening indent items closing =>
          refine (adds_collectionNumber directives p start).bind fun number => ?_
          refine Adds.bind (ih.adds_flow fuel _ indent items.reverse closing) fun acc => adds_pure ?_
          split <;> simp [flowMarks, Node.marks, *]
      | misplaced =>
          exact (isSilent_require _).adds fun _ => adds_scalarNode directives p true ⟨[], true⟩ start

theorem refersBack_of_adds {x : Compose Node} (h : Adds x [] fun node => [] ++ node.marks) :
    RefersBack [] (x {}).1.marks := by
  obtain ⟨ms, hmarks, hback, -⟩ := h {}
  obtain rfl : (x {}).1.marks = ms := hmarks
  exact hback

theorem refersBack_composeDocument (directives : Directives) (fuel : Nat) (start : List Token)
    (value : Option Tree) (ending : Option (List Token)) :
    RefersBack [] (composeDocument directives fuel start value ending).1.node.marks := by
  cases value with
  | some t => exact refersBack_of_adds (isOrderly_compose directives fuel true t _ [])
  | none => exact refersBack_of_adds (adds_scalarNode directives _ true ⟨[], true⟩ [])

def AllReferBack (ds : List Document) : Prop := ∀ d ∈ ds, RefersBack [] d.node.marks

theorem AllReferBack.condemn {ds : List Document} (h : AllReferBack ds) :
    AllReferBack (Stream.condemn ds) := by
  cases ds with
  | nil => exact h
  | cons d ds => exact List.forall_mem_cons.2 (List.forall_mem_cons.1 h)

theorem AllReferBack.add {s : Stream} (h : AllReferBack s.documents) (fuel : Nat) (part : Part) :
    AllReferBack (s.add fuel part).documents := by
  cases part with
  | directive text => exact h
  | document start value ending =>
      have hnew := refersBack_composeDocument s.directives fuel start value ending
      exact List.forall_mem_cons.2 ⟨hnew, h⟩
  | misplaced =>
      rw [Stream.add]
      split
      · exact h
      · exact h.condemn
  | documentEnd ending =>
      rw [Stream.add]
      split
      · exact h
      · split
        · exact h
        · exact h.condemn

theorem allReferBack_documents (cs : List Char) : AllReferBack (documents cs) := by
  have hparts (ps : List Part) (s : Stream) (fuel : Nat) (h : AllReferBack s.documents) :
      AllReferBack (ps.foldl (Stream.add fuel) s).documents := by
    induction ps generalizing s with
    | nil => exact h
    | cons p ps ih => exact ih _ (h.add fuel p)
  have hall := hparts (parts cs) {} (cs.length + 1) (List.forall_mem_nil _)
  intro d hd
  rw [documents, Stream.finish] at hd
  split at hd
  · exact hall d (List.mem_reverse.1 hd)
  · exact hall.condemn d (List.mem_reverse.1 hd)

end RecordSieve.Yaml
