import RecordSieve.Proofs.Json.Source

namespace RecordSieve.Json

namespace Source

theorem exists_blank (cs : List Char) : ∃ blank, IsBlank blank ∧ cs = blank ++ skipSpace cs :=
  ⟨cs.takeWhile isSpace, List.all_eq_true.1 List.all_takeWhile, List.takeWhile_append_dropWhile.symm⟩

theorem isSpace_of_skipSpace {c : Char} {cs rest : List Char} (h : skipSpace cs = c :: rest) :
    isSpace c = false := by
  have hhead := List.head?_dropWhile_not isSpace cs
  rw [← skipSpace, h] at hhead
  simpa using hhead

theorem exists_blank_between {cs rest more : List Char} {opening closing : Char}
    (hopening : skipSpace cs = opening :: rest) (hclosing : skipSpace rest = closing :: more) :
    ∃ blank, IsBlank blank ∧ skipSpace cs = opening :: (blank ++ [closing]) ++ more := by
  obtain ⟨blank, hblank, hrest⟩ := exists_blank rest
  refine ⟨blank, hblank, ?_⟩
  rw [hopening, hrest, hclosing]
  simp

theorem skipSpace_skipSpace (cs : List Char) : skipSpace (skipSpace cs) = skipSpace cs := by
  cases h : skipSpace cs with
  | nil => rfl
  | cons c rest => exact skipSpace_cons (isSpace_of_skipSpace h) rest

def Begins (cs : List Char) : Beginning → List Char → Prop
  | .scalar j, rest => ∃ s text, cs = text ++ rest ∧ Spells (.value s) text ∧ s.value? = some j
  | .array, rest => cs = '[' :: rest
  | .object, rest => cs = '\x7b' :: rest

theorem begins_of_word? {cs rest : List Char} {b : Beginning} (h : word? cs = some (b, rest)) :
    Begins cs b rest := by
  unfold word? at h
  split at h <;> cases h
  · exact ⟨_, _, rfl, .true, rfl⟩
  · exact ⟨_, _, rfl, .false, rfl⟩
  · exact ⟨_, _, rfl, .null, rfl⟩

theorem begins_of_beginning? {cs rest : List Char} {b : Beginning}
    (h : beginning? cs = .ok (some (b, rest))) : Begins cs b rest := by
  unfold beginning? at h
  split at h
  · obtain ⟨⟨s, rest'⟩, hbody, hpair⟩ := Except.map_eq_ok_iff.1 h
    cases hpair
    obtain ⟨body, hspells, rfl⟩ := exists_spellsText hbody
    exact ⟨.string _, _, by simp, .string hspells, rfl⟩
  · cases h
    rfl
  · cases h
    rfl
  · obtain ⟨⟨taken, more⟩, hnumeral, hpair⟩ := Except.map_eq_ok_iff.1 h
    dsimp only at hpair
    split at hpair
    · exact begins_of_word? hpair
    · rename_i hne
      cases hpair
      exact ⟨_, _, (append_numeral hnumeral).symm,
        .numeral (spellsNumber_of_numeral hnumeral (by simpa using hne)), rfl⟩

theorem exists_of_memberKey {cs mark rest : List Char} {key : String}
    (h : memberKey cs = .ok (key, mark, rest)) : ∃ body after, SpellsText body key ∧ IsBlank after ∧
      cs = '\x22' :: (body ++ '\x22' :: (after ++ ':' :: rest)) := by
  unfold memberKey at h
  split at h
  · rename_i inner
    obtain ⟨⟨s, tail⟩, hbody, h⟩ := Except.bind_eq_ok_iff.1 h
    dsimp only at h
    split at h
    · rename_i hskip
      cases h
      obtain ⟨body, hspells, rfl⟩ := exists_spellsText hbody
      obtain ⟨after, hblank, hafter⟩ := exists_blank tail
      rw [hskip] at hafter
      exact ⟨body, after, hspells, hblank, by rw [hafter]⟩
    · cases h
  · cases h

/-- Reading goes on with data behind a text that spells it, and behind the blanks that follow. -/
def TakesElement (stack : List Frame) (cs : List Char) (j : Json) : Prop :=
  ∃ s k text rest, cs = text ++ rest ∧ Spells (.element s) text ∧ s.value? = some k ∧
    readAfter stack k rest = .ok j ∧ skipSpace rest = rest

def TakesItems (stack : List Frame) (before : List Json) (cs : List Char) (j : Json) : Prop :=
  ∃ ss ks text rest, cs = text ++ ']' :: rest ∧ Spells (.items ss) text ∧ valuesIn? ss = some ks ∧
    readAfter stack (.array (before.reverse ++ ks)) rest = .ok j

def TakesMembers (stack : List Frame) (before : Entries Json) (cs : List Char) (j : Json) : Prop :=
  ∃ ms es text rest, cs = text ++ '\x7d' :: rest ∧ Spells (.members ms) text ∧
    valuesUnder? before ms = some es ∧ readAfter stack (.object es) rest = .ok j

variable {stack : List Frame} {cs : List Char} {j : Json}

theorem takesElement_of_value {s : Source} {k : Json} {text rest : List Char}
    (hskip : skipSpace cs = text ++ rest) (htext : Spells (.value s) text) (hk : s.value? = some k)
    (h : readAfter stack k rest = .ok j) : TakesElement stack cs j := by
  obtain ⟨before, hbefore, hcs⟩ := exists_blank cs
  obtain ⟨after, hafter, hrest⟩ := exists_blank rest
  refine ⟨s, k, before ++ (text ++ after), skipSpace rest, ?_, .element hbefore htext hafter, hk, ?_,
    skipSpace_skipSpace rest⟩
  · rw [hcs, hskip, List.append_assoc, List.append_assoc, ← hrest]
  · rw [← h]
    exact readAfter_congr (skipSpace_skipSpace rest)

theorem takesItems_of_element {before : List Json} (h : TakesElement (.array before :: stack) cs j)
    (hmore : ∀ k rest, rest.length < cs.length → readValue (.array (k :: before) :: stack) rest = .ok j →
      TakesItems stack (k :: before) rest j) : TakesItems stack before cs j := by
  obtain ⟨s, k, text, rest, rfl, htext, hk, hread, hskip⟩ := h
  rw [readAfter, hskip] at hread
  split at hread
  · cases hread
  · rename_i c rest
    split at hread
    · rename_i hcomma
      subst hcomma
      obtain ⟨ss, ks, text', rest', rfl, htext', hks, hread⟩ := hmore k rest (by simp; omega) hread
      refine ⟨s :: ss, k :: ks, text ++ ',' :: text', rest', by simp, .item htext htext', ?_, ?_⟩
      · rw [valuesIn?, hk, hks]
        rfl
      · simpa using hread
    · split at hread
      · rename_i hend
        subst hend
        refine ⟨[s], [k], text, rest, rfl, .lastItem htext, ?_, ?_⟩
        · rw [valuesIn?, hk]
          rfl
        · simpa using hread
      · cases hread

theorem takesMembers_of_element {before : Entries Json} {key : String} {mark keyText : List Char}
    (hkey : ∀ {s text}, Spells (.element s) text → Spells (.member key s) (keyText ++ text))
    (h : TakesElement (.object before key mark :: stack) cs j)
    (hmore : ∀ es rest, rest.length < cs.length → readMember stack es rest = .ok j →
      TakesMembers stack es rest j) : TakesMembers stack before (keyText ++ cs) j := by
  obtain ⟨s, k, text, rest, rfl, htext, hk, hread, hskip⟩ := h
  rw [readAfter, hskip] at hread
  split at hread
  · cases hread
  · rename_i es hadd
    split at hread
    · cases hread
    · rename_i c rest
      split at hread
      · rename_i hcomma
        subst hcomma
        obtain ⟨ms, es', text', rest', rfl, htext', hes', hread⟩ := hmore es rest (by simp; omega) hread
        refine ⟨(key, s) :: ms, es', keyText ++ text ++ ',' :: text', rest', by simp,
          .moreMembers (hkey htext) htext', ?_, hread⟩
        rw [valuesUnder?, hk, Option.bind_some, hadd, Option.bind_some, hes']
      · split at hread
        · rename_i hend
          subst hend
          refine ⟨[(key, s)], es, keyText ++ text, rest, by simp, .lastMember (hkey htext), ?_, hread⟩
          rw [valuesUnder?, hk, Option.bind_some, hadd, Option.bind_some, valuesUnder?]
        · cases hread

-- An item is read first, then those behind it: the texts get shorter but in the step from the items to
-- the first of them.
mutual

theorem takesElement_of_readValue {stack : List Frame} {cs : List Char} {j : Json}
    (h : readValue stack cs = .ok j) : TakesElement stack cs j := by
  rw [readValue] at h
  split at h
  · cases h
  · cases h
  · rename_i hb
    obtain ⟨s, text, hcs, htext, hk⟩ := begins_of_beginning? hb
    exact takesElement_of_value hcs htext hk h
  · rename_i rest hb
    have hcs : skipSpace cs = '[' :: rest := begins_of_beginning? hb
    have hshort : rest.length < cs.length := length_of_skipSpace hcs
    split at h
    · cases h
    · rename_i c more hskip
      split at h
      · rename_i hend
        obtain ⟨blank, hblank, htaken⟩ := exists_blank_between hcs (hend ▸ hskip)
        exact takesElement_of_value htaken (.emptyArray hblank) rfl h
      · rw [← hskip, readValue_congr (skipSpace_skipSpace rest)] at h
        obtain ⟨ss, ks, text, rest', rfl, htext, hks, h⟩ := takesItems_of_readValue h
        have htaken : skipSpace cs = '[' :: (text ++ [']']) ++ rest' := by
          rw [hcs]
          simp
        refine takesElement_of_value htaken (.array htext) ?_ h
        rw [value?, hks]
        rfl
  · rename_i rest hb
    have hcs : skipSpace cs = '\x7b' :: rest := begins_of_beginning? hb
    have hshort : rest.length < cs.length := length_of_skipSpace hcs
    split at h
    · cases h
    · rename_i c more hskip
      split at h
      · rename_i hend
        obtain ⟨blank, hblank, htaken⟩ := exists_blank_between hcs (hend ▸ hskip)
        exact takesElement_of_value htaken (.emptyObject hblank) rfl h
      · rw [← hskip, readMember_congr (skipSpace_skipSpace rest)] at h
        obtain ⟨ms, es, text, rest', rfl, htext, hes, h⟩ := takesMembers_of_readMember h
        have htaken : skipSpace cs = '\x7b' :: (text ++ ['\x7d']) ++ rest' := by
          rw [hcs]
          simp
        refine takesElement_of_value htaken (.object htext) ?_ h
        rw [value?, hes]
        rfl
  termination_by (cs.length, 0)

theorem takesItems_of_readValue {stack : List Frame} {before : List Json} {cs : List Char} {j : Json}
    (h : readValue (.array before :: stack) cs = .ok j) : TakesItems stack before cs j :=
  takesItems_of_element (takesElement_of_readValue h) fun _ _ _ h => takesItems_of_readValue h
  termination_by (cs.length, 1)

theorem takesMembers_of_readMember {stack : List Frame} {before : Entries Json} {cs : List Char} {j : Json}
    (h : readMember stack before cs = .ok j) : TakesMembers stack before cs j := by
  rw [readMember] at h
  split at h
  · cases h
  · rename_i key mark rest hk
    obtain ⟨blank, hblank, hcs⟩ := exists_blank cs
    obtain ⟨body, after, hbody, hafter, hskip⟩ := exists_of_memberKey hk
    have htext : cs = blank ++ '\x22' :: (body ++ '\x22' :: (after ++ [':'])) ++ rest := by
      rw [hcs, hskip]
      simp
    have hshort : rest.length < cs.length := by
      rw [htext]
      simp
      omega
    rw [htext]
    refine takesMembers_of_element (fun h => ?_) (takesElement_of_readValue h)
      fun _ _ hlt h => takesMembers_of_readMember h
    simpa using Spells.member hblank hbody hafter h
  termination_by (cs.length, 1)

end

theorem Spells.toOption_parse {s : Source} {text : String} (h : Spells (.element s) text.toList) :
    (parse text).toOption = s.value? := by
  have hread : (parse (String.ofList text.toList)).toOption = s.value? := IsReadAs.toOption_parse h.isRead
  rwa [String.ofList_toList] at hread

theorem parse_eq_ok_iff {text : String} {j : Json} :
    parse text = .ok j ↔ ∃ s, Spells (.element s) text.toList ∧ s.value? = some j := by
  constructor
  · intro h
    obtain ⟨s, k, taken, rest, hcs, htaken, hk, hread, hskip⟩ :=
      takesElement_of_readValue (Except.mapError_eq_ok_iff.1 h)
    rw [readAfter, hskip] at hread
    split at hread
    · rename_i hempty
      cases hread
      rw [List.isEmpty_iff.1 hempty, List.append_nil] at hcs
      exact ⟨s, hcs ▸ htaken, hk⟩
    · cases hread
  · rintro ⟨s, hs, hj⟩
    have hread := hs.toOption_parse
    rw [hj] at hread
    cases h : parse text with
    | ok k =>
        rw [h] at hread
        exact congrArg _ (Option.some.inj hread)
    | error =>
        rw [h] at hread
        cases hread

end Source

mutual

def source : Json → Source
  | .null => .null
  | .boolean b => .boolean b
  | .number n => if n.isFinite then .numeral (numberText n) else .null
  | .string s => .string s
  | .array items => .array (sourcesIn items)
  | .object properties => .object (sourcesUnder properties)

def sourcesIn : List Json → List Source
  | [] => []
  | j :: js => j.source :: sourcesIn js

def sourcesUnder : List (String × Json) → List (String × Source)
  | [] => []
  | (key, j) :: rest => (key, j.source) :: sourcesUnder rest

end

theorem source_array (items : List Json) : source (.array items) = .array (items.map source) := by
  have hitems : sourcesIn items = items.map source := by
    induction items with
    | nil => rfl
    | cons j js ih => rw [sourcesIn, ih, List.map_cons]
  rw [source, hitems]

theorem source_object (properties : List (String × Json)) :
    source (.object properties) = .object (Entries.mapValues source properties) := by
  have hproperties : sourcesUnder properties = Entries.mapValues source properties := by
    induction properties with
    | nil => rfl
    | cons e es ih => rw [sourcesUnder, ih]; rfl
  rw [source, hproperties]

theorem spellsText_escaped (s : String) : SpellsText (s.toList.flatMap Text.escapeChar) s :=
  ⟨spellsString_escaped s.toList, stringBody_quoted [] s.toList []⟩

namespace Source

theorem Spells.bare {s : Source} {cs : List Char} (h : Spells (.value s) cs) : Spells (.element s) cs := by
  simpa using Spells.element isBlank_nil h isBlank_nil

theorem spells_charsOfItems {items : List Json} (h : ∀ j ∈ items, Spells (.value j.source) j.chars)
    (hne : items ≠ []) : Spells (.items (items.map source)) (charsOfItems items) := by
  induction items with
  | nil => exact absurd rfl hne
  | cons j js ih =>
      obtain ⟨hj, hjs⟩ := List.forall_mem_cons.1 h
      cases js with
      | nil =>
          rw [charsOfItems]
          exact .lastItem hj.bare
      | cons k ks =>
          rw [charsOfItems_cons_cons]
          exact .item hj.bare (ih hjs (by simp))

theorem spells_charsOfProperties {properties : List (String × Json)}
    (h : ∀ e ∈ properties, Spells (.value e.2.source) e.2.chars) (hne : properties ≠ []) :
    Spells (.members (Entries.mapValues source properties)) (charsOfProperties properties) := by
  induction properties with
  | nil => exact absurd rfl hne
  | cons e es ih =>
      obtain ⟨key, j⟩ := e
      obtain ⟨hj, hes⟩ := List.forall_mem_cons.1 h
      have hmember : Spells (.member key j.source) (Text.quoteList key.toList ++ ':' :: j.chars) := by
        simpa [Text.quoteList] using Spells.member isBlank_nil (spellsText_escaped key) isBlank_nil hj.bare
      cases es with
      | nil =>
          rw [charsOfProperties]
          exact .lastMember hmember
      | cons f fs =>
          rw [charsOfProperties_cons_cons]
          exact .moreMembers hmember (ih hes (by simp))

theorem spells_source (j : Json) : Spells (.value j.source) j.chars := by
  induction j using byParts with
  | null => exact .null
  | boolean b =>
      cases b with
      | true => exact .true
      | false => exact .false
  | number n =>
      rw [chars, source]
      cases hn : n.isFinite with
      | false =>
          rw [numberText_of_not_isFinite hn]
          exact .null
      | true =>
          obtain ⟨p, htext, -⟩ := NumeralParts.exists_isTextOf hn
          rw [if_pos rfl, ← htext]
          exact .numeral (.whole (spellsNumeral_text p))
  | string s => exact .string (spellsText_escaped s)
  | array items ih =>
      rw [chars, source_array]
      cases items with
      | nil => exact .emptyArray isBlank_nil
      | cons k ks => exact .array (spells_charsOfItems ih (by simp))
  | object properties ih =>
      rw [chars, source_object]
      cases properties with
      | nil => exact .emptyObject isBlank_nil
      | cons f fs => exact .object (spells_charsOfProperties ih (by simp))

end Source

end RecordSieve.Json
