import RecordSieve.Proofs.Json.NumberText
import RecordSieve.Proofs.Json.Parts
import RecordSieve.Proofs.Text.Char

namespace RecordSieve.Json

mutual

def reread : Json → Json
  | .number n => if n.isFinite then .number n.reread else .null
  | .array items => .array (rereadIn items)
  | .object properties => .object (rereadUnder properties)
  | j => j

def rereadIn : List Json → List Json
  | [] => []
  | j :: js => j.reread :: rereadIn js

def rereadUnder : List (String × Json) → List (String × Json)
  | [] => []
  | (k, j) :: rest => (k, j.reread) :: rereadUnder rest

end

theorem reread_array (items : List Json) : reread (.array items) = .array (items.map reread) := by
  have hitems : rereadIn items = items.map reread := by
    induction items with
    | nil => rfl
    | cons j js ih => rw [rereadIn, ih, List.map_cons]
  rw [reread, hitems]

theorem reread_object (properties : List (String × Json)) :
    reread (.object properties) = .object (Entries.mapValues reread properties) := by
  have hproperties : rereadUnder properties = Entries.mapValues reread properties := by
    induction properties with
    | nil => rfl
    | cons e es ih => rw [rereadUnder, ih]; rfl
  rw [reread, hproperties]

def hasOrderedKeys : Json → Bool
  | .object properties => decide (Entries.Distinct properties) && decide (Entries.InOrder properties)
  | _ => true

theorem escaped?_simple {e c : Char} (h : simpleEscape? e = some c) (rest : List Char) :
    escaped? (e :: rest) = some (c, rest) := by
  simp [escaped?, h]

theorem hexValue4?_hexDigit : ∀ n < 32,
    hexValue4? '0' '0' (Text.hexDigit (n / 16)) (Text.hexDigit (n % 16)) = some n := by
  decide

theorem escaped?_control {c : Char} (hc : c.toNat < 32) (rest : List Char) :
    escaped? ('u' :: '0' :: '0' :: Text.hexDigit (c.toNat / 16) :: Text.hexDigit (c.toNat % 16) :: rest) =
      some (c, rest) := by
  have hlead : isLeadUnit c.toNat = false := by simp [isLeadUnit]; omega
  have htrail : isTrailUnit c.toNat = false := by simp [isTrailUnit]; omega
  have hsimple : simpleEscape? 'u' = none := by decide
  simp [escaped?, codeUnit?, hexValue4?_hexDigit _ hc, hsimple, hlead, htrail, unitChar]

theorem stringBody_escaped {taken cs rest : List Char} {c : Char} (h : escaped? cs = some (c, rest)) :
    stringBody taken ('\\' :: cs) = stringBody (c :: taken) rest := by
  rw [stringBody, if_neg (by decide), if_pos rfl]
  split
  · rename_i h'
    rw [h] at h'
    cases h'
    rfl
  · rename_i h'
    rw [h] at h'
    cases h'

theorem stringBody_escapeChar (taken : List Char) (c : Char) (rest : List Char) :
    stringBody taken (Text.escapeChar c ++ rest) = stringBody (c :: taken) rest := by
  unfold Text.escapeChar
  split
  case h_8 hquote hslash _ _ _ _ _ =>
    split
    · rename_i hc
      exact stringBody_escaped (escaped?_control hc rest)
    · rename_i hc
      rw [List.singleton_append, stringBody, if_neg hquote, if_neg hslash, if_neg hc]
  all_goals exact stringBody_escaped (escaped?_simple (by decide) rest)

theorem stringBody_quoted (taken s rest : List Char) :
    stringBody taken (s.flatMap Text.escapeChar ++ '\x22' :: rest) = .ok (taken.reverse ++ s, rest) := by
  induction s generalizing taken with
  | nil => rw [List.flatMap_nil, List.nil_append, stringBody, if_pos rfl, List.append_nil]
  | cons c cs ih =>
      rw [List.flatMap_cons, List.append_assoc, stringBody_escapeChar, ih, List.reverse_cons,
        List.append_assoc, List.singleton_append]

theorem skipSpace_cons {c : Char} (hc : isSpace c = false) (cs : List Char) :
    skipSpace (c :: cs) = c :: cs := by
  rw [skipSpace, List.dropWhile_cons_of_neg (by simp [hc])]

theorem isSpace_of_not_isBlank {c : Char} (h : Text.isBlank c = false) : isSpace c = false := by
  rw [isSpace, Bool.eq_false_iff]
  intro hspace
  simp only [Bool.or_eq_true, decide_eq_true_eq] at hspace
  rcases hspace with ((rfl | rfl) | rfl) | rfl <;> exact absurd h (by decide)

theorem isSpace_of_isDigit {c : Char} (h : c.isDigit = true) : isSpace c = false :=
  isSpace_of_not_isBlank (Text.isBlank_of_isDigit h)

theorem beginning?_string (s rest : List Char) :
    beginning? (Text.quoteList s ++ rest) = .ok (some (.scalar (.string (String.ofList s)), rest)) := by
  have hbody := stringBody_quoted [] s rest
  rw [List.reverse_nil, List.nil_append] at hbody
  rw [Text.quoteList, List.cons_append, List.cons_append, List.append_assoc, List.singleton_append,
    beginning?, hbody]
  rfl

theorem beginning?_of_numeral {text rest : List Char}
    (hcons : ∃ c cs, text = c :: cs ∧ (c = '-' ∨ c.isDigit = true))
    (hnumeral : numeral (text ++ rest) = .ok (text, rest)) :
    beginning? (text ++ rest) = .ok (some (.scalar (.number (numberOf text)), rest)) := by
  obtain ⟨c, cs, rfl, hc⟩ := hcons
  rw [List.cons_append] at *
  have hne : c ≠ '\x22' ∧ c ≠ '\x7b' ∧ c ≠ '[' := by
    refine ⟨?_, ?_, ?_⟩ <;> (rintro rfl; simp at hc)
  rw [beginning?.eq_4 _ (fun _ h => hne.1 (List.cons_eq_cons.1 h).1)
    (fun _ h => hne.2.1 (List.cons_eq_cons.1 h).1) (fun _ h => hne.2.2 (List.cons_eq_cons.1 h).1),
    hnumeral]
  rfl

theorem beginning?_number (p : NumeralParts) {rest : List Char} (hr : NumeralParts.Ends rest) :
    beginning? (p.text ++ rest) = .ok (some (.scalar (.number (numberOf p.text)), rest)) :=
  beginning?_of_numeral p.exists_cons_text (p.numeral_text hr)

theorem numberText_of_not_isFinite {n : Number} (h : n.isFinite = false) :
    numberText n = "null".toList := by
  rcases n with n | x
  · cases h
  · rw [numberText, show x.isFinite = false from h, if_neg (by decide)]

theorem exists_cons_chars (j : Json) : ∃ c cs, j.chars = c :: cs ∧ Text.isBlank c = false ∧ c ≠ ']' := by
  cases j with
  | null => exact ⟨'n', _, rfl, by decide, by decide⟩
  | boolean b => cases b <;> exact ⟨_, _, rfl, by decide, by decide⟩
  | number n =>
      rw [chars]
      cases hn : n.isFinite with
      | false => rw [numberText_of_not_isFinite hn]; exact ⟨'n', _, rfl, by decide, by decide⟩
      | true =>
          obtain ⟨p, htext, -⟩ := NumeralParts.exists_isTextOf hn
          obtain ⟨c, cs, hp, hc⟩ := p.exists_cons_text
          refine ⟨c, cs, htext ▸ hp, ?_, ?_⟩
          · exact hc.elim (fun h => h ▸ by decide) Text.isBlank_of_isDigit
          · rintro rfl
            simp at hc
  | string s => exact ⟨'\x22', _, rfl, by decide, by decide⟩
  | array items => exact ⟨'[', _, rfl, by decide, by decide⟩
  | object properties => exact ⟨'\x7b', _, rfl, by decide, by decide⟩

theorem exists_cons_charsOfItems (j : Json) (js : List Json) :
    ∃ c cs, charsOfItems (j :: js) = c :: cs ∧ isSpace c = false ∧ c ≠ ']' := by
  obtain ⟨c, cs, hchars, hblank, hc⟩ := j.exists_cons_chars
  have hspace := isSpace_of_not_isBlank hblank
  cases js with
  | nil => exact ⟨c, cs, hchars, hspace, hc⟩
  | cons k ks => exact ⟨c, _, by rw [charsOfItems_cons_cons, hchars]; rfl, hspace, hc⟩

theorem exists_cons_charsOfProperties (e : String × Json) (es : List (String × Json)) :
    ∃ cs, charsOfProperties (e :: es) = '\x22' :: cs := by
  cases es with
  | nil => exact ⟨_, rfl⟩
  | cons f fs => exact ⟨_, by rw [charsOfProperties_cons_cons]; rfl⟩

theorem skipSpace_chars (j : Json) (rest : List Char) :
    skipSpace (j.chars ++ rest) = j.chars ++ rest := by
  obtain ⟨c, cs, hchars, hc, -⟩ := j.exists_cons_chars
  rw [hchars, List.cons_append, skipSpace_cons (isSpace_of_not_isBlank hc)]

section Steps

variable {stack : List Frame} {cs rest more : List Char} {c : Char}

theorem readValue_scalar {j : Json} (h : beginning? (skipSpace cs) = .ok (some (.scalar j, rest))) :
    readValue stack cs = readAfter stack j rest := by
  rw [readValue]
  split <;> rename_i h' <;> rw [h] at h' <;> cases h'
  rfl

theorem readValue_array (h : beginning? (skipSpace cs) = .ok (some (.array, rest)))
    (hs : skipSpace rest = c :: more) : readValue stack cs =
      if c = ']' then readAfter stack (.array []) more else readValue (.array [] :: stack) (c :: more) := by
  rw [readValue]
  split <;> rename_i h' <;> rw [h] at h' <;> cases h'
  split <;> rename_i h' <;> rw [hs] at h' <;> cases h'
  rfl

theorem readValue_object (h : beginning? (skipSpace cs) = .ok (some (.object, rest)))
    (hs : skipSpace rest = c :: more) : readValue stack cs =
      if c = '\x7d' then readAfter stack (.object []) more else readMember stack [] (c :: more) := by
  rw [readValue]
  split <;> rename_i h' <;> rw [h] at h' <;> cases h'
  split <;> rename_i h' <;> rw [hs] at h' <;> cases h'
  rfl

theorem readMember_of_memberKey {before : Entries Json} {key : String} {mark : List Char}
    (h : memberKey (skipSpace cs) = .ok (key, mark, rest)) :
    readMember stack before cs = readValue (.object before key mark :: stack) rest := by
  rw [readMember]
  split <;> rename_i h' <;> rw [h] at h' <;> cases h'
  rfl

theorem readAfter_array {j : Json} {before : List Json} (hc : isSpace c = false) :
    readAfter (.array before :: stack) j (c :: rest) =
      if c = ',' then readValue (.array (j :: before) :: stack) rest
      else if c = ']' then readAfter stack (.array (j :: before).reverse) rest
      else .error (missing .comma (c :: rest)) := by
  rw [readAfter]
  split <;> rename_i h' <;> rw [skipSpace_cons hc] at h' <;> cases h'
  rfl

theorem readAfter_object {j : Json} {before members : Entries Json} {key : String} {mark : List Char}
    (hm : addMember? key j before = some members) (hc : isSpace c = false) :
    readAfter (.object before key mark :: stack) j (c :: rest) =
      if c = ',' then readMember stack members rest
      else if c = '\x7d' then readAfter stack (.object members) rest
      else .error (missing .comma (c :: rest)) := by
  rw [readAfter]
  split <;> rename_i h' <;> rw [hm] at h' <;> cases h'
  split <;> rename_i h' <;> rw [skipSpace_cons hc] at h' <;> cases h'
  rfl

end Steps

theorem ends_cons {c : Char} (hc : c = ',' ∨ c = ']' ∨ c = '\x7d') (rest : List Char) :
    NumeralParts.Ends (c :: rest) := by
  rintro c' ⟨⟩
  rcases hc with rfl | rfl | rfl <;> decide

/-- Data of which every text is read as the data that comes back, whatever is open and follows. -/
def ReadsBack (j : Json) : Prop := ∀ (stack : List Frame) (rest : List Char), NumeralParts.Ends rest →
  readValue stack (j.chars ++ rest) = readAfter stack j.reread rest

theorem readValue_charsOfItems {items : List Json} (h : ∀ j ∈ items, ReadsBack j) (hne : items ≠ [])
    (stack : List Frame) (before : List Json) (rest : List Char) :
    readValue (.array before :: stack) (charsOfItems items ++ ']' :: rest) =
      readAfter stack (.array (before.reverse ++ items.map reread)) rest := by
  induction items generalizing before with
  | nil => exact absurd rfl hne
  | cons j js ih =>
      obtain ⟨hj, hjs⟩ := List.forall_mem_cons.1 h
      cases js with
      | nil =>
          rw [charsOfItems, hj _ _ (ends_cons (.inr (.inl rfl)) rest), readAfter_array (by decide),
            if_neg (by decide), if_pos rfl, List.reverse_cons]
          rfl
      | cons k ks =>
          have hrest := ih hjs (by simp) (j.reread :: before)
          rw [charsOfItems_cons_cons, List.append_assoc, List.cons_append,
            hj _ _ (ends_cons (.inl rfl) _), readAfter_array (by decide), if_pos rfl, hrest,
            List.reverse_cons, List.append_assoc]
          rfl

theorem memberKey_quoted (key : String) (rest : List Char) :
    ∃ mark, memberKey (Text.quoteList key.toList ++ ':' :: rest) = .ok (key, mark, rest) := by
  have hbody := stringBody_quoted [] key.toList (':' :: rest)
  rw [List.reverse_nil, List.nil_append] at hbody
  refine ⟨key.toList.flatMap Text.escapeChar ++ '\x22' :: ':' :: rest, ?_⟩
  rw [Text.quoteList, List.cons_append, List.cons_append, List.append_assoc, List.singleton_append,
    memberKey]
  simp only [hbody, bind, Except.bind, skipSpace_cons (show isSpace ':' = false by decide)]
  rw [String.ofList_toList]

theorem addMember?_last {key : String} {value : Json} {before : Entries Json} {rest : Entries Json}
    (hd : Entries.Distinct (before ++ (key, value) :: rest))
    (ho : Entries.InOrder (before ++ (key, value) :: rest)) :
    addMember? key value before = some (before ++ [(key, value)]) := by
  have hnotMem := Entries.notMem_of_distinct hd
  have hlast : ∀ e ∈ before, Entries.precedes key e.1 = false := fun e he =>
    (List.pairwise_append.1 ho).2.2 e he (key, value) List.mem_cons_self
  rw [addMember?, Entries.find?_eq_none hnotMem]
  dsimp only
  rw [Entries.define_of_notMem value hnotMem, Entries.place_last value hlast]

theorem readMember_charsOfProperties {properties : List (String × Json)}
    (h : ∀ e ∈ properties, ReadsBack e.2) (hne : properties ≠ []) (stack : List Frame)
    (before : Entries Json) (hd : Entries.Distinct (before ++ Entries.mapValues reread properties))
    (ho : Entries.InOrder (before ++ Entries.mapValues reread properties)) (rest : List Char) :
    readMember stack before (charsOfProperties properties ++ '\x7d' :: rest) =
      readAfter stack (.object (before ++ Entries.mapValues reread properties)) rest := by
  induction properties generalizing before with
  | nil => exact absurd rfl hne
  | cons e es ih =>
      obtain ⟨key, j⟩ := e
      obtain ⟨hj, hes⟩ := List.forall_mem_cons.1 h
      rw [Entries.mapValues_cons] at hd ho
      have hadd := addMember?_last hd ho
      have hquote : ∀ tail, skipSpace (Text.quoteList key.toList ++ tail) =
          Text.quoteList key.toList ++ tail := fun tail => skipSpace_cons (by decide) _
      cases es with
      | nil =>
          obtain ⟨mark, hmark⟩ := memberKey_quoted key (j.chars ++ '\x7d' :: rest)
          rw [charsOfProperties, List.append_assoc, List.cons_append,
            readMember_of_memberKey (by rw [hquote, hmark]), hj _ _ (ends_cons (.inr (.inr rfl)) rest),
            readAfter_object hadd (by decide), if_neg (by decide), if_pos rfl]
          rfl
      | cons e' es =>
          obtain ⟨mark, hmark⟩ := memberKey_quoted key
            (j.chars ++ ',' :: (charsOfProperties (e' :: es) ++ '\x7d' :: rest))
          rw [List.append_cons] at hd ho
          have hrest := ih hes (by simp) _ hd ho
          rw [charsOfProperties_cons_cons, List.append_assoc, List.append_assoc, List.cons_append,
            List.cons_append,
            readMember_of_memberKey (by rw [hquote, hmark]), hj _ _ (ends_cons (.inl rfl) _),
            readAfter_object hadd (by decide), if_pos rfl, hrest, ← List.append_cons]
          rfl

theorem readsBack {j : Json} (hj : j.everywhere hasOrderedKeys = true) : ReadsBack j := by
  induction j using byParts with
  | null => exact fun stack rest _ => readValue_scalar (skipSpace_chars .null rest ▸ rfl)
  | boolean b =>
      intro stack rest _
      refine readValue_scalar ?_
      rw [skipSpace_chars]
      cases b <;> rfl
  | number n =>
      intro stack rest hr
      refine readValue_scalar ?_
      rw [skipSpace_chars, chars, reread]
      cases hn : n.isFinite with
      | false => rw [numberText_of_not_isFinite hn]; rfl
      | true =>
          obtain ⟨p, htext, hread⟩ := NumeralParts.exists_isTextOf hn
          rw [← htext, beginning?_number p hr, hread, if_pos rfl]
  | string s =>
      intro stack rest _
      refine readValue_scalar ?_
      rw [skipSpace_chars, chars, beginning?_string, String.ofList_toList, reread] <;> simp
  | array items ih =>
      intro stack rest _
      obtain ⟨-, hall⟩ := everywhere_array.1 hj
      have hbegin : beginning? (skipSpace ((Json.array items).chars ++ rest)) =
          .ok (some (.array, charsOfItems items ++ ']' :: rest)) := by
        rw [skipSpace_chars, chars, List.cons_append, List.cons_append, List.append_assoc]
        rfl
      rw [reread_array]
      cases items with
      | nil => rw [readValue_array hbegin (skipSpace_cons (by decide) rest), if_pos rfl]; rfl
      | cons k ks =>
          have hitems := readValue_charsOfItems (fun j hin => ih j hin (hall j hin)) (by simp) stack [] rest
          obtain ⟨c, more, hchars, hspace, hc⟩ := exists_cons_charsOfItems k ks
          rw [hchars, List.cons_append] at hbegin hitems
          rw [readValue_array hbegin (skipSpace_cons hspace _), if_neg hc, hitems]
          rfl
  | object properties ih =>
      intro stack rest _
      obtain ⟨hkeys, hall⟩ := everywhere_object.1 hj
      obtain ⟨hd, ho⟩ : Entries.Distinct properties ∧ Entries.InOrder properties := by
        simpa [hasOrderedKeys] using hkeys
      have hbegin : beginning? (skipSpace ((Json.object properties).chars ++ rest)) =
          .ok (some (.object, charsOfProperties properties ++ '\x7d' :: rest)) := by
        rw [skipSpace_chars, chars, List.cons_append, List.cons_append, List.append_assoc]
        rfl
      rw [reread_object]
      cases properties with
      | nil => rw [readValue_object hbegin (skipSpace_cons (by decide) rest), if_pos rfl]; rfl
      | cons e es =>
          have hmembers := readMember_charsOfProperties (fun e hin => ih e hin (hall e hin)) (by simp) stack
            [] (Entries.distinct_mapValues reread hd) (Entries.inOrder_mapValues reread ho) rest
          obtain ⟨more, hchars⟩ := exists_cons_charsOfProperties e es
          rw [hchars, List.cons_append] at hbegin hmembers
          rw [readValue_object hbegin (skipSpace_cons (by decide) _), if_neg (by decide), hmembers]
          rfl

theorem parse_eq_reread {j : Json} (hj : j.everywhere hasOrderedKeys = true) :
    parse j.text = .ok j.reread := by
  have hread := readsBack hj [] [] NumeralParts.ends_nil
  rw [List.append_nil] at hread
  rw [parse, text, String.toList_ofList, hread, readAfter]
  rfl

end RecordSieve.Json
