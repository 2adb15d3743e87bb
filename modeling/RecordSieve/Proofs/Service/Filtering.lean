import RecordSieve.Proofs.Query.Restating
import RecordSieve.Proofs.Query.WireText
import RecordSieve.Proofs.Records.Lines
import RecordSieve.Proofs.Service.Body
import RecordSieve.Proofs.Service.Run

namespace RecordSieve.Service

open Json (IsObjectText IsReadAs commas memberText withoutPrototypes)
open Lines (IsLine IsJoined record?)

def filterText (q : String) (loose : Bool) (texts : List (List Char)) : String :=
  String.ofList ('\x7b' :: (commas [memberText "query" (Json.string q).chars,
    memberText "records" ('[' :: (commas texts ++ [']'])),
    memberText "looseEquality" (Json.boolean loose).chars] ++ ['\x7d']))

def filterData (q : String) (loose : Bool) (records : List Json) : Json :=
  .object [("query", .string q), ("records", .array records), ("looseEquality", .boolean loose)]

theorem filterText_chars (q : String) (loose : Bool) (records : List Json) :
    filterText q loose (records.map Json.chars) = (filterData q loose records).text := by
  have hrecords : '[' :: (commas (records.map Json.chars) ++ [']']) = (Json.array records).chars := by
    rw [← Json.charsOfItems_eq_commas]
    rfl
  rw [filterText, hrecords]
  show _ = String.ofList ('\x7b' :: Json.charsOfProperties _ ++ ['\x7d'])
  rw [Json.charsOfProperties_eq_commas]
  rfl

def filterRequest (q : String) (loose : Bool) (texts : List (List Char)) : Request :=
  post "/queries/_filter" [] "application/json" (filterText q loose texts)

def linesRequest (q : String) (loose : Bool) (lines : String) : Request :=
  post "/queries/_filter/jsonl" [("q", q), ("looseEquality", if loose then "true" else "false")]
    "application/x-ndjson" lines

variable {settings : Settings} {reader : Yaml.Reader} {q : String} {loose : Bool}
  {texts : List (List Char)} {records : List Json}

theorem gather_filterData (o : Option (List Json)) :
    (Json.gather [] [("query", some (.string q)), ("records", o.map .array),
      ("looseEquality", some (.boolean loose))]).map .object = o.map (filterData q loose) := by
  cases o with
  | none => rfl
  | some records => rfl

def filterMembers (q : String) (loose : Bool) (texts : List (List Char)) :
    List (List Char × String × Option Json) :=
  [(memberText "query" (Json.string q).chars, "query", some (.string q)),
    (memberText "records" ('[' :: (commas texts ++ [']'])), "records", (texts.mapM record?).map .array),
    (memberText "looseEquality" (Json.boolean loose).chars, "looseEquality", some (.boolean loose))]

theorem isMemberReadAs_of_mem_filterMembers (hne : texts ≠ []) (h : ∀ t ∈ texts, IsObjectText t) :
    ∀ m ∈ filterMembers q loose texts, Json.IsMemberReadAs m.1 m.2.1 m.2.2 := by
  have hquery : IsReadAs (Json.string q).chars (some (.string q)) :=
    fun stack rest hr => Json.readsBack rfl stack rest hr
  have hrecords : IsReadAs ('[' :: (commas texts ++ [']'])) ((texts.mapM record?).map .array) :=
    Json.isReadAs_array (fun t ht => (Json.isReadAs_of_spells (h t ht).1).1) hne
      (Json.opens_commas (fun t ht => (h t ht).1) hne)
  have hloose : IsReadAs (Json.boolean loose).chars (some (.boolean loose)) :=
    fun stack rest hr => Json.readsBack rfl stack rest hr
  simp only [filterMembers, List.forall_mem_cons]
  exact ⟨hquery.toQuotedMember _, hrecords.toQuotedMember _, hloose.toQuotedMember _, List.forall_mem_nil _⟩

theorem toOption_parse_filterText (hne : texts ≠ []) (h : ∀ t ∈ texts, IsObjectText t) :
    (Json.parse (filterText q loose texts)).toOption = (texts.mapM record?).map (filterData q loose) := by
  have hopens (rest : List Char) :
      Json.Opens (commas ((filterMembers q loose texts).map (·.1)) ++ rest) := by
    simp only [filterMembers, List.map_cons, Json.commas_cons_cons]
    exact Json.opens_cons (by decide) (by decide) (by decide) _
  have hobject := Json.isReadAs_object (isMemberReadAs_of_mem_filterMembers hne h) (by simp [filterMembers])
    hopens
  exact hobject.toOption_parse.trans (gather_filterData _)

theorem isDefinite_of_mapM_record? (h : ∀ t ∈ texts, IsObjectText t)
    (hrecords : texts.mapM record? = some records) :
    ∀ j ∈ records, j.everywhere Json.isDefinite = true := by
  intro j hj
  obtain ⟨t, ht, hread⟩ := Json.exists_of_mem_mapM hrecords hj
  exact (Json.isReadAs_of_spells (h t ht).1).2 j hread

def queryFits (q : String) : Bool :=
  decide (1 ≤ Text.units q ∧ Text.units q ≤ greatestQueryLength)

theorem textIssues_eq_nil_iff {place : Path} :
    Query.textIssues place 1 greatestQueryLength q = [] ↔ queryFits q = true := by
  rw [Query.textIssues, queryFits, decide_eq_true_eq]
  split
  · simp; omega
  · split <;> simp <;> omega

theorem recordsFrom_map_ofJson (h : ∀ j ∈ records, j.everywhere Json.isDefinite = true) (place : Path)
    (i : Nat) : recordsFrom place i (records.map .ofJson) = (records.map withoutPrototypes, []) := by
  induction records generalizing i with
  | nil => rfl
  | cons j js ih =>
      obtain ⟨hj, hjs⟩ := List.forall_mem_cons.1 h
      have hrecord : recordOf (place ++ [.index i]) (.ofJson j) = (some j.withoutPrototypes, []) := by
        rw [recordOf, plainJson?, Datum.toJson?_ofJson, if_pos hj]
        rfl
      rw [List.map_cons, recordsFrom, hrecord, ih hjs]
      rfl

theorem checkBody_of_issues {α : Type} {body : Body} {check : Datum → Checked α} {value : Option α}
    {issue : Issue} {issues : List Issue} (hobject : body.datum.isObject = true)
    (h : check body.datum = (value, issue :: issues)) :
    checkBody body check = .error (refusal 400 (issuesText (issue :: issues))) := by
  rw [checkBody]
  dsimp only
  rw [if_pos hobject, h]
  cases value <;> rfl

def filterable? (settings : Settings) (q : String) (read : Option (List Json)) :
    Option (Query × List Json) :=
  read.bind fun records =>
    if queryFits q = true ∧ records.length ≤ count settings.maxRecords then
      (Query.parse q).toOption.map fun query => (query, records)
    else none

def Answers (o : Option (Query × List Json)) (next : Query → List Json → Response) (r : Response) : Prop :=
  match o with
  | some (query, records) => r = next query records
  | none => r.status = 400

theorem filterable?_eq_some_iff {read : Option (List Json)} {query : Query} :
    filterable? settings q read = some (query, records) ↔ read = some records ∧ queryFits q = true ∧
      records.length ≤ count settings.maxRecords ∧ Query.parse q = .ok query := by
  cases read with
  | none => simp [filterable?]
  | some taken =>
      rw [filterable?, Option.bind_some]
      split
      · rename_i hwithin
        cases hparse : Query.parse q with
        | error e => simp [Except.toOption]
        | ok query =>
            simp only [Except.toOption, Option.map_some, Option.some_inj, Prod.mk.injEq, Except.ok.injEq]
            constructor
            · rintro ⟨rfl, rfl⟩
              exact ⟨rfl, hwithin.1, hwithin.2, rfl⟩
            · rintro ⟨rfl, -, -, rfl⟩
              exact ⟨rfl, rfl⟩
      · rename_i hbeyond
        simp only [reduceCtorEq, false_iff]
        rintro ⟨⟨⟩, hfits, hcount, -⟩
        exact hbeyond ⟨hfits, hcount⟩

def keeps (query : Query) (loose : Bool) (j : Json) : Bool := query.accepts (optionsOf loose) (.ofJson j)

def listResponse (total : Nat) (kept : List Json) : Response :=
  jsonResponse 200 (.object [("results", .array kept), ("matched", number kept.length),
    ("total", number total)])

def linesResponse (kept : List Json) : Response :=
  ⟨200, some "application/x-ndjson; charset=utf-8", some (String.ofList (kept.flatMap jsonLine))⟩

def listAnswer (loose : Bool) (query : Query) (records : List Json) : Response :=
  listResponse records.length ((records.map withoutPrototypes).filter (keeps query loose))

def linesAnswer (loose : Bool) (query : Query) (records : List Json) : Response :=
  linesResponse (records.filter (keeps query loose))

theorem answers_beyond {next : Query → List Json → Response} {r : Response}
    (h : ¬ (queryFits q = true ∧ records.length ≤ count settings.maxRecords)) (hr : r.status = 400) :
    Answers (filterable? settings q (some records)) next r := by
  rw [filterable?, Option.bind_some, if_neg h]
  exact hr

theorem settles_withQuery_select {next : Query → List Json → Response} {taken : List Json}
    {response : List Json → Response} (hfits : queryFits q = true)
    (hcount : records.length ≤ count settings.maxRecords)
    (hnext : ∀ query, next query records = response (taken.filter (keeps query loose))) :
    Answer.Settles (withQuery q fun query => do
      let kept ← query.select (optionsOf loose) .ofJson taken
      return response kept) (Answers (filterable? settings q (some records)) next) := by
  refine settles_withQuery ?_
  rw [filterable?, Option.bind_some, if_pos ⟨hfits, hcount⟩]
  cases hparse : Query.parse q with
  | error e => rfl
  | ok query =>
      have hselect := Query.select_ofJson (Query.everywhere_not_isComparison_of_parse hparse)
        (optionsOf loose) taken
      show outcome ((query.select (optionsOf loose) .ofJson taken).bind _) = next query records
      rw [hselect, hnext]
      rfl

def excessIssues (settings : Settings) (n : Nat) : List Issue :=
  if count settings.maxRecords < n then
    [⟨[.key "records"], .tooManyItems (String.ofList settings.maxRecords.text)⟩]
  else []

theorem excessIssues_eq_nil_iff {n : Nat} : excessIssues settings n = [] ↔ n ≤ count settings.maxRecords := by
  rw [excessIssues]
  split
  · simpa
  · simp; omega

def filterCheck (settings : Settings) (d : Datum) : Checked (QueryInput × List Json × Bool) :=
  both (queryInputOf [.key "query"] (memberOf d "query"))
    (both (recordsOf settings [.key "records"] (memberOf d "records"))
      (looseOf [.key "looseEquality"] (memberOf d "looseEquality")))

theorem filterCheck_filterData (h : ∀ j ∈ records, j.everywhere Json.isDefinite = true) :
    filterCheck settings (Body.json (filterData q loose records)).datum =
      (some (.text q, records.map withoutPrototypes, loose),
        Query.textIssues [.key "query"] 1 greatestQueryLength q ++ excessIssues settings records.length) := by
  have hmember (name : String) : memberOf (Body.json (filterData q loose records)).datum name =
      ((Entries.find? name [("query", .string q), ("records", .array records),
        ("looseEquality", .boolean loose)]).map .ofJson).getD .undefined :=
    memberOf_ofJson name _
  have hquery : memberOf (Body.json (filterData q loose records)).datum "query" = .string q := hmember _
  have hrecords : memberOf (Body.json (filterData q loose records)).datum "records" =
      .array (records.map .ofJson) :=
    (hmember _).trans (Datum.ofJson_array records)
  have hloose : memberOf (Body.json (filterData q loose records)).datum "looseEquality" = .boolean loose :=
    hmember _
  simp only [filterCheck, hquery, hrecords, hloose, queryInputOf, recordsOf, looseOf, both, List.length_map,
    recordsFrom_map_ofJson h, Option.bind_some, Option.map_some, List.append_nil, excessIssues]

theorem settles_filterRoute_of_data (h : ∀ j ∈ records, j.everywhere Json.isDefinite = true) :
    Answer.Settles (filterRoute settings (.json (filterData q loose records)))
      (Answers (filterable? settings q (some records)) (listAnswer loose)) := by
  have hobject : (Body.json (filterData q loose records)).datum.isObject = true := Datum.isObject_ofJson _
  have hcheck : filterCheck settings (Body.json (filterData q loose records)).datum = _ :=
    filterCheck_filterData h
  by_cases hwithin : queryFits q = true ∧ records.length ≤ count settings.maxRecords
  · obtain ⟨hfits, hcount⟩ := hwithin
    rw [textIssues_eq_nil_iff.2 hfits, excessIssues_eq_nil_iff.2 hcount] at hcheck
    have hresult := checkBody_of_isObject hobject hcheck
    rw [filterRoute]
    split
    · rename_i hrefused
      cases hresult.symm.trans hrefused
    · rename_i haccepted
      cases hresult.symm.trans haccepted
      refine settles_withQuery_select hfits hcount fun query => ?_
      rw [List.length_map]
      rfl
  · have hissues : Query.textIssues [.key "query"] 1 greatestQueryLength q ++
        excessIssues settings records.length ≠ [] := by
      rwa [Ne, List.append_eq_nil_iff, textIssues_eq_nil_iff, excessIssues_eq_nil_iff]
    obtain ⟨issue, issues, hissues⟩ := List.exists_cons_of_ne_nil hissues
    rw [hissues] at hcheck
    have hresult := checkBody_of_issues hobject hcheck
    rw [filterRoute]
    split
    · rename_i hrefused
      cases hresult.symm.trans hrefused
      exact settles_always (answers_beyond hwithin rfl)
    · rename_i haccepted
      cases hresult.symm.trans haccepted

theorem route?_filter : route? "/queries/_filter" = some .filter := by rfl

theorem head?_filterText : (filterText q loose texts).toList.head? = some '\x7b' := by
  rw [filterText, String.toList_ofList]
  rfl

theorem settles_filterRequest (hne : texts ≠ []) (h : ∀ t ∈ texts, IsObjectText t)
    (hadmits : admits settings (filterText q loose texts) = true) :
    Answer.Settles (dispatch settings reader (filterRequest q loose texts))
      (Answers (filterable? settings q (texts.mapM record?)) (listAnswer loose)) := by
  have hread : readBody settings (filterRequest q loose texts) = _ := readBody_json hadmits head?_filterText
  have hparse : (Json.parse (filterText q loose texts)).toOption = _ := toOption_parse_filterText hne h
  cases hjson : Json.parse (filterText q loose texts) with
  | error e =>
      rw [hjson] at hparse hread
      rw [Option.map_eq_none_iff.1 hparse.symm]
      refine settles_dispatch_of_route .filter rfl route?_filter (fun r hr => ?_) fun body hbody => ?_
      · cases hread.symm.trans hr
        exact rfl
      · cases hread.symm.trans hbody
  | ok j =>
      rw [hjson] at hparse hread
      obtain ⟨records, hrecords, rfl⟩ := Option.map_eq_some_iff.1 hparse.symm
      rw [hrecords]
      exact settles_dispatch_of_body .filter rfl route?_filter hread
        (settles_filterRoute_of_data (isDefinite_of_mapM_record? h hrecords))

theorem parameterOf_linesRequest (lines : String) :
    parameterOf (linesRequest q loose lines) "q" = .string q ∧
      parameterOf (linesRequest q loose lines) "looseEquality" =
        .string (if loose then "true" else "false") := by
  have hnone : bracketed? "q" "q" = none ∧ bracketed? "q" "looseEquality" = none ∧
      bracketed? "looseEquality" "q" = none ∧ bracketed? "looseEquality" "looseEquality" = none := by
    decide
  simp [parameterOf, linesRequest, post, hnone]

theorem looseFlagOf_flag (place : Path) :
    looseFlagOf place (.string (if loose then "true" else "false")) = (some loose, []) := by
  cases loose <;> rfl

theorem checkParameters_linesRequest (lines : String) :
    (queryFits q = true → checkParameters (linesRequest q loose lines) = .ok (q, loose)) ∧
      (queryFits q ≠ true → ∃ message,
        checkParameters (linesRequest q loose lines) = .error (refusal 400 message)) := by
  obtain ⟨hq, hloose⟩ : _ ∧ parameterOf (linesRequest q loose lines) "looseEquality" = _ :=
    parameterOf_linesRequest lines
  rw [checkParameters, hq, hloose, looseFlagOf_flag, queryTextOf]
  constructor
  · intro hfits
    rw [textIssues_eq_nil_iff.2 hfits]
    rfl
  · intro hfits
    obtain ⟨issue, issues, hissues⟩ := List.exists_cons_of_ne_nil (mt textIssues_eq_nil_iff.1 hfits)
    rw [hissues]
    exact ⟨_, rfl⟩

theorem route?_filterLines : route? "/queries/_filter/jsonl" = some .filterLines := by rfl

theorem settles_filterLinesRoute_of_text {lines : String} {read : Option (List Json)}
    (h : (Lines.parse lines).toOption = read) :
    Answer.Settles (filterLinesRoute settings (linesRequest q loose lines) (.text lines))
      (Answers (filterable? settings q read) (linesAnswer loose)) := by
  obtain ⟨hwithin, hbeyond⟩ : (_ → checkParameters (linesRequest q loose lines) = _) ∧ _ :=
    checkParameters_linesRequest lines
  rw [filterLinesRoute, withText]
  by_cases hfits : queryFits q = true
  · rw [hwithin hfits]
    dsimp only
    rw [linesRequest, sendsLines_post.textOfType?_eq]
    dsimp only
    cases hparse : Lines.parse lines with
    | error e =>
        rw [← h, hparse]
        exact settles_always rfl
    | ok records =>
        rw [← h, hparse]
        dsimp only
        split
        · rename_i hcount
          exact settles_always (answers_beyond (fun hboth => Nat.not_lt.2 hboth.2 hcount) rfl)
        · rename_i hcount
          exact settles_withQuery_select hfits (Nat.not_lt.1 hcount) fun _ => rfl
  · obtain ⟨message, hrefused⟩ := hbeyond hfits
    rw [hrefused]
    refine settles_always ?_
    cases read with
    | none => exact rfl
    | some records => exact answers_beyond (fun hboth => hfits hboth.1) rfl

theorem head?_of_isJoined {lines : List Char} (hne : texts ≠ []) (h : ∀ t ∈ texts, IsObjectText t)
    (hjoined : IsJoined texts lines) : lines.head? ≠ some Text.byteOrderMark := by
  obtain ⟨t, ts, rfl⟩ := List.exists_cons_of_ne_nil hne
  obtain ⟨rest, rfl⟩ := Lines.exists_append_of_isJoined hjoined
  obtain ⟨c, cs, rfl, hc⟩ := (h t List.mem_cons_self).exists_cons
  rw [List.cons_append, List.head?_cons, Option.some_inj.ne]
  rintro rfl
  exact absurd hc (by decide)

theorem settles_linesRequest {lines : List Char} (hne : texts ≠ []) (h : ∀ t ∈ texts, IsObjectText t)
    (hlines : ∀ t ∈ texts, IsLine t) (hjoined : IsJoined texts lines)
    (hadmits : admits settings (String.ofList lines) = true) :
    Answer.Settles (dispatch settings reader (linesRequest q loose (String.ofList lines)))
      (Answers (filterable? settings q (texts.mapM record?)) (linesAnswer loose)) := by
  have hread : readBody settings (linesRequest q loose (String.ofList lines)) = _ :=
    sendsLines_post.readBody_eq hadmits (by rw [String.toList_ofList]; exact head?_of_isJoined hne h hjoined)
  exact settles_dispatch_of_body .filterLines rfl route?_filterLines hread
    (settles_filterLinesRoute_of_text (Lines.toOption_parse hne h hlines hjoined))

namespace IsAfter

variable {n : Nat} {s : Service}

theorem respond_filterRequest (hs : IsAfter settings reader n s) (hn : n < count settings.rateLimitPerMinute)
    (hne : texts ≠ []) (hobjects : ∀ t ∈ texts, IsObjectText t)
    (hadmits : admits settings (filterText q loose texts) = true) :
    Answers (filterable? settings q (texts.mapM record?)) (listAnswer loose)
      (s.respond (filterRequest q loose texts)).2 :=
  hs.of_settles hn (settles_filterRequest hne hobjects hadmits)

theorem respond_linesRequest (hs : IsAfter settings reader n s) (hn : n < count settings.rateLimitPerMinute)
    {lines : List Char} (hne : texts ≠ []) (hobjects : ∀ t ∈ texts, IsObjectText t)
    (hlines : ∀ t ∈ texts, IsLine t) (hjoined : IsJoined texts lines)
    (hadmits : admits settings (String.ofList lines) = true) :
    Answers (filterable? settings q (texts.mapM record?)) (linesAnswer loose)
      (s.respond (linesRequest q loose (String.ofList lines))).2 :=
  hs.of_settles hn (settles_linesRequest hne hobjects hlines hjoined hadmits)

end IsAfter

/-- Whether a list and lines have the same records kept, each with the same text. -/
def KeptAlike (query : Query) (loose : Bool) (records : List Json) : Prop :=
  records.map (fun j => keeps query loose j.withoutPrototypes) = records.map (keeps query loose) ∧
    ((records.map withoutPrototypes).filter (keeps query loose)).map Json.text =
      (records.filter (keeps query loose)).map Json.text

theorem keptAlike_iff {query : Query} (h : ∀ j ∈ records, j.everywhere Json.isDefinite = true) :
    KeptAlike query loose records ↔ ∀ j ∈ records,
      keeps query loose j.withoutPrototypes = keeps query loose j ∧
        (keeps query loose j = true → j.everywhere Json.isPlainNode = true) := by
  have hfilter (hkept : ∀ j ∈ records, keeps query loose j.withoutPrototypes = keeps query loose j) :
      (records.map withoutPrototypes).filter (keeps query loose) =
        (records.filter (keeps query loose)).map withoutPrototypes := by
    rw [List.filter_map]
    exact congrArg _ (List.filter_congr hkept)
  constructor
  · rintro ⟨hkept, htexts⟩
    have hkept := List.map_inj_left.1 hkept
    rw [hfilter hkept, List.map_map] at htexts
    intro j hj
    refine ⟨hkept j hj, fun hkeeps => ?_⟩
    -- A text gets shorter with every member that is lost, so equal texts have lost none.
    have htext := List.map_inj_left.1 htexts j (List.mem_filter.2 ⟨hj, hkeeps⟩)
    exact (Json.text_withoutPrototypes_eq_iff (h j hj)).1 htext
  · intro halike
    have hkept j (hj : j ∈ records) := (halike j hj).1
    refine ⟨List.map_inj_left.2 hkept, ?_⟩
    rw [hfilter hkept, List.map_map]
    refine List.map_inj_left.2 fun j hj => ?_
    obtain ⟨hin, hkeeps⟩ := List.mem_filter.1 hj
    exact (Json.text_withoutPrototypes_eq_iff (h j hin)).2 ((halike j hin).2 hkeeps)

/-- Records in a list and on lines are refused alike or filtered alike. Of the same records the same are
kept exactly if none that matters to the query has a member named `__proto__`. -/
theorem filter_list_and_lines (earlier earlier' : List Request) {lines : List Char}
    (hrate : earlier.length < count settings.rateLimitPerMinute)
    (hrate' : earlier'.length < count settings.rateLimitPerMinute)
    (hne : texts ≠ []) (hobjects : ∀ t ∈ texts, IsObjectText t) (hlines : ∀ t ∈ texts, IsLine t)
    (hjoined : IsJoined texts lines) (hadmits : admits settings (filterText q loose texts) = true)
    (hadmits' : admits settings (String.ofList lines) = true) :
    let list := (((start settings).respondAll earlier).1.respond (filterRequest q loose texts)).2
    let lined := (((start settings).respondAll earlier').1.respond
      (linesRequest q loose (String.ofList lines))).2
    list.status = 400 ∧ lined.status = 400 ∨
      ∃ query records, Query.parse q = .ok query ∧ texts.mapM record? = some records ∧
        list = listAnswer loose query records ∧ lined = linesAnswer loose query records ∧
        (KeptAlike query loose records ↔ ∀ j ∈ records,
          keeps query loose j.withoutPrototypes = keeps query loose j ∧
            (keeps query loose j = true → j.everywhere Json.isPlainNode = true)) := by
  intro list lined
  rw [← Nat.zero_add (List.length _)] at hrate hrate'
  have hlist : Answers _ _ list :=
    ((isAfter_start settings).respondAll earlier).respond_filterRequest hrate hne hobjects hadmits
  have hlined : Answers _ _ lined :=
    ((isAfter_start settings).respondAll earlier').respond_linesRequest hrate' hne hobjects hlines hjoined
      hadmits'
  cases htaken : filterable? settings q (texts.mapM record?) with
  | none =>
      rw [htaken] at hlist hlined
      exact .inl ⟨hlist, hlined⟩
  | some taken =>
      obtain ⟨query, records⟩ := taken
      rw [htaken] at hlist hlined
      obtain ⟨hrecords, -, -, hparse⟩ := filterable?_eq_some_iff.1 htaken
      exact .inr ⟨query, records, hparse, hrecords, hlist, hlined,
        keptAlike_iff (isDefinite_of_mapM_record? hobjects hrecords)⟩

def flagged (key : String) : Json := .object [(key, .boolean true)]

def flagQuery (key : String) : Query := .check .is key (.boolean true)

theorem keeps_flagged (key : String) (loose : Bool) : keeps (flagQuery key) loose (flagged key) = true := by
  have htrue : Json.projected (.boolean true) = .boolean true := by
    simp only [Json.projected, Datum.ofJson, Datum.project]
  have heval : (flagQuery key).eval (optionsOf loose) (.ofJson (flagged key)) = .ok true := by
    rw [flagQuery, Query.eval_check, flagged, Query.test_ofJson_single, htrue]
    cases loose <;> rfl
  rw [keeps, Query.accepts, heval]

theorem mapM_record?_flagged (keys : List String) :
    ((keys.map flagged).map Json.chars).mapM record? = some (keys.map flagged) := by
  induction keys with
  | nil => rfl
  | cons key keys ih =>
      have hread : record? (flagged key).chars = some (flagged key) :=
        Lines.record?_chars (Query.hasOrderedKeys_single key rfl)
      rw [List.map_cons, List.map_cons, List.mapM_cons, hread, ih]
      rfl

theorem isObjectText_of_mem_flagged (keys : List String) :
    ∀ t ∈ (keys.map flagged).map Json.chars, IsObjectText t := by
  intro t ht
  obtain ⟨j, hj, rfl⟩ := List.mem_map.1 ht
  obtain ⟨key, -, rfl⟩ := List.mem_map.1 hj
  exact Json.isObjectText_chars _

theorem filter_list_and_lines_two :
    let records := ["a", "b"].map flagged
    let list := filterRequest "a is true" true (records.map Json.chars)
    let lined := linesRequest "a is true" true (String.ofList (['\n'].intercalate (records.map Json.chars)))
    (((start defaults).respondAll []).1.respond list).2 = listResponse 2 [flagged "a"] ∧
      (((start defaults).respondAll [list]).1.respond lined).2 = linesResponse [flagged "a"] ∧
      KeptAlike (flagQuery "a") true records := by
  intro records list lined
  have hprint : (flagQuery "a").print [] = .ok "a is true" := rfl
  have hparse : Query.parse "a is true" = .ok (flagQuery "a") := Query.parse_of_print hprint
  have htaken : filterable? defaults "a is true" ((records.map Json.chars).mapM record?) =
      some (flagQuery "a", records) :=
    filterable?_eq_some_iff.2 ⟨mapM_record?_flagged _, by decide, by rw [count_defaults.2]; decide, hparse⟩
  have hobjects : ∀ t ∈ records.map Json.chars, IsObjectText t := isObjectText_of_mem_flagged _
  have hlines : ∀ t ∈ records.map Json.chars, IsLine t := by
    unfold IsLine
    decide
  have hadmits : admits defaults (filterText "a is true" true (records.map Json.chars)) = true := by
    rw [filterText_chars]
    exact admits_text bodyLimit?_defaults (by decide)
  have hadmits' : admits defaults (String.ofList (['\n'].intercalate (records.map Json.chars))) = true := by
    decide
  have hne : records.map Json.chars ≠ [] := by simp [records]
  have hanswers : Answers (filterable? defaults "a is true" _) _ _ :=
    ((isAfter_start defaults).respondAll []).respond_filterRequest (lt_count_defaults (by decide)) hne hobjects hadmits
  rw [htaken] at hanswers
  have hok : _ = listAnswer true (flagQuery "a") records := hanswers
  rcases filter_list_and_lines [] [list] (lt_count_defaults (by decide)) (lt_count_defaults (by decide)) hne hobjects hlines (.inl rfl)
    hadmits hadmits' with ⟨hstatus, -⟩ | ⟨query, taken, hquery, htexts, hlist, hlined, halike⟩
  · rw [hok] at hstatus
    cases hstatus
  · cases hparse.symm.trans hquery
    cases (mapM_record?_flagged _).symm.trans htexts
    have hplain : ∀ j ∈ records, j.everywhere Json.isPlainNode = true := by decide
    have hsame : ∀ j ∈ records, j.withoutPrototypes = j := fun j hj => Json.withoutPrototypes_eq_self (hplain j hj)
    have hother : keeps (flagQuery "a") true (flagged "b") = false := by decide
    have hkept : records.filter (keeps (flagQuery "a") true) = [flagged "a"] := by
      simp [records, keeps_flagged, hother]
    refine ⟨hlist.trans ?_, hlined.trans (congrArg linesResponse hkept), halike.2 fun j hj => ?_⟩
    · rw [listAnswer, List.map_congr_left hsame, List.map_id', hkept]
      rfl
    · exact ⟨by rw [hsame j hj], fun _ => hplain j hj⟩

/-- The record is found on a line, but not in a list. -/
theorem filter_list_and_lines_prototype :
    let record := flagged "__proto__"
    IsObjectText record.chars ∧ IsLine record.chars ∧
      ((start defaults).respond (filterRequest "__proto__ is true" false [record.chars])).2 =
        listResponse 1 [] ∧
      ((start defaults).respond (linesRequest "__proto__ is true" false (String.ofList record.chars))).2 =
        linesResponse [record] := by
  intro record
  have hprint : (flagQuery "__proto__").print [] = .ok "__proto__ is true" := rfl
  have htaken : filterable? defaults "__proto__ is true" ([record.chars].mapM record?) =
      some (flagQuery "__proto__", [record]) :=
    filterable?_eq_some_iff.2 ⟨mapM_record?_flagged ["__proto__"], by decide, by rw [count_defaults.2]; decide,
      Query.parse_of_print hprint⟩
  have hobjects : ∀ t ∈ [record.chars], IsObjectText t := isObjectText_of_mem_flagged ["__proto__"]
  have hlines : ∀ t ∈ [record.chars], IsLine t := by
    unfold IsLine
    decide
  have htext : filterText "__proto__ is true" false [record.chars] = _ := filterText_chars _ _ [record]
  have hadmits : admits defaults (filterText "__proto__ is true" false [record.chars]) = true := by
    rw [htext]
    exact admits_text bodyLimit?_defaults (by decide)
  have hadmits' : admits defaults (String.ofList record.chars) = true :=
    show admits defaults record.text = true from admits_text bodyLimit?_defaults (by decide)
  have hlist : Answers _ (listAnswer false) _ :=
    (isAfter_start defaults).respond_filterRequest (lt_count_defaults (by decide)) (by simp) hobjects hadmits
  have hlined : Answers (filterable? defaults "__proto__ is true" _) (linesAnswer false) _ :=
    (isAfter_start defaults).respond_linesRequest (lt_count_defaults (by decide)) (by simp) hobjects hlines
      (.inl List.intercalate_singleton.symm) hadmits'
  rw [htaken] at hlist hlined
  have hlost : keeps (flagQuery "__proto__") false record.withoutPrototypes = false := by decide
  have hkept : keeps (flagQuery "__proto__") false record = true := keeps_flagged _ _
  refine ⟨hobjects _ List.mem_cons_self, hlines _ List.mem_cons_self, hlist.trans ?_, hlined.trans ?_⟩
  · rw [listAnswer, List.map_singleton, List.filter_cons_of_neg (by simp [hlost])]
    rfl
  · rw [linesAnswer, List.filter_cons_of_pos hkept]
    rfl

end RecordSieve.Service
