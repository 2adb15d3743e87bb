import RecordSieve.Proofs.Query.WireLimits
import RecordSieve.Proofs.Service.Body
import RecordSieve.Proofs.Service.Run

namespace RecordSieve.Service

open Except

def parsed (wire : Json) (canonical : String) : Response :=
  jsonResponse 200 (.object [("query", wire), ("canonical", .string canonical)])

def stringified (canonical : String) : Response :=
  jsonResponse 200 (.object [("text", .string canonical)])

def parseRequest (text : String) : Request :=
  post "/queries/_parse" [] "application/json" (Json.object [("text", .string text)]).text

def stringifyRequest (wire : Json) : Request :=
  post "/queries/_stringify" [] "application/json" (Json.object [("query", wire)]).text

structure HandsOut (text : String) (q : Query) (wire : Json) (canonical : String) : Prop where
  parse_eq : Query.parse text = .ok q
  toWire_eq : q.toWire = .ok wire
  text_eq : q.text = .ok canonical

theorem queryTextOf_eq {place : Path} {d : Datum} {text : String}
    (h : queryTextOf place d = (some text, [])) : d = .string text := by
  cases d with
  | string s => exact congrArg Datum.string (Option.some.inj (Prod.mk.inj h).1)
  | _ => cases h

theorem settles_parseRoute_of_status (body : Body) :
    Answer.Settles (parseRoute body) fun response => response.status = 200 →
      ∃ text q wire canonical, memberOf body.datum "text" = .string text ∧
        HandsOut text q wire canonical ∧ response = parsed wire canonical := by
  rw [parseRoute]
  split
  · rename_i hrefused
    exact settles_always fun hstatus => absurd hstatus (failsWithin_checkBody _ hrefused).status_ne
  · rename_i text htext
    refine settles_withQuery fun hstatus => ?_
    obtain ⟨response, hresponse⟩ := exists_ok_of_status_outcome hstatus
    obtain ⟨q, hq, h⟩ := bind_eq_ok_iff.1 hresponse
    obtain ⟨wire, hwire, h⟩ := bind_eq_ok_iff.1 h
    obtain ⟨canonical, hcanonical, h⟩ := bind_eq_ok_iff.1 h
    have hchecked : queryTextOf [.key "text"] (memberOf body.datum "text") = (some text, []) :=
      checkBody_eq_ok htext
    have hmember := queryTextOf_eq hchecked
    refine ⟨text, q, wire, canonical, hmember, ⟨mapError_eq_ok_iff.1 hq, mapError_eq_ok_iff.1 hwire,
      mapError_eq_ok_iff.1 hcanonical⟩, ?_⟩
    rw [hresponse, ← h]
    rfl

theorem memberOf_single (name : String) (j : Json) :
    memberOf (Body.json (.object [(name, j)])).datum name = .ofJson j := by
  show memberOf (.ofJson (.object [(name, j)])) name = .ofJson j
  rw [memberOf_ofJson, Entries.find?, if_pos rfl]
  rfl

theorem settles_parseRoute_of_handsOut {text : String} {q : Query} {wire : Json} {canonical : String}
    (h : HandsOut text q wire canonical) (hfits : Query.textIssues [.key "text"] 1 greatestQueryLength text = []) :
    Answer.Settles (parseRoute (.json (.object [("text", .string text)]))) (· = parsed wire canonical) := by
  have hcheck : checkBody (.json (.object [("text", .string text)]))
      (fun d => queryTextOf [.key "text"] (memberOf d "text")) = .ok text := by
    refine checkBody_of_isObject (Datum.isObject_ofJson _) ?_
    rw [memberOf_single]
    exact congrArg (Prod.mk _) hfits
  rw [parseRoute, hcheck]
  refine settles_withQuery ?_
  rw [h.parse_eq]
  show outcome ((q.toWire.mapError .form).bind _) = _
  rw [h.toWire_eq]
  show outcome ((q.text.mapError .form).bind _) = _
  rw [h.text_eq]
  rfl

theorem settles_stringifyRoute_of_object (properties : List (String × Json)) :
    Answer.Settles (stringifyRoute (.json (.object [("query", .object properties)])))
      (· = outcome ((Query.ofWire (.object properties)).bind fun q =>
        (q.text.mapError .form).map stringified)) := by
  have hcheck : checkBody (.json (.object [("query", .object properties)]))
      (fun d => wireQueryOf [.key "query"] (memberOf d "query")) = .ok (.ofJson (.object properties)) := by
    refine checkBody_of_isObject (Datum.isObject_ofJson _) ?_
    rw [memberOf_single]
    exact if_pos (Datum.isObject_ofJson properties)
  rw [stringifyRoute, hcheck]
  exact settles_withInput rfl

theorem route?_parse : route? "/queries/_parse" = some .parse := by rfl

theorem route?_stringify : route? "/queries/_stringify" = some .stringify := by rfl

variable {settings : Settings} {reader : Yaml.Reader} {n : Nat} {s : Service} {text : String}
  {q : Query} {wire : Json} {canonical : String}

namespace IsAfter

theorem respond_parse (hs : IsAfter settings reader n s)
    (hn : n < count settings.rateLimitPerMinute) (h : HandsOut text q wire canonical)
    (hadmits : admits settings (Json.object [("text", .string text)]).text = true)
    (hfits : Query.textIssues [.key "text"] 1 greatestQueryLength text = []) :
    (s.respond (parseRequest text)).2 = parsed wire canonical := by
  have hbody : readBody settings (parseRequest text) = .ok (.json (.object [("text", .string text)])) :=
    readBody_object hadmits (Query.hasOrderedKeys_single _ rfl)
  have hsettled : Answer.Settles (dispatch settings reader (parseRequest text)) (· = parsed wire canonical) :=
    settles_dispatch_of_body .parse rfl route?_parse hbody (settles_parseRoute_of_handsOut h hfits)
  exact hs.of_settles hn hsettled

theorem respond_stringify (hs : IsAfter settings reader n s)
    (hn : n < count settings.rateLimitPerMinute) (h : HandsOut text q wire canonical)
    (hadmits : admits settings (Json.object [("query", wire)]).text = true) :
    (s.respond (stringifyRequest wire)).2 = outcome ((Query.ofWire wire.reread).bind fun q =>
      (q.text.mapError .form).map stringified) := by
  have hordered := Query.hasOrderedKeys_of_toWire h.toWire_eq (Query.hasDistinctKeys_of_parse h.parse_eq)
  have hbody : readBody settings (stringifyRequest wire) = .ok (.json (.object [("query", wire.reread)])) :=
    readBody_object hadmits (Query.hasOrderedKeys_single _ hordered)
  obtain ⟨properties, hproperties⟩ : ∃ properties, wire.reread = .object properties := by
    obtain ⟨rfl, -⟩ := Query.toWire_eq_ok h.toWire_eq
    exact ⟨_, Json.reread_object _⟩
  rw [hproperties] at hbody ⊢
  have hsettled : Answer.Settles (dispatch settings reader (stringifyRequest wire)) (· = outcome _) :=
    settles_dispatch_of_body .stringify rfl route?_stringify hbody (settles_stringifyRoute_of_object properties)
  exact hs.of_settles hn hsettled

theorem respond_stringify_within (hs : IsAfter settings reader n s)
    (hn : n < count settings.rateLimitPerMinute) (h : HandsOut text q wire canonical)
    (hadmits : admits settings (Json.object [("query", wire)]).text = true)
    (hheight : q.height ≤ Query.greatestDepth) (hfields : q.everywhere Query.hasFittingField = true)
    (hkinds : q.everywhere (·.operand?.all Value.keepsKind) = true) :
    (s.respond (stringifyRequest wire)).2 = stringified canonical := by
  have hread := (Query.ofWire_reread_iff_of_parse h.parse_eq h.toWire_eq _).2 ⟨⟨hheight, hfields⟩, rfl⟩
  rw [hs.respond_stringify hn h hadmits, hread]
  rw [Query.mapOperands_rewritten_of_parse h.parse_eq h.toWire_eq hkinds, Except.bind, h.text_eq]
  rfl

theorem respond_stringify_beyond (hs : IsAfter settings reader n s)
    (hn : n < count settings.rateLimitPerMinute) (h : HandsOut text q wire canonical)
    (hadmits : admits settings (Json.object [("query", wire)]).text = true)
    (hbeyond : ¬ (q.height ≤ Query.greatestDepth ∧ q.everywhere Query.hasFittingField = true)) :
    (s.respond (stringifyRequest wire)).2.status = 400 := by
  rw [hs.respond_stringify hn h hadmits]
  cases hread : Query.ofWire wire.reread with
  | ok r => exact absurd ((Query.ofWire_reread_iff_of_parse h.parse_eq h.toWire_eq r).1 hread).1 hbeyond
  | error e =>
      obtain ⟨f, rfl⟩ := Query.failsWithin_ofWireAt _ e hread
      rfl

end IsAfter

/-- A query that was handed out with its text is taken back with the same text if it is within the limits of
reading and its numbers keep their kind; beyond the limits it is refused. -/
theorem stringify_of_parse (earlier between : List Request) {r : Request} (hmethod : r.method = "POST")
    (hroute : route? r.path = some .parse)
    (hstatus : (((start settings).respondAll earlier).1.respond r).2.status = 200) :
    ∃ body text q wire canonical, readBody settings r = .ok body ∧
      memberOf body.datum "text" = .string text ∧ HandsOut text q wire canonical ∧
      (((start settings).respondAll earlier).1.respond r).2 = parsed wire canonical ∧
      (admits settings (Json.object [("query", wire)]).text = true →
        (earlier ++ r :: between).length < count settings.rateLimitPerMinute →
        let back := ((start settings).respondAll (earlier ++ r :: between)).1.respond (stringifyRequest wire)
        (q.height ≤ Query.greatestDepth → q.everywhere Query.hasFittingField = true →
          q.everywhere (·.operand?.all Value.keepsKind) = true → back.2 = stringified canonical) ∧
        (¬ (q.height ≤ Query.greatestDepth ∧ q.everywhere Query.hasFittingField = true) →
          back.2.status = 400)) := by
  have hbefore := (isAfter_start settings).respondAll earlier
  have hn : 0 + earlier.length < count settings.rateLimitPerMinute := by
    by_contra hn
    rw [hbefore.respond_beyond (Nat.not_lt.1 hn)] at hstatus
    cases hstatus
  have hparsed : ∃ body text q wire canonical, readBody settings r = .ok body ∧
      memberOf body.datum "text" = .string text ∧ HandsOut text q wire canonical ∧
      (((start settings).respondAll earlier).1.respond r).2 = parsed wire canonical := by
    refine hbefore.of_settles hn (p := fun response => response.status = 200 → ∃ body text q wire canonical,
      readBody settings r = .ok body ∧ memberOf body.datum "text" = .string text ∧
        HandsOut text q wire canonical ∧ response = parsed wire canonical)
      (settles_dispatch_of_route .parse hmethod hroute (fun response hrefused h => ?_) fun body hbody => ?_) hstatus
    · exact absurd h (failsWithin_readBody settings r response hrefused).status_ne
    · refine (settles_parseRoute_of_status body).mono fun response h hok => ?_
      obtain ⟨text, q, wire, canonical, hparsed⟩ := h hok
      exact ⟨body, text, q, wire, canonical, hbody, hparsed⟩
  obtain ⟨body, text, q, wire, canonical, hbody, hmember, hhands, hresponse⟩ := hparsed
  refine ⟨body, text, q, wire, canonical, hbody, hmember, hhands, hresponse, fun hadmits hrate => ?_⟩
  have hafter := (isAfter_start settings).respondAll (earlier ++ r :: between)
  rw [← Nat.zero_add (List.length _)] at hrate
  exact ⟨hafter.respond_stringify_within hrate hhands hadmits,
    hafter.respond_stringify_beyond hrate hhands hadmits⟩

theorem stringify_of_parse_nested :
    let text := "(a is 3 or not b contains \x22x\x22)"
    let q : Query := .any [.check .is "a" (.integer 3), .not (.check .contains "b" (.string "x"))]
    (((start defaults).respondAll []).1.respond (parseRequest text)).2 = parsed (q.form Value.toJson) text ∧
      (((start defaults).respondAll ([] ++ parseRequest text :: [parseRequest "a is"])).1.respond
        (stringifyRequest (q.form Value.toJson))).2 = stringified text := by
  intro text q
  have hprint : q.print [] = .ok text := rfl
  have hparse : Query.parse text = .ok q := Query.parse_of_print hprint
  have hwire : q.toWire = .ok (q.form Value.toJson) := rfl
  have hadmits : admits defaults (Json.object [("text", .string text)]).text = true :=
    admits_text bodyLimit?_defaults (by decide)
  have hfirst : (((start defaults).respondAll []).1.respond (parseRequest text)).2 =
      parsed (q.form Value.toJson) text :=
    (isAfter_start defaults).respond_parse (lt_count_defaults (by decide)) ⟨hparse, hwire, hprint⟩ hadmits
      (by decide)
  have hstatus : (((start defaults).respondAll []).1.respond (parseRequest text)).2.status = 200 := by
    rw [hfirst]
    rfl
  have hroute : route? (parseRequest text).path = some .parse := route?_parse
  obtain ⟨body, text', q', wire, canonical, hbody, hmember, hhands, hresponse, hback⟩ :=
    stringify_of_parse [] [parseRequest "a is"] rfl hroute hstatus
  have hread : readBody defaults (parseRequest text) = .ok (.json (.object [("text", .string text)])) :=
    readBody_object hadmits (Query.hasOrderedKeys_single _ rfl)
  cases hread.symm.trans hbody
  cases (memberOf_single "text" (.string text)).symm.trans hmember
  cases hparse.symm.trans hhands.parse_eq
  cases hwire.symm.trans hhands.toWire_eq
  cases hprint.symm.trans hhands.text_eq
  have hback := hback (admits_text bodyLimit?_defaults (by decide +kernel)) (lt_count_defaults (by decide))
  exact ⟨hfirst, hback.1 (by decide) (by decide) (by decide)⟩

section LongField

variable (n : Nat)

def longField : String := String.ofList (List.replicate n 'x')

def longQuery : Query := .check .is (longField n) (.integer 1)

def longText : String := longField n ++ " is 1"

theorem toList_longField : (longField n).toList = List.replicate n 'x' := String.toList_ofList

theorem units_longField : Text.units (longField n) = n := by
  rw [Text.units, toList_longField]
  induction n with
  | zero => rfl
  | succ n ih => rw [List.replicate_succ, Text.widths_cons, ih, Nat.add_comm]; rfl

theorem isIdentifier_longField : Query.isIdentifier (longField (n + 1)) = true := by
  have hword : Text.isWordChar 'x' = true := by decide
  have hletter : Text.isLetter 'x' = true := by decide
  have hkeyword : longField (n + 1) ∉ Query.keywords := fun hin => by
    have hhead := List.mem_map_of_mem (f := fun s : String => s.toList.head?) hin
    rw [toList_longField, List.replicate_succ, List.head?_cons] at hhead
    exact absurd hhead (by decide)
  simp [Query.isIdentifier, toList_longField, List.replicate_succ, hletter, hword, hkeyword]

theorem print_longQuery : (longQuery (n + 1)).print [] = .ok (longText (n + 1)) := by
  have hfield : Query.fieldText [] (longField (n + 1)) = .ok (longField (n + 1)) :=
    if_pos (isIdentifier_longField n)
  have hone : Query.operandText [] (.integer 1) = .ok "1" := rfl
  have hends : longField (n + 1) ++ " " ++ "is" ++ " " ++ "1" = longText (n + 1) := by
    simp only [longText, String.append_assoc]
    rfl
  rw [longQuery, Query.print, MatchOp.symbol?, Query.leafText, hfield, hone, ← hends]
  rfl

theorem handsOut_longQuery :
    HandsOut (longText (n + 1)) (longQuery (n + 1)) ((longQuery (n + 1)).form Value.toJson) (longText (n + 1)) :=
  ⟨Query.parse_of_print (print_longQuery n), rfl, print_longQuery n⟩

theorem not_hasFittingField_longQuery (hn : Query.greatestFieldLength < n) :
    ¬ (longQuery n).everywhere Query.hasFittingField = true := by
  intro hfits
  have hunits := of_decide_eq_true (show Query.fieldFits (longField n) = true from hfits)
  rw [units_longField] at hunits
  omega

theorem textIssues_longText (hn : n + 5 ≤ greatestQueryLength) :
    Query.textIssues [.key "text"] 1 greatestQueryLength (longText n) = [] := by
  have hunits : Text.units (longText n) = n + 5 := by
    rw [longText, Text.units, String.toList_append, Text.widths_append, ← Text.units, units_longField]
    rfl
  rw [Query.textIssues, hunits, if_neg (by omega), if_neg (by omega)]

theorem length_parse_longText : (Json.object [("text", .string (longText n))]).chars.length ≤ 6 * n + 41 := by
  have hquote := length_quoteList_le (longText n).toList
  have hkey : (Text.quoteList "text".toList).length = 6 := rfl
  have hlength : (longText n).toList.length = n + 5 := by
    rw [longText, String.toList_append, List.length_append, toList_longField, List.length_replicate]
    rfl
  simp only [Json.chars, Json.charsOfProperties, List.length_append, List.length_cons, List.length_nil]
  omega

theorem length_stringify_longQuery :
    (Json.object [("query", (longQuery n).form Value.toJson)]).chars.length ≤ 6 * n + 85 := by
  have hquote := length_quoteList_le (longField n).toList
  rw [toList_longField, List.length_replicate, ← toList_longField] at hquote
  have hkeys : (Text.quoteList "query".toList).length = 7 ∧ (Text.quoteList "Expression".toList).length = 12 ∧
      (Text.quoteList "Type".toList).length = 6 ∧ (Text.quoteList MatchOp.is.name.toList).length = 4 ∧
      (Text.quoteList "Field".toList).length = 7 ∧ (Text.quoteList "Value".toList).length = 7 ∧
      (Value.integer 1).toJson.chars.length = 1 := by
    decide +kernel
  simp only [longQuery, Query.form, Query.expressionForm, Query.wrap, Query.typed, Json.chars,
    Json.charsOfProperties, List.length_append, List.length_cons, List.length_nil]
  omega

end LongField

theorem stringify_of_parse_long_field :
    let r := parseRequest (longText 257)
    let wire := (longQuery 257).form Value.toJson
    ((start defaults).respond r).2 = parsed wire (longText 257) ∧
      (((start defaults).respond r).1.respond (stringifyRequest wire)).2.status = 400 := by
  intro r wire
  have hstart := isAfter_start defaults
  have hasked : admits defaults (Json.object [("text", .string (longText 257))]).text = true := by
    refine admits_text bodyLimit?_defaults ?_
    have hlength := length_parse_longText 257
    omega
  have hadmits : admits defaults (Json.object [("query", wire)]).text = true := by
    refine admits_text bodyLimit?_defaults ?_
    have hlength : (Json.object [("query", wire)]).chars.length ≤ _ := length_stringify_longQuery 257
    omega
  constructor
  · exact hstart.respond_parse (lt_count_defaults (by decide)) (handsOut_longQuery 256) hasked
      (textIssues_longText 257 (by decide))
  · exact (hstart.respond r).respond_stringify_beyond (lt_count_defaults (by decide)) (handsOut_longQuery 256) hadmits
      fun h => not_hasFittingField_longQuery 257 (by decide) h.2

end RecordSieve.Service
