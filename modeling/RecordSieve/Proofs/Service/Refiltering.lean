import RecordSieve.Proofs.Query.Rereading
import RecordSieve.Proofs.Service.Filtering

namespace RecordSieve.Service

open Except
open Json (IsObjectText SpellsNumeral memberText)

structure ReadsLines (settings : Settings) (r : Request) (query : Query) (loose : Bool)
    (records : List Json) : Prop where
  exists_parameters : ∃ q, checkParameters r = .ok (q, loose) ∧ Query.parse q = .ok query
  exists_text : ∃ body text, readBody settings r = .ok body ∧ textOfType? r lineTypes body = some text ∧
    Lines.parse text = .ok records
  length_le : records.length ≤ count settings.maxRecords

variable {settings : Settings} {reader : Yaml.Reader} {r back : Request} {query : Query} {loose : Bool}
  {records : List Json}

theorem ReadsLines.unique (h : ReadsLines settings r query loose records) {query' : Query} {loose' : Bool}
    {records' : List Json} (h' : ReadsLines settings r query' loose' records') :
    query = query' ∧ loose = loose' ∧ records = records' := by
  obtain ⟨⟨q, hparameters, hparse⟩, ⟨body, text, hbody, htext, hlines⟩, -⟩ := h
  obtain ⟨⟨q', hparameters', hparse'⟩, ⟨body', text', hbody', htext', hlines'⟩, -⟩ := h'
  cases hparameters.symm.trans hparameters'
  cases hparse.symm.trans hparse'
  cases hbody.symm.trans hbody'
  cases htext.symm.trans htext'
  cases hlines.symm.trans hlines'
  exact ⟨rfl, rfl, rfl⟩

theorem outcome_select (hparse : ∃ q, Query.parse q = .ok query) :
    outcome ((query.select (optionsOf loose) .ofJson records).bind fun kept => .ok (linesResponse kept)) =
      linesAnswer loose query records := by
  obtain ⟨q, hparse⟩ := hparse
  rw [Query.select_ofJson (Query.everywhere_not_isComparison_of_parse hparse)]
  rfl

theorem ReadsLines.settles (h : ReadsLines settings r query loose records) (hmethod : r.method = "POST")
    (hroute : route? r.path = some .filterLines) :
    Answer.Settles (dispatch settings reader r) (· = linesAnswer loose query records) := by
  obtain ⟨⟨q, hparameters, hparse⟩, ⟨body, text, hbody, htext, hlines⟩, hcount⟩ := h
  refine settles_dispatch_of_body .filterLines hmethod hroute hbody ?_
  show Answer.Settles (filterLinesRoute settings r body) _
  rw [filterLinesRoute, withText, hparameters]
  dsimp only
  rw [htext]
  dsimp only
  rw [hlines]
  dsimp only
  rw [if_neg (Nat.not_lt.2 hcount)]
  refine settles_withQuery ?_
  rw [hparse]
  exact outcome_select ⟨q, hparse⟩

theorem settles_filterLines_of_status (hmethod : r.method = "POST")
    (hroute : route? r.path = some .filterLines) :
    Answer.Settles (dispatch settings reader r) fun response => response.status = 200 → ∃ query loose records,
      ReadsLines settings r query loose records ∧ response = linesAnswer loose query records := by
  refine settles_dispatch_of_route .filterLines hmethod hroute (fun response hrefused hstatus => ?_)
    fun body hbody => ?_
  · exact absurd hstatus (failsWithin_readBody settings r response hrefused).status_ne
  show Answer.Settles (filterLinesRoute settings r body) _
  rw [filterLinesRoute, withText]
  split
  · rename_i hrefused
    exact settles_always fun hstatus => absurd hstatus (failsWithin_checkParameters r _ hrefused).status_ne
  · rename_i q loose hparameters
    split
    · exact settles_always fun hstatus => by cases hstatus
    · rename_i text htext
      cases hlines : Lines.parse text with
      | error e => exact settles_always fun hstatus => by cases hstatus
      | ok records =>
          dsimp only
          split
          · exact settles_always fun hstatus => by cases hstatus
          · rename_i hcount
            refine settles_withQuery fun hstatus => ?_
            obtain ⟨response, hresponse⟩ := exists_ok_of_status_outcome hstatus
            obtain ⟨query, hquery, -⟩ := bind_eq_ok_iff.1 hresponse
            have hparse := mapError_eq_ok_iff.1 hquery
            refine ⟨query, loose, records, ⟨⟨q, hparameters, hparse⟩, ⟨body, text, hbody, htext, hlines⟩,
              Nat.not_lt.1 hcount⟩, ?_⟩
            rw [hparse]
            exact outcome_select ⟨q, hparse⟩

structure SendsBack (r : Request) (response : Response) (back : Request) : Prop where
  method_eq : back.method = "POST"
  route_eq : route? back.path = some .filterLines
  parameters_eq : back.parameters = r.parameters
  exists_sent : ∃ sent, response.body = some sent ∧ SendsLines back sent

theorem checkParameters_congr (h : back.parameters = r.parameters) :
    checkParameters back = checkParameters r := by
  simp only [checkParameters, parameterOf, h]

theorem head?_lines (kept : List Json) : (kept.flatMap jsonLine).head? ≠ some Text.byteOrderMark := by
  cases kept with
  | nil => simp
  | cons j js =>
      obtain ⟨c, cs, hchars, hc, -⟩ := j.exists_cons_chars
      rw [List.flatMap_cons, jsonLine, hchars, List.cons_append, List.cons_append, List.head?_cons,
        Option.some_inj.ne]
      rintro rfl
      exact absurd hc (by decide)

theorem ReadsLines.hasOrderedKeys (h : ReadsLines settings r query loose records) :
    ∀ j ∈ records, j.everywhere Json.hasOrderedKeys = true := by
  obtain ⟨_, _, _, _, hlines⟩ := h.exists_text
  exact fun j hj => Json.everywhere_imp Json.hasOrderedKeys_of_isReadNode
    (Lines.everywhere_isReadNode_of_parse hlines j hj)

def admitsBody (settings : Settings) (response : Response) : Bool := response.body.all (admits settings)

theorem ReadsLines.again (h : ReadsLines settings r query loose records)
    (hback : SendsBack r (linesAnswer loose query records) back)
    (hadmits : admitsBody settings (linesAnswer loose query records) = true) :
    ReadsLines settings back query loose ((records.filter (keeps query loose)).map Json.reread) where
  exists_parameters := by
    rw [checkParameters_congr hback.parameters_eq]
    exact h.exists_parameters
  exists_text := by
    obtain ⟨_, ⟨⟩, hsends⟩ := hback.exists_sent
    have hordered : ∀ j ∈ records.filter (keeps query loose), j.everywhere Json.hasOrderedKeys = true :=
      fun j hj => h.hasOrderedKeys j (List.mem_filter.1 hj).1
    have hmark := head?_lines (records.filter (keeps query loose))
    exact ⟨_, _, hsends.readBody_eq hadmits (by rwa [String.toList_ofList]), hsends.textOfType?_eq,
      Lines.parse_chars hordered⟩
  length_le := by
    rw [List.length_map]
    exact (List.length_filter_le ..).trans h.length_le

theorem settles_back_refused {response : Response} (hback : SendsBack r response back)
    (hadmits : admitsBody settings response = false) :
    Answer.Settles (dispatch settings reader back) (· = refusal 413 "request entity too large") := by
  obtain ⟨sent, hsent, hsends⟩ := hback.exists_sent
  rw [admitsBody, hsent, Option.all_some] at hadmits
  have hrefused : readBody settings back = _ := hsends.readBody_refused hadmits
  refine settles_dispatch_of_route .filterLines hback.method_eq hback.route_eq (fun response h => ?_)
    fun body h => ?_
  · cases hrefused.symm.trans h
    rfl
  · cases hrefused.symm.trans h

theorem linesAnswer_reread (kept : List Json) : linesAnswer loose query (kept.map Json.reread) =
    linesResponse (kept.filter fun j => keeps query loose j.reread) := by
  have hline (j : Json) : jsonLine j.reread = jsonLine j := by rw [jsonLine, jsonLine, Json.chars_reread]
  have hlines : ∀ js : List Json, (js.map Json.reread).flatMap jsonLine = js.flatMap jsonLine := fun js => by
    simp only [List.flatMap_map, hline]
  rw [linesAnswer, List.filter_map, linesResponse, hlines, linesResponse]
  rfl

theorem linesResponse_filter_eq_iff {kept : List Json}
    (h : ∀ j ∈ kept, j.everywhere Json.hasOrderedKeys = true) {p : Json → Bool} :
    linesResponse (kept.filter p) = linesResponse kept ↔ ∀ j ∈ kept, p j = true := by
  constructor
  · intro hsame
    have htext : String.ofList ((kept.filter p).flatMap jsonLine) = String.ofList (kept.flatMap jsonLine) :=
      Option.some.inj (congrArg Response.body hsame)
    have hall := Lines.parse_chars h
    have hsome : Lines.parse (String.ofList ((kept.filter p).flatMap jsonLine)) =
        .ok ((kept.filter p).map Json.reread) :=
      Lines.parse_chars fun j hj => h j (List.mem_filter.1 hj).1
    have hparse := congrArg Lines.parse htext
    have hread : (kept.filter p).map Json.reread = kept.map Json.reread :=
      Except.ok.inj (hsome.symm.trans (hparse.trans hall))
    have hlength := congrArg List.length hread
    rw [List.length_map, List.length_map] at hlength
    exact List.length_filter_eq_length_iff.1 hlength
  · intro hall
    rw [List.filter_eq_self.2 hall]

theorem ReadsLines.again_eq_iff (h : ReadsLines settings r query loose records) :
    linesAnswer loose query ((records.filter (keeps query loose)).map Json.reread) =
      linesAnswer loose query records ↔
        ∀ j ∈ records.filter (keeps query loose), keeps query loose j.reread = true := by
  rw [linesAnswer_reread, linesAnswer]
  exact linesResponse_filter_eq_iff fun j hj => h.hasOrderedKeys j (List.mem_filter.1 hj).1

theorem ReadsLines.keeps_reread (h : ReadsLines settings r query loose records) {j : Json}
    (hj : j ∈ records) (hkind : j.everywhere Json.keepsKind = true) :
    keeps query loose j.reread = keeps query loose j := by
  obtain ⟨q, -, hparse⟩ := h.exists_parameters
  obtain ⟨_, _, _, _, hlines⟩ := h.exists_text
  rw [keeps, keeps, Query.accepts, Query.accepts,
    Query.eval_reread (Query.everywhere_not_isComparison_of_parse hparse)
      (Lines.everywhere_isReadNode_of_parse hlines j hj) hkind]

namespace IsAfter

variable {n : Nat} {s : Service} (hs : IsAfter settings reader n s)
  (hn : n < count settings.rateLimitPerMinute)

include hs hn

theorem respond_lines (h : ReadsLines settings r query loose records) (hmethod : r.method = "POST")
    (hroute : route? r.path = some .filterLines) : (s.respond r).2 = linesAnswer loose query records :=
  hs.of_settles hn (h.settles hmethod hroute)

theorem respond_back_refused {response : Response} (hback : SendsBack r response back)
    (hadmits : admitsBody settings response = false) :
    (s.respond back).2 = refusal 413 "request entity too large" :=
  hs.of_settles hn (p := (· = refusal 413 _)) (settles_back_refused hback hadmits)

theorem respond_back (h : ReadsLines settings r query loose records)
    (hback : SendsBack r (linesAnswer loose query records) back)
    (hadmits : admitsBody settings (linesAnswer loose query records) = true) :
    (s.respond back).2 = linesAnswer loose query ((records.filter (keeps query loose)).map Json.reread) :=
  hs.respond_lines hn (h.again hback hadmits) hback.method_eq hback.route_eq

end IsAfter

def amount (j : Json) : Json := .object [("a", j)]

def amountText (number : String) : String :=
  String.ofList ('\x7b' :: (memberText "a" number.toList ++ ['\x7d']))

def amountQuery : Query := .order .gte "a" (.integer 10000000000000001)

def isAmple (n : Number) : Bool :=
  OrderOp.gte.holdsFor (match n with | .integer i => .integer i | .float x => .float x)
    (.integer 10000000000000001)

def amountRequest (lines : String) : Request := linesRequest "a >= 10000000000000001" false lines

def sentLines (lines : String) : Response :=
  ⟨200, some "application/x-ndjson; charset=utf-8", some lines⟩

theorem keeps_amount (n : Number) : keeps amountQuery false (amount (.number n)) = isAmple n := by
  rw [keeps, Query.accepts, amountQuery, amount, Query.eval_order_number]
  rfl

theorem keeps_amount_null : keeps amountQuery false (amount .null) = false := by
  have hnull : Json.projected .null = .null := by simp only [Json.projected, Datum.ofJson, Datum.project]
  rw [keeps, Query.accepts, amountQuery, Query.eval_order, amount, Query.test_ofJson_single, hnull]
  rfl

theorem linesAnswer_amount {j : Json} {number : String} (hkept : keeps amountQuery false (amount j) = true)
    (h : j.chars = number.toList) :
    linesAnswer false amountQuery [amount j] = sentLines (amountText number ++ "\n") := by
  have hline : jsonLine (amount j) = '\x7b' :: (memberText "a" number.toList ++ ['\x7d']) ++ ['\n'] := by
    rw [← h]
    rfl
  rw [linesAnswer, List.filter_cons_of_pos hkept, List.filter_nil, linesResponse, List.flatMap_cons,
    List.flatMap_nil, List.append_nil, hline, String.ofList_append]
  rfl

theorem linesAnswer_amount_lost {j : Json} (hlost : keeps amountQuery false (amount j) = false) :
    linesAnswer false amountQuery [amount j] = sentLines "" := by
  rw [linesAnswer, List.filter_cons_of_neg (by simp [hlost]), List.filter_nil]
  rfl

theorem parse_amountText {numeral : String} (h : SpellsNumeral numeral.toList) :
    Lines.parse (amountText numeral) = .ok [amount (.number (Json.numberOf numeral.toList))] := by
  have hmember : (memberText "a" numeral.toList).any Text.isControl = false :=
    Lines.any_isControl_memberText (Lines.any_isControl_numeral h)
  have hline : Lines.IsLine ('\x7b' :: (memberText "a" numeral.toList ++ ['\x7d'])) := by
    refine Lines.isLine_of_any_isControl ?_
    rw [List.any_cons, List.any_append, hmember]
    rfl
  have hread : (Json.parse (amountText numeral)).toOption =
      some (amount (.number (Json.numberOf numeral.toList))) :=
    (Json.isReadAs_member "a" (Json.isReadAs_numeral h)).toOption_parse
  refine Lines.parse_line hline rfl ?_
  cases hparse : Json.parse (amountText numeral) with
  | error e =>
      rw [hparse] at hread
      cases hread
  | ok j =>
      rw [hparse] at hread
      exact hparse.trans (congrArg Except.ok (Option.some.inj hread))

theorem spellsNumeral_power (k : Nat) : SpellsNumeral ('1' :: 'e' :: digitsOf k) :=
  .intro (.natural false 1) rfl (.some (.inl rfl) (.inl rfl) (digitsOf_ne_nil k) (all_isDigit_digitsOf k))

theorem sendsBack_amount {response : Response} {sent : String} (h : response.body = some sent)
    (lines : String) : SendsBack (amountRequest lines) response (amountRequest sent) where
  method_eq := rfl
  route_eq := route?_filterLines
  parameters_eq := rfl
  exists_sent := ⟨sent, h, sendsLines_post⟩

def IsAmount (numeral : String) (n : Number) (text : String) : Prop :=
  Json.numberOf numeral.toList = n ∧ (Json.number n).chars = text.toList ∧ isAmple n = true

instance (numeral : String) (n : Number) (text : String) : Decidable (IsAmount numeral n text) :=
  inferInstanceAs (Decidable (_ ∧ _ ∧ _))

namespace IsAmount

variable {numeral text : String} {n : Number} (h : IsAmount numeral n text)

include h

theorem linesAnswer_eq :
    linesAnswer false amountQuery [amount (.number n)] = sentLines (amountText text ++ "\n") :=
  linesAnswer_amount ((keeps_amount n).trans h.2.2) h.2.1

theorem filter_eq : [amount (.number n)].filter (keeps amountQuery false) = [amount (.number n)] :=
  List.filter_cons_of_pos ((keeps_amount n).trans h.2.2)

theorem readsLines (hspells : SpellsNumeral numeral.toList)
    (hadmits : admits settings (amountText numeral) = true) (hcount : 0 < count settings.maxRecords) :
    ReadsLines settings (amountRequest (amountText numeral)) amountQuery false [amount (.number n)] where
  exists_parameters := by
    have hparameters : checkParameters (amountRequest (amountText numeral)) = _ :=
      (checkParameters_linesRequest (amountText numeral)).1 (by decide)
    have hprint : amountQuery.print [] = .ok "a >= 10000000000000001" := rfl
    exact ⟨_, hparameters, Query.parse_of_print hprint⟩
  exists_text := by
    have hmark : (amountText numeral).toList.head? ≠ some Text.byteOrderMark := by
      rw [amountText, String.toList_ofList, List.head?_cons, Option.some_inj.ne]
      decide
    exact ⟨_, _, sendsLines_post.readBody_eq hadmits hmark, sendsLines_post.textOfType?_eq,
      h.1 ▸ parse_amountText hspells⟩
  length_le := hcount

theorem sendsBack (lines : String) :
    SendsBack (amountRequest lines) (linesAnswer false amountQuery [amount (.number n)])
      (amountRequest (amountText text ++ "\n")) :=
  sendsBack_amount (congrArg Response.body h.linesAnswer_eq) lines

theorem admitsBody_eq : admitsBody settings (linesAnswer false amountQuery [amount (.number n)]) =
    admits settings (amountText text ++ "\n") := by
  rw [h.linesAnswer_eq]
  rfl

theorem respond_back_lost {lines : String} {k : Nat} {s : Service} (hs : IsAfter settings reader k s)
    (hk : k < count settings.rateLimitPerMinute)
    (hreads : ReadsLines settings (amountRequest lines) amountQuery false [amount (.number n)])
    (hadmits : admits settings (amountText text ++ "\n") = true)
    (hlost : keeps amountQuery false (amount (Json.reread (.number n))) = false) :
    (s.respond (amountRequest (amountText text ++ "\n"))).2 = sentLines "" := by
  have hagain := hs.respond_back hk hreads (h.sendsBack lines) (h.admitsBody_eq.trans hadmits)
  rw [h.filter_eq] at hagain
  exact hagain.trans (linesAnswer_amount_lost hlost)

end IsAmount

theorem isAmount_powers : IsAmount "1e22" (.float (.ofInt (10 ^ 22))) "1e+22" ∧
    IsAmount "1e17" (.float (.ofInt (10 ^ 17))) "100000000000000000" ∧
    IsAmount "1e16" (.float (.ofInt (10 ^ 16))) "10000000000000000" ∧
    IsAmount "1e999" (.float (.infinite false)) "null" := by
  decide +kernel

def tightSettings : Settings := { defaults with bodyLimit := "24", rateLimitPerMinute := .ofInt 7 }

theorem count_tightSettings :
    count tightSettings.rateLimitPerMinute = 7 ∧ count tightSettings.maxRecords = 10000 := by
  decide +kernel

theorem reread_power : (Number.float (.ofInt (10 ^ 16))).isFinite = true ∧
    Number.reread (.float (.ofInt (10 ^ 16))) = .integer (10 ^ 16) ∧ isAmple (.integer (10 ^ 16)) = false := by
  decide +kernel

theorem IsAmount.readsLines_tight {k : Nat} {numeral text : String} {n : Number}
    (h : IsAmount numeral n text) (hspells : numeral.toList = '1' :: 'e' :: digitsOf k)
    (hadmits : admits tightSettings (amountText numeral) = true) :
    ReadsLines tightSettings (amountRequest (amountText numeral)) amountQuery false [amount (.number n)] :=
  h.readsLines (hspells ▸ spellsNumeral_power k) hadmits (by rw [count_tightSettings.2]; decide)

end RecordSieve.Service
