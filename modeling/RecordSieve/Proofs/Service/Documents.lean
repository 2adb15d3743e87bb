import RecordSieve.Proofs.Records.Yaml
import RecordSieve.Proofs.Service.Body
import RecordSieve.Proofs.Service.Run

namespace RecordSieve.Service

open Except

variable {settings : Settings} {reader : Yaml.Reader} {r : Request} {text : String}

theorem status_of_checkParameters {response : Response} (h : checkParameters r = .error response) :
    response.status = 400 := by
  rw [checkParameters] at h
  dsimp only at h
  split at h
  · cases h
  · cases h
    rfl

structure SendsYaml (settings : Settings) (r : Request) (text : String) : Prop where
  method_eq : r.method = "POST"
  route_eq : route? r.path = some .testYaml
  exists_body : ∃ body, readBody settings r = .ok body ∧ textOfType? r yamlTypes body = some text

def AsksQuery (r : Request) : Prop :=
  ∃ q loose query, checkParameters r = .ok (q, loose) ∧ Query.parse q = .ok query

namespace SendsYaml

variable (h : SendsYaml settings r text)

include h

theorem settles_of_error {response : Response} (hparameters : checkParameters r = .error response) :
    Answer.Settles (dispatch settings reader r) (· = response) := by
  obtain ⟨body, hbody, -⟩ := h.exists_body
  apply settles_dispatch_of_body .testYaml h.method_eq h.route_eq hbody
  rw [answer, testYamlRoute, withText, hparameters]
  exact settles_always rfl

theorem settles_of_ok {q : String} {loose : Bool} (hparameters : checkParameters r = .ok (q, loose)) :
    Answer.Settles (dispatch settings reader r)
      (· = outcome (((Query.parse q).mapError .query).bind fun query => do
        let matched ← reader.test text query (optionsOf loose)
        return jsonResponse 200 (.object [("match", .boolean matched)]))) := by
  obtain ⟨body, hbody, htext⟩ := h.exists_body
  apply settles_dispatch_of_body .testYaml h.method_eq h.route_eq hbody
  rw [answer, testYamlRoute, withText, hparameters]
  dsimp only
  rw [htext]
  exact settles_withQuery rfl

theorem settles (hplain : reader.IsPlain) (hparse : FailsWithin Yaml.IsForm (reader.parse text)) :
    Answer.Settles (dispatch settings reader r) fun response =>
      response.status = 200 ∧ AsksQuery r ∧ reader.HasDocument text ∨
        response.status = 400 ∧ ¬ (AsksQuery r ∧ reader.HasDocument text) := by
  cases hparameters : checkParameters r with
  | error refused =>
      apply (h.settles_of_error hparameters).mono
      rintro _ rfl
      refine .inr ⟨status_of_checkParameters hparameters, ?_⟩
      rintro ⟨⟨q, loose, query, hq, -⟩, -⟩
      rw [hparameters] at hq
      cases hq
  | ok parameters =>
      obtain ⟨q, loose⟩ := parameters
      apply (h.settles_of_ok hparameters).mono
      rintro _ rfl
      cases hquery : Query.parse q with
      | error e =>
          refine .inr ⟨rfl, ?_⟩
          rintro ⟨⟨q', loose', query, hq, hread⟩, -⟩
          rw [hparameters] at hq
          cases hq
          rw [hquery] at hread
          cases hread
      | ok query =>
          have hnone := Query.everywhere_not_isComparison_of_parse hquery
          dsimp only [Except.mapError, Except.bind]
          obtain ⟨⟨b, hb⟩, hdocument⟩ | ⟨⟨f, hf⟩, hdocument⟩ :=
            Yaml.Reader.test_cases hplain hnone (optionsOf loose) hparse
          · rw [hb]
            exact .inl ⟨rfl, ⟨q, loose, query, hparameters, hquery⟩, hdocument⟩
          · rw [hf]
            exact .inr ⟨rfl, fun htestable => hdocument htestable.2⟩

theorem settles_of_parse_eq_error {e : Yaml.ConversionError} (hparse : reader.parse text = .error e.failure)
    (hasks : AsksQuery r) :
    Answer.Settles (dispatch settings reader r) fun response => response.status = 500 := by
  obtain ⟨q, loose, query, hparameters, hquery⟩ := hasks
  apply (h.settles_of_ok hparameters).mono
  rintro _ rfl
  rw [hquery]
  dsimp only [Except.mapError, Except.bind]
  rw [Yaml.Reader.test_of_parse_eq_error _ hparse]
  cases e <;> rfl

end SendsYaml

theorem isAfter_earlier (reader : Yaml.Reader) (settings : Settings) (earlier : List Request) :
    IsAfter settings reader earlier.length ((startWith reader settings).respondAll earlier).1 := by
  have h := (isAfter_startWith reader settings).respondAll earlier
  rwa [Nat.zero_add] at h

/-- A text fails as data of the wrong form, alone, under a query without comparisons and at the service,
unless the first document that gives no data lists no syntax errors. Then what its conversion raises comes
through, and the service answers that the error is its own. -/
theorem yaml_fails_by_form_iff {reader : Yaml.Reader} (hplain : reader.IsPlain) (text : String) :
    (¬ Yaml.Stumbles (reader.documents text) ↔
      FailsWithin Yaml.IsForm (reader.parse text) ∧
      (∀ (q : Query) (options : Options), q.everywhere (!·.isComparison) = true →
        FailsWithin Yaml.IsForm (reader.test text q options)) ∧
      ∀ (settings : Settings) (earlier : List Request) (r : Request),
        earlier.length < count settings.rateLimitPerMinute → SendsYaml settings r text →
          let response := (((startWith reader settings).respondAll earlier).1.respond r).2
          response.status = 200 ∧ AsksQuery r ∧ reader.HasDocument text ∨
            response.status = 400 ∧ ¬ (AsksQuery r ∧ reader.HasDocument text)) ∧
    (Yaml.Stumbles (reader.documents text) →
      ∃ e : Yaml.ConversionError, reader.parse text = .error e.failure ∧
        (∀ (q : Query) (options : Options), reader.test text q options = .error e.failure) ∧
        ∀ (settings : Settings) (earlier : List Request) (r : Request),
          earlier.length < count settings.rateLimitPerMinute → SendsYaml settings r text → AsksQuery r →
            (((startWith reader settings).respondAll earlier).1.respond r).2.status = 500) := by
  refine ⟨⟨fun hstumbles => ?_, fun ⟨hparse, _⟩ hstumbles => ?_⟩, fun hstumbles => ?_⟩
  · have hparse := Yaml.Reader.failsWithin_parse hstumbles
    refine ⟨hparse, fun q options hq => Yaml.Reader.failsWithin_test hplain hq options hparse, ?_⟩
    intro settings earlier r hn hr
    exact (isAfter_earlier reader settings earlier).of_settles hn (hr.settles hplain hparse)
  · obtain ⟨e, he⟩ := Yaml.Reader.parse_eq_error_of_stumbles hstumbles
    obtain ⟨f, hf⟩ := hparse _ he
    cases e <;> cases hf
  · obtain ⟨e, he⟩ := Yaml.Reader.parse_eq_error_of_stumbles hstumbles
    refine ⟨e, he, fun q options => Yaml.Reader.test_of_parse_eq_error options he, ?_⟩
    intro settings earlier r hn hr hasks
    exact (isAfter_earlier reader settings earlier).of_settles hn (hr.settles_of_parse_eq_error he hasks)

def yamlRequest (sent : String) : Request :=
  post "/queries/_test/yaml" [("q", "a is 1")] "application/yaml" sent

theorem checkParameters_yamlRequest (sent : String) :
    checkParameters (yamlRequest sent) = .ok ("a is 1", false) := by
  rfl

theorem asksQuery_yamlRequest (sent : String) : AsksQuery (yamlRequest sent) := by
  have hread : (Query.parse "a is 1").isOk = true := by decide +kernel
  obtain ⟨query, hquery⟩ := isOk_iff.1 hread
  exact ⟨"a is 1", false, query, checkParameters_yamlRequest sent, hquery⟩

theorem route?_testYaml : route? "/queries/_test/yaml" = some .testYaml := rfl

theorem sendsYaml_yamlRequest {settings : Settings} {sent : String} (hadmits : admits settings sent = true)
    (hmark : sent.toList.head? ≠ some Text.byteOrderMark) :
    SendsYaml settings (yamlRequest sent) sent where
  method_eq := rfl
  route_eq := route?_testYaml
  exists_body := by
    have htype : MediaType.parse? "application/yaml" = some ⟨"application/yaml", []⟩ := rfl
    have htext : bodyText settings ⟨"application/yaml", []⟩ sent = .ok sent :=
      bodyText_eq_ok rfl hadmits hmark
    refine ⟨.text sent, ?_, ?_⟩
    · rw [readBody, yamlRequest, mediaType?_post, sentText_post, htype]
      dsimp only
      rw [if_neg (by decide), if_pos (by decide), htext]
      rfl
    · rfl

theorem admits_defaults {sent : String} (h : byteCount sent ≤ 524288) : admits defaults sent = true := by
  rw [admits, bodyLimit?_defaults, Option.any_some, Bool.not_eq_true', decide_eq_false_iff_not]
  omega

theorem yaml_fails_by_form_iff_repeated :
    let sent := "[&x 1, *x]"
    Yaml.Reader.core.IsPlain ∧ ¬ Yaml.Stumbles (Yaml.Reader.core.documents sent) ∧
      (((startWith .core defaults).respondAll []).1.respond (yamlRequest sent)).2.status = 200 := by
  intro sent
  have hplain := Yaml.Reader.isPlain_core
  have hlength : (Yaml.Reader.core.parse sent).map List.length = .ok 1 := by decide +kernel
  obtain ⟨inputs, hinputs, hone⟩ := map_eq_ok_iff.1 hlength
  obtain ⟨document, rfl⟩ := List.length_eq_one_iff.1 hone
  have hstumbles : ¬ Yaml.Stumbles (Yaml.Reader.core.documents sent) := by
    intro hstumbles
    obtain ⟨e, he, -⟩ := (yaml_fails_by_form_iff hplain sent).2 hstumbles
    rw [hinputs] at he
    cases he
  have hsends : SendsYaml defaults (yamlRequest sent) sent :=
    sendsYaml_yamlRequest (admits_defaults (by decide)) (by decide)
  obtain ⟨-, -, hresponse⟩ := (yaml_fails_by_form_iff hplain sent).1.1 hstumbles
  obtain ⟨hstatus, -⟩ | ⟨-, hfails⟩ := hresponse defaults [] _ (lt_count_defaults (by decide)) hsends
  · exact ⟨hplain, hstumbles, hstatus⟩
  · exact absurd ⟨asksQuery_yamlRequest sent, document, [], hinputs⟩ hfails

/-- An alias without its anchor comes through as what the library raised. -/
theorem yaml_fails_by_unresolved_alias :
    let sent := "a: *nope\n"
    let e : Failure := .yamlAlias (.unresolved "nope")
    Yaml.Reader.core.parse sent = .error e ∧
      Yaml.Reader.core.test sent (.check .is "a" (.integer 1)) {} = .error e ∧
        ((start defaults).respond (yamlRequest sent)).2.status = 500 := by
  intro sent e
  have hlength : (Yaml.Reader.core.parse sent).map List.length = .error e := by decide +kernel
  have hparse : Yaml.Reader.core.parse sent = .error e := map_eq_error_iff.1 hlength
  have hsends : SendsYaml defaults (yamlRequest sent) sent :=
    sendsYaml_yamlRequest (admits_defaults (by decide)) (by decide)
  refine ⟨hparse, Yaml.Reader.test_of_parse_eq_error {} hparse, ?_⟩
  have hsettles := hsends.settles_of_parse_eq_error (e := .alias (.unresolved "nope")) hparse
    (asksQuery_yamlRequest sent)
  have hstatus := (isAfter_start defaults).of_settles (lt_count_defaults (by decide)) hsettles
  exact hstatus

end RecordSieve.Service
