import RecordSieve.Proofs.Records.Selection
import RecordSieve.Proofs.Service.Answer

namespace RecordSieve.Service

open Except

def refusals : List Nat := [400, 413, 415, 429]

def IsRefusal (r : Response) : Prop := r.status ∈ refusals

def IsProper (r : Response) : Prop := r.status = 200 ∨ IsRefusal r

def IsClients (e : Failure) : Prop := statusFor e = 400

theorem IsRefusal.status_ne {r : Response} (h : IsRefusal r) : r.status ≠ 200 := by
  intro hstatus
  rw [IsRefusal, hstatus] at h
  exact absurd h (by decide)

theorem isRefusal_refusal {status : Nat} (h : status ∈ refusals) (message : String) :
    IsRefusal (refusal status message) :=
  h

theorem status_failed (e : Failure) : (failed e).status = statusFor e := rfl

theorem isRefusal_failed {e : Failure} (h : IsClients e) : IsRefusal (failed e) := by
  rw [IsRefusal, status_failed, h]
  decide

theorem isProper_outcome_bind {α : Type} {x : Except Failure α} {f : α → Except Failure Response}
    (hx : x.FailsWithin IsClients) (hf : ∀ a, x = .ok a → IsProper (outcome (f a))) :
    IsProper (outcome (x.bind f)) := by
  cases x with
  | ok a => exact hf a rfl
  | error e => exact .inr (isRefusal_failed (hx e rfl))

theorem failsWithin_mapError_form {α : Type} (x : Except FormError α) :
    FailsWithin IsClients (x.mapError .form) :=
  .mapError fun _ => rfl

theorem failsWithin_bodyText (settings : Settings) (type : MediaType) (sent : String) :
    FailsWithin IsRefusal (bodyText settings type sent) := by
  rw [bodyText]
  split
  · exact failsWithin_error (isRefusal_refusal (by decide) _)
  · dsimp only
    split
    · exact failsWithin_ok _
    · exact failsWithin_error (isRefusal_refusal (by decide) _)

theorem failsWithin_jsonBody (text : String) : FailsWithin IsRefusal (jsonBody text) := by
  rw [jsonBody]
  split
  · exact failsWithin_ok _
  · split
    · exact failsWithin_ok _
    · exact failsWithin_error (isRefusal_failed rfl)

theorem failsWithin_readBody (settings : Settings) (r : Request) :
    FailsWithin IsRefusal (readBody settings r) := by
  rw [readBody]
  split
  · split
    · exact (failsWithin_bodyText _ _ _).bind fun text _ => failsWithin_jsonBody text
    · split
      · exact (failsWithin_bodyText _ _ _).map _
      · exact failsWithin_ok _
  · exact failsWithin_ok _

section

variable {α : Type} {body : Body} {check : Datum → Checked α}

theorem failsWithin_checkBody : FailsWithin IsRefusal (checkBody body check) := by
  rw [checkBody]
  dsimp only
  split
  · exact failsWithin_ok _
  · exact failsWithin_error (isRefusal_refusal (by decide) _)

theorem checkBody_eq_ok {a : α} (h : checkBody body check = .ok a) :
    check body.datum = (some a, []) := by
  rw [checkBody] at h
  by_cases hobject : body.datum.isObject = true
  · rw [if_pos hobject] at h
    generalize check body.datum = checked at h ⊢
    rcases checked with ⟨_ | a', _ | ⟨issue, issues⟩⟩ <;> cases h
    rfl
  · rw [if_neg hobject] at h
    cases h

theorem checkBody_of_isObject {a : α} (hobject : body.datum.isObject = true)
    (h : check body.datum = (some a, [])) : checkBody body check = .ok a := by
  rw [checkBody]
  dsimp only
  rw [if_pos hobject, h]

end

theorem failsWithin_checkParameters (r : Request) : FailsWithin IsRefusal (checkParameters r) := by
  rw [checkParameters]
  dsimp only
  split
  · exact failsWithin_ok _
  · exact failsWithin_error (isRefusal_refusal (by decide) _)

theorem both_eq {α β : Type} {a : Checked α} {b : Checked β} {x : α} {y : β}
    (h : both a b = (some (x, y), [])) : a = (some x, []) ∧ b = (some y, []) := by
  obtain ⟨a, issues⟩ := a
  obtain ⟨b, others⟩ := b
  obtain ⟨hvalue, hissues⟩ := Prod.mk.inj h
  obtain ⟨rfl, rfl⟩ := List.append_eq_nil_iff.1 hissues
  cases a <;> cases b <;> simp at hvalue
  obtain ⟨rfl, rfl⟩ := hvalue
  exact ⟨rfl, rfl⟩

theorem memberOf_ofJson (name : String) (properties : List (String × Json)) :
    memberOf (.ofJson (.object properties)) name =
      ((Entries.find? name properties).map .ofJson).getD .undefined := by
  rw [memberOf, Datum.member_ofJson]
  rfl

theorem memberOf_datum (body : Body) (name : String) :
    memberOf body.datum name = .undefined ∨ ∃ j, memberOf body.datum name = .ofJson j := by
  rcases body with _ | j | s
  · exact .inl rfl
  · cases j with
    | object properties =>
        have hmember : memberOf (Body.json (.object properties)).datum name = _ := memberOf_ofJson name properties
        rw [hmember]
        cases Entries.find? name properties with
        | none => exact .inl rfl
        | some j => exact .inr ⟨j, rfl⟩
    | _ => exact .inl rfl
  · exact .inl rfl

def QueryInput.IsReadable : QueryInput → Prop
  | .text _ => True
  | .wire d => ∃ j, d = .ofJson j

theorem isReadable_wire {d : Datum} (hd : d = .undefined ∨ ∃ j, d = .ofJson j)
    (hobject : d.isObject = true) : (QueryInput.wire d).IsReadable :=
  hd.resolve_left fun h => by rw [h] at hobject; cases hobject

theorem isReadable_of_wireQueryOf {place : Path} {body : Body} {name : String} {d : Datum}
    (h : wireQueryOf place (memberOf body.datum name) = (some d, [])) :
    (QueryInput.wire d).IsReadable := by
  rw [wireQueryOf] at h
  split at h
  · rename_i hobject
    cases h
    exact isReadable_wire (memberOf_datum body name) hobject
  · cases h

theorem isReadable_of_queryInputOf {place : Path} {body : Body} {name : String} {input : QueryInput}
    (h : queryInputOf place (memberOf body.datum name) = (some input, [])) : input.IsReadable := by
  unfold queryInputOf at h
  split at h
  · obtain ⟨hinput, -⟩ := Prod.mk.inj h
    cases hinput
    trivial
  · split at h
    · rename_i hobject
      cases h
      exact isReadable_wire (memberOf_datum body name) hobject
    · cases h

namespace QueryInput.IsReadable

variable {input : QueryInput}

theorem failsWithin_query (h : input.IsReadable) : FailsWithin IsClients input.query := by
  cases input with
  | text s => exact .mapError fun _ => rfl
  | wire d =>
      obtain ⟨j, rfl⟩ := h
      refine (Query.failsWithin_ofWireAt _).mono fun e he => ?_
      obtain ⟨f, rfl⟩ := he
      rfl

theorem everywhere_not_isComparison (h : input.IsReadable) {q : Query} (hq : input.query = .ok q) :
    q.everywhere (!·.isComparison) = true := by
  cases input with
  | text s => exact Query.everywhere_not_isComparison_of_parse (mapError_eq_ok_iff.1 hq)
  | wire d =>
      obtain ⟨j, rfl⟩ := h
      exact Query.everywhere_not_isComparison_of_ofWire hq

end QueryInput.IsReadable

theorem isProper_outcome_query {input : QueryInput} {next : Query → Except Failure Response}
    (hinput : input.IsReadable)
    (hnext : ∀ q, q.everywhere (!·.isComparison) = true → IsProper (outcome (next q))) :
    IsProper (outcome (input.query.bind next)) :=
  isProper_outcome_bind hinput.failsWithin_query fun q hq =>
    hnext q (hinput.everywhere_not_isComparison hq)

theorem settles_withQuery_isProper {text : String} {next : Query → Except Failure Response}
    (hnext : ∀ q, q.everywhere (!·.isComparison) = true → IsProper (outcome (next q))) :
    Answer.Settles (withQuery text next) IsProper :=
  settles_withQuery (isProper_outcome_query (show (QueryInput.text text).IsReadable from trivial) hnext)

theorem settles_parseRoute (body : Body) : Answer.Settles (parseRoute body) IsProper := by
  rw [parseRoute]
  split
  · exact settles_always (.inr (failsWithin_checkBody _ ‹_›))
  · refine settles_withQuery_isProper fun q _ => ?_
    refine isProper_outcome_bind (failsWithin_mapError_form _) fun wire _ => ?_
    exact isProper_outcome_bind (failsWithin_mapError_form _) fun canonical _ => .inl rfl

theorem settles_stringifyRoute (body : Body) : Answer.Settles (stringifyRoute body) IsProper := by
  rw [stringifyRoute]
  split
  · exact settles_always (.inr (failsWithin_checkBody _ ‹_›))
  · rename_i d h
    refine settles_withInput (isProper_outcome_query (isReadable_of_wireQueryOf (checkBody_eq_ok h)) ?_)
    exact fun q _ => isProper_outcome_bind (failsWithin_mapError_form _) fun text _ => .inl rfl

theorem settles_evaluateRoute (body : Body) : Answer.Settles (evaluateRoute body) IsProper := by
  rw [evaluateRoute]
  split
  · exact settles_always (.inr (failsWithin_checkBody _ ‹_›))
  · rename_i query record loose h
    have hinput := isReadable_of_queryInputOf (both_eq (checkBody_eq_ok h)).1
    refine settles_withInput (isProper_outcome_query hinput fun q hq => ?_)
    rw [Query.eval_eq_ok_accepts hq (Input.getterFault?_ofJson record)]
    exact .inl rfl

theorem settles_filterRoute (settings : Settings) (body : Body) :
    Answer.Settles (filterRoute settings body) IsProper := by
  rw [filterRoute]
  split
  · exact settles_always (.inr (failsWithin_checkBody _ ‹_›))
  · rename_i query records loose h
    have hinput := isReadable_of_queryInputOf (both_eq (checkBody_eq_ok h)).1
    refine settles_withInput (isProper_outcome_query hinput fun q hq => ?_)
    rw [Query.select_ofJson hq]
    exact .inl rfl

theorem settles_withText {r : Request} {types : List String} {wanted : String} {body : Body}
    {next : String → Bool → String → Answer}
    (h : ∀ q loose text, Answer.Settles (next q loose text) IsProper) :
    Answer.Settles (withText r types wanted body next) IsProper := by
  rw [withText]
  split
  · exact settles_always (.inr (failsWithin_checkParameters r _ ‹_›))
  · split
    · exact settles_always (.inr (isRefusal_refusal (by decide) _))
    · exact h _ _ _

theorem settles_filterLinesRoute (settings : Settings) (r : Request) (body : Body) :
    Answer.Settles (filterLinesRoute settings r body) IsProper := by
  refine settles_withText fun q loose text => ?_
  split
  · exact settles_always (.inr (isRefusal_failed rfl))
  · split
    · exact settles_always (.inr (isRefusal_refusal (by decide) _))
    · refine settles_withQuery_isProper fun query hquery => ?_
      rw [Query.select_ofJson hquery]
      exact .inl rfl

theorem settles_filterCsvRoute (settings : Settings) (r : Request) (body : Body) :
    Answer.Settles (filterCsvRoute settings r body) IsProper := by
  refine settles_withText fun q loose text => ?_
  split
  · exact settles_always (.inr (isRefusal_failed rfl))
  · split
    · exact settles_always (.inr (isRefusal_refusal (by decide) _))
    · refine settles_withQuery_isProper fun query hquery => ?_
      rw [Table.select_eq_ok hquery]
      exact .inl rfl

def Route.isStrict : Route → Bool
  | .health | .testYaml => false
  | _ => true

theorem settles_answer (settings : Settings) (reader : Yaml.Reader) (r : Request) (body : Body)
    {route : Route} (hroute : route.isStrict = true) :
    Answer.Settles (answer settings reader r body route) IsProper := by
  cases route with
  | health | testYaml => cases hroute
  | parse => exact settles_parseRoute body
  | stringify => exact settles_stringifyRoute body
  | evaluate => exact settles_evaluateRoute body
  | filter => exact settles_filterRoute settings body
  | filterLines => exact settles_filterLinesRoute settings r body
  | filterCsv => exact settles_filterCsvRoute settings r body

end RecordSieve.Service
