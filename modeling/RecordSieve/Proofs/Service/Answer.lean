import RecordSieve.Proofs.Cache
import RecordSieve.Proofs.Outcome
import RecordSieve.Service

namespace RecordSieve.Service

open Except

/-- Whatever sound cache the answer is made with, there is one response, of the given kind, and the
cache stays sound. -/
def Answer.Settles (a : Answer) (p : Response → Prop) : Prop :=
  ∃ r, p r ∧ ∀ c : QueryCache, c.IsSound → (a c).1.IsSound ∧ (a c).2 = r

def outcome : Except Failure Response → Response
  | .ok r => r
  | .error e => failed e

theorem exists_ok_of_status_outcome {x : Except Failure Response} (h : (outcome x).status = 200) :
    ∃ response, x = .ok response := by
  cases x with
  | ok response => exact ⟨response, rfl⟩
  | error e =>
      have hstatus : statusFor e = 200 := h
      cases e <;> cases hstatus

def QueryInput.query : QueryInput → Except Failure Query
  | .text s => (Query.parse s).mapError .query
  | .wire d => Query.ofInput ⟨[], d⟩

variable {p : Response → Prop}

theorem Answer.Settles.mono {a : Answer} {p' : Response → Prop} (h : a.Settles p)
    (hp : ∀ r, p r → p' r) : a.Settles p' := by
  obtain ⟨r, hr, hall⟩ := h
  exact ⟨r, hp r hr, hall⟩

theorem settles_always {r : Response} (h : p r) : Answer.Settles (always r) p :=
  ⟨r, h, fun _ hc => ⟨hc, rfl⟩⟩

theorem settles_withQuery {text : String} {next : Query → Except Failure Response}
    (h : p (outcome (((Query.parse text).mapError .query).bind next))) :
    Answer.Settles (withQuery text next) p := by
  refine ⟨_, h, fun c hc => ?_⟩
  obtain ⟨hsound, hparse⟩ := hc.parse text
  simp only [withQuery, ← hparse]
  generalize c.parse text = found at hsound
  rcases found with ⟨c', e | q⟩
  · exact ⟨hsound, rfl⟩
  · change _ ∧ _ = outcome (next q)
    dsimp only
    cases next q with
    | ok r => exact ⟨hsound, rfl⟩
    | error e => exact ⟨hsound, rfl⟩

theorem settles_withInput {input : QueryInput} {next : Query → Except Failure Response}
    (h : p (outcome (input.query.bind next))) : Answer.Settles (withInput input next) p := by
  cases input with
  | text s => exact settles_withQuery h
  | wire d =>
      refine ⟨_, h, fun c hc => ⟨hc, ?_⟩⟩
      rw [withInput, QueryInput.query]
      cases (Query.ofInput ⟨[], d⟩).bind next with
      | ok r => rfl
      | error e => rfl

end RecordSieve.Service
