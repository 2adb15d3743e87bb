import RecordSieve.Proofs.Entries
import RecordSieve.Proofs.Outcome
import RecordSieve.Proofs.Query.Shape

namespace RecordSieve

open Except

namespace Input

def getterFault? (input : Input) : Option String :=
  match (input.root.resolve input.objects).property? "getField" with
  | some (.error message) => some message
  | _ => none

def Raises (input : Input) (e : Failure) : Prop :=
  ∃ message, input.getterFault? = some message ∧ e = .other message

theorem property?_boxed_ne_error (content : Scalar) (name message : String) :
    (Datum.boxed content).property? name ≠ some (.error message) := by
  intro h
  cases content with
  | number | boolean =>
      simp [Datum.property?, Datum.ownProperty?, Datum.inheritedProperty?, Datum.properties,
        Entries.find?] at h
  | string s =>
      by_cases hlength : name = "length"
      · simp [Datum.property?, Datum.ownProperty?, hlength] at h
      · simp only [Datum.property?, Datum.ownProperty?, Datum.inheritedProperty?, hlength, if_false,
          Option.or_none] at h
        obtain ⟨i, hi, hentry⟩ := List.mem_mapIdx.1 (Entries.mem_of_find? h)
        simp at hentry

theorem view?_eq_error_iff {input : Input} {e : Failure} :
    input.view? = .error e ↔ input.Raises e := by
  unfold view? Raises getterFault?
  cases input.root.resolve input.objects with
  | object own inherited =>
      dsimp only
      rcases (Datum.object own inherited).property? "getField" with _ | message | d
      · simp
      · simp [eq_comm]
      · cases d <;> simp
  | boxed content =>
      rcases hp : (Datum.boxed content).property? "getField" with _ | message | d
      · simp
      · exact absurd hp (property?_boxed_ne_error content _ _)
      · simp
  | _ =>
      simp [Datum.property?, Datum.ownProperty?, Datum.inheritedProperty?, Datum.properties,
        Entries.find?]

end Input

/-- The ways in which reading a field ends outside every guard: in the question for `getField`, in asking
for the text of what was caught, and in the projection. -/
inductive Subject.Raises (s : Subject) : Failure → Prop
  | asked {e : Failure} (h : s.fields? = .error e) : s.Raises e
  | caught {fields : String → Option Read} {name : String} {e : Failure} (h : s.fields? = .ok (some fields))
      (hread : fields name = some (.raises (.mute e))) : s.Raises e
  | projected {fields : String → Option Read} {name : String} {e : Failure}
      (h : s.fields? = .ok (some fields)) (hread : fields name = some (.gives (.error e))) : s.Raises e

namespace Subject

variable {s : Subject}

theorem valueOf?_eq_error_iff {fields : String → Option Read} {name : String} {e : Failure} :
    valueOf? fields name = .error e ↔
      fields name = some (.raises (.mute e)) ∨ fields name = some (.gives (.error e)) := by
  rw [valueOf?]
  rcases fields name with _ | projection | failure
  · simp
  · cases projection <;> simp [Read.value?, Except.map]
  · cases failure <;> simp [Read.value?]

theorem raises_iff {e : Failure} : s.Raises e ↔ ∃ name, s.lookup name = .error e := by
  constructor
  · intro he
    cases he with
    | asked h => exact ⟨"", by rw [lookup, h]; rfl⟩
    | @caught fields name _ h hread =>
        refine ⟨name, ?_⟩
        rw [lookup, h]
        exact valueOf?_eq_error_iff.2 (.inl hread)
    | @projected fields name _ h hread =>
        refine ⟨name, ?_⟩
        rw [lookup, h]
        exact valueOf?_eq_error_iff.2 (.inr hread)
  · rintro ⟨name, hname⟩
    rw [lookup] at hname
    rcases h : s.fields? with e' | _ | fields
    · rw [h] at hname
      obtain rfl : e' = e := by simpa [Except.bind] using hname
      exact .asked h
    · rw [h] at hname
      simp [Except.bind] at hname
    · rw [h] at hname
      rcases valueOf?_eq_error_iff.1 hname with hread | hread
      · exact .caught h hread
      · exact .projected h hread

theorem failsWithin_lookup (name : String) : FailsWithin s.Raises (s.lookup name) :=
  fun _ he => raises_iff.2 ⟨name, he⟩

end Subject

theorem Input.raises_subject {input : Input} {e : Failure} : input.subject.Raises e ↔ input.Raises e := by
  rw [Subject.raises_iff, ← view?_eq_error_iff]
  simp only [lookup_subject, lookup, map_eq_error_iff, exists_const]

def Failure.IsEvaluation (e : Failure) : Prop := ∃ c, e = .evaluation c

theorem Failure.isEvaluation (c : EvaluationError) : (Failure.evaluation c).IsEvaluation := ⟨c, rfl⟩

/-- Whatever the function raises has a text, or asking it for one is a failed evaluation. -/
def Callable.Reports (f : Callable) : Prop :=
  ∀ arguments e, f.run arguments = .error (.mute e) → e.IsEvaluation

/-- What reading a field or projecting the whole ends in outside every guard is a failed evaluation. -/
def Subject.Reports (s : Subject) : Prop := ∀ e, s.Raises e ∨ s.self = .error e → e.IsEvaluation

def Context.Reports (context : Context) : Prop :=
  ∀ name f, Entries.find? name context.functions = some f → f.Reports

namespace Term

mutual

def fallbacks : Term → List Callable
  | .field _ => []
  | .constant _ => []
  | .self => []
  | .bound _ => []
  | .call _ fallback arguments => fallback.toList ++ fallbacksIn arguments
  | .choice condition positive negative =>
      fallbacks condition ++ fallbacks positive ++ fallbacksIfGiven negative
  | .truth t => fallbacks t

def fallbacksIn : List Term → List Callable
  | [] => []
  | t :: ts => fallbacks t ++ fallbacksIn ts

def fallbacksIfGiven : Option Term → List Callable
  | some t => fallbacks t
  | none => []

end

end Term

namespace Query

mutual

def terms : Query → List Term
  | .empty => []
  | .check _ _ _ => []
  | .order _ _ _ => []
  | .joined _ children => termsIn children
  | .not child => terms child
  | .compare _ lhs rhs => [lhs, rhs]

def termsIn : List Query → List Term
  | [] => []
  | q :: qs => terms q ++ termsIn qs

end

theorem mem_termsIn {t : Term} {qs : List Query} : t ∈ termsIn qs ↔ ∃ q ∈ qs, t ∈ q.terms := by
  induction qs with
  | nil => simp [termsIn]
  | cons q qs ih => simp [termsIn, ih]

def Reports (q : Query) : Prop := ∀ t ∈ q.terms, ∀ f ∈ t.fallbacks, f.Reports

end Query

variable {s : Subject} {context : Context}

theorem Callable.Reports.failsWithin_apply {f : Callable} (hf : f.Reports) (label : String)
    (arguments : List Value) : FailsWithin Failure.IsEvaluation (f.apply label arguments) := by
  intro e he
  rw [apply] at he
  cases hrun : f.run arguments with
  | ok v => rw [hrun] at he; cases he
  | error raised =>
      rw [hrun] at he
      obtain rfl : wrapped label raised = e := by simpa [Except.mapError] using he
      cases raised with
      | mute e => exact hf arguments e hrun
      | _ => exact Failure.isEvaluation _

theorem Value.failsWithin_truthOrFail (v : Value) : FailsWithin Failure.IsEvaluation v.truthOrFail :=
  .mapError Failure.isEvaluation

theorem Context.Reports.callee (h : context.Reports) {name : Option String} {fallback : Option Callable}
    (hfallback : ∀ f ∈ fallback, f.Reports) {f : Callable} (hf : context.callee name fallback = some f) :
    f.Reports := by
  rw [Context.callee, Option.or_eq_some_iff] at hf
  rcases hf with hfound | ⟨-, hf⟩
  · obtain ⟨n, -, hn⟩ := Option.bind_eq_some_iff.1 hfound
    exact h n f hn
  · exact hfallback f hf

theorem Subject.Reports.failsWithin_demand (hs : s.Reports) (name : String) :
    FailsWithin Failure.IsEvaluation (s.demand name) := by
  have hlookup := (s.failsWithin_lookup name).mono fun e he => hs e (.inl he)
  rw [lookup] at hlookup
  rw [demand]
  rcases h : s.fields? with e | _ | fields <;> rw [h] at hlookup
  · exact failsWithin_error (hlookup e rfl)
  · exact failsWithin_error (Failure.isEvaluation _)
  · refine FailsWithin.bind hlookup fun v _ => ?_
    cases v with
    | none => exact failsWithin_error (Failure.isEvaluation _)
    | some v => exact failsWithin_ok v

namespace Term

mutual

theorem failsWithin_eval (hs : s.Reports) (hcontext : context.Reports) (t : Term)
    (ht : ∀ f ∈ t.fallbacks, f.Reports) :
    FailsWithin Failure.IsEvaluation (t.eval s context) := by
  match t with
  | .field name =>
      rw [eval]
      exact hs.failsWithin_demand name
  | .constant v => rw [eval]; exact failsWithin_ok v
  | .self =>
      rw [eval]
      exact fun e he => hs e (.inr he)
  | .bound name =>
      rw [eval]
      split
      · exact failsWithin_ok _
      · exact failsWithin_error (Failure.isEvaluation _)
  | .call name fallback arguments =>
      rw [fallbacks, List.forall_mem_append] at ht
      rw [eval]
      split
      · exact failsWithin_error (Failure.isEvaluation _)
      · rename_i f hf
        have hreports := hcontext.callee (fun f hin => ht.1 f (Option.mem_toList.2 hin)) hf
        exact (failsWithin_evalAll hs hcontext arguments ht.2).bind fun values _ =>
          hreports.failsWithin_apply _ values
  | .choice condition positive negative =>
      rw [fallbacks, List.forall_mem_append, List.forall_mem_append] at ht
      obtain ⟨⟨hcondition, hpositive⟩, hnegative⟩ := ht
      rw [eval]
      refine (failsWithin_eval hs hcontext condition hcondition).bind fun v _ =>
        v.failsWithin_truthOrFail.bind fun b _ => ?_
      cases b with
      | true => exact failsWithin_eval hs hcontext positive hpositive
      | false => exact failsWithin_evalIfGiven hs hcontext negative hnegative
  | .truth t =>
      rw [fallbacks] at ht
      rw [eval]
      exact (failsWithin_eval hs hcontext t ht).bind fun v _ => v.failsWithin_truthOrFail.map _

theorem failsWithin_evalAll (hs : s.Reports) (hcontext : context.Reports) (ts : List Term)
    (hts : ∀ f ∈ fallbacksIn ts, f.Reports) :
    FailsWithin Failure.IsEvaluation (evalAll s context ts) := by
  match ts with
  | [] => rw [evalAll]; exact failsWithin_ok _
  | t :: ts =>
      rw [fallbacksIn, List.forall_mem_append] at hts
      rw [evalAll]
      exact (failsWithin_eval hs hcontext t hts.1).bind fun _ _ =>
        (failsWithin_evalAll hs hcontext ts hts.2).map _

theorem failsWithin_evalIfGiven (hs : s.Reports) (hcontext : context.Reports) (t : Option Term)
    (ht : ∀ f ∈ fallbacksIfGiven t, f.Reports) :
    FailsWithin Failure.IsEvaluation (evalIfGiven s context t) := by
  match t with
  | some t =>
      rw [fallbacksIfGiven] at ht
      rw [evalIfGiven]
      exact failsWithin_eval hs hcontext t ht
  | none => rw [evalIfGiven]; exact failsWithin_ok _

end

theorem fallbacksIn_constants (values : List Value) : fallbacksIn (values.map .constant) = [] := by
  induction values with
  | nil => rfl
  | cons v values ih => rw [List.map_cons, fallbacksIn, fallbacks, ih, List.nil_append]

theorem evalAll_constants (values : List Value) : evalAll s context (values.map .constant) = .ok values := by
  induction values with
  | nil => rw [List.map_nil, evalAll]
  | cons v values ih => rw [List.map_cons, evalAll, eval, ih]; rfl

theorem eval_call_constants {name : String} {f : Callable} {arguments : List Value} {e : Failure}
    (hf : Entries.find? name context.functions = some f) (hrun : f.run arguments = .error (.mute e)) :
    (Term.call (some name) none (arguments.map .constant)).eval s context = .error e := by
  have hcallee : context.callee (some name) none = some f := by simp [Context.callee, hf]
  rw [eval, hcallee, evalAll_constants]
  show f.apply _ arguments = .error e
  rw [Callable.apply, hrun]
  rfl

end Term

namespace Query

variable {options : Options} {p : Failure → Prop}

theorem failsWithin_combine {a b : Except Failure Bool} (ha : FailsWithin p a)
    (hb : FailsWithin p b) (joint : Joint) : FailsWithin p (joint.combine a b) := by
  rcases joint with _ | _ <;> rcases a with _ | _ | _ <;> first | exact hb | exact ha

theorem failsWithin_joined {joint : Joint} {children : List Query}
    (h : ∀ q ∈ children, FailsWithin p (q.evalOn options s)) :
    FailsWithin p (evalOn options s (.joined joint children)) := by
  induction children with
  | nil =>
      rw [evalOn_joined]
      exact failsWithin_ok _
  | cons q qs ih =>
      obtain ⟨hq, hqs⟩ := List.forall_mem_cons.1 h
      rw [evalOn_joined_cons]
      exact failsWithin_combine hq (ih hqs) joint

theorem failsWithin_evalOn (hraises : ∀ e, s.Raises e → p e) (q : Query)
    (hterms : ∀ t ∈ q.terms, FailsWithin p (t.eval s options.context)) :
    FailsWithin p (q.evalOn options s) := by
  induction q using byChildren with
  | empty =>
      rw [evalOn]
      exact failsWithin_ok _
  | check | order =>
      rw [evalOn]
      exact ((s.failsWithin_lookup _).mono hraises).map _
  | joined joint children ih =>
      rw [terms] at hterms
      exact failsWithin_joined fun q hin => ih q hin fun t ht => hterms t (mem_termsIn.2 ⟨q, hin, ht⟩)
  | not child ih =>
      rw [terms] at hterms
      rw [evalOn]
      exact (ih hterms).map _
  | compare op lhs rhs =>
      rw [terms] at hterms
      rw [evalOn]
      exact (hterms lhs (by simp)).bind fun _ _ => (hterms rhs (by simp)).bind fun _ _ => failsWithin_ok _

theorem terms_eq_nil {q : Query} (hq : q.everywhere (!·.isComparison) = true) : q.terms = [] := by
  induction q using byChildren with
  | empty | check | order => rw [terms]
  | joined joint children ih =>
      rw [terms, List.eq_nil_iff_forall_not_mem]
      intro t ht
      obtain ⟨q, hin, hmem⟩ := mem_termsIn.1 ht
      rw [ih q hin ((everywhere_joined.1 hq).2 q hin)] at hmem
      cases hmem
  | not child ih => rw [terms, ih (everywhere_not.1 hq).2]
  | compare op lhs rhs => simp [everywhere, isComparison] at hq

theorem failsWithin_eval {input : Input} {q : Query} (hq : q.everywhere (!·.isComparison) = true) :
    FailsWithin input.Raises (q.eval options input) :=
  failsWithin_evalOn (fun _ => Input.raises_subject.1) q (by simp [terms_eq_nil hq])

theorem exists_ok_evalOn (hnone : ∀ e, ¬ s.Raises e) (options : Options) {q : Query}
    (hq : q.everywhere (!·.isComparison) = true) : ∃ b, q.evalOn options s = .ok b := by
  cases h : q.evalOn options s with
  | ok b => exact ⟨b, rfl⟩
  | error e => exact (failsWithin_evalOn hnone q (by simp [terms_eq_nil hq]) e h).elim

theorem evalOn_cases (hs : s.Reports) (hcontext : context.Reports) (loose : Bool) {q : Query}
    (hq : q.Reports) :
    (∃ b, q.evalOn ⟨context, loose⟩ s = .ok b) ∨
      ∃ c, q.evalOn ⟨context, loose⟩ s = .error (.evaluation c) := by
  have hfails : FailsWithin Failure.IsEvaluation (q.evalOn ⟨context, loose⟩ s) :=
    failsWithin_evalOn (fun e he => hs e (.inl he)) q fun t ht => t.failsWithin_eval hs hcontext (hq t ht)
  cases h : q.evalOn ⟨context, loose⟩ s with
  | ok b => exact .inl ⟨b, rfl⟩
  | error e => exact .inr ((hfails e h).imp fun c hc => by rw [hc])

theorem evalOn_check_of_lookup {name : String} {e : Failure} (h : s.lookup name = .error e) :
    evalOn options s (.check .is name .null) = .error e := by
  rw [evalOn, Subject.test, h]
  rfl

theorem evalOn_compare_of_left {op : CompareOp} {lhs rhs : Term} {e : Failure}
    (h : lhs.eval s options.context = .error e) : evalOn options s (.compare op lhs rhs) = .error e := by
  rw [evalOn, h]
  rfl

/-- Queries without comparisons are answered just where no read of a field ends outside every guard. Every
query is answered or fails as an evaluation just where what such reads, the projection of the whole and the
texts of what functions raise end in are failed evaluations at most. -/
theorem eval_answers_iff (s : Subject) (context : Context) :
    ((∀ e, ¬ s.Raises e) ↔ ∀ (options : Options) (q : Query), q.everywhere (!·.isComparison) = true →
      ∃ b, q.evalOn options s = .ok b) ∧
    (s.Reports ∧ context.Reports ↔ ∀ (loose : Bool) (q : Query), q.Reports →
      (∃ b, q.evalOn ⟨context, loose⟩ s = .ok b) ∨
        ∃ c, q.evalOn ⟨context, loose⟩ s = .error (.evaluation c)) := by
  refine ⟨⟨fun hnone options q hq => exists_ok_evalOn hnone options hq, fun hanswers e he => ?_⟩,
    ⟨fun ⟨hs, hcontext⟩ loose q hq => evalOn_cases hs hcontext loose hq, fun hanswers => ?_⟩⟩
  · obtain ⟨name, hname⟩ := Subject.raises_iff.1 he
    obtain ⟨b, hb⟩ := hanswers {} (.check .is name .null) rfl
    rw [evalOn_check_of_lookup hname] at hb
    cases hb
  · have hfailed {q : Query} {e : Failure} (hq : q.Reports)
        (h : q.evalOn ⟨context, false⟩ s = .error e) : e.IsEvaluation := by
      obtain ⟨b, hb⟩ | ⟨c, hc⟩ := hanswers false q hq
      · rw [h] at hb
        cases hb
      · rw [h] at hc
        exact ⟨c, Except.error.inj hc⟩
    refine ⟨fun e he => ?_, fun name f hf arguments e hrun => ?_⟩
    · obtain hraises | hself := he
      · obtain ⟨name, hname⟩ := Subject.raises_iff.1 hraises
        exact hfailed (by simp [Reports, terms]) (evalOn_check_of_lookup hname)
      · refine hfailed (q := .compare .eq .self .self) (by simp [Reports, terms, Term.fallbacks]) ?_
        exact evalOn_compare_of_left (by rw [Term.eval, hself])
    · have hcall := Term.eval_call_constants (s := s) hf hrun
      refine hfailed (q := .compare .eq _ .self) ?_ (evalOn_compare_of_left hcall)
      simp [Reports, terms, Term.fallbacks, Term.fallbacksIn_constants]

theorem eval_answers_iff_accessor :
    ∃ b, eval {} ⟨[], .object [("a", .error "no")] []⟩ (.not (.check .is "a" (.integer 1))) = .ok b := by
  let input : Input := ⟨[], .object [("a", .error "no")] []⟩
  have hgetter : input.getterFault? = none := by decide +kernel
  refine (eval_answers_iff input.subject {}).1.1 (fun e he => ?_) {} _ (by decide +kernel)
  obtain ⟨message, hmessage, -⟩ := Input.raises_subject.1 he
  simp [hgetter] at hmessage

/-- An error raised in answer to a question for `getField` comes through as it is. -/
theorem eval_getter_raises :
    eval {} ⟨[], .object [("getField", .error "boom")] []⟩ (.check .is "a" (.integer 1)) =
      .error (.other "boom") := by
  decide +kernel

-- So does the error of a text that was asked for: what the read of the field raised has none.
example : evalOn {} ⟨.ok (some fun _ => some (.raises (.mute (.other "boom")))), .ok .null⟩
    (.check .is "a" (.integer 1)) = .error (.other "boom") := by
  decide +kernel

end Query

end RecordSieve
