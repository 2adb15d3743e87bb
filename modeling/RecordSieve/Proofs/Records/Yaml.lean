import RecordSieve.Proofs.Records.Selection
import RecordSieve.Proofs.Yaml.Expansion
import RecordSieve.Proofs.Yaml.Numbering
import RecordSieve.Records.Yaml

namespace RecordSieve.Yaml

open Except

/-- Whether the first document that gives no data lists no syntax errors. -/
def Stumbles (ds : List Loaded) : Prop :=
  ∃ before d after, ds = before ++ d :: after ∧
    (∀ b ∈ before, b.isSound = true ∧ ∃ input, b.data = .ok input) ∧
      d.isSound = true ∧ ∃ e, d.data = .error e

theorem not_stumbles_nil : ¬ Stumbles [] := by
  rintro ⟨before, d, after, hsplit, -⟩
  exact List.append_ne_nil_of_right_ne_nil _ (List.cons_ne_nil _ _) hsplit.symm

theorem stumbles_cons {d : Loaded} {ds : List Loaded} :
    Stumbles (d :: ds) ↔ d.isSound = true ∧ ((∃ e, d.data = .error e) ∨ Stumbles ds) := by
  constructor
  · rintro ⟨before, e, after, hsplit, hbefore, hsound, hfails⟩
    cases before with
    | nil =>
        cases hsplit
        exact ⟨hsound, .inl hfails⟩
    | cons b before =>
        cases hsplit
        obtain ⟨hb, hbefore⟩ := List.forall_mem_cons.1 hbefore
        exact ⟨hb.1, .inr ⟨before, e, after, rfl, hbefore, hsound, hfails⟩⟩
  · rintro ⟨hsound, hrest⟩
    cases hdata : d.data with
    | error e => exact ⟨[], d, ds, rfl, by simp, hsound, e, hdata⟩
    | ok input =>
        obtain ⟨before, e, after, rfl, hbefore, he⟩ := hrest.resolve_left (by simp [hdata])
        exact ⟨d :: before, e, after, rfl, List.forall_mem_cons.2 ⟨⟨hsound, input, hdata⟩, hbefore⟩, he⟩

def IsForm (e : Failure) : Prop := ∃ f, e = .form f

theorem failsWithin_dataFrom {ds : List Loaded} (h : ¬ Stumbles ds) (number : Nat) :
    FailsWithin IsForm (dataFrom number ds) := by
  induction ds generalizing number with
  | nil => exact failsWithin_ok []
  | cons d ds ih =>
      rw [stumbles_cons] at h
      rw [dataFrom]
      split
      · rename_i hsound
        cases hdata : d.data with
        | error e => exact absurd ⟨hsound, .inl ⟨e, hdata⟩⟩ h
        | ok input => exact (ih (fun hds => h ⟨hsound, .inr hds⟩) _).map _
      · exact failsWithin_error ⟨_, rfl⟩

theorem dataFrom_eq_error_of_stumbles {ds : List Loaded} (h : Stumbles ds) (number : Nat) :
    ∃ e : ConversionError, dataFrom number ds = .error e.failure := by
  induction ds generalizing number with
  | nil => exact absurd h not_stumbles_nil
  | cons d ds ih =>
      obtain ⟨hsound, hrest⟩ := stumbles_cons.1 h
      rw [dataFrom, if_pos hsound]
      cases hdata : d.data with
      | error e => exact ⟨e, rfl⟩
      | ok input =>
          obtain ⟨e, he⟩ := ih (hrest.resolve_left (by simp [hdata])) (number + 1)
          rw [he]
          exact ⟨e, rfl⟩

theorem mem_data_of_dataFrom {ds : List Loaded} {number : Nat} {inputs : List Input}
    (h : dataFrom number ds = .ok inputs) : ∀ input ∈ inputs, ∃ d ∈ ds, d.data = .ok input := by
  induction ds generalizing number inputs with
  | nil =>
      cases h
      simp
  | cons d ds ih =>
      rw [dataFrom] at h
      split at h
      · split at h
        · cases h
        · rename_i input hdata
          obtain ⟨rest, hrest, rfl⟩ := map_eq_ok_iff.1 h
          refine List.forall_mem_cons.2 ⟨⟨d, List.mem_cons_self, hdata⟩, fun other hother => ?_⟩
          obtain ⟨e, he, hdata⟩ := ih hrest other hother
          exact ⟨e, List.mem_cons_of_mem d he, hdata⟩
      · cases h

namespace Reader

def IsPlain (reader : Reader) : Prop :=
  ∀ text, ∀ d ∈ reader.documents text, ∀ input, d.data = .ok input → input.getterFault? = none

variable {reader : Reader} {text : String} {q : Query}

theorem failsWithin_parse (h : ¬ Stumbles (reader.documents text)) : FailsWithin IsForm (reader.parse text) :=
  failsWithin_dataFrom h 1

theorem parse_eq_error_of_stumbles (h : Stumbles (reader.documents text)) :
    ∃ e : ConversionError, reader.parse text = .error e.failure :=
  dataFrom_eq_error_of_stumbles h 1

theorem test_of_parse_eq_error (options : Options) {e : Failure} (h : reader.parse text = .error e) :
    reader.test text q options = .error e := by
  rw [test, h]
  rfl

theorem test_of_parse_eq_nil (options : Options) (h : reader.parse text = .ok []) :
    reader.test text q options = .error (.form { fault := .noDocument }) := by
  rw [test, h]
  rfl

theorem test_of_parse_eq_cons (hplain : reader.IsPlain) (hq : q.everywhere (!·.isComparison) = true)
    (options : Options) {document : Input} {rest : List Input}
    (h : reader.parse text = .ok (document :: rest)) :
    reader.test text q options = .ok (q.accepts options document) := by
  obtain ⟨d, hd, hdata⟩ := mem_data_of_dataFrom h document List.mem_cons_self
  rw [test, h]
  exact Query.eval_eq_ok_accepts hq (hplain text d hd document hdata)

def HasDocument (reader : Reader) (text : String) : Prop :=
  ∃ document rest, reader.parse text = .ok (document :: rest)

theorem test_cases (hplain : reader.IsPlain) (hq : q.everywhere (!·.isComparison) = true) (options : Options)
    (h : FailsWithin IsForm (reader.parse text)) :
    (∃ b, reader.test text q options = .ok b) ∧ reader.HasDocument text ∨
      (∃ f, reader.test text q options = .error (.form f)) ∧ ¬ reader.HasDocument text := by
  cases hparse : reader.parse text with
  | error e =>
      obtain ⟨f, rfl⟩ := h e hparse
      refine .inr ⟨⟨f, test_of_parse_eq_error options hparse⟩, ?_⟩
      rintro ⟨document, rest, hdocument⟩
      rw [hparse] at hdocument
      cases hdocument
  | ok inputs =>
      cases inputs with
      | nil =>
          refine .inr ⟨⟨_, test_of_parse_eq_nil options hparse⟩, ?_⟩
          rintro ⟨document, rest, hdocument⟩
          rw [hparse] at hdocument
          cases hdocument
      | cons document rest =>
          exact .inl ⟨⟨_, test_of_parse_eq_cons hplain hq options hparse⟩, document, rest, hparse⟩

theorem failsWithin_test (hplain : reader.IsPlain) (hq : q.everywhere (!·.isComparison) = true)
    (options : Options) (h : FailsWithin IsForm (reader.parse text)) :
    FailsWithin IsForm (reader.test text q options) := by
  obtain ⟨⟨b, hb⟩, -⟩ | ⟨⟨f, hf⟩, -⟩ := test_cases hplain hq options h
  · rw [hb]
    exact failsWithin_ok b
  · rw [hf]
    exact failsWithin_error ⟨f, rfl⟩

theorem isPlain_core : Reader.core.IsPlain := by
  intro text loaded hloaded input hdata
  obtain ⟨d, -, rfl⟩ := List.mem_map.1 hloaded
  exact Document.getterFault?_of_data (mapError_eq_ok_iff.1 hdata)

end Reader

/-- The reader stumbles over aliases alone: one that no anchor stands before, or too many. -/
theorem stumbles_core_iff (text : String) :
    Stumbles (Reader.core.documents text) ↔ ∃ before d after, documents text.toList = before ++ d :: after ∧
      (∀ b ∈ before, b.isSound = true ∧ b.Expands) ∧ d.isSound = true ∧ ¬ d.Expands := by
  have hback := allReferBack_documents text.toList
  have hexpands {d : Document} (hd : d ∈ documents text.toList) := d.expands_iff (hback d hd)
  constructor
  · rintro ⟨before, loaded, after, hsplit, hbefore, hsound, e, he⟩
    obtain ⟨bs, rest, hdocuments, rfl, hrest⟩ := List.map_eq_append_iff.1 hsplit
    obtain ⟨d, ds, rfl, rfl, rfl⟩ := List.map_eq_cons_iff.1 hrest
    refine ⟨bs, d, ds, hdocuments, fun b hb => ?_, hsound, fun hd => ?_⟩
    · obtain ⟨hsound, input, hinput⟩ := hbefore _ (List.mem_map_of_mem hb)
      have hin : b ∈ documents text.toList := hdocuments ▸ List.mem_append_left _ hb
      exact ⟨hsound, (hexpands hin).2 ⟨input, mapError_eq_ok_iff.1 hinput⟩⟩
    · have hin : d ∈ documents text.toList := hdocuments ▸ by simp
      obtain ⟨input, hinput⟩ := (hexpands hin).1 hd
      rw [Document.loaded, mapError_eq_ok_iff.2 hinput] at he
      cases he
  · rintro ⟨before, d, after, hdocuments, hbefore, hsound, hd⟩
    refine ⟨before.map Document.loaded, d.loaded, after.map Document.loaded, ?_, fun b hb => ?_, hsound, ?_⟩
    · rw [Reader.core]
      dsimp only
      rw [hdocuments, List.map_append, List.map_cons]
    · obtain ⟨c, hc, rfl⟩ := List.mem_map.1 hb
      have hin : c ∈ documents text.toList := hdocuments ▸ List.mem_append_left _ hc
      obtain ⟨input, hinput⟩ := (hexpands hin).1 (hbefore c hc).2
      exact ⟨(hbefore c hc).1, input, mapError_eq_ok_iff.2 hinput⟩
    · have hin : d ∈ documents text.toList := hdocuments ▸ by simp
      cases hdata : d.loaded.data with
      | error e => exact ⟨e, rfl⟩
      | ok input => exact absurd ((hexpands hin).2 ⟨input, mapError_eq_ok_iff.1 hdata⟩) hd

end RecordSieve.Yaml
