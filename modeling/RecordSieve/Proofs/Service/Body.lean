import RecordSieve.Proofs.Json.Text
import RecordSieve.Proofs.Service.Route

namespace RecordSieve.Service

open Except

def admits (settings : Settings) (sent : String) : Bool :=
  !(bodyLimit? settings.bodyLimit).any (· < (byteCount sent : Int))

theorem length_quoteList_le (cs : List Char) : (Text.quoteList cs).length ≤ 6 * cs.length + 2 := by
  have hbody : (cs.flatMap Text.escapeChar).length ≤ 6 * cs.length := by
    induction cs with
    | nil => rfl
    | cons c cs ih =>
        have hc : (Text.escapeChar c).length ≤ 6 := by
          unfold Text.escapeChar
          split
          case h_8 => split <;> simp [Text.controlEscape]
          all_goals decide
        rw [List.flatMap_cons, List.length_append, List.length_cons]
        omega
  simp only [Text.quoteList, List.length_append, List.length_cons, List.length_nil]
  omega

theorem byteCount_le (s : String) : byteCount s ≤ 4 * s.toList.length := by
  rw [byteCount, Text.bytes]
  induction s.toList with
  | nil => rfl
  | cons c cs ih =>
      have hc : (String.utf8EncodeChar c).length ≤ 4 := by
        rw [String.length_utf8EncodeChar]
        exact c.utf8Size_le_four
      rw [List.flatMap_cons, List.length_append, List.length_cons]
      omega

theorem admits_text {settings : Settings} {limit : Int} {j : Json}
    (hlimit : bodyLimit? settings.bodyLimit = some limit) (h : 4 * (j.chars.length : Int) ≤ limit) :
    admits settings j.text = true := by
  have hcount := byteCount_le j.text
  rw [Json.text, String.toList_ofList, ← Json.text] at hcount
  rw [admits, hlimit, Option.any_some, Bool.not_eq_true', decide_eq_false_iff_not]
  omega

def post (path : String) (parameters : List (String × String)) (type sent : String) : Request :=
  { path, parameters, contentType := some type, body := some sent }

variable {settings : Settings} {path sent : String} {parameters : List (String × String)}

def IsUtf8 (type : MediaType) : Prop :=
  Charset.ofName? (((type.parameters.find? "charset").filter (· ≠ "")).getD "utf-8") = some .utf8

theorem bodyText_eq_ok {type : MediaType} (hcharset : IsUtf8 type) (hadmits : admits settings sent = true)
    (hmark : sent.toList.head? ≠ some Text.byteOrderMark) : bodyText settings type sent = .ok sent := by
  have hdecode : Charset.utf8.decode sent = sent := by
    rw [Charset.decode, Text.dropByteOrderMark_eq_self hmark, String.ofList_toList]
  have hwithin : ¬ (bodyLimit? settings.bodyLimit).any (· < (byteCount sent : Int)) = true := by
    simpa [admits] using hadmits
  rw [bodyText, if_neg hwithin]
  dsimp only
  rw [hcharset]
  dsimp only
  rw [hdecode]

theorem not_isEmpty_trim {c : Char} (hc : Text.isBlank c = false) (hopen : sent.toList.head? = some c) :
    (Text.trim sent).isEmpty = false := by
  obtain ⟨cs, hs⟩ := List.head?_eq_some_iff.1 hopen
  have hlast : (cs.reverse ++ [c]).dropWhile Text.isBlank ≠ [] := by
    rw [List.dropWhile_append]
    split <;> simp [hc]
  have htrimmed : Text.trimList sent.toList ≠ [] := by
    rw [hs, Text.trimList, List.dropWhile_cons_of_neg (by simp [hc]), List.reverse_cons]
    exact List.reverse_ne_nil_iff.2 hlast
  simpa [Text.trim] using htrimmed

theorem jsonBody_eq {c : Char} (hc : Text.isBlank c = false) (hopen : sent.toList.head? = some c) :
    jsonBody sent = match Json.parse sent with
      | .ok j => .ok (.json j)
      | .error e => .error (failed (.form { fault := .invalidJson e })) := by
  rw [jsonBody, not_isEmpty_trim hc hopen]
  rfl

theorem mediaType?_post (path : String) (parameters : List (String × String)) (type sent : String) :
    mediaType? (post path parameters type sent) = MediaType.parse? type := rfl

theorem sentText_post (path : String) (parameters : List (String × String)) (type sent : String) :
    sentText (post path parameters type sent) = some sent := rfl

theorem readBody_json (hadmits : admits settings sent = true)
    (hopen : sent.toList.head? = some '\x7b') :
    readBody settings (post path parameters "application/json" sent) = match Json.parse sent with
      | .ok j => .ok (.json j)
      | .error e => .error (failed (.form { fault := .invalidJson e })) := by
  have htype : MediaType.parse? "application/json" = some ⟨"application/json", []⟩ := rfl
  have htext : bodyText settings ⟨"application/json", []⟩ sent = .ok sent :=
    bodyText_eq_ok rfl hadmits (by rw [hopen]; decide)
  rw [readBody, mediaType?_post, sentText_post, htype]
  dsimp only
  rw [if_pos rfl, htext]
  dsimp only [Except.bind]
  exact jsonBody_eq (by decide) hopen

theorem readBody_object {properties : List (String × Json)}
    (hadmits : admits settings (Json.object properties).text = true)
    (hordered : (Json.object properties).everywhere Json.hasOrderedKeys = true) :
    readBody settings (post path parameters "application/json" (Json.object properties).text) =
      .ok (.json (.object (Entries.mapValues Json.reread properties))) := by
  have hopen : (Json.object properties).text.toList.head? = some '\x7b' := by
    rw [Json.text, String.toList_ofList, Json.chars]
    rfl
  rw [readBody_json hadmits hopen, Json.parse_eq_reread hordered, Json.reread_object]

theorem textTypes_of_mem_lineTypes :
    ∀ name ∈ lineTypes, name ≠ "application/json" ∧ name ∈ textTypes := by
  decide

structure SendsLines (r : Request) (sent : String) : Prop where
  sentText_eq : sentText r = some sent
  exists_type : ∃ type, mediaType? r = some type ∧ type.name ∈ lineTypes ∧ IsUtf8 type

namespace SendsLines

variable {r : Request} (h : SendsLines r sent)

include h

theorem readBody_eq (hadmits : admits settings sent = true)
    (hmark : sent.toList.head? ≠ some Text.byteOrderMark) : readBody settings r = .ok (.text sent) := by
  obtain ⟨type, htype, hname, hcharset⟩ := h.exists_type
  obtain ⟨hjson, htext⟩ := textTypes_of_mem_lineTypes _ hname
  rw [readBody, htype, h.sentText_eq]
  dsimp only
  rw [if_neg hjson, if_pos htext, bodyText_eq_ok hcharset hadmits hmark]
  rfl

theorem readBody_refused (hadmits : admits settings sent = false) :
    readBody settings r = .error (refusal 413 "request entity too large") := by
  obtain ⟨type, htype, hname, -⟩ := h.exists_type
  obtain ⟨hjson, htext⟩ := textTypes_of_mem_lineTypes _ hname
  have hbeyond : (bodyLimit? settings.bodyLimit).any (· < (byteCount sent : Int)) = true := by
    simpa [admits] using hadmits
  rw [readBody, htype, h.sentText_eq]
  dsimp only
  rw [if_neg hjson, if_pos htext, bodyText, if_pos hbeyond]
  rfl

theorem textOfType?_eq : textOfType? r lineTypes (.text sent) = some sent := by
  obtain ⟨type, htype, hname, -⟩ := h.exists_type
  rw [textOfType?, htype]
  exact if_pos (decide_eq_true hname)

end SendsLines

theorem sendsLines_post : SendsLines (post path parameters "application/x-ndjson" sent) sent where
  sentText_eq := rfl
  exists_type := by
    have htype : MediaType.parse? "application/x-ndjson" = some ⟨"application/x-ndjson", []⟩ := rfl
    exact ⟨_, htype, List.mem_cons_self, rfl⟩

end RecordSieve.Service
