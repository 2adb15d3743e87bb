import RecordSieve.Proofs.Service.Route

namespace RecordSieve.Service

open Except

theorem settles_testYamlRoute (reader : Yaml.Reader) (r : Request) (body : Body) :
    Answer.Settles (testYamlRoute reader r body) fun _ => True := by
  rw [testYamlRoute, withText]
  split
  · exact settles_always trivial
  · split
    · exact settles_always trivial
    · exact settles_withQuery trivial

theorem settles_answer_always (settings : Settings) (reader : Yaml.Reader) (r : Request) (body : Body)
    (route : Route) :
    Answer.Settles (answer settings reader r body route) fun _ => True := by
  by_cases hstrict : route.isStrict = true
  · exact (settles_answer settings reader r body hstrict).mono fun _ _ => trivial
  · cases route with
    | health => exact settles_always trivial
    | testYaml => exact settles_testYamlRoute reader r body
    | _ => exact absurd rfl hstrict

theorem settles_dispatch (settings : Settings) (reader : Yaml.Reader) (r : Request) :
    Answer.Settles (dispatch settings reader r) fun _ => True := by
  unfold dispatch
  split
  · exact settles_always trivial
  · split
    · exact settles_always trivial
    · split
      · exact settles_answer_always settings reader r _ _
      · split
        · exact settles_always trivial
        · split <;> exact settles_always trivial

theorem settles_dispatch_of_route {settings : Settings} {reader : Yaml.Reader} {r : Request} (route : Route)
    {p : Response → Prop} (hmethod : r.method = route.method) (hroute : route? r.path = some route)
    (hrefused : ∀ response, readBody settings r = .error response → p response)
    (hanswer : ∀ body, readBody settings r = .ok body → (answer settings reader r body route).Settles p) :
    Answer.Settles (dispatch settings reader r) p := by
  unfold dispatch
  rw [hroute]
  split
  · exact settles_always (hrefused _ ‹_›)
  · dsimp only
    simp only [if_pos hmethod]
    exact hanswer _ ‹_›

theorem settles_dispatch_of_body {settings : Settings} {reader : Yaml.Reader} {r : Request}
    (route : Route) {body : Body} {p : Response → Prop} (hmethod : r.method = route.method)
    (hroute : route? r.path = some route)
    (hbody : readBody settings r = .ok body) (hanswer : (answer settings reader r body route).Settles p) :
    Answer.Settles (dispatch settings reader r) p := by
  refine settles_dispatch_of_route route hmethod hroute (fun response hrefused => ?_) fun body' hread => ?_
  · rw [hbody] at hrefused
    cases hrefused
  · rw [hbody] at hread
    cases hread
    exact hanswer

theorem Route.method_of_isStrict {route : Route} (h : route.isStrict = true) : route.method = "POST" := by
  cases route with
  | health => cases h
  | _ => rfl

theorem settles_dispatch_of_isStrict (settings : Settings) (reader : Yaml.Reader) {r : Request}
    {route : Route} (hmethod : r.method = "POST") (hroute : route? r.path = some route)
    (hstrict : route.isStrict = true) : Answer.Settles (dispatch settings reader r) IsProper :=
  settles_dispatch_of_route route (hmethod.trans (Route.method_of_isStrict hstrict).symm) hroute
    (fun response h => .inr (failsWithin_readBody settings r response h))
    fun body _ => settles_answer settings reader r body hstrict

structure IsAfter (settings : Settings) (reader : Yaml.Reader) (n : Nat) (s : Service) : Prop where
  settings_eq : s.settings = settings
  reader_eq : s.reader = reader
  served_eq : s.served = n
  isSound : s.cache.IsSound

variable {settings : Settings} {reader : Yaml.Reader} {n : Nat} {s : Service}

theorem isAfter_startWith (reader : Yaml.Reader) (settings : Settings) :
    IsAfter settings reader 0 (startWith reader settings) :=
  ⟨rfl, rfl, rfl, QueryCache.isSound_empty _⟩

theorem isAfter_start (settings : Settings) : IsAfter settings .core 0 (start settings) :=
  isAfter_startWith .core settings

namespace IsAfter

theorem respond_beyond (h : IsAfter settings reader n s) (hn : count settings.rateLimitPerMinute ≤ n)
    (r : Request) : (s.respond r).2 = page 429 := by
  rw [Service.respond, h.settings_eq, h.served_eq]
  dsimp only
  rw [if_pos (Nat.lt_succ_of_le hn)]

theorem respond_within (h : IsAfter settings reader n s) (hn : n < count settings.rateLimitPerMinute)
    (r : Request) : (s.respond r).2 = (dispatch settings reader r s.cache).2 := by
  rw [Service.respond, h.settings_eq, h.reader_eq, h.served_eq]
  dsimp only
  rw [if_neg (Nat.not_lt.2 hn)]

theorem respond (h : IsAfter settings reader n s) (r : Request) :
    IsAfter settings reader (n + 1) (s.respond r).1 := by
  obtain ⟨response, -, hall⟩ := settles_dispatch settings reader r
  rw [Service.respond, h.settings_eq, h.reader_eq, h.served_eq]
  dsimp only
  split
  · exact ⟨rfl, rfl, rfl, h.isSound⟩
  · exact ⟨rfl, rfl, rfl, (hall s.cache h.isSound).1⟩

theorem respondAll (h : IsAfter settings reader n s) (rs : List Request) :
    IsAfter settings reader (n + rs.length) (s.respondAll rs).1 := by
  induction rs generalizing n s with
  | nil => exact h
  | cons r rs ih =>
      have hrest := ih (h.respond r)
      rw [Nat.add_assoc, Nat.add_comm 1] at hrest
      exact hrest

theorem of_settles (h : IsAfter settings reader n s) (hn : n < count settings.rateLimitPerMinute) {r : Request}
    {p : Response → Prop} (hp : Answer.Settles (dispatch settings reader r) p) :
    p (s.respond r).2 := by
  obtain ⟨response, hresponse, hall⟩ := hp
  rw [h.respond_within hn, (hall s.cache h.isSound).2]
  exact hresponse

theorem respond_eq_alone (h : IsAfter settings .core n s) (hn : n < count settings.rateLimitPerMinute)
    (r : Request) : (s.respond r).2 = ((start settings).respond r).2 := by
  obtain ⟨response, -, hall⟩ := settles_dispatch settings .core r
  have hsettled : Answer.Settles (dispatch settings .core r) (· = response) := ⟨response, rfl, hall⟩
  rw [h.of_settles hn hsettled, (isAfter_start settings).of_settles (Nat.zero_lt_of_lt hn) hsettled]

theorem respondAll_eq_map (h : IsAfter settings .core n s) {rs : List Request}
    (hn : n + rs.length ≤ count settings.rateLimitPerMinute) :
    (s.respondAll rs).2 = rs.map fun r => ((start settings).respond r).2 := by
  induction rs generalizing n s with
  | nil => rfl
  | cons r rs ih =>
      rw [List.length_cons] at hn
      have hrest := ih (h.respond r) (by omega)
      have hfirst := h.respond_eq_alone (by omega) r
      rw [Service.respondAll, List.map_cons, ← hfirst, ← hrest]

end IsAfter

def defaults : Settings where
  port := .ofInt 8080
  logLevel := .info
  logPretty := false
  trustProxy := .hops (.ofInt 0)
  bodyLimit := "512kb"
  queryCacheSize := .ofInt 1000
  queryCacheTtlMs := .ofInt 60000
  maxRecords := .ofInt 10000
  rateLimitPerMinute := .ofInt 300

theorem bodyLimit?_defaults : bodyLimit? defaults.bodyLimit = some 524288 := by decide

theorem count_defaults : count defaults.rateLimitPerMinute = 300 ∧ count defaults.maxRecords = 10000 := by
  decide +kernel

theorem lt_count_defaults {n : Nat} (h : n < 300) : n < count defaults.rateLimitPerMinute := by
  rwa [count_defaults.1]

/-- Within the rate limit no request changes the answer to a later one. -/
theorem respondAll_alone {requests : List Request}
    (h : requests.length ≤ count settings.rateLimitPerMinute) :
    ((start settings).respondAll requests).2 =
      requests.map fun r => ((start settings).respond r).2 :=
  (isAfter_start settings).respondAll_eq_map (by rwa [Nat.zero_add])

theorem respondAll_alone_repeated :
    let ask (text : String) : Request :=
      { path := "/queries/_parse", contentType := some "application/json",
        body := some ("\x7b\x22text\x22:\x22" ++ text ++ "\x22\x7d") }
    let requests := [ask "a is 1", ask "a is", ask "a is 1"]
    requests.length ≤ count defaults.rateLimitPerMinute ∧
      ((start defaults).respondAll requests).2 =
        requests.map fun r => ((start defaults).respond r).2 :=
  have hcount : 3 ≤ count defaults.rateLimitPerMinute := lt_count_defaults (by decide)
  ⟨hcount, respondAll_alone hcount⟩

end RecordSieve.Service
