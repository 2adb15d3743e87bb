import RecordSieve.Log

namespace RecordSieve.Log

def Child.fresh (environment : Environment) (config : Config) (component : String) : Child :=
  ⟨.build environment config, component⟩

def Child.reply (child : Child) : Request → Reply
  | .isLoggable level => .enabled (child.root.isEnabled level)
  | .isOk => .enabled (child.root.isEnabled .ok)
  | .write level message context error =>
      if child.root.isEnabled level then
        .written (((context.map contextProperties).getD (.ok [])).map fun properties =>
          some ⟨child, level, message, properties, error⟩)
      else .written (.ok none)

def Call.config? : Call → Option Config
  | .configure config => some config
  | .getLog _ | .ask _ _ => none

def Call.component? : Call → Option String
  | .getLog component => some component
  | .configure _ | .ask _ _ => none

def lastConfig (past : List Call) : Config := (past.filterMap Call.config?).getLast?.getD {}

def components (past : List Call) : List String := past.filterMap Call.component?

/-- The reply to a call by loggers that are built for this call alone. -/
def freshReply (environment : Environment) (past : List Call) : Call → Reply
  | .configure _ => .done
  | .getLog _ => .logger (components past).length
  | .ask number request =>
      match (components past)[number]? with
      | none => .unknown
      | some component => (Child.fresh environment (lastConfig past) component).reply request

theorem lastConfig_concat (past : List Call) (call : Call) :
    lastConfig (past ++ [call]) = call.config?.getD (lastConfig past) := by
  cases call <;> simp [lastConfig, Call.config?]

theorem components_concat (past : List Call) (call : Call) :
    components (past ++ [call]) = components past ++ call.component?.toList := by
  cases call <;> simp [components, Call.component?]

def Hub.fresh (hub : Hub) (component : String) : Child := .fresh hub.environment hub.config component

def Hub.IsCurrent (hub : Hub) : Prop :=
  ∀ root, hub.root = some root → root = .build hub.environment hub.config

/-- What a logger keeps is from a generation up to the present one, and if it is from the present one, it is
what the logger would derive now. -/
def Logger.IsCurrent (logger : Logger) (hub : Hub) : Prop :=
  ∀ generation child, logger.cached = some (generation, child) → generation ≤ hub.generation ∧
    (generation = hub.generation → child = hub.fresh logger.component)

variable {hub : Hub} {logger : Logger}

theorem Hub.isCurrent_configure (hub : Hub) (config : Config) : (hub.configure config).IsCurrent := by
  intro root h
  cases h

theorem Logger.IsCurrent.configure (h : logger.IsCurrent hub) (config : Config) :
    logger.IsCurrent (hub.configure config) := by
  -- the new generation is above all that a logger keeps, so what it keeps need not be of the new configuration
  intro generation child hcached
  have hle : generation ≤ hub.generation := (h generation child hcached).1
  have hgeneration : (hub.configure config).generation = hub.generation + 1 := rfl
  refine ⟨by omega, fun heq => ?_⟩
  omega

theorem Logger.isCurrent_new (hub : Hub) (component : String) : Logger.IsCurrent { component } hub := by
  intro generation child h
  cases h

theorem Hub.demandRoot_eq (h : hub.IsCurrent) :
    hub.demandRoot = ({ hub with root := some (.build hub.environment hub.config) },
      .build hub.environment hub.config) := by
  rw [demandRoot]
  cases hroot : hub.root with
  | none => rfl
  | some root =>
      have hbuild : root = .build hub.environment hub.config := h root hroot
      rw [← hbuild]
      show (hub, root) = (({ hub with root := some root } : Hub), root)
      rw [← hroot]

theorem Hub.demandChild_eq (hhub : hub.IsCurrent) (hlogger : logger.IsCurrent hub) :
    ∃ root cached, hub.demandChild logger =
        ({ hub with root }, { logger with cached }, hub.fresh logger.component) ∧
      ({ hub with root } : Hub).IsCurrent ∧ ({ logger with cached } : Logger).IsCurrent hub := by
  have hderive : ∃ root cached, demandChild.derive hub logger =
        ({ hub with root }, { logger with cached }, hub.fresh logger.component) ∧
      ({ hub with root } : Hub).IsCurrent ∧ ({ logger with cached } : Logger).IsCurrent hub := by
    refine ⟨some (.build hub.environment hub.config), some (hub.generation, hub.fresh logger.component),
      ?_, ?_, ?_⟩
    · rw [demandChild.derive, demandRoot_eq hhub]
      rfl
    · intro root h
      exact (Option.some.inj h).symm
    · intro generation child h
      obtain ⟨rfl, rfl⟩ := Prod.mk.inj (Option.some.inj h)
      exact ⟨Nat.le_refl _, fun _ => rfl⟩
  rw [demandChild]
  split
  · rename_i generation child hcached
    split
    · rename_i hgeneration
      have hchild : child = hub.fresh logger.component := (hlogger generation child hcached).2 hgeneration
      exact ⟨hub.root, logger.cached, by rw [hchild], hhub, hlogger⟩
    · exact hderive
  · exact hderive

theorem Hub.reply_eq (hhub : hub.IsCurrent) (hlogger : logger.IsCurrent hub) (request : Request) :
    ∃ root cached, hub.reply logger request =
        ({ hub with root }, { logger with cached }, (hub.fresh logger.component).reply request) ∧
      ({ hub with root } : Hub).IsCurrent ∧ ({ logger with cached } : Logger).IsCurrent hub := by
  obtain ⟨root, cached, hdemand, hhub', hlogger'⟩ := demandChild_eq hhub hlogger
  cases request with
  | isLoggable level =>
      exact ⟨root, cached, by rw [reply, isLoggable, hdemand]; rfl, hhub', hlogger'⟩
  | isOk =>
      exact ⟨root, cached, by rw [reply, isOk, isLoggable, hdemand]; rfl, hhub', hlogger'⟩
  | write level message context error =>
      by_cases henabled : (hub.fresh logger.component).root.isEnabled level = true
      · cases hcontext : (context.map contextProperties).getD (.ok []) with
        | error failure =>
            refine ⟨root, cached, ?_, hhub', hlogger'⟩
            simp only [reply, write, hdemand, henabled, if_true, hcontext, Child.reply]
            rfl
        | ok properties =>
            -- the root and the logger are as the first demand left them, so the second finds the same child
            obtain ⟨root', cached', hagain, hhub'', hlogger''⟩ := demandChild_eq hhub' hlogger'
            refine ⟨root', cached', ?_, hhub'', hlogger''⟩
            have hchild : Hub.fresh { hub with root } logger.component = hub.fresh logger.component := rfl
            simp only [reply, write, hdemand, henabled, if_true, hcontext, hagain, hchild, Child.emit,
              Child.reply]
            rfl
      · refine ⟨root, cached, ?_, hhub', hlogger'⟩
        simp only [reply, write, hdemand, henabled, Child.reply]
        rfl

structure Session.IsAfter (s : Session) (environment : Environment) (past : List Call) : Prop where
  environment_eq : s.hub.environment = environment
  config_eq : s.hub.config = lastConfig past
  components_eq : s.loggers.map Logger.component = components past
  hub_isCurrent : s.hub.IsCurrent
  logger_isCurrent : ∀ logger ∈ s.loggers, logger.IsCurrent s.hub

namespace Session

variable {s : Session} {environment : Environment} {past : List Call}

theorem isAfter_start (environment : Environment) : (start environment).IsAfter environment [] where
  environment_eq := rfl
  config_eq := rfl
  components_eq := rfl
  hub_isCurrent := by
    intro root h
    cases h
  logger_isCurrent := List.forall_mem_nil _

theorem IsAfter.fresh_eq (h : s.IsAfter environment past) (component : String) :
    s.hub.fresh component = .fresh environment (lastConfig past) component := by
  rw [Hub.fresh, h.environment_eq, h.config_eq]

theorem IsAfter.configure (h : s.IsAfter environment past) (config : Config) :
    (s.step (.configure config)).1.IsAfter environment (past ++ [.configure config]) where
  environment_eq := h.environment_eq
  config_eq := by
    rw [lastConfig_concat]
    rfl
  components_eq := by
    rw [components_concat, ← h.components_eq]
    exact (List.append_nil _).symm
  hub_isCurrent := s.hub.isCurrent_configure config
  logger_isCurrent logger hlogger := (h.logger_isCurrent logger hlogger).configure config

theorem IsAfter.getLog (h : s.IsAfter environment past) (component : String) :
    (s.step (.getLog component)).1.IsAfter environment (past ++ [.getLog component]) where
  environment_eq := h.environment_eq
  config_eq := by
    rw [lastConfig_concat]
    exact h.config_eq
  components_eq := by
    rw [components_concat, ← h.components_eq]
    exact List.map_append
  hub_isCurrent := h.hub_isCurrent
  logger_isCurrent := by
    intro logger hlogger
    rcases List.mem_append.1 hlogger with hin | hnew
    · exact h.logger_isCurrent logger hin
    · rw [List.mem_singleton.1 hnew]
      exact Logger.isCurrent_new s.hub component

theorem getElem?_components (h : s.IsAfter environment past) (number : Nat) :
    (components past)[number]? = s.loggers[number]?.map Logger.component := by
  rw [← h.components_eq, List.getElem?_map]

theorem IsAfter.ask (h : s.IsAfter environment past) (number : Nat) (request : Request) :
    (s.step (.ask number request)).1.IsAfter environment (past ++ [.ask number request]) ∧
      (s.step (.ask number request)).2 = freshReply environment past (.ask number request) := by
  have hconfig : lastConfig (past ++ [.ask number request]) = lastConfig past := lastConfig_concat _ _
  have hcomponents : components (past ++ [.ask number request]) = components past := by
    rw [components_concat]
    exact List.append_nil _
  rw [step, freshReply, getElem?_components h]
  cases hlogger : s.loggers[number]? with
  | none => exact ⟨⟨h.environment_eq, hconfig ▸ h.config_eq, hcomponents ▸ h.components_eq,
      h.hub_isCurrent, h.logger_isCurrent⟩, rfl⟩
  | some logger =>
      have hin : logger ∈ s.loggers := List.mem_of_getElem? hlogger
      obtain ⟨root, cached, hreply, hhub, hcurrent⟩ :=
        Hub.reply_eq h.hub_isCurrent (h.logger_isCurrent logger hin) request
      simp only [hreply, Option.map_some, h.fresh_eq]
      refine ⟨⟨h.environment_eq, hconfig ▸ h.config_eq, ?_, hhub, ?_⟩, trivial⟩
      · obtain ⟨hlt, rfl⟩ := List.getElem?_eq_some_iff.1 hlogger
        rw [hcomponents, ← h.components_eq, List.map_set, ← List.getElem_map Logger.component]
        exact List.set_getElem_self (by simpa using hlt)
      · intro other hother
        rcases List.mem_or_eq_of_mem_set hother with hother | rfl
        · exact h.logger_isCurrent other hother
        · exact hcurrent

theorem IsAfter.step (h : s.IsAfter environment past) (call : Call) :
    (s.step call).1.IsAfter environment (past ++ [call]) ∧
      (s.step call).2 = freshReply environment past call := by
  cases call with
  | configure config => exact ⟨h.configure config, rfl⟩
  | getLog component =>
      refine ⟨h.getLog component, ?_⟩
      rw [freshReply, ← h.components_eq, List.length_map]
      rfl
  | ask number request => exact h.ask number request

theorem IsAfter.run (h : s.IsAfter environment past) (calls : List Call) (i : Nat) :
    (s.run calls).2[i]? = calls[i]?.map (freshReply environment (past ++ calls.take i)) := by
  induction calls generalizing s past i with
  | nil => rfl
  | cons call rest ih =>
      obtain ⟨hafter, hreply⟩ := h.step call
      cases i with
      | zero =>
          rw [List.take_zero, List.append_nil]
          exact congrArg some hreply
      | succ i =>
          have hrest := ih hafter i
          rw [List.append_assoc, List.singleton_append] at hrest
          exact hrest

/-- Every reply of a session, and with a record the component and the paths that it is written by, is that of
a logger built afresh from the configuration set last. -/
theorem run_replies (environment : Environment) (calls : List Call) (i : Nat) :
    ((start environment).run calls).2[i]? = calls[i]?.map (freshReply environment (calls.take i)) :=
  (isAfter_start environment).run calls i

example : ((start {}).run [.getLog "Test", .configure { level := some "ERROR" }, .ask 0 .isOk,
    .configure { level := some "OK" }, .ask 0 .isOk]).2 =
    [.logger 0, .done, .enabled false, .done, .enabled true] := by rfl

end Session

end RecordSieve.Log
