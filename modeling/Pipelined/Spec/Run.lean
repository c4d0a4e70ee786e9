import Pipelined.Native.Servicer

/-!
# What each loop-side method appends to the trace

One run lemma per method of `Pipelined.Native.Servicer`: the value it returns and the events
it appends, with the controllers' answers read off the `Env` at the trace they saw. Later
files cite these lemmas and never unfold the methods again.

## Key results

- `run_forM_emits`: a `forM` whose body only appends events appends their concatenation
- `run_updateVersion`, `run_reportFailures`: the version bumps and the failure increments
- `run_activateRulesInEnforcementStats`: the stats stage, skipped with `{}` when disabled
- `run_installFlowsFor`: one pass of `_install_flows_gx` / `_install_flows_gy`
-/

namespace Pipelined

namespace Servicer

open Work

variable {α : Type}

/-- A `forM` whose body appends `g a` for each element appends their concatenation. -/
theorem run_forM_emits {l : List α} {f : α → Work Unit} {g : α → List Event}
    (h : ∀ a t, (f a).run t = .ok () (t ++ g a)) (t : Trace) :
    (l.forM f).run t = .ok () (t ++ l.flatMap g) := by
  induction l generalizing t with
  | nil => simp
  | cons a l ih => simp [h, ih]

/-- A `forM` that emits one event per element appends their images. -/
@[simp] theorem run_forM_emit (l : List α) (f : α → Event) (t : Trace) :
    (l.forM fun a => emit (f a)).run t = .ok () (t ++ l.map f) := by
  rw [run_forM_emits (f := fun a => emit (f a)) (g := fun a => [f a]) (fun _ _ => rfl),
    List.map_eq_flatMap]

/-! ## Version bumps and metrics -/

/-- The events of `_update_version`: one bump per static rule id, then one per dynamic rule. -/
def versionBumps (request : ActivateFlowsRequest) (ipAddress : IPAddress) : List Event :=
  request.ruleIds.map (fun ruleId => .updateVersion request.sid ipAddress (some ruleId)) ++
    request.dynamicRules.map (fun rule => .updateVersion request.sid ipAddress (some rule.id))

theorem run_updateVersion (request : ActivateFlowsRequest) (ipAddress : IPAddress)
    (t : Trace) :
    (updateVersion request ipAddress).run t = .ok () (t ++ versionBumps request ipAddress) := by
  simp [updateVersion, versionBumps]

/-- The events of `reportFailures`: one increment per result that is not SUCCESS. -/
def failureIncs (counter : Counter) (res : ActivateFlowsResult) (imsi : String) : List Event :=
  (res.staticRuleResults ++ res.dynamicRuleResults).filterMap fun result =>
    if result.result = .SUCCESS then none else some (.inc counter result.ruleId imsi)

theorem run_reportFailures (counter : Counter) (res : ActivateFlowsResult) (imsi : String)
    (t : Trace) :
    (reportFailures counter res imsi).run t = .ok () (t ++ failureIncs counter res imsi) := by
  rw [reportFailures, run_forM_emits (g := fun result =>
    (if result.result = .SUCCESS then none else some (.inc counter result.ruleId imsi)).toList)]
  · simp [failureIncs, List.filterMap_eq_flatMap_toList]
  · intro result t; split <;> simp

/-! ## The stats stage and the downstream stage -/

theorem run_activateRules (env : Env) (app : App) (call : RulesCall) (t : Trace) :
    (activateRules env app call).run t =
      if env.isAppEnabled app then
        .ok (env.activateRules t app call)
          (t ++ [.call app (.activateRules call (env.activateRules t app call))])
      else .error (.absent app) t := by
  by_cases h : env.isAppEnabled app <;> simp [activateRules, h]

/-- What the stats stage answers: the controller's answer, or `{}` when the app is disabled. -/
def statsAnswer (env : Env) (t : Trace) (call : RulesCall) : ActivateFlowsResult :=
  if env.isAppEnabled .enforcementStats then env.activateRules t .enforcementStats call else {}

/-- The events of the stats stage: the call and its failure increments, or nothing. -/
def statsEvents (env : Env) (t : Trace) (call : RulesCall) : List Event :=
  if env.isAppEnabled .enforcementStats then
    .call .enforcementStats (.activateRules call (statsAnswer env t call)) ::
      failureIncs .ENFORCEMENT_STATS_RULE_INSTALL_FAIL (statsAnswer env t call) call.imsi
  else []

theorem run_activateRulesInEnforcementStats (env : Env) (call : RulesCall) (t : Trace) :
    (activateRulesInEnforcementStats env call).run t =
      .ok (statsAnswer env t call) (t ++ statsEvents env t call) := by
  by_cases h : env.isAppEnabled .enforcementStats <;>
    simp [activateRulesInEnforcementStats, statsAnswer, statsEvents, h, run_activateRules,
      reportEnforcementStatsFailures, run_reportFailures]

/-- Where `_activate_flows` sends a request's rules after the stats stage: the enforcement
    controller for GX origin, gy for any other. -/
def downstreamApp (origin : RequestOriginType) : App :=
  if origin = .GX then .enforcement else .gy

/-- The failure increments of the downstream stage: only the enforcement controller's
    results are reported, for `_activate_rules_in_gy` reports none. -/
def downstreamIncs (origin : RequestOriginType) (res : ActivateFlowsResult) (imsi : String) :
    List Event :=
  if origin = .GX then failureIncs .ENFORCEMENT_RULE_INSTALL_FAIL res imsi else []

/-- The origin dispatch `_activate_flows` writes out for each address family. -/
def installFlowsFor (env : Env) (request : ActivateFlowsRequest) (ipAddress : IPAddress) :
    Work ActivateFlowsResult :=
  if request.requestOrigin = .GX then installFlowsGx env request ipAddress
  else installFlowsGy env request ipAddress

/-- The downstream activation `installFlowsFor` calls. -/
theorem run_downstream (env : Env) (request : ActivateFlowsRequest) (call : RulesCall)
    (t : Trace) :
    (if request.requestOrigin = .GX then activateRulesInEnforcement env call
      else activateRulesInGy env call).run t =
      let app := downstreamApp request.requestOrigin
      if env.isAppEnabled app then
        .ok (env.activateRules t app call)
          (t ++ .call app (.activateRules call (env.activateRules t app call)) ::
            downstreamIncs request.requestOrigin (env.activateRules t app call) call.imsi)
      else .error (.absent app) t := by
  by_cases ho : request.requestOrigin = .GX
  · by_cases h : env.isAppEnabled .enforcement <;>
      simp [ho, h, downstreamApp, downstreamIncs, activateRulesInEnforcement, run_activateRules,
        reportEnforcementFailures, run_reportFailures]
  · by_cases h : env.isAppEnabled .gy <;>
      simp [ho, h, downstreamApp, downstreamIncs, activateRulesInGy, run_activateRules]

/-! ## One pass -/

/-- One pass of `_install_flows_gx` / `_install_flows_gy` at an address: what the stats stage
    answered and, when the downstream controller was there to call, what it answered. -/
structure Pass where
  ipAddr : IPAddress
  statsRes : ActivateFlowsResult
  downRes : Option ActivateFlowsResult

namespace Pass

variable (request : ActivateFlowsRequest) (p : Pass)

/-- The stats stage's call: every requested rule. -/
def statsCall : RulesCall := rulesCall request p.ipAddr request.ruleIds request.dynamicRules

/-- The downstream call: the requested rules the stats stage did not report FAILURE. -/
def downCall : RulesCall :=
  rulesCall request p.ipAddr
    (filterFailedStaticRuleIds request (retrieveFailedResults p.statsRes).1)
    (filterFailedDynamicRules request (retrieveFailedResults p.statsRes).2)

/-- The pass's result: the downstream results, then the stats-stage failures. -/
def block (res : ActivateFlowsResult) : ActivateFlowsResult :=
  { staticRuleResults := res.staticRuleResults ++ (retrieveFailedResults p.statsRes).1
    dynamicRuleResults := res.dynamicRuleResults ++ (retrieveFailedResults p.statsRes).2 }

/-- The stats stage of the pass: its call and failure increments, when the app is enabled. -/
def statsStage (env : Env) : List Event :=
  if env.isAppEnabled .enforcementStats then
    .call .enforcementStats (.activateRules (p.statsCall request) p.statsRes) ::
      failureIncs .ENFORCEMENT_STATS_RULE_INSTALL_FAIL p.statsRes request.sid
  else []

/-- The downstream stage of the pass: its call and failure increments, when the controller
    was there to call. -/
def downStage : List Event :=
  match p.downRes with
  | none => []
  | some res =>
    .call (downstreamApp request.requestOrigin) (.activateRules (p.downCall request) res) ::
      downstreamIncs request.requestOrigin res request.sid

/-- The events of the pass, in order. -/
def events (env : Env) : List Event :=
  versionBumps request p.ipAddr ++ p.statsStage request env ++ p.downStage request

end Pass

/-- The pass `installFlowsFor` makes from trace `t`, with the controllers' answers. -/
def Pass.ofRun (env : Env) (request : ActivateFlowsRequest) (ipAddress : IPAddress)
    (t : Trace) : Pass :=
  let call := rulesCall request ipAddress request.ruleIds request.dynamicRules
  let t₁ := t ++ versionBumps request ipAddress
  let statsRes := statsAnswer env t₁ call
  let p : Pass := ⟨ipAddress, statsRes, none⟩
  let app := downstreamApp request.requestOrigin
  let downRes := env.activateRules (t₁ ++ statsEvents env t₁ call) app (p.downCall request)
  { p with downRes := if env.isAppEnabled app then some downRes else none }

/-- `_install_flows_gx` and `_install_flows_gy` for any downstream activation: the version
    bumps and the stats stage, then the downstream call on the filtered rules. -/
theorem run_installFlows (env : Env) (down : RulesCall → Work ActivateFlowsResult)
    (request : ActivateFlowsRequest) (ipAddress : IPAddress) (t : Trace) :
    (installFlows env down request ipAddress).run t =
      let p := Pass.mk ipAddress (statsAnswer env (t ++ versionBumps request ipAddress)
        (rulesCall request ipAddress request.ruleIds request.dynamicRules)) none
      match (down (p.downCall request)).run (t ++ versionBumps request ipAddress ++
          statsEvents env (t ++ versionBumps request ipAddress)
            (rulesCall request ipAddress request.ruleIds request.dynamicRules)) with
      | .ok res t' => .ok (p.block res) t'
      | .error e t' => .error e t' := by
  simp only [installFlows, run_bind, run_updateVersion, run_activateRulesInEnforcementStats,
    Pass.downCall, Pass.block]
  generalize EStateM.run (down _) _ = r
  cases r <;> rfl

theorem run_installFlowsFor (env : Env) (request : ActivateFlowsRequest)
    (ipAddress : IPAddress) (t : Trace) :
    (installFlowsFor env request ipAddress).run t =
      let p := Pass.ofRun env request ipAddress t
      match p.downRes with
      | some res => .ok (p.block res) (t ++ p.events request env)
      | none => .error (.absent (downstreamApp request.requestOrigin)) (t ++ p.events request env) := by
  have h : installFlowsFor env request ipAddress = installFlows env (fun call =>
      if request.requestOrigin = .GX then activateRulesInEnforcement env call
      else activateRulesInGy env call) request ipAddress := by
    unfold installFlowsFor installFlowsGx installFlowsGy; split <;> simp_all
  rw [h, run_installFlows]
  dsimp only
  rw [run_downstream]
  by_cases hd : env.isAppEnabled (downstreamApp request.requestOrigin) <;>
    simp [hd, Pass.ofRun, Pass.events, Pass.statsStage, Pass.downStage, Pass.statsCall, Pass.block,
      Pass.downCall, statsEvents, rulesCall]

@[simp] theorem Pass.ofRun_ipAddr (env : Env) (request : ActivateFlowsRequest)
    (ipAddress : IPAddress) (t : Trace) : (Pass.ofRun env request ipAddress t).ipAddr = ipAddress :=
  rfl

/-- The downstream controller answers a pass exactly when its app is enabled. -/
@[simp] theorem Pass.ofRun_downRes_isSome (env : Env) (request : ActivateFlowsRequest)
    (ipAddress : IPAddress) (t : Trace) :
    (Pass.ofRun env request ipAddress t).downRes.isSome =
      env.isAppEnabled (downstreamApp request.requestOrigin) := by
  simp only [Pass.ofRun]; split <;> simp_all

/-- The result a pass contributes: its block, or nothing when it stopped at the fault. -/
def Pass.result (p : Pass) : ActivateFlowsResult :=
  match p.downRes with
  | some res => p.block res
  | none => {}

theorem run_installFlowsFor_of_enabled {env : Env} {request : ActivateFlowsRequest}
    (hd : env.isAppEnabled (downstreamApp request.requestOrigin)) (ipAddress : IPAddress)
    (t : Trace) :
    (installFlowsFor env request ipAddress).run t =
      .ok (Pass.ofRun env request ipAddress t).result
        (t ++ (Pass.ofRun env request ipAddress t).events request env) := by
  rw [run_installFlowsFor]
  simp [Pass.result, Pass.ofRun, hd]

theorem run_installFlowsFor_of_disabled {env : Env} {request : ActivateFlowsRequest}
    (hd : env.isAppEnabled (downstreamApp request.requestOrigin) = false) (ipAddress : IPAddress)
    (t : Trace) :
    (installFlowsFor env request ipAddress).run t =
      .error (.absent (downstreamApp request.requestOrigin))
        (t ++ (Pass.ofRun env request ipAddress t).events request env) := by
  rw [run_installFlowsFor]
  simp [Pass.ofRun, hd]

/-- A pass's answers are the controllers': the stats stage's at some trace, and the
    downstream one's, when it was called, at some trace. -/
def Pass.Answered (env : Env) (request : ActivateFlowsRequest) (p : Pass) : Prop :=
  (∃ tr, p.statsRes = statsAnswer env tr (p.statsCall request)) ∧
    ∀ res, p.downRes = some res →
      ∃ tr, res = env.activateRules tr (downstreamApp request.requestOrigin) (p.downCall request)

theorem ofRun_answered (env : Env) (request : ActivateFlowsRequest) (ipAddress : IPAddress)
    (t : Trace) : (Pass.ofRun env request ipAddress t).Answered env request := by
  refine ⟨⟨_, rfl⟩, fun res h => ?_⟩
  simp only [Pass.ofRun] at h
  split at h
  · exact ⟨_, (Option.some.inj h).symm⟩
  · cases h

end Servicer

/-! ## Deployments

They instantiate the hypotheses of the theorems of later files: every app is enabled, and each
controller's `activate_rules` answers every rule it is given with one outcome.
-/

/-- The answer of a controller that gives each rule of `call` the outcome `result`. -/
def RulesCall.answerAll (call : RulesCall) (result : RuleModResult.Result) : ActivateFlowsResult :=
  { staticRuleResults := call.staticRuleIds.map fun ruleId => ⟨ruleId, result⟩
    dynamicRuleResults := call.dynamicRules.map fun rule => ⟨rule.id, result⟩ }

/-- Every app enabled, not in CWF mode; `activate_rules` answers as `answer` says, and every
    restart succeeds. -/
def Env.answering (answer : App → RulesCall → ActivateFlowsResult) : Env where
  isAppEnabled _ := true
  setupType := "LTE"
  activateRules _ := answer
  handleRestart _ _ _ := ⟨0⟩
  fencedResult _ _ := ⟨0⟩
  getIpv6InterfaceId _ := "1"
  getIpv6Prefix _ := "fe80::"
  allTableAssignments := []

/-- Every controller reports each rule it is given SUCCESS. -/
def Env.succeeding : Env := Env.answering fun _ call => call.answerAll .SUCCESS

/-- A dual-stack GX activation of two static rules and one dynamic rule, with tunnels; the
    IPv6 address is the UTF-8 text of `fe80::1`. -/
def dualStackRequest : ActivateFlowsRequest where
  sid := "IMSI001010000000001"
  msisdn := "5100001234"
  ipAddr := "192.168.128.11"
  ipv6Addr := "fe80::1".toUTF8.data.toList
  uplinkTunnel := 1
  downlinkTunnel := 2
  requestOrigin := .GX
  ruleIds := ["rule1", "rule2"]
  dynamicRules := [⟨"dyn1"⟩]
  apnAmbr := ⟨100000, 200000⟩

/-- An IPv4-only activation of one static rule with origin `origin`. -/
def singleRuleRequest (origin : RequestOriginType) : ActivateFlowsRequest where
  sid := "IMSI001010000000001"
  msisdn := "5100001234"
  ipAddr := "192.168.128.11"
  ipv6Addr := []
  uplinkTunnel := 0
  downlinkTunnel := 0
  requestOrigin := origin
  ruleIds := ["rule1"]
  dynamicRules := []
  apnAmbr := ⟨100000, 200000⟩

end Pipelined
