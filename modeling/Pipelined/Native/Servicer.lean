import Pipelined.Native.Work

/-!
# The event-loop side of `PipelinedRpcServicer`

The methods the servicer posts to the event loop (`_setup_flows`, `_activate_flows`,
`_deactivate_flows` and the methods they call), and the module-level helpers that filter and
report rule results. Each is a `Work` computation written in the order of the source.

`_install_flows_gx` and `_install_flows_gy` differ only in the downstream activation they
call, so both are `installFlows` applied to it. The two `_report_*_failures` helpers differ
only in their counter, so both are `reportFailures` applied to it.
-/

namespace Pipelined

namespace Servicer

open Work

/-! ## Rule results -/

/-- `_retrieve_failed_results`: the FAILURE results, static and dynamic. -/
def retrieveFailedResults (activateFlowResult : ActivateFlowsResult) :
    List RuleModResult × List RuleModResult :=
  (activateFlowResult.staticRuleResults.filter (·.result = .FAILURE),
    activateFlowResult.dynamicRuleResults.filter (·.result = .FAILURE))

/-- `_filter_failed_static_rule_ids`: the requested static rule ids that did not fail. -/
def filterFailedStaticRuleIds (request : ActivateFlowsRequest)
    (failedResults : List RuleModResult) : List String :=
  let failedStaticRuleIds := failedResults.map (·.ruleId)
  request.ruleIds.filter (· ∉ failedStaticRuleIds)

/-- `_filter_failed_dynamic_rules`: the requested dynamic rules that did not fail. -/
def filterFailedDynamicRules (request : ActivateFlowsRequest)
    (failedResults : List RuleModResult) : List PolicyRule :=
  let failedDynamicRuleIds := failedResults.map (·.ruleId)
  request.dynamicRules.filter (·.id ∉ failedDynamicRuleIds)

/-- The two `_report_*_failures` helpers: one increment of `counter`, labelled with the rule
    and the subscriber, per result (static, then dynamic) that is not SUCCESS. -/
def reportFailures (counter : Counter) (activateFlowResult : ActivateFlowsResult)
    (imsi : String) : Work Unit :=
  (activateFlowResult.staticRuleResults ++ activateFlowResult.dynamicRuleResults).forM
    fun result => if result.result = .SUCCESS then pure () else emit (.inc counter result.ruleId imsi)

/-- `_report_enforcement_failures`. -/
def reportEnforcementFailures : ActivateFlowsResult → String → Work Unit :=
  reportFailures .ENFORCEMENT_RULE_INSTALL_FAIL

/-- `_report_enforcement_stats_failures`. -/
def reportEnforcementStatsFailures : ActivateFlowsResult → String → Work Unit :=
  reportFailures .ENFORCEMENT_STATS_RULE_INSTALL_FAIL

/-! ## Activation -/

/-- `_update_version`: bump the version of every requested static and dynamic rule. -/
def updateVersion (request : ActivateFlowsRequest) (ipv4 : IPAddress) : Work Unit := do
  request.ruleIds.forM fun ruleId => emit (.updateVersion request.sid ipv4 (some ruleId))
  request.dynamicRules.forM fun rule => emit (.updateVersion request.sid ipv4 (some rule.id))

/-- `_activate_rules_in_enforcement_stats`: skipped, with an empty result, when the app is
    disabled. -/
def activateRulesInEnforcementStats (env : Env) (call : RulesCall) : Work ActivateFlowsResult :=
  if !env.isAppEnabled .enforcementStats then pure {}
  else do
    let enforcementStatsRes ← activateRules env .enforcementStats call
    reportEnforcementStatsFailures enforcementStatsRes call.imsi
    pure enforcementStatsRes

/-- `_activate_rules_in_enforcement`. -/
def activateRulesInEnforcement (env : Env) (call : RulesCall) : Work ActivateFlowsResult := do
  let enforcementRes ← activateRules env .enforcement call
  reportEnforcementFailures enforcementRes call.imsi
  pure enforcementRes

/-- `_activate_rules_in_gy`: no metrics are reported (`TODO: add metrics`). -/
def activateRulesInGy (env : Env) (call : RulesCall) : Work ActivateFlowsResult :=
  activateRules env .gy call

/-- The arguments of an `activate_rules` call of a pass of `request` at `ipAddress`. -/
def rulesCall (request : ActivateFlowsRequest) (ipAddress : IPAddress)
    (staticRuleIds : List String) (dynamicRules : List PolicyRule) : RulesCall :=
  ⟨request.sid, request.msisdn, request.uplinkTunnel, ipAddress, request.apnAmbr,
    staticRuleIds, dynamicRules⟩

/-- `_install_flows_gx` and `_install_flows_gy`: bump the versions, install in
    enforcement_stats, drop the rules that failed there, install the rest downstream, and
    report the stats-stage failures with the downstream results. -/
def installFlows (env : Env) (activateDownstream : RulesCall → Work ActivateFlowsResult)
    (request : ActivateFlowsRequest) (ipAddress : IPAddress) : Work ActivateFlowsResult := do
  updateVersion request ipAddress
  let enforcementStatsRes ← activateRulesInEnforcementStats env
    (rulesCall request ipAddress request.ruleIds request.dynamicRules)
  let (failedStaticRuleResults, failedDynamicRuleResults) :=
    retrieveFailedResults enforcementStatsRes
  let staticRuleIds := filterFailedStaticRuleIds request failedStaticRuleResults
  let dynamicRules := filterFailedDynamicRules request failedDynamicRuleResults
  let res ← activateDownstream (rulesCall request ipAddress staticRuleIds dynamicRules)
  pure { staticRuleResults := res.staticRuleResults ++ failedStaticRuleResults
         dynamicRuleResults := res.dynamicRuleResults ++ failedDynamicRuleResults }

/-- `_install_flows_gx`: downstream is the enforcement controller. -/
def installFlowsGx (env : Env) : ActivateFlowsRequest → IPAddress → Work ActivateFlowsResult :=
  installFlows env (activateRulesInEnforcement env)

/-- `_install_flows_gy`: downstream is the gy controller. -/
def installFlowsGy (env : Env) : ActivateFlowsRequest → IPAddress → Work ActivateFlowsResult :=
  installFlows env (activateRulesInGy env)

/-- `_update_ipv6_prefix_store`: decode the address as UTF-8, which raises on bytes that are
    not UTF-8, and save its interface's prefix. -/
def updateIpv6PrefixStore (env : Env) (ipv6Addr : List UInt8) : Work Unit :=
  match decodeUtf8 ipv6Addr with
  | none => throw .unicodeDecodeError
  | some ipv6Str =>
    emit (.savePrefix (env.getIpv6InterfaceId ipv6Str) (env.getIpv6Prefix ipv6Str))

/-- `_update_tunnel_map_store`. -/
def updateTunnelMapStore (uplinkTunnel downlinkTunnel : Nat) : Work Unit :=
  emit (.saveTunnels uplinkTunnel downlinkTunnel)

/-- `_activate_flows`: an IPv4 pass (also in CWF mode, where no address is passed), an
    IPv6 pass, then the tunnel mapping; `ret` accumulates the passes' results. -/
def activateFlows (env : Env) (request : ActivateFlowsRequest) : Work ActivateFlowsResult := do
  let ret : ActivateFlowsResult := {}
  let ret ← if env.setupType = "CWF" ∨ request.ipAddr ≠ "" then do
      let ipv4 := convertIpv4StrToIpProto request.ipAddr
      let retIpv4 ← if request.requestOrigin = .GX then installFlowsGx env request ipv4
        else installFlowsGy env request ipv4
      pure (ret.extend retIpv4)
    else pure ret
  let ret ← if request.ipv6Addr ≠ [] then do
      let ipv6 := convertIpv6BytesToIpProto request.ipv6Addr
      updateIpv6PrefixStore env request.ipv6Addr
      let retIpv6 ← if request.requestOrigin = .GX then installFlowsGx env request ipv6
        else installFlowsGy env request ipv6
      pure (ret.extend retIpv6)
    else pure ret
  let _ ← if request.uplinkTunnel ≠ 0 ∧ request.downlinkTunnel ≠ 0 then
      updateTunnelMapStore request.uplinkTunnel request.downlinkTunnel
    else pure ()
  pure ret

/-! ## Deactivation -/

/-- `_deactivate_flows_gx`: bump the named rules, or the session wildcard when none is
    named; remove the default flow from enforcement_stats when asked; then remove the rules
    from the enforcement controller. -/
def deactivateFlowsGx (env : Env) (request : DeactivateFlowsRequest) (ipAddress : IPAddress) :
    Work Unit := do
  if request.ruleIds ≠ [] then
    request.ruleIds.forM fun ruleId => emit (.updateVersion request.sid ipAddress (some ruleId))
  else
    emit (.updateVersion request.sid ipAddress none)
  if request.removeDefaultDropFlows then
    invoke env .enforcementStats (.deactivateDefaultFlow request.sid ipAddress)
  invoke env .enforcement (.deactivateRules request.sid ipAddress request.ruleIds)

/-- `_deactivate_flows_gy`: bump only the named rules, then remove them from gy. -/
def deactivateFlowsGy (env : Env) (request : DeactivateFlowsRequest) (ipAddress : IPAddress) :
    Work Unit := do
  if request.ruleIds ≠ [] then
    request.ruleIds.forM fun ruleId => emit (.updateVersion request.sid ipAddress (some ruleId))
  invoke env .gy (.deactivateRules request.sid ipAddress request.ruleIds)

/-- `_deactivate_flows`: an IPv4 pass (also in CWF mode), then an IPv6 pass. -/
def deactivateFlows (env : Env) (request : DeactivateFlowsRequest) : Work Unit := do
  let _ ← if env.setupType = "CWF" ∨ request.ipAddr ≠ "" then do
      let ipv4 := convertIpv4StrToIpProto request.ipAddr
      if request.requestOrigin = .GX then deactivateFlowsGx env request ipv4
      else deactivateFlowsGy env request ipv4
    else pure ()
  if request.ipv6Addr ≠ [] then do
    let ipv6 := convertIpv6BytesToIpProto request.ipv6Addr
    updateIpv6PrefixStore env request.ipv6Addr
    if request.requestOrigin = .GX then deactivateFlowsGx env request ipv6
    else deactivateFlowsGy env request ipv6
  else pure ()

/-! ## Restart -/

/-- `_setup_flows`: the GX sub-requests to the enforcement controller, the GY ones to gy, and
    the GX ones again to enforcement_stats; the enforcement controller's result is returned. -/
def setupFlows (env : Env) (request : SetupPolicyRequest) : Work SetupFlowsResult := do
  let gxReqs := request.requests.filter (·.requestOrigin = .GX)
  let gyReqs := request.requests.filter (·.requestOrigin = .GY)
  let enforcementRes ← handleRestart env .enforcement (.policies gxReqs)
  let _ ← handleRestart env .gy (.policies gyReqs)
  let _ ← handleRestart env .enforcementStats (.policies gxReqs)
  pure enforcementRes

/-- `_setup_default_controllers`. -/
def setupDefaultControllers (env : Env) : Work SetupFlowsResult :=
  handleRestart env .inout .unset

/-- `_setup_ue_mac`: restart ue_mac, then add an IPFIX sample flow per UE when IPFIX is on. -/
def setupUeMac (env : Env) (request : SetupUEMacRequest) : Work SetupFlowsResult := do
  let res ← handleRestart env .ueMac (.ueMacs request.requests)
  if env.isAppEnabled .ipfix then
    request.requests.forM fun req =>
      invoke env .ipfix (.addUeSampleFlow req.sid req.msisdn req.apMacAddr req.apName
        req.pdpStartTime)
  pure res

/-- `_add_ue_mac_flow`. -/
def addUeMacFlow (env : Env) (request : UEMacFlowRequest) : Work Unit :=
  invoke env .ueMac (.addUeMacFlow request.sid request.macAddr)

/-- `_setup_quota`. -/
def setupQuota (env : Env) (request : SetupQuotaRequest) : Work SetupFlowsResult :=
  handleRestart env .checkQuota (.quotas request.requests)

end Servicer

end Pipelined
