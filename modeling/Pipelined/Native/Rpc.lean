import Pipelined.Native.Servicer

/-!
# The RPC handlers of `PipelinedRpcServicer`

A gRPC handler runs on one of the server's threads. It checks that its app is enabled and its
arguments are valid, may check the restart epoch on controllers, posts units of work to the
event loop with `call_soon_threadsafe`, and either answers at once or blocks on the future its
unit completes. Each handler is a `Program`: the steps its thread takes. The checks that read
only the deployment and the request (`is_app_enabled`, the MAC address length) are evaluated
when the program is built; the epoch checks call a controller and are steps of their own.

A unit posted with a controller's bound method (`self._dpi_app.add_classify_flow`, …) is
`invoke` of that method; each such post is guarded by `is_app_enabled` of the same app, so the
attribute lookup the handler's thread makes cannot fail.
-/

namespace Pipelined

/-- The gRPC status codes the servicer sets on a call it rejects. -/
inductive StatusCode where
  | UNAVAILABLE
  | INVALID_ARGUMENT
  deriving DecidableEq, Repr

/-- What a handler answers. A rejected call answers `None` after `context.set_code` and
    `context.set_details`: that is `error`. -/
inductive Reply where
  | setupFlowsResult (res : SetupFlowsResult)
  | activateFlowsResult (res : ActivateFlowsResult)
  | deactivateFlowsResult
  | flowResponse
  /-- The `RuleRecordTable` enforcement_stats sets on the future of `get_policy_usage`. -/
  | ruleRecordTable
  | allTableAssignments (tableAssignments : List TableAssignment)
  | error (code : StatusCode) (details : String)
  deriving DecidableEq, Repr

/-- The steps of a handler's thread. -/
inductive Program where
  /-- `return` the answer. -/
  | reply (r : Reply)
  /-- `ret = <controller>.check_setup_request_epoch(epoch)`; `if ret is not None: return
      SetupFlowsResult(result=ret)`; else go on with `k`. -/
  | checkEpoch (app : App) (epoch : Nat) (k : Program)
  /-- `self._loop.call_soon_threadsafe(unit)`, not waited for; then `k`. -/
  | post (unit : Work Unit) (k : Program)
  /-- `self._loop.call_soon_threadsafe(unit, fut)`; `return fut.result()`. -/
  | await (unit : Work Reply)

namespace Handler

open Work

variable (env : Env)

/-- The gating that starts every handler but `SetupDefaultControllers`, `UpdateIPFIXFlow` and
    `GetAllTableAssignments`: `UNAVAILABLE`, `Service not enabled!`, when `app` is disabled. -/
def requireApp (app : App) (k : Program) : Program :=
  if env.isAppEnabled app then k else .reply (.error .UNAVAILABLE "Service not enabled!")

/-- The MAC address check of `AddUEMacFlow` and `DeleteUEMacFlow`: 12 hex characters and 5
    colons. -/
def requireMacAddr (request : UEMacFlowRequest) (k : Program) : Program :=
  if request.macAddr.length ≠ 17 then
    .reply (.error .INVALID_ARGUMENT "Invalid UE MAC address provided")
  else k

/-- A post made only when `app` is enabled. -/
def postIf (app : App) (unit : Work Unit) (k : Program) : Program :=
  if env.isAppEnabled app then .post unit k else k

/-- `SetupDefaultControllers`: no gating; the inout controller's epoch check. -/
def setupDefaultControllers (request : SetupDefaultRequest) : Program :=
  .checkEpoch .inout request.epoch <|
    .await (.setupFlowsResult <$> Servicer.setupDefaultControllers env)

/-- `SetupPolicyFlows`: gated on the enforcement app; the epoch checks of gy, enforcement and
    enforcement_stats, in that order. -/
def setupPolicyFlows (request : SetupPolicyRequest) : Program :=
  requireApp env .enforcement <|
    .checkEpoch .gy request.epoch <| .checkEpoch .enforcement request.epoch <|
      .checkEpoch .enforcementStats request.epoch <|
        .await (.setupFlowsResult <$> Servicer.setupFlows env request)

/-- `ActivateFlows`. -/
def activateFlows (request : ActivateFlowsRequest) : Program :=
  requireApp env .enforcement <| .await (.activateFlowsResult <$> Servicer.activateFlows env request)

/-- `DeactivateFlows`: answers without waiting for the unit. -/
def deactivateFlows (request : DeactivateFlowsRequest) : Program :=
  requireApp env .enforcement <|
    .post (Servicer.deactivateFlows env request) (.reply .deactivateFlowsResult)

/-- `GetPolicyUsage`. -/
def getPolicyUsage : Program :=
  requireApp env .enforcementStats <|
    .await (do invoke env .enforcementStats .getPolicyUsage; pure .ruleRecordTable)

/-- `UpdateIPFIXFlow`: posts the sample flow only when IPFIX is enabled, and answers either
    way. -/
def updateIPFIXFlow (request : UEMacFlowRequest) : Program :=
  postIf env .ipfix (invoke env .ipfix (.addUeSampleFlow request.sid request.msisdn
    request.apMacAddr request.apName request.pdpStartTime)) (.reply .flowResponse)

/-- `CreateFlow`. -/
def createFlow (request : FlowRequest) : Program :=
  requireApp env .dpi <| .post (invoke env .dpi (.addClassifyFlow request.flowMatch request.state
    request.appName request.serviceType)) (.reply .flowResponse)

/-- `RemoveFlow`. -/
def removeFlow (request : FlowRequest) : Program :=
  requireApp env .dpi <|
    .post (invoke env .dpi (.removeClassifyFlow request.flowMatch)) (.reply .flowResponse)

/-- `UpdateFlowStats`: gated, and does nothing else. -/
def updateFlowStats : Program :=
  requireApp env .dpi <| .reply .flowResponse

/-- `SetupUEMacFlows`. -/
def setupUEMacFlows (request : SetupUEMacRequest) : Program :=
  requireApp env .ueMac <| .checkEpoch .ueMac request.epoch <|
    .await (.setupFlowsResult <$> Servicer.setupUeMac env request)

/-- `AddUEMacFlow`. -/
def addUEMacFlow (request : UEMacFlowRequest) : Program :=
  requireApp env .ueMac <| requireMacAddr request <|
    .await (Function.const _ .flowResponse <$> Servicer.addUeMacFlow env request)

/-- `DeleteUEMacFlow`: up to five units, each posted on its own. -/
def deleteUEMacFlow (request : UEMacFlowRequest) : Program :=
  requireApp env .ueMac <| requireMacAddr request <|
    .post (invoke env .ueMac (.deleteUeMacFlow request.sid request.macAddr)) <|
    postIf env .checkQuota (invoke env .checkQuota (.removeSubscriberFlow request.sid)) <|
    postIf env .vlanLearn (invoke env .vlanLearn (.removeSubscriberFlow request.sid)) <|
    postIf env .tunnelLearn (invoke env .tunnelLearn (.removeSubscriberFlow request.macAddr)) <|
    postIf env .ipfix (invoke env .ipfix (.deleteUeSampleFlow request.sid)) <|
    .reply .flowResponse

/-- `SetupQuotaFlows`. -/
def setupQuotaFlows (request : SetupQuotaRequest) : Program :=
  requireApp env .checkQuota <| .checkEpoch .checkQuota request.epoch <|
    .await (.setupFlowsResult <$> Servicer.setupQuota env request)

/-- `UpdateSubscriberQuotaState`. -/
def updateSubscriberQuotaState (request : UpdateSubscriberQuotaStateRequest) : Program :=
  requireApp env .checkQuota <| .post (invoke env .checkQuota
    (.updateSubscriberQuotaState request.updates)) (.reply .flowResponse)

/-- `GetAllTableAssignments`: answered on the handler's thread. -/
def getAllTableAssignments : Program :=
  .reply (.allTableAssignments env.allTableAssignments)

end Handler

/-- A call of one of the servicer's RPCs, with its request. -/
inductive Rpc where
  | setupDefaultControllers (request : SetupDefaultRequest)
  | setupPolicyFlows (request : SetupPolicyRequest)
  | activateFlows (request : ActivateFlowsRequest)
  | deactivateFlows (request : DeactivateFlowsRequest)
  | getPolicyUsage
  | updateIPFIXFlow (request : UEMacFlowRequest)
  | createFlow (request : FlowRequest)
  | removeFlow (request : FlowRequest)
  | updateFlowStats (request : FlowRequest)
  | setupUEMacFlows (request : SetupUEMacRequest)
  | addUEMacFlow (request : UEMacFlowRequest)
  | deleteUEMacFlow (request : UEMacFlowRequest)
  | setupQuotaFlows (request : SetupQuotaRequest)
  | updateSubscriberQuotaState (request : UpdateSubscriberQuotaStateRequest)
  | getAllTableAssignments
  deriving DecidableEq, Repr

/-- The handler gRPC runs for a call. -/
def Rpc.handle (env : Env) : Rpc → Program
  | .setupDefaultControllers request => Handler.setupDefaultControllers env request
  | .setupPolicyFlows request => Handler.setupPolicyFlows env request
  | .activateFlows request => Handler.activateFlows env request
  | .deactivateFlows request => Handler.deactivateFlows env request
  | .getPolicyUsage => Handler.getPolicyUsage env
  | .updateIPFIXFlow request => Handler.updateIPFIXFlow env request
  | .createFlow request => Handler.createFlow env request
  | .removeFlow request => Handler.removeFlow env request
  | .updateFlowStats _ => Handler.updateFlowStats env
  | .setupUEMacFlows request => Handler.setupUEMacFlows env request
  | .addUEMacFlow request => Handler.addUEMacFlow env request
  | .deleteUEMacFlow request => Handler.deleteUEMacFlow env request
  | .setupQuotaFlows request => Handler.setupQuotaFlows env request
  | .updateSubscriberQuotaState request => Handler.updateSubscriberQuotaState env request
  | .getAllTableAssignments => Handler.getAllTableAssignments env

-- The equations of `Rpc.handle`, one per RPC, and the handlers' bodies: `simp` unfolds the
-- handler of a call of a given RPC.
attribute [simp] Rpc.handle.eq_1 Rpc.handle.eq_2 Rpc.handle.eq_3 Rpc.handle.eq_4
  Rpc.handle.eq_5 Rpc.handle.eq_6 Rpc.handle.eq_7 Rpc.handle.eq_8 Rpc.handle.eq_9
  Rpc.handle.eq_10 Rpc.handle.eq_11 Rpc.handle.eq_12 Rpc.handle.eq_13 Rpc.handle.eq_14
  Rpc.handle.eq_15

attribute [simp] Handler.setupDefaultControllers Handler.setupPolicyFlows
  Handler.activateFlows Handler.deactivateFlows Handler.getPolicyUsage Handler.updateIPFIXFlow
  Handler.createFlow Handler.removeFlow Handler.updateFlowStats Handler.setupUEMacFlows
  Handler.addUEMacFlow Handler.deleteUEMacFlow Handler.setupQuotaFlows
  Handler.updateSubscriberQuotaState Handler.getAllTableAssignments

/-- The app whose `is_app_enabled` gates the handler, for the handlers that are gated. -/
def Rpc.gate : Rpc → Option App
  | .setupPolicyFlows _ | .activateFlows _ | .deactivateFlows _ => some .enforcement
  | .getPolicyUsage => some .enforcementStats
  | .createFlow _ | .removeFlow _ | .updateFlowStats _ => some .dpi
  | .setupUEMacFlows _ | .addUEMacFlow _ | .deleteUEMacFlow _ => some .ueMac
  | .setupQuotaFlows _ | .updateSubscriberQuotaState _ => some .checkQuota
  | .setupDefaultControllers _ | .updateIPFIXFlow _ | .getAllTableAssignments => none

end Pipelined
