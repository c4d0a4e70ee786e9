import Mathlib.Data.List.Basic

/-!
# Messages and effects of the pipelined RPC servicer

The request and result messages that `PipelinedRpcServicer`
(`lte/gateway/python/magma/pipelined/rpc_servicer.py`) reads and builds, and the effects it
has on the rest of pipelined: calls on the flow-rule controllers, writes to the service
manager's stores, and metric increments.

Only the fields the servicer reads or forwards are kept. Strings are `String` and the one
bytes field the servicer reads, the IPv6 address, is its list of bytes; an absent scalar field
is its proto default (`""`, `[]` or `0`), which is what the servicer's truth tests see. The
IPv6 address is decoded as UTF-8 before its prefix is stored, so this file also has Python's
UTF-8 decoder. Proto3 enums are open: a field may hold values beyond the ones the servicer names,
which it never tells apart, so `RuleModResult.Result` and `RequestOriginType` carry an
`other` constructor.

Every effect is an `Event`; a run of the servicer is described by the list of events it
appends to the trace (`Pipelined.Native.Work`).
-/

namespace Pipelined

/-- Modelled from the spec: the `RuleModResult.Result` enum of `pipelined.proto`, absent
    from the source. The spec names `SUCCESS` and `FAILURE`; `other` is any further value. -/
inductive RuleModResult.Result where
  | SUCCESS
  | FAILURE
  | other (value : Nat)
  deriving DecidableEq, Repr

/-- One controller's outcome for one rule. -/
structure RuleModResult where
  ruleId : String
  result : RuleModResult.Result
  deriving DecidableEq, Repr

/-- Per-rule outcomes of an activation, static and dynamic rules apart. -/
structure ActivateFlowsResult where
  staticRuleResults : List RuleModResult := []
  dynamicRuleResults : List RuleModResult := []
  deriving DecidableEq, Repr

/-- `ret.static_rule_results.extend(...)` and `ret.dynamic_rule_results.extend(...)`. -/
def ActivateFlowsResult.extend (ret other : ActivateFlowsResult) : ActivateFlowsResult :=
  { staticRuleResults := ret.staticRuleResults ++ other.staticRuleResults
    dynamicRuleResults := ret.dynamicRuleResults ++ other.dynamicRuleResults }

@[simp] theorem ActivateFlowsResult.extend_staticRuleResults (ret other : ActivateFlowsResult) :
    (ret.extend other).staticRuleResults = ret.staticRuleResults ++ other.staticRuleResults := rfl

@[simp] theorem ActivateFlowsResult.extend_dynamicRuleResults (ret other : ActivateFlowsResult) :
    (ret.extend other).dynamicRuleResults = ret.dynamicRuleResults ++ other.dynamicRuleResults :=
  rfl

/-- Folding `extend` over a list of results concatenates their static lists. -/
theorem ActivateFlowsResult.foldl_extend_staticRuleResults (l : List ActivateFlowsResult)
    (acc : ActivateFlowsResult) :
    (l.foldl ActivateFlowsResult.extend acc).staticRuleResults =
      acc.staticRuleResults ++ l.flatMap (·.staticRuleResults) := by
  induction l generalizing acc with
  | nil => simp
  | cons r l ih => simp [ih]

/-- Folding `extend` over a list of results concatenates their dynamic lists. -/
theorem ActivateFlowsResult.foldl_extend_dynamicRuleResults (l : List ActivateFlowsResult)
    (acc : ActivateFlowsResult) :
    (l.foldl ActivateFlowsResult.extend acc).dynamicRuleResults =
      acc.dynamicRuleResults ++ l.flatMap (·.dynamicRuleResults) := by
  induction l generalizing acc with
  | nil => simp
  | cons r l ih => simp [ih]

/-- Modelled from the spec: the `RequestOriginType` enum of `pipelined.proto`, absent from
    the source. `GX` is the accounting-only origin, `GY` the billing-metered one. -/
inductive RequestOriginType where
  | GX
  | GY
  | other (value : Nat)
  deriving DecidableEq, Repr

/-- A dynamic rule: the servicer reads only its `id`; the rest is forwarded untouched. -/
structure PolicyRule where
  id : String
  deriving DecidableEq, Repr

/-- The address family of an `IPAddress`. -/
inductive IPAddress.IPVersion where
  | IPV4
  | IPV6
  deriving DecidableEq, Repr

/-- `mobilityd.IPAddress`. -/
structure IPAddress where
  version : IPAddress.IPVersion
  address : List UInt8
  deriving DecidableEq, Repr

/-- `convert_ipv4_str_to_ip_proto`: an IPv4 address from its dotted string, as its bytes. -/
def convertIpv4StrToIpProto (ipv4 : String) : IPAddress := ⟨.IPV4, ipv4.toUTF8.data.toList⟩

/-- `convert_ipv6_bytes_to_ip_proto`: an IPv6 address from its bytes, as they are. -/
def convertIpv6BytesToIpProto (ipv6 : List UInt8) : IPAddress := ⟨.IPV6, ipv6⟩

/-! ## UTF-8

Python's `bytes.decode('utf-8')` is strict: it accepts well-formed UTF-8 only, so no overlong
form, no surrogate and nothing above `U+10FFFF`, and raises `UnicodeDecodeError` on anything
else. `Utf8.chars` reads one character per step from the table of well-formed sequences:
the leading byte says how many continuation bytes follow, and after `E0`, `ED`, `F0` and `F4`
the second byte's range is narrower. -/

namespace Utf8

/-- The number of continuation bytes a leading byte announces; `none` for a byte that cannot
    start a character (`80`–`C1`, `F5`–`FF`). -/
def tailCount (a : UInt8) : Option Nat :=
  if a < 0x80 then some 0
  else if a < 0xC2 then none
  else if a < 0xE0 then some 1
  else if a < 0xF0 then some 2
  else if a < 0xF5 then some 3
  else none

/-- A continuation byte, `10xxxxxx`. -/
def isTail (b : UInt8) : Bool := 0x80 ≤ b && b < 0xC0

/-- The second byte of a three- or four-byte character: a continuation byte, in a narrower
    range after `E0` and `F0` (no overlong form), `ED` (no surrogate) and `F4` (nothing above
    `U+10FFFF`). -/
def secondFits (a b : UInt8) : Bool :=
  if a = 0xE0 then 0xA0 ≤ b && b < 0xC0
  else if a = 0xED then 0x80 ≤ b && b < 0xA0
  else if a = 0xF0 then 0x90 ≤ b && b < 0xC0
  else if a = 0xF4 then 0x80 ≤ b && b < 0x90
  else isTail b

/-- The six payload bits of a continuation byte. -/
def low6 (b : UInt8) : Nat := b.toNat % 64

/-- The characters of a byte string, or `none` when it is not well-formed UTF-8. -/
def chars : List UInt8 → Option (List Char)
  | [] => some []
  | a :: l =>
    match tailCount a, l with
    | some 0, l => (Char.ofNat a.toNat :: ·) <$> chars l
    | some 1, b :: l =>
      if isTail b then (Char.ofNat (a.toNat % 32 * 64 + low6 b) :: ·) <$> chars l else none
    | some 2, b :: c :: l =>
      if secondFits a b && isTail c then
        (Char.ofNat (a.toNat % 16 * 4096 + low6 b * 64 + low6 c) :: ·) <$> chars l
      else none
    | some 3, b :: c :: d :: l =>
      if secondFits a b && isTail c && isTail d then
        (Char.ofNat (a.toNat % 8 * 262144 + low6 b * 4096 + low6 c * 64 + low6 d) :: ·) <$>
          chars l
      else none
    | _, _ => none

end Utf8

/-- `bytes.decode('utf-8')`: the decoded string, or `none` where Python raises
    `UnicodeDecodeError`. -/
def decodeUtf8 (bytes : List UInt8) : Option String := String.mk <$> Utf8.chars bytes

example : decodeUtf8 [0x66, 0x65, 0x38, 0x30, 0x3A, 0x3A, 0x31] = some "fe80::1" := by decide

example : decodeUtf8 [0xC3, 0xA9] = some "é" := by decide

/-- The raw bytes of `fe80::1`, as `inet_pton` gives them, are not UTF-8. -/
example : decodeUtf8 [0xFE, 0x80, 0, 0, 0, 0, 0, 0, 0, 0, 0, 0, 0, 0, 0, 1] = none := by decide

/-- An overlong `/` and an encoded surrogate are refused. -/
example : decodeUtf8 [0xC0, 0xAF] = none ∧ decodeUtf8 [0xED, 0xA0, 0x80] = none := by decide

/-- `subscriberdb.AggregatedMaximumBitrate`, forwarded to the controllers. -/
structure AggregatedMaximumBitrate where
  maxBandwidthUl : Nat
  maxBandwidthDl : Nat
  deriving DecidableEq, Repr

/-- `ActivateFlowsRequest`; `sid` is `request.sid.id`, `requestOrigin` is
    `request.request_origin.type`. -/
structure ActivateFlowsRequest where
  sid : String
  msisdn : String
  ipAddr : String
  ipv6Addr : List UInt8
  uplinkTunnel : Nat
  downlinkTunnel : Nat
  requestOrigin : RequestOriginType
  ruleIds : List String
  dynamicRules : List PolicyRule
  apnAmbr : AggregatedMaximumBitrate
  deriving DecidableEq, Repr

/-- `DeactivateFlowsRequest`. -/
structure DeactivateFlowsRequest where
  sid : String
  ipAddr : String
  ipv6Addr : List UInt8
  requestOrigin : RequestOriginType
  ruleIds : List String
  removeDefaultDropFlows : Bool
  deriving DecidableEq, Repr

/-- `SetupPolicyRequest`: a snapshot of activations and the restart epoch. -/
structure SetupPolicyRequest where
  requests : List ActivateFlowsRequest
  epoch : Nat
  deriving DecidableEq, Repr

/-- `SetupDefaultRequest`. -/
structure SetupDefaultRequest where
  epoch : Nat
  deriving DecidableEq, Repr

/-- `UEMacFlowRequest`, also the request of `UpdateIPFIXFlow`. -/
structure UEMacFlowRequest where
  sid : String
  macAddr : String
  msisdn : String
  apMacAddr : String
  apName : String
  pdpStartTime : Nat
  deriving DecidableEq, Repr

/-- `SetupUEMacRequest`. -/
structure SetupUEMacRequest where
  requests : List UEMacFlowRequest
  epoch : Nat
  deriving DecidableEq, Repr

/-- `SubscriberQuotaUpdate`: the servicer forwards it untouched. -/
structure SubscriberQuotaUpdate where
  payload : String
  deriving DecidableEq, Repr

/-- `SetupQuotaRequest`. -/
structure SetupQuotaRequest where
  requests : List SubscriberQuotaUpdate
  epoch : Nat
  deriving DecidableEq, Repr

/-- `UpdateSubscriberQuotaStateRequest`. -/
structure UpdateSubscriberQuotaStateRequest where
  updates : List SubscriberQuotaUpdate
  deriving DecidableEq, Repr

/-- `FlowRequest` of the DPI calls; `flowMatch` is the opaque `match` field. -/
structure FlowRequest where
  flowMatch : String
  state : Nat
  appName : String
  serviceType : String
  deriving DecidableEq, Repr

/-- `SetupFlowsResult`, with its outcome code. -/
structure SetupFlowsResult where
  result : Nat
  deriving DecidableEq, Repr

/-- `TableAssignment` of `GetAllTableAssignments`. -/
structure TableAssignment where
  appName : String
  mainTable : Nat
  scratchTables : List Nat
  deriving DecidableEq, Repr

/-! ## Effects -/

/-- The pipelined apps the servicer talks to, by their `APP_NAME`. -/
inductive App where
  | enforcement
  | enforcementStats
  | gy
  | dpi
  | ueMac
  | checkQuota
  | ipfix
  | vlanLearn
  | tunnelLearn
  | inout
  deriving DecidableEq, Repr

/-- The arguments of a controller's `activate_rules` call, in the source's order. -/
structure RulesCall where
  imsi : String
  msisdn : String
  uplinkTunnel : Nat
  ipAddr : IPAddress
  apnAmbr : AggregatedMaximumBitrate
  staticRuleIds : List String
  dynamicRules : List PolicyRule
  deriving DecidableEq, Repr

/-- What `handle_restart` is given: `None`, or one of the setup requests' lists. -/
inductive Snapshot where
  | unset
  | policies (requests : List ActivateFlowsRequest)
  | ueMacs (requests : List UEMacFlowRequest)
  | quotas (requests : List SubscriberQuotaUpdate)
  deriving DecidableEq, Repr

/-- A method called on a controller; answers the servicer reads are recorded with the call. -/
inductive Op where
  | activateRules (call : RulesCall) (res : ActivateFlowsResult)
  | deactivateRules (imsi : String) (ipAddr : IPAddress) (ruleIds : List String)
  | deactivateDefaultFlow (imsi : String) (ipAddr : IPAddress)
  | checkSetupRequestEpoch (epoch : Nat) (accepted : Bool)
  | handleRestart (requests : Snapshot) (res : SetupFlowsResult)
  | getPolicyUsage
  | addUeSampleFlow (imsi msisdn apMacAddr apName : String) (pdpStartTime : Nat)
  | deleteUeSampleFlow (imsi : String)
  | addClassifyFlow (flowMatch : String) (state : Nat) (appName serviceType : String)
  | removeClassifyFlow (flowMatch : String)
  | addUeMacFlow (imsi macAddr : String)
  | deleteUeMacFlow (imsi macAddr : String)
  | removeSubscriberFlow (key : String)
  | updateSubscriberQuotaState (updates : List SubscriberQuotaUpdate)
  deriving DecidableEq, Repr

/-- The two failure counters of `magma.pipelined.metrics`. -/
inductive Counter where
  | ENFORCEMENT_RULE_INSTALL_FAIL
  | ENFORCEMENT_STATS_RULE_INSTALL_FAIL
  deriving DecidableEq, Repr

/-- One effect of the servicer. `updateVersion … none` is the session wildcard. -/
inductive Event where
  | updateVersion (imsi : String) (ipAddr : IPAddress) (ruleId : Option String)
  | savePrefix (interface pre : String)
  | saveTunnels (uplinkTunnel downlinkTunnel : Nat)
  | inc (counter : Counter) (ruleId imsi : String)
  | call (app : App) (op : Op)
  deriving DecidableEq, Repr

end Pipelined
