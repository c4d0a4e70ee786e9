import Pipelined.Spec.ActivateFlows

/-!
# `_deactivate_flows` as a sequence of passes

A deactivation pass at an address bumps the versions of the named rules (or, for GX when none
is named, the session wildcard), then calls its controllers one after another: for GX the
enforcement_stats default-flow removal when asked and the enforcement controller's
`deactivate_rules`, for any other origin gy's `deactivate_rules`. The first absent controller
stops the unit, and so does an IPv6 address that is not UTF-8, before the IPv6 pass. `deactivateFlows_pieces` describes every run as passes and store writes, as
`activateFlows_pieces` does for activation.
-/

namespace Pipelined

namespace Servicer

open Work

/-- Calls whose answers the servicer does not read, made one after another: the events of the
    calls up to the first absent controller, where the unit stops. -/
theorem run_forM_invoke (env : Env) (calls : List (App × Op)) (t : Trace) :
    (calls.forM fun c => invoke env c.1 c.2).run t =
      match calls.find? fun c => !env.isAppEnabled c.1 with
      | none => .ok () (t ++ (calls.takeWhile fun c => env.isAppEnabled c.1).map
          fun c => .call c.1 c.2)
      | some c => .error (.absent c.1) (t ++ (calls.takeWhile fun c => env.isAppEnabled c.1).map
          fun c => .call c.1 c.2) := by
  induction calls generalizing t with
  | nil => simp
  | cons c cs ih =>
    by_cases h : env.isAppEnabled c.1 <;> simp [run_invoke, h, ih, List.takeWhile_cons]

/-- The version bumps of a deactivation pass: one per named rule; when none is named, the
    session wildcard for GX and nothing for any other origin. -/
def deactivationBumps (request : DeactivateFlowsRequest) (ipAddress : IPAddress) : List Event :=
  if request.ruleIds ≠ [] then
    request.ruleIds.map fun ruleId => .updateVersion request.sid ipAddress (some ruleId)
  else if request.requestOrigin = .GX then [.updateVersion request.sid ipAddress none]
  else []

/-- The controller calls of a deactivation pass, in order. -/
def deactivationCalls (request : DeactivateFlowsRequest) (ipAddress : IPAddress) :
    List (App × Op) :=
  if request.requestOrigin = .GX then
    (if request.removeDefaultDropFlows then
      [(.enforcementStats, .deactivateDefaultFlow request.sid ipAddress)] else []) ++
      [(.enforcement, .deactivateRules request.sid ipAddress request.ruleIds)]
  else [(.gy, .deactivateRules request.sid ipAddress request.ruleIds)]

/-- The origin dispatch `_deactivate_flows` writes out for each address family. -/
def deactivateFor (env : Env) (request : DeactivateFlowsRequest) (ipAddress : IPAddress) :
    Work Unit :=
  if request.requestOrigin = .GX then deactivateFlowsGx env request ipAddress
  else deactivateFlowsGy env request ipAddress

/-- A deactivation pass: the bumps, then the controller calls. -/
theorem run_deactivateFor (env : Env) (request : DeactivateFlowsRequest) (ipAddress : IPAddress)
    (t : Trace) :
    (deactivateFor env request ipAddress).run t =
      ((deactivationCalls request ipAddress).forM fun c => invoke env c.1 c.2).run
        (t ++ deactivationBumps request ipAddress) := by
  unfold deactivateFor deactivateFlowsGx deactivateFlowsGy deactivationCalls deactivationBumps
  split_ifs <;> simp_all

/-- The events of a deactivation pass: the bumps, then the calls up to the first absent
    controller. -/
def deactivationEvents (env : Env) (request : DeactivateFlowsRequest) (ipAddress : IPAddress) :
    List Event :=
  deactivationBumps request ipAddress ++
    ((deactivationCalls request ipAddress).takeWhile fun c => env.isAppEnabled c.1).map
      fun c => .call c.1 c.2

/-- The controllers a deactivation pass calls, in order; they depend on the request, not on
    the address. -/
def deactivationApps (request : DeactivateFlowsRequest) : List App :=
  if request.requestOrigin = .GX then
    (if request.removeDefaultDropFlows then [.enforcementStats] else []) ++ [.enforcement]
  else [.gy]

theorem map_fst_deactivationCalls (request : DeactivateFlowsRequest) (ipAddress : IPAddress) :
    (deactivationCalls request ipAddress).map (·.1) = deactivationApps request := by
  unfold deactivationCalls deactivationApps
  split_ifs <;> rfl

/-- Whether every controller a deactivation pass calls is there. -/
def deactivationReady (env : Env) (request : DeactivateFlowsRequest) : Bool :=
  (deactivationApps request).all env.isAppEnabled

theorem find?_deactivationCalls_isNone (env : Env) (request : DeactivateFlowsRequest)
    (ipAddress : IPAddress) :
    ((deactivationCalls request ipAddress).find? fun c => !env.isAppEnabled c.1).isNone =
      deactivationReady env request := by
  rw [deactivationReady, ← map_fst_deactivationCalls request ipAddress]
  induction deactivationCalls request ipAddress with
  | nil => rfl
  | cons c l ih => cases h : env.isAppEnabled c.1 <;> simp [h, ih]

theorem run_deactivateFor_of_ready {env : Env} {request : DeactivateFlowsRequest}
    (h : deactivationReady env request) (ipAddress : IPAddress) (t : Trace) :
    (deactivateFor env request ipAddress).run t =
      .ok () (t ++ deactivationEvents env request ipAddress) := by
  rw [← find?_deactivationCalls_isNone env request ipAddress, Option.isNone_iff_eq_none] at h
  rw [run_deactivateFor, run_forM_invoke, h, deactivationEvents, List.append_assoc]

theorem run_deactivateFor_of_not_ready {env : Env} {request : DeactivateFlowsRequest}
    (h : deactivationReady env request = false) (ipAddress : IPAddress) (t : Trace) :
    ∃ f, (deactivateFor env request ipAddress).run t =
      .error f (t ++ deactivationEvents env request ipAddress) := by
  rw [← find?_deactivationCalls_isNone env request ipAddress, Option.isNone_eq_false_iff,
    Option.isSome_iff_exists] at h
  obtain ⟨c, hc⟩ := h
  rw [run_deactivateFor, run_forM_invoke, hc, deactivationEvents, List.append_assoc]
  exact ⟨_, rfl⟩

/-- The steps of `_deactivate_flows`: the IPv4 pass, then the IPv6 prefix write and the IPv6
    pass, each when the request asks for it. -/
def deactivationSteps (env : Env) (request : DeactivateFlowsRequest) :
    List (IPAddress ⊕ Option Event) :=
  (if env.setupType = "CWF" ∨ request.ipAddr ≠ "" then
    [.inl (convertIpv4StrToIpProto request.ipAddr)] else []) ++
  (if request.ipv6Addr ≠ [] then
    [.inr (prefixWrite env request.ipv6Addr), .inl (convertIpv6BytesToIpProto request.ipv6Addr)]
    else [])

theorem deactivationSteps_passes (env : Env) (request : DeactivateFlowsRequest) :
    (deactivationSteps env request).filterMap Sum.getLeft? =
      families env request.ipAddr request.ipv6Addr := by
  unfold deactivationSteps families
  split_ifs <;> rfl

theorem isStoreWrite_of_mem_deactivationSteps {env : Env} {request : DeactivateFlowsRequest}
    {o : Option Event} (he : .inr o ∈ deactivationSteps env request) :
    ∀ e ∈ o, e.IsStoreWrite := by
  unfold deactivationSteps at he
  split_ifs at he <;> simp at he <;> subst he <;> exact fun _ => isStoreWrite_of_prefixWrite

/-- `_deactivate_flows` runs its steps with `deactivateFor`. -/
theorem deactivateFlows_eq_runSteps (env : Env) (request : DeactivateFlowsRequest) :
    deactivateFlows env request =
      runSteps (deactivateFor env request) (fun _ _ => ()) (deactivationSteps env request) () := by
  unfold deactivateFlows deactivationSteps deactivateFor
  rw [updateIpv6PrefixStore_eq]
  split_ifs <;> simp [runSteps]

/-- The events of one piece of a `_deactivate_flows` trace: a pass, or a store write. -/
def deactivationPieceEvents (env : Env) (request : DeactivateFlowsRequest) :
    IPAddress ⊕ Event → List Event
  | .inl ipAddress => deactivationEvents env request ipAddress
  | .inr e => [e]

/-- Every run of `_deactivate_flows` is a list of passes and store writes; the passes are at
    a prefix of the request's families, all of them when the unit returns. -/
theorem deactivateFlows_pieces (env : Env) (request : DeactivateFlowsRequest) (t : Trace) :
    ∃ pieces : List (IPAddress ⊕ Event),
      finalTrace ((deactivateFlows env request).run t) =
        t ++ pieces.flatMap (deactivationPieceEvents env request) ∧
      (∀ e, .inr e ∈ pieces → e.IsStoreWrite) ∧
      pieces.filterMap Sum.getLeft? <+: families env request.ipAddr request.ipv6Addr ∧
      ∀ t', (deactivateFlows env request).run t = .ok () t' →
        pieces.filterMap Sum.getLeft? = families env request.ipAddr request.ipv6Addr := by
  -- A pass returns when every controller it calls is there, and faults otherwise.
  have hpass : ∀ ip t, ∃ p : IPAddress, id p = ip ∧ True ∧
      PassRun (if deactivationReady env request then some () else none)
        (t ++ deactivationPieceEvents env request (.inl p)) ((deactivateFor env request ip).run t) := by
    intro ip t
    refine ⟨ip, rfl, trivial, ?_⟩
    cases hd : deactivationReady env request
    · obtain ⟨f, hf⟩ := run_deactivateFor_of_not_ready hd ip t
      simp [hf, PassRun, deactivationPieceEvents]
    · simp [run_deactivateFor_of_ready hd, PassRun, deactivationPieceEvents]
  obtain ⟨pieces, htr, hpre, -, hok⟩ :=
    runSteps_pieces (fun _ _ => ()) (fun _ => rfl) hpass (deactivationSteps env request) () t
  rw [deactivateFlows_eq_runSteps]
  refine ⟨pieces, htr, fun e he => isStoreWrite_of_mem_deactivationSteps
      (hpre.subset (List.mem_map_of_mem (Sum.map id some) he)) e rfl, ?_, fun t' h => ?_⟩
  · have h := hpre.filterMap Sum.getLeft?
    rwa [List.filterMap_getLeft?_map, List.map_id, deactivationSteps_passes] at h
  · rw [← List.map_id (pieces.filterMap _), ← List.filterMap_getLeft?_map id some,
      (hok () t' h).1, deactivationSteps_passes]

end Servicer

end Pipelined
