import Pipelined.ForStd.List
import Pipelined.Spec.Run

/-!
# `_activate_flows` as a sequence of passes

`_activate_flows` makes one pass of `_install_flows_gx` / `_install_flows_gy` per address
family of the request, writes the IPv6 prefix before the IPv6 pass and the tunnel mapping
at the end, and concatenates the passes' results. A pass stops the unit when the downstream
controller is absent, and so does an IPv6 address that is not UTF-8, before the prefix write;
then no later step runs.

`_deactivate_flows` has the same shape, so the shape is said once: `runSteps` runs a list of
passes, store writes and failed decodes, and `runSteps_pieces`, by induction over the steps,
describes every run as a list of pieces, the passes' and the writes' events, up to the first
step that faults.
`activateFlows_pieces` instantiates it: the passes sit at a prefix of the request's families
(all of them when the unit returns), and the result is the passes' results in order. The
activation properties in later files are read off it.

## Key results

- `runSteps_pieces`: the pieces of any run of a unit made of passes and store writes
- `activateFlows_eq_runSteps`: `_activate_flows` is such a unit
- `activateFlows_pieces`: every run of `_activate_flows`, as passes and store writes
-/

namespace Pipelined

/-- A write to the service manager's IPv6 prefix or tunnel stores. -/
def Event.IsStoreWrite : Event → Prop
  | .savePrefix _ _ => True
  | .saveTunnels _ _ => True
  | _ => False

namespace Servicer

open Work

/-! ## Units made of passes and store writes -/

/-- A store write, or, as `none`, one whose address did not decode, which raises
    `UnicodeDecodeError`. -/
def writeStep : Option Event → Work Unit
  | none => throw .unicodeDecodeError
  | some e => emit e

section Steps

variable {π β γ : Type} (pass : IPAddress → Work β) (acc : γ → β → γ)

/-- A unit that runs its steps in order: a pass at an address, whose result `acc` folds into
    the accumulator, or a store write (`writeStep`). -/
def runSteps : List (IPAddress ⊕ Option Event) → γ → Work γ
  | [], r => pure r
  | .inl ip :: steps, r => pass ip >>= fun b => runSteps steps (acc r b)
  | .inr o :: steps, r => writeStep o >>= fun _ => runSteps steps r

/-- A pass's run `r` appended the events up to `t'` and returned `res`, or faulted when `res`
    is `none`. -/
def PassRun (res : Option β) (t' : Trace) : EStateM.Result Fault Trace β → Prop
  | .ok b t'' => res = some b ∧ t'' = t'
  | .error _ t'' => res = none ∧ t'' = t'

variable {pass} {addr : π → IPAddress} {ev : π ⊕ Event → List Event}
  {result : π → Option β} {Good : π → Prop}

/-- When every pass at `ip` is described by a piece `p` at `ip` with events `ev (.inl p)` and
    result `result p`, every run of the steps is a list of pieces: passes at a prefix of the
    steps' addresses, up to the first step that faults, and the writes between them. When the
    unit returns, every step ran, and the accumulator folded in every pass's result. -/
theorem runSteps_pieces (hev : ∀ e, ev (.inr e) = [e])
    (hpass : ∀ ip t, ∃ p, addr p = ip ∧ Good p ∧
      PassRun (result p) (t ++ ev (.inl p)) ((pass ip).run t))
    (steps : List (IPAddress ⊕ Option Event)) (r : γ) (t : Trace) :
    ∃ pieces : List (π ⊕ Event),
      finalTrace ((runSteps pass acc steps r).run t) = t ++ pieces.flatMap ev ∧
      pieces.map (Sum.map addr some) <+: steps ∧
      (∀ p ∈ pieces.filterMap Sum.getLeft?, Good p) ∧
      ∀ r' t', (runSteps pass acc steps r).run t = .ok r' t' →
        pieces.map (Sum.map addr some) = steps ∧
        (∀ p ∈ pieces.filterMap Sum.getLeft?, (result p).isSome) ∧
        r' = ((pieces.filterMap Sum.getLeft?).filterMap result).foldl acc r := by
  induction steps generalizing r t with
  | nil =>
    exact ⟨[], by simp [runSteps, finalTrace], by simp, by simp,
      fun r' t' h => by simp_all [runSteps]⟩
  | cons step steps ih =>
    rcases step with ip | _ | e
    · obtain ⟨p, rfl, hgood, hrun⟩ := hpass ip t
      cases hr : (pass (addr p)).run t with
      | ok b t₁ =>
        -- The pass returned: it is the first piece, and the rest run after it.
        rw [hr] at hrun
        obtain ⟨hres, rfl⟩ := hrun
        obtain ⟨pieces, htr, hpre, hg, hok⟩ := ih (acc r b) (t ++ ev (.inl p))
        refine ⟨.inl p :: pieces, by simp [runSteps, hr, htr], by simpa using hpre,
          by simpa [hgood] using hg, fun r' t' h => ?_⟩
        obtain ⟨h1, h2, h3⟩ := hok r' t' (by simpa [runSteps, hr] using h)
        exact ⟨by simp [h1], by simpa [hres] using h2, by simpa [hres] using h3⟩
      | error f t₁ =>
        -- The pass faulted: it is the last piece.
        rw [hr] at hrun
        obtain ⟨hres, rfl⟩ := hrun
        exact ⟨[.inl p], by simp [runSteps, hr, finalTrace], by simp, by simp [hgood],
          fun r' t' h => by simp [runSteps, hr] at h⟩
    · -- The address did not decode: the unit stops with no further event.
      exact ⟨[], by simp [runSteps, writeStep, finalTrace], by simp, by simp,
        fun r' t' h => by simp [runSteps, writeStep] at h⟩
    · obtain ⟨pieces, htr, hpre, hg, hok⟩ := ih r (t ++ [e])
      refine ⟨.inr e :: pieces, by simp [runSteps, writeStep, htr, hev], by simpa using hpre,
        by simpa using hg, fun r' t' h => ?_⟩
      obtain ⟨h1, h2, h3⟩ := hok r' t' (by simpa [runSteps, writeStep] using h)
      exact ⟨by simp [h1], by simpa using h2, by simpa using h3⟩

/-- A unit whose every pass returns and whose every address decodes returns. -/
theorem runSteps_ok (hpass : ∀ ip t, ∃ b t', (pass ip).run t = .ok b t')
    (steps : List (IPAddress ⊕ Option Event)) (hdec : .inr none ∉ steps) (r : γ) (t : Trace) :
    ∃ r' t', (runSteps pass acc steps r).run t = .ok r' t' := by
  induction steps generalizing r t with
  | nil => exact ⟨r, t, rfl⟩
  | cons step steps ih =>
    rw [List.mem_cons, not_or] at hdec
    rcases step with ip | _ | e
    · obtain ⟨b, t₁, hr⟩ := hpass ip t
      simpa [runSteps, hr] using ih hdec.2 (acc r b) t₁
    · exact absurd rfl hdec.1
    · simpa [runSteps, writeStep] using ih hdec.2 r (t ++ [e])

end Steps

/-! ## `_activate_flows` -/

/-- The addresses a request is processed at, in order: the IPv4 one (also in CWF mode, with
    an empty address), then the IPv6 one. -/
def families (env : Env) (ipAddr : String) (ipv6Addr : List UInt8) : List IPAddress :=
  (if env.setupType = "CWF" ∨ ipAddr ≠ "" then [convertIpv4StrToIpProto ipAddr] else []) ++
    (if ipv6Addr ≠ [] then [convertIpv6BytesToIpProto ipv6Addr] else [])

/-- The write of `_update_ipv6_prefix_store`, or `none` when the address does not decode. -/
def prefixWrite (env : Env) (ipv6Addr : List UInt8) : Option Event :=
  (decodeUtf8 ipv6Addr).map fun ipv6Str =>
    .savePrefix (env.getIpv6InterfaceId ipv6Str) (env.getIpv6Prefix ipv6Str)

/-- An IPv6 address that is absent or UTF-8: `_update_ipv6_prefix_store` does not raise on it. -/
def ipv6Decodes (ipv6Addr : List UInt8) : Bool :=
  ipv6Addr.isEmpty || (decodeUtf8 ipv6Addr).isSome

theorem prefixWrite_isSome {env : Env} {ipv6Addr : List UInt8} (h : ipv6Decodes ipv6Addr)
    (hne : ipv6Addr ≠ []) : (prefixWrite env ipv6Addr).isSome := by
  simpa [ipv6Decodes, prefixWrite, hne] using h

theorem updateIpv6PrefixStore_eq (env : Env) (ipv6Addr : List UInt8) :
    updateIpv6PrefixStore env ipv6Addr = writeStep (prefixWrite env ipv6Addr) := by
  unfold updateIpv6PrefixStore prefixWrite
  cases decodeUtf8 ipv6Addr <;> rfl

/-- The steps of `_activate_flows`: the IPv4 pass, the IPv6 prefix write and the IPv6 pass,
    and the tunnel write, each when the request asks for it. -/
def activationSteps (env : Env) (request : ActivateFlowsRequest) :
    List (IPAddress ⊕ Option Event) :=
  (if env.setupType = "CWF" ∨ request.ipAddr ≠ "" then
    [.inl (convertIpv4StrToIpProto request.ipAddr)] else []) ++
  (if request.ipv6Addr ≠ [] then
    [.inr (prefixWrite env request.ipv6Addr), .inl (convertIpv6BytesToIpProto request.ipv6Addr)]
    else []) ++
  (if request.uplinkTunnel ≠ 0 ∧ request.downlinkTunnel ≠ 0 then
    [.inr (some (.saveTunnels request.uplinkTunnel request.downlinkTunnel))] else [])

theorem activationSteps_passes (env : Env) (request : ActivateFlowsRequest) :
    (activationSteps env request).filterMap Sum.getLeft? =
      families env request.ipAddr request.ipv6Addr := by
  unfold activationSteps families
  split_ifs <;> rfl

theorem isStoreWrite_of_prefixWrite {env : Env} {ipv6Addr : List UInt8} {e : Event}
    (h : prefixWrite env ipv6Addr = some e) : e.IsStoreWrite := by
  simp only [prefixWrite, Option.map_eq_some'] at h
  obtain ⟨_, -, rfl⟩ := h
  trivial

theorem isStoreWrite_of_mem_activationSteps {env : Env} {request : ActivateFlowsRequest}
    {o : Option Event} (he : .inr o ∈ activationSteps env request) : ∀ e ∈ o, e.IsStoreWrite := by
  unfold activationSteps at he
  split_ifs at he <;> simp at he <;> rcases he with rfl | rfl <;>
    first | exact fun _ => isStoreWrite_of_prefixWrite | simp [Event.IsStoreWrite]

theorem none_not_mem_activationSteps {env : Env} {request : ActivateFlowsRequest}
    (h : ipv6Decodes request.ipv6Addr) : .inr none ∉ activationSteps env request := by
  have hw : request.ipv6Addr ≠ [] → none ≠ prefixWrite env request.ipv6Addr := fun hne =>
    (Option.ne_none_iff_isSome.2 (prefixWrite_isSome h hne)).symm
  unfold activationSteps
  split_ifs <;> simp_all

/-- `_activate_flows` runs its steps with `installFlowsFor`, extending the result. -/
theorem activateFlows_eq_runSteps (env : Env) (request : ActivateFlowsRequest) :
    activateFlows env request =
      runSteps (installFlowsFor env request) ActivateFlowsResult.extend
        (activationSteps env request) {} := by
  unfold activateFlows activationSteps installFlowsFor
  rw [updateIpv6PrefixStore_eq]
  split_ifs <;> simp only [runSteps, writeStep, updateTunnelMapStore, List.cons_append,
    List.nil_append, List.append_nil, bind_assoc, pure_bind, bind_pure]

/-- The events of one piece of an `_activate_flows` trace: a pass, or a store write. -/
def pieceEvents (env : Env) (request : ActivateFlowsRequest) : Pass ⊕ Event → List Event
  | .inl p => p.events request env
  | .inr e => [e]

/-- Every run of `_activate_flows` is a list of passes and store writes. The passes are at a
    prefix of the request's families and their answers are the controllers'; when the unit
    returns, there is a pass per family and the result is their results in order. -/
theorem activateFlows_pieces (env : Env) (request : ActivateFlowsRequest) (t : Trace) :
    ∃ pieces : List (Pass ⊕ Event),
      finalTrace ((activateFlows env request).run t) =
        t ++ pieces.flatMap (pieceEvents env request) ∧
      (∀ e, .inr e ∈ pieces → e.IsStoreWrite) ∧
      (pieces.filterMap Sum.getLeft?).map (·.ipAddr) <+:
        families env request.ipAddr request.ipv6Addr ∧
      (∀ p ∈ pieces.filterMap Sum.getLeft?, p.Answered env request) ∧
      ∀ res t', (activateFlows env request).run t = .ok res t' →
        (pieces.filterMap Sum.getLeft?).map (·.ipAddr) =
          families env request.ipAddr request.ipv6Addr ∧
        (∀ p ∈ pieces.filterMap Sum.getLeft?, p.downRes.isSome) ∧
        res = ((pieces.filterMap Sum.getLeft?).map Pass.result).foldl
          ActivateFlowsResult.extend {} := by
  -- A pass is `Pass.ofRun`, which returns its block when the downstream controller answered.
  have hpass : ∀ ip t, ∃ p : Pass, p.ipAddr = ip ∧ p.Answered env request ∧
      PassRun (p.downRes.map p.block) (t ++ pieceEvents env request (.inl p))
        ((installFlowsFor env request ip).run t) := fun ip t =>
    ⟨_, rfl, ofRun_answered env request ip t, by
      rw [run_installFlowsFor]; dsimp only; split <;> simp_all [PassRun, pieceEvents]⟩
  obtain ⟨pieces, htr, hpre, hgood, hok⟩ :=
    runSteps_pieces ActivateFlowsResult.extend (fun _ => rfl) hpass (activationSteps env request)
      {} t
  rw [activateFlows_eq_runSteps]
  refine ⟨pieces, htr, fun e he => isStoreWrite_of_mem_activationSteps
      (hpre.subset (List.mem_map_of_mem (Sum.map Pass.ipAddr some) he)) e rfl, ?_, hgood,
    fun res t' h => ?_⟩
  · have h := hpre.filterMap Sum.getLeft?
    rwa [List.filterMap_getLeft?_map, activationSteps_passes] at h
  · obtain ⟨hall, hsome, rfl⟩ := hok res t' h
    have hfam : (pieces.filterMap Sum.getLeft?).map (·.ipAddr) =
        families env request.ipAddr request.ipv6Addr := by
      rw [← List.filterMap_getLeft?_map, hall, activationSteps_passes]
    refine ⟨hfam, fun p hp => by simpa using hsome p hp, ?_⟩
    -- Every pass answered, so its result is its block.
    rw [← List.filterMap_eq_map]
    congr 1
    exact List.filterMap_congr fun p hp => by
      obtain ⟨d, hd⟩ := Option.isSome_iff_exists.1 (by simpa using hsome p hp)
      simp [hd, Pass.result]

/-- A run of `_activate_flows` that returns made one completed pass per family, each pass's
    events are in the trace, and it returned the passes' results in order. -/
theorem activateFlows_ok_passes {env : Env} {request : ActivateFlowsRequest} {t t' : Trace}
    {res : ActivateFlowsResult} (hok : (activateFlows env request).run t = .ok res t') :
    ∃ passes : List Pass,
      passes.map (·.ipAddr) = families env request.ipAddr request.ipv6Addr ∧
      (∀ p ∈ passes, p.events request env <:+: t' ∧ p.Answered env request ∧ p.downRes.isSome) ∧
      res.staticRuleResults = passes.flatMap (·.result.staticRuleResults) ∧
      res.dynamicRuleResults = passes.flatMap (·.result.dynamicRuleResults) := by
  obtain ⟨pieces, htrace, -, -, hans, hret⟩ := activateFlows_pieces env request t
  obtain ⟨hfam, hsome, rfl⟩ := hret res t' hok
  rw [hok] at htrace
  refine ⟨_, hfam, fun p hp => ⟨?_, hans p hp, hsome p hp⟩,
    by simp [ActivateFlowsResult.foldl_extend_staticRuleResults, List.flatMap_map],
    by simp [ActivateFlowsResult.foldl_extend_dynamicRuleResults, List.flatMap_map]⟩
  -- A pass's events are one piece of the trace.
  have hpiece : Sum.inl p ∈ pieces := by simpa using hp
  rw [show t' = _ from htrace, List.flatMap]
  exact (List.infix_of_mem_flatten (List.mem_map_of_mem (pieceEvents env request) hpiece)).trans
    (List.suffix_append t _).isInfix

/-- `_activate_flows` returns whenever the downstream controller of the request's origin is
    there and the request's IPv6 address is absent or UTF-8. -/
theorem activateFlows_ok_of_enabled {env : Env} {request : ActivateFlowsRequest}
    (hd : env.isAppEnabled (downstreamApp request.requestOrigin))
    (hdec : ipv6Decodes request.ipv6Addr) (t : Trace) :
    ∃ res t', (activateFlows env request).run t = .ok res t' := by
  rw [activateFlows_eq_runSteps]
  exact runSteps_ok _ (fun ip t => ⟨_, _, run_installFlowsFor_of_enabled hd ip t⟩) _
    (none_not_mem_activationSteps hdec) _ t

end Servicer

end Pipelined
