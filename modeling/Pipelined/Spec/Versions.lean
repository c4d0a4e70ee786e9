import Pipelined.Spec.DeactivateFlows

/-!
# Version bumps come before controller calls

`session_rule_version_mapper.update_version` is how pipelined tells a rule's current flows
from stale ones, so a unit bumps the versions of the rules it touches at an address before
any controller acts on them there. Looking at the events of a unit that are about one address
(`atAddress`), activation and deactivation both make their bumps first and then only
controller calls (`BumpsFirst`).

The bumps are those of the rules the request names: static ids then dynamic ids on
activation, `rule_ids` on deactivation. A GX deactivation that names no rule bumps the
session wildcard instead; a deactivation of any other origin that names no rule bumps
nothing, though it still asks gy to deactivate.

## Key results

- `Block.bumpsFirst`: a pass's events, bumps first and all about one address
- `atAddress_pieces`: a unit's events about an address are those of its pass there, if any
- `bumps_precede_controller_calls`: the law for every run of both units
-/

namespace Pipelined

/-- The subscriber address an event is about: a version bump's, or that of a controller call
    on a subscriber's rules. -/
def Event.ipAddr? : Event → Option IPAddress
  | .updateVersion _ ip _ => some ip
  | .call _ (.activateRules c _) => some c.ipAddr
  | .call _ (.deactivateRules _ ip _) => some ip
  | .call _ (.deactivateDefaultFlow _ ip) => some ip
  | _ => none

/-- A call of `session_rule_version_mapper.update_version`. -/
def Event.IsBump : Event → Prop
  | .updateVersion _ _ _ => True
  | _ => False

/-- An event about an address that bumps nothing is a controller call. -/
theorem Event.call_of_ipAddr? {e : Event} {ip : IPAddress} (h : e.ipAddr? = some ip)
    (hb : ¬e.IsBump) : ∃ app op, e = .call app op := by
  cases e <;> simp_all [Event.ipAddr?, Event.IsBump]

namespace Servicer

open Work

/-- The events of `seg` about address `ip`. -/
def atAddress (ip : IPAddress) (seg : List Event) : List Event :=
  seg.filter (·.ipAddr? = some ip)

@[simp] theorem atAddress_append (ip : IPAddress) (a b : List Event) :
    atAddress ip (a ++ b) = atAddress ip a ++ atAddress ip b :=
  List.filter_append a b

/-- About address `ip`, `seg` makes the bumps `bumps` and then only controller calls. -/
def BumpsFirst (ip : IPAddress) (bumps seg : List Event) : Prop :=
  ∃ rest, atAddress ip seg = bumps ++ rest ∧ ∀ e ∈ rest, ∃ app op, e = .call app op

theorem BumpsFirst.append_left {ip : IPAddress} {bumps a b : List Event}
    (ha : atAddress ip a = []) (hb : BumpsFirst ip bumps b) : BumpsFirst ip bumps (a ++ b) := by
  simpa [BumpsFirst, ha] using hb

theorem BumpsFirst.append_right {ip : IPAddress} {bumps a b : List Event}
    (ha : BumpsFirst ip bumps a) (hb : atAddress ip b = []) : BumpsFirst ip bumps (a ++ b) := by
  simpa [BumpsFirst, hb] using ha

/-- The events of one pass at `ip`: the bumps `bumps`, about `ip`, then events that bump
    nothing; every event about an address is about `ip`. -/
structure Block (ip : IPAddress) (bumps seg : List Event) : Prop where
  split : ∃ rest, seg = bumps ++ rest ∧ ∀ e ∈ rest, ¬e.IsBump
  bumps_at : ∀ e ∈ bumps, e.ipAddr? = some ip
  at_ip : ∀ e ∈ seg, e.ipAddr? = none ∨ e.ipAddr? = some ip

theorem Block.bumpsFirst {ip : IPAddress} {bumps seg : List Event} (h : Block ip bumps seg) :
    BumpsFirst ip bumps seg := by
  obtain ⟨rest, rfl, hrest⟩ := h.split
  refine ⟨atAddress ip rest, ?_, fun e he => ?_⟩
  · rw [atAddress_append, atAddress, List.filter_eq_self.2 fun e he => by simp [h.bumps_at e he]]
  · have he' := List.mem_filter.1 he
    exact Event.call_of_ipAddr? (by simpa using he'.2) (hrest e he'.1)

theorem Block.atAddress_of_ne {ip ip' : IPAddress} {bumps seg : List Event}
    (h : Block ip bumps seg) (hne : ip' ≠ ip) : atAddress ip' seg = [] :=
  List.filter_eq_nil_iff.2 fun e he => by rcases h.at_ip e he with h' | h' <;> simp [h', Ne.symm hne]

/-! ## Units made of passes -/

section Pieces

variable {α : Type} {g : α ⊕ Event → List Event} {addr : α → IPAddress}
  {bumps : IPAddress → List Event}

/-- The events of a list of passes and address-free writes about an address: those of the
    pass at that address, when the passes' addresses are distinct. -/
theorem atAddress_pieces {pieces : List (α ⊕ Event)}
    (hblock : ∀ a, .inl a ∈ pieces → Block (addr a) (bumps (addr a)) (g (.inl a)))
    (hwrite : ∀ e, .inr e ∈ pieces → ∀ ip, atAddress ip (g (.inr e)) = [])
    (hnodup : ((pieces.filterMap Sum.getLeft?).map addr).Nodup) (ip : IPAddress) :
    (ip ∉ (pieces.filterMap Sum.getLeft?).map addr → atAddress ip (pieces.flatMap g) = []) ∧
      (ip ∈ (pieces.filterMap Sum.getLeft?).map addr →
        BumpsFirst ip (bumps ip) (pieces.flatMap g)) := by
  induction pieces with
  | nil => simp [atAddress]
  | cons x pieces ih =>
    have ih := ih (fun a ha => hblock a (.tail _ ha)) (fun e he => hwrite e (.tail _ he))
    cases x with
    | inr e =>
      have hw := hwrite e (.head _) ip
      simp only [List.filterMap_cons, Sum.getLeft?_inr, List.flatMap_cons] at hnodup ⊢
      obtain ⟨h1, h2⟩ := ih hnodup
      exact ⟨fun h => by rw [atAddress_append, hw, h1 h]; rfl,
        fun h => BumpsFirst.append_left hw (h2 h)⟩
    | inl a =>
      simp only [List.filterMap_cons, Sum.getLeft?_inl, List.map_cons, List.nodup_cons,
        List.mem_cons, List.flatMap_cons] at hnodup ⊢
      have hb := hblock a (.head _)
      have ih := ih hnodup.2
      by_cases hip : ip = addr a
      · subst hip
        exact ⟨fun h => absurd (.inl rfl) h,
          fun _ => hb.bumpsFirst.append_right (ih.1 hnodup.1)⟩
      · refine ⟨fun h => ?_, fun h => ?_⟩
        · rw [atAddress_append, hb.atAddress_of_ne hip, ih.1 fun h' => h (.inr h')]; rfl
        · exact BumpsFirst.append_left (hb.atAddress_of_ne hip) (ih.2 (h.resolve_left hip))

/-- Each address a unit made of passes acts at is one of `fams`, where it bumps first. -/
theorem bumpsFirst_or_nil_of_pieces {pieces : List (α ⊕ Event)} {fams : List IPAddress}
    (hblock : ∀ a, .inl a ∈ pieces → Block (addr a) (bumps (addr a)) (g (.inl a)))
    (hwrite : ∀ e, .inr e ∈ pieces → ∀ ip, atAddress ip (g (.inr e)) = [])
    (hfirst : (pieces.filterMap Sum.getLeft?).map addr <+: fams) (hfams : fams.Nodup)
    (ip : IPAddress) :
    atAddress ip (pieces.flatMap g) = [] ∨ ip ∈ fams ∧ BumpsFirst ip (bumps ip) (pieces.flatMap g) := by
  have h := atAddress_pieces hblock hwrite (hfams.sublist hfirst.sublist) ip
  by_cases hip : ip ∈ (pieces.filterMap Sum.getLeft?).map addr
  · exact .inr ⟨hfirst.subset hip, h.2 hip⟩
  · exact .inl (h.1 hip)

end Pieces

theorem families_nodup (env : Env) (ipAddr : String) (ipv6Addr : List UInt8) :
    (families env ipAddr ipv6Addr).Nodup := by
  unfold families
  split_ifs <;> simp [convertIpv4StrToIpProto, convertIpv6BytesToIpProto]

theorem atAddress_of_storeWrite {e : Event} (he : e.IsStoreWrite) (ip : IPAddress) :
    atAddress ip [e] = [] := by
  cases e <;> simp_all [atAddress, Event.ipAddr?, Event.IsStoreWrite]

/-! ## Activation -/

/-- Metric increments and `activate_rules` calls at `ip` bump nothing and are about `ip`,
    if about any address. -/
def CallOrInc (ip : IPAddress) (e : Event) : Prop :=
  (∃ app call res, e = .call app (.activateRules call res) ∧ call.ipAddr = ip) ∨
    ∃ counter ruleId imsi, e = .inc counter ruleId imsi

theorem CallOrInc.not_bump_and_at {ip : IPAddress} {e : Event} (h : CallOrInc ip e) :
    ¬e.IsBump ∧ (e.ipAddr? = none ∨ e.ipAddr? = some ip) := by
  rcases h with ⟨app, call, res, rfl, rfl⟩ | ⟨counter, ruleId, imsi, rfl⟩ <;>
    simp [Event.IsBump, Event.ipAddr?]

theorem callOrInc_of_mem_failureIncs {ip : IPAddress} {counter : Counter}
    {res : ActivateFlowsResult} {imsi : String} {e : Event} (he : e ∈ failureIncs counter res imsi) :
    CallOrInc ip e := by
  simp only [failureIncs, List.mem_filterMap] at he
  obtain ⟨x, -, hx⟩ := he
  split at hx
  · cases hx
  · exact .inr ⟨_, _, _, (Option.some.inj hx).symm⟩

theorem callOrInc_of_mem_statsStage {env : Env} {request : ActivateFlowsRequest} {p : Pass}
    {e : Event} (he : e ∈ p.statsStage request env) : CallOrInc p.ipAddr e := by
  unfold Pass.statsStage at he
  split at he
  · rcases List.mem_cons.1 he with rfl | he
    · exact .inl ⟨_, _, _, rfl, rfl⟩
    · exact callOrInc_of_mem_failureIncs he
  · simp at he

theorem callOrInc_of_mem_downStage {request : ActivateFlowsRequest} {p : Pass} {e : Event}
    (he : e ∈ p.downStage request) : CallOrInc p.ipAddr e := by
  unfold Pass.downStage at he
  split at he
  · simp at he
  · rcases List.mem_cons.1 he with rfl | he
    · exact .inl ⟨_, _, _, rfl, rfl⟩
    · unfold downstreamIncs at he
      split at he
      · exact callOrInc_of_mem_failureIncs he
      · simp at he

theorem versionBumps_at {request : ActivateFlowsRequest} {ipAddress : IPAddress} {e : Event}
    (he : e ∈ versionBumps request ipAddress) : e.ipAddr? = some ipAddress := by
  simp only [versionBumps, List.mem_append, List.mem_map] at he
  rcases he with ⟨_, _, rfl⟩ | ⟨_, _, rfl⟩ <;> rfl

/-- A pass of `_install_flows_gx` / `_gy` is a block at its address. -/
theorem block_events (env : Env) (request : ActivateFlowsRequest) (p : Pass) :
    Block p.ipAddr (versionBumps request p.ipAddr) (p.events request env) where
  split := ⟨_, by rw [Pass.events, List.append_assoc], fun _ he => by
    rcases List.mem_append.1 he with he | he
    · exact (callOrInc_of_mem_statsStage he).not_bump_and_at.1
    · exact (callOrInc_of_mem_downStage he).not_bump_and_at.1⟩
  bumps_at _ := versionBumps_at
  at_ip e he := by
    rcases List.mem_append.1 he with he | he
    · rcases List.mem_append.1 he with he | he
      · exact .inr (versionBumps_at he)
      · exact (callOrInc_of_mem_statsStage he).not_bump_and_at.2
    · exact (callOrInc_of_mem_downStage he).not_bump_and_at.2

/-! ## Deactivation -/

theorem deactivationBumps_at {request : DeactivateFlowsRequest} {ipAddress : IPAddress}
    {e : Event} (he : e ∈ deactivationBumps request ipAddress) : e.ipAddr? = some ipAddress := by
  unfold deactivationBumps at he
  split_ifs at he
  · obtain ⟨_, _, rfl⟩ := List.mem_map.1 he; rfl
  · rw [List.mem_singleton.1 he]; rfl
  · simp at he

theorem deactivationCalls_at {request : DeactivateFlowsRequest} {ipAddress : IPAddress}
    {c : App × Op} (hc : c ∈ deactivationCalls request ipAddress) :
    (Event.call c.1 c.2).ipAddr? = some ipAddress := by
  unfold deactivationCalls at hc
  split_ifs at hc <;> simp only [List.mem_append, List.mem_singleton, List.not_mem_nil,
    false_or, or_false] at hc <;> rcases hc with rfl | rfl <;> rfl

/-- A deactivation pass is a block at its address. -/
theorem block_deactivationEvents (env : Env) (request : DeactivateFlowsRequest)
    (ipAddress : IPAddress) :
    Block ipAddress (deactivationBumps request ipAddress)
      (deactivationEvents env request ipAddress) where
  split := ⟨_, rfl, fun e he => by obtain ⟨c, -, rfl⟩ := List.mem_map.1 he; exact id⟩
  bumps_at _ := deactivationBumps_at
  at_ip e he := by
    rcases List.mem_append.1 he with he | he
    · exact .inr (deactivationBumps_at he)
    · obtain ⟨c, hc, rfl⟩ := List.mem_map.1 he
      exact .inr (deactivationCalls_at ((List.takeWhile_sublist _).subset hc))

/-! ## Every run -/

/-- In every run of `_activate_flows` and of `_deactivate_flows`, every address the unit acts
    at is one of the request's families, and there it makes the bumps of the rules the request
    names before any controller call: static then dynamic rule ids on activation; on
    deactivation the named rule ids, or when none is named the session wildcard for GX and no
    bump for any other origin. A unit that returns acts so at every family. -/
theorem bumps_precede_controller_calls (env : Env) (t : Trace) :
    (∀ request : ActivateFlowsRequest, ∃ seg,
      finalTrace ((activateFlows env request).run t) = t ++ seg ∧
      (∀ ip, atAddress ip seg = [] ∨ ip ∈ families env request.ipAddr request.ipv6Addr ∧
        BumpsFirst ip (versionBumps request ip) seg) ∧
      ∀ res t', (activateFlows env request).run t = .ok res t' →
        ∀ ip ∈ families env request.ipAddr request.ipv6Addr,
          BumpsFirst ip (versionBumps request ip) seg) ∧
    (∀ request : DeactivateFlowsRequest, ∃ seg,
      finalTrace ((deactivateFlows env request).run t) = t ++ seg ∧
      (∀ ip, atAddress ip seg = [] ∨ ip ∈ families env request.ipAddr request.ipv6Addr ∧
        BumpsFirst ip (deactivationBumps request ip) seg) ∧
      ∀ t', (deactivateFlows env request).run t = .ok () t' →
        ∀ ip ∈ families env request.ipAddr request.ipv6Addr,
          BumpsFirst ip (deactivationBumps request ip) seg) := by
  refine ⟨fun request => ?_, fun request => ?_⟩
  · obtain ⟨pieces, htrace, hstore, hfirst, -, hret⟩ := activateFlows_pieces env request t
    have hblock : ∀ p, Sum.inl p ∈ pieces →
        Block p.ipAddr (versionBumps request p.ipAddr) (pieceEvents env request (.inl p)) :=
      fun p _ => block_events env request p
    have hwrite : ∀ e, Sum.inr e ∈ pieces → ∀ ip, atAddress ip (pieceEvents env request (.inr e)) = [] :=
      fun e he => atAddress_of_storeWrite (hstore e he)
    refine ⟨_, htrace, bumpsFirst_or_nil_of_pieces hblock hwrite hfirst (families_nodup ..),
      fun res t' hok ip hip => ?_⟩
    have hall := (hret res t' hok).1
    exact (atAddress_pieces hblock hwrite (hall ▸ families_nodup ..) ip).2 (hall ▸ hip)
  · obtain ⟨pieces, htrace, hstore, hfirst, hret⟩ := deactivateFlows_pieces env request t
    have hblock : ∀ ip, Sum.inl ip ∈ pieces → Block (id ip) (deactivationBumps request (id ip))
        (deactivationPieceEvents env request (.inl ip)) :=
      fun ip _ => block_deactivationEvents env request ip
    have hwrite : ∀ e, Sum.inr e ∈ pieces →
        ∀ ip, atAddress ip (deactivationPieceEvents env request (.inr e)) = [] :=
      fun e he => atAddress_of_storeWrite (hstore e he)
    refine ⟨_, htrace, bumpsFirst_or_nil_of_pieces hblock hwrite (by rwa [List.map_id])
      (families_nodup ..), fun t' hok ip hip => ?_⟩
    have hall : (pieces.filterMap Sum.getLeft?).map id = _ := (List.map_id _).trans (hret t' hok)
    exact (atAddress_pieces hblock hwrite (hall ▸ families_nodup ..) ip).2 (hall ▸ hip)

/-- A GY deactivation that names no rule bumps no version, not even the session wildcard, and
    still asks gy to deactivate the session's rules. -/
theorem gy_deactivation_without_rules_bumps_nothing :
    (deactivateFlows Env.succeeding
      { sid := "IMSI001010000000001", ipAddr := "192.168.128.11", ipv6Addr := [],
        requestOrigin := .GY, ruleIds := [], removeDefaultDropFlows := false }).run [] =
      .ok () [.call .gy (.deactivateRules "IMSI001010000000001"
        (convertIpv4StrToIpProto "192.168.128.11") [])] :=
  rfl

end Servicer

end Pipelined
