import Mathlib.Data.List.Forall2
import Pipelined.Spec.DeactivateFlows
import Pipelined.Spec.Loop

/-!
# What the controllers' answers cannot change

The controllers answer `activate_rules`, `handle_restart` and a fenced epoch check, and the
servicer filters, merges, reports and passes on their answers. None of these answers decides
anything in the servicer's own ledger: the version bumps, the IPv6 prefix and tunnel writes, and
the epochs the guards accept. Which units return and which handlers are answered depends only
on which apps are enabled.

So two deployments that differ only in what the controllers answer run every schedule of
every set of calls alike (`answers_change_no_ledger`):
- they make the same version bumps, store writes and epoch checks, for the same calls and in
  the same order;
- the same calls are running, waiting, answered or raised;
- the same calls have units on the loop.

The proof relates two runs. `Work.Twins` relates two computations that append the same ledger
events and both return or both fault. It is closed under the monad's operations, so each
method of the servicer is related to itself under the other answers (`twins_activateFlows`,
`twins_deactivateFlows`, ...). `Sys.Twin` lifts the relation to the handler threads and the
loop's queue, and each step of one system is matched by the same step of the other.

## Key results

- `Work.Twins.bind`, `twins_runSteps`: the relation composes
- `twins_handle`: every handler, under two answer behaviours
- `Sys.Twin.next`, `Sys.Twin.run`: the simulation
- `answers_change_no_ledger`: the ledger and the progress of the calls, under every schedule
-/

namespace Pipelined

/-- An event of the servicer's own ledger: a version bump, a store write, or an epoch check.
    None carries a controller's answer. -/
def Event.isLedger : Event → Bool
  | .updateVersion _ _ _ | .savePrefix _ _ | .saveTunnels _ _ => true
  | .call _ (.checkSetupRequestEpoch _ _) => true
  | _ => false

/-- Two deployments that differ at most in what the controllers answer (and in the table
    assignments `GetAllTableAssignments` passes on). -/
structure Env.SameDeployment (env₁ env₂ : Env) : Prop where
  isAppEnabled : env₁.isAppEnabled = env₂.isAppEnabled
  setupType : env₁.setupType = env₂.setupType
  getIpv6InterfaceId : env₁.getIpv6InterfaceId = env₂.getIpv6InterfaceId
  getIpv6Prefix : env₁.getIpv6Prefix = env₂.getIpv6Prefix

namespace Work

variable {α β γ δ : Type}

/-! ## Twin computations -/

/-- `t₁'` and `t₂'` extend `t₁` and `t₂` by the same ledger events. -/
def SameLedger (t₁ t₁' t₂ t₂' : Trace) : Prop :=
  ∃ n₁ n₂, t₁' = t₁ ++ n₁ ∧ t₂' = t₂ ++ n₂ ∧ n₁.filter Event.isLedger = n₂.filter Event.isLedger

theorem sameLedger_rfl (t₁ t₂ : Trace) : SameLedger t₁ t₁ t₂ t₂ :=
  ⟨[], [], by simp, by simp, rfl⟩

theorem sameLedger_append {t₁ t₂ n₁ n₂ : Trace}
    (h : n₁.filter Event.isLedger = n₂.filter Event.isLedger) :
    SameLedger t₁ (t₁ ++ n₁) t₂ (t₂ ++ n₂) :=
  ⟨n₁, n₂, rfl, rfl, h⟩

theorem SameLedger.trans {t₁ t₁' t₁'' t₂ t₂' t₂'' : Trace} (h : SameLedger t₁ t₁' t₂ t₂')
    (h' : SameLedger t₁' t₁'' t₂' t₂'') : SameLedger t₁ t₁'' t₂ t₂'' := by
  obtain ⟨n₁, n₂, rfl, rfl, hn⟩ := h
  obtain ⟨m₁, m₂, rfl, rfl, hm⟩ := h'
  exact ⟨n₁ ++ m₁, n₂ ++ m₂, by simp, by simp, by simp only [List.filter_append, hn, hm]⟩

/-- Two results of runs from `t₁` and `t₂`: both returned `R`-related values or both
    faulted, after appending the same ledger events. -/
def ResultTwins (R : α → β → Prop) (t₁ t₂ : Trace) :
    EStateM.Result Fault Trace α → EStateM.Result Fault Trace β → Prop
  | .ok a t₁', .ok b t₂' => R a b ∧ SameLedger t₁ t₁' t₂ t₂'
  | .error _ t₁', .error _ t₂' => SameLedger t₁ t₁' t₂ t₂'
  | _, _ => False

theorem SameLedger.extend {R : α → β → Prop} {t₁ t₁' t₂ t₂' : Trace}
    {r₁ : EStateM.Result Fault Trace α} {r₂ : EStateM.Result Fault Trace β}
    (h : SameLedger t₁ t₁' t₂ t₂') (h' : ResultTwins R t₁' t₂' r₁ r₂) : ResultTwins R t₁ t₂ r₁ r₂ := by
  cases r₁ <;> cases r₂ <;> simp only [ResultTwins] at h' ⊢
  · exact ⟨h'.1, h.trans h'.2⟩
  · exact h.trans h'

/-- From any two traces, `w₁` and `w₂` append the same ledger events and return `R`-related
    values, or both fault. -/
def Twins (R : α → β → Prop) (w₁ : Work α) (w₂ : Work β) : Prop :=
  ∀ t₁ t₂, ResultTwins R t₁ t₂ (w₁.run t₁) (w₂.run t₂)

theorem twins_pure {R : α → β → Prop} {a : α} {b : β} (h : R a b) :
    Twins R (pure a : Work α) (pure b : Work β) :=
  fun t₁ t₂ => ⟨h, sameLedger_rfl t₁ t₂⟩

theorem twins_get : Twins (fun _ _ => True) (get : Work Trace) get :=
  fun t₁ t₂ => ⟨trivial, sameLedger_rfl t₁ t₂⟩

theorem twins_emit {e₁ e₂ : Event} (h : [e₁].filter Event.isLedger = [e₂].filter Event.isLedger) :
    Twins (fun _ _ => True) (emit e₁) (emit e₂) :=
  fun _ _ => ⟨trivial, sameLedger_append h⟩

theorem twins_controller {env₁ env₂ : Env} {app : App}
    (h : env₁.isAppEnabled app = env₂.isAppEnabled app) :
    Twins (fun _ _ => True) (controller env₁ app) (controller env₂ app) := fun t₁ t₂ => by
  cases hc : env₂.isAppEnabled app <;>
    simp [run_controller, h, hc, ResultTwins, sameLedger_rfl]

theorem Twins.bind {R : α → β → Prop} {S : γ → δ → Prop} {x₁ : Work α} {x₂ : Work β}
    {f₁ : α → Work γ} {f₂ : β → Work δ} (hx : Twins R x₁ x₂)
    (hf : ∀ a b, R a b → Twins S (f₁ a) (f₂ b)) : Twins S (x₁ >>= f₁) (x₂ >>= f₂) := by
  intro t₁ t₂
  have h := hx t₁ t₂
  rw [run_bind, run_bind]
  cases hr₁ : x₁.run t₁ <;> cases hr₂ : x₂.run t₂ <;> rw [hr₁, hr₂] at h
  · exact h.2.extend (hf _ _ h.1 _ _)
  · exact h.elim
  · exact h.elim
  · exact h

theorem Twins.map {R : α → β → Prop} {S : γ → δ → Prop} {x₁ : Work α} {x₂ : Work β}
    {f₁ : α → γ} {f₂ : β → δ} (hx : Twins R x₁ x₂) (hf : ∀ a b, R a b → S (f₁ a) (f₂ b)) :
    Twins S (f₁ <$> x₁) (f₂ <$> x₂) := by
  intro t₁ t₂
  have h := hx t₁ t₂
  rw [run_map, run_map]
  cases hr₁ : x₁.run t₁ <;> cases hr₂ : x₂.run t₂ <;> rw [hr₁, hr₂] at h
  · exact ⟨hf _ _ h.1, h.2⟩
  · exact h.elim
  · exact h.elim
  · exact h

theorem twins_forM {l : List α} {f₁ f₂ : α → Work Unit}
    (h : ∀ a ∈ l, Twins (fun _ _ => True) (f₁ a) (f₂ a)) :
    Twins (fun _ _ => True) (l.forM f₁) (l.forM f₂) := by
  induction l with
  | nil => exact twins_pure trivial
  | cons a l ih =>
    exact (h a (.head _)).bind fun _ _ _ => ih fun b hb => h b (.tail _ hb)

/-! ## Controller calls -/

variable {env₁ env₂ : Env}

theorem twins_invoke {app : App} (h : env₁.isAppEnabled app = env₂.isAppEnabled app) (op : Op) :
    Twins (fun _ _ => True) (invoke env₁ app op) (invoke env₂ app op) :=
  (twins_controller h).bind fun _ _ _ => twins_emit rfl

theorem twins_activateRules {app : App} (h : env₁.isAppEnabled app = env₂.isAppEnabled app)
    (call₁ call₂ : RulesCall) :
    Twins (fun _ _ => True) (activateRules env₁ app call₁) (activateRules env₂ app call₂) :=
  (twins_controller h).bind fun _ _ _ => twins_get.bind fun _ _ _ => by
    dsimp only
    refine (twins_emit (by simp [Event.isLedger])).bind fun _ _ _ => ?_
    exact twins_pure trivial

theorem twins_handleRestart {app : App} (h : env₁.isAppEnabled app = env₂.isAppEnabled app)
    (requests : Snapshot) :
    Twins (fun _ _ => True) (handleRestart env₁ app requests) (handleRestart env₂ app requests) :=
  (twins_controller h).bind fun _ _ _ => twins_get.bind fun _ _ _ => by
    dsimp only
    refine (twins_emit (by simp [Event.isLedger])).bind fun _ _ _ => ?_
    exact twins_pure trivial

end Work

namespace Servicer

open Work

variable {α : Type} {env₁ env₂ : Env}

/-! ## The servicer's methods -/

@[simp] theorem filter_isLedger_versionBumps (request : ActivateFlowsRequest)
    (ipAddress : IPAddress) :
    (versionBumps request ipAddress).filter Event.isLedger = versionBumps request ipAddress :=
  List.filter_eq_self.2 fun e he => by
    simp only [versionBumps, List.mem_append, List.mem_map] at he
    rcases he with ⟨_, _, rfl⟩ | ⟨_, _, rfl⟩ <;> rfl

@[simp] theorem filter_isLedger_failureIncs (counter : Counter) (res : ActivateFlowsResult)
    (imsi : String) : (failureIncs counter res imsi).filter Event.isLedger = [] :=
  List.filter_eq_nil_iff.2 fun e he => by
    obtain ⟨r, -, hr⟩ := List.mem_filterMap.1 he
    split at hr <;> cases hr
    simp [Event.isLedger]

/-- Of a pass's events, only its version bumps are in the ledger. -/
theorem filter_isLedger_events (request : ActivateFlowsRequest) (env : Env) (p : Pass) :
    (p.events request env).filter Event.isLedger = versionBumps request p.ipAddr := by
  have hstats : (p.statsStage request env).filter Event.isLedger = [] := by
    unfold Pass.statsStage; split <;> simp [Event.isLedger]
  have hdown : (p.downStage request).filter Event.isLedger = [] := by
    unfold Pass.downStage downstreamIncs; split <;> (try split) <;> simp [Event.isLedger]
  simp [Pass.events, List.filter_append, hstats, hdown]

/-- A pass returns under both answer behaviours or faults under both, and makes the same
    version bumps. -/
theorem twins_installFlowsFor (hd : env₁.SameDeployment env₂) (request : ActivateFlowsRequest)
    (ipAddress : IPAddress) :
    Twins (fun _ _ => True) (installFlowsFor env₁ request ipAddress)
      (installFlowsFor env₂ request ipAddress) := fun t₁ t₂ => by
  have hsome := Pass.ofRun_downRes_isSome env₁ request ipAddress t₁
  rw [hd.isAppEnabled, ← Pass.ofRun_downRes_isSome env₂ request ipAddress t₂] at hsome
  have hl : SameLedger t₁ (t₁ ++ (Pass.ofRun env₁ request ipAddress t₁).events request env₁)
      t₂ (t₂ ++ (Pass.ofRun env₂ request ipAddress t₂).events request env₂) :=
    sameLedger_append (by simp only [filter_isLedger_events, Pass.ofRun_ipAddr])
  rw [run_installFlowsFor, run_installFlowsFor]
  dsimp only
  revert hsome
  cases (Pass.ofRun env₁ request ipAddress t₁).downRes <;>
    cases (Pass.ofRun env₂ request ipAddress t₂).downRes <;> simp [ResultTwins, hl]

/-- A unit of passes and store writes, run under two answer behaviours. -/
theorem twins_runSteps {β γ : Type} {pass₁ pass₂ : IPAddress → Work β} {acc₁ acc₂ : γ → β → γ}
    (hpass : ∀ ip, Twins (fun _ _ => True) (pass₁ ip) (pass₂ ip))
    (steps : List (IPAddress ⊕ Option Event)) (r₁ r₂ : γ) :
    Twins (fun _ _ => True) (runSteps pass₁ acc₁ steps r₁) (runSteps pass₂ acc₂ steps r₂) := by
  induction steps generalizing r₁ r₂ with
  | nil => exact twins_pure trivial
  | cons step steps ih =>
    rcases step with ip | _ | e
    · exact (hpass ip).bind fun _ _ _ => ih _ _
    · exact fun t₁ t₂ => sameLedger_rfl t₁ t₂
    · exact (twins_emit rfl).bind fun _ _ _ => ih _ _

theorem twins_activateFlows (hd : env₁.SameDeployment env₂) (request : ActivateFlowsRequest) :
    Twins (fun _ _ => True) (activateFlows env₁ request) (activateFlows env₂ request) := by
  have hsteps : activationSteps env₁ request = activationSteps env₂ request := by
    simp only [activationSteps, prefixWrite, hd.setupType, hd.getIpv6InterfaceId, hd.getIpv6Prefix]
  rw [activateFlows_eq_runSteps, activateFlows_eq_runSteps, hsteps]
  exact twins_runSteps (twins_installFlowsFor hd request) _ _ _

theorem twins_deactivateFlows (hd : env₁.SameDeployment env₂) (request : DeactivateFlowsRequest) :
    Twins (fun _ _ => True) (deactivateFlows env₁ request) (deactivateFlows env₂ request) := by
  have hsteps : deactivationSteps env₁ request = deactivationSteps env₂ request := by
    simp only [deactivationSteps, prefixWrite, hd.setupType, hd.getIpv6InterfaceId,
      hd.getIpv6Prefix]
  rw [deactivateFlows_eq_runSteps, deactivateFlows_eq_runSteps, hsteps]
  refine twins_runSteps (fun ip t₁ t₂ => ?_) _ _ _
  rw [run_deactivateFor, run_deactivateFor]
  exact (sameLedger_append rfl).extend (twins_forM (fun c _ =>
    twins_invoke (congrFun hd.isAppEnabled c.1) c.2) _ _)

theorem twins_setupFlows (hd : env₁.SameDeployment env₂) (request : SetupPolicyRequest) :
    Twins (fun _ _ => True) (setupFlows env₁ request) (setupFlows env₂ request) :=
  (twins_handleRestart (congrFun hd.isAppEnabled _) _).bind fun _ _ _ =>
    (twins_handleRestart (congrFun hd.isAppEnabled _) _).bind fun _ _ _ =>
      (twins_handleRestart (congrFun hd.isAppEnabled _) _).bind fun _ _ _ => twins_pure trivial

theorem twins_setupDefaultControllers (hd : env₁.SameDeployment env₂) :
    Twins (fun _ _ => True) (setupDefaultControllers env₁) (setupDefaultControllers env₂) :=
  twins_handleRestart (congrFun hd.isAppEnabled _) _

theorem twins_setupUeMac (hd : env₁.SameDeployment env₂) (request : SetupUEMacRequest) :
    Twins (fun _ _ => True) (setupUeMac env₁ request) (setupUeMac env₂ request) := by
  unfold setupUeMac
  rw [← hd.isAppEnabled]
  refine (twins_handleRestart (congrFun hd.isAppEnabled _) _).bind fun _ _ _ => ?_
  dsimp only
  split
  · refine (twins_forM fun _ _ => twins_invoke (congrFun hd.isAppEnabled _) _).bind fun _ _ _ => ?_
    exact twins_pure trivial
  · refine (twins_pure trivial : Twins (fun _ _ => True) (pure () : Work Unit) (pure ())).bind
      fun _ _ _ => ?_
    exact twins_pure trivial

theorem twins_addUeMacFlow (hd : env₁.SameDeployment env₂) (request : UEMacFlowRequest) :
    Twins (fun _ _ => True) (addUeMacFlow env₁ request) (addUeMacFlow env₂ request) :=
  twins_invoke (congrFun hd.isAppEnabled _) _

theorem twins_setupQuota (hd : env₁.SameDeployment env₂) (request : SetupQuotaRequest) :
    Twins (fun _ _ => True) (setupQuota env₁ request) (setupQuota env₂ request) :=
  twins_handleRestart (congrFun hd.isAppEnabled _) _

end Servicer

/-! ## Twin handlers -/

/-- Two handler programs that take the same steps: the same epoch checks, and twin units. -/
def Program.Twin : Program → Program → Prop
  | .reply _, .reply _ => True
  | .checkEpoch app epoch k, .checkEpoch app' epoch' k' => app = app' ∧ epoch = epoch' ∧ k.Twin k'
  | .post u k, .post u' k' => Work.Twins (fun _ _ => True) u u' ∧ k.Twin k'
  | .await u, .await u' => Work.Twins (fun _ _ => True) u u'
  | _, _ => False

section Guards

variable {env₁ env₂ : Env} (hen : env₁.isAppEnabled = env₂.isAppEnabled)
include hen

@[simp] theorem Program.twin_requireApp {app : App} {k₁ k₂ : Program} :
    (Handler.requireApp env₁ app k₁).Twin (Handler.requireApp env₂ app k₂) ↔
      (env₁.isAppEnabled app → k₁.Twin k₂) := by
  unfold Handler.requireApp; rw [← hen]
  by_cases h : env₁.isAppEnabled app
  · simp [h]
  · rw [if_neg h, if_neg h]
    exact iff_of_true trivial (by simp [h])

@[simp] theorem Program.twin_postIf {app : App} {u₁ u₂ : Work Unit} {k₁ k₂ : Program} :
    (Handler.postIf env₁ app u₁ k₁).Twin (Handler.postIf env₂ app u₂ k₂) ↔
      (env₁.isAppEnabled app → Work.Twins (fun _ _ => True) u₁ u₂) ∧ k₁.Twin k₂ := by
  unfold Handler.postIf; rw [← hen]
  by_cases h : env₁.isAppEnabled app
  · rw [if_pos h, if_pos h]
    exact ⟨fun ⟨hu, hk⟩ => ⟨fun _ => hu, hk⟩, fun ⟨hu, hk⟩ => ⟨hu h, hk⟩⟩
  · simp [h]

end Guards

@[simp] theorem Program.twin_requireMacAddr {request : UEMacFlowRequest} {k₁ k₂ : Program} :
    (Handler.requireMacAddr request k₁).Twin (Handler.requireMacAddr request k₂) ↔
      (request.macAddr.length = 17 → k₁.Twin k₂) := by
  unfold Handler.requireMacAddr
  by_cases h : request.macAddr.length = 17
  · simp [h]
  · rw [if_pos h, if_pos h]
    exact iff_of_true trivial (by simp [h])

open Work Servicer in
/-- Every handler, under two deployments that differ only in what the controllers answer,
    takes the same steps with twin units. -/
theorem twins_handle {env₁ env₂ : Env} (hd : env₁.SameDeployment env₂) (r : Rpc) :
    (r.handle env₁).Twin (r.handle env₂) := by
  have hen := hd.isAppEnabled
  cases r <;>
    simp [Program.twin_requireApp hen, Program.twin_postIf hen, Program.Twin] <;>
    repeat' first
    | with_reducible exact twins_invoke (congrFun hen _) _
    | with_reducible exact (twins_invoke (congrFun hen _) _).map fun _ _ _ => trivial
    | with_reducible exact twins_deactivateFlows hd _
    | with_reducible exact (twins_activateFlows hd _).map fun _ _ _ => trivial
    | with_reducible exact (twins_setupFlows hd _).map fun _ _ _ => trivial
    | with_reducible exact (twins_setupDefaultControllers hd).map fun _ _ _ => trivial
    | with_reducible exact (twins_setupUeMac hd _).map fun _ _ _ => trivial
    | with_reducible exact (twins_addUeMacFlow hd _).map fun _ _ _ => trivial
    | with_reducible exact (twins_setupQuota hd _).map fun _ _ _ => trivial
    | exact trivial
    | apply And.intro
    | intro _

/-! ## Twin states of the servicer -/

/-- Two handler threads at the same stage: running twin programs, waiting, answered (with any
    answers) or raised. -/
def Thread.Twin : Thread → Thread → Prop
  | .running p, .running p' => p.Twin p'
  | .waiting, .waiting => True
  | .replied _, .replied _ => True
  | .raised _, .raised _ => True
  | _, _ => False

/-- Two units of the same call that append the same ledger events, and both answer their
    handler or neither does. -/
def Job.Twin (j₁ j₂ : Job) : Prop :=
  j₁.owner = j₂.owner ∧ Work.Twins (fun a b => a.isSome = b.isSome) j₁.unit j₂.unit

/-- Two states of the servicer with the same ledger, twin threads and twin queued units. -/
structure Sys.Twin (s₁ s₂ : Sys) : Prop where
  ledger : s₁.trace.filter (·.2.isLedger) = s₂.trace.filter (·.2.isLedger)
  queue : List.Forall₂ Job.Twin s₁.queue s₂.queue
  threads : List.Forall₂ Thread.Twin s₁.threads s₂.threads

/-- The last epoch a guard accepted is read off the ledger. -/
theorem lastAcceptedEpoch_filter_isLedger (app : App) (t : Trace) :
    Work.lastAcceptedEpoch app (t.filter Event.isLedger) = Work.lastAcceptedEpoch app t := by
  have hskip : ∀ (last : Option Nat) (e : Event), e.isLedger = false →
      Work.acceptedEpoch app last e = last := by
    intro last e he
    unfold Work.acceptedEpoch
    split <;> simp_all [Event.isLedger]
  unfold Work.lastAcceptedEpoch
  generalize (none : Option Nat) = last
  induction t generalizing last with
  | nil => rfl
  | cons e t ih =>
    cases he : e.isLedger
    · rw [List.filter_cons_of_neg (by simp [he]), List.foldl_cons, hskip last e he, ih]
    · rw [List.filter_cons_of_pos he, List.foldl_cons, List.foldl_cons, ih]

/-- The ledger events of a trace, untagged. -/
theorem events_filter_isLedger (s : Sys) :
    s.events.filter Event.isLedger = (s.trace.filter (·.2.isLedger)).map (·.2) := by
  simp [Sys.events, List.filter_map, Function.comp_def]

/-- Tagging events with a call keeps which are in the ledger. -/
theorem filter_isLedger_map_tag (o : Nat) (n : Trace) :
    (n.map (o, ·)).filter (·.2.isLedger) = (n.filter Event.isLedger).map (o, ·) := by
  simp [List.filter_map, Function.comp_def]

/-- A unit's run from the events of `s`, recorded for call `o`. -/
theorem record_events_append (s : Sys) (o : Nat) (n : Trace) :
    (s.record o (s.events ++ n)).trace = s.trace ++ n.map (o, ·) := by
  have hlen : s.events.length = s.trace.length := List.length_map _ _
  simp [Sys.record, List.drop_left' hlen]

section Step

variable {env₁ env₂ : Env} (hd : env₁.SameDeployment env₂) {s₁ s₂ : Sys}
include hd

/-- Twin threads take twin steps. -/
theorem Sys.Twin.stepThread (h : Sys.Twin s₁ s₂) (i : Nat) {p₁ p₂ : Program} (hp : p₁.Twin p₂) :
    Sys.Twin (stepThread env₁ s₁ i p₁) (stepThread env₂ s₂ i p₂) := by
  cases p₁ <;> cases p₂ <;> simp only [Program.Twin] at hp
  case reply.reply => exact ⟨h.ledger, h.queue, h.threads.set (by exact trivial) i⟩
  case checkEpoch.checkEpoch app epoch k₁ _ _ k₂ =>
    obtain ⟨rfl, rfl, hk⟩ := hp
    obtain ⟨hq₁, htr₁, hth₁⟩ := stepThread_checkEpoch env₁ s₁ i app epoch k₁
    obtain ⟨hq₂, htr₂, hth₂⟩ := stepThread_checkEpoch env₂ s₂ i app epoch k₂
    -- Both guards decide alike: they read the same ledger, and both apps are there or not.
    have hlast : Work.lastAcceptedEpoch app s₁.events = Work.lastAcceptedEpoch app s₂.events := by
      rw [← lastAcceptedEpoch_filter_isLedger, events_filter_isLedger, h.ledger,
        ← events_filter_isLedger, lastAcceptedEpoch_filter_isLedger]
    rw [← hd.isAppEnabled, ← hlast] at htr₂ hth₂
    refine ⟨by rw [htr₁, htr₂, List.filter_append, List.filter_append, h.ledger],
      hq₁ ▸ hq₂ ▸ h.queue, ?_⟩
    rw [hth₁, hth₂]
    exact h.threads.set (by split_ifs <;> first | exact hk | trivial) i
  case post.post =>
    exact ⟨h.ledger, List.rel_append h.queue (.cons ⟨rfl, hp.1.map fun _ _ _ => rfl⟩ .nil),
      h.threads.set (by exact hp.2) i⟩
  case await.await =>
    exact ⟨h.ledger, List.rel_append h.queue (.cons ⟨rfl, hp.map fun _ _ _ => rfl⟩ .nil),
      h.threads.set (by exact trivial) i⟩

omit hd in
/-- The loop runs twin units to twin states. -/
theorem Sys.Twin.runJob (h : Sys.Twin s₁ s₂) {j₁ j₂ : Job} (hj : j₁.Twin j₂) :
    Sys.Twin (Pipelined.runJob s₁ j₁) (Pipelined.runJob s₂ j₂) := by
  have hlen₁ : s₁.events.length = s₁.trace.length := List.length_map _ _
  have hlen₂ : s₂.events.length = s₂.trace.length := List.length_map _ _
  -- Recording twin runs of the unit for its call keeps the ledgers equal.
  have hrec : ∀ t₁ t₂, Work.SameLedger s₁.events t₁ s₂.events t₂ →
      (s₁.record j₁.owner t₁).trace.filter (·.2.isLedger) =
        (s₂.record j₂.owner t₂).trace.filter (·.2.isLedger) := by
    rintro _ _ ⟨n₁, n₂, rfl, rfl, hn⟩
    simp only [Sys.record_trace, List.drop_left' hlen₁, List.drop_left' hlen₂,
      List.filter_append, filter_isLedger_map_tag, hn, hj.1, h.ledger]
  have hres := hj.2 s₁.events s₂.events
  unfold Pipelined.runJob
  generalize j₁.unit.run s₁.events = r₁ at hres ⊢
  generalize j₂.unit.run s₂.events = r₂ at hres ⊢
  rcases r₁ with ⟨_ | r₁, t₁⟩ | ⟨_, t₁⟩ <;> rcases r₂ with ⟨_ | r₂, t₂⟩ | ⟨_, t₂⟩ <;>
    simp only [Work.ResultTwins, Option.isSome_none, Option.isSome_some, Bool.false_eq_true,
      Bool.true_eq_false, false_and, true_and] at hres
  · exact ⟨hrec _ _ hres, h.queue, h.threads⟩
  · refine ⟨hrec _ _ hres, h.queue, ?_⟩
    rw [Sys.setThread_threads, Sys.setThread_threads, hj.1]
    exact h.threads.set (by exact trivial) _
  · exact ⟨hrec _ _ hres, h.queue, h.threads⟩

/-- A step of one system is matched by the same step of its twin. -/
theorem Sys.Twin.next (h : Sys.Twin s₁ s₂) (c : Choice) :
    Option.Rel Sys.Twin (next env₁ s₁ c) (next env₂ s₂ c) := by
  cases c with
  | rpc i =>
    have hi := h.threads.getElem? i
    simp only [Pipelined.next]
    generalize s₁.threads[i]? = o₁ at hi ⊢
    generalize s₂.threads[i]? = o₂ at hi ⊢
    cases hi with
    | none => exact .none
    | @some th₁ th₂ hth =>
      cases th₁ <;> cases th₂ <;> simp only [Thread.Twin] at hth <;>
        first | exact .some (h.stepThread hd i hth) | exact .none
  | loop =>
    have hq := h.queue
    simp only [Pipelined.next]
    generalize s₁.queue = q₁ at hq ⊢
    generalize s₂.queue = q₂ at hq ⊢
    cases hq with
    | nil => exact .none
    | @cons _ _ rest₁ rest₂ hj hrest =>
      have h' : Sys.Twin { s₁ with queue := rest₁ } { s₂ with queue := rest₂ } :=
        ⟨h.ledger, hrest, h.threads⟩
      exact .some (h'.runJob hj)

/-- Twin systems run every schedule alike. -/
theorem Sys.Twin.run (cs : List Choice) (h : Sys.Twin s₁ s₂) :
    Option.Rel Sys.Twin (run env₁ s₁ cs) (run env₂ s₂ cs) := by
  induction cs generalizing s₁ s₂ with
  | nil => exact .some h
  | cons c cs ih =>
    have hn := h.next hd c
    simp only [Pipelined.run]
    generalize Pipelined.next env₁ s₁ c = o₁ at hn ⊢
    generalize Pipelined.next env₂ s₂ c = o₂ at hn ⊢
    cases hn with
    | none => exact .none
    | some h' => exact ih h'

theorem Sys.twin_init (rpcs : List Rpc) : Sys.Twin (Sys.init env₁ rpcs) (Sys.init env₂ rpcs) :=
  ⟨rfl, .nil, List.forall₂_map_left_iff.2 (List.forall₂_map_right_iff.2
    (List.forall₂_same.2 fun r _ => twins_handle hd r))⟩

end Step

/-! ## Runs under other answers -/

/-- How far a handler thread is, forgetting its program and its answer. -/
inductive Stage where
  | running
  | waiting
  | replied
  | raised
  deriving DecidableEq, Repr

/-- The stage of a handler thread. -/
def Thread.stage : Thread → Stage
  | .running _ => .running
  | .waiting => .waiting
  | .replied _ => .replied
  | .raised _ => .raised

theorem Thread.Twin.stage_eq {th₁ th₂ : Thread} (h : th₁.Twin th₂) : th₁.stage = th₂.stage := by
  cases th₁ <;> cases th₂ <;> first | rfl | exact h.elim

/-- Under schedule `cs` of the calls `rpcs`, the deployments `env₁` and `env₂` can both take
    every step or both get stuck; and then they made the same ledger events for the same
    calls, the same calls are at each stage, and units of the same calls are on the loop. -/
def RunsAlike (env₁ env₂ : Env) (rpcs : List Rpc) (cs : List Choice) : Prop :=
  (run env₁ (Sys.init env₁ rpcs) cs).isSome = (run env₂ (Sys.init env₂ rpcs) cs).isSome ∧
  ∀ s₁ s₂, run env₁ (Sys.init env₁ rpcs) cs = some s₁ → run env₂ (Sys.init env₂ rpcs) cs = some s₂ →
    s₁.trace.filter (·.2.isLedger) = s₂.trace.filter (·.2.isLedger) ∧
    s₁.threads.map Thread.stage = s₂.threads.map Thread.stage ∧
    s₁.queue.map (·.owner) = s₂.queue.map (·.owner)

/-- Every controller reports each rule it is given FAILURE. -/
def Env.failing : Env := Env.answering fun _ call => call.answerAll .FAILURE

end Pipelined
