import Pipelined.ForStd.List
import Pipelined.Spec.Appends
import Pipelined.Spec.Loop

/-!
# Restarts and the Epoch Guard under interleaving

A setup handler checks its epoch on its controllers' Epoch Guards from its own thread, and only
then posts the restart to the event loop. Each guard accepts strictly increasing epochs
(`EpochInv.sorted`), and a restart of a controller is made only for a call whose epoch that
controller's guard accepted before (`EpochInv.restarts`). But the check and the restart are
two steps apart, and between them another call can check a newer epoch and have its restart
run first: the older snapshot is then applied last.

So a controller's restarts for two calls are applied in strictly increasing epoch order in
the runs where no call has an epoch of that controller accepted between another call's
accepted check and restart of it (`restarts_in_epoch_order`, with the two facts above).

## Key results

- `EpochInv`: the invariant of every reachable state, from `EpochInv.stepThread` and
  `EpochInv.loopStep`
- `restarts_in_epoch_order`: accepted epochs increase, each restart follows its call's
  accepted check, and restarts are in epoch order in the runs that accept one call at a time
-/

namespace Pipelined

open Work

/-! ## The guards' log -/

/-- The epoch an accepted check of `g`'s guard recorded. -/
def acceptedOf (g : App) : Event → Option Nat
  | .call a (.checkSetupRequestEpoch epoch true) => if a = g then some epoch else none
  | _ => none

/-- The epochs `g`'s guard accepted in `t`, oldest first. -/
def acceptedEpochs (g : App) (t : Trace) : List Nat :=
  t.filterMap (acceptedOf g)

theorem acceptedEpoch_eq (g : App) (last : Option Nat) (e : Event) :
    acceptedEpoch g last e = (acceptedOf g e).or last := by
  unfold acceptedEpoch acceptedOf
  split <;> (try split) <;> simp_all

/-- The guard's state is the last epoch it accepted. -/
theorem lastAcceptedEpoch_eq (g : App) (t : Trace) :
    lastAcceptedEpoch g t = (acceptedEpochs g t).getLast? := by
  suffices h : ∀ init, t.foldl (acceptedEpoch g) init =
      (acceptedEpochs g t).getLast?.or init by simpa using h none
  induction t with
  | nil => simp [acceptedEpochs]
  | cons e t ih =>
    intro init
    rw [List.foldl_cons, ih, acceptedEpoch_eq]
    cases h : acceptedOf g e with
    | none => simp only [acceptedEpochs, List.filterMap_cons, h, Option.none_or]
    | some v =>
      simp only [acceptedEpochs, List.filterMap_cons, h, Option.or_some, List.getLast?_cons]
      cases (t.filterMap (acceptedOf g)).getLast? <;> rfl

/-- An epoch the guard accepts is above every epoch it accepted before. -/
theorem lt_of_epochIsNewer {g : App} {t : Trace} {epoch : Nat}
    (hsorted : (acceptedEpochs g t).Pairwise (· < ·))
    (hnew : epochIsNewer (lastAcceptedEpoch g t) epoch) : ∀ x ∈ acceptedEpochs g t, x < epoch := by
  rw [lastAcceptedEpoch_eq] at hnew
  cases hlast : (acceptedEpochs g t).getLast? with
  | none => simp_all [List.getLast?_eq_none_iff]
  | some last =>
    rw [hlast] at hnew
    obtain ⟨ys, hys⟩ := List.getLast?_eq_some_iff.1 hlast
    rw [hys, List.pairwise_append] at hsorted
    intro x hx
    rw [hys, List.mem_append, List.mem_singleton] at hx
    have : last < epoch := by simpa [epochIsNewer] using hnew
    rcases hx with hx | rfl
    · exact (hsorted.2.2 x hx last (.head _)).trans this
    · exact this

/-! ## What a handler checks before it restarts -/

/-- The epoch a setup call carries. -/
def Rpc.epoch? : Rpc → Option Nat
  | .setupDefaultControllers request => some request.epoch
  | .setupPolicyFlows request => some request.epoch
  | .setupUEMacFlows request => some request.epoch
  | .setupQuotaFlows request => some request.epoch
  | _ => none

/-- Every epoch check of `p` is of the epoch `epoch?`. -/
def Program.ChecksWith (epoch? : Option Nat) : Program → Prop
  | .reply _ => True
  | .checkEpoch _ epoch k => epoch? = some epoch ∧ k.ChecksWith epoch?
  | .post _ k => k.ChecksWith epoch?
  | .await _ => True

/-- Every unit `p` posts restarts only controllers that `ok` allows or whose epoch `p` checked
    before posting it, and makes no epoch check. -/
def Program.GuardsRestarts : (App → Prop) → Program → Prop
  | _, .reply _ => True
  | ok, .checkEpoch app _ k => k.GuardsRestarts fun g => g = app ∨ ok g
  | ok, .post u k => RestartsOnly ok u ∧ k.GuardsRestarts ok
  | ok, .await u => RestartsOnly ok u

theorem Program.GuardsRestarts.mono {p : Program} {ok ok' : App → Prop}
    (h : ∀ g, ok g → ok' g) (hp : p.GuardsRestarts ok) : p.GuardsRestarts ok' := by
  induction p generalizing ok ok' with
  | reply => trivial
  | checkEpoch app epoch k ih => exact ih (fun g => Or.imp_right (h g)) hp
  | post u k ih => exact ⟨hp.1.mono h, ih h hp.2⟩
  | await u => exact RestartsOnly.mono h hp

/-! The guards a handler starts with decide only whether it goes on, so both properties are
read through them without splitting on the deployment or the request. -/

@[simp] theorem Program.checksWith_requireApp {env : Env} {app : App} {k : Program}
    {epoch? : Option Nat} :
    (Handler.requireApp env app k).ChecksWith epoch? ↔
      (env.isAppEnabled app → k.ChecksWith epoch?) := by
  unfold Handler.requireApp; split <;> simp_all [Program.ChecksWith]

@[simp] theorem Program.checksWith_requireMacAddr {request : UEMacFlowRequest} {k : Program}
    {epoch? : Option Nat} :
    (Handler.requireMacAddr request k).ChecksWith epoch? ↔
      (request.macAddr.length = 17 → k.ChecksWith epoch?) := by
  unfold Handler.requireMacAddr; split <;> simp_all [Program.ChecksWith]

@[simp] theorem Program.checksWith_postIf {env : Env} {app : App} {u : Work Unit} {k : Program}
    {epoch? : Option Nat} : (Handler.postIf env app u k).ChecksWith epoch? ↔ k.ChecksWith epoch? := by
  unfold Handler.postIf; split <;> rfl

@[simp] theorem Program.guardsRestarts_requireApp {env : Env} {app : App} {k : Program}
    {ok : App → Prop} :
    (Handler.requireApp env app k).GuardsRestarts ok ↔
      (env.isAppEnabled app → k.GuardsRestarts ok) := by
  unfold Handler.requireApp; split <;> simp_all [Program.GuardsRestarts]

@[simp] theorem Program.guardsRestarts_requireMacAddr {request : UEMacFlowRequest} {k : Program}
    {ok : App → Prop} :
    (Handler.requireMacAddr request k).GuardsRestarts ok ↔
      (request.macAddr.length = 17 → k.GuardsRestarts ok) := by
  unfold Handler.requireMacAddr; split <;> simp_all [Program.GuardsRestarts]

@[simp] theorem Program.guardsRestarts_postIf {env : Env} {app : App} {u : Work Unit}
    {k : Program} {ok : App → Prop} :
    (Handler.postIf env app u k).GuardsRestarts ok ↔
      (env.isAppEnabled app → RestartsOnly ok u) ∧ k.GuardsRestarts ok := by
  unfold Handler.postIf; split <;> simp_all [Program.GuardsRestarts]

theorem handle_checksWith (env : Env) (r : Rpc) : (r.handle env).ChecksWith r.epoch? := by
  cases r <;>
    simp [Rpc.epoch?, Program.ChecksWith]

/-- Every handler restarts only the controllers whose epochs it checked before. -/
theorem handle_guardsRestarts (env : Env) (r : Rpc) :
    (r.handle env).GuardsRestarts fun _ => False := by
  cases r <;>
    simp [Program.GuardsRestarts] <;>
    repeat' first
    | exact appends_invoke env trivial
    | exact (appends_invoke env trivial).bind fun _ => appends_pure _
    | exact (appends_invoke env trivial).map _
    | exact Servicer.restartsOnly_deactivateFlows env _ _
    | exact (Servicer.restartsOnly_activateFlows env _ _).map _
    | exact (Servicer.restartsOnly_setupDefaultControllers env _ (by simp)).map _
    | exact (Servicer.restartsOnly_setupUeMac env _ _ (by simp)).map _
    | exact (Servicer.restartsOnly_setupQuota env _ _ (by simp)).map _
    | exact (Servicer.restartsOnly_setupFlows env _ _ ⟨by simp, by simp, by simp⟩).map _
    | exact trivial
    | apply And.intro
    | intro _

/-! ## The invariant -/

/-- The controllers whose guard accepted the epoch of call `i` in `trace`. -/
def AcceptedBy (trace : List (Nat × Event)) (i : Nat) (g : App) : Prop :=
  ∃ epoch, (i, Event.call g (.checkSetupRequestEpoch epoch true)) ∈ trace

theorem AcceptedBy.append {trace : List (Nat × Event)} {i : Nat} {g : App}
    (new : List (Nat × Event)) (h : AcceptedBy trace i g) : AcceptedBy (trace ++ new) i g :=
  let ⟨e, he⟩ := h; ⟨e, List.mem_append_left _ he⟩

/-- The epoch of call `i`, when it is a setup call. -/
def rpcEpoch (rpcs : List Rpc) (i : Nat) : Option Nat :=
  rpcs[i]?.bind Rpc.epoch?

/-- What holds of the guards and the restarts in every reachable state. -/
structure EpochInv (rpcs : List Rpc) (s : Sys) : Prop where
  /-- Each guard accepted strictly increasing epochs. -/
  sorted : ∀ g, (acceptedEpochs g s.events).Pairwise (· < ·)
  /-- A call checks only its own epoch. -/
  checks : ∀ (i : Nat) (g : App) (epoch : Nat) (accepted : Bool),
    (i, Event.call g (.checkSetupRequestEpoch epoch accepted)) ∈ s.trace →
      rpcEpoch rpcs i = some epoch
  /-- A restart comes after an accepted check of the same controller by the same call. -/
  restarts : ∀ (pre : List (Nat × Event)) (i : Nat) (g : App) (requests : Snapshot)
    (res : SetupFlowsResult) (post : List (Nat × Event)),
    s.trace = pre ++ (i, Event.call g (.handleRestart requests res)) :: post → AcceptedBy pre i g
  /-- A running handler restarts only what will have been accepted for it. -/
  threads : ∀ (i : Nat) (p : Program), s.threads[i]? = some (.running p) →
    p.GuardsRestarts (AcceptedBy s.trace i) ∧ p.ChecksWith (rpcEpoch rpcs i)
  /-- A posted unit restarts only what was accepted for its call. -/
  jobs : ∀ job ∈ s.queue, RestartsOnly (AcceptedBy s.trace job.owner) job.unit

theorem acceptedOf_eq_none {ok : App → Prop} {e : Event} (he : e.RestartsOnly ok) (g : App) :
    acceptedOf g e = none := by
  unfold Event.RestartsOnly at he
  unfold acceptedOf
  split <;> simp_all

/-- A guard's log stays sorted when it checks a new epoch. -/
theorem sorted_append_check {t : Trace} (hsorted : ∀ g, (acceptedEpochs g t).Pairwise (· < ·))
    (app : App) (epoch : Nat) (g : App) :
    (acceptedEpochs g (t ++ [.call app (.checkSetupRequestEpoch epoch
      (epochIsNewer (lastAcceptedEpoch app t) epoch))])).Pairwise (· < ·) := by
  rw [acceptedEpochs, List.filterMap_append, List.pairwise_append]
  refine ⟨hsorted g, ?_, fun x hx y hy => ?_⟩
  · simp only [List.filterMap_cons, List.filterMap_nil]
    split <;> simp
  by_cases hnew : epochIsNewer (lastAcceptedEpoch app t) epoch
  · by_cases hg : app = g
    · subst hg
      simp only [hnew, acceptedOf, if_true, List.filterMap_cons, List.filterMap_nil,
        List.mem_singleton] at hy
      exact hy ▸ lt_of_epochIsNewer (hsorted app) hnew x hx
    · simp [hnew, acceptedOf, hg] at hy
  · simp [hnew, acceptedOf] at hy

variable {env : Env} {rpcs : List Rpc} {s : Sys}

/-- The invariant's promise for the threads, after thread `j` is set to `th` and the trace
    grows. -/
theorem EpochInv.threads_set (h : EpochInv rpcs s) {j : Nat} {th : Thread}
    {trace' : List (Nat × Event)} (hmono : ∀ i g, AcceptedBy s.trace i g → AcceptedBy trace' i g)
    (hj : ∀ p, th = .running p →
      p.GuardsRestarts (AcceptedBy trace' j) ∧ p.ChecksWith (rpcEpoch rpcs j))
    (i : Nat) (p : Program) (hp : (s.threads.set j th)[i]? = some (.running p)) :
    p.GuardsRestarts (AcceptedBy trace' i) ∧ p.ChecksWith (rpcEpoch rpcs i) := by
  rcases getElem?_set_eq_some hp with ⟨rfl, hth⟩ | ⟨-, hold⟩
  · exact hj p hth
  · exact (h.threads i p hold).imp_left (·.mono (hmono i))

/-- Effects of call `o` that check no epoch and restart only what was accepted for `o` keep
    the guards' log, the calls' epochs and the restarts' precedence. -/
theorem EpochInv.log_append (h : EpochInv rpcs s) {o : Nat} {new : Trace}
    (hnew : ∀ e ∈ new, e.RestartsOnly (AcceptedBy s.trace o)) :
    (∀ g, (acceptedEpochs g (s.events ++ new)).Pairwise (· < ·)) ∧
    (∀ (i : Nat) (g : App) (epoch : Nat) (accepted : Bool),
      (i, Event.call g (.checkSetupRequestEpoch epoch accepted)) ∈ s.trace ++ new.map (o, ·) →
        rpcEpoch rpcs i = some epoch) ∧
    (∀ (pre : List (Nat × Event)) (i : Nat) (g : App) (requests : Snapshot)
      (res : SetupFlowsResult) (post : List (Nat × Event)), s.trace ++ new.map (o, ·) =
        pre ++ (i, Event.call g (.handleRestart requests res)) :: post → AcceptedBy pre i g) := by
  refine ⟨fun g => ?_, fun i g epoch accepted hmem => ?_, fun pre i g requests res post htr => ?_⟩
  · have : acceptedEpochs g new = [] :=
      List.filterMap_eq_nil_iff.2 fun e he => acceptedOf_eq_none (hnew e he) g
    rw [acceptedEpochs, List.filterMap_append, ← acceptedEpochs, ← acceptedEpochs, this,
      List.append_nil]
    exact h.sorted g
  · rcases List.mem_append.1 hmem with hmem | hmem
    · exact h.checks i g epoch accepted hmem
    · obtain ⟨e, he, hx⟩ := List.mem_map.1 hmem
      cases hx
      exact (hnew _ he).elim
  · rcases List.append_eq_append_cons htr with ⟨post', hold⟩ | ⟨hmem, mid, rfl⟩
    · exact h.restarts pre i g requests res post' hold
    · obtain ⟨e, he, hx⟩ := List.mem_map.1 hmem
      cases hx
      exact (hnew _ he).append mid

/-- The loop running a unit keeps the invariant. -/
theorem EpochInv.loopStep (h : EpochInv rpcs s) {job : Job} {rest : List Job}
    (hq : s.queue = job :: rest) : EpochInv rpcs (runJob { s with queue := rest } job) := by
  obtain ⟨new, hnew, hP⟩ := h.jobs job (hq ▸ List.mem_cons_self job rest) s.events
  have htr : (runJob { s with queue := rest } job).trace = s.trace ++ new.map (job.owner, ·) :=
    runJob_trace hnew
  have hmono : ∀ i g, AcceptedBy s.trace i g →
      AcceptedBy (runJob { s with queue := rest } job).trace i g :=
    fun i g h' => htr ▸ h'.append _
  obtain ⟨-, -, hq', hth⟩ := runJob_frame { s with queue := rest } job
  obtain ⟨hsorted, hchecks, hrestarts⟩ := h.log_append hP
  have hev : (runJob { s with queue := rest } job).events = s.events ++ new := by
    simp [Sys.events, htr, Function.comp_def]
  refine ⟨hev ▸ hsorted, htr ▸ hchecks, htr ▸ hrestarts, fun i p hp => ?_, fun j hj => ?_⟩
  · rcases hth with hth | ⟨r, hth⟩
    · rw [hth] at hp
      exact (h.threads i p hp).imp_left (·.mono (hmono i))
    · rw [hth] at hp
      exact h.threads_set hmono (fun _ h => by cases h) i p hp
  · rw [hq'] at hj
    exact (h.jobs j (hq ▸ List.mem_cons_of_mem job hj)).mono (hmono _)

/-- An epoch check keeps the invariant. -/
theorem EpochInv.checkEpoch (h : EpochInv rpcs s) {j : Nat} {app : App} {epoch : Nat}
    {k : Program} (hg : k.GuardsRestarts fun g => g = app ∨ AcceptedBy s.trace j g)
    (hc : rpcEpoch rpcs j = some epoch) (hk : k.ChecksWith (rpcEpoch rpcs j)) :
    EpochInv rpcs (stepThread env s j (.checkEpoch app epoch k)) := by
  obtain ⟨hq, htr, hth⟩ := stepThread_checkEpoch env s j app epoch k
  by_cases hen : env.isAppEnabled app
  · rw [if_pos hen] at htr hth
    have hev : (stepThread env s j (.checkEpoch app epoch k)).events = s.events ++
        [.call app (.checkSetupRequestEpoch epoch
          (epochIsNewer (lastAcceptedEpoch app s.events) epoch))] := by
      simp [Sys.events, htr]
    have hmono : ∀ i g, AcceptedBy s.trace i g →
        AcceptedBy (stepThread env s j (.checkEpoch app epoch k)).trace i g :=
      fun i g h' => htr ▸ h'.append _
    refine ⟨hev ▸ sorted_append_check h.sorted app epoch, fun i g e a hmem => ?_,
      fun pre i g rq res post htr' => ?_, hth ▸ h.threads_set hmono fun p hp => ?_,
      hq ▸ fun job hj => (h.jobs job hj).mono (hmono _)⟩
    · rw [htr, List.mem_append, List.mem_singleton] at hmem
      rcases hmem with hmem | hmem
      · exact h.checks i g e a hmem
      · simp only [Prod.mk.injEq, Event.call.injEq, Op.checkSetupRequestEpoch.injEq] at hmem
        obtain ⟨rfl, -, rfl, -⟩ := hmem
        exact hc
    · rw [htr] at htr'
      rcases List.append_eq_append_cons htr' with ⟨post', hold⟩ | ⟨hmem, -⟩
      · exact h.restarts pre i g rq res post' hold
      · simp at hmem
    · split_ifs at hp with hacc
      · cases hp
        refine ⟨hg.mono fun g hg' => hg'.elim (fun hga => ⟨epoch, ?_⟩) (hmono j g), hk⟩
        rw [htr, hga]
        simp [hacc]
  · rw [if_neg hen, List.append_nil] at htr
    rw [if_neg hen] at hth
    have hev : (stepThread env s j (.checkEpoch app epoch k)).events = s.events := by
      simp [Sys.events, htr]
    refine ⟨hev ▸ h.sorted, htr ▸ h.checks, htr ▸ h.restarts,
      hth ▸ htr ▸ h.threads_set (fun _ _ => id) (fun p hp => by cases hp),
      hq ▸ htr ▸ h.jobs⟩

/-- A handler thread's step keeps the invariant. -/
theorem EpochInv.stepThread (h : EpochInv rpcs s) {j : Nat} {p : Program}
    (hp : s.threads[j]? = some (.running p)) : EpochInv rpcs (stepThread env s j p) := by
  obtain ⟨hg, hc⟩ := h.threads j p hp
  cases p with
  | reply r =>
    exact ⟨h.sorted, h.checks, h.restarts, h.threads_set (fun _ _ => id) (fun _ h => by cases h),
      h.jobs⟩
  | checkEpoch app epoch k => exact h.checkEpoch hg hc.1 hc.2
  | post u k =>
    refine ⟨h.sorted, h.checks, h.restarts,
      h.threads_set (fun _ _ => id) (fun _ h => by cases h; exact ⟨hg.2, hc⟩), fun job hj => ?_⟩
    rcases List.mem_append.1 hj with hj | hj
    · exact h.jobs job hj
    · rw [List.mem_singleton.1 hj]
      exact hg.1.map _
  | await u =>
    refine ⟨h.sorted, h.checks, h.restarts,
      h.threads_set (fun _ _ => id) (fun _ h => by cases h), fun job hj => ?_⟩
    rcases List.mem_append.1 hj with hj | hj
    · exact h.jobs job hj
    · rw [List.mem_singleton.1 hj]
      exact hg.map _

theorem epochInv_init (env : Env) (rpcs : List Rpc) : EpochInv rpcs (Sys.init env rpcs) where
  sorted _ := List.Pairwise.nil
  checks _ _ _ _ h := nomatch h
  restarts _ _ _ _ _ _ h := by simp [Sys.init] at h
  threads i p hp := by
    simp only [Sys.init, List.getElem?_map] at hp
    cases hr : rpcs[i]? with
    | none => simp [hr] at hp
    | some r =>
      simp only [hr, Option.map_some', Option.some.injEq, Thread.running.injEq] at hp
      subst hp
      exact ⟨(handle_guardsRestarts env r).mono fun _ => False.elim,
        by simpa [rpcEpoch, hr] using handle_checksWith env r⟩
  jobs _ h := nomatch h

/-- Every reachable state satisfies the invariant. -/
theorem epochInv_of_reachable {s : Sys} (hs : Reachable env rpcs s) : EpochInv rpcs s := by
  induction hs with
  | init => exact epochInv_init env rpcs
  | step c _ hn ih =>
    rcases next_eq_some hn with ⟨j, p, rfl, hp, rfl⟩ | ⟨job, rest, rfl, hq, rfl⟩
    · exact ih.stepThread hp
    · exact ih.loopStep hq

/-! ## The order of restarts -/

/-- No call has an epoch accepted by `g`'s guard between another call's accepted check of `g`
    and that call's restart of `g`. -/
def OneAtATime (g : App) (trace : List (Nat × Event)) : Prop :=
  ∀ (i j epoch epoch' : Nat) (requests : Snapshot) (res : SetupFlowsResult), i ≠ j →
    ¬[(i, Event.call g (.checkSetupRequestEpoch epoch true)),
      (j, Event.call g (.checkSetupRequestEpoch epoch' true)),
      (i, Event.call g (.handleRestart requests res))].Sublist trace

/-- Two accepted checks of one guard, in trace order, are of increasing epochs. -/
theorem lt_of_accepted_sublist {s : Sys} {g : App} {i j e₁ e₂ : Nat}
    (hsorted : (acceptedEpochs g s.events).Pairwise (· < ·))
    (h : [(i, Event.call g (.checkSetupRequestEpoch e₁ true)),
      (j, Event.call g (.checkSetupRequestEpoch e₂ true))].Sublist s.trace) : e₁ < e₂ := by
  have hsub := (h.map (·.2)).filterMap (acceptedOf g)
  have hl : ([(i, Event.call g (.checkSetupRequestEpoch e₁ true)),
      (j, Event.call g (.checkSetupRequestEpoch e₂ true))].map (·.2)).filterMap (acceptedOf g) =
      [e₁, e₂] := by simp [acceptedOf]
  rw [hl] at hsub
  exact List.pairwise_pair.1 (hsorted.sublist hsub)

/-- In the runs where a controller's restarts for two different calls are in the order the
    two calls' checks were accepted, they are in strictly increasing order of the calls'
    epochs. -/
theorem restart_order_of_oneAtATime {s : Sys} (inv : EpochInv rpcs s) {g : App}
    (hone : OneAtATime g s.trace)
    {pre mid post : List (Nat × Event)} {i j : Nat} {requests₁ requests₂ : Snapshot}
    {res₁ res₂ : SetupFlowsResult} (hij : i ≠ j)
    (htr : s.trace = pre ++ (i, .call g (.handleRestart requests₁ res₁)) :: mid ++
      (j, .call g (.handleRestart requests₂ res₂)) :: post) :
    ∃ e₁ e₂, rpcEpoch rpcs i = some e₁ ∧ rpcEpoch rpcs j = some e₂ ∧ e₁ < e₂ := by
  have htr' : s.trace = pre ++ (i, .call g (.handleRestart requests₁ res₁)) ::
      (mid ++ (j, .call g (.handleRestart requests₂ res₂)) :: post) := by simpa using htr
  -- Each restart follows its call's accepted check.
  obtain ⟨e₁, h₁⟩ := inv.restarts _ _ _ _ _ _ htr'
  obtain ⟨e₂, h₂⟩ := inv.restarts _ _ _ _ _ _ htr
  have hpre : pre.Sublist s.trace := htr' ▸ List.sublist_append_left _ _
  refine ⟨e₁, e₂, inv.checks i g e₁ true (hpre.subset h₁),
    inv.checks j g e₂ true (htr ▸ List.mem_append_left _ h₂), ?_⟩
  rcases List.mem_append.1 h₂ with h₂ | h₂
  · -- Both checks come before the first restart: the first call's check is the older one.
    rcases List.sublist_pair_of_mem h₁ h₂ (by simp [hij]) with hord | hord
    · exact lt_of_accepted_sublist (inv.sorted g) (hord.trans hpre)
    · refine absurd ?_ (hone j i e₂ e₁ requests₂ res₂ (Ne.symm hij))
      rw [htr']
      exact hord.append (List.singleton_sublist.2 (by simp))
  · -- The second call checked between the two restarts.
    have h₂' : (j, Event.call g (.checkSetupRequestEpoch e₂ true)) ∈ mid := by
      simpa using h₂
    have hord : [(i, Event.call g (.checkSetupRequestEpoch e₁ true)),
        (j, Event.call g (.checkSetupRequestEpoch e₂ true))].Sublist s.trace := by
      have hmid : [(j, Event.call g (.checkSetupRequestEpoch e₂ true))].Sublist
          ((i, .call g (.handleRestart requests₁ res₁)) ::
            (mid ++ (j, .call g (.handleRestart requests₂ res₂)) :: post)) :=
        List.singleton_sublist.2 (List.mem_cons_of_mem _ (List.mem_append_left _ h₂'))
      rw [htr']
      exact (List.singleton_sublist.2 h₁).append hmid
    exact lt_of_accepted_sublist (inv.sorted g) hord

/-- Under every interleaving of setup calls: each controller's guard accepts strictly
    increasing epochs; every restart of a controller comes after an accepted check of that
    controller by the same call, of the call's own epoch; and in the runs where no call has an
    epoch of a controller accepted between another call's accepted check and restart of it,
    that controller's restarts for two different calls are in strictly increasing order of the
    calls' epochs. -/
theorem restarts_in_epoch_order (env : Env) (rpcs : List Rpc) {s : Sys}
    (hs : Reachable env rpcs s) :
    (∀ g, (acceptedEpochs g s.events).Pairwise (· < ·)) ∧
    (∀ (pre : List (Nat × Event)) (i : Nat) (g : App) (requests : Snapshot)
      (res : SetupFlowsResult) (post : List (Nat × Event)),
      s.trace = pre ++ (i, Event.call g (.handleRestart requests res)) :: post →
      ∃ epoch, (i, Event.call g (.checkSetupRequestEpoch epoch true)) ∈ pre ∧
        rpcEpoch rpcs i = some epoch) ∧
    ∀ g, OneAtATime g s.trace →
      ∀ {pre mid post : List (Nat × Event)} {i j : Nat} {requests₁ requests₂ : Snapshot}
        {res₁ res₂ : SetupFlowsResult}, i ≠ j →
        s.trace = pre ++ (i, .call g (.handleRestart requests₁ res₁)) :: mid ++
          (j, .call g (.handleRestart requests₂ res₂)) :: post →
        ∃ e₁ e₂, rpcEpoch rpcs i = some e₁ ∧ rpcEpoch rpcs j = some e₂ ∧ e₁ < e₂ := by
  have inv := epochInv_of_reachable hs
  refine ⟨inv.sorted, fun pre i g requests res post htr => ?_,
    fun g hone _ _ _ _ _ _ _ _ _ hij htr => restart_order_of_oneAtATime inv hone hij htr⟩
  obtain ⟨epoch, he⟩ := inv.restarts pre i g requests res post htr
  exact ⟨epoch, he, inv.checks i g epoch true (htr ▸ List.mem_append_left _ he)⟩

/-- Two quota setups, of epochs 1 and 2. -/
def quotaSetups : List Rpc :=
  [.setupQuotaFlows ⟨[⟨"old"⟩], 1⟩, .setupQuotaFlows ⟨[⟨"new"⟩], 2⟩]

theorem restarts_in_epoch_order_quotaSetups :
    ∃ s, Reachable Env.succeeding quotaSetups s ∧ OneAtATime .checkQuota s.trace ∧
      s.trace = [(0, .call .checkQuota (.checkSetupRequestEpoch 1 true))] ++
        (0, .call .checkQuota (.handleRestart (.quotas [⟨"old"⟩]) ⟨0⟩)) ::
        [(1, .call .checkQuota (.checkSetupRequestEpoch 2 true))] ++
        (1, .call .checkQuota (.handleRestart (.quotas [⟨"new"⟩]) ⟨0⟩)) :: [] ∧
      (acceptedEpochs .checkQuota s.events).Pairwise (· < ·) ∧
      ∃ e₁ e₂, rpcEpoch quotaSetups 0 = some e₁ ∧ rpcEpoch quotaSetups 1 = some e₂ ∧
        e₁ < e₂ := by
  obtain ⟨s, hrun, htr⟩ : ∃ s, run Env.succeeding (Sys.init Env.succeeding quotaSetups)
      [.rpc 0, .rpc 0, .loop, .rpc 1, .rpc 1, .loop] = some s ∧
      s.trace = [(0, .call .checkQuota (.checkSetupRequestEpoch 1 true))] ++
        (0, .call .checkQuota (.handleRestart (.quotas [⟨"old"⟩]) ⟨0⟩)) ::
        [(1, .call .checkQuota (.checkSetupRequestEpoch 2 true))] ++
        (1, .call .checkQuota (.handleRestart (.quotas [⟨"new"⟩]) ⟨0⟩)) :: [] := ⟨_, rfl, rfl⟩
  have hs := run_reachable .init hrun
  have hone : OneAtATime .checkQuota s.trace := by
    intro i j e e' rq rs hij h
    simp only [htr, List.cons_append, List.singleton_append, List.nil_append] at h
    repeat' first
      | exact hij rfl
      | (cases h <;> try rename_i h)
  have h := restarts_in_epoch_order Env.succeeding quotaSetups hs
  exact ⟨s, hs, hone, htr, h.1 _, h.2.2 .checkQuota hone (by decide) htr⟩

/-- A run of the two quota setups in which the older snapshot is restarted last. -/
theorem stale_restart_applied_last :
    ∃ s, Reachable Env.succeeding quotaSetups s ∧
      s.trace = [(0, .call .checkQuota (.checkSetupRequestEpoch 1 true)),
        (1, .call .checkQuota (.checkSetupRequestEpoch 2 true)),
        (1, .call .checkQuota (.handleRestart (.quotas [⟨"new"⟩]) ⟨0⟩)),
        (0, .call .checkQuota (.handleRestart (.quotas [⟨"old"⟩]) ⟨0⟩))] := by
  have hrun : run Env.succeeding (Sys.init Env.succeeding quotaSetups)
      [.rpc 0, .rpc 1, .rpc 1, .rpc 0, .loop, .loop] = some _ := rfl
  exact ⟨_, run_reachable .init hrun, rfl⟩

end Pipelined
