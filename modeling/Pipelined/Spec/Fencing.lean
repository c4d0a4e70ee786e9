import Pipelined.Spec.EpochOrder

/-!
# A fenced setup call changes nothing

The setup handlers check their epochs on the controllers' Epoch Guards from their own thread,
before they post anything (`handle_checksFirst`), and a handler answers a guard's last known
result as soon as that guard rejects its epoch. So in every run, a call with a rejected epoch
check has made no effect but epoch checks, has no unit on the loop, and was answered with the
result the rejecting guard knew when it checked (`fenced_call_only_checks`). The epochs that
other guards accepted for it before the rejection stay recorded: `SetupPolicyFlows` checks gy,
enforcement and enforcement_stats one after another.

## Key results

- `FenceInv`: what holds of each call in every reachable state (`fenceInv_of_reachable`), from
  `FenceInv.stepThread_self`, `FenceInv.frame` and `FenceInv.loopStep`
- `fenced_call_only_checks`: a fenced call only checked epochs, and was answered
-/

namespace Pipelined

open Work

theorem Event.not_isEpochCheck_of_restartsOnly {ok : App → Prop} {e : Event}
    (h : e.RestartsOnly ok) : ¬e.isEpochCheck := by
  unfold Event.RestartsOnly at h
  unfold Event.isEpochCheck
  split <;> simp_all

/-! ## Handlers check before they post -/

/-- Whether a program has an epoch check left. -/
def Program.checks : Program → Bool
  | .reply _ => false
  | .checkEpoch _ _ _ => true
  | .post _ k => k.checks
  | .await _ => false

/-- A program makes its epoch checks before it posts anything. -/
def Program.ChecksFirst : Program → Prop
  | .reply _ => True
  | .checkEpoch _ _ k => k.ChecksFirst
  | .post _ k => k.checks = false
  | .await _ => True

theorem Program.checksFirst_of_checks {p : Program} (h : p.checks = false) : p.ChecksFirst := by
  cases p with
  | reply => trivial
  | checkEpoch => cases h
  | post u k => exact h
  | await => trivial

@[simp] theorem Program.checks_postIf {env : Env} {app : App} {u : Work Unit} {k : Program} :
    (Handler.postIf env app u k).checks = k.checks := by
  unfold Handler.postIf; split <;> rfl

@[simp] theorem Program.checksFirst_requireApp {env : Env} {app : App} {k : Program} :
    (Handler.requireApp env app k).ChecksFirst ↔ (env.isAppEnabled app → k.ChecksFirst) := by
  unfold Handler.requireApp; split <;> simp_all [Program.ChecksFirst]

@[simp] theorem Program.checksFirst_requireMacAddr {request : UEMacFlowRequest} {k : Program} :
    (Handler.requireMacAddr request k).ChecksFirst ↔
      (request.macAddr.length = 17 → k.ChecksFirst) := by
  unfold Handler.requireMacAddr; split <;> simp_all [Program.ChecksFirst]

@[simp] theorem Program.checksFirst_postIf {env : Env} {app : App} {u : Work Unit}
    {k : Program} :
    (Handler.postIf env app u k).ChecksFirst ↔
      (env.isAppEnabled app → k.checks = false) ∧ (env.isAppEnabled app = false → k.ChecksFirst) := by
  unfold Handler.postIf; split <;> simp_all [Program.ChecksFirst]

/-- Every handler checks its epochs before it posts anything. -/
theorem handle_checksFirst (env : Env) (r : Rpc) : (r.handle env).ChecksFirst := by
  cases r <;>
    simp [Program.ChecksFirst, Program.checks]

/-! ## The invariant -/

/-- Call `i` has done more than check epochs: it made another effect, or has a unit on the
    loop. -/
def Started (i : Nat) (s : Sys) : Prop :=
  (∃ e, (i, e) ∈ s.trace ∧ ¬e.isEpochCheck) ∨ ∃ job ∈ s.queue, job.owner = i

/-- What holds of call `i` in every reachable state. -/
structure FenceInv (env : Env) (i : Nat) (s : Sys) : Prop where
  /-- A running handler still checks before it posts. -/
  first : ∀ p, s.threads[i]? = some (.running p) → p.ChecksFirst
  /-- A call that has started checks no more epochs. -/
  started : Started i s → ∀ p, s.threads[i]? = some (.running p) → p.checks = false
  /-- A rejected check stops the call: it has not started, and it answered the rejecting
      guard's result as of the check. -/
  fenced : ∀ g epoch, (i, Event.call g (.checkSetupRequestEpoch epoch false)) ∈ s.trace →
    ¬Started i s ∧ ∃ pre post,
      s.trace = pre ++ (i, Event.call g (.checkSetupRequestEpoch epoch false)) :: post ∧
      s.threads[i]? = some (.replied (.setupFlowsResult (env.fencedResult (pre.map (·.2)) g)))

variable {env : Env} {rpcs : List Rpc} {i : Nat} {s : Sys}

/-- A running call has no rejected check. -/
theorem FenceInv.not_fenced (h : FenceInv env i s) {p : Program}
    (hp : s.threads[i]? = some (.running p)) (g : App) (epoch : Nat) :
    (i, Event.call g (.checkSetupRequestEpoch epoch false)) ∉ s.trace := fun hm => by
  obtain ⟨-, _, _, -, hr⟩ := h.fenced g epoch hm
  rw [hp] at hr
  cases hr

/-- A step that leaves call `i`'s thread alone, and adds no effect and no unit of `i`, keeps
    the invariant. -/
theorem FenceInv.frame (h : FenceInv env i s) {s' : Sys} (new : List (Nat × Event))
    (htr : s'.trace = s.trace ++ new) (hnew : ∀ x ∈ new, x.1 ≠ i)
    (hq : ∀ job ∈ s'.queue, job.owner = i → job ∈ s.queue)
    (hth : s'.threads[i]? = s.threads[i]?) : FenceInv env i s' := by
  have hmem : ∀ e, (i, e) ∈ s'.trace → (i, e) ∈ s.trace := fun e he => by
    rw [htr, List.mem_append] at he
    exact he.resolve_right fun hx => hnew _ hx rfl
  have hstart : Started i s' → Started i s := by
    rintro (⟨e, he, hc⟩ | ⟨job, hj, hown⟩)
    · exact .inl ⟨e, hmem e he, hc⟩
    · exact .inr ⟨job, hq job hj hown, hown⟩
  refine ⟨fun p hp => h.first p (hth.symm.trans hp),
    fun hs p hp => h.started (hstart hs) p (hth.symm.trans hp), fun g epoch hm => ?_⟩
  obtain ⟨hns, pre, post, hpre, hr⟩ := h.fenced g epoch (hmem _ hm)
  exact ⟨fun hs => hns (hstart hs), pre, post ++ new, by simp [htr, hpre], hth.trans hr⟩

/-- A step of call `i` that adds no effect, from a state where no check of `i` was rejected,
    keeps the invariant when `i`'s thread has no check left. -/
theorem fenceInv_of_no_checks {s' : Sys}
    (hnf : ∀ g epoch, (i, Event.call g (.checkSetupRequestEpoch epoch false)) ∉ s.trace)
    (htr : s'.trace = s.trace)
    (hth : ∀ p, s'.threads[i]? = some (.running p) → p.checks = false) : FenceInv env i s' :=
  ⟨fun p hp => Program.checksFirst_of_checks (hth p hp), fun _ => hth,
    fun g epoch hm => absurd (htr ▸ hm) (hnf g epoch)⟩

/-- Call `i`'s own step keeps the invariant. -/
theorem FenceInv.stepThread_self (h : FenceInv env i s) {p : Program}
    (hp : s.threads[i]? = some (.running p)) : FenceInv env i (stepThread env s i p) := by
  have hi : i < s.threads.length := (List.getElem?_eq_some_iff.1 hp).1
  have hnf := h.not_fenced hp
  cases p with
  | reply _ | await _ => exact fenceInv_of_no_checks hnf rfl (by simp [stepThread, hi])
  | post u k =>
    refine fenceInv_of_no_checks hnf rfl fun p hp' => ?_
    simp only [stepThread, Sys.setThread_threads, Sys.enqueue_threads, List.getElem?_set_self hi,
      Option.some.injEq, Thread.running.injEq] at hp'
    exact hp' ▸ h.first _ hp
  | checkEpoch app epoch k =>
    -- The call has not started; the step adds one epoch check, when the guard is there.
    have hns : ¬Started i s := fun hs => by simpa [Program.checks] using h.started hs _ hp
    obtain ⟨hq, htr, hth⟩ := stepThread_checkEpoch env s i app epoch k
    have hstart : ¬Started i (stepThread env s i (.checkEpoch app epoch k)) := by
      rintro (⟨e, he, hc⟩ | ⟨job, hj, hown⟩)
      · rw [htr, List.mem_append] at he
        rcases he with he | he
        · exact hns (.inl ⟨e, he, hc⟩)
        · split_ifs at he <;> simp only [List.mem_singleton, Prod.mk.injEq, List.not_mem_nil] at he
          exact hc (he.2 ▸ rfl)
      · exact hns (.inr ⟨job, hq ▸ hj, hown⟩)
    refine ⟨fun p hp' => ?_, fun hs => absurd hs hstart, fun g e hm => ⟨hstart, ?_⟩⟩
    · rw [hth, List.getElem?_set_self hi] at hp'
      split_ifs at hp' <;> cases hp'
      exact h.first (.checkEpoch app epoch k) hp
    · rw [htr, List.mem_append] at hm
      rcases hm with hm | hm
      · exact absurd hm (hnf g e)
      split_ifs at hm with hen
      · simp only [List.mem_singleton, Prod.mk.injEq, Event.call.injEq,
          Op.checkSetupRequestEpoch.injEq] at hm
        obtain ⟨-, rfl, rfl, hacc⟩ := hm
        refine ⟨s.trace, [], by rw [htr, if_pos hen, ← hacc], ?_⟩
        rw [hth, List.getElem?_set_self hi, if_pos hen, ← hacc, if_neg Bool.false_ne_true]
        rfl
      · simp at hm

/-- Another call's step keeps call `i`'s invariant. -/
theorem FenceInv.stepThread_other (h : FenceInv env i s) {j : Nat} (hji : j ≠ i) (p : Program) :
    FenceInv env i (stepThread env s j p) := by
  obtain ⟨new, jobs, th, htr, hq, hth, hown⟩ := stepThread_frame env s j p
  refine h.frame _ htr (by simp [hji]) (fun job hj hi => ?_) (by rw [hth, List.getElem?_set_ne hji])
  rw [hq, List.mem_append] at hj
  exact hj.resolve_right fun hj => hji (hown job hj ▸ hi)

/-- The loop running a unit that makes no epoch check keeps the invariant. -/
theorem FenceInv.loopStep (h : FenceInv env i s) {job : Job} {rest : List Job}
    (hq : s.queue = job :: rest) {ok : App → Prop} (hjob : RestartsOnly ok job.unit) :
    FenceInv env i (runJob { s with queue := rest } job) := by
  obtain ⟨new, hnew, hP⟩ := hjob s.events
  have htr : (runJob { s with queue := rest } job).trace = s.trace ++ new.map (job.owner, ·) :=
    runJob_trace hnew
  obtain ⟨-, -, hq', hth⟩ := runJob_frame { s with queue := rest } job
  have hq' : (runJob { s with queue := rest } job).queue = rest := hq'
  have hrest : ∀ j ∈ (runJob { s with queue := rest } job).queue, j ∈ s.queue :=
    fun j hj => hq ▸ List.mem_cons_of_mem job (hq' ▸ hj)
  by_cases hown : job.owner = i
  · -- Call `i`'s unit ran: it had started, and the unit checks no epoch.
    have hs : Started i s := .inr ⟨job, hq ▸ List.mem_cons_self job rest, hown⟩
    have hrun : ∀ p, (runJob { s with queue := rest } job).threads[i]? = some (.running p) →
        s.threads[i]? = some (.running p) := fun p hp => by
      rcases hth with hth | ⟨r, hth⟩
      · exact hth ▸ hp
      · rw [hth] at hp
        rcases getElem?_set_eq_some hp with ⟨-, hr⟩ | ⟨hne, -⟩
        · cases hr
        · exact absurd hown.symm hne
    refine ⟨fun p hp => h.first p (hrun p hp), fun _ p hp => h.started hs p (hrun p hp),
      fun g e hm => ?_⟩
    rw [htr, List.mem_append] at hm
    rcases hm with hm | hm
    · exact absurd hs (h.fenced g e hm).1
    · obtain ⟨x, hx, he⟩ := List.mem_map.1 hm
      cases he
      exact absurd rfl (Event.not_isEpochCheck_of_restartsOnly (hP _ hx))
  · refine h.frame _ htr (by simp [hown]) (fun j hj _ => hrest j hj) ?_
    rcases hth with hth | ⟨r, hth⟩
    · rw [hth]
    · rw [hth, List.getElem?_set_ne hown]

theorem fenceInv_init (env : Env) (rpcs : List Rpc) (i : Nat) :
    FenceInv env i (Sys.init env rpcs) where
  first p hp := by
    simp only [Sys.init, List.getElem?_map] at hp
    cases hr : rpcs[i]? with
    | none => simp [hr] at hp
    | some r =>
      simp only [hr, Option.map_some', Option.some.injEq, Thread.running.injEq] at hp
      exact hp ▸ handle_checksFirst env r
  started hs := by
    rcases hs with ⟨_, he, -⟩ | ⟨_, hj, -⟩
    · simp [Sys.init] at he
    · simp [Sys.init] at hj
  fenced _ _ hm := nomatch hm

/-- Every reachable state satisfies the invariant, for every call. -/
theorem fenceInv_of_reachable (hs : Reachable env rpcs s) (i : Nat) : FenceInv env i s := by
  induction hs with
  | init => exact fenceInv_init env rpcs i
  | step c hs hn ih =>
    rcases next_eq_some hn with ⟨j, p, rfl, hp, rfl⟩ | ⟨job, rest, rfl, hq, rfl⟩
    · by_cases hji : j = i
      · subst hji
        exact ih.stepThread_self hp
      · exact ih.stepThread_other hji p
    · exact ih.loopStep hq ((epochInv_of_reachable hs).jobs job (hq ▸ List.mem_cons_self job rest))

/-! ## Fenced calls -/

/-- In every run, a call with a rejected epoch check has made no effect but epoch checks, has no
    unit on the loop, and was answered with the rejecting guard's last known result as of the
    check. -/
theorem fenced_call_only_checks (env : Env) (rpcs : List Rpc) {s : Sys}
    (hs : Reachable env rpcs s) {i : Nat} {g : App} {epoch : Nat}
    (hrej : (i, Event.call g (.checkSetupRequestEpoch epoch false)) ∈ s.trace) :
    (∀ e, (i, e) ∈ s.trace → e.isEpochCheck) ∧ (∀ job ∈ s.queue, job.owner ≠ i) ∧
    ∃ pre post, s.trace = pre ++ (i, Event.call g (.checkSetupRequestEpoch epoch false)) :: post ∧
      s.threads[i]? = some (.replied (.setupFlowsResult (env.fencedResult (pre.map (·.2)) g))) := by
  obtain ⟨hns, hans⟩ := (fenceInv_of_reachable hs i).fenced g epoch hrej
  refine ⟨fun e he => ?_, fun job hj hown => hns (.inr ⟨job, hj, hown⟩), hans⟩
  by_contra hc
  exact hns (.inl ⟨e, he, hc⟩)

/-- Two quota setups, the newer first. -/
def staleQuotaSetup : List Rpc :=
  [.setupQuotaFlows ⟨[⟨"new"⟩], 2⟩, .setupQuotaFlows ⟨[⟨"old"⟩], 1⟩]

theorem fenced_call_only_checks_staleQuotaSetup :
    ∃ s, Reachable Env.succeeding staleQuotaSetup s ∧
      (1, Event.call .checkQuota (.checkSetupRequestEpoch 1 false)) ∈ s.trace ∧
      (∀ e, (1, e) ∈ s.trace → e.isEpochCheck) ∧ (∀ job ∈ s.queue, job.owner ≠ 1) ∧
      ∃ pre post, s.trace = pre ++ (1, Event.call .checkQuota (.checkSetupRequestEpoch 1 false)) ::
        post ∧ s.threads[1]? = some (.replied (.setupFlowsResult
          (Env.succeeding.fencedResult (pre.map (·.2)) .checkQuota))) := by
  obtain ⟨s, hrun, htr⟩ : ∃ s, run Env.succeeding (Sys.init Env.succeeding staleQuotaSetup)
      [.rpc 0, .rpc 0, .loop, .rpc 1] = some s ∧
      s.trace = [(0, .call .checkQuota (.checkSetupRequestEpoch 2 true)),
        (0, .call .checkQuota (.handleRestart (.quotas [⟨"new"⟩]) ⟨0⟩)),
        (1, .call .checkQuota (.checkSetupRequestEpoch 1 false))] := ⟨_, rfl, rfl⟩
  have hs := run_reachable .init hrun
  have hrej : (1, Event.call .checkQuota (.checkSetupRequestEpoch 1 false)) ∈ s.trace := by
    simp [htr]
  exact ⟨s, hs, hrej, fenced_call_only_checks Env.succeeding staleQuotaSetup hs hrej⟩

end Pipelined
