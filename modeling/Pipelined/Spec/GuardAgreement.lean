import Pipelined.Spec.Fencing

/-!
# The three guards of `SetupPolicyFlows` agree

`SetupPolicyFlows` checks its epoch on gy's guard, then on enforcement's, then on
enforcement_stats', and stops at the first that rejects it; no other handler checks these three
guards. So in every deployment enforcement's guard accepts only epochs gy's accepted, and
enforcement_stats' only epochs enforcement's accepted (`policy_guards_nested`). When
enforcement and enforcement_stats are enabled, the call whose epoch gy's guard accepted last
goes on to the other two, which accept it as well: whenever no call is about to check
enforcement or enforcement_stats, the three guards hold the same last epoch
(`policy_guards_agree`).

## Key results

- `PolicyInv`: the nesting of the three guards' logs, kept by every step
- `Handoff`: the last epoch one guard accepted is in the next guard's log, or a call is about
  to check it there
- `policy_guards_nested`, `policy_guards_agree`
-/

namespace Pipelined

open Work

/-- The policy checks of `p` come in the handler's order: a check on enforcement is of an epoch
    `gyOk` holds of, one on enforcement_stats of an epoch `enfOk` holds of, and a check passed
    counts for the rest of `p`; a check on gy is followed by one on enforcement, and one on
    enforcement by one on enforcement_stats, of the same epoch. -/
def Program.PolicyChecks (gyOk enfOk : Nat → Prop) : Program → Prop
  | .reply _ => True
  | .checkEpoch app epoch k =>
    (app = .enforcement → gyOk epoch) ∧ (app = .enforcementStats → enfOk epoch) ∧
    (app = .gy → ∃ k', k = .checkEpoch .enforcement epoch k') ∧
    (app = .enforcement → ∃ k', k = .checkEpoch .enforcementStats epoch k') ∧
    k.PolicyChecks (fun e => app = .gy ∧ e = epoch ∨ gyOk e)
      (fun e => app = .enforcement ∧ e = epoch ∨ enfOk e)
  | .post _ k => k.PolicyChecks gyOk enfOk
  | .await _ => True

theorem Program.PolicyChecks.mono {p : Program} {gyOk enfOk gyOk' enfOk' : Nat → Prop}
    (hgy : ∀ e, gyOk e → gyOk' e) (henf : ∀ e, enfOk e → enfOk' e)
    (h : p.PolicyChecks gyOk enfOk) : p.PolicyChecks gyOk' enfOk' := by
  induction p generalizing gyOk enfOk gyOk' enfOk' with
  | reply => trivial
  | checkEpoch app epoch k ih =>
    obtain ⟨h₁, h₂, h₃, h₄, hk⟩ := h
    exact ⟨fun ha => hgy _ (h₁ ha), fun ha => henf _ (h₂ ha), h₃, h₄,
      ih (fun e => Or.imp_right (hgy e)) (fun e => Or.imp_right (henf e)) hk⟩
  | post u k ih => exact ih hgy henf h
  | await => trivial

section Guards

variable {env : Env} {k : Program} {gyOk enfOk : Nat → Prop}

@[simp] theorem Program.policyChecks_requireApp {app : App} :
    (Handler.requireApp env app k).PolicyChecks gyOk enfOk ↔
      (env.isAppEnabled app → k.PolicyChecks gyOk enfOk) := by
  unfold Handler.requireApp; split <;> simp_all [Program.PolicyChecks]

@[simp] theorem Program.policyChecks_requireMacAddr {request : UEMacFlowRequest} :
    (Handler.requireMacAddr request k).PolicyChecks gyOk enfOk ↔
      (request.macAddr.length = 17 → k.PolicyChecks gyOk enfOk) := by
  unfold Handler.requireMacAddr; split <;> simp_all [Program.PolicyChecks]

@[simp] theorem Program.policyChecks_postIf {app : App} {u : Work Unit} :
    (Handler.postIf env app u k).PolicyChecks gyOk enfOk ↔ k.PolicyChecks gyOk enfOk := by
  unfold Handler.postIf; split <;> simp [Program.PolicyChecks]

end Guards

/-- Every handler makes its policy checks in order, whatever the guards accepted before. -/
theorem handle_policyChecks (env : Env) (r : Rpc) (gyOk enfOk : Nat → Prop) :
    (r.handle env).PolicyChecks gyOk enfOk := by
  cases r <;>
    simp [Program.PolicyChecks]

/-- An epoch check adds its epoch to the log of its guard, when the guard accepts it. -/
theorem acceptedEpochs_append_check (g app : App) (t : Trace) (epoch : Nat) (a : Bool) :
    acceptedEpochs g (t ++ [.call app (.checkSetupRequestEpoch epoch a)]) =
      acceptedEpochs g t ++ if a = true ∧ app = g then [epoch] else [] := by
  cases a <;> by_cases h : app = g <;> simp [acceptedEpochs, acceptedOf, h]

/-- A guard accepts an epoch above every epoch it accepted. -/
theorem epochIsNewer_of_lt {g : App} {t : Trace} {epoch : Nat}
    (h : ∀ x ∈ acceptedEpochs g t, x < epoch) :
    epochIsNewer (lastAcceptedEpoch g t) epoch = true := by
  rw [lastAcceptedEpoch_eq]
  cases hlast : (acceptedEpochs g t).getLast? with
  | none => rfl
  | some x => simpa [epochIsNewer] using h x (List.mem_of_getLast?_eq_some hlast)

/-! ## The guards' logs are nested -/

/-- What holds of the three guards' logs, and of the handlers still to check, in every
    reachable state. -/
structure PolicyInv (s : Sys) : Prop where
  enf_gy : ∀ e ∈ acceptedEpochs .enforcement s.events, e ∈ acceptedEpochs .gy s.events
  stats_enf :
    ∀ e ∈ acceptedEpochs .enforcementStats s.events, e ∈ acceptedEpochs .enforcement s.events
  threads : ∀ (i : Nat) (p : Program), s.threads[i]? = some (.running p) →
    p.PolicyChecks (· ∈ acceptedEpochs .gy s.events) (· ∈ acceptedEpochs .enforcement s.events)

variable {env : Env} {rpcs : List Rpc} {s : Sys}

/-- A thread's epoch check on an enabled guard adds its epoch to that guard's log when the guard
    accepts it. -/
theorem acceptedEpochs_stepThread_check {j : Nat} {app : App} {epoch : Nat} {k : Program}
    (hen : env.isAppEnabled app) (g : App) :
    acceptedEpochs g (Pipelined.stepThread env s j (.checkEpoch app epoch k)).events =
      acceptedEpochs g s.events ++
        if epochIsNewer (lastAcceptedEpoch app s.events) epoch = true ∧ app = g then [epoch]
        else [] := by
  simp only [Sys.events, (stepThread_checkEpoch env s j app epoch k).2.1, if_pos hen,
    List.map_append, List.map_singleton]
  exact acceptedEpochs_append_check g app _ epoch _

/-- A step that leaves the guards' logs as they were keeps the invariant, when each thread it
    leaves running checks in order. -/
theorem PolicyInv.of_logs_eq (h : PolicyInv s) {s' : Sys}
    (hacc : ∀ g, acceptedEpochs g s'.events = acceptedEpochs g s.events)
    (hrun : ∀ (i : Nat) (p : Program), s'.threads[i]? = some (.running p) →
      p.PolicyChecks (· ∈ acceptedEpochs .gy s.events) (· ∈ acceptedEpochs .enforcement s.events)) :
    PolicyInv s' := by
  refine ⟨fun e he => ?_, fun e he => ?_, fun i p hp => ?_⟩ <;> simp only [hacc] at *
  exacts [h.enf_gy e he, h.stats_enf e he, hrun i p hp]

theorem PolicyInv.stepThread (h : PolicyInv s) {j : Nat} {p : Program}
    (hp : s.threads[j]? = some (.running p)) : PolicyInv (Pipelined.stepThread env s j p) := by
  have hpc := h.threads j p hp
  -- the threads but `j` are as they were
  have hold : ∀ {th : Thread} {i : Nat} {q : Program}, (s.threads.set j th)[i]? =
      some (.running q) → th = .running q ∨ s.threads[i]? = some (.running q) := fun hi =>
    (getElem?_set_eq_some hi).imp (fun h => h.2) (fun h => h.2)
  cases p with
  | checkEpoch app epoch k =>
    obtain ⟨-, htr, hth⟩ := stepThread_checkEpoch env s j app epoch k
    by_cases hen : env.isAppEnabled app
    · rw [if_pos hen] at htr hth
      set a := epochIsNewer (lastAcceptedEpoch app s.events) epoch
      have hmem : ∀ g e,
          e ∈ acceptedEpochs g (Pipelined.stepThread env s j (.checkEpoch app epoch k)).events ↔
          e ∈ acceptedEpochs g s.events ∨ (a = true ∧ app = g ∧ e = epoch) := by
        intro g e
        rw [acceptedEpochs_stepThread_check hen, List.mem_append, List.mem_ite_nil_right,
          List.mem_singleton, and_assoc]
      have hgrow : ∀ g e, e ∈ acceptedEpochs g s.events →
          e ∈ acceptedEpochs g (Pipelined.stepThread env s j (.checkEpoch app epoch k)).events :=
        fun g e he => (hmem g e).2 (.inl he)
      obtain ⟨h₁, h₂, -, -, hk⟩ := hpc
      refine ⟨fun e he => ?_, fun e he => ?_, fun i q hq => ?_⟩
      · rcases (hmem _ e).1 he with he | ⟨-, rfl, rfl⟩
        exacts [hgrow _ e (h.enf_gy e he), hgrow _ _ (h₁ rfl)]
      · rcases (hmem _ e).1 he with he | ⟨-, rfl, rfl⟩
        exacts [hgrow _ e (h.stats_enf e he), hgrow _ _ (h₂ rfl)]
      · rw [hth] at hq
        rcases hold hq with hq | hq
        · -- the check passed: the rest of the program, with the epoch now accepted
          split_ifs at hq with ha
          cases hq
          have hnow : ∀ g e, app = g ∧ e = epoch ∨ e ∈ acceptedEpochs g s.events → e ∈
              acceptedEpochs g (Pipelined.stepThread env s j (.checkEpoch app epoch k)).events :=
            fun g e he => he.elim (fun h => (hmem g e).2 (.inr ⟨ha, h⟩)) (hgrow g e)
          exact hk.mono (hnow _) (hnow _)
        · exact (h.threads i q hq).mono (hgrow _) (hgrow _)
    · rw [if_neg hen] at htr hth
      refine h.of_logs_eq (by simp [Sys.events, htr]) fun i q hq => ?_
      rw [hth] at hq
      exact (hold hq).elim nofun (h.threads i q)
  | post u k =>
    refine h.of_logs_eq (fun _ => rfl) fun i q hq => ?_
    exact (hold hq).elim (fun hk => by cases hk; exact hpc) (h.threads i q)
  | reply _ | await _ =>
    exact h.of_logs_eq (fun _ => rfl) fun i q hq => (hold hq).elim nofun (h.threads i q)

/-- The loop's step leaves every guard's log as it was: units make no epoch check. -/
theorem EpochInv.acceptedEpochs_runJob (h : EpochInv rpcs s) {job : Job} {rest : List Job}
    (hq : s.queue = job :: rest) (g : App) :
    acceptedEpochs g (runJob { s with queue := rest } job).events = acceptedEpochs g s.events := by
  obtain ⟨new, hnew, hP⟩ := h.jobs job (hq ▸ List.mem_cons_self job rest) s.events
  have htr : (runJob { s with queue := rest } job).trace = s.trace ++ new.map (job.owner, ·) :=
    runJob_trace hnew
  have hev : (runJob { s with queue := rest } job).events = s.events ++ new := by
    simp [Sys.events, htr, Function.comp_def]
  have hnil : acceptedEpochs g new = [] :=
    List.filterMap_eq_nil_iff.2 fun e he => acceptedOf_eq_none (hP e he) g
  rw [hev, acceptedEpochs, List.filterMap_append, ← acceptedEpochs, ← acceptedEpochs, hnil,
    List.append_nil]

theorem PolicyInv.loopStep (h : PolicyInv s) (he : EpochInv rpcs s) {job : Job} {rest : List Job}
    (hq : s.queue = job :: rest) : PolicyInv (runJob { s with queue := rest } job) := by
  obtain ⟨-, -, -, hth⟩ := runJob_frame { s with queue := rest } job
  refine h.of_logs_eq (he.acceptedEpochs_runJob hq) fun i p hp => h.threads i p ?_
  rcases hth with hth | ⟨r, hth⟩
  · exact hth ▸ hp
  · rw [hth] at hp
    exact ((getElem?_set_eq_some hp).resolve_left fun ⟨_, h⟩ => nomatch h).2

theorem policyInv_of_reachable (hs : Reachable env rpcs s) : PolicyInv s := by
  induction hs with
  | init =>
    refine ⟨by simp [Sys.init, Sys.events, acceptedEpochs], by simp [Sys.init, Sys.events,
      acceptedEpochs], fun i p hp => ?_⟩
    obtain ⟨r, -, rfl⟩ := init_running hp
    exact handle_policyChecks env r _ _
  | step c hr hn ih =>
    rcases next_eq_some hn with ⟨j, p, rfl, hp, rfl⟩ | ⟨job, rest, rfl, hq, rfl⟩
    exacts [ih.stepThread hp, ih.loopStep (epochInv_of_reachable hr) hq]

/-- Two `SetupPolicyFlows` calls: the older passes gy, the newer passes all three guards, and
    the older is then fenced by enforcement's guard. -/
def racingPolicySetups : List Rpc :=
  [.setupPolicyFlows ⟨[], 1⟩, .setupPolicyFlows ⟨[], 2⟩]

/-- In every deployment and under any interleaving, enforcement's guard has accepted only
    epochs gy's guard accepted, and enforcement_stats' only epochs enforcement's accepted. -/
theorem policy_guards_nested (hs : Reachable env rpcs s) :
    (∀ e ∈ acceptedEpochs .enforcement s.events, e ∈ acceptedEpochs .gy s.events) ∧
      ∀ e ∈ acceptedEpochs .enforcementStats s.events, e ∈ acceptedEpochs .enforcement s.events :=
  ⟨(policyInv_of_reachable hs).enf_gy, (policyInv_of_reachable hs).stats_enf⟩

theorem policy_guards_nested_racingPolicySetups :
    ∃ s, Reachable Env.succeeding racingPolicySetups s ∧ acceptedEpochs .gy s.events = [1, 2] ∧
      acceptedEpochs .enforcement s.events = [2] ∧
      (∀ e ∈ acceptedEpochs .enforcement s.events, e ∈ acceptedEpochs .gy s.events) ∧
      ∀ e ∈ acceptedEpochs .enforcementStats s.events, e ∈ acceptedEpochs .enforcement s.events := by
  have hrun : run Env.succeeding (Sys.init Env.succeeding racingPolicySetups)
      [.rpc 0, .rpc 1, .rpc 1, .rpc 1, .rpc 0] = some _ := rfl
  have hs := run_reachable .init hrun
  exact ⟨_, hs, rfl, rfl, policy_guards_nested hs⟩

/-! ## The last accepted epoch is handed on -/

/-- Guard `g₂` comes right after guard `g₁`: it accepted only epochs `g₁` accepted, and a call
    that checks on `g₁` checks the same epoch on `g₂` next. -/
structure Follows (g₁ g₂ : App) (s : Sys) : Prop where
  sub : ∀ e ∈ acceptedEpochs g₂ s.events, e ∈ acceptedEpochs g₁ s.events
  next : ∀ (i e : Nat) (k : Program), s.threads[i]? = some (.running (.checkEpoch g₁ e k)) →
    ∃ k', k = .checkEpoch g₂ e k'

theorem PolicyInv.follows_gy (h : PolicyInv s) : Follows .gy .enforcement s :=
  ⟨h.enf_gy, fun i _ _ hi => (h.threads i _ hi).2.2.1 rfl⟩

theorem PolicyInv.follows_enforcement (h : PolicyInv s) :
    Follows .enforcement .enforcementStats s :=
  ⟨h.stats_enf, fun i _ _ hi => (h.threads i _ hi).2.2.2.1 rfl⟩

/-- The last epoch guard `g₁` accepted is in guard `g₂`'s log, or a call is about to check it
    on `g₂`. -/
def Handoff (g₁ g₂ : App) (s : Sys) : Prop :=
  ∀ e, (acceptedEpochs g₁ s.events).getLast? = some e →
    e ∈ acceptedEpochs g₂ s.events ∨
      ∃ (i : Nat) (k : Program), s.threads[i]? = some (.running (.checkEpoch g₂ e k))

section Handoff

variable {g₁ g₂ : App}

/-- A step that leaves the guards' logs as they were, and each thread about to check on `g₂`,
    keeps the hand-off. -/
theorem Handoff.frame (h : Handoff g₁ g₂ s) {s' : Sys}
    (hacc : ∀ g, acceptedEpochs g s'.events = acceptedEpochs g s.events)
    (hth : ∀ (i e : Nat) (k : Program), s.threads[i]? = some (.running (.checkEpoch g₂ e k)) →
      s'.threads[i]? = s.threads[i]?) : Handoff g₁ g₂ s' := by
  intro e hlast
  rw [hacc] at hlast ⊢
  exact (h e hlast).imp_right fun ⟨i, k, hi⟩ => ⟨i, k, (hth i e k hi).trans hi⟩

theorem Handoff.stepThread (h : Handoff g₁ g₂ s) (hf : Follows g₁ g₂ s)
    (hen : env.isAppEnabled g₂) (hsorted : (acceptedEpochs g₁ s.events).Pairwise (· < ·))
    {j : Nat} {p : Program} (hp : s.threads[j]? = some (.running p)) :
    Handoff g₁ g₂ (Pipelined.stepThread env s j p) := by
  have hother : ∀ i, i ≠ j → (Pipelined.stepThread env s j p).threads[i]? = s.threads[i]? :=
    fun _ hij => stepThread_threads_ne hij.symm
  -- the thread about to check on `g₂` is `j` only when `p` is that check
  have hj₂ : ∀ (i e : Nat) (k : Program), s.threads[i]? = some (.running (.checkEpoch g₂ e k)) →
      i = j → p = .checkEpoch g₂ e k := by
    rintro i e k hi rfl
    rw [hp] at hi
    cases hi
    rfl
  cases p with
  | checkEpoch app epoch k =>
    by_cases hen' : env.isAppEnabled app
    · have hacc := @acceptedEpochs_stepThread_check env s j app epoch k hen'
      intro e hlast
      by_cases hnew : epochIsNewer (lastAcceptedEpoch app s.events) epoch = true ∧ app = g₁
      · -- `j` passed `g₁` with `e`, and checks it on `g₂` next
        obtain ⟨ha, rfl⟩ := hnew
        rw [hacc, if_pos ⟨ha, rfl⟩, List.getLast?_concat, Option.some.injEq] at hlast
        obtain ⟨k', rfl⟩ := hf.next j epoch k hp
        refine .inr ⟨j, k', ?_⟩
        rw [(stepThread_checkEpoch env s j app epoch _).2.2, if_pos hen', if_pos ha, ← hlast,
          List.getElem?_set_self (List.getElem?_eq_some_iff.1 hp).1]
      · rw [hacc, if_neg hnew, List.append_nil] at hlast
        have hgrow : e ∈ acceptedEpochs g₂ s.events →
            e ∈ acceptedEpochs g₂ (Pipelined.stepThread env s j (.checkEpoch app epoch k)).events :=
          fun he => by rw [hacc]; exact List.mem_append_left _ he
        rcases h e hlast with he | ⟨i, k₀, hi⟩
        · exact .inl (hgrow he)
        by_cases hij : i = j
        · -- `j` checks `e` on `g₂`, above every epoch `g₂` accepted unless `g₂` has it
          obtain ⟨rfl, rfl, -⟩ : app = g₂ ∧ epoch = e ∧ k = k₀ := by
            simpa using hj₂ i e k₀ hi hij
          by_cases he : epoch ∈ acceptedEpochs app s.events
          · exact .inl (hgrow he)
          have ha : epochIsNewer (lastAcceptedEpoch app s.events) epoch = true :=
            epochIsNewer_of_lt fun x hx => lt_of_le_of_ne
              (List.le_of_getLast?_eq hsorted hlast (hf.sub x hx)) fun hxe => he (hxe ▸ hx)
          refine .inl ?_
          rw [hacc, if_pos ⟨ha, rfl⟩]
          exact List.mem_append_right _ (List.mem_singleton_self epoch)
        · exact .inr ⟨i, k₀, (hother i hij).trans hi⟩
    · -- the guard is absent: the call raises and no log changes
      refine h.frame (fun g => by simp [Sys.events, (stepThread_checkEpoch env s j app epoch k).2.1,
        hen']) fun i e k' hi => hother i fun hij => ?_
      cases hj₂ i e k' hi hij
      exact absurd hen hen'
  | _ => exact h.frame (fun _ => rfl) fun i e k hi => hother i fun hij => nomatch hj₂ i e k hi hij

/-- The loop's step keeps the hand-off: a call about to check has no unit on the loop. -/
theorem Handoff.loopStep (h : Handoff g₁ g₂ s) (he : EpochInv rpcs s)
    (hfence : ∀ i, FenceInv env i s) {job : Job} {rest : List Job}
    (hq : s.queue = job :: rest) : Handoff g₁ g₂ (runJob { s with queue := rest } job) := by
  refine h.frame (he.acceptedEpochs_runJob hq) fun i e k hi => runJob_threads_ne ?_
  rintro rfl
  have := (hfence job.owner).started (.inr ⟨job, hq ▸ List.mem_cons_self job rest, rfl⟩) _ hi
  simp [Program.checks] at this

/-- The hand-off from `g₁` to `g₂` holds in every reachable state in which `g₂` follows `g₁`,
    when `g₂` is enabled. -/
theorem handoff_of_reachable (hen : env.isAppEnabled g₂)
    (hf : ∀ {s}, PolicyInv s → Follows g₁ g₂ s) (hs : Reachable env rpcs s) : Handoff g₁ g₂ s := by
  induction hs with
  | init => simp [Handoff, Sys.init, Sys.events, acceptedEpochs]
  | step c hr hn ih =>
    rcases next_eq_some hn with ⟨j, p, rfl, hp, rfl⟩ | ⟨job, rest, rfl, hq, rfl⟩
    · exact ih.stepThread (hf (policyInv_of_reachable hr)) hen
        ((epochInv_of_reachable hr).sorted g₁) hp
    · exact ih.loopStep (epochInv_of_reachable hr) (fenceInv_of_reachable hr) hq

/-- Once no call is about to check on `g₂`, the two guards hold the same last epoch. -/
theorem Handoff.getLast?_eq (h : Handoff g₁ g₂ s) (hf : Follows g₁ g₂ s)
    (hsorted : ∀ g, (acceptedEpochs g s.events).Pairwise (· < ·))
    (hidle : ∀ (i e : Nat) (k : Program), s.threads[i]? ≠ some (.running (.checkEpoch g₂ e k))) :
    (acceptedEpochs g₁ s.events).getLast? = (acceptedEpochs g₂ s.events).getLast? := by
  cases hlast : (acceptedEpochs g₁ s.events).getLast? with
  | none =>
    rw [List.getLast?_eq_none_iff] at hlast
    rw [eq_comm, List.getLast?_eq_none_iff, List.eq_nil_iff_forall_not_mem]
    exact fun e he => by simpa [hlast] using hf.sub e he
  | some e =>
    have he := (h e hlast).resolve_right fun ⟨i, k, hi⟩ => hidle i e k hi
    exact (List.getLast?_eq_of_mem (hsorted g₂) he fun x hx =>
      List.le_of_getLast?_eq (hsorted g₁) hlast (hf.sub x hx)).symm

end Handoff

/-- With enforcement and enforcement_stats enabled, whenever no call is about to check on
    either, the three guards of `SetupPolicyFlows` hold the same last epoch, under any
    interleaving of the calls. -/
theorem policy_guards_agree (henf : env.isAppEnabled .enforcement)
    (hstats : env.isAppEnabled .enforcementStats) (hs : Reachable env rpcs s)
    (hidle : ∀ (i : Nat) (app : App) (e : Nat) (k : Program),
      s.threads[i]? = some (.running (.checkEpoch app e k)) →
      app ≠ .enforcement ∧ app ≠ .enforcementStats) :
    lastAcceptedEpoch .gy s.events = lastAcceptedEpoch .enforcement s.events ∧
      lastAcceptedEpoch .enforcement s.events = lastAcceptedEpoch .enforcementStats s.events := by
  have hpol := policyInv_of_reachable hs
  have hsorted := (epochInv_of_reachable hs).sorted
  simp only [lastAcceptedEpoch_eq]
  exact ⟨(handoff_of_reachable henf PolicyInv.follows_gy hs).getLast?_eq hpol.follows_gy hsorted
      fun i e k hi => (hidle i _ e k hi).1 rfl,
    (handoff_of_reachable hstats PolicyInv.follows_enforcement hs).getLast?_eq
      hpol.follows_enforcement hsorted fun i e k hi => (hidle i _ e k hi).2 rfl⟩

theorem policy_guards_agree_racingPolicySetups :
    ∃ s, Reachable Env.succeeding racingPolicySetups s ∧ acceptedEpochs .gy s.events = [1, 2] ∧
      lastAcceptedEpoch .gy s.events = lastAcceptedEpoch .enforcement s.events ∧
      lastAcceptedEpoch .enforcement s.events = lastAcceptedEpoch .enforcementStats s.events := by
  have hrun : run Env.succeeding (Sys.init Env.succeeding racingPolicySetups)
      [.rpc 0, .rpc 1, .rpc 1, .rpc 1, .rpc 0, .rpc 1, .loop] = some _ := rfl
  have hs := run_reachable .init hrun
  refine ⟨_, hs, rfl, policy_guards_agree rfl rfl hs ?_⟩
  rintro (_ | _ | i) app e k hi <;> cases hi

end Pipelined
