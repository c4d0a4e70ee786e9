import Pipelined.Spec.Interleaving

/-!
# When an answer means the work is done

Most handlers block on the future of the one unit they post (`return fut.result()`), so their
answer is set by the unit's last step. Once such a call is answered it has no unit left on the
loop, and no later step of any call changes its answer or adds to its effects
(`waiting_call_answered_after_effects`). `DeactivateFlows`, `UpdateIPFIXFlow`, `CreateFlow`,
`RemoveFlow`, `UpdateSubscriberQuotaState` and `DeleteUEMacFlow` instead return right after
`call_soon_threadsafe`, while their units are still on the loop.

## Key results

- `WaitInv`: a call whose handler waits for its units has a unit on the loop only while it
  waits, and at most one; kept by every step
- `Quiet`: an answered call with no unit on the loop stays answered and makes no effect, under
  every run
- `waiting_call_answered_after_effects`
-/

namespace Pipelined

/-- A program that posts no unit it does not wait for. -/
def Program.NoPost : Program → Bool
  | .reply _ => true
  | .checkEpoch _ _ k => k.NoPost
  | .post _ _ => false
  | .await _ => true

/-- The calls whose handler waits for every unit it posts. -/
def Rpc.waitsForUnits : Rpc → Bool
  | .deactivateFlows _ | .updateIPFIXFlow _ | .createFlow _ | .removeFlow _ | .deleteUEMacFlow _
  | .updateSubscriberQuotaState _ => false
  | _ => true

theorem handle_noPost (env : Env) {r : Rpc} (h : r.waitsForUnits) : (r.handle env).NoPost := by
  cases r <;> simp only [Rpc.waitsForUnits, Bool.false_eq_true] at h <;>
    simp [Handler.requireApp, Handler.requireMacAddr] <;> (try split_ifs) <;> rfl

/-! ## A call that waits has a unit on the loop only while it waits -/

/-- What holds of call `i` in every reachable state, when its handler waits for its units. -/
structure WaitInv (i : Nat) (s : Sys) : Prop where
  /-- The rest of its handler posts no unit it does not wait for. -/
  running : ∀ p, s.threads[i]? = some (.running p) → p.NoPost
  /-- It has a unit on the loop only while it waits, -/
  idle : s.threads[i]? ≠ some .waiting → ∀ job ∈ s.queue, job.owner ≠ i
  /-- and at most one. -/
  one : s.jobsOf i ≤ 1

section Step

variable {env : Env} {i : Nat} {s : Sys}

/-- Another thread's step keeps the invariant of call `i`. -/
theorem WaitInv.stepThread_other (h : WaitInv i s) {j : Nat} (hji : j ≠ i) (p : Program) :
    WaitInv i (Pipelined.stepThread env s j p) := by
  obtain ⟨-, jobs, -, -, hq, -, hown⟩ := stepThread_frame env s j p
  have hi : (Pipelined.stepThread env s j p).threads[i]? = s.threads[i]? :=
    stepThread_threads_ne hji
  have hjobs : (Pipelined.stepThread env s j p).jobsOf i = s.jobsOf i := by
    rw [Sys.jobsOf, hq, jobsOf_append s jobs fun job hj => (hown job hj).symm ▸ hji]; rfl
  refine ⟨fun p' hp => h.running p' (hi ▸ hp), fun hw job hj => ?_, hjobs ▸ h.one⟩
  rw [hq, List.mem_append] at hj
  exact hj.elim (h.idle (hi ▸ hw) job) fun hj => (hown job hj).symm ▸ hji

/-- Call `i`'s own step keeps its invariant: it answers, checks, or posts the one unit it
    waits for. -/
theorem WaitInv.stepThread_self (h : WaitInv i s) {p : Program}
    (hp : s.threads[i]? = some (.running p)) : WaitInv i (Pipelined.stepThread env s i p) := by
  have hlt : i < s.threads.length := (List.getElem?_eq_some_iff.1 hp).1
  have hnone : ∀ job ∈ s.queue, job.owner ≠ i := h.idle (by rw [hp]; exact nofun)
  have hnp := h.running p hp
  -- a step that leaves the loop alone
  have hkeep : ∀ {s' : Sys} {th : Thread}, s'.queue = s.queue → s'.threads = s.threads.set i th →
      (∀ k, th = .running k → k.NoPost) → WaitInv i s' := fun hq hth hk =>
    ⟨fun k hk' => hk k (by rwa [hth, List.getElem?_set_self hlt, Option.some.injEq] at hk'),
      fun _ => hq ▸ hnone, by rw [Sys.jobsOf, hq]; exact h.one⟩
  cases p with
  | reply r => exact hkeep rfl rfl nofun
  | checkEpoch app epoch k =>
    obtain ⟨hq, -, hth⟩ := stepThread_checkEpoch env s i app epoch k
    exact hkeep hq hth fun k' hk' => by split_ifs at hk'; cases hk'; exact hnp
  | post u k => cases hnp
  | await u =>
    have hzero : s.jobsOf i = 0 :=
      List.length_eq_zero.2 (List.filter_eq_nil_iff.2 fun job hj => by simpa using hnone job hj)
    refine ⟨fun k hk => by simp [Pipelined.stepThread, hlt] at hk, fun hw => absurd ?_ hw, ?_⟩
    · simp [Pipelined.stepThread, hlt]
    · simp only [Sys.jobsOf] at hzero
      simp only [Pipelined.stepThread, Sys.jobsOf, Sys.setThread_queue, Sys.enqueue_queue,
        List.filter_append, List.filter_singleton, decide_True, cond_true, List.length_append,
        List.length_singleton, hzero]
      omega

/-- The loop's step keeps call `i`'s invariant: when it runs `i`'s unit, `i` was waiting on it
    and has no other. -/
theorem WaitInv.loopStep (h : WaitInv i s) {job : Job} {rest : List Job}
    (hq : s.queue = job :: rest) : WaitInv i (runJob { s with queue := rest } job) := by
  obtain ⟨-, -, hq', hth⟩ := runJob_frame { s with queue := rest } job
  by_cases hown : job.owner = i
  · subst hown
    have hw : s.threads[job.owner]? = some .waiting := by
      by_contra hw
      exact h.idle hw job (hq ▸ List.mem_cons_self job rest) rfl
    have hnone : ∀ j ∈ rest, j.owner ≠ job.owner := by
      have hone : (rest.filter fun j => j.owner = job.owner).length + 1 ≤ 1 := by
        simpa [Sys.jobsOf, hq] using h.one
      intro j hj hjo
      have := List.length_pos_of_mem
        (List.mem_filter.2 ⟨hj, decide_eq_true hjo⟩ : j ∈ rest.filter fun j => j.owner = job.owner)
      omega
    -- the thread waits, or has its answer
    have hi : (runJob { s with queue := rest } job).threads[job.owner]? = some .waiting ∨
        ∃ r, (runJob { s with queue := rest } job).threads[job.owner]? = some (.replied r) := by
      rcases hth with hth | ⟨r, hth⟩
      · exact .inl (by rw [hth]; exact hw)
      · exact .inr ⟨r, by rw [hth, List.getElem?_set_self (List.getElem?_eq_some_iff.1 hw).1]⟩
    refine ⟨fun p hp => ?_, fun _ => by rw [hq']; exact hnone, ?_⟩
    · rcases hi with hi | ⟨r, hi⟩ <;> rw [hi] at hp <;> cases hp
    · rw [Sys.jobsOf, hq', List.length_eq_zero.2 (List.filter_eq_nil_iff.2 fun j hj => by
        simpa using hnone j hj)]
      exact Nat.zero_le 1
  · have hi : (runJob { s with queue := rest } job).threads[i]? = s.threads[i]? :=
      runJob_threads_ne hown
    have hjobs : (runJob { s with queue := rest } job).jobsOf i = s.jobsOf i := by
      simp [Sys.jobsOf, hq', hq, hown]
    refine ⟨fun p hp => h.running p (hi ▸ hp), fun hw j hj => ?_, hjobs ▸ h.one⟩
    rw [hq'] at hj
    exact h.idle (hi ▸ hw) j (hq ▸ List.mem_cons_of_mem job hj)

end Step

variable {env : Env} {rpcs : List Rpc} {i : Nat} {s : Sys}

theorem waitInv_of_reachable (hs : Reachable env rpcs s)
    (hi : ∀ r, rpcs[i]? = some r → r.waitsForUnits) : WaitInv i s := by
  induction hs with
  | init =>
    refine ⟨fun p hp => ?_, fun _ => by simp [Sys.init], by simp [Sys.jobsOf, Sys.init]⟩
    obtain ⟨r, hr, rfl⟩ := init_running hp
    exact handle_noPost env (hi r hr)
  | step c _ hn ih =>
    rcases next_eq_some hn with ⟨j, p, rfl, hp, rfl⟩ | ⟨job, rest, rfl, hq, rfl⟩
    · by_cases hji : j = i
      · subst hji
        exact ih.stepThread_self hp
      · exact ih.stepThread_other hji p
    · exact ih.loopStep hq

/-! ## An answered call stays quiet -/

/-- Call `i` has answered `rep` and has no unit on the loop; its effects so far are `own`. -/
structure Quiet (i : Nat) (rep : Reply) (own : List (Nat × Event)) (s : Sys) : Prop where
  answered : s.threads[i]? = some (.replied rep)
  idle : ∀ job ∈ s.queue, job.owner ≠ i
  effects : s.trace.filter (fun x => x.1 = i) = own

/-- Effects of another call add nothing to call `i`'s. -/
theorem filter_map_owner_ne {o : Nat} (h : o ≠ i) (new : Trace) :
    (new.map (o, ·)).filter (fun x => x.1 = i) = [] :=
  List.filter_eq_nil_iff.2 (by simp [h])

theorem Quiet.next {rep : Reply} {own : List (Nat × Event)} (h : Quiet i rep own s) {c : Choice}
    {s' : Sys} (hn : Pipelined.next env s c = some s') : Quiet i rep own s' := by
  rcases next_eq_some hn with ⟨j, p, -, hp, rfl⟩ | ⟨job, rest, -, hq, rfl⟩
  · have hji : j ≠ i := by
      rintro rfl
      rw [h.answered] at hp
      cases hp
    obtain ⟨new, jobs, -, htr, hq, -, hown⟩ := stepThread_frame env s j p
    refine ⟨(stepThread_threads_ne hji).trans h.answered, fun job hj => ?_, ?_⟩
    · rw [hq, List.mem_append] at hj
      exact hj.elim (h.idle job) fun hj => (hown job hj).symm ▸ hji
    · rw [htr, List.filter_append, h.effects, filter_map_owner_ne hji, List.append_nil]
  · have hown : job.owner ≠ i := h.idle job (hq ▸ List.mem_cons_self job rest)
    obtain ⟨new, htr, hq', -⟩ := runJob_frame { s with queue := rest } job
    refine ⟨(runJob_threads_ne hown).trans h.answered,
      fun j hj => h.idle j (hq ▸ List.mem_cons_of_mem job (by rwa [hq'] at hj)), ?_⟩
    rw [htr, List.filter_append, h.effects, filter_map_owner_ne hown, List.append_nil]

theorem Quiet.run {rep : Reply} {own : List (Nat × Event)} :
    ∀ {s s' : Sys} {cs : List Choice}, Quiet i rep own s →
      Pipelined.run env s cs = some s' → Quiet i rep own s'
  | _, _, [], h, hr => by
    cases hr
    exact h
  | s, _, c :: cs, h, hr => by
    simp only [Pipelined.run] at hr
    cases hn : Pipelined.next env s c with
    | none => simp [hn] at hr
    | some s₁ =>
      rw [hn, Option.some_bind] at hr
      exact (h.next hn).run hr

/-- Under every interleaving, once a call whose handler waits for its units is answered, its
    unit has run: it has none left on the loop, and every later run of the servicer leaves its
    answer and its effects in the trace as they are. -/
theorem waiting_call_answered_after_effects (hs : Reachable env rpcs s)
    (hi : ∀ r, rpcs[i]? = some r → r.waitsForUnits) {rep : Reply}
    (hrep : s.threads[i]? = some (.replied rep)) {cs : List Choice} {s' : Sys}
    (hr : Pipelined.run env s cs = some s') :
    (∀ job ∈ s.queue, job.owner ≠ i) ∧ s'.threads[i]? = some (.replied rep) ∧
      s'.trace.filter (fun x => x.1 = i) = s.trace.filter (fun x => x.1 = i) := by
  have hidle := (waitInv_of_reachable hs hi).idle (by rw [hrep]; exact nofun)
  have hq := Quiet.run ⟨hrep, hidle, rfl⟩ hr
  exact ⟨hidle, hq.answered, hq.effects⟩

/-- An activation, answered, then a flow classification of another call. -/
def activateThenCreate : List Rpc :=
  [.activateFlows (singleRuleRequest .GX), .createFlow ⟨"ip_proto=6", 0, "facebook", "tcp"⟩]

theorem waiting_call_answered_after_effects_activateThenCreate :
    ∃ s s' rep, run Env.succeeding (Sys.init Env.succeeding activateThenCreate) [.rpc 0, .loop] =
        some s ∧ Reachable Env.succeeding activateThenCreate s ∧
      (∀ r, activateThenCreate[0]? = some r → r.waitsForUnits) ∧
      s.threads[0]? = some (.replied rep) ∧
      run Env.succeeding s [.rpc 1, .rpc 1, .loop] = some s' ∧
      (∀ job ∈ s.queue, job.owner ≠ 0) ∧ s'.threads[0]? = some (.replied rep) ∧
      s'.trace.filter (fun x => x.1 = 0) = s.trace.filter (fun x => x.1 = 0) := by
  obtain ⟨s, s', rep, hrun, hrun', hth⟩ : ∃ s s' rep, run Env.succeeding (Sys.init Env.succeeding
      activateThenCreate) [.rpc 0, .loop] = some s ∧
      run Env.succeeding s [.rpc 1, .rpc 1, .loop] = some s' ∧
      s.threads[0]? = some (.replied rep) := ⟨_, _, _, rfl, rfl, rfl⟩
  have hs := run_reachable .init hrun
  have hw : ∀ r, activateThenCreate[0]? = some r → r.waitsForUnits := by
    rintro r ⟨⟩
    rfl
  exact ⟨s, s', rep, hrun, hs, hw, hth, hrun', waiting_call_answered_after_effects hs hw hth hrun'⟩

end Pipelined
