import Pipelined.Spec.Fencing

/-!
# A call that has finished posting runs before later calls

`call_soon_threadsafe` appends to the event loop's queue, and the loop runs the queue in order.
So once a call's thread posts no more (it has answered, raised, or waits on its last unit),
every unit it posted runs before any unit of a call that has not posted yet; and a handler's
own thread makes no effect but epoch checks. Hence a client that waits for the answer of
`DeactivateFlows`, which answers before its unit runs, and then calls `ActivateFlows`, has the
deactivation's version bumps and rule removals made before any effect of the activation.

## Key results

- `OrderInv`: what keeps the two calls' effects in order, kept by every step
  (`OrderInv.stepThread`, `OrderInv.loopStep`)
- `finished_call_effects_first`: from any state in which call `a` posts no more and call `b` has
  posted nothing, every run keeps the effects of `a` before those of `b`
-/

namespace Pipelined

open Work

/-- No effect of call `b` other than an epoch check comes before an effect of call `a`. -/
def EffectsBefore (a b : Nat) (t : List (Nat × Event)) : Prop :=
  t.Pairwise fun x y => x.1 = b → y.1 = a → x.2.isEpochCheck

section

variable {a b : Nat}

/-- Effects of one call `o` appended after `t` stay in order when they are not effects of `a`,
    or when they are epoch checks of `b` and `t` holds no other effect of `b`. -/
theorem EffectsBefore.append {t : List (Nat × Event)} {o : Nat} {new : Trace}
    (h : EffectsBefore a b t)
    (hnew : o = a → (o = b → ∀ e ∈ new, e.isEpochCheck) ∧ ∀ x ∈ t, x.1 = b → x.2.isEpochCheck) :
    EffectsBefore a b (t ++ new.map (o, ·)) := by
  refine List.pairwise_append.2 ⟨h, List.pairwise_of_forall_mem_list ?_, ?_⟩
  · intro x hx y hy hxb hya
    obtain ⟨e, he, rfl⟩ := List.mem_map.1 hx
    obtain ⟨e', -, rfl⟩ := List.mem_map.1 hy
    exact (hnew hya).1 hxb e he
  · intro x hx y hy hxb hya
    obtain ⟨e, -, rfl⟩ := List.mem_map.1 hy
    exact (hnew hya).2 x hx hxb

/-- What keeps the effects of call `a` before those of call `b`, once `a` posts no more. -/
structure OrderInv (a b : Nat) (s : Sys) : Prop where
  /-- The thread of `a` takes no more steps. -/
  done : ∀ p, s.threads[a]? ≠ some (.running p)
  /-- On the loop, the units of `a` come before those of `b`. -/
  queue : ∃ pre post, s.queue = pre ++ post ∧ (∀ job ∈ pre, job.owner ≠ b) ∧
    ∀ job ∈ post, job.owner ≠ a
  /-- Once `b` has made an effect other than an epoch check, no unit of `a` is left. -/
  drained : (∃ x ∈ s.trace, x.1 = b ∧ ¬x.2.isEpochCheck) → ∀ job ∈ s.queue, job.owner ≠ a
  effects : EffectsBefore a b s.trace

variable {env : Env} {s : Sys}

theorem OrderInv.stepThread (h : OrderInv a b s) {i : Nat} {p : Program}
    (hp : s.threads[i]? = some (.running p)) : OrderInv a b (stepThread env s i p) := by
  obtain ⟨-, jobs, th, -, hq, hth, hown⟩ := stepThread_frame env s i p
  obtain ⟨new, htr, hchk⟩ := stepThread_new_checks env s i p
  obtain ⟨pre, post, hsplit, hpre, hpost⟩ := h.queue
  have hia : i ≠ a := by
    rintro rfl
    exact h.done p hp
  have hjobs : ∀ job ∈ jobs, job.owner ≠ a := fun job hj => hown job hj ▸ hia
  refine ⟨fun p' => ?_, ⟨pre, post ++ jobs, ?_, hpre, ?_⟩, ?_, ?_⟩
  · rw [hth, List.getElem?_set_ne hia]
    exact h.done p'
  · rw [hq, hsplit, List.append_assoc]
  · intro job hj
    rcases List.mem_append.1 hj with hj | hj
    exacts [hpost job hj, hjobs job hj]
  · rintro ⟨x, hx, hxb, hxc⟩ job hj
    rw [htr, List.mem_append] at hx
    rw [hq, List.mem_append] at hj
    rcases hx with hx | hx
    · rcases hj with hj | hj
      exacts [h.drained ⟨x, hx, hxb, hxc⟩ job hj, hjobs job hj]
    · obtain ⟨e, he, rfl⟩ := List.mem_map.1 hx
      exact absurd (hchk e he) hxc
  · rw [htr]
    exact h.effects.append fun hia' => absurd hia' hia

theorem OrderInv.loopStep (h : OrderInv a b s) {job : Job} {rest : List Job}
    (hq : s.queue = job :: rest) : OrderInv a b (runJob { s with queue := rest } job) := by
  obtain ⟨new, htr, hq', hth⟩ := runJob_frame { s with queue := rest } job
  obtain ⟨pre, post, hsplit, hpre, hpost⟩ := h.queue
  have hrest : ∀ j ∈ rest, j ∈ s.queue := fun j hj => hq ▸ List.mem_cons_of_mem job hj
  -- a unit of `b` runs only once no unit of `a` is left
  have hdrained : job.owner = b → ∀ j ∈ s.queue, j.owner ≠ a := by
    intro hjb
    cases pre with
    | nil => simpa [hsplit] using hpost
    | cons j pre =>
      rw [hsplit, List.cons_append, List.cons.injEq] at hq
      exact absurd (hq.1 ▸ hjb) (hpre j (List.mem_cons_self j pre))
  refine ⟨fun p => ?_, ?_, ?_, ?_⟩
  · rcases hth with hth | ⟨r, hth⟩
    · rw [hth]
      exact h.done p
    · rw [hth, List.getElem?_set]
      split_ifs <;> simp [h.done p]
  · rw [hq']
    cases pre with
    | nil =>
      have hpost' : post = job :: rest := by simpa [hq] using hsplit.symm
      exact ⟨[], rest, rfl, by simp, fun j hj => hpost j (hpost' ▸ List.mem_cons_of_mem job hj)⟩
    | cons j pre =>
      rw [hsplit, List.cons_append, List.cons.injEq] at hq
      exact ⟨pre, post, hq.2.symm, fun j hj => hpre j (List.mem_cons_of_mem _ hj), hpost⟩
  · rintro ⟨x, hx, hxb, hxc⟩ j hj
    rw [hq'] at hj
    rw [htr, List.mem_append] at hx
    rcases hx with hx | hx
    · exact h.drained ⟨x, hx, hxb, hxc⟩ j (hrest j hj)
    · obtain ⟨e, -, rfl⟩ := List.mem_map.1 hx
      exact hdrained hxb j (hrest j hj)
  · rw [htr]
    refine h.effects.append fun hja => ⟨fun hjb => ?_, fun x hx hxb => ?_⟩
    · exact absurd hja (hdrained hjb job (hq ▸ List.mem_cons_self job rest))
    · by_contra hxc
      exact h.drained ⟨x, hx, hxb, hxc⟩ job (hq ▸ List.mem_cons_self job rest) hja

theorem OrderInv.next (h : OrderInv a b s) {c : Choice} {s' : Sys} (hn : next env s c = some s') :
    OrderInv a b s' := by
  rcases next_eq_some hn with ⟨i, p, -, hp, rfl⟩ | ⟨job, rest, -, hq, rfl⟩
  exacts [h.stepThread hp, h.loopStep hq]

theorem OrderInv.run : ∀ {s s' : Sys} {cs : List Choice}, OrderInv a b s →
    Pipelined.run env s cs = some s' → OrderInv a b s'
  | _, _, [], h, hr => by
    cases hr
    exact h
  | s, _, c :: cs, h, hr => by
    simp only [Pipelined.run] at hr
    cases hn : Pipelined.next env s c with
    | none => simp [hn] at hr
    | some s₁ =>
      rw [hn, Option.some_bind] at hr
      exact (h.next hn).run hr

/-- From any state in which the thread of call `a` posts no more and call `b` has posted
    nothing and made no effect but epoch checks, every run of the servicer keeps each effect of
    `a` before each effect of `b` other than an epoch check. -/
theorem finished_call_effects_first {s' : Sys} {cs : List Choice}
    (ha : ∀ p, s.threads[a]? ≠ some (.running p)) (hq : ∀ job ∈ s.queue, job.owner ≠ b)
    (ht : ∀ x ∈ s.trace, x.1 = b → x.2.isEpochCheck) (hr : Pipelined.run env s cs = some s') :
    EffectsBefore a b s'.trace := by
  have h : OrderInv a b s :=
    ⟨ha, ⟨s.queue, [], by simp, hq, by simp⟩, fun ⟨x, hx, hxb, hxc⟩ => absurd (ht x hx hxb) hxc,
      List.pairwise_of_forall_mem_list fun x hx _ _ hxb _ => ht x hx hxb⟩
  exact (h.run hr).effects

end

/-- A deactivation, answered at once, then an activation of the same subscriber. -/
def deactivateThenActivate : List Rpc :=
  [.deactivateFlows ⟨"IMSI001010000000001", "192.168.128.11", [], .GX, ["rule1"], false⟩,
    .activateFlows (singleRuleRequest .GX)]

theorem finished_call_effects_first_deactivateThenActivate :
    ∃ s s', run Env.succeeding (Sys.init Env.succeeding deactivateThenActivate) [.rpc 0, .rpc 0] =
        some s ∧ (∀ p, s.threads[0]? ≠ some (.running p)) ∧ (∀ job ∈ s.queue, job.owner ≠ 1) ∧
      (∀ x ∈ s.trace, x.1 = 1 → x.2.isEpochCheck) ∧
      run Env.succeeding s [.rpc 1, .loop, .loop] = some s' ∧ EffectsBefore 0 1 s'.trace := by
  obtain ⟨s, s', hs, hs', hth, hq, htr⟩ : ∃ s s', run Env.succeeding (Sys.init Env.succeeding
      deactivateThenActivate) [.rpc 0, .rpc 0] = some s ∧
      run Env.succeeding s [.rpc 1, .loop, .loop] = some s' ∧
      s.threads[0]? = some (.replied .deactivateFlowsResult) ∧ s.queue.map (·.owner) = [0] ∧
      s.trace = [] := ⟨_, _, rfl, rfl, rfl, rfl, rfl⟩
  have ha : ∀ p, s.threads[0]? ≠ some (.running p) := by simp [hth]
  have hb : ∀ job ∈ s.queue, job.owner ≠ 1 := fun job hj => by
    have := List.mem_map_of_mem (·.owner) hj
    simp_all
  have hc : ∀ x ∈ s.trace, x.1 = 1 → x.2.isEpochCheck := by simp [htr]
  exact ⟨s, s', hs, ha, hb, hc, hs', finished_call_effects_first ha hb hc hs'⟩

end Pipelined
