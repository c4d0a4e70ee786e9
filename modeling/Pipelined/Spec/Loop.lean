import Pipelined.Native.EventLoop

/-!
# What one step of the servicer can do

One inversion lemma for `next` and one frame lemma for each kind of step: a thread's step adds
effects and units of its own call only and changes only its own thread; the loop's step adds
the effects of one unit, for the call that posted it, and changes at most that call's thread.
Invariants over interleavings are proved from these, never by unfolding `next` again.
-/

namespace Pipelined

variable {env : Env} {s s' : Sys} {c : Choice}

/-- A step is a step of a running thread, or the loop running the oldest unit. -/
theorem next_eq_some (h : next env s c = some s') :
    (∃ i p, c = .rpc i ∧ s.threads[i]? = some (.running p) ∧ s' = stepThread env s i p) ∨
      ∃ job rest, c = .loop ∧ s.queue = job :: rest ∧ s' = runJob { s with queue := rest } job := by
  cases c with
  | rpc i =>
    simp only [next] at h
    split at h
    · exact .inl ⟨i, _, rfl, ‹_›, (Option.some.inj h).symm⟩
    · cases h
  | loop =>
    simp only [next] at h
    split at h
    · cases h
    · exact .inr ⟨_, _, rfl, ‹_›, (Option.some.inj h).symm⟩

/-- A thread's step adds effects and units of its own call only, and changes only its own
    thread. -/
theorem stepThread_frame (env : Env) (s : Sys) (i : Nat) (p : Program) :
    ∃ (new : Trace) (jobs : List Job) (th : Thread),
      (stepThread env s i p).trace = s.trace ++ new.map (i, ·) ∧
      (stepThread env s i p).queue = s.queue ++ jobs ∧
      (stepThread env s i p).threads = s.threads.set i th ∧ ∀ job ∈ jobs, job.owner = i := by
  cases p with
  | reply r => exact ⟨[], [], _, by simp [stepThread], by simp [stepThread], rfl, by simp⟩
  | checkEpoch app epoch k =>
    simp only [stepThread]
    split <;> exact ⟨_, [], _, rfl, by simp, rfl, by simp⟩
  | post u k => exact ⟨[], _, _, by simp [stepThread], rfl, rfl, by simp⟩
  | await u => exact ⟨[], _, _, by simp [stepThread], rfl, rfl, by simp⟩

/-- The loop's step adds the effects of one unit, for the call that posted it, and changes at
    most that call's thread. -/
theorem runJob_frame (s : Sys) (job : Job) :
    ∃ new : Trace, (runJob s job).trace = s.trace ++ new.map (job.owner, ·) ∧
      (runJob s job).queue = s.queue ∧
      ((runJob s job).threads = s.threads ∨
        ∃ r, (runJob s job).threads = s.threads.set job.owner (.replied r)) := by
  unfold runJob
  split
  · exact ⟨_, rfl, rfl, .inr ⟨_, rfl⟩⟩
  all_goals exact ⟨_, rfl, rfl, .inl rfl⟩

/-- A thread's step leaves the other threads alone. -/
theorem stepThread_threads_ne {s : Sys} {i j : Nat} {p : Program} (h : j ≠ i) :
    (stepThread env s j p).threads[i]? = s.threads[i]? := by
  obtain ⟨-, -, th, -, -, hth, -⟩ := stepThread_frame env s j p
  rw [hth, List.getElem?_set_ne h]

/-- The loop's step leaves alone the threads of the calls other than the unit's. -/
theorem runJob_threads_ne {s : Sys} {job : Job} {i : Nat} (h : job.owner ≠ i) :
    (runJob s job).threads[i]? = s.threads[i]? := by
  obtain ⟨-, -, -, hth | ⟨r, hth⟩⟩ := runJob_frame s job <;> rw [hth]
  rw [List.getElem?_set_ne h]

/-- The effects a unit appends to the trace, when it only appends. -/
theorem runJob_trace {s : Sys} {job : Job} {new : Trace}
    (h : Work.finalTrace (job.unit.run s.events) = s.events ++ new) :
    (runJob s job).trace = s.trace ++ new.map (job.owner, ·) := by
  have hlen : s.events.length = s.trace.length := List.length_map _ _
  unfold runJob
  split <;> simp_all [Sys.setThread, Work.finalTrace]

/-- At the start, each call's thread runs its handler. -/
theorem init_running {rpcs : List Rpc} {i : Nat} {p : Program}
    (hp : (Sys.init env rpcs).threads[i]? = some (.running p)) :
    ∃ r, rpcs[i]? = some r ∧ r.handle env = p := by
  simpa [Sys.init] using hp

/-- A thread of `l.set j th` is `th`, at `j`, or the one of `l`. -/
theorem getElem?_set_eq_some {l : List Thread} {i j : Nat} {th x : Thread}
    (h : (l.set j th)[i]? = some x) : (i = j ∧ th = x) ∨ (i ≠ j ∧ l[i]? = some x) := by
  rw [List.getElem?_set] at h
  split_ifs at h with h₁
  · exact .inl ⟨h₁.symm, Option.some.inj h⟩
  · exact .inr ⟨Ne.symm h₁, h⟩

/-- An epoch check: it is recorded and the thread goes on, or answers the fenced result, when
    the controller is there; otherwise the thread raises. -/
theorem stepThread_checkEpoch (env : Env) (s : Sys) (i : Nat) (app : App) (epoch : Nat)
    (k : Program) :
    (stepThread env s i (.checkEpoch app epoch k)).queue = s.queue ∧
    (stepThread env s i (.checkEpoch app epoch k)).trace = s.trace ++
      (if env.isAppEnabled app then [(i, .call app (.checkSetupRequestEpoch epoch
        (Work.epochIsNewer (Work.lastAcceptedEpoch app s.events) epoch)))] else []) ∧
    (stepThread env s i (.checkEpoch app epoch k)).threads = s.threads.set i
      (if env.isAppEnabled app then
        (if Work.epochIsNewer (Work.lastAcceptedEpoch app s.events) epoch then .running k
          else .replied (.setupFlowsResult (env.fencedResult s.events app)))
      else .raised (.absent app)) := by
  have hlen : s.events.length = s.trace.length := List.length_map _ _
  simp only [stepThread, Work.run_checkSetupRequestEpoch]
  split_ifs <;> simp [Sys.record, Sys.setThread, List.drop_left' hlen, hlen]

/-- An epoch check on a controller's guard. -/
def Event.isEpochCheck : Event → Bool
  | .call _ (.checkSetupRequestEpoch _ _) => true
  | _ => false

/-- A handler's thread makes no effect but epoch checks. -/
theorem stepThread_new_checks (env : Env) (s : Sys) (i : Nat) (p : Program) :
    ∃ new : Trace, (stepThread env s i p).trace = s.trace ++ new.map (i, ·) ∧
      ∀ e ∈ new, e.isEpochCheck := by
  cases p with
  | checkEpoch app epoch k =>
    refine ⟨if env.isAppEnabled app then [.call app (.checkSetupRequestEpoch epoch
      (Work.epochIsNewer (Work.lastAcceptedEpoch app s.events) epoch))] else [], ?_, ?_⟩
    · rw [(stepThread_checkEpoch env s i app epoch k).2.1]
      split <;> rfl
    · split <;> simp [Event.isEpochCheck]
  | _ => exact ⟨[], by simp [stepThread], by simp⟩

end Pipelined
