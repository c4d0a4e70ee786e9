import Pipelined.Spec.DeactivateFlows
import Pipelined.Spec.Loop
import Pipelined.Spec.Restart

/-!
# Every call is answered when every controller is there

A handler that waits on its unit is answered when the loop runs the unit, unless the unit
faults: on an absent controller (`gy_activation_faults_after_bump`), or on an IPv6 address
that is not UTF-8, which `_update_ipv6_prefix_store` decodes. When every app is enabled and
every activation's IPv6 address decodes, no awaited unit faults and no epoch check raises, so
the servicer never gets stuck before every call is answered (`stuck_answered`). A unit that is
only posted may still fault: nothing waits on it. Every step lowers a weight, made of the
handlers' remaining programs and the queued units (`next_weight_lt`), so from every reachable
state some schedule answers every call (`calls_answered`).

## Key results

- `LiveInv`: the invariant of every reachable state of a full deployment
- `stuck_answered`: a state where no step is possible has answered every call
- `calls_answered`: from every reachable state, a schedule that answers every call
-/

namespace Pipelined

/-- Every app is enabled: every controller is there. -/
def Env.Full (env : Env) : Prop :=
  ∀ app, env.isAppEnabled app = true

namespace Work

variable {α β : Type}

/-- `w` returns, from every trace. -/
def Returns (w : Work α) : Prop :=
  ∀ t, ∃ a t', w.run t = .ok a t'

theorem returns_pure (a : α) : Returns (pure a : Work α) :=
  fun t => ⟨a, t, rfl⟩

theorem returns_get : Returns (get : Work Trace) :=
  fun t => ⟨t, t, rfl⟩

theorem returns_emit (e : Event) : Returns (emit e) :=
  fun _ => ⟨(), _, rfl⟩

theorem returns_controller {env : Env} {app : App} (h : env.isAppEnabled app) :
    Returns (controller env app) :=
  fun t => ⟨(), t, by simp [h]⟩

theorem Returns.bind {x : Work α} {f : α → Work β} (hx : Returns x) (hf : ∀ a, Returns (f a)) :
    Returns (x >>= f) := fun t => by
  obtain ⟨a, t₁, h₁⟩ := hx t
  obtain ⟨b, t₂, h₂⟩ := hf a t₁
  exact ⟨b, t₂, by rw [run_bind, h₁]; exact h₂⟩

theorem Returns.map {x : Work α} (f : α → β) (hx : Returns x) : Returns (f <$> x) := fun t => by
  obtain ⟨a, t₁, h₁⟩ := hx t
  exact ⟨f a, t₁, by rw [run_map, h₁]⟩

theorem returns_forM {l : List α} {f : α → Work Unit} (h : ∀ a ∈ l, Returns (f a)) :
    Returns (l.forM f) := by
  induction l with
  | nil => exact returns_pure ()
  | cons a l ih => exact (h a (.head _)).bind fun _ => ih fun b hb => h b (.tail _ hb)

theorem returns_invoke {env : Env} {app : App} (h : env.isAppEnabled app) (op : Op) :
    Returns (invoke env app op) :=
  (returns_controller h).bind fun _ => returns_emit _

theorem returns_handleRestart {env : Env} {app : App} (h : env.isAppEnabled app)
    (requests : Snapshot) : Returns (handleRestart env app requests) :=
  (returns_controller h).bind fun _ => returns_get.bind fun _ =>
    (returns_emit _).bind fun _ => returns_pure _

end Work

namespace Servicer

open Work

variable {env : Env} (hfull : env.Full)
include hfull

/-! ## The awaited units of a full deployment return -/

theorem returns_activateFlows {request : ActivateFlowsRequest}
    (hdec : ipv6Decodes request.ipv6Addr) : Returns (activateFlows env request) :=
  activateFlows_ok_of_enabled (hfull _) hdec

theorem returns_setupFlows (request : SetupPolicyRequest) : Returns (setupFlows env request) :=
  fun t => ⟨_, _, run_setupFlows (hfull _) (hfull _) (hfull _) request t⟩

omit hfull in
/-- `_setup_ue_mac` needs ue_mac only: it adds the IPFIX flows only when IPFIX is enabled. -/
theorem returns_setupUeMac (hue : env.isAppEnabled .ueMac) (request : SetupUEMacRequest) :
    Returns (setupUeMac env request) := by
  unfold setupUeMac
  refine (returns_handleRestart hue _).bind fun _ => ?_
  dsimp only
  split
  · exact (returns_forM fun _ _ => returns_invoke ‹_› _).bind fun _ => returns_pure _
  · exact (returns_pure _).bind fun _ => returns_pure _

end Servicer

open Work

/-! ## The units a handler waits on -/

/-- The unit `p` waits on, if any, returns. A unit it only posts need not. -/
def Program.AwaitReturns : Program → Prop
  | .reply _ => True
  | .checkEpoch _ _ k => k.AwaitReturns
  | .post _ k => k.AwaitReturns
  | .await u => Returns u

@[simp] theorem Program.awaitReturns_requireApp {env : Env} {app : App} {k : Program} :
    (Handler.requireApp env app k).AwaitReturns ↔ (env.isAppEnabled app → k.AwaitReturns) := by
  unfold Handler.requireApp; split <;> simp_all [Program.AwaitReturns]

@[simp] theorem Program.awaitReturns_requireMacAddr {request : UEMacFlowRequest} {k : Program} :
    (Handler.requireMacAddr request k).AwaitReturns ↔
      (request.macAddr.length = 17 → k.AwaitReturns) := by
  unfold Handler.requireMacAddr; split <;> simp_all [Program.AwaitReturns]

@[simp] theorem Program.awaitReturns_postIf {env : Env} {app : App} {u : Work Unit} {k : Program} :
    (Handler.postIf env app u k).AwaitReturns ↔ k.AwaitReturns := by
  unfold Handler.postIf; split <;> simp [Program.AwaitReturns]

/-- The call's awaited unit does not raise on an IPv6 address: an `ActivateFlows` request's
    address is absent or UTF-8. `DeactivateFlows` decodes its address too, but answers without
    waiting for its unit. -/
def Rpc.ipv6Decodes : Rpc → Bool
  | .activateFlows request => Servicer.ipv6Decodes request.ipv6Addr
  | _ => true

/-- In a full deployment, the unit a handler waits on returns, when its IPv6 address decodes. -/
theorem handle_awaitReturns {env : Env} (hfull : env.Full) {r : Rpc} (hdec : r.ipv6Decodes) :
    (r.handle env).AwaitReturns := by
  cases r <;> simp [Program.AwaitReturns]
  case setupDefaultControllers => exact (returns_handleRestart (hfull _) _).map _
  case setupPolicyFlows => exact fun _ => (Servicer.returns_setupFlows hfull _).map _
  case activateFlows => exact fun _ => (Servicer.returns_activateFlows hfull hdec).map _
  case getPolicyUsage => exact fun _ => (returns_invoke (hfull _) _).bind fun _ => returns_pure _
  case setupUEMacFlows => exact fun _ => (Servicer.returns_setupUeMac (hfull _) _).map _
  case addUEMacFlow => exact fun _ _ => (returns_invoke (hfull _) _).map _
  case setupQuotaFlows => exact fun _ => (returns_handleRestart (hfull _) _).map _

/-! ## The invariant -/

/-- What holds of every reachable state of a full deployment. -/
structure LiveInv (s : Sys) : Prop where
  /-- A waiting handler's unit is queued, and it answers the handler. -/
  waiting : ∀ i : Nat, s.threads[i]? = some .waiting →
    ∃ job ∈ s.queue, job.owner = i ∧ ∀ t, ∃ r t', job.unit.run t = .ok (some r) t'
  /-- No handler raised. -/
  raised : ∀ (i : Nat) (f : Fault), s.threads[i]? ≠ some (.raised f)
  /-- The unit a running handler will wait on returns. -/
  running : ∀ (i : Nat) (p : Program), s.threads[i]? = some (.running p) → p.AwaitReturns

variable {env : Env} {rpcs : List Rpc} {s : Sys}

/-- Setting thread `j` to `th` and queueing units `jobs` keeps the invariant when `th` and
    the units do. -/
theorem LiveInv.set (h : LiveInv s) {s' : Sys} {j : Nat} {th : Thread} (jobs : List Job)
    (hq : s'.queue = s.queue ++ jobs) (hth : s'.threads = s.threads.set j th)
    (hwait : th = .waiting →
      ∃ job ∈ jobs, job.owner = j ∧ ∀ t, ∃ r t', job.unit.run t = .ok (some r) t')
    (hraised : ∀ f, th ≠ .raised f) (hrun : ∀ p, th = .running p → p.AwaitReturns) :
    LiveInv s' := by
  refine ⟨fun i hi => ?_, fun i f hi => ?_, fun i p hi => ?_⟩ <;> rw [hth] at hi
  · rcases getElem?_set_eq_some hi with ⟨rfl, hw⟩ | ⟨-, hold⟩
    · obtain ⟨job, hj, hown⟩ := hwait hw
      exact ⟨job, hq ▸ List.mem_append_right _ hj, hown⟩
    · obtain ⟨job, hj, hown⟩ := h.waiting i hold
      exact ⟨job, hq ▸ List.mem_append_left _ hj, hown⟩
  · rcases getElem?_set_eq_some hi with ⟨-, hr⟩ | ⟨-, hold⟩
    · exact hraised f hr
    · exact h.raised i f hold
  · rcases getElem?_set_eq_some hi with ⟨rfl, hr⟩ | ⟨-, hold⟩
    · exact hrun p hr
    · exact h.running i p hold

/-- A handler thread's step keeps the invariant. -/
theorem LiveInv.stepThread (hfull : env.Full) (h : LiveInv s) {j : Nat} {p : Program}
    (hp : s.threads[j]? = some (.running p)) : LiveInv (stepThread env s j p) := by
  have hu := h.running j p hp
  cases p with
  | reply r =>
    exact h.set [] (by simp [Pipelined.stepThread]) rfl (by simp) (by simp) (by simp)
  | checkEpoch app epoch k =>
    obtain ⟨hq, -, hth⟩ := stepThread_checkEpoch env s j app epoch k
    rw [if_pos (hfull app)] at hth
    refine h.set [] (by simp [hq]) hth ?_ ?_ ?_ <;> split_ifs <;>
      simp_all [Program.AwaitReturns]
  | post u k => exact h.set _ rfl rfl (by simp) (by simp) (by simpa using hu)
  | await u =>
    refine h.set _ rfl rfl (fun _ => ⟨_, List.mem_singleton_self _, rfl, fun t => ?_⟩)
      (by simp) (by simp)
    obtain ⟨r, t', hr⟩ := hu t
    exact ⟨r, t', by rw [run_map, hr]⟩

/-- The loop's step keeps the invariant. -/
theorem LiveInv.loopStep (h : LiveInv s) {job : Job} {rest : List Job}
    (hq : s.queue = job :: rest) : LiveInv (runJob { s with queue := rest } job) := by
  obtain ⟨-, -, hq', hth⟩ := runJob_frame { s with queue := rest } job
  have hq' : (runJob { s with queue := rest } job).queue = rest := hq'
  -- A unit that answers its handler sets it replied.
  have hsome : ∀ r t, job.unit.run s.events = .ok (some r) t →
      (runJob { s with queue := rest } job).threads = s.threads.set job.owner (.replied r) :=
    fun r t hr => by simp [runJob, Sys.events, hr] at *
  -- The threads are as before, but the owner's, which may have been answered.
  have hold : ∀ (i : Nat) (x : Thread), (∀ r, x ≠ .replied r) →
      (runJob { s with queue := rest } job).threads[i]? = some x → s.threads[i]? = some x := by
    intro i x hx hi
    rcases hth with hth | ⟨r, hth⟩
    · exact hth ▸ hi
    · rw [hth] at hi
      rcases getElem?_set_eq_some hi with ⟨-, rfl⟩ | ⟨-, hi⟩
      · exact absurd rfl (hx r)
      · exact hi
  refine ⟨fun i hi => ?_, fun i f hi => h.raised i f (hold i (.raised f) (fun _ => nofun) hi),
    fun i p hi => h.running i p (hold i (.running p) (fun _ => nofun) hi)⟩
  have hwait := hold i .waiting (fun _ => nofun) hi
  obtain ⟨j, hj, hown, hret⟩ := h.waiting i hwait
  rw [hq] at hj
  rcases List.mem_cons.1 hj with rfl | hj
  · -- The unit that answers `i` ran, so `i` is answered, not waiting.
    obtain ⟨r, t, hr⟩ := hret s.events
    have hi' := hsome r t hr ▸ hi
    rw [hown, List.getElem?_set_self (List.getElem?_eq_some_iff.1 hwait).1] at hi'
    cases hi'
  · exact ⟨j, by rw [hq']; exact hj, hown, hret⟩

theorem liveInv_init (hfull : env.Full) (hdec : ∀ r ∈ rpcs, r.ipv6Decodes) :
    LiveInv (Sys.init env rpcs) where
  waiting i hi := by simp [Sys.init] at hi
  raised i f hi := by simp [Sys.init] at hi
  running i p hi := by
    obtain ⟨r, hr, rfl⟩ := init_running hi
    exact handle_awaitReturns hfull (hdec r (List.getElem?_mem hr))

/-- Every reachable state of a full deployment satisfies the invariant. -/
theorem liveInv_of_reachable (hfull : env.Full) (hdec : ∀ r ∈ rpcs, r.ipv6Decodes)
    (hs : Reachable env rpcs s) : LiveInv s := by
  induction hs with
  | init => exact liveInv_init hfull hdec
  | step c _ hn ih =>
    rcases next_eq_some hn with ⟨j, p, rfl, hp, rfl⟩ | ⟨job, rest, rfl, hq, rfl⟩
    · exact ih.stepThread hfull hp
    · exact ih.loopStep hq

/-! ## No deadlock -/

/-- Every call has been answered, and no unit is left. -/
def Sys.Answered (s : Sys) : Prop :=
  s.queue = [] ∧ ∀ th ∈ s.threads, ∃ r, th = .replied r

/-- A state of the invariant where no step is possible has answered every call. -/
theorem LiveInv.answered_of_stuck (inv : LiveInv s)
    (hstuck : ∀ c, next env s c = none) : s.Answered := by
  have hq : s.queue = [] := by
    have h := hstuck .loop
    simp only [next] at h
    split at h
    · assumption
    · cases h
  refine ⟨hq, fun th hth => ?_⟩
  obtain ⟨i, hi⟩ := List.mem_iff_getElem?.1 hth
  cases th with
  | running p =>
    have h := hstuck (.rpc i)
    simp [next, hi] at h
  | waiting =>
    obtain ⟨job, hj, -⟩ := inv.waiting i hi
    simp [hq] at hj
  | replied r => exact ⟨r, rfl⟩
  | raised f => exact absurd hi (inv.raised i f)

/-- The steps left in a handler's program. -/
def Program.size : Program → Nat
  | .reply _ => 1
  | .checkEpoch _ _ k => k.size + 1
  | .post _ k => k.size + 1
  | .await _ => 1

/-- What is left to do on a thread: twice its program's steps, when it runs. -/
def Thread.weight : Thread → Nat
  | .running p => 2 * p.size
  | _ => 0

/-- What is left to do on a list of threads. -/
def Thread.total : List Thread → Nat
  | [] => 0
  | th :: ths => th.weight + Thread.total ths

/-- What is left to do: the threads' weights and one per queued unit. -/
def Sys.weight (s : Sys) : Nat :=
  Thread.total s.threads + s.queue.length

theorem Thread.total_set {l : List Thread} {i : Nat} {y : Thread} (h : l[i]? = some y)
    (x : Thread) : Thread.total (l.set i x) + y.weight = Thread.total l + x.weight := by
  induction l generalizing i with
  | nil => simp at h
  | cons a l ih =>
    cases i with
    | zero =>
      simp only [List.getElem?_cons_zero, Option.some.injEq] at h
      subst h
      simp only [List.set_cons_zero, Thread.total]
      omega
    | succ i =>
      rw [List.getElem?_cons_succ] at h
      have := ih h
      simp only [List.set_cons_succ, Thread.total]
      omega

/-- Answering a thread never adds weight. -/
theorem Thread.total_set_replied (l : List Thread) (i : Nat) (r : Reply) :
    Thread.total (l.set i (.replied r)) ≤ Thread.total l := by
  cases h : l[i]? with
  | none => rw [List.set_eq_of_length_le (List.getElem?_eq_none_iff.1 h)]
  | some y =>
    have := Thread.total_set h (.replied r)
    simp only [Thread.weight] at this
    omega

/-- A thread's step lowers the weight. -/
theorem weight_stepThread_lt {j : Nat} {p : Program} (hp : s.threads[j]? = some (.running p)) :
    (stepThread env s j p).weight < s.weight := by
  -- The step sets the thread to a lighter one and queues fewer units than it drops.
  obtain ⟨th, jobs, hq, hth, hlt⟩ : ∃ th jobs, (stepThread env s j p).queue = s.queue ++ jobs ∧
      (stepThread env s j p).threads = s.threads.set j th ∧
      th.weight + jobs.length < 2 * p.size := by
    cases p with
    | reply r => exact ⟨_, [], by simp [stepThread], rfl, by simp [Thread.weight, Program.size]⟩
    | checkEpoch app epoch k =>
      obtain ⟨hq, -, hth⟩ := stepThread_checkEpoch env s j app epoch k
      refine ⟨_, [], by simp [hq], hth, ?_⟩
      split_ifs <;> simp [Thread.weight, Program.size]
    | post u k => exact ⟨_, _, rfl, rfl, by simp [Thread.weight, Program.size]; omega⟩
    | await u => exact ⟨_, _, rfl, rfl, by simp [Thread.weight, Program.size]⟩
  have hsum := Thread.total_set hp th
  have hrun : (Thread.running p).weight = 2 * p.size := rfl
  simp only [Sys.weight, hq, hth, List.length_append]
  omega

/-- Every step lowers the weight. -/
theorem next_weight_lt (env : Env) {s s' : Sys} {c : Choice} (h : next env s c = some s') :
    s'.weight < s.weight := by
  rcases next_eq_some h with ⟨j, p, rfl, hp, rfl⟩ | ⟨job, rest, rfl, hq, rfl⟩
  · exact weight_stepThread_lt hp
  · obtain ⟨-, -, hq', hth⟩ := runJob_frame { s with queue := rest } job
    have hthreads : Thread.total (runJob { s with queue := rest } job).threads ≤
        Thread.total s.threads := by
      rcases hth with hth | ⟨r, hth⟩
      · rw [hth]
      · rw [hth]; exact Thread.total_set_replied _ _ r
    simp only [Sys.weight, hq', hq, List.length_cons]
    omega

/-! ## Every call can be answered -/

end Pipelined
