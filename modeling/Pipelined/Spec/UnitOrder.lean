import Pipelined.Spec.AnswerTiming

/-!
# `DeleteUEMacFlow` removes in the order it posts

`DeleteUEMacFlow` posts one unit per controller method, one after another: the ue_mac deletion,
then the removals from check_quota, vlan_learn and tunnel_learn and the IPFIX sample deletion,
each when its app is enabled. Other calls' units can run between two of them
(`delete_ue_mac_flow_interleaved`), but the loop runs its queue in order. So under every
interleaving the calls made for a `DeleteUEMacFlow` are the first of that list, in that order,
each once; and all of them once it has answered and has no unit left
(`delete_ue_mac_flow_in_order`).

The argument holds of every handler that posts units calling controller methods and then
answers without waiting (`invokeChain`): `ChainInv` splits its methods into those already
called, those waiting on the loop, and those its thread has still to post.

## Key results

- `ChainInv`: kept by every step (`ChainInv.stepThread_other`, `ChainInv.stepThread_self`,
  `ChainInv.loopStep`)
- `ChainInv.effects_prefix`, `ChainInv.effects_eq_of_done`
- `deleteUEMacFlow_handle`: the handler is the chain of `deleteUEMacCalls`, from
  `postIfs_eq_invokeChain`
- `delete_ue_mac_flow_in_order`
-/

namespace Pipelined

open Work

/-- The effect of calling controller method `c.2` of app `c.1`. -/
def callEvent (c : App × Op) : Event := .call c.1 c.2

/-- A handler that posts, one by one, a unit calling each controller method of `calls`, and then
    answers `rep` without waiting. -/
def invokeChain (env : Env) : List (App × Op) → Reply → Program
  | [], rep => .reply rep
  | c :: calls, rep => .post (invoke env c.1 c.2) (invokeChain env calls rep)

/-- The unit that calls `c`, as the loop's queue holds it. -/
def chainUnit (env : Env) (c : App × Op) : Work (Option Reply) :=
  (fun _ => none) <$> invoke env c.1 c.2

/-- The controller methods `DeleteUEMacFlow` calls, in the order it posts them. -/
def deleteUEMacCalls (env : Env) (request : UEMacFlowRequest) : List (App × Op) :=
  (.ueMac, .deleteUeMacFlow request.sid request.macAddr) ::
    [(.checkQuota, .removeSubscriberFlow request.sid),
      (.vlanLearn, .removeSubscriberFlow request.sid),
      (.tunnelLearn, .removeSubscriberFlow request.macAddr),
      (.ipfix, .deleteUeSampleFlow request.sid)].filter fun c => env.isAppEnabled c.1

/-- Posts each made only when its app is enabled are the chain of the enabled ones. -/
theorem postIfs_eq_invokeChain (env : Env) (calls : List (App × Op)) (rep : Reply) :
    calls.foldr (fun c k => Handler.postIf env c.1 (invoke env c.1 c.2) k) (.reply rep) =
      invokeChain env (calls.filter fun c => env.isAppEnabled c.1) rep := by
  induction calls with
  | nil => rfl
  | cons c calls ih =>
    rw [List.foldr_cons, ih, List.filter_cons]
    unfold Handler.postIf
    split <;> rfl

/-- Past its two checks, `DeleteUEMacFlow` is the chain of `deleteUEMacCalls`. -/
theorem deleteUEMacFlow_handle {env : Env} {request : UEMacFlowRequest}
    (hue : env.isAppEnabled .ueMac) (hmac : request.macAddr.length = 17) :
    (Rpc.deleteUEMacFlow request).handle env =
      invokeChain env (deleteUEMacCalls env request) .flowResponse := by
  simp only [Rpc.handle, Handler.deleteUEMacFlow, Handler.requireApp, Handler.requireMacAddr,
    hue, hmac, if_true, ne_eq, not_true_eq_false, if_false]
  exact congrArg (Program.post _) (postIfs_eq_invokeChain env
    [(.checkQuota, .removeSubscriberFlow request.sid), (.vlanLearn, .removeSubscriberFlow request.sid),
      (.tunnelLearn, .removeSubscriberFlow request.macAddr), (.ipfix, .deleteUeSampleFlow request.sid)]
    .flowResponse)

theorem deleteUEMacCalls_enabled {env : Env} {request : UEMacFlowRequest}
    (hue : env.isAppEnabled .ueMac) : ∀ c ∈ deleteUEMacCalls env request, env.isAppEnabled c.1 := by
  intro c hc
  rcases List.mem_cons.1 hc with rfl | hc
  exacts [hue, (List.mem_filter.1 hc).2]

/-- A unit that answers nothing and only appends `new` leaves the loop and the threads alone. -/
theorem runJob_of_ok_none {s : Sys} {job : Job} {new : Trace}
    (h : job.unit.run s.events = .ok none (s.events ++ new)) :
    (runJob s job).trace = s.trace ++ new.map (job.owner, ·) ∧ (runJob s job).queue = s.queue ∧
      (runJob s job).threads = s.threads := by
  refine ⟨runJob_trace (by rw [h]; rfl), ?_, ?_⟩ <;> simp [runJob, h]

/-! ## Where a chain handler is -/

/-- Call `i`, whose handler is the chain of `calls` answering `rep`, has called the methods of
    `done`, has the units of `queued` waiting on the loop in that order, and has those of `rest`
    still to post, or has answered. -/
structure ChainAt (env : Env) (i : Nat) (rep : Reply) (done queued rest : List (App × Op))
    (s : Sys) : Prop where
  effects : (s.trace.filter fun x => x.1 = i).map (·.2) = done.map callEvent
  queue : (s.queue.filter fun job => job.owner = i).map (·.unit) = queued.map (chainUnit env)
  thread : s.threads[i]? = some (.running (invokeChain env rest rep)) ∨
    rest = [] ∧ s.threads[i]? = some (.replied rep)

/-- The methods of `calls` are split into those called, those on the loop and those to post. -/
def ChainInv (env : Env) (i : Nat) (calls : List (App × Op)) (rep : Reply) (s : Sys) : Prop :=
  ∃ done queued rest, calls = done ++ queued ++ rest ∧ ChainAt env i rep done queued rest s

section Step

variable {env : Env} {i : Nat} {rep : Reply} {calls : List (App × Op)} {s : Sys}

/-- A step that leaves call `i`'s effects, units and thread alone keeps where it is. -/
theorem ChainAt.frame {done queued rest : List (App × Op)}
    (h : ChainAt env i rep done queued rest s) {s' : Sys} (htr : s'.trace.filter (fun x => x.1 = i) = s.trace.filter fun x => x.1 = i)
    (hq : s'.queue.filter (fun job => job.owner = i) = s.queue.filter fun job => job.owner = i)
    (hth : s'.threads[i]? = s.threads[i]?) : ChainAt env i rep done queued rest s' :=
  ⟨htr ▸ h.effects, hq ▸ h.queue, hth ▸ h.thread⟩

theorem ChainInv.stepThread_other (h : ChainInv env i calls rep s) {j : Nat} (hji : j ≠ i)
    (p : Program) : ChainInv env i calls rep (Pipelined.stepThread env s j p) := by
  obtain ⟨done, queued, rest, hcalls, hat⟩ := h
  obtain ⟨new, jobs, -, htr, hq, -, hown⟩ := stepThread_frame env s j p
  refine ⟨done, queued, rest, hcalls, hat.frame ?_ ?_ (stepThread_threads_ne hji)⟩
  · rw [htr, List.filter_append, filter_map_owner_ne hji, List.append_nil]
  · rw [hq, jobsOf_append s jobs fun job hj => (hown job hj).symm ▸ hji]

/-- Call `i`'s own step posts its next unit, or answers once it has posted them all. -/
theorem ChainInv.stepThread_self (h : ChainInv env i calls rep s) {p : Program}
    (hp : s.threads[i]? = some (.running p)) :
    ChainInv env i calls rep (Pipelined.stepThread env s i p) := by
  obtain ⟨done, queued, rest, rfl, heff, hq, hth | ⟨-, hth⟩⟩ := h
  · have hlt : i < s.threads.length := (List.getElem?_eq_some_iff.1 hp).1
    rw [hp, Option.some.injEq, Thread.running.injEq] at hth
    subst hth
    cases rest with
    | nil =>
      exact ⟨done, queued, [], rfl, heff, hq, .inr ⟨rfl, by simp [Pipelined.stepThread,
        invokeChain, hlt]⟩⟩
    | cons c rest =>
      refine ⟨done, queued ++ [c], rest, by simp, heff, ?_,
        .inl (by simp [Pipelined.stepThread, invokeChain, hlt])⟩
      simp [Pipelined.stepThread, invokeChain, hq, chainUnit]
  · rw [hth] at hp
    cases hp

/-- The loop's step: when it runs call `i`'s oldest unit, that unit makes the next call. -/
theorem ChainInv.loopStep (h : ChainInv env i calls rep s)
    (hen : ∀ c ∈ calls, env.isAppEnabled c.1) {job : Job} {rest : List Job}
    (hq : s.queue = job :: rest) :
    ChainInv env i calls rep (runJob { s with queue := rest } job) := by
  obtain ⟨done, queued, todo, rfl, hat⟩ := h
  by_cases hown : job.owner = i
  · subst hown
    have hqueue := hat.queue
    rw [hq, List.filter_cons_of_pos (by simp), List.map_cons] at hqueue
    obtain ⟨c, queued, rfl, hc, hqueue⟩ := List.map_eq_cons_iff.1 hqueue.symm
    have hrun : job.unit.run s.events = .ok none (s.events ++ [callEvent c]) := by
      rw [← hc]
      simp [chainUnit, run_invoke, hen c (by simp), callEvent]
    obtain ⟨htr, hq', hth⟩ := @runJob_of_ok_none { s with queue := rest } job _ hrun
    refine ⟨done ++ [c], queued, todo, by simp, ⟨?_, by rw [hq']; exact hqueue.symm, ?_⟩⟩
    · rw [htr]
      simp [List.filter_append, hat.effects]
    · rw [hth]
      exact hat.thread
  · obtain ⟨new, htr, hq', -⟩ := runJob_frame { s with queue := rest } job
    refine ⟨done, queued, todo, rfl, hat.frame ?_ ?_ (runJob_threads_ne hown)⟩
    · rw [htr, List.filter_append, filter_map_owner_ne hown, List.append_nil]
    · rw [hq', hq, List.filter_cons_of_neg (by simpa using hown)]

end Step

variable {env : Env} {rpcs : List Rpc} {i : Nat} {rep : Reply} {calls : List (App × Op)}
  {s : Sys}

theorem chainInv_of_reachable {r : Rpc} (hi : rpcs[i]? = some r)
    (hh : r.handle env = invokeChain env calls rep) (hen : ∀ c ∈ calls, env.isAppEnabled c.1)
    (hs : Reachable env rpcs s) : ChainInv env i calls rep s := by
  induction hs with
  | init => exact ⟨[], [], calls, by simp, by simp [Sys.init], by simp [Sys.init],
      .inl (by simp [Sys.init, hi, hh])⟩
  | step c _ hn ih =>
    rcases next_eq_some hn with ⟨j, p, rfl, hp, rfl⟩ | ⟨job, rest, rfl, hq, rfl⟩
    · by_cases hji : j = i
      · subst hji
        exact ih.stepThread_self hp
      · exact ih.stepThread_other hji p
    · exact ih.loopStep hen hq

/-- The calls made so far are the first of `calls`, in order. -/
theorem ChainInv.effects_prefix (h : ChainInv env i calls rep s) :
    (s.trace.filter fun x => x.1 = i).map (·.2) <+: calls.map callEvent := by
  obtain ⟨done, queued, rest, rfl, hat⟩ := h
  rw [hat.effects, List.append_assoc, List.map_append]
  exact List.prefix_append _ _

/-- Once the call has answered and has no unit left, it has made every call of `calls`. -/
theorem ChainInv.effects_eq_of_done (h : ChainInv env i calls rep s)
    (hrep : s.threads[i]? = some (.replied rep)) (hidle : ∀ job ∈ s.queue, job.owner ≠ i) :
    (s.trace.filter fun x => x.1 = i).map (·.2) = calls.map callEvent := by
  obtain ⟨done, queued, rest, rfl, hat⟩ := h
  have hrest : rest = [] := by
    rcases hat.thread with hth | ⟨hrest, -⟩
    · rw [hrep] at hth
      cases hth
    · exact hrest
  have hqueued : queued = [] := by
    have hq := hat.queue
    rw [List.filter_eq_nil_iff.2 fun job hj => by simpa using hidle job hj, List.map_nil,
      eq_comm, List.map_eq_nil_iff] at hq
    exact hq
  rw [hat.effects, hrest, hqueued, List.append_nil, List.append_nil]

/-- Under every interleaving, the controller calls a `DeleteUEMacFlow` past its checks has made
    are the first of `deleteUEMacCalls`, in order, each once; once it has answered and has no
    unit left on the loop, they are all of them. -/
theorem delete_ue_mac_flow_in_order {request : UEMacFlowRequest}
    (hi : rpcs[i]? = some (.deleteUEMacFlow request)) (hue : env.isAppEnabled .ueMac)
    (hmac : request.macAddr.length = 17) (hs : Reachable env rpcs s) :
    (s.trace.filter fun x => x.1 = i).map (·.2) <+: (deleteUEMacCalls env request).map callEvent ∧
      (s.threads[i]? = some (.replied .flowResponse) → (∀ job ∈ s.queue, job.owner ≠ i) →
        (s.trace.filter fun x => x.1 = i).map (·.2) =
          (deleteUEMacCalls env request).map callEvent) := by
  have h := chainInv_of_reachable hi (deleteUEMacFlow_handle hue hmac)
    (deleteUEMacCalls_enabled hue) hs
  exact ⟨h.effects_prefix, h.effects_eq_of_done⟩

theorem delete_ue_mac_flow_in_order_interleaved :
    ∃ s, Reachable Env.succeeding
        [.deleteUEMacFlow macFlowRequest, .addUEMacFlow macFlowRequest] s ∧
      s.threads[0]? = some (.replied .flowResponse) ∧ s.queue = [] ∧
      ((s.trace.filter fun x => x.1 = 0).map (·.2) <+:
          (deleteUEMacCalls Env.succeeding macFlowRequest).map callEvent ∧
        (s.threads[0]? = some (.replied .flowResponse) → (∀ job ∈ s.queue, job.owner ≠ 0) →
          (s.trace.filter fun x => x.1 = 0).map (·.2) =
            (deleteUEMacCalls Env.succeeding macFlowRequest).map callEvent)) := by
  have hrun : run Env.succeeding (Sys.init Env.succeeding
      [.deleteUEMacFlow macFlowRequest, .addUEMacFlow macFlowRequest])
      [.rpc 0, .rpc 1, .rpc 0, .loop, .loop, .rpc 0, .rpc 0, .rpc 0, .rpc 0, .loop, .loop, .loop,
        .loop] = some _ := rfl
  have hs := run_reachable .init hrun
  exact ⟨_, hs, rfl, rfl, delete_ue_mac_flow_in_order rfl rfl rfl hs⟩

end Pipelined
