import Pipelined.Spec.Versions

/-!
# What a unit of work can append

`Appends P w`: whether it returns or faults, `w` only appends to the trace, and only events
satisfying `P`. It is closed under the monad's operations, so a property of every event a
method can make follows from its definition step by step.

The property the event loop needs is `RestartsOnly ok`: no epoch check, and `handle_restart`
only on controllers `ok` allows. The epoch checks of the setup calls run on their handler
threads, never inside a unit, and each setup unit restarts only the controllers whose epochs
its handler checked.
-/

namespace Pipelined

/-- An event that is no epoch check and restarts only controllers `ok` allows. -/
def Event.RestartsOnly (ok : App → Prop) : Event → Prop
  | .call _ (.checkSetupRequestEpoch _ _) => False
  | .call app (.handleRestart _ _) => ok app
  | _ => True

namespace Work

variable {α β : Type} {P Q : Event → Prop}

/-- Whether it returns or faults, `w` only appends to the trace, and only events satisfying
    `P`. -/
def Appends (P : Event → Prop) (w : Work α) : Prop :=
  ∀ t, ∃ new, finalTrace (w.run t) = t ++ new ∧ ∀ e ∈ new, P e

theorem Appends.mono {w : Work α} (h : ∀ e, P e → Q e) (hw : Appends P w) : Appends Q w :=
  fun t => let ⟨new, h1, h2⟩ := hw t; ⟨new, h1, fun e he => h e (h2 e he)⟩

theorem appends_pure (a : α) : Appends P (pure a : Work α) :=
  fun t => ⟨[], by simp [finalTrace], by simp⟩

theorem appends_get : Appends P (get : Work Trace) :=
  fun t => ⟨[], by simp [finalTrace], by simp⟩

theorem appends_emit {e : Event} (h : P e) : Appends P (emit e) :=
  fun t => ⟨[e], by simp [finalTrace], by simpa⟩

theorem appends_controller (env : Env) (app : App) : Appends P (controller env app) :=
  fun t => ⟨[], by by_cases h : env.isAppEnabled app <;> simp [finalTrace, h], by simp⟩

theorem Appends.bind {x : Work α} {f : α → Work β} (hx : Appends P x)
    (hf : ∀ a, Appends P (f a)) : Appends P (x >>= f) := by
  intro t
  obtain ⟨n₁, h₁, hn₁⟩ := hx t
  rw [run_bind]
  cases hr : x.run t with
  | ok a t₁ =>
    simp only [hr, finalTrace] at h₁
    subst h₁
    obtain ⟨n₂, h₂, hn₂⟩ := hf a (t ++ n₁)
    exact ⟨n₁ ++ n₂, by simpa using h₂, fun e he => (List.mem_append.1 he).elim (hn₁ e) (hn₂ e)⟩
  | error err t₁ =>
    simp only [hr, finalTrace] at h₁ ⊢
    exact ⟨n₁, h₁, hn₁⟩

theorem Appends.map {x : Work α} (f : α → β) (hx : Appends P x) : Appends P (f <$> x) := by
  intro t
  obtain ⟨n, h, hn⟩ := hx t
  refine ⟨n, ?_, hn⟩
  rw [run_map]
  cases hr : x.run t <;> simpa [hr, finalTrace] using h

theorem appends_forM {l : List α} {f : α → Work Unit} (h : ∀ a ∈ l, Appends P (f a)) :
    Appends P (l.forM f) := by
  induction l with
  | nil => exact appends_pure ()
  | cons a l ih =>
    exact (h a (.head _)).bind fun _ => ih fun b hb => h b (.tail _ hb)

theorem appends_invoke (env : Env) {app : App} {op : Op} (h : P (.call app op)) :
    Appends P (invoke env app op) :=
  (appends_controller env app).bind fun _ => appends_emit h

theorem appends_handleRestart (env : Env) {app : App} {requests : Snapshot}
    (h : ∀ res, P (.call app (.handleRestart requests res))) :
    Appends P (handleRestart env app requests) :=
  (appends_controller env app).bind fun _ => appends_get.bind fun _ =>
    (appends_emit (h _)).bind fun _ => appends_pure _

/-- `w` makes no epoch check and restarts only controllers `ok` allows. -/
def RestartsOnly (ok : App → Prop) (w : Work α) : Prop :=
  Appends (Event.RestartsOnly ok) w

theorem RestartsOnly.mono {ok ok' : App → Prop} {w : Work α} (h : ∀ g, ok g → ok' g)
    (hw : RestartsOnly ok w) : RestartsOnly ok' w :=
  Appends.mono (fun e he => by
    unfold Event.RestartsOnly at he ⊢
    split <;> simp_all) hw

end Work

namespace Servicer

open Work

variable (env : Env) (ok : App → Prop)

/-- A unit whose events are all passes and store writes of the two flows units restarts
    nothing. -/
theorem restartsOnly_activateFlows (request : ActivateFlowsRequest) :
    RestartsOnly ok (activateFlows env request) := by
  intro t
  obtain ⟨pieces, htrace, hstore, -⟩ := activateFlows_pieces env request t
  refine ⟨_, htrace, fun e he => ?_⟩
  obtain ⟨x, hx, he⟩ := List.mem_flatMap.1 he
  cases x with
  | inr e' =>
    rw [pieceEvents, List.mem_singleton] at he
    have := hstore e' hx
    subst he
    cases e <;> simp_all [Event.IsStoreWrite, Event.RestartsOnly]
  | inl p =>
    rw [pieceEvents, Pass.events, List.append_assoc, List.mem_append] at he
    rcases he with he | he
    · simp only [versionBumps, List.mem_append, List.mem_map] at he
      rcases he with ⟨_, _, rfl⟩ | ⟨_, _, rfl⟩ <;> trivial
    · have hc : CallOrInc p.ipAddr e := by
        rcases List.mem_append.1 he with he | he
        · exact callOrInc_of_mem_statsStage he
        · exact callOrInc_of_mem_downStage he
      rcases hc with ⟨_, _, _, rfl, -⟩ | ⟨_, _, _, rfl⟩ <;> trivial

theorem restartsOnly_deactivateFlows (request : DeactivateFlowsRequest) :
    RestartsOnly ok (deactivateFlows env request) := by
  intro t
  obtain ⟨pieces, htrace, hstore, -⟩ := deactivateFlows_pieces env request t
  refine ⟨_, htrace, fun e he => ?_⟩
  obtain ⟨x, hx, he⟩ := List.mem_flatMap.1 he
  cases x with
  | inr e' =>
    rw [deactivationPieceEvents, List.mem_singleton] at he
    have := hstore e' hx
    subst he
    cases e <;> simp_all [Event.IsStoreWrite, Event.RestartsOnly]
  | inl ip =>
    rw [deactivationPieceEvents, deactivationEvents, List.mem_append] at he
    rcases he with he | he
    · unfold deactivationBumps at he
      split_ifs at he <;> simp only [List.mem_map, List.mem_singleton, List.not_mem_nil] at he
      · obtain ⟨_, _, rfl⟩ := he; trivial
      · subst he; trivial
    · obtain ⟨c, hc, rfl⟩ := List.mem_map.1 he
      have hc := (List.takeWhile_sublist _).subset hc
      unfold deactivationCalls at hc
      split_ifs at hc <;> simp only [List.mem_append, List.mem_singleton, List.not_mem_nil,
        false_or, or_false] at hc <;> rcases hc with rfl | rfl <;> trivial

theorem restartsOnly_setupFlows (request : SetupPolicyRequest)
    (hok : ok .enforcement ∧ ok .gy ∧ ok .enforcementStats) :
    RestartsOnly ok (setupFlows env request) :=
  (appends_handleRestart env fun _ => hok.1).bind fun _ =>
    (appends_handleRestart env fun _ => hok.2.1).bind fun _ =>
      (appends_handleRestart env fun _ => hok.2.2).bind fun _ => appends_pure _

theorem restartsOnly_setupDefaultControllers (hok : ok .inout) :
    RestartsOnly ok (setupDefaultControllers env) :=
  appends_handleRestart env fun _ => hok

theorem restartsOnly_setupUeMac (request : SetupUEMacRequest) (hok : ok .ueMac) :
    RestartsOnly ok (setupUeMac env request) := by
  unfold setupUeMac
  refine (appends_handleRestart env fun _ => hok).bind fun _ => ?_
  dsimp only
  split
  · exact (appends_forM fun _ _ => appends_invoke env trivial).bind fun _ => appends_pure _
  · exact (appends_pure _).bind fun _ => appends_pure _

theorem restartsOnly_setupQuota (request : SetupQuotaRequest) (hok : ok .checkQuota) :
    RestartsOnly ok (setupQuota env request) :=
  appends_handleRestart env fun _ => hok

end Servicer

end Pipelined
