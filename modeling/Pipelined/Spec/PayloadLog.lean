import Pipelined.Native.PayloadLog

/-!
# The payload log stays bounded and never blocks

`_log_grpc_payload` puts a message, reads the size, and maybe takes one off, each under the
queue's lock but not the three together: calls that overlap can all read a size over 100 and
all take a message off. Under every interleaving the queue still holds only the newest
messages, in the order they were put, and at most 100 plus one for each call between its put
and the end of its `get()`; and a call that is about to `get()` finds a message, so the log
never blocks a handler. When no call puts while another is still inside the log, the queue
holds exactly the last 100 messages whenever no call is inside it.

No handler reads the queue, and the log never blocks one, so the handlers of `Native/Rpc`
start where `_log_grpc_payload` returns.

## Key results

- `payload_log_suffix_bounded`: the queue is a suffix of the messages put, of bounded length.
- `payload_log_never_blocks`: a call can take a step exactly when it has not finished.
- `solo_payload_log_window`: without overlapping calls, the queue is the last 100 messages.
-/

namespace Pipelined

/-- One for a call between its put and the end of its size check or of its `get()`. -/
def LogThread.weight : LogThread → Nat
  | .check | .get => 1
  | _ => 0

/-- Whether the call is about to put a message. -/
def LogThread.puts : LogThread → Bool
  | .start (some _) => true
  | _ => false

/-- The calls between their put and the end of their size check or of their `get()`. -/
def pendingLogs : List LogThread → Nat
  | [] => 0
  | th :: ths => th.weight + pendingLogs ths

theorem pendingLogs_set {l : List LogThread} {i : Nat} {y : LogThread} (h : l[i]? = some y)
    (x : LogThread) : pendingLogs (l.set i x) + y.weight = pendingLogs l + x.weight := by
  induction l generalizing i with
  | nil => simp at h
  | cons a l ih =>
    cases i with
    | zero =>
      simp only [List.getElem?_cons_zero, Option.some.injEq] at h
      subst h
      simp only [List.set_cons_zero, pendingLogs]
      omega
    | succ i =>
      have := ih (by simpa using h)
      simp only [List.set_cons_succ, pendingLogs]
      omega

@[simp] theorem pendingLogs_map_start (msgs : List (Option String)) :
    pendingLogs (msgs.map .start) = 0 := by
  induction msgs <;> simp [pendingLogs, LogThread.weight, *]

namespace PayloadLog

variable {msgs : List (Option String)} {l l' : PayloadLog} {i : Nat}

/-- What one step can do: finish a falsy request, put a message, read the size, or take the
    oldest message off. -/
theorem step_eq_some (h : l.step i = some l') :
    (l.threads[i]? = some (.start none) ∧ l' = ⟨l.queue, l.history, l.threads.set i .done⟩) ∨
    (∃ msg, l.threads[i]? = some (.start (some msg)) ∧
      l' = ⟨l.queue ++ [msg], l.history ++ [msg], l.threads.set i .check⟩) ∨
    (l.threads[i]? = some .check ∧ l' = ⟨l.queue, l.history,
      l.threads.set i (if l.queue.length > logLimit then .get else .done)⟩) ∨
    (∃ msg rest, l.threads[i]? = some .get ∧ l.queue = msg :: rest ∧
      l' = ⟨rest, l.history, l.threads.set i .done⟩) := by
  unfold step at h
  split at h <;> rename_i hi
  · exact .inl ⟨hi, (Option.some.inj h).symm⟩
  · exact .inr (.inl ⟨_, hi, (Option.some.inj h).symm⟩)
  · exact .inr (.inr (.inl ⟨hi, (Option.some.inj h).symm⟩))
  · split at h
    · cases h
    · exact .inr (.inr (.inr ⟨_, _, hi, ‹_›, (Option.some.inj h).symm⟩))
  · cases h

/-- A `get()` takes the oldest message off. -/
theorem step_get {msg : String} {rest : List String} (h : l.threads[i]? = some .get)
    (hq : l.queue = msg :: rest) : l.step i = some ⟨rest, l.history, l.threads.set i .done⟩ := by
  simp [step, h, hq]

/-! ## Every interleaving -/

/-- What holds of the log in every reachable state. -/
structure LogInv (l : PayloadLog) : Prop where
  /-- The queue holds the newest messages put, in order. -/
  suffix : l.queue <:+ l.history
  /-- Each call past its put and before the end of its `get()` has a message to take. -/
  lower : pendingLogs l.threads ≤ l.queue.length
  /-- At most 100 messages, plus one per call past its put and before the end of its `get()`. -/
  upper : l.queue.length ≤ logLimit + pendingLogs l.threads

theorem LogInv.step (hl : LogInv l) (h : l.step i = some l') : LogInv l' := by
  obtain ⟨hsuf, hlo, hup⟩ := hl
  rcases step_eq_some h with ⟨hi, rfl⟩ | ⟨msg, hi, rfl⟩ | ⟨hi, rfl⟩ | ⟨msg, rest, hi, hq, rfl⟩
  · -- a falsy request: only the call moves
    have := pendingLogs_set hi .done
    simp only [LogThread.weight] at this
    exact ⟨hsuf, by dsimp only; omega, by dsimp only; omega⟩
  · -- a put: one more message, and one more call inside
    have := pendingLogs_set hi .check
    simp only [LogThread.weight] at this
    obtain ⟨t, ht⟩ := hsuf
    refine ⟨⟨t, by rw [← ht, List.append_assoc]⟩, ?_, ?_⟩ <;>
      simp only [List.length_append, List.length_singleton] <;> omega
  · -- a size check: the call goes on to `get()` only over 100
    have := pendingLogs_set hi (if l.queue.length > logLimit then .get else .done)
    split_ifs at this ⊢ <;> simp only [LogThread.weight] at this <;>
      exact ⟨hsuf, by dsimp only; omega, by dsimp only; omega⟩
  · -- a get: one message and one call fewer
    have := pendingLogs_set hi .done
    simp only [LogThread.weight] at this
    rw [hq] at hsuf hlo hup
    simp only [List.length_cons] at hlo hup
    exact ⟨(List.suffix_cons msg rest).trans hsuf, by dsimp only; omega, by dsimp only; omega⟩

theorem logInv_of_reachable (hl : Reachable msgs l) : LogInv l := by
  induction hl with
  | init => exact ⟨List.nil_suffix, by simp [init], by simp [init]⟩
  | step _ _ h ih => exact ih.step h

/-- Under every interleaving, the queue holds the newest messages put, in the order they were
    put, and at most 100 of them plus one per call between its put and the end of its
    `get()`. -/
theorem payload_log_suffix_bounded (hl : Reachable msgs l) :
    l.queue <:+ l.history ∧ l.queue.length ≤ logLimit + pendingLogs l.threads :=
  ⟨(logInv_of_reachable hl).suffix, (logInv_of_reachable hl).upper⟩

/-- Two calls that have both put their message. -/
def bothPut : PayloadLog := ⟨["a", "b"], ["a", "b"], [.check, .check]⟩

theorem bothPut_reachable : Reachable [some "a", some "b"] bothPut := run_reachable [0, 1] .init rfl

theorem payload_log_suffix_bounded_bothPut :
    Reachable [some "a", some "b"] bothPut ∧
      (bothPut.queue <:+ bothPut.history ∧ bothPut.queue.length ≤ logLimit + pendingLogs bothPut.threads) :=
  ⟨bothPut_reachable, payload_log_suffix_bounded bothPut_reachable⟩

theorem one_le_pendingLogs {ths : List LogThread} {j : Nat} (h : ths[j]? = some .get) :
    1 ≤ pendingLogs ths := by
  have := pendingLogs_set h .done
  simp only [LogThread.weight] at this
  omega

/-- A call can take a step exactly when it has not finished logging: a call about to
    `get()` always finds a message, so the log never blocks a handler. -/
theorem payload_log_never_blocks (hl : Reachable msgs l) (i : Nat) :
    (l.step i).isSome ↔ ∃ th, l.threads[i]? = some th ∧ th ≠ .done := by
  constructor
  · intro h
    obtain ⟨l', hl'⟩ := Option.isSome_iff_exists.1 h
    rcases step_eq_some hl' with ⟨hi, -⟩ | ⟨_, hi, -⟩ | ⟨hi, -⟩ | ⟨_, _, hi, -⟩ <;>
      exact ⟨_, hi, nofun⟩
  · rintro ⟨th, hi, hth⟩
    cases th with
    | start msg => cases msg <;> simp [step, hi]
    | check => simp [step, hi]
    | get =>
      have := (logInv_of_reachable hl).lower
      have := one_le_pendingLogs hi
      cases hq : l.queue with
      | nil => simp only [hq, List.length_nil] at *; omega
      | cons msg rest => simp [step_get hi hq]
    | done => exact absurd rfl hth

theorem payload_log_never_blocks_bothPut :
    Reachable [some "a", some "b"] bothPut ∧
      ((bothPut.step 1).isSome ↔ ∃ th, bothPut.threads[1]? = some th ∧ th ≠ .done) :=
  ⟨bothPut_reachable, payload_log_never_blocks bothPut_reachable 1⟩

/-! ## Calls that do not overlap -/

/-- The states the calls `msgs` reach when no call puts its message while another call is
    between its put and the end of its `get()`. -/
inductive SoloReachable (msgs : List (Option String)) : PayloadLog → Prop where
  | init : SoloReachable msgs (init msgs)
  | step {l l' : PayloadLog} (i : Nat) : SoloReachable msgs l → l.step i = some l' →
      (l.threads[i]?.map LogThread.puts = some true → pendingLogs l.threads = 0) →
      SoloReachable msgs l'

theorem SoloReachable.reachable (hl : SoloReachable msgs l) : Reachable msgs l := by
  induction hl with
  | init => exact .init
  | step i _ h _ ih => exact .step i ih h

/-- What holds of the log when calls do not overlap. -/
structure SoloInv (l : PayloadLog) : Prop where
  /-- At most one call is inside the log. -/
  alone : pendingLogs l.threads ≤ 1
  /-- The last 100 messages, and one more while a call is inside. -/
  length_eq : l.queue.length = min l.history.length (logLimit + pendingLogs l.threads)
  /-- A call about to `get()` read a size over 100. -/
  full : ∀ j : Nat, l.threads[j]? = some LogThread.get → logLimit < l.queue.length

/-- A call about to `get()` after call `i` moved to `x` is `i`, or was about to before. -/
theorem get_of_getElem?_set {ths : List LogThread} {i j : Nat} {x : LogThread}
    (h : (ths.set i x)[j]? = some .get) : x = .get ∨ ths[j]? = some .get := by
  rw [List.getElem?_set] at h
  split_ifs at h
  · exact .inl (Option.some.inj h)
  · exact .inr h

theorem SoloInv.step (hl : SoloInv l) (h : l.step i = some l')
    (hsolo : l.threads[i]?.map LogThread.puts = some true → pendingLogs l.threads = 0) :
    SoloInv l' := by
  obtain ⟨halone, hlen, hfull⟩ := hl
  rcases step_eq_some h with ⟨hi, rfl⟩ | ⟨msg, hi, rfl⟩ | ⟨hi, rfl⟩ | ⟨msg, rest, hi, hq, rfl⟩
  · -- a falsy request: only the call moves
    have := pendingLogs_set hi .done
    simp only [LogThread.weight] at this
    exact ⟨by dsimp only; omega, by dsimp only; omega,
      fun j hj => hfull j ((get_of_getElem?_set hj).resolve_left nofun)⟩
  · -- a put, with no other call inside
    have := pendingLogs_set hi .check
    have h0 := hsolo (by simp [hi, LogThread.puts])
    simp only [LogThread.weight] at this
    refine ⟨by dsimp only; omega, ?_, fun j hj => ?_⟩
    · simp only [List.length_append, List.length_singleton]
      omega
    · have := hfull j ((get_of_getElem?_set hj).resolve_left nofun)
      simp only [List.length_append]
      omega
  · -- a size check: over 100 only when the queue holds 101
    have := pendingLogs_set hi (if l.queue.length > logLimit then .get else .done)
    split_ifs at this ⊢ with hover <;> simp only [LogThread.weight] at this
    · exact ⟨by dsimp only; omega, by dsimp only; omega,
        fun j hj => (get_of_getElem?_set hj).elim (fun _ => hover) (hfull j)⟩
    · exact ⟨by dsimp only; omega, by dsimp only; omega,
        fun j hj => absurd (one_le_pendingLogs hj) (by dsimp only; omega)⟩
  · -- a get, from 101 messages down to 100
    have := pendingLogs_set hi .done
    have hover := hfull i hi
    simp only [LogThread.weight] at this
    rw [hq, List.length_cons] at hlen hover
    exact ⟨by dsimp only; omega, by dsimp only; omega,
      fun j hj => absurd (one_le_pendingLogs hj) (by dsimp only; omega)⟩

theorem soloInv_of_soloReachable (hl : SoloReachable msgs l) : SoloInv l := by
  induction hl with
  | init => exact ⟨by simp [init], by simp [init], fun j hj => by simp [init] at hj⟩
  | step _ _ h hsolo ih => exact ih.step h hsolo

/-- When no call puts its message while another is inside the log, the queue holds exactly the
    last 100 messages put whenever no call is inside it. -/
theorem solo_payload_log_window (hl : SoloReachable msgs l) (hidle : pendingLogs l.threads = 0) :
    l.queue = l.history.drop (l.history.length - logLimit) := by
  have hsuf := List.suffix_iff_eq_drop.1 (logInv_of_reachable hl.reachable).suffix
  have hlen := (soloInv_of_soloReachable hl).length_eq
  rw [hsuf]
  congr 1
  omega

theorem solo_payload_log_window_inTurn :
    SoloReachable [some "a", some "b"] ⟨["a", "b"], ["a", "b"], [.done, .done]⟩ ∧
      pendingLogs [.done, .done] = 0 ∧
      ["a", "b"] = ["a", "b"].drop (2 - logLimit) := by
  have h₁ : SoloReachable [some "a", some "b"] ⟨["a"], ["a"], [.check, .start (some "b")]⟩ :=
    .step 0 .init rfl (by decide)
  have h₂ : SoloReachable [some "a", some "b"] ⟨["a"], ["a"], [.done, .start (some "b")]⟩ :=
    .step 0 h₁ rfl (by decide)
  have h₃ : SoloReachable [some "a", some "b"] ⟨["a", "b"], ["a", "b"], [.done, .check]⟩ :=
    .step 1 h₂ rfl (by decide)
  have h₄ : SoloReachable [some "a", some "b"] ⟨["a", "b"], ["a", "b"], [.done, .done]⟩ :=
    .step 1 h₃ rfl (by decide)
  exact ⟨h₄, rfl, solo_payload_log_window h₄ rfl⟩

end PayloadLog

end Pipelined
