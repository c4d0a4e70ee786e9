import Pipelined.ForStd.List

/-!
# The payload log of `_log_grpc_payload`

Every handler first logs its request: `_log_grpc_payload` formats the payload, puts the message
on the module-level `grpc_msg_queue`, and then, when `qsize()` is over 100, takes the oldest
message off with `get()`. The handlers run on gRPC's threads, one per call, so these operations
of different calls interleave: each of them holds the queue's lock, but not the three together.
`get()` blocks while the queue is empty.

Nothing else touches the queue, so it is modelled on its own: a step is one queue operation of
one call. A message is the text a call formats from its request, and a falsy request logs
nothing. Printing the message when `_print_grpc_payload` is set writes no state and is left
out.

The model also keeps every message put so far. The code has no such list: it only serves to
say which messages the queue holds.
-/

namespace Pipelined

/-- The `100` of `grpc_msg_queue.qsize() > 100`. -/
def logLimit : Nat := 100

/-- Where a call is in `_log_grpc_payload`. -/
inductive LogThread where
  /-- Not yet logged: the message its request formats to, or `none` for a falsy request. -/
  | start (msg : Option String)
  /-- Has put its message; about to read `qsize()`. -/
  | check
  /-- Read a size over 100; about to `get()`. -/
  | get
  /-- Done with the queue. -/
  | done
  deriving DecidableEq, Repr

/-- `grpc_msg_queue`, oldest first; every message put so far, oldest first; and where each call
    is in `_log_grpc_payload`. -/
structure PayloadLog where
  queue : List String
  history : List String
  threads : List LogThread
  deriving DecidableEq, Repr

namespace PayloadLog

/-- The calls `msgs`, before any of them logs. -/
def init (msgs : List (Option String)) : PayloadLog := ⟨[], [], msgs.map .start⟩

/-- One queue operation of call `i`, when it can make one. -/
def step (l : PayloadLog) (i : Nat) : Option PayloadLog :=
  match l.threads[i]? with
  | some (.start none) => some { l with threads := l.threads.set i .done }
  | some (.start (some msg)) =>
    some ⟨l.queue ++ [msg], l.history ++ [msg], l.threads.set i .check⟩
  | some .check =>
    some { l with threads := l.threads.set i (if l.queue.length > logLimit then .get else .done) }
  | some .get =>
    match l.queue with
    | [] => none
    | _ :: rest => some { l with queue := rest, threads := l.threads.set i .done }
  | _ => none

/-- The states the calls `msgs` can reach, under any interleaving. -/
inductive Reachable (msgs : List (Option String)) : PayloadLog → Prop where
  | init : Reachable msgs (init msgs)
  | step {l l' : PayloadLog} (i : Nat) : Reachable msgs l → l.step i = some l' → Reachable msgs l'

/-- Run the steps of a schedule in order. -/
def run : PayloadLog → List Nat → Option PayloadLog
  | l, [] => some l
  | l, i :: is => (l.step i).bind (run · is)

theorem run_reachable {msgs : List (Option String)} :
    ∀ (is : List Nat) {l l' : PayloadLog}, Reachable msgs l → l.run is = some l' →
      Reachable msgs l'
  | [], _, _, hl, h => by cases h; exact hl
  | i :: is, l, _, hl, h => by
    simp only [run] at h
    cases hs : l.step i with
    | none => simp [hs] at h
    | some l₁ =>
      rw [hs, Option.some_bind] at h
      exact run_reachable is (.step i hl hs) h

end PayloadLog

end Pipelined
