import Pipelined.Native.Rpc

/-!
# Handler threads and the event loop

The servicer's handlers run on gRPC threads, one per call, while every posted unit of work
runs on the single asyncio event loop, one at a time, in the order the units were posted
(`call_soon_threadsafe` appends to the loop's FIFO of ready callbacks). A step is either a step
of one handler thread or the loop running the oldest posted unit to its end.

Every effect is recorded in the trace with the number of the call it was made for, so that
properties about interleavings can be read off it. The controllers and the units see the
effects without the tags.

A unit that raises is dropped by the loop after logging; the future it was to complete is
never set, so a handler waiting on it never answers.

A unit runs in one step here. In the source a handler's thread runs beside the loop and may
make its step while a unit is halfway. The only effects a handler's thread makes are epoch
checks (`stepThread_new_checks`), so the loop's own effects, the trace without its epoch checks
(`loopEffects`), are in the same order under both views; the contiguity of a call's unit
(`single_unit_effects_contiguous`) is stated of them.
-/

namespace Pipelined

/-- A posted unit of work and the call it was posted for. A unit a handler waits on returns
    the handler's answer. -/
structure Job where
  owner : Nat
  unit : Work (Option Reply)

/-- A handler thread. -/
inductive Thread where
  | running (p : Program)
  /-- Blocked in `fut.result()` on the unit it posted. -/
  | waiting
  | replied (r : Reply)
  /-- The handler raised: it called a method on an absent controller. -/
  | raised (f : Fault)

/-- The servicer: every effect so far, oldest first and tagged with its call; the units posted
    and not yet run, oldest first; and the thread of each call. -/
structure Sys where
  trace : List (Nat × Event)
  queue : List Job
  threads : List Thread

namespace Sys

/-- The effects so far, as the controllers and the units read them. -/
def events (s : Sys) : Trace := s.trace.map (·.2)

/-- Record, for call `owner`, the effects a run from `s.events` appended to reach `after`. -/
def record (s : Sys) (owner : Nat) (after : Trace) : Sys :=
  { s with trace := s.trace ++ (after.drop s.trace.length).map (owner, ·) }

/-- Set the state of thread `i`. -/
def setThread (s : Sys) (i : Nat) (th : Thread) : Sys :=
  { s with threads := s.threads.set i th }

/-- Post a unit to the loop. -/
def enqueue (s : Sys) (job : Job) : Sys :=
  { s with queue := s.queue ++ [job] }

/-- The calls `rpcs`, each on its own thread, before any step. -/
def init (env : Env) (rpcs : List Rpc) : Sys :=
  ⟨[], [], rpcs.map fun r => .running (r.handle env)⟩

@[simp] theorem record_queue (s : Sys) (owner : Nat) (after : Trace) :
    (s.record owner after).queue = s.queue := rfl

@[simp] theorem record_threads (s : Sys) (owner : Nat) (after : Trace) :
    (s.record owner after).threads = s.threads := rfl

@[simp] theorem record_trace (s : Sys) (owner : Nat) (after : Trace) :
    (s.record owner after).trace = s.trace ++ (after.drop s.trace.length).map (owner, ·) := rfl

@[simp] theorem setThread_trace (s : Sys) (i : Nat) (th : Thread) :
    (s.setThread i th).trace = s.trace := rfl

@[simp] theorem setThread_queue (s : Sys) (i : Nat) (th : Thread) :
    (s.setThread i th).queue = s.queue := rfl

@[simp] theorem setThread_threads (s : Sys) (i : Nat) (th : Thread) :
    (s.setThread i th).threads = s.threads.set i th := rfl

@[simp] theorem enqueue_trace (s : Sys) (job : Job) : (s.enqueue job).trace = s.trace := rfl

@[simp] theorem enqueue_queue (s : Sys) (job : Job) : (s.enqueue job).queue = s.queue ++ [job] :=
  rfl

@[simp] theorem enqueue_threads (s : Sys) (job : Job) : (s.enqueue job).threads = s.threads :=
  rfl

end Sys

/-- A step of the thread of call `i`, running `p`. -/
def stepThread (env : Env) (s : Sys) (i : Nat) : Program → Sys
  | .reply r => s.setThread i (.replied r)
  | .checkEpoch app epoch k =>
    match (Work.checkSetupRequestEpoch env app epoch).run s.events with
    | .ok none t => (s.record i t).setThread i (.running k)
    | .ok (some r) t => (s.record i t).setThread i (.replied (.setupFlowsResult r))
    | .error f t => (s.record i t).setThread i (.raised f)
  | .post u k => (s.enqueue ⟨i, (fun _ => none) <$> u⟩).setThread i (.running k)
  | .await u => (s.enqueue ⟨i, some <$> u⟩).setThread i .waiting

/-- The loop runs a unit to its end; a thread waiting on it gets its answer. -/
def runJob (s : Sys) (job : Job) : Sys :=
  match job.unit.run s.events with
  | .ok (some r) t => (s.record job.owner t).setThread job.owner (.replied r)
  | .ok none t => s.record job.owner t
  | .error _ t => s.record job.owner t

/-- Who moves: the thread of call `i`, or the event loop. -/
inductive Choice where
  | rpc (i : Nat)
  | loop
  deriving DecidableEq, Repr

/-- One step, when the chosen party can move. -/
def next (env : Env) (s : Sys) : Choice → Option Sys
  | .rpc i =>
    match s.threads[i]? with
    | some (.running p) => some (stepThread env s i p)
    | _ => none
  | .loop =>
    match s.queue with
    | [] => none
    | job :: rest => some (runJob { s with queue := rest } job)

/-- The states the calls `rpcs` can reach, under any interleaving. -/
inductive Reachable (env : Env) (rpcs : List Rpc) : Sys → Prop where
  | init : Reachable env rpcs (Sys.init env rpcs)
  | step {s s' : Sys} (c : Choice) :
      Reachable env rpcs s → next env s c = some s' → Reachable env rpcs s'

/-- Run the steps of a schedule in order. -/
def run (env : Env) : Sys → List Choice → Option Sys
  | s, [] => some s
  | s, c :: cs => (next env s c).bind (run env · cs)

theorem run_reachable {env : Env} {rpcs : List Rpc} :
    ∀ {s s' : Sys} {cs : List Choice}, Reachable env rpcs s → run env s cs = some s' →
      Reachable env rpcs s'
  | s, s', [], hs, h => by cases h; exact hs
  | s, s', c :: cs, hs, h => by
    simp only [run] at h
    cases hn : next env s c with
    | none => simp [hn] at h
    | some s₁ =>
      rw [hn, Option.some_bind] at h
      exact run_reachable (Reachable.step c hs hn) h

end Pipelined
