import Pipelined.Native.Types

/-!
# Units of work and the controllers they call

Everything the servicer does to the rest of pipelined is an `Event` appended to a `Trace`,
oldest first. A `Work` computation reads and extends the trace; it stops with a `Fault` when
it calls a method on a controller whose app is disabled, for the service wires a disabled
app's controller as `None`, or when an IPv6 address it decodes is not UTF-8. As in Python, the effects made before the fault stay in the trace.

The controllers are external: `Env` answers each of their calls as a function of the whole
trace so far, so a theorem over every `Env` holds for every behaviour of stateful
controllers. The Epoch Guard behind `check_setup_request_epoch` is not in the source either;
it is modelled from the spec, its state read off the trace.
-/

namespace Pipelined

/-- Every effect so far, oldest first. -/
abbrev Trace := List Event

/-- Why a unit of work stops early. -/
inductive Fault where
  /-- `AttributeError` on a `None` controller. -/
  | absent (app : App)
  /-- `UnicodeDecodeError` of `bytes.decode('utf-8')`. -/
  | unicodeDecodeError
  deriving DecidableEq, Repr

/-- A unit of work, or a part of one. -/
abbrev Work := EStateM Fault Trace

/-- The deployment and the external controllers. -/
structure Env where
  /-- `service_manager.is_app_enabled`; a disabled app's controller is `None`. -/
  isAppEnabled : App → Bool
  /-- `service_config['setup_type']`. -/
  setupType : String
  /-- What a controller's `activate_rules` answers. -/
  activateRules : Trace → App → RulesCall → ActivateFlowsResult
  /-- What a controller's `handle_restart` answers. -/
  handleRestart : Trace → App → Snapshot → SetupFlowsResult
  /-- The last known result a fenced `check_setup_request_epoch` answers. -/
  fencedResult : Trace → App → SetupFlowsResult
  /-- `get_ipv6_interface_id` of `ipv6_prefix_store`. -/
  getIpv6InterfaceId : String → String
  /-- `get_ipv6_prefix` of `ipv6_prefix_store`. -/
  getIpv6Prefix : String → String
  /-- `service_manager.get_all_table_assignments()`, as its items. -/
  allTableAssignments : List TableAssignment

namespace Work

variable {α β : Type}

/-- Append one effect to the trace. -/
def emit (e : Event) : Work Unit := fun t => .ok () (t ++ [e])

/-- Look up an app's controller: `None` when the app is disabled. -/
def controller (env : Env) (app : App) : Work Unit := fun t =>
  if env.isAppEnabled app then .ok () t else .error (.absent app) t

/-- Call a method whose answer the servicer does not read. -/
def invoke (env : Env) (app : App) (op : Op) : Work Unit := do
  controller env app
  emit (.call app op)

/-- `<controller>.activate_rules(imsi, msisdn, uplink_tunnel, ip_addr, apn_ambr,
    static_rule_ids, dynamic_rules)`. -/
def activateRules (env : Env) (app : App) (call : RulesCall) : Work ActivateFlowsResult := do
  controller env app
  let t ← get
  let res := env.activateRules t app call
  emit (.call app (.activateRules call res))
  pure res

/-- `<controller>.handle_restart(requests)`. -/
def handleRestart (env : Env) (app : App) (requests : Snapshot) : Work SetupFlowsResult := do
  controller env app
  let t ← get
  let res := env.handleRestart t app requests
  emit (.call app (.handleRestart requests res))
  pure res

/-! ## The Epoch Guard -/

/-- One event's effect on the last epoch `app`'s guard accepted. -/
def acceptedEpoch (app : App) (last : Option Nat) : Event → Option Nat
  | .call a (.checkSetupRequestEpoch epoch true) => if a = app then some epoch else last
  | _ => last

/-- Modelled from the spec: the last epoch the Epoch Guard of `app` accepted. -/
def lastAcceptedEpoch (app : App) (t : Trace) : Option Nat :=
  t.foldl (acceptedEpoch app) none

/-- Modelled from the spec: an epoch is accepted only when strictly newer than the last. -/
def epochIsNewer : Option Nat → Nat → Bool
  | none, _ => true
  | some last, epoch => last < epoch

/-- Modelled from the spec: `<controller>.check_setup_request_epoch(epoch)`. It answers
    `None` and records `epoch` when the epoch is newer than the last one accepted, and the
    last known result otherwise. -/
def checkSetupRequestEpoch (env : Env) (app : App) (epoch : Nat) :
    Work (Option SetupFlowsResult) := do
  controller env app
  let t ← get
  let accepted := epochIsNewer (lastAcceptedEpoch app t) epoch
  emit (.call app (.checkSetupRequestEpoch epoch accepted))
  pure (if accepted then none else some (env.fencedResult t app))

/-! ## Running a unit of work -/

/-- The trace a unit of work leaves behind, whether it returned or faulted. -/
def finalTrace : EStateM.Result Fault Trace α → Trace
  | .ok _ t => t
  | .error _ t => t

@[simp] theorem run_pure (a : α) (t : Trace) : (pure a : Work α).run t = .ok a t := rfl

@[simp] theorem run_get (t : Trace) : (get : Work Trace).run t = .ok t t := rfl

@[simp] theorem run_bind (x : Work α) (f : α → Work β) (t : Trace) :
    (x >>= f).run t =
      match x.run t with
      | .ok a t' => (f a).run t'
      | .error e t' => .error e t' := by
  show EStateM.bind x f t = _
  unfold EStateM.bind EStateM.run
  cases x t <;> rfl

@[simp] theorem run_map (f : α → β) (x : Work α) (t : Trace) :
    (f <$> x).run t =
      match x.run t with
      | .ok a t' => .ok (f a) t'
      | .error e t' => .error e t' := by
  show EStateM.map f x t = _
  unfold EStateM.map EStateM.run
  cases x t <;> rfl

@[simp] theorem run_throw (f : Fault) (t : Trace) : (throw f : Work α).run t = .error f t := rfl

@[simp] theorem throw_bind (f : Fault) (g : α → Work β) : (throw f : Work α) >>= g = throw f :=
  rfl

@[simp] theorem run_emit (e : Event) (t : Trace) : (emit e).run t = .ok () (t ++ [e]) := rfl

@[simp] theorem run_controller (env : Env) (app : App) (t : Trace) :
    (controller env app).run t =
      if env.isAppEnabled app then .ok () t else .error (.absent app) t := rfl

theorem run_checkSetupRequestEpoch (env : Env) (app : App) (epoch : Nat) (t : Trace) :
    (checkSetupRequestEpoch env app epoch).run t =
      if env.isAppEnabled app then
        .ok (if epochIsNewer (lastAcceptedEpoch app t) epoch then none
            else some (env.fencedResult t app))
          (t ++ [.call app (.checkSetupRequestEpoch epoch
            (epochIsNewer (lastAcceptedEpoch app t) epoch))])
      else .error (.absent app) t := by
  by_cases h : env.isAppEnabled app <;> simp [checkSetupRequestEpoch, h]

theorem run_invoke (env : Env) (app : App) (op : Op) (t : Trace) :
    (invoke env app op).run t =
      if env.isAppEnabled app then .ok () (t ++ [.call app op]) else .error (.absent app) t := by
  by_cases h : env.isAppEnabled app <;> simp [invoke, h]

end Work

end Pipelined
