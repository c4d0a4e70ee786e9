import Pipelined.Spec.Loop
import Pipelined.Spec.Run

/-!
# Capability gating

Every gated handler checks `is_app_enabled` of one app (`Rpc.gate`) before it touches
anything. The check is of one app, though, and the unit a handler posts may call others.
`ActivateFlows` checks the enforcement app, and its unit calls the gy controller for a request
of GY origin. With gy disabled, the unit bumps the rule's version and calls enforcement_stats,
and then faults on the absent gy controller. The future is never set, and the handler waits
forever (`gy_activation_faults_after_bump`).
-/

namespace Pipelined

/-- `env` with the app `absent` disabled, so that its controller is `None`. -/
def Env.disabling (env : Env) (absent : App) : Env :=
  { env with isAppEnabled := fun app => app != absent && env.isAppEnabled app }

/-- With gy disabled, a GY-origin `ActivateFlows` passes its gating. Its unit bumps the
    rule's version and calls enforcement_stats, then faults on the absent gy controller, and
    the handler waits forever on a future that no step sets. -/
theorem gy_activation_faults_after_bump :
    (Rpc.activateFlows (singleRuleRequest .GY)).gate = some .enforcement ∧
      (Env.succeeding.disabling .gy).isAppEnabled .enforcement = true ∧
      ∃ s, Reachable (Env.succeeding.disabling .gy) [.activateFlows (singleRuleRequest .GY)] s ∧
        (∃ call res, s.trace =
          [(0, .updateVersion "IMSI001010000000001" (convertIpv4StrToIpProto "192.168.128.11")
            (some "rule1")),
          (0, .call .enforcementStats (.activateRules call res))]) ∧
        s.threads = [.waiting] ∧ ∀ c, next (Env.succeeding.disabling .gy) s c = none := by
  have hrun : run (Env.succeeding.disabling .gy)
      (Sys.init (Env.succeeding.disabling .gy) [.activateFlows (singleRuleRequest .GY)])
      [.rpc 0, .loop] = some _ := rfl
  refine ⟨rfl, rfl, _, run_reachable .init hrun, ⟨_, _, rfl⟩, rfl, ?_⟩
  rintro ((_ | _ | i) | _) <;> rfl

end Pipelined
