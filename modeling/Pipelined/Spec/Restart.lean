import Pipelined.Spec.Filtering
import Pipelined.Native.EventLoop

/-!
# Restart replay against incremental activation

`_setup_flows` partitions a restart snapshot by request origin and replays each part through
a controller's `handle_restart`: the GX sub-requests to the enforcement controller and again
to enforcement_stats, the GY ones to gy (`run_setupFlows`). `_activate_flows` hands a request
of any origin to enforcement_stats and then to its downstream controller, enforcement for GX
and gy for any other origin.

The two routes agree for GX only: a GY sub-request is replayed to gy but not to
enforcement_stats, where activation installs it, and a sub-request of any other origin is
replayed to no controller at all (`nonGx_subrequests_not_replayed_like_activation`).
-/

namespace Pipelined

namespace Servicer

open Work

theorem run_setupFlows {env : Env} (henf : env.isAppEnabled .enforcement)
    (hgy : env.isAppEnabled .gy) (hstats : env.isAppEnabled .enforcementStats)
    (request : SetupPolicyRequest) (t : Trace) :
    let gxReqs := request.requests.filter (·.requestOrigin = .GX)
    let gyReqs := request.requests.filter (·.requestOrigin = .GY)
    let t₁ := t ++ [.call .enforcement
      (.handleRestart (.policies gxReqs) (env.handleRestart t .enforcement (.policies gxReqs)))]
    let t₂ := t₁ ++ [.call .gy
      (.handleRestart (.policies gyReqs) (env.handleRestart t₁ .gy (.policies gyReqs)))]
    (setupFlows env request).run t =
      .ok (env.handleRestart t .enforcement (.policies gxReqs)) (t₂ ++ [.call .enforcementStats
        (.handleRestart (.policies gxReqs) (env.handleRestart t₂ .enforcementStats (.policies gxReqs)))]) := by
  simp [setupFlows, handleRestart, henf, hgy, hstats]

end Servicer

open Servicer Work

/-- A GY sub-request and one of origin `other 2`, both of `rule1`. -/
def nonGxSnapshot : SetupPolicyRequest :=
  ⟨[singleRuleRequest .GY, singleRuleRequest (.other 2)], 1⟩

/-- `SetupPolicyFlows` of `nonGxSnapshot` passes its three epoch checks and is answered; it
    replays the GY sub-request to gy alone and the other one to no controller, while activating
    either sub-request hands `rule1` to enforcement_stats and to gy. -/
theorem nonGx_subrequests_not_replayed_like_activation :
    (∃ s, Reachable Env.succeeding [.setupPolicyFlows nonGxSnapshot] s ∧
      s.threads = [.replied (.setupFlowsResult ⟨0⟩)] ∧
      s.trace = [(0, .call .gy (.checkSetupRequestEpoch 1 true)),
        (0, .call .enforcement (.checkSetupRequestEpoch 1 true)),
        (0, .call .enforcementStats (.checkSetupRequestEpoch 1 true)),
        (0, .call .enforcement (.handleRestart (.policies []) ⟨0⟩)),
        (0, .call .gy (.handleRestart (.policies [singleRuleRequest .GY]) ⟨0⟩)),
        (0, .call .enforcementStats (.handleRestart (.policies []) ⟨0⟩))]) ∧
    ∀ o ∈ [RequestOriginType.GY, .other 2], ∀ app ∈ [App.enforcementStats, .gy], ∃ res,
      Event.call app (.activateRules (rulesCall (singleRuleRequest o)
        (convertIpv4StrToIpProto "192.168.128.11") ["rule1"] []) res) ∈
        finalTrace ((activateFlows Env.succeeding (singleRuleRequest o)).run []) := by
  have hrun : run Env.succeeding (Sys.init Env.succeeding [.setupPolicyFlows nonGxSnapshot])
      [.rpc 0, .rpc 0, .rpc 0, .rpc 0, .loop] = some _ := rfl
  refine ⟨⟨_, run_reachable .init hrun, rfl, rfl⟩, fun o ho app happ => ?_⟩
  simp only [List.mem_cons, List.mem_singleton, List.not_mem_nil, or_false] at ho happ
  rcases ho with rfl | rfl <;> rcases happ with rfl | rfl
  all_goals first | exact ⟨_, .tail _ (.head _)⟩ | exact ⟨_, .tail _ (.tail _ (.head _))⟩

end Pipelined
