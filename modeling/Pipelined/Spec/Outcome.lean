import Pipelined.ForStd.List
import Pipelined.Spec.Filtering

/-!
# The result `_activate_flows` returns

When the controllers answer one result per rule they are given, the result of
`_activate_flows` is one block per address family it processes, IPv4 first. Each block lists
every requested rule exactly once: the downstream controller's results for the rules the stats
stage let through, then the stats stage's FAILURE results for the others. So a rule the stats
stage reported FAILURE is in its block once, as that result, and the downstream controller
never saw it.

The argument is one fact about lists, `block_ruleIds`, applied to the static and the dynamic
rules apart: the rules let through and the failures split the request, for the filter keeps
exactly the requested ids that are not among the failures' ids.

## Key results

- `block_ruleIds`: a block's ids permute the requested ids; a failure is in its block once
- `blockSpec_of_answered`: every completed pass of `_install_flows_gx` / `_gy` has such a block
- `activateFlows_result_blocks`: the result of `_activate_flows` is the passes' blocks
-/

namespace Pipelined

namespace Servicer

open Work

/-- A controller's answer to `call`: exactly one result per static rule id and one per
    dynamic rule it was given, and no other. -/
def Answers (call : RulesCall) (res : ActivateFlowsResult) : Prop :=
  (res.staticRuleResults.map (·.ruleId)).Perm call.staticRuleIds ∧
    (res.dynamicRuleResults.map (·.ruleId)).Perm (call.dynamicRules.map (·.id))

/-- The controllers of `Env.succeeding` answer one result per rule they are given. -/
theorem succeeding_answers (tr : Trace) (app : App) (call : RulesCall) :
    Answers call (Env.succeeding.activateRules tr app call) := by
  simp [Answers, Env.succeeding, Env.answering, RulesCall.answerAll, Function.comp_def]

/-! ## One kind of rules in one pass -/

/-- One kind of rules in a pass: `R` the requested ids, `S` the stats stage's results and `D`
    the downstream results for the requested ids that `S` did not report FAILURE. The block
    `D ++ failures` lists each requested id once, and each failure is in it once, as itself,
    and not in `D`. -/
theorem block_ruleIds {R : List String} {S D : List RuleModResult} (hR : R.Nodup)
    (hS : (S.map (·.ruleId)).Perm R ∨ S = [])
    (hD : (D.map (·.ruleId)).Perm
      (R.filter (· ∉ (S.filter (·.result = .FAILURE)).map (·.ruleId)))) :
    ((D ++ S.filter (·.result = .FAILURE)).map (·.ruleId)).Perm R ∧
      ∀ x ∈ S, x.result = .FAILURE →
        (D ++ S.filter (·.result = .FAILURE)).filter (·.ruleId = x.ruleId) = [x] ∧
          x.ruleId ∉ D.map (·.ruleId) := by
  have hSnd : (S.map (·.ruleId)).Nodup := by
    rcases hS with h | rfl
    · exact h.nodup_iff.2 hR
    · exact List.nodup_nil
  -- The failures have distinct ids, all of them requested.
  have hFnd : ((S.filter (·.result = .FAILURE)).map (·.ruleId)).Nodup :=
    hSnd.sublist ((List.filter_sublist S).map _)
  have hFsub : (S.filter (·.result = .FAILURE)).map (·.ruleId) ⊆ R := by
    rcases hS with h | rfl
    · exact ((List.filter_sublist S).map _).subset.trans h.subset
    · simp
  refine ⟨?_, fun x hx hfail => ?_⟩
  · rw [List.map_append]
    exact (hD.append_right _).trans (List.filter_not_mem_append_perm hR hFnd hFsub)
  · have hxF : x ∈ S.filter (·.result = .FAILURE) := List.mem_filter.2 ⟨hx, by simpa using hfail⟩
    have hnot : x.ruleId ∉ D.map (·.ruleId) := fun h =>
      of_decide_eq_true (List.mem_filter.1 (hD.subset h)).2 (List.mem_map_of_mem _ hxF)
    refine ⟨?_, hnot⟩
    have hDx : D.filter (·.ruleId = x.ruleId) = [] :=
      List.filter_eq_nil_iff.2 fun y hy he => hnot (by simpa using ⟨y, hy, of_decide_eq_true he⟩)
    rw [List.filter_append, hDx, List.nil_append, List.filter_key_eq_singleton hFnd hxF]

/-! ## One pass -/

/-- The block of pass `p`, whose downstream controller answered `down`: it lists every
    requested static and dynamic rule id exactly once, and a rule the stats stage reported
    FAILURE is in it once, as that stats result, and not among the downstream results. -/
def BlockSpec (request : ActivateFlowsRequest) (p : Pass) : Prop :=
  ∃ down, p.downRes = some down ∧
    (p.result.staticRuleResults.map (·.ruleId)).Perm request.ruleIds ∧
    (p.result.dynamicRuleResults.map (·.ruleId)).Perm (request.dynamicRules.map (·.id)) ∧
    (∀ x ∈ p.statsRes.staticRuleResults, x.result = .FAILURE →
      p.result.staticRuleResults.filter (·.ruleId = x.ruleId) = [x] ∧
        x.ruleId ∉ down.staticRuleResults.map (·.ruleId)) ∧
    (∀ x ∈ p.statsRes.dynamicRuleResults, x.result = .FAILURE →
      p.result.dynamicRuleResults.filter (·.ruleId = x.ruleId) = [x] ∧
        x.ruleId ∉ down.dynamicRuleResults.map (·.ruleId))

section Pass

variable {env : Env} {request : ActivateFlowsRequest}
  (hanswers : ∀ tr app call, Answers call (env.activateRules tr app call))

include hanswers in
/-- The stats stage answers one result per requested rule, or nothing when it is disabled. -/
theorem answers_statsAnswer (tr : Trace) (call : RulesCall) :
    Answers call (statsAnswer env tr call) ∨ statsAnswer env tr call = {} := by
  unfold statsAnswer
  split
  · exact .inl (hanswers _ _ _)
  · exact .inr rfl

/-- The dynamic ids sent downstream are the requested ones that did not fail. -/
theorem map_id_filterFailedDynamicRules (failedResults : List RuleModResult) :
    (filterFailedDynamicRules request failedResults).map (·.id) =
      (request.dynamicRules.map (·.id)).filter (· ∉ failedResults.map (·.ruleId)) := by
  simp only [filterFailedDynamicRules, List.filter_map]
  rfl

include hanswers in
/-- A pass whose downstream controller answered has the block `BlockSpec` describes. -/
theorem blockSpec_of_answered (hstatic : request.ruleIds.Nodup)
    (hdynamic : (request.dynamicRules.map (·.id)).Nodup) {p : Pass}
    (hp : p.Answered env request) (hsome : p.downRes.isSome) : BlockSpec request p := by
  obtain ⟨⟨tr, hstats⟩, hdown⟩ := hp
  obtain ⟨down, hd⟩ := Option.isSome_iff_exists.1 hsome
  obtain ⟨tr', hdown⟩ := hdown down hd
  have hS := answers_statsAnswer hanswers tr (p.statsCall request)
  rw [← hstats] at hS
  have hD := hanswers tr' (downstreamApp request.requestOrigin) (p.downCall request)
  rw [← hdown] at hD
  have hres : p.result = p.block down := by simp [Pass.result, hd]
  obtain ⟨hsPerm, hsFail⟩ := block_ruleIds (S := p.statsRes.staticRuleResults) hstatic
    (hS.imp And.left fun h => by rw [h]) hD.1
  obtain ⟨hdPerm, hdFail⟩ := block_ruleIds (S := p.statsRes.dynamicRuleResults) hdynamic
    (hS.imp And.right fun h => by rw [h]) (by simpa [Pass.downCall, rulesCall,
      map_id_filterFailedDynamicRules] using hD.2)
  exact ⟨down, hd, by rw [hres]; exact hsPerm, by rw [hres]; exact hdPerm,
    by rw [hres]; exact hsFail, by rw [hres]; exact hdFail⟩

end Pass

/-! ## The whole unit -/

/-- When every controller answers one result per rule it is given and the request names
    distinct static and distinct dynamic rule ids, a run of `_activate_flows` that returns
    makes one pass per address family (IPv4 first), each pass's calls are in the trace, and
    the returned static and dynamic lists are the passes' blocks in order, each as
    `BlockSpec` describes. -/
theorem activateFlows_result_blocks (env : Env)
    (hanswers : ∀ tr app call, Answers call (env.activateRules tr app call))
    (request : ActivateFlowsRequest) (hstatic : request.ruleIds.Nodup)
    (hdynamic : (request.dynamicRules.map (·.id)).Nodup) {t t' : Trace}
    {res : ActivateFlowsResult} (hok : (activateFlows env request).run t = .ok res t') :
    ∃ passes : List Pass,
      passes.map (·.ipAddr) = families env request.ipAddr request.ipv6Addr ∧
      (∀ p ∈ passes, p.events request env <:+: t') ∧
      res.staticRuleResults = passes.flatMap (·.result.staticRuleResults) ∧
      res.dynamicRuleResults = passes.flatMap (·.result.dynamicRuleResults) ∧
      ∀ p ∈ passes, BlockSpec request p := by
  obtain ⟨passes, hfam, hpass, hs, hd⟩ := activateFlows_ok_passes hok
  exact ⟨passes, hfam, fun p hp => (hpass p hp).1, hs, hd, fun p hp =>
    blockSpec_of_answered hanswers hstatic hdynamic (hpass p hp).2.1 (hpass p hp).2.2⟩

theorem activateFlows_result_blocks_dualStack :
    dualStackRequest.ruleIds.Nodup ∧ (dualStackRequest.dynamicRules.map (·.id)).Nodup ∧
      ∃ res t', (activateFlows Env.succeeding dualStackRequest).run [] = .ok res t' ∧
        ∃ passes : List Pass,
          passes.map (·.ipAddr) =
            families Env.succeeding dualStackRequest.ipAddr dualStackRequest.ipv6Addr ∧
          (∀ p ∈ passes, p.events dualStackRequest Env.succeeding <:+: t') ∧
          res.staticRuleResults = passes.flatMap (·.result.staticRuleResults) ∧
          res.dynamicRuleResults = passes.flatMap (·.result.dynamicRuleResults) ∧
          ∀ p ∈ passes, BlockSpec dualStackRequest p :=
  ⟨by decide, by decide, _, _, rfl, activateFlows_result_blocks Env.succeeding succeeding_answers
    dualStackRequest (by decide) (by decide) rfl⟩

end Servicer

end Pipelined
