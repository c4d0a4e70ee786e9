import Pipelined.Spec.Outcome

/-!
# What a pass reports

Three facts about what `_install_flows_gx` / `_install_flows_gy` report, each with the input
at which it departs from what one might expect of a two-stage install.

- A rule is reported SUCCESS only as the downstream controller's own result, and the stats
  stage did not report it FAILURE (`success_results_from_downstream`). The stats stage need
  not have reported it SUCCESS: the filter drops only FAILURE, so a rule the stats stage
  omitted or gave another outcome still goes downstream and is returned SUCCESS, against the
  docstrings of both passes (`success_despite_undecided_stats`).
- When the stats stage reports no FAILURE, a GX pass hands every requested static and
  dynamic rule to the enforcement controller in one call (`enforcement_call_of_clean_stats`),
  the combination the source's TODO says crashes pipelined.
- `_activate_rules_in_gy` reports no metrics, so no run of a request of an origin other than
  GX increments ENFORCEMENT_RULE_INSTALL_FAIL (`no_enforcement_counter_off_gx`).
-/

namespace Pipelined

namespace Servicer

open Work

/-! ## Reported successes -/

/-- A SUCCESS in a completed pass's result is one of the downstream controller's results,
    for the stats stage contributes only its FAILURE results. -/
theorem mem_downRes_of_success {p : Pass} {down : ActivateFlowsResult}
    (hd : p.downRes = some down) {x : RuleModResult} (hsucc : x.result = .SUCCESS) :
    (x ∈ p.result.staticRuleResults → x ∈ down.staticRuleResults) ∧
      (x ∈ p.result.dynamicRuleResults → x ∈ down.dynamicRuleResults) := by
  simp only [Pass.result, hd, Pass.block, retrieveFailedResults, List.mem_append,
    List.mem_filter, hsucc]
  exact ⟨fun h => h.resolve_right (by simp), fun h => h.resolve_right (by simp)⟩

/-- With a downstream controller that answers one result per rule it is given, a rule a
    returned run reports SUCCESS was reported SUCCESS by the downstream controller of its pass,
    and the stats stage of that pass did not report it FAILURE. -/
theorem success_results_from_downstream (env : Env) (request : ActivateFlowsRequest)
    (hanswers : ∀ tr call,
      Answers call (env.activateRules tr (downstreamApp request.requestOrigin) call))
    {t t' : Trace} {res : ActivateFlowsResult}
    (hok : (activateFlows env request).run t = .ok res t') :
    ∃ passes : List Pass,
      passes.map (·.ipAddr) = families env request.ipAddr request.ipv6Addr ∧
      (∀ p ∈ passes, p.events request env <:+: t') ∧
      res.staticRuleResults = passes.flatMap (·.result.staticRuleResults) ∧
      res.dynamicRuleResults = passes.flatMap (·.result.dynamicRuleResults) ∧
      ∀ p ∈ passes, ∃ down, p.downRes = some down ∧
        (∀ x ∈ p.result.staticRuleResults, x.result = .SUCCESS →
          x ∈ down.staticRuleResults ∧
            ∀ y ∈ p.statsRes.staticRuleResults, y.ruleId = x.ruleId → y.result ≠ .FAILURE) ∧
        (∀ x ∈ p.result.dynamicRuleResults, x.result = .SUCCESS →
          x ∈ down.dynamicRuleResults ∧
            ∀ y ∈ p.statsRes.dynamicRuleResults, y.ruleId = x.ruleId → y.result ≠ .FAILURE) := by
  obtain ⟨passes, hfam, hpass, hs, hd⟩ := activateFlows_ok_passes hok
  refine ⟨passes, hfam, fun p hp => (hpass p hp).1, hs, hd, fun p hp => ?_⟩
  obtain ⟨-, ⟨-, hans⟩, hsome⟩ := hpass p hp
  obtain ⟨down, hdown⟩ := Option.isSome_iff_exists.1 hsome
  obtain ⟨tr, rfl⟩ := hans down hdown
  -- The downstream controller answered only for the rules it was given.
  have hgiven := hanswers tr (p.downCall request)
  refine ⟨_, hdown, fun x hx hsucc => ?_, fun x hx hsucc => ?_⟩
  · have hmem := (mem_downRes_of_success hdown hsucc).1 hx
    refine ⟨hmem, fun y hy he => ?_⟩
    have := hgiven.1.subset (List.mem_map_of_mem (·.ruleId) hmem)
    exact (mem_downCall_staticRuleIds.1 this).2 y hy he
  · have hmem := (mem_downRes_of_success hdown hsucc).2 hx
    refine ⟨hmem, fun y hy he => ?_⟩
    obtain ⟨d, hd, hid⟩ := List.mem_map.1 (hgiven.2.subset (List.mem_map_of_mem (·.ruleId) hmem))
    exact (mem_downCall_dynamicRules.1 hd).2 y hy (he.trans hid.symm)

theorem success_results_from_downstream_dualStack :
    (∀ tr call, Answers call (Env.succeeding.activateRules tr
      (downstreamApp dualStackRequest.requestOrigin) call)) ∧
      ∃ res t', (activateFlows Env.succeeding dualStackRequest).run [] = .ok res t' ∧
        ∃ passes : List Pass,
          passes.map (·.ipAddr) =
            families Env.succeeding dualStackRequest.ipAddr dualStackRequest.ipv6Addr ∧
          (∀ p ∈ passes, p.events dualStackRequest Env.succeeding <:+: t') ∧
          res.staticRuleResults = passes.flatMap (·.result.staticRuleResults) ∧
          res.dynamicRuleResults = passes.flatMap (·.result.dynamicRuleResults) ∧
          ∀ p ∈ passes, ∃ down, p.downRes = some down ∧
            (∀ x ∈ p.result.staticRuleResults, x.result = .SUCCESS →
              x ∈ down.staticRuleResults ∧
                ∀ y ∈ p.statsRes.staticRuleResults, y.ruleId = x.ruleId → y.result ≠ .FAILURE) ∧
            (∀ x ∈ p.result.dynamicRuleResults, x.result = .SUCCESS →
              x ∈ down.dynamicRuleResults ∧
                ∀ y ∈ p.statsRes.dynamicRuleResults, y.ruleId = x.ruleId →
                  y.result ≠ .FAILURE) :=
  ⟨fun tr => succeeding_answers tr _, _, _, rfl,
    success_results_from_downstream Env.succeeding dualStackRequest
      (fun tr => succeeding_answers tr _) rfl⟩

/-- Controllers where enforcement_stats answers every rule `other 1` (neither SUCCESS nor
    FAILURE, as PARTIAL_SUCCESS is) and every other controller answers SUCCESS. -/
def Env.undecidedStats : Env :=
  Env.answering fun app call =>
    if app = .enforcementStats then call.answerAll (.other 1) else call.answerAll .SUCCESS

/-- A GX and a GY activation of `rule1` whose stats stage answers neither SUCCESS nor FAILURE:
    each returns `rule1` SUCCESS, though the stats stage never reported it so, and the GY one
    never calls the enforcement controller. -/
theorem success_despite_undecided_stats :
    (∃ t', (activateFlows Env.undecidedStats (singleRuleRequest .GX)).run [] =
        .ok { staticRuleResults := [⟨"rule1", .SUCCESS⟩] } t' ∧
      (∃ call, Event.call .enforcementStats
        (.activateRules call { staticRuleResults := [⟨"rule1", .other 1⟩] }) ∈ t') ∧
      ∃ call, Event.call .enforcement
        (.activateRules call { staticRuleResults := [⟨"rule1", .SUCCESS⟩] }) ∈ t') ∧
    ∃ t', (activateFlows Env.undecidedStats (singleRuleRequest .GY)).run [] =
        .ok { staticRuleResults := [⟨"rule1", .SUCCESS⟩] } t' ∧
      (∃ call, Event.call .enforcementStats
        (.activateRules call { staticRuleResults := [⟨"rule1", .other 1⟩] }) ∈ t') ∧
      ∀ op, Event.call .enforcement op ∉ t' :=
  ⟨⟨_, rfl, ⟨_, .tail _ (.head _)⟩, _, .tail _ (.tail _ (.tail _ (.head _)))⟩,
    _, rfl, ⟨_, .tail _ (.head _)⟩, fun _ => by simp⟩

/-! ## The enforcement call of a GX pass -/

/-- When the stats stage reports no FAILURE, a GX run hands the IPv4 pass's whole request,
    static rule ids and dynamic rules together, to the enforcement controller in one
    `activate_rules` call. -/
theorem enforcement_call_of_clean_stats {env : Env} {request : ActivateFlowsRequest}
    (hgx : request.requestOrigin = .GX) (henf : env.isAppEnabled .enforcement)
    (hfam : env.setupType = "CWF" ∨ request.ipAddr ≠ "") (hdec : ipv6Decodes request.ipv6Addr)
    (hclean : ∀ tr call, ∀ x ∈ (statsAnswer env tr call).staticRuleResults ++
      (statsAnswer env tr call).dynamicRuleResults, x.result ≠ .FAILURE) (t : Trace) :
    ∃ res, Event.call .enforcement (.activateRules (rulesCall request
      (convertIpv4StrToIpProto request.ipAddr) request.ruleIds request.dynamicRules) res) ∈
      finalTrace ((activateFlows env request).run t) := by
  have hdown : downstreamApp request.requestOrigin = .enforcement := by simp [downstreamApp, hgx]
  obtain ⟨res, t', hok⟩ := activateFlows_ok_of_enabled (hdown ▸ henf) hdec t
  obtain ⟨passes, hfams, hpass, -, -⟩ := activateFlows_ok_passes hok
  have hv4 : convertIpv4StrToIpProto request.ipAddr ∈ passes.map (·.ipAddr) := by
    simp [hfams, families, hfam]
  obtain ⟨p, hp, hip⟩ := List.mem_map.1 hv4
  obtain ⟨hinf, ⟨⟨tr, hstats⟩, -⟩, hsome⟩ := hpass p hp
  obtain ⟨down, hd⟩ := Option.isSome_iff_exists.1 hsome
  -- The stats stage reported no FAILURE, so nothing was filtered out.
  have hnone := hclean tr (p.statsCall request)
  rw [← hstats] at hnone
  have hcall : p.downCall request =
      rulesCall request (convertIpv4StrToIpProto request.ipAddr) request.ruleIds
        request.dynamicRules := by
    have h1 : (retrieveFailedResults p.statsRes).1 = [] :=
      List.filter_eq_nil_iff.2 fun x hx => by simpa using hnone x (List.mem_append_left _ hx)
    have h2 : (retrieveFailedResults p.statsRes).2 = [] :=
      List.filter_eq_nil_iff.2 fun x hx => by simpa using hnone x (List.mem_append_right _ hx)
    simp [Pass.downCall, h1, h2, hip, filterFailedStaticRuleIds, filterFailedDynamicRules]
  refine ⟨down, ?_⟩
  rw [hok]
  refine hinf.subset ?_
  simp [Pass.events, Pass.downStage, hd, hdown, hcall]

/-- The dual-stack GX request through controllers that all succeed: the enforcement
    controller gets both static rules and the dynamic rule in one call. -/
theorem enforcement_gets_static_and_dynamic_rules :
    ∃ res, Event.call .enforcement (.activateRules (rulesCall dualStackRequest
      (convertIpv4StrToIpProto "192.168.128.11") ["rule1", "rule2"] [⟨"dyn1"⟩]) res) ∈
      finalTrace ((activateFlows Env.succeeding dualStackRequest).run []) :=
  enforcement_call_of_clean_stats rfl rfl (.inr (by decide)) (by decide)
    (fun _ _ x hx => by
      simp only [statsAnswer, Env.succeeding, Env.answering, RulesCall.answerAll] at hx
      aesop) []

/-! ## Failure metrics -/

theorem counter_eq_of_inc_mem_failureIncs {counter counter' : Counter} {ruleId imsi imsi' : String}
    {res : ActivateFlowsResult} (h : Event.inc counter ruleId imsi ∈ failureIncs counter' res imsi') :
    counter = counter' := by
  simp only [failureIncs, List.mem_filterMap] at h
  obtain ⟨x, -, hx⟩ := h
  split at hx <;> simp_all

/-- A pass of a request whose origin is not GX increments no ENFORCEMENT_RULE_INSTALL_FAIL. -/
theorem enforcementInc_not_mem_events {env : Env} {request : ActivateFlowsRequest}
    (hgx : request.requestOrigin ≠ .GX) (p : Pass) {ruleId imsi : String} :
    Event.inc .ENFORCEMENT_RULE_INSTALL_FAIL ruleId imsi ∉ p.events request env := by
  intro h
  unfold Pass.events Pass.statsStage Pass.downStage at h
  simp only [List.mem_append, versionBumps, List.mem_map] at h
  split at h <;> split at h <;> simp [downstreamIncs, hgx] at h <;>
    exact absurd (counter_eq_of_inc_mem_failureIncs h) (by decide)

/-- No run of `_activate_flows` for an origin other than GX increments
    ENFORCEMENT_RULE_INSTALL_FAIL, whatever the gy controller answers. -/
theorem no_enforcement_counter_off_gx (env : Env) (request : ActivateFlowsRequest)
    (hgx : request.requestOrigin ≠ .GX) (t : Trace) :
    ∃ seg, finalTrace ((activateFlows env request).run t) = t ++ seg ∧
      ∀ ruleId imsi, Event.inc .ENFORCEMENT_RULE_INSTALL_FAIL ruleId imsi ∉ seg := by
  obtain ⟨pieces, htrace, hstore, -⟩ := activateFlows_pieces env request t
  refine ⟨_, htrace, fun ruleId imsi h => ?_⟩
  obtain ⟨x, hx, hmem⟩ := List.mem_flatMap.1 h
  cases x with
  | inl p => exact enforcementInc_not_mem_events hgx p hmem
  | inr e =>
    rw [pieceEvents, List.mem_singleton] at hmem
    exact (hmem ▸ hstore e hx : Event.IsStoreWrite _)

theorem no_enforcement_counter_off_gx_gy :
    (singleRuleRequest .GY).requestOrigin ≠ .GX ∧
      ∃ seg, finalTrace ((activateFlows Env.succeeding (singleRuleRequest .GY)).run []) = [] ++ seg ∧
        ∀ ruleId imsi, Event.inc .ENFORCEMENT_RULE_INSTALL_FAIL ruleId imsi ∉ seg :=
  ⟨by decide, no_enforcement_counter_off_gx Env.succeeding _ (by decide) []⟩

/-- A GY request whose rule the gy controller fails: the FAILURE is returned, and no failure
    counter is incremented for it. -/
theorem gy_failure_not_counted :
    ∃ t', (activateFlows (Env.answering fun app call =>
        if app = .gy then call.answerAll .FAILURE else call.answerAll .SUCCESS)
        (singleRuleRequest .GY)).run [] = .ok { staticRuleResults := [⟨"rule1", .FAILURE⟩] } t' ∧
      ∀ counter ruleId imsi, Event.inc counter ruleId imsi ∉ t' :=
  ⟨_, rfl, fun _ _ _ => by simp⟩

end Servicer

end Pipelined
