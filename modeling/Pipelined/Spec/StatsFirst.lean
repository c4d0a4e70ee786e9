import Pipelined.Spec.Filtering

/-!
# The stats stage comes first

In every run of `_activate_flows`, each rule handed to the downstream controller (the
enforcement controller for GX, gy otherwise) was handed before to the enforcement_stats
controller, at the same subscriber and address, and that call did not report it FAILURE.
Dual-stack runs included: the IPv6 downstream call is cleared by the IPv6 stats call, not
by the IPv4 one that precedes it.
-/

namespace Pipelined

namespace Servicer

open Work

/-- The stats call `statsCall`, answered `statsRes`, cleared the downstream call `call`: it
    was at the same subscriber and address, was given each of `call`'s rules and reported
    none of them FAILURE. -/
def StatsCleared (call statsCall : RulesCall) (statsRes : ActivateFlowsResult) : Prop :=
  statsCall.imsi = call.imsi ∧ statsCall.ipAddr = call.ipAddr ∧
    (∀ r ∈ call.staticRuleIds, r ∈ statsCall.staticRuleIds ∧
      ∀ x ∈ statsRes.staticRuleResults, x.ruleId = r → x.result ≠ .FAILURE) ∧
    (∀ d ∈ call.dynamicRules, d ∈ statsCall.dynamicRules ∧
      ∀ x ∈ statsRes.dynamicRuleResults, x.ruleId = d.id → x.result ≠ .FAILURE)

/-- Every `activate_rules` call of `seg` on a controller other than enforcement_stats comes
    after an enforcement_stats call of `seg` that cleared it. -/
def StatsFirst (seg : List Event) : Prop :=
  ∀ app call res, app ≠ .enforcementStats → Event.call app (.activateRules call res) ∈ seg →
    ∃ statsCall statsRes,
      List.Sublist [Event.call .enforcementStats (.activateRules statsCall statsRes),
        Event.call app (.activateRules call res)] seg ∧ StatsCleared call statsCall statsRes

theorem StatsFirst.append {a b : List Event} (ha : StatsFirst a) (hb : StatsFirst b) :
    StatsFirst (a ++ b) := by
  intro app call res hne hmem
  rcases List.mem_append.1 hmem with h | h
  · obtain ⟨sc, sr, hsub, hc⟩ := ha app call res hne h
    exact ⟨sc, sr, hsub.trans (List.sublist_append_left a b), hc⟩
  · obtain ⟨sc, sr, hsub, hc⟩ := hb app call res hne h
    exact ⟨sc, sr, hsub.trans (List.sublist_append_right a b), hc⟩

theorem StatsFirst.flatMap {α : Type} {l : List α} {f : α → List Event}
    (h : ∀ x ∈ l, StatsFirst (f x)) : StatsFirst (l.flatMap f) := by
  induction l with
  | nil => intro _ _ _ _ hmem; simp at hmem
  | cons x l ih =>
    rw [List.flatMap_cons]
    exact (h x (List.mem_cons_self x l)).append (ih fun y hy => h y (List.mem_cons_of_mem x hy))

/-- With the stats stage enabled, a pass clears its own downstream call. -/
theorem statsFirst_events {env : Env} (hstats : env.isAppEnabled .enforcementStats)
    (request : ActivateFlowsRequest) (p : Pass) : StatsFirst (p.events request env) := by
  intro app call res hne hmem
  rcases activateRules_mem_events hmem with ⟨rfl, -⟩ | ⟨rfl, rfl, hdown⟩
  · exact absurd rfl hne
  · refine ⟨p.statsCall request, p.statsRes, stats_sublist_events hstats hdown, rfl, rfl,
      fun r hr => ?_, fun d hd => ?_⟩
    · exact mem_downCall_staticRuleIds.1 hr
    · exact mem_downCall_dynamicRules.1 hd

theorem statsFirst_storeWrite {e : Event} (he : e.IsStoreWrite) : StatsFirst [e] := by
  rintro app call res - hmem
  rw [List.mem_singleton] at hmem
  subst hmem
  exact he.elim

/-- In every run of `_activate_flows` with the EnforcementStats app enabled, each
    downstream `activate_rules` call comes after an enforcement_stats call of the same
    request, at the same subscriber and address, that was given each of its rules and
    reported none of them FAILURE. -/
theorem downstream_rules_cleared_by_stats (env : Env)
    (hstats : env.isAppEnabled .enforcementStats) (request : ActivateFlowsRequest) (t : Trace) :
    ∃ seg, finalTrace ((activateFlows env request).run t) = t ++ seg ∧ StatsFirst seg := by
  obtain ⟨pieces, htrace, hstore, -⟩ := activateFlows_pieces env request t
  refine ⟨_, htrace, StatsFirst.flatMap fun x hx => ?_⟩
  cases x with
  | inl p => exact statsFirst_events hstats request p
  | inr e => exact statsFirst_storeWrite (hstore e hx)

theorem downstream_rules_cleared_by_stats_dualStack :
    Env.succeeding.isAppEnabled .enforcementStats ∧
      ∃ seg, finalTrace ((activateFlows Env.succeeding dualStackRequest).run []) = [] ++ seg ∧
        StatsFirst seg :=
  ⟨rfl, downstream_rules_cleared_by_stats Env.succeeding rfl dualStackRequest []⟩

end Servicer

end Pipelined
