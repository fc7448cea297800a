import Xray.Routing.Rules

/-!
# The first matching rule

Every strategy is a `find?` over the rules. For the two that do not look at addresses
early this is how the source is written. `select_on_demand` interleaves the search with
the lookup, and `selectOnDemandLoop_fresh` takes the two apart: the search as if the
addresses had been there from the start, and whether the lookup was reached.
-/

namespace Xray.Routing

open Ascii RoutingRule

section

variable {E : Engines} {os : Str} {route : RouteContext} {domain : Str} {target : Target}
  {resolver : Resolver}

/-- A rule's condition on the address of the target is absent, or holds for one of the
addresses. -/
def RoutingRule.ipHolds (rule : RoutingRule E) (resolved : Option (List SocketAddr)) : Bool :=
  rule.ipMatchers.isNone ||
    resolved.any fun addrs => addrs.any fun addr => rule.matchesIp (some addr.ip)

/-- All conditions of a rule, the one on the address among them. -/
def RoutingRule.holds (os : Str) (route : RouteContext) (domain : Str) (target : Target)
    (resolved : Option (List SocketAddr)) (rule : RoutingRule E) : Bool :=
  rule.beforeIp os route target &&
    (rule.ipHolds resolved && (rule.origin.matchesIps route && rule.matchesDomain (some domain)))

def RoutingRule.asks (os : Str) (route : RouteContext) (target : Target) (rule : RoutingRule E) :
    Bool :=
  rule.beforeIp os route target && rule.ipMatchers.isSome

/-- Some rule asks, and none before it holds. -/
def Asked (os : Str) (route : RouteContext) (domain : Str) (target : Target)
    (resolved : Option (List SocketAddr)) (rules : List (RoutingRule E)) : Prop :=
  ∃ before rule after, rules = before ++ rule :: after ∧ rule.asks os route target = true ∧
    ∀ earlier ∈ before, earlier.holds os route domain target resolved = false

variable {rule : RoutingRule E}

lemma asked_cons {resolved : Option (List SocketAddr)} {rules : List (RoutingRule E)} :
    Asked os route domain target resolved (rule :: rules) ↔ rule.asks os route target ∨
        rule.holds os route domain target resolved = false ∧
          Asked os route domain target resolved rules := by
  constructor
  · rintro ⟨before, asking, after, hrules, hasks, hbefore⟩
    cases before with
    | nil =>
      cases hrules
      exact .inl hasks
    | cons first before =>
      cases hrules
      exact .inr ⟨hbefore _ (by simp), before, asking, after, rfl, hasks,
        fun r hr => hbefore r (by simp [hr])⟩
  · rintro (hasks | ⟨hholds, before, asking, after, rfl, hasks, hbefore⟩)
    · exact ⟨[], rule, rules, rfl, hasks, by simp⟩
    refine ⟨rule :: before, asking, after, rfl, hasks, fun r hr => ?_⟩
    rcases List.mem_cons.mp hr with rfl | hr
    · exact hholds
    · exact hbefore r hr

lemma selectOnDemandLoop_cons_resolved (resolved : Option (List SocketAddr)) (calls : Nat)
    (rule : RoutingRule E) (rules : List (RoutingRule E)) :
    selectOnDemandLoop os route domain target resolver (rule :: rules) (some resolved) calls =
      if rule.holds os route domain target resolved then ⟨.ok (some rule.target), calls⟩
      else selectOnDemandLoop os route domain target resolver rules (some resolved) calls := by
  rw [selectOnDemandLoop, holds, ipHolds]
  generalize (rule.origin.matchesIps route && rule.matchesDomain (some domain)) = after
  generalize (resolved.any fun addrs => addrs.any fun addr => rule.matchesIp (some addr.ip)) = any
  cases rule.beforeIp os route target <;> cases rule.ipMatchers <;> cases any <;> cases after <;> rfl

lemma selectOnDemandLoop_cons_fresh (hasks : rule.asks os route target = false)
    (resolved : Option (List SocketAddr)) (calls : Nat) (rules : List (RoutingRule E)) :
    selectOnDemandLoop os route domain target resolver (rule :: rules) none calls =
      if rule.holds os route domain target resolved then ⟨.ok (some rule.target), calls⟩
      else selectOnDemandLoop os route domain target resolver rules none calls := by
  rw [selectOnDemandLoop, holds, ipHolds]
  rw [asks] at hasks
  generalize (rule.origin.matchesIps route && rule.matchesDomain (some domain)) = after
  cases hbefore : rule.beforeIp os route target with
  | false => rfl
  | true =>
    cases hip : rule.ipMatchers with
    | none => cases after <;> rfl
    | some set => rw [hbefore, hip] at hasks; cases hasks

def TooMany (resolved : Option (List SocketAddr)) : Bool :=
  resolved.any fun addrs => addrs.length > maxIpOnDemandAddresses

lemma selectOnDemandLoop_cons_asks (hasks : rule.asks os route target) (calls : Nat)
    (rules : List (RoutingRule E)) :
    selectOnDemandLoop os route domain target resolver (rule :: rules) none calls =
      if TooMany (resolver calls) then
        ⟨.error (.dnsAddressLimitExceeded maxIpOnDemandAddresses), calls + 1⟩
      else selectOnDemandLoop os route domain target resolver (rule :: rules)
        (some (resolver calls)) (calls + 1) := by
  rw [asks, Bool.and_eq_true] at hasks
  rw [selectOnDemandLoop, selectOnDemandLoop, hasks.1, hasks.2]
  rfl

lemma selectOnDemandLoop_resolved (resolved : Option (List SocketAddr)) (calls : Nat)
    (rules : List (RoutingRule E)) :
    selectOnDemandLoop os route domain target resolver rules (some resolved) calls =
      ⟨.ok ((rules.find? (holds os route domain target resolved)).map
        RoutingRule.target), calls⟩ := by
  induction rules with
  | nil => rfl
  | cons rule rules ih =>
    rw [selectOnDemandLoop_cons_resolved, List.find?_cons]
    cases hholds : rule.holds os route domain target resolved with
    | false => exact ih
    | true => rfl

/-- The whole loop: a search with the addresses of the first call, which was made if and
only if a rule asked for it in time. -/
lemma selectOnDemandLoop_fresh (rules : List (RoutingRule E)) :
    (Asked os route domain target (resolver 0) rules →
      selectOnDemandLoop os route domain target resolver rules none 0 =
        if TooMany (resolver 0) then ⟨.error (.dnsAddressLimitExceeded maxIpOnDemandAddresses), 1⟩
        else ⟨.ok ((rules.find? (holds os route domain target (resolver 0))).map
          RoutingRule.target), 1⟩) ∧
    (¬Asked os route domain target (resolver 0) rules →
      selectOnDemandLoop os route domain target resolver rules none 0 =
        ⟨.ok ((rules.find? (holds os route domain target (resolver 0))).map
          RoutingRule.target), 0⟩) := by
  induction rules with
  | nil =>
    refine ⟨fun h => ?_, fun _ => rfl⟩
    obtain ⟨before, rule, after, hrules, -⟩ := h
    simp at hrules
  | cons rule rules ih =>
    rw [asked_cons]
    cases hasks : rule.asks os route target with
    | true =>
      refine ⟨fun _ => ?_, fun h => absurd (.inl rfl) h⟩
      rw [selectOnDemandLoop_cons_asks hasks, selectOnDemandLoop_resolved]
    | false =>
      rw [selectOnDemandLoop_cons_fresh hasks (resolver 0), List.find?_cons]
      cases hholds : rule.holds os route domain target (resolver 0) with
      | true =>
        refine ⟨fun h => ?_, fun _ => rfl⟩
        rcases h with h | h
        · simp at h
        · exact absurd h.1 (by simp)
      | false =>
        refine ⟨fun h => ?_, fun h => ?_⟩
        · rcases h with h | h
          · simp at h
          · exact ih.1 h.2
        · exact ih.2 fun h' => h (.inr ⟨rfl, h'⟩)

section

variable (routing : RoutingConfig E)

include routing

lemma selectThenResolve_calls_le :
    (selectThenResolve os routing route target resolver).calls ≤ 1 := by
  rw [selectThenResolve]
  split
  · exact Nat.zero_le 1
  split
  · split
    · exact Nat.zero_le 1
    · split <;> exact Nat.le_refl 1
  · exact Nat.zero_le 1

lemma selectOnDemand_calls_le :
    (selectOnDemand os routing route domain target resolver).calls ≤ 1 := by
  rw [selectOnDemand]
  by_cases hasked : Asked os route domain target (resolver 0) routing.rules
  · rw [(selectOnDemandLoop_fresh routing.rules).1 hasked]
    split <;> exact Nat.le_refl 1
  · rw [(selectOnDemandLoop_fresh routing.rules).2 hasked]
    exact Nat.zero_le 1

lemma selectOnDemand_spec : ((selectOnDemand os routing route domain target resolver).result =
      if (selectOnDemand os routing route domain target resolver).calls = 1 ∧
          TooMany (resolver 0) then
        .error (.dnsAddressLimitExceeded maxIpOnDemandAddresses)
      else .ok ((routing.rules.find? (holds os route domain target (resolver 0))).map
        RoutingRule.target)) ∧
    ((selectOnDemand os routing route domain target resolver).calls = 1 ↔
      Asked os route domain target (resolver 0) routing.rules) := by
  rw [selectOnDemand]
  by_cases hasked : Asked os route domain target (resolver 0) routing.rules
  · rw [(selectOnDemandLoop_fresh routing.rules).1 hasked]
    cases TooMany (resolver 0) with
    | true | false => exact ⟨rfl, fun _ => hasked, fun _ => rfl⟩
  · rw [(selectOnDemandLoop_fresh routing.rules).2 hasked]
    exact ⟨by simp, by simp [hasked]⟩

end

end

/-- **The first matching rule is selected, under every strategy**, with at most one lookup. -/
theorem routing_selects_first_match {E : Engines} (os : Str) (routing : RoutingConfig E)
    (route : RouteContext) (target : Target) (resolver : Resolver) :
    let selected := selectRoutedTargetWithResolver os routing route target resolver
    let first := fun p => (routing.rules.find? p).map RoutingRule.target
    let matching := fun domain ip (rule : RoutingRule E) =>
      rule.matchesRoute os route domain ip (some target.network) (some target.port)
    selected.calls ≤ 1 ∧
    (routing.domainStrategy = .asIs →
      selected.result = .ok (first (matching (targetDomain target) (targetIp target)))) ∧
    (routing.domainStrategy = .ipIfNonMatch → ∀ domain, target.addr = .domain domain →
      selected.result = .ok ((first (matching (some domain) none)).or
        ((resolver 0).bind fun addrs => first fun rule =>
          addrs.any fun addr => matching (some domain) (some addr.ip) rule))) ∧
    (routing.domainStrategy = .ipOnDemand → ∀ domain, target.addr = .domain domain →
      (selected.result =
        if selected.calls = 1 ∧ TooMany (resolver 0) then
          .error (.dnsAddressLimitExceeded maxIpOnDemandAddresses)
        else .ok (first (holds os route domain target (resolver 0)))) ∧
      (selected.calls = 1 ↔ Asked os route domain target (resolver 0) routing.rules)) := by
  intro selected first matching
  refine ⟨?_, fun hstrategy => ?_, fun hstrategy domain haddr => ?_, fun hstrategy domain haddr => ?_⟩
  · simp only [selected, selectRoutedTargetWithResolver]
    split
    · exact selectOnDemand_calls_le routing
    · exact selectThenResolve_calls_le routing
  · simp only [selected, selectRoutedTargetWithResolver, hstrategy, selectThenResolve]
    cases hfirst : selectRoutedTarget os routing route (targetDomain target) (targetIp target)
        (some target.network) (some target.port) with
    | some found | none => exact congrArg Except.ok hfirst.symm
  · have hdomain : targetDomain target = some domain := by rw [targetDomain, haddr]
    have hip : targetIp target = none := by rw [targetIp, haddr]
    simp only [selected, selectRoutedTargetWithResolver, hstrategy, selectThenResolve, hdomain, hip]
    cases hfirst : selectRoutedTarget os routing route (some domain) none (some target.network)
        (some target.port) with
    | some found =>
      have hfirst : first (matching (some domain) none) = some found := hfirst
      rw [hfirst]
      rfl
    | none =>
      have hfirst : first (matching (some domain) none) = none := hfirst
      rw [hfirst]
      cases resolver 0 with
      | none => rfl
      | some addrs => rfl
  · have hdomain : targetDomain target = some domain := by rw [targetDomain, haddr]
    have hselected : selected = selectOnDemand os routing route domain target resolver := by
      simp only [selected, selectRoutedTargetWithResolver, hstrategy, hdomain]
    rw [hselected]
    exact selectOnDemand_spec routing

end Xray.Routing
