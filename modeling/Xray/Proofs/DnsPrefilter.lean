import Xray.Outbound.Router
import Xray.Lib.Fallible
import Xray.Proofs.DomainMatcher
import Xray.Proofs.IpRangeSet

/-!
# What the DNS prefilter lets through

A run that ends at a DNS outbound was last routed by a rule that leads to one, or by the
default. The prefilter is made of those rules, so their networks and ports are in it. Their
inbound tags are in it too, but a loopback routes under its own tag, and the prefilter is
asked with the tag the flow came in with.
-/

namespace Xray.Outbound

open Ascii Routing Spans
open List DnsRouteNetworkIndex DnsRouteNetworkIndexBuilder DnsRoutePrefilter OutboundGraph RoutingRule

/-! ## The index of ports -/

/-- The loop over the sorted ranges is the sweep of the library. -/
lemma foldl_mergePortRange (done : List DnsRoutePortRange) (rest : List DnsRoutePortRange) :
    ∀ cur, rest.foldl mergePortRange (done ++ [cur]) = done ++ coalesce cur rest := by
  induction rest generalizing done with
  | nil => intro cur; rfl
  | cons range rest ih =>
    intro cur
    have hsucc : saturatingSuccessor cur.stop = Order.succ cur.stop := rfl
    rw [foldl_cons, mergePortRange, getLast?_concat, dropLast_concat, coalesce]
    simp only [hsucc]
    by_cases htouch : range.start ≤ Order.succ cur.stop
    · rw [if_pos htouch, if_pos htouch]
      exact ih done _
    · rw [if_neg htouch, if_neg htouch, ih (done ++ [cur]), append_assoc]
      rfl

lemma mergeDnsRoutePortRanges_eq (ranges : List DnsRoutePortRange) :
    mergeDnsRoutePortRanges ranges = normalize (ranges.mergeSort keyLe) := by
  rw [mergeDnsRoutePortRanges]
  cases ranges.mergeSort keyLe with
  | nil => rfl
  | cons range rest => exact foldl_mergePortRange [] rest range

lemma separated_mergeDnsRoutePortRanges {ranges : List DnsRoutePortRange}
    (h : ∀ r ∈ ranges, r.start ≤ r.stop) : Separated (mergeDnsRoutePortRanges ranges) := by
  rw [mergeDnsRoutePortRanges_eq]
  exact separated_normalize (swept_mergeSort h)

lemma cover_mergeDnsRoutePortRanges {ranges : List DnsRoutePortRange}
    (h : ∀ r ∈ ranges, r.start ≤ r.stop) : cover (mergeDnsRoutePortRanges ranges) = cover ranges := by
  rw [mergeDnsRoutePortRanges_eq, cover_normalize (swept_mergeSort h)]
  exact cover_perm (mergeSort_perm ranges keyLe)

namespace DnsRouteNetworkIndexBuilder

variable {E : Engines}

def ranges (builder : DnsRouteNetworkIndexBuilder) : Network → List DnsRoutePortRange
  | .tcp => builder.tcp
  | .udp => builder.udp

variable {builder : DnsRouteNetworkIndexBuilder} {rule : RoutingRule E} {r : DnsRoutePortRange}

lemma mem_ranges_addPorts {network : Network} {n : Network} :
    r ∈ (builder.addPorts network rule).ranges n ↔
      r ∈ builder.ranges n ∨ network = n ∧ r ∈ rulePorts rule := by
  cases network <;> cases n <;> simp [addPorts, ranges]

lemma mem_ranges_addRule {n : Network} : r ∈ (builder.addRule rule).ranges n ↔
      r ∈ builder.ranges n ∨ rule.matchesNetwork (some n) ∧ r ∈ rulePorts rule := by
  rw [addRule, matchesNetwork]
  cases rule.networks with
  | none =>
    simp only [mem_ranges_addPorts, isNoneOr]
    cases n <;> simp
  | some networks =>
    simp only [isNoneOr, Option.any_some, contains_iff_mem]
    induction networks generalizing builder with
    | nil => simp
    | cons network networks ih =>
      rw [foldl_cons, ih, mem_ranges_addPorts, mem_cons]
      constructor
      · rintro ((h | ⟨rfl, hr⟩) | ⟨hn, hr⟩)
        · exact .inl h
        · exact .inr ⟨.inl rfl, hr⟩
        · exact .inr ⟨.inr hn, hr⟩
      · rintro (h | ⟨rfl | hn, hr⟩)
        · exact .inl (.inl h)
        · exact .inl (.inr ⟨rfl, hr⟩)
        · exact .inr ⟨hn, hr⟩

lemma mem_ranges_foldl (rules : List (RoutingRule E)) (n : Network) (r : DnsRoutePortRange) :
    ∀ builder : DnsRouteNetworkIndexBuilder, r ∈ (rules.foldl addRule builder).ranges n ↔
        r ∈ builder.ranges n ∨
          ∃ rule ∈ rules, rule.matchesNetwork (some n) ∧ r ∈ rulePorts rule := by
  induction rules with
  | nil => intro builder; simp
  | cons rule rules ih =>
    intro builder
    rw [foldl_cons, ih, mem_ranges_addRule, or_assoc]
    simp

end DnsRouteNetworkIndexBuilder

variable {E : Engines} {rule : RoutingRule E}

lemma rulePorts_proper {r : DnsRoutePortRange} (h : r ∈ rulePorts rule) : r.start ≤ r.stop := by
  rw [rulePorts] at h
  split at h
  · rw [mem_singleton.mp h]
    exact BitVec.le_def.mpr (Nat.zero_le _)
  · obtain ⟨range, -, rfl⟩ := mem_map.mp h
    exact range.ordered

variable {port : UInt16}

lemma mem_cover_rulePorts (h : rule.matchesPort (some port)) :
    port.toBitVec ∈ cover (rulePorts rule) := by
  rw [matchesPort] at h
  rw [rulePorts]
  cases hranges : rule.portRanges with
  | none =>
    refine mem_cover.mpr ⟨_, mem_singleton_self _, Span.contains_iff.mpr ⟨?_, ?_⟩⟩
    · exact BitVec.le_def.mpr (Nat.zero_le _)
    have hlt := port.toBitVec.isLt
    rw [BitVec.le_def, BitVec.toNat_allOnes]
    omega
  | some ranges =>
    simp only [hranges, isNoneOr, Option.any_some, any_eq_true] at h
    obtain ⟨range, hmem, hcontains⟩ := h
    simp only [RoutingPortRange.contains, Bool.and_eq_true, decide_eq_true_eq] at hcontains
    exact mem_cover.mpr ⟨_, mem_map_of_mem hmem, Span.contains_iff.mpr hcontains⟩

lemma finish_ranges (builder : DnsRouteNetworkIndexBuilder) (network : Network) :
    builder.finish.ranges network = mergeDnsRoutePortRanges (builder.ranges network) := by
  cases network <;> rfl

lemma DnsRouteNetworkIndex.contains_of_mem_cover {index : DnsRouteNetworkIndex}
    {network : Network} (hseparated : Separated (index.ranges network))
    (hcover : port.toBitVec ∈ cover (index.ranges network)) :
    index.contains network port := by
  obtain ⟨r, hlast, hstop⟩ := hseparated.mem_cover_iff.mp hcover
  obtain ⟨hpos, hget⟩ := getElem_partitionPoint hlast
  have hstart : r.start ≤ port.toBitVec := by
    simpa using mem_takeWhile_imp (mem_of_getLast? hlast)
  rw [contains, Bool.and_eq_true, decide_eq_true_eq, hget, Span.contains_iff]
  exact ⟨hpos, hstart, hstop⟩

lemma DnsRoutePrefilter.contains_of_mem {rules : List (RoutingRule E)} {network : Network}
    (hmem : rule ∈ rules) (hnetwork : rule.matchesNetwork (some network))
    (hport : rule.matchesPort (some port)) : (new rules).networkPorts.contains network port := by
  have hranges := mem_ranges_foldl rules network
  have hproper : ∀ r ∈ (rules.foldl addRule {}).ranges network, r.start ≤ r.stop := by
    intro r hr
    rcases (hranges r {}).mp hr with hr | ⟨_, -, -, hr⟩
    · cases network <;> cases hr
    · exact rulePorts_proper hr
  apply contains_of_mem_cover
  · show Separated (ranges (finish _) network)
    rw [finish_ranges]
    exact separated_mergeDnsRoutePortRanges hproper
  · show _ ∈ cover (ranges (finish _) network)
    rw [finish_ranges, cover_mergeDnsRoutePortRanges hproper]
    obtain ⟨r, hr, hcontains⟩ := mem_cover.mp (mem_cover_rulePorts hport)
    exact mem_cover.mpr ⟨r, (hranges r {}).mpr (.inr ⟨rule, hmem, hnetwork, hr⟩), hcontains⟩

section

variable {E : Engines} {graph : OutboundGraph E}

lemma foldl_min_mem {α : Type} (f : Option α → α → Option α)
    (hf : ∀ best a, f best a = some a ∨ f best a = best) (l : List α) :
    ∀ {best : Option α} {a : α}, l.foldl f best = some a → best = some a ∨ a ∈ l := by
  induction l with
  | nil => intro best a h; exact .inl h
  | cons x l ih =>
    intro best a h
    rcases ih h with hx | hl
    · rcases hf best x with hfx | hfx
      · rw [hfx] at hx
        cases hx
        exact .inr (by simp)
      · rw [hfx] at hx
        exact .inl hx
    · exact .inr (by simp [hl])

namespace OutboundSelectionOverlay

variable {overlay : OutboundSelectionOverlay} {group : OutboundSelectorGroup}
  {node : OutboundNodeId}

lemma mem_of_selectEligible {number : Nat}
    (h : overlay.selectEligible graph group number = some node) : node ∈ group.members := by
  rw [selectEligible] at h
  split at h
  · cases h
  · exact mem_of_mem_filter (mem_of_getElem? h)

lemma mem_of_selectLeastPing (h : overlay.selectLeastPing graph group = some node) :
    node ∈ group.members := by
  obtain ⟨⟨delay, node'⟩, hfold, rfl⟩ := Option.map_eq_some_iff.mp h
  have hmem := foldl_min_mem _ (by
    intro best a
    cases best with
    | none => exact .inl rfl
    | some best =>
      simp only
      split
      · exact .inl rfl
      · exact .inr rfl) _ hfold
  rcases hmem with hnone | hmem
  · cases hnone
  obtain ⟨member, hmember, hcandidate⟩ := mem_filterMap.mp hmem
  split at hcandidate
  · split at hcandidate <;> cases hcandidate
    exact hmember
  · cases hcandidate

variable {settings : RoutingLeastLoadSettings}

lemma loadCandidate_node {index : Nat} {candidate : LoadCandidate}
    (h : overlay.loadCandidate graph group settings index node = some candidate) :
    candidate.node = node := by
  obtain ⟨health, -, h⟩ := Option.bind_eq_some_iff.mp h
  split at h
  · cases h
  split at h
  · cases h
  split at h
  · cases h
  split at h
  · cases h
  obtain ⟨tag, -, h⟩ := Option.bind_eq_some_iff.mp h
  cases h
  rfl

lemma mem_of_selectLeastLoad {random : Nat}
    (h : overlay.selectLeastLoad graph group settings random = some node) :
    node ∈ group.members := by
  rw [selectLeastLoad] at h
  split at h
  · cases h
  obtain ⟨candidate, hget, rfl⟩ := Option.map_eq_some_iff.mp h
  have hmem : candidate ∈ overlay.loadCandidates graph group settings := mem_of_getElem? hget
  obtain ⟨⟨member, index⟩, hmember, hcandidate⟩ := mem_filterMap.mp (mem_mergeSort.mp hmem)
  rw [loadCandidate_node hcandidate]
  exact fst_mem_of_mem_zipIdx hmember

/-- What a balancer selects is one of its members or its fallback. -/
lemma select_eq_ok {tag : Str} {random : Nat} (h : overlay.select graph tag random = .ok node) :
    ∃ group, graph.selectorGroupForTag tag = some group ∧
      (node ∈ group.members ∨ group.fallbackTag.bind graph.nodeForTag = some node) := by
  revert h
  fun_cases select graph overlay tag random with
  | case1 _ group hgroup _ _ _ _ hmember =>
    rintro ⟨⟩
    exact ⟨group, hgroup, .inl (mem_of_getElem? hmember)⟩
  | case3 _ group hgroup _ _ _ selected _ hselected =>
    rintro ⟨⟩
    refine ⟨group, hgroup, ?_⟩
    rcases Option.or_eq_some_iff.mp hselected with hstrategy | ⟨-, hfallback⟩
    · left
      dsimp only [selected] at hstrategy
      split at hstrategy
      · exact mem_of_selectEligible hstrategy
      · exact mem_of_selectEligible hstrategy
      · exact mem_of_selectLeastPing hstrategy
      · exact mem_of_selectLeastLoad hstrategy
    · exact .inr hfallback
  | _ => rintro ⟨⟩

end OutboundSelectionOverlay

variable {os : Str} {policy : RoutingPolicyState graph} {route : RouteContext}
  {destination : Destination} {node : OutboundNodeId}

lemma leadsToDns_of_nodeForTarget {chance : Chance} {rule : RoutingRule E}
    (h : nodeForTarget graph chance rule.target = .ok node) (hdns : graph.isDns (some node)) :
    graph.leadsToDns rule := by
  rw [nodeForTarget.eq_def] at h
  rw [leadsToDns]
  cases htarget : rule.target with
  | outbound tag =>
    simp only [htarget] at h
    split at h
    · next found hfound =>
      cases h
      show graph.isDns (graph.nodeForTag tag) = true
      rw [hfound]
      exact hdns
    · cases h
  | balancer tag =>
    simp only [htarget] at h
    show ((graph.selectorGroupForTag tag).any fun group =>
      (group.members.any fun member => graph.isDns (some member)) ||
        graph.isDns (group.fallbackTag.bind graph.nodeForTag)) = true
    obtain ⟨group, hgroup, hmember | hfallback⟩ := OutboundSelectionOverlay.select_eq_ok h
    · rw [hgroup, Option.any_some, Bool.or_eq_true, any_eq_true]
      exact .inl ⟨node, hmember, hdns⟩
    · rw [hgroup, Option.any_some, Bool.or_eq_true, hfallback]
      exact .inr hdns

/-- A routing step that ends at a DNS outbound was taken by a rule that leads to one, or by
the default. -/
lemma rule_of_routeOnceInPolicy {chance : Chance}
    (h : routeOnceInPolicy graph os policy chance route destination = .ok node)
    (hdns : graph.isDns (some node)) :
    graph.defaultIsDns ∨
    ∃ rule ∈ policy.routing.rules, graph.leadsToDns rule ∧
      rule.matchesRoute os route destination.domain destination.ip destination.network
        destination.port := by
  rw [routeOnceInPolicy, selectRoutedTarget] at h
  cases hfind : policy.routing.rules.find? fun rule => rule.matchesRoute os route
      destination.domain destination.ip destination.network destination.port with
  | some rule =>
    have hmatches := find?_some hfind
    simp only [hfind] at h
    exact .inr ⟨rule, mem_of_find?_eq_some hfind, leadsToDns_of_nodeForTarget h hdns, hmatches⟩
  | none =>
    simp only [hfind, Option.map_none, selectDefaultConfiguredNode] at h
    split at h
    · next found hfound =>
      cases h
      rw [defaultIsDns, hfound]
      exact .inl hdns
    · cases h

variable {chances : Nat → Chance}

/-- Loopbacks end at a node that is none: where they started, or where a routing step under a
loopback's tag went. -/
lemma routeOnce_of_followLoopbacks {hops : Nat} {start : OutboundNodeId}
    (h : followLoopbacks graph os policy chances route destination hops start = .ok node) :
    graph.loopbackInboundTag node = none ∧ (node = start ∨ ∃ chance tag,
      routeOnceInPolicy graph os policy chance (RouteContext.again route tag) destination =
        .ok node) := by
  fun_induction followLoopbacks graph os policy chances route destination hops start with
  | case1 => cases h
  | case2 start hnone | case3 hops start hnone =>
    cases h
    exact ⟨hnone, .inl rfl⟩
  | case4 hops start tag htag ih =>
    obtain ⟨next, hnext, h⟩ := Fallible.bind_eq_ok.mp h
    obtain ⟨hnone, rfl | hlater⟩ := ih next h
    · exact ⟨hnone, .inr ⟨_, tag, hnext⟩⟩
    · exact ⟨hnone, .inr hlater⟩

lemma routeOnce_of_selectConfiguredNodeInPolicy
    (h : selectConfiguredNodeInPolicy graph os policy chances route destination = .ok node) :
    graph.loopbackInboundTag node = none ∧ ∃ chance route',
      routeOnceInPolicy graph os policy chance route' destination = .ok node := by
  obtain ⟨start, hstart, h⟩ := Fallible.bind_eq_ok.mp h
  obtain ⟨hnone, rfl | ⟨chance, tag, hlater⟩⟩ := routeOnce_of_followLoopbacks h
  · exact ⟨hnone, _, route, hstart⟩
  · exact ⟨hnone, chance, _, hlater⟩

/-- The rule of the last step of a run, under the tag it came in with or a loopback's. -/
lemma rule_of_selectConfiguredNodeInPolicy
    (h : selectConfiguredNodeInPolicy graph os policy chances route destination = .ok node)
    (hdns : graph.isDns (some node)) :
    graph.defaultIsDns ∨
    ∃ rule ∈ policy.routing.rules, graph.leadsToDns rule ∧ rule.matchesNetwork destination.network ∧
      rule.matchesPort destination.port := by
  obtain ⟨-, chance, route', hstep⟩ := routeOnce_of_selectConfiguredNodeInPolicy h
  rcases rule_of_routeOnceInPolicy hstep hdns with hdefault | ⟨rule, hmem, hleads, hmatches⟩
  · exact .inl hdefault
  · simp only [matchesRoute, Bool.and_eq_true] at hmatches
    exact .inr ⟨rule, hmem, hleads, hmatches.1.1.1.1.1.1.1.2, hmatches.1.1.1.1.1.2⟩

lemma lt_of_nodeForTag {tag : Str} (h : graph.nodeForTag tag = some node) :
    node < graph.leafCount := (findIdx?_eq_some_iff_getElem.mp h).1

lemma lt_of_mem_members {tag : Str} {group : OutboundSelectorGroup}
    (h : graph.selectorGroupForTag tag = some group) (hmem : node ∈ group.members) :
    node < graph.leafCount := by
  obtain ⟨index, -, h⟩ := Option.bind_eq_some_iff.mp h
  obtain ⟨balancer, -, rfl⟩ := mem_map.mp (mem_of_getElem? h)
  obtain ⟨⟨tag, node⟩, hselected, rfl⟩ := mem_map.mp hmem
  have hfirst := (mem_filter.mp (mem_mergeSort.mp hselected)).1
  exact lt_of_nodeForTag (beq_iff_eq.mp (mem_filter.mp hfirst).2)

lemma lt_of_routeOnceInPolicy {chance : Chance}
    (h : routeOnceInPolicy graph os policy chance route destination = .ok node) :
    node < graph.leafCount := by
  rw [routeOnceInPolicy] at h
  split at h
  · next target _ =>
    cases target with
    | outbound tag =>
      rw [nodeForTarget] at h
      split at h <;> cases h
      next hfound => exact lt_of_nodeForTag hfound
    | balancer tag =>
      obtain ⟨group, hgroup, hmember | hfallback⟩ := OutboundSelectionOverlay.select_eq_ok h
      · exact lt_of_mem_members hgroup hmember
      · obtain ⟨tag, -, hnode⟩ := Option.bind_eq_some_iff.mp hfallback
        exact lt_of_nodeForTag hnode
  · rw [selectDefaultConfiguredNode] at h
    split at h <;> cases h
    next hfound =>
    rw [defaultNode] at hfound
    split at hfound
    · exact lt_of_nodeForTag hfound
    split at hfound <;> cases hfound
    next hsome => exact length_pos_iff.mpr (by simpa using hsome)

/-- Some rule that leads to a DNS outbound is for every inbound, or for this one. -/
def AdmitsInbound (policy : RoutingPolicyState graph) (inboundTag : Option Str) : Prop :=
  ∃ rule ∈ policy.routing.rules, graph.leadsToDns rule = true ∧
    (rule.inboundTags = [] ∨ ∃ tag ∈ rule.inboundTags, inboundTag = some tag)

lemma inbound_iff {inboundTag : Option Str} : (policy.dnsRoutePrefilter.wildcardInbound ||
      inboundTag.any fun tag => policy.dnsRoutePrefilter.taggedInbounds.contains tag) = true ↔
    AdmitsInbound policy inboundTag := by
  rw [policy.built, dnsRoutePrefilter, new]
  simp only [Bool.or_eq_true, any_eq_true, mem_filter, Option.any_eq_true,
    List.contains_iff_mem, List.mem_flatMap, List.isEmpty_iff]
  constructor
  · rintro (⟨rule, ⟨hmem, hleads⟩, hempty⟩ | ⟨tag, htag, rule, ⟨hmem, hleads⟩, hin⟩)
    · exact ⟨rule, hmem, hleads, .inl hempty⟩
    · exact ⟨rule, hmem, hleads, .inr ⟨tag, hin, htag⟩⟩
  · rintro ⟨rule, hmem, hleads, hempty | ⟨tag, hin, htag⟩⟩
    · exact .inl ⟨rule, ⟨hmem, hleads⟩, hempty⟩
    · exact .inr ⟨tag, htag, rule, ⟨hmem, hleads⟩, hin⟩

end

/-- **When the prefilter lets a flow to a DNS outbound through**: for a run that ends at
one, if and only if the default is one or names no outbound, or some rule that leads to one
admits the tag the flow came in with. The outbound is then found. -/
theorem dns_prefilter_lets_through_iff {E : Engines} (os : Str) (graph : OutboundGraph E)
    (policy : RoutingPolicyState graph) (chances : Nat → Chance) (route : RouteContext)
    (target : Target) (node : OutboundNodeId)
    (hrun : selectConfiguredNodeInPolicy graph os policy chances route (.ofTarget target) =
      .ok node)
    (hdns : graph.kind node = some .dns) :
    (maySelectDnsOutboundInPolicy graph policy route.inboundTag target = true ∧
      ∀ (α : Type) (cachedDnsOutbound : OutboundNodeId → Except CoreError α),
        selectDnsOutboundForRoute graph os policy cachedDnsOutbound chances route target =
          (cachedDnsOutbound node).map some) ↔
    graph.defaultIsDns = true ∨ graph.hasUnresolvedDefaultTag = true ∨
      AdmitsInbound policy route.inboundTag := by
  have hisDns : graph.isDns (some node) = true := by
    rw [isDns, Option.any_some, hdns]
    rfl
  constructor
  · rintro ⟨hmay, -⟩
    rw [maySelectDnsOutboundInPolicy, Bool.or_eq_true, Bool.or_eq_true, mayMatch,
      Bool.and_eq_true, inbound_iff] at hmay
    rcases hmay with (hdefault | hunresolved) | ⟨-, hinbound⟩
    · exact .inl hdefault
    · exact .inr (.inl hunresolved)
    · exact .inr (.inr hinbound)
  intro hcondition
  have hmay : maySelectDnsOutboundInPolicy graph policy route.inboundTag target = true := by
    rw [maySelectDnsOutboundInPolicy, Bool.or_eq_true, Bool.or_eq_true,
      mayMatch, Bool.and_eq_true, inbound_iff]
    rcases hcondition with hdefault | hunresolved | hinbound
    · exact .inl (.inl hdefault)
    · exact .inl (.inr hunresolved)
    rcases rule_of_selectConfiguredNodeInPolicy hrun hisDns with
      hdefault | ⟨rule, hmem, hleads, hnetwork, hport⟩
    · exact .inl (.inl hdefault)
    refine .inr ⟨?_, hinbound⟩
    rw [policy.built]
    exact contains_of_mem (mem_filter.mpr ⟨hmem, hleads⟩) hnetwork hport
  refine ⟨hmay, fun α cachedDnsOutbound => ?_⟩
  rw [selectDnsOutboundForRoute, hmay, hrun]
  simp only [Fallible.bind_ok, hisDns]
  cases cachedDnsOutbound node <;> rfl

/-- A UDP flow to port 53 that came in by the inbound `in`. -/
def sampleDnsRoute : RouteContext := ⟨some [105, 110], none, none, none, none, none⟩

def sampleDnsTarget : Target := ⟨.ip (.v4 0x08080808), 53, .udp⟩

/-- The outbounds `direct`, `loop` and `dns`: what comes in by `in` goes to the loopback,
and what the loopback sends back as `again` to the DNS outbound. -/
def sampleLoopGraph : OutboundGraph literalEngines :=
  ⟨{ outbounds := [⟨some [100, 105, 114], .freedom⟩, ⟨some [108], .loopback [97]⟩,
       ⟨some [100, 110, 115], .dns⟩]
     defaultOutboundTag := none
     routing :=
       { rules := [{ inboundTags := [[105, 110]], target := .outbound [108] },
           { inboundTags := [[97]], target := .outbound [100, 110, 115] }]
         domainStrategy := .asIs } }⟩

def sampleChances (_ : Nat) : Chance :=
  ⟨⟨fun _ => ⟨0, 0⟩, fun _ => ⟨.unknown, 0, 0, 0, 0, 0⟩⟩, 0⟩

/-- A flow that came in as `again` is led to the DNS outbound by a rule. -/
theorem dns_prefilter_lets_rule_through :
    maySelectDnsOutboundInPolicy sampleLoopGraph (initialRoutingPolicy sampleLoopGraph)
      (some [97]) sampleDnsTarget = true :=
  ((dns_prefilter_lets_through_iff [] sampleLoopGraph (initialRoutingPolicy sampleLoopGraph)
    sampleChances { sampleDnsRoute with inboundTag := some [97] } sampleDnsTarget 2 rfl rfl).mpr
    (.inr (.inr ⟨_, .tail _ (.head _), rfl, .inr ⟨[97], .head _, rfl⟩⟩))).1

/-- The run of a flow through the loopback ends at the DNS outbound, and the prefilter,
which knows only the tag the flow came in with, answers that it cannot. -/
theorem dns_prefilter_misses_loopback :
    selectConfiguredNodeInPolicy sampleLoopGraph [] (initialRoutingPolicy sampleLoopGraph)
      sampleChances sampleDnsRoute (.ofTarget sampleDnsTarget) = .ok 2 ∧
    sampleLoopGraph.kind 2 = some .dns ∧
    maySelectDnsOutboundInPolicy sampleLoopGraph (initialRoutingPolicy sampleLoopGraph)
      sampleDnsRoute.inboundTag sampleDnsTarget = false ∧
    selectDnsOutboundForRoute sampleLoopGraph [] (initialRoutingPolicy sampleLoopGraph)
      (fun node => .ok node) sampleChances sampleDnsRoute sampleDnsTarget = .ok none := by
  have hmay : maySelectDnsOutboundInPolicy sampleLoopGraph (initialRoutingPolicy sampleLoopGraph)
      sampleDnsRoute.inboundTag sampleDnsTarget = false := by
    decide +kernel
  refine ⟨rfl, rfl, hmay, ?_⟩
  rw [selectDnsOutboundForRoute, hmay]
  rfl

/-- A flow is only ever given to an outbound of the configuration that is not a loopback, whatever
the policy, the overlay and the numbers drawn on the way. -/
theorem selected_node_is_configured {E : Engines} (os : Str) (graph : OutboundGraph E)
    (policy : RoutingPolicyState graph) (chances : Nat → Chance) (route : RouteContext)
    (destination : Destination) (node : OutboundNodeId)
    (hrun : selectConfiguredNodeInPolicy graph os policy chances route destination = .ok node) :
    ∃ outbound, graph.config.outbounds[node]? = some outbound ∧
      ∀ inboundTag, outbound.settings ≠ .loopback inboundTag := by
  obtain ⟨hnone, chance, route', hstep⟩ := routeOnce_of_selectConfiguredNodeInPolicy hrun
  obtain ⟨⟨tag, settings⟩, hget⟩ : ∃ outbound, graph.config.outbounds[node]? = some outbound :=
    ⟨_, getElem?_eq_getElem (lt_of_routeOnceInPolicy hstep)⟩
  refine ⟨_, hget, ?_⟩
  rintro inboundTag rfl
  rw [loopbackInboundTag, hget] at hnone
  cases hnone

theorem selected_node_is_configured_dns : ∃ outbound,
    sampleLoopGraph.config.outbounds[2]? = some outbound ∧
      ∀ inboundTag, outbound.settings ≠ .loopback inboundTag :=
  selected_node_is_configured [] sampleLoopGraph (initialRoutingPolicy sampleLoopGraph)
    sampleChances sampleDnsRoute (.ofTarget sampleDnsTarget) 2 rfl

end Xray.Outbound
