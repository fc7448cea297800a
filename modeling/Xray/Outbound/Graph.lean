import Xray.Routing.Rules

/-!
# The outbound graph and its selectors (`xray-core-rs/src/outbound.rs`)

The graph is the fixed topology of a configuration: the outbounds, and after them one node
for each balancer. An overlay holds what changes: the override and the cursor of each
balancer, and the health of each outbound. `select` picks the member a balancer stands for.

A node is its index; that it belongs to this graph is not checked, since there is one. The
tables of first occurrences are functions here.
-/

namespace Xray.Outbound

open Ascii Routing

inductive OutboundNodeKind where
  | freedom
  | vless
  | trojan
  | vmess
  | shadowsocks2022
  | hysteria
  | wireguard
  | dns
  | blackhole
  | loopback
  | socks
  | http
  | selector
deriving DecidableEq

/-- The settings of an outbound, as far as routing looks at them. -/
inductive OutboundSettings where
  | freedom
  | vless
  | trojan
  | vmess
  | shadowsocks2022
  | hysteria
  | wireguard
  | dns
  | blackhole
  | loopback (inboundTag : Str)
  | socks
  | http
deriving DecidableEq

def OutboundSettings.kind : OutboundSettings → OutboundNodeKind
  | .freedom => .freedom
  | .vless => .vless
  | .trojan => .trojan
  | .vmess => .vmess
  | .shadowsocks2022 => .shadowsocks2022
  | .hysteria => .hysteria
  | .wireguard => .wireguard
  | .dns => .dns
  | .blackhole => .blackhole
  | .loopback _ => .loopback
  | .socks => .socks
  | .http => .http

structure OutboundConfig where
  tag : Option Str
  settings : OutboundSettings

structure CoreConfig (E : Engines) where
  outbounds : List OutboundConfig
  defaultOutboundTag : Option Str
  routing : RoutingConfig E

inductive CoreError where
  | noSupportedOutbound
  | outboundSelectorGroupNotFound (tag : Str)
  | loopbackChainTooLong (hops : Nat)
deriving DecidableEq

abbrev OutboundNodeId := Nat

structure OutboundSelectorGroup where
  tag : Str
  members : List OutboundNodeId
  strategy : RoutingBalancerStrategy
  leastLoadCosts : List Nat
  fallbackTag : Option Str

def costMillionthsOne : Nat := 1000000

def containsText (text part : Str) : Bool :=
  part.isEmpty || (windows part.length text).any (· == part)

def leastLoadCostMillionths (settings : RoutingLeastLoadSettings) (tag : Str) : Nat :=
  match settings.costs.find? fun cost => containsText tag cost.tagSubstring with
  | some cost => cost.valueMillionths
  | none => costMillionthsOne

/-- Byte strings in their lexicographic order. -/
def textLe (a b : Str) : Bool := !decide (b < a)

structure OutboundGraph (E : Engines) where
  config : CoreConfig E

namespace OutboundGraph

variable {E : Engines} (graph : OutboundGraph E)

def leafCount : Nat := graph.config.outbounds.length

def nodeForTag (tag : Str) : Option OutboundNodeId :=
  graph.config.outbounds.findIdx? fun outbound => outbound.tag == some tag

/-- `first_tag_node`: each tag with its first outbound. -/
def firstTagNode : List (Str × OutboundNodeId) :=
  (graph.config.outbounds.zipIdx.filterMap fun (outbound, index) =>
    outbound.tag.map fun tag => (tag, index)).filter fun (tag, index) =>
      graph.nodeForTag tag == some index

def selectedTags (balancer : RoutingBalancer) : List (Str × OutboundNodeId) :=
  (graph.firstTagNode.filter fun (tag, _) =>
    balancer.selectors.any fun selector => selector.isPrefixOf tag).mergeSort
      fun left right => textLe left.1 right.1

def selectorGroup (balancer : RoutingBalancer) : OutboundSelectorGroup :=
  { tag := balancer.tag
    members := (graph.selectedTags balancer).map Prod.snd
    strategy := balancer.strategy
    leastLoadCosts := match balancer.strategy with
      | .leastLoad settings => (graph.selectedTags balancer).map fun (tag, _) =>
        leastLoadCostMillionths settings tag
      | _ => (graph.selectedTags balancer).map fun _ => costMillionthsOne
    fallbackTag := balancer.fallbackTag }

def selectorGroups : List OutboundSelectorGroup :=
  graph.config.routing.balancers.map graph.selectorGroup

def groupIndexForTag (tag : Str) : Option Nat :=
  graph.config.routing.balancers.findIdx? fun balancer => balancer.tag == tag

def selectorGroupForTag (tag : Str) : Option OutboundSelectorGroup :=
  (graph.groupIndexForTag tag).bind fun index => graph.selectorGroups[index]?

def kind (node : OutboundNodeId) : Option OutboundNodeKind :=
  match graph.config.outbounds[node]? with
  | some outbound => some outbound.settings.kind
  | none => (graph.selectorGroups[node - graph.leafCount]?).map fun _ => .selector

def tag (node : OutboundNodeId) : Option Str :=
  match graph.config.outbounds[node]? with
  | some outbound => outbound.tag
  | none => (graph.selectorGroups[node - graph.leafCount]?).map fun group => group.tag

def defaultNode : Option OutboundNodeId :=
  match graph.config.defaultOutboundTag with
  | some tag => graph.nodeForTag tag
  | none => if graph.config.outbounds.isEmpty then none else some 0

def hasUnresolvedDefaultTag : Bool :=
  graph.config.defaultOutboundTag.isSome && graph.defaultNode.isNone

def loopbackInboundTag (node : OutboundNodeId) : Option Str :=
  match graph.config.outbounds[node]? with
  | some ⟨_, .loopback inboundTag⟩ => some inboundTag
  | _ => none

end OutboundGraph

inductive OutboundHealthState where
  | unknown
  | healthy
  | unhealthy
deriving DecidableEq

/-- The health of an outbound, with the metrics of its window decoded. -/
structure OutboundHealth where
  state : OutboundHealthState
  delayMs : Nat
  sampleCount : Nat
  failureCount : Nat
  averageMs : Nat
  deviationMs : Nat

structure OutboundSelectorGroupState where
  /-- One more than the place of the member, or zero for none. -/
  overrideMember : Nat
  roundRobinCursor : Nat

structure OutboundSelectionOverlay where
  groups : Nat → OutboundSelectorGroupState
  health : OutboundNodeId → OutboundHealth

/-- A product of `u128`s that stops at the greatest of them. -/
def saturatingMul (a b : Nat) : Nat := min (a * b) (2 ^ 128 - 1)

structure LoadCandidate where
  weightedVariance : Nat
  averageMs : Nat
  failureCount : Nat
  sampleCount : Nat
  tag : Str
  node : OutboundNodeId

/-- The order of the candidates: more samples first, all else from below. -/
def LoadCandidate.le (left right : LoadCandidate) : Bool :=
  if left.weightedVariance ≠ right.weightedVariance then
    left.weightedVariance < right.weightedVariance
  else if left.averageMs ≠ right.averageMs then left.averageMs < right.averageMs
  else if left.failureCount ≠ right.failureCount then left.failureCount < right.failureCount
  else if left.sampleCount ≠ right.sampleCount then right.sampleCount < left.sampleCount
  else textLe left.tag right.tag

namespace OutboundSelectionOverlay

variable {E : Engines} (graph : OutboundGraph E) (overlay : OutboundSelectionOverlay)

def healthState (node : OutboundNodeId) : Option OutboundHealth :=
  if node < graph.leafCount then some (overlay.health node) else none

def isEligible (node : OutboundNodeId) : Bool :=
  (overlay.healthState graph node).any fun health => health.state != .unhealthy

/-- `select_random_eligible` and `select_round_robin_eligible`: a number is drawn, or is
the cursor. -/
def selectEligible (group : OutboundSelectorGroup) (number : Nat) : Option OutboundNodeId :=
  let eligible := group.members.filter (overlay.isEligible graph)
  if eligible.length = 0 then none else eligible[number % eligible.length]?

/-- The first of the members with the least delay. -/
def selectLeastPing (group : OutboundSelectorGroup) : Option OutboundNodeId :=
  let candidates := group.members.filterMap fun node =>
    match overlay.healthState graph node with
    | some health => if health.state = .healthy then some (health.delayMs, node) else none
    | none => none
  (candidates.foldl (fun best candidate =>
    match best with
    | none => some candidate
    | some (delay, node) => if candidate.1 < delay then some candidate else some (delay, node))
    none).map Prod.snd

/-- A member of a group as a candidate, if it is healthy, near and reliable enough. -/
def loadCandidate (group : OutboundSelectorGroup) (settings : RoutingLeastLoadSettings)
    (index : Nat) (node : OutboundNodeId) : Option LoadCandidate := do
  let health ← overlay.healthState graph node
  if health.state ≠ .healthy then none
  else if settings.maxRtt.any fun maximum => health.delayMs ≥ min maximum (2 ^ 64 - 1) then none
  else if health.sampleCount = 0 then none
  else if settings.toleranceMillionths > 0 ∧
      health.failureCount * 1000000 > health.sampleCount * settings.toleranceMillionths then none
  else
    let tag ← graph.tag node
    let cost := group.leastLoadCosts.getD index costMillionthsOne
    return {
      weightedVariance := saturatingMul (saturatingMul health.deviationMs health.deviationMs) cost
      averageMs := health.averageMs
      failureCount := health.failureCount
      sampleCount := health.sampleCount
      tag
      node }

/-- The loop over the baselines: how many candidates are below one, once they are enough. -/
def countBelow (candidates : List LoadCandidate) (expected : Nat) : Nat → List Nat → Nat
  | count, [] => count
  | count, baseline :: baselines =>
    let threshold := saturatingMul (saturatingMul baseline baseline) costMillionthsOne
    let count := count +
      ((candidates.drop count).takeWhile fun c => c.weightedVariance < threshold).length
    if count ≥ expected then count else countBelow candidates expected count baselines

/-- How many of the sorted candidates a flow may go to. -/
def selectedCount (settings : RoutingLeastLoadSettings) (candidates : List LoadCandidate) : Nat :=
  let expected := min (max settings.expected.toNat 1) candidates.length
  if settings.baselines.isEmpty then expected
  else
    let count := countBelow candidates expected 0 settings.baselines
    if settings.expected > 0 then max count expected else count

def loadCandidates (group : OutboundSelectorGroup) (settings : RoutingLeastLoadSettings) :
    List LoadCandidate :=
  (group.members.zipIdx.filterMap fun (node, index) =>
    overlay.loadCandidate graph group settings index node).mergeSort LoadCandidate.le

def selectLeastLoad (group : OutboundSelectorGroup) (settings : RoutingLeastLoadSettings)
    (random : Nat) : Option OutboundNodeId :=
  let candidates := overlay.loadCandidates graph group settings
  if selectedCount settings candidates = 0 then none
  else (candidates[random % selectedCount settings candidates]?).map LoadCandidate.node

/-- `select`, for a number that is drawn. The cursor it moves is the state's. -/
def select (groupTag : Str) (random : Nat) : Except CoreError OutboundNodeId :=
  match graph.groupIndexForTag groupTag, graph.selectorGroupForTag groupTag with
  | some index, some group =>
    let state := overlay.groups index
    if state.overrideMember > 0 then
      match group.members[state.overrideMember - 1]? with
      | some node => .ok node
      | none => .error .noSupportedOutbound
    else
      let selected := match group.strategy with
        | .random => overlay.selectEligible graph group random
        | .roundRobin => overlay.selectEligible graph group state.roundRobinCursor
        | .leastPing => overlay.selectLeastPing graph group
        | .leastLoad settings => overlay.selectLeastLoad graph group settings random
      match selected.or (group.fallbackTag.bind graph.nodeForTag) with
      | some node => .ok node
      | none => .error .noSupportedOutbound
  | _, _ => .error (.outboundSelectorGroupNotFound groupTag)

end OutboundSelectionOverlay

end Xray.Outbound
