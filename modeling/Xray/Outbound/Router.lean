import Xray.Outbound.Graph

/-!
# Routing over the graph (`xray-core-rs/src/outbound.rs`)

`select_configured_node_in_policy` routes a flow once and follows loopbacks, each of which
routes it again under an inbound tag of its own. Before it looks for a DNS outbound the
router asks a prefilter, made of the rules that lead to one, by the tag, the network and
the port of the flow.

A run sees the overlay as it is at each of its routing steps, and draws a number in each.
-/

namespace Xray.Outbound

open Ascii Routing Spans

abbrev DnsRoutePortRange := InclusiveRange 16

/-- Both lists are merged. -/
structure DnsRouteNetworkIndex where
  tcp : List DnsRoutePortRange
  udp : List DnsRoutePortRange

namespace DnsRouteNetworkIndex

def ranges (index : DnsRouteNetworkIndex) : Network → List DnsRoutePortRange
  | .tcp => index.tcp
  | .udp => index.udp

def contains (index : DnsRouteNetworkIndex) (network : Network) (port : UInt16) : Bool :=
  let ranges := index.ranges network
  let insertion := partitionPoint (fun range => decide (range.start ≤ port.toBitVec)) ranges
  decide (insertion > 0) && (ranges[insertion - 1]!).contains port.toBitVec

end DnsRouteNetworkIndex

/-- One range of the loop of `merge_dns_route_port_ranges`: it grows the last one, or
follows it. -/
def mergePortRange (merged : List DnsRoutePortRange) (range : DnsRoutePortRange) :
    List DnsRoutePortRange :=
  match merged.getLast? with
  | some previous =>
    if range.start ≤ saturatingSuccessor previous.stop then
      merged.dropLast ++ [{ previous with stop := max previous.stop range.stop }]
    else merged ++ [range]
  | none => merged ++ [range]

def mergeDnsRoutePortRanges (ranges : List DnsRoutePortRange) : List DnsRoutePortRange :=
  (ranges.mergeSort keyLe).foldl mergePortRange []

structure DnsRouteNetworkIndexBuilder where
  tcp : List DnsRoutePortRange := []
  udp : List DnsRoutePortRange := []

/-- The ports of a rule: every port, if it has no condition on them. -/
def rulePorts {E : Engines} (rule : RoutingRule E) : List DnsRoutePortRange :=
  match rule.portRanges with
  | none => [⟨0, BitVec.allOnes 16⟩]
  | some ranges => ranges.map fun range => ⟨range.start.toBitVec, range.stop.toBitVec⟩

namespace DnsRouteNetworkIndexBuilder

variable {E : Engines}

def addPorts (builder : DnsRouteNetworkIndexBuilder) (network : Network) (rule : RoutingRule E) :
    DnsRouteNetworkIndexBuilder :=
  match network with
  | .tcp => { builder with tcp := builder.tcp ++ rulePorts rule }
  | .udp => { builder with udp := builder.udp ++ rulePorts rule }

def addRule (builder : DnsRouteNetworkIndexBuilder) (rule : RoutingRule E) :
    DnsRouteNetworkIndexBuilder :=
  match rule.networks with
  | none => (builder.addPorts .tcp rule).addPorts .udp rule
  | some networks => networks.foldl (fun builder network => builder.addPorts network rule) builder

def finish (builder : DnsRouteNetworkIndexBuilder) : DnsRouteNetworkIndex :=
  ⟨mergeDnsRoutePortRanges builder.tcp, mergeDnsRoutePortRanges builder.udp⟩

end DnsRouteNetworkIndexBuilder

structure DnsRoutePrefilter where
  networkPorts : DnsRouteNetworkIndex
  wildcardInbound : Bool
  taggedInbounds : List Str

namespace DnsRoutePrefilter

variable {E : Engines}

def new (rules : List (RoutingRule E)) : DnsRoutePrefilter :=
  { networkPorts := (rules.foldl DnsRouteNetworkIndexBuilder.addRule {}).finish
    wildcardInbound := rules.any fun rule => rule.inboundTags.isEmpty
    taggedInbounds := rules.flatMap fun rule => rule.inboundTags }

def mayMatch (prefilter : DnsRoutePrefilter) (inboundTag : Option Str) (network : Network)
    (port : UInt16) : Bool :=
  prefilter.networkPorts.contains network port &&
    (prefilter.wildcardInbound || inboundTag.any fun tag => prefilter.taggedInbounds.contains tag)

end DnsRoutePrefilter

namespace OutboundGraph

variable {E : Engines} (graph : OutboundGraph E)

def isDns (node : Option OutboundNodeId) : Bool :=
  node.any fun node => graph.kind node == some .dns

/-- A rule whose target is a DNS outbound, or a balancer with one. -/
def leadsToDns (rule : RoutingRule E) : Bool :=
  match rule.target with
  | .outbound tag => graph.isDns (graph.nodeForTag tag)
  | .balancer tag => (graph.selectorGroupForTag tag).any fun group =>
    (group.members.any fun member => graph.isDns (some member)) ||
      graph.isDns (group.fallbackTag.bind graph.nodeForTag)

def dnsRoutePrefilter (routing : RoutingConfig E) : DnsRoutePrefilter :=
  .new (routing.rules.filter graph.leadsToDns)

def defaultIsDns : Bool := graph.isDns graph.defaultNode

end OutboundGraph

/-- A policy with its prefilter, which `from_factory` and `replace_routing_policy` make
from its rules. -/
structure RoutingPolicyState {E : Engines} (graph : OutboundGraph E) where
  revision : Nat
  routing : RoutingConfig E
  dnsRoutePrefilter : DnsRoutePrefilter
  built : dnsRoutePrefilter = graph.dnsRoutePrefilter routing

variable {E : Engines} (graph : OutboundGraph E)

/-- The policy of `from_factory`. -/
def initialRoutingPolicy : RoutingPolicyState graph :=
  ⟨0, graph.config.routing, graph.dnsRoutePrefilter graph.config.routing, rfl⟩

/-- What a routing step sees of the overlay, and the number it draws. -/
structure Chance where
  overlay : OutboundSelectionOverlay
  random : Nat

def nodeForTarget (chance : Chance) (target : RoutingRuleTarget) :
    Except CoreError OutboundNodeId :=
  match target with
  | .outbound tag =>
    match graph.nodeForTag tag with
    | some node => .ok node
    | none => .error .noSupportedOutbound
  | .balancer tag => chance.overlay.select graph tag chance.random

def selectDefaultConfiguredNode : Except CoreError OutboundNodeId :=
  match graph.defaultNode with
  | some node => .ok node
  | none => .error .noSupportedOutbound

variable (os : Str) (policy : RoutingPolicyState graph)

/-- Where a flow goes: the parts of the target the selectors take. -/
structure Destination where
  domain : Option Str
  ip : Option IpAddr
  network : Option Network
  port : Option UInt16

def Destination.ofTarget (target : Target) : Destination :=
  ⟨targetDomain target, targetIp target, some target.network, some target.port⟩

def routeOnceInPolicy (chance : Chance) (route : RouteContext) (destination : Destination) :
    Except CoreError OutboundNodeId :=
  match selectRoutedTarget os policy.routing route destination.domain destination.ip
      destination.network destination.port with
  | some target => nodeForTarget graph chance target
  | none => selectDefaultConfiguredNode graph

def maxLoopbackHops : Nat := 8

def RouteContext.again (route : RouteContext) (inboundTag : Str) : RouteContext :=
  { route with inboundTag := some inboundTag, protocol := none, attributes := none }

/-- `follow_loopbacks`, for the hops that are left; each hop has a chance of its own. -/
def followLoopbacks (chances : Nat → Chance) (route : RouteContext) (destination : Destination) :
    Nat → OutboundNodeId → Except CoreError OutboundNodeId
  | 0, node =>
    match graph.loopbackInboundTag node with
    | some _ => .error (.loopbackChainTooLong maxLoopbackHops)
    | none => .ok node
  | hops + 1, node =>
    match graph.loopbackInboundTag node with
    | none => .ok node
    | some inboundTag => do
      let node ← routeOnceInPolicy graph os policy (chances hops)
        (RouteContext.again route inboundTag) destination
      followLoopbacks chances route destination hops node

def selectConfiguredNodeInPolicy (chances : Nat → Chance) (route : RouteContext)
    (destination : Destination) : Except CoreError OutboundNodeId := do
  let node ← routeOnceInPolicy graph os policy (chances maxLoopbackHops) route destination
  followLoopbacks graph os policy chances route destination maxLoopbackHops node

def maySelectDnsOutboundInPolicy (inboundTag : Option Str) (target : Target) : Bool :=
  graph.defaultIsDns || graph.hasUnresolvedDefaultTag ||
    policy.dnsRoutePrefilter.mayMatch inboundTag target.network target.port

/-- `select_dns_outbound_for_route`, for a factory of handlers. -/
def selectDnsOutboundForRoute {α : Type} (cachedDnsOutbound : OutboundNodeId → Except CoreError α)
    (chances : Nat → Chance) (route : RouteContext) (target : Target) :
    Except CoreError (Option α) :=
  if !maySelectDnsOutboundInPolicy graph policy route.inboundTag target then .ok none
  else do
    let node ← selectConfiguredNodeInPolicy graph os policy chances route (.ofTarget target)
    if !graph.isDns (some node) then return none
    else return some (← cachedDnsOutbound node)

end Xray.Outbound
