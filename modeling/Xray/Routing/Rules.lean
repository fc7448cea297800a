import Xray.Routing.DomainMatcher
import Xray.Routing.Target

/-!
# Routing rules (`xray-config/src/model.rs`, `outbound/routing.rs`)

A rule has conditions on a flow and its target, and names an outbound or a balancer. The
rules are tried in order, as the domain strategy says: with the target as it is, with the
addresses of its name once no rule has matched, or with the addresses as soon as a rule
asks for one.

A resolver is its outcomes, call by call: `none` is a failed lookup. Each selection says
how often it called.
-/

namespace Xray.Routing

open Ascii

structure SocketAddr where
  ip : IpAddr
  port : UInt16
deriving DecidableEq

/-- Its two constructors refuse a reversed range. -/
structure RoutingPortRange where
  start : UInt16
  stop : UInt16
  ordered : start ≤ stop
deriving DecidableEq

def RoutingPortRange.contains (range : RoutingPortRange) (port : UInt16) : Bool :=
  range.start ≤ port && port ≤ range.stop

/-- `RegexMatcher::is_match`: anywhere in the text, as it is written. -/
def RegexMatcher.isMatch (E : Engines) (matcher : RegexMatcher) (text : Str) : Bool :=
  E.regexIsMatch matcher.pattern text

structure RoutingUsers where
  names : List Str
  patterns : List RegexMatcher

def RoutingUsers.matches (E : Engines) (users : RoutingUsers) (user : Option Str) : Bool :=
  match user.filter (!·.isEmpty) with
  | none => false
  | some user => users.names.any (· == user) || users.patterns.any (·.isMatch E user)

structure ContentAttributes where
  entries : List (Str × Str)

def ContentAttributes.get (attributes : ContentAttributes) (name : Str) : Option Str :=
  (attributes.entries.find? fun entry => entry.1 == name).map Prod.snd

structure RoutingAttributes where
  patterns : List (Str × RegexMatcher)

def RoutingAttributes.matches (E : Engines) (patterns : RoutingAttributes)
    (attributes : Option ContentAttributes) : Bool :=
  attributes.any fun attributes =>
    patterns.patterns.all fun (name, pattern) => (attributes.get name).any (pattern.isMatch E)

structure RouteContext where
  inboundTag : Option Str
  source : Option SocketAddr
  localAddr : Option SocketAddr
  user : Option Str
  protocol : Option Str
  attributes : Option ContentAttributes

structure RoutingOrigin where
  sourceIps : Option IpMatcherSet := none
  sourcePorts : Option (List RoutingPortRange) := none
  localIps : Option IpMatcherSet := none
  localPorts : Option (List RoutingPortRange) := none
  users : Option RoutingUsers := none

def isNoneOr {α : Type} (p : α → Bool) : Option α → Bool
  | none => true
  | some a => p a

/-- An unknown port reads as 0. -/
def portsContain (ranges : Option (List RoutingPortRange)) (address : Option SocketAddr) : Bool :=
  let port := (address.map SocketAddr.port).getD 0
  isNoneOr (fun ranges => ranges.any (·.contains port)) ranges

def ipsContain (matchers : Option IpMatcherSet) (address : Option SocketAddr) : Bool :=
  isNoneOr (fun matchers => address.any fun address => matchers.matches address.ip) matchers

namespace RoutingOrigin

def matchesPortsAndUser (E : Engines) (origin : RoutingOrigin) (route : RouteContext) : Bool :=
  portsContain origin.sourcePorts route.source && portsContain origin.localPorts route.localAddr &&
    isNoneOr (fun users => users.matches E route.user) origin.users

def matchesIps (origin : RoutingOrigin) (route : RouteContext) : Bool :=
  ipsContain origin.sourceIps route.source && ipsContain origin.localIps route.localAddr

end RoutingOrigin

inductive RoutingRuleTarget where
  | outbound (tag : Str)
  | balancer (tag : Str)
deriving DecidableEq

structure RoutingRule (E : Engines) where
  inboundTags : List Str := []
  networks : Option (List Network) := none
  portRanges : Option (List RoutingPortRange) := none
  domainMatchers : Option (DomainMatcherSet E) := none
  ipMatchers : Option IpMatcherSet := none
  localOs : List Str := []
  origin : RoutingOrigin := {}
  protocols : Option (List Str) := none
  attributes : Option RoutingAttributes := none
  target : RoutingRuleTarget

namespace RoutingRule

variable {E : Engines}

def matchesLocalOs (rule : RoutingRule E) (os : Str) : Bool :=
  rule.localOs.isEmpty || rule.localOs.any (eqIgnoreCase · os)

def matchesInbound (rule : RoutingRule E) (inboundTag : Option Str) : Bool :=
  if rule.inboundTags.isEmpty then true
  else
    match inboundTag.filter (!·.isEmpty) with
    | none => false
    | some inboundTag => rule.inboundTags.any (· == inboundTag)

def matchesNetwork (rule : RoutingRule E) (network : Option Network) : Bool :=
  isNoneOr (fun networks => network.any fun target => networks.contains target) rule.networks

def matchesProtocol (rule : RoutingRule E) (protocol : Option Str) : Bool :=
  isNoneOr (fun protocols => (protocol.filter (!·.isEmpty)).any fun protocol =>
    protocols.any (·.isPrefixOf protocol)) rule.protocols

def matchesAttributes (rule : RoutingRule E) (attributes : Option ContentAttributes) : Bool :=
  isNoneOr (fun patterns => patterns.matches E attributes) rule.attributes

def matchesPort (rule : RoutingRule E) (port : Option UInt16) : Bool :=
  isNoneOr (fun ranges => port.any fun target => ranges.any (·.contains target)) rule.portRanges

def matchesDomain (rule : RoutingRule E) (domain : Option Str) : Bool :=
  isNoneOr (fun matchers => domain.any matchers.matches) rule.domainMatchers

def matchesIp (rule : RoutingRule E) (ip : Option IpAddr) : Bool :=
  isNoneOr (fun (matchers : IpMatcherSet) => ip.any matchers.matches) rule.ipMatchers

/-- `matches_route`, on a platform. -/
def matchesRoute (os : Str) (rule : RoutingRule E) (route : RouteContext) (domain : Option Str)
    (ip : Option IpAddr) (network : Option Network) (port : Option UInt16) : Bool :=
  rule.matchesLocalOs os && rule.matchesInbound route.inboundTag && rule.matchesNetwork network &&
    rule.matchesProtocol route.protocol && rule.matchesPort port &&
    rule.origin.matchesPortsAndUser E route && rule.matchesAttributes route.attributes &&
    rule.matchesIp ip && rule.origin.matchesIps route && rule.matchesDomain domain

end RoutingRule

inductive RoutingDomainStrategy where
  | asIs
  | ipIfNonMatch
  | ipOnDemand
deriving DecidableEq

structure RoutingLeastLoadCost where
  tagSubstring : Str
  valueMillionths : Nat
deriving DecidableEq

/-- Durations are in milliseconds. -/
structure RoutingLeastLoadSettings where
  expected : UInt8 := 0
  maxRtt : Option Nat := none
  toleranceMillionths : Nat := 0
  baselines : List Nat := []
  costs : List RoutingLeastLoadCost := []
deriving DecidableEq

inductive RoutingBalancerStrategy where
  | random
  | roundRobin
  | leastPing
  | leastLoad (settings : RoutingLeastLoadSettings)
deriving DecidableEq

structure RoutingBalancer where
  tag : Str
  selectors : List Str
  strategy : RoutingBalancerStrategy
  fallbackTag : Option Str
deriving DecidableEq

structure RoutingConfig (E : Engines) where
  rules : List (RoutingRule E)
  balancers : List RoutingBalancer := []
  domainStrategy : RoutingDomainStrategy

inductive RoutingError where
  | dnsAddressLimitExceeded (limit : Nat)
deriving DecidableEq

def maxIpOnDemandAddresses : Nat := 256

/-- What the calls of a resolver return, the first and then the next. -/
abbrev Resolver := Nat → Option (List SocketAddr)

def targetDomain (target : Target) : Option Str :=
  match target.addr with
  | .domain domain => some domain
  | .ip _ => none

def targetIp (target : Target) : Option IpAddr :=
  match target.addr with
  | .ip ip => some ip
  | .domain _ => none

/-- What a selection returns, and how often it called the resolver. -/
structure Selected where
  result : Except RoutingError (Option RoutingRuleTarget)
  calls : Nat
deriving DecidableEq

variable {E : Engines} (os : Str)

def selectRoutedTarget (routing : RoutingConfig E) (route : RouteContext) (domain : Option Str)
    (ip : Option IpAddr) (network : Option Network) (port : Option UInt16) :
    Option RoutingRuleTarget :=
  (routing.rules.find? fun rule => rule.matchesRoute os route domain ip network port).map
    RoutingRule.target

def selectRoutedTargetWithResolvedIps (routing : RoutingConfig E) (route : RouteContext)
    (domain : Option Str) (addrs : List SocketAddr) (network : Option Network)
    (port : Option UInt16) : Option RoutingRuleTarget :=
  (routing.rules.find? fun rule => addrs.any fun addr =>
    rule.matchesRoute os route domain (some addr.ip) network port).map RoutingRule.target

/-- The conditions `select_on_demand` checks before the address of the target. -/
def RoutingRule.beforeIp (rule : RoutingRule E) (route : RouteContext) (target : Target) : Bool :=
  rule.matchesLocalOs os && rule.matchesInbound route.inboundTag &&
    rule.matchesNetwork (some target.network) && rule.matchesProtocol route.protocol &&
    rule.matchesPort (some target.port) && rule.origin.matchesPortsAndUser E route &&
    rule.matchesAttributes route.attributes

/-- The loop of `select_on_demand`. `resolution` is its memory: not looked up yet, or what
came of it. -/
def selectOnDemandLoop (route : RouteContext) (domain : Str) (target : Target)
    (resolver : Resolver) :
    List (RoutingRule E) → Option (Option (List SocketAddr)) → Nat → Selected
  | [], _, calls => ⟨.ok none, calls⟩
  | rule :: rules, resolution, calls =>
    if !rule.beforeIp os route target then
      selectOnDemandLoop route domain target resolver rules resolution calls
    else if rule.ipMatchers.isSome then
      let (resolved, calls) := match resolution with
        | none => (resolver calls, calls + 1)
        | some resolved => (resolved, calls)
      if resolution.isNone && resolved.any fun addrs => addrs.length > maxIpOnDemandAddresses then
        ⟨.error (.dnsAddressLimitExceeded maxIpOnDemandAddresses), calls⟩
      else if !resolved.any fun addrs => addrs.any fun addr => rule.matchesIp (some addr.ip) then
        selectOnDemandLoop route domain target resolver rules (some resolved) calls
      else if rule.origin.matchesIps route && rule.matchesDomain (some domain) then
        ⟨.ok (some rule.target), calls⟩
      else selectOnDemandLoop route domain target resolver rules (some resolved) calls
    else if rule.origin.matchesIps route && rule.matchesDomain (some domain) then
      ⟨.ok (some rule.target), calls⟩
    else selectOnDemandLoop route domain target resolver rules resolution calls

def selectOnDemand (routing : RoutingConfig E) (route : RouteContext) (domain : Str)
    (target : Target) (resolver : Resolver) : Selected :=
  selectOnDemandLoop os route domain target resolver routing.rules none 0

/-- `select_routed_target_with_resolver` after the on-demand strategy: the target as it is,
and then with the addresses of its name. -/
def selectThenResolve (routing : RoutingConfig E) (route : RouteContext) (target : Target)
    (resolver : Resolver) : Selected :=
  match selectRoutedTarget os routing route (targetDomain target) (targetIp target)
      (some target.network) (some target.port) with
  | some selected => ⟨.ok (some selected), 0⟩
  | none =>
    if routing.domainStrategy = .ipIfNonMatch then
      match targetDomain target with
      | none => ⟨.ok none, 0⟩
      | some domain =>
        match resolver 0 with
        | none => ⟨.ok none, 1⟩
        | some addrs =>
          ⟨.ok (selectRoutedTargetWithResolvedIps os routing route (some domain) addrs
            (some target.network) (some target.port)), 1⟩
    else ⟨.ok none, 0⟩

def selectRoutedTargetWithResolver (routing : RoutingConfig E) (route : RouteContext)
    (target : Target) (resolver : Resolver) : Selected :=
  match routing.domainStrategy, targetDomain target with
  | .ipOnDemand, some domain => selectOnDemand os routing route domain target resolver
  | _, _ => selectThenResolve os routing route target resolver

end Xray.Routing
