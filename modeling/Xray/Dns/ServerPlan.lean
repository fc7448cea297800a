import Mathlib.Data.List.Basic

/-!
# Asking the servers of a plan (`xray-transport/src/dns.rs`)

The serial plan asks one server after the other, the parallel one all of them at once. What the
lookup of a server comes to is fixed; the order in which the lookups complete is not.
-/

namespace Xray.Dns

inductive DnsQueryStrategy where
  | useIp
  | useIpv4
  | useIpv6
deriving DecidableEq

structure RouteFamilies where
  ipv4 : Bool
  ipv6 : Bool

namespace DnsQueryStrategy

def forRouteFamilies (families : RouteFamilies) : Option DnsQueryStrategy :=
  match families.ipv4, families.ipv6 with
  | true, true => some .useIp
  | true, false => some .useIpv4
  | false, true => some .useIpv6
  | false, false => none

def intersect : DnsQueryStrategy → DnsQueryStrategy → Option DnsQueryStrategy
  | .useIp, strategy => some strategy
  | strategy, .useIp => some strategy
  | .useIpv4, .useIpv4 => some .useIpv4
  | .useIpv6, .useIpv6 => some .useIpv6
  | .useIpv4, .useIpv6 => none
  | .useIpv6, .useIpv4 => none

end DnsQueryStrategy

inductive ConfiguredDnsNegative where
  | nameError
  | noData
  | rcode (code : UInt8)
deriving DecidableEq

/-- What the lookup of a server came to, for any type of addresses. -/
inductive ServerLookup (α : Type) where
  | answer (addresses : α)
  | negative (negative : ConfiguredDnsNegative)
  | failed
deriving DecidableEq

inductive ConfiguredServersResult (α : Type) where
  | answer (addresses : α)
  | negative (negative : ConfiguredDnsNegative)
  | unavailable
deriving DecidableEq

/-- A server, with what `query_server_lookup` comes to when it is asked. -/
structure CompiledNameServerPolicy (α : Type) where
  policyId : UInt32
  queryStrategy : DnsQueryStrategy
  checkSystemRoutes : Bool
  lookup : ServerLookup α

structure ConfiguredDnsResolver (α : Type) where
  nameServers : List (CompiledNameServerPolicy α)
  /-- What the route probe reports, if there is one. -/
  routeProbe : Option RouteFamilies

namespace ConfiguredDnsResolver

variable {α : Type}

/-- How both plans end when no server has answered. -/
def withoutAnswer (sawCompatibleServer sawIncompatibleServer : Bool)
    (lastNegative : Option ConfiguredDnsNegative) : ConfiguredServersResult α :=
  if !sawCompatibleServer && sawIncompatibleServer then
    .negative .noData
  else
    match lastNegative with
    | none => .unavailable
    | some negative => .negative negative

def negative? : ServerLookup α → Option ConfiguredDnsNegative
  | .negative negative => some negative
  | _ => none

def answer? : ServerLookup α → Option α
  | .answer addresses => some addresses
  | _ => none

def idAt (plan : List (CompiledNameServerPolicy α)) (position : Nat) : Option UInt32 :=
  plan[position]?.map (·.policyId)

/-- The end of the group that starts there: the first position with another policy id. -/
def groupEnd (plan : List (CompiledNameServerPolicy α)) (groupStart : Nat) : Nat :=
  ((List.range' (groupStart + 1) (plan.length - (groupStart + 1))).find? fun position =>
    idAt plan position != idAt plan groupStart).getD plan.length

lemma lt_groupEnd {plan : List (CompiledNameServerPolicy α)} {groupStart : Nat}
    (h : groupStart < plan.length) : groupStart < groupEnd plan groupStart := by
  rw [groupEnd]
  cases hfind : List.find? _ (List.range' (groupStart + 1) (plan.length - (groupStart + 1))) with
  | none => exact h
  | some position =>
    have := (List.mem_range'_1.mp (List.mem_of_find?_eq_some hfind)).1
    exact this

/-- The loop over the groups. The lookups complete in the order of `completing`. -/
def settleGroups (plan : List (CompiledNameServerPolicy α)) (sawCompatible sawIncompatible : Bool)
    (groupStart : Nat) (outcomes : List (Option (ServerLookup α))) (completing : List Nat) :
    ConfiguredServersResult α :=
  if h : groupStart < plan.length then
    match (List.range' groupStart (groupEnd plan groupStart - groupStart)).findSome?
        fun position => outcomes[position]?.join.bind answer? with
    | some addresses => .answer addresses
    | none =>
      if ((outcomes.drop groupStart).take (groupEnd plan groupStart - groupStart)).all
          Option.isSome then
        settleGroups plan sawCompatible sawIncompatible (groupEnd plan groupStart) outcomes
          completing
      else
        match completing with
        | [] => passedOn outcomes
        | position :: completing =>
          settleGroups plan sawCompatible sawIncompatible groupStart
            (outcomes.set position (plan[position]?.map (·.lookup))) completing
  else
    passedOn outcomes
termination_by plan.length - groupStart + completing.length
decreasing_by
  · have := lt_groupEnd h
    omega
  · rw [List.length_cons]
    omega
where
  /-- The last negative answer in plan order. -/
  passedOn (outcomes : List (Option (ServerLookup α))) : ConfiguredServersResult α :=
    withoutAnswer sawCompatible sawIncompatible
      (outcomes.reverse.findSome? fun outcome => outcome.bind negative?)

variable (resolver : ConfiguredDnsResolver α)

def systemRouteStrategy : Option DnsQueryStrategy :=
  DnsQueryStrategy.forRouteFamilies (resolver.routeProbe.getD ⟨true, true⟩)

/-- The strategy that the server is queried with; none leaves it out. -/
def serverQueryStrategy (server : CompiledNameServerPolicy α) (requested : DnsQueryStrategy) :
    Option DnsQueryStrategy := do
  let strategy ← requested.intersect server.queryStrategy
  if !server.checkSystemRoutes then
    return strategy
  strategy.intersect (← resolver.systemRouteStrategy)

/-- The loop of `query_configured_servers`, with its three variables. -/
def queryEach (strategy : DnsQueryStrategy) :
    Option ConfiguredDnsNegative → Bool → Bool → List Nat → ConfiguredServersResult α
  | lastNegative, sawCompatible, sawIncompatible, [] =>
    withoutAnswer sawCompatible sawIncompatible lastNegative
  | lastNegative, sawCompatible, sawIncompatible, index :: selected =>
    match resolver.nameServers[index]? with
    | none => queryEach strategy lastNegative sawCompatible sawIncompatible selected
    | some server =>
      if (resolver.serverQueryStrategy server strategy).isNone then
        queryEach strategy lastNegative sawCompatible true selected
      else
        match server.lookup with
        | .answer addresses => .answer addresses
        | .negative negative => queryEach strategy (some negative) true sawIncompatible selected
        | .failed => queryEach strategy lastNegative true sawIncompatible selected

def queryConfiguredServers (selectedServers : List Nat) (strategy : DnsQueryStrategy) :
    ConfiguredServersResult α :=
  resolver.queryEach strategy none false false selectedServers

def plan (selectedServers : List Nat) : List (CompiledNameServerPolicy α) :=
  selectedServers.filterMap fun index => resolver.nameServers[index]?

def lookups (selectedServers : List Nat) (strategy : DnsQueryStrategy) : List Nat :=
  (List.range (resolver.plan selectedServers).length).filter fun position =>
    (resolver.plan selectedServers)[position]?.any fun server =>
      (resolver.serverQueryStrategy server strategy).isSome

/-- All servers are asked at once, and their lookups complete in the order of `completing`. -/
def queryConfiguredServersParallel (selectedServers : List Nat) (strategy : DnsQueryStrategy)
    (completing : List Nat) : ConfiguredServersResult α :=
  let plan := resolver.plan selectedServers
  settleGroups plan
    (plan.any fun server => (resolver.serverQueryStrategy server strategy).isSome)
    (plan.any fun server => (resolver.serverQueryStrategy server strategy).isNone) 0
    -- A server that cannot answer this lookup fails in its group.
    (plan.map fun server =>
      if (resolver.serverQueryStrategy server strategy).isNone then some .failed else none)
    completing

end ConfiguredDnsResolver

end Xray.Dns
