import Xray.Dns.ServerPlan

/-!
# The parallel plan against the serial one

The groups are the longest runs of adjacent servers with one policy id. A group is left only when
all its lookups have completed without an answer, so whatever the order of completion, an answer
comes from the first run that has one, and without an answer every outcome is known at the end.
-/

namespace Xray.Dns.ConfiguredDnsResolver

open List

variable {α : Type} {resolver : ConfiguredDnsResolver α} {strategy : DnsQueryStrategy}
  {out : CompiledNameServerPolicy α → ServerLookup α}
  {plan : List (CompiledNameServerPolicy α)} {start : Nat} {completing : List Nat}
  {outcomes : List (Option (ServerLookup α))}

/-- What the server comes to in a plan: one that cannot answer the lookup fails. -/
def outcome (resolver : ConfiguredDnsResolver α) (strategy : DnsQueryStrategy)
    (server : CompiledNameServerPolicy α) : ServerLookup α :=
  if (resolver.serverQueryStrategy server strategy).isNone then .failed else server.lookup

def Silent (out : CompiledNameServerPolicy α → ServerLookup α)
    (server : CompiledNameServerPolicy α) : Prop :=
  ∀ addresses, out server ≠ .answer addresses

lemma answer?_eq_some {lookup : ServerLookup α} {addresses : α} :
    answer? lookup = some addresses ↔ lookup = .answer addresses := by
  cases lookup <;> simp [answer?]

/-! ## Runs of one policy id -/

/-- A longest run of adjacent servers with one policy id: the positions from `start` up to, and
without, `stop`. -/
structure Run (plan : List (CompiledNameServerPolicy α)) (start stop : Nat) : Prop where
  nonempty : start < stop
  within : stop ≤ plan.length
  first : start = 0 ∨ idAt plan (start - 1) ≠ idAt plan start
  same : ∀ position, start ≤ position → position < stop →
    idAt plan position = idAt plan start
  last : idAt plan stop ≠ idAt plan start

lemma run_groupEnd (hstart : start < plan.length)
    (hfirst : start = 0 ∨ idAt plan (start - 1) ≠ idAt plan start) :
    Run plan start (groupEnd plan start) := by
  have hlt := lt_groupEnd hstart
  rw [groupEnd] at hlt ⊢
  cases hfind : List.find? _ (List.range' (start + 1) (plan.length - (start + 1))) with
  | none =>
    rw [hfind] at hlt
    refine ⟨hlt, Nat.le_refl _, hfirst, fun position hle hposition => ?_, ?_⟩
    · rcases Nat.eq_or_lt_of_le hle with rfl | hle
      · rfl
      have := find?_eq_none.mp hfind position (mem_range'_1.mpr (by
        rw [Option.getD_none] at hposition
        omega))
      simpa using this
    · rw [idAt, idAt, getElem?_eq_getElem hstart]
      simp
  | some stop =>
    rw [hfind] at hlt
    have hstop := mem_range'_1.mp (mem_of_find?_eq_some hfind)
    obtain ⟨hother, hbefore⟩ := find?_range'_eq_some.mp hfind
    refine ⟨hlt, ?_, hfirst, fun position hle hposition => ?_, by simpa using hother⟩
    · rw [Option.getD_some]
      omega
    · rcases Nat.eq_or_lt_of_le hle with rfl | hle
      · rfl
      · simpa using hbefore.2 position hle hposition

lemma Run.next {stop : Nat} (h : Run plan start stop) :
    stop = 0 ∨ idAt plan (stop - 1) ≠ idAt plan stop := by
  have hnonempty := h.nonempty
  refine .inr fun heq => h.last ?_
  rw [← heq]
  exact h.same _ (by omega) (by omega)

/-! ## The parallel plan -/

/-- The groups before `start` have settled without an answer, and the lookups that have not
completed are still to come. -/
structure Settling (out : CompiledNameServerPolicy α → ServerLookup α)
    (plan : List (CompiledNameServerPolicy α)) (start : Nat)
    (outcomes : List (Option (ServerLookup α))) (completing : List Nat) : Prop where
  length : outcomes.length = plan.length
  known : ∀ position server, plan[position]? = some server →
    outcomes[position]? = some (some (out server)) ∨
      outcomes[position]? = some none ∧ position ∈ completing
  asked : ∀ position ∈ completing, ∃ server, plan[position]? = some server ∧
    out server = server.lookup
  first : start = 0 ∨ idAt plan (start - 1) ≠ idAt plan start
  settled : ∀ position < start, ∀ server, plan[position]? = some server →
    outcomes[position]? = some (some (out server)) ∧
      Silent out server

/-- The answer is given in the first run that has one. -/
def FromFirstRun (out : CompiledNameServerPolicy α → ServerLookup α)
    (plan : List (CompiledNameServerPolicy α)) (addresses : α) : Prop :=
  ∃ start stop, Run plan start stop ∧
    (∀ position < start, ∀ server, plan[position]? = some server →
      Silent out server) ∧
    ∃ position server, start ≤ position ∧ position < stop ∧ plan[position]? = some server ∧
      out server = .answer addresses

namespace Settling

variable (h : Settling out plan start outcomes completing)
include h

lemma answered {addresses : α} (hstart : start < plan.length)
    (hfound : (List.range' start (groupEnd plan start - start)).findSome?
      (fun position => outcomes[position]?.join.bind answer?) = some addresses) :
    FromFirstRun out plan addresses := by
  have hrun := run_groupEnd hstart h.first
  obtain ⟨position, hposition, hsome⟩ := exists_of_findSome?_eq_some hfound
  have hwithin := hrun.within
  rw [mem_range'_1] at hposition
  obtain ⟨server, hserver⟩ : ∃ server, plan[position]? = some server :=
    ⟨_, getElem?_eq_getElem (by omega)⟩
  rcases h.known position server hserver with hknown | ⟨hnone, -⟩
  · rw [hknown, Option.join_some, Option.bind_some, answer?_eq_some] at hsome
    exact ⟨start, _, hrun, fun before hbefore server hserver =>
      (h.settled before hbefore server hserver).2, position, server, by omega, by omega, hserver,
      hsome⟩
  · simp [hnone] at hsome

lemma next (hstart : start < plan.length)
    (hnone : (List.range' start (groupEnd plan start - start)).findSome?
      (fun position => outcomes[position]?.join.bind answer?) = none)
    (hall : ((outcomes.drop start).take (groupEnd plan start - start)).all Option.isSome) :
    Settling out plan (groupEnd plan start) outcomes completing := by
  have hrun := run_groupEnd hstart h.first
  refine { h with
    first := hrun.next
    settled := fun position hposition server hserver => ?_ }
  by_cases hbefore : position < start
  · exact h.settled position hbefore server hserver
  have hsome : ∀ outcome, outcomes[position]? = some outcome → outcome.isSome = true := by
    intro outcome houtcome
    refine all_eq_true.mp hall outcome (mem_of_getElem? (i := position - start) ?_)
    rw [getElem?_take, if_pos (by omega), getElem?_drop, Nat.add_sub_cancel' (by omega)]
    exact houtcome
  rcases h.known position server hserver with hknown | ⟨hpending, -⟩
  · refine ⟨hknown, fun addresses hanswer => ?_⟩
    have := findSome?_eq_none_iff.mp hnone position (mem_range'_1.mpr (by omega))
    rw [hknown, hanswer] at this
    simp [answer?] at this
  · exact absurd (hsome none hpending) (by simp)

lemma complete {position : Nat} {rest : List Nat} (hcompleting : completing = position :: rest) :
    Settling out plan start (outcomes.set position (plan[position]?.map (·.lookup))) rest := by
  subst hcompleting
  obtain ⟨server, hserver, hlookup⟩ := h.asked position mem_cons_self
  have hlt : position < outcomes.length := by
    rw [h.length]
    exact (List.getElem_of_getElem? hserver).1
  rw [hserver, Option.map_some, ← hlookup]
  have hset : (outcomes.set position (some (out server)))[position]? =
      some (some (out server)) := getElem?_set_self hlt
  refine ⟨by rw [length_set, h.length], fun other server' hserver' => ?_,
    fun other hother => h.asked other (mem_cons_of_mem _ hother), h.first,
    fun other hother server' hserver' => ?_⟩
  · by_cases heq : position = other
    · subst heq
      cases hserver.symm.trans hserver'
      exact .inl hset
    · rw [getElem?_set_ne heq]
      rcases h.known other server' hserver' with hknown | ⟨hnone, hmem⟩
      · exact .inl hknown
      · exact .inr ⟨hnone, (mem_cons.mp hmem).resolve_left (Ne.symm heq)⟩
  · by_cases heq : position = other
    · subst heq
      cases hserver.symm.trans hserver'
      exact ⟨hset, (h.settled position hother server hserver).2⟩
    · rw [getElem?_set_ne heq]
      exact h.settled other hother server' hserver'

lemma completing_ne_nil
    (hwaits : ¬ ((outcomes.drop start).take (groupEnd plan start - start)).all Option.isSome) :
    completing ≠ [] := by
  rintro rfl
  refine hwaits (all_eq_true.mpr fun outcome hmem => ?_)
  obtain ⟨position, hposition, rfl⟩ := getElem_of_mem (mem_of_mem_drop (mem_of_mem_take hmem))
  have hlt : position < plan.length := h.length ▸ hposition
  rcases h.known position _ (getElem?_eq_getElem hlt) with hknown | ⟨-, hmem⟩
  · rw [getElem?_eq_getElem hposition, Option.some.injEq] at hknown
    rw [hknown]
    rfl
  · cases hmem

lemma ended (hend : ¬ start < plan.length) :
    outcomes = plan.map (fun server => some (out server)) ∧ ∀ server ∈ plan, Silent out server := by
  constructor
  · refine ext_getElem? fun position => ?_
    rw [getElem?_map]
    cases hserver : plan[position]? with
    | none =>
      have := getElem?_eq_none_iff.mp hserver
      exact getElem?_eq_none (by rw [h.length]; exact this)
    | some server =>
      have := (List.getElem_of_getElem? hserver).1
      exact (h.settled position (by omega) server hserver).1
  · intro server hmem
    obtain ⟨position, hposition, hserver⟩ := getElem_of_mem hmem
    exact (h.settled position (by omega) server (List.getElem?_eq_some_iff.mpr
      ⟨hposition, hserver⟩)).2

end Settling

/-- The negative answer that a plan without addresses ends with. -/
def lastNegative (out : CompiledNameServerPolicy α → ServerLookup α)
    (plan : List (CompiledNameServerPolicy α)) : Option ConfiguredDnsNegative :=
  plan.reverse.findSome? fun server => negative? (out server)

lemma settleGroups_spec (sawCompatible sawIncompatible : Bool)
    (h : Settling out plan start outcomes completing) :
    (∃ addresses, settleGroups plan sawCompatible sawIncompatible start outcomes completing =
        .answer addresses ∧ FromFirstRun out plan addresses) ∨
      (∀ server ∈ plan, Silent out server) ∧
      settleGroups plan sawCompatible sawIncompatible start outcomes completing =
        withoutAnswer sawCompatible sawIncompatible (lastNegative out plan) := by
  fun_induction settleGroups plan sawCompatible sawIncompatible start outcomes completing with
  | case1 start outcomes completing hstart addresses hfound =>
    exact .inl ⟨addresses, rfl, h.answered hstart hfound⟩
  | case2 start outcomes completing hstart hnone hall ih => exact ih (h.next hstart hnone hall)
  | case3 start outcomes hstart hnone hall => exact absurd rfl (h.completing_ne_nil hall)
  | case4 start outcomes hstart hnone hall position rest ih => exact ih (h.complete rfl)
  | case5 start outcomes completing hstart =>
    obtain ⟨houtcomes, hsilent⟩ := h.ended hstart
    refine .inr ⟨hsilent, ?_⟩
    rw [settleGroups.passedOn, houtcomes, ← map_reverse, findSome?_map]
    rfl

lemma settling_start {selected : List Nat}
    (hcompleting : completing.Perm (resolver.lookups selected strategy)) :
    Settling (resolver.outcome strategy) (resolver.plan selected) 0
      ((resolver.plan selected).map fun server =>
        if (resolver.serverQueryStrategy server strategy).isNone then some .failed else none)
      completing := by
  refine ⟨length_map _, fun position server hserver => ?_, fun position hposition => ?_,
    .inl rfl, fun position hposition => absurd hposition (Nat.not_lt_zero _)⟩
  · rw [getElem?_map, hserver, Option.map_some, outcome]
    by_cases hnone : (resolver.serverQueryStrategy server strategy).isNone = true
    · rw [if_pos hnone, if_pos hnone]
      exact .inl rfl
    rw [if_neg hnone]
    refine .inr ⟨rfl, hcompleting.mem_iff.mpr (mem_filter.mpr ⟨mem_range.mpr
      (List.getElem_of_getElem? hserver).1, ?_⟩)⟩
    rw [hserver]
    simpa [Option.isSome_iff_ne_none] using hnone
  · have hasked := (mem_filter.mp (hcompleting.mem_iff.mp hposition)).2
    obtain ⟨server, hserver, hsome⟩ := (Option.any_eq_true _ _).mp hasked
    refine ⟨server, hserver, ?_⟩
    rw [outcome, if_neg]
    simpa [Option.isSome_iff_ne_none] using hsome

/-! ## The serial plan -/

/-- How a plan whose servers are asked in order ends: with the first answer, or without one. -/
def EndsWith (resolver : ConfiguredDnsResolver α) (strategy : DnsQueryStrategy)
    (last : Option ConfiguredDnsNegative) (sawCompatible sawIncompatible : Bool)
    (plan : List (CompiledNameServerPolicy α)) (result : ConfiguredServersResult α) : Prop :=
  (∃ before server after addresses, plan = before ++ server :: after ∧
    (∀ server ∈ before, Silent (resolver.outcome strategy) server) ∧
    resolver.outcome strategy server = .answer addresses ∧ result = .answer addresses) ∨
  (∀ server ∈ plan, Silent (resolver.outcome strategy) server) ∧
  result = withoutAnswer
    (sawCompatible || plan.any fun server => (resolver.serverQueryStrategy server strategy).isSome)
    (sawIncompatible || plan.any fun server => (resolver.serverQueryStrategy server strategy).isNone)
    ((lastNegative (resolver.outcome strategy) plan).or last)

/-- A server without addresses leaves the lookup to the rest of the plan. -/
lemma EndsWith.cons {server : CompiledNameServerPolicy α} {last : Option ConfiguredDnsNegative}
    {sawCompatible sawIncompatible : Bool} {result : ConfiguredServersResult α}
    (hsilent : Silent (resolver.outcome strategy) server)
    (h : resolver.EndsWith strategy ((negative? (resolver.outcome strategy server)).or last)
      (sawCompatible || (resolver.serverQueryStrategy server strategy).isSome)
      (sawIncompatible || (resolver.serverQueryStrategy server strategy).isNone) plan result) :
    resolver.EndsWith strategy last sawCompatible sawIncompatible (server :: plan) result := by
  rcases h with ⟨before, found, after, addresses, rfl, hbefore, hfound, rfl⟩ | ⟨hsilents, rfl⟩
  · exact .inl ⟨server :: before, found, after, addresses, rfl,
      forall_mem_cons.mpr ⟨hsilent, hbefore⟩, hfound, rfl⟩
  refine .inr ⟨forall_mem_cons.mpr ⟨hsilent, hsilents⟩, ?_⟩
  have hlast : lastNegative (resolver.outcome strategy) (server :: plan) =
      (lastNegative (resolver.outcome strategy) plan).or (negative? (resolver.outcome strategy server)) := by
    rw [lastNegative, lastNegative]
    simp
  rw [hlast, any_cons, any_cons, Bool.or_assoc, Bool.or_assoc, Option.or_assoc]

lemma queryEach_spec (selected : List Nat) (last : Option ConfiguredDnsNegative)
    (sawCompatible sawIncompatible : Bool) :
    resolver.EndsWith strategy last sawCompatible sawIncompatible (resolver.plan selected)
      (resolver.queryEach strategy last sawCompatible sawIncompatible selected) := by
  induction selected generalizing last sawCompatible sawIncompatible with
  | nil =>
    refine .inr ⟨fun _ h => (not_mem_nil h).elim, ?_⟩
    simp [queryEach, plan, lastNegative]
  | cons index selected ih =>
    rw [queryEach]
    cases hserver : resolver.nameServers[index]? with
    | none =>
      rw [plan, filterMap_cons_none hserver]
      exact ih last sawCompatible sawIncompatible
    | some server =>
      rw [plan, filterMap_cons_some hserver, ← plan]
      dsimp only
      cases hstrategy : resolver.serverQueryStrategy server strategy with
      | none =>
        have houtcome : resolver.outcome strategy server = .failed := by
          rw [outcome, hstrategy, Option.isNone_none, if_pos rfl]
        refine .cons (fun _ h => ?_) ?_
        · rw [houtcome] at h
          cases h
        · rw [houtcome, hstrategy]
          simpa [negative?] using ih last sawCompatible true
      | some used =>
        have houtcome : resolver.outcome strategy server = server.lookup := by
          rw [outcome, hstrategy, if_neg (by simp)]
        cases hlookup : server.lookup with
        | answer addresses =>
          exact .inl ⟨[], server, _, addresses, rfl, fun _ h => (not_mem_nil h).elim,
            houtcome.trans hlookup, rfl⟩
        | negative negative =>
          refine .cons (fun _ h => ?_) ?_
          · rw [houtcome, hlookup] at h
            cases h
          · rw [houtcome, hlookup, hstrategy]
            simpa [negative?] using ih (some negative) true sawIncompatible
        | failed =>
          refine .cons (fun _ h => ?_) ?_
          · rw [houtcome, hlookup] at h
            cases h
          · rw [houtcome, hlookup, hstrategy]
            simpa [negative?] using ih last true sawIncompatible

/-- With no two adjacent servers of one policy id the first run with an answer is the first
server with one. -/
lemma FromFirstRun.first_of_ne {addresses : α}
    (h : FromFirstRun (resolver.outcome strategy) plan addresses)
    (hne : ∀ position, position + 1 < plan.length → idAt plan position ≠ idAt plan (position + 1)) :
    ∃ (position : Nat) (server : _), plan[position]? = some server ∧
      resolver.outcome strategy server = .answer addresses ∧
      ∀ before < position, ∀ server, plan[before]? = some server →
        Silent (resolver.outcome strategy) server := by
  obtain ⟨start, stop, hrun, hbefore, position, server, hle, hlt, hserver, hanswer⟩ := h
  have hwithin := hrun.within
  obtain rfl : start = position := by
    by_contra hmore
    exact hne start (by omega) (hrun.same (start + 1) (by omega) (by omega)).symm
  exact ⟨start, server, hserver, hanswer, hbefore⟩

/-- **The parallel plan agrees with the serial one**, in whatever order the lookups complete. It
answers when some server of the plan does, with the answer of a server in the first run of adjacent
equal policy ids that has one. Where no two adjacent servers share a policy id it ends as the serial
plan does, and so it does where no server answers. -/
theorem parallel_agrees_with_serial {α : Type} (resolver : ConfiguredDnsResolver α)
    (selectedServers : List Nat) (strategy : DnsQueryStrategy) {completing : List Nat}
    (hcompleting : completing.Perm (resolver.lookups selectedServers strategy)) :
    ((∃ addresses, resolver.queryConfiguredServersParallel selectedServers strategy completing =
        .answer addresses) ↔
      ∃ server ∈ resolver.plan selectedServers, ∃ addresses,
        resolver.outcome strategy server = .answer addresses) ∧
    (∀ addresses, resolver.queryConfiguredServersParallel selectedServers strategy completing =
        .answer addresses →
      FromFirstRun (resolver.outcome strategy) (resolver.plan selectedServers) addresses) ∧
    ((∀ position, position + 1 < (resolver.plan selectedServers).length →
        idAt (resolver.plan selectedServers) position ≠
          idAt (resolver.plan selectedServers) (position + 1)) →
      resolver.queryConfiguredServersParallel selectedServers strategy completing =
        resolver.queryConfiguredServers selectedServers strategy) ∧
    ((∀ server ∈ resolver.plan selectedServers, ∀ addresses,
        resolver.outcome strategy server ≠ .answer addresses) →
      resolver.queryConfiguredServersParallel selectedServers strategy completing =
        resolver.queryConfiguredServers selectedServers strategy ∧
      ∀ addresses, resolver.queryConfiguredServers selectedServers strategy ≠
        .answer addresses) := by
  have hserial : resolver.EndsWith strategy none false false (resolver.plan selectedServers)
      (resolver.queryConfiguredServers selectedServers strategy) :=
    queryEach_spec selectedServers none false false
  rcases settleGroups_spec _ _ (settling_start hcompleting) with
    ⟨addresses, hresult, hrun⟩ | ⟨hsilent, hresult⟩
  · rw [queryConfiguredServersParallel, hresult]
    have hanswers : ∃ server ∈ resolver.plan selectedServers, ∃ addresses,
        resolver.outcome strategy server = .answer addresses := by
      obtain ⟨-, -, -, -, position, server, -, -, hserver, hanswer⟩ := hrun
      exact ⟨server, mem_of_getElem? hserver, addresses, hanswer⟩
    refine ⟨⟨fun _ => hanswers, fun _ => ⟨addresses, rfl⟩⟩, ?_, fun hne => ?_, fun hsilent => ?_⟩
    · rintro _ ⟨⟩
      exact hrun
    · obtain ⟨position, server, hserver, hanswer, hbefore⟩ := hrun.first_of_ne hne
      rcases hserial with ⟨before, first, after, found, hsplit, hsilent, hfound, hserial⟩ |
        ⟨hsilent, -⟩
      · rw [hserial]
        have hfirst : (resolver.plan selectedServers)[before.length]? = some first := by
          rw [hsplit, getElem?_append_right (Nat.le_refl _), Nat.sub_self]
          rfl
        rcases Nat.lt_trichotomy position before.length with hlt | heq | hlt
        · rw [hsplit, getElem?_append_left hlt] at hserver
          exact absurd hanswer (hsilent server (mem_of_getElem? hserver) _)
        · rw [heq, hfirst, Option.some.injEq] at hserver
          rw [← hserver, hfound] at hanswer
          cases hanswer
          rfl
        · exact absurd hfound (hbefore _ hlt first hfirst _)
      · exact absurd hanswer (hsilent server (mem_of_getElem? hserver) _)
    · obtain ⟨server, hmem, found, hfound⟩ := hanswers
      exact absurd hfound (hsilent server hmem found)
  · rcases hserial with ⟨before, first, after, found, hsplit, -, hfound, -⟩ | ⟨-, hserial⟩
    · exact absurd hfound (hsilent first (by rw [hsplit]; simp) found)
    rw [Option.or_none] at hserial
    have hsame : resolver.queryConfiguredServersParallel selectedServers strategy completing =
        resolver.queryConfiguredServers selectedServers strategy := hresult.trans hserial.symm
    have hno : ∀ addresses, resolver.queryConfiguredServers selectedServers strategy ≠
        .answer addresses := by
      intro addresses
      rw [hserial, withoutAnswer.eq_def]
      split
      · simp
      · split <;> simp
    rw [hsame]
    refine ⟨⟨?_, ?_⟩, fun addresses h => absurd h (hno addresses), fun _ => rfl, fun _ => ⟨rfl, hno⟩⟩
    · rintro ⟨addresses, h⟩
      exact absurd h (hno addresses)
    · rintro ⟨server, hmem, addresses, h⟩
      exact absurd h (hsilent server hmem addresses)

/-- Two servers of one policy id, one of which the lookup cannot ask, and a third. -/
def sampleResolver : ConfiguredDnsResolver Nat where
  nameServers := [⟨1, .useIpv6, false, .answer 6⟩, ⟨1, .useIp, false, .negative .nameError⟩,
    ⟨2, .useIp, true, .answer 4⟩]
  routeProbe := some ⟨true, false⟩

theorem parallel_agrees_sample : ∃ addresses,
    sampleResolver.queryConfiguredServersParallel [0, 1, 7, 2] .useIpv4 [2, 1] =
      .answer addresses := by
  have hcompleting : [2, 1].Perm (sampleResolver.lookups [0, 1, 7, 2] .useIpv4) := by decide
  exact (parallel_agrees_with_serial sampleResolver [0, 1, 7, 2] .useIpv4 hcompleting).1.mpr
    ⟨⟨2, .useIp, true, .answer 4⟩, by simp [plan, sampleResolver], 4, by decide⟩

end Xray.Dns.ConfiguredDnsResolver
