import Xray.Routing.DomainMatcher

/-!
# The compiled domain set agrees with the linear reference

Everything is compared at one place: the lowercased name. Each reference
matcher is a statement about it (`matches_iff`), each index of the builder is
the union of those statements over the rules inserted so far (`Indexed`), and
one insertion adds one rule to the union. The linear list goes the same way
with the rules themselves. What is left is that `matches` asks exactly the
indexes the builder filled, whichever of the two forms `build` chose.
-/

namespace Xray.Routing

open Ascii List DomainMatcherSet DomainMatcherSetBuilder DomainMatcherSetInner DomainNameMode

variable {E : Engines}

/-- The name is `suffix`, or ends with it behind a full stop. -/
def EndsAtLabel (suffix name : Str) : Prop :=
  name = suffix ∨ ∃ i, name[i]? = some dot ∧ name.drop (i + 1) = suffix

/-- The rule a mode compiles: trailing dots of `full:` and `domain:` patterns
are dropped in the DNS mode, and nothing else changes. -/
def DomainNameMode.rule (mode : DomainNameMode) : DomainMatcher → DomainMatcher
  | .keyword needle => .keyword needle
  | .full expected => .full (mode.pattern expected)
  | .suffix ending => .suffix (mode.pattern ending)
  | .regex matcher => .regex matcher

/-- A `full:` or `domain:` rule without the trailing dots of its pattern. -/
def DomainMatcher.trimTrailingDots : DomainMatcher → DomainMatcher
  | .full expected => .full (trimEnd dot expected)
  | .suffix ending => .suffix (trimEnd dot ending)
  | matcher => matcher

lemma rule_routing (matcher : DomainMatcher) : routing.rule matcher = matcher := by
  cases matcher <;> rfl

lemma rule_dns (matcher : DomainMatcher) : dns.rule matcher = matcher.trimTrailingDots := by
  cases matcher <;> rfl

lemma lowercaseAscii_eq (value : Str) : lowercaseAscii value = lower value := by
  rw [lowercaseAscii]
  split
  · rfl
  · next h => exact (lower_eq_self h).symm

/-! ## The reference, at the lowercased name -/

lemma containsIgnoreAsciiCase_iff (haystack needle : Str) :
    containsIgnoreAsciiCase haystack needle ↔ lower needle <:+: lower haystack := by
  rw [containsIgnoreAsciiCase]
  split
  · next h =>
    rw [isEmpty_iff.mp h]
    simp
  · exact any_windows_iff haystack needle

/-- The boundary arithmetic finds the one full stop that can stand before the
suffix: the position is fixed by the two lengths. -/
lemma domainMatchesSuffix_iff (domain suffix : Str) :
    domainMatchesSuffix domain suffix ↔ EndsAtLabel (lower suffix) (lower domain) := by
  rw [domainMatchesSuffix, EndsAtLabel]
  split
  · next h => exact ⟨fun _ => .inl ((eqIgnoreCase_iff _ _).mp h), fun _ => rfl⟩
  next hne =>
  rw [eqIgnoreCase_iff] at hne
  rw [or_iff_right hne]
  have hpos : ∀ i, (lower domain)[i]? = some dot → (lower domain).drop (i + 1) = lower suffix →
      suffix.length < domain.length ∧ i = domain.length - suffix.length - 1 := by
    intro i hi hdrop
    have hlt : i < (lower domain).length := (List.getElem_of_getElem? hi).1
    have hlen := congrArg List.length hdrop
    rw [length_drop, length_lower, length_lower] at hlen
    rw [length_lower] at hlt
    omega
  split
  · next hle =>
    constructor
    · intro h
      cases h
    intro h
    obtain ⟨i, hi, hdrop⟩ := h
    have := (hpos i hi hdrop).1
    omega
  · simp only [Bool.and_eq_true, beq_iff_eq, eqIgnoreCase_iff, lower_drop]
    rw [← lower_getElem?_eq_dot_iff]
    constructor
    · intro h
      exact ⟨_, h⟩
    intro h
    obtain ⟨i, hi, hdrop⟩ := h
    obtain ⟨-, rfl⟩ := hpos i hi hdrop
    exact ⟨hi, hdrop⟩

/-- What one rule says about a lowercased name. -/
def DomainMatcher.Accepts (E : Engines) (name : Str) : DomainMatcher → Prop
  | .keyword needle => lower needle <:+: name
  | .full expected => name = lower expected
  | .suffix ending => EndsAtLabel (lower ending) name
  | .regex matcher => E.regexIsMatch matcher.pattern name = true

lemma matches_iff (matcher : DomainMatcher) (domain : Str) :
    matcher.matches E domain ↔ matcher.Accepts E (lower domain) := by
  cases matcher with
  | keyword needle => exact containsIgnoreAsciiCase_iff domain needle
  | full expected => exact eqIgnoreCase_iff domain expected
  | suffix ending => exact domainMatchesSuffix_iff domain ending
  | regex matcher =>
    rw [DomainMatcher.matches, RegexMatcher.matches, lowercaseAscii_eq]
    rfl

lemma normalizeLinearMatcher_accepts (matcher : DomainMatcher) (mode : DomainNameMode)
    (name : Str) :
    (normalizeLinearMatcher matcher mode).Accepts E name ↔ (mode.rule matcher).Accepts E name := by
  cases matcher <;>
    simp only [normalizeLinearMatcher, rule, DomainMatcher.Accepts, lower_lower]

/-! ## What the builder holds -/

def DomainMatcherSetBuilder.Indexed (E : Engines) (builder : DomainMatcherSetBuilder)
    (name : Str) : Prop :=
  name ∈ builder.full ∨ (∃ s ∈ builder.suffix, EndsAtLabel s name) ∨
    (∃ k ∈ builder.keywords, k <:+: name) ∨
    ∃ r ∈ builder.regex, E.regexIsMatch r.pattern name = true

/-- The builder stands for `rules`: the indexes say what they say, and so does
the linear list while it is kept. -/
structure DomainMatcherSetBuilder.Holds (E : Engines) (builder : DomainMatcherSetBuilder)
    (rules : List DomainMatcher) : Prop where
  count : builder.matcherCount = rules.length
  indexed : ∀ name, builder.Indexed E name ↔ ∃ rule ∈ rules, rule.Accepts E name
  linear : ∀ l, builder.linear = some l →
    ∀ name, (∃ m ∈ l, m.Accepts E name) ↔ ∃ rule ∈ rules, rule.Accepts E name

namespace DomainMatcherSetBuilder

section

variable (builder : DomainMatcherSetBuilder)

lemma insertIndexed_indexed (matcher : DomainMatcher) (mode : DomainNameMode) (name : Str) :
    (builder.insertIndexed matcher mode).Indexed E name ↔
      builder.Indexed E name ∨ (mode.rule matcher).Accepts E name := by
  cases matcher <;>
    simp only [insertIndexed, Indexed, rule, DomainMatcher.Accepts,
      Finset.mem_insert, mem_append, mem_singleton, or_and_right, exists_or,
      exists_eq_left] <;>
    simp only [or_assoc, or_comm, or_left_comm]

lemma insertIndexed_linear (matcher : DomainMatcher) (mode : DomainNameMode) :
    (builder.insertIndexed matcher mode).linear = builder.linear ∧
      (builder.insertIndexed matcher mode).matcherCount = builder.matcherCount := by
  cases matcher <;> exact ⟨rfl, rfl⟩

lemma insertLinear_indexed (matcher : DomainMatcher) (mode : DomainNameMode) (name : Str) :
    ((builder.insertLinear matcher mode).Indexed E name ↔ builder.Indexed E name) ∧
      (builder.insertLinear matcher mode).matcherCount = builder.matcherCount := by
  unfold insertLinear
  split
  · exact ⟨.rfl, rfl⟩
  split
  · dsimp only
    split <;> exact ⟨.rfl, rfl⟩
  · exact ⟨.rfl, rfl⟩

end

variable {builder : DomainMatcherSetBuilder} {rules : List DomainMatcher}

lemma insertLinear_linear {matcher : DomainMatcher} {mode : DomainNameMode}
    {l : List DomainMatcher} (h : (builder.insertLinear matcher mode).linear = some l) :
    ∃ old, builder.linear = some old ∧
      ∀ m, m ∈ l ↔ m ∈ old ∨ m = normalizeLinearMatcher matcher mode := by
  unfold insertLinear at h
  split at h
  · next hnone => cases hnone.symm.trans h
  next old hold =>
  refine ⟨old, hold, fun m => ?_⟩
  split at h
  · dsimp only at h
    split at h
    · next hmem =>
      obtain rfl : old = l := Option.some.inj (hold.symm.trans h)
      exact ⟨.inl, fun hm => hm.elim id fun heq => heq ▸ hmem⟩
    · obtain rfl := Option.some.inj h
      simp
  · simp at h

lemma Holds.insertMatcher (h : builder.Holds E rules) (matcher : DomainMatcher)
    (mode : DomainNameMode) :
    (builder.insertMatcher mode matcher).Holds E (rules ++ [mode.rule matcher]) := by
  have hkeep := insertIndexed_linear (builder.insertLinear matcher mode) matcher mode
  constructor
  · show (insertIndexed _ matcher mode).matcherCount + 1 = _
    rw [hkeep.2, (insertLinear_indexed (E := E) builder matcher mode []).2, h.count]
    simp
  · intro name
    show (insertIndexed _ matcher mode).Indexed E name ↔ _
    rw [insertIndexed_indexed, (insertLinear_indexed builder matcher mode name).1, h.indexed]
    simp [or_and_right, exists_or]
  · intro l hl name
    obtain ⟨old, hold, hmem⟩ := insertLinear_linear (hkeep.1.symm.trans hl)
    simp only [hmem, mem_append, mem_singleton, or_and_right, exists_or, exists_eq_left,
      h.linear old hold, normalizeLinearMatcher_accepts]

lemma holds_foldl (mode : DomainNameMode) (matchers : List DomainMatcher)
    (h : builder.Holds E rules) :
    (matchers.foldl (insertMatcher mode) builder).Holds E (rules ++ matchers.map mode.rule) := by
  induction matchers generalizing builder rules with
  | nil => simpa using h
  | cons matcher rest ih =>
    have hrest := ih (h.insertMatcher matcher mode)
    rw [append_assoc] at hrest
    exact hrest

lemma holds_empty : ({} : DomainMatcherSetBuilder).Holds E [] where
  count := rfl
  indexed := by simp [Indexed]
  linear := by
    intro l hl
    obtain rfl := Option.some.inj hl
    exact fun _ => .rfl

end DomainMatcherSetBuilder

/-! ## What the set asks -/

lemma mem_rmatchDots (domain : Str) (i : Nat) :
    i ∈ rmatchDots domain ↔ domain[i]? = some dot := by
  rw [rmatchDots, mem_reverse, mem_filter, mem_range, beq_iff_eq]
  exact ⟨And.right, fun h => ⟨(List.getElem_of_getElem? h).1, h⟩⟩

lemma matchesSuffix_iff (inner : DomainMatcherSetInner E) (name : Str) :
    inner.matchesSuffix name ↔ ∃ s ∈ inner.suffix, EndsAtLabel s name := by
  have hwalk : (rmatchDots name).any (fun i => decide (name.drop (i + 1) ∈ inner.suffix)) = true ↔
      ∃ i, name[i]? = some dot ∧ name.drop (i + 1) ∈ inner.suffix := by
    simp only [any_eq_true, mem_rmatchDots, decide_eq_true_eq]
  rw [matchesSuffix, Bool.and_eq_true, Bool.or_eq_true, hwalk, decide_eq_true_eq, decide_eq_true_eq]
  constructor
  · intro h
    rcases h.2 with hmem | ⟨i, hi, hmem⟩
    · exact ⟨name, hmem, .inl rfl⟩
    · exact ⟨_, hmem, .inr ⟨i, hi, rfl⟩⟩
  · intro h
    obtain ⟨s, hs, hends⟩ := h
    refine ⟨Finset.ne_empty_of_mem hs, ?_⟩
    rcases hends with rfl | ⟨i, hi, rfl⟩
    · exact .inl hs
    · exact .inr ⟨i, hi, hs⟩

variable {builder : DomainMatcherSetBuilder} {set : DomainMatcherSet E}

/-- `build` hands the builder to the set: the linear list when it was kept, the
indexes otherwise. -/
lemma build_matches_iff (hE : E.ReportsSubstrings) {rules : List DomainMatcher}
    (hb : builder.Holds E rules) (h : builder.build E = .ok set) (domain : Str) :
    set.matches domain ↔ ∃ rule ∈ rules, rule.Accepts E (lower domain) := by
  unfold build at h
  split at h
  · next hzero =>
    obtain rfl := Except.ok.inj h
    obtain rfl := length_eq_zero_iff.mp (hb.count.symm.trans hzero)
    simp [DomainMatcherSet.matches]
  split at h
  · next l hl =>
    obtain rfl := Except.ok.inj h
    simp only [DomainMatcherSet.matches, any_eq_true, matches_iff]
    exact hb.linear l hl (lower domain)
  have hkeyword : ∃ automaton, set = ⟨some ⟨none, builder.full, builder.suffix, builder.keywords,
        automaton, builder.regex⟩, builder.matcherCount⟩ ∧
      ∀ name, set.inner.any (·.matchesKeyword name) = true ↔
        ∃ k ∈ builder.keywords, k <:+: name := by
    split at h
    · next hempty =>
      obtain rfl := Except.ok.inj h
      rw [List.isEmpty_iff] at hempty
      exact ⟨none, rfl, fun name => by simp [matchesKeyword, hempty]⟩
    cases hbuild : E.build builder.keywords with
    | error e =>
      rw [hbuild] at h
      cases h
    | ok automaton =>
      rw [hbuild] at h
      obtain rfl := Except.ok.inj h
      exact ⟨some automaton, rfl, hE _ _ hbuild⟩
  obtain ⟨automaton, rfl, hkeyword⟩ := hkeyword
  rw [← hb.indexed, DomainMatcherSetBuilder.Indexed]
  have hk := hkeyword (lower domain)
  simp only [Option.any_some] at hk
  simp only [DomainMatcherSet.matches, lowercaseAscii_eq, Bool.or_eq_true, decide_eq_true_eq,
    matchesSuffix_iff, hk, DomainMatcherSetInner.matchesRegex, any_eq_true, or_assoc]

lemma compile_matches (hE : E.ReportsSubstrings) {matchers : List DomainMatcher}
    {mode : DomainNameMode} (h : compile E matchers mode = .ok set) (domain : Str) :
    set.matches domain = (matchers.map mode.rule).any (·.matches E domain) := by
  have hb := holds_foldl (E := E) mode matchers
    holds_empty
  rw [nil_append] at hb
  rw [Bool.eq_iff_iff, build_matches_iff hE hb h, any_eq_true]
  simp only [matches_iff]

lemma build_error {e : E.BuildError} (h : builder.build E = .error e) :
    E.build builder.keywords = .error e := by
  unfold build at h
  split at h
  · cases h
  split at h
  · cases h
  split at h
  · cases h
  cases hbuild : E.build builder.keywords with
  | error e' =>
    rw [hbuild] at h
    cases h
    rfl
  | ok automaton =>
    rw [hbuild] at h
    cases h

/-- The compiled set answers what the rules answer one by one. In the routing
mode these are the rules as given; in the DNS mode, the rules with the trailing
dots of their `full:` and `domain:` patterns removed. A compilation fails only
where the automaton refuses a keyword list. -/
theorem domainMatcherSet_agrees_with_reference (E : Engines) (hE : E.ReportsSubstrings)
    (matchers : List DomainMatcher) :
    (∀ set, compile E matchers .routing = .ok set → ∀ domain,
      set.matches domain = matchers.any (·.matches E domain)) ∧
    (∀ set, compile E matchers .dns = .ok set → ∀ domain,
      set.matches domain = (matchers.map (·.trimTrailingDots)).any (·.matches E domain)) ∧
    ∀ mode e, compile E matchers mode = .error e →
      ∃ keywords, E.build keywords = .error e := by
  refine ⟨fun set h domain => ?_, fun set h domain => ?_, fun mode e h => ⟨_, build_error h⟩⟩
  · rw [compile_matches hE h domain, map_congr_left fun m _ => rule_routing m, map_id']
  · rw [compile_matches hE h domain, map_congr_left fun m _ => rule_dns m]

/-- Engines that search by hand: the automaton is its pattern list, and a regex
is matched as a literal. -/
def literalEngines : Engines where
  Automaton := List Str
  BuildError := Empty
  build := .ok
  automatonIsMatch patterns text := patterns.any fun p => decide (p <:+: text)
  regexIsMatch pattern text := decide (pattern <:+: text)

lemma literalEngines_reportsSubstrings : literalEngines.ReportsSubstrings := by
  intro patterns automaton h text
  obtain rfl : patterns = automaton := Except.ok.inj h
  simp [literalEngines]

/-- Nine rules, so the indexes are used: `domain:b.` is among them, and the DNS
mode matches `A.B` by it while the routing mode does not. -/
theorem domainMatcherSet_nine_rules : ∃ routing dns, compile literalEngines
        (.suffix [98, 46] :: List.replicate 8 (.full [99])) .routing = .ok routing ∧
      compile literalEngines (.suffix [98, 46] :: List.replicate 8 (.full [99])) .dns = .ok dns ∧
      routing.matches [65, 46, 66] = false ∧ dns.matches [65, 46, 66] = true := by
  have h := domainMatcherSet_agrees_with_reference literalEngines literalEngines_reportsSubstrings
    (.suffix [98, 46] :: List.replicate 8 (.full [99]))
  refine ⟨_, _, rfl, rfl, ?_, ?_⟩
  · rw [h.1 _ rfl]
    decide
  · rw [h.2.1 _ rfl]
    decide

end Xray.Routing
