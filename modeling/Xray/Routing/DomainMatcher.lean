import Xray.Lib.Ascii
import Mathlib.Data.Finset.Insert

/-!
# Domain matchers (`xray-routing/src/domain_matcher.rs`, `domain_matcher_set.rs`)

A `DomainMatcher` is one rule, and `DomainMatcher.matches` is the source's
linear reference. A `DomainMatcherSet` is the compiled form of a list of them:
the normalised rules themselves while there are at most `linearMatcherLimit`
of them, and hash sets, one keyword automaton and the regexes from there on.

The regex engine and the Aho-Corasick automaton are other crates. They enter as
an `Engines`, and what is assumed of them is stated where it is used.
-/

namespace Xray.Routing

open Ascii

/-- The two engines the matchers call. A compiled `Regex` is a function of its
pattern, so it is represented by it. -/
structure Engines where
  Automaton : Type
  BuildError : Type
  /-- `AhoCorasick::builder()...build(patterns)`. -/
  build : List Str → Except BuildError Automaton
  /-- `AhoCorasick::is_match`. -/
  automatonIsMatch : Automaton → Str → Bool
  /-- `Regex::is_match`, by pattern. -/
  regexIsMatch : Str → Str → Bool

/-- What the automaton documents: a match is reported exactly when one of its
patterns occurs in the text. -/
def Engines.ReportsSubstrings (E : Engines) : Prop :=
  ∀ patterns automaton, E.build patterns = .ok automaton →
    ∀ text, E.automatonIsMatch automaton text = true ↔ ∃ p ∈ patterns, p <:+: text

/-- `RegexMatcher`. Its `PartialEq` compares patterns. -/
structure RegexMatcher where
  pattern : Str
deriving DecidableEq

inductive DomainMatcher where
  | keyword (keyword : Str)
  | full (expected : Str)
  | suffix (suffix : Str)
  | regex (matcher : RegexMatcher)
deriving DecidableEq

inductive DomainNameMode where
  | routing
  | dns
deriving DecidableEq

def DomainNameMode.pattern : DomainNameMode → Str → Str
  | .routing, pattern => pattern
  | .dns, pattern => trimEnd dot pattern

/-- The lowercased string, borrowed when there is nothing to change. -/
def lowercaseAscii (value : Str) : Str :=
  if value.any isUpper then lower value else value

def RegexMatcher.matches (E : Engines) (matcher : RegexMatcher) (domain : Str) : Bool :=
  E.regexIsMatch matcher.pattern (lowercaseAscii domain)

def containsIgnoreAsciiCase (haystack needle : Str) : Bool :=
  if needle.isEmpty then true
  else (windows needle.length haystack).any (eqIgnoreCase · needle)

def domainMatchesSuffix (domain suffix : Str) : Bool :=
  if eqIgnoreCase domain suffix then true
  else if domain.length ≤ suffix.length then false
  else
    let boundaryIndex := domain.length - suffix.length - 1
    domain[boundaryIndex]? == some dot && eqIgnoreCase (domain.drop (boundaryIndex + 1)) suffix

def DomainMatcher.matches (E : Engines) : DomainMatcher → Str → Bool
  | .keyword needle, domain => containsIgnoreAsciiCase domain needle
  | .full expected, domain => eqIgnoreCase domain expected
  | .suffix ending, domain => domainMatchesSuffix domain ending
  | .regex matcher, domain => matcher.matches E domain

/-! ## The compiled set -/

def linearMatcherLimit : Nat := 8

structure DomainMatcherSetInner (E : Engines) where
  linear : Option (List DomainMatcher)
  full : Finset Str
  suffix : Finset Str
  keywords : List Str
  keywordAutomaton : Option E.Automaton
  regex : List RegexMatcher

structure DomainMatcherSet (E : Engines) where
  inner : Option (DomainMatcherSetInner E) := none
  matcherCount : Nat := 0

/-- The positions of the full stops, from the right: `rmatch_indices('.')`. -/
def rmatchDots (domain : Str) : List Nat :=
  ((List.range domain.length).filter fun i => domain[i]? == some dot).reverse

namespace DomainMatcherSetInner

variable {E : Engines}

def matchesSuffix (inner : DomainMatcherSetInner E) (domain : Str) : Bool :=
  decide (inner.suffix ≠ ∅) &&
    (decide (domain ∈ inner.suffix) ||
      (rmatchDots domain).any fun index => decide (domain.drop (index + 1) ∈ inner.suffix))

def matchesKeyword (inner : DomainMatcherSetInner E) (domain : Str) : Bool :=
  match inner.keywordAutomaton with
  | some automaton => E.automatonIsMatch automaton domain
  | none => false

def matchesRegex (inner : DomainMatcherSetInner E) (domain : Str) : Bool :=
  inner.regex.any fun regex => E.regexIsMatch regex.pattern domain

end DomainMatcherSetInner

/-- `DomainMatcherSet::matches`. The indexed branch lowers the domain once and
asks every index about the lowered name. -/
def DomainMatcherSet.matches {E : Engines} (set : DomainMatcherSet E) (domain : Str) : Bool :=
  match set.inner with
  | none => false
  | some inner =>
    match inner.linear with
    | some matchers => matchers.any (·.matches E domain)
    | none =>
      let domain := lowercaseAscii domain
      decide (domain ∈ inner.full) || inner.matchesSuffix domain ||
        inner.matchesKeyword domain || inner.matchesRegex domain

structure DomainMatcherSetBuilder where
  linear : Option (List DomainMatcher) := some []
  full : Finset Str := ∅
  suffix : Finset Str := ∅
  keywords : List Str := []
  regex : List RegexMatcher := []
  matcherCount : Nat := 0

def normalizeLinearMatcher (matcher : DomainMatcher) (mode : DomainNameMode) : DomainMatcher :=
  match matcher with
  | .keyword keyword => .keyword (lower keyword)
  | .full domain => .full (lower (mode.pattern domain))
  | .suffix suffix => .suffix (lower (mode.pattern suffix))
  | .regex matcher => .regex matcher

namespace DomainMatcherSetBuilder

/-- The linear half of `insert`: the rules themselves, without repetitions,
until the ninth insertion gives the list up. -/
def insertLinear (builder : DomainMatcherSetBuilder) (matcher : DomainMatcher)
    (mode : DomainNameMode) : DomainMatcherSetBuilder :=
  match builder.linear with
  | none => builder
  | some linear =>
    if builder.matcherCount < linearMatcherLimit then
      let matcher := normalizeLinearMatcher matcher mode
      if matcher ∈ linear then builder else { builder with linear := some (linear ++ [matcher]) }
    else { builder with linear := none }

/-- The indexed half of `insert`. -/
def insertIndexed (builder : DomainMatcherSetBuilder) (matcher : DomainMatcher)
    (mode : DomainNameMode) : DomainMatcherSetBuilder :=
  match matcher with
  | .keyword keyword => { builder with keywords := builder.keywords ++ [lower keyword] }
  | .full domain => { builder with full := insert (lower (mode.pattern domain)) builder.full }
  | .suffix suffix => { builder with suffix := insert (lower (mode.pattern suffix)) builder.suffix }
  | .regex matcher => { builder with regex := builder.regex ++ [matcher] }

def insertMatcher (mode : DomainNameMode) (builder : DomainMatcherSetBuilder)
    (matcher : DomainMatcher) : DomainMatcherSetBuilder :=
  let builder := (builder.insertLinear matcher mode).insertIndexed matcher mode
  { builder with matcherCount := builder.matcherCount + 1 }

/-- `build`. The only failure is the automaton's own: too many or too long
keywords for its limits. -/
def build (E : Engines) (builder : DomainMatcherSetBuilder) :
    Except E.BuildError (DomainMatcherSet E) :=
  if builder.matcherCount = 0 then .ok {}
  else
    match builder.linear with
    | some linear =>
      .ok { inner := some ⟨some linear, ∅, ∅, [], none, []⟩, matcherCount := builder.matcherCount }
    | none => do
      let keywordAutomaton ←
        if builder.keywords.isEmpty then pure none
        else some <$> E.build builder.keywords
      pure
        { inner := some
            ⟨none, builder.full, builder.suffix, builder.keywords, keywordAutomaton, builder.regex⟩
          matcherCount := builder.matcherCount }

end DomainMatcherSetBuilder

def DomainMatcherSet.compile (E : Engines) (matchers : List DomainMatcher)
    (mode : DomainNameMode) : Except E.BuildError (DomainMatcherSet E) :=
  (matchers.foldl (DomainMatcherSetBuilder.insertMatcher mode) {}).build E

end Xray.Routing
