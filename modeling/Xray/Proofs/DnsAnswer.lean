import Mathlib.Order.Lattice.Nat
import Xray.Dns.Answer
import Xray.Proofs.DnsName

/-!
# Managed DNS answers stay on the alias chain

A response that yields addresses has been read record by record, so what was collected is said of
the records themselves (`parseRecords_spec`). The walk along the aliases is an induction on the
depth that is left: it keeps the names it has visited apart, and every name it leaves owns no
address and one alias (`resolveFrom_spec`).

Names are compared as the resolver reads them, as text in lower case.
-/

namespace Xray.Dns

open Ascii Bytes Fallible WireName List
open Xray.Routing (IpAddr toIpv4Mapped)

/-- The records of an answer, from `offset`. -/
def readRecords (packet : Bytes) : Nat → Nat → IoResult (List Record)
  | 0, _ => .ok []
  | count + 1, offset => do
    let record ← readRecord packet offset
    return record :: (← readRecords packet count record.dataEnd)

def Record.data (packet : Bytes) (record : Record) : Bytes :=
  (packet.take record.dataEnd).drop record.dataStart

/-- A record of the class IN and of the requested type has an address the resolver uses, unless it
is an IPv4 address in the form of an IPv6 one. -/
def Record.address (packet : Bytes) (requestedType : DnsRecordType) (record : Record) :
    Option IpAddr :=
  if record.recordClass = 1 ∧ record.recordType = requestedType.code then
    match requestedType with
    | .a =>
      if (record.data packet).length = 4 then
        some (.v4 (BitVec.ofNat 32 (ofBe (record.data packet))))
      else none
    | .aaaa =>
      let address := BitVec.ofNat 128 (ofBe (record.data packet))
      if (record.data packet).length = 16 ∧ toIpv4Mapped address = none then some (.v6 address)
      else none
  else none

def Record.isAlias (record : Record) : Prop := record.recordClass = 1 ∧ record.recordType = 5

instance (record : Record) : Decidable record.isAlias := by
  unfold Record.isAlias
  infer_instance

/-- The name that is the data of a record. -/
def Record.target (packet : Bytes) (record : Record) : Option Str :=
  match readDnsNameLimited packet record.dataStart record.dataEnd with
  | .ok (name, stop) => if stop = record.dataEnd then some name else none
  | .error _ => none

def Record.Within (packet : Bytes) (record : Record) : Prop :=
  record.dataStart ≤ record.dataEnd ∧ record.dataEnd ≤ packet.length

variable {packet : Bytes} {requestedType : DnsRecordType} {record : Record}

lemma readRecord_within {offset : Nat} (h : readRecord packet offset = .ok record) :
    record.Within packet := by
  obtain ⟨⟨owner, offset⟩, -, h⟩ := bind_eq_ok.mp h
  obtain ⟨recordType, -, h⟩ := bind_eq_ok.mp h
  obtain ⟨recordClass, -, h⟩ := bind_eq_ok.mp h
  obtain ⟨ttl, -, h⟩ := bind_eq_ok.mp h
  obtain ⟨dataLen, -, h⟩ := bind_eq_ok.mp h
  dsimp only at h
  split at h
  · cases h
  · next hle =>
    cases h
    exact ⟨Nat.le_add_right _ _, Nat.not_lt.mp hle⟩

lemma liftIo_eq_ok {α : Type} {r : IoResult α} {a : α} : liftIo r = .ok a ↔ r = .ok a := by
  cases r <;> simp [liftIo]

lemma liftIo_ne_panic {α : Type} (r : IoResult α) : liftIo r ≠ .error .panic := by
  cases r <;> simp [liftIo]

lemma code_ne_five (requestedType : DnsRecordType) : requestedType.code ≠ 5 := by
  cases requestedType <;> decide

structure Adds (packet : Bytes) (requestedType : DnsRecordType) (record : Record)
    (parsed parsed' : Parsed) : Prop where
  addresses : parsed'.addresses = parsed.addresses ++
    ((record.address packet requestedType).map fun address =>
      (⟨record.owner, address⟩ : ParsedDnsAddress)).toList
  cnames : parsed'.cnames = parsed.cnames ++
    if record.isAlias then ((record.target packet).map fun name =>
      (⟨record.owner, name⟩ : ParsedDnsCname)).toList else []
  target : record.isAlias → ∃ name, record.target packet = some name
  ttl : parsed'.responseTtl =
    some ((parsed.responseTtl.map fun ttl => min ttl record.seconds).getD record.seconds)

lemma Record.Within.slice (h : record.Within packet) {n : Nat}
    (hn : record.dataEnd - record.dataStart = n) :
    slice? packet record.dataStart (record.dataStart + n) = some (record.data packet) ∧
      (record.data packet).length = n := by
  obtain ⟨hle, hlen⟩ := h
  have hend : record.dataStart + n = record.dataEnd := by omega
  rw [hend, slice?, if_pos ⟨hle, hlen⟩]
  exact ⟨rfl, (length_slice hlen).trans hn⟩

lemma takeAddress_spec (hwithin : record.Within packet) (parsed : Parsed)
    (htype : record.recordClass = 1 ∧ record.recordType = requestedType.code) :
    (∃ message, takeAddress packet requestedType record parsed = fails message) ∨
    takeAddress packet requestedType record parsed = .ok { parsed with
      addresses := parsed.addresses ++ ((record.address packet requestedType).map fun address =>
          (⟨record.owner, address⟩ : ParsedDnsAddress)).toList } := by
  cases requestedType with
  | a =>
    rw [takeAddress, Record.address]
    split
    · next hlen =>
      obtain ⟨hslice, hfour⟩ := hwithin.slice hlen
      rw [hslice, if_pos hfour]
      exact .inr rfl
    · exact .inl ⟨_, rfl⟩
  | aaaa =>
    rw [takeAddress, Record.address]
    split
    · next hlen =>
      obtain ⟨hslice, hsixteen⟩ := hwithin.slice hlen
      rw [hslice]
      dsimp only
      split
      · next hmapped =>
        rw [if_pos ⟨hsixteen, hmapped⟩]
        exact .inr rfl
      · next hmapped =>
        rw [if_neg fun h => hmapped h.2, Option.map_none, Option.toList_none, append_nil]
        exact .inr rfl
    · exact .inl ⟨_, rfl⟩

lemma takeCname_spec (record : Record) (parsed : Parsed) :
    (∃ e, takeCname packet record parsed = .error (.io e)) ∨
    ∃ name, record.target packet = some name ∧ takeCname packet record parsed =
      .ok { parsed with cnames := parsed.cnames ++ [⟨record.owner, name⟩] } := by
  rw [takeCname, Record.target]
  cases readDnsNameLimited packet record.dataStart record.dataEnd with
  | error e => exact .inl ⟨e, rfl⟩
  | ok result =>
    obtain ⟨name, stop⟩ := result
    rw [liftIo, bind_ok]
    dsimp only
    by_cases hstop : stop = record.dataEnd
    · rw [if_pos hstop, if_neg (by simpa using hstop)]
      exact .inr ⟨name, rfl, rfl⟩
    · rw [if_pos hstop]
      exact .inl ⟨_, rfl⟩

lemma least_ttl (ttl : Option Nat) (seconds : Nat) : (match ttl with
      | none => seconds
      | some current => min current seconds) = (ttl.map fun ttl => min ttl seconds).getD seconds := by
  cases ttl <;> rfl

lemma parseRecord_spec (hwithin : record.Within packet) (parsed : Parsed) :
    (∃ e, parseRecord packet requestedType record parsed = .error (.io e)) ∨
    ∃ parsed', parseRecord packet requestedType record parsed = .ok parsed' ∧
      Adds packet requestedType record parsed parsed' := by
  rw [parseRecord]
  have httl := congrArg some (least_ttl parsed.responseTtl record.seconds)
  split
  · next htype =>
    have hno : ¬record.isAlias := fun h => code_ne_five requestedType (htype.2.symm.trans h.2)
    rcases takeAddress_spec hwithin _ htype with ⟨message, hfails⟩ | hok
    · exact .inl ⟨_, hfails⟩
    · refine .inr ⟨_, hok, rfl, ?_, fun h => absurd h hno, httl⟩
      rw [if_neg hno, append_nil]
  next htype =>
  have hnone : record.address packet requestedType = none := if_neg htype
  split
  · next halias =>
    have halias : record.isAlias := halias
    rcases takeCname_spec record _ with ⟨e, hfails⟩ | ⟨name, hname, hok⟩
    · exact .inl ⟨e, hfails⟩
    refine .inr ⟨_, hok, ?_, ?_, fun _ => ⟨name, hname⟩, httl⟩
    · rw [hnone]
      exact (append_nil _).symm
    · rw [if_pos halias, hname]
      rfl
  next halias =>
  have halias : ¬record.isAlias := halias
  refine .inr ⟨_, rfl, ?_, ?_, fun h => absurd h halias, httl⟩
  · rw [hnone]
    exact (append_nil _).symm
  · rw [if_neg halias]
    exact (append_nil _).symm

/-- What the records of an answer add to what was collected. -/
structure Collects (packet : Bytes) (requestedType : DnsRecordType) (records : List Record)
    (parsed parsed' : Parsed) : Prop where
  addresses : parsed'.addresses = parsed.addresses ++
    records.filterMap fun record => (record.address packet requestedType).map fun address =>
      ⟨record.owner, address⟩
  cnames : parsed'.cnames = parsed.cnames ++
    records.filterMap fun record => if record.isAlias then
      (record.target packet).map fun name => ⟨record.owner, name⟩ else none
  targets : ∀ record ∈ records, record.isAlias → ∃ name, record.target packet = some name
  ttl : parsed'.responseTtl =
    (parsed.responseTtl.toList ++ records.map Record.seconds).min?

lemma min?_cons_cons (a b : Nat) (rest : List Nat) :
    (a :: b :: rest).min? = (min a b :: rest).min? := by
  rw [min?_cons', min?_cons', foldl_cons]

lemma parseRecords_spec (count offset : Nat) (parsed : Parsed) :
    (∃ e, parseRecords packet requestedType count offset parsed = .error (.io e)) ∨
    ∃ parsed' records, parseRecords packet requestedType count offset parsed = .ok parsed' ∧
      readRecords packet count offset = .ok records ∧
      Collects packet requestedType records parsed parsed' := by
  induction count generalizing offset parsed with
  | zero =>
    refine .inr ⟨parsed, [], rfl, rfl, (append_nil _).symm, (append_nil _).symm,
      by simp, ?_⟩
    cases parsed.responseTtl <;> rfl
  | succ count ih =>
    rw [parseRecords, readRecords]
    cases hrecord : readRecord packet offset with
    | error e => exact .inl ⟨e, rfl⟩
    | ok record =>
      rw [liftIo, bind_ok, bind_ok]
      rcases parseRecord_spec (readRecord_within hrecord) parsed with
        ⟨e, hfails⟩ | ⟨next, hnext, hadds⟩
      · rw [hfails]
        exact .inl ⟨e, rfl⟩
      rw [hnext, bind_ok]
      rcases ih record.dataEnd next with
        ⟨e, hfails⟩ | ⟨parsed', records, hparsed, hrecords, hcollects⟩
      · exact .inl ⟨e, hfails⟩
      rw [hparsed, hrecords]
      refine .inr ⟨parsed', record :: records, rfl, rfl, ?_, ?_, ?_, ?_⟩
      · rw [hcollects.addresses, hadds.addresses, filterMap_cons, append_assoc]
        cases record.address packet requestedType <;> rfl
      · rw [hcollects.cnames, hadds.cnames, filterMap_cons, append_assoc]
        by_cases halias : record.isAlias
        · rw [if_pos halias, if_pos halias]
          cases record.target packet <;> rfl
        · rw [if_neg halias, if_neg halias]
          rfl
      · intro r hr
        rcases mem_cons.mp hr with rfl | hr
        · exact hadds.target
        · exact hcollects.targets r hr
      · rw [hcollects.ttl, hadds.ttl]
        cases parsed.responseTtl with
        | none => rfl
        | some ttl => exact (min?_cons_cons ttl record.seconds _).symm

/-! ## The walk along the aliases -/

section

variable {addresses : List ParsedDnsAddress} {cnames : List ParsedDnsCname} {ttl : Nat}

/-- A name that owns no address, and whose aliases are one name. -/
structure Leaves (addresses : List ParsedDnsAddress) (cnames : List ParsedDnsCname)
    (name next : Str) : Prop where
  no_address : ∀ record ∈ addresses, ¬eqIgnoreCase record.owner name
  leads : ∃ record ∈ cnames, eqIgnoreCase record.owner name ∧ record.aliasName = next
  same : ∀ record ∈ cnames, eqIgnoreCase record.owner name →
    eqIgnoreCase record.aliasName next

def addressesOf (addresses : List ParsedDnsAddress) (name : Str) : List IpAddr :=
  (addresses.filter fun record => eqIgnoreCase record.owner name).map ParsedDnsAddress.address

variable {followed : Bool} {visited : List Str} {name : Str} {answer : ConfiguredDnsAddresses}

lemma resolveTurn_addresses
    (h : resolveTurn addresses cnames ttl name followed = .done (.ok (.answer (.addresses answer)))) :
    answer = ⟨addressesOf addresses name, ttl⟩ ∧ answer.addresses ≠ [] := by
  rw [resolveTurn] at h
  split at h
  · next hfound =>
    cases h
    exact ⟨rfl, hfound⟩
  · split at h
    · split at h
      · cases h
      · split at h <;> cases h
    · split at h <;> cases h

lemma resolveTurn_follow {next : Str}
    (h : resolveTurn addresses cnames ttl name followed = .follow next) :
    Leaves addresses cnames name next := by
  rw [resolveTurn] at h
  split at h
  · cases h
  next hnone =>
  rw [Classical.not_not, map_eq_nil_iff, filter_eq_nil_iff] at hnone
  split at h
  · split at h
    · cases h
    · split at h <;> cases h
  next first others haliases =>
  split at h
  · cases h
  next hothers =>
  cases h
  have hmem : ∀ record, record ∈ first :: others ↔
      record ∈ cnames ∧ eqIgnoreCase record.owner name = true := by
    intro record
    rw [← haliases, mem_filter]
  have hfirst := (hmem first).mp mem_cons_self
  refine ⟨hnone, ⟨first, hfirst.1, hfirst.2, rfl⟩, fun record hrecord howned => ?_⟩
  rcases mem_cons.mp ((hmem record).mpr ⟨hrecord, howned⟩) with rfl | hin
  · exact (eqIgnoreCase_iff _ _).mpr rfl
  · rw [Bool.not_eq_true, any_eq_false] at hothers
    simpa using hothers record hin

/-- The names the walk goes through behind `name`, and what it gives at the last. -/
structure Path (addresses : List ParsedDnsAddress) (cnames : List ParsedDnsCname) (ttl left : Nat)
    (visited : List Str) (name : Str) (answer : ConfiguredDnsAddresses) (rest : List Str)
    (last : Str) : Prop where
  chain : (name :: rest).IsChain (Leaves addresses cnames)
  depth : rest.length ≤ left
  fresh : ∀ old ∈ visited, ∀ new ∈ rest, ¬eqIgnoreCase old new
  apart : rest.Pairwise fun a b => ¬eqIgnoreCase a b = true
  ends : (name :: rest).getLast? = some last
  gives : answer = ⟨addressesOf addresses last, ttl⟩
  found : answer.addresses ≠ []

lemma Path.here {left : Nat}
    (h : resolveTurn addresses cnames ttl name followed = .done (.ok (.answer (.addresses answer)))) :
    Path addresses cnames ttl left visited name answer [] name :=
  ⟨isChain_singleton name, Nat.zero_le _, by simp,
    List.Pairwise.nil, rfl, (resolveTurn_addresses h).1, (resolveTurn_addresses h).2⟩

lemma resolveFrom_spec {left : Nat}
    (h : resolveFrom addresses cnames ttl left name visited followed =
      .ok (.answer (.addresses answer))) :
    ∃ rest last, Path addresses cnames ttl left visited name answer rest last := by
  induction left generalizing name visited followed with
  | zero =>
    rw [resolveFrom] at h
    split at h
    · next hturn => exact ⟨[], name, .here (h ▸ hturn)⟩
    · cases h
  | succ left ih =>
    rw [resolveFrom] at h
    split at h
    · next hturn => exact ⟨[], name, .here (h ▸ hturn)⟩
    next next hturn =>
    split at h
    · cases h
    next hfresh =>
    rw [Bool.not_eq_true, any_eq_false] at hfresh
    obtain ⟨rest, last, hpath⟩ := ih h
    refine ⟨next :: rest, last, .cons_cons (resolveTurn_follow hturn) hpath.chain,
      Nat.succ_le_succ hpath.depth, ?_, ?_, ?_, hpath.gives, hpath.found⟩
    · intro old hold new hmem
      rcases mem_cons.mp hmem with rfl | hmem
      · exact hfresh old hold
      · exact hpath.fresh old (mem_append_left _ hold) new hmem
    · refine List.Pairwise.cons (fun new hmem => ?_) hpath.apart
      exact hpath.fresh next (mem_append_right _ mem_cons_self) new hmem
    · exact hpath.ends

end

lemma pushLabels_spec {parts : List Str} {name : Bytes} (h : pushLabels parts = .ok name) :
    name = encode parts ∧ ∀ part ∈ parts, part ≠ [] ∧ part.length ≤ 63 := by
  induction parts generalizing name with
  | nil =>
    cases h
    exact ⟨rfl, by simp⟩
  | cons part parts ih =>
    rw [pushLabels] at h
    split at h
    · cases h
    next hpart =>
    rw [not_or, Nat.not_lt] at hpart
    obtain ⟨rest, hrest, h⟩ := bind_eq_ok.mp h
    cases h
    obtain ⟨rfl, hparts⟩ := ih hrest
    refine ⟨rfl, fun p hp => ?_⟩
    rcases mem_cons.mp hp with rfl | hp
    · exact hpart
    · exact hparts p hp

lemma joinLabels_splitAll (s : Str) : joinLabels ((splitAll dot s).map lower) = lower s := by
  induction s with
  | nil => rfl
  | cons c s ih =>
    obtain ⟨part, parts, hparts⟩ := exists_cons_of_ne_nil (splitAll_ne_nil dot s)
    rw [hparts] at ih
    have hlower : lower (c :: s) = toLower c :: lower s := rfl
    rw [splitAll, hparts, hlower, ← ih]
    split
    · next hdot =>
      rw [hdot]
      rfl
    · cases parts <;> rfl

variable {recordType : DnsRecordType} {edns : Option Bytes} {query : Bytes}

lemma walk_of_build {domain : Str} {id : UInt16}
    (h : buildDnsQueryWithId domain recordType id edns = .ok query) :
    ∃ stop, Walk query 12 ((splitAll dot (trimEnd dot domain)).map .label) stop := by
  rw [buildDnsQueryWithId] at h
  split at h
  · cases h
  obtain ⟨name, hname, h⟩ := bind_eq_ok.mp h
  obtain ⟨rfl, hparts⟩ := pushLabels_spec hname
  have hquery := Except.ok.inj h
  have hwalk := walk_encode hparts
    (toBe 2 id.toNat ++ toBe 2 0x0100 ++ toBe 2 1 ++ toBe 2 0 ++ toBe 2 0 ++
      toBe 2 (if edns.isSome then 1 else 0))
    (toBe 2 recordType.code.toNat ++ toBe 2 1 ++ edns.getD [])
  simp only [length_append, length_toBe] at hwalk
  refine ⟨12 + (encode (splitAll dot (trimEnd dot domain))).length + 1, ?_⟩
  rw [← hquery]
  simpa only [append_assoc, cons_append, nil_append] using hwalk

lemma name_of_build {domain : Str} {id : UInt16} {question : Question}
    (hquery : buildDnsQueryWithId domain recordType id edns = .ok query)
    (hquestion : parseDnsQuestion query = .ok question) :
    question.name = lower (trimEnd dot domain) := by
  obtain ⟨stop, hbuilt⟩ := walk_of_build hquery
  obtain ⟨count, -, hquestion⟩ := bind_eq_ok.mp hquestion
  split at hquestion
  · cases hquestion
  obtain ⟨⟨question', behind⟩, hread, hquestion⟩ := bind_eq_ok.mp hquestion
  cases hquestion
  obtain ⟨stop', hname, -⟩ := readDnsQuestion_eq_ok.mp hread
  obtain ⟨steps, hwalk, -, -, hjoin⟩ := readDnsName_eq_ok.mp hname
  obtain ⟨rfl, -⟩ := hwalk.unique hbuilt
  rw [labels_map_label, joinLabels_splitAll] at hjoin
  exact hjoin

/-- What the header and the question of a response that yields addresses say. -/
structure Answers (query packet : Bytes) (question : Question) (header : Header) : Prop where
  id : packet.take 2 = query.take 2
  flags : u16? packet 2 = some header.flags
  response : header.flags &&& 0x8000 ≠ 0
  noError : header.flags &&& 0x000f = 0
  whole : header.flags &&& 0x0200 = 0
  asked : parseDnsQuestion query = .ok question
  count : u16? packet 4 = some 1
  repeated : readDnsQuestion packet 12 = .ok (question, header.offset)
  answers : u16? packet 6 = some header.answerCount

/-- The records own the names of an alias chain: a name owns no address that could be used, and
every alias of the class IN that it owns is of the next name, of which there is at least one. -/
structure Leads (packet : Bytes) (requestedType : DnsRecordType) (records : List Record)
    (name next : Str) : Prop where
  no_address : ∀ record ∈ records, eqIgnoreCase record.owner name →
    record.address packet requestedType = none
  leads : ∃ record ∈ records, eqIgnoreCase record.owner name ∧ record.isAlias ∧
    record.target packet = some next
  same : ∀ record ∈ records, eqIgnoreCase record.owner name → record.isAlias →
    ∃ target, record.target packet = some target ∧ eqIgnoreCase target next

/-- The addresses of the records that a name owns, in their order. -/
def addressesOwned (packet : Bytes) (requestedType : DnsRecordType) (records : List Record)
    (name : Str) : List IpAddr :=
  (records.filter fun record => eqIgnoreCase record.owner name).filterMap
    (Record.address packet requestedType)

lemma readHeader_spec {header : Header} (h : readHeader query packet requestedType = .ok header)
    (hcode : header.flags &&& 0x000f = 0) (hwhole : header.flags &&& 0x0200 = 0) :
    Answers query packet header.question header := by
  rw [readHeader] at h
  split at h
  · cases h
  next hid =>
  simp only [not_or, Classical.not_not] at hid
  obtain ⟨flags, hflags, h⟩ := bind_eq_ok.mp h
  split at h
  · cases h
  next hresponse =>
  obtain ⟨expected, hexpected, h⟩ := bind_eq_ok.mp h
  split at h
  · cases h
  obtain ⟨count, hcount, h⟩ := bind_eq_ok.mp h
  split at h
  · cases h
  next hone =>
  obtain ⟨answers, hanswers, h⟩ := bind_eq_ok.mp h
  obtain ⟨⟨question, offset⟩, hquestion, h⟩ := bind_eq_ok.mp h
  dsimp only at h
  split at h
  · cases h
  next hsame =>
  cases h
  rw [Classical.not_not] at hone hsame
  subst hsame hone
  exact ⟨hid.2.2, readU16_eq_ok.mp hflags, hresponse, hcode, hwhole, hexpected,
    readU16_eq_ok.mp hcount, hquestion, readU16_eq_ok.mp hanswers⟩

section

variable {records : List Record} {parsed : Parsed}

section

variable (h : Collects packet requestedType records Parsed.new parsed)

include h

lemma Collects.addressesOf (name : Str) :
    addressesOf parsed.addresses name = addressesOwned packet requestedType records name := by
  have haddresses := h.addresses
  rw [Parsed.new, nil_append] at haddresses
  rw [haddresses, Dns.addressesOf, addressesOwned]
  clear haddresses h
  induction records with
  | nil => rfl
  | cons record records ih =>
    cases haddress : record.address packet requestedType with
    | none => by_cases howned : eqIgnoreCase record.owner name = true <;> simp [haddress, howned, ih]
    | some address =>
      by_cases howned : eqIgnoreCase record.owner name = true <;> simp [haddress, howned, ih]

lemma Collects.leads
    {name next : Str} (hleaves : Leaves parsed.addresses parsed.cnames name next) :
    Leads packet requestedType records name next := by
  have haddresses := h.addresses
  have hcnames := h.cnames
  refine ⟨?_, ?_, ?_⟩
  · intro record hrecord howned
    cases haddress : record.address packet requestedType with
    | none => rfl
    | some address =>
      refine absurd howned (hleaves.no_address ⟨record.owner, address⟩ ?_)
      rw [haddresses]
      exact mem_filterMap.mpr ⟨record, hrecord, by rw [haddress]; rfl⟩
  · obtain ⟨cname, hmem, howned, hnext⟩ := hleaves.leads
    rw [hcnames] at hmem
    obtain ⟨record, hrecord, hcname⟩ := mem_filterMap.mp hmem
    split at hcname
    · next halias =>
      obtain ⟨target, htarget, rfl⟩ := Option.map_eq_some_iff.mp hcname
      exact ⟨record, hrecord, howned, halias, hnext ▸ htarget⟩
    · cases hcname
  · intro record hrecord howned halias
    obtain ⟨target, htarget⟩ := h.targets record hrecord halias
    refine ⟨target, htarget, hleaves.same ⟨record.owner, target⟩ ?_ howned⟩
    rw [hcnames]
    refine mem_filterMap.mpr ⟨record, hrecord, ?_⟩
    rw [if_pos halias, htarget]
    rfl

end

end

/-- What a response says that yields addresses: it is the answer to the query, and there are names,
at most nine and no two alike, from the one asked for along the aliases to one that owns the
addresses. -/
structure Resolved (packet : Bytes) (requestedType : DnsRecordType) (asked : Str)
    (records : List Record) (answer : ConfiguredDnsAddresses) (names : List Str) (last : Str) :
    Prop where
  first : names.head? = some asked
  depth : names.length ≤ maxDnsAliasDepth + 1
  apart : names.Pairwise fun a b => ¬eqIgnoreCase a b = true
  chain : names.IsChain (Leads packet requestedType records)
  ends : names.getLast? = some last
  addresses : answer.addresses = addressesOwned packet requestedType records last
  ttl : (records.map Record.seconds).min? = some answer.ttl

lemma Collects.resolved {records : List Record} {parsed : Parsed} {asked : Str}
    {answer : ConfiguredDnsAddresses}
    (h : Collects packet requestedType records Parsed.new parsed)
    (hanswer : resolveParsedDnsAnswers asked parsed.addresses parsed.cnames
      (parsed.responseTtl.getD dnsDefaultTtl) = .ok (.answer (.addresses answer))) :
    ∃ names last, Resolved packet requestedType asked records answer names last := by
  obtain ⟨rest, last, hpath⟩ := resolveFrom_spec hanswer
  have haddresses : answer.addresses = addressesOwned packet requestedType records last := by
    rw [hpath.gives]
    exact h.addressesOf last
  refine ⟨asked :: rest, last, rfl, Nat.succ_le_succ hpath.depth, ?_,
    hpath.chain.imp fun _ _ hleaves => h.leads hleaves, hpath.ends, haddresses, ?_⟩
  · exact List.Pairwise.cons (fun new hnew => hpath.fresh asked mem_cons_self new hnew)
      hpath.apart
  have hne : records ≠ [] := by
    rintro rfl
    exact hpath.found haddresses
  obtain ⟨record, others, rfl⟩ := exists_cons_of_ne_nil hne
  have httl : parsed.responseTtl = ((record :: others).map Record.seconds).min? := h.ttl
  rw [hpath.gives, httl]
  rfl

/-- For every query that was built and every response, the parser comes to an end without a panic.
If it yields addresses, the response has the id of the query and its question, is a response and
whole and without an error, and its records say what `Resolved` lists. -/
theorem dns_answers_stay_on_the_chain {domain : Str} {recordType : DnsRecordType} {id : UInt16}
    {edns : Option Bytes} {query : Bytes}
    (hquery : buildDnsQueryWithId domain recordType id edns = .ok query) (packet : Bytes) :
    parseDnsResponse query packet recordType ≠ .error .panic ∧
    ∀ answer, parseDnsResponse query packet recordType = .ok (.answer (.addresses answer)) →
      ∃ question header records names last, Answers query packet question header ∧
        question.name = lower (trimEnd dot domain) ∧
        readRecords packet header.answerCount.toNat header.offset = .ok records ∧
        Resolved packet recordType question.name records answer names last := by
  rw [parseDnsResponse]
  cases hheader : readHeader query packet recordType with
  | error e => exact ⟨by simp [liftIo, bind_error], fun answer h => by cases h⟩
  | ok header =>
    rw [liftIo, bind_ok]
    split
    · exact ⟨by simp [pure, Except.pure], fun answer h => by cases h⟩
    split
    · exact ⟨by simp [pure, Except.pure], fun answer h => by cases h⟩
    next hcode =>
    rw [Classical.not_not] at hcode
    split
    · exact ⟨by simp [pure, Except.pure], fun answer h => by cases h⟩
    next hwhole =>
    rw [Classical.not_not] at hwhole
    have hanswers := readHeader_spec hheader hcode hwhole
    rcases parseRecords_spec header.answerCount.toNat header.offset Parsed.new with
      ⟨e, hfails⟩ | ⟨parsed, records, hparsed, hrecords, hcollects⟩
    · rw [hfails]
      exact ⟨by simp [bind_error], fun answer h => by cases h⟩
    rw [hparsed]
    refine ⟨liftIo_ne_panic _, fun answer h => ?_⟩
    obtain ⟨names, last, hresolved⟩ := hcollects.resolved (liftIo_eq_ok.mp h)
    exact ⟨header.question, header, records, names, last, hanswers,
      name_of_build hquery hanswers.asked, hrecords, hresolved⟩

def sampleQuery : Bytes :=
  [0x12, 0x34, 1, 0, 0, 1, 0, 0, 0, 0, 0, 0, 1, 97, 0, 0, 1, 0, 1]

/-- `a. IN CNAME b.`, `a. CH CNAME c.` and `b. IN A 1.2.3.4`. -/
def chaosResponse : Bytes :=
  [0x12, 0x34, 0x81, 0x80, 0, 1, 0, 3, 0, 0, 0, 0, 1, 97, 0, 0, 1, 0, 1,
   1, 97, 0, 0, 5, 0, 1, 0, 0, 0, 60, 0, 3, 1, 98, 0,
   1, 97, 0, 0, 5, 0, 3, 0, 0, 0, 60, 0, 3, 1, 99, 0,
   1, 98, 0, 0, 1, 0, 1, 0, 0, 0, 60, 0, 4, 1, 2, 3, 4]

theorem answers_to_sampleQuery :
    ∃ question header records names last, Answers sampleQuery chaosResponse question header ∧
      question.name = text "a" ∧
      readRecords chaosResponse header.answerCount.toNat header.offset = .ok records ∧
      Resolved chaosResponse .a question.name records ⟨[.v4 0x01020304], 60⟩ names last := by
  have hbuilt : buildDnsQueryWithId (text "a") .a 0x1234 none = .ok sampleQuery := by
    decide +kernel
  have hparsed : parseDnsResponse sampleQuery chaosResponse .a =
      .ok (.answer (.addresses ⟨[.v4 0x01020304], 60⟩)) := by
    decide +kernel
  exact (dns_answers_stay_on_the_chain hbuilt chaosResponse).2 _ hparsed

/-- The response yields the address of `b`, and `a` owns no address. But of the two CNAME records
that `a` owns, one is of the class CH and leads to `c`. -/
theorem alias_of_another_class : buildDnsQueryWithId (text "a") .a 0x1234 none = .ok sampleQuery ∧
    parseDnsResponse sampleQuery chaosResponse .a =
      .ok (.answer (.addresses ⟨[.v4 0x01020304], 60⟩)) ∧
    ∃ records, readRecords chaosResponse 3 19 = .ok records ∧
      addressesOwned chaosResponse .a records (text "a") = [] ∧
      (∃ record ∈ records, record.recordType = 5 ∧ record.owner = text "a" ∧
        record.target chaosResponse = some (text "b")) ∧
      ∃ record ∈ records, record.recordType = 5 ∧ record.owner = text "a" ∧
        record.target chaosResponse = some (text "c") := by
  refine ⟨by decide +kernel, by decide +kernel,
    [⟨text "a", 5, 1, 60, 32, 35⟩, ⟨text "a", 5, 3, 60, 48, 51⟩, ⟨text "b", 1, 1, 60, 64, 68⟩],
    ?_, ?_, ?_, ?_⟩
  all_goals decide +kernel

end Xray.Dns
