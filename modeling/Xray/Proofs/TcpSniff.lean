import Xray.Sniffing.Tcp

/-!
# What the TCP sniffers say is final

More bytes do not change what was said of a flow, with one exception. The HTTP sniffer reads headers
up to an empty line, but it stops to wait at a line with `\r` alone as well, and goes on to read the
body that follows as headers. What it says of such a request is still an answer when more bytes are
there, but it may be another one.
-/

namespace Xray.Sniffing

open Ascii (text splitAll mem_windows_iff splitAll_append_last splitAll_ne_nil)
open List
open WireName
open Xray.Routing (Engines Target)

variable {E : Engines} {std : Std} {config : InboundSniffingConfig E} {original : Target}
  {p : Bytes}

/-! ## The HTTP sniffer -/

lemma beginsWithMethod_append {methods : List Bytes} {begins : Bool}
    (h : beginsWithMethod p methods = some begins) (q : Bytes) :
    beginsWithMethod (p ++ q) methods = some begins := by
  induction methods with
  | nil => exact h
  | cons method methods ih =>
    rw [beginsWithMethod] at h ⊢
    by_cases hlong : method.length ≤ p.length
    · have htake : (p ++ q).take method.length = p.take method.length :=
        take_append_of_le_length hlong
      have hlong' : method.length ≤ (p ++ q).length := by
        rw [length_append]
        omega
      rw [htake]
      split at h
      · next hbegins => rwa [if_pos ⟨hlong', hbegins.2⟩]
      next hnot =>
      rw [if_neg (by omega)] at h
      rw [if_neg fun hbegins => hnot ⟨hlong, hbegins.2⟩, if_neg (by omega)]
      exact ih h
    · rw [if_neg fun hbegins => hlong hbegins.1, if_pos (by omega)] at h
      cases h

lemma length_of_beginsWithMethod_none {methods : List Bytes}
    (h : beginsWithMethod p methods = none) : ∃ method ∈ methods, p.length < method.length := by
  induction methods with
  | nil => cases h
  | cons method methods ih =>
    rw [beginsWithMethod] at h
    split at h
    · cases h
    split at h
    · next hshort => exact ⟨method, mem_cons_self, hshort⟩
    · obtain ⟨other, hother, hshort⟩ := ih h
      exact ⟨other, mem_cons_of_mem method hother, hshort⟩

/-- Seven bytes are enough to tell. -/
lemma length_lt_of_begins_none (h : beginsWithHttpMethod p = none) : p.length < 7 := by
  obtain ⟨method, hmethod, hshort⟩ := length_of_beginsWithMethod_none h
  simp only [mem_cons, not_mem_nil, or_false] at hmethod
  rcases hmethod with rfl | rfl | rfl | rfl | rfl | rfl | rfl
  all_goals
    refine Nat.lt_of_lt_of_le hshort ?_
    decide

lemma findSubslice_isSome {haystack needle : Bytes} :
    (findSubslice haystack needle).isSome ↔ needle <:+: haystack := by
  rw [findSubslice, findIdx?_isSome, any_eq_true]
  constructor
  · rintro ⟨window, hwindow, heq⟩
    rw [eq_of_beq heq] at hwindow
    exact (mem_windows_iff.mp hwindow).1
  · intro hwithin
    exact ⟨needle, mem_windows_iff.mpr ⟨hwithin, rfl⟩, beq_self_eq_true needle⟩

lemma hasHttpHeaderEnd_append (h : hasHttpHeaderEnd p) (q : Bytes) :
    hasHttpHeaderEnd (p ++ q) := by
  have hwithin : p <:+: p ++ q := (prefix_append p q).isInfix
  rw [hasHttpHeaderEnd, Bool.or_eq_true, findSubslice_isSome, findSubslice_isSome] at h ⊢
  exact h.imp (fun h => h.trans hwithin) fun h => h.trans hwithin

def isBadHost (std : Std) (line : Bytes) : Bool :=
  match line.findIdx? (· == 58) with
  | none => false
  | some colon =>
    goLowercase std (goString (line.take colon)) = "host".toList &&
      (xrayParseHost (Text.trim (goString (line.drop (colon + 1))))).isNone

/-- One of the lines ends the reading: it is empty, or a `Host` that does not parse. -/
def stopsReading (std : Std) (lines : List Bytes) : Bool :=
  lines.any fun line => line.isEmpty || isBadHost std line

def isSilent (lines : List Bytes) : Bool := (lines.takeWhile (· ≠ [])).all (58 ∉ ·)

lemma readHeaders_silent {lines : List Bytes} (h : isSilent lines) (host : Option Text)
    (attributes : Option Attributes) :
    readHeaders std lines host attributes = .all host attributes := by
  induction lines with
  | nil => rfl
  | cons line lines ih =>
    rw [readHeaders]
    split
    · rfl
    next hline =>
    rw [isSilent, takeWhile_cons_of_pos (by simpa using hline), all_cons, Bool.and_eq_true,
      decide_eq_true_eq] at h
    have hnone : line.findIdx? (· == 58) = none :=
      findIdx?_eq_none_iff.mpr fun b hb => beq_false_of_ne fun heq => h.1 (heq ▸ hb)
    rw [hnone]
    exact ih h.2

/-- Nothing is read behind the line that ends the reading, nor in lines without a colon. -/
lemma readHeaders_append {lines more : List Bytes}
    (h : stopsReading std lines = true ∨ isSilent more = true) (host : Option Text)
    (attributes : Option Attributes) :
    readHeaders std (lines ++ more) host attributes = readHeaders std lines host attributes := by
  induction lines generalizing host attributes with
  | nil => exact readHeaders_silent (h.resolve_left (by simp [stopsReading])) host attributes
  | cons line lines ih =>
    rw [stopsReading, any_cons, Bool.or_eq_true] at h
    rw [cons_append, readHeaders, readHeaders]
    by_cases hempty : line = []
    · rw [if_pos hempty, if_pos hempty]
    have hrest : isBadHost std line = false →
        stopsReading std lines = true ∨ isSilent more = true := by
      intro hgood
      rw [hgood, Bool.or_false, List.isEmpty_iff] at h
      exact h.imp_left fun h => h.resolve_left hempty
    rw [if_neg hempty, if_neg hempty]
    rw [isBadHost] at hrest
    split
    · next hcolon =>
      rw [hcolon] at hrest
      exact ih (hrest rfl) host attributes
    next colon hcolon =>
    rw [hcolon] at hrest
    dsimp only at hrest ⊢
    split
    · next hname =>
      split
      · next named hnamed =>
        rw [hnamed] at hrest
        exact ih (hrest (by simp)) _ _
      · rfl
    · next hname =>
      rw [decide_eq_false hname] at hrest
      exact ih (hrest rfl) _ _

/-- The lines of the payload that have come to their end, behind the request line. -/
def headerLines (payload : Bytes) : List Bytes := (splitAll 10 payload).dropLast.tail

/-- The line that the payload has begun, and which more bytes go on with. -/
def unfinishedLine (payload : Bytes) : Bytes := (splitAll 10 payload).getLastD []

/-- With more bytes there is no other header: one of the lines that are there ends the reading, or
neither the unfinished line nor those that it becomes have a colon, up to an empty one. -/
def Settled (std : Std) (p q : Bytes) : Prop :=
  stopsReading std (headerLines p) = true ∨ isSilent [unfinishedLine p] = true ∧
    isSilent (splitAll 10 (unfinishedLine p ++ q)) = true

lemma exists_line_of_headerEnd (h : hasHttpHeaderEnd p) :
    ∃ requestLine rest, splitAll 10 p = requestLine :: splitAll 10 rest := by
  rw [hasHttpHeaderEnd, Bool.or_eq_true, findSubslice_isSome, findSubslice_isSome] at h
  have hmem : 10 ∈ p := h.elim (fun h => h.subset (by simp)) fun h => h.subset (by simp)
  obtain ⟨requestLine, rest, rfl, hnot⟩ := eq_append_cons_of_mem hmem
  exact ⟨requestLine, rest, Ascii.splitAll_append hnot rest⟩

/-- A request whose headers are settled reads the same with more bytes. -/
lemma sniffHttpRequest_append {q : Bytes} (hended : hasHttpHeaderEnd p) (h : Settled std p q)
    (recordAttributes : Bool) :
    sniffHttpRequest std (p ++ q) recordAttributes = sniffHttpRequest std p recordAttributes := by
  obtain ⟨requestLine, rest, hsplit⟩ := exists_line_of_headerEnd hended
  obtain ⟨lines, last, hlines⟩ := eq_nil_or_concat (splitAll 10 rest) |>.resolve_left
    (splitAll_ne_nil 10 rest)
  rw [concat_eq_append] at hlines
  have hp : splitAll 10 p = (requestLine :: lines) ++ [last] := by rw [hsplit, hlines, cons_append]
  rw [Settled, headerLines, unfinishedLine, hp, dropLast_concat, getLastD_concat, tail_cons] at h
  rw [sniffHttpRequest, sniffHttpRequest, splitAll_append_last hp, hp]
  dsimp only [cons_append, tail_cons, headD_cons]
  rw [readHeaders_append (h.imp_right And.right), readHeaders_append (h.imp_right And.left)]

/-! ## The other sniffers -/

lemma tlsRecord_append (h : tlsRecord p ≠ .incomplete) (q : Bytes) :
    tlsRecord (p ++ q) = tlsRecord p := by
  rw [tlsRecord] at h ⊢
  rw [tlsRecord]
  split at h
  · exact absurd rfl h
  next hlong =>
  have hfirst : (p ++ q)[0]? = p[0]? := getElem?_append_left (by omega)
  have hsecond : (p ++ q)[1]? = p[1]? := getElem?_append_left (by omega)
  have hfive : (p ++ q).take 5 = p.take 5 := take_append_of_le_length (by omega)
  rw [if_neg (by rw [length_append]; omega), if_neg hlong, hfirst, hsecond, hfive]
  split at h
  · next hnot => rw [if_pos hnot, if_pos hnot]
  next htls =>
  rw [if_neg htls, if_neg htls]
  dsimp only at h ⊢
  split at h
  · exact absurd rfl h
  · next hwhole => rw [if_neg (by rw [length_append]; omega), if_neg hwhole]

lemma slice?_append_left {start stop : Nat} (h : stop ≤ p.length) (q : Bytes) :
    slice? (p ++ q) start stop = slice? p start stop := by
  have hstop : stop ≤ (p ++ q).length := by
    rw [length_append]
    omega
  rw [slice?, slice?, take_append_of_le_length h]
  by_cases hle : start ≤ stop
  · rw [if_pos ⟨hle, hstop⟩, if_pos ⟨hle, h⟩]
  · rw [if_neg fun hin => hle hin.1, if_neg fun hin => hle hin.1]

lemma tlsRecord_complete (h : tlsRecord p = .complete) :
    ∃ length : UInt16, u16? p 3 = some length ∧ 5 + length.toNat ≤ p.length := by
  rw [tlsRecord] at h
  split at h
  · cases h
  next hlong =>
  split at h
  · cases h
  dsimp only at h
  split at h
  · cases h
  next hwhole =>
  refine ⟨UInt16.ofNat (Bytes.ofBe ((p.take 5).drop 3)), ?_, ?_⟩
  · rw [u16?, slice?, if_pos ⟨by omega, by omega⟩]
    rfl
  · rw [UInt16.toNat_ofNat']
    omega

lemma sniffTlsClientHelloSni_append (h : tlsRecord p = .complete) (q : Bytes) :
    (sniffTlsClientHelloSni std (p ++ q)).toOption = (sniffTlsClientHelloSni std p).toOption := by
  obtain ⟨length, hlength, hwhole⟩ := tlsRecord_complete h
  have hlength' : u16? (p ++ q) 3 = some length := by
    rw [u16?, slice?_append_left (by omega)]
    exact hlength
  have hfirst : (p ++ q)[0]? = p[0]? := getElem?_append_left (by omega)
  have hslice : slice? (p ++ q) 5 (5 + length.toNat) = slice? p 5 (5 + length.toNat) :=
    slice?_append_left hwhole q
  have hlong : p.length ≤ (p ++ q).length := by
    rw [length_append]
    omega
  rw [sniffTlsClientHelloSni, sniffTlsClientHelloSni, hfirst, hlength, hlength']
  by_cases hnine : p.length < 9
  · -- the record is too short for a handshake, so that nothing is found in it
    split
    · rfl
    cases p[0]? with
    | none => rfl
    | some kind =>
      show Except.toOption (if kind ≠ 22 then _ else _) = _
      split
      · rfl
      show Except.toOption (if (p ++ q).length < 5 + length.toNat then _ else _) = _
      rw [if_neg (by omega), hslice, slice?, if_pos ⟨by omega, hwhole⟩]
      show Except.toOption (sniffTlsClientHelloHandshakeSni std _) = _
      rw [sniffTlsClientHelloHandshakeSni, if_pos (by rw [length_slice hwhole]; omega)]
  · rw [if_neg hnine, if_neg (by omega)]
    cases p[0]? with
    | none => rfl
    | some kind =>
      show Except.toOption (if kind ≠ 22 then _ else _) = Except.toOption (if kind ≠ 22 then _ else _)
      split
      · rfl
      show Except.toOption (if (p ++ q).length < 5 + length.toNat then _ else _) =
        Except.toOption (if p.length < 5 + length.toNat then _ else _)
      rw [if_neg (by omega), if_neg (by omega), hslice]

lemma isBittorrentHandshake_append (h : 20 ≤ p.length) (q : Bytes) :
    isBittorrentHandshake (p ++ q) = isBittorrentHandshake p := by
  have hfirst : (p ++ q)[0]? = p[0]? := getElem?_append_left (by omega)
  have htwenty : (p ++ q).take 20 = p.take 20 := take_append_of_le_length (by omega)
  have hlong : 20 ≤ (p ++ q).length := by
    rw [length_append]
    omega
  rw [isBittorrentHandshake, isBittorrentHandshake, hfirst, htwenty, decide_eq_true hlong,
    decide_eq_true h]

lemma nine_le_of_sni {domain : Text} (h : (sniffTlsClientHelloSni std p).toOption = some domain) :
    9 ≤ p.length := by
  refine Nat.le_of_not_lt fun hshort => ?_
  rw [sniffTlsClientHelloSni, if_pos hshort] at h
  cases h

lemma tlsRecord_of_bittorrent (h : isBittorrentHandshake p) : tlsRecord p = .notTls := by
  rw [isBittorrentHandshake, Bool.and_eq_true, Bool.and_eq_true, decide_eq_true_eq] at h
  obtain ⟨⟨hlong, hfirst⟩, -⟩ := h
  have hfirst : p[0]? = some 19 := eq_of_beq hfirst
  rw [tlsRecord, if_neg (by omega), if_pos (.inl (by rw [hfirst]; decide))]

def sniffTls (std : Std) (payload : Bytes) : Option Text :=
  if tlsRecord payload = .complete then (sniffTlsClientHelloSni std payload).toOption else none

/-- The ways in which the two sniffers come to an end. -/
inductive Ends (std : Std) (config : InboundSniffingConfig E) (original : Target) (payload : Bytes)
    (undecided : Bool) : Option Sniffed → Prop where
  | tls {domain : Text} (hsni : sniffTls std payload = some domain) :
      Ends std config original payload undecided
        (some ⟨.tls, overrideTarget config original domain .tls⟩)
  | bittorrent (hsni : sniffTls std payload = none) (hlong : 20 ≤ payload.length)
      (hhandshake : isBittorrentHandshake payload = true) :
      Ends std config original payload undecided (some ⟨.bittorrent, none⟩)
  | nothing (hsni : sniffTls std payload = none) (hlong : 20 ≤ payload.length)
      (hhandshake : isBittorrentHandshake payload = false)
      (hrecord : tlsRecord payload ≠ .incomplete) (hdecided : undecided = false) :
      Ends std config original payload undecided none

lemma sniffOthers_eq_done {undecided : Bool} {attributes : Option Attributes} {x : TcpSniffed} :
    sniffOthers std config original p false undecided attributes = .done x ↔
      x.attributes = attributes ∧ Ends std config original p undecided x.sniffed := by
  rw [sniffOthers, ← sniffTls]
  cases hsni : sniffTls std p with
  | some domain =>
    constructor
    · intro h
      cases h
      exact ⟨rfl, .tls hsni⟩
    rintro ⟨rfl, hends⟩
    obtain ⟨sniffed, attributes⟩ := x
    cases hends with
    | tls hsni' =>
      cases hsni.symm.trans hsni'
      rfl
    | bittorrent hsni' | nothing hsni' => cases hsni.symm.trans hsni'
  | none =>
    dsimp only
    by_cases hlong : 20 ≤ p.length
    · cases hhandshake : isBittorrentHandshake p with
      | true =>
        rw [if_pos ⟨hlong, rfl⟩]
        constructor
        · intro h
          cases h
          exact ⟨rfl, .bittorrent hsni hlong hhandshake⟩
        rintro ⟨rfl, hends⟩
        obtain ⟨sniffed, attributes⟩ := x
        cases hends with
        | tls hsni' => cases hsni.symm.trans hsni'
        | bittorrent => rfl
        | nothing _ _ hnot => cases hhandshake.symm.trans hnot
      | false =>
        rw [if_neg fun h => absurd h.2 (by simp)]
        constructor
        · intro h
          split at h
          · cases h
          next hdecided =>
          simp at hdecided
          cases h
          exact ⟨rfl, .nothing hsni hlong hhandshake hdecided.1.2 hdecided.1.1⟩
        · rintro ⟨rfl, hends⟩
          obtain ⟨sniffed, attributes⟩ := x
          cases hends with
          | tls hsni' => cases hsni.symm.trans hsni'
          | bittorrent _ _ hhandshake' => cases hhandshake.symm.trans hhandshake'
          | nothing _ _ _ hrecord hdecided =>
            simp [hrecord, hdecided, hlong]
    · rw [if_neg fun h => hlong h.1]
      constructor
      · intro h
        rw [if_pos (by simp; omega)] at h
        cases h
      rintro ⟨rfl, hends⟩
      obtain ⟨sniffed, attributes⟩ := x
      cases hends with
      | tls hsni' => cases hsni.symm.trans hsni'
      | bittorrent _ hlong' | nothing _ hlong' => exact absurd hlong' hlong

lemma sniffTls_append (h : tlsRecord p ≠ .incomplete) (q : Bytes) :
    sniffTls std (p ++ q) = sniffTls std p := by
  rw [sniffTls, sniffTls, tlsRecord_append h]
  split
  · next hcomplete => exact sniffTlsClientHelloSni_append hcomplete q
  · rfl

/-- The two sniffers look at bytes that are there. -/
lemma Ends.append {undecided : Bool} {sniffed : Option Sniffed}
    (h : Ends std config original p undecided sniffed) (q : Bytes) :
    9 ≤ p.length ∧ Ends std config original (p ++ q) false sniffed := by
  have hlong : 20 ≤ p.length → 20 ≤ (p ++ q).length := fun h => by
    rw [length_append]
    omega
  cases h with
  | tls hsni =>
    have hcomplete : tlsRecord p = .complete := by
      rw [sniffTls] at hsni
      split at hsni
      · next hcomplete => exact hcomplete
      · cases hsni
    have hlength : 9 ≤ p.length := by
      rw [sniffTls, if_pos hcomplete] at hsni
      exact nine_le_of_sni hsni
    refine ⟨hlength, .tls ?_⟩
    rw [sniffTls_append (by rw [hcomplete]; simp)]
    exact hsni
  | bittorrent hsni hlength hhandshake =>
    have hnot := tlsRecord_of_bittorrent hhandshake
    refine ⟨by omega, .bittorrent ?_ (hlong hlength) ?_⟩
    · rw [sniffTls_append (by rw [hnot]; simp)]
      exact hsni
    · rw [isBittorrentHandshake_append hlength]
      exact hhandshake
  | nothing hsni hlength hhandshake hrecord hdecided =>
    refine ⟨by omega, .nothing ?_ (hlong hlength) ?_ ?_ rfl⟩
    · rw [sniffTls_append hrecord]
      exact hsni
    · rw [isBittorrentHandshake_append hlength]
      exact hhandshake
    · rw [tlsRecord_append hrecord]
      exact hrecord

/-- What is said of a request, given what the HTTP sniffer reads. -/
def sniffRequest (std : Std) (config : InboundSniffingConfig E) (original : Target)
    (payload : Bytes) (request : HttpRequest) : TcpSniff :=
  match request.host with
  | some host =>
    .done ⟨some ⟨.http1, (normalizeHost std host).bind fun domain =>
      overrideTarget config original domain .http⟩, request.attributes⟩
  | none => sniffOthers std config original payload false payload.isEmpty request.attributes

lemma isEmpty_append (h : 9 ≤ p.length) (q : Bytes) : (p ++ q).isEmpty = false := by
  cases p with
  | nil => simp at h
  | cons b p => rfl

/-- A request stays one, and what is said of it is the same if it reads the same. -/
lemma sniffRequest_append {request : HttpRequest} {x : TcpSniffed}
    (h : sniffRequest std config original p request = .done x) (q : Bytes) :
    sniffRequest std config original (p ++ q) request = .done x := by
  rw [sniffRequest] at h ⊢
  split at h
  · exact h
  obtain ⟨hattributes, hends⟩ := sniffOthers_eq_done.mp h
  obtain ⟨hlong, hends⟩ := hends.append q
  rw [isEmpty_append hlong, sniffOthers_eq_done]
  exact ⟨hattributes, hends⟩

/-- The verdict on bytes stays the same when more of them are there, if these are not read as other
headers: if the flow does not begin like a request, or its headers are settled. -/
theorem tcp_verdicts_are_final {q : Bytes} {recordAttributes : Bool} {x : TcpSniffed}
    (h : sniffTcpInitialPayload std config original p false recordAttributes = .done x)
    (hfinal : beginsWithHttpMethod p = some true → Settled std p q) :
    sniffTcpInitialPayload std config original (p ++ q) false recordAttributes = .done x := by
  rw [sniffTcpInitialPayload] at h ⊢
  split at h
  · next hmetadata => rwa [if_pos hmetadata]
  next hmetadata =>
  rw [if_neg hmetadata]
  cases hbegins : beginsWithHttpMethod p with
  | none =>
    rw [hbegins] at h
    obtain ⟨-, hends⟩ := sniffOthers_eq_done.mp h
    have hlong := (hends.append q).1
    have hshort := length_lt_of_begins_none hbegins
    omega
  | some begins =>
    have hbegins' : beginsWithHttpMethod (p ++ q) = some begins :=
      beginsWithMethod_append hbegins q
    rw [hbegins] at h
    rw [hbegins']
    cases begins with
    | true =>
      dsimp only at h ⊢
      split at h
      · cases h
      next hended =>
      have hended : hasHttpHeaderEnd p = true := by simpa using hended
      rw [if_neg (by simp [hasHttpHeaderEnd_append hended q]),
        sniffHttpRequest_append hended (hfinal hbegins)]
      exact sniffRequest_append h q
    | false =>
      obtain ⟨hattributes, hends⟩ := sniffOthers_eq_done.mp h
      obtain ⟨hlong, hends⟩ := hends.append q
      rw [isEmpty_append hlong, sniffOthers_eq_done]
      exact ⟨hattributes, hends⟩

/-! ## A request with a body -/

def sampleEngines : Engines :=
  ⟨Unit, Unit, fun _ => .ok (), fun _ _ => false, fun _ _ => false⟩

def sampleStd : Std := ⟨fun _ => false, fun c => [c]⟩

def sampleConfig : InboundSniffingConfig sampleEngines :=
  ⟨[.http, .tls], false, true, {}, ⟨⟨[], []⟩, ⟨[], []⟩⟩⟩

def sampleTarget : Target := ⟨.ip (.v4 0x01020304), 80, .tcp⟩

def plainRequest : Bytes := "GET / HTTP/1.1\nHost: a\n\n".toUTF8.toList

def crlfRequest : Bytes := "GET / HTTP/1.1\r\nHost: a\r\n\r\n".toUTF8.toList

def requestBody : Bytes := "Host: b\r\n".toUTF8.toList

def plainBody : Bytes := "a=b\r\n\nHost: b".toUTF8.toList

def http1 (domain : Text) : TcpSniff :=
  .done ⟨some ⟨.http1, some ⟨⟨.domain domain.toUtf8, 80, .tcp⟩, sampleTarget, .http⟩⟩, none⟩

/-- An empty line settles the headers whatever follows; behind `\r` alone the body does not change
them if it has no colon. -/
theorem request_verdicts_are_final :
    sniffTcpInitialPayload sampleStd sampleConfig sampleTarget (plainRequest ++ requestBody) false
      false = http1 ['a'] ∧
    sniffTcpInitialPayload sampleStd sampleConfig sampleTarget (crlfRequest ++ plainBody) false
      false = http1 ['a'] :=
  ⟨tcp_verdicts_are_final (by decide +kernel) fun _ => .inl (by decide +kernel),
    tcp_verdicts_are_final (by decide +kernel) fun _ => .inr (by decide +kernel)⟩

/-- The sniffer has made up its mind when the headers end, and takes a line of the body for a header
when it is there as well. -/
theorem body_changes_the_verdict :
    sniffTcpInitialPayload sampleStd sampleConfig sampleTarget crlfRequest false false =
      http1 ['a'] ∧
    sniffTcpInitialPayload sampleStd sampleConfig sampleTarget (crlfRequest ++ requestBody) false
      false = http1 ['b'] ∧
    http1 ['a'] ≠ http1 ['b'] :=
  ⟨by decide +kernel, by decide +kernel, by decide +kernel⟩

end Xray.Sniffing
