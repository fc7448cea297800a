import Xray.Proofs.HttpBody
import Xray.Proofs.HttpHeaders

/-!
# What is forwarded of a request

The head that is sent on has one line for the host, one for the connection, at most one for
the length or the coding of the body, and the other fields under their canonical names. Since
no spelling of a canonical name is another one, nothing else in the head reads as those lines,
unless there is a space before its colon: such a name is kept as it came.
-/

namespace Xray.Http

open Ascii Bytes Fallible Numeral List HttpHeaders PlainHttpRequest RequestUrl

/-! ## Reading a header block -/

variable {line client : Bytes} {headers headers' : HttpHeaders} {version : Nat × Nat}
  {value : Bytes}

lemma validName_of_takeField {name : Bytes}
    (hsplit : splitOnce 58 (trimBlank line) = some (name, value)) (hne : name ≠ [])
    (hall : name.all (fun b => isTokenByte b || b == 32) = true) : ValidName name where
  ne_nil := hne
  bytes := by
    intro b hb
    have := all_eq_true.mp hall b hb
    rw [Bool.or_eq_true, beq_iff_eq] at this
    exact this
  first := by
    intro hfirst
    obtain ⟨htrim, -⟩ := splitOnce_eq_some hsplit
    obtain ⟨c, name, rfl⟩ := exists_cons_of_ne_nil hne
    obtain rfl : c = 32 := Option.some.inj hfirst
    -- The name begins the trimmed line, and that does not begin with a space.
    have hself : trim isBlank (trimBlank line) = trimBlank line := trim_trim fun b hb => hb
    rw [htrim] at hself
    have hshort := congrArg List.length hself
    rw [cons_append, trim_cons (by rfl)] at hshort
    have := (trim_sublist isBlank (name ++ 58 :: value)).length_le
    simp only [length_cons] at hshort
    omega

lemma canonical_of_takeLine {block block' : HeaderBlock} {keep : Bool} {last last' : Last}
    (hblock : block.headers.Canonical) (h : block.takeLine keep last line = .ok (block', last')) :
    block'.headers.Canonical := by
  rw [HeaderBlock.takeLine] at h
  split at h
  · obtain ⟨found, hcontinue, h⟩ := bind_eq_ok.mp h
    cases h
    cases last with
    | nothing => cases hcontinue
    | field name =>
      cases hcontinue
      exact hblock.extendLast _ _
    | proxyAuthorization | ignored =>
      cases hcontinue
      exact hblock
  next hblank =>
  rw [HeaderBlock.takeField] at h
  split at h
  · cases h
  next name value hsplit =>
  split at h
  · cases h
  next hname =>
  rw [not_or, Bool.not_eq_true, Bool.not_eq_false'] at hname
  have hvalid := validName_of_takeField hsplit hname.1 hname.2
  split at h
  · split at h <;> cases h <;> exact hblock
  · cases h
    exact hblock.add _ hvalid.canonicalHeaderKey

variable {input rest : Bytes}

lemma readHeaderLines_spec {keep : Bool} {block block' : HeaderBlock} {last : Last}
    (hblock : block.headers.Canonical)
    (h : readHeaderLines keep block last input = .ok (block', rest)) :
    (∃ bytes, input = bytes ++ rest ∧ LineBlock bytes) ∧ block'.headers.Canonical := by
  fun_induction readHeaderLines keep block last input with
  | case1 => cases h
  | case2 block last input behind hline =>
    cases h
    obtain ⟨raw, rfl, hraw⟩ := readLine_eq_ok.mp hline
    exact ⟨⟨raw ++ [10], by simp, .blank hraw⟩, hblock⟩
  | case3 block last input line behind hline hne ih =>
    obtain ⟨raw, rfl, hraw⟩ := readLine_eq_ok.mp hline
    obtain ⟨⟨next, last'⟩, htake, h⟩ := bind_eq_ok.mp h
    obtain ⟨⟨bytes, rfl, hbytes⟩, hcanonical⟩ :=
      ih _ _ (canonical_of_takeLine hblock htake) h
    exact ⟨⟨raw ++ 10 :: bytes, by simp, .line hraw hne hbytes⟩, hcanonical⟩

/-! ## Codings and lengths -/

lemma orMalformed_eq_ok {α : Type} {x : Except Unit α} {a : α} :
    orMalformed x = .ok a ↔ x = .ok a := by
  cases x with
  | error e => simp [orMalformed]
  | ok b => simp [orMalformed]

lemma canonical_fixPragmaCacheControl (h : headers.Canonical) :
    (fixPragmaCacheControl headers).Canonical := by
  rw [fixPragmaCacheControl]
  split
  · exact h.set _ (.of_token (by decide) (by decide))
  · exact h

lemma values_fixPragmaCacheControl (headers : HttpHeaders) {name : Str}
    (hname : canonicalHeaderKey name ≠ text "Cache-Control") :
    (fixPragmaCacheControl headers).values name = headers.values name := by
  rw [fixPragmaCacheControl]
  split
  · exact headers.values_set_of_ne _ hname
  · rfl

/-- HTTP/1.1 or later. -/
def hasCodings (version : Nat × Nat) : Prop := ¬(version.1 < 1 ∨ version.1 = 1 ∧ version.2 < 1)

variable {chunked : Bool}

lemma transferIsChunked_spec (h : transferIsChunked headers version = .ok (chunked, headers')) :
    (headers.Canonical → headers'.Canonical) ∧
    headers'.values (text "Content-Length") = headers.values (text "Content-Length") ∧
    (chunked ∧ hasCodings version ∧ isChunkedCoding (headers.values (text "Transfer-Encoding")) ∨
      chunked = false ∧
        (headers.values (text "Transfer-Encoding") = [] ∨ ¬hasCodings version)) := by
  rw [transferIsChunked] at h
  split at h
  · next hnil =>
    cases h
    exact ⟨id, rfl, .inr ⟨rfl, .inl hnil⟩⟩
  have hremove : (headers.remove (text "Transfer-Encoding")).values (text "Content-Length") =
      headers.values (text "Content-Length") := headers.values_remove_of_ne (by decide)
  split at h
  · next hversion =>
    cases h
    exact ⟨fun hc => hc.remove _, hremove, .inr ⟨rfl, .inr (not_not_intro hversion)⟩⟩
  next hversion =>
  split at h
  · next hcoding =>
    cases h
    exact ⟨fun hc => hc.remove _, hremove, .inl ⟨rfl, hversion, hcoding⟩⟩
  · cases h

lemma agreedContentLength_spec {declared : Option Bytes}
    (h : agreedContentLength headers = .ok (declared, headers')) :
    (headers.Canonical → headers'.Canonical) ∧
    (∀ value ∈ headers.values (text "Content-Length"), declared = some (trimAsciiSpace value)) ∧
    (headers.values (text "Content-Length") = [] → declared = none) := by
  rw [agreedContentLength] at h
  split at h
  · next hnil =>
    cases h
    rw [hnil]
    exact ⟨id, fun value hvalue => (by cases hvalue), fun _ => rfl⟩
  next first others hvalues =>
  dsimp only at h
  split at h
  · cases h
  next hagree =>
  cases h
  refine ⟨fun hc => ?_, fun value hvalue => ?_, fun hnil => ?_⟩
  · split
    · exact hc
    · exact hc.set _ (.of_token (by decide) (by decide))
  · rw [hvalues] at hvalue
    rcases mem_cons.mp hvalue with rfl | hvalue
    · rfl
    rw [Bool.not_eq_true, any_eq_false] at hagree
    have hsame := hagree value hvalue
    rw [bne_iff_ne, not_not] at hsame
    rw [hsame]
  · rw [hvalues] at hnil
    cases hnil

lemma fixLength_request {method : Str} {length : Int}
    (h : fixLength headers false 200 method chunked = .ok (length, headers')) :
    (headers.Canonical → headers'.Canonical) ∧
    (∀ value ∈ headers.values (text "Content-Length"), ∃ n : Nat,
      parseContentLength (trimAsciiSpace value) = .ok n ∧ (chunked = false → length = n)) ∧
    (headers.values (text "Content-Length") = [] → chunked = false → length = 0) := by
  obtain ⟨⟨declared, agreed⟩, hagreed, h⟩ := bind_eq_ok.mp h
  obtain ⟨hcanonical, hvalues, hnone⟩ := agreedContentLength_spec hagreed
  obtain ⟨parsed, hparsed, h⟩ := bind_eq_ok.mp h
  have hlengths : ∀ value ∈ headers.values (text "Content-Length"), ∃ n,
      parseContentLength (trimAsciiSpace value) = .ok n ∧ parsed = some n := by
    intro value hvalue
    rw [hvalues value hvalue] at hparsed
    obtain ⟨n, hn, hparsed⟩ := bind_eq_ok.mp hparsed
    cases hparsed
    exact ⟨n, hn, rfl⟩
  have hnone : headers.values (text "Content-Length") = [] → parsed = none := by
    intro hnil
    rw [hnone hnil] at hparsed
    cases hparsed
    rfl
  rw [if_neg (by simp [bodyAllowed])] at h
  split at h
  · next hchunked =>
    cases h
    refine ⟨fun hc => (hcanonical hc).remove _, fun value hvalue => ?_, ?_⟩
    · obtain ⟨n, hn, -⟩ := hlengths value hvalue
      exact ⟨n, hn, fun hfalse => absurd hfalse (by simp [hchunked])⟩
    · exact fun _ hfalse => absurd hfalse (by simp [hchunked])
  split at h
  · next n =>
    cases h
    refine ⟨hcanonical, fun value hvalue => ?_, fun hnil => ?_⟩
    · obtain ⟨m, hm, hsome⟩ := hlengths value hvalue
      cases hsome
      exact ⟨n, hm, fun _ => rfl⟩
    · cases hnone hnil
  · cases h
    refine ⟨fun hc => (hcanonical hc).remove _, fun value hvalue => ?_, fun _ _ => rfl⟩
    obtain ⟨m, hm, hsome⟩ := hlengths value hvalue
    cases hsome

/-- What the fields of a request say about its body. -/
def Declares (headers : HttpHeaders) (version : Nat × Nat) : HttpBody → Prop
  | .chunked =>
    hasCodings version ∧ isChunkedCoding (headers.values (text "Transfer-Encoding")) = true
  | .length n =>
    (headers.values (text "Transfer-Encoding") = [] ∨ ¬hasCodings version) ∧
    headers.values (text "Content-Length") ≠ [] ∧
    ∀ value ∈ headers.values (text "Content-Length"),
      parseContentLength (trimAsciiSpace value) = .ok n
  | .none =>
    (headers.values (text "Transfer-Encoding") = [] ∨ ¬hasCodings version) ∧
    ∀ value ∈ headers.values (text "Content-Length"),
      parseContentLength (trimAsciiSpace value) = .ok 0
  | .untilClose => False

lemma parseRequestLine_spec {found : RequestLine} (h : parseRequestLine line = .ok found) :
    line ≠ [] ∧ found.method ≠ [] ∧ found.method.all isTokenByte ∧
      ∀ b ∈ found.target, 32 < b.toNat := by
  rw [parseRequestLine] at h
  split at h
  · cases h
  split at h
  · cases h
  next method rest hmethod =>
  obtain ⟨rfl, -⟩ := splitOnce_eq_some hmethod
  split at h
  · cases h
  next target version htarget =>
  obtain ⟨-, hspace⟩ := splitOnce_eq_some htarget
  split at h
  · cases h
  split at h
  · cases h
  next hvalid =>
  cases h
  simp only [not_or, Bool.not_eq_true, Bool.not_eq_false', any_eq_false,
    Bool.or_eq_true, decide_eq_true_eq] at hvalid
  obtain ⟨hne, htoken, hcontrol⟩ := hvalid
  refine ⟨by simp, hne, htoken, fun b hb => ?_⟩
  have hne : b.toNat ≠ (32 : UInt8).toNat := by
    intro heq
    rw [UInt8.toNat_inj.mp heq] at hb
    exact hspace hb
  have hspace : (32 : UInt8).toNat = 32 := rfl
  have hge : ¬b.toNat < 32 := (hcontrol b hb).1
  omega

lemma declares_of_fixLength {block : HttpHeaders} {method : Str} {length : Int}
    (hchunked : transferIsChunked (fixPragmaCacheControl block) version = .ok (chunked, headers))
    (hlength : fixLength headers false 200 method chunked = .ok (length, headers')) :
    Declares block version
      (if chunked then .chunked else if length = 0 then .none else .length length.natAbs) := by
  obtain ⟨-, hvalues, hcoding⟩ := transferIsChunked_spec hchunked
  rw [values_fixPragmaCacheControl _ (by decide)] at hvalues
  rw [values_fixPragmaCacheControl _ (by decide)] at hcoding
  obtain ⟨-, hlengths, hnone⟩ := fixLength_request hlength
  rw [hvalues] at hlengths hnone
  rcases hcoding with ⟨rfl, hversion, hcoding⟩ | ⟨rfl, hcoding⟩
  · exact ⟨hversion, hcoding⟩
  rw [if_neg (by simp)]
  split
  · next hzero =>
    refine ⟨hcoding, fun value hvalue => ?_⟩
    obtain ⟨n, hn, heq⟩ := hlengths value hvalue
    rw [hn]
    have := heq rfl
    congr 1
    omega
  next hzero =>
  refine ⟨hcoding, fun hnil => hzero (hnone hnil rfl), fun value hvalue => ?_⟩
  obtain ⟨n, hn, heq⟩ := hlengths value hvalue
  rw [hn, heq rfl]
  rfl

structure RequestRead (input : Bytes) (head : HttpRequestHead) (rest bytes : Bytes) : Prop where
  input_eq : input = bytes ++ rest
  lines : LineBlock bytes
  method_ne : head.method ≠ []
  method_token : head.method.all isTokenByte
  target_visible : ∀ b ∈ head.target, 32 < b.toNat
  canonical : head.headers.Canonical
  declared : ∃ block behind, readHeaderBlock true behind = .ok (block, rest) ∧
    behind <:+ input ∧ Declares block.headers head.version head.body

lemma readHttpRequestHead_spec {head : HttpRequestHead}
    (h : readHttpRequestHead input = .ok (head, rest)) :
    ∃ bytes, RequestRead input head rest bytes := by
  obtain ⟨⟨line, behind⟩, hline, hfirst⟩ := bind_eq_ok.mp h
  obtain ⟨found, hfound, hsecond⟩ := bind_eq_ok.mp hfirst
  obtain ⟨⟨block, rest'⟩, hblock, hrun⟩ := bind_eq_ok.mp hsecond
  obtain ⟨raw, rfl, hraw⟩ := readLine_eq_ok.mp hline
  obtain ⟨hne, hmethod, htoken, htarget⟩ := parseRequestLine_spec hfound
  obtain ⟨⟨bytes, rfl, hbytes⟩, hcanonical⟩ := readHeaderLines_spec canonical_empty hblock
  dsimp only at hrun
  split at hrun
  · cases hrun
  obtain ⟨⟨chunked, headers⟩, hchunked, hrun⟩ := bind_eq_ok.mp hrun
  obtain ⟨⟨length, headers'⟩, hlength, hrun⟩ := bind_eq_ok.mp hrun
  rw [orMalformed_eq_ok] at hchunked hlength
  cases hrun
  refine ⟨raw ++ 10 :: bytes, ⟨by simp, .line hraw hne hbytes, hmethod, htoken, htarget, ?_,
    block, bytes ++ rest, hblock, ⟨raw ++ [10], by simp⟩, ?_⟩⟩
  · refine HttpHeaders.Canonical.remove ?_ _
    refine (fixLength_request hlength).1 ((transferIsChunked_spec hchunked).1 ?_)
    exact canonical_fixPragmaCacheControl hcanonical
  · exact declares_of_fixLength hchunked hlength

lemma visible_of_validEncodedPathByte : ∀ b, validEncodedPathByte b → 32 < b.toNat :=
  forall_byte (by decide +kernel)

lemma visible_upperHex : ∀ d < 16, 32 < (upperHex d).toNat := by
  decide

lemma visible_escapePath (path : Bytes) : ∀ b ∈ escapePath path, 32 < b.toNat := by
  intro b hb
  obtain ⟨c, -, hb⟩ := mem_flatMap.mp hb
  split at hb
  · next hc =>
    obtain rfl := mem_singleton.mp hb
    refine visible_of_validEncodedPathByte b ?_
    rw [Bool.or_eq_true] at hc
    rw [validEncodedPathByte, Bool.or_eq_true]
    refine hc.imp_right fun hmem => ?_
    rw [contains_iff_mem] at hmem ⊢
    exact (show text "-_.~$&+,/:;=@" ⊆ text "-_.~$&+,/:;=@!'()*[]%" by decide) hmem
  · have hc := c.toNat_lt
    simp only [mem_cons, not_mem_nil, or_false] at hb
    rcases hb with rfl | rfl | rfl
    · decide
    all_goals exact visible_upperHex _ (by omega)

lemma visible_escapedPath (raw : Str) (decoded : Bytes) :
    ∀ b ∈ escapedPath raw decoded, 32 < b.toNat := by
  rw [escapedPath]
  split
  · exact visible_escapePath decoded
  next h =>
  rw [not_or, Bool.not_eq_true, Bool.not_eq_false'] at h
  exact fun b hb => visible_of_validEncodedPathByte b (all_eq_true.mp h.2 b hb)

lemma subset_of_urlSchemeLoop {target scheme rest : Str} :
    ∀ {index : Nat} {left : Str}, left ⊆ target →
      urlSchemeLoop target index left = .ok (scheme, rest) → rest ⊆ target := by
  intro index left
  induction left generalizing index with
  | nil =>
    intro _ h
    cases h
    exact List.Subset.refl _
  | cons b left ih =>
    intro hleft h
    have hleft' : left ⊆ target := fun c hc => hleft (mem_cons_of_mem _ hc)
    rw [urlSchemeLoop] at h
    split at h
    · exact ih hleft' h
    split at h
    · exact ih hleft' h
    split at h
    · split at h
      · cases h
      · cases h
        exact hleft'
    · cases h
      exact List.Subset.refl _

lemma subset_of_splitQuery {rest front query : Str}
    (h : splitQuery rest = (front, some query)) : query ⊆ rest := by
  rw [splitQuery] at h
  split at h
  · cases h
    exact nil_subset _
  split at h
  · next hsplit =>
    cases h
    obtain ⟨rfl, -⟩ := splitOnce_eq_some hsplit
    exact fun b hb => mem_append_right _ (mem_cons_of_mem _ hb)
  · cases h

lemma visible_requestUri {target : Str} {url : RequestUrl} (h : parse target = .ok url)
    (htarget : ∀ b ∈ target, 32 < b.toNat) :
    url.requestUri ≠ [] ∧ ∀ b ∈ url.requestUri, 32 < b.toNat := by
  rw [parse] at h
  split at h
  · cases h
  split at h
  · cases h
  obtain ⟨⟨scheme, rest⟩, hscheme, h⟩ := bind_eq_ok.mp h
  have hrest := subset_of_urlSchemeLoop (List.Subset.refl _) hscheme
  cases hquery : splitQuery rest with
  | mk front query =>
    simp only [hquery] at h
    split at h
    · split at h <;> cases h
    cases hhost : splitHost scheme front with
    | mk host path =>
      simp only [hhost] at h
      split at h
      · cases h
      cases h
      refine ⟨?_, fun b hb => ?_⟩
      · rw [uriOf]
        split <;> simp [*]
      rcases mem_append.mp hb with hb | hb
      · split at hb
        · rw [mem_singleton.mp hb]
          decide
        · exact visible_escapedPath _ _ b hb
      · cases query with
        | none => cases hb
        | some query =>
          rcases mem_cons.mp hb with rfl | hb
          · decide
          · exact htarget b (hrest (subset_of_splitQuery hquery hb))

lemma canonical_foldl_remove {α : Type} (names : List α) (f : HttpHeaders → α → HttpHeaders)
    (hf : ∀ headers name, headers.Canonical →
      (f headers name).Canonical) (h : headers.Canonical) : (names.foldl f headers).Canonical := by
  induction names generalizing headers with
  | nil => exact h
  | cons name names ih => exact ih (hf _ _ h)

lemma canonical_removeHopByHopHeaders (h : headers.Canonical) :
    (removeHopByHopHeaders headers).Canonical := by
  refine canonical_foldl_remove _ _ (fun headers name hc => ?_) ?_
  · split
    · exact hc.remove _
    · exact hc
  · exact (canonical_foldl_remove _ _ (fun _ _ hc => hc.remove _) h).remove _

lemma canonical_keepUserAgent (h : headers.Canonical) : (keepUserAgent headers).Canonical := by
  rw [keepUserAgent]
  split
  · exact h.set _ (.of_token (by decide) (by decide))
  · exact h

variable {request : PlainHttpRequest}

lemma PlainHttpRequest.new_spec {bytes : Bytes} {head : HttpRequestHead}
    (hread : RequestRead input head rest bytes) (h : new head = .ok request) :
    request.method = head.method ∧ request.body = head.body ∧ request.headers.Canonical ∧
      request.requestUri ≠ [] ∧ ∀ b ∈ request.requestUri, 32 < b.toNat := by
  obtain ⟨url, hurl, h⟩ := bind_eq_ok.mp h
  obtain ⟨hne, hvisible⟩ := visible_requestUri hurl hread.target_visible
  split at h
  · cases h
  dsimp only at h
  generalize (if eqIgnoreCase url.scheme (text "https") = true then 443 else 80) = port at h
  split at h
  · cases h
  cases h
  exact ⟨rfl, rfl, canonical_keepUserAgent (canonical_removeHopByHopHeaders hread.canonical),
    hne, hvisible⟩

/-! ## The head that is sent on -/

lemma valid_hostHeader (idna : Str → Option Str) (host : Str) :
    ∀ b ∈ hostHeader idna host, validHostByte b := by
  rw [hostHeader]
  split
  · next h => exact all_eq_true.mp h
  · intro b hb
    cases hb

lemma visible_of_validHostByte : ∀ b, validHostByte b → 32 < b.toNat :=
  forall_byte (by decide +kernel)

lemma not_blank_of_visible : ∀ b : UInt8, 32 < b.toNat → MessageHead.isBlank b = false :=
  forall_byte (by decide +kernel)

lemma not_mem_of_visible {s : Bytes} (h : ∀ b ∈ s, 32 < b.toNat) {c : UInt8} (hc : c.toNat ≤ 32) :
    c ∉ s := by
  intro hmem
  have := h c hmem
  omega

lemma fieldOnLine_of_visible {name : Str} (hname : name.all isTokenByte) (hne : name ≠ [])
    (hvalue : ∀ b ∈ value, 32 < b.toNat) : FieldOnLine (name, value) where
  name := .of_token hne hname
  value_cr := not_mem_of_visible hvalue (by decide)
  value_lf := not_mem_of_visible hvalue (by decide)
  value_trim := trim_eq_self fun b hb => not_blank_of_visible b (hvalue b hb)

lemma visible_numeral (n : Nat) : ∀ b ∈ numeral 10 n, 32 < b.toNat := by
  intro b hb
  have := le_of_isDigit (isDigit_of_mem_numeral (by decide) (by decide) hb)
  omega

lemma visible_of_all (h : value.all (fun b => decide (32 < b.toNat)) = true) :
    ∀ b ∈ value, 32 < b.toNat := by
  intro b hb
  exact of_decide_eq_true (all_eq_true.mp h b hb)

/-- A name that a recipient reads as a length or a coding of the body. -/
def isFraming (name : Str) : Bool :=
  eqIgnoreCase name (text "Content-Length") || eqIgnoreCase name (text "Transfer-Encoding")

namespace PlainHttpRequest

variable (idna : Str → Option Str) (request : PlainHttpRequest)

def userAgentField : List (Str × Bytes) :=
  match request.headers.get (text "User-Agent") with
  | none => []
  | some agent =>
    if written agent = [] then []
    else [(text "User-Agent", written agent)]

def framingField : List (Str × Bytes) :=
  match request.body with
  | .length n =>
    if 0 < n || isLengthMethod request.method then [(text "Content-Length", numeral 10 n)] else []
  | .none =>
    if isLengthMethod request.method then [(text "Content-Length", numeral 10 0)] else []
  | .chunked => [(text "Transfer-Encoding", text "chunked")]
  | .untilClose => []

def otherFields : List (Str × Bytes) :=
  (request.headers.set (text "Connection") (text "close")).subset notInSubset

def sentFields : List (Str × Bytes) :=
  (text "Host", hostHeader idna request.host) ::
    (request.userAgentField ++ (request.framingField ++ request.otherFields))

def requestLine : Bytes := request.method ++ 32 :: request.requestUri ++ text " HTTP/1.1"

lemma userAgentLine_eq : request.userAgentLine =
    request.userAgentField.flatMap fun f => MessageHead.fieldLine f.1 f.2 := by
  rw [userAgentLine, userAgentField]
  cases request.headers.get (text "User-Agent") with
  | none => rfl
  | some agent =>
    dsimp only
    split
    · rfl
    · rw [HttpHeaders.fieldLine_eq, flatMap_singleton]

lemma framingLine_eq : request.framingLine =
    request.framingField.flatMap fun f => MessageHead.fieldLine f.1 f.2 := by
  rw [framingLine, framingField]
  cases request.body with
  | length n | none =>
    dsimp only
    split
    · rw [HttpHeaders.fieldLine_eq, flatMap_singleton]
    · rfl
  | chunked =>
    rw [fieldLine_eq, flatMap_singleton]
  | untilClose => rfl

lemma forwardedHead_eq :
    request.forwardedHead idna = MessageHead.head request.requestLine (request.sentFields idna) := by
  rw [forwardedHead, MessageHead.head, sentFields, flatMap_cons, flatMap_append,
    flatMap_append, ← userAgentLine_eq, ← framingLine_eq, otherFields,
    ← writeSubset_eq, requestLine]
  simp only [append_assoc, cons_append]
  rfl

section

variable (h : request.headers.Canonical)

include h

lemma canonical_close : (request.headers.set (text "Connection") (text "close")).Canonical :=
  h.set _ (.of_token (by decide) (by decide))

lemma fieldOnLine_sentFields : ∀ f ∈ request.sentFields idna, FieldOnLine f := by
  intro f hf
  rw [sentFields, mem_cons, mem_append, mem_append] at hf
  rcases hf with rfl | hf | hf | hf
  · exact fieldOnLine_of_visible (by decide) (by decide) fun b hb =>
      visible_of_validHostByte b (valid_hostHeader idna _ b hb)
  · rw [userAgentField] at hf
    split at hf
    · cases hf
    split at hf
    · cases hf
    obtain rfl := mem_singleton.mp hf
    have hname : ValidName (text "User-Agent") := .of_token (by decide) (by decide)
    exact ⟨hname, not_mem_written (.inl rfl), not_mem_written (.inr rfl), trim_written _⟩
  · rw [framingField] at hf
    split at hf
    case h_3 =>
      obtain rfl := mem_singleton.mp hf
      exact fieldOnLine_of_visible (by decide) (by decide) (visible_of_all (by decide))
    case h_4 => cases hf
    all_goals
      split at hf
      · obtain rfl := mem_singleton.mp hf
        exact fieldOnLine_of_visible (by decide) (by decide) (visible_numeral _)
      · cases hf
  · exact fieldOnLine_of_mem_subset (request.canonical_close h) hf

lemma eqIgnoreCase_of_mem_otherFields {f : Str × Bytes} {key : Str}
    (hf : f ∈ request.otherFields) (hkey : key.all isTokenByte)
    (hmem : canonicalHeaderKey key ∈ notInSubset) : eqIgnoreCase f.1 key = false :=
  eqIgnoreCase_of_mem_subset (request.canonical_close h) hf hkey hmem

end

variable {p : Str × Bytes → Bool}

lemma filter_userAgentField (hp : ∀ value, p (text "User-Agent", value) = false) :
    request.userAgentField.filter p = [] := by
  rw [filter_eq_nil_iff, userAgentField]
  intro f hf
  split at hf
  · cases hf
  split at hf
  · cases hf
  obtain rfl := mem_singleton.mp hf
  rw [hp]
  exact Bool.false_ne_true

lemma framingField_cases {f : Str × Bytes} (hf : f ∈ request.framingField) :
    f.1 = text "Content-Length" ∨ f.1 = text "Transfer-Encoding" := by
  rw [framingField] at hf
  split at hf
  case h_3 => exact .inr (congrArg Prod.fst (mem_singleton.mp hf))
  case h_4 => cases hf
  all_goals
    split at hf
    · exact .inl (congrArg Prod.fst (mem_singleton.mp hf))
    · cases hf

lemma filter_framingField (hlength : ∀ value, p (text "Content-Length", value) = false)
    (hcoding : ∀ value, p (text "Transfer-Encoding", value) = false) :
    request.framingField.filter p = [] := by
  rw [filter_eq_nil_iff]
  intro f hf
  obtain ⟨name, value⟩ := f
  rcases request.framingField_cases hf with heq | heq
  · obtain rfl : name = _ := heq
    rw [hlength]
    exact Bool.false_ne_true
  · obtain rfl : name = _ := heq
    rw [hcoding]
    exact Bool.false_ne_true

variable (h : request.headers.Canonical)

include h

lemma host_sentFields :
    (request.sentFields idna).filter (fun f => eqIgnoreCase f.1 (text "Host")) =
      [(text "Host", hostHeader idna request.host)] := by
  have hother : request.otherFields.filter (fun f => eqIgnoreCase f.1 (text "Host")) = [] := by
    rw [filter_eq_nil_iff]
    intro f hf
    rw [request.eqIgnoreCase_of_mem_otherFields h hf (by decide) (by decide)]
    exact Bool.false_ne_true
  rw [sentFields, filter_cons_of_pos (by rfl), filter_append, filter_append,
    request.filter_userAgentField (fun _ => rfl),
    request.filter_framingField (fun _ => rfl) (fun _ => rfl), hother]
  rfl

lemma connection_sentFields :
    (request.sentFields idna).filter (fun f => eqIgnoreCase f.1 (text "Connection")) =
      [(text "Connection", text "close")] := by
  have hother : request.otherFields.filter (fun f => eqIgnoreCase f.1 (text "Connection")) =
      [(text "Connection", text "close")] := by
    have hget : Assoc.get (canonicalHeaderKey (text "Connection"))
        (request.headers.set (text "Connection") (text "close")).fields = some [text "close"] := by
      rw [HttpHeaders.set, HttpHeaders.get_upsert, if_pos rfl]
    exact filter_subset_of_get (request.canonical_close h) (by decide) hget (by decide)
  rw [sentFields, filter_cons_of_neg Bool.false_ne_true, filter_append, filter_append,
    request.filter_userAgentField (fun _ => rfl),
    request.filter_framingField (fun _ => rfl) (fun _ => rfl), hother]
  rfl

/-- No line but the one for it reads as a length or a coding of the body. -/
lemma framing_sentFields :
    (request.sentFields idna).filter (fun f => isFraming f.1) = request.framingField := by
  have hother : request.otherFields.filter (fun f => isFraming f.1) = [] := by
    rw [filter_eq_nil_iff]
    intro f hf
    rw [isFraming, request.eqIgnoreCase_of_mem_otherFields h hf (by decide) (by decide),
      request.eqIgnoreCase_of_mem_otherFields h hf (by decide) (by decide)]
    exact Bool.false_ne_true
  have hframing : request.framingField.filter (fun f => isFraming f.1) = request.framingField := by
    rw [filter_eq_self]
    intro f hf
    rcases request.framingField_cases hf with heq | heq <;> rw [heq] <;> rfl
  rw [sentFields, filter_cons_of_neg Bool.false_ne_true, filter_append, filter_append,
    request.filter_userAgentField (fun _ => rfl), hframing, hother, nil_append, append_nil]

end PlainHttpRequest

/-- How the fields of a head delimit the body behind it. -/
inductive Framed (fields : List (Str × Bytes)) : Bytes → Prop
  | chunked {body : Bytes} {chunks : List Bytes}
      (hfields : (fields.filter fun f => isFraming f.1) =
        [(text "Transfer-Encoding", text "chunked")])
      (hbody : Chunked body chunks) : Framed fields body
  | length {body : Bytes}
      (hfields : (fields.filter fun f => isFraming f.1) =
        [(text "Content-Length", numeral 10 body.length)]) : Framed fields body
  | empty (hfields : (fields.filter fun f => isFraming f.1) = []) : Framed fields []

/-- The head of a request and its body, and nothing behind them. -/
structure OneRequest (bytes : Bytes) (method target : Str) (fields : List (Str × Bytes))
    (body : Bytes) : Prop where
  read : MessageHead.read bytes =
    some (method ++ 32 :: target ++ text " HTTP/1.1", fields, body)
  method_ne : method ≠ []
  method_token : method.all isTokenByte
  target_ne : target ≠ []
  target_visible : ∀ b ∈ target, 32 < b.toNat
  names : ∀ f ∈ fields, ValidName f.1
  values : ∀ f ∈ fields, 13 ∉ f.2 ∧ 10 ∉ f.2
  host : (fields.filter fun f => eqIgnoreCase f.1 (text "Host")).length = 1
  connection : (fields.filter fun f => eqIgnoreCase f.1 (text "Connection")).length = 1
  framed : Framed fields body

/-- A body as it came, delimited as its head says, and what is sent of it. -/
inductive Delimited : HttpBody → Bytes → Bytes → Prop
  | none : Delimited .none [] []
  | length (body : Bytes) : Delimited (.length body.length) body body
  | chunked {bytes : Bytes} {chunks : List Bytes} (h : Chunked bytes chunks) :
      Delimited .chunked bytes (chunkedBytes chunks)

lemma upload_rest {forwarded : Bytes} (hbody : request.body ≠ .untilClose)
    (h : (upload request forwarded client).rest = some rest) :
    ∃ payload body, client = payload ++ rest ∧ Delimited request.body payload body ∧
      (upload request forwarded client).output = forwarded ++ body := by
  rw [upload] at h ⊢
  cases hkind : request.body with
  | none =>
    rw [hkind] at h
    cases h
    exact ⟨[], [], rfl, .none, rfl⟩
  | length n =>
    rw [hkind] at h
    obtain ⟨data, hclient, rfl, houtput⟩ := copyBodyLength_rest h
    exact ⟨data, data, hclient, .length data, congrArg (forwarded ++ ·) houtput⟩
  | chunked =>
    rw [hkind] at h
    obtain ⟨bytes, chunks, hclient, hchunked, houtput⟩ := chunked_of_copyBodyChunked h
    exact ⟨bytes, chunkedBytes chunks, hclient, .chunked hchunked,
      congrArg (forwarded ++ ·) houtput⟩
  | untilClose => exact absurd hkind hbody

lemma PlainHttpRequest.framed_sentFields (idna : Str → Option Str) {payload body : Bytes}
    (h : request.headers.Canonical) (hbody : Delimited request.body payload body) :
    Framed (request.sentFields idna) body := by
  have hframing := request.framing_sentFields idna h
  rw [framingField] at hframing
  generalize request.body = kind at hbody hframing
  cases hbody with
  | none =>
    dsimp only at hframing
    split at hframing
    · exact .length hframing
    · exact .empty hframing
  | length body =>
    dsimp only at hframing
    split at hframing
    · exact .length hframing
    next hzero =>
    rw [Bool.or_eq_true, not_or, decide_eq_true_iff, Nat.not_lt, Nat.le_zero,
      length_eq_zero_iff] at hzero
    rw [hzero.1]
    exact .empty hframing
  | chunked hchunked => exact .chunked hframing (chunked_chunkedBytes hchunked.bounds)

lemma PlainHttpRequest.mem_requestLine (hmethod : request.method.all isTokenByte)
    (htarget : ∀ b ∈ request.requestUri, 32 < b.toNat) : 13 ∉ request.requestLine := by
  rw [requestLine, mem_append, mem_append, mem_cons, not_or, not_or, not_or]
  refine ⟨⟨fun hmem => ?_, by decide, not_mem_of_visible htarget (by decide)⟩, by decide⟩
  exact absurd (all_eq_true.mp hmethod 13 hmem) (by decide)

/-- What goes to the upstream of a request whose body is there to its end is one request: its
lines are the ones that were written, one of them names the host, one the connection, and at
most one says where the body ends, which it does there. The client's bytes are consumed to the
end of the body that the client's head declares, and no further. -/
theorem forwarded_is_one_request (idna : Str → Option Str) {client behind rest : Bytes}
    {head : HttpRequestHead} {request : PlainHttpRequest}
    (hread : readHttpRequestHead client = .ok (head, behind))
    (hnew : new head = .ok request)
    (hcopied : (upload request (request.forwardedHead idna) behind).rest = some rest) :
    ∃ lines payload fields body, client = lines ++ payload ++ rest ∧
      LineBlock lines ∧
      (∃ block fieldLines, readHeaderBlock true fieldLines = .ok (block, behind) ∧
        fieldLines <:+ client ∧ Declares block.headers head.version request.body) ∧
      Delimited request.body payload body ∧
      OneRequest (upload request (request.forwardedHead idna) behind).output head.method
        request.requestUri fields body := by
  obtain ⟨lines, hhead⟩ := readHttpRequestHead_spec hread
  obtain ⟨hmethod, hbody, hcanonical, hne, hvisible⟩ := new_spec hhead hnew
  have hdeclared := hhead.declared
  rw [← hbody] at hdeclared
  have hkind : request.body ≠ .untilClose := by
    intro hclose
    obtain ⟨block, fieldLines, -, -, hdeclares⟩ := hdeclared
    rw [hclose] at hdeclares
    exact hdeclares
  obtain ⟨payload, body, hpayload, hdelimited, houtput⟩ := upload_rest hkind hcopied
  have htoken : request.method.all isTokenByte = true := by
    rw [hmethod]
    exact hhead.method_token
  have hline : 13 ∉ request.requestLine := mem_requestLine htoken hvisible
  have hfirst : request.requestLine ≠ [] := by
    rw [requestLine]
    simp
  have hfields := request.fieldOnLine_sentFields idna hcanonical
  refine ⟨lines, payload, request.sentFields idna, body, ?_, hhead.lines, hdeclared, hdelimited, ?_⟩
  · rw [hhead.input_eq, hpayload, append_assoc]
  refine ⟨?_, hhead.method_ne, hhead.method_token, hne, hvisible,
    fun f hf => (hfields f hf).name,
    fun f hf => ⟨(hfields f hf).value_cr, (hfields f hf).value_lf⟩, ?_, ?_,
    PlainHttpRequest.framed_sentFields idna hcanonical hdelimited⟩
  · rw [houtput, request.forwardedHead_eq,
      MessageHead.read_head hfirst hline (fun f hf => (hfields f hf).plain),
      PlainHttpRequest.requestLine, hmethod]
  · rw [request.host_sentFields idna hcanonical, length_singleton]
  · rw [request.connection_sentFields idna hcanonical, length_singleton]

def accepted (client : Bytes) : Option (HttpRequestHead × PlainHttpRequest × Bytes) :=
  match readHttpRequestHead client with
  | .error _ => none
  | .ok (head, behind) =>
    match PlainHttpRequest.new head with
    | .error _ => none
    | .ok request => some (head, request, behind)

lemma accepted_eq_some {behind : Bytes} {head : HttpRequestHead} {request : PlainHttpRequest}
    (h : accepted client = some (head, request, behind)) :
    readHttpRequestHead client = .ok (head, behind) ∧ PlainHttpRequest.new head = .ok request := by
  rw [accepted] at h
  split at h
  · cases h
  next hread =>
  split at h
  · cases h
  next hnew =>
  cases h
  exact ⟨hread, hnew⟩

/-- What goes to the upstream, and what is left of the client's bytes. -/
def forwarded (client : Bytes) : Option (Bytes × Option Bytes) :=
  (accepted client).map fun (_, request, behind) =>
    let copied := upload request (request.forwardedHead some) behind
    (copied.output, copied.rest)

lemma forwarded_eq_some {output : Bytes} {rest : Option Bytes}
    (h : forwarded client = some (output, rest)) :
    ∃ head request behind, readHttpRequestHead client = .ok (head, behind) ∧
      new head = .ok request ∧
      (upload request (request.forwardedHead some) behind).output = output ∧
      (upload request (request.forwardedHead some) behind).rest = rest := by
  obtain ⟨⟨head, request, behind⟩, haccepted, h⟩ := Option.map_eq_some_iff.mp h
  obtain ⟨hread, hnew⟩ := accepted_eq_some haccepted
  cases h
  exact ⟨head, request, behind, hread, hnew, rfl, rfl⟩

def postRequest : Bytes :=
  text "POST http://a/b HTTP/1.1" ++ crlf ++ text "Content-Length: 2" ++ crlf ++ crlf ++ text "hiGET"

lemma forwarded_postRequest : forwarded postRequest = some
    (text "POST /b HTTP/1.1" ++ crlf ++ text "Host: a" ++ crlf ++ text "Content-Length: 2" ++ crlf ++
      text "Connection: close" ++ crlf ++ crlf ++ text "hi", some (text "GET")) := by
  decide +kernel

theorem forwarded_postRequest_is_one_request : ∃ head request behind,
    readHttpRequestHead postRequest = .ok (head, behind) ∧
    PlainHttpRequest.new head = .ok request ∧
    ∃ fields body, OneRequest (upload request (request.forwardedHead some) behind).output
      head.method request.requestUri fields body := by
  obtain ⟨head, request, behind, hread, hnew, -, hrest⟩ := forwarded_eq_some forwarded_postRequest
  obtain ⟨lines, payload, fields, body, -, -, -, -, hone⟩ :=
    forwarded_is_one_request some hread hnew hrest
  exact ⟨head, request, behind, hread, hnew, fields, body, hone⟩

def spacedRequest : Bytes :=
  text "POST http://a/ HTTP/1.1" ++ crlf ++ text "Content-Length : 5" ++ crlf ++ crlf

def spacedForwarded : Bytes :=
  text "POST / HTTP/1.1" ++ crlf ++ text "Host: a" ++ crlf ++ text "Content-Length: 0" ++ crlf ++
    text "Connection: close" ++ crlf ++ text "Content-Length : 5" ++ crlf ++ crlf

lemma forwarded_spacedRequest : forwarded spacedRequest = some (spacedForwarded, some []) := by
  decide +kernel

/-- A name with a space before its colon is no token, is kept, and reads as a second length. -/
theorem forwarded_keeps_spaced_length : ∃ head request behind,
    readHttpRequestHead spacedRequest = .ok (head, behind) ∧
    PlainHttpRequest.new head = .ok request ∧
    (upload request (request.forwardedHead some) behind).output = spacedForwarded ∧
    ∃ first fields, MessageHead.read spacedForwarded = some (first, fields, []) ∧
      (text "Content-Length ", text "5") ∈ fields ∧
      (text "Content-Length ").all isTokenByte = false := by
  obtain ⟨head, request, behind, hread, hnew, houtput, -⟩ :=
    forwarded_eq_some forwarded_spacedRequest
  refine ⟨head, request, behind, hread, hnew, houtput, text "POST / HTTP/1.1",
    [(text "Host", text "a"), (text "Content-Length", text "0"),
      (text "Connection", text "close"), (text "Content-Length ", text "5")], ?_, ?_, ?_⟩
  · decide +kernel
  · decide
  · decide

end Xray.Http
