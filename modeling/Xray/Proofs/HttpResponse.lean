import Xray.Proofs.HttpRequest

/-!
# What a client gets of a response

A response is delimited by the method of its request, its status and its fields (`framingOf`).
The head that goes to the client is written anew, with a length or a coding of its own, and by
the same rule it delimits a body of the same data (`Carries`). An informational response
before it goes as it came.
-/

namespace Xray.Http

open Ascii Bytes Fallible Numeral List HttpHeaders HttpHeaders.Canonical HttpResponseHead

/-! ## Responses on the wire -/

def valuesOf (key : Str) (fields : List (Str × Bytes)) : List Bytes :=
  (fields.filter fun f => eqIgnoreCase f.1 key).map Prod.snd

/-- How a recipient finds the end of a response's body. -/
def framingOf (method : Str) (status : Nat) (fields : List (Str × Bytes)) : HttpBody :=
  if method = text "HEAD" ∨ bodyAllowed status = false then .none
  else if valuesOf (text "Transfer-Encoding") fields ≠ [] then .chunked
  else
    match valuesOf (text "Content-Length") fields with
    | [] => .untilClose
    | value :: _ => .length (number 10 value)

/-- The bytes of a body that ends with its stream or before, and the data they stand for. -/
inductive Carries : HttpBody → Bytes → Bytes → Prop
  | none : Carries .none [] []
  | length (body : Bytes) : Carries (.length body.length) body body
  | chunked {bytes : Bytes} {chunks : List Bytes} (h : Chunked bytes chunks) :
      Carries .chunked bytes chunks.flatten
  | untilClose (body : Bytes) : Carries .untilClose body body

/-- The head of a response, with the values of its fields as they stand behind their colons. -/
structure Response where
  major : UInt8
  minor : UInt8
  code : Nat
  reason : Bytes
  fields : List (Str × Bytes)

def fieldOnWire (f : Str × Bytes) : Bytes := f.1 ++ 58 :: f.2

def linesOnWire (lines : List Bytes) : Bytes := lines.flatMap (· ++ crlf)

namespace Response

def version (response : Response) : Nat × Nat :=
  (response.major.toNat - 48, response.minor.toNat - 48)

def status (response : Response) : Bytes := numeral 10 response.code ++ 32 :: response.reason

def statusLine (response : Response) : Bytes :=
  text "HTTP/" ++ [response.major, 46, response.minor, 32] ++ response.status

def contents (response : Response) : List (Str × Bytes) :=
  response.fields.map fun f => (f.1, trimBlank f.2)

def bytes (response : Response) : Bytes :=
  linesOnWire (response.statusLine :: response.fields.map fieldOnWire) ++ crlf

/-- A field with a token for its name and a value on one line. -/
structure WellFormedField (f : Str × Bytes) : Prop where
  name_ne : f.1 ≠ []
  name_token : f.1.all isTokenByte
  value_cr : 13 ∉ f.2
  value_lf : 10 ∉ f.2

structure WellFormed (response : Response) : Prop where
  major : isDecimal response.major
  minor : isDecimal response.minor
  code : 100 ≤ response.code ∧ response.code < 1000
  reason_cr : 13 ∉ response.reason
  reason_lf : 10 ∉ response.reason
  fields : ∀ f ∈ response.fields, WellFormedField f

/-- An informational response that is no switch of protocols. -/
structure Interim (response : Response) : Prop extends WellFormed response where
  informational : response.code < 200
  no_switch : response.code ≠ 101
  short : response.bytes.length ≤ maxInformationalHead

/-- A final response within the limits of the reader: on the length of a line, on the bytes of
the status line, on the codings and on the length. -/
structure Final (response : Response) : Prop extends WellFormed response where
  final : 200 ≤ response.code
  utf8 : isUtf8 response.statusLine
  line_short : response.statusLine.length + 1 < maxLineLen
  field_short : ∀ f ∈ response.fields, (fieldOnWire f).length + 1 < maxLineLen
  coding : valuesOf (text "Transfer-Encoding") response.contents = [] ∨
    hasCodings response.version ∧
      isChunkedCoding (valuesOf (text "Transfer-Encoding") response.contents)
  lengths : ∃ digits n, parseContentLength digits = .ok n ∧
    ∀ value ∈ valuesOf (text "Content-Length") response.contents, value = digits

end Response

variable {b : UInt8} {fields : List (Str × Bytes)}

lemma not_mem_fieldOnWire {f : Str × Bytes} (h : Response.WellFormedField f)
    (hb : b = 13 ∨ b = 10) : b ∉ fieldOnWire f := by
  have hname : b ∉ f.1 := by
    intro hmem
    have := all_eq_true.mp h.name_token b hmem
    rcases hb with rfl | rfl <;> cases this
  have hvalue : b ∉ f.2 := by
    rcases hb with rfl | rfl
    · exact h.value_cr
    · exact h.value_lf
  rw [fieldOnWire, mem_append, mem_cons, not_or, not_or]
  refine ⟨hname, ?_, hvalue⟩
  rcases hb with rfl | rfl <;> decide

lemma isDecimal_ne : ∀ b, isDecimal b → b ≠ 13 ∧ b ≠ 10 ∧ b ≠ 32 :=
  forall_byte (by decide +kernel)

lemma not_mem_statusLine {response : Response} (h : response.WellFormed) (hb : b = 13 ∨ b = 10) :
    b ∉ response.statusLine := by
  have hmajor := isDecimal_ne _ h.major
  have hminor := isDecimal_ne _ h.minor
  have hcode : b ∉ numeral 10 response.code :=
    not_mem_numeral (by decide) (by decide) (by rcases hb with rfl | rfl <;> decide)
  have htext : b ∉ text "HTTP/" := by
    rcases hb with rfl | rfl <;> decide
  simp only [Response.statusLine, Response.status, mem_append, mem_cons, not_or]
  rcases hb with rfl | rfl
  · exact ⟨⟨htext, hmajor.1.symm, by decide, hminor.1.symm, by decide⟩, hcode, by decide,
      h.reason_cr⟩
  · exact ⟨⟨htext, hmajor.2.1.symm, by decide, hminor.2.1.symm, by decide⟩, hcode, by decide,
      h.reason_lf⟩

lemma readRawLine_append {line : Bytes} (hbreak : 10 ∉ line) (hshort : line.length < maxLineLen)
    (rest : Bytes) : readRawLine (line ++ 10 :: rest) = .ok (line ++ [10], rest) := by
  have htake : (line ++ 10 :: rest).take maxLineLen =
      line ++ 10 :: rest.take (maxLineLen - line.length - 1) := by
    obtain ⟨n, hn⟩ : ∃ n, maxLineLen - line.length = n + 1 := ⟨maxLineLen - line.length - 1, by omega⟩
    rw [take_append, take_of_length_le (by omega), hn]
    rfl
  have hdrop : (line ++ 10 :: rest).drop (line.length + 1) = rest := by
    rw [drop_append, drop_of_length_le (by omega), Nat.add_sub_cancel_left]
    rfl
  rw [readRawLine, if_neg (by simp), htake, splitOnce_append hbreak]
  dsimp only
  rw [hdrop]

lemma not_suffix_of_ne {raw : Bytes} (hb : b ≠ 10) :
    (crlf ++ crlf).isSuffixOf (raw ++ [b] ++ crlf) = false := by
  rw [Bool.eq_false_iff]
  intro h
  have hsuffix := isSuffixOf_iff_suffix.mp h
  obtain ⟨pre, hpre⟩ := hsuffix
  have hreverse := congrArg List.reverse hpre
  simp only [crlf, reverse_append, reverse_cons, reverse_nil, nil_append,
    cons_append, List.cons.injEq, true_and] at hreverse
  exact hb hreverse.1.symm

lemma readInformational_lines {lines : List Bytes} {raw : Bytes} {b : UInt8} (hb : b ≠ 10)
    (hne : ∀ line ∈ lines, line ≠ []) (hbreak : ∀ line ∈ lines, 13 ∉ line ∧ 10 ∉ line)
    (hlen : (raw ++ [b] ++ crlf ++ linesOnWire lines ++ crlf).length ≤ maxInformationalHead)
    (rest : Bytes) :
    readInformational (raw ++ [b] ++ crlf) (linesOnWire lines ++ crlf ++ rest) =
      .ok (raw ++ [b] ++ crlf ++ linesOnWire lines ++ crlf, rest) := by
  induction lines generalizing raw b with
  | nil =>
    have hline : readRawLine ([13] ++ 10 :: rest) = .ok ([13] ++ [10], rest) :=
      readRawLine_append (by decide) (by decide) rest
    rw [readInformational, not_suffix_of_ne hb, if_neg Bool.false_ne_true, if_neg]
    · split
      · next hread =>
        cases hline.symm.trans hread
      next hread =>
      cases hline.symm.trans hread
      rw [readInformational, if_pos]
      · simp [linesOnWire, crlf]
      · rw [isSuffixOf_iff_suffix]
        exact ⟨raw ++ [b], by simp [crlf]⟩
    · simp only [length_append] at hlen ⊢
      omega
  | cons line lines ih =>
    obtain ⟨hcr, hlf⟩ := hbreak line mem_cons_self
    obtain ⟨front, c, rfl⟩ := eq_nil_or_concat'
      line |>.resolve_left (hne line mem_cons_self)
    have hc : c ≠ 10 := fun hc => hlf (by simp [hc])
    have hmore := @ih (raw ++ [b] ++ crlf ++ front) c hc
      (fun line hline => hne line (mem_cons_of_mem _ hline))
      (fun line hline => hbreak line (mem_cons_of_mem _ hline))
      (by simpa [linesOnWire] using hlen)
    have hshort : (front ++ [c] ++ [13]).length < maxLineLen := by
      simp only [linesOnWire, flatMap_cons, length_append, maxInformationalHead] at hlen
      simp only [length_append, length_cons, length_nil, maxLineLen]
      omega
    have hline : readRawLine ((front ++ [c] ++ [13]) ++ 10 :: (linesOnWire lines ++ crlf ++ rest)) =
          .ok (front ++ [c] ++ [13] ++ [10], linesOnWire lines ++ crlf ++ rest) :=
      readRawLine_append (by simpa using hlf) hshort _
    have hinput : linesOnWire ((front ++ [c]) :: lines) ++ crlf ++ rest =
        (front ++ [c] ++ [13]) ++ 10 :: (linesOnWire lines ++ crlf ++ rest) := by
      simp [linesOnWire, crlf]
    rw [readInformational, not_suffix_of_ne hb, if_neg Bool.false_ne_true, if_neg, hinput]
    · split
      · next hread =>
        cases hline.symm.trans hread
      next hread =>
      cases hline.symm.trans hread
      have hraw : raw ++ [b] ++ crlf ++ (front ++ [c] ++ [13] ++ [10]) =
          raw ++ [b] ++ crlf ++ front ++ [c] ++ crlf := by
        simp [crlf]
      rw [hraw, hmore]
      simp [linesOnWire]
    · simp only [length_append] at hlen ⊢
      omega

lemma trim_append_of_not {p : UInt8 → Bool} {a c : UInt8} {s t : Str} (ha : p a = false)
    (hc : p c = false) : trim p (a :: s ++ c :: t) = a :: s ++ c :: t.rdropWhile p := by
  rw [trim, cons_append, dropWhile_cons_of_neg (by simp [ha]), ← cons_append]
  induction t using List.reverseRecOn with
  | nil =>
    rw [rdropWhile_nil, rdropWhile_eq_self_iff]
    intro hne
    simp [hc]
  | append_singleton t b ih =>
    have happend : a :: s ++ c :: (t ++ [b]) = (a :: s ++ c :: t) ++ [b] := by simp
    by_cases hb : p b = true
    · rw [happend, rdropWhile_concat_pos _ _ _ hb, rdropWhile_concat_pos _ _ _ hb, ih]
    · rw [happend, rdropWhile_concat_neg _ _ _ hb, rdropWhile_concat_neg _ _ _ hb]
      simp

lemma trim_rdropWhile (p : UInt8 → Bool) (s : Str) : trim p (s.rdropWhile p) = trim p s := by
  induction s using List.reverseRecOn with
  | nil => rfl
  | append_singleton s b ih =>
    by_cases hb : p b = true
    · rw [rdropWhile_concat_pos _ _ _ hb, ih, trim_concat hb]
    · rw [rdropWhile_concat_neg _ _ _ hb]

lemma not_blank_of_token : ∀ b, isTokenByte b → isBlank b = false :=
  forall_byte (by decide +kernel)

namespace HeaderBlock

lemma takeLine_fieldOnWire (block : HeaderBlock) (last : Last) {f : Str × Bytes}
    (h : Response.WellFormedField f) :
    block.takeLine false last (fieldOnWire f) =
      .ok ({ block with headers := block.headers.add (canonicalHeaderKey f.1) (trimBlank f.2) },
        .field (canonicalHeaderKey f.1)) := by
  obtain ⟨name, value⟩ := f
  obtain ⟨c, name, rfl⟩ := exists_cons_of_ne_nil h.name_ne
  have htoken := all_eq_true.mp h.name_token
  have hc := not_blank_of_token c (htoken c mem_cons_self)
  have hcolon : (58 : UInt8) ∉ c :: name := fun hmem => absurd (htoken 58 hmem) (by decide)
  have hall : (c :: name).all (fun b => isTokenByte b || b == 32) = true := by
    refine all_eq_true.mpr fun b hb => ?_
    rw [htoken b hb, Bool.true_or]
  have hfirst : (fieldOnWire (c :: name, value)).head?.any isBlank = false := hc
  have htrim : trimBlank (fieldOnWire (c :: name, value)) =
      (c :: name) ++ 58 :: value.rdropWhile isBlank := trim_append_of_not hc rfl
  rw [takeLine, hfirst, if_neg Bool.false_ne_true, takeField, htrim, splitOnce_append hcolon]
  dsimp only
  rw [if_neg (by rw [hall]; simp), trimBlank, trim_rdropWhile]
  rfl

end HeaderBlock

def headersOf (fields : List (Str × Bytes)) (headers : HttpHeaders) : HttpHeaders :=
  fields.foldl (fun headers f => headers.add (canonicalHeaderKey f.1) (trimBlank f.2)) headers

lemma readHeaderLines_of_line {keep : Bool} {block : HeaderBlock} {last : Last}
    {input line rest : Bytes} (h : readLine input = .ok (line, rest)) :
    readHeaderLines keep block last input =
      if line = [] then .ok (block, rest)
      else (block.takeLine keep last line).bind fun next =>
        readHeaderLines keep next.1 next.2 rest := by
  rw [readHeaderLines]
  split
  · next hline => cases h.symm.trans hline
  next hline =>
  cases h.symm.trans hline
  rfl

lemma readHeaderLines_fields (h : ∀ f ∈ fields, Response.WellFormedField f)
    (hshort : ∀ f ∈ fields, (fieldOnWire f).length + 1 < maxLineLen) (block : HeaderBlock)
    (last : Last) (rest : Bytes) :
    ∃ block', readHeaderLines false block last
        (linesOnWire (fields.map fieldOnWire) ++ crlf ++ rest) = .ok (block', rest) ∧
      block'.headers = headersOf fields block.headers := by
  induction fields generalizing block last with
  | nil =>
    have hline : readLine (linesOnWire [] ++ crlf ++ rest) = .ok ([], rest) := line_cr.read rest
    refine ⟨block, ?_, rfl⟩
    rw [map_nil, readHeaderLines_of_line hline, if_pos rfl]
  | cons f fields ih =>
    have hf := h f mem_cons_self
    have hwire : Line (fieldOnWire f ++ [13]) (fieldOnWire f) :=
      .of_crlf (not_mem_fieldOnWire hf (.inr rfl)) (hshort f mem_cons_self)
    have hline := hwire.read (linesOnWire (fields.map fieldOnWire) ++ crlf ++ rest)
    have hinput : linesOnWire ((f :: fields).map fieldOnWire) ++ crlf ++ rest =
        fieldOnWire f ++ [13] ++ 10 :: (linesOnWire (fields.map fieldOnWire) ++ crlf ++ rest) := by
      simp [linesOnWire, crlf]
    obtain ⟨block', hread, hheaders⟩ := ih (fun g hg => h g (mem_cons_of_mem _ hg))
      (fun g hg => hshort g (mem_cons_of_mem _ hg))
      { block with headers := block.headers.add (canonicalHeaderKey f.1) (trimBlank f.2) }
      (.field (canonicalHeaderKey f.1))
    refine ⟨block', ?_, hheaders⟩
    rw [hinput, readHeaderLines_of_line hline, if_neg (by simp [fieldOnWire]),
      block.takeLine_fieldOnWire last hf]
    exact hread

/-! ## The values of the fields -/

lemma canonicalHeaderKey_eq_iff {name key : Str} (hname : name.all isTokenByte)
    (hkey : key.all isTokenByte) :
    canonicalHeaderKey name = canonicalHeaderKey key ↔ eqIgnoreCase name key := by
  rw [eqIgnoreCase_iff, canonicalHeaderKey, if_pos hname, canonicalHeaderKey, if_pos hkey]
  constructor
  · intro h
    have hlower := congrArg lower h
    rwa [lower_canonicalLoop, lower_canonicalLoop] at hlower
  · intro h
    rw [← canonicalLoop_lower, h, canonicalLoop_lower]

lemma HttpHeaders.values_add (headers : HttpHeaders) (name key : Str) (value : Bytes) :
    (headers.add name value).values key =
      headers.values key ++ if canonicalHeaderKey key = canonicalHeaderKey name then [value] else [] := by
  rw [values, add, get_upsert, values]
  split
  · rfl
  · rw [append_nil]

lemma values_headersOf (h : ∀ f ∈ fields, Response.WellFormedField f) {key : Str}
    (hkey : key.all isTokenByte) (headers : HttpHeaders) :
    (headersOf fields headers).values key =
      headers.values key ++ valuesOf key (fields.map fun f => (f.1, trimBlank f.2)) := by
  induction fields generalizing headers with
  | nil => simp [headersOf, valuesOf]
  | cons f fields ih =>
    have hname := (h f mem_cons_self).name_token
    have hmore := ih (fun g hg => h g (mem_cons_of_mem _ hg))
      (headers.add (canonicalHeaderKey f.1) (trimBlank f.2))
    rw [headersOf, foldl_cons, ← headersOf, hmore, HttpHeaders.values_add,
      canonicalHeaderKey_canonicalHeaderKey, append_assoc, map_cons]
    congr 1
    rw [valuesOf, valuesOf, filter_cons]
    by_cases hsame : eqIgnoreCase f.1 key = true
    · rw [if_pos ((canonicalHeaderKey_eq_iff hname hkey).mpr hsame).symm, if_pos hsame]
      rfl
    rw [if_neg fun heq => hsame ((canonicalHeaderKey_eq_iff hname hkey).mp heq.symm), if_neg hsame]
    rfl

variable {headers : HttpHeaders}

lemma canonical_headersOf (h : ∀ f ∈ fields, Response.WellFormedField f)
    (hheaders : headers.Canonical) : (headersOf fields headers).Canonical := by
  induction fields generalizing headers with
  | nil => exact hheaders
  | cons f fields ih =>
    have hf := h f mem_cons_self
    refine ih (fun g hg => h g (mem_cons_of_mem _ hg)) (hheaders.add _ ?_)
    exact (ValidName.of_token hf.name_ne hf.name_token).canonicalHeaderKey

lemma parseStatusCode_numeral : ∀ code < 1000, 100 ≤ code →
    parseStatusCode (numeral 10 code) = some code ∧ (numeral 10 code).length = 3 := by
  decide +kernel

lemma dropLineEnd_crlf (line : Bytes) : dropLineEnd (line ++ [13] ++ [10]) = line := by
  rw [dropLineEnd, getLast?_concat, if_pos rfl, dropLast_concat, dropCr,
    getLast?_concat, if_pos rfl, dropLast_concat]

namespace Response

variable {response : Response}

lemma dropWhile_status (response : Response) :
    response.status.dropWhile (· == 32) = response.status := by
  obtain ⟨b, digits, hdigits⟩ := exists_cons_of_ne_nil (numeral_ne_nil 10 response.code)
  have hb : b ≠ 32 := by
    rintro rfl
    exact not_mem_numeral (by decide) (by decide) (by decide) (hdigits ▸ mem_cons_self)
  rw [status, hdigits, cons_append, dropWhile_cons_of_neg (by simpa using hb)]

lemma splitOnce_statusLine (h : response.WellFormed) : splitOnce 32 response.statusLine =
      some (text "HTTP/" ++ [response.major, 46, response.minor], response.status) := by
  have hmem : (32 : UInt8) ∉ text "HTTP/" ++ [response.major, 46, response.minor] := by
    simp only [mem_append, mem_cons, not_or, not_mem_nil, not_false_eq_true, and_true]
    exact ⟨by decide, (isDecimal_ne _ h.major).2.2.symm, by decide,
      (isDecimal_ne _ h.minor).2.2.symm⟩
  have hline : response.statusLine =
      (text "HTTP/" ++ [response.major, 46, response.minor]) ++ 32 :: response.status := by
    simp [statusLine]
  rw [hline, splitOnce_append hmem]

lemma splitAll_status (response : Response) :
    (splitAll 32 response.status).headD [] = numeral 10 response.code := by
  rw [status, splitAll_append (not_mem_numeral (by decide) (by decide) (by decide)), headD_cons]

lemma httpVersion_eq (h : response.WellFormed) :
    httpVersion (text "HTTP/" ++ [response.major, 46, response.minor]) = some response.version := by
  show (if isDecimal response.major && isDecimal response.minor then _ else _) = _
  rw [h.major, h.minor]
  rfl

lemma parseStatusLine_statusLine (h : response.WellFormed) (hutf8 : isUtf8 response.statusLine) :
    parseStatusLine response.statusLine =
      .ok (response.version, response.status, response.code) := by
  rw [parseStatusLine, hutf8, if_neg (by simp), splitOnce_statusLine h]
  dsimp only
  rw [dropWhile_status, splitAll_status, (parseStatusCode_numeral _ h.code.2 h.code.1).1,
    httpVersion_eq h]

lemma isInformational_statusLine (h : response.WellFormed) :
    isInformational (response.statusLine ++ [13] ++ [10]) = decide (response.code < 200) := by
  have hline : response.statusLine ++ [13] ++ [10] =
      (text "HTTP/" ++ [response.major, 46, response.minor]) ++
        32 :: (response.status ++ [13] ++ [10]) := by
    simp [statusLine]
  have hmem := (splitOnce_eq_some (splitOnce_statusLine h)).2
  have hdigit : ∀ code < 1000, 100 ≤ code →
      ((numeral 10 code).head? == some 49) = decide (code < 200) := by
    decide +kernel
  rw [isInformational, hline, splitOnce_append hmem]
  show ((response.status ++ [13] ++ [10]).head? == some 49) = _
  rw [← hdigit _ h.code.2 h.code.1, status, append_assoc, append_assoc,
    head?_append_of_ne_nil _ (numeral_ne_nil _ _)]

end Response

/-! ## Codings and lengths of a response -/

lemma transferIsChunked_of_coding {version : Nat × Nat} (hheaders : headers.Canonical)
    (h : headers.values (text "Transfer-Encoding") = [] ∨ hasCodings version ∧
      isChunkedCoding (headers.values (text "Transfer-Encoding"))) :
    ∃ headers', transferIsChunked headers version =
        .ok (decide (headers.values (text "Transfer-Encoding") ≠ []), headers') ∧
      headers'.Canonical ∧
      headers'.values (text "Content-Length") = headers.values (text "Content-Length") := by
  rw [transferIsChunked]
  by_cases hnil : headers.values (text "Transfer-Encoding") = []
  · rw [if_pos hnil, decide_eq_false (not_not_intro hnil)]
    exact ⟨headers, rfl, hheaders, rfl⟩
  obtain ⟨hversion, hcoding⟩ := h.resolve_left hnil
  rw [if_neg hnil, if_neg hversion, if_pos hcoding, decide_eq_true hnil]
  exact ⟨_, rfl, hheaders.remove _, headers.values_remove_of_ne (by decide)⟩

lemma trimAsciiSpace_of_digits {digits : Bytes} {n : Nat} (h : parseContentLength digits = .ok n) :
    trimAsciiSpace digits = digits := by
  have hspace : ∀ b, isDecimal b = true → isSpace b = false := forall_byte (by decide +kernel)
  rw [parseContentLength] at h
  split at h
  · cases h
  next hdigits =>
  rw [not_or, Bool.not_eq_true, Bool.not_eq_false'] at hdigits
  exact trim_eq_self fun b hb => hspace b (all_eq_true.mp hdigits.2 b hb)

lemma agreedContentLength_of_digits {digits : Bytes} {n : Nat} (hheaders : headers.Canonical)
    (hparse : parseContentLength digits = .ok n)
    (h : ∀ value ∈ headers.values (text "Content-Length"), value = digits) :
    ∃ headers', agreedContentLength headers =
        .ok (headers.get (text "Content-Length"), headers') ∧ headers'.Canonical ∧
      headers'.get (text "Content-Length") = headers.get (text "Content-Length") := by
  rw [agreedContentLength, HttpHeaders.get]
  cases hvalues : headers.values (text "Content-Length") with
  | nil => exact ⟨headers, rfl, hheaders, by rw [HttpHeaders.get, hvalues]⟩
  | cons first others =>
    rw [hvalues] at h
    obtain rfl := h first mem_cons_self
    have hagree : ¬(others.any fun value => trimAsciiSpace value != trimAsciiSpace first) = true := by
      rw [Bool.not_eq_true, any_eq_false]
      intro value hvalue
      rw [h value (mem_cons_of_mem _ hvalue)]
      simp
    dsimp only
    rw [if_neg hagree, trimAsciiSpace_of_digits hparse]
    refine ⟨_, rfl, ?_, ?_⟩
    · split
      · exact hheaders
      · exact hheaders.set _ (.of_token (by decide) (by decide))
    · split
      · rw [HttpHeaders.get, hvalues]
      rw [HttpHeaders.get, HttpHeaders.values, HttpHeaders.set, HttpHeaders.get_upsert, if_pos rfl]
      rfl

/-- The length that the reader of a response goes by: minus one if there is none. -/
def bodyLength (method : Str) (status : Nat) (chunked : Bool) (declared : Option Nat) : Int :=
  if method = text "HEAD" ∨ bodyAllowed status = false then 0
  else if chunked then -1
  else (declared.map Int.ofNat).getD (-1)

/-- The length that the head for the client goes by. -/
def declaredLength (method : Str) (status : Nat) (chunked : Bool) (declared : Option Nat) : Int :=
  if method = text "HEAD" then (declared.map Int.ofNat).getD (-1)
  else bodyLength method status chunked declared

def declaredBy (headers : HttpHeaders) (n : Nat) : Option Nat :=
  (headers.get (text "Content-Length")).map fun _ => n

section

variable {headers : HttpHeaders} {digits : Bytes} {n status : Nat} (method : Str) (chunked : Bool)
  (hparse : parseContentLength digits = .ok n)
  (h : ∀ value ∈ headers.values (text "Content-Length"), value = digits)

include hparse h

lemma mapM_parseContentLength :
    (headers.get (text "Content-Length")).mapM parseContentLength = .ok (declaredBy headers n) := by
  rw [declaredBy]
  cases hvalue : headers.get (text "Content-Length") with
  | none => rfl
  | some value =>
    rw [h value (mem_of_mem_head? hvalue)]
    show (do let b ← parseContentLength digits; pure (some b)) = _
    rw [hparse]
    rfl

lemma responseLength_of_digits {headers' : HttpHeaders}
    (hsame : headers'.get (text "Content-Length") = headers.get (text "Content-Length") ∨
      method ≠ text "HEAD") :
    responseLength headers' method (bodyLength method status chunked (declaredBy headers n)) =
      .ok (declaredLength method status chunked (declaredBy headers n)) := by
  rw [responseLength, declaredLength]
  by_cases hmethod : method = text "HEAD"
  · rw [if_pos hmethod, if_pos hmethod, hsame.resolve_right (not_not_intro hmethod), declaredBy]
    cases hvalue : headers.get (text "Content-Length") with
    | none => rfl
    | some value =>
      rw [h value (mem_of_mem_head? hvalue)]
      dsimp only
      rw [trimAsciiSpace_of_digits hparse, hparse]
      rfl
  · rw [if_neg hmethod, if_neg hmethod]

lemma fixLength_response (hheaders : headers.Canonical) :
    ∃ headers', fixLength headers true status method chunked =
        .ok (bodyLength method status chunked (declaredBy headers n), headers') ∧
      headers'.Canonical ∧
      (headers'.get (text "Content-Length") = headers.get (text "Content-Length") ∨
        method ≠ text "HEAD") := by
  obtain ⟨agreed, hagreed, hcanonical, hget⟩ := agreedContentLength_of_digits hheaders hparse h
  have hparsed : Option.mapM parseContentLength (headers.get (text "Content-Length")) =
      .ok (declaredBy headers n) := mapM_parseContentLength hparse h
  rw [fixLength, hagreed]
  dsimp only [bind, Except.bind]
  rw [hparsed, bodyLength]
  dsimp only
  by_cases hnone : method = text "HEAD" ∨ bodyAllowed status = false
  · rw [if_pos (by simpa using hnone), if_pos hnone]
    exact ⟨agreed, rfl, hcanonical, .inl hget⟩
  have hmethod : method ≠ text "HEAD" := fun heq => hnone (.inl heq)
  rw [if_neg (by simpa using hnone), if_neg hnone]
  cases chunked with
  | true => exact ⟨_, rfl, hcanonical.remove _, .inr hmethod⟩
  | false =>
    cases declaredBy headers n with
    | none => exact ⟨_, rfl, hcanonical.remove _, .inr hmethod⟩
    | some length => exact ⟨_, rfl, hcanonical, .inr hmethod⟩

end

/-! ## Reading a response -/

namespace Response

variable {response : Response}

def declared (response : Response) : Option Nat :=
  (valuesOf (text "Content-Length") response.contents).head?.map (number 10)

def isChunked (response : Response) : Bool :=
  decide (valuesOf (text "Transfer-Encoding") response.contents ≠ [])

/-- The body that the reader of a final response goes by. -/
def body (response : Response) (method : Str) : HttpBody :=
  let length := bodyLength method response.code response.isChunked response.declared
  if response.isChunked && method != text "HEAD" && bodyAllowed response.code then .chunked
  else if length = 0 then .none
  else if length = -1 then .untilClose
  else .length length.natAbs

structure ReadAs (response : Response) (method : Str) (head : HttpResponseHead) : Prop where
  version : head.version = response.version
  statusCode : head.statusCode = response.code
  status : head.status = response.status
  canonical : head.headers.Canonical
  contentLength : head.contentLength =
    declaredLength method response.code response.isChunked response.declared
  body : head.body = response.body method

lemma number_of_parseContentLength {digits : Bytes} {n : Nat}
    (h : parseContentLength digits = .ok n) : number 10 digits = n := by
  rw [parseContentLength] at h
  split at h
  · cases h
  split at h
  · cases h
    rfl
  · cases h

lemma readHttpResponseHead_fields (h : response.Final) (method : Str) (rest : Bytes) :
    ∃ head, readHttpResponseHead (linesOnWire (response.fields.map fieldOnWire) ++ crlf ++ rest)
        (response.statusLine ++ [13] ++ [10]) method = .ok (head, rest) ∧
      ReadAs response method head := by
  obtain ⟨digits, n, hparse, hdigits⟩ := h.lengths
  obtain ⟨block, hblock, hheaders⟩ := readHeaderLines_fields h.fields h.field_short {} .nothing rest
  have hblock' : readHeaderBlock false
      (linesOnWire (response.fields.map fieldOnWire) ++ crlf ++ rest) = .ok (block, rest) := hblock
  have hcanonical : (fixPragmaCacheControl block.headers).Canonical := by
    rw [hheaders]
    exact canonical_fixPragmaCacheControl (canonical_headersOf h.fields HttpHeaders.canonical_empty)
  have hvalues : ∀ key : Str, key.all isTokenByte = true →
      canonicalHeaderKey key ≠ text "Cache-Control" →
      (fixPragmaCacheControl block.headers).values key = valuesOf key response.contents := by
    intro key hkey hne
    rw [values_fixPragmaCacheControl _ hne, hheaders, values_headersOf h.fields hkey]
    rfl
  have hcoding := h.coding
  rw [← hvalues _ (by decide) (by decide)] at hcoding
  obtain ⟨headers, hchunked, hcanonical, hlengths⟩ := transferIsChunked_of_coding hcanonical hcoding
  rw [hvalues _ (by decide) (by decide)] at hchunked hlengths
  rw [← hlengths] at hdigits
  obtain ⟨headers', hfix, hcanonical', hget⟩ :=
    @fixLength_response headers digits n response.code method response.isChunked hparse hdigits
      hcanonical
  have hresponse := @responseLength_of_digits headers digits n response.code method
    response.isChunked hparse hdigits headers' hget
  have hdeclared : declaredBy headers n = response.declared := by
    rw [declaredBy, declared, HttpHeaders.get, ← hlengths]
    cases hvalue : headers.values (text "Content-Length") with
    | nil => rfl
    | cons value others =>
      rw [hvalue] at hdigits
      rw [hdigits value mem_cons_self]
      exact congrArg some (number_of_parseContentLength hparse).symm
  rw [hdeclared] at hfix hresponse
  refine ⟨⟨response.version, response.code, response.status, headers', response.body method,
    declaredLength method response.code response.isChunked response.declared⟩, ?_,
    ⟨rfl, rfl, rfl, hcanonical', rfl, rfl⟩⟩
  rw [readHttpResponseHead, dropLineEnd_crlf, parseStatusLine_statusLine h.toWellFormed h.utf8]
  dsimp only [bind, Except.bind]
  rw [hblock']
  dsimp only
  rw [hchunked]
  dsimp only [orMalformed]
  rw [← isChunked, hfix]
  dsimp only
  rw [hresponse]
  rfl

lemma statusLine_ne (response : Response) : response.statusLine ≠ [] := by
  simp [statusLine]

lemma bytes_append (response : Response) (rest : Bytes) :
    response.bytes ++ rest = response.statusLine ++ [13] ++
      10 :: (linesOnWire (response.fields.map fieldOnWire) ++ crlf ++ rest) := by
  simp [bytes, linesOnWire, crlf]

lemma readRawLine_bytes (h : response.WellFormed) (hshort : response.statusLine.length + 1 < maxLineLen)
    (rest : Bytes) : readRawLine (response.bytes ++ rest) =
      .ok (response.statusLine ++ [13] ++ [10],
        linesOnWire (response.fields.map fieldOnWire) ++ crlf ++ rest) := by
  rw [bytes_append, readRawLine_append]
  · rw [mem_append, not_or]
    exact ⟨not_mem_statusLine h (.inr rfl), by decide⟩
  · rw [length_append]
    exact hshort

lemma Interim.read (h : response.Interim) (rest : Bytes) :
    readInformational (response.statusLine ++ [13] ++ [10])
      (linesOnWire (response.fields.map fieldOnWire) ++ crlf ++ rest) =
        .ok (response.bytes, rest) := by
  obtain ⟨front, c, hline⟩ :=
    (eq_nil_or_concat' response.statusLine).resolve_left response.statusLine_ne
  have hc : c ≠ 10 := by
    rintro rfl
    exact not_mem_statusLine h.toWellFormed (.inr rfl) (hline ▸ by simp)
  have hbytes : response.bytes =
      front ++ [c] ++ crlf ++ linesOnWire (response.fields.map fieldOnWire) ++ crlf := by
    rw [bytes, linesOnWire, flatMap_cons, hline, linesOnWire]
  have hraw : response.statusLine ++ [13] ++ [10] = front ++ [c] ++ crlf := by
    rw [hline]
    simp [crlf]
  rw [hraw, hbytes]
  refine readInformational_lines hc ?_ ?_ (hbytes ▸ h.short) rest
  · intro line hmem
    obtain ⟨f, -, rfl⟩ := mem_map.mp hmem
    simp [fieldOnWire]
  · intro line hmem
    obtain ⟨f, hf, rfl⟩ := mem_map.mp hmem
    exact ⟨not_mem_fieldOnWire (h.fields f hf) (.inl rfl), not_mem_fieldOnWire (h.fields f hf) (.inr rfl)⟩

lemma Interim.line_short (h : response.Interim) : response.statusLine.length + 1 < maxLineLen := by
  have hshort := h.short
  rw [bytes, linesOnWire, flatMap_cons, length_append, length_append,
    length_append, maxInformationalHead] at hshort
  rw [maxLineLen]
  omega

end Response

def interimBytes (interim : Option Response) : Bytes := (interim.map Response.bytes).getD []

/-- A response is read behind at most one that is informational. -/
lemma readHttpResponse_final {interim : Option Response} {final : Response} (method : Str)
    (hinterim : ∀ response ∈ interim, response.Interim) (hfinal : final.Final) (rest : Bytes) :
    ∃ head, readHttpResponse (interimBytes interim ++ (final.bytes ++ rest)) method =
        .ok (⟨interim.map Response.bytes, head⟩, rest) ∧
      final.ReadAs method head := by
  obtain ⟨head, hread, hhead⟩ := Response.readHttpResponseHead_fields hfinal method rest
  have hfirst := Response.readRawLine_bytes hfinal.toWellFormed hfinal.line_short rest
  have hcode : ¬final.code < 200 := by
    have := hfinal.final
    omega
  refine ⟨head, ?_, hhead⟩
  cases interim with
  | none =>
    rw [readHttpResponse, interimBytes]
    simp only [Option.map_none, Option.getD_none, nil_append, bind, Except.bind, hfirst,
      Response.isInformational_statusLine hfinal.toWellFormed, hcode, hread]
    rfl
  | some response =>
    have hresponse := hinterim response rfl
    have hline := Response.readRawLine_bytes hresponse.toWellFormed hresponse.line_short
      (final.bytes ++ rest)
    have hraw := hresponse.read (final.bytes ++ rest)
    rw [readHttpResponse, interimBytes]
    simp only [Option.map_some, Option.getD_some, bind, Except.bind, hline,
      Response.isInformational_statusLine hresponse.toWellFormed, hresponse.informational,
      hraw, hfirst, hread]
    rfl

/-! ## The head for the client -/

lemma canonical_clientFields {head : HttpResponseHead} (h : head.headers.Canonical) :
    head.clientFields.Canonical := by
  rw [HttpResponseHead.clientFields]
  split
  · refine set ?_ _ (.of_token (by decide) (by decide))
    refine set ?_ _ (.of_token (by decide) (by decide))
    refine set ?_ _ (.of_token (by decide) (by decide))
    exact canonical_removeHopByHopHeaders h
  · exact canonical_removeHopByHopHeaders h

namespace HttpResponseHead

variable (head : HttpResponseHead) (method : Str)

def closeField : List (Str × Bytes) :=
  if !head.keepsAlive && !hasCloseToken (head.clientFields.values (text "Connection")) then
    [(text "Connection", text "close")]
  else []

def framingField : List (Str × Bytes) :=
  if head.sendsLength method then
    [(text "Content-Length", numeral 10 head.contentLength.natAbs)]
  else if head.body == .chunked then [(text "Transfer-Encoding", text "chunked")]
  else []

def zeroLengthField : List (Str × Bytes) :=
  if head.contentLength == 0 && head.body != .chunked && !head.sendsLength method &&
      bodyAllowed head.statusCode then
    [(text "Content-Length", text "0")]
  else []

def sentFields : List (Str × Bytes) :=
  head.closeField ++ (head.framingField method ++
    (head.clientFields.subset notInSubset ++ head.zeroLengthField method))

lemma closeLine_eq :
    head.closeLine = head.closeField.flatMap fun f => MessageHead.fieldLine f.1 f.2 := by
  rw [closeLine, closeField]
  split
  · rw [HttpHeaders.fieldLine_eq, flatMap_singleton]
  · rfl

lemma framingLine_eq : head.framingLine method =
    (head.framingField method).flatMap fun f => MessageHead.fieldLine f.1 f.2 := by
  rw [framingLine, framingField]
  split
  · rw [HttpHeaders.fieldLine_eq, flatMap_singleton]
  split
  · rw [HttpHeaders.fieldLine_eq, flatMap_singleton]
  · rfl

lemma zeroLengthLine_eq : head.zeroLengthLine method =
    (head.zeroLengthField method).flatMap fun f => MessageHead.fieldLine f.1 f.2 := by
  rw [zeroLengthLine, zeroLengthField]
  split
  · rw [HttpHeaders.fieldLine_eq, flatMap_singleton]
  · rfl

lemma clientHead_eq {first : Bytes} (hfirst : head.statusLine = first ++ crlf) :
    head.clientHead method = MessageHead.head first (head.sentFields method) := by
  rw [clientHead, hfirst, MessageHead.head, sentFields, flatMap_append, flatMap_append,
    flatMap_append, ← closeLine_eq, ← framingLine_eq, ← zeroLengthLine_eq,
    ← writeSubset_eq]
  simp only [append_assoc]
  rfl

lemma fieldOnLine_sentFields (h : head.headers.Canonical) :
    ∀ f ∈ head.sentFields method, FieldOnLine f := by
  have hlength : ∀ value : Bytes, (∀ b ∈ value, 32 < b.toNat) →
      FieldOnLine (text "Content-Length", value) :=
    fun value hvalue => fieldOnLine_of_visible (by decide) (by decide) hvalue
  intro f hf
  rw [sentFields, mem_append, mem_append, mem_append] at hf
  rcases hf with hf | hf | hf | hf
  · rw [closeField] at hf
    split at hf
    · obtain rfl := mem_singleton.mp hf
      exact fieldOnLine_of_visible (by decide) (by decide) (visible_of_all (by decide))
    · cases hf
  · rw [framingField] at hf
    split at hf
    · obtain rfl := mem_singleton.mp hf
      exact hlength _ (visible_numeral _)
    split at hf
    · obtain rfl := mem_singleton.mp hf
      exact fieldOnLine_of_visible (by decide) (by decide) (visible_of_all (by decide))
    · cases hf
  · exact fieldOnLine_of_mem_subset (canonical_clientFields h) hf
  · rw [zeroLengthField] at hf
    split at hf
    · obtain rfl := mem_singleton.mp hf
      exact hlength _ (visible_of_all (by decide))
    · cases hf

end HttpResponseHead

lemma numeral_of_digit : ∀ b, isDecimal b → numeral 10 (b.toNat - 48) = [b] :=
  forall_byte (by decide +kernel)

lemma statusLine_of_readAs {response : Response} {method : Str} {head : HttpResponseHead}
    (hresponse : response.WellFormed) (h : response.ReadAs method head) :
    head.statusLine = response.statusLine ++ crlf := by
  obtain ⟨-, hlength⟩ := parseStatusCode_numeral _ hresponse.code.2 hresponse.code.1
  have htext : head.statusText = response.reason := by
    have hstatus : head.status = (numeral 10 head.statusCode ++ [32]) ++ response.reason := by
      rw [h.status, h.statusCode, Response.status, append_assoc, singleton_append]
    rw [HttpResponseHead.statusText, hstatus, if_pos (List.isPrefixOf_iff_prefix.mpr ⟨_, rfl⟩), drop_left]
  rw [HttpResponseHead.statusLine, htext, h.version, h.statusCode, threeDigits, hlength,
    Response.version, numeral_of_digit _ hresponse.major, numeral_of_digit _ hresponse.minor,
    Response.statusLine, Response.status]
  simp

/-! ## How the client delimits the body -/

lemma valuesOf_append (key : Str) (fields more : List (Str × Bytes)) :
    valuesOf key (fields ++ more) = valuesOf key fields ++ valuesOf key more := by
  rw [valuesOf, filter_append, map_append, valuesOf, valuesOf]

namespace HttpResponseHead

variable {head : HttpResponseHead} (method : Str)

lemma valuesOf_subset (h : head.headers.Canonical) {key : Str} (hkey : key.all isTokenByte)
    (hmem : canonicalHeaderKey key ∈ notInSubset) :
    valuesOf key (head.clientFields.subset notInSubset) = [] := by
  rw [valuesOf, map_eq_nil_iff, filter_eq_nil_iff]
  intro f hf
  rw [eqIgnoreCase_of_mem_subset (canonical_clientFields h) hf hkey hmem]
  exact Bool.false_ne_true

lemma valuesOf_closeField {key : Str} (hkey : eqIgnoreCase (text "Connection") key = false) :
    valuesOf key head.closeField = [] := by
  rw [closeField]
  split
  · rw [valuesOf, filter_cons_of_neg (by rw [hkey]; exact Bool.false_ne_true)]
    rfl
  · rfl

lemma codings_sentFields (h : head.headers.Canonical) :
    valuesOf (text "Transfer-Encoding") (head.sentFields method) =
      if head.sendsLength method then []
      else if head.body == .chunked then [text "chunked"] else [] := by
  have hzero : valuesOf (text "Transfer-Encoding") (head.zeroLengthField method) = [] := by
    rw [zeroLengthField]
    split <;> rfl
  rw [sentFields, valuesOf_append, valuesOf_append, valuesOf_append,
    valuesOf_subset h (by decide) (by decide), valuesOf_closeField (by decide), hzero, framingField]
  split
  · rfl
  · split <;> rfl

lemma lengths_sentFields (h : head.headers.Canonical) :
    valuesOf (text "Content-Length") (head.sentFields method) =
      if head.sendsLength method then [numeral 10 head.contentLength.natAbs]
      else if head.contentLength = 0 ∧ head.body ≠ .chunked ∧ bodyAllowed head.statusCode = true then
        [text "0"]
      else [] := by
  rw [sentFields, valuesOf_append, valuesOf_append, valuesOf_append,
    valuesOf_subset h (by decide) (by decide), valuesOf_closeField (by decide), framingField,
    zeroLengthField]
  by_cases hsends : head.sendsLength method = true
  · simp only [hsends, Bool.not_true, Bool.and_false]
    rfl
  simp only [hsends, Bool.false_eq_true, if_false, Bool.not_false, Bool.and_true, Bool.and_eq_true,
    beq_iff_eq, bne_iff_ne, and_assoc]
  have hcoding : valuesOf (text "Content-Length")
      (if head.body = .chunked then [(text "Transfer-Encoding", text "chunked")] else []) = [] := by
    split <;> rfl
  rw [hcoding]
  split <;> rfl

end HttpResponseHead

/-- What is copied to the client is delimited by the head for it, and stands for the data of
the response. -/
def Delivers (response : Response) (method : Str) (head : HttpResponseHead)
    (payload data : Bytes) : Prop :=
  ∃ sent, copyBody head.body payload = ⟨sent, some []⟩ ∧
    Carries (framingOf method response.code (head.sentFields method)) sent data ∧
    (head.keepsAlive = true →
      framingOf method response.code (head.sentFields method) ≠ .untilClose)

namespace Response.ReadAs

variable {response : Response} {method : Str} {head : HttpResponseHead} {payload data : Bytes}
  (hpayload : Carries (framingOf method response.code response.contents) payload data)

include hpayload in
lemma delivers_none (h : response.ReadAs method head)
    (hnone : method = text "HEAD" ∨ bodyAllowed response.code = false) :
    Delivers response method head payload data := by
  rw [framingOf, if_pos hnone] at hpayload
  have hbody : head.body = .none := by
    rw [h.body, Response.body, bodyLength, if_pos (if_pos hnone)]
    rcases hnone with hnone | hnone <;> simp [hnone]
  rw [Delivers, framingOf, if_pos hnone, hbody]
  cases hpayload
  exact ⟨[], rfl, .none, fun _ => by simp⟩

section

variable (hsome : ¬(method = text "HEAD" ∨ bodyAllowed response.code = false))

include hsome

include hpayload in
lemma delivers_chunked (h : response.ReadAs method head)
    (hchunked : valuesOf (text "Transfer-Encoding") response.contents ≠ []) :
    Delivers response method head payload data := by
  rw [framingOf, if_neg hsome, if_pos hchunked] at hpayload
  obtain ⟨hmethod, hallowed⟩ := not_or.mp hsome
  have hbody : head.body = .chunked := by
    rw [Bool.not_eq_false] at hallowed
    rw [h.body, Response.body, isChunked, decide_eq_true hchunked, hallowed, if_pos]
    simpa using hmethod
  have hcodings : valuesOf (text "Transfer-Encoding") (head.sentFields method) ≠ [] := by
    rw [HttpResponseHead.codings_sentFields method h.canonical, HttpResponseHead.sendsLength, hbody]
    exact cons_ne_nil _ _
  rw [Delivers, framingOf, if_neg hsome, if_pos hcodings, hbody]
  cases hpayload with
  | chunked hbytes =>
    have hcopy := hbytes.copy []
    rw [append_nil] at hcopy
    exact ⟨_, hcopy, .chunked (chunked_chunkedBytes hbytes.bounds), fun _ => by simp⟩

variable (hplain : valuesOf (text "Transfer-Encoding") response.contents = [])

include hplain

lemma length_of_plain : bodyLength method response.code response.isChunked response.declared =
        (response.declared.map Int.ofNat).getD (-1) ∧
      declaredLength method response.code response.isChunked response.declared =
        (response.declared.map Int.ofNat).getD (-1) := by
  have hlength : bodyLength method response.code response.isChunked response.declared =
      (response.declared.map Int.ofNat).getD (-1) := by
    rw [bodyLength, if_neg hsome, isChunked, decide_eq_false (not_not_intro hplain),
      if_neg Bool.false_ne_true]
  refine ⟨hlength, ?_⟩
  rw [declaredLength, if_neg (fun heq => hsome (.inl heq)), hlength]

variable (h : response.ReadAs method head)

include h

lemma body_of_plain : head.body =
      match response.declared with
      | none => .untilClose
      | some 0 => .none
      | some n => .length n := by
  rw [h.body, Response.body, (length_of_plain hsome hplain).1, isChunked,
    decide_eq_false (not_not_intro hplain)]
  cases response.declared with
  | none => rfl
  | some n =>
    cases n with
    | zero => rfl
    | succ n => rfl

include hpayload in
lemma delivers_untilClose (hvalues : valuesOf (text "Content-Length") response.contents = []) :
    Delivers response method head payload data := by
  have hdeclared : response.declared = none := by
    rw [declared, hvalues]
    rfl
  have hbody := h.body_of_plain hsome hplain
  have hlength := h.contentLength.trans (length_of_plain hsome hplain).2
  rw [hdeclared] at hbody hlength
  have hminus : head.contentLength = -1 := hlength
  have hclose : head.body = .untilClose := hbody
  have hcodings := HttpResponseHead.codings_sentFields method h.canonical
  have hlengths := lengths_sentFields method h.canonical
  simp only [sendsLength, hminus] at hcodings hlengths
  rw [framingOf, if_neg hsome, if_neg (not_not_intro hplain), hvalues] at hpayload
  rw [Delivers, framingOf, if_neg hsome, hcodings, hlengths, hclose, keepsAlive, hminus]
  cases hpayload
  exact ⟨payload, rfl, .untilClose payload, fun hkeeps => absurd hkeeps (by decide)⟩

include hpayload in
lemma delivers_length {value : Bytes} {others : List Bytes}
    (hvalues : valuesOf (text "Content-Length") response.contents = value :: others) :
    Delivers response method head payload data := by
  rw [framingOf, if_neg hsome, if_neg (not_not_intro hplain), hvalues] at hpayload
  have hdeclared : response.declared = some (number 10 value) := by
    rw [declared, hvalues]
    rfl
  have hbody := h.body_of_plain hsome hplain
  have hlength := h.contentLength.trans (length_of_plain hsome hplain).2
  rw [hdeclared] at hbody hlength
  replace hpayload : Carries (.length (number 10 value)) payload data := hpayload
  generalize number 10 value = n at hpayload hbody hlength
  have hcontent : head.contentLength = (n : Int) := hlength
  have hchunked : head.body ≠ .chunked := by
    rw [hbody]
    cases n <;> simp
  have hcodings : valuesOf (text "Transfer-Encoding") (head.sentFields method) = [] := by
    rw [HttpResponseHead.codings_sentFields method h.canonical]
    split
    · rfl
    · rw [if_neg (by simpa using hchunked)]
  -- The length is written before the other fields, or behind them if it is zero.
  have hlengths : ∃ digits, number 10 digits = n ∧
      valuesOf (text "Content-Length") (head.sentFields method) = [digits] := by
    rw [HttpResponseHead.lengths_sentFields method h.canonical]
    by_cases hsends : head.sendsLength method = true
    · refine ⟨numeral 10 n, number_numeral (by decide) (by decide) n, ?_⟩
      rw [if_pos hsends, hcontent]
      rfl
    have hzero : n = 0 := by
      by_contra hne
      refine hsends ?_
      have hpos : (0 : Int) < n := by omega
      rw [sendsLength, hcontent, decide_eq_true hpos]
      simpa using hchunked
    refine ⟨text "0", hzero.symm, ?_⟩
    rw [if_neg hsends, if_pos]
    rw [hcontent, hzero, h.statusCode]
    exact ⟨rfl, hchunked, by simpa using (not_or.mp hsome).2⟩
  obtain ⟨digits, hdigits, hwritten⟩ := hlengths
  rw [Delivers, framingOf, if_neg hsome, if_neg (not_not_intro hcodings), hwritten]
  dsimp only
  rw [hdigits]
  cases hpayload with
  | length body =>
    refine ⟨payload, ?_, .length payload, fun _ => by simp⟩
    rw [hbody]
    cases hlen : payload.length with
    | zero =>
      obtain rfl := length_eq_zero_iff.mp hlen
      rfl
    | succ n =>
      show copyBodyLength payload (n + 1) = _
      have hcopy := copyBodyLength_append payload []
      rwa [append_nil, hlen] at hcopy

end

include hpayload in
lemma delivers (h : response.ReadAs method head) :
    Delivers response method head payload data := by
  by_cases hnone : method = text "HEAD" ∨ bodyAllowed response.code = false
  · exact h.delivers_none hpayload hnone
  by_cases hplain : valuesOf (text "Transfer-Encoding") response.contents = []
  · cases hvalues : valuesOf (text "Content-Length") response.contents with
    | nil => exact h.delivers_untilClose hpayload hnone hplain hvalues
    | cons value others => exact h.delivers_length hpayload hnone hplain hvalues
  · exact h.delivers_chunked hpayload hnone hplain

end Response.ReadAs

/-- A client gets the informational response as it came, and then a head with the status of the
final one and a body that this head delimits and that stands for the same data. It is told to
keep the connection only if the head alone delimits the body, and then everything was read. -/
theorem responses_stay_in_step (request : PlainHttpRequest) (forwarded client : Bytes)
    {interim : Option Response} {final : Response} {payload data : Bytes}
    (hinterim : ∀ response ∈ interim, response.Interim) (hfinal : final.Final)
    (hpayload : Carries (framingOf request.method final.code final.contents) payload data) :
    ∃ bytes fields sent, (exchange request forwarded client
        (interimBytes interim ++ (final.bytes ++ payload))).toClient =
          ⟨interimBytes interim ++ bytes, some []⟩ ∧
      MessageHead.read bytes = some (final.statusLine, fields, sent) ∧
      Carries (framingOf request.method final.code fields) sent data ∧
      ((exchange request forwarded client
        (interimBytes interim ++ (final.bytes ++ payload))).keeps = true →
          framingOf request.method final.code fields ≠ .untilClose) := by
  obtain ⟨head, hread, hhead⟩ := readHttpResponse_final request.method hinterim hfinal payload
  obtain ⟨sent, hcopy, hsent, hkeeps⟩ := hhead.delivers hpayload
  have hline := statusLine_of_readAs hfinal.toWellFormed hhead
  have hfields := head.fieldOnLine_sentFields request.method hhead.canonical
  refine ⟨head.clientHead request.method ++ sent, head.sentFields request.method, sent, ?_, ?_,
    hsent, ?_⟩
  · rw [exchange, download, hread]
    dsimp only
    rw [hcopy, interimBytes, append_assoc]
  · rw [head.clientHead_eq request.method hline]
    exact MessageHead.read_head final.statusLine_ne (not_mem_statusLine hfinal.toWellFormed (.inl rfl))
      (fun f hf => (hfields f hf).plain) sent
  · rw [exchange, download, hread]
    rw [Bool.and_eq_true, Bool.and_eq_true]
    exact fun h => hkeeps h.2.2

def continueResponse : Response := ⟨49, 49, 100, text "Continue", []⟩

def processingResponse : Response := ⟨49, 49, 102, text "Processing", []⟩

def okResponse : Response := ⟨49, 49, 200, text "OK", [(text "Content-Length", text " 2")]⟩

lemma interim_continueResponse : continueResponse.Interim where
  major := rfl
  minor := rfl
  code := by decide
  reason_cr := by decide
  reason_lf := by decide
  fields := fun f hf => absurd hf not_mem_nil
  informational := by decide
  no_switch := by decide
  short := by decide +kernel

lemma final_okResponse : okResponse.Final where
  major := rfl
  minor := rfl
  code := by decide
  reason_cr := by decide
  reason_lf := by decide
  fields := by
    intro f hf
    obtain rfl := mem_singleton.mp hf
    exact ⟨by decide, by decide, by decide, by decide⟩
  final := by decide
  utf8 := by decide +kernel
  line_short := by decide +kernel
  field_short := by decide
  coding := .inl rfl
  lengths := ⟨text "2", 2, rfl, by decide +kernel⟩

def getRequest : PlainHttpRequest :=
  { method := text "GET", destination := ⟨text "a", 80⟩, path := text "/",
    requestUri := text "/", host := text "a", headers := {}, body := .none, keepAlive := true }

theorem responses_stay_in_step_ok : ∃ bytes fields sent,
      (exchange getRequest [] [] (interimBytes (some continueResponse) ++
        (okResponse.bytes ++ text "hi"))).toClient =
          ⟨interimBytes (some continueResponse) ++ bytes, some []⟩ ∧
      MessageHead.read bytes = some (okResponse.statusLine, fields, sent) ∧
      Carries (framingOf (text "GET") 200 fields) sent (text "hi") ∧
      ((exchange getRequest [] [] (interimBytes (some continueResponse) ++
        (okResponse.bytes ++ text "hi"))).keeps = true →
          framingOf (text "GET") 200 fields ≠ .untilClose) := by
  have hinterim : ∀ response ∈ some continueResponse, response.Interim := by
    intro response hresponse
    cases hresponse
    exact interim_continueResponse
  exact responses_stay_in_step getRequest [] [] hinterim final_okResponse (.length (text "hi"))

/-- A second informational response is taken for the final one. -/
theorem second_interim_is_final : (exchange getRequest [] []
    (continueResponse.bytes ++
      (processingResponse.bytes ++ (okResponse.bytes ++ text "hi")))).toClient.output =
      continueResponse.bytes ++ text "HTTP/1.1 102 Processing" ++ crlf ++
        text "Connection: keep-alive" ++ crlf ++ text "Keep-Alive: timeout=60" ++ crlf ++
        text "Proxy-Connection: keep-alive" ++ crlf ++ crlf := by
  decide +kernel

end Xray.Http
