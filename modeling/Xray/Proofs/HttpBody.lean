import Xray.Http.Exchange

/-!
# Lines and bodies as they are read

A line is read up to its `\n`, and a body up to its end, and no further: what a reader has
consumed and what it leaves make up its input. The lemmas go both ways, since what is read
from one peer is also what the other may send.
-/

namespace Xray.Http

open Ascii Numeral List

variable {input bytes : Bytes} {chunks : List Bytes} {line rest : Bytes}

lemma readLineLoop_eq_ok {out : Bytes} : readLineLoop line input = .ok (out, rest) ↔
    ∃ raw, input = raw ++ 10 :: rest ∧ 10 ∉ raw ∧ (line ++ raw).length < maxLineLen ∧
      out = dropCr (line ++ raw) := by
  induction input generalizing line with
  | nil =>
    rw [readLineLoop]
    constructor
    · intro h
      split at h <;> cases h
    · rintro ⟨raw, hinput, -⟩
      simp at hinput
  | cons b input ih =>
    rw [readLineLoop]
    constructor
    · intro h
      split at h
      · cases h
      next hlen =>
      split at h
      · next hb =>
        cases h
        exact ⟨[], by rw [hb]; rfl, by simp, by simpa using hlen, by rw [append_nil]⟩
      next hb =>
      obtain ⟨raw, rfl, hraw, hlen, rfl⟩ := ih.mp h
      refine ⟨b :: raw, rfl, by simp [hraw, Ne.symm hb], ?_, ?_⟩
      · simpa using hlen
      · simp
    · rintro ⟨raw, hinput, hraw, hlen, rfl⟩
      have hlong : ¬maxLineLen ≤ line.length := by
        rw [length_append] at hlen
        omega
      rw [if_neg hlong]
      cases raw with
      | nil =>
        obtain ⟨rfl, rfl⟩ := List.cons.inj hinput
        rw [if_pos rfl, append_nil]
      | cons c raw =>
        obtain ⟨rfl, rfl⟩ := List.cons.inj hinput
        simp only [mem_cons, not_or] at hraw
        rw [if_neg (Ne.symm hraw.1)]
        exact ih.mpr ⟨raw, rfl, hraw.2, by simpa using hlen, by simp⟩

structure Line (raw line : Bytes) : Prop where
  noBreak : 10 ∉ raw
  short : raw.length < maxLineLen
  content : dropCr raw = line

lemma readLine_eq_ok :
    readLine input = .ok (line, rest) ↔ ∃ raw, input = raw ++ 10 :: rest ∧ Line raw line := by
  rw [readLine, readLineLoop_eq_ok]
  constructor <;> rintro ⟨raw, hinput, hraw, hlen, hline⟩ <;>
    exact ⟨raw, hinput, hraw, hlen, hline.symm⟩

lemma Line.read {raw : Bytes} (h : Line raw line) (rest : Bytes) :
    readLine (raw ++ 10 :: rest) = .ok (line, rest) := readLine_eq_ok.mpr ⟨raw, rfl, h⟩

/-- Lines that say something, up to a blank one. -/
inductive LineBlock : Bytes → Prop
  | blank {raw : Bytes} (h : Line raw []) : LineBlock (raw ++ [10])
  | line {raw line rest : Bytes} (h : Line raw line) (hne : line ≠ []) (hrest : LineBlock rest) :
      LineBlock (raw ++ 10 :: rest)

inductive Chunked : Bytes → List Bytes → Prop
  | last {raw line trailer : Bytes} (h : Line raw line) (hsize : chunkSize line = some 0)
      (htrailer : LineBlock trailer) : Chunked (raw ++ 10 :: trailer) []
  | chunk {raw line data blank rest : Bytes} {chunks : List Bytes} (h : Line raw line)
      (hsize : chunkSize line = some data.length) (hdata : data ≠ []) (hblank : Line blank [])
      (hrest : Chunked rest chunks) :
      Chunked (raw ++ 10 :: (data ++ (blank ++ 10 :: rest))) (data :: chunks)

def chunkBytes (data : Bytes) : Bytes := numeral 16 data.length ++ crlf ++ data ++ crlf

/-- A chunked body as it is written. -/
def chunkedBytes (chunks : List Bytes) : Bytes := chunks.flatMap chunkBytes ++ lastChunk

lemma skipTrailer_of_line (h : readLine input = .ok (line, rest)) :
    skipTrailer input = if line = [] then some rest else skipTrailer rest := by
  rw [skipTrailer]
  split
  · next hline =>
    rw [h] at hline
    cases hline
  next hline =>
  rw [h] at hline
  cases hline
  rfl

lemma lineBlock_of_skipTrailer (h : skipTrailer input = some rest) :
    ∃ trailer, input = trailer ++ rest ∧ LineBlock trailer := by
  fun_induction skipTrailer input with
  | case1 => cases h
  | case2 input behind hline =>
    cases h
    obtain ⟨raw, rfl, hraw⟩ := readLine_eq_ok.mp hline
    exact ⟨raw ++ [10], by simp, .blank hraw⟩
  | case3 input line behind hline hne ih =>
    obtain ⟨raw, rfl, hraw⟩ := readLine_eq_ok.mp hline
    obtain ⟨trailer, rfl, htrailer⟩ := ih h
    exact ⟨raw ++ 10 :: trailer, by simp, .line hraw hne htrailer⟩

lemma LineBlock.skip {trailer : Bytes} (h : LineBlock trailer) (rest : Bytes) :
    skipTrailer (trailer ++ rest) = some rest := by
  induction h with
  | blank h =>
    rw [append_assoc, singleton_append, skipTrailer_of_line (h.read rest), if_pos rfl]
  | @line raw line trailer h hne hrest ih =>
    rw [append_assoc, cons_append, skipTrailer_of_line (h.read (trailer ++ rest)), if_neg hne, ih]

lemma readChunkEnd_eq_some :
    readChunkEnd input = some rest ↔ ∃ raw, input = raw ++ 10 :: rest ∧ Line raw [] := by
  rw [← readLine_eq_ok, readChunkEnd]
  cases hline : readLine input with
  | error e => simp
  | ok found =>
    obtain ⟨line, behind⟩ := found
    by_cases hnil : line = [] <;> simp [hnil]

lemma copyBodyLength_append (data rest : Bytes) :
    copyBodyLength (data ++ rest) data.length = ⟨data, some rest⟩ := by
  rw [copyBodyLength, take_left, drop_left, if_neg (by simp)]

lemma copyBodyLength_rest {length : Nat} (h : (copyBodyLength input length).rest = some rest) :
    ∃ data, input = data ++ rest ∧ data.length = length ∧
      (copyBodyLength input length).output = data := by
  rw [copyBodyLength] at h
  split at h
  · cases h
  next hlen =>
  cases h
  refine ⟨input.take length, (take_append_drop _ _).symm, ?_, rfl⟩
  rw [length_take]
  omega

lemma copyBodyChunked_of_line (h : readLine input = .ok (line, rest)) :
    copyBodyChunked input =
      match chunkSize line with
      | none => ⟨[], none⟩
      | some 0 => ⟨if (skipTrailer rest).isSome then lastChunk else [], skipTrailer rest⟩
      | some (n + 1) =>
        let front := numeral 16 (n + 1) ++ crlf ++ (copyBodyLength rest (n + 1)).output
        match (copyBodyLength rest (n + 1)).rest with
        | none => ⟨front, none⟩
        | some rest =>
          match readChunkEnd rest with
          | none => ⟨front ++ crlf, none⟩
          | some rest =>
            ⟨front ++ crlf ++ (copyBodyChunked rest).output, (copyBodyChunked rest).rest⟩ := by
  rw [copyBodyChunked]
  split
  · next hline =>
    rw [h] at hline
    cases hline
  next hline =>
  rw [h] at hline
  cases hline
  cases chunkSize line with
  | none => rfl
  | some size =>
    cases size with
    | zero =>
      cases skipTrailer rest <;> rfl
    | succ n =>
      dsimp only
      split
      · next hdata => rw [hdata]
      next hdata =>
      rw [hdata]
      dsimp only
      split
      all_goals
        next hend => rw [hend]

lemma Chunked.copy (h : Chunked bytes chunks) (rest : Bytes) :
    copyBodyChunked (bytes ++ rest) = ⟨chunkedBytes chunks, some rest⟩ := by
  induction h with
  | @last raw line trailer h hsize htrailer =>
    rw [append_assoc, cons_append, copyBodyChunked_of_line (h.read (trailer ++ rest)), hsize]
    rw [htrailer.skip]
    rfl
  | @chunk raw line data blank more chunks h hsize hdata hblank hmore ih =>
    obtain ⟨n, hn⟩ : ∃ n, data.length = n + 1 :=
      ⟨data.length - 1, by have := length_pos_iff.mpr hdata; omega⟩
    have hinput : raw ++ 10 :: (data ++ (blank ++ 10 :: more)) ++ rest =
        raw ++ 10 :: (data ++ (blank ++ 10 :: (more ++ rest))) := by
      simp
    rw [hinput, copyBodyChunked_of_line (h.read _), hsize, hn]
    dsimp only
    rw [← hn, copyBodyLength_append]
    dsimp only
    rw [readChunkEnd_eq_some.mpr ⟨blank, rfl, hblank⟩]
    dsimp only
    rw [ih, chunkedBytes, chunkedBytes, flatMap_cons, chunkBytes]
    simp only [append_assoc]

lemma copyBodyChunked_rest (h : (copyBodyChunked input).rest = some rest) :
    (∃ raw line trailer, input = raw ++ 10 :: (trailer ++ rest) ∧ Line raw line ∧
      chunkSize line = some 0 ∧ LineBlock trailer ∧ (copyBodyChunked input).output = lastChunk) ∨
    ∃ raw line data blank more, input = raw ++ 10 :: (data ++ (blank ++ 10 :: more)) ∧
      Line raw line ∧ chunkSize line = some data.length ∧ data ≠ [] ∧ Line blank [] ∧
      (copyBodyChunked more).rest = some rest ∧
      (copyBodyChunked input).output = chunkBytes data ++ (copyBodyChunked more).output := by
  cases hline : readLine input with
  | error e =>
    rw [copyBodyChunked] at h
    split at h
    · cases h
    next hok =>
    rw [hline] at hok
    cases hok
  | ok found =>
    obtain ⟨line, behind⟩ := found
    rw [copyBodyChunked_of_line hline] at h ⊢
    obtain ⟨raw, rfl, hraw⟩ := readLine_eq_ok.mp hline
    split at h
    · cases h
    · next hsize =>
      have hskip : skipTrailer behind = some rest := h
      obtain ⟨trailer, rfl, htrailer⟩ := lineBlock_of_skipTrailer hskip
      refine .inl ⟨raw, line, trailer, rfl, hraw, hsize, htrailer, ?_⟩
      rw [hskip]
      rfl
    next n hsize =>
    split at h
    · cases h
    next afterData hdata =>
    split at h
    · cases h
    next more hend =>
    obtain ⟨data, rfl, hlength, houtput⟩ := copyBodyLength_rest hdata
    have hsize : chunkSize line = some data.length := hsize.trans (hlength ▸ rfl)
    obtain ⟨blank, rfl, hblank⟩ := readChunkEnd_eq_some.mp hend
    refine .inr ⟨raw, line, data, blank, more, rfl, hraw, hsize, ?_, hblank, h, ?_⟩
    · rintro rfl
      cases hlength
    · rw [houtput, ← hlength, chunkBytes]

/-- What a completed copy has read is a chunked body, and what it has written are its
chunks. -/
lemma chunked_of_copyBodyChunked (h : (copyBodyChunked input).rest = some rest) :
    ∃ bytes chunks, input = bytes ++ rest ∧ Chunked bytes chunks ∧
      (copyBodyChunked input).output = chunkedBytes chunks := by
  induction hlen : input.length using Nat.strong_induction_on generalizing input with
  | _ len ih =>
    rcases copyBodyChunked_rest h with ⟨raw, line, trailer, rfl, hraw, hsize, htrailer, houtput⟩ |
      ⟨raw, line, data, blank, more, rfl, hraw, hsize, hdata, hblank, hmore, houtput⟩
    · exact ⟨raw ++ 10 :: trailer, [], by simp, .last hraw hsize htrailer, houtput⟩
    have hless : more.length < len := by
      simp only [length_append, length_cons] at hlen
      omega
    obtain ⟨bytes, chunks, rfl, hchunked, hwritten⟩ := ih _ hless hmore rfl
    refine ⟨_, data :: chunks, ?_, .chunk hraw hsize hdata hblank hchunked, ?_⟩
    · simp
    · rw [houtput, hwritten, chunkedBytes, chunkedBytes, flatMap_cons, append_assoc]

/-! ## Chunks that are written are read -/

lemma chunkSize_lt {size : Nat} (h : chunkSize line = some size) : size < 16 ^ 16 := by
  rw [chunkSize] at h
  split at h
  · cases h
  next hvalid =>
  cases h
  rw [not_or, not_or, not_lt, Bool.not_eq_true, Bool.not_eq_false'] at hvalid
  obtain ⟨-, hlength, hdigits⟩ := hvalid
  calc _ < 16 ^ _ := number_lt _ (all_eq_true.mp hdigits)
    _ ≤ 16 ^ 16 := Nat.pow_le_pow_right (by decide) hlength

lemma not_mem_numeral {base n : Nat} (hbase : 1 < base) (hle : base ≤ 16) {b : UInt8}
    (hb : isDigit base b = false) : b ∉ numeral base n := by
  intro hmem
  rw [isDigit_of_mem_numeral hbase hle hmem] at hb
  cases hb

lemma chunkSize_numeral {n : Nat} (h : n < 16 ^ 16) : chunkSize (numeral 16 n) = some n := by
  have hblank : ∀ b ∈ numeral 16 n, isBlank b = false := by
    intro b hb
    have hdigit := le_of_isDigit (isDigit_of_mem_numeral (by decide) (by decide) hb)
    rw [isBlank, Bool.or_eq_false_iff, beq_eq_false_iff_ne, beq_eq_false_iff_ne]
    constructor
    all_goals
      rintro rfl
      exact absurd hdigit (by decide)
  have hlength := length_numeral_le (by decide) (by decide) h
  have hdigits : (numeral 16 n).all (isDigit 16) = true :=
    all_eq_true.mpr fun b hb => isDigit_of_mem_numeral (by decide) (by decide) hb
  rw [chunkSize, splitAll_of_not_mem (not_mem_numeral (by decide) (by decide) (by decide)),
    headD_cons, trimBlank, trim_eq_self hblank]
  rw [if_neg, number_numeral (by decide) (by decide)]
  rw [not_or, not_or, hdigits]
  exact ⟨numeral_ne_nil 16 n, not_lt.mpr hlength, by simp⟩

lemma Line.of_crlf (hbreak : 10 ∉ line) (hshort : line.length + 1 < maxLineLen) :
    Line (line ++ [13]) line where
  noBreak := by
    rw [mem_append, not_or]
    exact ⟨hbreak, by decide⟩
  short := by
    rw [length_append]
    exact hshort
  content := by
    rw [dropCr, getLast?_concat, if_pos rfl, dropLast_concat]

lemma line_cr : Line [13] [] := .of_crlf not_mem_nil (by decide)

lemma Chunked.bounds (h : Chunked bytes chunks) :
    ∀ data ∈ chunks, data ≠ [] ∧ data.length < 16 ^ 16 := by
  induction h with
  | last => exact by simp
  | chunk h hsize hdata hblank hrest ih =>
    intro other hother
    rcases mem_cons.mp hother with rfl | hother
    · exact ⟨hdata, chunkSize_lt hsize⟩
    · exact ih other hother

lemma chunked_chunkedBytes (h : ∀ data ∈ chunks, data ≠ [] ∧ data.length < 16 ^ 16) :
    Chunked (chunkedBytes chunks) chunks := by
  induction chunks with
  | nil =>
    have hline : Line (text "0" ++ [13]) (text "0") := .of_crlf (by decide) (by decide)
    exact .last hline rfl (.blank line_cr)
  | cons data chunks ih =>
    obtain ⟨hne, hsize⟩ := h data mem_cons_self
    have hlength := length_numeral_le (by decide) (by decide) hsize
    have hline : Line (numeral 16 data.length ++ [13]) (numeral 16 data.length) :=
      .of_crlf (not_mem_numeral (by decide) (by decide) (by decide)) (by rw [maxLineLen]; omega)
    have hrest := ih fun other hother => h other (mem_cons_of_mem _ hother)
    have hwritten := Chunked.chunk hline (chunkSize_numeral hsize) hne line_cr hrest
    simpa [chunkedBytes, chunkBytes, crlf] using hwritten

end Xray.Http
