import Mathlib.Data.List.Induction
import Xray.Lib.Fallible
import Xray.Transport.PenetratingTls

/-!
# What a switch to direct reads leaves to read

While the stream reads TLS, the limiter knows how much of the current record is to come, and
the session has opened the records before it and keeps the part of it that was read. No read
goes beyond the end of the record, and the session asks for no input while it has plaintext,
so once it has returned some of the last record, the carrier is at the first raw byte. What
the switch takes out of the session is the rest of the plaintext.

Writes go through the session in both states and touch nothing that the reads look at.
-/

namespace Xray.Transport

open Bytes Fallible
open List CapturedStream Carrier Duplex PenetratingTlsStream Session TlsRecord TlsRecordReadLimiter
  TlsStream Use

section

variable (record : TlsRecord)

lemma TlsRecord.length_header : record.header.length = headerSize := by
  rfl

lemma TlsRecord.length_bytes : record.bytes.length = headerSize + record.payload.length := by
  rw [bytes, length_append, length_header]

lemma TlsRecord.length_bytes_pos : 0 < record.bytes.length := by
  rw [length_bytes, headerSize]
  omega

lemma TlsRecord.ofBe_header : ofBe (record.header.drop 3) = record.payload.length :=
  ofBe_toBe_of_lt record.fits

lemma deframe_bytes : deframe record.bytes = some (record, []) := by
  have hlen := record.ofBe_header
  obtain ⟨contentType, versionMajor, versionMinor, payload, fits⟩ := record
  have hlen : ofBe [UInt8.ofNat (payload.length / 256 ^ 1), UInt8.ofNat (payload.length / 256 ^ 0)] =
      payload.length := hlen
  show deframe (contentType :: versionMajor :: versionMinor ::
    UInt8.ofNat (payload.length / 256 ^ 1) :: UInt8.ofNat (payload.length / 256 ^ 0) ::
      payload) = _
  rw [deframe]
  simp only [hlen, Nat.le_refl, if_true, take_length, drop_length]

end

lemma deframe_take {record : TlsRecord} {n : Nat} (hn : n < record.bytes.length) :
    deframe (record.bytes.take n) = none := by
  rw [deframe.eq_def]
  split
  · next contentType versionMajor versionMinor high low rest hpart =>
    have hlong : headerSize ≤ n := by
      have := congrArg List.length hpart
      simp only [length_take, length_cons] at this
      rw [headerSize]
      omega
    rw [TlsRecord.bytes, take_append, take_of_length_le (by
      rw [TlsRecord.length_header]; exact hlong), TlsRecord.header] at hpart
    simp only [toBe, cons_append, nil_append, List.cons.injEq] at hpart
    obtain ⟨-, -, -, hhigh, hlow, hrest⟩ := hpart
    have hlen : ofBe [high, low] = record.payload.length := by
      rw [← hhigh, ← hlow]
      exact record.ofBe_header
    rw [if_neg]
    rw [← hrest, length_take]
    rw [length_bytes] at hn
    simp only [length_cons]
    rw [headerSize] at hn hlong
    omega
  · rfl

namespace TlsRecordReadLimiter

/-- The limiter after `n` bytes of a record. -/
def inside (record : TlsRecord) (n : Nat) : TlsRecordReadLimiter :=
  if n < headerSize then { header := record.header.take n }
  else { header := record.header, payloadRemaining := record.bytes.length - n }

/-- How far a read may go: to the end of the header, or to that of the record. -/
def gap (record : TlsRecord) (n : Nat) : Nat :=
  if n < headerSize then headerSize - n else record.bytes.length - n

lemma nextLimit_inside (record : TlsRecord) (n size : Nat) :
    (inside record n).nextLimit size = min size (gap record n) := by
  rw [inside, gap, nextLimit]
  by_cases hn : n < headerSize
  · have hlen : (record.header.take n).length = n := by
      rw [length_take, length_header]
      omega
    simp only [if_pos hn, hlen]
  · simp only [if_neg hn, length_header, Nat.lt_irrefl, if_false]

variable {record : TlsRecord} {n m : Nat}

lemma gap_pos (hn : n < record.bytes.length) : 0 < gap record n := by
  rw [gap]
  split <;> omega

lemma gap_le (record : TlsRecord) (n : Nat) (hn : n ≤ record.bytes.length) :
    n + gap record n ≤ record.bytes.length := by
  rw [gap]
  have := record.length_bytes
  split <;> omega

lemma header_take_append (h : n + m ≤ headerSize) :
    record.header.take n ++ ((record.bytes.drop n).take m).take (headerSize - n) =
      record.header.take (n + m) := by
  have hheader : record.header.length = headerSize := record.length_header
  rw [take_take, Nat.min_eq_right (by omega), TlsRecord.bytes, drop_append_of_le_length (by omega),
    take_append_of_le_length (by rw [length_drop]; omega), ← take_add]

lemma observe_inside (hn : n < record.bytes.length) (hm : 0 < m) (hgap : m ≤ gap record n) :
    (inside record n).observe ((record.bytes.drop n).take m) =
      if n + m = record.bytes.length then {} else inside record (n + m) := by
  have hlen := record.length_bytes
  have hheader : record.header.length = headerSize := record.length_header
  have hle := gap_le record n (by omega)
  have hread : ((record.bytes.drop n).take m).length = m := by
    rw [length_take, length_drop]
    omega
  have hsome : (record.bytes.drop n).take m ≠ [] := by
    intro hnil
    rw [hnil, length_nil] at hread
    omega
  rw [observe, if_neg hsome]
  by_cases hinside : n < headerSize
  · have hm : n + m ≤ headerSize := by
      rw [gap, if_pos hinside] at hgap
      omega
    have htake : (record.header.take n).length = n := by
      rw [length_take]
      omega
    have htake' : (record.header.take (n + m)).length = n + m := by
      rw [length_take]
      omega
    rw [inside]
    simp only [htake, if_pos hinside, header_take_append hm, htake']
    by_cases hend : n + m = headerSize
    · rw [if_pos hend, hend, take_of_length_le (by omega), record.ofBe_header]
      by_cases hempty : record.payload.length = 0
      · rw [if_pos hempty, if_pos (by omega), hempty]
      · rw [if_neg hempty, if_neg (by omega), inside, if_neg (Nat.lt_irrefl _), hlen,
          Nat.add_sub_cancel_left]
    · rw [if_neg hend, if_neg (by omega), inside, if_pos (by omega)]
  · rw [inside, if_neg hinside]
    simp only [hheader, Nat.lt_irrefl, if_false]
    by_cases hend : n + m = record.bytes.length
    · rw [if_pos (by omega), if_pos hend]
      congr 1
      omega
    · rw [if_neg (by omega), if_neg hend, inside, if_neg (by omega)]
      congr 1
      omega

end TlsRecordReadLimiter

/-! ## Reads from the carrier -/

lemma Duplex.pollRead_eq {io io' : Duplex} {size : Nat} {poll : Poll Bytes}
    (h : io.pollRead size = (poll, io')) :
    io.incoming.pollRead size = (poll, io'.incoming) ∧ io'.room = io.room ∧ io'.sent = io.sent := by
  obtain ⟨rfl, rfl⟩ := h
  exact ⟨rfl, rfl, rfl⟩

namespace CapturedStream

def pauses (captured : CapturedStream) : Nat := captured.stream.incoming.pauses

variable {captured captured' : CapturedStream}

/-- A read inside a record: nothing yet, or some bytes of the record and no more. -/
lemma pollRead_inside {record : TlsRecord} {n size : Nat} {more : Bytes} {poll : Poll Bytes}
    (hsize : 0 < size) (hn : n < record.bytes.length) (haligned : captured.limiterReleased = false)
    (hlimiter : captured.tlsReadLimiter = .inside record n)
    (hbytes : captured.toRead = record.bytes.drop n ++ more)
    (h : captured.pollRead size = (poll, captured')) :
    captured'.limiterReleased = false ∧
    (poll = .pending ∧ captured'.tlsReadLimiter = .inside record n ∧
        captured'.toRead = captured.toRead ∨
      ∃ m, 0 < m ∧ n + m ≤ record.bytes.length ∧ poll = .ready ((record.bytes.drop n).take m) ∧
        captured'.tlsReadLimiter =
          (if n + m = record.bytes.length then {} else .inside record (n + m)) ∧
        captured'.toRead = record.bytes.drop (n + m) ++ more) := by
  have hgap := gap_pos hn
  rw [pollRead, if_neg (by omega), haligned, if_neg (by simp), hlimiter, nextLimit_inside] at h
  split at h
  · next filled stream hpoll =>
    obtain ⟨hread, -, -⟩ := pollRead_eq hpoll
    have hle := length_pollRead_le hread
    obtain ⟨hgot, -, hempty⟩ := pollRead_ready (by
      rw [tlsReadChunkLimit]
      omega) hread
    cases h
    have hbytes : filled ++ stream.incoming.bytes = record.bytes.drop n ++ more := by
      rw [hgot]
      exact hbytes
    have hm : filled.length ≤ gap record n := by omega
    have hend := gap_le record n (by omega)
    have hin : filled.length ≤ (record.bytes.drop n).length := by
      rw [length_drop]
      omega
    have hfilled : filled = (record.bytes.drop n).take filled.length := by
      have := congrArg (List.take filled.length) hbytes
      rwa [take_left, take_append_of_le_length hin] at this
    have hrest : stream.incoming.bytes = record.bytes.drop (n + filled.length) ++ more := by
      have := congrArg (List.drop filled.length) hbytes
      rwa [drop_left, drop_append_of_le_length hin, drop_drop] at this
    have hpos : 0 < filled.length := by
      refine length_pos_iff.mpr fun hnil => ?_
      have hnone := congrArg List.length hbytes
      rw [hempty hnil] at hgot
      rw [hgot, length_append, length_drop] at hnone
      simp only [Carrier.bytes, length_nil] at hnone
      omega
    refine ⟨rfl, .inr ⟨filled.length, hpos, by omega, by rw [← hfilled], ?_, hrest⟩⟩
    rw [← observe_inside hn hpos hm, ← hfilled]
  next stream hpoll =>
  obtain ⟨hread, -, -⟩ := pollRead_eq hpoll
  cases h
  exact ⟨rfl, .inl ⟨rfl, rfl, (pollRead_pending hread).1⟩⟩

lemma pollRead_released {size : Nat} {poll : Poll Bytes}
    (hreleased : captured.limiterReleased) (hsize : 0 < size)
    (h : captured.pollRead size = (poll, captured')) :
    captured'.limiterReleased ∧
    captured.stream.incoming.pollRead size = (poll, captured'.stream.incoming) := by
  rw [pollRead, if_neg (by omega), if_pos hreleased] at h
  cases h
  exact ⟨hreleased, rfl⟩

end CapturedStream

/-- The plaintext of some records, opened one after the other. -/
def Cipher.decryptAll (c : Cipher) : c.Reading → List TlsRecord → Except c.Error (c.Reading × Bytes)
  | reading, [] => .ok (reading, [])
  | reading, record :: records => do
    let (reading, plain) ← c.decrypt reading record
    let (reading, plains) ← c.decryptAll reading records
    return (reading, plain ++ plains)

section

variable {c : Cipher} {reading' last : c.Reading} {plain total : Bytes}
  {stream₁ stream₂ stream₃ : TlsStream c} {reading : c.Reading} {record : TlsRecord}

lemma decryptAll_cons {records : List TlsRecord} :
    c.decryptAll reading (record :: records) = .ok (reading', plain) ↔
    ∃ next first rest, c.decrypt reading record = .ok (next, first) ∧
      c.decryptAll next records = .ok (reading', rest) ∧ plain = first ++ rest := by
  rw [Cipher.decryptAll, bind_eq_ok]
  constructor
  · rintro ⟨⟨next, first⟩, hfirst, h⟩
    obtain ⟨⟨last, rest⟩, hrest, h⟩ := bind_eq_ok.mp h
    cases h
    exact ⟨next, first, rest, hfirst, hrest, rfl⟩
  · rintro ⟨next, first, rest, hfirst, hrest, rfl⟩
    refine ⟨(next, first), hfirst, ?_⟩
    show (c.decryptAll next records >>= _) = _
    rw [hrest]
    rfl

lemma decryptAll_append {records more : List TlsRecord} :
    ∀ {reading reading' : c.Reading} {plain : Bytes},
      c.decryptAll reading (records ++ more) = .ok (reading', plain) ↔
      ∃ next first rest, c.decryptAll reading records = .ok (next, first) ∧
        c.decryptAll next more = .ok (reading', rest) ∧ plain = first ++ rest := by
  induction records with
  | nil =>
    intro reading reading' plain
    constructor
    · intro h
      exact ⟨reading, [], plain, rfl, h, rfl⟩
    rintro ⟨next, first, rest, hfirst, hrest, rfl⟩
    cases hfirst
    exact hrest
  | cons record records ih =>
    intro reading reading' plain
    rw [cons_append, decryptAll_cons]
    constructor
    · rintro ⟨next, first, rest, hfirst, hrest, rfl⟩
      obtain ⟨mid, second, tail, hsecond, htail, rfl⟩ := ih.mp hrest
      exact ⟨mid, first ++ second, tail,
        decryptAll_cons.mpr ⟨next, first, second, hfirst, hsecond, rfl⟩, htail,
        (append_assoc _ _ _).symm⟩
    · rintro ⟨mid, front, tail, hfront, htail, rfl⟩
      obtain ⟨next, first, second, hfirst, hsecond, rfl⟩ := decryptAll_cons.mp hfront
      exact ⟨next, first, second ++ tail, hfirst, ih.mpr ⟨mid, second, tail, hsecond, htail, rfl⟩,
        append_assoc _ _ _⟩

lemma decryptAll_singleton (h : c.decrypt reading record = .ok (reading', plain)) :
    c.decryptAll reading [record] = .ok (reading', plain) :=
  decryptAll_cons.mpr ⟨reading', plain, [], h, rfl, (append_nil _).symm⟩

lemma openRecords_take {n : Nat} (hn : n < record.bytes.length) (reading : c.Reading) :
    openRecords c reading (record.bytes.take n) = .ok (reading, record.bytes.take n, []) := by
  rw [openRecords]
  split
  · rfl
  next h =>
  rw [deframe_take hn] at h
  cases h

lemma openRecords_bytes (h : c.decrypt reading record = .ok (reading', plain)) :
    openRecords c reading record.bytes = .ok (reading', [], plain) := by
  have hnil : openRecords c reading' [] = .ok (reading', [], []) := by
    rw [openRecords]
    rfl
  rw [openRecords]
  split
  · next hnone =>
    rw [deframe_bytes] at hnone
    cases hnone
  next found rest hfound =>
  rw [deframe_bytes] at hfound
  cases hfound
  show (c.decrypt reading record >>= _) = _
  rw [h]
  show (openRecords c reading' [] >>= _) = _
  rw [hnil]
  show Except.ok (reading', [], plain ++ []) = _
  rw [append_nil]

/-- The pieces the session was given are the opened records, each split in some way, and then
a part of the next. -/
def Handed (handed : List Bytes) (opened : List TlsRecord) (part : Bytes) : Prop :=
  ∃ pieces current, handed = pieces.flatten ++ current ∧
    List.Forall₂ (fun pieces record => pieces.flatten = TlsRecord.bytes record) pieces opened ∧
    current.flatten = part

/-- The stream is `n` bytes into the first of `rest`: the session has opened the records
before it, and the caller got `returned` of their plaintext. -/
structure Aligned (start : c.Reading) (raw returned : Bytes) (opened rest : List TlsRecord)
    (n : Nat) (stream : TlsStream c) : Prop where
  unreleased : stream.io.limiterReleased = false
  limiter : stream.io.tlsReadLimiter = (rest.head?.map (.inside · n)).getD {}
  toRead : stream.io.toRead = (rest.flatMap TlsRecord.bytes).drop n ++ raw
  position : ∀ record ∈ rest.head?, n < record.bytes.length
  done : rest = [] → n = 0
  deframer : stream.session.deframer = (rest.flatMap TlsRecord.bytes).take n
  decrypted : c.decryptAll start opened =
    .ok (stream.session.reading, returned ++ stream.session.plaintext)
  goesOn : stream.session.seenEof = false
  handed : Handed stream.handed opened ((rest.flatMap TlsRecord.bytes).take n)

lemma Handed.add {handed : List Bytes} {opened : List TlsRecord} {part : Bytes}
    (h : Handed handed opened part) (piece : Bytes) :
    Handed (handed ++ [piece]) opened (part ++ piece) := by
  obtain ⟨pieces, current, rfl, hpieces, rfl⟩ := h
  exact ⟨pieces, current ++ [piece], by rw [append_assoc], hpieces, by simp⟩

lemma Handed.close {handed : List Bytes} {opened : List TlsRecord}
    (h : Handed handed opened record.bytes) : Handed handed (opened ++ [record]) [] := by
  obtain ⟨pieces, current, rfl, hpieces, hcurrent⟩ := h
  exact ⟨pieces ++ [current], [], by simp, rel_append hpieces (.cons hcurrent .nil), rfl⟩

variable {start : c.Reading} {raw returned : Bytes} {opened rest : List TlsRecord} {n : Nat}
  {stream : TlsStream c} {io : CapturedStream}

lemma Aligned.read_part {m : Nat}
    (h : Aligned start raw returned opened (record :: rest) n stream)
    (hm : n + m < record.bytes.length) (hreleased : io.limiterReleased = false)
    (hlimiter : io.tlsReadLimiter = .inside record (n + m))
    (hbytes : io.toRead = record.bytes.drop (n + m) ++ (rest.flatMap TlsRecord.bytes ++ raw)) :
    ∃ session, stream.session.readTls ((record.bytes.drop n).take m) = .ok session ∧
      Aligned start raw returned opened (record :: rest) (n + m)
        ⟨session, io, stream.handed ++ [(record.bytes.drop n).take m]⟩ := by
  have hn : n ≤ record.bytes.length := by omega
  have hflat : ((record :: rest).flatMap TlsRecord.bytes).take (n + m) =
      record.bytes.take (n + m) := by
    rw [flatMap_cons, take_append_of_le_length (by omega)]
  have hpart : ((record :: rest).flatMap TlsRecord.bytes).take n ++ (record.bytes.drop n).take m =
      record.bytes.take (n + m) := by
    rw [flatMap_cons, take_append_of_le_length hn, ← take_add]
  refine ⟨{ stream.session with deframer := record.bytes.take (n + m) }, ?_, ?_⟩
  · rw [readTls, h.deframer, hpart, openRecords_take hm]
    show Except.ok _ = _
    rw [append_nil]
  have hhanded := h.handed.add ((record.bytes.drop n).take m)
  rw [hpart] at hhanded
  refine ⟨hreleased, hlimiter, ?_, ?_, ?_, hflat.symm, h.decrypted, h.goesOn, ?_⟩
  · show io.toRead = _
    rw [hbytes, flatMap_cons, drop_append_of_le_length (by omega), append_assoc]
  · rintro record' ⟨⟩
    exact hm
  · exact by simp
  · rw [hflat]
    exact hhanded

/-- A read of the session up to the end of the record, which is opened. -/
lemma Aligned.read_rest {m : Nat}
    (h : Aligned start raw returned opened (record :: rest) n stream)
    (hm : n + m = record.bytes.length) (hreleased : io.limiterReleased = false)
    (hlimiter : io.tlsReadLimiter = {}) (hbytes : io.toRead = rest.flatMap TlsRecord.bytes ++ raw)
    (hdecrypt : c.decrypt stream.session.reading record = .ok (reading, plain)) :
    ∃ session, stream.session.readTls ((record.bytes.drop n).take m) = .ok session ∧
      Aligned start raw returned (opened ++ [record]) rest 0
        ⟨session, io, stream.handed ++ [(record.bytes.drop n).take m]⟩ := by
  have hpart : ((record :: rest).flatMap TlsRecord.bytes).take n ++ (record.bytes.drop n).take m =
      record.bytes := by
    rw [flatMap_cons, take_append_of_le_length (by omega), ← take_add, hm, take_length]
  refine ⟨{ stream.session with
    reading, deframer := [], plaintext := stream.session.plaintext ++ plain }, ?_, ?_⟩
  · rw [readTls, h.deframer, hpart, openRecords_bytes hdecrypt]
    rfl
  have hhanded := h.handed.add ((record.bytes.drop n).take m)
  rw [hpart] at hhanded
  refine ⟨hreleased, ?_, hbytes, ?_, fun _ => rfl, rfl, ?_, h.goesOn, hhanded.close⟩
  · show io.tlsReadLimiter = _
    rw [hlimiter]
    cases rest <;> rfl
  · exact fun record' _ => record'.length_bytes_pos
  · exact decryptAll_append.mpr ⟨_, _, plain, h.decrypted, decryptAll_singleton hdecrypt,
      (append_assoc _ _ _).symm⟩

/-- The session has not opened the last record, or has plaintext of it. -/
lemma Aligned.rest_ne_nil (h : Aligned start raw returned opened rest n stream)
    (htotal : c.decryptAll start (opened ++ rest) = .ok (last, total))
    (hearly : returned.length < total.length) (hempty : stream.session.plaintext = []) :
    rest ≠ [] := by
  rintro rfl
  have hdecrypted := h.decrypted
  rw [hempty, append_nil] at hdecrypted
  rw [append_nil, hdecrypted] at htotal
  cases htotal
  exact absurd hearly (Nat.lt_irrefl _)

/-- What a piece of input does: it is a part of the record, or opens it. -/
lemma Aligned.readOnce {piece : Bytes} {m : Nat}
    (htotal : c.decryptAll start (opened ++ record :: rest) = .ok (last, total))
    (h : Aligned start raw returned opened (record :: rest) n stream)
    (hle : n + m ≤ record.bytes.length) (hpiece : piece = (record.bytes.drop n).take m)
    (hreleased : io.limiterReleased = false)
    (hlimiter : io.tlsReadLimiter =
      if n + m = record.bytes.length then {} else .inside record (n + m))
    (hbytes : io.toRead = record.bytes.drop (n + m) ++ (rest.flatMap TlsRecord.bytes ++ raw)) :
    ∃ session opened' rest' n', stream.session.readTls piece = .ok session ∧
      opened' ++ rest' = opened ++ record :: rest ∧
      Aligned start raw returned opened' rest' n' ⟨session, io, stream.handed ++ [piece]⟩ := by
  subst hpiece
  rcases Nat.lt_or_eq_of_le hle with hpart | hend
  · rw [if_neg (by omega)] at hlimiter
    obtain ⟨session, hsession, hnext⟩ := h.read_part hpart hreleased hlimiter hbytes
    exact ⟨session, opened, record :: rest, n + m, hsession, rfl, hnext⟩
  rw [if_pos hend] at hlimiter
  rw [hend, drop_length] at hbytes
  obtain ⟨next, first, tail, hfirst, htail, -⟩ := decryptAll_append.mp htotal
  rw [h.decrypted] at hfirst
  obtain ⟨rfl, -⟩ := Prod.mk.inj (Except.ok.inj hfirst)
  obtain ⟨reading, plain, plains, hdecrypt, -, -⟩ := decryptAll_cons.mp htail
  obtain ⟨session, hsession, hnext⟩ := h.read_rest hend hreleased hlimiter hbytes hdecrypt
  exact ⟨session, opened ++ [record], rest, 0, hsession, append_assoc _ _ _, hnext⟩

/-- Giving the session input keeps the stream aligned, and gets nothing out of it. -/
lemma Aligned.readInput (htotal : c.decryptAll start (opened ++ rest) = .ok (last, total))
    (hearly : returned.length < total.length) (h : Aligned start raw returned opened rest n stream) :
    ∃ stream' opened' rest' n', stream.readInput = (.ok (), stream') ∧
      opened' ++ rest' = opened ++ rest ∧
      Aligned start raw returned opened' rest' n' stream' := by
  -- Each piece the session is given shortens what the carrier has yet to bring.
  induction hlen : stream.io.toRead.length using Nat.strong_induction_on
    generalizing opened rest n stream with
  | _ len ih =>
    rw [readInput.eq_def]
    split
    · next hwants =>
      have hempty : stream.session.plaintext = [] := by
        rw [wantsRead, Bool.and_eq_true] at hwants
        exact isEmpty_iff.mp hwants.1
      obtain ⟨record, rest, rfl⟩ := exists_cons_of_ne_nil (h.rest_ne_nil htotal hearly hempty)
      have hn := h.position record rfl
      have hbytes : stream.io.toRead =
          record.bytes.drop n ++ (rest.flatMap TlsRecord.bytes ++ raw) := by
        rw [h.toRead, flatMap_cons, drop_append_of_le_length (by omega), append_assoc]
      have hread := fun poll io => @pollRead_inside stream.io io record n _ _ poll
        (c.room stream.session.reading stream.session.deframer).2 hn h.unreleased h.limiter hbytes
      split
      · next io hpoll =>
        obtain ⟨hreleased, ⟨-, hlimiter, hsame⟩ | ⟨m, -, -, hready, -⟩⟩ := hread _ _ hpoll
        · exact ⟨_, opened, record :: rest, n, rfl, rfl, { h with
            unreleased := hreleased
            limiter := hlimiter
            toRead := hsame.trans h.toRead }⟩
        · cases hready
      · next io hpoll =>
        obtain ⟨-, ⟨hpending, -⟩ | ⟨m, hm, hle, hready, -⟩⟩ := hread _ _ hpoll
        · cases hpending
        have hnone := congrArg List.length (Poll.ready.inj hready)
        rw [length_take, length_drop, length_nil] at hnone
        omega
      next b bs io hpoll =>
      have hless : io.toRead.length < len := by
        have := toRead_lt_of_pollRead hpoll
        omega
      obtain ⟨hreleased, ⟨hpending, -⟩ | ⟨m, -, hle, hready, hlimiter, hmore⟩⟩ := hread _ _ hpoll
      · cases hpending
      obtain ⟨session, opened', rest', n', hsession, hsplit, hnext⟩ :=
        h.readOnce htotal hle (Poll.ready.inj hready) hreleased hlimiter hmore
      rw [hsession, ← hsplit]
      rw [← hsplit] at htotal
      exact ih _ hless htotal hnext rfl
    · exact ⟨stream, opened, rest, n, rfl, rfl, h⟩

lemma Session.read_cases {session : Session c} (hgoes : session.seenEof = false) (size : Nat) :
    (session.plaintext ≠ [] ∧ session.read size = (.ok (session.plaintext.take size),
        { session with plaintext := session.plaintext.drop size })) ∨
      session.plaintext = [] ∧ (session.read size = (.ok [], session) ∨
        session.read size = (.error .wouldBlock, session)) := by
  rw [read, hgoes]
  split
  · next hsome => exact .inl ⟨hsome, rfl⟩
  next hnil =>
  refine .inr ⟨not_not.mp hnil, ?_⟩
  split
  · exact .inl rfl
  · exact .inr rfl

lemma Aligned.pollRead (size : Nat)
    (htotal : c.decryptAll start (opened ++ rest) = .ok (last, total))
    (hearly : returned.length < total.length) (h : Aligned start raw returned opened rest n stream) :
    ∃ stream' opened' rest' n', opened' ++ rest' = opened ++ rest ∧
      ((∃ bytes, stream.pollRead size = (.ready (.ok bytes), stream') ∧
          Aligned start raw (returned ++ bytes) opened' rest' n' stream') ∨
        stream.pollRead size = (.pending, stream') ∧
          Aligned start raw returned opened' rest' n' stream') := by
  obtain ⟨stream', opened', rest', n', hinput, hsplit, haligned⟩ := h.readInput htotal hearly
  rw [TlsStream.pollRead, hinput]
  show ∃ stream'', _
  rcases Session.read_cases haligned.goesOn size with ⟨-, hread⟩ | ⟨-, hread | hread⟩
  · refine ⟨{ stream' with session :=
      { stream'.session with plaintext := stream'.session.plaintext.drop size } },
      opened', rest', n', hsplit, .inl ⟨stream'.session.plaintext.take size, by simp only [hread],
        { haligned with decrypted := ?_ }⟩⟩
    rw [append_assoc, take_append_drop]
    exact haligned.decrypted
  · refine ⟨stream', opened', rest', n', hsplit, .inl ⟨[], by simp only [hread], ?_⟩⟩
    rw [append_nil]
    exact haligned
  · exact ⟨stream', opened', rest', n', hsplit, .inr ⟨by simp only [hread], haligned⟩⟩

/-- Nothing that the reads look at differs. -/
structure SameReads (stream stream' : TlsStream c) : Prop where
  reading : stream'.session.reading = stream.session.reading
  deframer : stream'.session.deframer = stream.session.deframer
  plaintext : stream'.session.plaintext = stream.session.plaintext
  seenEof : stream'.session.seenEof = stream.session.seenEof
  incoming : stream'.io.stream.incoming = stream.io.stream.incoming
  limiter : stream'.io.tlsReadLimiter = stream.io.tlsReadLimiter
  released : stream'.io.limiterReleased = stream.io.limiterReleased
  handed : stream'.handed = stream.handed

/-- Nothing that the writes look at differs. -/
structure SameWrites (stream stream' : TlsStream c) : Prop where
  writing : stream'.session.writing = stream.session.writing
  sendable : stream'.session.sendable = stream.session.sendable
  room : stream'.io.stream.room = stream.io.stream.room
  sent : stream'.io.stream.sent = stream.io.stream.sent

lemma SameReads.refl (stream : TlsStream c) : SameReads stream stream :=
  ⟨rfl, rfl, rfl, rfl, rfl, rfl, rfl, rfl⟩

lemma SameReads.trans (h : SameReads stream₁ stream₂) (h' : SameReads stream₂ stream₃) :
    SameReads stream₁ stream₃ :=
  ⟨h'.reading.trans h.reading, h'.deframer.trans h.deframer, h'.plaintext.trans h.plaintext,
    h'.seenEof.trans h.seenEof, h'.incoming.trans h.incoming, h'.limiter.trans h.limiter,
    h'.released.trans h.released, h'.handed.trans h.handed⟩

lemma SameWrites.refl (stream : TlsStream c) : SameWrites stream stream := ⟨rfl, rfl, rfl, rfl⟩

lemma SameWrites.trans (h : SameWrites stream₁ stream₂) (h' : SameWrites stream₂ stream₃) :
    SameWrites stream₁ stream₃ :=
  ⟨h'.writing.trans h.writing, h'.sendable.trans h.sendable, h'.room.trans h.room,
    h'.sent.trans h.sent⟩

lemma Aligned.congr {stream' : TlsStream c} (h : Aligned start raw returned opened rest n stream)
    (hsame : SameReads stream stream') : Aligned start raw returned opened rest n stream' where
  unreleased := hsame.released.trans h.unreleased
  limiter := hsame.limiter.trans h.limiter
  toRead := by
    rw [CapturedStream.toRead, hsame.incoming]
    exact h.toRead
  position := h.position
  done := h.done
  deframer := hsame.deframer.trans h.deframer
  decrypted := by
    rw [hsame.reading, hsame.plaintext]
    exact h.decrypted
  goesOn := hsame.seenEof.trans h.goesOn
  handed := by
    rw [hsame.handed]
    exact h.handed

def written : Poll Nat → Nat
  | .ready n => n
  | .pending => 0

lemma Duplex.pollWrite_spec (io : Duplex) (input : Bytes) :
    (io.pollWrite input).2.incoming = io.incoming ∧
    (io.pollWrite input).2.sent = io.sent ++ input.take (written (io.pollWrite input).1) := by
  rw [pollWrite]
  split
  · exact ⟨rfl, by rw [written, take_length]⟩
  · exact ⟨rfl, by rw [written, take_zero, append_nil]⟩
  · exact ⟨rfl, by rw [written, ← take_take, take_length]⟩

def TlsStream.output (stream : TlsStream c) : Bytes :=
  stream.io.stream.sent ++ stream.session.sendable

/-- A write of the carrier takes from what waits, and adds to what was sent. -/
lemma sameReads_of_pollWrite {poll : Poll Nat}
    (h : stream.io.pollWrite stream.session.sendable = (poll, io)) :
    SameReads stream { stream with
      io
      session := { stream.session with
        sendable := stream.session.sendable.drop (written poll) } } ∧
    io.stream.sent ++ stream.session.sendable.drop (written poll) = stream.output := by
  obtain ⟨hincoming, hsent⟩ := stream.io.stream.pollWrite_spec stream.session.sendable
  obtain ⟨rfl, rfl⟩ := Prod.mk.inj h
  refine ⟨⟨rfl, rfl, rfl, rfl, hincoming, rfl, rfl, rfl⟩, ?_⟩
  show (stream.io.stream.pollWrite stream.session.sendable).2.sent ++ _ = _
  rw [hsent, append_assoc]
  exact congrArg _ (take_append_drop _ _)

lemma TlsStream.flush_spec {stream' : TlsStream c} {blocked : Bool}
    (h : stream.flush = (blocked, stream')) :
    SameReads stream stream' ∧ stream'.session.writing = stream.session.writing ∧
      stream'.output = stream.output := by
  fun_induction TlsStream.flush stream with
  | case1 stream =>
    cases h
    exact ⟨.refl _, rfl, rfl⟩
  | case2 stream _ io hpoll | case3 stream _ io hpoll =>
    cases h
    obtain ⟨hreads, houtput⟩ := sameReads_of_pollWrite hpoll
    exact ⟨hreads, rfl, houtput⟩
  | case4 stream _ n io hpoll ih =>
    obtain ⟨hfirst, hsent⟩ := sameReads_of_pollWrite hpoll
    obtain ⟨hreads, hwriting, houtput⟩ := ih h
    exact ⟨hfirst.trans hreads, hwriting, houtput.trans hsent⟩

def Cipher.sealAll (c : Cipher) (writing : c.Writing) (taken : List Bytes) :
    c.Writing × List TlsRecord :=
  taken.foldl (fun (writing, records) piece =>
    ((c.seal writing piece).1, records ++ (c.seal writing piece).2)) (writing, [])

lemma sealAll_concat (writing : c.Writing) (taken : List Bytes) (piece : Bytes) :
    c.sealAll writing (taken ++ [piece]) = ((c.seal (c.sealAll writing taken).1 piece).1,
        (c.sealAll writing taken).2 ++ (c.seal (c.sealAll writing taken).1 piece).2) := by
  rw [Cipher.sealAll, foldl_append]
  rfl

/-- All that the stream sends are the records of what the writes took. -/
structure Sealed (first : c.Writing) (taken : List Bytes) (stream : TlsStream c) : Prop where
  writing : stream.session.writing = (c.sealAll first taken).1
  output : stream.output = (c.sealAll first taken).2.flatMap TlsRecord.bytes

variable {first : c.Writing} {taken : List Bytes}

section

variable (h : Sealed first taken stream)

include h

lemma Sealed.congr {stream' : TlsStream c}
    (hsame : SameWrites stream stream') : Sealed first taken stream' where
  writing := hsame.writing.trans h.writing
  output := by
    rw [TlsStream.output, hsame.sent, hsame.sendable]
    exact h.output

lemma Sealed.write (input : Bytes) :
    Sealed first (taken ++ [input.take (stream.session.write input).1])
      { stream with session := (stream.session.write input).2 } where
  writing := by
    rw [sealAll_concat, ← h.writing]
    rfl
  output := by
    rw [sealAll_concat, flatMap_append, ← h.output, ← h.writing]
    exact (append_assoc _ _ _).symm

lemma TlsStream.pollWrite_spec (input : Bytes) : ∃ stream', SameReads stream stream' ∧
      ((∃ n, stream.pollWrite input = (.ready n, stream') ∧
          Sealed first (taken ++ [input.take n]) stream') ∨
        stream.pollWrite input = (.pending, stream') ∧ Sealed first taken stream') := by
  have hwrite := h.write input
  have hsame : SameReads stream { stream with session := (stream.session.write input).2 } :=
    ⟨rfl, rfl, rfl, rfl, rfl, rfl, rfl, rfl⟩
  cases hflush : flush { stream with session := (stream.session.write input).2 } with
  | mk blocked stream' =>
    obtain ⟨hreads, hwriting, houtput⟩ := flush_spec hflush
    have hsealed : Sealed first (taken ++ [input.take (stream.session.write input).1]) stream' :=
      ⟨hwriting.trans hwrite.writing, houtput.trans hwrite.output⟩
    refine ⟨stream', hsame.trans hreads, ?_⟩
    rw [pollWrite]
    simp only [hflush]
    by_cases hwaits : (stream.session.write input).1 = 0 ∧ blocked = true
    · rw [if_pos hwaits]
      refine .inr ⟨rfl, ?_⟩
      rw [hwaits.1, take_zero] at hsealed
      refine ⟨?_, ?_⟩
      · rw [hsealed.writing, sealAll_concat, Cipher.seal, if_pos rfl]
      · rw [hsealed.output, sealAll_concat, Cipher.seal, if_pos rfl, append_nil]
    · rw [if_neg hwaits]
      exact .inl ⟨_, rfl, hsealed⟩

end

/-! ## Reads leave the writes alone -/

lemma CapturedStream.pollRead_output {captured captured' : CapturedStream} {size : Nat}
    {poll : Poll Bytes} (h : captured.pollRead size = (poll, captured')) :
    captured'.stream.room = captured.stream.room ∧ captured'.stream.sent = captured.stream.sent := by
  rw [pollRead] at h
  split at h
  · cases h
    exact ⟨rfl, rfl⟩
  split at h
  · cases h
    exact ⟨rfl, rfl⟩
  split at h
  all_goals
    next hpoll =>
      cases h
      exact (pollRead_eq hpoll).2

lemma Session.readTls_output {session session' : Session c} {input : Bytes}
    (h : session.readTls input = .ok session') :
    session'.writing = session.writing ∧ session'.sendable = session.sendable := by
  obtain ⟨⟨reading, deframer, plain⟩, -, h⟩ := bind_eq_ok.mp h
  cases h
  exact ⟨rfl, rfl⟩

lemma Session.read_output (session : Session c) (size : Nat) :
    (session.read size).2.writing = session.writing ∧
    (session.read size).2.sendable = session.sendable := by
  rw [read]
  split
  · exact ⟨rfl, rfl⟩
  split
  · exact ⟨rfl, rfl⟩
  · split <;> exact ⟨rfl, rfl⟩

lemma TlsStream.readInput_sameWrites (stream : TlsStream c) :
    SameWrites stream stream.readInput.2 := by
  fun_induction TlsStream.readInput stream with
  | case1 stream _ io hpoll | case2 stream _ io hpoll | case3 stream _ b bs io hpoll handed e =>
    obtain ⟨hroom, hsent⟩ := pollRead_output hpoll
    exact ⟨rfl, rfl, hroom, hsent⟩
  | case4 stream _ b bs io hpoll handed session hsession ih =>
    obtain ⟨hroom, hsent⟩ := pollRead_output hpoll
    obtain ⟨hwriting, hsendable⟩ := readTls_output hsession
    exact SameWrites.trans ⟨hwriting, hsendable, hroom, hsent⟩ ih
  | case5 stream => exact .refl _

lemma TlsStream.pollRead_sameWrites (stream : TlsStream c) (size : Nat) :
    SameWrites stream (stream.pollRead size).2 := by
  have hinput := stream.readInput_sameWrites
  rw [pollRead]
  cases hread : stream.readInput with
  | mk result stream' =>
    rw [hread] at hinput
    cases result with
    | error e => exact hinput
    | ok _ =>
      obtain ⟨hwriting, hsendable⟩ := stream'.session.read_output size
      refine hinput.trans ?_
      dsimp only
      split
      all_goals
        next hsession =>
          rw [hsession] at hwriting hsendable
          exact ⟨hwriting, hsendable, rfl, rfl⟩

lemma drainPlaintext_spec {session : Session c} (hgoes : session.seenEof = false)
    (pendingPlaintext : Bytes) :
    drainPlaintext session pendingPlaintext =
      .ok (pendingPlaintext ++ session.plaintext, { session with plaintext := [] }) := by
  have hempty : ∀ {session : Session c}, session.plaintext = [] →
      session = { session with plaintext := [] } := fun h => by rw [← h]
  fun_induction drainPlaintext session pendingPlaintext with
  | case1 session pending session' h =>
    rcases session.read_cases hgoes scratchSize with ⟨hsome, hread⟩ | ⟨hnil, hread | hread⟩
    · exact absurd (congrArg Prod.fst (h.symm.trans hread)) (by simp [scratchSize, hsome])
    · cases h.symm.trans hread
      rw [hnil, append_nil, ← hempty hnil]
    · cases h.symm.trans hread
  | case2 session pending b bs session' h ih =>
    rcases session.read_cases hgoes scratchSize with ⟨hsome, hread⟩ | ⟨hnil, hread | hread⟩
    · obtain ⟨hbytes, rfl⟩ := Prod.mk.inj (h.symm.trans hread)
      rw [ih hgoes, Except.ok.inj hbytes, append_assoc, take_append_drop]
    all_goals cases h.symm.trans hread
  | case3 session pending session' h =>
    rcases session.read_cases hgoes scratchSize with ⟨hsome, hread⟩ | ⟨hnil, hread | hread⟩ <;>
      cases h.symm.trans hread
    rw [hnil, append_nil, ← hempty hnil]
  | case4 session pending session' h =>
    rcases session.read_cases hgoes scratchSize with ⟨hsome, hread⟩ | ⟨hnil, hread | hread⟩ <;>
      cases h.symm.trans hread

namespace PenetratingTlsStream

def Left (left : Bytes) : PenetratingTlsStream c → Prop
  | .tls (some stream) =>
    stream.session.seenEof = false ∧ left = stream.session.plaintext ++ stream.io.toRead
  | .tls none => False
  | .readDirect stream pendingPlaintext =>
    stream.io.limiterReleased = true ∧ left = pendingPlaintext ++ stream.io.toRead

def pauses : PenetratingTlsStream c → Nat
  | .tls (some stream) => stream.io.pauses
  | .tls none => 0
  | .readDirect stream _ => stream.io.pauses

/-- All that the stream sends are the records of what the writes took. -/
def Seals (first : c.Writing) (taken : List Bytes) : PenetratingTlsStream c → Prop
  | .tls (some stream) => Sealed first taken stream
  | .tls none => False
  | .readDirect stream _ => Sealed first taken stream

variable {left : Bytes}

lemma ensureReadDirect_spec {stream : PenetratingTlsStream c} (hleft : Left left stream)
    (hseals : Seals first taken stream) :
    ∃ tls pendingPlaintext, stream.ensureReadDirect = .ok (tls, pendingPlaintext) ∧
      Left left (.readDirect tls pendingPlaintext) ∧ tls.io.pauses = stream.pauses ∧
      Sealed first taken tls := by
  rcases stream with (_ | session) | ⟨session, pendingPlaintext⟩
  · exact hleft.elim
  · obtain ⟨hgoes, rfl⟩ := hleft
    rw [ensureReadDirect, drainPlaintext_spec hgoes]
    exact ⟨_, _, rfl, ⟨rfl, rfl⟩, rfl, hseals.congr ⟨rfl, rfl, rfl, rfl⟩⟩
  · exact ⟨session, pendingPlaintext, rfl, hleft, rfl, hseals⟩

variable {stream : PenetratingTlsStream c}

/-- A direct read: it waits, or gives the next of what is left, and nothing only at the
end. -/
lemma pollReadDirect_spec (size : Nat) (hleft : Left left stream)
    (hseals : Seals first taken stream) :
    ∃ stream', Seals first taken stream' ∧
      ((∃ bytes left', stream.pollReadDirect size = (.ready (.ok bytes), stream') ∧
          left = bytes ++ left' ∧ Left left' stream' ∧ stream'.pauses = stream.pauses ∧
          (0 < size → bytes = [] → left = [])) ∨
        stream.pollReadDirect size = (.pending, stream') ∧ Left left stream' ∧
          stream'.pauses + 1 = stream.pauses) := by
  obtain ⟨tls, pendingPlaintext, hensure, ⟨hreleased, rfl⟩, hpauses, hsealed⟩ :=
    ensureReadDirect_spec hleft hseals
  rw [pollReadDirect, hensure]
  dsimp only
  by_cases hsome : pendingPlaintext = []
  · subst hsome
    cases hread : tls.io.pollRead size with
    | mk poll io =>
      have hsame : SameWrites tls { tls with io } := by
        obtain ⟨hroom, hsent⟩ := pollRead_output hread
        exact ⟨rfl, rfl, hroom, hsent⟩
      refine ⟨.readDirect { tls with io } [], hsealed.congr hsame, ?_⟩
      rcases Nat.eq_zero_or_pos size with rfl | hsize
      · cases hread
        exact .inl ⟨[], tls.io.toRead, rfl, rfl, ⟨hreleased, rfl⟩, hpauses,
          fun h => absurd h (Nat.lt_irrefl _)⟩
      obtain ⟨hreleased', hcarrier⟩ := pollRead_released hreleased hsize hread
      cases poll with
      | ready bytes =>
        obtain ⟨hbytes, hsamePauses, hend⟩ := pollRead_ready hsize hcarrier
        refine .inl ⟨bytes, io.toRead, rfl, hbytes.symm, ⟨hreleased', rfl⟩,
          hsamePauses.trans hpauses, fun _ hnil => ?_⟩
        rw [toRead, hend hnil]
        rfl
      | pending =>
        obtain ⟨hbytes, hpaused⟩ := pollRead_pending hcarrier
        exact .inr ⟨rfl, ⟨hreleased', congrArg _ hbytes.symm⟩, hpaused.trans hpauses⟩
  · rw [if_pos hsome]
    refine ⟨.readDirect tls (pendingPlaintext.drop size), hsealed, .inl ⟨_,
      pendingPlaintext.drop size ++ tls.io.toRead, rfl, ?_, ⟨hreleased, rfl⟩, hpauses, ?_⟩⟩
    · rw [← append_assoc, take_append_drop]
    intro hsize hnil
    rw [take_eq_nil_iff] at hnil
    rcases hnil with hzero | hnil
    · omega
    · exact absurd hnil hsome

/-- The same state, with nothing different that the reads look at. -/
def SameSide : PenetratingTlsStream c → PenetratingTlsStream c → Prop
  | .tls (some stream), .tls (some stream') => SameReads stream stream'
  | .readDirect stream pendingPlaintext, .readDirect stream' pendingPlaintext' =>
    SameReads stream stream' ∧ pendingPlaintext' = pendingPlaintext
  | _, _ => False

lemma Left.congr {stream' : PenetratingTlsStream c} (hleft : Left left stream)
    (h : SameSide stream stream') : Left left stream' ∧ stream'.pauses = stream.pauses := by
  match stream, stream', h with
  | .tls (some _), .tls (some _), h =>
    refine ⟨⟨h.seenEof.trans hleft.1, ?_⟩, congrArg Carrier.pauses h.incoming⟩
    rw [h.plaintext, toRead, h.incoming]
    exact hleft.2
  | .readDirect _ _, .readDirect _ _, ⟨h, hpending⟩ =>
    refine ⟨⟨h.released.trans hleft.1, ?_⟩, congrArg Carrier.pauses h.incoming⟩
    rw [hpending, toRead, h.incoming]
    exact hleft.2

lemma pollWrite_spec (hseals : Seals first taken stream) (input : Bytes) :
    ∃ stream', SameSide stream stream' ∧ ((∃ n, stream.pollWrite input = (.ready (.ok n), stream') ∧
          Seals first (taken ++ [input.take n]) stream') ∨
        stream.pollWrite input = (.pending, stream') ∧ Seals first taken stream') := by
  rcases stream with (_ | tls) | ⟨tls, pendingPlaintext⟩
  · exact hseals.elim
  · obtain ⟨tls', hsame, ⟨n, hwrite, hsealed⟩ | ⟨hwrite, hsealed⟩⟩ :=
      TlsStream.pollWrite_spec hseals input
    · exact ⟨.tls (some tls'), hsame, .inl ⟨n, by simp only [pollWrite, hwrite], hsealed⟩⟩
    · exact ⟨.tls (some tls'), hsame, .inr ⟨by simp only [pollWrite, hwrite], hsealed⟩⟩
  · obtain ⟨tls', hsame, ⟨n, hwrite, hsealed⟩ | ⟨hwrite, hsealed⟩⟩ :=
      TlsStream.pollWrite_spec hseals input
    · exact ⟨.readDirect tls' pendingPlaintext, ⟨hsame, rfl⟩,
        .inl ⟨n, by simp only [pollWrite, hwrite], hsealed⟩⟩
    · exact ⟨.readDirect tls' pendingPlaintext, ⟨hsame, rfl⟩,
        .inr ⟨by simp only [pollWrite, hwrite], hsealed⟩⟩

end PenetratingTlsStream

open PenetratingTlsStream

def Call.asks : Call → Bool
  | .read size => decide (0 < size)
  | .write _ => false

namespace Use

/-- What a call in direct mode does to what is left. -/
structure Goes (first : c.Writing) (use : Use c) (left got left' : Bytes) (use' : Use c) :
    Prop where
  returned : use'.returned = use.returned ++ got
  split : left = got ++ left'
  left : Left left' use'.stream
  seals : Seals first use'.taken use'.stream
  errors : use'.errors = use.errors
  pauses : use'.stream.pauses ≤ use.stream.pauses

variable {use : Use c} {left total before : Bytes} {records : List TlsRecord}
  {ended reading : c.Reading}

lemma direct_call (hleft : Left left use.stream) (hseals : Seals first use.taken use.stream)
    (step : Call) :
    ∃ got left', Goes first use left got left' (use.call pollReadDirect step) ∧
      (step.asks → left' = [] ∨ (use.call pollReadDirect step).stream.pauses + left'.length + 1 ≤
          use.stream.pauses + left.length) := by
  cases step with
  | read size =>
    rw [call]
    obtain ⟨stream', hseals', ⟨bytes, left', hread, rfl, hleft', hpauses, hend⟩ |
      ⟨hread, hleft', hpauses⟩⟩ := pollReadDirect_spec size hleft hseals
    · rw [hread]
      refine ⟨bytes, left', ⟨rfl, rfl, hleft', hseals', rfl, Nat.le_of_eq hpauses⟩,
        fun hasks => ?_⟩
      by_cases hnil : bytes = []
      · exact .inl (append_eq_nil_iff.mp (hend (of_decide_eq_true hasks) hnil)).2
      have := length_pos_iff.mpr hnil
      rw [length_append]
      show _ ∨ stream'.pauses + _ + 1 ≤ _
      omega
    · rw [hread]
      refine ⟨[], left, ⟨(append_nil _).symm, rfl, hleft', hseals', rfl, ?_⟩, fun _ => ?_⟩
      · show stream'.pauses ≤ _
        omega
      · show _ ∨ stream'.pauses + _ + 1 ≤ _
        omega
  | write input =>
    rw [call]
    obtain ⟨stream', hsame, ⟨n, hwrite, hseals'⟩ | ⟨hwrite, hseals'⟩⟩ := pollWrite_spec hseals input
    all_goals
      obtain ⟨hleft', hpauses⟩ := hleft.congr hsame
      rw [hwrite]
      exact ⟨[], left, ⟨(append_nil _).symm, rfl, hleft', hseals', rfl,
        Nat.le_of_eq hpauses⟩, fun hasks => absurd hasks (by simp [Call.asks])⟩

/-- Direct reads return what is left, and all of it once there were enough of them. -/
lemma direct_run (hleft : Left left use.stream) (hseals : Seals first use.taken use.stream)
    (calls : List Call) :
    ∃ got left', Goes first use left got left' (use.direct calls) ∧
      (use.stream.pauses + left.length ≤ calls.countP Call.asks → left' = []) := by
  induction calls generalizing use left with
  | nil =>
    refine ⟨[], left, ⟨(append_nil _).symm, rfl, hleft, hseals, rfl, Nat.le_refl _⟩, ?_⟩
    intro henough
    rw [countP_nil] at henough
    exact length_eq_zero_iff.mp (by omega)
  | cons step calls ih =>
    obtain ⟨got, left₁, hstep, hless⟩ := direct_call hleft hseals step
    obtain ⟨more, left₂, hrun, hdone⟩ := ih hstep.left hstep.seals
    refine ⟨got ++ more, left₂, ⟨?_, ?_, hrun.left, hrun.seals, hrun.errors.trans hstep.errors,
      hrun.pauses.trans hstep.pauses⟩, fun henough => ?_⟩
    · rw [← append_assoc, ← hstep.returned]
      exact hrun.returned
    · rw [append_assoc, ← hrun.split]
      exact hstep.split
    rw [countP_cons] at henough
    have hsplit := congrArg List.length hstep.split
    have hpauses := hstep.pauses
    rw [length_append] at hsplit
    by_cases hasks : step.asks = true
    · rcases hless hasks with hnil | hless
      · have := hrun.split
        rw [hnil] at this
        exact (append_eq_nil_iff.mp this.symm).2
      · rw [if_pos hasks] at henough
        exact hdone (by omega)
    · rw [if_neg hasks] at henough
      exact hdone (by omega)

def fresh (c : Cipher) (reading : c.Reading) (writing : c.Writing) (incoming : Carrier)
    (room : List (Option Nat)) (serverReadLog : Option ServerReadLog) : Use c :=
  { stream := .new
      { session := { reading, writing }
        io := { stream := { incoming, room }, serverReadLog } } }

def InTls (start : c.Reading) (first : c.Writing) (records : List TlsRecord) (raw : Bytes)
    (use : Use c) : Prop :=
  ∃ tls opened rest n, use.stream = .tls (some tls) ∧ opened ++ rest = records ∧
    Aligned start raw use.returned opened rest n tls ∧ Sealed first use.taken tls ∧ use.errors = []

lemma inTls_fresh {incoming : Carrier} {room : List (Option Nat)}
    {serverReadLog : Option ServerReadLog}
    (hio : incoming.bytes = records.flatMap TlsRecord.bytes ++ raw) :
    InTls start first records raw (fresh c start first incoming room serverReadLog) := by
  refine ⟨_, [], records, 0, rfl, rfl, ?_, ⟨rfl, rfl⟩, rfl⟩
  refine ⟨rfl, ?_, hio, ?_, fun _ => rfl, rfl, rfl, rfl, [], [], rfl, .nil, rfl⟩
  · cases records <;> rfl
  · exact fun record _ => record.length_bytes_pos

section

variable (htotal : c.decryptAll start records = .ok (ended, total))

include htotal

lemma inTls_call (h : InTls start first records raw use) (step : Call)
    (hearly : ∀ size, step = .read size → use.returned.length < total.length) :
    InTls start first records raw (use.call pollRead step) := by
  obtain ⟨tls, opened, rest, n, hstream, rfl, haligned, hsealed, herrors⟩ := h
  cases step with
  | read size =>
    have hwrites := tls.pollRead_sameWrites size
    obtain ⟨tls', opened', rest', n', hsplit, ⟨bytes, hread, haligned'⟩ | ⟨hread, haligned'⟩⟩ :=
      haligned.pollRead size htotal (hearly size rfl)
    all_goals
      rw [hread] at hwrites
      simp only [call, hstream, PenetratingTlsStream.pollRead, hread]
      exact ⟨tls', opened', rest', n', rfl, hsplit, haligned', hsealed.congr hwrites, herrors⟩
  | write input =>
    obtain ⟨tls', hsame, ⟨m, hwrite, hsealed'⟩ | ⟨hwrite, hsealed'⟩⟩ := pollWrite_spec hsealed input
    all_goals
      simp only [call, hstream, PenetratingTlsStream.pollWrite, hwrite]
      exact ⟨tls', opened, rest, n, rfl, rfl, haligned.congr hsame, hsealed', herrors⟩

lemma inTls_run (h : InTls start first records raw use) (calls : List Call)
    (hearly : ∀ earlier size later, calls = earlier ++ .read size :: later →
      (use.inTls earlier).returned.length < total.length) :
    InTls start first records raw (use.inTls calls) := by
  induction calls using List.reverseRecOn with
  | nil => exact h
  | append_singleton calls step ih =>
    have hcalls := ih fun earlier size later hcalls => hearly earlier size (later ++ [step]) (by
      rw [hcalls, append_assoc]
      rfl)
    have hlast : use.inTls (calls ++ [step]) = (use.inTls calls).call pollRead step := by
      rw [inTls, foldl_append]
      rfl
    rw [hlast]
    refine inTls_call htotal hcalls step fun size hread => hearly calls size [] ?_
    rw [hread]

end

section

variable (hbefore : c.decryptAll start records = .ok (reading, before))

include hbefore

/-- A session that has returned some of the last record has been given all the records, and
no more. -/
lemma rest_eq_nil {last : TlsRecord} (h : Aligned start raw returned opened rest n stream)
    (hsplit : opened ++ rest = records ++ [last]) (hsome : before.length < returned.length) :
    rest = [] := by
  by_contra hrest
  obtain ⟨front, record, rfl⟩ := eq_nil_or_concat' rest |>.resolve_left hrest
  rw [← append_assoc] at hsplit
  obtain ⟨rfl, -⟩ := append_inj' hsplit rfl
  obtain ⟨next, first, tail, hfirst, -, rfl⟩ := decryptAll_append.mp hbefore
  rw [h.decrypted] at hfirst
  obtain ⟨-, rfl⟩ := Prod.mk.inj (Except.ok.inj hfirst)
  simp only [length_append] at hsome
  omega

lemma left_of_inTls {last : TlsRecord}
    (htotal : c.decryptAll start (records ++ [last]) = .ok (ended, total))
    (h : InTls start first (records ++ [last]) raw use)
    (hsome : before.length < use.returned.length) :
    ∃ remaining, total = use.returned ++ remaining ∧ Left (remaining ++ raw) use.stream := by
  obtain ⟨tls, opened, rest, n, hstream, hsplit, haligned, -, -⟩ := h
  obtain rfl := rest_eq_nil hbefore haligned hsplit hsome
  obtain rfl := haligned.done rfl
  rw [append_nil] at hsplit
  have hdecrypted := haligned.decrypted
  rw [hsplit, htotal] at hdecrypted
  obtain ⟨-, rfl⟩ := Prod.mk.inj (Except.ok.inj hdecrypted)
  refine ⟨_, rfl, ?_⟩
  rw [hstream]
  exact ⟨haligned.goesOn, congrArg _ haligned.toRead.symm⟩

end

lemma seals_of_inTls (h : InTls start first records raw use) :
    Seals first use.taken use.stream := by
  obtain ⟨tls, opened, rest, n, hstream, -, -, hsealed, -⟩ := h
  rw [hstream]
  exact hsealed

end Use

/-- No piece the session was given goes beyond the end of a record: some of the records are
split into pieces, and the last pieces are the front of the next. -/
def InStep (handed : List Bytes) (records : List TlsRecord) : Prop :=
  ∃ opened rest part, records = opened ++ rest ∧ Handed handed opened part ∧
    part <+: (rest.head?.map TlsRecord.bytes).getD []

lemma Aligned.inStep (h : Aligned start raw returned opened rest n stream) :
    InStep stream.handed (opened ++ rest) := by
  refine ⟨opened, rest, _, rfl, h.handed, ?_⟩
  cases rest with
  | nil =>
    rw [h.done rfl]
    exact nil_prefix
  | cons record rest =>
    have hn := h.position record rfl
    rw [flatMap_cons, take_append_of_le_length (Nat.le_of_lt hn)]
    exact take_prefix _ _

end

/-- **Direct reads lose nothing**: a stream is read in TLS mode, each read made before all the
plaintext of the last record was returned. Then the session has been given no byte beyond the
record it is in. If it has returned some of the last record, direct reads return the rest of
its plaintext and then the raw bytes, all of them once there were reads enough, and the writes
send nothing but TLS records, before the switch and after it. -/
theorem direct_reads_lose_nothing (c : Cipher) (reading : c.Reading) (writing : c.Writing)
    (records : List TlsRecord) (last : TlsRecord) (raw before plain : Bytes)
    (reading₁ reading₂ : c.Reading) (incoming : Carrier) (room : List (Option Nat))
    (serverReadLog : Option ServerReadLog) (calls : List Call)
    (hbefore : c.decryptAll reading records = .ok (reading₁, before))
    (hlast : c.decrypt reading₁ last = .ok (reading₂, plain))
    (hincoming : incoming.bytes = (records ++ [last]).flatMap TlsRecord.bytes ++ raw)
    (hcalls : ∀ earlier size later, calls = earlier ++ .read size :: later →
      ((fresh c reading writing incoming room serverReadLog).inTls earlier).returned.length <
        (before ++ plain).length) :
    ∃ use, use = (fresh c reading writing incoming room serverReadLog).inTls calls ∧
      (∃ tls, use.stream = .tls (some tls) ∧ InStep tls.handed (records ++ [last])) ∧
      use.returned <+: before ++ plain ∧ use.errors = [] ∧
      PenetratingTlsStream.Seals writing use.taken use.stream ∧
      (before.length < use.returned.length →
        ∃ remaining, before ++ plain = use.returned ++ remaining ∧
          ∀ more, ∃ got, (use.direct more).returned = use.returned ++ got ∧
            got <+: remaining ++ raw ∧
            (use.stream.pauses + (remaining ++ raw).length ≤ more.countP Call.asks →
              got = remaining ++ raw) ∧
            (use.direct more).errors = [] ∧
            PenetratingTlsStream.Seals writing (use.direct more).taken (use.direct more).stream) := by
  have htotal : c.decryptAll reading (records ++ [last]) = .ok (reading₂, before ++ plain) :=
    decryptAll_append.mpr ⟨_, _, _, hbefore, decryptAll_singleton hlast, rfl⟩
  have hrun := inTls_run htotal (inTls_fresh hincoming) calls hcalls
  have hseals := seals_of_inTls hrun
  refine ⟨_, rfl, ?_, ?_, ?_, hseals, fun hsome => ?_⟩
  · obtain ⟨tls, opened, rest, n, hstream, hsplit, haligned, -, -⟩ := hrun
    exact ⟨tls, hstream, hsplit ▸ haligned.inStep⟩
  · obtain ⟨tls, opened, rest, n, -, hsplit, haligned, -, -⟩ := hrun
    rw [← hsplit] at htotal
    obtain ⟨next, first, tail, hfirst, -, heq⟩ := decryptAll_append.mp htotal
    rw [haligned.decrypted] at hfirst
    obtain ⟨-, rfl⟩ := Prod.mk.inj (Except.ok.inj hfirst)
    rw [heq, append_assoc]
    exact prefix_append _ _
  · obtain ⟨tls, opened, rest, n, -, -, -, -, herrors⟩ := hrun
    exact herrors
  · obtain ⟨remaining, hremaining, hleft⟩ := left_of_inTls hbefore htotal hrun hsome
    refine ⟨remaining, hremaining, fun more => ?_⟩
    obtain ⟨got, left, hgoes, hdone⟩ := direct_run hleft hseals more
    refine ⟨got, hgoes.returned, ⟨left, hgoes.split.symm⟩, fun henough => ?_, ?_, hgoes.seals⟩
    · rw [hgoes.split, hdone henough, append_nil]
    · obtain ⟨tls, opened, rest, n, -, -, -, -, herrors⟩ := hrun
      exact hgoes.errors.trans herrors

def plainCipher : Cipher where
  Error := Empty
  Reading := Unit
  Writing := Unit
  decrypt _ record := .ok ((), record.payload)
  asks _ _ := true
  room _ _ := ⟨4096, by decide⟩
  closed _ := false
  encrypt _ taken := ((), [⟨23, 3, 3, taken.take 65535,
    Nat.lt_of_le_of_lt (length_take_le _ _) (by decide)⟩])
  takes _ _ := 16384

def emptyRecord : TlsRecord := ⟨23, 3, 3, [], by decide⟩

def sampleRecord : TlsRecord := ⟨23, 3, 3, [104, 105], by decide⟩

/-- Two records and three raw bytes, in pieces that do not end where the records do. -/
def sampleIncoming : Carrier :=
  [.piece ⟨[23, 3], by decide⟩, .piece ⟨[3, 0, 0, 23, 3, 3], by decide⟩,
    .piece ⟨[0, 2, 104, 105, 1, 2], by decide⟩, .pause, .piece ⟨[3], by decide⟩]

/-- The first read returns a byte of the second record. -/
theorem direct_reads_after_two_records :
    (((fresh plainCipher () () sampleIncoming [] none).inTls [.read 1]).direct
      (List.replicate 5 (.read 2))).returned = [104, 105, 1, 2, 3] := by
  have hmid : ((fresh plainCipher () () sampleIncoming [] none).inTls [.read 1]).returned =
      [104] := by
    decide +kernel
  obtain ⟨use, rfl, -, -, -, -, hdirect⟩ := direct_reads_lose_nothing plainCipher () () [emptyRecord]
    sampleRecord [1, 2, 3] [] [104, 105] () () sampleIncoming [] none [.read 1] rfl rfl rfl (by
      intro earlier size later h
      cases earlier with
      | nil => decide
      | cons step earlier => exact absurd (congrArg List.length h) (by simp))
  rw [hmid] at hdirect
  obtain ⟨remaining, hremaining, hdirect⟩ := hdirect (by decide)
  obtain rfl : [105] = remaining := by simpa using hremaining
  obtain ⟨got, hgot, -, hall, -, -⟩ := hdirect (List.replicate 5 (.read 2))
  rw [hgot, hall (by decide +kernel)]
  rfl

end Xray.Transport
