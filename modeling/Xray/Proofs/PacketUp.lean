import Xray.Lib.Queue
import Xray.Xhttp.PacketUp

/-!
# Packet-up uploads are in order and complete

What was written to the stream is what the requests carry, what the worker holds, and what is
in the pipe, as long as the worker has not failed. A request is started when the one before it
is through, and sent again only if nothing of it went out. So every move of the worker keeps
`Good`, and a worker that has ended without failing has sent everything.
-/

namespace Xray.Xhttp

open List

def counter (n : Nat) : Int := (n : Int).bmod (2 ^ 64)

lemma counter_succ (n : Nat) : State.nextSequence (counter n) = counter (n + 1) := by
  unfold State.nextSequence counter
  rw [Int.bmod_add_bmod, Int.natCast_succ]

lemma bmod_of_lt {n half : Nat} (h : n < half) : (n : Int).bmod (half * 2) = n :=
  Int.bmod_eq_of_le_mul_two (by omega) (by omega)

lemma counter_of_lt {n : Nat} (h : n < 2 ^ 63) : counter n = n := by
  unfold counter
  rw [Nat.pow_succ, bmod_of_lt h]

/-- What the HTTP engine is to be given of a request: its body, behind its head on HTTP/1.1. -/
def Upload.wire (session : Session) (upload : Upload) : Bytes :=
  (if session.version = .http1 then upload.head else []) ++
    if session.inBody then upload.payload else []

def Complete (session : Session) (upload : Upload) : Prop :=
  upload.given = upload.wire session ∧ (session.version = .http1 → upload.consumed = true)

/-- An attempt after which the request may be sent again. -/
def MayRetry : HttpVersion → Attempt → Prop
  | .http1, attempt => attempt = .writeFailed 0
  | .http2, attempt => attempt = .refused
  | .http3, _ => False

def Retried (session : Session) (upload : Upload) : Prop :=
  ∀ attempt ∈ upload.attempts.dropLast, MayRetry session.version attempt

def Numbered : List Upload → Prop
  | [] => True
  | upload :: uploads => upload.sequence = counter uploads.length ∧ Numbered uploads

lemma Numbered.sequence {uploads : List Upload} (h : Numbered uploads) {i : Nat} {upload : Upload}
    (hi : uploads.reverse[i]? = some upload) : upload.sequence = counter i := by
  induction uploads with
  | nil => cases hi
  | cons newest uploads ih =>
    rw [reverse_cons, getElem?_append] at hi
    split at hi
    · exact ih h.2 hi
    next hlast =>
    rw [length_reverse] at hlast hi
    have hzero : i - uploads.length = 0 := by
      by_contra hne
      rw [getElem?_eq_none (by simp; omega)] at hi
      cases hi
    rw [hzero] at hi
    cases hi
    have hlength : uploads.length = i := by omega
    rw [← hlength]
    exact h.1

namespace Phase

/-- The bytes that the worker has read and put into no request yet. -/
def held : Phase → Bytes
  | .reading buffer => buffer
  | .pacing payload => payload
  | .rotating payload => payload
  | .composing payload => payload
  | _ => []

def isSending : Phase → Bool
  | .take _ _ => true
  | .writing _ _ _ _ => true
  | .opening => true
  | .draining => true
  | .checkout _ _ => true
  | .starting _ _ _ => true
  | .uploading _ _ => true
  | _ => false

/-- What is known of the newest request. -/
def Sending (session : Session) (phase : Phase) (upload : Upload) : Prop :=
  match phase with
  | .take request retry => upload.given ++ request = upload.wire session ∧
      upload.attempts = if retry then [] else [.writeFailed 0]
  | .writing request retry _ bytesWritten =>
    upload.given ++ request.drop bytesWritten = upload.wire session ∧
      upload.attempts = (if retry then [] else [.writeFailed 0]) ++ [.sent]
  | .opening => upload.given = upload.wire session ∧ Retried session upload
  | .draining => upload.given = upload.wire session ∧ Retried session upload
  | .checkout body fresh => upload.given ++ body = upload.wire session ∧
      upload.attempts = if fresh then [.refused] else []
  | .starting body fresh _ => upload.given ++ body = upload.wire session ∧
      upload.attempts = if fresh then [.refused] else []
  | .uploading body _ => upload.given ++ body = upload.wire session ∧ Retried session upload
  | .failed => Retried session upload
  | _ => Complete session upload ∧ Retried session upload

def Fits (session : Session) (payload : Bytes) : Prop :=
  payload ≠ [] ∧ payload.length ≤ session.maxPacket

/-- What is known of the phase itself; `drained` says that nothing more can be read. -/
def Ready (session : Session) (drained : Prop) : Phase → Prop
  | .gate => session.version = .http1
  | .room => session.version ≠ .http1
  | .reap => session.version ≠ .http1
  | .reading buffer =>
    buffer.length < session.maxPacket ∧ (session.version ≠ .http1 → buffer = [])
  | .pacing payload => Fits session payload
  | .rotating payload => Fits session payload
  | .composing payload => Fits session payload
  | .take _ _ => session.version = .http1
  | .writing request _ _ bytesWritten =>
    session.version = .http1 ∧ bytesWritten ≤ request.length
  | .opening => session.version = .http1
  | .draining => session.version = .http1
  | .checkout _ fresh => session.version ≠ .http1 ∧ (fresh = true → session.version = .http2)
  | .starting _ fresh _ => session.version ≠ .http1 ∧ (fresh = true → session.version = .http2)
  | .uploading _ _ => session.version ≠ .http1
  | .finishing => session.version ≠ .http1 ∧ drained
  | .done => drained
  | .failed => True

lemma Ready.mono {session : Session} {drained drained' : Prop} {phase : Phase}
    (h : phase.Ready session drained) (himp : drained → drained') :
    phase.Ready session drained' := by
  cases phase with
  | finishing => exact ⟨h.1, himp h.2⟩
  | done => exact himp h
  | _ => exact h

/-- Whatever the worker does, it has sent nothing again that may have gone out. -/
lemma Sending.retried {session : Session} {drained : Prop} {phase : Phase} {upload : Upload}
    (h : phase.Sending session upload) (hready : phase.Ready session drained) :
    Retried session upload := by
  have honce : ∀ {attempts : List Attempt}, attempts.length ≤ 1 → upload.attempts = attempts →
      Retried session upload := by
    intro attempts hlength heq attempt hattempt
    rw [heq] at hattempt
    match attempts, hlength with
    | [], _ => cases hattempt
    | [_], _ => cases hattempt
  cases phase with
  | take request retry => exact honce (by cases retry <;> simp) h.2
  | writing request retry pooled bytesWritten =>
    intro attempt hattempt
    have hattempts : upload.attempts = _ := h.2
    rw [hattempts, dropLast_concat] at hattempt
    rw [hready.1]
    cases retry with
    | true => cases hattempt
    | false => exact mem_singleton.mp hattempt
  | opening => exact h.2
  | draining => exact h.2
  | checkout body fresh | starting body fresh pooled => exact honce (by cases fresh <;> simp) h.2
  | uploading body response => exact h.2
  | failed => exact h
  | _ => exact h.2

end Phase

namespace State

def Drained (s : State) : Prop := s.pipe = [] ∧ s.closed = true

structure Good (session : Session) (s : State) : Prop where
  bytes : Queue.Conserved s.written s.sent (s.phase.held ++ s.pipe) (s.phase = .failed)
  sequence : s.sequence = counter s.uploads.length
  numbered : Numbered s.uploads
  payloads : ∀ upload ∈ s.uploads, Phase.Fits session upload.payload
  through : ∀ upload ∈ s.uploads.tail, Complete session upload ∧ Retried session upload
  sending : ∀ upload ∈ s.uploads.head?, s.phase.Sending session upload
  ready : s.phase.Ready session s.Drained
  unheard : s.firstUplink ≠ some .data → s.written = []
  shut : s.firstUplink = some .closed → s.closed
  told : s.closed → s.firstUplink ≠ none

/-! ## Moves that leave the bytes alone -/

/-- A move that leaves the bytes alone, and changes the newest request by `f`. -/
structure Moved (f : Upload → Upload) (s t : State) : Prop where
  written : t.written = s.written
  pipe : t.pipe = s.pipe
  closed : t.closed = s.closed
  firstUplink : t.firstUplink = s.firstUplink
  sequence : t.sequence = s.sequence
  uploads : t.uploads = (s.update f).uploads

lemma uploads_update (s : State) (f : Upload → Upload) :
    (s.update f).uploads = match s.uploads with
      | [] => []
      | upload :: uploads => f upload :: uploads := by
  rw [update]
  cases h : s.uploads with
  | nil => exact h
  | cons upload uploads => rfl

lemma update_fields (s : State) (f : Upload → Upload) :
    (s.update f).written = s.written ∧ (s.update f).pipe = s.pipe ∧
      (s.update f).closed = s.closed ∧ (s.update f).firstUplink = s.firstUplink ∧
      (s.update f).sequence = s.sequence := by
  rw [update]
  split <;> exact ⟨rfl, rfl, rfl, rfl, rfl⟩

lemma moved_update (s : State) (f : Upload → Upload) (phase : Phase)
    (responses : List (Option Bool)) : Moved f s { s.update f with phase, responses } := by
  obtain ⟨hwritten, hpipe, hclosed, hfirst, hsequence⟩ := s.update_fields f
  exact ⟨hwritten, hpipe, hclosed, hfirst, hsequence, rfl⟩

variable {session : Session} {s t : State} {f : Upload → Upload}

def KeepsRequest (f : Upload → Upload) : Prop :=
  ∀ upload, (f upload).sequence = upload.sequence ∧ (f upload).payload = upload.payload

section

variable (h : Moved f s t)

include h

lemma Moved.sent (hf : KeepsRequest f) : t.sent = s.sent := by
  rw [State.sent, State.sent, h.uploads, uploads_update]
  cases s.uploads with
  | nil => rfl
  | cons upload uploads => simp [(hf upload).2]

lemma Moved.length : t.uploads.length = s.uploads.length := by
  rw [h.uploads, uploads_update]
  cases s.uploads <;> rfl

lemma Moved.numbered (hf : KeepsRequest f) (hs : Numbered s.uploads) : Numbered t.uploads := by
  rw [h.uploads, uploads_update]
  cases hu : s.uploads with
  | nil => trivial
  | cons upload uploads =>
    rw [hu] at hs
    exact ⟨(hf upload).1.trans hs.1, hs.2⟩

lemma Moved.payloads (hf : KeepsRequest f)
    (hs : ∀ upload ∈ s.uploads, Phase.Fits session upload.payload) :
    ∀ upload ∈ t.uploads, Phase.Fits session upload.payload := by
  rw [h.uploads, uploads_update]
  cases hu : s.uploads with
  | nil => exact by simp
  | cons upload uploads =>
    rw [hu] at hs
    intro other hother
    rcases mem_cons.mp hother with rfl | hother
    · rw [(hf upload).2]
      exact hs upload mem_cons_self
    · exact hs other (mem_cons_of_mem _ hother)

lemma Moved.tail : t.uploads.tail = s.uploads.tail := by
  rw [h.uploads, uploads_update]
  cases s.uploads <;> rfl

lemma Moved.head : t.uploads.head? = s.uploads.head?.map f := by
  rw [h.uploads, uploads_update]
  cases s.uploads <;> rfl

end

lemma Good.moved (h : Good session s) (hm : Moved f s t) (hf : KeepsRequest f)
    (hfailed : s.phase = .failed → t.phase = .failed) (hheld : t.phase.held = s.phase.held)
    (hready : t.phase.Ready session s.Drained)
    (hsending : ∀ upload ∈ s.uploads.head?, t.phase.Sending session (f upload)) :
    Good session t where
  bytes := by
    rw [hm.written, hm.sent hf, hheld, hm.pipe]
    exact h.bytes.mono hfailed
  sequence := by rw [hm.sequence, hm.length, h.sequence]
  numbered := hm.numbered hf h.numbered
  payloads := hm.payloads hf h.payloads
  through := by
    rw [hm.tail]
    exact h.through
  sending := by
    rw [hm.head]
    intro upload hupload
    obtain ⟨other, hother, rfl⟩ := Option.map_eq_some_iff.mp hupload
    exact hsending other hother
  ready := by
    rw [Drained, hm.pipe, hm.closed]
    exact hready
  unheard := by
    rw [hm.firstUplink, hm.written]
    exact h.unheard
  shut := by
    rw [hm.firstUplink, hm.closed]
    exact h.shut
  told := by
    rw [hm.firstUplink, hm.closed]
    exact h.told

variable {lastRequest : Option Nat} {client : Nat} {responses : List (Option Bool)}

section

variable (h : Good session s)

include h

variable {phase : Phase}

/-- A move that goes on from `old`, and changes the newest request by `f`. -/
lemma Good.update {old : Phase} (hphase : s.phase = old) (hf : KeepsRequest f)
    (halive : old ≠ .failed) (hheld : phase.held = old.held)
    (hready : phase.Ready session s.Drained)
    (hsending : ∀ upload ∈ s.uploads.head?, phase.Sending session (f upload)) :
    Good session { s.update f with phase, responses } := by
  subst hphase
  exact h.moved (moved_update _ _ _ _) hf (fun hfailed => absurd hfailed halive) hheld hready
    hsending

/-- Only the phase and the pipe change, and what is not part of `Good`. -/
lemma Good.repipe {pipe : Bytes}
    (hbytes : Queue.Conserved s.written s.sent (phase.held ++ pipe) (phase = .failed))
    (hready : phase.Ready session (Drained { s with pipe }))
    (hsending : ∀ upload ∈ s.uploads.head?, phase.Sending session upload) :
    Good session { s with phase, pipe, lastRequest, client, responses } :=
  ⟨hbytes, h.sequence, h.numbered, h.payloads, h.through, hsending, hready, h.unheard, h.shut,
    h.told⟩

lemma Good.turn {old : Phase} (hphase : s.phase = old) (halive : old ≠ .failed)
    (hheld : phase.held = old.held) (hready : phase.Ready session s.Drained)
    (hsending : ∀ upload ∈ s.uploads.head?, phase.Sending session upload) :
    Good session { s with phase, lastRequest, client, responses } := by
  subst hphase
  refine h.repipe ?_ hready hsending
  rw [hheld]
  exact h.bytes.mono fun hfailed => absurd hfailed halive

lemma Good.retried : ∀ upload ∈ s.uploads.head?, Retried session upload :=
  fun upload hupload => (h.sending upload hupload).retried h.ready

lemma Good.fail : Good session s.fail := by
  exact h.repipe (h.bytes.clear rfl) trivial h.retried

lemma Good.fail_update (hf : KeepsRequest f)
    (hretried : ∀ upload ∈ s.uploads.head?, Retried session (f upload)) :
    Good session (s.update f).fail := by
  obtain ⟨hwritten, -, hclosed, hfirst, hsequence⟩ := s.update_fields f
  refine h.fail.moved ⟨hwritten, rfl, hclosed, hfirst, hsequence, ?_⟩ hf id rfl trivial hretried
  rw [uploads_update]
  exact s.uploads_update f

lemma Good.write {input : Bytes} (hs : s.write session input = some t) : Good session t := by
  rw [State.write] at hs
  split at hs
  · cases hs
  next hopen =>
  rw [not_or, not_or, isOver, Bool.or_eq_true, not_or, beq_iff_eq, beq_iff_eq] at hopen
  obtain ⟨⟨-, hfailed⟩, hclosed, -⟩ := hopen
  cases hs
  refine ⟨?_, h.sequence, h.numbered, h.payloads, h.through, h.sending, ?_, ?_, ?_, ?_⟩
  · have hpush := h.bytes.push hfailed input
    rwa [append_assoc] at hpush
  · exact h.ready.mono fun hdrained => absurd hdrained.2 hclosed
  · intro hdata
    show s.written ++ input = []
    have hnil : input = [] := by
      by_contra hne
      apply hdata
      show (if input = [] then _ else _) = _
      rw [if_neg hne]
      cases hfirst : s.firstUplink with
      | none => rfl
      | some first =>
        cases first with
        | data => rfl
        | closed => exact absurd (h.shut hfirst) hclosed
    rw [hnil, append_nil]
    refine h.unheard fun hfirst => hdata ?_
    show (if input = [] then _ else _) = _
    rw [if_pos hnil, hfirst]
  · intro hfirst
    refine absurd (h.shut ?_) hclosed
    revert hfirst
    show (if input = [] then s.firstUplink else _) = _ → _
    split
    · exact id
    · cases s.firstUplink <;> simp
  · exact fun hshut => absurd hshut hclosed

lemma Good.shutdown : Good session s.shutdown := by
  refine ⟨h.bytes, h.sequence, h.numbered, h.payloads, h.through, h.sending, ?_, ?_, ?_, ?_⟩
  · exact h.ready.mono fun hdrained => ⟨hdrained.1, rfl⟩
  · intro hdata
    refine h.unheard fun hfirst => hdata ?_
    show s.firstUplink.or _ = _
    rw [hfirst]
    rfl
  · exact fun _ => rfl
  · intro _
    show s.firstUplink.or _ ≠ none
    cases s.firstUplink <;> simp

lemma Good.join (halive : s.phase ≠ .failed) {index : Nat}
    (hs : s.join index = some t) : Good session t := by
  rw [State.join] at hs
  split at hs
  · cases hs
    exact h.turn rfl halive rfl h.ready h.sending
  · cases hs
    exact h.fail
  · cases hs

lemma Good.settle {index : Nat} {ok : Bool}
    (hs : s.settle index ok = some t) : Good session t := by
  rw [State.settle] at hs
  split at hs
  · cases hs
    exact h.repipe h.bytes h.ready h.sending
  · cases hs

end

variable {buffer payload : Bytes}

section

variable (h : Good session s)

include h

section

variable (hphase : s.phase = .reading buffer)

include hphase

lemma Good.take {n : Nat} {phase : Phase} (hheld : phase.held = buffer ++ s.pipe.take n)
    (hready : phase.Ready session (Drained { s with pipe := s.pipe.drop n }))
    (hsending : ∀ upload ∈ s.uploads.head?, phase.Sending session upload) :
    Good session { s with pipe := s.pipe.drop n, phase } := by
  have hbytes := h.bytes
  rw [hphase] at hbytes
  refine h.repipe ?_ hready hsending
  rw [hheld, append_assoc, take_append_drop]
  exact hbytes.mono nofun

lemma Good.complete :
    ∀ upload ∈ s.uploads.head?, Complete session upload ∧ Retried session upload := by
  have hsending := h.sending
  rw [hphase] at hsending
  exact hsending

lemma Good.afterRead (n : Nat) (hlength : (buffer ++ s.pipe.take n).length ≤ session.maxPacket)
    (hdrained : buffer ++ s.pipe.take n = [] → Drained { s with pipe := s.pipe.drop n }) :
    Good session
      ({ s with pipe := s.pipe.drop n }.afterRead session (buffer ++ s.pipe.take n)) := by
  have hcomplete := h.complete hphase
  rw [State.afterRead]
  split
  · next hnil =>
    split
    · exact h.take hphase hnil.symm (hdrained hnil) hcomplete
    · next hversion => exact h.take hphase hnil.symm ⟨hversion, hdrained hnil⟩ hcomplete
  · next hne => exact h.take hphase rfl ⟨hne, hlength⟩ hcomplete

lemma Good.afterRead_zero
    (hlength : buffer.length ≤ session.maxPacket) (hdrained : buffer = [] → s.Drained) :
    Good session (s.afterRead session buffer) := by
  have hend := h.afterRead hphase 0
  rw [take_zero, append_nil] at hend
  exact hend hlength hdrained

lemma Good.readH1 (hversion : session.version = .http1) {input : Input}
    (hs : s.readH1 session buffer input = some t) : Good session t := by
  have hready := h.ready
  rw [hphase] at hready
  have hlength : buffer.length < session.maxPacket := hready.1
  revert hs
  fun_cases State.readH1 s session buffer input with
  | case2 n hn filled _ hfull =>
    rintro ⟨⟩
    refine h.afterRead hphase n (Nat.le_of_eq hfull) fun hnil => ?_
    have := congrArg List.length hnil
    rw [length_append, length_take, length_nil] at this
    omega
  | case3 n hn filled _ hroom =>
    rintro ⟨⟩
    refine h.take hphase rfl ⟨?_, fun hne => absurd hversion hne⟩ (h.complete hphase)
    have : filled.length = buffer.length + min n s.pipe.length := by simp [filled]
    omega
  | case4 =>
    rintro ⟨⟩
    exact h
  | case5 hne =>
    rintro ⟨⟩
    exact h.afterRead_zero hphase (Nat.le_of_lt hlength) fun hnil => absurd hnil hne
  | case6 hend =>
    rintro ⟨⟩
    exact h.afterRead_zero hphase (Nat.le_of_lt hlength) fun _ => hend
  | _ => rintro ⟨⟩

lemma Good.readMultiplexed (hversion : session.version ≠ .http1) {input : Input}
    (hs : s.readMultiplexed session input = some t) : Good session t := by
  have hready := h.ready
  rw [hphase] at hready
  obtain rfl := hready.2 hversion
  revert hs
  fun_cases State.readMultiplexed s session input with
  | case2 n hn =>
    rintro ⟨⟩
    refine h.afterRead hphase n ?_ fun hnil => ?_
    · rw [nil_append, length_take]
      omega
    have := congrArg List.length hnil
    rw [nil_append, length_take, length_nil] at this
    omega
  | case3 =>
    rintro ⟨⟩
    exact h
  | case4 hend =>
    rintro ⟨⟩
    exact h.afterRead_zero hphase (Nat.zero_le _) fun _ => hend
  | case6 => exact h.join (by simp [hphase])
  | _ => rintro ⟨⟩

end

/-! ## Between reading and sending -/

lemma Good.waitPacketInterval (hphase : s.phase = .pacing payload)
    {delay : Option Nat} {now : Nat} (hs : s.waitPacketInterval session payload delay now = some t) :
    Good session t := by
  have hready := h.ready
  have hsending := h.sending
  rw [hphase] at hready hsending
  have hpaced : Good session { s with phase := .rotating payload, lastRequest := some now } :=
    h.turn hphase nofun rfl hready hsending
  revert hs
  fun_cases State.waitPacketInterval s session payload delay now with
  | case1 =>
    rintro ⟨⟩
    exact h.fail
  | case2 => rintro ⟨⟩
  | case3 | case4 =>
    intro hs
    exact Option.some.inj hs ▸ hpaced

lemma Good.rotate (hphase : s.phase = .rotating payload) (remaining : Int)
    (expired : Bool) (replacement : Option Nat) :
    Good session (s.rotatePacketClientIfNeeded payload remaining expired replacement) := by
  have hready := h.ready
  have hsending := h.sending
  rw [hphase] at hready hsending
  have hturn : ∀ client, Good session { s with phase := .composing payload, client } := fun client =>
    h.turn hphase nofun rfl hready hsending
  rw [rotatePacketClientIfNeeded.eq_def]
  split
  · split
    · exact h.fail
    · exact hturn _
  · exact hturn s.client

lemma Good.composePacket (hphase : s.phase = .composing payload) (head : Bytes) :
    Good session (s.composePacket session payload head) where
  bytes := by
    have hbytes := h.bytes
    rw [hphase] at hbytes
    have hsent : (s.composePacket session payload head).sent = s.sent ++ payload := by
      simp [State.sent, State.composePacket]
    have hheld : (s.composePacket session payload head).phase.held = [] := by
      rw [State.composePacket]
      cases session.version <;> rfl
    rw [hsent, hheld]
    exact (Queue.Conserved.take hbytes).mono fun hfailed => absurd hfailed (by simp)
  sequence := by
    show nextSequence s.sequence = counter (s.uploads.length + 1)
    rw [h.sequence, counter_succ]
  numbered := ⟨h.sequence, h.numbered⟩
  payloads := by
    have hready := h.ready
    rw [hphase] at hready
    intro upload hupload
    rcases mem_cons.mp hupload with rfl | hupload
    · exact hready
    · exact h.payloads upload hupload
  through := by
    have hsending := h.sending
    rw [hphase] at hsending
    intro upload hupload
    have hupload : upload ∈ s.uploads := hupload
    rcases huploads : s.uploads with _ | ⟨newest, uploads⟩
    · rw [huploads] at hupload
      cases hupload
    have hthrough := h.through
    rw [huploads] at hupload hthrough hsending
    rcases mem_cons.mp hupload with rfl | hupload
    · exact hsending _ rfl
    · exact hthrough upload hupload
  sending := by
    intro upload hupload
    obtain rfl := Option.some.inj hupload
    rw [State.composePacket]
    cases hversion : session.version <;> exact ⟨by simp [Upload.wire, hversion], rfl⟩
  ready := by
    rw [State.composePacket]
    cases hversion : session.version with
    | http1 => exact hversion
    | http2 | http3 => exact ⟨by rw [hversion]; simp, by simp⟩
  unheard := h.unheard
  shut := h.shut
  told := h.told

/-- The worker reads on when the newest request is through. -/
lemma Good.next {old : Phase} (hphase : s.phase = old)
    (hf : KeepsRequest f) (halive : old ≠ .failed) (hheld : [] = old.held)
    (hsending : ∀ upload ∈ s.uploads.head?,
      Complete session (f upload) ∧ Retried session (f upload)) :
    Good session (State.next { s.update f with responses } session) := by
  rw [State.next]
  split
  · exact h.update hphase hf halive hheld ⟨session.positive, fun _ => rfl⟩ hsending
  · next hversion => exact h.update hphase hf halive hheld hversion hsending

variable {input : Input}

lemma Good.sendH1Packet (hversion : session.version = .http1)
    (hs : s.sendH1Packet session s.phase input = some t) : Good session t := by
  have hready := h.ready
  have hsending := h.sending
  have hretried := h.retried
  generalize hphase : s.phase = phase at hs hready hsending
  revert hs
  fun_cases State.sendH1Packet s session phase input with
  | case1 request retry pooled dialled =>
    rintro ⟨⟩
    refine h.update hphase (fun _ => ⟨rfl, rfl⟩) nofun rfl ⟨hversion, Nat.zero_le _⟩ ?_
    intro upload hupload
    exact (hsending upload hupload).imp_right (congrArg (· ++ [Attempt.sent]))
  | case2 =>
    rintro ⟨⟩
    exact h.fail
  | case4 request retry pooled bytesWritten n hn =>
    rintro ⟨⟩
    refine h.update hphase (fun _ => ⟨rfl, rfl⟩) nofun rfl ⟨hversion, by omega⟩ ?_
    intro upload hupload
    obtain ⟨hgiven, hattempts⟩ := hsending upload hupload
    refine ⟨?_, hattempts⟩
    show upload.given ++ (request.drop bytesWritten).take n ++ _ = _
    rw [append_assoc, ← drop_drop, take_append_drop]
    exact hgiven
  | case5 request retry pooled bytesWritten _ hstale =>
    rintro ⟨⟩
    refine h.update hphase (fun _ => ⟨rfl, rfl⟩) nofun rfl hversion ?_
    intro upload hupload
    obtain ⟨hgiven, hattempts⟩ := hsending upload hupload
    rw [hstale.2.2] at hgiven
    refine ⟨hgiven, ?_⟩
    show upload.attempts.dropLast ++ [Attempt.writeFailed bytesWritten] = _
    rw [hattempts, dropLast_concat, hstale.2.1, hstale.2.2]
    rfl
  | case6 =>
    rintro ⟨⟩
    refine h.fail_update (fun _ => ⟨rfl, rfl⟩) ?_
    intro upload hupload attempt hattempt
    refine hretried upload hupload attempt ?_
    simpa using hattempt
  | case7 =>
    rintro ⟨⟩
    refine h.turn hphase nofun rfl hversion fun upload hupload => ⟨?_, hretried upload hupload⟩
    have hgiven := (hsending upload hupload).1
    rwa [drop_length, append_nil] at hgiven
  | case9 ok =>
    cases ok <;> rintro ⟨⟩
    · exact h.fail
    · exact h.turn hphase nofun rfl hversion hsending
  | case10 ok =>
    cases ok <;> rintro ⟨⟩
    · exact h.fail
    refine h.next hphase (fun _ => ⟨rfl, rfl⟩) nofun rfl ?_
    intro upload hupload
    obtain ⟨hhanded, hretried⟩ := hsending upload hupload
    exact ⟨⟨hhanded, fun _ => rfl⟩, hretried⟩
  | _ => rintro ⟨⟩

lemma Good.sendMultiplexedPacket (hversion : session.version ≠ .http1)
    (hs : s.sendMultiplexedPacket session s.phase input = some t) : Good session t := by
  have hready := h.ready
  have hsending := h.sending
  have hretried := h.retried
  generalize hphase : s.phase = phase at hs hready hsending
  have hagain : ∀ {body fresh pooled}, phase = .starting body fresh pooled → ∀ result,
      ∀ upload ∈ s.uploads.head?,
        Retried session { upload with attempts := upload.attempts ++ [result] } := by
    rintro body fresh pooled rfl result upload hupload attempt hattempt
    rw [dropLast_concat, (hsending upload hupload).2] at hattempt
    cases fresh with
    | false => cases hattempt
    | true =>
      rw [hready.2 rfl]
      exact mem_singleton.mp hattempt
  revert hs
  fun_cases State.sendMultiplexedPacket s session phase input with
  | case1 | case11 =>
    rintro ⟨⟩
    exact h.fail
  | case2 =>
    rintro ⟨⟩
    exact h.turn hphase nofun rfl hready hsending
  | case3 =>
    rintro ⟨⟩
    exact h.update hphase (fun _ => ⟨rfl, rfl⟩) nofun rfl hversion fun upload hupload =>
      ⟨(hsending upload hupload).1, hagain rfl .sent upload hupload⟩
  | case4 body fresh pooled hfresh =>
    rintro ⟨⟩
    refine h.update hphase (fun _ => ⟨rfl, rfl⟩) nofun rfl ⟨hversion, fun _ => hfresh.1⟩ ?_
    intro upload hupload
    obtain ⟨hgiven, heq⟩ := hsending upload hupload
    refine ⟨hgiven, ?_⟩
    show upload.attempts ++ [Attempt.refused] = [.refused]
    rw [heq, if_neg (by simpa using hfresh.2.1)]
    rfl
  | case5 =>
    rintro ⟨⟩
    exact h.fail_update (fun _ => ⟨rfl, rfl⟩) (hagain rfl .refused)
  | case6 =>
    rintro ⟨⟩
    exact h.fail_update (fun _ => ⟨rfl, rfl⟩) (hagain rfl .failed)
  | case8 body response n hn =>
    rintro ⟨⟩
    refine h.update hphase (fun _ => ⟨rfl, rfl⟩) nofun rfl hversion fun upload hupload =>
      ⟨?_, hretried upload hupload⟩
    show upload.given ++ body.take n ++ body.drop n = _
    rw [append_assoc, take_append_drop]
    exact (hsending upload hupload).1
  | case9 =>
    rintro ⟨⟩
    have hcomplete : ∀ upload ∈ s.uploads.head?,
        Complete session upload ∧ Retried session upload := by
      intro upload hupload
      have hgiven := (hsending upload hupload).1
      rw [append_nil] at hgiven
      exact ⟨⟨hgiven, fun heq => absurd heq hversion⟩, hretried upload hupload⟩
    rw [State.next]
    split
    next hsame => exact absurd hsame hversion
    next => exact h.turn hphase nofun rfl hversion hcomplete
  | case12 body ok =>
    cases ok <;> rintro ⟨⟩
    · exact h.fail
    · exact h.turn hphase nofun rfl hversion hsending
  | _ => rintro ⟨⟩

/-! ## Every move, and every run -/

lemma Good.unwritten (hfirst : s.firstUplink = some .closed) : s.Drained := by
  have hwritten := h.unheard (by simp [hfirst])
  obtain ⟨lost, hbytes, -⟩ := h.bytes
  refine ⟨?_, h.shut hfirst⟩
  rw [hwritten] at hbytes
  have hlength := congrArg List.length hbytes
  simp only [length_append, length_nil] at hlength
  exact length_eq_zero_iff.mp (by omega)

lemma Good.work (hs : s.work session input = some t) : Good session t := by
  have hready := h.ready
  have hsending := h.sending
  revert hs
  fun_cases State.work s session input with
  | case2 hphase | case10 hphase =>
    rw [hphase] at hsending
    rintro ⟨⟩
    exact h.turn hphase nofun rfl ⟨session.positive, fun _ => rfl⟩ hsending
  | case3 hphase hfirst =>
    rw [hphase] at hsending
    rintro ⟨⟩
    exact h.turn hphase nofun rfl (h.unwritten hfirst) hsending
  | case4 index hphase | case8 index hphase | case17 index hphase =>
    exact h.join (by simp [hphase])
  | case7 hphase =>
    rw [hphase] at hready hsending
    rintro ⟨⟩
    exact h.turn hphase nofun rfl hready hsending
  | case11 buffer input hphase hversion => exact h.readH1 hphase hversion
  | case12 buffer input hphase hversion => exact h.readMultiplexed hphase hversion
  | case13 payload delay now hphase => exact h.waitPacketInterval hphase
  | case14 payload remaining expired replacement hphase =>
    rintro ⟨⟩
    exact h.rotate hphase _ _ _
  | case15 =>
    rintro ⟨⟩
    exact h.fail
  | case16 payload hphase head =>
    rintro ⟨⟩
    exact h.composePacket hphase head
  | case18 hphase =>
    rw [hphase] at hready hsending
    rintro ⟨⟩
    exact h.turn hphase nofun rfl hready.2 hsending
  | case20 input hversion => exact h.sendH1Packet hversion
  | case21 input hversion => exact h.sendMultiplexedPacket hversion
  | _ => rintro ⟨⟩

lemma Good.step (hs : step session s input = some t) : Good session t := by
  cases input with
  | write input => exact h.write hs
  | shutdown =>
    cases hs
    exact h.shutdown
  | settle index ok => exact h.settle hs
  | _ => exact h.work hs

end

lemma good_start (session : Session) : Good session (start session) where
  bytes := by
    have hheld : (start session).phase.held = [] := by
      rw [start]
      cases session.version <;> rfl
    rw [hheld]
    exact Queue.Conserved.nil
  sequence := (counter_of_lt (Nat.two_pow_pos 63)).symm
  numbered := trivial
  payloads := fun _ hupload => absurd hupload not_mem_nil
  through := fun _ hupload => absurd hupload not_mem_nil
  sending := fun _ hupload => nomatch hupload
  ready := by
    rw [start]
    cases hversion : session.version with
    | http1 => exact hversion
    | http2 | http3 =>
      show session.version ≠ .http1
      simp [hversion]
  unheard := fun _ => rfl
  shut := fun h => nomatch h
  told := fun h => nomatch h

lemma good_of_run {inputs : List Input} (h : run session inputs = some s) : Good session s :=
  Machine.run_keeps (fun hgood hs => hgood.step hs) (good_start session) h

/-! ## A worker that has not failed can end -/

def Unfailed (s : State) : Prop := some false ∉ s.responses

/-- A worker that has not failed, on a stream that was shut down. -/
structure Live (session : Session) (s : State) : Prop where
  good : Good session s
  closed : s.closed
  unfailed : s.Unfailed
  alive : s.phase ≠ .failed

/-- What is still to be put into requests. -/
def left (s : State) : Nat := (s.phase.held ++ s.pipe).length

/-- How far a phase is from the next request, or from the end. -/
def phaseRank : Phase → Nat
  | .gate => 5
  | .room => 6
  | .reap => 5
  | .reading _ => 4
  | .pacing _ => 3
  | .rotating _ => 2
  | .composing _ => 1
  | .take request _ => 12 + request.length
  | .writing request _ _ bytesWritten => 11 + (request.length - bytesWritten)
  | .opening => 10
  | .draining => 9
  | .checkout body _ => 11 + body.length
  | .starting body _ _ => 10 + body.length
  | .uploading body _ => 9 + body.length
  | .finishing => 1
  | .done => 0
  | .failed => 0

def joinSteps (responses : List (Option Bool)) : Nat :=
  (responses.map fun response => if response = none then 2 else 1).sum

def rank (s : State) : Nat := phaseRank s.phase + joinSteps s.responses + s.pipe.length

def Advances (session : Session) (s : State) : Prop :=
  ∃ input t, step session s input = some t ∧ t.written = s.written ∧ Live session t ∧
    (t.left < s.left ∨ t.left = s.left ∧ t.rank < s.rank)

/-- The worker goes on with the bytes that it has, and the responses stay. -/
lemma Live.turns (h : Live session s) (input : Input) (t : State)
    (hs : step session s input = some t)
    (hsame : t.written = s.written ∧ t.closed = s.closed ∧ t.responses = s.responses)
    (halive : t.phase ≠ .failed) (hbytes : t.phase.held ++ t.pipe = s.phase.held ++ s.pipe)
    (hrank : phaseRank t.phase + t.pipe.length < phaseRank s.phase + s.pipe.length) :
    Advances session s := by
  obtain ⟨hwritten, hclosed, hresponses⟩ := hsame
  refine ⟨input, t, hs, hwritten, ⟨h.good.step hs, hclosed.trans h.closed, ?_, halive⟩,
    .inr ⟨?_, ?_⟩⟩
  · rw [Unfailed, hresponses]
    exact h.unfailed
  · rw [left, left, hbytes]
  · rw [rank, rank, hresponses]
    omega

lemma update_same (s : State) (f : Upload → Upload) : (s.update f).written = s.written ∧
    (s.update f).closed = s.closed ∧ (s.update f).responses = s.responses := by
  rw [update]
  split <;> exact ⟨rfl, rfl, rfl⟩

section

variable (h : Live session s)

include h

lemma Live.turns_update {old : Phase} (hphase : s.phase = old) (input : Input)
    (f : Upload → Upload) (phase : Phase)
    (hs : step session s input = some { s.update f with phase }) (halive : phase ≠ .failed)
    (hheld : phase.held = old.held) (hrank : phaseRank phase < phaseRank old) :
    Advances session s := by
  subst hphase
  have hpipe := (s.update_fields f).2.1
  refine h.turns input _ hs (s.update_same f) halive ?_ ?_
  · show phase.held ++ (s.update f).pipe = _
    rw [hheld, hpipe]
  show phaseRank phase + (s.update f).pipe.length < _
  rw [hpipe]
  omega

lemma Live.turns_phase {old : Phase} (hphase : s.phase = old) (input : Input) (phase : Phase)
    (hs : step session s input = some { s with phase }) (halive : phase ≠ .failed)
    (hheld : phase.held = old.held) (hrank : phaseRank phase < phaseRank old) :
    Advances session s := by
  subst hphase
  exact h.turns input _ hs ⟨rfl, rfl, rfl⟩ halive (congrArg (· ++ s.pipe) hheld)
    (Nat.add_lt_add_right hrank _)

/-- The first response is settled or joined, where the worker joins responses. -/
lemma Live.joins (hsome : s.responses ≠ [])
    (hjoin : step session s (.join 0) = s.join 0) : Advances session s := by
  cases hs : s.responses with
  | nil => exact absurd hs hsome
  | cons response responses =>
    have hrest : some false ∉ responses := fun hmem =>
      h.unfailed (by rw [hs]; exact mem_cons_of_mem _ hmem)
    match response with
    | some false => exact absurd (by rw [hs]; exact mem_cons_self) h.unfailed
    | some true =>
      have hstep : step session s (.join 0) = some { s with responses } := by
        rw [hjoin, join, hs]
        rfl
      refine ⟨_, _, hstep, rfl, ⟨h.good.step hstep, h.closed, hrest, h.alive⟩, .inr ⟨rfl, ?_⟩⟩
      simp [rank, hs, joinSteps]
    | none =>
      have hstep : step session s (.settle 0 true) =
          some { s with responses := some true :: responses } := by
        show s.settle 0 true = _
        rw [settle, hs]
        rfl
      refine ⟨_, _, hstep, rfl, ⟨h.good.step hstep, h.closed, ?_, h.alive⟩, .inr ⟨rfl, ?_⟩⟩
      · simpa [Unfailed] using hrest
      · simp [rank, hs, joinSteps]

lemma Live.reads (hphase : s.phase = .reading buffer) (input : Input)
    (payload pipe : Bytes) (hbytes : payload ++ pipe = buffer ++ s.pipe)
    (hle : pipe.length ≤ s.pipe.length)
    (hs : step session s input = some ({ s with pipe }.afterRead session payload)) :
    Advances session s := by
  have hafter : ∃ phase, ({ s with pipe } : State).afterRead session payload =
      { s with pipe, phase } ∧ phase ≠ .failed ∧ phase.held = payload ∧ phaseRank phase < 4 := by
    rw [afterRead]
    split
    · next hnil =>
      cases session.version <;> exact ⟨_, rfl, by simp, hnil.symm, by simp [phaseRank]⟩
    · exact ⟨_, rfl, by simp, rfl, by simp [phaseRank]⟩
  obtain ⟨phase, heq, halive, hheld, hrank⟩ := hafter
  rw [heq] at hs
  refine h.turns input _ hs ⟨rfl, rfl, rfl⟩ halive ?_ ?_
  · show phase.held ++ pipe = _
    rw [hheld, hphase]
    exact hbytes
  · show phaseRank phase + pipe.length < _
    rw [hphase, phaseRank]
    omega

lemma Live.reading (hphase : s.phase = .reading buffer) : Advances session s := by
  have hready := h.good.ready
  rw [hphase] at hready
  by_cases hversion : session.version = .http1
  · cases hpipe : s.pipe with
    | nil =>
      refine h.reads hphase .eof buffer s.pipe rfl (Nat.le_refl _) ?_
      have hwork : step session s .eof = s.readH1 session buffer .eof := by
        simp [step, work, hphase, hversion]
      exact hwork.trans (if_pos ⟨hpipe, h.closed⟩)
    | cons b rest =>
      have hread : step session s (.read 1) =
          if (buffer ++ [b]).length = session.maxPacket then
            some ({ s with pipe := rest }.afterRead session (buffer ++ [b]))
          else some { s with pipe := rest, phase := .reading (buffer ++ [b]) } := by
        have hroom : ¬(1 = 0 ∨ s.pipe.length < 1 ∨
            min (buffer.length + h1PacketReadChunkBytes) session.maxPacket - buffer.length < 1) := by
          have := hready.1
          rw [hpipe, length_cons, h1PacketReadChunkBytes]
          omega
        have hwork : step session s (.read 1) = s.readH1 session buffer (.read 1) := by
          simp [step, work, hphase, hversion]
        rw [hwork, readH1, if_neg hroom, hpipe]
        rfl
      split at hread
      · exact h.reads hphase _ _ _ (by rw [hpipe]; simp) (by simp [hpipe]) hread
      refine h.turns _ _ hread ⟨rfl, rfl, rfl⟩ (by simp) ?_ ?_
      · simp [hphase, Phase.held, hpipe]
      · simp [hphase, phaseRank, hpipe]
  · obtain rfl := hready.2 hversion
    have hwork : ∀ input, s.work session input = s.readMultiplexed session input := by
      intro input
      rw [work.eq_def]
      cases hsame : session.version <;> simp_all
    cases hpipe : s.pipe with
    | nil =>
      refine h.reads hphase .eof [] s.pipe rfl (Nat.le_refl _) ?_
      exact (hwork .eof).trans (if_pos ⟨hpipe, h.closed⟩)
    | cons b rest =>
      refine h.reads hphase (.read 1) [b] rest (by rw [hpipe]; rfl) (by simp [hpipe])
        ((hwork (.read 1)).trans ?_)
      have := session.positive
      rw [readMultiplexed, if_neg (by rw [hpipe, length_cons]; omega), hpipe]
      rfl

lemma Live.sendsH1 (hversion : session.version = .http1)
    (hsend : s.phase.isSending) : Advances session s := by
  have hready := h.good.ready
  cases hphase : s.phase with
  | take request retry =>
    refine h.turns_update hphase (.connect false true)
      (fun upload => { upload with attempts := upload.attempts ++ [.sent] })
      (.writing request retry false 0) ?_ (by simp) rfl (by simp [phaseRank])
    simp [step, work, hphase, hversion, sendH1Packet, attempt]
  | writing request retry pooled bytesWritten =>
    rw [hphase] at hready
    by_cases hall : bytesWritten = request.length
    · refine h.turns_phase hphase .flushed .opening ?_ (by simp) rfl (by simp only [phaseRank]; omega)
      simp [step, work, hphase, hversion, sendH1Packet, hall]
    have hless : bytesWritten < request.length := Nat.lt_of_le_of_ne hready.2 hall
    refine h.turns_update hphase (.wrote 1) (fun upload => { upload with
      given := upload.given ++ (request.drop bytesWritten).take 1 })
      (.writing request retry pooled (bytesWritten + 1)) ?_ (by simp) rfl ?_
    · simp [step, work, hphase, hversion, sendH1Packet, give]
      omega
    · simp only [phaseRank]
      omega
  | opening =>
    refine h.turns_phase hphase (.opened true) .draining ?_ (by simp) rfl (by simp [phaseRank])
    simp [step, work, hphase, hversion, sendH1Packet]
  | draining =>
    refine h.turns_update hphase (.drained true) (fun upload => { upload with consumed := true })
      (.reading []) ?_ (by simp) rfl (by simp [phaseRank])
    simp [step, work, hphase, hversion, sendH1Packet, next]
  | checkout body fresh | starting body fresh pooled =>
    rw [hphase] at hready
    exact absurd hversion hready.1
  | uploading body response =>
    rw [hphase] at hready
    exact absurd hversion hready
  | _ =>
    rw [hphase] at hsend
    cases hsend

lemma Live.sendsMultiplexed (hversion : session.version ≠ .http1)
    (hsend : s.phase.isSending) : Advances session s := by
  have hready := h.good.ready
  have hmux : session.version = .http2 ∨ session.version = .http3 := by
    cases hsame : session.version <;> simp_all
  cases hphase : s.phase with
  | checkout body fresh =>
    refine h.turns_phase hphase (.checkout (some false)) (.starting body fresh false) ?_ (by simp)
      rfl (by simp [phaseRank])
    rcases hmux with hmux | hmux <;> simp [step, work, hphase, hmux, sendMultiplexedPacket]
  | starting body fresh pooled =>
    refine h.turns_update hphase (.started .ok)
      (fun upload => { upload with attempts := upload.attempts ++ [.sent] })
      (.uploading body false) ?_ (by simp) rfl (by simp [phaseRank])
    rcases hmux with hmux | hmux <;>
      simp [step, work, hphase, hmux, sendMultiplexedPacket, attempt]
  | uploading body response =>
    cases body with
    | nil =>
      -- The request is through, and its response is to be joined.
      have hs : step session s (.uploaded true) =
          some { s with responses := s.responses ++ [none], phase := .room } := by
        rcases hmux with hmux | hmux <;>
          simp [step, work, hphase, hmux, sendMultiplexedPacket, next]
      refine ⟨_, _, hs, rfl, ⟨h.good.step hs, h.closed, ?_, by simp⟩, .inr ⟨?_, ?_⟩⟩
      · simpa [Unfailed] using h.unfailed
      · simp [left, hphase, Phase.held]
      have hjoin : joinSteps (s.responses ++ [none]) = joinSteps s.responses + 2 := by
        simp [joinSteps]
      show phaseRank .room + joinSteps (s.responses ++ [none]) + s.pipe.length < _
      rw [rank, hphase]
      simp only [phaseRank]
      omega
    | cons b body =>
      refine h.turns_update hphase (.upload 1)
        (fun upload => { upload with given := upload.given ++ [b] }) (.uploading body response) ?_
        (by simp) rfl (by simp [phaseRank])
      rcases hmux with hmux | hmux <;>
        simp [step, work, hphase, hmux, sendMultiplexedPacket, maxUploadDataBytes, give]
  | writing request retry pooled bytesWritten =>
    rw [hphase] at hready
    exact absurd hready.1 hversion
  | take | opening | draining =>
    rw [hphase] at hready
    exact absurd hready hversion
  | _ =>
    rw [hphase] at hsend
    cases hsend

lemma Live.advances (hdone : s.phase ≠ .done) : Advances session s := by
  have hready := h.good.ready
  cases hphase : s.phase with
  | gate =>
    cases hfirst : s.firstUplink with
    | none => exact absurd hfirst (h.good.told h.closed)
    | some first =>
      cases first with
      | data =>
        refine h.turns_phase hphase .proceed (.reading []) ?_ (by simp) rfl (by simp [phaseRank])
        simp [step, work, hphase, hfirst]
      | closed =>
        refine h.turns_phase hphase .proceed .done ?_ (by simp) rfl (by simp [phaseRank])
        simp [step, work, hphase, hfirst]
  | room =>
    by_cases hroom : session.responseCap ≤ s.responses.length
    · refine h.joins (fun hnil => ?_) (by simp [step, work, hphase, hroom])
      have := session.capPositive
      rw [hnil, length_nil] at hroom
      omega
    · refine h.turns_phase hphase .proceed .reap ?_ (by simp) rfl (by simp [phaseRank])
      simp [step, work, hphase, hroom]
  | reap =>
    by_cases hnone : s.responses = []
    · refine h.turns_phase hphase .proceed (.reading []) ?_ (by simp) rfl (by simp [phaseRank])
      simp [step, work, hphase, hnone]
    · exact h.joins hnone (by simp [step, work, hphase])
  | reading buffer => exact h.reading hphase
  | pacing payload =>
    let now := s.lastRequest.getD 0 + session.minPostsIntervalMs.from
    refine h.turns (.interval (some session.minPostsIntervalMs.from) now)
      { s with phase := .rotating payload, lastRequest := some now } ?_ ⟨rfl, rfl, rfl⟩ (by simp)
      (by rw [hphase]; rfl) (by simp [hphase, phaseRank])
    have hlate : ¬(s.lastRequest.any fun last =>
        decide (now < last + session.minPostsIntervalMs.from)) = true := by
      cases hlast : s.lastRequest <;> simp [now, hlast]
    simp [step, work, hphase, waitPacketInterval, hlate]
  | rotating payload =>
    refine h.turns_phase hphase (.rotate 1 false none) (.composing payload) ?_ (by simp) rfl
      (by simp [phaseRank])
    simp [step, work, hphase, rotatePacketClientIfNeeded]
  | composing payload =>
    have hs : step session s (.compose (some [])) = some (s.composePacket session payload []) := by
      simp [step, work, hphase]
    have hheld : (s.composePacket session payload []).phase.held = [] ∧
        (s.composePacket session payload []).phase ≠ .failed := by
      rw [composePacket]
      cases session.version <;> exact ⟨rfl, by simp⟩
    rw [hphase] at hready
    have hpayload := length_pos_iff.mpr hready.1
    refine ⟨_, _, hs, rfl, ⟨h.good.step hs, h.closed, h.unfailed, hheld.2⟩, .inl ?_⟩
    rw [left, left, hheld.1, hphase, length_append, length_append]
    show 0 + s.pipe.length < payload.length + s.pipe.length
    omega
  | finishing =>
    by_cases hnone : s.responses = []
    · refine h.turns_phase hphase .proceed .done ?_ (by simp) rfl (by simp [phaseRank])
      simp [step, work, hphase, hnone]
    · exact h.joins hnone (by simp [step, work, hphase])
  | done => exact absurd hphase hdone
  | failed => exact absurd hphase h.alive
  | _ =>
    have hsend : s.phase.isSending = true := by rw [hphase]; rfl
    by_cases hversion : session.version = .http1
    · exact h.sendsH1 hversion hsend
    · exact h.sendsMultiplexed hversion hsend

end

/-- The worker can end without a failure, and nothing is written meanwhile. -/
def Ends (session : Session) (s : State) : Prop :=
  ∃ inputs t, Machine.run (step session) s inputs = some t ∧ t.phase = .done ∧
    t.written = s.written

/-- A worker that has not failed can always end once the stream is shut down. -/
lemma Live.ends (h : Live session s) : Ends session s := by
  induction hleft : s.left using Nat.strong_induction_on generalizing s with
  | _ left outer =>
    induction hrank : s.rank using Nat.strong_induction_on generalizing s with
    | _ rank inner =>
      by_cases hdone : s.phase = .done
      · exact ⟨[], s, rfl, hdone, rfl⟩
      obtain ⟨input, t, hs, hwritten, hlive, hless⟩ := h.advances hdone
      have hends : Ends session t := by
        rcases hless with hless | ⟨hsame, hless⟩
        · exact outer t.left (hleft ▸ hless) hlive rfl
        · exact inner t.rank (hrank ▸ hless) hlive (hsame.trans hleft) rfl
      obtain ⟨inputs, u, hrun, hphase, hsame⟩ := hends
      exact ⟨input :: inputs, u, Machine.run_cons hs hrun, hphase, hsame.trans hwritten⟩

/-- What holds of the newest request, and follows for those that are through, holds of all. -/
lemma Good.each {P : Upload → Prop} (h : Good session s) (hnewest : ∀ upload ∈ s.uploads.head?, P upload)
    (hthrough : ∀ upload, Complete session upload ∧ Retried session upload → P upload) :
    ∀ upload ∈ s.uploads, P upload := by
  have hrest := h.through
  cases huploads : s.uploads with
  | nil => exact fun _ hupload => absurd hupload not_mem_nil
  | cons newest uploads =>
    rw [huploads] at hnewest hrest
    intro upload hupload
    rcases mem_cons.mp hupload with rfl | hupload
    · exact hnewest _ rfl
    · exact hthrough upload (hrest upload hupload)

lemma Good.sent_of_done (h : Good session s) (hphase : s.phase = .done) : s.sent = s.written := by
  have hbytes := h.bytes.alive (by simp [hphase])
  have hready := h.ready
  rw [hphase] at hready
  rw [hphase, hready.1] at hbytes
  rw [hbytes]
  exact (append_nil _).symm

/-- In every run the requests are numbered from zero; of all but the newest the HTTP engine was given
the whole, each byte once, and on HTTP/1.1 their response was consumed; their payloads are not empty, fit,
and make up a beginning of what was written, which is all of it when the worker ends without
failing, as it can once the stream is shut down; and a request is sent again only if nothing of
it was written, or if it was refused. -/
theorem packet_uploads_in_order {inputs : List Input} (h : run session inputs = some s) :
    (∀ (i : Nat) upload, s.uploads.reverse[i]? = some upload → i < 2 ^ 63 →
      upload.sequence = (i : Int)) ∧
    (∀ upload ∈ s.uploads.tail, Complete session upload) ∧
    (∀ upload ∈ s.uploads, upload.payload ≠ [] ∧ upload.payload.length ≤ session.maxPacket) ∧
    s.sent <+: s.written ∧
    (s.phase = .done → s.sent = s.written ∧ ∀ upload ∈ s.uploads, Complete session upload) ∧
    (s.closed = true → s.phase ≠ .failed → some false ∉ s.responses →
      ∃ more t, Machine.run (step session) s more = some t ∧ t.phase = .done ∧
        t.written = s.written ∧ t.sent = t.written) ∧
    ∀ upload ∈ s.uploads, ∀ attempt ∈ upload.attempts.dropLast,
      MayRetry session.version attempt := by
  have hgood := good_of_run h
  refine ⟨fun i upload hi hless => ?_, fun upload hupload => (hgood.through upload hupload).1,
    hgood.payloads, hgood.bytes.got_initial, fun hdone => ⟨hgood.sent_of_done hdone, ?_⟩, ?_,
    fun upload hupload => ?_⟩
  · rw [hgood.numbered.sequence hi, counter_of_lt hless]
  · intro upload hupload
    have hsending := hgood.sending
    rw [hdone] at hsending
    exact (hgood.each hsending (fun _ h => h) upload hupload).1
  · intro hclosed halive hunfailed
    obtain ⟨more, t, hrun, hdone, hwritten⟩ := Live.ends ⟨hgood, hclosed, hunfailed, halive⟩
    have ht : Good session t := Machine.run_keeps (fun hkept hs => hkept.step hs) hgood hrun
    exact ⟨more, t, hrun, hdone, hwritten, ht.sent_of_done hdone⟩
  exact hgood.each hgood.retried (fun _ h => h.2) upload hupload

def sampleConfig (version : HttpVersion) : Config :=
  ⟨version, ⟨2, 2⟩, by decide, ⟨0, 0⟩, 1, true⟩

def twoByteSession (version : HttpVersion) : Session :=
  ⟨version, 2, by decide, 1, by decide, ⟨0, 0⟩, true⟩

/-- Three bytes in two requests. The first goes to a stale connection of the pool, and again to
a new one. -/
def staleInputs : List Input :=
  [.write [1, 2], .proceed, .read 2, .interval none 0, .rotate 5 false none, .compose (some [9]),
    .connect true false, .writeError, .connect false true, .wrote 3, .flushed, .opened true,
    .drained true, .write [3], .shutdown, .read 1, .eof, .interval none 3, .rotate 4 false none,
    .compose (some [9])]

/-- The same on HTTP/2, where the pool has a connection that is going away. -/
def refusedInputs : List Input :=
  [.write [1, 2], .proceed, .proceed, .read 2, .interval none 0, .rotate 5 false none,
    .compose (some [9]), .checkout (some true), .started .goAway, .checkout (some false),
    .started .ok, .upload 2, .uploaded true, .write [3], .shutdown, .settle 0 true, .join 0,
    .proceed, .proceed, .read 1, .interval none 3, .rotate 4 false none, .compose (some [9])]

lemma run_samples :
    ((run (twoByteSession .http1) staleInputs).map fun s => (s.sent, s.written)) =
      some ([1, 2, 3], [1, 2, 3]) ∧
    ((run (twoByteSession .http2) refusedInputs).map fun s => (s.sent, s.written)) =
      some ([1, 2, 3], [1, 2, 3]) := by
  decide +kernel

theorem packet_uploads_in_order_retried :
    (openPacketUp (sampleConfig .http1) 0 = some (twoByteSession .http1) ∧
      ∃ s, run (twoByteSession .http1) staleInputs = some s ∧
        ∀ upload ∈ s.uploads.tail, upload.given = upload.wire (twoByteSession .http1) ∧
          (HttpVersion.http1 = .http1 → upload.consumed = true)) ∧
    openPacketUp (sampleConfig .http2) 0 = some (twoByteSession .http2) ∧
      ∃ s, run (twoByteSession .http2) refusedInputs = some s ∧
        ∀ upload ∈ s.uploads.tail, upload.given = upload.wire (twoByteSession .http2) ∧
          (HttpVersion.http2 = .http1 → upload.consumed = true) := by
  obtain ⟨s, hs, -⟩ := Option.map_eq_some_iff.mp run_samples.1
  obtain ⟨t, ht, -⟩ := Option.map_eq_some_iff.mp run_samples.2
  exact ⟨⟨rfl, s, hs, (packet_uploads_in_order hs).2.1⟩, rfl, t, ht,
    (packet_uploads_in_order ht).2.1⟩

end State

end Xray.Xhttp
