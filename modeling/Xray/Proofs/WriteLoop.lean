import Xray.Tun.WriteLoop

/-!
# What the TUN write loop does with packets

Packets go to the descriptor in order, each until it is written or skipped. What was written is
recorded batch by batch, but a batch that the shutdown interrupts is not.
-/

namespace Xray.TunFd

open Bytes List

/-- The packets of a batch that are left, and how many were written and dropped so far. -/
structure Lane where
  rest : List Bytes := []
  written : Nat := 0
  dropped : Nat := 0

/-- What may be done: only the first packet is handed over, until it is written; it is skipped
only if it has no encoding; all are left only for a fatal error; and a batch is taken only when
no packet is left. -/
def Lane.settle (format : PacketFormat) : Lane → Event → Option Lane
  | ⟨[], written, dropped⟩, .took batch => some ⟨batch, written, dropped⟩
  | ⟨first :: rest, written, dropped⟩, .handed packet ok =>
    if packet ≠ first then none
    else some (if ok then ⟨rest, written + 1, dropped⟩ else ⟨first :: rest, written, dropped⟩)
  | ⟨first :: rest, written, dropped⟩, .skipped =>
    match EncodedPacket.new format first with
    | .error _ => some ⟨rest, written, dropped + 1⟩
    | .ok _ => none
  | ⟨rest, written, dropped⟩, .left error =>
    if ioDisposition error = .fatal then some ⟨[], written, dropped + rest.length⟩ else none
  | _, _ => none

variable {format : PacketFormat}

/-- The log of the events is one that is allowed, and gives `lane`. -/
def Gives (format : PacketFormat) (log : List Event) (lane : Lane) : Prop :=
  log.foldlM (Lane.settle format) {} = some lane

lemma Gives.append {log log' : List Event} {lane lane' : Lane} (h : Gives format log lane)
    (h' : log'.foldlM (Lane.settle format) lane = some lane') :
    Gives format (log ++ log') lane' := by
  rw [Gives, foldlM_append, h]
  exact h'

/-- What an error makes of the packets that are left. -/
def Lane.told (error : IoError) : List Event :=
  match ioDisposition error with
  | .dropPacket => [.skipped]
  | .fatal => [.left error]
  | _ => []

/-- What an input is to make of the packets that are left: a batch of the queue is taken when there
are none, and the first packet is handed over, which is written if the descriptor took all of its
encoding. -/
def Lane.hears (format : PacketFormat) : List Bytes → WriteLoop.Input → List Event
  | [], .polled (.ok batch) => [.took batch]
  | first :: _, .answer answer =>
    match answer, EncodedPacket.new format first with
    | .unready error, _ => told error
    | .tried _, .error error => told error
    | .tried (.error error), .ok _ =>
      .handed first false :: if error.1.kind = .wouldBlock then [] else told error
    | .tried (.ok written), .ok encoded => [.handed first (written = encoded.length)]
  | _, _ => []

lemma OsError.not_dropPacket (error : OsError) : ioDisposition error ≠ .dropPacket := by
  intro h
  rw [ioDisposition] at h
  split at h
  case h_2 hkind => exact error.2 hkind
  all_goals cases h

namespace WriteLoop

variable {this : WriteLoop}

structure Kept (format : PacketFormat) (this : WriteLoop) : Prop where
  log : Gives format this.log ⟨this.pending.drop this.packetIndex,
    this.writeBatches.sum + (this.writtenPacketsInBatch + this.packetIndex), this.outboundDrops⟩
  index : this.pending ≠ [] → this.packetIndex < this.pending.length
  done : this.pending = [] → this.writtenPacketsInBatch + this.packetIndex = 0
  stop : this.stopped = none ∨ this.stopped = some .shutdown ∨
    this.pending = [] ∧ (this.stopped = some .queueClosed ∨ ∃ error, .left error ∈ this.log)

lemma Kept.between (hlog : Gives format this.log
      ⟨this.pending, this.writeBatches.sum + this.writtenPacketsInBatch, this.outboundDrops⟩)
    (hindex : this.packetIndex = 0) (hdone : this.pending = [] → this.writtenPacketsInBatch = 0)
    (hstop : this.stopped = none ∨ this.pending = [] ∧ ∃ error, .left error ∈ this.log) :
    Kept format this := by
  refine ⟨?_, fun hne => ?_, fun hnil => ?_, hstop.imp_right fun h => .inr (h.imp_right .inr)⟩
  · rw [hindex]
    exact hlog
  · rw [hindex]
    exact length_pos_iff.mpr hne
  · rw [hindex, hdone hnil]

lemma Kept.finish (hlog : Gives format this.log
      ⟨[], this.writeBatches.sum + this.writtenPacketsInBatch, this.outboundDrops⟩)
    (hindex : this.packetIndex = 0) (hnil : this.pending = [])
    (hstop : this.stopped = none ∨ ∃ error, .left error ∈ this.log) :
    Kept format this.finishTunFdWriteBatch := by
  rw [finishTunFdWriteBatch]
  split
  · refine Kept.between ?_ hindex (fun _ => rfl) (hstop.imp_right fun h => ⟨hnil, h⟩)
    dsimp only
    rw [hnil, sum_append, sum_singleton]
    exact hlog
  · refine Kept.between ?_ hindex (fun _ => by omega) (hstop.imp_right fun h => ⟨hnil, h⟩)
    rw [hnil]
    exact hlog

lemma min_packetIndex {first : Bytes} {rest : List Bytes}
    (hdrop : this.pending.drop this.packetIndex = first :: rest) :
    min this.packetIndex this.pending.length = this.packetIndex := by
  have hlength := congrArg length hdrop
  rw [length_drop, length_cons] at hlength
  omega

lemma Kept.failed {error : IoError} {first : Bytes} {rest : List Bytes} (h : Kept format this)
    (hdrop : this.pending.drop this.packetIndex = first :: rest) (hstopped : this.stopped = none)
    (hskip : ioDisposition error = .dropPacket → ∃ e, EncodedPacket.new format first = .error e) :
    Kept format (this.writePendingPacketBatch (.failed this.packetIndex error)) := by
  have hlog := h.log
  rw [hdrop] at hlog
  rw [writePendingPacketBatch, min_packetIndex hdrop]
  dsimp only
  rw [hdrop, if_neg (cons_ne_nil _ _)]
  -- The log has the packets that were written, so only the kind of the error matters.
  split
  · exact Kept.between hlog rfl (fun h => by cases h) (.inl hstopped)
  · exact Kept.between hlog rfl (fun h => by cases h) (.inl hstopped)
  next hdisposition =>
    obtain ⟨e, he⟩ := hskip hdisposition
    have hskipped : Gives format (this.log ++ [.skipped]) ⟨rest, this.writeBatches.sum +
        (this.writtenPacketsInBatch + this.packetIndex), this.outboundDrops + 1⟩ :=
      hlog.append (by simp [Lane.settle, he])
    split
    next hnil => exact Kept.finish (hnil ▸ hskipped) rfl hnil (.inl hstopped)
    next hmore => exact Kept.between hskipped rfl (fun h => absurd h hmore) (.inl hstopped)
  next hfatal =>
    exact Kept.finish (hlog.append (by simp [Lane.settle, hfatal])) rfl rfl
      (.inr ⟨error, mem_append_right _ mem_cons_self⟩)

lemma Kept.answer (h : Kept format this) (hne : this.pending ≠ []) (hstopped : this.stopped = none)
    (answer : Answer) :
    let did := writePacketBatch format this.pending this.packetIndex answer
    Kept format ({ this with log := this.log ++ did.1 }.writePendingPacketBatch did.2) := by
  have hindex := h.index hne
  rcases hdrop : this.pending.drop this.packetIndex with _ | ⟨first, rest⟩
  · rw [drop_eq_nil_iff] at hdrop
    omega
  have hlog := h.log
  rw [hdrop] at hlog
  -- A packet that was handed over and not written is the first one still.
  have hretried : Kept format { this with log := this.log ++ [.handed first false] } :=
    ⟨by rw [hdrop]; exact hlog.append (by simp [Lane.settle]), h.index, h.done, .inl hstopped⟩
  cases answer with
  | unready error =>
    simp only [writePacketBatch, append_nil]
    exact h.failed hdrop hstopped fun hskip => absurd hskip (OsError.not_dropPacket _)
  | tried result =>
    rw [writePacketBatch, hdrop]
    dsimp only
    split
    next e he =>
      simp only [append_nil]
      exact h.failed hdrop hstopped fun _ => ⟨e, he⟩
    next error he =>
      dsimp only
      split
      · exact hretried
      · exact hretried.failed hdrop hstopped fun hskip => absurd hskip (OsError.not_dropPacket _)
    next encoded written he =>
      split
      · have hlength := congrArg length hdrop
        rw [length_drop, length_cons] at hlength
        have hwrote : Gives format (this.log ++ [.handed first true]) ⟨rest, this.writeBatches.sum +
            (this.writtenPacketsInBatch + this.packetIndex) + 1, this.outboundDrops⟩ :=
          hlog.append (by simp [Lane.settle])
        dsimp only
        split
        next hrest =>
          refine Kept.finish ?_ rfl rfl (.inl hstopped)
          have hlength : this.pending.length = this.packetIndex + 1 := by
            rw [hrest, length_nil] at hlength
            omega
          rw [hrest] at hwrote
          dsimp only
          rw [hlength]
          exact hwrote
        next hrest =>
          have := length_pos_iff.mpr hrest
          refine ⟨?_, fun _ => ?_, fun h => absurd h hne, .inl hstopped⟩
          · dsimp only [writePendingPacketBatch]
            rw [← drop_drop, hdrop]
            exact hwrote
          · dsimp only [writePendingPacketBatch]
            omega
      · exact hretried.failed hdrop hstopped fun hskip => by cases hskip

lemma Kept.step (h : Kept format this) (input : Input) :
    Kept format (this.step format input) := by
  rw [WriteLoop.step.eq_def]
  split
  · exact h
  next hstopped =>
  have hstopped : this.stopped = none := Option.not_isSome_iff_eq_none.mp hstopped
  cases input with
  | shutdown => exact ⟨h.log, h.index, h.done, .inr (.inl rfl)⟩
  | answer answer =>
    dsimp only
    split
    · exact h
    next hne => exact h.answer hne hstopped answer
  | polled result =>
    dsimp only
    split
    · exact h
    next hnil =>
    have hnil := not_not.mp hnil
    have hdone := h.done hnil
    have hindex : this.packetIndex = 0 := by omega
    have hlog := h.log
    rw [hnil, drop_nil, hdone] at hlog
    rcases result with (_ | _ | _) | pending
    · exact ⟨h.log, h.index, h.done, .inr (.inr ⟨hnil, .inl rfl⟩)⟩
    · exact h
    · exact h
    · exact Kept.between (hlog.append rfl) hindex (fun _ => rfl) (.inl hstopped)

lemma Kept.run (h : Kept format this) (inputs : List Input) :
    Kept format (inputs.foldl (WriteLoop.step format) this) := by
  induction inputs generalizing this with
  | nil => exact h
  | cons input inputs ih => exact ih (h.step input)

/-! ## What the log says of the inputs -/

lemma log_finish (this : WriteLoop) : this.finishTunFdWriteBatch.log = this.log := by
  rw [finishTunFdWriteBatch]
  split <;> rfl

lemma stopped_finish (this : WriteLoop) :
    this.finishTunFdWriteBatch.stopped = this.stopped := by
  rw [finishTunFdWriteBatch]
  split <;> rfl

lemma stopped_pending (this : WriteLoop) (progress : Progress) :
    (this.writePendingPacketBatch progress).stopped = this.stopped ∨
      ∃ error, (this.writePendingPacketBatch progress).log = this.log ++ [.left error] := by
  cases progress with
  | waits => exact .inl rfl
  | wrote => exact .inl (stopped_finish _)
  | failed written error =>
    unfold writePendingPacketBatch
    dsimp only
    split
    · exact .inl (stopped_finish _)
    split
    · exact .inl rfl
    · exact .inl rfl
    · split
      · exact .inl (stopped_finish _)
      · exact .inl rfl
    · exact .inr ⟨error, log_finish _⟩

lemma log_failed {first : Bytes} {rest : List Bytes} (error : IoError)
    (hdrop : this.pending.drop this.packetIndex = first :: rest) :
    (this.writePendingPacketBatch (.failed this.packetIndex error)).log =
      this.log ++ Lane.told error := by
  rw [writePendingPacketBatch, min_packetIndex hdrop, Lane.told]
  dsimp only
  rw [hdrop, if_neg (cons_ne_nil _ _)]
  cases ioDisposition error with
  | retryImmediately | retry => exact (append_nil _).symm
  | dropPacket =>
    dsimp only
    split
    · exact log_finish _
    · rfl
  | fatal => exact log_finish _

lemma log_answer {first : Bytes} {rest : List Bytes} (answer : Answer)
    (hdrop : this.pending.drop this.packetIndex = first :: rest) :
    let did := writePacketBatch format this.pending this.packetIndex answer
    ({ this with log := this.log ++ did.1 }.writePendingPacketBatch did.2).log =
      this.log ++ Lane.hears format (first :: rest) (.answer answer) := by
  have hfailed : ∀ log error,
      ({ this with log := this.log ++ log }.writePendingPacketBatch
        (.failed this.packetIndex error)).log = this.log ++ (log ++ Lane.told error) := by
    intro log error
    rw [← append_assoc]
    exact @log_failed { this with log := this.log ++ log } _ _ error hdrop
  unfold Lane.hears
  dsimp only
  cases answer with
  | unready error => exact hfailed [] error
  | tried result =>
    rw [writePacketBatch, hdrop]
    dsimp only
    cases EncodedPacket.new format first with
    | error error => exact hfailed [] error
    | ok encoded =>
      cases result with
      | error error =>
        dsimp only
        split
        · rfl
        · exact hfailed [.handed first false] error
      | ok written =>
        dsimp only
        split
        next hall =>
          rw [decide_eq_true hall]
          dsimp only
          split
          · exact log_finish _
          · rfl
        next hshort =>
          rw [decide_eq_false hshort]
          exact hfailed [.handed first false] { kind := .writeZero }

lemma Kept.log_step (h : Kept format this) (hstopped : this.stopped = none) (input : Input) :
    (this.step format input).log =
      this.log ++ Lane.hears format (this.pending.drop this.packetIndex) input := by
  rw [WriteLoop.step.eq_def, if_neg (by simp [hstopped])]
  rcases hdrop : this.pending.drop this.packetIndex with _ | ⟨first, rest⟩
  · have hnil := not_imp_comm.mp h.index (Nat.not_lt.mpr (drop_eq_nil_iff.mp hdrop))
    rcases input with _ | _ | (_ | _ | _) | _ <;> simp [hnil, Lane.hears]
  have hne : this.pending ≠ [] := fun hnil => by simp [hnil] at hdrop
  cases input with
  | shutdown => exact (append_nil _).symm
  | answer answer =>
    dsimp only
    rw [if_neg hne]
    exact log_answer answer hdrop
  | polled result =>
    dsimp only
    rw [if_pos hne]
    exact (append_nil _).symm

/-- What may stop the loop. -/
def Halts (format : PacketFormat) (rest : List Bytes) (input : Input) : Prop :=
  input = .shutdown ∨ input = .polled (.error .queueClosed) ∨
    ∃ error, .left error ∈ Lane.hears format rest input

lemma Kept.stopped_step (h : Kept format this) (input : Input) :
    (this.step format input).stopped = this.stopped ∨
      Halts format (this.pending.drop this.packetIndex) input := by
  by_cases hstopped : this.stopped = none
  · have hlog := h.log_step hstopped input
    rw [step.eq_def, if_neg (by simp [hstopped])] at hlog ⊢
    cases input with
    | shutdown => exact .inr (.inl rfl)
    | answer answer =>
      dsimp only at hlog ⊢
      by_cases hnil : this.pending = []
      · rw [if_pos hnil]
        exact .inl rfl
      · rw [if_neg hnil] at hlog ⊢
        refine (stopped_pending _ _).imp_right fun ⟨error, hleft⟩ => .inr (.inr ⟨error, ?_⟩)
        rw [hleft, append_assoc] at hlog
        rw [← append_cancel_left hlog]
        exact mem_append_right _ mem_cons_self
    | polled result =>
      dsimp only
      split
      · exact .inl rfl
      · rcases result with (_ | _ | _) | _
        · exact .inr (.inr (.inl rfl))
        all_goals exact .inl rfl
  · rw [step.eq_def, if_pos (Option.isSome_iff_ne_none.mpr hstopped)]
    exact .inl rfl

/-- For all inputs: the log is one that is allowed, the drop counter is that of the packets
skipped and left, and the recorded sizes sum to the packets written, but for those of a batch
that is not finished. Only a shutdown ends the loop within a batch. Whatever the next input is, the
log gets what it says of the packets that are left, and nothing once the loop has stopped, which
only a shutdown, a closed queue and a fatal error do. -/
theorem writeLoop_settles (format : PacketFormat) (inputs : List Input) :
    ∃ lane this, inputs.foldl (step format) {} = this ∧ Gives format this.log lane ∧
      (∀ input, (this.step format input).log = this.log ++
        if this.stopped = none then Lane.hears format lane.rest input else []) ∧
      (∀ input, (this.step format input).stopped = this.stopped ∨ Halts format lane.rest input) ∧
      lane.dropped = this.outboundDrops ∧
      (lane.rest = [] → lane.written = this.writeBatches.sum) ∧
      (this.stopped = none ∨ this.stopped = some .shutdown ∨ lane.rest = [] ∧
        (this.stopped = some .queueClosed ∨ ∃ error, .left error ∈ this.log)) := by
  have hstart : Kept format {} := Kept.between rfl rfl (fun _ => rfl) (.inl rfl)
  have hrun := hstart.run inputs
  refine ⟨_, _, rfl, hrun.log, fun input => ?_, hrun.stopped_step, rfl, fun hrest => ?_, ?_⟩
  · split
    next hstopped => exact hrun.log_step hstopped input
    next hstopped => rw [step.eq_def, if_pos (Option.isSome_iff_ne_none.mpr hstopped), append_nil]
  · have hnil := not_imp_comm.mp hrun.index (Nat.not_lt.mpr (drop_eq_nil_iff.mp hrest))
    dsimp only
    rw [hrun.done hnil]
    rfl
  · refine hrun.stop.imp_right fun h => h.imp_right fun hstop => ⟨?_, hstop.2⟩
    dsimp only
    rw [hstop.1, drop_nil]

/-- A shutdown after a packet was written and a retry: the packet is not recorded. -/
theorem shutdown_leaves_written_unrecorded :
    let this := [Input.polled (.ok [[69], [69]]), .answer (.tried (.ok 1)),
      .answer (.tried (.error ⟨{ kind := .other }, by decide⟩)), .shutdown].foldl (step .rawIp) {}
    Gives .rawIp this.log ⟨[[69]], 1, 0⟩ ∧ this.writeBatches.sum = 0 := ⟨rfl, rfl⟩

end WriteLoop

end Xray.TunFd
