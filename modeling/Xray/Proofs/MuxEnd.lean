import Xray.Proofs.MuxSessions

/-!
# A clean End and the data before it

The peer ends a session with an End frame, and its child may still have payloads to read.
`deliver` fails the child if its upload is not through at that moment, and a failed child
reads nothing. So the payloads are kept exactly when everything the child has written is
out when the End arrives.
-/

namespace Xray.Mux

open Bytes Routing Entry History World

/-! ## After the End -/

/-- The child has ended, if it is still there. -/
def View.Ended (v : View) : Prop := ∀ e, v.entry = some e → e.ended = true

/-- Nothing is wrong with the child, if it is still there. -/
def View.Whole (v : View) : Prop :=
  ∀ e, v.entry = some e → e.failed = false ∧ e.sent = e.accepted

section Moves

variable {id : Nat} {v v' : View} {past : History} {event : Option Event} {e e' : Entry}

lemma Entry.settled_eq_some (h : e.settled = some e') : e' = e := by
  rw [settled] at h
  split at h
  · simp at h
  · exact (Option.some.inj h).symm

/-- What becomes of a child that has ended: it stays ended, and it fails only when the
parent is closed, when the peer says so, or when its upload was not through. -/
lemma Moves.ended (h : Moves id v event v') (hknown : id ≤ v.next) (hended : v.Ended)
    (he' : v'.entry = some e') :
    ∃ e, v.entry = some e ∧ e'.ended ∧ e'.accepted = e.accepted ∧
      (e'.sent = e.sent ∨ ∃ flight, v.flight = some flight ∧ e'.sent = flight.seq.getD e.sent) ∧
      (v'.closed = false → event ≠ some (.ended true) → e.sent = e.accepted →
        e'.failed = e.failed) := by
  cases h with
  | opened target globalId hnext hroom => omega
  | @received e e₁ frame hentry hreceive =>
    have he := hended e hentry
    refine ⟨e, hentry, ?_⟩
    rw [settled_eq_some he']
    rcases receive_cases hreceive with ⟨hstatus, rfl⟩ | ⟨payload, -, -, -, -, rfl⟩ | ⟨rfl, -⟩
    · refine ⟨rfl, rfl, .inl rfl, fun _ hevent hsent => ?_⟩
      simp only [Frame.event, hstatus, ne_eq, Option.some.injEq, Event.ended.injEq] at hevent
      simp [hevent, hsent]
    all_goals exact ⟨he, rfl, .inl rfl, fun _ _ _ => rfl⟩
  | @landed flight e hflight hentry =>
    refine ⟨e, hentry, ?_⟩
    rw [Entry.settled_eq_some he', Entry.landed]
    split
    · exact ⟨rfl, rfl, .inr ⟨flight, hflight, rfl⟩, fun _ _ _ => rfl⟩
    · exact ⟨hended e hentry, rfl, .inr ⟨flight, hflight, rfl⟩, fun _ _ _ => rfl⟩
  | failed | stopped =>
    obtain ⟨e, he, rfl⟩ := Option.map_eq_some_iff.mp he'
    exact ⟨e, he, hended e he, rfl, .inl rfl, by simp⟩
  | @refused e hentry =>
    cases he'
    exact ⟨e, hentry, hended e hentry, rfl, .inl rfl, by simp⟩
  | @wrote e hentry _ hopen _ | @sending e _ _ hentry hopen =>
    exact absurd (hended e hentry) (by simp [hopen])
  | @read e _ _ _ hentry _ _ _ _ | @closing e hentry _ | @abandoned e hentry _ =>
    cases he'
    exact ⟨e, hentry, hended e hentry, rfl, .inl rfl, fun _ _ _ => rfl⟩
  | gone => simp at he'
  | _ => exact ⟨e', he', hended e' he', rfl, .inl rfl, fun _ _ _ => rfl⟩

lemma Moves.not_kept (h : Moves id v event v') (hended : v.Ended) (payload : Bytes) :
    event ≠ some (.kept payload) := by
  intro heq
  cases h with
  | @received e e₁ frame hentry hreceive =>
    have hdead : v.live e = false := by simp [View.live, hended e hentry]
    rw [hdead, Frame.event] at heq
    cases hstatus : frame.status <;> simp [hstatus] at heq
  | _ => simp at heq

/-- With its upload through, nothing of the child is still being written. -/
lemma Good.seq_getD (h : Good id v past) (hentry : v.entry = some e) (hsent : e.sent = e.accepted)
    {flight : Flight} (hflight : v.flight = some flight) : flight.seq.getD e.sent = e.sent := by
  obtain ⟨-, hsendings, hseq⟩ := h.flight flight hflight
  have hbooks := h.books e hentry
  have hle := h.upload.length_le
  rw [hbooks.accepted] at hsent
  rw [hseq]
  cases hp : flight.frame.payload with
  | none => rfl
  | some payload =>
    have hmore : (payloads past.sendings).length = (payloads past.sents).length + 1 := by
      rw [hsendings, payloads_snoc, hp, List.length_append]
      rfl
    have := hbooks.sent
    omega

lemma Good.whole (h : Good id v past) (hmove : Moves id v event v') (hknown : id ≤ v.next)
    (hended : v.Ended) (hwhole : v.Whole) (hclosed : v'.closed = false)
    (hevent : event ≠ some (.ended true)) : v'.Whole := by
  intro e' he'
  obtain ⟨e, he, -, haccepted, hsent, hfailed⟩ := hmove.ended hknown hended he'
  obtain ⟨hf, hs⟩ := hwhole e he
  refine ⟨(hfailed hclosed hevent hs).trans hf, ?_⟩
  rcases hsent with hsent | ⟨flight, hflight, hsent⟩
  · rw [hsent, haccepted, hs]
  · rw [hsent, h.seq_getD he hs hflight, haccepted, hs]

lemma Moves.closed_mono (h : Moves id v event v') (hclosed : v'.closed = false) :
    v.closed = false := by
  cases h with
  | failed | stopped | refused => simp at hclosed
  | _ => exact hclosed

end Moves

/-! ## Reads after the End -/

def Drained (id : Nat) (received : List Bytes) (prior before : List (Act × Answer))
    (entry : Act × Answer) : Prop :=
  ∀ remaining answer, entry = (.read id remaining, .read answer) → remaining ≠ 0 →
    (∃ bytes source, answer = .ready (.ok (bytes, source)) ∧ bytes ≠ []) ∨
    (answer = .ready (.error .receiveBuffer) ∧
      ∃ target ∈ (history id (prior ++ before)).targets, target.network = .udp) ∨
    (answer = .ready (.ok ([], none)) ∧
      (history id (prior ++ before)).reads.flatten = received.flatten)

variable {log prior later : List (Act × Answer)} {event : Option Event} {received : List Bytes}
  {e : Entry} {w : World} {id : Nat}

lemma Kept.read_answer (h : Kept w log) (hheld : id ∈ w.held) (hended : (w.view id).Ended)
    (hwhole : (w.view id).Whole) {remaining : Nat} (hremaining : remaining ≠ 0) :
    (∃ bytes source, (w.state.pollRead id remaining).2 = .ready (.ok (bytes, source)) ∧
      bytes ≠ []) ∨
    ((w.state.pollRead id remaining).2 = .ready (.error .receiveBuffer) ∧
      ∃ target ∈ (history id log).targets, target.network = .udp) ∨
    ((w.state.pollRead id remaining).2 = .ready (.ok ([], none)) ∧
      (history id log).reads.flatten = (history id log).keeps.flatten) := by
  have hview := view_held hheld
  simp only [State.pollRead, if_neg hremaining]
  cases hchild : w.state.child id with
  | none => exact absurd ((h.good id).absent hchild) (by simp [hview])
  | some e =>
    have hbooks := (h.good id).books e hchild
    have hfailed := (hwhole e hchild).1
    have heof : e.readEof = true := hbooks.eof.trans (hended e hchild)
    simp only [hfailed, Bool.false_eq_true, if_false]
    cases hrx : e.rx with
    | nil =>
      have hdropped : e.dropped = false := by simpa [hview] using hbooks.held
      have hall := hbooks.stream.alive (by simp [Entry.Dead, hfailed, hdropped])
      refine .inr (.inr ⟨by simp only [heof, if_true], ?_⟩)
      rw [hall, hrx, List.map_nil, List.flatten_nil, List.append_nil]
    | cons packet rest =>
      have hne := hbooks.filled packet (by rw [hrx]; exact List.mem_cons_self)
      by_cases hsmall : e.target.network = .udp ∧ remaining < packet.bytes.length
      · simp only [if_pos hsmall]
        refine .inr (.inl ⟨trivial, e.target, ?_, hsmall.1⟩)
        rw [hbooks.target]
        exact List.mem_singleton_self _
      · simp only [if_neg hsmall]
        refine .inl ⟨_, _, rfl, fun hnil => ?_⟩
        rcases List.take_eq_nil_iff.mp hnil with hzero | hzero
        · have := List.length_pos_iff.mpr hne
          omega
        · exact hne hzero

/-- What holds after the End of a session whose upload is through. -/
structure AfterEnd (id : Nat) (received : List Bytes) (prior : List (Act × Answer)) (w : World)
    (later : List (Act × Answer)) : Prop where
  kept : Kept w (prior ++ later)
  known : id ≤ w.state.next
  ended : (w.view id).Ended
  keeps : (history id (prior ++ later)).keeps = received
  drained : w.state.closed = false → true ∉ (history id (prior ++ later)).ends →
    (w.view id).Whole ∧ Log.Justified (Drained id received prior) later

lemma History.after_keeps {past : History} (h : ∀ payload, event ≠ some (.kept payload)) :
    (past.after event).keeps = past.keeps := by
  cases event with
  | none => rfl
  | some event =>
    cases event with
    | kept payload => exact absurd rfl (h payload)
    | _ => rfl

lemma History.after_ends {past : History} (h : true ∉ (past.after event).ends) :
    true ∉ past.ends ∧ event ≠ some (.ended true) := by
  cases event with
  | none => exact ⟨h, by simp⟩
  | some event =>
    cases event with
    | ended error =>
      simp only [after, Option.elim, add, List.mem_append, not_or, List.mem_singleton] at h
      exact ⟨h.1, by simpa using Ne.symm h.2⟩
    | _ => exact ⟨h, by simp⟩

lemma AfterEnd.step (h : AfterEnd id received prior w later) (act : Act) :
    AfterEnd id received prior (w.step act).1 (later ++ [(act, (w.step act).2)]) := by
  have hmove := step_moves h.kept.sane act id
  have hsnoc := history_snoc id (prior ++ later) (act, (w.step act).2)
  rw [List.append_assoc] at hsnoc
  refine ⟨?_, Nat.le_trans h.known hmove.next_le, fun e' he' => ?_, ?_, fun hclosed hends => ?_⟩
  · rw [← List.append_assoc]
    exact h.kept.step act
  · exact (hmove.ended h.known h.ended he').choose_spec.2.1
  · rw [hsnoc, after_keeps (hmove.not_kept h.ended), h.keeps]
  rw [hsnoc] at hends
  obtain ⟨hends, hevent⟩ := after_ends hends
  obtain ⟨hwhole, hdrained⟩ := h.drained (hmove.closed_mono hclosed) hends
  refine ⟨(h.kept.good id).whole hmove h.known h.ended hwhole hclosed hevent, hdrained.snoc ?_⟩
  intro remaining answer heq hremaining
  obtain ⟨rfl, hanswer⟩ := Prod.mk.inj heq
  simp only [World.step] at hanswer
  split at hanswer
  · next hheld =>
    have hread := h.kept.read_answer hheld h.ended hwhole hremaining
    rw [h.keeps, Answer.read.inj hanswer] at hread
    exact hread
  · simp at hanswer

lemma AfterEnd.run {w' : World} (h : AfterEnd id received prior w later) {acts : List Act}
    (hrun : w.run acts = some (w', log)) : AfterEnd id received prior w' (later ++ log) := by
  have hR : (later.map Prod.fst ++ acts).Pairwise fun _ _ => True :=
    List.pairwise_of_forall fun _ _ => trivial
  obtain ⟨w₁, log₁, hrun₁, h₁⟩ := Log.run_inv (fun w log act _ h _ => ⟨_, _, rfl, h.step act⟩) h hR
  cases hrun.symm.trans hrun₁
  exact h₁

/-- The next frame of the connection is an End without the error option for a live child. -/
structure CleanEnd (w : World) (id : Nat) (e : Entry) : Prop where
  running : w.running
  opened : w.state.closed = false
  child : w.state.child id = some e
  live : w.live id
  frame : ∃ frame n, decode w.bytes = .ok (some (frame, n)) ∧ frame.sessionId.toNat = id ∧
    frame.status = .end ∧ frame.error = false

def Entry.endClean (e : Entry) : Entry :=
  { e with readEof := true, ended := true, tx := [], failed := e.sent != e.accepted }

lemma Entry.receive_end (e : Entry) {frame : Frame} (hstatus : frame.status = .end)
    (herror : frame.error = false) (hfailed : e.failed = false) :
    e.receive frame = some e.endClean := by
  simp [receive, hstatus, herror, hfailed, endClean]

lemma CleanEnd.deliver (h : CleanEnd w id e) (hkept : Kept w log) :
    (w.step .deliver).1.view id = { w.view id with entry := some e.endClean } ∧
      eventOf id (.deliver, (w.step .deliver).2) = some (.ended false) := by
  obtain ⟨frame, n, hdecode, rfl, hstatus, herror⟩ := h.frame
  have hlive := h.live
  simp only [World.live, h.child, Option.any_some, Bool.and_eq_true, Bool.not_eq_true',
    decide_eq_true_eq] at hlive
  obtain ⟨hheld, -, hfailed⟩ := hlive
  have hgood := hkept.good frame.sessionId.toNat
  have hdropped : e.dropped = false := by
    have hbooks := (hgood.books e h.child).held
    rw [view_held hheld] at hbooks
    simpa using hbooks
  have hknown := hgood.known h.child
  have hunknown : ¬(frame.sessionId.toNat > w.state.next ∧ frame.status ≠ .keepAlive) :=
    fun hlt => absurd hknown (Nat.not_le.mpr hlt.1)
  have hsettled : e.endClean.settled = some e.endClean := by
    simp [settled, endClean, hdropped]
  have hview := view_settle h.child e.endClean frame.sessionId.toNat
  rw [if_pos rfl, hsettled] at hview
  simp only [World.step, if_pos h.running, World.deliver, hdecode, State.deliver,
    if_neg hunknown, h.child, e.receive_end hstatus herror hfailed]
  refine ⟨hview, ?_⟩
  simp only [eventOf, if_true, Frame.event, hstatus, herror]

lemma CleanEnd.afterEnd (h : CleanEnd w id e) (hkept : Kept w log) (hsent : e.sent = e.accepted) :
    AfterEnd id (history id log).keeps log (w.step .deliver).1
      [(.deliver, (w.step .deliver).2)] := by
  obtain ⟨hview, hevent⟩ := h.deliver hkept
  refine ⟨hkept.step .deliver, ?_, ?_, ?_, fun _ _ => ⟨?_, ?_⟩⟩
  · have hnext := congrArg View.next hview
    exact Nat.le_trans ((hkept.good id).known h.child) (Nat.le_of_eq hnext.symm)
  · intro e' he'
    rw [hview] at he'
    cases he'
    rfl
  · rw [history_snoc, hevent]
    rfl
  · intro e' he'
    rw [hview] at he'
    cases he'
    exact ⟨by simp [endClean, hsent], hsent⟩
  · refine Log.Justified.nil.snoc fun remaining answer heq => ?_
    exact absurd (Prod.mk.inj heq).1 (by simp)

/-- With the upload not through, the next read fails. -/
lemma CleanEnd.read_fails (h : CleanEnd w id e) (hkept : Kept w log) (hsent : e.sent ≠ e.accepted) :
    (w.step .deliver).1.run [.read id 1] =
      some ((w.step .deliver).1, [(.read id 1, .read (.ready (.error .closed)))]) := by
  obtain ⟨hview, -⟩ := h.deliver hkept
  have hheld : id ∈ (w.step .deliver).1.held := by
    have hlive := h.live
    rw [World.live, Bool.and_eq_true] at hlive
    have hheld := congrArg View.held hview
    simp only [view, hlive.1] at hheld
    simpa using hheld
  have hchild : (w.step .deliver).1.state.child id = some e.endClean := congrArg View.entry hview
  have hfailed : e.endClean.failed = true := by simpa [endClean] using hsent
  generalize (w.step .deliver).1 = w₁ at hheld hchild
  have hread : w₁.state.pollRead id 1 = (w₁.state, .ready (.error .closed)) := by
    simp [State.pollRead, hchild, hfailed]
  simp only [run, Log.run, step, if_pos hheld, hread, Option.map_some]

/-- The payloads received before the End are read, in order, before the end of the stream. -/
def KeepsData (id : Nat) (log later : List (Act × Answer)) : Prop :=
  (history id (log ++ later)).reads.flatten <+: (history id log).keeps.flatten ∧
    Log.Justified (Drained id (history id log).keeps log) later

/-- In every run, when a clean End arrives for a live child: whatever follows, as long as
the parent stays open and the peer sends no End with the error option for the session, the
payloads received before it are kept if and only if the child's upload was through. -/
theorem mux_clean_end_keeps_data_iff {acts : List Act} {w : World} {log : List (Act × Answer)}
    (hrun : run {} acts = some (w, log)) {id : Nat} {e : Entry} (hend : CleanEnd w id e) :
    (∀ later w' log', (w.step .deliver).1.run later = some (w', log') →
      w'.state.closed = false →
      true ∉ (history id (log ++ (.deliver, (w.step .deliver).2) :: log')).ends →
      KeepsData id log ((.deliver, (w.step .deliver).2) :: log')) ↔ e.sent = e.accepted := by
  have hkept : Kept w log := by
    obtain ⟨w₁, log₁, hrun₁, hkept⟩ := Kept.start.run acts
    cases hrun.symm.trans hrun₁
    exact hkept
  obtain ⟨hview, hevent⟩ := hend.deliver hkept
  constructor
  · intro hall
    by_contra hsent
    have hclosed : (w.step .deliver).1.state.closed = false :=
      (congrArg View.closed hview).trans hend.opened
    have hends : true ∉ (history id (log ++ [(.deliver, (w.step .deliver).2),
        (.read id 1, .read (.ready (.error .closed)))])).ends := by
      have hlive := hend.live
      simp only [World.live, hend.child, Option.any_some, Bool.and_eq_true,
        Bool.not_eq_true'] at hlive
      have hnone : (history id log).ends = [] := by
        by_contra hne
        have := ((hkept.good id).books e hend.child).ends hne
        exact absurd this (by simp [hlive.2.1])
      rw [← List.singleton_append, ← List.append_assoc, history_snoc, history_snoc, hevent]
      show true ∉ (history id log).ends ++ [false]
      simp [hnone]
    have hdrained := (hall _ _ _ (hend.read_fails hkept hsent) hclosed hends).2
    have hread := hdrained [(.deliver, (w.step .deliver).2)] _ [] rfl 1 _ rfl (by simp)
    simp at hread
  · intro hsent later w' log' hlater hclosed hends
    have h := (hend.afterEnd hkept hsent).run hlater
    refine ⟨?_, (h.drained hclosed hends).2⟩
    have hstream := (h.kept.good id).stream
    rw [h.keeps] at hstream
    exact hstream

def sampleTarget : Target := ⟨.ip (.v4 0x0a000001), 80, .tcp⟩

def sampleId : Vector UInt8 8 := ⟨#[0, 0, 0, 0, 0, 0, 0, 0], rfl⟩

/-- A Keep with one byte and a clean End, both for the first session. -/
def sampleFrames : Bytes := [0, 4, 0, 1, 2, 1, 0, 1, 7] ++ [0, 4, 0, 1, 3, 0]

def sampleEnd : Frame := ⟨1, .end, false, none, none, none⟩

set_option maxRecDepth 1000 in
/-- The child has written nothing when the End arrives. -/
theorem mux_clean_end_keeps_data_idle :
    ∃ w log e, run {} [.open sampleTarget 8 sampleId, .arrive sampleFrames, .deliver] =
        some (w, log) ∧ CleanEnd w 1 e ∧
      ∀ later w' log', (w.step .deliver).1.run later = some (w', log') →
        w'.state.closed = false →
        true ∉ (history 1 (log ++ (.deliver, (w.step .deliver).2) :: log')).ends →
        KeepsData 1 log ((.deliver, (w.step .deliver).2) :: log') := by
  refine ⟨_, _, _, rfl, ⟨rfl, rfl, rfl, rfl, sampleEnd, 6, rfl, rfl, rfl, rfl⟩, ?_⟩
  exact (@mux_clean_end_keeps_data_iff
    [.open sampleTarget 8 sampleId, .arrive sampleFrames, .deliver] _ _ rfl 1 _
    ⟨rfl, rfl, rfl, rfl, sampleEnd, 6, rfl, rfl, rfl, rfl⟩).mpr rfl

set_option maxRecDepth 1000 in
/-- A chunk of the child is still being written when the End arrives: the byte that was
received before it is not read. -/
theorem mux_clean_end_loses_data :
    ∃ w log w' later, run {} [.open sampleTarget 8 sampleId, .write 1 [1, 2], .send,
        .arrive sampleFrames, .deliver] = some (w, log) ∧
      w.run [.deliver, .read 1 10] = some (w', later) ∧ w'.state.closed = false ∧
      (history 1 log).keeps = [[7]] ∧
      later.map Prod.snd = [.received sampleEnd true, .read (.ready (.error .closed))] ∧
      ¬KeepsData 1 log later := by
  refine ⟨_, _, _, _, rfl, rfl, rfl, rfl, rfl, fun h => ?_⟩
  have hread := h.2 [_] _ [] rfl 10 _ rfl (by decide)
  simp at hread

end Xray.Mux
