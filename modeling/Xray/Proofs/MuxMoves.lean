import Xray.Mux.World

/-!
# What one session sees of a Mux.Cool parent

For one session id the world is a `View`: the child's entry, whether its token is held,
and the frame of the session that is being written. `Moves` says once what an act can do
to a view and what it adds to the session's history, and `step_moves` that every act is
one of these. An act of another session leaves the view as it is.
-/

namespace Xray.Mux

open Bytes Routing Assoc Entry State

/-! ## Entries after a change of the state -/

namespace State

lemma child_update (s : State) (j id : Nat) (f : Entry → Entry) :
    (s.update j f).child id = if id = j then (s.child id).map f else s.child id :=
  get_modify j id f s.children

lemma child_remove (s : State) (j id : Nat) :
    (s.remove j).child id = if id = j then none else s.child id :=
  get_remove j id s.children

lemma child_close (s : State) (id : Nat) : s.close.child id = (s.child id).map fail :=
  get_map id fail s.children

end State

def Entry.settled (e : Entry) : Option Entry := if e.dropped ∧ e.ended then none else some e

lemma State.child_settle {s : State} {j : Nat} {e : Entry} (h : s.child j = some e)
    (e' : Entry) (id : Nat) :
    (s.settle j e').child id = if id = j then e'.settled else s.child id := by
  rw [settle, settled]
  split
  · rw [child_remove]
  rw [child_update]
  split
  · next heq => rw [heq, h]; rfl
  · rfl

inductive Event where
  | opened (target : Target)
  | wrote (chunk : Bytes)
  | sending (frame : Frame)
  | sent (frame : Frame)
  | kept (payload : Bytes)
  | ended (error : Bool)
  | read (bytes : Bytes)

def Frame.content (frame : Frame) : Option Bytes := frame.payload.filter (· ≠ [])

/-- What a frame of the peer is to its session. -/
def Frame.event (frame : Frame) (live : Bool) : Option Event :=
  match frame.status with
  | .keep => if live then frame.content.map .kept else none
  | .end => some (.ended frame.error)
  | _ => none

def eventOf (id : Nat) : Act × Answer → Option Event
  | (.open target _ _, .opened (some j)) => if j = id then some (.opened target) else none
  | (.write j input, .wrote (.ready (.ok n))) =>
    if j = id ∧ n ≠ 0 then some (.wrote (input.take n)) else none
  | (.read j _, .read (.ready (.ok (bytes, _)))) => if j = id then some (.read bytes) else none
  | (_, .sending frame) => if frame.sessionId.toNat = id then some (.sending frame) else none
  | (_, .sent frame) => if frame.sessionId.toNat = id then some (.sent frame) else none
  | (_, .received frame live) => if frame.sessionId.toNat = id then frame.event live else none
  | _ => none

structure View where
  entry : Option Entry
  held : Bool
  flight : Option Flight
  running : Bool
  next : Nat
  closed : Bool

def World.view (w : World) (id : Nat) : View :=
  { entry := w.state.child id
    held := decide (id ∈ w.held)
    flight := w.flight.filter fun flight => flight.id = id
    running := w.running
    next := w.state.next
    closed := w.state.closed }

def View.live (v : View) (e : Entry) : Bool := v.held && (!e.ended && !e.failed)

/-- What an act can do to a session. -/
inductive Moves (id : Nat) : View → Option Event → View → Prop
  | stays (v : View) : Moves id v none v
  /-- Another child is opened. -/
  | other (v : View) {next : Nat} (hroom : next ≤ maxChildrenEver) (hnext : v.next ≤ next)
      (hid : v.next < id → next < id) : Moves id v none { v with next }
  | opened {v : View} (target : Target) (globalId : Vector UInt8 8) (hnext : v.next + 1 = id)
      (hroom : v.next < maxChildrenEver) :
      Moves id v (some (.opened target))
        { v with entry := some { target, globalId }, held := true, next := id }
  | wrote {v : View} {e : Entry} (hentry : v.entry = some e) (hheld : v.held = true)
      (hopen : e.failed = false ∧ e.closing = false ∧ e.ended = false) (chunk : Bytes) :
      Moves id v (some (.wrote chunk))
        { v with
          entry := some { e with
            accepted := e.accepted + 1
            tx := e.tx ++ [(e.accepted + 1, chunk)] } }
  | read {v : View} {e : Entry} {packet : Packet} {rest : List Packet} {n : Nat}
      (hentry : v.entry = some e) (hheld : v.held = true) (hfailed : e.failed = false)
      (hrx : e.rx = packet :: rest)
      (hudp : e.target.network = .udp → packet.bytes.length ≤ n) :
      Moves id v (some (.read (packet.bytes.take n)))
        { v with
          entry := some { e with
            rx := if packet.bytes.drop n = [] then rest
              else { packet with bytes := packet.bytes.drop n } :: rest } }
  | readNothing {v : View} (hheld : v.held = true) : Moves id v (some (.read [])) v
  | closing {v : View} {e : Entry} (hentry : v.entry = some e) (hstarted : e.started = true) :
      Moves id v none { v with entry := some { e with closing := true } }
  | gone {v : View} {e : Entry} (hentry : v.entry = some e) :
      Moves id v none { v with entry := none, held := false }
  | released {v : View} (hentry : v.entry = none) : Moves id v none { v with held := false }
  | abandoned {v : View} {e : Entry} (hentry : v.entry = some e)
      (hstarted : e.started = true ∨ e.inflight = true) :
      Moves id v none { v with entry := some e.abandon, held := false }
  | sending {v : View} {e : Entry} (hrunning : v.running = true) (hflight : v.flight = none)
      (hentry : v.entry = some e) (hopen : e.ended = false) :
      Moves id v (some (.sending (e.flight id).frame))
        { v with entry := some e.sending, flight := some (e.flight id) }
  | landed {v : View} {flight : Flight} {e : Entry} (hflight : v.flight = some flight)
      (hentry : v.entry = some e) :
      Moves id v (some (.sent flight.frame))
        { v with entry := (e.landed flight).settled, flight := none }
  | landedGone {v : View} {flight : Flight} (hflight : v.flight = some flight)
      (hentry : v.entry = none) : Moves id v (some (.sent flight.frame)) { v with flight := none }
  | received {v : View} {e e' : Entry} {frame : Frame} (hentry : v.entry = some e)
      (hreceive : e.receive frame = some e') :
      Moves id v (frame.event (v.live e)) { v with entry := e'.settled }
  | endedGone {v : View} (hentry : v.entry = none) (hknown : id ≤ v.next) (error : Bool) :
      Moves id v (some (.ended error)) v
  | failed (v : View) :
      Moves id v none { v with entry := v.entry.map fail, closed := true }
  | stopped (v : View) :
      Moves id v none
        { v with
          entry := v.entry.map fail, flight := none, running := false, closed := true }
  /-- The frame cannot be encoded. -/
  | refused {v : View} {e : Entry} (hentry : v.entry = some e) :
      Moves id v none
        { v with
          entry := some e.sending.fail, flight := none, running := false, closed := true }

/-! ## Every act is a move -/

namespace State

variable {s s' : State}

lemma first_eq_some {ids : List Nat} {p : Entry → Bool} {id : Nat} (h : s.first ids p = some id) :
    ∃ e, s.child id = some e ∧ p e := by
  have hp := List.find?_some h
  cases hc : s.child id with
  | none => simp [hc] at hp
  | some e => exact ⟨e, rfl, by simpa [hc] using hp⟩

lemma nextFlight_eq_some {flight : Flight} (h : s.nextFlight = some (s', flight)) :
    ∃ id e, s.child id = some e ∧ e.ended = false ∧ flight = e.flight id ∧
      s' = { s with cursor := id }.update id sending := by
  simp only [nextFlight, Option.bind_eq_bind, Option.bind_eq_some_iff, Option.pure_def,
    Option.some.injEq, Prod.mk.injEq] at h
  obtain ⟨id, hpick, e, hchild, hs, hf⟩ := h
  refine ⟨id, e, hchild, ?_, hf.symm, hs.symm⟩
  rw [pick, Option.or_eq_some_iff] at hpick
  rcases hpick with hpick | ⟨-, hpick⟩
  · obtain ⟨e', he', hp⟩ := first_eq_some hpick
    cases hchild.symm.trans he'
    simp only [Bool.and_eq_true, Bool.not_eq_true'] at hp
    exact hp.2
  · obtain ⟨e', he', hp⟩ := first_eq_some hpick
    cases hchild.symm.trans he'
    simp only [ready, Bool.and_eq_true, Bool.not_eq_true'] at hp
    exact hp.1

lemma pollRead_cases (s : State) (id remaining : Nat) :
    (∃ e packet rest n, s.child id = some e ∧ e.failed = false ∧ e.rx = packet :: rest ∧
      (packet.bytes ≠ [] → 0 < n) ∧ (e.target.network = .udp → packet.bytes.length ≤ n) ∧
      s.pollRead id remaining =
        (s.update id fun e => { e with
            rx := if packet.bytes.drop n = [] then rest
              else { packet with bytes := packet.bytes.drop n } :: rest },
          .ready (.ok (packet.bytes.take n, packet.source)))) ∨
    ∃ result, s.pollRead id remaining = (s, result) ∧
      ∀ bytes source, result = .ready (.ok (bytes, source)) → bytes = [] := by
  by_cases hzero : remaining = 0
  · exact .inr ⟨.ready (.ok ([], none)), by simp only [pollRead, if_pos hzero], by simp⟩
  simp only [pollRead, if_neg hzero]
  cases hchild : s.child id with
  | none => exact .inr ⟨_, rfl, by simp⟩
  | some e =>
    cases hfailed : e.failed with
    | true =>
      simp only [hfailed]
      exact .inr ⟨_, rfl, by simp⟩
    | false =>
      simp only [hfailed, Bool.false_eq_true, if_false]
      cases hrx : e.rx with
      | nil =>
        cases e.readEof with
        | true | false => exact .inr ⟨_, rfl, by simp⟩
      | cons packet rest =>
        by_cases hsmall : e.target.network = .udp ∧ remaining < packet.bytes.length
        · simp only [if_pos hsmall]
          exact .inr ⟨_, rfl, by simp⟩
        refine .inl ⟨e, packet, rest, min remaining packet.bytes.length, rfl, hfailed, hrx,
          ?_, ?_, by simp only [if_neg hsmall]⟩
        · intro hne
          have := List.length_pos_iff.mpr hne
          omega
        · intro hudp
          rw [not_and] at hsmall
          have := hsmall hudp
          omega

lemma pollWrite_cases (s : State) (id : Nat) (input : Bytes) :
    (∃ e n, s.child id = some e ∧ (e.failed = false ∧ e.closing = false ∧ e.ended = false) ∧
      n ≠ 0 ∧ s.pollWrite id input =
        (s.update id fun e => { e with
            accepted := e.accepted + 1
            tx := e.tx ++ [(e.accepted + 1, input.take n)] },
          .ready (.ok n))) ∨
    ∃ result, s.pollWrite id input = (s, result) ∧ ∀ n, result = .ready (.ok n) → n = 0 := by
  simp only [pollWrite]
  cases hchild : s.child id with
  | none => exact .inr ⟨_, rfl, by simp⟩
  | some e =>
    by_cases hopen : e.failed = true ∨ e.closing = true ∨ e.ended = true
    · simp only [if_pos hopen]
      exact .inr ⟨_, rfl, by simp⟩
    simp only [if_neg hopen]
    by_cases hbig : e.target.network = .udp ∧ input.length > maxPayload
    · simp only [if_pos hbig]
      exact .inr ⟨_, rfl, by simp⟩
    simp only [if_neg hbig]
    by_cases hempty : input = []
    · simp only [if_pos hempty]
      exact .inr ⟨_, rfl, by simp⟩
    simp only [if_neg hempty]
    by_cases hfull : e.tx.length ≥ childQueue
    · simp only [if_pos hfull]
      exact .inr ⟨_, rfl, by simp⟩
    simp only [if_neg hfull]
    by_cases hover : e.accepted + 1 ≥ 2 ^ 64
    · simp only [if_pos hover]
      exact .inr ⟨_, rfl, by simp⟩
    refine .inl ⟨e, min input.length maxPayload, rfl, ?_, ?_,
      by simp only [if_neg hover]⟩
    · simpa only [not_or, Bool.not_eq_true] using hopen
    · have := List.length_pos_iff.mpr hempty
      rw [maxPayload]
      omega

lemma pollFlush_ok {id : Nat} (h : s.pollFlush id = .ready (.ok ())) :
    ∃ e, s.child id = some e ∧ e.failed = false ∧ e.inflight = false ∧ e.sent = e.accepted ∧
      (e.started ∨ e.target.network = .udp) := by
  simp only [pollFlush] at h
  cases hchild : s.child id with
  | none => simp [hchild] at h
  | some e =>
    simp only [hchild] at h
    split at h
    · simp at h
    next hclosed =>
    split at h
    · next hdone =>
      rw [not_or] at hclosed
      exact ⟨e, rfl, by simpa using hclosed.1, by simpa using hdone.1, hdone.2.1, hdone.2.2⟩
    · simp at h

lemma deliver_consumed {frame : Frame} (h : s.deliver frame = .ok (s', true)) :
    (s.child frame.sessionId.toNat = none ∧ s' = s ∧
      (frame.status ≠ .keepAlive → frame.sessionId.toNat ≤ s.next)) ∨
      ∃ e e', s.child frame.sessionId.toNat = some e ∧ e.receive frame = some e' ∧
        s' = s.settle frame.sessionId.toNat e' := by
  simp only [deliver] at h
  split at h
  · simp at h
  next hknown =>
  cases hchild : s.child frame.sessionId.toNat with
  | none =>
    simp only [hchild, Except.ok.injEq, Prod.mk.injEq, and_true] at h
    refine .inl ⟨rfl, h.symm, fun hstatus => ?_⟩
    rw [not_and_not_right] at hknown
    exact Nat.not_lt.mp fun hlt => hstatus (hknown hlt)
  | some e =>
    simp only [hchild] at h
    cases hreceive : e.receive frame with
    | none => simp [hreceive] at h
    | some e' =>
      simp only [hreceive, Except.ok.injEq, Prod.mk.injEq, and_true] at h
      exact .inr ⟨e, e', rfl, hreceive, h.symm⟩

end State

namespace World

/-- What `step_moves` needs to know of the world. -/
structure Sane (w : World) : Prop where
  fresh : ∀ id, w.state.next < id → w.state.child id = none
  room : w.state.next ≤ maxChildrenEver
  flight : ∀ flight, w.flight = some flight → flight.frame.sessionId.toNat = flight.id

variable {id j : Nat} {w : World} {e : Entry}

lemma moves_same {w' : World} (h : w'.view id = w.view id) :
    Moves id (w.view id) none (w'.view id) := by
  rw [h]
  exact .stays (w.view id)

lemma view_update_ne (h : id ≠ j) (f : Entry → Entry) :
    { w with state := w.state.update j f }.view id = w.view id := by
  simp only [view, child_update, if_neg h]
  rfl

lemma view_update_self (h : w.state.child id = some e) (f : Entry → Entry) :
    { w with state := w.state.update id f }.view id = { w.view id with entry := some (f e) } := by
  simp only [view, child_update, h]
  rfl

lemma view_held (h : id ∈ w.held) : (w.view id).held := by
  simpa [view] using h

lemma moves_read (id j remaining : Nat) :
    Moves id (w.view id) (eventOf id (.read j remaining, (w.step (.read j remaining)).2))
      ((w.step (.read j remaining)).1.view id) := by
  by_cases hheld : j ∈ w.held
  · simp only [step, if_pos hheld]
    rcases w.state.pollRead_cases j remaining with
      ⟨e, packet, rest, n, hchild, hfailed, hrx, -, hudp, hread⟩ | ⟨result, hread, hempty⟩
    · rw [hread]
      by_cases hid : j = id
      · subst hid
        simp only [eventOf]
        rw [view_update_self hchild]
        exact .read hchild (view_held hheld) hfailed hrx hudp
      · simp only [eventOf, if_neg hid]
        exact moves_same (view_update_ne (Ne.symm hid) _)
    · rw [hread]
      cases result with
      | pending => exact moves_same rfl
      | ready result =>
        cases result with
        | error error => exact moves_same rfl
        | ok got =>
          obtain ⟨bytes, source⟩ := got
          cases hempty bytes source rfl
          by_cases hid : j = id
          · subst hid
            simp only [eventOf]
            exact .readNothing (view_held hheld)
          · simp only [eventOf, if_neg hid]
            exact moves_same rfl
  · simp only [step, if_neg hheld]
    exact moves_same rfl

lemma moves_write (id j : Nat) (input : Bytes) :
    Moves id (w.view id) (eventOf id (.write j input, (w.step (.write j input)).2))
      ((w.step (.write j input)).1.view id) := by
  by_cases hheld : j ∈ w.held
  · simp only [step, if_pos hheld]
    rcases w.state.pollWrite_cases j input with
      ⟨e, n, hchild, hopen, hn, hwrite⟩ | ⟨result, hwrite, hempty⟩
    · rw [hwrite]
      by_cases hid : j = id
      · subst hid
        simp only [eventOf, ne_eq, hn]
        rw [view_update_self hchild]
        exact .wrote hchild (view_held hheld) hopen _
      · simp only [eventOf, hid]
        exact moves_same (view_update_ne (Ne.symm hid) _)
    · rw [hwrite]
      cases result with
      | pending => exact moves_same rfl
      | ready result =>
        cases result with
        | error error => exact moves_same rfl
        | ok n =>
          cases hempty n rfl
          simp only [eventOf, ne_eq, not_true_eq_false, and_false]
          exact moves_same rfl
  · simp only [step, if_neg hheld]
    exact moves_same rfl

lemma moves_shutdown (id j : Nat) :
    Moves id (w.view id) (eventOf id (.shutdown j, (w.step (.shutdown j)).2))
      ((w.step (.shutdown j)).1.view id) := by
  simp only [step]
  split
  · next hheld =>
    simp only [pollShutdown]
    cases hflush : w.state.pollFlush j with
    | pending => exact moves_same rfl
    | ready result =>
      cases result with
      | error error => exact moves_same rfl
      | ok done =>
        obtain ⟨e, hchild, -, -, -, hstarted⟩ := pollFlush_ok hflush
        have htcp : e.target.network = .tcp := by simpa [hchild] using hheld.2
        have hstarted : e.started = true := by
          rcases hstarted with h | h
          · exact h
          · cases htcp.symm.trans h
        simp only [hchild]
        split
        · exact moves_same rfl
        by_cases hid : id = j
        · subst hid
          rw [view_update_self hchild]
          exact .closing hchild hstarted
        · exact moves_same (view_update_ne hid _)
  · exact moves_same rfl

lemma moves_open (h : w.Sane) (id : Nat) (target : Target) (concurrency : Nat)
    (globalId : Vector UInt8 8) :
    Moves id (w.view id)
      (eventOf id (.open target concurrency globalId, (w.step (.open target concurrency globalId)).2))
      ((w.step (.open target concurrency globalId)).1.view id) := by
  simp only [step, allocate]
  split
  · exact moves_same rfl
  next hroom =>
  have hlt : w.state.next < maxChildrenEver := by
    rw [not_or, not_or] at hroom
    simpa [exhausted] using hroom.2.2
  have hget := get_concat id (w.state.next + 1)
    ({ target, globalId } : Entry) w.state.children
  by_cases hid : w.state.next + 1 = id
  · subst hid
    have hnone := h.fresh (w.state.next + 1) (Nat.lt_succ_self _)
    simp only [eventOf]
    rw [show get (w.state.next + 1) w.state.children = none from hnone] at hget
    simp only [view, child, hget, Option.toList, List.singleton_append, List.mem_cons]
    exact .opened target globalId rfl hlt
  · simp only [eventOf, if_neg hid]
    simp only [if_neg hid, Option.or_none] at hget
    simp only [view, child, hget, Option.toList, List.singleton_append, List.mem_cons,
      Ne.symm hid, false_or]
    refine .other (w.view id) hlt (Nat.le_succ _) fun hlt' => ?_
    simp only [view] at hlt'
    omega

lemma moves_drop (id j : Nat) : Moves id (w.view id) none ((w.step (.drop j)).1.view id) := by
  by_cases hheld : j ∈ w.held
  · simp only [step, if_pos hheld]
    by_cases hid : id = j
    · subst hid
      have hfilter : decide (id ∈ w.held.filter (· ≠ id)) = false := by simp
      simp only [view, hfilter, dropToken]
      cases hchild : w.state.child id with
      | none =>
        simp only [hchild]
        exact .released rfl
      | some e =>
        simp only
        split
        · simp only [child_remove]
          exact .gone rfl
        next hkeep =>
        simp only [child_update, hchild]
        refine .abandoned rfl ?_
        rw [not_or] at hkeep
        have hstart := hkeep.2
        cases hs : e.started with
        | true => exact .inl rfl
        | false =>
          cases hi : e.inflight with
          | true => exact .inr rfl
          | false => exact absurd (by simp [hs, hi]) hstart
    · have hfilter : decide (id ∈ w.held.filter (· ≠ j)) = decide (id ∈ w.held) := by
        simp [hid]
      refine moves_same ?_
      simp only [view, hfilter, dropToken]
      cases w.state.child j with
      | none => rfl
      | some e =>
        simp only
        split
        · simp only [child_remove, if_neg hid]
          rfl
        · simp only [child_update, if_neg hid]
          rfl
  · simp only [step, if_neg hheld]
    exact moves_same rfl

lemma view_stop (w : World) (id : Nat) : w.stop.view id =
      { w.view id with
        entry := (w.view id).entry.map fail, flight := none, running := false
        closed := true } := by
  simp only [view, stop, child_close]
  rfl

lemma moves_stop (w : World) (id : Nat) : Moves id (w.view id) none (w.stop.view id) := by
  rw [view_stop]
  exact .stopped _

lemma Sane.toNat_sessionId (h : w.Sane) (hchild : w.state.child id = some e) :
    (UInt16.ofNat id).toNat = id := by
  have hle : id ≤ w.state.next := by
    rcases Nat.lt_or_ge w.state.next id with hlt | hle
    · exact absurd (h.fresh id hlt) (by simp [hchild])
    · exact hle
  have hroom := h.room
  rw [maxChildrenEver] at hroom
  rw [UInt16.toNat_ofNat']
  omega

lemma moves_send (h : w.Sane) (id : Nat) :
    Moves id (w.view id) (eventOf id (.send, (w.step .send).2)) ((w.step .send).1.view id) := by
  simp only [step]
  split
  · next hrunning =>
    have hflight : w.flight = none := by simpa using hrunning.2
    simp only [send]
    split
    · exact moves_stop w id
    cases hnext : w.state.nextFlight with
    | none => exact moves_same rfl
    | some next =>
      obtain ⟨state, flight⟩ := next
      obtain ⟨j, e, hchild, hopen, rfl, rfl⟩ := nextFlight_eq_some hnext
      have hsession : (e.flight j).frame.sessionId.toNat = j := h.toNat_sessionId hchild
      have hcur : ∀ i, child { w.state with cursor := j } i = w.state.child i :=
        fun _ => rfl
      cases hencode : encode (e.flight j).frame with
      | error _ =>
        simp only [hencode]
        rw [view_stop]
        simp only [view, child_update, hcur]
        by_cases hid : id = j
        · subst hid
          simp only [hchild]
          have hmove : Moves id (w.view id) _ _ := .refused hchild
          simp only [view, hchild] at hmove
          exact hmove
        · simp only [if_neg hid]
          exact .stopped (w.view id)
      | ok _ =>
        simp only [hencode, eventOf, hsession]
        by_cases hid : id = j
        · subst hid
          have hself : (some (e.flight id)).filter (fun f => decide (f.id = id)) =
            some (e.flight id) := by simp [Entry.flight]
          simp only [view, hself, child_update, hcur, hchild]
          exact .sending hrunning.1 (by simp [hflight]) rfl hopen
        · have hother : (some (e.flight j)).filter (fun f => decide (f.id = id)) = none := by
            simp [Entry.flight, Ne.symm hid]
          rw [if_neg (Ne.symm hid)]
          refine moves_same ?_
          simp only [view, hother, child_update, if_neg hid, hflight]
          rfl
  · exact moves_same rfl

lemma view_settle (hchild : w.state.child j = some e) (e' : Entry) (id : Nat) :
    { w with state := w.state.settle j e' }.view id =
      { w.view id with entry := if id = j then e'.settled else w.state.child id } := by
  have hrest : (w.state.settle j e').next = w.state.next ∧
      (w.state.settle j e').closed = w.state.closed := by
    rw [settle]
    split <;> exact ⟨rfl, rfl⟩
  simp only [view, child_settle hchild, hrest]

lemma view_landed {flight : Flight} (hchild : w.state.child flight.id = some e) (id : Nat) :
    { w with state := w.state.landed flight, flight := none }.view id =
      { w.view id with
        entry := if id = flight.id then (e.landed flight).settled else w.state.child id
        flight := none } := by
  have hsettle := view_settle hchild (e.landed flight) id
  have hentry := congrArg View.entry hsettle
  have hnext := congrArg View.next hsettle
  have hclosed := congrArg View.closed hsettle
  simp only [view] at hentry hnext hclosed
  simp only [view, State.landed, hchild, hentry, hnext, hclosed, Option.filter_none]

lemma moves_land (h : w.Sane) (id : Nat) :
    Moves id (w.view id) (eventOf id (.land, (w.step .land).2)) ((w.step .land).1.view id) := by
  simp only [step]
  cases hflight : w.flight with
  | none => exact moves_same rfl
  | some flight =>
    have hsession := h.flight flight hflight
    have hview : (w.view id).flight = if flight.id = id then some flight else none := by
      simp only [view, hflight]
      split
      all_goals
        next hid => simp [hid]
    simp only [eventOf, hsession]
    cases hchild : w.state.child flight.id with
    | none =>
      simp only [State.landed, hchild]
      by_cases hid : flight.id = id
      · rw [if_pos hid] at hview ⊢
        exact .landedGone hview (hid ▸ hchild)
      rw [if_neg hid] at hview ⊢
      refine moves_same ?_
      simp only [view] at hview ⊢
      rw [hview]
      rfl
    | some e =>
      rw [view_landed hchild]
      by_cases hid : flight.id = id
      · rw [if_pos hid] at hview ⊢
        rw [if_pos hid.symm]
        exact .landed hview (hid ▸ hchild)
      · rw [if_neg hid] at hview ⊢
        rw [if_neg (Ne.symm hid), ← hview]
        exact .stays (w.view id)

lemma moves_deliver (id : Nat) : Moves id (w.view id) (eventOf id (.deliver, (w.step .deliver).2))
      ((w.step .deliver).1.view id) := by
  simp only [step]
  split
  · simp only [deliver]
    cases decode w.bytes with
    | error _ => exact moves_stop w id
    | ok decoded =>
      cases decoded with
      | none => exact moves_same rfl
      | some decoded =>
        obtain ⟨frame, n⟩ := decoded
        cases hdeliver : w.state.deliver frame with
        | error _ =>
          simp only [hdeliver]
          exact moves_stop w id
        | ok delivered =>
          obtain ⟨state, consumed⟩ := delivered
          simp only [hdeliver]
          cases consumed with
          | false => exact moves_same rfl
          | true =>
            rcases deliver_consumed hdeliver with
              ⟨hchild, rfl, hknown⟩ | ⟨e, e', hchild, hreceive, rfl⟩
            · have hdead : w.live frame.sessionId.toNat = false := by simp [live, hchild]
              simp only [eventOf, hdead]
              by_cases hid : frame.sessionId.toNat = id
              · subst hid
                cases hstatus : frame.status with
                | «end» =>
                  have hmove : Moves frame.sessionId.toNat (w.view frame.sessionId.toNat) _ _ :=
                    .endedGone hchild (hknown (by simp [hstatus])) frame.error
                  simp only [Frame.event, hstatus]
                  exact hmove
                | _ =>
                  simp only [Frame.event, hstatus, Bool.false_eq_true]
                  exact moves_same rfl
              · rw [if_neg hid]
                exact moves_same rfl
            · have hview := view_settle hchild e' id
              have hlive : w.live frame.sessionId.toNat =
                  (w.view frame.sessionId.toNat).live e := by
                simp only [live, hchild, view, View.live, Option.any_some]
              simp only [eventOf, hlive]
              by_cases hid : frame.sessionId.toNat = id
              · subst hid
                have hmove : Moves frame.sessionId.toNat
                    (w.view frame.sessionId.toNat) _ _ := .received hchild hreceive
                rw [if_pos rfl] at hview ⊢
                rw [← hview] at hmove
                exact hmove
              · rw [if_neg hid]
                rw [if_neg (Ne.symm hid)] at hview
                exact moves_same hview
  · exact moves_same rfl

lemma moves_arrive (id : Nat) (chunk : Bytes) :
    Moves id (w.view id) (eventOf id (.arrive chunk, (w.step (.arrive chunk)).2))
      ((w.step (.arrive chunk)).1.view id) := by
  simp only [step]
  split
  · simp only [arrive]
    split
    · split
      · exact moves_stop w id
      · exact moves_same rfl
    · exact moves_same rfl
  · exact moves_same rfl

lemma step_moves (h : w.Sane) (act : Act) (id : Nat) :
    Moves id (w.view id) (eventOf id (act, (w.step act).2)) ((w.step act).1.view id) := by
  cases act with
  | «open» target concurrency globalId => exact moves_open h id target concurrency globalId
  | read j remaining => exact moves_read id j remaining
  | write j input => exact moves_write id j input
  | flush j =>
    simp only [step]
    split <;> exact moves_same rfl
  | shutdown j => exact moves_shutdown id j
  | drop j =>
    have hmove := moves_drop (w := w) id j
    have hanswer : eventOf id (.drop j, (w.step (.drop j)).2) = none := by
      simp only [step]
      split <;> rfl
    rwa [hanswer]
  | send => exact moves_send h id
  | land => exact moves_land h id
  | arrive chunk => exact moves_arrive id chunk
  | deliver => exact moves_deliver id
  | idle | stop =>
    simp only [step]
    split
    · exact moves_stop w id
    · exact moves_same rfl
  | close =>
    have hmove : Moves id (w.view id) _ _ := .failed (w.view id)
    rw [show (w.view id).entry.map fail = w.state.close.child id from
      (child_close w.state id).symm] at hmove
    exact hmove

end World

end Xray.Mux
