import Xray.Lib.Carrier

/-!
# Polled futures that read

A future is a program whose only way to wait is to fill a buffer of a known size
from a stream: `fill` holds what it has of the buffer. A poll runs it on a carrier
until it is done or the carrier pauses. What is left is again a future, which can be
polled later, or dropped, and then what it held is gone.

`Future.run` is the meaning of a future on bytes, whatever pieces they come in, and
`Future.poll_ready` and `Future.poll_pending` say that polling has it. A `Turns` is a
future run again and again until it has a result (a loop with `continue`), and
`Turns.poll_progress` is about reading frames one after another with it. A `Raced` is
the reading side of a loop that races such a future against other things; it is
`InStep` with the frames as long as it drops no future that has begun to read one.
-/

/-- A future with results in `α` and errors in `ε`. -/
inductive Future (ε α : Type) where
  | done (result : Except ε α)
  | fill (n : Nat) (got : Bytes) (next : Bytes → Future ε α)

inductive Polled (τ ε α : Type) where
  | ready (result : Except ε α) (rest : Carrier)
  | pending (future : τ) (rest : Carrier)

namespace Future

open List

variable {ε α β : Type}

def fail (error : ε) : Future ε α := .done (.error error)

def readExact (n : Nat) : Future ε Bytes := .fill n [] fun bytes => .done (.ok bytes)

def bind : Future ε α → (α → Future ε β) → Future ε β
  | .done (.ok a), f => f a
  | .done (.error e), _ => .done (.error e)
  | .fill n got next, f => .fill n got fun bytes => (next bytes).bind f

instance : Monad (Future ε) where
  pure a := .done (.ok a)
  bind := bind

inductive Filled where
  | full (bytes : Bytes) (rest : Carrier)
  | short (got : Bytes) (rest : Carrier)
  | ended

/-- Reads until the buffer of `n` bytes is full, the carrier pauses or it ends. -/
def fillFrom (n : Nat) (got : Bytes) (c : Carrier) : Filled :=
  if _hfull : n ≤ got.length then .full got c
  else
    match _h : c.pollRead (n - got.length) with
    | (.pending, rest) => .short got rest
    | (.ready [], _) => .ended
    | (.ready (b :: bytes), rest) => fillFrom n (got ++ b :: bytes) rest
termination_by c.bytes.length
decreasing_by
  have hready := (Carrier.pollRead_ready (by omega) _h).1
  rw [← hready, length_append, length_cons]
  omega

/-- Runs a future as far as the carrier goes. The end of the carrier in the middle
of a buffer is the error `eof`. -/
def poll (eof : ε) : Future ε α → Carrier → Polled (Future ε α) ε α
  | .done result, c => .ready result c
  | .fill n got next, c =>
    match fillFrom n got c with
    | .full bytes rest => poll eof (next bytes) rest
    | .short got rest => .pending (.fill n got next) rest
    | .ended => .ready (.error eof) []

/-! ## The meaning of a future -/

/-- What a future makes of some bytes, with those it left; `none` when it wants
more. -/
def run : Future ε α → Bytes → Option (Except ε α × Bytes)
  | .done result, bytes => some (result, bytes)
  | .fill n got next, bytes =>
    if got.length + bytes.length < n then none
    else run (next (got ++ bytes.take (n - got.length))) (bytes.drop (n - got.length))

variable {future : Future ε α} {bytes left got taken : Bytes} {result : Except ε α}
  {next : Bytes → Future ε α}

lemma run_append (h : future.run bytes = some (result, left)) (more : Bytes) :
    future.run (bytes ++ more) = some (result, left ++ more) := by
  induction future generalizing bytes with
  | done r =>
    cases h
    rfl
  | fill n got next ih =>
    rw [run] at h ⊢
    split at h
    · simp at h
    next hge =>
    have hle : n - got.length ≤ bytes.length := by omega
    rw [if_neg (by rw [length_append]; omega), take_append_of_le_length hle,
      drop_append_of_le_length hle]
    exact ih _ h

lemma run_bind {a : α} (f : α → Future ε β) (h : future.run bytes = some (.ok a, left)) :
    (future >>= f).run bytes = (f a).run left := by
  show (future.bind f).run bytes = _
  induction future generalizing bytes with
  | done result =>
    cases h
    rfl
  | fill n got next ih =>
    rw [run] at h
    split at h
    · simp at h
    next hge =>
    rw [bind, run, if_neg hge]
    exact ih _ h

lemma run_readExact {n : Nat} (h : bytes.length = n) (more : Bytes) :
    (readExact n : Future ε Bytes).run (bytes ++ more) = some (.ok bytes, more) := by
  rw [readExact, run, if_neg (by rw [length_nil, length_append]; omega), length_nil,
    Nat.sub_zero, take_left' h, drop_left' h]
  rfl

lemma fillFrom_spec (n : Nat) (got : Bytes) (c : Carrier) : match fillFrom n got c with
    | .full bytes rest => ∃ taken, bytes = got ++ taken ∧ taken.length = n - got.length ∧
        taken ++ rest.bytes = c.bytes
    | .short got' rest => ∃ taken, got' = got ++ taken ∧ got'.length < n ∧
        taken ++ rest.bytes = c.bytes
    | .ended => got.length + c.bytes.length < n := by
  fun_induction fillFrom n got c with
  | case1 got c hfull => exact ⟨[], by simp, by simp; omega, rfl⟩
  | case2 got c hfull rest hread =>
    exact ⟨[], by simp, by omega, (Carrier.pollRead_pending hread).1⟩
  | case3 got c hfull rest hread =>
    obtain ⟨-, -, hend⟩ := Carrier.pollRead_ready (by omega) hread
    rw [hend rfl]
    show got.length + 0 < n
    omega
  | case4 got c hfull b bytes rest hread ih =>
    obtain ⟨hbytes, -, -⟩ := Carrier.pollRead_ready (by omega) hread
    have hle := Carrier.length_pollRead_le hread
    rw [length_append] at ih
    split at ih
    · obtain ⟨taken, rfl, hlength, htaken⟩ := ih
      refine ⟨b :: bytes ++ taken, by simp, ?_, ?_⟩
      · rw [length_append]
        omega
      · rw [append_assoc, htaken, hbytes]
    · obtain ⟨taken, rfl, hlength, htaken⟩ := ih
      exact ⟨b :: bytes ++ taken, by simp, hlength, by rw [append_assoc, htaken, hbytes]⟩
    · rw [← hbytes, length_append]
      omega

lemma run_full {n : Nat} (h : taken.length = n - got.length) (more : Bytes) :
    (Future.fill n got next).run (taken ++ more) = (next (got ++ taken)).run more := by
  rw [run, if_neg (by rw [length_append]; omega), take_left' h, drop_left' h]

lemma run_short {n : Nat} (h : (got ++ taken).length < n) (more : Bytes) :
    (Future.fill n got next).run (taken ++ more) =
      (Future.fill n (got ++ taken) next).run more := by
  rw [length_append] at h
  have hle : taken.length ≤ n - got.length := by omega
  rw [run, run, length_append, length_append, Nat.add_assoc, take_append,
    take_of_length_le hle, drop_append, drop_eq_nil_of_le hle, nil_append,
    append_assoc, Nat.sub_add_eq]

/-- A poll with a result took the bytes the result is about, or found the end of the
carrier where it wanted more. -/
lemma poll_ready {eof : ε} {c rest : Carrier} (h : future.poll eof c = .ready result rest) :
    (∃ taken, taken ++ rest.bytes = c.bytes ∧ future.run taken = some (result, [])) ∨
      result = .error eof ∧ future.run c.bytes = none := by
  fun_induction poll eof future c with
  | case1 result c =>
    cases h
    exact .inl ⟨[], rfl, rfl⟩
  | case2 n got next c bytes middle heq ih =>
    have hfill := fillFrom_spec n got c
    simp only [heq] at hfill
    obtain ⟨taken, rfl, hlength, htaken⟩ := hfill
    rcases ih h with ⟨more, hmore, hdone⟩ | ⟨herror, hwants⟩
    · exact .inl ⟨taken ++ more, by rw [append_assoc, hmore, htaken],
        (run_full hlength more).trans hdone⟩
    · exact .inr ⟨herror, by rw [← htaken, run_full hlength]; exact hwants⟩
  | case3 => cases h
  | case4 n got next c heq =>
    have hfill := fillFrom_spec n got c
    simp only [heq] at hfill
    cases h
    exact .inr ⟨rfl, by rw [run, if_pos hfill]⟩

/-- A poll that waits leaves a future that goes on from the bytes it took. -/
lemma poll_pending {eof : ε} {future' : Future ε α} {c rest : Carrier}
    (h : future.poll eof c = .pending future' rest) :
    ∃ taken, taken ++ rest.bytes = c.bytes ∧
      (∀ more, future.run (taken ++ more) = future'.run more) ∧ future'.run [] = none := by
  fun_induction poll eof future c with
  | case1 | case4 => cases h
  | case2 n got next c bytes middle heq ih =>
    have hfill := fillFrom_spec n got c
    simp only [heq] at hfill
    obtain ⟨taken, rfl, hlength, htaken⟩ := hfill
    obtain ⟨more, hmore, hgoes, hwants⟩ := ih h
    refine ⟨taken ++ more, by rw [append_assoc, hmore, htaken], fun last => ?_, hwants⟩
    rw [append_assoc, run_full hlength, hgoes]
  | case3 n got next c got' middle heq =>
    have hfill := fillFrom_spec n got c
    simp only [heq] at hfill
    cases h
    obtain ⟨taken, rfl, hlt, htaken⟩ := hfill
    exact ⟨taken, htaken, run_short hlt, by rw [run, if_pos (by simpa using hlt)]⟩

end Future

/-- A loop of a future: each turn fills a buffer of at least one byte, goes on from
it, and comes to a result or to another turn. -/
structure Turns (ε α : Type) where
  /-- The size of the buffer, less one. -/
  first : Nat
  next : Bytes → Future ε (Option α)

namespace Turns

variable {ε α : Type}

def turn (turns : Turns ε α) : Future ε (Option α) := .fill (turns.first + 1) [] turns.next

/-- The same loop with another form of its results. -/
def map {β : Type} (f : α → β) (turns : Turns ε α) : Turns ε β where
  first := turns.first
  next bytes := turns.next bytes >>= fun result => pure (result.map f)

lemma run_nil (turns : Turns ε α) : turns.turn.run [] = none := by
  rw [turn, Future.run, if_pos (by simp)]

lemma shrinks_of_ready {eof : ε} {turns : Turns ε α} {c rest : Carrier} {result : Option α}
    (h : turns.turn.poll eof c = .ready (.ok result) rest) :
    rest.bytes.length < c.bytes.length := by
  rcases Future.poll_ready h with ⟨taken, htaken, hrun⟩ | ⟨herror, -⟩
  · have hne : taken ≠ [] := by
      rintro rfl
      rw [turns.run_nil] at hrun
      simp at hrun
    have hpos := List.length_pos_iff.mpr hne
    rw [← htaken, List.length_append]
    omega
  · simp at herror

def pollFresh (eof : ε) (turns : Turns ε α) (c : Carrier) :
    Polled (Future ε (Option α)) ε α :=
  match _h : turns.turn.poll eof c with
  | .ready (.ok none) rest => pollFresh eof turns rest
  | .ready (.ok (some a)) rest => .ready (.ok a) rest
  | .ready (.error e) rest => .ready (.error e) rest
  | .pending future rest => .pending future rest
termination_by c.bytes.length
decreasing_by exact shrinks_of_ready _h

/-- Turns from where the last poll left one. -/
def poll (eof : ε) (turns : Turns ε α) (future : Future ε (Option α)) (c : Carrier) :
    Polled (Future ε (Option α)) ε α :=
  match future.poll eof c with
  | .ready (.ok none) rest => turns.pollFresh eof rest
  | .ready (.ok (some a)) rest => .ready (.ok a) rest
  | .ready (.error e) rest => .ready (.error e) rest
  | .pending future rest => .pending future rest

lemma pollFresh_eq (eof : ε) (turns : Turns ε α) (c : Carrier) :
    turns.pollFresh eof c = turns.poll eof turns.turn c := by
  rw [pollFresh, poll]
  split <;> simp only [*]

/-- The turn's future stands in a wire: it has taken some bytes of it, wants more,
and the rest is to come. -/
def Stands (turns : Turns ε α) (future : Future ε (Option α)) (c : Carrier) (wire : Bytes) :
    Prop :=
  ∃ held, held ++ c.bytes = wire ∧
    (∀ more, turns.turn.run (held ++ more) = future.run more) ∧ future.run [] = none

lemma stands_turn (turns : Turns ε α) (c : Carrier) : turns.Stands turns.turn c c.bytes :=
  ⟨[], rfl, fun _ => rfl, turns.run_nil⟩

/-- Some bytes, and what a turn is to make of them: a result, or nothing and the
next turn. -/
structure Frame (α : Type) where
  wire : Bytes
  content : Option α

def wireOf (frames : List (Frame α)) : Bytes := frames.flatMap Frame.wire

def contentsOf (frames : List (Frame α)) : List α := frames.filterMap Frame.content

def Reads (turns : Turns ε α) (frame : Frame α) : Prop :=
  turns.turn.run frame.wire = some (.ok frame.content, [])

lemma Reads.map {β : Type} {turns : Turns ε α} {frame : Frame α} (h : turns.Reads frame)
    (f : α → β) : (turns.map f).Reads ⟨frame.wire, frame.content.map f⟩ := by
  show (turns.turn >>= fun result => pure (result.map f)).run frame.wire = _
  rw [Future.run_bind _ h]
  rfl

section Frames

variable {eof : ε} {turns : Turns ε α} {future : Future ε (Option α)} {c : Carrier}
  {frames : List (Frame α)}

lemma Stands.ready (h : turns.Stands future c (wireOf frames))
    (hreads : ∀ frame ∈ frames, turns.Reads frame) {result : Except ε (Option α)} {rest : Carrier}
    (hpoll : future.poll eof c = .ready result rest) :
    (∃ frame frames', frames = frame :: frames' ∧ result = .ok frame.content ∧
        rest.bytes = wireOf frames') ∨
      result = .error eof ∧ frames = [] := by
  obtain ⟨held, hwire, hheld, -⟩ := h
  have hhead : ∀ frame frames', frames = frame :: frames' →
      turns.turn.run (held ++ c.bytes) = some (.ok frame.content, wireOf frames') := by
    rintro frame frames' rfl
    rw [hwire]
    exact Future.run_append (hreads frame (.head _)) _
  rcases Future.poll_ready hpoll with ⟨taken, htaken, hrun⟩ | ⟨herror, hwants⟩
  · have hdone : turns.turn.run (held ++ c.bytes) = some (result, rest.bytes) := by
      rw [← htaken, hheld]
      exact Future.run_append hrun _
    cases frames with
    | nil =>
      rw [hwire] at hdone
      exact absurd (turns.run_nil.symm.trans hdone) (by simp)
    | cons frame frames' =>
      obtain ⟨hresult, hrest⟩ :=
        Prod.mk.inj (Option.some.inj (hdone.symm.trans (hhead frame frames' rfl)))
      exact .inl ⟨frame, frames', rfl, hresult, hrest⟩
  · refine .inr ⟨herror, ?_⟩
    cases frames with
    | nil => rfl
    | cons frame frames' =>
      have hmore := hhead frame frames' rfl
      rw [hheld, hwants] at hmore
      simp at hmore

lemma Stands.pending {wire : Bytes} (h : turns.Stands future c wire)
    {future' : Future ε (Option α)} {rest : Carrier}
    (hpoll : future.poll eof c = .pending future' rest) : turns.Stands future' rest wire := by
  obtain ⟨held, hwire, hheld, -⟩ := h
  obtain ⟨taken, htaken, hgoes, hwants⟩ := Future.poll_pending hpoll
  refine ⟨held ++ taken, by rw [List.append_assoc, htaken, hwire], fun more => ?_, hwants⟩
  rw [List.append_assoc, hheld, hgoes]

/-- How a poll gets on with frames that are to be read: it comes to the content of
the first that has one, it waits in one after some without content, or it finds the
end when all are read. -/
inductive Progress (turns : Turns ε α) (eof : ε) (frames : List (Frame α)) :
    Polled (Future ε (Option α)) ε α → Prop where
  | value {past left : List (Frame α)} {a : α} {rest : Carrier} :
      frames = past ++ left → contentsOf past = [a] → rest.bytes = wireOf left →
      Progress turns eof frames (.ready (.ok a) rest)
  | waits {past left : List (Frame α)} {future : Future ε (Option α)} {rest : Carrier} :
      frames = past ++ left → contentsOf past = [] → turns.Stands future rest (wireOf left) →
      Progress turns eof frames (.pending future rest)
  | ended {rest : Carrier} : contentsOf frames = [] →
      Progress turns eof frames (.ready (.error eof) rest)

lemma Progress.skip {frame : Frame α} {polled : Polled (Future ε (Option α)) ε α}
    (hnone : frame.content = none) (h : Progress turns eof frames polled) :
    Progress turns eof (frame :: frames) polled := by
  have hskip : ∀ past, contentsOf (frame :: past) = contentsOf past := fun past =>
    List.filterMap_cons_none hnone
  cases h with
  | value heq hpast hrest => exact .value (congrArg _ heq) ((hskip _).trans hpast) hrest
  | waits heq hpast hstands => exact .waits (congrArg _ heq) ((hskip _).trans hpast) hstands
  | ended hnil => exact .ended ((hskip _).trans hnil)

end Frames

lemma poll_progress {eof : ε} {turns : Turns ε α} {future : Future ε (Option α)} {c : Carrier}
    {frames : List (Frame α)} (h : turns.Stands future c (wireOf frames))
    (hreads : ∀ frame ∈ frames, turns.Reads frame) :
    Progress turns eof frames (turns.poll eof future c) := by
  cases hpoll : future.poll eof c with
  | pending future' rest =>
    simp only [poll, hpoll]
    exact .waits (List.nil_append frames).symm rfl (h.pending hpoll)
  | ready result rest =>
    rcases h.ready hreads hpoll with ⟨frame, frames', rfl, rfl, hrest⟩ | ⟨rfl, rfl⟩
    · cases hcontent : frame.content with
      | none =>
        rw [hcontent] at hpoll
        simp only [poll, hpoll]
        rw [pollFresh_eq]
        refine .skip hcontent (poll_progress (hrest ▸ turns.stands_turn rest) ?_)
        exact fun f hf => hreads f (.tail _ hf)
      | some a =>
        rw [hcontent] at hpoll
        simp only [poll, hpoll]
        have hsplit : frame :: frames' = [frame] ++ frames' := rfl
        exact .value hsplit (List.filterMap_cons_some hcontent) hrest
    · simp only [poll, hpoll]
      exact .ended rfl
termination_by frames.length

end Turns

/-! ## A read that is raced -/

/-- A loop that races turns against other things: the future of this round, the
carrier, and the results it passed on. -/
structure Raced (ε α : Type) where
  reading : Future ε (Option α)
  carrier : Carrier
  passed : List α := []

namespace Raced

variable {ε α : Type}

def new (turns : Turns ε α) (carrier : Carrier) : Raced ε α := { reading := turns.turn, carrier }

/-- Something else won the round: the future is dropped, and the next round makes
another. -/
def restart (turns : Turns ε α) (raced : Raced ε α) : Raced ε α :=
  { raced with reading := turns.turn }

/-- Nothing else was ready: the future is polled. After a result the next round makes
another. -/
def poll (eof : ε) (turns : Turns ε α) (raced : Raced ε α) :
    Raced ε α × Option (Except ε α) :=
  match turns.poll eof raced.reading raced.carrier with
  | .ready result rest => ({ raced with reading := turns.turn, carrier := rest }, some result)
  | .pending future rest => ({ raced with reading := future, carrier := rest }, none)

def pass (raced : Raced ε α) (a : α) : Raced ε α := { raced with passed := raced.passed ++ [a] }

/-- The results passed on are those of the first frames, and the future stands in the
others. -/
def InStep (turns : Turns ε α) (frames : List (Turns.Frame α)) (raced : Raced ε α) : Prop :=
  ∃ past left, frames = past ++ left ∧ raced.passed = Turns.contentsOf past ∧
    turns.Stands raced.reading raced.carrier (Turns.wireOf left)

section InStep

variable {eof : ε} {turns : Turns ε α} {frames : List (Turns.Frame α)} {raced raced' : Raced ε α}

lemma inStep_new {carrier : Carrier} (h : carrier.bytes = Turns.wireOf frames) :
    InStep turns frames (new turns carrier) :=
  ⟨[], frames, rfl, rfl, h ▸ turns.stands_turn carrier⟩

/-- A future that had not begun is no loss. -/
lemma restart_of_fresh (h : raced.reading = turns.turn) : raced.restart turns = raced := by
  rw [restart, ← h]

variable (h : InStep turns frames raced)

include h

lemma InStep.passed_prefix : raced.passed <+: Turns.contentsOf frames := by
  obtain ⟨past, left, rfl, hpassed, -⟩ := h
  exact ⟨Turns.contentsOf left, by rw [hpassed, Turns.contentsOf, Turns.contentsOf, Turns.contentsOf,
    List.filterMap_append]⟩

/-- A poll keeps in step, and has the next result or has found the end of it all. -/
lemma InStep.poll (hreads : ∀ frame ∈ frames, turns.Reads frame) :
    (∀ raced', raced.poll eof turns = (raced', none) → InStep turns frames raced') ∧
      (∀ raced' a, raced.poll eof turns = (raced', some (.ok a)) →
        InStep turns frames (raced'.pass a)) ∧
      ∀ raced' e, raced.poll eof turns = (raced', some (.error e)) →
        e = eof ∧ raced'.passed = Turns.contentsOf frames := by
  obtain ⟨past, left, rfl, hpassed, hstands⟩ := h
  have hprogress : Turns.Progress turns eof left (turns.poll eof raced.reading raced.carrier) :=
    Turns.poll_progress hstands fun f hf => hreads f (List.mem_append_right _ hf)
  have hcontents : ∀ more : List (Turns.Frame α), Turns.contentsOf (past ++ more) =
      raced.passed ++ Turns.contentsOf more := by
    intro more
    rw [hpassed]
    exact List.filterMap_append
  simp only [Raced.poll]
  generalize turns.poll eof raced.reading raced.carrier = polled at hprogress ⊢
  cases hprogress with
  | value hleft ha hrest =>
    refine ⟨by simp, ?_, by simp⟩
    rintro raced' a ⟨⟩
    refine ⟨_, _, by rw [hleft, List.append_assoc], ?_, hrest ▸ turns.stands_turn _⟩
    rw [hcontents, ha]
    rfl
  | waits hleft hnone hstands' =>
    refine ⟨?_, by simp, by simp⟩
    rintro raced' ⟨⟩
    refine ⟨_, _, by rw [hleft, List.append_assoc], ?_, hstands'⟩
    rw [hcontents, hnone, List.append_nil]
  | ended hnone =>
    refine ⟨by simp, by simp, ?_⟩
    rintro raced' e ⟨⟩
    exact ⟨rfl, by rw [hcontents, hnone, List.append_nil]⟩

lemma InStep.passed_all
    (hreads : ∀ frame ∈ frames, turns.Reads frame) (hend : raced.carrier.bytes = []) :
    raced.passed = Turns.contentsOf frames := by
  obtain ⟨past, left, rfl, hpassed, held, hwire, hheld, hwants⟩ := h
  cases left with
  | nil => rw [hpassed, List.append_nil]
  | cons frame left =>
    -- The front of the wire is a whole frame, which the future would not still want.
    have hframe := Future.run_append (hreads frame (List.mem_append_right _ (.head _)))
      (Turns.wireOf left)
    have hrun := hheld []
    rw [hend, List.append_nil] at hwire
    rw [List.append_nil, hwire, hwants] at hrun
    cases hrun.symm.trans hframe

end InStep

end Raced
