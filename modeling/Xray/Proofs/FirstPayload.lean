import Mathlib.Data.List.Induction
import Xray.Outbound.FirstPayload

/-!
# A held header leaves first, and once

What the carrier has taken, followed by what is still held, is the header followed by the
payload that was reported as accepted. A drain moves bytes from the one to the other, and
whatever else reaches the carrier comes after a drain that left nothing behind.
-/

namespace Xray.Outbound

open List

/-- The bytes that a carrier was given. -/
def received (log : List Sent) : Bytes :=
  log.flatMap fun sent => match sent with
    | .bytes taken => taken
    | _ => []

def Sent.isEnd : Sent → Bool
  | .bytes _ => false
  | _ => true

/-- The carrier takes some bytes or is not ready. -/
def WriteAnswer.Flows : WriteAnswer → Prop
  | .pending => True
  | .ready (.ok n) => 0 < n
  | .ready (.error _) => False

lemma received_append (log log' : List Sent) :
    received (log ++ log') = received log ++ received log' := flatMap_append ..

namespace HeldHeader

variable {this this' : HeldHeader} {answers : List WriteAnswer}

/-- Bytes have gone to the carrier, and `taken` has come in. A flush or a shutdown has reached
the carrier only if nothing is held any more. -/
structure Moved (this this' : HeldHeader) (taken : Bytes) : Prop where
  total : received this'.inner ++ this'.pending = received this.inner ++ this.pending ++ taken
  ends : ∃ pieces, this'.inner = this.inner ++ pieces ∧
    ((∀ sent ∈ pieces, sent.isEnd = false) ∨ this'.pending = [])

lemma Moved.refl (this : HeldHeader) : Moved this this [] :=
  ⟨(append_nil _).symm, [], (append_nil _).symm, .inl fun _ hsent => absurd hsent not_mem_nil⟩

/-- What a drain comes to when the carrier takes bytes or is not ready. -/
lemma pollDrain_spec (hflows : ∀ answer ∈ answers, WriteAnswer.Flows answer) :
    ∃ this' answers' polled, this.pollDrain answers = (this', answers', polled) ∧
      Moved this this' [] ∧ (polled = .pending ∨ polled = .ready (.ok ()) ∧ this'.pending = []) := by
  induction answers generalizing this with
  | nil =>
    refine ⟨_, _, _, rfl, .refl this, ?_⟩
    split
    next hempty => exact .inr ⟨rfl, List.isEmpty_iff.mp hempty⟩
    next => exact .inl rfl
  | cons answer answers ih =>
    have hanswer := hflows answer mem_cons_self
    rw [pollDrain.eq_def]
    dsimp only
    split
    next hempty => exact ⟨_, _, _, rfl, .refl this, .inr ⟨rfl, List.isEmpty_iff.mp hempty⟩⟩
    next =>
      rcases answer with (error | _ | n) | _
      · exact hanswer.elim
      · exact absurd hanswer (Nat.lt_irrefl 0)
      · obtain ⟨this', answers', polled, hdrain, hmoved, hpolled⟩ := @ih
          { this with
            pending := this.pending.drop (n + 1)
            inner := this.inner ++ [.bytes (this.pending.take (n + 1))] }
          fun a ha => hflows a (mem_cons_of_mem _ ha)
        refine ⟨this', answers', polled, hdrain, ⟨?_, ?_⟩, hpolled⟩
        · rw [hmoved.total, append_nil, append_nil, received_append, append_assoc]
          congr 1
          show (this.pending.take (n + 1) ++ []) ++ this.pending.drop (n + 1) = this.pending
          rw [append_nil, take_append_drop]
        · obtain ⟨pieces, hpieces, hends⟩ := hmoved.ends
          refine ⟨_, hpieces.trans (append_assoc ..), hends.imp_left fun hends sent hsent => ?_⟩
          rcases mem_append.mp hsent with hsent | hsent
          · rw [mem_singleton.mp hsent]
            rfl
          · exact hends sent hsent
      · exact ⟨_, _, _, rfl, .refl this, .inl rfl⟩

lemma Moved.send {sent : Sent} (h : Moved this this' []) (hempty : this'.pending = []) :
    Moved this { this' with inner := this'.inner ++ [sent] } (received [sent]) := by
  obtain ⟨pieces, hpieces, -⟩ := h.ends
  have htotal := h.total
  rw [hempty, append_nil, append_nil] at htotal
  refine ⟨?_, pieces ++ [sent], ?_, .inr hempty⟩
  · show received (this'.inner ++ [sent]) ++ this'.pending = _
    rw [hempty, append_nil, received_append, htotal]
  · show this'.inner ++ [sent] = _
    rw [hpieces, append_assoc]

/-- The part of the input that a write has reported as accepted. -/
def reported (input : Bytes) : WriteAnswer → Bytes
  | .ready (.ok n) => input.take n
  | _ => []

lemma writeInner_moved (input : Bytes) (h : Moved this this' []) (hempty : this'.pending = []) :
    Moved this (writeInner input this' answers).1
      (reported input (writeInner input this' answers).2) := by
  rw [writeInner]
  rcases answers.headD .pending with (error | n) | _
  · exact h
  · have htaken : received [.bytes (input.take n)] = input.take (input.take n).length := by
      rw [length_take, ← take_eq_take_min]
      exact append_nil _
    have hsend : Moved this _ (received [.bytes (input.take n)]) := h.send hempty
    rwa [htaken] at hsend
  · exact h

variable (hflows : ∀ answer ∈ answers, WriteAnswer.Flows answer)

include hflows

lemma write_afterDrain (input : Bytes) : Moved this (this.afterDrain answers (writeInner input)).1
      (reported input (this.afterDrain answers (writeInner input)).2) := by
  obtain ⟨this', answers', polled, hdrain, hmoved, rfl | ⟨rfl, hempty⟩⟩ := pollDrain_spec hflows
  · rw [afterDrain, hdrain]
    exact hmoved
  · rw [afterDrain, hdrain]
    exact writeInner_moved input hmoved hempty

lemma pollWrite_moved (input : Bytes) : Moved this (this.pollWrite input answers).1
      (reported input (this.pollWrite input answers).2) := by
  rw [pollWrite]
  split
  next =>
    obtain ⟨this', answers', polled, hdrain, hmoved, hpolled⟩ := @pollDrain_spec
      { this with merged := true, pending := this.pending ++ input } answers hflows
    have hmoved' : Moved this this' (input.take input.length) := by
      refine ⟨?_, hmoved.ends⟩
      rw [hmoved.total, append_nil, take_length, append_assoc]
    rw [hdrain]
    rcases hpolled with rfl | ⟨rfl, -⟩ <;> exact hmoved'
  next => exact write_afterDrain hflows input

lemma pollEnd_moved {sent : Sent} (hsent : received [sent] = [])
    (answer : Poll (Except StreamError Unit)) :
    Moved this (this.pollEnd sent answers answer).1 [] := by
  obtain ⟨this', answers', polled, hdrain, hmoved, rfl | ⟨rfl, hempty⟩⟩ := pollDrain_spec hflows
  · rw [pollEnd, afterDrain, hdrain]
    exact hmoved
  · rw [pollEnd, afterDrain, hdrain]
    exact hsent ▸ hmoved.send hempty

end HeldHeader

namespace HeldStream

open HeldHeader

variable {this : HeldStream} {call : PollCall}

lemma step_moved (hflows : ∀ answer ∈ call.answers, WriteAnswer.Flows answer) :
    ∃ taken, Moved this.stream.inner (this.step call).stream.inner taken ∧
      (this.step call).accepted = this.accepted ++ taken := by
  have hnothing := (append_nil this.accepted).symm
  rw [step]
  cases call.method with
  | read expired =>
    refine ⟨[], ?_, hnothing⟩
    dsimp only
    rw [FirstPayloadDeadline.pollExpired]
    split
    · exact pollEnd_moved hflows rfl call.answer
    split
    · exact pollEnd_moved hflows rfl call.answer
    · exact .refl _
  | write direct input =>
    dsimp only
    generalize hwrite : (if direct then this.stream.inner.pollWriteDirect input call.answers
      else this.stream.inner.pollWrite input call.answers) = written
    have hmoved : Moved this.stream.inner written.1 (reported input written.2) := by
      rw [← hwrite]
      split
      · exact write_afterDrain hflows input
      · exact pollWrite_moved hflows input
    obtain ⟨inner, (error | n) | _⟩ := written
    · exact ⟨[], hmoved, hnothing⟩
    · exact ⟨_, hmoved, rfl⟩
    · exact ⟨[], hmoved, hnothing⟩
  | flush | shutdown => exact ⟨[], pollEnd_moved hflows rfl call.answer, hnothing⟩

/-- How often the timeout action has run, or may still run. -/
def chances (this : HeldStream) : Nat := this.stream.timeouts + this.stream.deadline.toNat

lemma step_chances (this : HeldStream) (call : PollCall) :
    this.stream.timeouts ≤ (this.step call).stream.timeouts ∧
      (this.step call).chances ≤ this.chances := by
  rw [step]
  cases call.method with
  | read expired =>
    dsimp only
    rw [FirstPayloadDeadline.pollExpired]
    split
    next hexpired =>
      refine ⟨Nat.le_succ _, ?_⟩
      show this.stream.timeouts + 1 ≤ this.stream.timeouts + this.stream.deadline.toNat
      rw [(Bool.and_eq_true_iff.mp hexpired).1]
      rfl
    next =>
      split <;> exact ⟨Nat.le_refl _, Nat.le_refl _⟩
  | write direct input =>
    dsimp only
    split
    · exact ⟨Nat.le_refl _, Nat.le_refl _⟩
    · exact ⟨Nat.le_refl _, Nat.le_add_right _ _⟩
  | flush | shutdown => exact ⟨Nat.le_refl _, Nat.le_add_right _ _⟩

lemma step_write {direct : Bool} {input : Bytes} (hwrite : call.method = .write direct input)
    (hinput : input ≠ []) : (this.step call).stream.deadline = false ∧
      (this.step call).stream.timeouts = this.stream.timeouts := by
  rw [step, hwrite]
  dsimp only
  rw [if_neg (by rwa [List.isEmpty_iff])]
  exact ⟨rfl, rfl⟩

lemma foldl_chances (this : HeldStream) (calls : List PollCall) :
    this.stream.timeouts ≤ (calls.foldl step this).stream.timeouts ∧
      (calls.foldl step this).chances ≤ this.chances := by
  induction calls generalizing this with
  | nil => exact ⟨Nat.le_refl _, Nat.le_refl _⟩
  | cons call calls ih =>
    obtain ⟨hmore, hless⟩ := step_chances this call
    exact ⟨hmore.trans (ih _).1, (ih _).2.trans hless⟩

lemma run_concat (header : Bytes) (calls : List PollCall) (call : PollCall) :
    run header (calls ++ [call]) = (run header calls).step call := by
  rw [run, foldl_append]
  rfl

lemma run_total (header : Bytes) {calls : List PollCall}
    (hflows : ∀ call ∈ calls, ∀ answer ∈ call.answers, WriteAnswer.Flows answer) :
    received (run header calls).stream.inner.inner ++ (run header calls).stream.inner.pending =
      header ++ (run header calls).accepted := by
  induction calls using List.reverseRecOn with
  | nil => exact (append_nil header).symm
  | append_singleton calls call ih =>
    obtain ⟨taken, hmoved, haccepted⟩ := @step_moved (run header calls) call
      (hflows call (mem_append_right _ (mem_singleton_self call)))
    rw [run_concat, hmoved.total, ih fun c hc => hflows c (mem_append_left _ hc), haccepted,
      append_assoc]

lemma run_reads {header : Bytes} {calls : List PollCall}
    (hreads : ∀ call ∈ calls, call.method = .read false) : run header calls = new header := by
  induction calls using List.reverseRecOn with
  | nil => rfl
  | append_singleton calls call ih =>
    rw [run_concat, ih fun c hc => hreads c (mem_append_left _ hc), step,
      hreads call (mem_append_right _ (mem_singleton_self call))]
    rfl

/-- For every header and all calls to a carrier that takes bytes or is not ready: the carrier
has received the header followed by the payload accepted, but for the end of it that is held;
nothing as long as there were only reads before the deadline; the timeout action has run at most once, and not
after a write of some bytes; and when a flush or a shutdown reaches the carrier, it has
received everything. -/
theorem held_header_leaves_first (header : Bytes) (calls : List PollCall)
    (hflows : ∀ call ∈ calls, ∀ answer ∈ call.answers, WriteAnswer.Flows answer) :
    received (run header calls).stream.inner.inner ++ (run header calls).stream.inner.pending =
        header ++ (run header calls).accepted ∧
      ((∀ call ∈ calls, call.method = .read false) →
        (run header calls).stream.inner.inner = []) ∧
      (run header calls).stream.timeouts ≤ 1 ∧
      ∀ before call after, calls = before ++ call :: after →
        (∀ direct input, call.method = .write direct input → input ≠ [] →
          (run header calls).stream.timeouts = (run header before).stream.timeouts) ∧
        ∀ sent ∈ (run header (before ++ [call])).stream.inner.inner.drop
            (run header before).stream.inner.inner.length,
          sent.isEnd = true →
          received (run header (before ++ [call])).stream.inner.inner =
            header ++ (run header (before ++ [call])).accepted := by
  refine ⟨run_total header hflows, fun hreads => by rw [run_reads hreads]; rfl,
    (Nat.le_add_right _ _).trans (foldl_chances (new header) calls).2, ?_⟩
  rintro before call after rfl
  refine ⟨fun direct input hwrite hinput => ?_, fun sent hsent hend => ?_⟩
  · obtain ⟨hoff, hsame⟩ := @step_write (run header before) call direct input hwrite hinput
    obtain ⟨hmore, hless⟩ := foldl_chances ((run header before).step call) after
    rw [chances, chances, hoff, hsame] at hless
    rw [run, foldl_append]
    exact Nat.le_antisymm ((Nat.le_add_right _ _).trans hless) (hsame ▸ hmore)
  obtain ⟨taken, hmoved, haccepted⟩ := @step_moved (run header before) call
    (hflows call (mem_append_right _ mem_cons_self))
  obtain ⟨pieces, hpieces, hends⟩ := hmoved.ends
  have htotal := hmoved.total
  rw [run_total header fun c hc => hflows c (mem_append_left _ hc), append_assoc,
    ← haccepted] at htotal
  rw [run_concat] at hsent ⊢
  rw [hpieces, drop_left] at hsent
  rw [← htotal]
  rcases hends with hnone | hempty
  · exact absurd ((hnone sent hsent).symm.trans hend) (by decide)
  · rw [hempty, append_nil]

/-- The carrier takes two bytes of a write, and then the last one. -/
def sampleCalls : List PollCall :=
  [⟨.read false, [], .pending⟩, ⟨.write false [7], [.ready (.ok 2), .pending], .pending⟩,
    ⟨.flush, [.ready (.ok 1)], .ready (.ok ())⟩]

theorem held_header_leaves_with_payload :
    received (run [5, 6] sampleCalls).stream.inner.inner ++
      (run [5, 6] sampleCalls).stream.inner.pending = [5, 6, 7] :=
  (held_header_leaves_first [5, 6] sampleCalls (by simp [sampleCalls, WriteAnswer.Flows])).1

/-- A write of no bytes sends the header. -/
theorem empty_write_sends_header :
    received (run [5, 6] [⟨.write false [], [.ready (.ok 2)], .pending⟩]).stream.inner.inner =
      [5, 6] := rfl

end HeldStream

end Xray.Outbound
