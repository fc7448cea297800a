import Xray.Lib.RecordCodec
import Xray.Proxy.RecordBuffer

/-!
# Reading records (`poll_read` of the VMess and Shadowsocks client streams)

The client streams read in the same way: a frame is waited for, processed where it stands in the
buffer, and its plaintext is handed out from there until it is used up. What a frame means is
the protocol's, and comes in as a codec. A failed or ended stream never looks at the stream
below again.
-/

namespace Xray.Proxy

open RecordCodec

/-- The fields the client streams have in common. The protocol's own ones, the phase among them,
are its `state`. -/
structure Reader (σ : Type) where
  state : σ
  body : RecordBuffer
  plainLen : Nat
  plainPos : Nat
  failed : Bool
  eof : Bool

/-- What a read gives: bytes, an error, or nothing for now. A read of no bytes with room for
some is the end of the stream. -/
abbrev ReadAnswer := Poll (Except IoError Bytes)

namespace Reader

variable {σ : Type} (c : Codec σ IoError maxFrame)

/-- `expect` and `require_body`: the frame is done with. Plaintext has been erased as it was
handed out; a decrypted header or length is erased here. -/
def expect (this : Reader σ) (n : Nat) (state : σ) : Reader σ :=
  let body := if c.isPlain this.state then this.body else this.body.zeroize
  { this with state, body := body.advance n, plainLen := 0, plainPos := 0 }

/-- Plaintext is handed out from the frame, and erased in it. -/
def deliver (this : Reader σ) (n : Nat) : Bytes × Reader σ :=
  let got := (this.body.frame.drop this.plainPos).take n
  (got, { this with
    body := this.body.write this.plainPos (List.replicate n 0)
    plainPos := this.plainPos + n })

def processFrame (this : Reader σ) : Option ReadAnswer × Reader σ :=
  match c.process this.state this.body.frame with
  | .error e => (some (.ready (.error e)), { this with failed := true })
  | .ok (.expect n state) => (none, this.expect c n state)
  | .ok (.opened plain state readAhead) =>
    let body := this.body.write 0 plain
    (none, { this with
      state
      body := readAhead.elim body body.setReadAhead
      plainLen := plain.length
      plainPos := 0 })
  | .ok .ended => (some (.ready (.ok [])), { this with eof := true })

/-- Waits for the next frame and processes it. -/
def takeFrame (this : Reader σ) (inner : Inner) : Option ReadAnswer × Reader σ × Inner :=
  match this.body.pollFrame inner with
  | (.pending, body, inner) => (some .pending, { this with body }, inner)
  | (.ready (.ok true), body, inner) =>
    let (answer, this) := processFrame c { this with body }
    (answer, this, inner)
  | (.ready (.ok false), body, inner) =>
    if c.boundary this.state then (some (.ready (.ok [])), { this with body, eof := true }, inner)
    else (some (.ready (.error .unexpectedEof)), { this with body, failed := true }, inner)
  | (.ready (.error e), body, inner) =>
    (some (.ready (.error e)), { this with body, failed := true }, inner)

/-- One turn of the loop, with room for `room` bytes of which at most `budget` may be used. A
`packet` is handed out whole or not at all. Without an answer the loop goes on. -/
def turn (packet : Bool) (room budget : Nat) (this : Reader σ) (inner : Inner) :
    Option ReadAnswer × Reader σ × Inner :=
  if c.isPlain this.state = true then
    let remaining := this.plainLen - this.plainPos
    if remaining ≠ 0 then
      if packet = true ∧ room < remaining then
        (some (.ready (.error (.invalidInput "VMess datagram receive buffer too small"))),
          this, inner)
      else
        let (got, this) := this.deliver (min (min room remaining) budget)
        (some (.ready (.ok got)), this, inner)
    else takeFrame c (this.expect c (c.resume this.state).1 (c.resume this.state).2) inner
  else takeFrame c this inner

def loop (packet : Bool) (room budget : Nat) :
    Nat → Reader σ → Inner → Option ReadAnswer × Reader σ × Inner
  | 0, this, inner => (none, this, inner)
  | n + 1, this, inner =>
    match turn c packet room budget this inner with
    | (none, this, inner) => loop packet room budget n this inner
    | (some answer, this, inner) => (some answer, this, inner)

end Reader

end Xray.Proxy
