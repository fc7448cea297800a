import Xray.Lib.Bytes

/-!
# mKCP segments (`xray-transport/src/kcp/segment.rs`)

Every field is big-endian after a conversation, a command and an option byte. A
datagram holds any number of segments, and is read up to the first that does not
parse.
-/

namespace Xray.Kcp

open Bytes

/-- `CMD_ACK`, `CMD_DATA`, `CMD_TERMINATE` and `CMD_PING`. -/
def cmdAck : UInt8 := 0

def cmdData : UInt8 := 1

def cmdTerminate : UInt8 := 2

def cmdPing : UInt8 := 3

/-- The option bit a side sets while it closes. -/
def optionClose : UInt8 := 1

def dataOverhead : UInt32 := 18

def ackNumberLimit : Nat := 128

structure DataSegment where
  conv : UInt16
  option : UInt8
  timestamp : UInt32
  number : UInt32
  sendingNext : UInt32
  payload : Bytes
deriving DecidableEq

structure AckSegment where
  conv : UInt16 := 0
  option : UInt8 := 0
  receivingWindow : UInt32 := 0
  receivingNext : UInt32 := 0
  timestamp : UInt32 := 0
  numbers : List UInt32 := []
  /-- How many numbers fit. -/
  limit : Nat
deriving DecidableEq

/-- A ping, a terminate, or any other command without a body of its own. -/
structure CmdSegment where
  conv : UInt16
  cmd : UInt8
  option : UInt8
  sendingNext : UInt32
  receivingNext : UInt32
  peerRto : UInt32
deriving DecidableEq

inductive Segment where
  | data (segment : DataSegment)
  | ack (segment : AckSegment)
  | cmd (segment : CmdSegment)
deriving DecidableEq

def Segment.conv : Segment → UInt16
  | .data segment => segment.conv
  | .ack segment => segment.conv
  | .cmd segment => segment.conv

def be16 (n : UInt16) : Bytes := toBe 2 n.toNat

def be32 (n : UInt32) : Bytes := toBe 4 n.toNat

/-- `encode_data`: a data segment carrying `payload`, at most 8192 bytes. -/
def DataSegment.encode (segment : DataSegment) : Bytes :=
  be16 segment.conv ++ [cmdData, segment.option] ++ be32 segment.timestamp ++
    be32 segment.number ++ be32 segment.sendingNext ++ toBe 2 segment.payload.length ++
    segment.payload

namespace AckSegment

/-- An empty ack holding up to `limit` numbers, bounded to 1..=128. -/
def new (limit : Int) : AckSegment :=
  { limit := (max 1 (min limit ackNumberLimit)).toNat }

def putTimestamp (segment : AckSegment) (timestamp : UInt32) : AckSegment :=
  if timestamp - segment.timestamp < 0x7FFFFFFF then { segment with timestamp } else segment

def isFull (segment : AckSegment) : Bool := segment.numbers.length == segment.limit

def encode (segment : AckSegment) : Bytes :=
  be16 segment.conv ++ [cmdAck, segment.option] ++ be32 segment.receivingWindow ++
    be32 segment.receivingNext ++ be32 segment.timestamp ++
    [UInt8.ofNat segment.numbers.length] ++ segment.numbers.flatMap be32

end AckSegment

def CmdSegment.encode (segment : CmdSegment) : Bytes :=
  be16 segment.conv ++ [segment.cmd, segment.option] ++ be32 segment.sendingNext ++
    be32 segment.receivingNext ++ be32 segment.peerRto

def u16At (buf : Bytes) : UInt16 := UInt16.ofNat (ofBe (buf.take 2))

def u32At (buf : Bytes) : UInt32 := UInt32.ofNat (ofBe (buf.take 4))

def u32s : Nat → Bytes → List UInt32
  | 0, _ => []
  | count + 1, buf => u32At buf :: u32s count (buf.drop 4)

def readSegment (buf : Bytes) : Option (Segment × Bytes) :=
  match buf with
  | c₁ :: c₂ :: cmd :: option :: buf =>
    let conv := u16At [c₁, c₂]
    if cmd = cmdData then
      -- A byte past the header is wanted, so an empty data segment that ends
      -- the datagram does not parse.
      if buf.length < 15 then none
      else
        let length := ofBe ((buf.drop 12).take 2)
        let rest := buf.drop 14
        if rest.length < length then none
        else
          some (.data ⟨conv, option, u32At buf, u32At (buf.drop 4), u32At (buf.drop 8),
            rest.take length⟩, rest.drop length)
    else if cmd = cmdAck then
      if buf.length < 13 then none
      else
        let count := (buf.getD 12 0).toNat
        let rest := buf.drop 13
        if rest.length < count * 4 then none
        else
          some (.ack { AckSegment.new ackNumberLimit with
            conv, option
            receivingWindow := u32At buf
            receivingNext := u32At (buf.drop 4)
            timestamp := u32At (buf.drop 8)
            numbers := u32s count rest }, rest.drop (count * 4))
    else if buf.length < 12 then none
    else
      some (.cmd ⟨conv, cmd, option, u32At buf, u32At (buf.drop 4), u32At (buf.drop 8)⟩,
        buf.drop 12)
  | _ => none

lemma readSegment_shrinks {buf rest : Bytes} {segment : Segment}
    (h : readSegment buf = some (segment, rest)) : rest.length < buf.length := by
  revert h
  fun_cases readSegment buf with
  | case3 | case6 | case8 =>
    rintro ⟨⟩
    simp +zetaDelta only [List.length_drop, List.length_cons]
    omega
  | _ => simp

/-- Every segment in a datagram, up to the first that does not parse. -/
def readSegments (buf : Bytes) : List Segment :=
  match _h : readSegment buf with
  | none => []
  | some (segment, rest) => segment :: readSegments rest
termination_by buf.length
decreasing_by exact readSegment_shrinks _h

end Xray.Kcp
