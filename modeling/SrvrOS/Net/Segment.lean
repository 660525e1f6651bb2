import SrvrOS.Lib.Bytes

/-!
# TCP segments

`kernel/src/net.c`. A frame is kept as the fields the TCP code reads and writes; Ethernet
and IPv4 framing, checksums and fragments are left out, so that a frame here is one whose
headers were found sound. The option list stays in its wire form.
-/

namespace SrvrOS.Net

open Lib

abbrev Seq := BitVec 32

def tcpSegmentPayloadMax : Nat := 1400

def tcpDefaultSendMss : Nat := 536

/-- The flag byte of a header: `TCP_FIN`, `TCP_SYN`, `TCP_RST`, `TCP_PSH` and `TCP_ACK`. -/
structure Flags where
  fin : Bool := false
  syn : Bool := false
  rst : Bool := false
  psh : Bool := false
  ack : Bool := false
  deriving DecidableEq, Repr

/-- A TCP segment in its frame; `mac` and `ip` are those of the other host. -/
structure Frame where
  mac : BitVec 48
  ip : BitVec 32
  srcPort : BitVec 16
  dstPort : BitVec 16
  seq : Seq
  ack : Seq
  flags : Flags
  window : Nat
  options : Bytes
  payload : Bytes
  deriving DecidableEq, Repr

def tcpSequenceAdvance (flags : Flags) (payloadLength : Nat) : Nat :=
  payloadLength + (if flags.syn then 1 else 0) + (if flags.fin then 1 else 0)

def tcpReceiveAdvance (flags : Flags) (payloadLength : Nat) : Nat :=
  payloadLength + (if flags.fin then 1 else 0)

def tcpSequenceAcked (stop ack : Seq) : Bool := 0 ≤ (ack - stop).toInt

/-! ## Options -/

/-- The MSS of a SYN option, `value` in `tcp_parse_options`. -/
def mssValue (body : Bytes) : Nat :=
  256 * (body.getD 0 0).toNat + (body.getD 1 0).toNat

/-- The loop of `tcp_parse_options`; `mss` is the offer found so far. -/
def parseOptionsFrom (syn : Bool) : Nat → Option Nat → Bytes → Option (Option Nat)
  | 0, mss, _ => some mss
  | _ + 1, mss, [] => some mss
  | fuel + 1, mss, kind :: rest =>
    if kind = 0 then some mss
    else if kind = 1 then parseOptionsFrom syn fuel mss rest
    else
      match rest with
      | [] => none
      | length :: body =>
        if length.toNat < 2 ∨ rest.length + 1 < length.toNat then none
        else if kind = 2 then
          if length.toNat ≠ 4 then none
          else if syn then
            if mss.isSome ∨ mssValue body = 0 then none
            else parseOptionsFrom syn fuel
              (some (min (mssValue body) tcpSegmentPayloadMax)) (rest.drop 3)
          else parseOptionsFrom syn fuel mss (rest.drop 3)
        else parseOptionsFrom syn fuel mss (rest.drop (length.toNat - 1))

/-- `tcp_parse_options`: the peer's MSS, unless the list is malformed. -/
def tcpParseOptions (flags : Flags) (options : Bytes) : Option Nat :=
  (parseOptionsFrom flags.syn options.length none options).map (·.getD tcpDefaultSendMss)

/-! ## What a segment occupies -/

/-- What a sequence number stands for. -/
inductive Item where
  | syn
  | data (byte : UInt8)
  | fin
  deriving DecidableEq, Repr

/-- The contents of the sequence numbers a segment occupies, in order. -/
def items (flags : Flags) (payload : Bytes) : List Item :=
  (if flags.syn then [.syn] else []) ++ payload.map .data ++ (if flags.fin then [.fin] else [])

@[simp] theorem items_length (flags : Flags) (payload : Bytes) :
    (items flags payload).length = tcpSequenceAdvance flags payload.length := by
  unfold items tcpSequenceAdvance
  cases flags.syn <;> cases flags.fin <;> simp

def Frame.items (frame : Frame) : List Item := Net.items frame.flags frame.payload

end SrvrOS.Net
