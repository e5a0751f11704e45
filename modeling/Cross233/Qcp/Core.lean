import Mathlib.Algebra.Order.Floor.Ring
import Mathlib.Data.Rat.Floor
import Mathlib.Data.List.ReduceOption
import Cross233.Library.HashMap
import Cross233.Qcp.Wire

namespace Cross233.Qcp

abbrev Instant := Nat
abbrev Duration := Nat

def millis (n : Nat) : Duration := n * 1000000

def minCwnd : Nat := 2
def initialCwnd : Nat := 32
def maxCwnd : Nat := 4096
def initialSsThresh : Nat := 256
def minRtoMs : Nat := 50
def maxRtoMs : Nat := 2000
def keepaliveIntervalMs : Nat := 1000
def deadTimeoutMs : Nat := 8000
def maxRetransmit : Nat := 15
def deliveredCap : Nat := 1 <<< 16

inductive Panic where
  | indexOutOfBounds
  deriving DecidableEq, Repr

structure InFlight where
  data : Bytes
  stream : Stream
  frags : UInt16
  sentAt : Instant
  retransmitted : Bool
  deriving DecidableEq, Repr

structure Assembler where
  frags : List (Option Bytes)
  got : Nat
  deriving DecidableEq, Repr

-- `data` and `stream` are what travels on the channel; `msgId` remembers the packet behind it.
structure Delivery where
  msgId : UInt32
  data : Bytes
  stream : Stream
  deriving DecidableEq, Repr

structure CoreState where
  inFlight : HashMap UInt32 InFlight
  assemblers : HashMap UInt32 Assembler
  delivered : HashMap UInt32 Unit
  deliverTx : List Delivery
  nextMsgId : UInt32
  lastRealtime : UInt32
  cwnd : Nat
  ssthresh : Nat
  caAck : Nat
  srttMs : ℚ
  rttvarMs : ℚ
  rto : Duration
  rttInit : Bool
  retrans : HashMap UInt32 Nat
  finReceived : Bool
  dead : Bool
  deadReason : Option String
  lastActivity : Instant
  handshaked : Bool
  closed : Bool

structure Core where
  state : CoreState
  dataTx : List Bytes
  ctrlTx : List Bytes

def newCore (window : Nat) (rto : Duration) (now : Instant) : Core where
  state := {
    inFlight := ∅
    assemblers := ∅
    delivered := ∅
    deliverTx := []
    nextMsgId := 1
    lastRealtime := 0
    cwnd := if window = 0 then initialCwnd else min window maxCwnd
    ssthresh := if window = 0 then initialSsThresh else min (window * 2) maxCwnd
    caAck := 0
    srttMs := 100
    rttvarMs := 50
    rto := rto
    rttInit := false
    retrans := ∅
    finReceived := false
    dead := false
    deadReason := none
    lastActivity := now
    handshaked := false
    closed := false }
  dataTx := []
  ctrlTx := []

def updateRto (st : CoreState) (sample : Duration) : CoreState :=
  let s : ℚ := (sample : ℚ) / 1000000
  let st :=
    if st.rttInit then
      let diff := st.srttMs - s
      { st with
        srttMs := st.srttMs + 1 / 8 * diff
        rttvarMs := (1 - 1 / 4) * st.rttvarMs + 1 / 4 * |diff| }
    else { st with srttMs := s, rttvarMs := s / 2, rttInit := true }
  let rtoMs := max (minRtoMs : ℚ) (min (st.srttMs + 4 * st.rttvarMs) maxRtoMs)
  { st with rto := millis ⌊rtoMs⌋.toNat }

def markDead (st : CoreState) (reason : String) : CoreState :=
  { st with dead := true, deadReason := some reason, closed := true }

def Core.sendCtrl (core : Core) (p : Packet) : Core :=
  { core with ctrlTx := core.ctrlTx ++ [encode p] }

def Core.touch (core : Core) (now : Instant) : Core :=
  { core with state := { core.state with lastActivity := now } }

def control (flags : UInt8) (stream : Stream) (msgId : UInt32) : Packet :=
  { flags := flags, stream := stream, msgId := msgId, fragIndex := 0, fragTotal := 0,
    payload := [] }

def growWindow (st : CoreState) : CoreState :=
  if st.cwnd < st.ssthresh then { st with cwnd := min (st.cwnd + 1) maxCwnd }
  else if st.cwnd ≤ st.caAck + 1 then { st with caAck := 0, cwnd := min (st.cwnd + 1) maxCwnd }
  else { st with caAck := st.caAck + 1 }

def handleAck (now : Instant) (st : CoreState) (msgId : UInt32) : CoreState :=
  match st.inFlight.lookup msgId with
  | none => st
  | some inf =>
    let st := { st with inFlight := st.inFlight.erase msgId }
    let st := if inf.retransmitted then st else updateRto st (now - inf.sentAt)
    growWindow { st with retrans := st.retrans.erase msgId }

def handleRealtime (st : CoreState) (p : Packet) : CoreState :=
  if p.msgId - st.lastRealtime < 0x80000000 ∨ st.lastRealtime = 0 then
    { st with
      lastRealtime := p.msgId
      deliverTx := st.deliverTx ++ [⟨p.msgId, p.payload, p.stream⟩] }
  else st

def Assembler.empty (total : Nat) : Assembler :=
  { frags := List.replicate total none, got := 0 }

def Assembler.store (asm : Assembler) (index : Nat) (payload : Bytes) : Except Panic Assembler :=
  match asm.frags[index]? with
  | none => .error .indexOutOfBounds
  | some none => .ok { frags := asm.frags.set index (some payload), got := asm.got + 1 }
  | some (some _) => .ok asm

def CoreState.assemblerFor (st : CoreState) (p : Packet) : Assembler :=
  (st.assemblers.lookup p.msgId).getD (Assembler.empty p.fragTotal.toNat)

def CoreState.putAssembler (st : CoreState) (msgId : UInt32) (asm : Assembler) : CoreState :=
  { st with assemblers := st.assemblers.insert msgId asm }

def CoreState.recordDelivered (st : CoreState) (msgId : UInt32) : CoreState :=
  let delivered := st.delivered.insert msgId ()
  { st with delivered := if delivered.len > deliveredCap then ∅ else delivered }

def CoreState.deliver (st : CoreState) (p : Packet) (asm : Assembler) : CoreState :=
  let st := { st with assemblers := st.assemblers.erase p.msgId }.recordDelivered p.msgId
  { st with deliverTx := st.deliverTx ++ [⟨p.msgId, asm.frags.reduceOption.flatten, p.stream⟩] }

def complete (core : Core) (p : Packet) (asm : Assembler) : Core :=
  let ack := control flagAck p.stream p.msgId
  if p.msgId ∈ core.state.delivered then core.sendCtrl ack
  else { core with state := core.state.deliver p asm }.sendCtrl ack

def CoreState.TableFull (st : CoreState) (msgId : UInt32) : Prop :=
  msgId ∉ st.assemblers ∧ st.assemblers.len ≥ maxAssemblers

instance (st : CoreState) (msgId : UInt32) : Decidable (st.TableFull msgId) :=
  inferInstanceAs (Decidable (_ ∧ _))

def handleFragment (core : Core) (p : Packet) : Except Panic Core :=
  if core.state.TableFull p.msgId then .ok core
  else do
    let asm ← (core.state.assemblerFor p).store p.fragIndex.toNat p.payload
    let core := { core with state := core.state.putAssembler p.msgId asm }
    if asm.got = p.fragTotal.toNat then .ok (complete core p asm) else .ok core

def handlePacket (now : Instant) (core : Core) (p : Packet) : Except Panic Core :=
  if core.state.closed then .ok core
  else
    let core := core.touch now
    let st := core.state
    if p.has flagSyn then .ok { core with state := { st with handshaked := true } }
    else if p.has flagFin then
      .ok { core with state := { st with finReceived := true, closed := true } }
    else if p.has flagPing then .ok (core.sendCtrl (control flagPong p.stream p.msgId))
    else if p.has flagPong then .ok core
    else if p.has flagAck then .ok { core with state := handleAck now st p.msgId }
    else if ¬p.has flagData then .ok core
    else
      match p.stream with
      | .realtime => .ok { core with state := handleRealtime st p }
      | .critical | .batch => handleFragment core p

-- `recv_from` fills a buffer of `maxPacket` bytes; what does not fit is cut off.
def recvFrom (buf : Bytes) : Option Packet := decode (buf.take maxPacket)

def receive (now : Instant) (core : Core) (buf : Bytes) : Except Panic Core :=
  match recvFrom buf with
  | none => .ok core
  | some p => handlePacket now core p

end Cross233.Qcp
