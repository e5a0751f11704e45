import Cross233.Library.BigEndian

namespace Cross233.Qcp

open BigEndian

abbrev Bytes := List UInt8

def magic : Bytes := [0x51, 0x43, 0x50, 0x31]
def headerLen : Nat := 18
def maxPacket : Nat := 1400
def maxPayload : Nat := maxPacket - headerLen
def maxFragmentCount : Nat := 8192
def maxAssemblers : Nat := 256

def flagSyn : UInt8 := 0x01
def flagAck : UInt8 := 0x02
def flagData : UInt8 := 0x04
def flagFin : UInt8 := 0x08
def flagPing : UInt8 := 0x10
def flagPong : UInt8 := 0x20

inductive Stream where
  | realtime
  | critical
  | batch
  deriving DecidableEq, Repr

def Stream.toU8 : Stream → UInt8
  | .realtime => 1
  | .critical => 2
  | .batch => 3

def Stream.fromU8 (v : UInt8) : Stream :=
  if v = 1 then .realtime else if v = 2 then .critical else .batch

@[simp] theorem Stream.fromU8_toU8 (s : Stream) : Stream.fromU8 s.toU8 = s := by
  cases s <;> decide

structure Packet where
  flags : UInt8
  stream : Stream
  msgId : UInt32
  fragIndex : UInt16
  fragTotal : UInt16
  payload : Bytes
  deriving DecidableEq, Repr

def Packet.has (p : Packet) (flag : UInt8) : Bool := p.flags &&& flag != 0

def encode (p : Packet) : Bytes :=
  magic ++ [p.flags, p.stream.toU8] ++ toBe 4 p.msgId.toNat ++ toBe 2 p.fragIndex.toNat ++
    toBe 2 p.fragTotal.toNat ++ toBe 4 p.payload.length ++ p.payload

def decode : Bytes → Option Packet
  | c0 :: c1 :: c2 :: c3 :: flags :: stream :: i0 :: i1 :: i2 :: i3 :: x0 :: x1 :: t0 :: t1 ::
      l0 :: l1 :: l2 :: l3 :: payload =>
    let p : Packet := {
      flags := flags
      stream := Stream.fromU8 stream
      msgId := UInt32.ofNat (ofBe [i0, i1, i2, i3])
      fragIndex := UInt16.ofNat (ofBe [x0, x1])
      fragTotal := UInt16.ofNat (ofBe [t0, t1])
      payload := payload }
    let len := ofBe [l0, l1, l2, l3]
    if [c0, c1, c2, c3] ≠ magic then none
    else if len > maxPayload ∨ headerLen + payload.length ≠ headerLen + len then none
    else if p.has flagData ∧ (p.fragTotal = 0 ∨ p.fragIndex ≥ p.fragTotal ∨
        p.fragTotal.toNat > maxFragmentCount) then none
    else some p
  | _ => none

def FragmentHeaderOk (p : Packet) : Prop :=
  p.has flagData = true →
    p.fragIndex < p.fragTotal ∧ p.fragTotal.toNat ≤ maxFragmentCount

theorem fragment_checked (p : Packet) :
    ¬(p.has flagData = true ∧ (p.fragTotal = 0 ∨ p.fragIndex ≥ p.fragTotal ∨
      p.fragTotal.toNat > maxFragmentCount)) ↔ FragmentHeaderOk p := by
  constructor
  · intro h hdata
    have hn := fun hor => h ⟨hdata, hor⟩
    exact ⟨UInt16.not_le.mp (fun hge => hn (Or.inr (Or.inl hge))),
      Nat.not_lt.mp (fun hgt => hn (Or.inr (Or.inr hgt)))⟩
  · rintro hok ⟨hdata, h0 | hge | hgt⟩
    · have hlt := (hok hdata).1
      rw [h0] at hlt
      exact UInt16.not_lt_zero hlt
    · exact UInt16.not_le.mpr (hok hdata).1 hge
    · exact Nat.not_lt.mpr (hok hdata).2 hgt

theorem decode_header_ok {buf : Bytes} {p : Packet} (h : decode buf = some p) :
    FragmentHeaderOk p := by
  unfold decode at h
  split at h
  · simp only at h
    split_ifs at h with hm hl hd
    cases h
    exact (fragment_checked _).mp hd
  · cases h

theorem toBe_two (n : Nat) : toBe 2 n = [UInt8.ofNat (n / 256), UInt8.ofNat n] := rfl

theorem toBe_four (n : Nat) : toBe 4 n = [UInt8.ofNat (n / 256 / 256 / 256),
    UInt8.ofNat (n / 256 / 256), UInt8.ofNat (n / 256), UInt8.ofNat n] := rfl

theorem decode_encode_eq (p : Packet) (hlen : p.payload.length ≤ maxPayload) :
    decode (encode p) =
      if p.has flagData = true ∧ (p.fragTotal = 0 ∨ p.fragIndex ≥ p.fragTotal ∨
        p.fragTotal.toNat > maxFragmentCount) then none else some p := by
  have hid : ofBe (toBe 4 p.msgId.toNat) = p.msgId.toNat :=
    ofBe_toBe_of_lt (UInt32.toNat_lt p.msgId)
  have hix : ofBe (toBe 2 p.fragIndex.toNat) = p.fragIndex.toNat :=
    ofBe_toBe_of_lt (UInt16.toNat_lt p.fragIndex)
  have htot : ofBe (toBe 2 p.fragTotal.toNat) = p.fragTotal.toNat :=
    ofBe_toBe_of_lt (UInt16.toNat_lt p.fragTotal)
  have hl : ofBe (toBe 4 p.payload.length) = p.payload.length := by
    apply ofBe_toBe_of_lt
    simp only [maxPayload, maxPacket, headerLen] at hlen
    omega
  rw [toBe_four] at hid hl
  rw [toBe_two] at hix htot
  simp only [encode, magic, toBe_four, toBe_two, List.cons_append, List.nil_append, decode,
    hid, hix, htot, hl, UInt32.ofNat_toNat, UInt16.ofNat_toNat, Stream.fromU8_toU8]
  simp [Nat.not_lt.mpr hlen]

theorem decode_encode {p : Packet} (hlen : p.payload.length ≤ maxPayload)
    (hfrag : FragmentHeaderOk p) : decode (encode p) = some p := by
  rw [decode_encode_eq p hlen, if_neg]
  exact (fragment_checked p).mpr hfrag

end Cross233.Qcp
