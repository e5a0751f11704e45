import Cross233.Qcp.Wire

namespace Cross233.Qcp

open BigEndian

def beField (buf : Bytes) (offset width : Nat) : Nat := ofBe ((buf.drop offset).take width)

def canonicalStream (v : UInt8) : UInt8 := if v = 1 ∨ v = 2 then v else 3

-- The fields by their offsets, each read on its own, where `decode` takes the header apart.
structure WellFormed (buf : Bytes) : Prop where
  header : headerLen ≤ buf.length
  magic : buf.take 4 = Qcp.magic
  payload : beField buf 14 4 ≤ maxPayload
  exact : buf.length = headerLen + beField buf 14 4
  fragment : buf.getD 4 0 &&& flagData ≠ 0 →
    beField buf 10 2 < beField buf 12 2 ∧ beField buf 12 2 ≤ maxFragmentCount

def fieldsOf (buf : Bytes) : Packet where
  flags := buf.getD 4 0
  stream := Stream.fromU8 (buf.getD 5 0)
  msgId := UInt32.ofNat (beField buf 6 4)
  fragIndex := UInt16.ofNat (beField buf 10 2)
  fragTotal := UInt16.ofNat (beField buf 12 2)
  payload := buf.drop headerLen

theorem toU8_fromU8 (v : UInt8) : (Stream.fromU8 v).toU8 = canonicalStream v := by
  unfold Stream.fromU8 canonicalStream
  split_ifs with h1 h12 h2 h12 h12
  · exact h1.symm
  · exact absurd (Or.inl h1) h12
  · exact h2.symm
  · exact absurd (Or.inr h2) h12
  · exact absurd h12 (not_or.mpr ⟨h1, h2⟩)
  · rfl

theorem toNat_word (a b c d : UInt8) :
    (UInt32.ofNat (ofBe [a, b, c, d])).toNat = ofBe [a, b, c, d] := by
  rw [UInt32.toNat_ofNat']
  exact Nat.mod_eq_of_lt (lt_of_lt_of_le (ofBe_lt [a, b, c, d]) (by norm_num))

theorem toNat_half (a b : UInt8) : (UInt16.ofNat (ofBe [a, b])).toNat = ofBe [a, b] := by
  rw [UInt16.toNat_ofNat']
  exact Nat.mod_eq_of_lt (lt_of_lt_of_le (ofBe_lt [a, b]) (by norm_num))

theorem header_split {buf : Bytes} (h : headerLen ≤ buf.length) :
    ∃ c0 c1 c2 c3 flags stream i0 i1 i2 i3 x0 x1 t0 t1 l0 l1 l2 l3 payload,
      buf = c0 :: c1 :: c2 :: c3 :: flags :: stream :: i0 :: i1 :: i2 :: i3 :: x0 :: x1 :: t0 ::
        t1 :: l0 :: l1 :: l2 :: l3 :: payload := by
  have hpeel : ∀ {n : Nat} {bs : Bytes}, n + 1 ≤ bs.length →
      ∃ b rest, bs = b :: rest ∧ n ≤ rest.length := by
    intro n bs hbs
    cases bs with
    | nil => exact absurd hbs (Nat.not_succ_le_zero n)
    | cons b rest => exact ⟨b, rest, rfl, Nat.le_of_succ_le_succ hbs⟩
  obtain ⟨c0, _, rfl, h1⟩ := hpeel h
  obtain ⟨c1, _, rfl, h2⟩ := hpeel h1
  obtain ⟨c2, _, rfl, h3⟩ := hpeel h2
  obtain ⟨c3, _, rfl, h4⟩ := hpeel h3
  obtain ⟨flags, _, rfl, h5⟩ := hpeel h4
  obtain ⟨stream, _, rfl, h6⟩ := hpeel h5
  obtain ⟨i0, _, rfl, h7⟩ := hpeel h6
  obtain ⟨i1, _, rfl, h8⟩ := hpeel h7
  obtain ⟨i2, _, rfl, h9⟩ := hpeel h8
  obtain ⟨i3, _, rfl, h10⟩ := hpeel h9
  obtain ⟨x0, _, rfl, h11⟩ := hpeel h10
  obtain ⟨x1, _, rfl, h12⟩ := hpeel h11
  obtain ⟨t0, _, rfl, h13⟩ := hpeel h12
  obtain ⟨t1, _, rfl, h14⟩ := hpeel h13
  obtain ⟨l0, _, rfl, h15⟩ := hpeel h14
  obtain ⟨l1, _, rfl, h16⟩ := hpeel h15
  obtain ⟨l2, _, rfl, h17⟩ := hpeel h16
  obtain ⟨l3, payload, rfl, -⟩ := hpeel h17
  exact ⟨c0, c1, c2, c3, flags, stream, i0, i1, i2, i3, x0, x1, t0, t1, l0, l1, l2, l3, payload,
    rfl⟩

theorem decode_short {buf : Bytes} (h : buf.length < headerLen) : decode buf = none := by
  unfold decode
  split
  · simp only [List.length_cons, headerLen] at h
    omega
  · rfl

-- The two ways of reading the header agree: field by field at its offsets, and all at once.
theorem decode_eq_some_iff {buf : Bytes} {p : Packet} :
    decode buf = some p ↔ WellFormed buf ∧ p = fieldsOf buf := by
  rcases Nat.lt_or_ge buf.length headerLen with hshort | hlong
  · rw [decode_short hshort]
    exact ⟨nofun, fun h => absurd h.1.header (Nat.not_le.mpr hshort)⟩
  · obtain ⟨c0, c1, c2, c3, flags, stream, i0, i1, i2, i3, x0, x1, t0, t1, l0, l1, l2, l3, payload,
      rfl⟩ := header_split hlong
    have hbytes : ∀ rest : Bytes, (c0 :: c1 :: c2 :: c3 :: flags :: stream :: i0 :: i1 :: i2 ::
        i3 :: x0 :: x1 :: t0 :: t1 :: l0 :: l1 :: l2 :: l3 :: rest).length =
          rest.length + headerLen := fun _ => rfl
    constructor
    · intro h
      simp only [decode] at h
      split_ifs at h with hmagic hlen hfrag
      cases h
      have hok := (fragment_checked _).mp hfrag
      rw [not_or, not_lt, not_not] at hlen
      refine ⟨⟨hlong, not_not.mp hmagic, hlen.1, ?_, ?_⟩, rfl⟩
      · rw [hbytes, Nat.add_comm]
        exact hlen.2
      · intro hdata
        obtain ⟨hlt, hle⟩ := hok (bne_iff_ne.mpr hdata)
        rw [UInt16.lt_iff_toNat_lt, toNat_half, toNat_half] at hlt
        rw [toNat_half] at hle
        exact ⟨hlt, hle⟩
    · rintro ⟨⟨-, hmagic, hlen, hexact, hfrag⟩, rfl⟩
      rw [hbytes, Nat.add_comm] at hexact
      simp only [decode]
      have hmark : [c0, c1, c2, c3] = Qcp.magic := hmagic
      rw [if_neg (not_not.mpr hmark), if_neg, if_neg]
      · rfl
      · rw [fragment_checked]
        intro hdata
        obtain ⟨hlt, hle⟩ := hfrag (bne_iff_ne.mp hdata)
        refine ⟨?_, ?_⟩
        · rw [UInt16.lt_iff_toNat_lt, toNat_half, toNat_half]
          exact hlt
        · rw [toNat_half]
          exact hle
      · rintro (hbig | hdiff)
        · exact Nat.not_lt.mpr hlen hbig
        · exact hdiff hexact

theorem encode_fieldsOf {buf : Bytes} (h : WellFormed buf) :
    encode (fieldsOf buf) = buf.set 5 (canonicalStream (buf.getD 5 0)) := by
  obtain ⟨hlong, hmagic, -, hexact, -⟩ := h
  obtain ⟨c0, c1, c2, c3, flags, stream, i0, i1, i2, i3, x0, x1, t0, t1, l0, l1, l2, l3, payload,
    rfl⟩ := header_split hlong
  have hlen : payload.length = ofBe [l0, l1, l2, l3] := by
    have hsum : payload.length + headerLen = headerLen + ofBe [l0, l1, l2, l3] := hexact
    omega
  have hmark : Qcp.magic = [c0, c1, c2, c3] := hmagic.symm
  have hid : toBe 4 (UInt32.ofNat (ofBe [i0, i1, i2, i3])).toNat = [i0, i1, i2, i3] := by
    rw [toNat_word]
    exact toBe_ofBe [i0, i1, i2, i3]
  have hindex : toBe 2 (UInt16.ofNat (ofBe [x0, x1])).toNat = [x0, x1] := by
    rw [toNat_half]
    exact toBe_ofBe [x0, x1]
  have htotal : toBe 2 (UInt16.ofNat (ofBe [t0, t1])).toNat = [t0, t1] := by
    rw [toNat_half]
    exact toBe_ofBe [t0, t1]
  have hsize : toBe 4 payload.length = [l0, l1, l2, l3] := by
    rw [hlen]
    exact toBe_ofBe [l0, l1, l2, l3]
  have hbytes : ∀ buf : Bytes, encode (fieldsOf buf) =
      Qcp.magic ++ [buf.getD 4 0, (Stream.fromU8 (buf.getD 5 0)).toU8] ++
        toBe 4 (UInt32.ofNat (beField buf 6 4)).toNat ++
        toBe 2 (UInt16.ofNat (beField buf 10 2)).toNat ++
        toBe 2 (UInt16.ofNat (beField buf 12 2)).toNat ++
        toBe 4 (buf.drop headerLen).length ++ buf.drop headerLen := fun _ => rfl
  rw [hbytes]
  simp only [beField, headerLen, List.drop_succ_cons, List.drop_zero, List.take_succ_cons,
    List.take_zero, hmark, hid, hindex, htotal, hsize, toU8_fromU8]
  rfl

theorem codec_exact :
    (∀ p : Packet, p.payload.length ≤ maxPayload → FragmentHeaderOk p →
      decode (encode p) = some p) ∧
    (∀ (buf : Bytes) (p : Packet), decode buf = some p →
      encode p = buf.set 5 (canonicalStream (buf.getD 5 0))) ∧
    ∀ buf : Bytes, decode buf = none ↔
      buf.length < headerLen ∨ buf.take 4 ≠ magic ∨ maxPayload < beField buf 14 4 ∨
        buf.length ≠ headerLen + beField buf 14 4 ∨
        (buf.getD 4 0 &&& flagData ≠ 0 ∧ ¬(beField buf 10 2 < beField buf 12 2 ∧
          beField buf 12 2 ≤ maxFragmentCount)) := by
  refine ⟨fun p => decode_encode, ?_, fun buf => ?_⟩
  · intro buf p h
    obtain ⟨hwell, rfl⟩ := decode_eq_some_iff.mp h
    exact encode_fieldsOf hwell
  · rw [Option.eq_none_iff_forall_ne_some]
    constructor
    · intro hnone
      have hbad : ¬WellFormed buf := fun hwell => hnone _ (decode_eq_some_iff.mpr ⟨hwell, rfl⟩)
      by_contra hgood
      simp only [not_or, not_lt, ne_eq, not_not] at hgood
      obtain ⟨hlong, hmagic, hlen, hexact, hfrag⟩ := hgood
      exact hbad ⟨hlong, hmagic, hlen, hexact,
        fun hdata => by_contra (fun hinconsistent => hfrag ⟨hdata, hinconsistent⟩)⟩
    · rintro hor p hp
      obtain ⟨⟨hlong, hmagic, hlen, hexact, hfrag⟩, -⟩ := decode_eq_some_iff.mp hp
      rcases hor with h | h | h | h | ⟨hdata, h⟩
      · exact Nat.not_lt.mpr hlong h
      · exact h hmagic
      · exact Nat.not_lt.mpr hlen h
      · exact h hexact
      · exact h (hfrag hdata)

theorem codec_exact_data :
    let p : Packet := ⟨flagData, .batch, 7, 1, 2, [0xAA, 0xBB]⟩
    decode (encode p) = some p ∧ encode p = (encode p).set 5 3 := by
  intro p
  have hround := codec_exact.1 p (by decide) (fun _ => by decide)
  exact ⟨hround, codec_exact.2.1 _ p hround⟩

end Cross233.Qcp
