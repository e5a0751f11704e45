import Mathlib.Data.List.Induction
import Cross233.Qcp.Delivery

namespace Cross233.Qcp

structure Receivable (id : UInt32) (data : Bytes) (stream : Stream) (ds : List Bytes) : Prop where
  accepted : ds.map recvFrom = (fragments id data stream).map some
  indices : (fragments id data stream).map (fun p => p.fragIndex.toNat) =
    List.range (fragments id data stream).length
  whole : ((fragments id data stream).map Packet.payload).flatten = data

theorem fragments_payloads (id : UInt32) (data : Bytes) (stream : Stream) :
    (fragments id data stream).map Packet.payload = chunks data := by
  rw [fragments, Chunks.map_mapIdx]
  exact Chunks.mapIdx_const (chunks data)

theorem fragments_length (id : UInt32) (data : Bytes) (stream : Stream) :
    (fragments id data stream).length = (chunks data).length := by
  simp [fragments]

theorem sendFrags_dataTx (core : Core) (id : UInt32) (data : Bytes) (stream : Stream) :
    (sendFrags core id data stream).dataTx =
      core.dataTx ++ (fragments id data stream).map encode := rfl

theorem sendStream_admits {data : Bytes} {stream : Stream}
    (h : ∀ len max, sendStream data stream ≠ .error (.tooLarge len max)) :
    data.length ≤ maxMessage := by
  by_contra hlen
  exact h _ _ (by rw [sendStream, if_pos (Nat.not_le.mp hlen)])

theorem fragment_index {id : UInt32} {data : Bytes} {stream : Stream}
    (h : data.length ≤ maxMessage) {i : Nat} {p : Packet}
    (hp : (fragments id data stream)[i]? = some p) : p.fragIndex.toNat = i := by
  have hlt : i < (fragments id data stream).length := (List.getElem?_eq_some_iff.mp hp).1
  have hle : (chunks data).length ≤ 65535 := Chunks.length_chunksOf_le maxPayload_pos h
  rw [fragments_length] at hlt
  rw [fragments, List.getElem?_mapIdx] at hp
  obtain ⟨c, -, rfl⟩ := Option.map_eq_some_iff.mp hp
  simp only [fragment, UInt16.toNat_ofNat']
  exact Nat.mod_eq_of_lt (by omega)

theorem packet_rejected {m : Accepted} (hs : Sized m.data)
    (hgt : maxFragmentCount < (chunks m.data).length) {p : Packet} (hp : p ∈ m.packets) :
    recvFrom (encode p) = none := by
  have hlen := payload_le_of_mem_packets hp
  have hdata : p.has flagData = true := by
    obtain ⟨i, c, -, rfl⟩ := mem_packets hp
    exact (by decide : (flagData &&& flagData != 0) = true)
  rw [recvFrom_encode hlen, decode_encode_eq p hlen, if_pos]
  exact ⟨hdata, Or.inr (Or.inr ((fragment_header hs hp).2 ▸ hgt))⟩

theorem chunks_le_iff (data : Bytes) :
    (chunks data).length ≤ maxFragmentCount ↔ data.length ≤ maxPayload * maxFragmentCount := by
  constructor
  · intro h
    rw [chunks, Chunks.length_chunksOf] at h
    have hlt := Nat.lt_div_mul_add (a := data.length + maxPayload - 1) maxPayload_pos
    have hmul := Nat.mul_le_mul_right maxPayload h
    rw [Nat.mul_comm maxFragmentCount] at hmul
    have hpos := maxPayload_pos
    omega
  · exact fun h => Chunks.length_chunksOf_le maxPayload_pos h

theorem receivable_of_le {id : UInt32} {data : Bytes} {stream : Stream}
    (hmax : data.length ≤ maxMessage) (h : data.length ≤ maxPayload * maxFragmentCount) :
    Receivable id data stream ((fragments id data stream).map encode) where
  accepted := by
    rw [List.map_map]
    apply List.map_congr_left
    intro p hp
    have hne : data ≠ [] := by
      rintro rfl
      cases hp
    exact packet_received (m := ⟨id, data, stream⟩) ⟨hne, hmax⟩ ((chunks_le_iff data).mpr h) hp
  indices := by
    apply List.ext_getElem?
    intro i
    rw [List.getElem?_map]
    cases hp : (fragments id data stream)[i]? with
    | none =>
      have hle := List.getElem?_eq_none_iff.mp hp
      simp [hle]
    | some p =>
      have hlt := (List.getElem?_eq_some_iff.mp hp).1
      simp [fragment_index hmax hp, List.getElem?_range hlt]
  whole := by rw [fragments_payloads, flatten_chunks]

theorem not_receivable_of_gt {id : UInt32} {data : Bytes} {stream : Stream}
    (hmax : data.length ≤ maxMessage) (h : maxPayload * maxFragmentCount < data.length) :
    ¬Receivable id data stream ((fragments id data stream).map encode) := by
  intro hr
  have hne : data ≠ [] := by
    rintro rfl
    exact absurd h (Nat.not_lt_zero _)
  have hgt : maxFragmentCount < (chunks data).length :=
    Nat.not_le.mp (fun hle => absurd ((chunks_le_iff data).mp hle) (Nat.not_le.mpr h))
  have hpos : 0 < (fragments id data stream).length := by
    rw [fragments_length]
    exact Nat.zero_lt_of_lt hgt
  have hmem : (fragments id data stream)[0] ∈ fragments id data stream := List.getElem_mem hpos
  have hrej := packet_rejected (m := ⟨id, data, stream⟩) ⟨hne, hmax⟩ hgt hmem
  have hhead := congrArg (fun l => l[0]?) hr.accepted
  simp [List.getElem?_eq_getElem hpos, hrej] at hhead

theorem admitted_receivable_iff {data : Bytes} {stream : Stream}
    (h : ∀ len max, sendStream data stream ≠ .error (.tooLarge len max)) (core : Core)
    (id : UInt32) :
    ∃ ds, (sendFrags core id data stream).dataTx = core.dataTx ++ ds ∧
      (Receivable id data stream ds ↔ data.length ≤ maxPayload * maxFragmentCount) := by
  have hmax := sendStream_admits h
  refine ⟨_, sendFrags_dataTx core id data stream, ?_, ?_⟩
  · intro hr
    by_contra hgt
    exact not_receivable_of_gt hmax (Nat.not_le.mp hgt) hr
  · exact receivable_of_le hmax

theorem three_fragments_receivable :
    ∃ ds, (sendFrags (newCore dialWindow dialRto 0) 1 (List.replicate 4000 7) .batch).dataTx =
        (newCore dialWindow dialRto 0).dataTx ++ ds ∧
      Receivable 1 (List.replicate 4000 7) .batch ds ∧
      (chunks (List.replicate 4000 (7 : UInt8))).length = 3 := by
  have hlen : (List.replicate 4000 (7 : UInt8)).length = 4000 := List.length_replicate
  have hne : List.replicate 4000 (7 : UInt8) ≠ [] := by
    apply List.ne_nil_of_length_pos
    rw [hlen]
    decide
  have hmax : (List.replicate 4000 (7 : UInt8)).length ≤ maxMessage := by
    rw [hlen]
    decide
  have hadmitted (len max : Nat) :
      sendStream (List.replicate 4000 7) .batch ≠ .error (.tooLarge len max) := by
    rw [sendStream_sized ⟨hne, hmax⟩ (by decide)]
    exact nofun
  obtain ⟨ds, hds, hiff⟩ := admitted_receivable_iff hadmitted (newCore dialWindow dialRto 0) 1
  refine ⟨ds, hds, hiff.mpr ?_, ?_⟩
  · rw [hlen]
    decide
  · decide +kernel

theorem oversized_message_admitted_and_rejected :
    (∀ len max, sendStream (List.replicate 11321345 0) .batch ≠ .error (.tooLarge len max)) ∧
      ∃ ds, (sendFrags (newCore dialWindow dialRto 0) 1 (List.replicate 11321345 0) .batch).dataTx =
          (newCore dialWindow dialRto 0).dataTx ++ ds ∧
        ¬Receivable 1 (List.replicate 11321345 0) .batch ds := by
  have hmax : (List.replicate 11321345 (0 : UInt8)).length ≤ maxMessage := by
    rw [List.length_replicate]
    decide
  have hne : List.replicate 11321345 (0 : UInt8) ≠ [] := by
    apply List.ne_nil_of_length_pos
    rw [List.length_replicate]
    decide
  refine ⟨?_, _, sendFrags_dataTx _ _ _ _, not_receivable_of_gt hmax ?_⟩
  · intro len max
    rw [sendStream_sized ⟨hne, hmax⟩ (by decide)]
    exact nofun
  · rw [List.length_replicate]
    decide

def arriveAll (core : Core) (arrivals : List (Instant × Packet)) : Except Panic Core :=
  arrivals.foldlM (fun core a => receive a.1 core (encode a.2)) core

def Covered (m : Accepted) (arrivals : List (Instant × Packet)) : Prop :=
  ∀ i < (chunks m.data).length, ∃ a ∈ arrivals, a.2.fragIndex.toNat = i

structure Core.Fresh (core : Core) : Prop where
  closed : core.state.closed = false
  assemblers : core.state.assemblers = ∅
  delivered : core.state.delivered = ∅
  deliverTx : core.state.deliverTx = []
  ctrlTx : core.ctrlTx = []

def Accepted.ack (m : Accepted) : Bytes := encode (control flagAck m.stream m.msgId)

def CoreState.assemblerOf (st : CoreState) (m : Accepted) : Assembler :=
  (st.assemblers.lookup m.msgId).getD (Assembler.empty (chunks m.data).length)

-- Only `m` is being put together, and what is there comes from `m`.
structure OnlyOf (m : Accepted) (core : Core) : Prop where
  closed : core.state.closed = false
  keys : ∀ id ∈ core.state.assemblers, id = m.msgId
  part : PartOf m (core.state.assemblerOf m)

structure Gathering (m : Accepted) (arrivals : List (Instant × Packet)) (core : Core) : Prop where
  only : OnlyOf m core
  delivered : core.state.delivered = ∅
  deliverTx : core.state.deliverTx = []
  ctrlTx : core.ctrlTx = []
  missing : ∀ j, (core.state.assemblerOf m).frags[j]? = some none ↔
    j < (chunks m.data).length ∧ ∀ a ∈ arrivals, a.2.fragIndex.toNat ≠ j

structure Finished (m : Accepted) (core : Core) : Prop where
  only : OnlyOf m core
  known : m.msgId ∈ core.state.delivered
  deliverTx : core.state.deliverTx = [m.delivery]
  acks : ∃ n, core.ctrlTx = List.replicate (n + 1) m.ack

theorem assemblerFor_eq {st : CoreState} {m : Accepted} {p : Packet} (h : FragmentOf m p) :
    st.assemblerFor p = st.assemblerOf m := by
  rw [CoreState.assemblerFor, CoreState.assemblerOf, h.msgId, h.total]

theorem OnlyOf.not_full {m : Accepted} {core : Core} (h : OnlyOf m core) {p : Packet}
    (hp : FragmentOf m p) : ¬core.state.TableFull p.msgId := by
  rintro ⟨hnot, hlen⟩
  cases hkeys : core.state.assemblers.keys with
  | nil =>
    rw [AList.len_eq_keys, hkeys] at hlen
    exact absurd hlen (by decide)
  | cons id ids =>
    have hmem : id ∈ core.state.assemblers := by
      rw [AList.mem_keys, hkeys]
      exact List.mem_cons_self
    exact hnot (hp.msgId ▸ h.keys id hmem ▸ hmem)

theorem store_missing {asm asm' : Assembler} {i : Nat} {payload : Bytes}
    (h : asm.store i payload = .ok asm') (j : Nat) :
    asm'.frags[j]? = some none ↔ asm.frags[j]? = some none ∧ j ≠ i := by
  rcases store_cases h with ⟨hnone, rfl⟩ | ⟨c, hc, rfl⟩
  · rw [List.getElem?_set]
    split_ifs with hij
    · simp [hij]
    · simp [hij]
    · exact ⟨fun hj => ⟨hj, fun hji => hij hji.symm⟩, And.left⟩
  · refine ⟨fun hj => ⟨hj, ?_⟩, And.left⟩
    rintro rfl
    rw [hj] at hc
    cases hc

theorem PartOf.got_iff {m : Accepted} {asm : Assembler} (h : PartOf m asm) :
    asm.got = (chunks m.data).length ↔ ∀ j : Nat, asm.frags[j]? ≠ some none := by
  rw [h.got, ← h.agrees.length, Slots.filled, List.countP_eq_length]
  constructor
  · intro hall j hj
    exact absurd (hall none (List.mem_of_getElem? hj)) (by decide)
  · intro hno x hx
    obtain ⟨j, hj⟩ := List.mem_iff_getElem?.mp hx
    cases x with
    | none => exact absurd hj (hno j)
    | some c => rfl

theorem receive_packet {m : Accepted} (hs : Sized m.data) (hr : m.stream ≠ .realtime)
    (hle : (chunks m.data).length ≤ maxFragmentCount) (now : Instant) {core : Core}
    (hc : core.state.closed = false) {p : Packet} (hp : p ∈ m.packets) :
    receive now core (encode p) = handleFragment (core.touch now) p := by
  rw [receive, packet_received hs hle hp]
  exact handlePacket_fragment hc (packets_isFragment hr hp)

theorem OnlyOf.put {m : Accepted} {core : Core} (h : OnlyOf m core) {asm : Assembler}
    (hasm : PartOf m asm) :
    OnlyOf m { core with state := core.state.putAssembler m.msgId asm } where
  closed := h.closed
  keys := by
    intro id hid
    rcases (AList.mem_insert _).mp hid with rfl | hid
    · rfl
    · exact h.keys id hid
  part := by simpa [CoreState.assemblerOf, CoreState.putAssembler] using hasm

theorem OnlyOf.handleFragment {m : Accepted} {core : Core} (h : OnlyOf m core) {p : Packet}
    (hp : FragmentOf m p) :
    ∃ asm, (core.state.assemblerOf m).store p.fragIndex.toNat p.payload = .ok asm ∧ PartOf m asm ∧
      Qcp.handleFragment core p = .ok
        (if asm.got = (chunks m.data).length then
          complete { core with state := core.state.putAssembler m.msgId asm } p asm
        else { core with state := core.state.putAssembler m.msgId asm }) := by
  have hidx : p.fragIndex.toNat < (core.state.assemblerOf m).frags.length := by
    rw [h.part.agrees.length]
    exact (List.getElem?_eq_some_iff.mp hp.chunk).1
  obtain ⟨asm, hst⟩ := (store_ok_iff p.payload).mpr hidx
  refine ⟨asm, hst, h.part.store hp.chunk hst, ?_⟩
  rw [Qcp.handleFragment, if_neg (h.not_full hp), assemblerFor_eq hp, hst]
  simp only [bind, Except.bind, hp.total, ← hp.msgId]
  split_ifs <;> rfl

theorem OnlyOf.touch {m : Accepted} {core : Core} (h : OnlyOf m core) (now : Instant) :
    OnlyOf m (core.touch now) :=
  ⟨h.closed, h.keys, h.part⟩

theorem complete_again {m : Accepted} (core : Core) {p : Packet} (hp : FragmentOf m p)
    (asm : Assembler) (hd : m.msgId ∈ core.state.delivered) :
    complete core p asm = { core with ctrlTx := core.ctrlTx ++ [m.ack] } := by
  rw [complete, if_pos (hp.msgId ▸ hd), hp.stream, hp.msgId]
  rfl

theorem Finished.receive {m : Accepted} {core : Core} (h : Finished m core) (now : Instant)
    {p : Packet} (hs : Sized m.data) (hr : m.stream ≠ .realtime)
    (hle : (chunks m.data).length ≤ maxFragmentCount) (hp : p ∈ m.packets) :
    ∃ core', Qcp.receive now core (encode p) = .ok core' ∧ Finished m core' := by
  have hf := fragmentOf_of_mem_packets hs hp
  have ho := h.only.touch now
  obtain ⟨asm, -, hpart, hk⟩ := ho.handleFragment hf
  obtain ⟨n, hn⟩ := h.acks
  refine ⟨_, (receive_packet hs hr hle now h.only.closed hp).trans hk, ?_⟩
  have hput := ho.put hpart
  split_ifs
  · rw [complete_again { core.touch now with
      state := (core.touch now).state.putAssembler m.msgId asm } hf asm h.known]
    refine ⟨⟨hput.closed, hput.keys, hput.part⟩, h.known, h.deliverTx, n + 1, ?_⟩
    have hctrl : (core.touch now).ctrlTx = core.ctrlTx := rfl
    simp only [hctrl, hn, List.replicate_succ' (n := n + 1)]
  · exact ⟨hput, h.known, h.deliverTx, n, hn⟩

theorem covered_iff_none_missing {m : Accepted} {arrivals : List (Instant × Packet)}
    {asm : Assembler} (h : ∀ j : Nat, asm.frags[j]? = some none ↔
      j < (chunks m.data).length ∧ ∀ a ∈ arrivals, a.2.fragIndex.toNat ≠ j) :
    (∀ j : Nat, asm.frags[j]? ≠ some none) ↔ Covered m arrivals := by
  unfold Covered
  constructor
  · intro hnone i hi
    by_contra hno
    push Not at hno
    exact hnone i ((h i).mpr ⟨hi, hno⟩)
  · intro hcov j hj
    obtain ⟨hlt, hno⟩ := (h j).mp hj
    obtain ⟨a, ha, hidx⟩ := hcov j hlt
    exact hno a ha hidx

theorem complete_first {m : Accepted} (core : Core) {p : Packet} (hp : FragmentOf m p)
    {asm : Assembler} (hpart : PartOf m asm) (hg : asm.got = (chunks m.data).length)
    (ho : OnlyOf m core) (hd : core.state.delivered = ∅) (ht : core.state.deliverTx = [])
    (hx : core.ctrlTx = []) :
    Finished m (complete core p asm) ∧ (complete core p asm).ctrlTx = [m.ack] := by
  have hnot : p.msgId ∉ core.state.delivered := by simp [hd]
  have hctrl : (complete core p asm).ctrlTx = [m.ack] := by
    simp only [complete, if_neg hnot, Core.sendCtrl, hx, List.nil_append]
    rw [hp.stream, hp.msgId]
    rfl
  have hst : (complete core p asm).state = core.state.deliver p asm := by
    simp only [complete, if_neg hnot, Core.sendCtrl]
  refine ⟨⟨⟨?_, ?_, ?_⟩, ?_, ?_, 0, hctrl⟩, hctrl⟩
  · rw [hst]
    exact ho.closed
  · intro id hid
    rw [hst] at hid
    exact ho.keys id ((AList.mem_erase.mp hid).2)
  · have hl : (complete core p asm).state.assemblers.lookup m.msgId = none := by
      rw [hst, ← hp.msgId]
      exact AList.lookup_erase p.msgId core.state.assemblers
    rw [CoreState.assemblerOf, hl]
    exact PartOf.empty m
  · have hcap : ¬(∅ : HashMap UInt32 Unit).len + 1 > deliveredCap := by decide
    have hdel : (complete core p asm).state.delivered =
        (core.state.recordDelivered p.msgId).delivered := by
      rw [hst]
      rfl
    rw [hdel, recordDelivered_delivered hnot]
    simp only [hd, if_neg hcap, hp.msgId]
    exact (AList.mem_insert _).mpr (Or.inl rfl)
  · rw [hst]
    simp only [CoreState.deliver, hpart.whole hg, hp.msgId, hp.stream]
    exact congrArg (· ++ [m.delivery]) ht

theorem Gathering.receive {m : Accepted} {arrivals : List (Instant × Packet)} {core : Core}
    (h : Gathering m arrivals core) (now : Instant) {p : Packet} (hs : Sized m.data)
    (hr : m.stream ≠ .realtime) (hle : (chunks m.data).length ≤ maxFragmentCount)
    (hp : p ∈ m.packets) :
    ∃ core', Qcp.receive now core (encode p) = .ok core' ∧
      ((¬Covered m (arrivals ++ [(now, p)]) ∧ Gathering m (arrivals ++ [(now, p)]) core') ∨
        (Covered m (arrivals ++ [(now, p)]) ∧ Finished m core' ∧ core'.ctrlTx = [m.ack])) := by
  have hf := fragmentOf_of_mem_packets hs hp
  have ho := h.only.touch now
  obtain ⟨asm, hst, hpart, hk⟩ := ho.handleFragment hf
  have hput := ho.put hpart
  have hmissing : ∀ j : Nat, asm.frags[j]? = some none ↔ j < (chunks m.data).length ∧
      ∀ a ∈ arrivals ++ [(now, p)], a.2.fragIndex.toNat ≠ j := by
    intro j
    have hold : ((core.touch now).state.assemblerOf m).frags[j]? = some none ↔ _ := h.missing j
    rw [store_missing hst j, hold]
    simp only [List.mem_append, List.mem_singleton, or_imp, forall_and, forall_eq]
    tauto
  have hcov := hpart.got_iff.trans (covered_iff_none_missing hmissing)
  refine ⟨_, (receive_packet hs hr hle now h.only.closed hp).trans hk, ?_⟩
  split_ifs with hg
  · exact Or.inr ⟨hcov.mp hg, complete_first _ hf hpart hg hput h.delivered h.deliverTx h.ctrlTx⟩
  · refine Or.inl ⟨fun hc => hg (hcov.mpr hc), hput, h.delivered, h.deliverTx, h.ctrlTx, ?_⟩
    intro j
    simpa [CoreState.assemblerOf, CoreState.putAssembler] using hmissing j

theorem Core.Fresh.gathering {core : Core} (h : core.Fresh) (m : Accepted) :
    Gathering m [] core where
  only := by
    refine ⟨h.closed, by simp [h.assemblers], ?_⟩
    rw [CoreState.assemblerOf, h.assemblers]
    exact PartOf.empty m
  delivered := h.delivered
  deliverTx := h.deliverTx
  ctrlTx := h.ctrlTx
  missing := by
    intro j
    simp [CoreState.assemblerOf, h.assemblers, Assembler.empty, List.getElem?_replicate]

theorem arriveAll_concat {core c c' : Core} {arrivals : List (Instant × Packet)}
    {a : Instant × Packet} (hrun : arriveAll core arrivals = .ok c)
    (hok : receive a.1 c (encode a.2) = .ok c') : arriveAll core (arrivals ++ [a]) = .ok c' := by
  unfold arriveAll at hrun ⊢
  simp only [List.foldlM_append, hrun, List.foldlM_cons, List.foldlM_nil, bind, Except.bind, hok]
  rfl

theorem Covered.mono {m : Accepted} {as bs : List (Instant × Packet)} (h : Covered m as) :
    Covered m (as ++ bs) := by
  intro i hi
  obtain ⟨a, ha, hidx⟩ := h i hi
  exact ⟨a, List.mem_append_left _ ha, hidx⟩

theorem arriveAll_phase {m : Accepted} (hs : Sized m.data) (hr : m.stream ≠ .realtime)
    (hle : (chunks m.data).length ≤ maxFragmentCount) {core : Core} (hfresh : core.Fresh)
    {arrivals : List (Instant × Packet)} (h : ∀ a ∈ arrivals, a.2 ∈ m.packets) :
    ∃ core', arriveAll core arrivals = .ok core' ∧
      ((¬Covered m arrivals ∧ Gathering m arrivals core') ∨
        (Covered m arrivals ∧ Finished m core')) := by
  induction arrivals using List.reverseRecOn with
  | nil =>
    refine ⟨core, rfl, Or.inl ⟨fun hcov => ?_, hfresh.gathering m⟩⟩
    obtain ⟨a, ha, -⟩ := hcov 0 (Chunks.length_chunksOf_pos maxPayload_pos hs.1)
    cases ha
  | append_singleton as a ih =>
    have hp : a.2 ∈ m.packets := h a (by simp)
    obtain ⟨c, hrun, hphase⟩ := ih (fun b hb => h b (List.mem_append_left _ hb))
    rcases hphase with ⟨-, hg⟩ | ⟨hcov, hf⟩
    · obtain ⟨core', hok, hnext⟩ := hg.receive a.1 hs hr hle hp
      refine ⟨core', arriveAll_concat hrun hok, ?_⟩
      exact hnext.imp_right (fun hn => ⟨hn.1, hn.2.1⟩)
    · obtain ⟨core', hok, hnext⟩ := hf.receive a.1 hs hr hle hp
      refine ⟨core', arriveAll_concat hrun hok, ?_⟩
      exact Or.inr ⟨hcov.mono, hnext⟩

theorem reassembly_inverts_fragmentation {m : Accepted} (hne : m.data ≠ [])
    (hlen : m.data.length ≤ maxPayload * maxFragmentCount) (hr : m.stream ≠ .realtime)
    {core : Core} (hfresh : core.Fresh) {arrivals : List (Instant × Packet)}
    (h : ∀ a ∈ arrivals, a.2 ∈ fragments m.msgId m.data m.stream) :
    ∃ core', arriveAll core arrivals = .ok core' ∧
      (Covered m arrivals → core'.state.deliverTx = [m.delivery]) ∧
      (¬Covered m arrivals → core'.state.deliverTx = [] ∧ core'.ctrlTx = []) ∧
      ∀ pre a post, arrivals = pre ++ a :: post → ¬Covered m pre → Covered m (pre ++ [a]) →
        ∃ core', arriveAll core (pre ++ [a]) = .ok core' ∧
          core'.state.deliverTx = [m.delivery] ∧ core'.ctrlTx = [m.ack] := by
  have hle := (chunks_le_iff m.data).mpr hlen
  have hs : Sized m.data := ⟨hne, hlen.trans (Nat.mul_le_mul_left _ (by decide))⟩
  obtain ⟨core', hrun, hphase⟩ := arriveAll_phase hs hr hle hfresh h
  refine ⟨core', hrun, ?_, ?_, ?_⟩
  · intro hcov
    rcases hphase with ⟨hnot, -⟩ | ⟨-, hf⟩
    · exact absurd hcov hnot
    · exact hf.deliverTx
  · intro hnot
    rcases hphase with ⟨-, hg⟩ | ⟨hcov, -⟩
    · exact ⟨hg.deliverTx, hg.ctrlTx⟩
    · exact absurd hcov hnot
  · intro pre a post harr hbefore hafter
    have hpre : ∀ b ∈ pre, b.2 ∈ m.packets := fun b hb => h b (by simp [harr, hb])
    obtain ⟨c, hc, ⟨-, hg⟩ | ⟨hcov, -⟩⟩ := arriveAll_phase hs hr hle hfresh hpre
    · obtain ⟨c', hok, ⟨hnot, -⟩ | ⟨-, hf, hack⟩⟩ :=
        hg.receive a.1 hs hr hle (h a (by simp [harr]))
      · exact absurd hafter hnot
      · exact ⟨c', arriveAll_concat hc hok, hf.deliverTx, hack⟩
    · exact absurd hcov hbefore

theorem two_fragments_backwards_and_again :
    let m : Accepted := ⟨1, List.replicate 1383 0, .batch⟩
    let arrivals := (m.packets.reverse ++ m.packets).map (Prod.mk 0)
    ∃ core', arriveAll (newCore dialWindow dialRto 0) arrivals = .ok core' ∧
      (Covered m arrivals → core'.state.deliverTx = [m.delivery]) ∧
      (¬Covered m arrivals → core'.state.deliverTx = [] ∧ core'.ctrlTx = []) ∧
      ∀ pre a post, arrivals = pre ++ a :: post → ¬Covered m pre → Covered m (pre ++ [a]) →
        ∃ core', arriveAll (newCore dialWindow dialRto 0) (pre ++ [a]) = .ok core' ∧
          core'.state.deliverTx = [m.delivery] ∧ core'.ctrlTx = [m.ack] := by
  intro m arrivals
  refine reassembly_inverts_fragmentation ?_ ?_ (by decide) ⟨rfl, rfl, rfl, rfl, rfl⟩ ?_
  · exact List.ne_nil_of_length_pos (by rw [List.length_replicate]; decide)
  · rw [List.length_replicate]
    decide
  · intro a ha
    obtain ⟨p, hp, rfl⟩ := List.mem_map.mp ha
    simpa [Accepted.packets] using hp

end Cross233.Qcp
