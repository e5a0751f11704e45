import Cross233.Qcp.Duplicates

namespace Cross233.Qcp

theorem handleFragment_keeps_closed {core core' : Core} {p : Packet}
    (h : handleFragment core p = .ok core') : core'.state.closed = core.state.closed := by
  obtain ⟨_, _, _, _, rfl, -, -⟩ := handleFragment_eq h
  rfl

theorem handlePacket_closes {now : Instant} {core core' : Core} {p : Packet}
    (h : handlePacket now core p = .ok core') (hcl : core'.state.closed = true)
    (hfin : p.has flagFin = false) : core.state.closed = true := by
  cases handlePacket_cases h with
  | ignored hc h => exact hc
  | fin hc hf h =>
    rw [hfin] at hf
    cases hf
  | ack hc ha h =>
    obtain ⟨_, _, _, _, _, _, _, he⟩ := handleAck_eq now (core.touch now).state p.msgId
    rw [h, he] at hcl
    exact hcl
  | realtime hc hs h =>
    obtain ⟨last, tx, he⟩ := handleRealtime_eq (core.touch now).state p
    rw [h, he] at hcl
    exact hcl
  | fragment hc hf h =>
    rw [handleFragment_keeps_closed h] at hcl
    exact hcl
  | syn hc h | ping hc h | touched hc h =>
    rw [h] at hcl
    exact hcl

def CoreState.Holds (st : CoreState) (m : Accepted) (i : Nat) : Prop :=
  m.delivery ∈ st.reliableDeliveries ∨
    ∃ asm c, st.assemblers.lookup m.msgId = some asm ∧ asm.frags[i]? = some (some c)

def CoreState.Unfinished (st : CoreState) : Prop :=
  ∀ id asm, st.assemblers.lookup id = some asm →
    (∃ d ∈ st.reliableDeliveries, d.msgId = id) ∨ asm.got ≠ asm.frags.length

theorem store_slot {asm asm' : Assembler} {i : Nat} {payload : Bytes}
    (h : asm.store i payload = .ok asm') : ∃ c, asm'.frags[i]? = some (some c) := by
  rcases store_cases h with ⟨hnone, rfl⟩ | ⟨c, hc, rfl⟩
  · refine ⟨payload, ?_⟩
    simp [(List.getElem?_eq_some_iff.mp hnone).1]
  · exact ⟨c, hc⟩

theorem store_keeps {asm asm' : Assembler} {i j : Nat} {payload c : Bytes}
    (h : asm.store i payload = .ok asm') (hj : asm.frags[j]? = some (some c)) :
    asm'.frags[j]? = some (some c) := by
  rcases store_cases h with ⟨hnone, rfl⟩ | ⟨-, -, rfl⟩
  · rw [List.getElem?_set_ne]
    · exact hj
    · rintro rfl
      rw [hnone] at hj
      cases hj
  · exact hj

theorem delivered_of_id {log : List Accepted} (hu : UniqueIds log) {st : CoreState}
    (h : ReceiverInv log st) {m : Accepted} (hm : m ∈ log) {d : Delivery}
    (hd : d ∈ st.reliableDeliveries) (hid : d.msgId = m.msgId) :
    m.delivery ∈ st.reliableDeliveries := by
  obtain ⟨m', hm', rfl⟩ := h.reliable d hd
  rw [hu m hm m' hm' hid.symm]
  exact hd

theorem delivered_of_holds {log : List Accepted} (hu : UniqueIds log) {st : CoreState}
    (h : ReceiverInv log st) (hun : st.Unfinished) {m : Accepted} (hm : m ∈ log)
    (hs : Sized m.data) (hall : ∀ i < (chunks m.data).length, st.Holds m i) :
    m.delivery ∈ st.reliableDeliveries := by
  by_contra hnot
  have hpos : 0 < (chunks m.data).length := Chunks.length_chunksOf_pos maxPayload_pos hs.1
  have hslot : ∀ i < (chunks m.data).length, ∃ asm c, st.assemblers.lookup m.msgId = some asm ∧
      asm.frags[i]? = some (some c) := fun i hi => (hall i hi).resolve_left hnot
  obtain ⟨asm, -, hl, -⟩ := hslot 0 hpos
  obtain ⟨m', hm', hid, hpart⟩ := h.assemblers m.msgId asm hl
  obtain rfl : m' = m := hu m' hm' m hm hid
  have hfull : Slots.filled asm.frags = asm.frags.length := by
    refine List.countP_eq_length.mpr ?_
    intro x hx
    obtain ⟨i, hi⟩ := List.mem_iff_getElem?.mp hx
    have hlt := (List.getElem?_eq_some_iff.mp hi).1
    obtain ⟨asm', c, hl', hc⟩ := hslot i (hpart.agrees.length ▸ hlt)
    rw [hl] at hl'
    cases hl'
    rw [hi] at hc
    cases hc
    rfl
  rcases hun m'.msgId asm hl with ⟨d, hd, hid'⟩ | hne
  · exact hnot (delivered_of_id hu h hm hd hid')
  · exact hne (hpart.got.trans hfull)

structure Advances (log : List Accepted) (st st' : CoreState) : Prop where
  holds : ∀ m ∈ log, ∀ i, st.Holds m i → st'.Holds m i
  unfinished : st.Unfinished → st'.Unfinished

theorem Advances.of_eq {st st' : CoreState} (log : List Accepted)
    (ha : st'.assemblers = st.assemblers)
    (hr : st'.reliableDeliveries = st.reliableDeliveries) : Advances log st st' where
  holds := by
    intro m _ i hi
    unfold CoreState.Holds
    rw [hr, ha]
    exact hi
  unfinished := by
    intro hun
    unfold CoreState.Unfinished
    rw [hr, ha]
    exact hun

theorem assemblerFor_keeps {st : CoreState} {p : Packet} {asm asm' : Assembler} {i : Nat}
    {c : Bytes} (hs : (st.assemblerFor p).store p.fragIndex.toNat p.payload = .ok asm')
    (hl : st.assemblers.lookup p.msgId = some asm) (hi : asm.frags[i]? = some (some c)) :
    asm'.frags[i]? = some (some c) := by
  refine store_keeps hs ?_
  rw [CoreState.assemblerFor, hl]
  exact hi

theorem putAssembler_advances {log : List Accepted} {st : CoreState} {p : Packet}
    {asm : Assembler} (hs : (st.assemblerFor p).store p.fragIndex.toNat p.payload = .ok asm)
    (hdone : (∃ d ∈ st.reliableDeliveries, d.msgId = p.msgId) ∨ asm.got ≠ asm.frags.length) :
    Advances log st (st.putAssembler p.msgId asm) where
  holds := by
    intro m _ i hi
    rcases hi with hi | ⟨a, c, hl, hc⟩
    · exact Or.inl hi
    · by_cases hid : m.msgId = p.msgId
      · refine Or.inr ⟨asm, c, ?_, assemblerFor_keeps hs (hid ▸ hl) hc⟩
        simp [CoreState.putAssembler, AList.lookup_insert_eq, hid]
      · refine Or.inr ⟨a, c, ?_, hc⟩
        simpa [CoreState.putAssembler, AList.lookup_insert_eq, hid] using hl
  unfinished := by
    intro hun id a hl
    simp only [CoreState.putAssembler, AList.lookup_insert_eq] at hl
    split_ifs at hl with hid
    · cases hl
      rw [hid]
      exact hdone
    · exact hun id a hl

theorem complete_fresh {core : Core} {m : Accepted} {p : Packet} {asm : Assembler}
    (hp : FragmentOf m p) (hf : p.isFragment = true) (hpart : PartOf m asm)
    (hg : asm.got = p.fragTotal.toNat) (hd : p.msgId ∉ core.state.delivered) :
    (complete { core with state := core.state.putAssembler p.msgId asm } p
        asm).state.reliableDeliveries = core.state.reliableDeliveries ++ [m.delivery] ∧
      (complete { core with state := core.state.putAssembler p.msgId asm } p
        asm).state.assemblers = (core.state.assemblers.insert p.msgId asm).erase p.msgId := by
  have hd' : p.msgId ∉ (core.state.putAssembler p.msgId asm).delivered := hd
  simp only [complete, if_neg hd']
  refine ⟨reliable_append_delivery _ (hp.stream ▸ isFragment_stream hf) ?_, rfl⟩
  simp only [Core.sendCtrl, CoreState.deliver, hpart.whole (hg.trans hp.total), Accepted.delivery,
    ← hp.msgId, ← hp.stream]
  rfl

theorem deliver_advances {log : List Accepted} (hu : UniqueIds log) {st st' : CoreState}
    {m : Accepted} {p : Packet} {asm : Assembler} (hm : m ∈ log) (hp : FragmentOf m p)
    (hrel : st'.reliableDeliveries = st.reliableDeliveries ++ [m.delivery])
    (hasm : st'.assemblers = (st.assemblers.insert p.msgId asm).erase p.msgId) :
    Advances log st st' where
  holds := by
    intro m' hm' i hi
    by_cases hid : m'.msgId = p.msgId
    · refine Or.inl ?_
      rw [hu m' hm' m hm (hid.trans hp.msgId), hrel]
      simp
    · rcases hi with hi | ⟨a, c, hl, hc⟩
      · refine Or.inl ?_
        rw [hrel]
        exact List.mem_append_left _ hi
      · refine Or.inr ⟨a, c, ?_, hc⟩
        rwa [hasm, AList.lookup_erase_eq, if_neg hid, AList.lookup_insert_eq, if_neg hid]
  unfinished := by
    intro hun id a hl
    rw [hasm, AList.lookup_erase_eq] at hl
    split_ifs at hl with hne
    rw [AList.lookup_insert_eq, if_neg hne] at hl
    rcases hun id a hl with ⟨d, hd, hid⟩ | hne'
    · refine Or.inl ⟨d, ?_, hid⟩
      rw [hrel]
      exact List.mem_append_left _ hd
    · exact Or.inr hne'

theorem fragment_holds {log : List Accepted} (hu : UniqueIds log) (core : Core) {core' : Core}
    (hinv : ReceiverInv log core.state)
    (hk : core.state.Known)
    {m : Accepted} {p : Packet} (hm : m ∈ log) (hp : FragmentOf m p) (hf : p.isFragment = true)
    (hfull : ¬core.state.TableFull p.msgId) (hok : handleFragment core p = .ok core') :
    core'.state.Holds m p.fragIndex.toNat ∧ Advances log core.state core'.state := by
  obtain ⟨asm, hst, hcase⟩ := handleFragment_cases hok hfull
  have hpart := (hinv.assemblerFor hu hm hp).store hp.chunk hst
  have hlen : asm.frags.length = p.fragTotal.toNat := by rw [hpart.agrees.length, hp.total]
  obtain ⟨c, hc⟩ := store_slot hst
  have hput : (core.state.putAssembler p.msgId asm).Holds m p.fragIndex.toNat := by
    refine Or.inr ⟨asm, c, ?_, hc⟩
    simp [CoreState.putAssembler, hp.msgId]
  rcases hcase with ⟨hg, rfl⟩ | ⟨hg, rfl⟩
  · exact ⟨hput, putAssembler_advances hst (Or.inr (by rw [hlen]; exact hg))⟩
  · by_cases hd : p.msgId ∈ core.state.delivered
    · have hd' : p.msgId ∈ (core.state.putAssembler p.msgId asm).delivered := hd
      simp only [complete, if_pos hd']
      exact ⟨hput, putAssembler_advances hst (Or.inl (hk _ hd))⟩
    · obtain ⟨hrel, hasm⟩ := complete_fresh hp hf hpart hg hd
      refine ⟨Or.inl ?_, deliver_advances hu hm hp hrel hasm⟩
      rw [hrel]
      simp

theorem receive_taken {log : List Accepted} (hu : UniqueIds log)
    (hsize : ∀ m ∈ log, Sized m.data) (now : Instant) {ep : Endpoint}
    (hinv : ReceiverInv log ep.core.state) (hk : ep.core.state.Known) {d : Bytes} {p : Packet}
    (hd : Emitted log d) (hp : recvFrom d = some p) (ht : ep.core.state.TakesIn p) :
    Advances log ep.core.state (ep.receive now d).core.state ∧
      ∀ m ∈ log, FragmentOf m p → (ep.receive now d).core.state.Holds m p.fragIndex.toNat := by
  obtain ⟨hopen, hf, hfull⟩ := ht
  obtain ⟨core, hok, -, -⟩ := handlePacket_honest hu now hinv (p := p) (recv_emitted hsize hd hp)
  obtain ⟨m, hm, hfrag⟩ := recv_emitted hsize hd hp hf
  rw [receive_ok hp hok]
  rw [handlePacket_fragment hopen hf] at hok
  obtain ⟨hholds, hadv⟩ := fragment_holds hu (ep.core.touch now) ⟨hinv.assemblers,
    hinv.reliable⟩ hk hm hfrag hf hfull hok
  refine ⟨⟨hadv.holds, hadv.unfinished⟩, ?_⟩
  intro m' hm' hfrag'
  rw [hu m' hm' m hm (hfrag'.msgId.symm.trans hfrag.msgId)]
  exact hholds

structure Rested (st st' : CoreState) : Prop where
  reliable : st'.reliableDeliveries = st.reliableDeliveries
  assemblers : st'.assemblers = st.assemblers ∨ st'.assemblers = ∅
  listening : st'.closed = false → st.closed = false ∧ st'.assemblers = st.assemblers

theorem SameReceiver.rested {ep ep' : Endpoint} (h : SameReceiver ep ep') :
    Rested ep.core.state ep'.core.state :=
  ⟨h.quiet.reliable, h.assemblers, h.listening⟩

theorem receive_untaken {log : List Accepted} (hu : UniqueIds log)
    (hsize : ∀ m ∈ log, Sized m.data) (now : Instant) {ep : Endpoint}
    (hinv : ReceiverInv log ep.core.state) {d : Bytes} (hd : Emitted log d)
    (ht : ∀ p, recvFrom d = some p → ¬ep.core.state.TakesIn p) :
    Rested ep.core.state (ep.receive now d).core.state := by
  cases hp : recvFrom d with
  | none =>
    rw [receive_none hp]
    exact ⟨rfl, Or.inl rfl, fun h => ⟨h, rfl⟩⟩
  | some p =>
    obtain ⟨core, hok, -, -⟩ := handlePacket_honest hu now hinv (p := p) (recv_emitted hsize hd hp)
    rw [receive_ok hp hok]
    cases hc : ep.core.state.closed with
    | true =>
      obtain rfl : ep.core = core := Except.ok.inj ((handlePacket_closed p hc).symm.trans hok)
      exact ⟨rfl, Or.inl rfl, fun h => ⟨h, rfl⟩⟩
    | false =>
      cases hf : p.isFragment with
      | false =>
        obtain ⟨core', hok', hframe⟩ := handlePacket_frame now ep.core (Or.inr hf)
        obtain rfl : core' = core := Except.ok.inj (hok'.symm.trans hok)
        exact ⟨hframe.reliable, Or.inl hframe.assemblers, fun _ => ⟨hc, hframe.assemblers⟩⟩
      | true =>
        have hfull : (ep.core.touch now).state.TableFull p.msgId := by
          by_contra hfull
          exact ht p hp ⟨hc, hf, hfull⟩
        rw [handlePacket_fragment hc hf, handleFragment_full hfull] at hok
        cases hok
        exact ⟨rfl, Or.inl rfl, fun _ => ⟨hc, rfl⟩⟩

theorem receive_fragment {c c' : Connection} {s : Side} {i : Nat} {now : Instant} {d : Bytes}
    {p : Packet} (h : c.step (.receive s i now) = some c') (hd : (c.wire s.other)[i]? = some d)
    (hp : recvFrom d = some p) (hf : p.isFragment = true) :
    c' = c.setEp s ((c.ep s).receive now d) := by
  have hrecv : c.receive s now d = some c' := by
    rwa [Connection.step, hd, Option.bind_some] at h
  obtain ⟨-, hc | ⟨-, ⟨q, hq, hsyn⟩, -⟩⟩ := connection_receive_cases hrecv
  · exact hc
  · obtain rfl : p = q := Option.some.inj (hp.symm.trans hq)
    simp [Packet.isFragment, hsyn] at hf

theorem delivered_known {c : Connection} (h : SenderDeduplicated c) {r : Side}
    (hlen : (c.ep r.other).accepted.length < maxSends) : (c.ep r).core.state.Known := by
  intro id hid
  obtain ⟨d, hd, hdid⟩ := List.mem_map.mp (((h.2 r hlen).current id).mp hid)
  exact ⟨d, List.mem_of_mem_drop (List.mem_of_mem_take hd), hdid⟩

end Cross233.Qcp
