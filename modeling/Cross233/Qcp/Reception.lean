import Mathlib.Tactic.Tauto
import Cross233.Library.Slots
import Cross233.Qcp.Core

namespace Cross233.Qcp

def Packet.isFragment (p : Packet) : Bool :=
  !p.has flagSyn && !p.has flagFin && !p.has flagPing && !p.has flagPong && !p.has flagAck &&
    p.has flagData && p.stream != .realtime

def Packet.isAck (p : Packet) : Bool :=
  !p.has flagSyn && !p.has flagFin && !p.has flagPing && !p.has flagPong && p.has flagAck

def CoreState.reliableDeliveries (st : CoreState) : List Delivery :=
  st.deliverTx.filter (fun d => d.stream != .realtime)

structure Frame (core core' : Core) : Prop where
  assemblers : core'.state.assemblers = core.state.assemblers
  delivered : core'.state.delivered = core.state.delivered
  reliable : core'.state.reliableDeliveries = core.state.reliableDeliveries
  nextMsgId : core'.state.nextMsgId = core.state.nextMsgId
  inFlight : ∀ id inf, core'.state.inFlight.lookup id = some inf →
    core.state.inFlight.lookup id = some inf
  dataTx : core'.dataTx = core.dataTx
  ctrlTx : ∃ cs, core'.ctrlTx = core.ctrlTx ++ cs ∧
    ∀ c ∈ cs, ∃ s id, c = encode (control flagPong s id)

theorem updateRto_eq (st : CoreState) (d : Duration) : ∃ srtt rttvar rto init,
    updateRto st d =
      { st with srttMs := srtt, rttvarMs := rttvar, rto := rto, rttInit := init } := by
  unfold updateRto
  split
  · exact ⟨_, _, _, _, rfl⟩
  · exact ⟨_, _, _, _, rfl⟩

theorem growWindow_eq (st : CoreState) : ∃ cwnd caAck,
    growWindow st = { st with cwnd := cwnd, caAck := caAck } := by
  unfold growWindow
  split_ifs
  · exact ⟨_, _, rfl⟩
  · exact ⟨_, _, rfl⟩
  · exact ⟨_, _, rfl⟩

theorem handleAck_eq (now : Instant) (st : CoreState) (msgId : UInt32) :
    ∃ srtt rttvar rto init cwnd caAck retrans, handleAck now st msgId =
      { st with
        inFlight := st.inFlight.erase msgId, srttMs := srtt, rttvarMs := rttvar, rto := rto,
        rttInit := init, cwnd := cwnd, caAck := caAck, retrans := retrans } := by
  unfold handleAck
  cases h : st.inFlight.lookup msgId with
  | none =>
    rw [AList.erase_of_notMem (AList.lookup_eq_none.mp h)]
    exact ⟨_, _, _, _, _, _, _, rfl⟩
  | some inf =>
    obtain ⟨srtt, rttvar, rto, init, hr⟩ :=
      updateRto_eq { st with inFlight := st.inFlight.erase msgId } (now - inf.sentAt)
    simp only [hr]
    split_ifs
    · obtain ⟨cwnd, caAck, hg⟩ := growWindow_eq
        { st with inFlight := st.inFlight.erase msgId, retrans := st.retrans.erase msgId }
      exact ⟨_, _, _, _, _, _, _, hg⟩
    · obtain ⟨cwnd, caAck, hg⟩ := growWindow_eq
        { st with
          inFlight := st.inFlight.erase msgId, srttMs := srtt, rttvarMs := rttvar, rto := rto,
          rttInit := init, retrans := st.retrans.erase msgId }
      exact ⟨_, _, _, _, _, _, _, hg⟩

theorem handleAck_lookup {now : Instant} (st : CoreState) {msgId id : UInt32} {inf : InFlight}
    (h : (handleAck now st msgId).inFlight.lookup id = some inf) :
    st.inFlight.lookup id = some inf := by
  obtain ⟨_, _, _, _, _, _, _, he⟩ := handleAck_eq now st msgId
  rw [he] at h
  simp only [AList.lookup_erase_eq] at h
  split_ifs at h
  exact h

theorem handleRealtime_reliable {st : CoreState} {p : Packet} (hp : p.stream = .realtime) :
    (handleRealtime st p).reliableDeliveries = st.reliableDeliveries := by
  unfold handleRealtime
  split_ifs
  · simp [CoreState.reliableDeliveries, hp]
  · rfl

theorem handlePacket_closed {now : Instant} {core : Core} (p : Packet)
    (h : core.state.closed = true) : handlePacket now core p = .ok core := by
  simp [handlePacket, h]

theorem handlePacket_fragment {now : Instant} {core : Core} {p : Packet}
    (hc : core.state.closed = false) (hp : p.isFragment = true) :
    handlePacket now core p = handleFragment (core.touch now) p := by
  simp only [Packet.isFragment, Bool.and_eq_true, Bool.not_eq_true', bne_iff_ne] at hp
  obtain ⟨⟨⟨⟨⟨⟨hs, hf⟩, hpi⟩, hpo⟩, ha⟩, hd⟩, hr⟩ := hp
  simp only [handlePacket, hc, hs, hf, hpi, hpo, ha, hd, Bool.false_eq_true, if_false,
    not_true_eq_false]
  cases hst : p.stream with
  | realtime => exact absurd hst hr
  | critical => rfl
  | batch => rfl

theorem Frame.of_eq {core core' : Core} (ha : core'.state.assemblers = core.state.assemblers)
    (hd : core'.state.delivered = core.state.delivered)
    (hr : core'.state.reliableDeliveries = core.state.reliableDeliveries)
    (hn : core'.state.nextMsgId = core.state.nextMsgId)
    (hi : ∀ id inf, core'.state.inFlight.lookup id = some inf →
      core.state.inFlight.lookup id = some inf)
    (ht : core'.dataTx = core.dataTx) (hx : core'.ctrlTx = core.ctrlTx) : Frame core core' where
  assemblers := ha
  delivered := hd
  reliable := hr
  nextMsgId := hn
  inFlight := hi
  dataTx := ht
  ctrlTx := ⟨[], by simpa using hx, by simp⟩

inductive Handled (now : Instant) (core : Core) (p : Packet) (core' : Core) : Prop where
  | ignored (hc : core.state.closed = true) (h : core' = core)
  | syn (hc : core.state.closed = false)
      (h : core' = { core.touch now with
        state := { (core.touch now).state with handshaked := true } })
  | fin (hc : core.state.closed = false) (hf : p.has flagFin = true)
      (h : core' = { core.touch now with
        state := { (core.touch now).state with finReceived := true, closed := true } })
  | ping (hc : core.state.closed = false)
      (h : core' = (core.touch now).sendCtrl (control flagPong p.stream p.msgId))
  | touched (hc : core.state.closed = false) (h : core' = core.touch now)
  | ack (hc : core.state.closed = false) (ha : p.isAck = true)
      (h : core' = { core.touch now with
        state := handleAck now (core.touch now).state p.msgId })
  | realtime (hc : core.state.closed = false) (hs : p.stream = .realtime)
      (h : core' = { core.touch now with state := handleRealtime (core.touch now).state p })
  | fragment (hc : core.state.closed = false) (hf : p.isFragment = true)
      (h : handleFragment (core.touch now) p = .ok core')

theorem handlePacket_cases {now : Instant} {core core' : Core} {p : Packet}
    (h : handlePacket now core p = .ok core') : Handled now core p core' := by
  cases hc : core.state.closed with
  | true =>
    rw [handlePacket_closed p hc] at h
    cases h
    exact .ignored hc rfl
  | false =>
    by_cases hf : p.isFragment = true
    · rw [handlePacket_fragment hc hf] at h
      exact .fragment hc hf h
    · simp only [handlePacket, hc, Bool.false_eq_true, if_false] at h
      split_ifs at h with hs hfin hpi hpo ha hd
      · cases h
        exact .syn hc rfl
      · cases h
        exact .fin hc hfin rfl
      · cases h
        exact .ping hc rfl
      · cases h
        exact .touched hc rfl
      · cases h
        exact .ack hc (by simp_all [Packet.isAck]) rfl
      · cases hst : p.stream with
        | realtime =>
          simp only [hst] at h
          cases h
          exact .realtime hc hst rfl
        | critical => simp_all [Packet.isFragment]
        | batch => simp_all [Packet.isFragment]
      · cases h
        exact .touched hc rfl

theorem handlePacket_total (now : Instant) (core : Core) {p : Packet}
    (h : core.state.closed = true ∨ p.isFragment = false) :
    ∃ core', handlePacket now core p = .ok core' := by
  cases hc : core.state.closed with
  | true => exact ⟨core, handlePacket_closed p hc⟩
  | false =>
    have hp : p.isFragment = false := h.resolve_left (by simp [hc])
    simp only [handlePacket, hc, Bool.false_eq_true, if_false]
    split_ifs with hs hf hpi hpo ha hd
    · exact ⟨_, rfl⟩
    · exact ⟨_, rfl⟩
    · exact ⟨_, rfl⟩
    · exact ⟨_, rfl⟩
    · exact ⟨_, rfl⟩
    · cases hst : p.stream with
      | realtime => exact ⟨_, rfl⟩
      | critical => simp_all [Packet.isFragment]
      | batch => simp_all [Packet.isFragment]
    · exact ⟨_, rfl⟩

theorem handleRealtime_eq (st : CoreState) (p : Packet) : ∃ last tx,
    handleRealtime st p = { st with lastRealtime := last, deliverTx := tx } := by
  unfold handleRealtime
  split_ifs
  · exact ⟨_, _, rfl⟩
  · exact ⟨_, _, rfl⟩

theorem handlePacket_frame (now : Instant) (core : Core) {p : Packet}
    (h : core.state.closed = true ∨ p.isFragment = false) :
    ∃ core', handlePacket now core p = .ok core' ∧ Frame core core' := by
  obtain ⟨core', hok⟩ := handlePacket_total now core h
  refine ⟨core', hok, ?_⟩
  have same (core' : Core) (ha : core'.state.assemblers = core.state.assemblers)
      (hd : core'.state.delivered = core.state.delivered)
      (hr : core'.state.reliableDeliveries = core.state.reliableDeliveries)
      (hn : core'.state.nextMsgId = core.state.nextMsgId)
      (hi : core'.state.inFlight = core.state.inFlight)
      (ht : core'.dataTx = core.dataTx) (hx : core'.ctrlTx = core.ctrlTx) : Frame core core' :=
    Frame.of_eq ha hd hr hn (fun id inf hl => by rwa [hi] at hl) ht hx
  cases handlePacket_cases hok with
  | ignored hc h => exact h ▸ same core rfl rfl rfl rfl rfl rfl rfl
  | syn hc h => exact h ▸ same _ rfl rfl rfl rfl rfl rfl rfl
  | fin hc hf h => exact h ▸ same _ rfl rfl rfl rfl rfl rfl rfl
  | touched hc h => exact h ▸ same _ rfl rfl rfl rfl rfl rfl rfl
  | ping hc h =>
    rw [h]
    refine ⟨rfl, rfl, rfl, rfl, fun _ _ hl => hl, rfl, [_], rfl, ?_⟩
    intro c hc
    exact ⟨p.stream, p.msgId, List.mem_singleton.mp hc⟩
  | ack hc ha h =>
    obtain ⟨_, _, _, _, _, _, _, he⟩ := handleAck_eq now (core.touch now).state p.msgId
    rw [h]
    refine Frame.of_eq ?_ ?_ ?_ ?_ (fun id inf hl => ?_) rfl rfl
    · rw [he]; rfl
    · rw [he]; rfl
    · rw [he]; rfl
    · rw [he]; rfl
    · exact handleAck_lookup (core.touch now).state hl
  | realtime hc hs h =>
    have hrel : (handleRealtime (core.touch now).state p).reliableDeliveries =
        core.state.reliableDeliveries := handleRealtime_reliable hs
    obtain ⟨last, tx, he⟩ := handleRealtime_eq (core.touch now).state p
    rw [he] at h hrel
    exact h ▸ same _ rfl rfl hrel rfl rfl rfl rfl
  | fragment hc hf hk =>
    rcases ‹core.state.closed = true ∨ p.isFragment = false› with h | h
    · rw [hc] at h
      cases h
    · rw [hf] at h
      cases h

theorem recordDelivered_delivered {st : CoreState} {id : UInt32} (h : id ∉ st.delivered) :
    (st.recordDelivered id).delivered =
      if st.delivered.len + 1 > deliveredCap then ∅ else st.delivered.insert id () := by
  simp only [CoreState.recordDelivered, AList.len_insert_of_notMem () h]

theorem store_cases {asm asm' : Assembler} {i : Nat} {payload : Bytes}
    (h : asm.store i payload = .ok asm') :
    (asm.frags[i]? = some none ∧ asm' = ⟨asm.frags.set i (some payload), asm.got + 1⟩) ∨
      (∃ c, asm.frags[i]? = some (some c) ∧ asm' = asm) := by
  unfold Assembler.store at h
  split at h
  · cases h
  · next hs => cases h; exact Or.inl ⟨hs, rfl⟩
  · next c hs => cases h; exact Or.inr ⟨c, hs, rfl⟩

theorem store_ok_iff {asm : Assembler} {i : Nat} (payload : Bytes) :
    (∃ asm', asm.store i payload = .ok asm') ↔ i < asm.frags.length := by
  unfold Assembler.store
  split
  · next hs => simpa using hs
  · next hs => simpa using (List.getElem?_eq_some_iff.mp hs).1
  · next c hs => simpa using (List.getElem?_eq_some_iff.mp hs).1

theorem handleFragment_full {core : Core} {p : Packet} (h : core.state.TableFull p.msgId) :
    handleFragment core p = .ok core := by
  simp [handleFragment, h]

theorem handleFragment_cases {core core' : Core} {p : Packet}
    (h : handleFragment core p = .ok core') (hfull : ¬core.state.TableFull p.msgId) :
    ∃ asm, (core.state.assemblerFor p).store p.fragIndex.toNat p.payload = .ok asm ∧
      ((asm.got ≠ p.fragTotal.toNat ∧
          core' = { core with state := core.state.putAssembler p.msgId asm }) ∨
        (asm.got = p.fragTotal.toNat ∧
          core' = complete { core with state := core.state.putAssembler p.msgId asm } p asm)) := by
  rw [handleFragment, if_neg hfull] at h
  cases hs : (core.state.assemblerFor p).store p.fragIndex.toNat p.payload with
  | error e => simp [hs, bind, Except.bind] at h
  | ok asm =>
    simp only [hs, bind, Except.bind] at h
    split_ifs at h with hg
    · cases h
      exact ⟨asm, rfl, Or.inr ⟨hg, rfl⟩⟩
    · cases h
      exact ⟨asm, rfl, Or.inl ⟨hg, rfl⟩⟩

theorem handleFragment_eq {core core' : Core} {p : Packet} (h : handleFragment core p = .ok core') :
    ∃ asms delivered ds acks, core' = { core with
        state := { core.state with
          assemblers := asms
          delivered := delivered
          deliverTx := core.state.deliverTx ++ ds }
        ctrlTx := core.ctrlTx ++ acks } ∧
      (∀ d ∈ ds, d.stream = p.stream) ∧
      ∀ b ∈ acks, b = encode (control flagAck p.stream p.msgId) := by
  by_cases hfull : core.state.TableFull p.msgId
  · rw [handleFragment_full hfull] at h
    cases h
    exact ⟨core.state.assemblers, core.state.delivered, [], [], by simp, by simp, by simp⟩
  · obtain ⟨asm, -, ⟨-, rfl⟩ | ⟨-, rfl⟩⟩ := handleFragment_cases h hfull
    · refine ⟨core.state.assemblers.insert p.msgId asm, core.state.delivered, [], [], ?_, by simp,
        by simp⟩
      simp [CoreState.putAssembler]
    · unfold complete
      simp only
      split_ifs
      · refine ⟨core.state.assemblers.insert p.msgId asm, core.state.delivered, [], [_], ?_,
          by simp, fun b hb => List.mem_singleton.mp hb⟩
        simp [CoreState.putAssembler, Core.sendCtrl]
      · exact ⟨_, _, [_], [_], rfl, by simp, fun b hb => List.mem_singleton.mp hb⟩

theorem handleFragment_ok_iff {core : Core} {p : Packet} (hfull : ¬core.state.TableFull p.msgId) :
    (∃ core', handleFragment core p = .ok core') ↔
      p.fragIndex.toNat < (core.state.assemblerFor p).frags.length := by
  rw [← store_ok_iff p.payload]
  constructor
  · rintro ⟨core', h⟩
    obtain ⟨asm, hs, -⟩ := handleFragment_cases h hfull
    exact ⟨asm, hs⟩
  · rintro ⟨asm, hs⟩
    rw [handleFragment, if_neg hfull]
    simp only [hs, bind, Except.bind]
    split_ifs
    · exact ⟨_, rfl⟩
    · exact ⟨_, rfl⟩

theorem isFragment_hasData {p : Packet} (h : p.isFragment = true) : p.has flagData = true := by
  simp only [Packet.isFragment, Bool.and_eq_true] at h
  exact h.1.2

theorem store_length {asm asm' : Assembler} {i : Nat} {payload : Bytes}
    (h : asm.store i payload = .ok asm') : asm'.frags.length = asm.frags.length := by
  rcases store_cases h with ⟨-, rfl⟩ | ⟨c, -, rfl⟩
  · simp
  · rfl

theorem complete_assemblers (core : Core) (p : Packet) (asm : Assembler) :
    (complete core p asm).state.assemblers = core.state.assemblers ∨
      (complete core p asm).state.assemblers = core.state.assemblers.erase p.msgId := by
  unfold complete
  simp only
  split_ifs
  · exact Or.inl rfl
  · exact Or.inr rfl

def Assembler.first (p : Packet) : Assembler :=
  { frags := (List.replicate p.fragTotal.toNat none).set p.fragIndex.toNat (some p.payload)
    got := 1 }

theorem first_length (p : Packet) : (Assembler.first p).frags.length = p.fragTotal.toNat := by
  simp [Assembler.first]

theorem handleFragment_first (core : Core) {p : Packet}
    (hidx : p.fragIndex < p.fragTotal) (hl : core.state.assemblers.lookup p.msgId = none)
    (hlen : core.state.assemblers.len < maxAssemblers) :
    handleFragment core p =
      let core := { core with state := core.state.putAssembler p.msgId (Assembler.first p) }
      .ok (if p.fragTotal.toNat = 1 then complete core p (Assembler.first p) else core) := by
  have hfull : ¬core.state.TableFull p.msgId := fun h => absurd h.2 (not_le.mpr hlen)
  have hslot : (List.replicate p.fragTotal.toNat (none : Option Bytes))[p.fragIndex.toNat]? =
      some none := by
    simpa [List.getElem?_replicate] using UInt16.lt_iff_toNat_lt.mp hidx
  have hstore : (core.state.assemblerFor p).store p.fragIndex.toNat p.payload =
      .ok (Assembler.first p) := by
    simp [CoreState.assemblerFor, hl, Assembler.store, Assembler.empty, hslot, Assembler.first]
  rw [handleFragment, if_neg hfull, hstore]
  simp only [bind, Except.bind]
  have hgot : (Assembler.first p).got = 1 := rfl
  by_cases h1 : p.fragTotal.toNat = 1
  · rw [if_pos (by rw [hgot, h1]), if_pos h1]
  · rw [if_neg (by rw [hgot]; exact fun h => h1 h.symm), if_neg h1]

theorem single_delivers (now : Instant) (core : Core) {p : Packet}
    (hc : core.state.closed = false) (hp : p.isFragment = true) (hidx : p.fragIndex < p.fragTotal)
    (hl : core.state.assemblers.lookup p.msgId = none)
    (hlen : core.state.assemblers.len < maxAssemblers)
    (h1 : p.fragTotal.toNat = 1) (hd : p.msgId ∉ core.state.delivered) :
    handlePacket now core p = .ok (Core.sendCtrl { core.touch now with
      state := ((core.touch now).state.putAssembler p.msgId (Assembler.first p)).deliver p
        (Assembler.first p) } (control flagAck p.stream p.msgId)) := by
  have hd' : p.msgId ∉
      ((core.touch now).state.putAssembler p.msgId (Assembler.first p)).delivered := hd
  rw [handlePacket_fragment hc hp, handleFragment_first (core.touch now) hidx hl hlen]
  simp only [if_pos h1, complete, if_neg hd']

theorem control_has (f g : UInt8) (s : Stream) (id : UInt32) :
    (control f s id).has g = (f &&& g != 0) := rfl

theorem handlePacket_ack (now : Instant) {core : Core} (s : Stream) (id : UInt32)
    (hc : core.state.closed = false) :
    handlePacket now core (control flagAck s id) = .ok { core.touch now with
      state := handleAck now (core.touch now).state id } := by
  have hs : (flagAck &&& flagSyn != 0) = false := by decide
  have hf : (flagAck &&& flagFin != 0) = false := by decide
  have hpi : (flagAck &&& flagPing != 0) = false := by decide
  have hpo : (flagAck &&& flagPong != 0) = false := by decide
  have ha : (flagAck &&& flagAck != 0) = true := by decide
  simp only [handlePacket, hc, control_has, hs, hf, hpi, hpo, ha, Bool.false_eq_true, if_false,
    if_true]
  rfl

theorem growWindow_pos {st : CoreState} (h : 0 < st.cwnd) : 0 < (growWindow st).cwnd := by
  have hmin : 0 < min (st.cwnd + 1) maxCwnd := lt_min (Nat.succ_pos _) (by decide)
  unfold growWindow
  split_ifs
  · exact hmin
  · exact hmin
  · exact h

theorem handleAck_cwnd_pos (now : Instant) (st : CoreState) (id : UInt32) (h : 0 < st.cwnd) :
    0 < (handleAck now st id).cwnd := by
  unfold handleAck
  split
  · exact h
  · next inf _ =>
    apply growWindow_pos
    obtain ⟨_, _, _, _, hr⟩ :=
      updateRto_eq { st with inFlight := st.inFlight.erase id } (now - inf.sentAt)
    simp only [hr]
    split_ifs <;> exact h

end Cross233.Qcp
