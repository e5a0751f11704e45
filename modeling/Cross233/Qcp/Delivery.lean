import Cross233.Qcp.Connection

namespace Cross233.Qcp

def Accepted.delivery (m : Accepted) : Delivery := ⟨m.msgId, m.data, m.stream⟩

def UniqueIds (log : List Accepted) : Prop :=
  ∀ m ∈ log, ∀ m' ∈ log, m.msgId = m'.msgId → m = m'

theorem Numbered.uniqueIds {ep : Endpoint} (h : Numbered ep)
    (hlen : ep.accepted.length < maxSends) :
    UniqueIds ep.accepted := fun _ hm _ hm' hid => h.unique hlen hm hm' hid

theorem UniqueIds.cons {log : List Accepted} (h : UniqueIds log) {m : Accepted}
    (hm : ∀ m' ∈ log, m'.msgId = m.msgId → m' = m) : UniqueIds (m :: log) := by
  intro a ha b hb hid
  rcases List.mem_cons.mp ha with ham | hal
  · rcases List.mem_cons.mp hb with hbm | hbl
    · rw [ham, hbm]
    · rw [ham, hm b hbl (hid.symm.trans (congrArg Accepted.msgId ham))]
  · rcases List.mem_cons.mp hb with hbm | hbl
    · rw [hbm, hm a hal (hid.trans (congrArg Accepted.msgId hbm))]
    · exact h a hal b hbl hid

structure PartOf (m : Accepted) (asm : Assembler) : Prop where
  agrees : Slots.Agrees asm.frags (chunks m.data)
  got : asm.got = Slots.filled asm.frags

structure ReceiverInv (log : List Accepted) (st : CoreState) : Prop where
  assemblers : ∀ id asm, st.assemblers.lookup id = some asm → ∃ m ∈ log, m.msgId = id ∧ PartOf m asm
  reliable : ∀ d ∈ st.reliableDeliveries, ∃ m ∈ log, d = m.delivery

theorem PartOf.empty (m : Accepted) : PartOf m (Assembler.empty (chunks m.data).length) where
  agrees := Slots.agrees_replicate _
  got := by simp [Assembler.empty]

theorem PartOf.store {m : Accepted} {asm asm' : Assembler} {i : Nat} {payload : Bytes}
    (h : PartOf m asm) (hc : (chunks m.data)[i]? = some payload)
    (hs : asm.store i payload = .ok asm') : PartOf m asm' := by
  rcases store_cases hs with ⟨hnone, rfl⟩ | ⟨c, -, rfl⟩
  · exact ⟨h.agrees.set hc, by rw [Slots.filled_set _ hnone, h.got]⟩
  · exact h

theorem PartOf.whole {m : Accepted} {asm : Assembler} (h : PartOf m asm)
    (hg : asm.got = (chunks m.data).length) : asm.frags.reduceOption.flatten = m.data := by
  have hfull : Slots.filled asm.frags = asm.frags.length := by
    rw [← h.got, hg, h.agrees.length]
  rw [Slots.reduceOption_of_filled h.agrees hfull, flatten_chunks]

theorem ReceiverInv.assemblerFor {log : List Accepted} {st : CoreState} (h : ReceiverInv log st)
    (hu : UniqueIds log) {m : Accepted} {p : Packet} (hm : m ∈ log) (hp : FragmentOf m p) :
    PartOf m (st.assemblerFor p) := by
  unfold CoreState.assemblerFor
  cases hl : st.assemblers.lookup p.msgId with
  | none =>
    simp only [Option.getD_none, hp.total]
    exact PartOf.empty m
  | some asm =>
    obtain ⟨m', hm', hid, hpart⟩ := h.assemblers p.msgId asm hl
    rw [hu m hm m' hm' (hp.msgId.symm.trans hid.symm)]
    exact hpart

def CoreState.Completes (st : CoreState) (p : Packet) : Prop :=
  ¬st.TableFull p.msgId ∧ ∀ j < p.fragTotal.toNat, j ≠ p.fragIndex.toNat →
    (st.assemblerFor p).frags[j]?.join.isSome = true

instance (st : CoreState) (p : Packet) : Decidable (st.Completes p) :=
  inferInstanceAs (Decidable (_ ∧ _))

theorem completes_of_store {st : CoreState} {m : Accepted} {p : Packet} {asm : Assembler}
    (hfull : ¬st.TableFull p.msgId) (hp : FragmentOf m p) (hpart : PartOf m asm)
    (hs : (st.assemblerFor p).store p.fragIndex.toNat p.payload = .ok asm)
    (hg : asm.got = p.fragTotal.toNat) : st.Completes p := by
  refine ⟨hfull, ?_⟩
  intro j hj hne
  have hlen : asm.frags.length = p.fragTotal.toNat := by rw [hpart.agrees.length, hp.total]
  have hall := Slots.all_some_of_filled asm.frags (by rw [← hpart.got, hg, hlen])
  have hget : asm.frags[j]? = some asm.frags[j] := List.getElem?_eq_getElem (by omega)
  have hjoin : asm.frags[j]?.join.isSome = true := by
    rw [hget]
    exact hall asm.frags[j] (List.getElem_mem _)
  rcases store_cases hs with ⟨-, rfl⟩ | ⟨-, -, rfl⟩
  · rwa [List.getElem?_set_ne hne.symm] at hjoin
  · exact hjoin

inductive Reassembly (core core' : Core) (p : Packet) (m : Accepted) : Prop where
  | quiet (hd : core'.state.delivered = core.state.delivered)
      (ht : core'.state.deliverTx = core.state.deliverTx)
  | put (hl : core.state.Completes p) (hn : m.msgId ∉ core.state.delivered)
      (hd : core'.state.delivered = (core.state.recordDelivered m.msgId).delivered)
      (ht : core'.state.deliverTx = core.state.deliverTx ++ [m.delivery])

theorem complete_reassembly {core : Core} {m : Accepted} {p : Packet} {asm : Assembler}
    (hl : core.state.Completes p) (hp : FragmentOf m p) (hpart : PartOf m asm)
    (hg : asm.got = p.fragTotal.toNat) :
    Reassembly core
      (complete { core with state := core.state.putAssembler p.msgId asm } p asm) p m := by
  unfold complete
  simp only
  split_ifs with hdel
  · exact .quiet rfl rfl
  · refine .put hl ?_ ?_ ?_
    · rw [← hp.msgId]
      exact hdel
    · rw [← hp.msgId]
      rfl
    · have hdata := hpart.whole (hg.trans hp.total)
      simp only [Core.sendCtrl, CoreState.deliver, hdata, Accepted.delivery, ← hp.msgId,
        ← hp.stream]
      rfl

theorem handleFragment_honest {log : List Accepted} (hu : UniqueIds log) {core : Core}
    (h : ReceiverInv log core.state) {m : Accepted} {p : Packet} (hm : m ∈ log)
    (hp : FragmentOf m p) :
    ∃ core', handleFragment core p = .ok core' ∧ Reassembly core core' p m ∧
      ∀ id asm, core'.state.assemblers.lookup id = some asm →
        ∃ m ∈ log, m.msgId = id ∧ PartOf m asm := by
  by_cases hfull : core.state.TableFull p.msgId
  · exact ⟨core, handleFragment_full hfull, .quiet rfl rfl, h.assemblers⟩
  have hpart := h.assemblerFor hu hm hp
  have hidx : p.fragIndex.toNat < (core.state.assemblerFor p).frags.length := by
    rw [hpart.agrees.length]
    exact (List.getElem?_eq_some_iff.mp hp.chunk).1
  obtain ⟨core', hok⟩ := (handleFragment_ok_iff hfull).mpr hidx
  obtain ⟨asm, hst, hcase⟩ := handleFragment_cases hok hfull
  have hasm : PartOf m asm := hpart.store hp.chunk hst
  have hput : ∀ id a, (core.state.putAssembler p.msgId asm).assemblers.lookup id = some a →
      ∃ m ∈ log, m.msgId = id ∧ PartOf m a := by
    intro id a hl
    simp only [CoreState.putAssembler, AList.lookup_insert_eq] at hl
    split_ifs at hl with hid
    · cases hl
      exact ⟨m, hm, by rw [hid, hp.msgId], hasm⟩
    · exact h.assemblers id a hl
  refine ⟨core', hok, ?_⟩
  rcases hcase with ⟨-, rfl⟩ | ⟨hg, rfl⟩
  · exact ⟨.quiet rfl rfl, hput⟩
  · refine ⟨complete_reassembly (completes_of_store hfull hp hasm hst hg) hp hasm hg, ?_⟩
    rcases complete_assemblers { core with state := core.state.putAssembler p.msgId asm } p asm
      with he | he
    · rw [he]
      exact hput
    · rw [he]
      intro id a hl
      rw [AList.lookup_erase_eq] at hl
      split_ifs at hl
      exact hput id a hl

theorem reliable_append_delivery (st : CoreState) {st' : CoreState} {m : Accepted}
    (hr : m.stream ≠ .realtime) (h : st'.deliverTx = st.deliverTx ++ [m.delivery]) :
    st'.reliableDeliveries = st.reliableDeliveries ++ [m.delivery] := by
  simp [CoreState.reliableDeliveries, h, Accepted.delivery, hr]

def CoreState.deliveredIds (st : CoreState) : List UInt32 :=
  st.reliableDeliveries.map Delivery.msgId

structure Quiet (st st' : CoreState) : Prop where
  delivered : st'.delivered = st.delivered
  reliable : st'.reliableDeliveries = st.reliableDeliveries

structure Put (st st' : CoreState) (p : Packet) (m : Accepted) : Prop where
  completes : st.Completes p
  fresh : m.msgId ∉ st.delivered
  delivered : st'.delivered = (st.recordDelivered m.msgId).delivered
  reliable : st'.reliableDeliveries = st.reliableDeliveries ++ [m.delivery]

def CoreState.Known (st : CoreState) : Prop :=
  ∀ id ∈ st.delivered, ∃ d ∈ st.reliableDeliveries, d.msgId = id

theorem Quiet.known {st st' : CoreState} (h : Quiet st st') (hk : st.Known) : st'.Known := by
  unfold CoreState.Known
  rw [h.delivered, h.reliable]
  exact hk

theorem Put.known {st st' : CoreState} {p : Packet} {m : Accepted} (h : Put st st' p m)
    (hk : st.Known) : st'.Known := by
  intro id hid
  rw [h.delivered, recordDelivered_delivered h.fresh] at hid
  rw [h.reliable]
  split_ifs at hid
  · simp at hid
  · rcases (AList.mem_insert _).mp hid with rfl | hid
    · exact ⟨m.delivery, by simp, rfl⟩
    · obtain ⟨d, hd, hdid⟩ := hk id hid
      exact ⟨d, List.mem_append_left _ hd, hdid⟩

theorem isFragment_stream {p : Packet} (h : p.isFragment = true) : p.stream ≠ .realtime := by
  simp only [Packet.isFragment, Bool.and_eq_true, bne_iff_ne] at h
  exact h.2

theorem packets_isFragment {m : Accepted} (hr : m.stream ≠ .realtime) {p : Packet}
    (hp : p ∈ m.packets) : p.isFragment = true := by
  obtain ⟨i, c, -, rfl⟩ := mem_packets hp
  have hflags : (!(flagData &&& flagSyn != 0) && !(flagData &&& flagFin != 0) &&
      !(flagData &&& flagPing != 0) && !(flagData &&& flagPong != 0) &&
      !(flagData &&& flagAck != 0) && (flagData &&& flagData != 0)) = true := by decide
  simp only [Packet.isFragment, Packet.has, fragment, hflags, Bool.true_and]
  simpa using hr

theorem handlePacket_honest {log : List Accepted} (hu : UniqueIds log) (now : Instant) {core : Core}
    (h : ReceiverInv log core.state) {p : Packet}
    (hp : p.isFragment = true → ∃ m ∈ log, FragmentOf m p) :
    ∃ core', handlePacket now core p = .ok core' ∧ ReceiverInv log core'.state ∧
      (Quiet core.state core'.state ∨ (core.state.closed = false ∧ p.isFragment = true ∧
        ∃ m ∈ log, FragmentOf m p ∧ Put core.state core'.state p m)) := by
  by_cases hq : core.state.closed = true ∨ p.isFragment = false
  · obtain ⟨core', hok, hf⟩ := handlePacket_frame now core hq
    exact ⟨core', hok, ⟨hf.assemblers ▸ h.assemblers, hf.reliable ▸ h.reliable⟩,
      Or.inl ⟨hf.delivered, hf.reliable⟩⟩
  simp only [not_or, Bool.not_eq_true, Bool.not_eq_false] at hq
  obtain ⟨m, hm, hfrag⟩ := hp hq.2
  have htouch : ReceiverInv log (core.touch now).state := ⟨h.assemblers, h.reliable⟩
  obtain ⟨core', hok, hre, hasm⟩ := handleFragment_honest hu htouch hm hfrag
  have hr : m.stream ≠ .realtime := hfrag.stream ▸ isFragment_stream hq.2
  refine ⟨core', by rw [handlePacket_fragment hq.1 hq.2, hok], ?_⟩
  cases hre with
  | quiet hd ht =>
    have hrel : core'.state.reliableDeliveries = core.state.reliableDeliveries := by
      rw [CoreState.reliableDeliveries, ht]
      rfl
    exact ⟨⟨hasm, hrel ▸ h.reliable⟩, Or.inl ⟨hd, hrel⟩⟩
  | put hl hn hd ht =>
    have hrel := reliable_append_delivery core.state hr ht
    refine ⟨⟨hasm, ?_⟩, Or.inr ⟨hq.1, hq.2, m, hm, hfrag, hl, hn, hd, hrel⟩⟩
    intro d hmem
    rw [hrel] at hmem
    rcases List.mem_append.mp hmem with hmem | hmem
    · exact h.reliable d hmem
    · exact ⟨m, hm, List.mem_singleton.mp hmem⟩

theorem receive_honest {log : List Accepted} (hu : UniqueIds log)
    (hsize : ∀ m ∈ log, Sized m.data) (now : Instant) {ep : Endpoint}
    (h : ReceiverInv log ep.core.state) (hin : ep.inbound = none) {d : Bytes}
    (hd : Emitted log d) :
    (ep.receive now d).inbound = none ∧ ReceiverInv log (ep.receive now d).core.state ∧
      (Quiet ep.core.state (ep.receive now d).core.state ∨
        (ep.core.state.closed = false ∧ ∃ p, recvFrom d = some p ∧ p.isFragment = true ∧
          ∃ m ∈ log, FragmentOf m p ∧ Put ep.core.state (ep.receive now d).core.state p m)) := by
  cases hp : recvFrom d with
  | none =>
    rw [receive_none hp]
    exact ⟨hin, h, Or.inl ⟨rfl, rfl⟩⟩
  | some p =>
    obtain ⟨core', hok, hinv, hcase⟩ :=
      handlePacket_honest hu now h (p := p) (recv_emitted hsize hd hp)
    rw [receive_ok hp hok]
    refine ⟨hin, hinv, ?_⟩
    rcases hcase with hq | ⟨hc, hf, m, hm, hfrag, hput⟩
    · exact Or.inl hq
    · exact Or.inr ⟨hc, p, rfl, hf, m, hm, hfrag, hput⟩

theorem SameReceiver.quiet {ep ep' : Endpoint} (h : SameReceiver ep ep') :
    Quiet ep.core.state ep'.core.state where
  delivered := h.delivered
  reliable := by rw [CoreState.reliableDeliveries, h.deliverTx]; rfl

theorem SameReceiver.receiverInv {log : List Accepted} {ep ep' : Endpoint}
    (h : SameReceiver ep ep') (hr : ReceiverInv log ep.core.state) :
    ReceiverInv log ep'.core.state where
  assemblers := by
    rcases h.assemblers with he | he
    · exact he ▸ hr.assemblers
    · simp [he]
  reliable := h.quiet.reliable ▸ hr.reliable

theorem ReceiverInv.mono {log log' : List Accepted} {st : CoreState} (h : ReceiverInv log st)
    (hsub : ∀ m ∈ log, m ∈ log') : ReceiverInv log' st where
  assemblers := by
    intro id asm hl
    obtain ⟨m, hm, hrest⟩ := h.assemblers id asm hl
    exact ⟨m, hsub m hm, hrest⟩
  reliable := by
    intro d hd
    obtain ⟨m, hm, rfl⟩ := h.reliable d hd
    exact ⟨m, hsub m hm, rfl⟩

structure Sound (c : Connection) : Prop where
  honest : Honest c
  receiver : ∀ s, (c.ep s.other).accepted.length < maxSends →
    ReceiverInv (c.ep s.other).accepted (c.ep s).core.state ∧ (c.ep s).inbound = none

theorem sound_init (t u : Instant) : Sound (Connection.init t u) where
  honest := honest_init t u
  receiver := by
    intro s _
    cases s with
    | dialer => exact ⟨⟨by simp [Connection.init, Endpoint.ofCore, newCore], by
        simp [Connection.init, Endpoint.ofCore, newCore, CoreState.reliableDeliveries]⟩, rfl⟩
    | acceptor => exact ⟨⟨by simp [Connection.init, Endpoint.ofCore, acceptedCore, newCore], by
        simp [Connection.init, Endpoint.ofCore, acceptedCore, newCore,
          CoreState.reliableDeliveries]⟩, rfl⟩

inductive Arrival (c : Connection) (e : Transmission) (c' : Connection) (s : Side) : Prop where
  | quiet (h : Quiet (c.ep s).core.state (c'.ep s).core.state)
  | put (i : Nat) (now : Instant) (d : Bytes) (p : Packet) (m : Accepted)
      (hev : e = .receive s i now) (hd : (c.wire s.other)[i]? = some d)
      (hopen : (c.ep s).core.state.closed = false) (hp : recvFrom d = some p)
      (hf : p.isFragment = true) (hm : m ∈ (c.ep s.other).accepted) (hfrag : FragmentOf m p)
      (h : Put (c.ep s).core.state (c'.ep s).core.state p m)

theorem Sound.change {c c' : Connection} {e : Transmission} (h : Sound c) (hc : Change c e c')
    (s : Side) (hlen : (c'.ep s.other).accepted.length < maxSends) :
    (ReceiverInv (c'.ep s.other).accepted (c'.ep s).core.state ∧ (c'.ep s).inbound = none) ∧
      Arrival c e c' s := by
  have hpre := hc.accepted s.other
  have hlen' : (c.ep s.other).accepted.length < maxSends := lt_of_le_of_lt hpre.length_le hlen
  obtain ⟨hinv, hin⟩ := h.receiver s hlen'
  rcases hc.receiver s with hr | ⟨i, now, d, hev, hd, -, hep⟩
  · exact ⟨⟨(hr.receiverInv hinv).mono (fun m hm => hpre.subset hm), hr.inbound.trans hin⟩,
      .quiet hr.quiet⟩
  have hu := (h.honest.numbered s.other).uniqueIds hlen'
  obtain ⟨hin', hinv', hcase⟩ := receive_honest hu (h.honest.sender s.other).size now hinv hin
    (h.honest.wire s.other d (List.mem_of_getElem? hd))
  rw [hep]
  refine ⟨⟨hinv'.mono (fun m hm => hpre.subset hm), hin'⟩, ?_⟩
  rcases hcase with hq | ⟨hopen, p, hp, hf, m, hm, hfrag, hput⟩
  · exact .quiet (hep ▸ hq)
  · exact .put i now d p m hev hd hopen hp hf hm hfrag (hep ▸ hput)

theorem Sound.step {c c' : Connection} {e : Transmission} (h : Sound c) (hs : c.step e = some c') :
    Sound c' where
  honest := h.honest.change (connection_step_cases hs)
  receiver := fun s hlen => (h.change (connection_step_cases hs) s hlen).1

theorem sound_of_run {t u : Instant} {es : List Transmission} {c : Connection}
    (h : Machine.run Connection.step (Connection.init t u) es = some c) : Sound c :=
  Machine.run_invariant (fun _ _ _ hs hstep => hs.step hstep) (sound_init t u) h

theorem reliable_delivery_uncorrupted {t u : Instant} {es : List Transmission} {c : Connection}
    (hrun : Machine.run Connection.step (Connection.init t u) es = some c) (s : Side)
    (hsends : (c.ep s.other).accepted.length < maxSends) :
    ∀ d ∈ (c.ep s).core.state.deliverTx, d.stream ≠ .realtime →
      ∃ m ∈ (c.ep s.other).accepted, d.msgId = m.msgId ∧ d.data = m.data ∧ d.stream = m.stream := by
  intro d hd hr
  have hmem : d ∈ (c.ep s).core.state.reliableDeliveries :=
    List.mem_filter.mpr ⟨hd, by simpa using hr⟩
  obtain ⟨m, hm, rfl⟩ := ((sound_of_run hrun).receiver s hsends).1.reliable d hmem
  exact ⟨m, hm, rfl, rfl, rfl⟩

def handshakeEvents : List Transmission :=
  [.receive .dialer 0 0, .dial .notified, .pump .dialer, .lose .dialer 0, .lose .dialer 0,
    .lose .acceptor 0]

def sendEvents (data : Bytes) (stream : Stream) : List Transmission :=
  [.act .dialer (.call data stream), .act .dialer (.resume 0 0), .act .dialer (.resume 0 0),
    .act .dialer (.resume 0 0), .act .dialer (.resume 0 0), .pump .dialer]

def splitMessage : Bytes := List.replicate (maxPayload + 1) 7

def splitEvents : List Transmission :=
  handshakeEvents ++ sendEvents splitMessage .batch ++ [.pump .dialer]

theorem reordered_fragments_uncorrupted :
    ∃ c, Machine.run Connection.step (Connection.init 0 0)
        (splitEvents ++ [.receive .acceptor 1 0, .receive .acceptor 1 0, .receive .acceptor 0 0,
          .receive .acceptor 1 0]) = some c ∧
      (c.ep .acceptor).core.state.deliverTx = [⟨1, splitMessage, .batch⟩] ∧
      ∀ d ∈ (c.ep .acceptor).core.state.deliverTx, d.stream ≠ .realtime →
        ∃ m ∈ (c.ep .dialer).accepted, d.msgId = m.msgId ∧ d.data = m.data ∧
          d.stream = m.stream := by
  have hrun : (Machine.run Connection.step (Connection.init 0 0)
      (splitEvents ++ [.receive .acceptor 1 0, .receive .acceptor 1 0, .receive .acceptor 0 0,
        .receive .acceptor 1 0])).map
        (fun c => ((c.ep .acceptor).core.state.deliverTx, (c.ep .dialer).accepted.length)) =
      some ([⟨1, splitMessage, .batch⟩], 1) := by
    decide +kernel
  obtain ⟨c, hc, heq⟩ := Option.map_eq_some_iff.mp hrun
  obtain ⟨htx, hlen⟩ := Prod.mk.inj heq
  refine ⟨c, hc, htx, reliable_delivery_uncorrupted hc .acceptor ?_⟩
  show (c.ep .dialer).accepted.length < maxSends
  rw [hlen]
  decide

end Cross233.Qcp
