import Cross233.Qcp.Delivery

namespace Cross233.Qcp

structure SlotsUndelivered (log : List Accepted) (st : CoreState) : Prop where
  disjoint : ∀ id ∈ st.assemblers, id ∉ st.delivered
  dropped : ∀ id, st.TableFull id → ∃ ids : List UInt32, ids.Nodup ∧ maxAssemblers ≤ ids.length ∧
    ∀ j ∈ ids, (∃ m ∈ log, m.msgId = j) ∧ j ∉ st.deliveredIds ∧
      ∃ asm, st.assemblers.lookup j = some asm ∧ 0 < asm.got

def Unseen (s : Side) (c : Connection) : Transmission → Prop
  | .receive s' i _ => s' = s → ∀ p ∈ (c.wire s.other)[i]?.bind recvFrom,
      p.isFragment = true → (c.ep s).core.state.closed = false →
        ¬(c.ep s).core.state.TableFull p.msgId → p.msgId ∉ (c.ep s).core.state.deliveredIds
  | _ => True

instance (s : Side) (c : Connection) : ∀ e : Transmission, Decidable (Unseen s c e)
  | .receive _ _ _ => inferInstanceAs (Decidable (_ → _))
  | .act _ _ => isTrue trivial
  | .dial _ => isTrue trivial
  | .pump _ => isTrue trivial
  | .lose _ _ => isTrue trivial

structure SlotInv (log : List Accepted) (st : CoreState) : Prop where
  known : ∀ id ∈ st.delivered, id ∈ st.deliveredIds
  slots : ∀ id asm, st.assemblers.lookup id = some asm →
    (∃ m ∈ log, m.msgId = id) ∧ id ∉ st.deliveredIds ∧ 0 < asm.got

theorem SlotInv.undelivered {log : List Accepted} {st : CoreState} (h : SlotInv log st) :
    SlotsUndelivered log st where
  disjoint := by
    intro id hid hd
    obtain ⟨asm, hl⟩ := AList.mem_iff_lookup.mp hid
    exact (h.slots id asm hl).2.1 (h.known id hd)
  dropped := by
    intro id hfull
    refine ⟨st.assemblers.keys, st.assemblers.keys_nodup, ?_, ?_⟩
    · rw [← AList.len_eq_keys]
      exact hfull.2
    · intro j hj
      obtain ⟨asm, hl⟩ := AList.mem_iff_lookup.mp (AList.mem_keys.mpr hj)
      obtain ⟨hm, hn, hg⟩ := h.slots j asm hl
      exact ⟨hm, hn, asm, hl, hg⟩

theorem store_got_pos {asm asm' : Assembler} {i : Nat} {payload : Bytes}
    (h : asm.store i payload = .ok asm') (hg : 0 < asm.got ∨ ∃ n, asm = Assembler.empty n) :
    0 < asm'.got := by
  rcases store_cases h with ⟨-, rfl⟩ | ⟨c, hc, rfl⟩
  · exact Nat.succ_pos _
  · rcases hg with hg | ⟨n, rfl⟩
    · exact hg
    · have hmem := List.mem_of_getElem? hc
      simp [Assembler.empty, List.mem_replicate] at hmem

theorem deliver_ids {st : CoreState} {p : Packet} (asm : Assembler) (hp : p.stream ≠ .realtime) :
    (st.deliver p asm).deliveredIds = st.deliveredIds ++ [p.msgId] := by
  simp [CoreState.deliveredIds, CoreState.deliver, CoreState.recordDelivered,
    CoreState.reliableDeliveries, hp]

theorem SlotInv.deliver {log : List Accepted} {st : CoreState} {p : Packet} {asm : Assembler}
    (hk : ∀ id ∈ st.delivered, id ∈ st.deliveredIds)
    (hs : ∀ id a, id ≠ p.msgId → st.assemblers.lookup id = some a →
      (∃ m ∈ log, m.msgId = id) ∧ id ∉ st.deliveredIds ∧ 0 < a.got)
    (hp : p.stream ≠ .realtime) : SlotInv log (st.deliver p asm) where
  known := by
    intro id hid
    rw [deliver_ids asm hp]
    simp only [CoreState.deliver, CoreState.recordDelivered] at hid
    split_ifs at hid with hcap
    · simp at hid
    · rcases (AList.mem_insert _).mp hid with rfl | hid
      · simp
      · exact List.mem_append_left _ (hk id hid)
  slots := by
    intro id a hl
    rw [deliver_ids asm hp]
    have hl' : (st.assemblers.erase p.msgId).lookup id = some a := hl
    rw [AList.lookup_erase_eq] at hl'
    split_ifs at hl' with hne
    obtain ⟨hm, hn, hg⟩ := hs id a hne hl'
    exact ⟨hm, by simp [hn, hne], hg⟩

theorem SlotInv.fragment {log : List Accepted} (core : Core) {core' : Core} {p : Packet}
    (h : SlotInv log core.state) (hm : ∃ m ∈ log, m.msgId = p.msgId) (hp : p.isFragment = true)
    (hn : ¬core.state.TableFull p.msgId → p.msgId ∉ core.state.deliveredIds)
    (hok : handleFragment core p = .ok core') : SlotInv log core'.state := by
  by_cases hfull : core.state.TableFull p.msgId
  · rw [handleFragment_full hfull] at hok
    cases hok
    exact h
  obtain ⟨asm, hst, hcase⟩ := handleFragment_cases hok hfull
  have hgot : 0 < asm.got := by
    refine store_got_pos hst ?_
    unfold CoreState.assemblerFor
    cases hl : core.state.assemblers.lookup p.msgId with
    | none => exact Or.inr ⟨_, rfl⟩
    | some a => exact Or.inl (h.slots p.msgId a hl).2.2
  have hother : ∀ id a, id ≠ p.msgId →
      (core.state.putAssembler p.msgId asm).assemblers.lookup id = some a →
        core.state.assemblers.lookup id = some a := by
    intro id a hne hl
    simpa only [CoreState.putAssembler, AList.lookup_insert_eq, if_neg hne] using hl
  rcases hcase with ⟨-, rfl⟩ | ⟨-, rfl⟩
  · refine ⟨h.known, ?_⟩
    intro id a hl
    by_cases hid : id = p.msgId
    · subst hid
      simp only [CoreState.putAssembler, AList.lookup_insert_eq, if_true] at hl
      cases hl
      exact ⟨hm, hn hfull, hgot⟩
    · exact h.slots id a (hother id a hid hl)
  · have hfresh : p.msgId ∉ core.state.delivered := fun hd => hn hfull (h.known _ hd)
    have hfresh' : p.msgId ∉ (core.state.putAssembler p.msgId asm).delivered := hfresh
    simp only [complete, if_neg hfresh']
    exact SlotInv.deliver h.known (fun id a hne hl => h.slots id a (hother id a hne hl))
      (isFragment_stream hp)

theorem SlotInv.of_eq {log log' : List Accepted} {st st' : CoreState} (h : SlotInv log st)
    (hsub : ∀ m ∈ log, m ∈ log') (ha : st'.assemblers = st.assemblers ∨ st'.assemblers = ∅)
    (hq : Quiet st st') : SlotInv log' st' := by
  have hids : st'.deliveredIds = st.deliveredIds := by
    rw [CoreState.deliveredIds, hq.reliable]
    rfl
  refine ⟨by rw [hq.delivered, hids]; exact h.known, ?_⟩
  intro id asm hl
  rw [hids]
  rcases ha with ha | ha
  · rw [ha] at hl
    obtain ⟨⟨m, hm, hid⟩, hrest⟩ := h.slots id asm hl
    exact ⟨⟨m, hsub m hm, hid⟩, hrest⟩
  · simp [ha] at hl

theorem SlotInv.receive {log : List Accepted} {ep : Endpoint} (h : SlotInv log ep.core.state)
    (hsize : ∀ m ∈ log, Sized m.data) (now : Instant) {d : Bytes} (hd : Emitted log d)
    (hn : ∀ p, recvFrom d = some p → p.isFragment = true → ep.core.state.closed = false →
      ¬ep.core.state.TableFull p.msgId → p.msgId ∉ ep.core.state.deliveredIds) :
    SlotInv log (ep.receive now d).core.state := by
  cases hp : recvFrom d with
  | none => rwa [receive_none hp]
  | some p =>
    cases hk : handlePacket now ep.core p with
    | error e => rwa [receive_error hp hk]
    | ok core =>
      rw [receive_ok hp hk]
      by_cases hq : ep.core.state.closed = true ∨ p.isFragment = false
      · obtain ⟨core', hok, hf⟩ := handlePacket_frame now ep.core hq
        obtain rfl : core' = core := Except.ok.inj (hok.symm.trans hk)
        exact h.of_eq (fun _ hm => hm) (Or.inl hf.assemblers) ⟨hf.delivered, hf.reliable⟩
      · simp only [not_or, Bool.not_eq_true, Bool.not_eq_false] at hq
        obtain ⟨m, hm, hfrag⟩ := recv_emitted hsize hd hp hq.2
        rw [handlePacket_fragment hq.1 hq.2] at hk
        exact SlotInv.fragment (ep.core.touch now) ⟨h.known, h.slots⟩
          ⟨m, hm, hfrag.msgId.symm⟩ hq.2 (hn p hp hq.2 hq.1) hk

theorem SlotInv.same {log log' : List Accepted} {ep ep' : Endpoint}
    (h : SlotInv log ep.core.state) (hsub : ∀ m ∈ log, m ∈ log') (hr : SameReceiver ep ep') :
    SlotInv log' ep'.core.state :=
  h.of_eq hsub hr.assemblers hr.quiet

structure SlotsHeld (s : Side) (c : Connection) : Prop where
  honest : Honest c
  slots : SlotInv (c.ep s.other).accepted (c.ep s).core.state

theorem SlotsHeld.step {s : Side} {c c' : Connection} {e : Transmission} (h : SlotsHeld s c)
    (hu : Unseen s c e) (hs : c.step e = some c') : SlotsHeld s c' := by
  have hc := connection_step_cases hs
  have hsub : ∀ m ∈ (c.ep s.other).accepted, m ∈ (c'.ep s.other).accepted :=
    fun m hm => (hc.accepted s.other).subset hm
  refine ⟨h.honest.change hc, ?_⟩
  rcases hc.receiver s with hr | ⟨i, now, d, rfl, hd, -, hep⟩
  · exact h.slots.same hsub hr
  · rw [hep]
    have hrecv := h.slots.receive (h.honest.sender s.other).size now
      (h.honest.wire s.other d (List.mem_of_getElem? hd))
      (fun p hp => hu rfl p (by simp [hd, hp]))
    exact hrecv.of_eq hsub (Or.inl rfl) ⟨rfl, rfl⟩

theorem slots_undelivered_without_duplicates {t u : Instant} {es : List Transmission}
    {c : Connection} (hrun : Machine.run Connection.step (Connection.init t u) es = some c)
    (s : Side) (hu : Machine.Along Connection.step (Unseen s) (Connection.init t u) es) :
    SlotsUndelivered (c.ep s.other).accepted (c.ep s).core.state := by
  have hstart : SlotsHeld s (Connection.init t u) := by
    refine ⟨honest_init t u, ?_, ?_⟩
    · cases s <;> simp [Connection.init, Endpoint.ofCore, acceptedCore, newCore]
    · cases s <;> simp [Connection.init, Endpoint.ofCore, acceptedCore, newCore]
  exact (Machine.run_invariant_along (fun _ _ _ h hc hs => h.step hc hs) hstart hu
    hrun).slots.undelivered

theorem half_assembled_message_undelivered :
    ∃ c, Machine.run Connection.step (Connection.init 0 0)
        (handshakeEvents ++ sendEvents splitMessage .batch ++ [.receive .acceptor 0 0]) = some c ∧
      (c.ep .acceptor).core.state.assemblers.keys = [1] ∧
      SlotsUndelivered (c.ep .dialer).accepted (c.ep .acceptor).core.state := by
  have hrun : (Machine.run Connection.step (Connection.init 0 0)
      (handshakeEvents ++ sendEvents splitMessage .batch ++ [.receive .acceptor 0 0])).map
        (fun c => (c.ep .acceptor).core.state.assemblers.keys) = some [1] := by
    decide +kernel
  obtain ⟨c, hc, hk⟩ := Option.map_eq_some_iff.mp hrun
  exact ⟨c, hc, hk, slots_undelivered_without_duplicates hc .acceptor (by decide +kernel)⟩

theorem duplicate_leaks_slot :
    ¬∀ (t u : Instant) (es : List Transmission) (c : Connection),
      Machine.run Connection.step (Connection.init t u) es = some c → ∀ s,
        SlotsUndelivered (c.ep s.other).accepted (c.ep s).core.state := by
  intro h
  have hrun : (Machine.run Connection.step (Connection.init 0 0)
      (handshakeEvents ++ sendEvents [1] .batch ++
        [.receive .acceptor 0 0, .receive .acceptor 0 0])).map
        (fun c => ((c.ep .acceptor).core.state.assemblers.keys,
          (c.ep .acceptor).core.state.delivered.keys)) = some ([1], [1]) := by decide
  obtain ⟨c, hc, heq⟩ := Option.map_eq_some_iff.mp hrun
  obtain ⟨ha, hd⟩ := Prod.mk.inj heq
  have hdis := (h 0 0 _ c hc .acceptor).disjoint 1 (AList.mem_keys.mpr (by simp [ha]))
  exact hdis (AList.mem_keys.mpr (by simp [hd]))

end Cross233.Qcp
