import Cross233.Qcp.Delivery

namespace Cross233.Qcp

structure Dial where
  ep : Endpoint
  pc : DialPc

-- Every datagram remembers the dial or the core that sent it, `touched` the fragments each
-- core took.
structure Redial where
  dials : List Dial
  listener : Listener
  touched : List (Nat × Nat × UInt32)
  toListener : List (Nat × Bytes)
  toDialer : List (Option Nat × Bytes)
  acked : List (Nat × Accepted)

def Redial.init : Redial where
  dials := []
  listener := Listener.new
  touched := []
  toListener := []
  toDialer := []
  acked := []

inductive RedialEvent where
  | dial (now : Instant)
  | handshake (i : Nat) (e : DialEvent)
  | dialAct (i : Nat) (a : Action)
  | dialPump (i : Nat)
  | dialReceive (i k : Nat) (now : Instant)
  | listen (k : Nat) (now : Instant)
  | connAct (j : Nat) (a : Action)
  | connPump (j : Nat)
  | loseToListener (k : Nat)
  | loseToDialer (k : Nat)
  deriving DecidableEq, Repr

def removedInFlight (before after : CoreState) : List Accepted :=
  (before.inFlight.entries.filter (fun e => e.1 ∉ after.inFlight)).map
    (fun e => ⟨e.1, e.2.data, e.2.stream⟩)

def Redial.touch (src : SocketAddr) (r : Redial) (d : Nat) (b : Bytes) :
    List (Nat × Nat × UInt32) :=
  match recvFrom b, r.listener.coreFor src with
  | some p, some (j, ep) =>
    if p.isFragment = true ∧ ep.core.state.closed = false ∧ ¬ep.core.state.TableFull p.msgId then
      [(j, d, p.msgId)]
    else []
  | _, _ => []

def Redial.setDial (r : Redial) (i : Nat) (D : Dial) : Redial :=
  { r with dials := r.dials.set i D }

def Redial.replies (r : Redial) (l : Listener) : List (Option Nat × Bytes) :=
  (l.sent.drop r.listener.sent.length).map (fun x => (none, x.2))

def Redial.step (src : SocketAddr) (r : Redial) : RedialEvent → Option Redial
  | .dial now =>
    let D : Dial := ⟨Endpoint.ofCore (newCore dialWindow dialRto now), .check 10⟩
    some { r with dials := r.dials ++ [D] }
  | .handshake i e => r.dials[i]?.bind (fun D =>
      (dialStep D.pc D.ep.core e).map (fun x => r.setDial i ⟨{ D.ep with core := x.2 }, x.1⟩))
  | .dialAct i a => r.dials[i]?.bind (fun D =>
      if a.needsConn ∧ D.pc ≠ .connected then none
      else (D.ep.act a).map (fun ep => r.setDial i { D with ep := ep }))
  | .dialPump i => r.dials[i]?.bind (fun D => D.ep.pump.map (fun x =>
      { r.setDial i { D with ep := x.2 } with toListener := r.toListener ++ [(i, x.1)] }))
  | .dialReceive i k now => r.dials[i]?.bind (fun D => r.toDialer[k]?.bind (fun x =>
      if D.ep.inbound ≠ none then none
      else
        let ep := D.ep.receive now x.2
        some { r.setDial i { D with ep := ep } with
          acked := r.acked ++
            (removedInFlight D.ep.core.state ep.core.state).map (fun m => (i, m)) }))
  | .listen k now => r.toListener[k]?.bind (fun x =>
      (r.listener.step (.datagram now src x.2)).map (fun l =>
        { r with
          listener := l
          touched := r.touched ++ r.touch src x.1 x.2
          toDialer := r.toDialer ++ r.replies l }))
  | .connAct j a =>
    (r.listener.step (.conn j a)).map (fun l => { r with listener := l })
  | .connPump j => r.listener.conns[j]?.bind (fun ep => ep.pump.map (fun x =>
      { r with
        listener := { r.listener with conns := r.listener.conns.set j x.2 }
        toDialer := r.toDialer ++ [(some j, x.1)] }))
  | .loseToListener k => some { r with toListener := r.toListener.eraseIdx k }
  | .loseToDialer k => some { r with toDialer := r.toDialer.eraseIdx k }

def Unmixed (src : SocketAddr) (r : Redial) : RedialEvent → Prop
  | .listen k _ => ∀ x ∈ r.toListener[k]?, ∀ y ∈ r.touch src x.1 x.2, ∀ z ∈ r.touched,
      z.1 = y.1 → z.2.2 = y.2.2 → z.2.1 = y.2.1
  | .dialReceive i k _ => ∀ D ∈ r.dials[i]?, ∀ x ∈ r.toDialer[k]?, ∀ p ∈ recvFrom x.2,
      p.isAck = true → D.ep.core.state.closed = false → p.msgId ∈ D.ep.core.state.inFlight →
        ∃ j ∈ x.1.toList, (j, i, p.msgId) ∈ r.touched
  | _ => True

instance (src : SocketAddr) (r : Redial) : ∀ e : RedialEvent, Decidable (Unmixed src r e)
  | .listen k _ => inferInstanceAs (Decidable (∀ x ∈ r.toListener[k]?, _))
  | .dialReceive i k _ => inferInstanceAs (Decidable (∀ D ∈ r.dials[i]?, ∀ x ∈ r.toDialer[k]?, _))
  | .dial _ => isTrue trivial
  | .handshake _ _ => isTrue trivial
  | .dialAct _ _ => isTrue trivial
  | .dialPump _ => isTrue trivial
  | .connAct _ _ => isTrue trivial
  | .connPump _ => isTrue trivial
  | .loseToListener _ => isTrue trivial
  | .loseToDialer _ => isTrue trivial

def AckedDelivered (r : Redial) : Prop :=
  ∀ x ∈ r.acked, ∃ (j : Nat) (ep : Endpoint), r.listener.conns[j]? = some ep ∧
    x.2.delivery ∈ ep.core.state.deliverTx ∧ (j, x.1, x.2.msgId) ∈ r.touched

theorem handleFragment_inFlight {core core' : Core} {p : Packet}
    (h : handleFragment core p = .ok core') : core'.state.inFlight = core.state.inFlight := by
  obtain ⟨_, _, _, _, rfl, -, -⟩ := handleFragment_eq h
  rfl

theorem handlePacket_inFlight {now : Instant} {core core' : Core} {p : Packet}
    (h : handlePacket now core p = .ok core') :
    core'.state.inFlight = core.state.inFlight ∨ (core.state.closed = false ∧ p.isAck = true ∧
      core'.state.inFlight = core.state.inFlight.erase p.msgId) := by
  cases handlePacket_cases h with
  | ack hc ha h =>
    obtain ⟨_, _, _, _, _, _, _, he⟩ := handleAck_eq now (core.touch now).state p.msgId
    refine Or.inr ⟨hc, ha, ?_⟩
    rw [h, he]
    rfl
  | realtime hc hs h =>
    obtain ⟨last, tx, he⟩ := handleRealtime_eq (core.touch now).state p
    rw [h, he]
    exact Or.inl rfl
  | fragment hc hf h =>
    have hi := handleFragment_inFlight h
    exact Or.inl hi
  | ignored hc h | syn hc h | fin hc hf h | ping hc h | touched hc h =>
    rw [h]
    exact Or.inl rfl

def Vouched (st : CoreState) (b : Bytes) : Prop :=
  ∀ p, recvFrom b = some p → p.isAck = true → ∃ d ∈ st.reliableDeliveries, d.msgId = p.msgId

theorem vouched_control {st : CoreState} {f : UInt8} {s : Stream} {id : UInt32}
    (hf : f &&& flagData = 0)
    (ha : (control f s id).isAck = true → ∃ d ∈ st.reliableDeliveries, d.msgId = id) :
    Vouched st (encode (control f s id)) := by
  intro p hp hack
  rw [recvFrom_control (control_isControl hf s id)] at hp
  cases hp
  exact ha hack

theorem vouched_fragment {log : List Accepted} {d : Bytes} (st : CoreState)
    (h : Fragmented log d) : Vouched st d := by
  obtain ⟨m, -, p, hp, rfl⟩ := h
  intro q hq hack
  obtain rfl := recvFrom_encode_eq (payload_le_of_mem_packets hp) hq
  obtain ⟨i, c, -, rfl⟩ := mem_packets hp
  have hno : (flagData &&& flagAck != 0) = false := by decide
  simp [Packet.isAck, Packet.has, fragment] at hack
  simp [hack.2] at hno

theorem Vouched.mono {st st' : CoreState} {b : Bytes} (h : Vouched st b)
    (hsub : ∀ d ∈ st.reliableDeliveries, d ∈ st'.reliableDeliveries) : Vouched st' b := by
  intro p hp hack
  obtain ⟨d, hd, hid⟩ := h p hp hack
  exact ⟨d, hsub d hd, hid⟩

theorem handleFragment_vouched (core : Core) {core' : Core} {p : Packet}
    (hk : core.state.Known) (hf : p.isFragment = true)
    (h : handleFragment core p = .ok core') :
    ∀ b ∈ core'.ctrlTx, b ∈ core.ctrlTx ∨ Vouched core'.state b := by
  intro b hb
  by_cases hfull : core.state.TableFull p.msgId
  · rw [handleFragment_full hfull] at h
    cases h
    exact Or.inl hb
  obtain ⟨asm, -, ⟨-, rfl⟩ | ⟨-, rfl⟩⟩ := handleFragment_cases h hfull
  · exact Or.inl hb
  by_cases hd : p.msgId ∈ (core.state.putAssembler p.msgId asm).delivered
  · simp only [complete, if_pos hd] at hb ⊢
    rcases List.mem_append.mp hb with hb | hb
    · exact Or.inl hb
    · rw [List.mem_singleton.mp hb]
      exact Or.inr (vouched_control (by decide) (fun _ => hk p.msgId hd))
  · simp only [complete, if_neg hd] at hb ⊢
    rcases List.mem_append.mp hb with hb | hb
    · exact Or.inl hb
    · rw [List.mem_singleton.mp hb]
      refine Or.inr (vouched_control (by decide) (fun _ => ?_))
      refine ⟨⟨p.msgId, asm.frags.reduceOption.flatten, p.stream⟩, ?_, rfl⟩
      refine List.mem_filter.mpr ⟨List.mem_append_right _ (List.mem_singleton_self _), ?_⟩
      simpa using isFragment_stream hf

theorem handlePacket_vouched {now : Instant} {core core' : Core} {p : Packet}
    (hk : core.state.Known) (h : handlePacket now core p = .ok core') :
    ∀ b ∈ core'.ctrlTx, b ∈ core.ctrlTx ∨ Vouched core'.state b := by
  intro b hb
  cases handlePacket_cases h with
  | ping hc h =>
    rw [h] at hb ⊢
    rcases List.mem_append.mp hb with hb | hb
    · exact Or.inl hb
    · rw [List.mem_singleton.mp hb]
      refine Or.inr (vouched_control (by decide) (fun hack => ?_))
      have hno : (flagPong &&& flagAck != 0) = false := by decide
      simp [Packet.isAck, control_has, hno] at hack
  | fragment hc hf h =>
    exact handleFragment_vouched (core.touch now) hk hf h b hb
  | ignored hc h | syn hc h | fin hc hf h | touched hc h | ack hc ha h | realtime hc hs h =>
    rw [h] at hb
    exact Or.inl hb

structure CoreOf (r : Redial) (j : Nat) (ep : Endpoint) : Prop where
  sender : SenderInv ep
  known : ep.core.state.Known
  ctrlTx : ∀ b ∈ ep.core.ctrlTx, Vouched ep.core.state b
  receiver : ∃ log, UniqueIds log ∧ ReceiverInv log ep.core.state ∧
    ∀ m ∈ log, Sized m.data ∧ ∃ (d : Nat) (D : Dial), r.dials[d]? = some D ∧ m ∈ D.ep.accepted ∧
      (j, d, m.msgId) ∈ r.touched

def VouchedBy (r : Redial) (x : Option Nat × Bytes) : Prop :=
  ∀ p, recvFrom x.2 = some p → p.isAck = true → ∃ (j : Nat) (ep : Endpoint), x.1 = some j ∧
    r.listener.conns[j]? = some ep ∧ ∃ d ∈ ep.core.state.reliableDeliveries, d.msgId = p.msgId

def AckedBy (r : Redial) (x : Nat × Accepted) : Prop :=
  ∃ (j : Nat) (ep : Endpoint), r.listener.conns[j]? = some ep ∧
    x.2.delivery ∈ ep.core.state.reliableDeliveries ∧ (j, x.1, x.2.msgId) ∈ r.touched

structure Kept (r : Redial) : Prop where
  dials : ∀ (i : Nat) (D : Dial), r.dials[i]? = some D → SenderInv D.ep ∧ Numbered D.ep
  toListener : ∀ x ∈ r.toListener, ∃ D, r.dials[x.1]? = some D ∧ Emitted D.ep.accepted x.2
  conns : ∀ (j : Nat) (ep : Endpoint), r.listener.conns[j]? = some ep → CoreOf r j ep
  toDialer : ∀ x ∈ r.toDialer, VouchedBy r x
  acked : ∀ x ∈ r.acked, AckedBy r x
  functional : ∀ x ∈ r.touched, ∀ y ∈ r.touched, x.1 = y.1 → x.2.2 = y.2.2 → x.2.1 = y.2.1

structure Grows (r r' : Redial) : Prop where
  dials : ∀ (i : Nat) (D : Dial), r.dials[i]? = some D → ∃ D', r'.dials[i]? = some D' ∧
    D.ep.accepted <+: D'.ep.accepted
  touched : ∀ x ∈ r.touched, x ∈ r'.touched
  conns : ∀ (j : Nat) (ep : Endpoint), r.listener.conns[j]? = some ep →
    ∃ ep', r'.listener.conns[j]? = some ep' ∧
      ∀ d ∈ ep.core.state.reliableDeliveries, d ∈ ep'.core.state.reliableDeliveries

theorem Grows.vouchedBy {r r' : Redial} (h : Grows r r') {x : Option Nat × Bytes}
    (hx : VouchedBy r x) : VouchedBy r' x := by
  intro p hp hack
  obtain ⟨j, ep, hj, hep, d, hd, hid⟩ := hx p hp hack
  obtain ⟨ep', hep', hsub⟩ := h.conns j ep hep
  exact ⟨j, ep', hj, hep', d, hsub d hd, hid⟩

theorem Grows.ackedBy {r r' : Redial} (h : Grows r r') {x : Nat × Accepted}
    (hx : AckedBy r x) : AckedBy r' x := by
  obtain ⟨j, ep, hep, hd, ht⟩ := hx
  obtain ⟨ep', hep', hsub⟩ := h.conns j ep hep
  exact ⟨j, ep', hep', hsub _ hd, h.touched _ ht⟩

theorem Grows.origin {r r' : Redial} (h : Grows r r') {j : Nat} {m : Accepted}
    (hm : ∃ (d : Nat) (D : Dial), r.dials[d]? = some D ∧ m ∈ D.ep.accepted ∧
      (j, d, m.msgId) ∈ r.touched) :
    ∃ (d : Nat) (D : Dial), r'.dials[d]? = some D ∧ m ∈ D.ep.accepted ∧
      (j, d, m.msgId) ∈ r'.touched := by
  obtain ⟨d, D, hD, hacc, ht⟩ := hm
  obtain ⟨D', hD', hpre⟩ := h.dials d D hD
  exact ⟨d, D', hD', hpre.subset hacc, h.touched _ ht⟩

theorem Grows.coreOf {r r' : Redial} (h : Grows r r') {j : Nat} {ep : Endpoint}
    (hc : CoreOf r j ep) : CoreOf r' j ep := by
  obtain ⟨log, hu, hr, hm⟩ := hc.receiver
  exact ⟨hc.sender, hc.known, hc.ctrlTx, log, hu, hr,
    fun m hmem => ⟨(hm m hmem).1, h.origin (hm m hmem).2⟩⟩

theorem Kept.grow {r r' : Redial} (h : Kept r) (hg : Grows r r')
    (hd : ∀ (i : Nat) (D : Dial), r'.dials[i]? = some D → SenderInv D.ep ∧ Numbered D.ep)
    (hl : ∀ x ∈ r'.toListener, x ∈ r.toListener ∨
      ∃ D, r'.dials[x.1]? = some D ∧ Emitted D.ep.accepted x.2)
    (hc : ∀ (j : Nat) (ep : Endpoint), r'.listener.conns[j]? = some ep →
      r.listener.conns[j]? = some ep ∨ CoreOf r' j ep)
    (hw : ∀ x ∈ r'.toDialer, x ∈ r.toDialer ∨ VouchedBy r' x)
    (ha : ∀ x ∈ r'.acked, x ∈ r.acked ∨ AckedBy r' x)
    (hf : ∀ x ∈ r'.touched, ∀ y ∈ r'.touched, x.1 = y.1 → x.2.2 = y.2.2 → x.2.1 = y.2.1) :
    Kept r' where
  dials := hd
  toListener := by
    intro x hx
    rcases hl x hx with hx | hx
    · obtain ⟨D, hD, hem⟩ := h.toListener x hx
      obtain ⟨D', hD', hpre⟩ := hg.dials x.1 D hD
      exact ⟨D', hD', hem.mono (fun m hm => hpre.subset hm)⟩
    · exact hx
  conns := by
    intro j ep hep
    rcases hc j ep hep with hep | hep
    · exact hg.coreOf (h.conns j ep hep)
    · exact hep
  toDialer := by
    intro x hx
    rcases hw x hx with hx | hx
    · exact hg.vouchedBy (h.toDialer x hx)
    · exact hx
  acked := by
    intro x hx
    rcases ha x hx with hx | hx
    · exact hg.ackedBy (h.acked x hx)
    · exact hx
  functional := hf

theorem Kept.setDial {r : Redial} (h : Kept r) {i : Nat} {D : Dial} (D' : Dial)
    (hD : r.dials[i]? = some D) (hs : SenderInv D'.ep) (hn : Numbered D'.ep)
    (ha : D.ep.accepted <+: D'.ep.accepted) :
    Kept (r.setDial i D') := by
  have hlt := (List.getElem?_eq_some_iff.mp hD).1
  refine h.grow ⟨?_, fun _ hx => hx, fun _ ep hep => ⟨ep, hep, fun _ hd => hd⟩⟩ ?_
    (fun _ hx => Or.inl hx) (fun _ _ hep => Or.inl hep) (fun _ hx => Or.inl hx)
    (fun _ hx => Or.inl hx) h.functional
  · intro k E hE
    by_cases hk : i = k
    · subst hk
      obtain rfl : D = E := Option.some.inj (hD.symm.trans hE)
      exact ⟨D', by simp [Redial.setDial, hlt], ha⟩
    · exact ⟨E, by simp [Redial.setDial, List.getElem?_set_ne hk, hE], List.prefix_rfl⟩
  · intro k E hE
    by_cases hk : i = k
    · subst hk
      obtain rfl : D' = E := by simpa [Redial.setDial, hlt] using hE
      exact ⟨hs, hn⟩
    · exact h.dials k E (by simpa [Redial.setDial, List.getElem?_set_ne hk] using hE)

theorem Kept.send {r : Redial} (h : Kept r) {x : Nat × Bytes}
    (hx : ∃ D, r.dials[x.1]? = some D ∧ Emitted D.ep.accepted x.2) :
    Kept { r with toListener := r.toListener ++ [x] } := by
  refine ⟨h.dials, ?_, ?_, h.toDialer, h.acked, h.functional⟩
  · intro y hy
    rcases List.mem_append.mp hy with hy | hy
    · exact h.toListener y hy
    · rw [List.mem_singleton.mp hy]
      exact hx
  · intro j ep hep
    obtain ⟨hs, hk, hc, hr⟩ := h.conns j ep hep
    exact ⟨hs, hk, hc, hr⟩

theorem Kept.ack {r : Redial} (h : Kept r) {xs : List (Nat × Accepted)}
    (hx : ∀ x ∈ xs, AckedBy r x) : Kept { r with acked := r.acked ++ xs } := by
  refine ⟨h.dials, h.toListener, ?_, h.toDialer, ?_, h.functional⟩
  · intro j ep hep
    obtain ⟨hs, hk, hc, hr⟩ := h.conns j ep hep
    exact ⟨hs, hk, hc, hr⟩
  · intro y hy
    rcases List.mem_append.mp hy with hy | hy
    · exact h.acked y hy
    · exact hx y hy

theorem Kept.addDial {r : Redial} (h : Kept r) (now : Instant) :
    Kept { r with
      dials := r.dials ++ [⟨Endpoint.ofCore (newCore dialWindow dialRto now), .check 10⟩] } := by
  refine h.grow ⟨?_, fun _ hx => hx, fun _ ep hep => ⟨ep, hep, fun _ hd => hd⟩⟩ ?_
    (fun _ hx => Or.inl hx) (fun _ _ hep => Or.inl hep) (fun _ hx => Or.inl hx)
    (fun _ hx => Or.inl hx) h.functional
  · intro i D hD
    refine ⟨D, ?_, List.prefix_rfl⟩
    simp only
    rw [List.getElem?_append_left (List.getElem?_eq_some_iff.mp hD).1]
    exact hD
  · intro i D hD
    simp only at hD
    rw [List.getElem?_append] at hD
    split_ifs at hD with hlt
    · exact h.dials i D hD
    · have hmem := List.mem_of_getElem? hD
      rw [List.mem_singleton.mp hmem]
      exact ⟨SenderInv.ofCore rfl rfl rfl, Numbered.ofCore rfl⟩

theorem removed_by_ack {ep : Endpoint} {now : Instant} {b : Bytes} {m : Accepted}
    (hm : m ∈ removedInFlight ep.core.state (ep.receive now b).core.state) :
    ∃ p inf, recvFrom b = some p ∧ p.isAck = true ∧ ep.core.state.closed = false ∧
      ep.core.state.inFlight.lookup p.msgId = some inf ∧ m = ⟨p.msgId, inf.data, inf.stream⟩ := by
  obtain ⟨e, he, rfl⟩ := List.mem_map.mp hm
  obtain ⟨hmem, hgone⟩ := List.mem_filter.mp he
  have hl := AList.lookup_of_mem_entries hmem
  have hgone' : e.1 ∉ (ep.receive now b).core.state.inFlight := by simpa using hgone
  have hin : e.1 ∈ ep.core.state.inFlight := AList.mem_of_lookup hl
  cases hp : recvFrom b with
  | none =>
    rw [receive_none hp] at hgone'
    exact absurd hin hgone'
  | some p =>
    cases hk : handlePacket now ep.core p with
    | error err =>
      rw [receive_error hp hk] at hgone'
      exact absurd hin hgone'
    | ok core =>
      rw [receive_ok hp hk] at hgone'
      rcases handlePacket_inFlight hk with hsame | ⟨hc, hack, herase⟩
      · rw [hsame] at hgone'
        exact absurd hin hgone'
      · have hid : e.1 = p.msgId := by
          by_contra hne
          refine hgone' (AList.mem_of_lookup (v := e.2) ?_)
          rw [herase, AList.lookup_erase_eq, if_neg hne]
          exact hl
        exact ⟨p, e.2, rfl, hack, hc, hid ▸ hl, by rw [hid]⟩

theorem Kept.ackedBy {r : Redial} (h : Kept r) {i k : Nat} {now : Instant} {src : SocketAddr}
    (hu : Unmixed src r (.dialReceive i k now)) {D : Dial} (hD : r.dials[i]? = some D)
    (hlen : D.ep.accepted.length < maxSends) {x : Option Nat × Bytes}
    (hx : r.toDialer[k]? = some x) {m : Accepted}
    (hm : m ∈ removedInFlight D.ep.core.state (D.ep.receive now x.2).core.state) :
    AckedBy r (i, m) := by
  obtain ⟨p, inf, hp, hack, hopen, hl, rfl⟩ := removed_by_ack hm
  obtain ⟨j, hj, ht⟩ := hu D hD x hx p hp hack hopen (AList.mem_of_lookup hl)
  obtain ⟨j', ep, hj', hep, d, hd, hid⟩ := h.toDialer x (List.mem_of_getElem? hx) p hp hack
  obtain rfl : j = j' := by simpa [hj'] using hj
  obtain ⟨log, -, hr, horigin⟩ := (h.conns j ep hep).receiver
  obtain ⟨m', hm', rfl⟩ := hr.reliable d hd
  obtain ⟨-, e, E, hE, hacc, ht'⟩ := horigin m' hm'
  have hei : e = i := h.functional _ ht' _ ht rfl hid
  subst hei
  obtain rfl : D = E := Option.some.inj (hD.symm.trans hE)
  obtain ⟨hs, hn⟩ := h.dials e D hD
  have hmem := (hs.inFlight p.msgId inf hl).1
  obtain rfl : m' = ⟨p.msgId, inf.data, inf.stream⟩ := hn.unique hlen hacc hmem hid
  exact ⟨j, ep, hep, hd, ht⟩

theorem act_vouched {ep ep' : Endpoint} {a : Action} (h : ep.act a = some ep')
    (hv : ∀ b ∈ ep.core.ctrlTx, Vouched ep.core.state b) :
    ∀ b ∈ ep'.core.ctrlTx, Vouched ep'.core.state b := by
  intro b hb
  have hq := (act_receiver h).quiet.reliable
  rcases act_ctrlTx h b hb with hb | rfl | ⟨-, rfl⟩
  · exact (hv b hb).mono (by rw [hq]; exact fun d hd => hd)
  · exact vouched_control (by decide) (fun hack => absurd hack (by decide))
  · exact vouched_control (by decide) (fun hack => absurd hack (by decide))

theorem CoreOf.same {r : Redial} {j : Nat} {ep ep' : Endpoint} (h : CoreOf r j ep)
    (hr : SameReceiver ep ep') (hs : SenderInv ep')
    (hv : ∀ b ∈ ep'.core.ctrlTx, Vouched ep'.core.state b) : CoreOf r j ep' := by
  obtain ⟨log, hu, hrecv, hm⟩ := h.receiver
  exact ⟨hs, hr.quiet.known h.known, hv, log, hu, hr.receiverInv hrecv, hm⟩

theorem Kept.setConn {r : Redial} (h : Kept r) {j : Nat} {ep ep' : Endpoint}
    (hep : r.listener.conns[j]? = some ep) (hr : SameReceiver ep ep') (hs : SenderInv ep')
    (hv : ∀ b ∈ ep'.core.ctrlTx, Vouched ep'.core.state b) :
    Kept { r with listener := { r.listener with conns := r.listener.conns.set j ep' } } := by
  have hlt := (List.getElem?_eq_some_iff.mp hep).1
  refine h.grow ⟨fun _ D hD => ⟨D, hD, List.prefix_rfl⟩, fun _ hx => hx, ?_⟩ h.dials
    (fun _ hx => Or.inl hx) ?_ (fun _ hx => Or.inl hx) (fun _ hx => Or.inl hx) h.functional
  · intro k E hE
    by_cases hk : j = k
    · subst hk
      obtain rfl : ep = E := Option.some.inj (hep.symm.trans hE)
      exact ⟨ep', by simp [hlt], by rw [hr.quiet.reliable]; exact fun d hd => hd⟩
    · exact ⟨E, by simp [List.getElem?_set_ne hk, hE], fun d hd => hd⟩
  · intro k E hE
    by_cases hk : j = k
    · subst hk
      obtain rfl : ep' = E := by simpa [hlt] using hE
      obtain ⟨hs', hk', hc', hr'⟩ := (h.conns j ep hep).same hr hs hv
      exact Or.inr ⟨hs', hk', hc', hr'⟩
    · exact Or.inl (by simpa [List.getElem?_set_ne hk] using hE)

theorem Kept.reply {r : Redial} (h : Kept r) (xs : List (Option Nat × Bytes))
    (hx : ∀ x ∈ xs, VouchedBy r x) : Kept { r with toDialer := r.toDialer ++ xs } := by
  refine ⟨h.dials, h.toListener, ?_, ?_, h.acked, h.functional⟩
  · intro j ep hep
    obtain ⟨hs, hk, hc, hr⟩ := h.conns j ep hep
    exact ⟨hs, hk, hc, hr⟩
  · intro y hy
    rcases List.mem_append.mp hy with hy | hy
    · exact h.toDialer y hy
    · exact hx y hy

theorem Kept.connPump {r : Redial} (h : Kept r) {j : Nat} {ep ep' : Endpoint} {d : Bytes}
    (hep : r.listener.conns[j]? = some ep) (hp : ep.pump = some (d, ep')) :
    Kept { r with
      listener := { r.listener with conns := r.listener.conns.set j ep' }
      toDialer := r.toDialer ++ [(some j, d)] } := by
  have hcore := h.conns j ep hep
  have hlt := (List.getElem?_eq_some_iff.mp hep).1
  have hq := (pump_receiver hp).quiet.reliable
  have hv : Vouched ep.core.state d ∧ ∀ b ∈ ep'.core.ctrlTx, b ∈ ep.core.ctrlTx := by
    rcases pump_cases hp with ⟨ctrl, hc, rfl⟩ | ⟨data, hc, hd, rfl⟩
    · exact ⟨hcore.ctrlTx d (by simp [hc]), fun b hb => by rw [hc]; exact List.mem_cons_of_mem d hb⟩
    · exact ⟨vouched_fragment _ (hcore.sender.dataTx d (by simp [hd])), fun b hb => hb⟩
  have hset := h.setConn hep (pump_receiver hp) (hcore.sender.pump hp).1
    (fun b hb => (hcore.ctrlTx b (hv.2 b hb)).mono (by rw [hq]; exact fun d hd => hd))
  refine hset.reply _ ?_
  intro x hx
  rw [List.mem_singleton.mp hx]
  intro p hrecv hack
  obtain ⟨dl, hdl, hid⟩ := hv.1 p hrecv hack
  exact ⟨j, ep', rfl, by simp [hlt], dl, by rw [hq]; exact hdl, hid⟩

def Bounded (r : Redial) : Prop := ∀ D ∈ r.dials, D.ep.accepted.length < maxSends

theorem coreFor_conn {l : Listener} {src : SocketAddr} {j : Nat} {ep : Endpoint}
    (h : l.coreFor src = some (j, ep)) : l.conns[j]? = some ep := by
  obtain ⟨i, -, hi⟩ := Option.bind_eq_some_iff.mp h
  obtain ⟨ep', hep, heq⟩ := Option.map_eq_some_iff.mp hi
  cases heq
  exact hep

theorem touch_cases (src : SocketAddr) (r : Redial) (d : Nat) (b : Bytes) :
    r.touch src d b = [] ∨ ∃ j p, r.touch src d b = [(j, d, p.msgId)] ∧ recvFrom b = some p := by
  unfold Redial.touch
  split
  · next p j ep hp hcf =>
    split_ifs
    · exact Or.inr ⟨j, p, rfl, hp⟩
    · exact Or.inl rfl
  · exact Or.inl rfl

theorem touched_functional {src : SocketAddr} {r : Redial} (h : Kept r) {k : Nat} {now : Instant}
    (hu : Unmixed src r (.listen k now)) {x : Nat × Bytes} (hx : r.toListener[k]? = some x) :
    ∀ y ∈ r.touched ++ r.touch src x.1 x.2, ∀ z ∈ r.touched ++ r.touch src x.1 x.2,
      y.1 = z.1 → y.2.2 = z.2.2 → y.2.1 = z.2.1 := by
  intro y hy z hz hj hid
  rcases List.mem_append.mp hy with hy | hy
  · rcases List.mem_append.mp hz with hz | hz
    · exact h.functional y hy z hz hj hid
    · exact hu x hx z hz y hy hj hid
  · rcases List.mem_append.mp hz with hz | hz
    · exact (hu x hx y hy z hz hj.symm hid.symm).symm
    · rcases touch_cases src r x.1 x.2 with hnil | ⟨j, p, hone, -⟩
      · simp [hnil] at hy
      · rw [hone] at hy hz
        rw [List.mem_singleton.mp hy, List.mem_singleton.mp hz]

theorem handle_log {src : SocketAddr} {r : Redial} (h : Kept r) (hb : Bounded r) {k : Nat}
    {now : Instant} (hu : Unmixed src r (.listen k now)) {x : Nat × Bytes}
    (hx : r.toListener[k]? = some x) {p : Packet} (hp : recvFrom x.2 = some p) {j : Nat}
    {ep : Endpoint} (hcf : r.listener.coreFor src = some (j, ep)) {core : Core}
    (hk : handlePacket now ep.core p = .ok core) :
    (∃ log, UniqueIds log ∧ ReceiverInv log core.state ∧ ∀ m ∈ log, Sized m.data ∧
      ∃ (d : Nat) (D : Dial), r.dials[d]? = some D ∧ m ∈ D.ep.accepted ∧
        (j, d, m.msgId) ∈ r.touched ++ r.touch src x.1 x.2) ∧
      (Quiet ep.core.state core.state ∨ ∃ m, Put ep.core.state core.state p m) := by
  obtain ⟨log, hlog, hrecv, horigin⟩ := (h.conns j ep (coreFor_conn hcf)).receiver
  have hold : ∀ m ∈ log, Sized m.data ∧ ∃ (d : Nat) (D : Dial), r.dials[d]? = some D ∧
      m ∈ D.ep.accepted ∧ (j, d, m.msgId) ∈ r.touched ++ r.touch src x.1 x.2 := by
    intro m hm
    obtain ⟨hs, d, D, hD, hacc, ht⟩ := horigin m hm
    exact ⟨hs, d, D, hD, hacc, List.mem_append_left _ ht⟩
  by_cases hq : ep.core.state.closed = true ∨ p.isFragment = false
  · obtain ⟨core', hok, hf⟩ := handlePacket_frame now ep.core hq
    obtain rfl : core' = core := Except.ok.inj (hok.symm.trans hk)
    exact ⟨⟨log, hlog, ⟨hf.assemblers ▸ hrecv.assemblers, hf.reliable ▸ hrecv.reliable⟩, hold⟩,
      Or.inl ⟨hf.delivered, hf.reliable⟩⟩
  simp only [not_or, Bool.not_eq_true, Bool.not_eq_false] at hq
  by_cases hfull : ep.core.state.TableFull p.msgId
  · have hfull' : (ep.core.touch now).state.TableFull p.msgId := hfull
    rw [handlePacket_fragment hq.1 hq.2, handleFragment_full hfull'] at hk
    cases hk
    exact ⟨⟨log, hlog, ⟨hrecv.assemblers, hrecv.reliable⟩, hold⟩, Or.inl ⟨rfl, rfl⟩⟩
  obtain ⟨D, hD, hem⟩ := h.toListener x (List.mem_of_getElem? hx)
  obtain ⟨hs, hn⟩ := h.dials x.1 D hD
  obtain ⟨m, hm, hfrag⟩ := recv_emitted hs.size hem hp hq.2
  have htouch : r.touch src x.1 x.2 = [(j, x.1, p.msgId)] := by
    simp only [Redial.touch, hp, hcf]
    rw [if_pos ⟨hq.2, hq.1, hfull⟩]
  have hsame : ∀ m' ∈ log, m'.msgId = m.msgId → m' = m := by
    intro m' hm' hid
    obtain ⟨-, d, E, hE, hacc, ht⟩ := horigin m' hm'
    have hd : d = x.1 := hu x hx (j, x.1, p.msgId) (by simp [htouch]) _ ht rfl
      (hid.trans hfrag.msgId.symm)
    subst hd
    obtain rfl : D = E := Option.some.inj (hD.symm.trans hE)
    exact hn.unique (hb D (List.mem_of_getElem? hD)) hacc hm hid
  have hu' : UniqueIds (m :: log) := hlog.cons hsame
  obtain ⟨core', hok, hinv, hcase⟩ := handlePacket_honest hu' now (p := p)
    (hrecv.mono (fun m' hm' => List.mem_cons_of_mem m hm'))
    (fun _ => ⟨m, List.mem_cons_self, hfrag⟩)
  obtain rfl : core' = core := Except.ok.inj (hok.symm.trans hk)
  refine ⟨⟨m :: log, hu', hinv, ?_⟩, ?_⟩
  · intro a ha
    rcases List.mem_cons.mp ha with rfl | ha
    · exact ⟨hs.size a hm, x.1, D, hD, hm, by simp [htouch, hfrag.msgId]⟩
    · exact hold a ha
  · rcases hcase with hquiet | ⟨-, -, m', -, -, hput⟩
    · exact Or.inl hquiet
    · exact Or.inr ⟨m', hput⟩

theorem Kept.handle {src : SocketAddr} {r : Redial} (h : Kept r) (hb : Bounded r) {k : Nat}
    {now : Instant} (hu : Unmixed src r (.listen k now)) {x : Nat × Bytes}
    (hx : r.toListener[k]? = some x) {p : Packet} (hp : recvFrom x.2 = some p) {j : Nat}
    {ep : Endpoint} (hcf : r.listener.coreFor src = some (j, ep)) {core : Core}
    (hk : handlePacket now ep.core p = .ok core) :
    Kept { r with
      listener := { r.listener with conns := r.listener.conns.set j { ep with core := core } }
      touched := r.touched ++ r.touch src x.1 x.2 } := by
  have hep := coreFor_conn hcf
  have hlt := (List.getElem?_eq_some_iff.mp hep).1
  have hcore := h.conns j ep hep
  obtain ⟨hlog, hcase⟩ := handle_log h hb hu hx hp hcf hk
  have hsub : ∀ d ∈ ep.core.state.reliableDeliveries, d ∈ core.state.reliableDeliveries := by
    rcases hcase with hq | ⟨m, hput⟩
    · rw [hq.reliable]
      exact fun d hd => hd
    · rw [hput.reliable]
      exact fun d hd => List.mem_append_left _ hd
  have hknown : core.state.Known := by
    rcases hcase with hq | ⟨m, hput⟩
    · exact hq.known hcore.known
    · exact hput.known hcore.known
  refine h.grow ⟨fun _ D hD => ⟨D, hD, List.prefix_rfl⟩,
    fun _ hy => List.mem_append_left _ hy, ?_⟩ h.dials (fun _ hy => Or.inl hy) ?_
    (fun _ hy => Or.inl hy) (fun _ hy => Or.inl hy) (touched_functional h hu hx)
  · intro i E hE
    by_cases hi : j = i
    · subst hi
      obtain rfl : ep = E := Option.some.inj (hep.symm.trans hE)
      exact ⟨{ ep with core := core }, by simp [hlt], hsub⟩
    · exact ⟨E, by simp [List.getElem?_set_ne hi, hE], fun d hd => hd⟩
  · intro i E hE
    by_cases hi : j = i
    · subst hi
      obtain rfl : { ep with core := core } = E := by simpa [hlt] using hE
      refine Or.inr ⟨hcore.sender.setCore (handlePacket_sender hk), hknown, ?_, hlog⟩
      intro b hbc
      rcases handlePacket_vouched hcore.known hk b hbc with hold | hnew
      · exact (hcore.ctrlTx b hold).mono hsub
      · exact hnew
    · exact Or.inl (by simpa [List.getElem?_set_ne hi] using hE)

theorem Kept.open {r : Redial} (h : Kept r) (now : Instant) (src : SocketAddr) :
    Kept { r with listener := r.listener.open now src } := by
  refine h.grow ⟨fun _ D hD => ⟨D, hD, List.prefix_rfl⟩, fun _ hy => hy, ?_⟩ h.dials
    (fun _ hy => Or.inl hy) ?_ (fun _ hy => Or.inl hy) (fun _ hy => Or.inl hy) h.functional
  · intro j ep hep
    refine ⟨ep, ?_, fun d hd => hd⟩
    simp only [Listener.open]
    rw [List.getElem?_append_left (List.getElem?_eq_some_iff.mp hep).1]
    exact hep
  · intro j ep hep
    simp only [Listener.open] at hep
    rw [List.getElem?_append] at hep
    split_ifs at hep with hlt
    · exact Or.inl hep
    · have hmem := List.mem_of_getElem? hep
      rw [List.mem_singleton.mp hmem]
      refine Or.inr ⟨SenderInv.ofCore rfl rfl rfl, ?_, ?_, [], ?_, ⟨?_, ?_⟩, ?_⟩
      · simp [CoreState.Known, Endpoint.ofCore, acceptedCore, newCore]
      · simp [Endpoint.ofCore, acceptedCore, newCore]
      · simp [UniqueIds]
      · simp [Endpoint.ofCore, acceptedCore, newCore]
      · simp [Endpoint.ofCore, acceptedCore, newCore, CoreState.reliableDeliveries]
      · simp

theorem synAck_vouched (r : Redial) : VouchedBy r (none, encode synAck) := by
  intro p hp hack
  rw [recvFrom_control (p := synAck) (control_isControl (by decide) _ _)] at hp
  cases hp
  exact absurd hack (by decide)

theorem Kept.frame {r r' : Redial} (h : Kept r) (hd : r'.dials = r.dials)
    (hc : r'.listener.conns = r.listener.conns) (ht : r'.touched = r.touched)
    (hl : ∀ x ∈ r'.toListener, x ∈ r.toListener) (hw : ∀ x ∈ r'.toDialer, x ∈ r.toDialer)
    (ha : r'.acked = r.acked) : Kept r' := by
  refine h.grow ⟨?_, ?_, ?_⟩ ?_ (fun x hx => Or.inl (hl x hx)) ?_ (fun x hx => Or.inl (hw x hx))
    ?_ ?_
  · rw [hd]
    exact fun _ D hD => ⟨D, hD, List.prefix_rfl⟩
  · rw [ht]
    exact fun _ hx => hx
  · rw [hc]
    exact fun _ ep hep => ⟨ep, hep, fun _ hd => hd⟩
  · rw [hd]
    exact h.dials
  · rw [hc]
    exact fun _ _ hep => Or.inl hep
  · rw [ha]
    exact fun _ hx => Or.inl hx
  · rw [ht]
    exact h.functional

inductive Answered (l : Listener) (now : Instant) (src : SocketAddr) (p : Packet)
    (l' : Listener) : Prop where
  | syn (hsyn : p.has flagSyn = true) (hs : l'.sent = l.sent ++ [(src, encode synAck)])
      (hc : l'.conns = l.conns ∨ l'.conns = (l.open now src).conns)
  | handled (hs : l'.sent = l.sent) (j : Nat) (ep : Endpoint) (core : Core)
      (hcf : l.coreFor src = some (j, ep)) (hk : handlePacket now ep.core p = .ok core)
      (hc : l'.conns = l.conns.set j { ep with core := core })
  | unhandled (hs : l'.sent = l.sent) (hc : l'.conns = l.conns)

theorem onPacket_answered (l : Listener) (now : Instant) (src : SocketAddr) (p : Packet) :
    Answered l now src p (l.onPacket now src p) := by
  unfold Listener.onPacket
  by_cases hsyn : p.has flagSyn = true
  · rw [if_pos hsyn]
    by_cases hr : l.replaceClosed src = true
    · rw [if_pos hr]
      exact .syn hsyn rfl (Or.inr rfl)
    · rw [if_neg hr]
      exact .syn hsyn rfl (Or.inl rfl)
  · rw [if_neg hsyn]
    cases hcf : l.coreFor src with
    | none => exact .unhandled rfl rfl
    | some y =>
      obtain ⟨j, ep⟩ := y
      simp only
      cases hk : handlePacket now ep.core p with
      | ok core => exact .handled rfl j ep core hcf hk rfl
      | error e => exact .unhandled rfl rfl

theorem touch_syn {src : SocketAddr} {r : Redial} {d : Nat} {b : Bytes} {p : Packet}
    (hp : recvFrom b = some p) (hsyn : p.has flagSyn = true) : r.touch src d b = [] := by
  have hf : ¬p.isFragment = true := by simp [Packet.isFragment, hsyn]
  unfold Redial.touch
  rw [hp]
  split
  · next q j ep hq _ =>
    cases hq
    rw [if_neg (fun h => hf h.1)]
  · rfl

theorem Kept.touches {src : SocketAddr} {r : Redial} (h : Kept r) {k : Nat} {now : Instant}
    (hu : Unmixed src r (.listen k now)) {x : Nat × Bytes} (hx : r.toListener[k]? = some x) :
    Kept { r with touched := r.touched ++ r.touch src x.1 x.2 } :=
  h.grow ⟨fun _ D hD => ⟨D, hD, List.prefix_rfl⟩, fun _ hy => List.mem_append_left _ hy,
    fun _ ep hep => ⟨ep, hep, fun _ hd => hd⟩⟩ h.dials (fun _ hy => Or.inl hy)
    (fun _ _ hep => Or.inl hep) (fun _ hy => Or.inl hy) (fun _ hy => Or.inl hy)
    (touched_functional h hu hx)

theorem replies_same {r : Redial} {l : Listener} (h : l.sent = r.listener.sent) :
    r.toDialer ++ r.replies l = r.toDialer := by
  simp [Redial.replies, h]

theorem Kept.listen {src : SocketAddr} {r : Redial} (h : Kept r) (hb : Bounded r) {k : Nat}
    {now : Instant} (hu : Unmixed src r (.listen k now)) {x : Nat × Bytes} {l : Listener}
    (hx : r.toListener[k]? = some x) (hl : r.listener.step (.datagram now src x.2) = some l) :
    Kept { r with
      listener := l
      touched := r.touched ++ r.touch src x.1 x.2
      toDialer := r.toDialer ++ r.replies l } := by
  simp only [Listener.step] at hl
  split_ifs at hl with htask
  cases hp : recvFrom x.2 with
  | none =>
    rw [hp] at hl
    cases hl
    have hsame := replies_same (r := r) (l := r.listener) rfl
    exact (h.touches hu hx).frame rfl rfl rfl (fun _ hy => hy) (fun _ hy => hsame ▸ hy) rfl
  | some p =>
    rw [hp] at hl
    obtain rfl : r.listener.onPacket now src p = l := Option.some.inj hl
    cases onPacket_answered r.listener now src p with
    | syn hsyn hs hc =>
      have htouch : r.touch src x.1 x.2 = [] := touch_syn hp hsyn
      have hkept : Kept { r with listener := r.listener.onPacket now src p } := by
        rcases hc with hc | hc
        · exact h.frame rfl hc rfl (fun _ hy => hy) (fun _ hy => hy) rfl
        · exact (h.open now src).frame rfl hc rfl (fun _ hy => hy) (fun _ hy => hy) rfl
      have hreply := hkept.reply [(none, encode synAck)]
        (fun y hy => List.mem_singleton.mp hy ▸ synAck_vouched _)
      refine hreply.frame rfl rfl (by simp [htouch]) (fun _ hy => hy) (fun y hy => ?_) rfl
      simpa [Redial.replies, hs] using hy
    | handled hs j ep core hcf hk hc =>
      have hsame := replies_same (r := r) hs
      exact (h.handle hb hu hx hp hcf hk).frame rfl hc rfl (fun _ hy => hy)
        (fun _ hy => hsame ▸ hy) rfl
    | unhandled hs hc =>
      have hsame := replies_same (r := r) hs
      exact (h.touches hu hx).frame rfl hc rfl (fun _ hy => hy) (fun _ hy => hsame ▸ hy) rfl

theorem setDial_keeps {r : Redial} {i : Nat} {D : Dial} (D' : Dial) (hD : r.dials[i]? = some D)
    (ha : D.ep.accepted <+: D'.ep.accepted) :
    ∀ E ∈ r.dials, ∃ E' ∈ (r.setDial i D').dials, E.ep.accepted <+: E'.ep.accepted := by
  intro E hE
  obtain ⟨k, hk⟩ := List.mem_iff_getElem?.mp hE
  have hlt := (List.getElem?_eq_some_iff.mp hD).1
  by_cases hik : i = k
  · subst hik
    obtain rfl : D = E := Option.some.inj (hD.symm.trans hk)
    exact ⟨D', List.mem_of_getElem? (i := i) (by simp [Redial.setDial, hlt]), ha⟩
  · refine ⟨E, List.mem_of_getElem? (i := k) ?_, List.prefix_rfl⟩
    simp [Redial.setDial, List.getElem?_set_ne hik, hk]

theorem Kept.dialPump {r : Redial} (h : Kept r) {i : Nat} {D : Dial} {ep : Endpoint} {d : Bytes}
    (hD : r.dials[i]? = some D) (hpump : D.ep.pump = some (d, ep)) :
    Kept { r.setDial i { D with ep := ep } with toListener := r.toListener ++ [(i, d)] } := by
  have hacc := pump_accepted hpump
  obtain ⟨hsend, hnum⟩ := h.dials i D hD
  obtain ⟨hsend', hem⟩ := hsend.pump hpump
  have hset := h.setDial { D with ep := ep } hD hsend' (pump_numbered hnum hpump)
    (hacc ▸ List.prefix_rfl)
  refine hset.send ⟨{ D with ep := ep }, ?_, by simpa [hacc] using hem⟩
  simp [Redial.setDial, (List.getElem?_eq_some_iff.mp hD).1]

theorem Kept.dialReceive {src : SocketAddr} {r : Redial} (h : Kept r) {i k : Nat} {now : Instant}
    (hu : Unmixed src r (.dialReceive i k now)) {D : Dial} (hD : r.dials[i]? = some D)
    (hlen : D.ep.accepted.length < maxSends) {x : Option Nat × Bytes}
    (hx : r.toDialer[k]? = some x) :
    Kept { r.setDial i { D with ep := D.ep.receive now x.2 } with
      acked := r.acked ++
        (removedInFlight D.ep.core.state (D.ep.receive now x.2).core.state).map
          (fun m => (i, m)) } := by
  obtain ⟨hsend, hnum⟩ := h.dials i D hD
  have hset := h.setDial { D with ep := D.ep.receive now x.2 } hD (hsend.receive now x.2)
    (receive_numbered hnum now x.2) (receive_accepted D.ep now x.2 ▸ List.prefix_rfl)
  refine hset.ack ?_
  intro y hy
  obtain ⟨m, hm, rfl⟩ := List.mem_map.mp hy
  exact h.ackedBy hu hD hlen hx hm

theorem Kept.step {src : SocketAddr} {r r' : Redial} {e : RedialEvent} (h : Bounded r → Kept r)
    (hb : Bounded r') (hu : Unmixed src r e) (hs : r.step src e = some r') : Kept r' := by
  have bounded (hk : ∀ E ∈ r.dials, ∃ E' ∈ r'.dials, E.ep.accepted <+: E'.ep.accepted) :
      Bounded r := by
    intro E hE
    obtain ⟨E', hE', hpre⟩ := hk E hE
    exact lt_of_le_of_lt hpre.length_le (hb E' hE')
  have same (hd : r'.dials = r.dials) : Kept r := h (bounded (by
    rw [hd]
    exact fun E hE => ⟨E, hE, List.prefix_rfl⟩))
  cases e with
  | dial now =>
    cases hs
    exact (h (bounded (fun E hE => ⟨E, List.mem_append_left _ hE, List.prefix_rfl⟩))).addDial now
  | handshake i de =>
    obtain ⟨D, hD, hrest⟩ := Option.bind_eq_some_iff.mp hs
    obtain ⟨⟨pc, core⟩, hstep, rfl⟩ := Option.map_eq_some_iff.mp hrest
    have hkept := h (bounded (setDial_keeps _ hD List.prefix_rfl))
    obtain ⟨hsend, hnum⟩ := hkept.dials i D hD
    rcases dialStep_cases hstep with rfl | ⟨p, hp, rfl⟩
    · exact hkept.setDial _ hD hsend hnum List.prefix_rfl
    · exact hkept.setDial _ hD (hsend.sendCtrl hp.1) (hnum.of_eq rfl rfl) List.prefix_rfl
  | dialAct i a =>
    obtain ⟨D, hD, hrest⟩ := Option.bind_eq_some_iff.mp hs
    split_ifs at hrest
    obtain ⟨ep, hact, rfl⟩ := Option.map_eq_some_iff.mp hrest
    have hkept := h (bounded (setDial_keeps _ hD (act_accepted hact)))
    obtain ⟨hsend, hnum⟩ := hkept.dials i D hD
    exact hkept.setDial _ hD (hsend.act hact) (hnum.act hact) (act_accepted hact)
  | dialPump i =>
    obtain ⟨D, hD, hrest⟩ := Option.bind_eq_some_iff.mp hs
    obtain ⟨⟨d, ep⟩, hpump, rfl⟩ := Option.map_eq_some_iff.mp hrest
    have hpre : D.ep.accepted <+: ep.accepted := pump_accepted hpump ▸ List.prefix_rfl
    exact (h (bounded (setDial_keeps { D with ep := ep } hD hpre))).dialPump hD hpump
  | dialReceive i k now =>
    obtain ⟨D, hD, hrest⟩ := Option.bind_eq_some_iff.mp hs
    obtain ⟨x, hx, hrest⟩ := Option.bind_eq_some_iff.mp hrest
    split_ifs at hrest
    cases hrest
    have hpre : D.ep.accepted <+: (D.ep.receive now x.2).accepted :=
      receive_accepted D.ep now x.2 ▸ List.prefix_rfl
    have hold := bounded (setDial_keeps { D with ep := D.ep.receive now x.2 } hD hpre)
    exact (h hold).dialReceive hu hD (hold D (List.mem_of_getElem? hD)) hx
  | listen k now =>
    obtain ⟨x, hx, hrest⟩ := Option.bind_eq_some_iff.mp hs
    obtain ⟨l, hl, rfl⟩ := Option.map_eq_some_iff.mp hrest
    exact (same rfl).listen hb hu hx hl
  | connAct j a =>
    obtain ⟨l, hl, rfl⟩ := Option.map_eq_some_iff.mp hs
    have hkept := same rfl
    obtain ⟨ep, hep, hrest⟩ := Option.bind_eq_some_iff.mp hl
    obtain ⟨ep', hact, rfl⟩ := Option.map_eq_some_iff.mp hrest
    have hcore := hkept.conns j ep hep
    exact hkept.setConn hep (act_receiver hact) (hcore.sender.act hact)
      (act_vouched hact hcore.ctrlTx)
  | connPump j =>
    obtain ⟨ep, hep, hrest⟩ := Option.bind_eq_some_iff.mp hs
    obtain ⟨⟨d, ep'⟩, hpump, rfl⟩ := Option.map_eq_some_iff.mp hrest
    exact (same rfl).connPump hep hpump
  | loseToListener k =>
    cases hs
    exact (same rfl).frame rfl rfl rfl (fun _ hx => List.mem_of_mem_eraseIdx hx)
      (fun _ hx => hx) rfl
  | loseToDialer k =>
    cases hs
    exact (same rfl).frame rfl rfl rfl (fun _ hx => hx)
      (fun _ hx => List.mem_of_mem_eraseIdx hx) rfl

theorem kept_init : Kept Redial.init where
  dials := by simp [Redial.init]
  toListener := by simp [Redial.init]
  conns := by simp [Redial.init, Listener.new]
  toDialer := by simp [Redial.init]
  acked := by simp [Redial.init]
  functional := by simp [Redial.init]

theorem acked_delivered_when_unmixed {src : SocketAddr} {es : List RedialEvent} {r : Redial}
    (hrun : Machine.run (Redial.step src) Redial.init es = some r)
    (hsends : ∀ D ∈ r.dials, D.ep.accepted.length < maxSends)
    (hu : Machine.Along (Redial.step src) (Unmixed src) Redial.init es) : AckedDelivered r := by
  have h : Bounded r → Kept r := Machine.run_invariant_along
    (fun _ _ _ h hc hs hb => Kept.step h hb hc hs) (fun _ => kept_init) hu hrun
  intro x hx
  obtain ⟨j, ep, hep, hd, ht⟩ := (h hsends).acked x hx
  exact ⟨j, ep, hep, List.mem_of_mem_filter hd, ht⟩

def redialAddr : SocketAddr := ⟨[127, 0, 0, 1], 40000⟩

def dialAndSend (i syn synAck data : Nat) (payload : Bytes) : List RedialEvent :=
  ([.dial 0, .handshake i .attempt, .dialPump i, .listen syn 0, .dialReceive i synAck 0,
    .handshake i .notified, .dialPump i] : List RedialEvent) ++
  (sendActions 0 payload .batch).map (RedialEvent.dialAct i) ++
    ([.dialPump i, .listen data 0] : List RedialEvent)

-- The first dial ends with a FIN, so the second one gets a core of its own.
def redialAfterFin : List RedialEvent :=
  dialAndSend 0 0 0 2 [1] ++
    ([.connPump 0, .dialReceive 0 1 0, .dialAct 0 .close, .dialPump 0, .listen 3 0] :
      List RedialEvent) ++
  dialAndSend 1 4 2 6 [2] ++ ([.connPump 1, .dialReceive 1 3 0] : List RedialEvent)

def secondDialAcked : List RedialEvent :=
  dialAndSend 0 0 0 2 [1] ++ [RedialEvent.connPump 0] ++ dialAndSend 1 3 2 5 [2] ++
    ([.connPump 0, .dialReceive 1 3 0] : List RedialEvent)

theorem redial_after_fin_delivered :
    ∃ r, Machine.run (Redial.step redialAddr) Redial.init redialAfterFin = some r ∧
      r.acked = [(0, ⟨1, [1], .batch⟩), (1, ⟨1, [2], .batch⟩)] ∧ AckedDelivered r := by
  have hrun : (Machine.run (Redial.step redialAddr) Redial.init redialAfterFin).map
      (fun r => (r.acked, r.dials.map (fun D => D.ep.accepted.length))) =
      some ([(0, ⟨1, [1], .batch⟩), (1, ⟨1, [2], .batch⟩)], [1, 1]) := by decide +kernel
  obtain ⟨r, hr, heq⟩ := Option.map_eq_some_iff.mp hrun
  obtain ⟨hacked, hlens⟩ := Prod.mk.inj heq
  refine ⟨r, hr, hacked, acked_delivered_when_unmixed hr ?_ (by decide +kernel)⟩
  intro D hD
  have hmem : D.ep.accepted.length ∈ r.dials.map (fun D => D.ep.accepted.length) :=
    List.mem_map.mpr ⟨D, hD, rfl⟩
  rw [hlens] at hmem
  have hone : D.ep.accepted.length = 1 := by simpa using hmem
  rw [hone]
  decide

theorem redial_acks_undelivered_message :
    ¬∀ (src : SocketAddr) (es : List RedialEvent) (r : Redial),
      Machine.run (Redial.step src) Redial.init es = some r → AckedDelivered r := by
  intro h
  have hrun : (Machine.run (Redial.step redialAddr) Redial.init secondDialAcked).map
      (fun r => (r.acked, r.listener.conns.map (fun ep => ep.core.state.deliverTx))) =
      some ([(1, ⟨1, [2], .batch⟩)], [[⟨1, [1], .batch⟩]]) := by decide
  obtain ⟨r, hr, heq⟩ := Option.map_eq_some_iff.mp hrun
  obtain ⟨hacked, htx⟩ := Prod.mk.inj heq
  obtain ⟨j, ep, hep, hd, -⟩ := h redialAddr _ r hr (1, ⟨1, [2], .batch⟩) (by simp [hacked])
  have hmem : ep.core.state.deliverTx ∈ r.listener.conns.map (fun ep => ep.core.state.deliverTx) :=
    List.mem_map.mpr ⟨ep, List.mem_of_getElem? hep, rfl⟩
  rw [htx] at hmem
  rw [List.mem_singleton.mp hmem] at hd
  revert hd
  decide

end Cross233.Qcp
