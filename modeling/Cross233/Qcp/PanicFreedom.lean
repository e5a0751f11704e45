import Cross233.Qcp.Listener
import Cross233.Qcp.Reception

namespace Cross233.Qcp

def Consistent (S : Set Bytes) : Prop :=
  ∀ b ∈ S, ∀ c ∈ S, ∀ p q, recvFrom b = some p → recvFrom c = some q →
    p.isFragment = true → q.isFragment = true → p.msgId = q.msgId → q.fragIndex < p.fragTotal

def Event.From (S : Set Bytes) : Event → Prop
  | .receive _ buf => buf ∈ S
  | _ => True

def ListenerEvent.From (peers : SocketAddr → Set Bytes) : ListenerEvent → Prop
  | .datagram _ src buf => buf ∈ peers src
  | _ => True

def EndpointSafe (S : Set Bytes) : Prop :=
  ∀ (now : Instant) (es : List Event), (∀ e ∈ es, e.From S) → ∀ ep,
    Machine.run Endpoint.step (Endpoint.ofCore (newCore dialWindow dialRto now)) es = some ep →
      ep.inbound = none

def ListenerSafe (peers : SocketAddr → Set Bytes) : Prop :=
  ∀ es : List ListenerEvent, (∀ e ∈ es, e.From peers) → ∀ l,
    Machine.run Listener.step Listener.new es = some l → l.task = none

def SizedBy (S : Set Bytes) (asm : HashMap UInt32 Assembler) : Prop :=
  ∀ id a, asm.lookup id = some a → ∃ b ∈ S, ∃ p, recvFrom b = some p ∧ p.isFragment = true ∧
    p.msgId = id ∧ a.frags.length = p.fragTotal.toNat

theorem sizedBy_empty (S : Set Bytes) : SizedBy S ∅ := by
  intro id a h
  simp at h

theorem sizedBy_insert {S : Set Bytes} {m : HashMap UInt32 Assembler} {msgId : UInt32}
    {a : Assembler} (h : SizedBy S m) (ha : ∃ c ∈ S, ∃ q, recvFrom c = some q ∧
      q.isFragment = true ∧ q.msgId = msgId ∧ a.frags.length = q.fragTotal.toNat) :
    SizedBy S (m.insert msgId a) := by
  intro id x hx
  rw [AList.lookup_insert_eq] at hx
  split_ifs at hx with hid
  · cases hx
    rw [hid]
    exact ha
  · exact h id x hx

theorem sizedBy_erase {S : Set Bytes} {m : HashMap UInt32 Assembler} (h : SizedBy S m)
    (id : UInt32) : SizedBy S (m.erase id) := by
  intro j x hx
  rw [AList.lookup_erase_eq] at hx
  split_ifs at hx
  exact h j x hx

theorem assemblerFor_sized {S : Set Bytes} {st : CoreState} (hs : SizedBy S st.assemblers)
    {b : Bytes} {p : Packet} (hb : b ∈ S) (hp : recvFrom b = some p) (hf : p.isFragment = true) :
    ∃ c ∈ S, ∃ q, recvFrom c = some q ∧ q.isFragment = true ∧ q.msgId = p.msgId ∧
      (st.assemblerFor p).frags.length = q.fragTotal.toNat := by
  unfold CoreState.assemblerFor
  cases hl : st.assemblers.lookup p.msgId with
  | none => exact ⟨b, hb, p, hp, hf, rfl, by simp [Assembler.empty]⟩
  | some a =>
    obtain ⟨c, hc, q, hq, hqf, hid, hlen⟩ := hs p.msgId a hl
    exact ⟨c, hc, q, hq, hqf, hid, hlen⟩

theorem handleFragment_sized {S : Set Bytes} (hS : Consistent S) (core : Core)
    (hs : SizedBy S core.state.assemblers) {b : Bytes} {p : Packet} (hb : b ∈ S)
    (hp : recvFrom b = some p) (hf : p.isFragment = true) :
    ∃ core', handleFragment core p = .ok core' ∧ SizedBy S core'.state.assemblers := by
  by_cases hfull : core.state.TableFull p.msgId
  · exact ⟨core, handleFragment_full hfull, hs⟩
  obtain ⟨c, hc, q, hq, hqf, hid, hlen⟩ := assemblerFor_sized hs hb hp hf
  have hidx : p.fragIndex.toNat < (core.state.assemblerFor p).frags.length := by
    rw [hlen]
    exact hS c hc b hb q p hq hp hqf hf hid
  obtain ⟨core', hok⟩ := (handleFragment_ok_iff hfull).mpr hidx
  refine ⟨core', hok, ?_⟩
  obtain ⟨asm, hst, hcase⟩ := handleFragment_cases hok hfull
  have hput : SizedBy S (core.state.putAssembler p.msgId asm).assemblers :=
    sizedBy_insert hs ⟨c, hc, q, hq, hqf, hid, by rw [store_length hst, hlen]⟩
  rcases hcase with ⟨-, rfl⟩ | ⟨-, rfl⟩
  · exact hput
  · rcases complete_assemblers { core with state := core.state.putAssembler p.msgId asm } p asm
      with h | h
    · rw [h]
      exact hput
    · rw [h]
      exact sizedBy_erase hput p.msgId

theorem handlePacket_sized {S : Set Bytes} (hS : Consistent S) (now : Instant) {core : Core}
    (hs : SizedBy S core.state.assemblers) {b : Bytes} {p : Packet} (hb : b ∈ S)
    (hp : recvFrom b = some p) :
    ∃ core', handlePacket now core p = .ok core' ∧ SizedBy S core'.state.assemblers := by
  cases hf : p.isFragment with
  | false =>
    obtain ⟨core', hok, hframe⟩ := handlePacket_frame now core (Or.inr hf)
    exact ⟨core', hok, hframe.assemblers ▸ hs⟩
  | true =>
    cases hc : core.state.closed with
    | true => exact ⟨core, handlePacket_closed p hc, hs⟩
    | false =>
      rw [handlePacket_fragment hc hf]
      exact handleFragment_sized hS (core.touch now) hs hb hp hf

theorem SameReceiver.sized {S : Set Bytes} {ep ep' : Endpoint} (h : SameReceiver ep ep')
    (hs : SizedBy S ep.core.state.assemblers) : SizedBy S ep'.core.state.assemblers := by
  rcases h.assemblers with he | he
  · exact he ▸ hs
  · exact he ▸ sizedBy_empty S

theorem endpoint_step_safe {S : Set Bytes} (hS : Consistent S) {ep ep' : Endpoint} {e : Event}
    (he : e.From S) (hs : SizedBy S ep.core.state.assemblers ∧ ep.inbound = none)
    (h : ep.step e = some ep') : SizedBy S ep'.core.state.assemblers ∧ ep'.inbound = none := by
  cases e with
  | act a =>
    have hr := act_receiver h
    exact ⟨hr.sized hs.1, hr.inbound.trans hs.2⟩
  | pump =>
    obtain ⟨⟨d, ep1⟩, hp, rfl⟩ := Option.map_eq_some_iff.mp h
    have hr := pump_receiver hp
    exact ⟨hr.sized hs.1, hr.inbound.trans hs.2⟩
  | receive now buf =>
    obtain ⟨-, rfl⟩ := step_receive h
    cases hp : recvFrom buf with
    | none =>
      rw [receive_none hp]
      exact hs
    | some p =>
      obtain ⟨core', hok, hs'⟩ := handlePacket_sized hS now hs.1 he hp
      rw [receive_ok hp hok]
      exact ⟨hs', hs.2⟩

structure Listener.Sized (peers : SocketAddr → Set Bytes) (l : Listener) : Prop where
  task : l.task = none
  conns : ∀ src i ep, l.cores.lookup src = some i → l.conns[i]? = some ep →
    SizedBy (peers src) ep.core.state.assemblers
  owner : ∀ src src' i, l.cores.lookup src = some i → l.cores.lookup src' = some i → src = src'
  bound : ∀ src i, l.cores.lookup src = some i → i < l.conns.length

theorem listener_new_sized (peers : SocketAddr → Set Bytes) : Listener.new.Sized peers where
  task := rfl
  conns := by simp [Listener.new]
  owner := by simp [Listener.new]
  bound := by simp [Listener.new]

theorem Listener.Sized.set {peers : SocketAddr → Set Bytes} {l : Listener} (h : l.Sized peers)
    {i : Nat} {ep : Endpoint} (hep : ∀ src, l.cores.lookup src = some i →
      SizedBy (peers src) ep.core.state.assemblers) :
    ({ l with conns := l.conns.set i ep } : Listener).Sized peers where
  task := h.task
  conns := by
    intro src j x hj hx
    rw [List.getElem?_set] at hx
    split_ifs at hx with hij hlt
    · cases hx
      exact hep src (hij ▸ hj)
    · exact h.conns src j x hj hx
  owner := h.owner
  bound := by
    intro src j hj
    rw [List.length_set]
    exact h.bound src j hj

theorem Listener.Sized.open {peers : SocketAddr → Set Bytes} {l : Listener} (h : l.Sized peers)
    (now : Instant) (src : SocketAddr) : (l.open now src).Sized peers where
  task := h.task
  conns := by
    intro s i ep hi hep
    simp only [Listener.open, AList.lookup_insert_eq] at hi hep
    split_ifs at hi with hs
    · cases hi
      rw [List.getElem?_concat_length] at hep
      cases hep
      exact sizedBy_empty _
    · rw [List.getElem?_append_left (h.bound s i hi)] at hep
      exact h.conns s i ep hi hep
  owner := by
    intro s s' i hi hi'
    simp only [Listener.open, AList.lookup_insert_eq] at hi hi'
    split_ifs at hi hi' with hs hs' hs'
    · rw [hs, hs']
    · cases hi
      exact absurd (h.bound s' _ hi') (lt_irrefl _)
    · cases hi'
      exact absurd (h.bound s _ hi) (lt_irrefl _)
    · exact h.owner s s' i hi hi'
  bound := by
    intro s i hi
    simp only [Listener.open, AList.lookup_insert_eq] at hi
    simp only [Listener.open, List.length_append, List.length_singleton]
    split_ifs at hi with hs
    · cases hi
      omega
    · have := h.bound s i hi
      omega

theorem onPacket_sized {peers : SocketAddr → Set Bytes} (hS : ∀ src, Consistent (peers src))
    {l : Listener} (h : l.Sized peers) (now : Instant) {src : SocketAddr} {buf : Bytes} {p : Packet}
    (hb : buf ∈ peers src) (hp : recvFrom buf = some p) : (l.onPacket now src p).Sized peers := by
  unfold Listener.onPacket
  by_cases hsyn : p.has flagSyn = true
  · have hl : (if l.replaceClosed src then l.open now src else l).Sized peers := by
      split_ifs
      · exact h.open now src
      · exact h
    rw [if_pos hsyn]
    exact ⟨hl.task, hl.conns, hl.owner, hl.bound⟩
  · rw [if_neg hsyn]
    cases hc : l.coreFor src with
    | none => exact h
    | some r =>
      obtain ⟨i, hi, hr⟩ := Option.bind_eq_some_iff.mp hc
      obtain ⟨ep, hep, rfl⟩ := Option.map_eq_some_iff.mp hr
      obtain ⟨core', hok, hs'⟩ := handlePacket_sized (hS src) now (h.conns src i ep hi hep) hb hp
      simp only [hok]
      apply h.set
      intro s hsi
      rw [h.owner s src i hsi hi]
      exact hs'

theorem listener_step_safe {peers : SocketAddr → Set Bytes} (hS : ∀ src, Consistent (peers src))
    {l l' : Listener} {e : ListenerEvent} (he : e.From peers) (h : l.Sized peers)
    (hstep : l.step e = some l') : l'.Sized peers := by
  cases e with
  | datagram now src buf =>
    simp only [Listener.step, h.task, if_true, Option.some.injEq] at hstep
    subst hstep
    cases hp : recvFrom buf with
    | none => exact h
    | some p => exact onPacket_sized hS h now he hp
  | conn i a =>
    obtain ⟨ep, hep, hr⟩ := Option.bind_eq_some_iff.mp hstep
    obtain ⟨ep', hact, rfl⟩ := Option.map_eq_some_iff.mp hr
    exact h.set (fun s hs => (act_receiver hact).sized (h.conns s i ep hs hep))
  | pump i =>
    obtain ⟨ep, hep, hr⟩ := Option.bind_eq_some_iff.mp hstep
    obtain ⟨⟨d, ep'⟩, hpump, rfl⟩ := Option.map_eq_some_iff.mp hr
    exact h.set (fun s hs => (pump_receiver hpump).sized (h.conns s i ep hs hep))

theorem endpoint_safe_of_consistent {S : Set Bytes} (hS : Consistent S) : EndpointSafe S := by
  intro now es hes ep hrun
  have hstart : SizedBy S (Endpoint.ofCore (newCore dialWindow dialRto now)).core.state.assemblers ∧
      (Endpoint.ofCore (newCore dialWindow dialRto now)).inbound = none :=
    ⟨sizedBy_empty S, rfl⟩
  exact (Machine.run_invariant_mem (fun s e t he hs ht => endpoint_step_safe hS (hes e he) hs ht)
    hstart hrun).2

theorem listener_safe_of_consistent {peers : SocketAddr → Set Bytes}
    (hS : ∀ src, Consistent (peers src)) : ListenerSafe peers := by
  intro es hes l hrun
  exact (Machine.run_invariant_mem (fun s e t he hs ht => listener_step_safe hS (hes e he) hs ht)
    (listener_new_sized peers) hrun).task

theorem handlePacket_out_of_bounds (now : Instant) {core : Core} {q : Packet} {a : Assembler}
    (hc : core.state.closed = false) (hq : q.isFragment = true)
    (hl : core.state.assemblers.lookup q.msgId = some a) (hi : a.frags.length ≤ q.fragIndex.toNat) :
    handlePacket now core q = .error .indexOutOfBounds := by
  have hl' : (core.touch now).state.assemblers.lookup q.msgId = some a := hl
  have hfull : ¬(core.touch now).state.TableFull q.msgId :=
    fun h => h.1 (AList.mem_of_lookup hl')
  rw [handlePacket_fragment hc hq, handleFragment, if_neg hfull]
  simp [CoreState.assemblerFor, hl', Assembler.store, List.getElem?_eq_none hi, bind, Except.bind]

theorem first_leaves_assembler (now : Instant) (core : Core) {p : Packet}
    (hc : core.state.closed = false) (hp : p.isFragment = true) (hidx : p.fragIndex < p.fragTotal)
    (hl : core.state.assemblers.lookup p.msgId = none)
    (hlen : core.state.assemblers.len < maxAssemblers)
    (h : p.fragTotal.toNat ≠ 1 ∨ p.msgId ∈ core.state.delivered) :
    ∃ core', handlePacket now core p = .ok core' ∧ core'.state.closed = false ∧
      core'.state.assemblers.lookup p.msgId = some (Assembler.first p) := by
  rw [handlePacket_fragment hc hp,
    handleFragment_first (core.touch now) hidx hl hlen]
  refine ⟨_, rfl, ?_⟩
  by_cases h1 : p.fragTotal.toNat = 1
  · have hd : p.msgId ∈ core.state.delivered := h.resolve_left (not_not.mpr h1)
    have hd' : p.msgId ∈
        ((core.touch now).state.putAssembler p.msgId (Assembler.first p)).delivered := hd
    simp only [if_pos h1, complete, if_pos hd']
    exact ⟨hc, AList.lookup_insert _⟩
  · simp only [if_neg h1]
    exact ⟨hc, AList.lookup_insert _⟩

theorem endpoint_receive_step (ep : Endpoint) {now : Instant} {buf : Bytes} {p : Packet}
    {core : Core} (hi : ep.inbound = none) (hp : recvFrom buf = some p)
    (hk : handlePacket now ep.core p = .ok core) :
    ep.step (.receive now buf) = some { ep with core := core } := by
  simp [Endpoint.step, hi, receive_ok hp hk]

theorem endpoint_panic_step (ep : Endpoint) (now : Instant) {buf : Bytes} {p q : Packet}
    (hi : ep.inbound = none) (hq : recvFrom buf = some q) (hqf : q.isFragment = true)
    (hc : ep.core.state.closed = false)
    (hl : ep.core.state.assemblers.lookup q.msgId = some (Assembler.first p))
    (hge : p.fragTotal ≤ q.fragIndex) :
    ep.step (.receive now buf) = some { ep with inbound := some .indexOutOfBounds } := by
  have hlen : (Assembler.first p).frags.length ≤ q.fragIndex.toNat := by
    rw [first_length]
    exact UInt16.le_iff_toNat_le.mp hge
  have herr := handlePacket_out_of_bounds now hc hqf hl hlen
  simp [Endpoint.step, hi, receive_error hq herr]

theorem consistent_of_endpoint_safe {S : Set Bytes} (h : EndpointSafe S) : Consistent S := by
  intro b hb c hc p q hp hq hpf hqf hid
  by_contra hlt
  have hge : p.fragTotal ≤ q.fragIndex := UInt16.not_lt.mp hlt
  have hidx : p.fragIndex < p.fragTotal := (decode_header_ok hp (isFragment_hasData hpf)).1
  let ep := Endpoint.ofCore (newCore dialWindow dialRto 0)
  -- The offending packet finds the assembler that `p` left behind; a single-fragment message
  -- leaves one only on its second arrival, when the duplicate check returns early.
  have finish (pre : List Event) (hpre : ∀ e ∈ pre, e.From S) (core : Core)
      (hrun : Machine.run Endpoint.step ep pre = some { ep with core := core })
      (hopen : core.state.closed = false)
      (hl : core.state.assemblers.lookup p.msgId = some (Assembler.first p)) : False := by
    have hstep := endpoint_panic_step { ep with core := core } 0 rfl hq hqf hopen
      (hid ▸ hl) hge
    have hall : ∀ e ∈ pre ++ [Event.receive 0 c], e.From S := by
      intro e he
      rcases List.mem_append.mp he with he | he
      · exact hpre e he
      · rw [List.mem_singleton.mp he]
        exact hc
    have := h 0 _ hall _ (Machine.run_concat hrun hstep)
    cases this
  by_cases h1 : p.fragTotal.toNat = 1
  · have hdel := single_delivers 0 ep.core rfl hpf hidx rfl (by decide) h1
      (AList.notMem_empty _)
    have hlen : (AList.erase p.msgId (AList.insert p.msgId (Assembler.first p)
        (∅ : HashMap UInt32 Assembler))).len < maxAssemblers := by
      rw [AList.erase_insert _ (AList.notMem_empty _)]
      decide
    have hmem : p.msgId ∈ (ep.core.state.recordDelivered p.msgId).delivered := by
      rw [recordDelivered_delivered (AList.notMem_empty _), if_neg (by decide)]
      exact (AList.mem_insert _).mpr (Or.inl rfl)
    obtain ⟨core2, hok2, hopen2, hl2⟩ := first_leaves_assembler 0 (p := p)
      (Core.sendCtrl { ep.core.touch 0 with
        state := ((ep.core.touch 0).state.putAssembler p.msgId (Assembler.first p)).deliver p
          (Assembler.first p) } (control flagAck p.stream p.msgId))
      rfl hpf hidx (AList.lookup_erase _ _) hlen (Or.inr hmem)
    refine finish [.receive 0 b, .receive 0 b] (by simp [Event.From, hb]) core2 ?_ hopen2 hl2
    simp only [Machine.run, endpoint_receive_step ep rfl hp hdel, Option.bind_some]
    rw [endpoint_receive_step _ rfl hp hok2]
    rfl
  · obtain ⟨core1, hok, hopen, hl⟩ := first_leaves_assembler 0 ep.core rfl hpf hidx rfl
      (by decide) (Or.inl h1)
    refine finish [.receive 0 b] (by simp [Event.From, hb]) core1 ?_ hopen hl
    simp only [Machine.run, endpoint_receive_step ep rfl hp hok, Option.bind_some]

theorem reception_panic_free_iff (peers : SocketAddr → Set Bytes) :
    ((∀ src, EndpointSafe (peers src)) ∧ ListenerSafe peers) ↔ ∀ src, Consistent (peers src) := by
  constructor
  · rintro ⟨h, -⟩ src
    exact consistent_of_endpoint_safe (h src)
  · intro h
    exact ⟨fun src => endpoint_safe_of_consistent (h src), listener_safe_of_consistent h⟩

def shortFragment : Packet := ⟨flagData, .batch, 7, 0, 2, [0x61]⟩
def longFragment : Packet := ⟨flagData, .batch, 7, 3, 4, [0x62]⟩

theorem mismatched_totals_panic :
    ¬∀ (ds : List Bytes) (ep : Endpoint),
      Machine.run Endpoint.step (Endpoint.ofCore (newCore dialWindow dialRto 0))
        (ds.map (Event.receive 0)) = some ep → ep.inbound = none := by
  intro h
  have hrun : (Machine.run Endpoint.step (Endpoint.ofCore (newCore dialWindow dialRto 0))
      ([encode shortFragment, encode longFragment].map (Event.receive 0))).map
        Endpoint.inbound = some (some .indexOutOfBounds) := by decide
  obtain ⟨ep, hep, hin⟩ := Option.map_eq_some_iff.mp hrun
  rw [h _ ep hep] at hin
  cases hin

end Cross233.Qcp
