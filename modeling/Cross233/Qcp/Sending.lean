import Cross233.Qcp.Endpoint
import Cross233.Qcp.Reception

namespace Cross233.Qcp

def Sized (data : Bytes) : Prop := data ≠ [] ∧ data.length ≤ maxMessage

def Packet.IsControl (p : Packet) : Prop := p.has flagData = false ∧ p.payload = []

def Packet.IsReply (p : Packet) : Prop := p.IsControl ∧ p.has flagFin = false

def Accepted.packets (m : Accepted) : List Packet := fragments m.msgId m.data m.stream

def Fragmented (log : List Accepted) (d : Bytes) : Prop :=
  ∃ m ∈ log, ∃ p ∈ m.packets, d = encode p

def Emitted (log : List Accepted) (d : Bytes) : Prop :=
  (∃ p : Packet, p.IsControl ∧ d = encode p) ∨ Fragmented log d

theorem Fragmented.mono {log log' : List Accepted} {d : Bytes} (h : Fragmented log d)
    (hsub : ∀ m ∈ log, m ∈ log') : Fragmented log' d := by
  obtain ⟨m, hm, h⟩ := h
  exact ⟨m, hsub m hm, h⟩

theorem Emitted.mono {log log' : List Accepted} {d : Bytes} (h : Emitted log d)
    (hsub : ∀ m ∈ log, m ∈ log') : Emitted log' d := by
  rcases h with h | h
  · exact Or.inl h
  · exact Or.inr (h.mono hsub)

structure FragmentOf (m : Accepted) (p : Packet) : Prop where
  msgId : p.msgId = m.msgId
  stream : p.stream = m.stream
  total : p.fragTotal.toNat = (chunks m.data).length
  chunk : (chunks m.data)[p.fragIndex.toNat]? = some p.payload

theorem maxPayload_pos : 0 < maxPayload := by decide

theorem flatten_chunks (data : Bytes) : (chunks data).flatten = data :=
  Chunks.flatten_chunksOf maxPayload_pos data

theorem mem_packets {m : Accepted} {p : Packet} (h : p ∈ m.packets) :
    ∃ i c, (chunks m.data)[i]? = some c ∧
      p = fragment m.msgId m.stream (chunks m.data).length i c := by
  obtain ⟨i, hi⟩ := List.mem_iff_getElem?.mp h
  rw [Accepted.packets, fragments, List.getElem?_mapIdx] at hi
  obtain ⟨c, hc, rfl⟩ := Option.map_eq_some_iff.mp hi
  exact ⟨i, c, hc, rfl⟩

theorem payload_le_of_mem_packets {m : Accepted} {p : Packet} (h : p ∈ m.packets) :
    p.payload.length ≤ maxPayload := by
  obtain ⟨i, c, hc, rfl⟩ := mem_packets h
  exact Chunks.length_le_of_mem_chunksOf (List.mem_of_getElem? hc)

theorem chunks_length_le {data : Bytes} (h : Sized data) : (chunks data).length ≤ 65535 :=
  Chunks.length_chunksOf_le maxPayload_pos h.2

theorem exists_packet {m : Accepted} (hs : Sized m.data) {i : Nat}
    (hi : i < (chunks m.data).length) : ∃ p ∈ m.packets, p.fragIndex.toNat = i := by
  refine ⟨fragment m.msgId m.stream (chunks m.data).length i (chunks m.data)[i], ?_, ?_⟩
  · rw [Accepted.packets, fragments, List.mem_mapIdx]
    exact ⟨i, hi, rfl⟩
  · show (UInt16.ofNat i).toNat = i
    have hle := chunks_length_le hs
    rw [UInt16.toNat_ofNat']
    exact Nat.mod_eq_of_lt (by omega)

theorem fragmentOf_of_mem_packets {m : Accepted} {p : Packet} (hs : Sized m.data)
    (h : p ∈ m.packets) : FragmentOf m p := by
  obtain ⟨i, c, hc, rfl⟩ := mem_packets h
  have hle := chunks_length_le hs
  have hi : i < (chunks m.data).length := (List.getElem?_eq_some_iff.mp hc).1
  have hidx : (UInt16.ofNat i).toNat = i := by
    rw [UInt16.toNat_ofNat']
    exact Nat.mod_eq_of_lt (by omega)
  have htot : (UInt16.ofNat (chunks m.data).length).toNat = (chunks m.data).length := by
    rw [UInt16.toNat_ofNat']
    exact Nat.mod_eq_of_lt (by omega)
  exact ⟨rfl, rfl, htot, by simpa [fragment, hidx] using hc⟩

theorem length_encode (p : Packet) : (encode p).length = headerLen + p.payload.length := by
  simp [encode, magic, headerLen, BigEndian.length_toBe]
  omega

theorem recvFrom_encode {p : Packet} (h : p.payload.length ≤ maxPayload) :
    recvFrom (encode p) = decode (encode p) := by
  have hle : (encode p).length ≤ maxPacket := by
    rw [length_encode]
    simp only [maxPayload, maxPacket, headerLen] at h ⊢
    omega
  rw [recvFrom, List.take_of_length_le hle]

theorem fragment_header {m : Accepted} (hs : Sized m.data) {p : Packet} (hp : p ∈ m.packets) :
    p.fragIndex < p.fragTotal ∧ p.fragTotal.toNat = (chunks m.data).length := by
  have hf := fragmentOf_of_mem_packets hs hp
  refine ⟨?_, hf.total⟩
  rw [UInt16.lt_iff_toNat_lt, hf.total]
  exact (List.getElem?_eq_some_iff.mp hf.chunk).1

theorem packet_received {m : Accepted} (hs : Sized m.data)
    (hle : (chunks m.data).length ≤ maxFragmentCount) {p : Packet} (hp : p ∈ m.packets) :
    recvFrom (encode p) = some p := by
  have hlen := payload_le_of_mem_packets hp
  obtain ⟨hlt, htotal⟩ := fragment_header hs hp
  rw [recvFrom_encode hlen]
  exact decode_encode hlen (fun _ => ⟨hlt, htotal ▸ hle⟩)

theorem recvFrom_encode_eq {p q : Packet} (h : p.payload.length ≤ maxPayload)
    (hq : recvFrom (encode p) = some q) : q = p := by
  rw [recvFrom_encode h, decode_encode_eq p h] at hq
  split_ifs at hq
  exact (Option.some.inj hq).symm

theorem recvFrom_control {p : Packet} (h : p.IsControl) : recvFrom (encode p) = some p := by
  have hlen : p.payload.length ≤ maxPayload := by simp [h.2]
  rw [recvFrom_encode hlen, decode_encode hlen]
  intro hd
  rw [h.1] at hd
  cases hd

theorem recv_emitted_mem {log : List Accepted} {d : Bytes} {p : Packet} (h : Emitted log d)
    (hp : recvFrom d = some p) (hf : p.isFragment = true) : ∃ m ∈ log, p ∈ m.packets := by
  rcases h with ⟨q, hq, rfl⟩ | ⟨m, hm, q, hq, rfl⟩
  · rw [recvFrom_control hq] at hp
    cases hp
    have hd := isFragment_hasData hf
    rw [hq.1] at hd
    cases hd
  · obtain rfl := recvFrom_encode_eq (payload_le_of_mem_packets hq) hp
    exact ⟨m, hm, hq⟩

theorem recv_emitted {log : List Accepted} {d : Bytes} {p : Packet}
    (hsize : ∀ m ∈ log, Sized m.data) (h : Emitted log d) (hp : recvFrom d = some p)
    (hf : p.isFragment = true) : ∃ m ∈ log, FragmentOf m p := by
  obtain ⟨m, hm, hmem⟩ := recv_emitted_mem h hp hf
  exact ⟨m, hm, fragmentOf_of_mem_packets (hsize m hm) hmem⟩

def RetransmitPc.pending : RetransmitPc → List Accepted
  | .collected ms => ms
  | .resend _ ms => ms
  | .update _ _ ms => ms
  | _ => []

structure CallOk (log : List Accepted) (c : SendCall) : Prop where
  size : Sized c.data
  inserting : ∀ id, c.pc = .insert id → ⟨id, c.data, c.stream⟩ ∈ log ∧ c.stream ≠ .realtime
  pushing : ∀ id, c.pc = .push id → ⟨id, c.data, c.stream⟩ ∈ log

theorem CallOk.mono {log log' : List Accepted} {c : SendCall} (h : CallOk log c)
    (hsub : ∀ m ∈ log, m ∈ log') : CallOk log' c where
  size := h.size
  inserting := fun id hc => ⟨hsub _ (h.inserting id hc).1, (h.inserting id hc).2⟩
  pushing := fun id hc => hsub _ (h.pushing id hc)

structure SenderInv (ep : Endpoint) : Prop where
  size : ∀ m ∈ ep.accepted, Sized m.data
  calls : ∀ c ∈ ep.calls, CallOk ep.accepted c
  inFlight : ∀ id inf, ep.core.state.inFlight.lookup id = some inf →
    ⟨id, inf.data, inf.stream⟩ ∈ ep.accepted ∧ inf.stream ≠ .realtime
  pending : ∀ m ∈ ep.retransmit.pending, m ∈ ep.accepted
  returned : ∀ m ∈ ep.returned, m ∈ ep.accepted
  dataTx : ∀ d ∈ ep.core.dataTx, Fragmented ep.accepted d
  ctrlTx : ∀ d ∈ ep.core.ctrlTx, ∃ p : Packet, p.IsControl ∧ d = encode p

theorem control_isControl {f : UInt8} (hf : f &&& flagData = 0) (s : Stream) (id : UInt32) :
    (control f s id).IsControl := by
  simp [Packet.IsControl, Packet.has, control, hf]

theorem control_isReply {f : UInt8} (hf : f &&& flagData = 0) (hg : f &&& flagFin = 0) (s : Stream)
    (id : UInt32) : (control f s id).IsReply :=
  ⟨control_isControl hf s id, by simp [Packet.has, control, hg]⟩

structure SameSender (core core' : Core) : Prop where
  nextMsgId : core'.state.nextMsgId = core.state.nextMsgId
  inFlight : ∀ id inf, core'.state.inFlight.lookup id = some inf →
    core.state.inFlight.lookup id = some inf
  dataTx : core'.dataTx = core.dataTx
  ctrlTx : ∀ d ∈ core'.ctrlTx, d ∈ core.ctrlTx ∨ ∃ p : Packet, p.IsReply ∧ d = encode p

theorem handleFragment_sender {core core' : Core} {p : Packet}
    (h : handleFragment core p = .ok core') : SameSender core core' := by
  obtain ⟨_, _, _, _, rfl, -, hacks⟩ := handleFragment_eq h
  refine ⟨rfl, fun _ _ h => h, rfl, fun d hd => ?_⟩
  rcases List.mem_append.mp hd with hd | hd
  · exact Or.inl hd
  · exact Or.inr ⟨_, control_isReply (by decide) (by decide) _ _, hacks d hd⟩

theorem handlePacket_sender {now : Instant} {core core' : Core} {p : Packet}
    (h : handlePacket now core p = .ok core') : SameSender core core' := by
  by_cases hp : core.state.closed = true ∨ p.isFragment = false
  · obtain ⟨core'', hok, hframe⟩ := handlePacket_frame now core hp
    rw [hok] at h
    cases h
    refine ⟨hframe.nextMsgId, hframe.inFlight, hframe.dataTx, ?_⟩
    obtain ⟨cs, hcs, hpong⟩ := hframe.ctrlTx
    intro d hd
    rw [hcs] at hd
    rcases List.mem_append.mp hd with hd | hd
    · exact Or.inl hd
    · obtain ⟨s, id, rfl⟩ := hpong d hd
      exact Or.inr ⟨_, control_isReply (by decide) (by decide) s id, rfl⟩
  · simp only [not_or, Bool.not_eq_true, Bool.not_eq_false] at hp
    rw [handlePacket_fragment hp.1 hp.2] at h
    obtain ⟨hn, hi, hd, hc⟩ := handleFragment_sender h
    exact ⟨hn, hi, hd, hc⟩

theorem SenderInv.ofCore {core : Core} (hi : core.state.inFlight = ∅) (hd : core.dataTx = [])
    (hc : core.ctrlTx = []) : SenderInv (Endpoint.ofCore core) where
  size := by simp [Endpoint.ofCore]
  calls := by simp [Endpoint.ofCore]
  inFlight := by simp [Endpoint.ofCore, hi]
  pending := by simp [Endpoint.ofCore, RetransmitPc.pending]
  returned := by simp [Endpoint.ofCore]
  dataTx := by simp [Endpoint.ofCore, hd]
  ctrlTx := by simp [Endpoint.ofCore, hc]

theorem SenderInv.setCore {ep : Endpoint} (h : SenderInv ep) {core : Core}
    (hs : SameSender ep.core core) : SenderInv { ep with core := core } where
  size := h.size
  calls := h.calls
  inFlight := fun id inf hl => h.inFlight id inf (hs.inFlight id inf hl)
  pending := h.pending
  returned := h.returned
  dataTx := by
    intro d hd
    exact h.dataTx d (hs.dataTx ▸ hd)
  ctrlTx := by
    intro d hd
    rcases hs.ctrlTx d hd with hd | ⟨p, hp, hd⟩
    · exact h.ctrlTx d hd
    · exact ⟨p, hp.1, hd⟩

theorem SenderInv.sendCtrl {ep : Endpoint} (h : SenderInv ep) {p : Packet} (hp : p.IsControl) :
    SenderInv { ep with core := ep.core.sendCtrl p } := by
  refine ⟨h.size, h.calls, h.inFlight, h.pending, h.returned, h.dataTx, ?_⟩
  intro d hd
  rcases List.mem_append.mp hd with hd | hd
  · exact h.ctrlTx d hd
  · exact ⟨p, hp, List.mem_singleton.mp hd⟩

theorem SenderInv.receive {ep : Endpoint} (h : SenderInv ep) (now : Instant) (buf : Bytes) :
    SenderInv (ep.receive now buf) := by
  cases hp : recvFrom buf with
  | none => rwa [receive_none hp]
  | some p =>
    cases hk : handlePacket now ep.core p with
    | error e =>
      rw [receive_error hp hk]
      exact ⟨h.size, h.calls, h.inFlight, h.pending, h.returned, h.dataTx,
        h.ctrlTx⟩
    | ok core =>
      rw [receive_ok hp hk]
      exact h.setCore (handlePacket_sender hk)

theorem SenderInv.pump {ep ep' : Endpoint} {d : Bytes} (h : SenderInv ep)
    (hp : ep.pump = some (d, ep')) : SenderInv ep' ∧ Emitted ep.accepted d := by
  rcases pump_cases hp with ⟨ctrl, hc, rfl⟩ | ⟨data, -, hd, rfl⟩
  · refine ⟨h.setCore ⟨rfl, fun _ _ h => h, rfl, fun x hx => Or.inl ?_⟩, Or.inl ?_⟩
    · rw [hc]
      exact List.mem_cons_of_mem d hx
    · exact h.ctrlTx d (by simp [hc])
  · refine ⟨⟨h.size, h.calls, h.inFlight, h.pending, h.returned, ?_, h.ctrlTx⟩, Or.inr ?_⟩
    · intro x hx
      exact h.dataTx x (by rw [hd]; exact List.mem_cons_of_mem d hx)
    · exact h.dataTx d (by simp [hd])

theorem SenderInv.sendFrags {ep : Endpoint} (h : SenderInv ep) {m : Accepted}
    (hm : m ∈ ep.accepted) :
    SenderInv { ep with core := sendFrags ep.core m.msgId m.data m.stream } where
  size := h.size
  calls := h.calls
  inFlight := h.inFlight
  pending := h.pending
  returned := h.returned
  dataTx := by
    intro d hd
    rcases List.mem_append.mp hd with hd | hd
    · exact h.dataTx d hd
    · obtain ⟨p, hp, rfl⟩ := List.mem_map.mp hd
      exact ⟨m, hm, p, hp, rfl⟩
  ctrlTx := h.ctrlTx

theorem sendStream_ok {data : Bytes} {stream : Stream} {call : SendCall}
    (h : sendStream data stream = .ok (some call)) (log : List Accepted) : CallOk log call := by
  unfold sendStream at h
  split_ifs at h with hlen hempty hrt
  · cases h
  · cases h
    exact ⟨⟨by simpa using hempty, Nat.not_lt.mp hlen⟩, by simp, by simp⟩
  · cases h
    exact ⟨⟨by simpa using hempty, Nat.not_lt.mp hlen⟩, by simp, by simp⟩

theorem SenderInv.setState {ep : Endpoint} (h : SenderInv ep) {st : CoreState}
    (hi : ∀ id inf, st.inFlight.lookup id = some inf →
      ⟨id, inf.data, inf.stream⟩ ∈ ep.accepted ∧ inf.stream ≠ .realtime) :
    SenderInv (ep.setState st) where
  size := h.size
  calls := h.calls
  inFlight := hi
  pending := h.pending
  returned := h.returned
  dataTx := h.dataTx
  ctrlTx := h.ctrlTx

theorem SenderInv.accept {ep : Endpoint} (h : SenderInv ep) {m : Accepted} (hm : Sized m.data)
    (st : CoreState) (hst : st.inFlight = ep.core.state.inFlight) :
    SenderInv { ep.setState st with accepted := ep.accepted ++ [m] } := by
  have hsub : ∀ x ∈ ep.accepted, x ∈ ep.accepted ++ [m] := fun x hx => List.mem_append_left _ hx
  refine ⟨?_, fun c hc => (h.calls c hc).mono hsub, ?_, fun x hx => hsub x (h.pending x hx),
    fun x hx => hsub x (h.returned x hx), fun d hd => (h.dataTx d hd).mono hsub, h.ctrlTx⟩
  · intro x hx
    rcases List.mem_append.mp hx with hx | hx
    · exact h.size x hx
    · rwa [List.mem_singleton.mp hx]
  · intro id inf hl
    have hl' : ep.core.state.inFlight.lookup id = some inf := hst ▸ hl
    exact ⟨hsub _ (h.inFlight id inf hl').1, (h.inFlight id inf hl').2⟩

theorem SenderInv.resume {ep : Endpoint} (h : SenderInv ep) (now : Instant) {call : SendCall}
    (hcall : CallOk ep.accepted call) :
    SenderInv (ep.resume now call).1 ∧
      ∀ c, (ep.resume now call).2 = .running c → CallOk (ep.resume now call).1.accepted c := by
  unfold Endpoint.resume
  cases hpc : call.pc with
  | window =>
    simp only
    split
    · exact ⟨h, by simp⟩
    · split_ifs
      · refine ⟨h, fun c hc => ?_⟩
        cases hc
        exact ⟨hcall.size, by simp, by simp⟩
      · refine ⟨h, fun c hc => ?_⟩
        cases hc
        exact hcall
  | alloc =>
    simp only
    split
    · exact ⟨h, by simp⟩
    · refine ⟨h.accept hcall.size _ rfl, fun c hc => ?_⟩
      cases hc
      split_ifs with hrt
      · exact ⟨hcall.size, by simp, by simp⟩
      · exact ⟨hcall.size, by simp [hrt], by simp⟩
  | insert id =>
    obtain ⟨hmem, hrt⟩ := hcall.inserting id hpc
    refine ⟨h.setState ?_, fun c hc => ?_⟩
    · intro j inf hl
      simp only [AList.lookup_insert_eq] at hl
      split_ifs at hl with hj
      · cases hl
        rw [hj]
        exact ⟨hmem, hrt⟩
      · exact h.inFlight j inf hl
    · cases hc
      refine ⟨hcall.size, by simp, ?_⟩
      intro j hj
      cases hj
      exact hmem
  | push id =>
    have hs := h.sendFrags (m := ⟨id, call.data, call.stream⟩) (hcall.pushing id hpc)
    refine ⟨⟨hs.size, hs.calls, hs.inFlight, hs.pending, ?_, hs.dataTx, hs.ctrlTx⟩, by simp⟩
    intro m hm
    rcases List.mem_append.mp hm with hm | hm
    · exact h.returned m hm
    · rw [List.mem_singleton.mp hm]
      exact hcall.pushing id hpc

theorem toResend_accepted {ep : Endpoint} (h : SenderInv ep) (now : Instant) :
    ∀ m ∈ ep.core.state.toResend now, m ∈ ep.accepted ∧ m.stream ≠ .realtime := by
  intro m hm
  obtain ⟨e, he, rfl⟩ := List.mem_map.mp hm
  have hmem : e ∈ ep.core.state.inFlight.entries :=
    List.mem_of_mem_filter (List.mem_of_mem_filter he)
  exact h.inFlight e.1 e.2 (AList.lookup_of_mem_entries hmem)

theorem noteResent_inFlight {ep : Endpoint} (h : SenderInv ep) (now : Instant) (id : UInt32) :
    ∀ j inf, (ep.core.state.noteResent now id).inFlight.lookup j = some inf →
      ⟨j, inf.data, inf.stream⟩ ∈ ep.accepted ∧ inf.stream ≠ .realtime := by
  intro j inf hl
  simp only [CoreState.noteResent] at hl
  split at hl
  · exact h.inFlight j inf hl
  · next old hold =>
    rw [AList.lookup_insert_eq] at hl
    split_ifs at hl with hj
    · cases hl
      rw [hj]
      exact h.inFlight id old hold
    · exact h.inFlight j inf hl

theorem SenderInv.retarget {ep : Endpoint} (h : SenderInv ep) {pc : RetransmitPc}
    (hp : ∀ m ∈ pc.pending, m ∈ ep.accepted) : SenderInv { ep with retransmit := pc } where
  size := h.size
  calls := h.calls
  inFlight := h.inFlight
  pending := hp
  returned := h.returned
  dataTx := h.dataTx
  ctrlTx := h.ctrlTx

theorem SenderInv.retransmitStep {ep : Endpoint} (h : SenderInv ep) (now : Instant) :
    SenderInv (ep.retransmitStep now) := by
  have hpend := h.pending
  unfold Endpoint.retransmitStep
  cases hpc : ep.retransmit with
  | top =>
    refine h.retarget ?_
    split_ifs <;> simp [RetransmitPc.pending]
  | snapshot =>
    refine h.retarget ?_
    split_ifs
    · simp [RetransmitPc.pending]
    · exact fun m hm => (toResend_accepted h now m hm).1
  | collected pending =>
    rw [hpc] at hpend
    exact h.retarget hpend
  | resend at' pending =>
    rw [hpc] at hpend
    cases pending with
    | nil =>
      refine h.retarget ?_
      split_ifs <;> simp [RetransmitPc.pending]
    | cons m pending =>
      have hs := h.sendFrags (m := m) (hpend m List.mem_cons_self)
      exact hs.retarget (fun x hx => hpend x (List.mem_cons_of_mem m hx))
  | update at' id pending =>
    rw [hpc] at hpend
    exact (h.setState (noteResent_inFlight h at' id)).retarget hpend
  | giveUp =>
    have hs : SenderInv (ep.setState (markDead ep.core.state "max retransmit exceeded")) :=
      h.setState h.inFlight
    exact hs.retarget (by simp [RetransmitPc.pending])
  | stopped => exact h

theorem SenderInv.tick {ep : Endpoint} (h : SenderInv ep) (now : Instant) :
    SenderInv (ep.tick now) := by
  unfold Endpoint.tick
  simp only
  split_ifs
  · exact h
  · exact h.setState h.inFlight
  · exact h.sendCtrl (control_isControl (by decide) _ _)
  · exact h

theorem SenderInv.close {ep : Endpoint} (h : SenderInv ep) : SenderInv ep.close :=
  (h.setState (by simp)).sendCtrl (control_isControl (by decide) _ _)

theorem SenderInv.act {ep ep' : Endpoint} {a : Action} (h : SenderInv ep)
    (ha : ep.act a = some ep') : SenderInv ep' := by
  cases a with
  | call data stream =>
    simp only [Endpoint.act] at ha
    split at ha
    · next call hc =>
      cases ha
      refine ⟨h.size, ?_, h.inFlight, h.pending, h.returned, h.dataTx,
        h.ctrlTx⟩
      intro c hmem
      rcases List.mem_append.mp hmem with hmem | hmem
      · exact h.calls c hmem
      · rw [List.mem_singleton.mp hmem]
        exact sendStream_ok hc ep.accepted
    · cases ha
      exact h
  | resume i now =>
    obtain ⟨call, calls, hget, rfl, hcalls⟩ := resumeAt_eq ha
    obtain ⟨hr, hrun⟩ := h.resume now (h.calls call (List.mem_of_getElem? hget))
    refine ⟨hr.size, ?_, hr.inFlight, hr.pending, hr.returned, hr.dataTx, hr.ctrlTx⟩
    intro c hc
    rcases hcalls c hc with hc | hc
    · exact hr.calls c hc
    · exact hrun c hc
  | retransmit now =>
    cases ha
    exact h.retransmitStep now
  | collect now pending =>
    obtain ⟨-, hperm, rfl⟩ := collect_cases ha
    exact h.retarget (fun m hm => (toResend_accepted h now m (hperm.subset hm)).1)
  | tick now =>
    cases ha
    exact h.tick now
  | close =>
    cases ha
    exact h.close

def maxSends : Nat := 2 ^ 32 - 1

structure Numbered (ep : Endpoint) : Prop where
  next : ep.accepted.length < maxSends → ep.core.state.nextMsgId.toNat = ep.accepted.length + 1
  ids : ∀ i m, ep.accepted[i]? = some m → i < maxSends → m.msgId.toNat = i + 1

theorem Numbered.ofCore {core : Core} (h : core.state.nextMsgId = 1) :
    Numbered (Endpoint.ofCore core) := by
  refine ⟨fun _ => ?_, by simp [Endpoint.ofCore]⟩
  simp [Endpoint.ofCore, h]

theorem nextId_toNat {id : UInt32} (h : id.toNat < maxSends) :
    (nextId id).toNat = id.toNat + 1 := by
  have hadd : (id + 1).toNat = id.toNat + 1 := by
    rw [UInt32.toNat_add]
    simp only [maxSends] at h
    exact Nat.mod_eq_of_lt (by simp; omega)
  rw [nextId, if_neg, hadd]
  intro h0
  rw [h0] at hadd
  simp at hadd

theorem Numbered.accept {ep : Endpoint} (h : Numbered ep) (data : Bytes) (stream : Stream)
    (st : CoreState) (hst : st.nextMsgId = nextId ep.core.state.nextMsgId) :
    Numbered { ep.setState st with
      accepted := ep.accepted ++ [⟨ep.core.state.nextMsgId, data, stream⟩] } := by
  refine ⟨?_, ?_⟩
  · intro hlen
    simp only [Endpoint.setState, List.length_append, List.length_singleton] at hlen ⊢
    have hnext := h.next (by omega)
    rw [hst, nextId_toNat (by omega), hnext]
  · intro i m hm hi
    rw [List.getElem?_append] at hm
    split_ifs at hm with hlt
    · exact h.ids i m hm hi
    · obtain ⟨hidx, hget⟩ := List.getElem?_eq_some_iff.mp hm
      simp only [List.length_singleton] at hidx
      have hi' : i = ep.accepted.length := by omega
      have hm' : m = ⟨ep.core.state.nextMsgId, data, stream⟩ := by
        rw [← hget]
        simp
      rw [hm', hi']
      exact h.next (hi' ▸ hi)

theorem Numbered.of_eq {ep ep' : Endpoint} (h : Numbered ep) (ha : ep'.accepted = ep.accepted)
    (hn : ep'.core.state.nextMsgId = ep.core.state.nextMsgId) : Numbered ep' := by
  obtain ⟨hnext, hids⟩ := h
  refine ⟨?_, ?_⟩
  · rw [ha, hn]
    exact hnext
  · rw [ha]
    exact hids

theorem Numbered.act {ep ep' : Endpoint} {a : Action} (h : Numbered ep)
    (ha : ep.act a = some ep') : Numbered ep' := by
  cases act_effect ha with
  | alloc call calls he =>
    rw [he]
    have hacc := h.accept call.data call.stream
      { ep.core.state with nextMsgId := nextId ep.core.state.nextMsgId } rfl
    exact hacc.of_eq rfl rfl
  | idle calls pc he | insert id inf now calls he | push m rs calls pc he | update now id pc he
  | dead reason pc hcalm he | ping he | close ha he =>
    rw [he]
    exact h.of_eq rfl rfl

theorem Numbered.unique {ep : Endpoint} (h : Numbered ep) (hlen : ep.accepted.length < maxSends)
    {m m' : Accepted} (hm : m ∈ ep.accepted) (hm' : m' ∈ ep.accepted)
    (hid : m.msgId = m'.msgId) : m = m' := by
  obtain ⟨i, hi⟩ := List.mem_iff_getElem?.mp hm
  obtain ⟨j, hj⟩ := List.mem_iff_getElem?.mp hm'
  have hilt := (List.getElem?_eq_some_iff.mp hi).1
  have hjlt := (List.getElem?_eq_some_iff.mp hj).1
  have h1 := h.ids i m hi (by omega)
  have h2 := h.ids j m' hj (by omega)
  have hij : i = j := by
    rw [hid] at h1
    omega
  rw [hij, hj] at hi
  exact (Option.some.inj hi).symm

theorem Numbered.nodup {ep : Endpoint} (h : Numbered ep) (hlen : ep.accepted.length < maxSends) :
    (ep.accepted.map Accepted.msgId).Nodup := by
  refine List.nodup_iff_getElem?_ne_getElem?.mpr ?_
  intro i j hij hj heq
  rw [List.length_map] at hj
  obtain ⟨m, hm⟩ : ∃ m, ep.accepted[i]? = some m := ⟨_, List.getElem?_eq_getElem (by omega)⟩
  obtain ⟨m', hm'⟩ : ∃ m', ep.accepted[j]? = some m' := ⟨_, List.getElem?_eq_getElem hj⟩
  have hi := h.ids i m hm (by omega)
  have hj' := h.ids j m' hm' (by omega)
  rw [List.getElem?_map, List.getElem?_map, hm, hm', Option.map_some, Option.map_some] at heq
  rw [Option.some.inj heq] at hi
  omega

def Endpoint.sent (ep : Endpoint) (now : Instant) (data : Bytes) (stream : Stream) : Endpoint :=
  let st := ep.core.state
  let id := st.nextMsgId
  let st' := { st with
    nextMsgId := nextId id
    inFlight := st.inFlight.insert id ⟨data, stream, fragCount data, now, false⟩
    lastActivity := now }
  { ep with
    core := sendFrags { ep.core with state := st' } id data stream
    accepted := ep.accepted ++ [⟨id, data, stream⟩]
    returned := ep.returned ++ [⟨id, data, stream⟩] }

def sendActions (now : Instant) (data : Bytes) (stream : Stream) : List Action :=
  [.call data stream, .resume 0 now, .resume 0 now, .resume 0 now, .resume 0 now]

def sendSteps (now : Instant) (data : Bytes) (stream : Stream) : List Event :=
  (sendActions now data stream).map .act

theorem sendStream_sized {data : Bytes} {stream : Stream} (hs : Sized data)
    (hr : stream ≠ .realtime) : sendStream data stream = .ok (some ⟨data, stream, .window⟩) := by
  have hempty : data.isEmpty = false := by simpa using hs.1
  simp [sendStream, Nat.not_lt.mpr hs.2, hempty, hr]

theorem send_runs {ep : Endpoint} (now : Instant) {data : Bytes} {stream : Stream}
    (hcalls : ep.calls = []) (hs : Sized data) (hr : stream ≠ .realtime)
    (herr : ep.core.state.sendError = none)
    (hw : ep.core.state.inFlight.len < ep.core.state.cwnd) :
    Machine.run Endpoint.act ep (sendActions now data stream) = some (ep.sent now data stream) := by
  obtain ⟨core, calls, rt, inb, acc, ret⟩ := ep
  cases hcalls
  simp only [sendActions, Machine.run, Endpoint.act, sendStream_sized hs hr, Option.bind_some,
    Endpoint.resumeAt, List.nil_append, List.getElem?_cons_zero, Option.map_some, Endpoint.resume,
    herr, hw, if_true, List.set_cons_zero, Endpoint.setState, if_neg hr, List.eraseIdx_cons_zero]
  rfl

end Cross233.Qcp
