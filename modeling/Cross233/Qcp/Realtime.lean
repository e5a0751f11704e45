import Mathlib.Data.List.Perm.Subperm
import Cross233.Library.Serial
import Cross233.Qcp.Delivery
import Cross233.Qcp.Congestion
import Cross233.Qcp.LatestWins

namespace Cross233.Qcp

open Serial

def realtimeOf (d : Bytes) : Option Delivery :=
  (recvFrom d).bind (fun p =>
    if p.has flagData = true ∧ p.stream = .realtime then some ⟨p.msgId, p.payload, p.stream⟩
    else none)

def CoreState.realtimeDeliveries (st : CoreState) : List Delivery :=
  st.deliverTx.filter (fun d => d.stream = .realtime)

-- The latest-wins test; it lets the newest id itself through again.
def CoreState.Takes (st : CoreState) (x : Delivery) : Prop :=
  st.closed = false ∧ (x.msgId - st.lastRealtime < 0x80000000 ∨ st.lastRealtime = 0)

instance (st : CoreState) (x : Delivery) : Decidable (st.Takes x) :=
  inferInstanceAs (Decidable (_ ∧ _))

-- `emitted` keeps every datagram of the sender; `taken` the positions of the Realtime ones that
-- the receiver took. A datagram that never arrives is lost.
structure Link where
  sender : Endpoint
  receiver : Endpoint
  emitted : List Bytes
  taken : List Nat

def Link.init (sender receiver : Core) : Link where
  sender := Endpoint.ofCore sender
  receiver := Endpoint.ofCore receiver
  emitted := []
  taken := []

inductive LinkEvent where
  | sender (e : Event)
  | receiver (a : Action)
  | reply
  | arrive (i : Nat) (now : Instant)
  deriving DecidableEq, Repr

def Endpoint.sends (ep : Endpoint) : Event → List Bytes
  | .pump => (ep.pump.map Prod.fst).toList
  | _ => []

def Link.step (l : Link) : LinkEvent → Option Link
  | .sender e =>
    (l.sender.step e).map (fun ep =>
      { l with sender := ep, emitted := l.emitted ++ l.sender.sends e })
  | .receiver a => (l.receiver.act a).map (fun ep => { l with receiver := ep })
  | .reply => (l.receiver.step .pump).map (fun ep => { l with receiver := ep })
  | .arrive i now =>
    l.emitted[i]?.bind (fun d => (l.receiver.step (.receive now d)).map (fun ep =>
      { l with
        receiver := ep
        taken :=
          if ∃ x ∈ realtimeOf d, l.receiver.core.state.Takes x then l.taken ++ [i]
          else l.taken }))

def realtimeMessages (log : List Accepted) : List Delivery :=
  (log.filter (fun m => m.stream = .realtime)).map Accepted.delivery

def WholeOnce (l : Link) : Prop :=
  List.Subperm l.receiver.core.state.realtimeDeliveries (realtimeMessages l.sender.accepted)

def LinkEvent.realtimeData : LinkEvent → Option Bytes
  | .sender (.act (.call data .realtime)) => some data
  | _ => none

def LinkEvent.arriving : LinkEvent → Option Nat
  | .arrive i _ => some i
  | _ => none

def Link.realtimeAt (l : Link) (i : Nat) : Option Delivery := l.emitted[i]?.bind realtimeOf

def Link.takenSince (l : Link) (i : Nat) : List Delivery :=
  ((l.taken.dropWhile (fun j => j ≠ i)).drop 1).filterMap l.realtimeAt

-- Since the receiver took datagram `i`, newer ids have been taken, none of them half the id
-- space or more ahead of it.
def Link.Overtaken (l : Link) (i : Nat) (x : Delivery) : Prop :=
  (∃ y ∈ l.takenSince i, Newer y.msgId x.msgId) ∧
    ∀ y ∈ l.takenSince i, Ahead y.msgId x.msgId

instance (l : Link) (i : Nat) (x : Delivery) : Decidable (l.Overtaken i x) :=
  inferInstanceAs (Decidable (_ ∧ _))

-- Every Realtime call is one packet, and the network repeats a Realtime datagram to the open
-- receiver only once it has been overtaken.
def OnePacketOvertaken (l : Link) (e : LinkEvent) : Prop :=
  (∀ data ∈ e.realtimeData, data.length ≤ maxPayload) ∧
    ∀ i ∈ e.arriving, i ∈ l.taken → l.receiver.core.state.closed = false →
      ∀ x ∈ l.realtimeAt i, l.Overtaken i x

instance (l : Link) (e : LinkEvent) : Decidable (OnePacketOvertaken l e) :=
  inferInstanceAs (Decidable (_ ∧ _))

structure SameRealtime (st st' : CoreState) : Prop where
  deliveries : st'.realtimeDeliveries = st.realtimeDeliveries
  newest : st'.lastRealtime = st.lastRealtime

theorem handlePacket_no_data {now : Instant} {core core' : Core} {p : Packet}
    (h : handlePacket now core p = .ok core') (hd : p.has flagData = false) :
    SameRealtime core.state core'.state := by
  simp only [handlePacket, hd, Bool.false_eq_true, not_false_eq_true, if_true] at h
  split_ifs at h
  · cases h
    exact ⟨rfl, rfl⟩
  · cases h
    exact ⟨rfl, rfl⟩
  · cases h
    exact ⟨rfl, rfl⟩
  · cases h
    exact ⟨rfl, rfl⟩
  · cases h
    exact ⟨rfl, rfl⟩
  · cases h
    obtain ⟨_, _, _, _, _, _, _, he⟩ := handleAck_eq now (core.touch now).state p.msgId
    simp only [he]
    exact ⟨rfl, rfl⟩
  · cases h
    exact ⟨rfl, rfl⟩

theorem handleFragment_realtime {core core' : Core} {p : Packet}
    (h : handleFragment core p = .ok core') (hs : p.stream ≠ .realtime) :
    SameRealtime core.state core'.state := by
  obtain ⟨_, _, ds, _, rfl, hds, -⟩ := handleFragment_eq h
  have hnone : ds.filter (fun d => d.stream = .realtime) = [] := by
    rw [List.filter_eq_nil_iff]
    intro d hd
    simpa [hds d hd] using hs
  refine ⟨?_, rfl⟩
  simp only [CoreState.realtimeDeliveries, List.filter_append, hnone, List.append_nil]

theorem handlePacket_other {now : Instant} {core core' : Core} {p : Packet}
    (h : handlePacket now core p = .ok core')
    (hp : ¬(p.has flagData = true ∧ p.stream = .realtime)) :
    SameRealtime core.state core'.state := by
  cases hd : p.has flagData with
  | false => exact handlePacket_no_data h hd
  | true =>
    cases handlePacket_cases h with
    | realtime hc hs he => exact absurd ⟨hd, hs⟩ hp
    | fragment hc hf hk =>
      obtain ⟨hdel, hnew⟩ := handleFragment_realtime hk (isFragment_stream hf)
      exact ⟨hdel, hnew⟩
    | ack hc ha he =>
      obtain ⟨_, _, _, _, _, _, _, hack⟩ := handleAck_eq now (core.touch now).state p.msgId
      rw [he, hack]
      exact ⟨rfl, rfl⟩
    | ignored hc he | syn hc he | fin hc hf he | ping hc he | touched hc he =>
      subst he
      exact ⟨rfl, rfl⟩

structure TakesDelivery (st st' : CoreState) (x : Delivery) : Prop where
  deliveries : st'.realtimeDeliveries = st.realtimeDeliveries ++ [x]
  newest : st'.lastRealtime = x.msgId

theorem handlePacket_takes {now : Instant} {core core' : Core} {p : Packet}
    (h : handlePacket now core p = .ok core') (hf : p.flags = flagData)
    (hs : p.stream = .realtime) :
    (¬core.state.Takes ⟨p.msgId, p.payload, p.stream⟩ ∧ SameRealtime core.state core'.state) ∨
      (core.state.Takes ⟨p.msgId, p.payload, p.stream⟩ ∧
        TakesDelivery core.state core'.state ⟨p.msgId, p.payload, p.stream⟩) := by
  cases hc : core.state.closed with
  | true =>
    obtain rfl : core = core' := Except.ok.inj ((handlePacket_closed p hc).symm.trans h)
    refine Or.inl ⟨?_, rfl, rfl⟩
    intro ht
    cases hc.symm.trans ht.1
  | false =>
    rw [handlePacket_realtime now hc hf hs] at h
    cases h
    unfold handleRealtime
    split_ifs with hnew
    · exact Or.inr ⟨⟨hc, hnew⟩, by simp [CoreState.realtimeDeliveries, Core.touch, hs], rfl⟩
    · exact Or.inl ⟨fun ht => hnew ht.2, rfl, rfl⟩

theorem emitted_flags {log : List Accepted} {d : Bytes} {p : Packet} (h : Emitted log d)
    (hp : recvFrom d = some p) (hd : p.has flagData = true) :
    p.flags = flagData ∧ ∃ m ∈ log, p.msgId = m.msgId := by
  rcases h with ⟨q, hq, rfl⟩ | ⟨m, hm, q, hq, rfl⟩
  · rw [recvFrom_control hq] at hp
    cases hp
    rw [hq.1] at hd
    cases hd
  · obtain rfl := recvFrom_encode_eq (payload_le_of_mem_packets hq) hp
    obtain ⟨i, c, -, rfl⟩ := mem_packets hq
    exact ⟨rfl, m, hm, rfl⟩

theorem receive_realtime {log : List Accepted} {ep ep' : Endpoint} {now : Instant} {d : Bytes}
    (he : Emitted log d) (h : ep.step (.receive now d) = some ep') :
    ((∀ x ∈ realtimeOf d, ¬ep.core.state.Takes x) ∧
        SameRealtime ep.core.state ep'.core.state) ∨
      ∃ x ∈ realtimeOf d, ep.core.state.Takes x ∧
        TakesDelivery ep.core.state ep'.core.state x := by
  obtain ⟨-, rfl⟩ := step_receive h
  cases hp : recvFrom d with
  | none =>
    rw [receive_none hp]
    exact Or.inl ⟨by simp [realtimeOf, hp], rfl, rfl⟩
  | some p =>
    by_cases hrt : p.has flagData = true ∧ p.stream = .realtime
    · have hx : realtimeOf d = some ⟨p.msgId, p.payload, p.stream⟩ := by
        simp [realtimeOf, hp, hrt]
      have hf := (emitted_flags he hp hrt.1).1
      obtain ⟨core, hk⟩ : ∃ core, handlePacket now ep.core p = .ok core := by
        refine handlePacket_total now ep.core (Or.inr ?_)
        simp [Packet.isFragment, hrt.2]
      rw [receive_ok hp hk]
      rcases handlePacket_takes hk hf hrt.2 with ⟨hn, hsame⟩ | ⟨ht, htaken⟩
      · refine Or.inl ⟨?_, hsame⟩
        intro x hmem
        obtain rfl := Option.some.inj (hx.symm.trans hmem)
        exact hn
      · exact Or.inr ⟨_, hx, ht, htaken⟩
    · have hx : realtimeOf d = none := by
        simp only [realtimeOf, hp, Option.bind_some, if_neg hrt]
      refine Or.inl ⟨by simp [hx], ?_⟩
      cases hk : handlePacket now ep.core p with
      | error err =>
        rw [receive_error hp hk]
        exact ⟨rfl, rfl⟩
      | ok core =>
        rw [receive_ok hp hk]
        exact handlePacket_other hk hrt

theorem realtimeOf_control {p : Packet} (h : p.IsControl) : realtimeOf (encode p) = none := by
  simp [realtimeOf, recvFrom_control h, h.1]

theorem realtimeOf_reliable {m : Accepted} (hs : m.stream ≠ .realtime) {p : Packet}
    (hp : p ∈ m.packets) : realtimeOf (encode p) = none := by
  unfold realtimeOf
  cases hr : recvFrom (encode p) with
  | none => rfl
  | some q =>
    obtain rfl := recvFrom_encode_eq (payload_le_of_mem_packets hp) hr
    obtain ⟨i, c, -, rfl⟩ := mem_packets hp
    simp [fragment, hs]

theorem reliable_filterMap {m : Accepted} (hs : m.stream ≠ .realtime) :
    (m.packets.map encode).filterMap realtimeOf = [] := by
  rw [List.filterMap_eq_nil_iff]
  intro d hd
  obtain ⟨p, hp, rfl⟩ := List.mem_map.mp hd
  exact realtimeOf_reliable hs hp

theorem chunks_single {data : Bytes} (hne : data ≠ []) (hlen : data.length ≤ maxPayload) :
    chunks data = [data] := by
  have hle : (chunks data).length ≤ 1 :=
    Chunks.length_chunksOf_le maxPayload_pos (by simpa using hlen)
  have hpos : 0 < (chunks data).length := Chunks.length_chunksOf_pos maxPayload_pos hne
  obtain ⟨c, hc⟩ := List.length_eq_one_iff.mp (Nat.le_antisymm hle hpos)
  have hflat := flatten_chunks data
  rw [hc] at hflat ⊢
  simpa using hflat

theorem realtime_filterMap {m : Accepted} (hs : m.stream = .realtime) (hsize : Sized m.data)
    (hlen : m.data.length ≤ maxPayload) :
    (m.packets.map encode).filterMap realtimeOf = [m.delivery] := by
  have hc := chunks_single hsize.1 hlen
  have hpackets : m.packets = [fragment m.msgId m.stream 1 0 m.data] := by
    rw [Accepted.packets, fragments, hc]
    rfl
  have hrecv : recvFrom (encode (fragment m.msgId m.stream 1 0 m.data)) =
      some (fragment m.msgId m.stream 1 0 m.data) := by
    refine packet_received hsize ?_ (by rw [hpackets]; exact List.mem_cons_self)
    rw [hc]
    exact (by decide : 1 ≤ maxFragmentCount)
  have hdata : (fragment m.msgId m.stream 1 0 m.data).has flagData = true :=
    (by decide : (flagData &&& flagData != 0) = true)
  have hone : realtimeOf (encode (fragment m.msgId m.stream 1 0 m.data)) = some m.delivery := by
    rw [realtimeOf, hrecv, Option.bind_some, if_pos ⟨hdata, hs⟩]
    rfl
  rw [hpackets]
  simp [hone]

def SendCall.pushing (call : SendCall) : Option Delivery :=
  match call.pc with
  | .push id => if call.stream = .realtime then some ⟨id, call.data, call.stream⟩ else none
  | _ => none

-- Every Realtime message that has an id is in one place: with its call, queued or on the network.
structure Carried (ep : Endpoint) (emitted : List Bytes) : Prop where
  sender : SenderInv ep
  small : ∀ c ∈ ep.calls, c.stream = .realtime → c.data.length ≤ maxPayload
  resends : ∀ m ∈ ep.retransmit.pending, m.stream ≠ .realtime
  places : List.Perm ((emitted ++ ep.core.dataTx).filterMap realtimeOf ++
      ep.calls.filterMap SendCall.pushing) (realtimeMessages ep.accepted)

theorem calls_split {α : Type} {xs : List α} {i : Nat} {x : α} (h : xs[i]? = some x) :
    List.Perm xs (x :: xs.eraseIdx i) ∧ ∀ y, List.Perm (xs.set i y) (y :: xs.eraseIdx i) := by
  obtain ⟨hi, hx⟩ := List.getElem?_eq_some_iff.mp h
  refine ⟨?_, fun y => List.set_perm_cons_eraseIdx hi y⟩
  rw [← hx]
  exact (List.getElem_cons_eraseIdx_perm hi).symm

theorem pushing_set {calls : List SendCall} {i : Nat} {call : SendCall}
    (hget : calls[i]? = some call) (call' : SendCall) (h : call'.pushing = call.pushing) :
    List.Perm ((calls.set i call').filterMap SendCall.pushing)
      (calls.filterMap SendCall.pushing) := by
  obtain ⟨hold, hnew⟩ := calls_split hget
  refine ((hnew call').filterMap _).trans (List.Perm.trans ?_ (hold.filterMap _).symm)
  simp only [List.filterMap_cons, h]
  exact List.Perm.refl _

theorem pushing_eraseIdx {calls : List SendCall} {i : Nat} {call : SendCall}
    (hget : calls[i]? = some call) (h : call.pushing = none) :
    List.Perm ((calls.eraseIdx i).filterMap SendCall.pushing)
      (calls.filterMap SendCall.pushing) := by
  have hold := ((calls_split hget).1.filterMap SendCall.pushing).symm
  rwa [List.filterMap_cons, h] at hold

theorem Carried.keep {ep ep' : Endpoint} {emitted emitted' : List Bytes} (h : Carried ep emitted)
    (hs : SenderInv ep')
    (hsmall : ∀ c ∈ ep'.calls, c.stream = .realtime → c.data.length ≤ maxPayload)
    (hr : ∀ m ∈ ep'.retransmit.pending, m.stream ≠ .realtime)
    (htx : (emitted' ++ ep'.core.dataTx).filterMap realtimeOf =
      (emitted ++ ep.core.dataTx).filterMap realtimeOf)
    (hp : List.Perm (ep'.calls.filterMap SendCall.pushing) (ep.calls.filterMap SendCall.pushing))
    (ha : ep'.accepted = ep.accepted) : Carried ep' emitted' where
  sender := hs
  small := hsmall
  resends := hr
  places := by
    rw [htx, ha]
    exact (hp.append_left _).trans h.places

theorem SenderInv.step {ep ep' : Endpoint} {e : Event} (h : SenderInv ep)
    (hs : ep.step e = some ep') : SenderInv ep' := by
  cases e with
  | act a => exact h.act hs
  | pump =>
    obtain ⟨⟨d, ep1⟩, hp, rfl⟩ := Option.map_eq_some_iff.mp hs
    exact (h.pump hp).1
  | receive now buf =>
    obtain ⟨-, rfl⟩ := step_receive hs
    exact h.receive now buf

theorem small_set {calls : List SendCall} {i : Nat} {call : SendCall}
    (h : ∀ c ∈ calls, c.stream = .realtime → c.data.length ≤ maxPayload)
    (hget : calls[i]? = some call) (pc : SendPc) :
    ∀ c ∈ calls.set i { call with pc := pc },
      c.stream = .realtime → c.data.length ≤ maxPayload := by
  intro c hc hs
  rcases List.mem_or_eq_of_mem_set hc with hc | rfl
  · exact h c hc hs
  · exact h call (List.mem_of_getElem? hget) hs

theorem small_eraseIdx {calls : List SendCall} {i : Nat}
    (h : ∀ c ∈ calls, c.stream = .realtime → c.data.length ≤ maxPayload) :
    ∀ c ∈ calls.eraseIdx i, c.stream = .realtime → c.data.length ≤ maxPayload :=
  fun c hc => h c (List.mem_of_mem_eraseIdx hc)

theorem realtimeMessages_realtime (log : List Accepted) (id : UInt32) (data : Bytes)
    {stream : Stream} (h : stream = .realtime) :
    realtimeMessages (log ++ [⟨id, data, stream⟩]) =
      realtimeMessages log ++ [⟨id, data, stream⟩] := by
  simp [realtimeMessages, List.filter_append, h, Accepted.delivery]

theorem realtimeMessages_reliable (log : List Accepted) (id : UInt32) (data : Bytes)
    {stream : Stream} (h : stream ≠ .realtime) :
    realtimeMessages (log ++ [⟨id, data, stream⟩]) = realtimeMessages log := by
  simp [realtimeMessages, List.filter_append, h]

theorem Carried.allocate {ep : Endpoint} {emitted : List Bytes} (h : Carried ep emitted) {i : Nat}
    {call : SendCall} (hget : ep.calls[i]? = some call) (hpc : call.pc = .alloc) (id : UInt32)
    (st : CoreState)
    (hs : SenderInv { ep.setState st with
      accepted := ep.accepted ++ [⟨id, call.data, call.stream⟩]
      calls := ep.calls.set i { call with
        pc := if call.stream = .realtime then .push id else .insert id } }) :
    Carried { ep.setState st with
      accepted := ep.accepted ++ [⟨id, call.data, call.stream⟩]
      calls := ep.calls.set i { call with
        pc := if call.stream = .realtime then .push id else .insert id } } emitted where
  sender := hs
  small := small_set h.small hget _
  resends := h.resends
  places := by
    have hnone : call.pushing = none := by simp [SendCall.pushing, hpc]
    by_cases hrt : call.stream = .realtime
    · have hsome : ({ call with pc := .push id } : SendCall).pushing =
          some ⟨id, call.data, call.stream⟩ := by simp [SendCall.pushing, hrt]
      obtain ⟨hold, hnew⟩ := calls_split hget
      have hset := (hnew { call with pc := .push id }).filterMap SendCall.pushing
      have hbefore := hold.filterMap SendCall.pushing
      rw [List.filterMap_cons, hsome] at hset
      rw [List.filterMap_cons, hnone] at hbefore
      simp only [if_pos hrt, realtimeMessages_realtime ep.accepted id call.data hrt]
      refine ((hset.append_left _).trans List.perm_middle).trans ?_
      refine (List.perm_append_singleton _ _).symm.trans (List.Perm.append_right _ ?_)
      exact (hbefore.symm.append_left _).trans h.places
    · have hsame : ({ call with pc := .insert id } : SendCall).pushing = call.pushing := by
        rw [hnone]
        rfl
      simp only [if_neg hrt, realtimeMessages_reliable ep.accepted id call.data hrt]
      exact ((pushing_set hget _ hsame).append_left _).trans h.places

theorem sendFrags_filterMap (core : Core) (emitted : List Bytes) (m : Accepted) :
    (emitted ++ (sendFrags core m.msgId m.data m.stream).dataTx).filterMap realtimeOf =
      (emitted ++ core.dataTx).filterMap realtimeOf ++
        (m.packets.map encode).filterMap realtimeOf := by
  rw [← List.filterMap_append, List.append_assoc]
  rfl

theorem Carried.push {ep : Endpoint} {emitted : List Bytes} (h : Carried ep emitted) {i : Nat}
    {call : SendCall} {id : UInt32} (hget : ep.calls[i]? = some call) (hpc : call.pc = .push id)
    (returned : List Accepted)
    (hs : SenderInv { ep with
      core := sendFrags ep.core id call.data call.stream
      returned := returned
      calls := ep.calls.eraseIdx i }) :
    Carried { ep with
      core := sendFrags ep.core id call.data call.stream
      returned := returned
      calls := ep.calls.eraseIdx i } emitted where
  sender := hs
  small := small_eraseIdx h.small
  resends := h.resends
  places := by
    have hmem := List.mem_of_getElem? hget
    have hframe := sendFrags_filterMap ep.core emitted ⟨id, call.data, call.stream⟩
    simp only at hframe
    by_cases hrt : call.stream = .realtime
    · have hsome : call.pushing = some ⟨id, call.data, call.stream⟩ := by
        simp [SendCall.pushing, hpc, hrt]
      have hold := (calls_split hget).1.filterMap SendCall.pushing
      rw [List.filterMap_cons, hsome] at hold
      rw [hframe, realtime_filterMap (m := ⟨id, call.data, call.stream⟩) hrt
        (h.sender.calls call hmem).size (h.small call hmem hrt)]
      refine List.Perm.trans ?_ h.places
      rw [List.append_assoc]
      exact hold.symm.append_left _
    · have hnone : call.pushing = none := by simp [SendCall.pushing, hpc, hrt]
      rw [hframe, reliable_filterMap (m := ⟨id, call.data, call.stream⟩) hrt, List.append_nil]
      exact ((pushing_eraseIdx hget hnone).append_left _).trans h.places

theorem Carried.pump {ep ep' : Endpoint} {emitted : List Bytes} {d : Bytes} (h : Carried ep emitted)
    (hp : ep.pump = some (d, ep')) : Carried ep' (emitted ++ [d]) := by
  have hs := (h.sender.pump hp).1
  rcases pump_cases hp with ⟨ctrl, hctrl, rfl⟩ | ⟨data, -, hdata, rfl⟩
  · obtain ⟨p, hpc, rfl⟩ := h.sender.ctrlTx d (by simp [hctrl])
    refine h.keep hs h.small h.resends ?_ (List.Perm.refl _) rfl
    simp [List.filterMap_append, realtimeOf_control hpc]
  · refine h.keep hs h.small h.resends ?_ (List.Perm.refl _) rfl
    rw [hdata, List.append_assoc]
    rfl

theorem sendStream_call {data : Bytes} {stream : Stream} {call : SendCall}
    (h : sendStream data stream = .ok (some call)) :
    call.data = data ∧ call.stream = stream ∧ call.pushing = none := by
  unfold sendStream at h
  split_ifs at h with hlen hempty hrt
  · cases h
  · cases h
    exact ⟨rfl, rfl, rfl⟩
  · cases h
    exact ⟨rfl, rfl, rfl⟩

theorem Carried.call {ep : Endpoint} {emitted : List Bytes} (h : Carried ep emitted) {data : Bytes}
    {stream : Stream} {call : SendCall} (hcall : sendStream data stream = .ok (some call))
    (hsize : stream = .realtime → data.length ≤ maxPayload)
    (hs : SenderInv { ep with calls := ep.calls ++ [call] }) :
    Carried { ep with calls := ep.calls ++ [call] } emitted := by
  obtain ⟨hdata, hstream, hnone⟩ := sendStream_call hcall
  refine h.keep hs ?_ h.resends rfl ?_ rfl
  · intro c hmem hrt
    rcases List.mem_append.mp hmem with hmem | hmem
    · exact h.small c hmem hrt
    · rw [List.mem_singleton.mp hmem] at hrt ⊢
      rw [hdata]
      exact hsize (hstream ▸ hrt)
  · simp [List.filterMap_append, hnone]

-- A retransmission emits no realtime datagram, for only reliable messages are collected.
theorem Carried.resend {ep : Endpoint} {emitted : List Bytes} (h : Carried ep emitted)
    {at' : Instant} {m : Accepted} {pending : List Accepted}
    (hpc : ep.retransmit = .resend at' (m :: pending))
    (hs : SenderInv { ep with
      core := sendFrags ep.core m.msgId m.data m.stream
      retransmit := .update at' m.msgId pending }) :
    Carried { ep with
      core := sendFrags ep.core m.msgId m.data m.stream
      retransmit := .update at' m.msgId pending } emitted := by
  have hres := h.resends
  rw [show ep.retransmit.pending = m :: pending by rw [hpc]; rfl] at hres
  refine h.keep hs h.small (fun x hx => hres x (List.mem_cons_of_mem m hx)) ?_
    (List.Perm.refl _) rfl
  rw [sendFrags_filterMap, reliable_filterMap (hres m List.mem_cons_self), List.append_nil]

theorem Carried.step {ep ep' : Endpoint} {emitted : List Bytes} {e : Event} (h : Carried ep emitted)
    (hc : ∀ data, e = .act (.call data .realtime) → data.length ≤ maxPayload)
    (hs : ep.step e = some ep') : Carried ep' (emitted ++ ep.sends e) := by
  have hsender := h.sender.step hs
  by_cases hpump : e = .pump
  · subst hpump
    obtain ⟨⟨d, ep1⟩, hp, rfl⟩ := Option.map_eq_some_iff.mp hs
    have hsends : ep.sends .pump = [d] := by simp [Endpoint.sends, hp]
    rw [hsends]
    exact h.pump hp
  have hsends : ep.sends e = [] := by
    cases e with
    | pump => exact absurd rfl hpump
    | act a => rfl
    | receive now buf => rfl
  rw [hsends, List.append_nil]
  cases step_moved hs with
  | pumped d he hp => exact absurd he hpump
  | called data stream call he hcall hm =>
    subst hm
    refine h.call hcall (fun hrt => hc data ?_) hsender
    rw [he, hrt]
  | failed i now call err he hget hpc herr hm =>
    subst hm
    have hnone : call.pushing = none := by
      rcases hpc with hpc | hpc <;> simp [SendCall.pushing, hpc]
    exact h.keep hsender (small_eraseIdx h.small) h.resends rfl (pushing_eraseIdx hget hnone) rfl
  | passed i now call he hget hpc hno hspace hm =>
    subst hm
    have hsame : ({ call with pc := .alloc } : SendCall).pushing = call.pushing := by
      simp [SendCall.pushing, hpc]
    exact h.keep hsender (small_set h.small hget _) h.resends rfl (pushing_set hget _ hsame) rfl
  | allocated i now call he hget hpc hno hm =>
    subst hm
    exact h.allocate hget hpc _ _ hsender
  | inserted i now call id he hget hpc hm =>
    subst hm
    have hrt := ((h.sender.calls call (List.mem_of_getElem? hget)).inserting id hpc).2
    have hsame : ({ call with pc := .push id } : SendCall).pushing = call.pushing := by
      simp [SendCall.pushing, hpc, hrt]
    exact h.keep hsender (small_set h.small hget _) h.resends rfl (pushing_set hget _ hsame) rfl
  | pushed i now call id he hget hpc hm =>
    subst hm
    exact h.push hget hpc _ hsender
  | waited now pc he hpc hm =>
    subst hm
    refine h.keep hsender h.small ?_ rfl (List.Perm.refl _) rfl
    rcases hpc with ⟨-, hpend⟩ | ⟨-, hpend⟩ | ⟨pending, hperm, rfl⟩
    · simp [hpend]
    · rw [hpend]
      exact h.resends
    · exact fun m hm => (toResend_accepted h.sender now m (hperm.subset hm)).2
  | resent now at' m pending he hpc hm =>
    subst hm
    exact h.resend hpc hsender
  | noted now at' id pending he hpc hm =>
    subst hm
    have hpend : ep.retransmit.pending = pending := by rw [hpc]; rfl
    have hres := h.resends
    rw [hpend] at hres
    exact h.keep hsender h.small hres rfl (List.Perm.refl _) rfl
  | gaveUp now he hpc hm =>
    subst hm
    exact h.keep hsender h.small (by simp [RetransmitPc.pending]) rfl (List.Perm.refl _) rfl
  | received now buf p core he hp hk hm =>
    subst hm
    refine h.keep hsender h.small h.resends ?_ (List.Perm.refl _) rfl
    simp only [(handlePacket_sender hk).dataTx]
  | idle hm | timedOut now he hidle hm | pinged now he hm | closed he hm
  | panicked now buf err he hm =>
    subst hm
    exact h.keep hsender h.small h.resends rfl (List.Perm.refl _) rfl

theorem filterMap_positions {α β : Type} (xs : List α) (f : α → Option β) {is : List Nat}
    (hn : is.Nodup) (hlt : ∀ i ∈ is, i < xs.length) :
    List.Subperm (is.filterMap (fun i => xs[i]?.bind f)) (xs.filterMap f) := by
  have hall : (List.range xs.length).filterMap (fun i => xs[i]?.bind f) = xs.filterMap f := by
    have hmap : (List.range xs.length).map (fun i => xs[i]?) = xs.map some := by
      apply List.ext_getElem
      · simp
      · intro i h1 h2
        simp
    calc (List.range xs.length).filterMap (fun i => xs[i]?.bind f)
        = ((List.range xs.length).map (fun i => xs[i]?)).filterMap (fun o => o.bind f) := by
          rw [List.filterMap_map]
          rfl
      _ = xs.filterMap f := by
          rw [hmap, List.filterMap_map]
          rfl
  have hsub : List.Subperm is (List.range xs.length) :=
    hn.subperm (fun i hi => List.mem_range.mpr (hlt i hi))
  obtain ⟨js, hperm, hjs⟩ := hsub
  rw [← hall]
  exact ⟨_, hperm.filterMap _, hjs.filterMap _⟩

structure Positive (ep : Endpoint) : Prop where
  next : ep.core.state.nextMsgId ≠ 0
  ids : ∀ m ∈ ep.accepted, m.msgId ≠ 0

theorem nextId_ne_zero (id : UInt32) : nextId id ≠ 0 := by
  unfold nextId
  split_ifs with h
  · decide
  · exact h

theorem Positive.step {ep ep' : Endpoint} {e : Event} (h : Positive ep)
    (hs : ep.step e = some ep') : Positive ep' := by
  cases step_moved hs with
  | allocated i now call he hget hpc hno hm =>
    subst hm
    refine ⟨nextId_ne_zero _, ?_⟩
    intro m hm
    rcases List.mem_append.mp hm with hm | hm
    · exact h.ids m hm
    · rw [List.mem_singleton.mp hm]
      exact h.next
  | received now buf p core he hp hk hm =>
    subst hm
    refine ⟨?_, h.ids⟩
    rw [(handlePacket_sender hk).nextMsgId]
    exact h.next
  | pumped d he hp =>
    rcases pump_cases hp with ⟨ctrl, -, rfl⟩ | ⟨data, -, -, rfl⟩
    · exact ⟨h.next, h.ids⟩
    · exact ⟨h.next, h.ids⟩
  | idle hm | called data stream call he hcall hm | failed i now call err he hget hpc herr hm
  | passed i now call he hget hpc hno hspace hm | inserted i now call id he hget hpc hm
  | pushed i now call id he hget hpc hm | waited now pc he hpc hm
  | resent now at' m pending he hpc hm | noted now at' id pending he hpc hm
  | gaveUp now he hpc hm | timedOut now he hidle hm | pinged now he hm | closed he hm
  | panicked now buf err he hm =>
    subst hm
    exact ⟨h.next, h.ids⟩

def Link.arrivals (l : Link) : List Delivery := l.taken.filterMap l.realtimeAt

structure LinkInv (l : Link) : Prop where
  carried : Carried l.sender l.emitted
  positive : Positive l.sender
  emitted : ∀ d ∈ l.emitted, Emitted l.sender.accepted d
  heard : ∀ i ∈ l.taken, ∃ x, l.realtimeAt i = some x
  nodup : l.taken.Nodup
  delivered : l.receiver.core.state.realtimeDeliveries = l.arrivals
  newest : l.receiver.core.state.lastRealtime =
    ((l.arrivals.map Delivery.msgId).getLast?).getD 0
  forward : (l.arrivals.map Delivery.msgId).IsChain (fun a b => Ahead b a)

theorem LinkInv.wholeOnce {l : Link} (h : LinkInv l) : WholeOnce l := by
  have hemitted : List.Sublist (l.emitted.filterMap realtimeOf)
      ((l.emitted ++ l.sender.core.dataTx).filterMap realtimeOf ++
        l.sender.calls.filterMap SendCall.pushing) := by
    rw [List.filterMap_append, List.append_assoc]
    exact List.sublist_append_left _ _
  have hbound : ∀ i ∈ l.taken, i < l.emitted.length := by
    intro i hi
    obtain ⟨x, hx⟩ := h.heard i hi
    obtain ⟨d, hd, -⟩ := Option.bind_eq_some_iff.mp hx
    exact (List.getElem?_eq_some_iff.mp hd).1
  have harrived : List.Subperm l.arrivals (l.emitted.filterMap realtimeOf) :=
    filterMap_positions l.emitted realtimeOf h.nodup hbound
  have hsent : List.Subperm (l.emitted.filterMap realtimeOf)
      (realtimeMessages l.sender.accepted) :=
    hemitted.subperm.trans h.carried.places.subperm
  rw [WholeOnce, h.delivered]
  exact harrived.trans hsent

theorem LinkInv.sender {l : Link} (h : LinkInv l) {ep : Endpoint} {new : List Bytes}
    (hc : Carried ep (l.emitted ++ new)) (hp : Positive ep)
    (he : ∀ d ∈ l.emitted ++ new, Emitted ep.accepted d) :
    LinkInv { l with sender := ep, emitted := l.emitted ++ new } := by
  have hat : ∀ i ∈ l.taken, (l.emitted ++ new)[i]?.bind realtimeOf = l.realtimeAt i := by
    intro i hi
    obtain ⟨x, hx⟩ := h.heard i hi
    obtain ⟨d, hd, -⟩ := Option.bind_eq_some_iff.mp hx
    rw [List.getElem?_append_left (List.getElem?_eq_some_iff.mp hd).1]
    rfl
  have harr : l.taken.filterMap (fun i => (l.emitted ++ new)[i]?.bind realtimeOf) =
      l.arrivals := List.filterMap_congr hat
  have harr' : Link.arrivals { l with sender := ep, emitted := l.emitted ++ new } = l.arrivals :=
    harr
  refine ⟨hc, hp, he, ?_, h.nodup, ?_, ?_, ?_⟩
  · intro i hi
    obtain ⟨x, hx⟩ := h.heard i hi
    exact ⟨x, (hat i hi).trans hx⟩
  · rw [harr']
    exact h.delivered
  · rw [harr']
    exact h.newest
  · rw [harr']
    exact h.forward

theorem LinkInv.receiver {l : Link} (h : LinkInv l) {ep : Endpoint}
    (hs : SameRealtime l.receiver.core.state ep.core.state) : LinkInv { l with receiver := ep } :=
  ⟨h.carried, h.positive, h.emitted, h.heard, h.nodup, hs.deliveries.trans h.delivered,
    hs.newest.trans h.newest, h.forward⟩

theorem LinkInv.arrival_ne_zero {l : Link} (h : LinkInv l) {i : Nat} {x : Delivery}
    (hx : l.realtimeAt i = some x) : x.msgId ≠ 0 := by
  obtain ⟨d, hd, hr⟩ := Option.bind_eq_some_iff.mp hx
  obtain ⟨p, hp, hrt⟩ := Option.bind_eq_some_iff.mp hr
  split_ifs at hrt with hc
  cases hrt
  obtain ⟨-, m, hm, hid⟩ := emitted_flags (h.emitted d (List.mem_of_getElem? hd)) hp hc.1
  show p.msgId ≠ 0
  rw [hid]
  exact h.positive.ids m hm

theorem dropWhile_mem {is : List Nat} {i : Nat} (h : i ∈ is) :
    ∃ post, is.dropWhile (fun j => j ≠ i) = i :: post := by
  induction is with
  | nil => cases h
  | cons j is ih =>
    by_cases hj : j = i
    · exact ⟨is, by simp [hj]⟩
    · have hmem : i ∈ is := (List.mem_cons.mp h).resolve_left (fun he => hj he.symm)
      obtain ⟨post, hpost⟩ := ih hmem
      exact ⟨post, by simpa [List.dropWhile_cons, hj] using hpost⟩

theorem LinkInv.refuses_overtaken {l : Link} (h : LinkInv l) {i : Nat} (hi : i ∈ l.taken)
    {x : Delivery} (hx : l.realtimeAt i = some x) (ho : l.Overtaken i x) :
    ¬l.receiver.core.state.Takes x := by
  obtain ⟨post, hpost⟩ := dropWhile_mem hi
  have hsince : l.takenSince i = post.filterMap l.realtimeAt := by
    rw [Link.takenSince, hpost]
    rfl
  have hsplit := List.takeWhile_append_dropWhile (p := fun j => j ≠ i) (l := l.taken)
  rw [hpost] at hsplit
  have harr : l.arrivals.map Delivery.msgId =
      ((l.taken.takeWhile (fun j => j ≠ i)).filterMap l.realtimeAt).map Delivery.msgId ++
        (x.msgId :: (l.takenSince i).map Delivery.msgId) := by
    have hall : l.arrivals =
        (l.taken.takeWhile (fun j => j ≠ i) ++ i :: post).filterMap l.realtimeAt := by
      rw [hsplit]
      rfl
    rw [hall, List.filterMap_append, List.map_append, hsince, List.filterMap_cons_some hx,
      List.map_cons]
  have hforward := h.forward
  have hnewest := h.newest
  rw [harr] at hforward hnewest
  have hnewer : Newer l.receiver.core.state.lastRealtime x.msgId := by
    obtain ⟨⟨y, hy, hnew⟩, hnear⟩ := ho
    have hlast := last_newer hforward.right_of_append
      (by
        intro y hy
        obtain ⟨z, hz, rfl⟩ := List.mem_map.mp hy
        exact hnear z hz)
      ⟨y.msgId, List.mem_map.mpr ⟨y, hy, rfl⟩, hnew⟩
    rw [hnewest, List.getLast?_append_of_ne_nil _ (List.cons_ne_nil _ _),
      List.getLast?_eq_some_getLast (List.cons_ne_nil _ _)]
    exact hlast
  rintro ⟨-, hahead | hzero⟩
  · exact hnewer.not_ahead hahead
  · have hmem : l.receiver.core.state.lastRealtime ∈ l.arrivals.map Delivery.msgId := by
      rw [hnewest, harr, List.getLast?_append_of_ne_nil _ (List.cons_ne_nil _ _),
        List.getLast?_eq_some_getLast (List.cons_ne_nil _ _)]
      exact List.mem_append_right _ (List.getLast_mem _)
    obtain ⟨y, hy, hid⟩ := List.mem_map.mp hmem
    obtain ⟨j, -, hj⟩ := List.mem_filterMap.mp hy
    exact h.arrival_ne_zero hj (hid.trans hzero)

theorem LinkInv.takes {l : Link} (h : LinkInv l) {i : Nat} {x : Delivery} {ep : Endpoint}
    (hx : l.realtimeAt i = some x) (hnew : i ∉ l.taken) (ht : l.receiver.core.state.Takes x)
    (hs : TakesDelivery l.receiver.core.state ep.core.state x) :
    LinkInv { l with receiver := ep, taken := l.taken ++ [i] } := by
  have harr : Link.arrivals { l with receiver := ep, taken := l.taken ++ [i] } =
      l.arrivals ++ [x] := by
    rw [Link.arrivals, List.filterMap_append]
    show l.taken.filterMap l.realtimeAt ++ [i].filterMap l.realtimeAt = _
    rw [List.filterMap_cons_some hx]
    rfl
  refine ⟨h.carried, h.positive, h.emitted, ?_, ?_, ?_, ?_, ?_⟩
  · intro j hj
    rcases List.mem_append.mp hj with hj | hj
    · exact h.heard j hj
    · rw [List.mem_singleton.mp hj]
      exact ⟨x, hx⟩
  · refine List.nodup_append.mpr ⟨h.nodup, List.nodup_singleton i, ?_⟩
    intro j hj k hk
    rw [List.mem_singleton.mp hk]
    rintro rfl
    exact hnew hj
  · rw [harr, hs.deliveries, h.delivered]
  · rw [harr, hs.newest]
    simp
  · rw [harr, List.map_append, List.map_singleton, List.isChain_append]
    refine ⟨h.forward, List.isChain_singleton _, ?_⟩
    intro last hlast y hy
    have hy' : x.msgId = y := by simpa using hy
    have hnewest := h.newest
    rw [Option.mem_def.mp hlast, Option.getD_some] at hnewest
    have hne : last ≠ 0 := by
      obtain ⟨z, hz, hid⟩ := List.mem_map.mp (List.mem_of_getLast? hlast)
      obtain ⟨j, -, hj⟩ := List.mem_filterMap.mp hz
      rw [← hid]
      exact h.arrival_ne_zero hj
    rw [← hy', ← hnewest]
    exact ht.2.resolve_right (hnewest ▸ hne)

theorem LinkInv.arrive {l : Link} (h : LinkInv l) {i : Nat} {now : Instant} {d : Bytes}
    {ep : Endpoint} (hd : l.emitted[i]? = some d)
    (ho : i ∈ l.taken → l.receiver.core.state.closed = false →
      ∀ x ∈ l.realtimeAt i, l.Overtaken i x)
    (hs : l.receiver.step (.receive now d) = some ep) :
    LinkInv { l with
      receiver := ep
      taken :=
        if ∃ x ∈ realtimeOf d, l.receiver.core.state.Takes x then l.taken ++ [i]
        else l.taken } := by
  have hat : l.realtimeAt i = realtimeOf d := by rw [Link.realtimeAt, hd, Option.bind_some]
  rcases receive_realtime (h.emitted d (List.mem_of_getElem? hd)) hs with
    ⟨hno, hsame⟩ | ⟨x, hx, ht, htaken⟩
  · rw [if_neg (by rintro ⟨x, hx, ht⟩; exact hno x hx ht)]
    exact h.receiver hsame
  · rw [if_pos ⟨x, hx, ht⟩]
    have hx' : l.realtimeAt i = some x := hat.trans hx
    refine h.takes hx' ?_ ht htaken
    intro hi
    exact h.refuses_overtaken hi hx' (ho hi ht.1 x hx') ht

theorem SameReceiver.sameRealtime {ep ep' : Endpoint} (h : SameReceiver ep ep') :
    SameRealtime ep.core.state ep'.core.state := by
  refine ⟨?_, h.newest⟩
  rw [CoreState.realtimeDeliveries, h.deliverTx]
  rfl

theorem sends_emitted {ep ep' : Endpoint} {e : Event} (h : SenderInv ep)
    (hs : ep.step e = some ep') : ∀ d ∈ ep.sends e, Emitted ep.accepted d := by
  intro d hd
  cases e with
  | pump =>
    obtain ⟨⟨b, ep1⟩, hp, -⟩ := Option.map_eq_some_iff.mp hs
    have hb : d = b := by simpa [Endpoint.sends, hp] using hd
    rw [hb]
    exact (h.pump hp).2
  | act a => cases hd
  | receive now buf => cases hd

theorem step_accepted {ep ep' : Endpoint} {e : Event} (hs : ep.step e = some ep') :
    ∀ m ∈ ep.accepted, m ∈ ep'.accepted := by
  intro m hm
  cases step_moved hs with
  | allocated i now call he hget hpc hno heq =>
    subst heq
    exact List.mem_append_left _ hm
  | pumped d he hp =>
    rcases pump_cases hp with ⟨ctrl, -, rfl⟩ | ⟨data, -, -, rfl⟩
    · exact hm
    · exact hm
  | idle heq | called data stream call he hcall heq | failed i now call err he hget hpc herr heq
  | passed i now call he hget hpc hno hspace heq | inserted i now call id he hget hpc heq
  | pushed i now call id he hget hpc heq | waited now pc he hpc heq
  | resent now at' m' pending he hpc heq | noted now at' id pending he hpc heq
  | gaveUp now he hpc heq | timedOut now he hidle heq | pinged now he heq | closed he heq
  | panicked now buf err he heq | received now buf p core he hp hk heq =>
    subst heq
    exact hm

theorem LinkInv.step {l l' : Link} {e : LinkEvent} (h : LinkInv l) (hc : OnePacketOvertaken l e)
    (hs : l.step e = some l') : LinkInv l' := by
  cases e with
  | sender e =>
    obtain ⟨ep, hep, rfl⟩ := Option.map_eq_some_iff.mp hs
    refine h.sender (h.carried.step ?_ hep) (h.positive.step hep) ?_
    · rintro data rfl
      exact hc.1 data rfl
    · intro d hd
      refine Emitted.mono ?_ (step_accepted hep)
      rcases List.mem_append.mp hd with hd | hd
      · exact h.emitted d hd
      · exact sends_emitted h.carried.sender hep d hd
  | receiver a =>
    obtain ⟨ep, hep, rfl⟩ := Option.map_eq_some_iff.mp hs
    exact h.receiver (act_receiver hep).sameRealtime
  | reply =>
    obtain ⟨ep, hep, rfl⟩ := Option.map_eq_some_iff.mp hs
    obtain ⟨⟨d, ep1⟩, hp, rfl⟩ := Option.map_eq_some_iff.mp hep
    exact h.receiver (pump_receiver hp).sameRealtime
  | arrive i now =>
    obtain ⟨d, hd, hr⟩ := Option.bind_eq_some_iff.mp hs
    obtain ⟨ep, hep, rfl⟩ := Option.map_eq_some_iff.mp hr
    exact h.arrive hd (hc.2 i rfl) hep

theorem linkInv_init {sender receiver : Core} (hs : sender.Created) (hr : receiver.Created) :
    LinkInv (Link.init sender receiver) where
  carried := by
    cases hs with
    | dial now | listen now =>
      exact ⟨SenderInv.ofCore rfl rfl rfl, by simp [Link.init, Endpoint.ofCore],
        by simp [Link.init, Endpoint.ofCore, RetransmitPc.pending], List.Perm.nil⟩
  positive := by
    cases hs with
    | dial now | listen now =>
      exact ⟨(by decide : (1 : UInt32) ≠ 0), by simp [Link.init, Endpoint.ofCore]⟩
  emitted := by simp [Link.init]
  heard := by simp [Link.init]
  nodup := List.nodup_nil
  delivered := by
    cases hr with
    | dial now | listen now => rfl
  newest := by
    cases hr with
    | dial now | listen now => rfl
  forward := List.isChain_nil

theorem realtime_whole_once {sender receiver : Core} (hs : sender.Created)
    (hr : receiver.Created) {es : List LinkEvent}
    (h : Machine.Along Link.step OnePacketOvertaken (Link.init sender receiver) es) :
    Machine.Always Link.step WholeOnce (Link.init sender receiver) es :=
  Machine.always_of_along (fun _ _ _ hi hc hs => hi.step hc hs) (fun _ hi => hi.wholeOnce)
    (linkInv_init hs hr) h

def realtimeSend (data : Bytes) : List LinkEvent :=
  [.sender (.act (.call data .realtime)), .sender (.act (.resume 0 0)),
    .sender (.act (.resume 0 0)), .sender .pump]

def newLink : Link := Link.init (newCore dialWindow dialRto 0) (acceptedCore 0)

theorem late_duplicate_refused :
    Machine.Always Link.step WholeOnce newLink
      (realtimeSend [1] ++ realtimeSend [2] ++ [.arrive 0 0, .arrive 1 0, .arrive 0 0]) :=
  realtime_whole_once (.dial 0) (.listen 0) (by decide)

def Link.lengths (l : Link) : List Nat × List Nat :=
  (l.receiver.core.state.realtimeDeliveries.map (fun d => d.data.length),
    (realtimeMessages l.sender.accepted).map (fun d => d.data.length))

theorem WholeOnce.lengths {l : Link} (h : WholeOnce l) : List.Subperm l.lengths.1 l.lengths.2 := by
  obtain ⟨ds, hperm, hsub⟩ := h
  exact ⟨_, hperm.map _, hsub.map _⟩

theorem realtime_split_and_repeated :
    (∃ l, Machine.run Link.step newLink
        (realtimeSend (List.replicate 1383 0) ++ [.arrive 0 0]) = some l ∧ ¬WholeOnce l) ∧
      ∃ l, Machine.run Link.step newLink
        (realtimeSend [7] ++ [.arrive 0 0, .arrive 0 0]) = some l ∧ ¬WholeOnce l := by
  have hsplit : (Machine.run Link.step newLink
      (realtimeSend (List.replicate 1383 0) ++ [.arrive 0 0])).map Link.lengths =
        some ([1382], [1383]) := by decide +kernel
  have hrepeat : (Machine.run Link.step newLink
      (realtimeSend [7] ++ [.arrive 0 0, .arrive 0 0])).map Link.lengths =
        some ([1, 1], [1]) := by decide
  obtain ⟨l1, hl1, hlen1⟩ := Option.map_eq_some_iff.mp hsplit
  obtain ⟨l2, hl2, hlen2⟩ := Option.map_eq_some_iff.mp hrepeat
  refine ⟨⟨l1, hl1, fun h => ?_⟩, l2, hl2, fun h => ?_⟩
  · have hsub := h.lengths
    rw [hlen1] at hsub
    simp at hsub
  · have hsub := h.lengths
    rw [hlen2] at hsub
    exact absurd hsub.length_le (by decide)

end Cross233.Qcp
