import Mathlib.Data.Nat.ModEq
import Cross233.Qcp.Delivery

namespace Cross233.Qcp

open Chunks

def deliveredPeriod : Nat := deliveredCap + 1

structure Deduplicated (st : CoreState) : Prop where
  len : st.delivered.len = st.reliableDeliveries.length % deliveredPeriod
  current : ∀ id, id ∈ st.delivered ↔ id ∈ (chunkAt deliveredPeriod st.reliableDeliveries
    (st.reliableDeliveries.length / deliveredPeriod)).map Delivery.msgId
  once : ∀ k, ((chunkAt deliveredPeriod st.reliableDeliveries k).map Delivery.msgId).Nodup

-- The ids of the messages put on `deliver_tx` up to the last time the delivered set was cleared.
def CoreState.clearedIds (st : CoreState) : List UInt32 :=
  (st.reliableDeliveries.take
    (st.reliableDeliveries.length / deliveredPeriod * deliveredPeriod)).map Delivery.msgId

def CoreState.TakesIn (st : CoreState) (p : Packet) : Prop :=
  st.closed = false ∧ p.isFragment = true ∧ ¬st.TableFull p.msgId

instance (st : CoreState) (p : Packet) : Decidable (st.TakesIn p) :=
  inferInstanceAs (Decidable (_ ∧ _))

-- The reliable fragment that arrives at `s` in this step and is put into an assembler.
def takenIn (s : Side) (c : Connection) : Transmission → Option Packet
  | .receive s' i _ =>
    if s' = s then
      ((c.wire s.other)[i]?.bind recvFrom).filter (fun p => (c.ep s).core.state.TakesIn p)
    else none
  | _ => none

def NoneForgotten (s : Side) (c : Connection) (e : Transmission) : Prop :=
  ∀ p ∈ takenIn s c e, p.msgId ∉ (c.ep s).core.state.clearedIds

instance (s : Side) (c : Connection) (e : Transmission) : Decidable (NoneForgotten s c e) :=
  inferInstanceAs (Decidable (∀ p ∈ takenIn s c e, _))

theorem mem_takenIn {s : Side} {c : Connection} {e : Transmission} {p : Packet} :
    p ∈ takenIn s c e ↔ ∃ i now d, e = .receive s i now ∧ (c.wire s.other)[i]? = some d ∧
      recvFrom d = some p ∧ (c.ep s).core.state.TakesIn p := by
  cases e with
  | receive t i now =>
    by_cases hs : t = s
    · subst hs
      simp only [takenIn, if_true, Option.mem_def, Option.filter_eq_some_iff,
        Option.bind_eq_some_iff, decide_eq_true_eq]
      constructor
      · rintro ⟨⟨d, hd, hp⟩, ht⟩
        exact ⟨i, now, d, rfl, hd, hp, ht⟩
      · rintro ⟨_, _, d, hev, hd, hp, ht⟩
        cases hev
        exact ⟨⟨d, hd, hp⟩, ht⟩
    · simp [takenIn, hs]
  | act t a | dial de | pump t | lose t i => simp [takenIn]

def deliveriesOf (m : Accepted) (ds : List Delivery) : Nat := ds.countP (fun d => d.msgId = m.msgId)

def DeliveredOnce (s : Side) (c : Connection) : Prop :=
  ∀ m ∈ (c.ep s.other).accepted, m.stream ≠ .realtime →
    deliveriesOf m (c.ep s).core.state.reliableDeliveries ≤ 1 ∧
      ∀ d ∈ (c.ep s).core.state.reliableDeliveries, d.msgId = m.msgId → d = m.delivery

theorem deliveredPeriod_pos : 0 < deliveredPeriod := Nat.succ_pos _

theorem Quiet.deduplicated {st st' : CoreState} (h : Quiet st st') (hd : Deduplicated st) :
    Deduplicated st' := by
  obtain ⟨hlen, hcur, honce⟩ := hd
  refine ⟨?_, ?_, ?_⟩
  · rw [h.delivered, h.reliable]
    exact hlen
  · rw [h.delivered, h.reliable]
    exact hcur
  · rw [h.reliable]
    exact honce

theorem Put.once {st st' : CoreState} {p : Packet} {m : Accepted} (h : Put st st' p m)
    (hd : Deduplicated st) :
    ∀ k, ((chunkAt deliveredPeriod st'.reliableDeliveries k).map Delivery.msgId).Nodup := by
  intro k
  rw [h.reliable]
  by_cases hk : k = st.reliableDeliveries.length / deliveredPeriod
  · rw [hk, chunkAt_concat_last deliveredPeriod_pos, List.map_append, List.map_singleton,
      List.nodup_append]
    refine ⟨hd.once _, List.nodup_singleton _, ?_⟩
    intro id hid id' hid' heq
    rw [List.mem_singleton.mp hid'] at heq
    rw [heq] at hid
    exact h.fresh ((hd.current _).mpr hid)
  · rw [chunkAt_concat_of_ne deliveredPeriod_pos _ hk]
    exact hd.once k

theorem Put.deduplicated {st st' : CoreState} {p : Packet} {m : Accepted} (h : Put st st' p m)
    (hd : Deduplicated st) : Deduplicated st' := by
  have hdel := h.delivered
  rw [recordDelivered_delivered h.fresh, hd.len] at hdel
  have hlen : st'.reliableDeliveries.length = st.reliableDeliveries.length + 1 := by
    rw [h.reliable, List.length_append, List.length_singleton]
  have hlt := Nat.mod_lt st.reliableDeliveries.length deliveredPeriod_pos
  by_cases hfull : st.reliableDeliveries.length % deliveredPeriod + 1 > deliveredCap
  · -- The set is cleared exactly when a block of `deliveredPeriod` deliveries is complete.
    rw [if_pos hfull] at hdel
    have hend : st.reliableDeliveries.length % deliveredPeriod = deliveredCap := by
      have : deliveredPeriod = deliveredCap + 1 := rfl
      omega
    have hmod : st'.reliableDeliveries.length % deliveredPeriod = 0 := by
      rw [hlen, Nat.add_mod, hend]
      decide
    refine ⟨by rw [hdel, hmod]; rfl, ?_, h.once hd⟩
    intro id
    rw [hdel, chunkAt_length_div hmod]
    simp
  · rw [if_neg hfull] at hdel
    have hone : 1 % deliveredPeriod = 1 := Nat.mod_eq_of_lt (by decide)
    have hmod : (st.reliableDeliveries.length + 1) % deliveredPeriod =
        st.reliableDeliveries.length % deliveredPeriod + 1 := by
      rw [Nat.add_mod_of_add_mod_lt, hone]
      have : deliveredPeriod = deliveredCap + 1 := rfl
      omega
    have hdiv : st'.reliableDeliveries.length / deliveredPeriod =
        st.reliableDeliveries.length / deliveredPeriod := by
      rw [hlen]
      refine Nat.succ_div_of_not_dvd (fun hdvd => ?_)
      rw [Nat.mod_eq_zero_of_dvd hdvd] at hmod
      cases hmod
    refine ⟨?_, ?_, h.once hd⟩
    · rw [hdel, AList.len_insert_of_notMem () h.fresh, hd.len, hlen, hmod]
    · intro id
      rw [hdel, hdiv, h.reliable, chunkAt_concat_last deliveredPeriod_pos, List.map_append,
        List.mem_append, ← hd.current id, AList.mem_insert]
      simp [Accepted.delivery, or_comm]

def SenderDeduplicated (c : Connection) : Prop :=
  Sound c ∧ ∀ s, (c.ep s.other).accepted.length < maxSends → Deduplicated (c.ep s).core.state

theorem deduplicated_init (t u : Instant) : SenderDeduplicated (Connection.init t u) := by
  refine ⟨sound_init t u, ?_⟩
  intro s _
  have start : ∀ core : Core, core.state.delivered = ∅ → core.state.deliverTx = [] →
      Deduplicated core.state := by
    intro core hd ht
    have hr : core.state.reliableDeliveries = [] := by simp [CoreState.reliableDeliveries, ht]
    exact ⟨by simp [hd, hr], by simp [hd, hr, chunkAt], by simp [hr, chunkAt]⟩
  cases s with
  | dialer => exact start (newCore dialWindow dialRto t) rfl rfl
  | acceptor => exact start (acceptedCore u) rfl rfl

theorem SenderDeduplicated.step {c c' : Connection} {e : Transmission} (h : SenderDeduplicated c)
    (hs : c.step e = some c') : SenderDeduplicated c' := by
  refine ⟨h.1.step hs, ?_⟩
  intro s hlen
  have hc := connection_step_cases hs
  have hd := h.2 s (lt_of_le_of_lt (hc.accepted s.other).length_le hlen)
  cases (h.1.change hc s hlen).2 with
  | quiet hq => exact hq.deduplicated hd
  | put i now d p m hev hw hopen hp hf hm hfrag hput => exact hput.deduplicated hd

theorem deduplicated_of_run {t u : Instant} {es : List Transmission} {c : Connection}
    (h : Machine.run Connection.step (Connection.init t u) es = some c) : SenderDeduplicated c :=
  Machine.run_invariant (fun _ _ _ hs hstep => hs.step hstep) (deduplicated_init t u) h

theorem Deduplicated.mem_deliveredIds {st : CoreState} (h : Deduplicated st) (id : UInt32) :
    id ∈ st.deliveredIds ↔ id ∈ st.clearedIds ∨ id ∈ st.delivered := by
  have hlt := Nat.lt_div_mul_add (a := st.reliableDeliveries.length) deliveredPeriod_pos
  have hcut : chunkAt deliveredPeriod st.reliableDeliveries
      (st.reliableDeliveries.length / deliveredPeriod) =
        st.reliableDeliveries.drop
          (st.reliableDeliveries.length / deliveredPeriod * deliveredPeriod) := by
    rw [chunkAt, List.take_of_length_le]
    rw [List.length_drop]
    omega
  rw [h.current, hcut, CoreState.clearedIds, ← List.mem_append, ← List.map_append,
    List.take_append_drop, CoreState.deliveredIds]

theorem deliveriesOf_le_one {m : Accepted} {ds : List Delivery}
    (h : (ds.map Delivery.msgId).Nodup) : deliveriesOf m ds ≤ 1 := by
  have hcount : deliveriesOf m ds = (ds.map Delivery.msgId).count m.msgId := by
    rw [deliveriesOf, List.count, List.countP_map]
    rfl
  rw [hcount]
  exact List.nodup_iff_count_le_one.mp h m.msgId

structure NeverRepeated (s : Side) (c : Connection) : Prop where
  dedup : SenderDeduplicated c
  once : (c.ep s.other).accepted.length < maxSends → (c.ep s).core.state.deliveredIds.Nodup

theorem NeverRepeated.step {s : Side} {c c' : Connection} {e : Transmission}
    (h : NeverRepeated s c) (hn : NoneForgotten s c e) (hs : c.step e = some c') :
    NeverRepeated s c' := by
  refine ⟨h.dedup.step hs, ?_⟩
  intro hlen
  have hc := connection_step_cases hs
  have hlen' := lt_of_le_of_lt (hc.accepted s.other).length_le hlen
  have honce := h.once hlen'
  cases (h.dedup.1.change hc s hlen).2 with
  | quiet hq =>
    rw [CoreState.deliveredIds, hq.reliable]
    exact honce
  | put i now d p m hev hd hopen hp hf hm hfrag hput =>
    have hcleared := hn p (mem_takenIn.mpr ⟨i, now, d, hev, hd, hp, hopen, hf, hput.completes.1⟩)
    have hfresh : m.msgId ∉ (c.ep s).core.state.deliveredIds := by
      rw [(h.dedup.2 s hlen').mem_deliveredIds, not_or, ← hfrag.msgId]
      exact ⟨hcleared, hfrag.msgId ▸ hput.fresh⟩
    rw [CoreState.deliveredIds, hput.reliable, List.map_append, List.map_singleton]
    refine List.nodup_append.mpr ⟨honce, List.nodup_singleton _, ?_⟩
    intro id hid id' hid' heq
    rw [List.mem_singleton.mp hid'] at heq
    rw [heq] at hid
    exact hfresh hid

theorem reliable_once_unless_forgotten {t u : Instant} {es : List Transmission} {c : Connection}
    (hrun : Machine.run Connection.step (Connection.init t u) es = some c) (s : Side)
    (hsends : (c.ep s.other).accepted.length < maxSends)
    (hnone : Machine.Along Connection.step (NoneForgotten s) (Connection.init t u) es) :
    DeliveredOnce s c := by
  have hstart : NeverRepeated s (Connection.init t u) := by
    refine ⟨deduplicated_init t u, fun _ => ?_⟩
    cases s <;> exact List.nodup_nil
  obtain ⟨hded, honce⟩ :=
    Machine.run_invariant_along (fun _ _ _ h hc hs => h.step hc hs) hstart hnone hrun
  intro m hm _
  refine ⟨deliveriesOf_le_one (honce hsends), ?_⟩
  intro d hd hid
  obtain ⟨m', hm', rfl⟩ := (hded.1.receiver s hsends).1.reliable d hd
  rw [(hded.1.honest.numbered s.other).unique hsends hm' hm hid]

def repeatedSplitEvents : List Transmission :=
  splitEvents ++ [.receive .acceptor 1 0, .receive .acceptor 0 0, .receive .acceptor 0 0,
    .receive .acceptor 1 0]

theorem repeated_split_delivered_once :
    ∃ c, Machine.run Connection.step (Connection.init 0 0) repeatedSplitEvents = some c ∧
      (c.ep .acceptor).core.state.reliableDeliveries = [⟨1, splitMessage, .batch⟩] ∧
      DeliveredOnce .acceptor c := by
  have hrun : (Machine.run Connection.step (Connection.init 0 0) repeatedSplitEvents).map
      (fun c => ((c.ep .acceptor).core.state.reliableDeliveries,
        (c.ep .dialer).accepted.length)) = some ([⟨1, splitMessage, .batch⟩], 1) := by
    decide +kernel
  obtain ⟨c, hc, heq⟩ := Option.map_eq_some_iff.mp hrun
  obtain ⟨hrel, hlen⟩ := Prod.mk.inj heq
  refine ⟨c, hc, hrel, reliable_once_unless_forgotten hc .acceptor ?_ (by decide +kernel)⟩
  show (c.ep .dialer).accepted.length < maxSends
  rw [hlen]
  decide

def beat (id : UInt32) : Packet := fragment id .batch 1 0 [0]

def beatData : Bytes := [0]

theorem fragments_beat (id : UInt32) : fragments id beatData .batch = [beat id] := by
  rfl

theorem recvFrom_beat (id : UInt32) : recvFrom (encode (beat id)) = some (beat id) := by
  have hlen : (beat id).payload.length ≤ maxPayload := show 1 ≤ maxPayload by decide
  rw [recvFrom_encode hlen, decode_encode hlen]
  intro _
  exact ⟨show (0 : UInt16) < 1 by decide, show (1 : UInt16).toNat ≤ maxFragmentCount by decide⟩

theorem beat_isFragment (id : UInt32) : (beat id).isFragment = true := by
  simp only [Packet.isFragment, Packet.has, beat, fragment]
  decide

structure Dialer (n : Nat) (flying : HashMap UInt32 InFlight) (data : List Bytes)
    (ep : Endpoint) : Prop where
  calls : ep.calls = []
  inFlight : ep.core.state.inFlight = flying
  next : ep.core.state.nextMsgId = UInt32.ofNat (n + 1)
  usable : ep.core.state.closed = false ∧ ep.core.state.dead = false
  window : 0 < ep.core.state.cwnd
  sent : ep.accepted = (List.range n).map (fun i => ⟨UInt32.ofNat (i + 1), beatData, .batch⟩)
  dataTx : ep.core.dataTx = data
  ctrlTx : ep.core.ctrlTx = []
  inbound : ep.inbound = none

structure Acceptor (n : Nat) (ctrl : List Bytes) (ep : Endpoint) : Prop where
  assemblers : ep.core.state.assemblers = ∅
  listening : ep.core.state.closed = false
  reliable : ep.core.state.reliableDeliveries =
    (List.range n).map (fun i => ⟨UInt32.ofNat (i + 1), beatData, .batch⟩)
  ctrlTx : ep.core.ctrlTx = ctrl
  inbound : ep.inbound = none

theorem beat_id_next {n : Nat} (hn : n < deliveredPeriod) :
    nextId (UInt32.ofNat (n + 1)) = UInt32.ofNat (n + 1 + 1) := by
  have hper : deliveredPeriod + 2 < maxSends := by decide
  have hlt : maxSends < 2 ^ 32 := by decide
  have hid : (UInt32.ofNat (n + 1)).toNat = n + 1 := by
    rw [UInt32.toNat_ofNat']
    exact Nat.mod_eq_of_lt (by omega)
  apply UInt32.toNat_inj.mp
  rw [nextId_toNat (by omega), hid, UInt32.toNat_ofNat']
  exact (Nat.mod_eq_of_lt (by omega)).symm

theorem Dialer.send {n : Nat} {ep : Endpoint} (h : Dialer n ∅ [] ep) (hn : n < deliveredPeriod) :
    ∃ ep' inf, Machine.run Endpoint.act ep (sendActions 0 beatData .batch) = some ep' ∧
      Dialer (n + 1) (AList.insert (UInt32.ofNat (n + 1)) inf ∅)
        [encode (beat (UInt32.ofNat (n + 1)))] ep' := by
  have herr : ep.core.state.sendError = none := by
    simp [CoreState.sendError, h.usable.1, h.usable.2]
  have hspace : ep.core.state.inFlight.len < ep.core.state.cwnd := by
    rw [h.inFlight]
    exact h.window
  refine ⟨_, ⟨beatData, .batch, fragCount beatData, 0, false⟩,
    send_runs 0 h.calls ⟨by decide, by decide⟩ (by decide) herr hspace, ?_⟩
  refine ⟨h.calls, ?_, ?_, h.usable, h.window, ?_, ?_, h.ctrlTx, h.inbound⟩
  · simp only [Endpoint.sent, sendFrags, h.inFlight, h.next]
  · simp only [Endpoint.sent, sendFrags, h.next, beat_id_next hn]
  · simp [Endpoint.sent, h.sent, h.next, List.range_succ]
  · simp only [Endpoint.sent, sendFrags, h.next, fragments_beat, h.dataTx]
    rfl

theorem Dialer.pump {n : Nat} {flying : HashMap UInt32 InFlight} {d : Bytes} {data : List Bytes}
    {ep : Endpoint} (h : Dialer n flying (d :: data) ep) :
    ∃ ep', ep.pump = some (d, ep') ∧ Dialer n flying data ep' := by
  refine ⟨{ ep with core := { ep.core with dataTx := data } }, ?_, ?_⟩
  · simp [Endpoint.pump, h.ctrlTx, h.dataTx]
  · exact ⟨h.calls, h.inFlight, h.next, h.usable, h.window, h.sent, rfl, h.ctrlTx, h.inbound⟩

theorem Acceptor.pump {n : Nat} {d : Bytes} {ctrl : List Bytes} {ep : Endpoint}
    (h : Acceptor n (d :: ctrl) ep) : ∃ ep', ep.pump = some (d, ep') ∧ Acceptor n ctrl ep' := by
  refine ⟨{ ep with core := { ep.core with ctrlTx := ctrl } }, ?_, ?_⟩
  · simp [Endpoint.pump, h.ctrlTx]
  · exact ⟨h.assemblers, h.listening, h.reliable, rfl, h.inbound⟩

theorem receive_beat {ep : Endpoint} {id : UInt32} (ha : ep.core.state.assemblers = ∅)
    (hc : ep.core.state.closed = false) (hf : id ∉ ep.core.state.delivered) :
    ∃ core, handlePacket 0 ep.core (beat id) = .ok core ∧ core.state.assemblers = ∅ ∧
      core.state.closed = false ∧
      core.state.reliableDeliveries = ep.core.state.reliableDeliveries ++ [⟨id, beatData, .batch⟩] ∧
      core.ctrlTx = ep.core.ctrlTx ++ [encode (control flagAck .batch id)] := by
  have hlook : ep.core.state.assemblers.lookup (beat id).msgId = none := by rw [ha]; rfl
  have hlen : ep.core.state.assemblers.len < maxAssemblers := by rw [ha]; decide
  refine ⟨_, single_delivers 0 _ hc (beat_isFragment id) (show (0 : UInt16) < 1 by decide) hlook
    hlen rfl hf, ?_, hc, ?_, rfl⟩
  · simp only [Core.sendCtrl, CoreState.deliver, CoreState.recordDelivered, CoreState.putAssembler,
      Core.touch, ha]
    exact AList.erase_insert _ (by simp)
  · simp [Core.sendCtrl, CoreState.deliver, CoreState.recordDelivered, CoreState.putAssembler,
      Core.touch, CoreState.reliableDeliveries, Assembler.first, beat, fragment, beatData,
      List.reduceOption]

theorem Acceptor.receive {n : Nat} {ep : Endpoint} (h : Acceptor n [] ep)
    (hf : UInt32.ofNat (n + 1) ∉ ep.core.state.delivered) :
    ∃ core, handlePacket 0 ep.core (beat (UInt32.ofNat (n + 1))) = .ok core ∧
      Acceptor (n + 1) [encode (control flagAck .batch (UInt32.ofNat (n + 1)))]
        { ep with core := core } := by
  obtain ⟨core, hok, ha, hc, hr, hx⟩ := receive_beat h.assemblers h.listening hf
  refine ⟨core, hok, ha, hc, ?_, ?_, h.inbound⟩
  · rw [hr, h.reliable]
    simp [List.range_succ]
  · rw [hx, h.ctrlTx]
    rfl

theorem Dialer.ack {n : Nat} {id : UInt32} {inf : InFlight} {data : List Bytes} {ep : Endpoint}
    (h : Dialer n (AList.insert id inf ∅) data ep) :
    ∃ core, handlePacket 0 ep.core (control flagAck .batch id) = .ok core ∧
      Dialer n ∅ data { ep with core := core } := by
  refine ⟨_, handlePacket_ack 0 .batch id h.usable.1, ?_⟩
  obtain ⟨_, _, _, _, cwnd, _, _, he⟩ := handleAck_eq 0 (ep.core.touch 0).state id
  have hw := handleAck_cwnd_pos 0 (ep.core.touch 0).state id h.window
  refine ⟨h.calls, ?_, ?_, ?_, hw, h.sent, h.dataTx, h.ctrlTx, h.inbound⟩
  · show (handleAck 0 (ep.core.touch 0).state id).inFlight = ∅
    rw [he]
    show ep.core.state.inFlight.erase id = ∅
    rw [h.inFlight]
    exact AList.erase_insert _ (by simp)
  · show (handleAck 0 (ep.core.touch 0).state id).nextMsgId = _
    rw [he]
    exact h.next
  · show (handleAck 0 (ep.core.touch 0).state id).closed = false ∧
      (handleAck 0 (ep.core.touch 0).state id).dead = false
    rw [he]
    exact h.usable

structure Idle (n : Nat) (held : List Bytes) (c : Connection) : Prop where
  dial : c.dial = .connected
  dialer : Dialer n ∅ [] (c.ep .dialer)
  acceptor : Acceptor n [] (c.ep .acceptor)
  held : c.wire .dialer = held
  acks : c.wire .acceptor = []

def roundEvents (k : Nat) : List Transmission :=
  (sendActions 0 beatData .batch).map (Transmission.act .dialer) ++
    ([.pump .dialer, .receive .acceptor k 0, .pump .acceptor, .receive .dialer 0 0,
      .lose .acceptor 0] : List Transmission)

theorem beat_fresh {n : Nat} {ctrl : List Bytes} {ep : Endpoint} (h : Acceptor n ctrl ep)
    (hd : Deduplicated ep.core.state) (hn : n < deliveredPeriod) :
    UInt32.ofNat (n + 1) ∉ ep.core.state.delivered := by
  intro hmem
  obtain ⟨d, hd', hid⟩ := List.mem_map.mp ((hd.current _).mp hmem)
  have hall : d ∈ ep.core.state.reliableDeliveries :=
    List.mem_of_mem_drop (List.mem_of_mem_take hd')
  rw [h.reliable] at hall
  obtain ⟨i, hi, rfl⟩ := List.mem_map.mp hall
  have hi' := List.mem_range.mp hi
  have hper : deliveredPeriod < 2 ^ 32 := by decide
  have hnat := congrArg UInt32.toNat hid
  simp only [UInt32.toNat_ofNat'] at hnat
  rw [Nat.mod_eq_of_lt (by omega), Nat.mod_eq_of_lt (by omega)] at hnat
  omega

theorem round_runs {n : Nat} {held : List Bytes} {c : Connection} (h : Idle n held c)
    (hd : Deduplicated (c.ep .acceptor).core.state) (hn : n < deliveredPeriod) :
    ∃ c', Machine.run Connection.step c (roundEvents held.length) = some c' ∧
      Idle (n + 1) (held ++ [encode (beat (UInt32.ofNat (n + 1)))]) c' := by
  obtain ⟨d1, inf, hsend, hd1⟩ := h.dialer.send hn
  obtain ⟨d2, hpump, hd2⟩ := hd1.pump
  obtain ⟨core, hrecv, ha1⟩ := h.acceptor.receive (beat_fresh h.acceptor hd hn)
  obtain ⟨a2, hpumpA, ha2⟩ := ha1.pump
  obtain ⟨core', hack, hd3⟩ := hd2.ack
  let c1 := c.setEp .dialer d1
  let c2 := (c1.setEp .dialer d2).setWire .dialer (c1.wire .dialer ++
    [encode (beat (UInt32.ofNat (n + 1)))])
  let c3 := c2.setEp .acceptor { c.ep .acceptor with core := core }
  let c4 := (c3.setEp .acceptor a2).setWire .acceptor (c3.wire .acceptor ++
    [encode (control flagAck .batch (UInt32.ofNat (n + 1)))])
  let c5 := c4.setEp .dialer { d2 with core := core' }
  let c6 := c5.setWire .acceptor ((c5.wire .acceptor).eraseIdx 0)
  have hc1 : Machine.run Connection.step c
      ((sendActions 0 beatData .batch).map (Transmission.act .dialer)) = some c1 :=
    run_acts .dialer h.dial hsend
  have hc2 : c1.step (.pump .dialer) = some c2 :=
    step_pump (by simpa [c1, Connection.setEp] using hpump)
  have hc3 : c2.step (.receive .acceptor held.length 0) = some c3 := by
    refine step_deliver (c := c2) (s := .acceptor) ?_ h.acceptor.inbound (recvFrom_beat _)
      (show (flagData &&& flagSyn != 0) = false by decide) hrecv
    simp [c2, c1, Connection.setWire, Connection.setEp, Side.other, h.held]
  have hc4 : c3.step (.pump .acceptor) = some c4 :=
    step_pump (by simpa [c3, Connection.setEp] using hpumpA)
  have hc5 : c4.step (.receive .dialer 0 0) = some c5 := by
    refine step_deliver (c := c4) (s := .dialer)
      (d := encode (control flagAck .batch (UInt32.ofNat (n + 1)))) ?_ hd2.inbound
      (recvFrom_control (control_isControl (by decide) _ _))
      (show (flagAck &&& flagSyn != 0) = false by decide) hack
    simp [c4, c3, c2, c1, Connection.setWire, Connection.setEp, Side.other, h.acks]
  refine ⟨c6, ?_, ?_⟩
  · rw [roundEvents, Machine.run_append, hc1]
    simp only [Option.bind_some, Machine.run, hc2, hc3, hc4, hc5]
    rfl
  · refine ⟨h.dial, hd3, ha2, ?_, ?_⟩
    · simp [c6, c5, c4, c3, c2, c1, Connection.setWire, Connection.setEp, h.held]
    · simp [c6, c5, c4, c3, c2, c1, Connection.setWire, Connection.setEp, h.acks]

def newestId : UInt32 := UInt32.ofNat (deliveredCap + 1)

theorem handshake_idle : ∃ c, Machine.run Connection.step (Connection.init 0 0) handshakeEvents =
    some c ∧ Idle 0 [] c :=
  ⟨_, rfl, rfl, ⟨rfl, rfl, rfl, ⟨rfl, rfl⟩, by decide, rfl, rfl, rfl, rfl⟩,
    ⟨rfl, rfl, rfl, rfl, rfl⟩, rfl, rfl⟩

theorem idle_deduplicated {n : Nat} {held : List Bytes} {es : List Transmission} {c : Connection}
    (hrun : Machine.run Connection.step (Connection.init 0 0) es = some c) (h : Idle n held c)
    (hn : n ≤ deliveredPeriod) : Deduplicated (c.ep .acceptor).core.state := by
  refine (deduplicated_of_run hrun).2 .acceptor ?_
  have hlen : (c.ep .dialer).accepted.length = n := by
    rw [h.dialer.sent]
    simp
  have hper : deliveredPeriod < maxSends := by decide
  show (c.ep .dialer).accepted.length < maxSends
  omega

theorem rounds_run (n : Nat) (hn : n < deliveredPeriod) :
    ∃ es c, Machine.run Connection.step (Connection.init 0 0) es = some c ∧
      Idle (n + 1) [encode (beat 1)] c := by
  induction n with
  | zero =>
    obtain ⟨c0, hrun, h0⟩ := handshake_idle
    obtain ⟨c, hround, hc⟩ := round_runs h0 (idle_deduplicated hrun h0 (Nat.zero_le _)) hn
    exact ⟨handshakeEvents ++ roundEvents 0, c, by rw [Machine.run_append, hrun]; exact hround, hc⟩
  | succ n ih =>
    obtain ⟨es, c, hrun, hc⟩ := ih (by omega)
    obtain ⟨c', hround, hc'⟩ := round_runs hc (idle_deduplicated hrun hc (by omega)) hn
    refine ⟨es ++ (roundEvents 1 ++ [.lose .dialer 1]), c'.setWire .dialer [encode (beat 1)],
      ?_, ?_⟩
    · rw [Machine.run_append, hrun, Option.bind_some, Machine.run_append]
      have hround' : Machine.run Connection.step c (roundEvents 1) = some c' := hround
      simp [hround', Machine.run, Connection.step, hc'.held]
    · exact ⟨hc'.dial, hc'.dialer, hc'.acceptor, by simp [Connection.setWire], by
        simp [Connection.setWire, hc'.acks]⟩

-- The set is cleared with the newest message in it, so that message is forgotten at once.
theorem newest_message_delivered_twice :
    ¬∀ (t u : Instant) (es : List Transmission) (c : Connection),
      Machine.run Connection.step (Connection.init t u) es = some c →
      ∀ s, (c.ep s.other).accepted.length < maxSends → DeliveredOnce s c := by
  intro hclaim
  obtain ⟨es, c, hrun, hc⟩ := rounds_run (deliveredCap - 1) (by decide)
  have hcap : deliveredCap - 1 + 1 = deliveredCap := by decide
  rw [hcap] at hc
  obtain ⟨c₁, hround, h₁⟩ := round_runs hc (idle_deduplicated hrun hc (Nat.le_succ _))
    (Nat.lt_succ_self _)
  have hrun₁ : Machine.run Connection.step (Connection.init 0 0)
      (es ++ roundEvents [encode (beat 1)].length) = some c₁ := by
    rw [Machine.run_append, hrun]
    exact hround
  have hd := idle_deduplicated hrun₁ h₁ le_rfl
  have hempty : (c₁.ep .acceptor).core.state.delivered.len = 0 := by
    rw [hd.len, h₁.acceptor.reliable]
    simp [deliveredPeriod]
  have hnot : newestId ∉ (c₁.ep .acceptor).core.state.delivered := by
    rw [AList.mem_keys]
    rw [AList.len_eq_keys, List.length_eq_zero_iff] at hempty
    simp [hempty]
  obtain ⟨core, hok, -, -, hrel, -⟩ :=
    receive_beat h₁.acceptor.assemblers h₁.acceptor.listening hnot
  have hstep : c₁.step (.receive .acceptor 1 0) =
      some (c₁.setEp .acceptor { c₁.ep .acceptor with core := core }) := by
    refine step_deliver (d := encode (beat newestId)) ?_ h₁.acceptor.inbound
      (recvFrom_beat newestId) (show (flagData &&& flagSyn != 0) = false by decide) hok
    simp [Side.other, h₁.held, newestId]
  have hsent := h₁.dialer.sent
  have hlast : deliveredCap ∈ List.range (deliveredCap + 1) :=
    List.mem_range.mpr (Nat.lt_succ_self _)
  obtain ⟨hle, -⟩ := hclaim 0 0 _ _ (Machine.run_concat hrun₁ hstep) .acceptor
    (by
      show (c₁.ep .dialer).accepted.length < maxSends
      rw [hsent]
      simp only [List.length_map, List.length_range]
      decide)
    ⟨newestId, beatData, .batch⟩
    (by
      show (⟨newestId, beatData, .batch⟩ : Accepted) ∈ (c₁.ep .dialer).accepted
      rw [hsent]
      exact List.mem_map.mpr ⟨deliveredCap, hlast, rfl⟩)
    (by intro h; cases h)
  have hrel' : ((c₁.setEp .acceptor { c₁.ep .acceptor with core := core }).ep
      .acceptor).core.state.reliableDeliveries =
      (c₁.ep .acceptor).core.state.reliableDeliveries ++ [⟨newestId, beatData, .batch⟩] := hrel
  rw [hrel', h₁.acceptor.reliable, deliveriesOf, List.countP_append] at hle
  have hfirst : 0 < ((List.range (deliveredCap + 1)).map
      (fun i => (⟨UInt32.ofNat (i + 1), beatData, .batch⟩ : Delivery))).countP
        (fun d => d.msgId = newestId) :=
    List.countP_pos_iff.mpr ⟨⟨newestId, beatData, .batch⟩,
      List.mem_map.mpr ⟨deliveredCap, hlast, rfl⟩, by simp⟩
  simp only [List.countP_singleton, decide_true, if_true] at hle
  omega

end Cross233.Qcp
