import Mathlib.Data.List.Perm.Subperm
import Mathlib.Data.List.TakeWhile
import Cross233.Qcp.Assembly

namespace Cross233.Qcp

def batchLog (log : List Accepted) : List Accepted := log.filter (fun m => m.stream = .batch)

def CoreState.batchDeliveries (st : CoreState) : List Delivery :=
  st.deliverTx.filter (fun d => d.stream = .batch)

def BatchOrdered (s : Side) (c : Connection) : Prop :=
  (c.ep s).core.state.batchDeliveries <+:
    (batchLog (c.ep s.other).accepted).map Accepted.delivery

-- A connection and the fragments that one of its sides has put into an assembler so far.
structure Watched where
  conn : Connection
  taken : List Packet

def Watched.step (s : Side) (w : Watched) (e : Transmission) : Option Watched :=
  (w.conn.step e).map (fun c => ⟨c, w.taken ++ (takenIn s w.conn e).toList⟩)

def earlierBatch (log : List Accepted) (id : UInt32) : List Accepted :=
  (batchLog log).takeWhile (fun m => m.msgId ≠ id)

def ArrivesInOrder (s : Side) (w : Watched) (e : Transmission) : Prop :=
  ∀ p ∈ takenIn s w.conn e, p.stream = .batch →
    p.msgId ∉ (w.conn.ep s).core.state.clearedIds ∧
      ∀ m ∈ earlierBatch (w.conn.ep s.other).accepted p.msgId, ∀ q ∈ m.packets, q ∈ w.taken

instance (s : Side) (w : Watched) (e : Transmission) : Decidable (ArrivesInOrder s w e) :=
  inferInstanceAs (Decidable (∀ p ∈ takenIn s w.conn e, _))

theorem batchDeliveries_eq (st : CoreState) :
    st.batchDeliveries = st.reliableDeliveries.filter (fun d => d.stream = .batch) := by
  rw [CoreState.reliableDeliveries, List.filter_filter, CoreState.batchDeliveries]
  refine List.filter_congr ?_
  intro d _
  cases d.stream <;> rfl

theorem Quiet.batch {st st' : CoreState} (h : Quiet st st') :
    st'.batchDeliveries = st.batchDeliveries := by
  rw [batchDeliveries_eq, batchDeliveries_eq, h.reliable]

theorem Put.batch {st st' : CoreState} {p : Packet} {m : Accepted} (h : Put st st' p m) :
    st'.batchDeliveries =
      st.batchDeliveries ++ if m.stream = .batch then [m.delivery] else [] := by
  rw [batchDeliveries_eq, batchDeliveries_eq, h.reliable, List.filter_append]
  congr 1
  by_cases hb : m.stream = .batch
  · simp [Accepted.delivery, hb]
  · simp [Accepted.delivery, hb]

theorem batchLog_mono {log log' : List Accepted} (h : log <+: log') :
    (batchLog log).map Accepted.delivery <+: (batchLog log').map Accepted.delivery :=
  (h.filter _).map _

theorem mem_batchLog {log : List Accepted} {m : Accepted} :
    m ∈ batchLog log ↔ m ∈ log ∧ m.stream = .batch := by
  simp [batchLog]

-- A prefix that holds everything before `b`, but not `b`, ends just before `b`.
theorem prefix_concat_next {α : Type} {xs as cs : List α} {b : α} (h : xs <+: as ++ b :: cs)
    (hn : as.Nodup) (hall : ∀ a ∈ as, a ∈ xs) (hb : b ∉ xs) : xs ++ [b] <+: as ++ b :: cs := by
  have hlen : as.length ≤ xs.length := (hn.subperm hall).length_le
  rcases List.prefix_or_prefix_of_prefix h (List.prefix_append as (b :: cs)) with hx | hx
  · rw [hx.eq_of_length_le hlen]
    exact ⟨cs, by simp⟩
  · obtain ⟨zs, rfl⟩ := hx
    cases zs with
    | nil => exact ⟨cs, by simp⟩
    | cons z zs =>
      rw [List.prefix_append_right_inj, List.cons_prefix_cons] at h
      exact absurd (by simp [h.1]) hb

theorem batchLog_split {log : List Accepted} (hu : UniqueIds log) {m : Accepted}
    (hm : m ∈ batchLog log) : ∃ rest, batchLog log = earlierBatch log m.msgId ++ m :: rest := by
  have hsplit := List.takeWhile_append_dropWhile (p := fun a : Accepted => a.msgId ≠ m.msgId)
    (l := batchLog log)
  cases hdrop : (batchLog log).dropWhile (fun a : Accepted => a.msgId ≠ m.msgId) with
  | nil =>
    have hnone := List.dropWhile_eq_nil_iff.mp hdrop m hm
    simp at hnone
  | cons b rest =>
    rw [hdrop] at hsplit
    have hhead := List.head?_dropWhile_not (fun a : Accepted => a.msgId ≠ m.msgId) (batchLog log)
    rw [hdrop] at hhead
    have hid : b.msgId = m.msgId := by simpa using hhead
    have hb : b ∈ batchLog log := by
      rw [← hsplit]
      simp
    obtain rfl := hu b (mem_batchLog.mp hb).1 m (mem_batchLog.mp hm).1 hid
    exact ⟨rest, hsplit.symm⟩

theorem earlierBatch_nodup {ep : Endpoint} (h : Numbered ep) (hlen : ep.accepted.length < maxSends)
    (id : UInt32) : ((earlierBatch ep.accepted id).map Accepted.delivery).Nodup := by
  have hsub : List.Sublist (earlierBatch ep.accepted id) ep.accepted :=
    (List.takeWhile_sublist _).trans List.filter_sublist
  refine List.Nodup.of_map Delivery.msgId ?_
  rw [List.map_map]
  exact (hsub.map _).nodup (h.nodup hlen)

-- While the receiver listens it holds every fragment it has taken in, and a message whose
-- fragments it has all taken in is on `deliver_tx`.
structure Gathered (s : Side) (w : Watched) : Prop where
  dedup : SenderDeduplicated w.conn
  logged : ∀ q ∈ w.taken, ∃ m ∈ (w.conn.ep s.other).accepted, q ∈ m.packets
  unfinished : (w.conn.ep s.other).accepted.length < maxSends →
    (w.conn.ep s).core.state.Unfinished
  held : (w.conn.ep s.other).accepted.length < maxSends →
    (w.conn.ep s).core.state.closed = false → ∀ m ∈ (w.conn.ep s.other).accepted,
      ∀ q ∈ m.packets, q ∈ w.taken → (w.conn.ep s).core.state.Holds m q.fragIndex.toNat
  whole : (w.conn.ep s.other).accepted.length < maxSends →
    ∀ m ∈ (w.conn.ep s.other).accepted, (∀ q ∈ m.packets, q ∈ w.taken) →
      m.delivery ∈ (w.conn.ep s).core.state.reliableDeliveries

theorem mem_packets_unique {log : List Accepted} (hu : UniqueIds log) {m m' : Accepted}
    (hm : m ∈ log) (hm' : m' ∈ log) {q : Packet} (hq : q ∈ m.packets) (hq' : q ∈ m'.packets) :
    m = m' := by
  obtain ⟨_, _, -, rfl⟩ := mem_packets hq
  obtain ⟨_, _, -, he⟩ := mem_packets hq'
  exact hu m hm m' hm' (congrArg Packet.msgId he)

theorem Gathered.fresh_untaken {s : Side} {w : Watched} (h : Gathered s w) {log : List Accepted}
    (hu : UniqueIds log) (hsub : ∀ m ∈ (w.conn.ep s.other).accepted, m ∈ log) {m : Accepted}
    (hm : m ∈ log) {q : Packet} (hq : q ∈ m.packets) (ht : q ∈ w.taken) :
    m ∈ (w.conn.ep s.other).accepted := by
  obtain ⟨m', hm', hq'⟩ := h.logged q ht
  rwa [mem_packets_unique hu hm (hsub m' hm') hq hq']

theorem Gathered.rest {s : Side} {w : Watched} (h : Gathered s w) {c : Connection}
    (hd : SenderDeduplicated c)
    (hpre : (w.conn.ep s.other).accepted <+: (c.ep s.other).accepted)
    (hr : (c.ep s.other).accepted.length < maxSends →
      Rested (w.conn.ep s).core.state (c.ep s).core.state) : Gathered s ⟨c, w.taken⟩ where
  dedup := hd
  logged := by
    intro q hq
    obtain ⟨m, hm, hmem⟩ := h.logged q hq
    exact ⟨m, hpre.subset hm, hmem⟩
  unfinished := by
    intro hlen id asm hl
    have hun := h.unfinished (lt_of_le_of_lt hpre.length_le hlen)
    rw [(hr hlen).reliable]
    rcases (hr hlen).assemblers with he | he
    · rw [he] at hl
      exact hun id asm hl
    · rw [he] at hl
      simp at hl
  held := by
    intro hlen hopen m hm q hq ht
    obtain ⟨hold, he⟩ := (hr hlen).listening hopen
    have hm' := h.fresh_untaken ((hd.1.honest.numbered s.other).uniqueIds hlen)
      (fun m hm => hpre.subset hm) hm hq ht
    unfold CoreState.Holds
    rw [(hr hlen).reliable, he]
    exact h.held (lt_of_le_of_lt hpre.length_le hlen) hold m hm' q hq ht
  whole := by
    intro hlen m hm hall
    have hsize := (hd.1.honest.sender s.other).size m hm
    obtain ⟨q, hq, -⟩ := exists_packet hsize (Chunks.length_chunksOf_pos maxPayload_pos hsize.1)
    have hm' := h.fresh_untaken ((hd.1.honest.numbered s.other).uniqueIds hlen)
      (fun m hm => hpre.subset hm) hm hq (hall q hq)
    rw [(hr hlen).reliable]
    exact h.whole (lt_of_le_of_lt hpre.length_le hlen) m hm' hall

theorem Gathered.take {s : Side} {w : Watched} (h : Gathered s w) {c : Connection}
    (hd : SenderDeduplicated c)
    (hsame : (c.ep s.other).accepted = (w.conn.ep s.other).accepted) {p : Packet}
    (hopen : (w.conn.ep s).core.state.closed = false)
    (hp : ∃ m ∈ (w.conn.ep s.other).accepted, p ∈ m.packets)
    (hadv : (w.conn.ep s.other).accepted.length < maxSends →
      Advances (w.conn.ep s.other).accepted (w.conn.ep s).core.state (c.ep s).core.state ∧
        ∀ m ∈ (w.conn.ep s.other).accepted, p ∈ m.packets →
          (c.ep s).core.state.Holds m p.fragIndex.toNat) :
    Gathered s ⟨c, w.taken ++ [p]⟩ := by
  have hheld : (c.ep s.other).accepted.length < maxSends → ∀ m ∈ (c.ep s.other).accepted,
      ∀ q ∈ m.packets, q ∈ w.taken ++ [p] → (c.ep s).core.state.Holds m q.fragIndex.toNat := by
    intro hlen m hm q hq ht
    rw [hsame] at hlen hm
    obtain ⟨hgrow, hnew⟩ := hadv hlen
    rcases List.mem_append.mp ht with ht | ht
    · exact hgrow.holds m hm _ (h.held hlen hopen m hm q hq ht)
    · rw [List.mem_singleton.mp ht] at hq ⊢
      exact hnew m hm hq
  have hun : (c.ep s.other).accepted.length < maxSends → (c.ep s).core.state.Unfinished := by
    intro hlen
    rw [hsame] at hlen
    exact (hadv hlen).1.unfinished (h.unfinished hlen)
  refine ⟨hd, ?_, hun, fun hlen _ => hheld hlen, ?_⟩
  · intro q hq
    simp only [hsame]
    rcases List.mem_append.mp hq with hq | hq
    · exact h.logged q hq
    · rw [List.mem_singleton.mp hq]
      exact hp
  · intro hlen m hm hall
    have hsize := (hd.1.honest.sender s.other).size m hm
    refine delivered_of_holds ((hd.1.honest.numbered s.other).uniqueIds hlen)
      (hd.1.receiver s hlen).1 (hun hlen) hm hsize ?_
    intro i hi
    obtain ⟨q, hq, rfl⟩ := exists_packet hsize hi
    exact hheld hlen m hm q hq (hall q hq)

theorem Gathered.step {s : Side} {w w' : Watched} {e : Transmission} (h : Gathered s w)
    (hs : w.step s e = some w') : Gathered s w' := by
  obtain ⟨c, hc, rfl⟩ := Option.map_eq_some_iff.mp hs
  have hchange := connection_step_cases hc
  have hpre := hchange.accepted s.other
  have hd := h.dedup.step hc
  have hsize := (h.dedup.1.honest.sender s.other).size
  cases ht : takenIn s w.conn e with
  | none =>
    rw [Option.toList_none, List.append_nil]
    refine h.rest hd hpre ?_
    intro hlen
    rcases hchange.receiver s with hr | ⟨i, now, d, hev, hdw, -, hep⟩
    · exact hr.rested
    · rw [hep]
      have hlen' := lt_of_le_of_lt hpre.length_le hlen
      refine receive_untaken ((h.dedup.1.honest.numbered s.other).uniqueIds hlen') hsize now
        (h.dedup.1.receiver s hlen').1 (h.dedup.1.honest.wire s.other d (List.mem_of_getElem? hdw))
        ?_
      intro p hp htakes
      have hmem : p ∈ takenIn s w.conn e := mem_takenIn.mpr ⟨i, now, d, hev, hdw, hp, htakes⟩
      rw [ht] at hmem
      cases hmem
  | some p =>
    obtain ⟨i, now, d, rfl, hdw, hp, htakes⟩ := mem_takenIn.mp (Option.mem_def.mpr ht)
    have hemit := h.dedup.1.honest.wire s.other d (List.mem_of_getElem? hdw)
    have hconn := receive_fragment hc hdw hp htakes.2.1
    have hep : c.ep s = (w.conn.ep s).receive now d := by simp [hconn, Connection.setEp]
    have hsame : (c.ep s.other).accepted = (w.conn.ep s.other).accepted := by
      have hne : s.other ≠ s := by cases s <;> decide
      simp [hconn, Connection.setEp, Function.update_of_ne hne]
    rw [Option.toList_some]
    refine h.take hd hsame htakes.1 (recv_emitted_mem hemit hp htakes.2.1) ?_
    intro hlen
    obtain ⟨hadv, hholds⟩ := receive_taken
      ((h.dedup.1.honest.numbered s.other).uniqueIds hlen) hsize now (h.dedup.1.receiver s hlen).1
      (delivered_known h.dedup hlen) hemit hp htakes
    rw [hep]
    exact ⟨hadv, fun m hm hq => hholds m hm (fragmentOf_of_mem_packets (hsize m hm) hq)⟩

theorem gathered_init (s : Side) (t u : Instant) : Gathered s ⟨Connection.init t u, []⟩ := by
  refine ⟨deduplicated_init t u, by simp, ?_, by simp, ?_⟩
  · intro _ id asm hl
    cases s <;> cases hl
  · intro _ m hm _
    cases s <;> cases hm

structure Ordered (s : Side) (w : Watched) : Prop where
  gathered : Gathered s w
  batch : (w.conn.ep s.other).accepted.length < maxSends → BatchOrdered s w.conn

theorem Gathered.next {s : Side} {w : Watched} (h : Gathered s w)
    (hlen : (w.conn.ep s.other).accepted.length < maxSends) (hbatch : BatchOrdered s w.conn)
    {m : Accepted} (hm : m ∈ (w.conn.ep s.other).accepted) (hb : m.stream = .batch)
    (hnew : m.msgId ∉ (w.conn.ep s).core.state.deliveredIds)
    (hearlier : ∀ a ∈ earlierBatch (w.conn.ep s.other).accepted m.msgId,
      ∀ q ∈ a.packets, q ∈ w.taken) :
    (w.conn.ep s).core.state.batchDeliveries ++ [m.delivery] <+:
      (batchLog (w.conn.ep s.other).accepted).map Accepted.delivery := by
  have hnum := h.dedup.1.honest.numbered s.other
  obtain ⟨rest, hsplit⟩ := batchLog_split (hnum.uniqueIds hlen) (mem_batchLog.mpr ⟨hm, hb⟩)
  have hbatch' := hbatch
  rw [BatchOrdered, hsplit, List.map_append, List.map_cons] at hbatch'
  rw [hsplit, List.map_append, List.map_cons]
  refine prefix_concat_next hbatch' (earlierBatch_nodup hnum hlen m.msgId) ?_ ?_
  · intro x hx
    obtain ⟨a, ha, rfl⟩ := List.mem_map.mp hx
    have hlog := mem_batchLog.mp ((List.takeWhile_sublist _).subset ha)
    rw [batchDeliveries_eq]
    exact List.mem_filter.mpr ⟨h.whole hlen a hlog.1 (hearlier a ha), by
      simp [Accepted.delivery, hlog.2]⟩
  · intro hmem
    rw [batchDeliveries_eq] at hmem
    exact hnew (List.mem_map.mpr ⟨m.delivery, List.mem_of_mem_filter hmem, rfl⟩)

theorem Ordered.step {s : Side} {w w' : Watched} {e : Transmission} (h : Ordered s w)
    (hin : ArrivesInOrder s w e) (hs : w.step s e = some w') : Ordered s w' := by
  refine ⟨h.gathered.step hs, ?_⟩
  obtain ⟨c, hstep, rfl⟩ := Option.map_eq_some_iff.mp hs
  intro hlen
  have hc := connection_step_cases hstep
  have hpre := hc.accepted s.other
  have hlen' := lt_of_le_of_lt hpre.length_le hlen
  have hdedup := h.gathered.dedup
  unfold BatchOrdered
  refine List.IsPrefix.trans ?_ (batchLog_mono hpre)
  cases (hdedup.1.change hc s hlen).2 with
  | quiet hq =>
    rw [hq.batch]
    exact h.batch hlen'
  | put i now d p m hev hd hopen hp hf hm hfrag hput =>
    rw [hput.batch]
    split_ifs with hb
    · obtain ⟨hcleared, hearlier⟩ := hin p
        (mem_takenIn.mpr ⟨i, now, d, hev, hd, hp, hopen, hf, hput.completes.1⟩)
        (hfrag.stream.trans hb)
      rw [hfrag.msgId] at hcleared hearlier
      refine h.gathered.next hlen' (h.batch hlen') hm hb ?_ hearlier
      rw [(hdedup.2 s hlen').mem_deliveredIds, not_or]
      exact ⟨hcleared, hput.fresh⟩
    · rw [List.append_nil]
      exact h.batch hlen'

theorem watched_run (s : Side) (w : Watched) (es : List Transmission) :
    (Machine.run (Watched.step s) w es).map Watched.conn =
      Machine.run Connection.step w.conn es :=
  Machine.run_map (fun w e => by simp [Watched.step, Option.map_map, Function.comp_def]) w es

theorem batch_ordered_when_arriving_in_order {t u : Instant} {es : List Transmission}
    {c : Connection} (hrun : Machine.run Connection.step (Connection.init t u) es = some c)
    (s : Side) (hsends : (c.ep s.other).accepted.length < maxSends)
    (hin : Machine.Along (Watched.step s) (ArrivesInOrder s) ⟨Connection.init t u, []⟩ es) :
    BatchOrdered s c := by
  have hstart : Ordered s ⟨Connection.init t u, []⟩ := by
    refine ⟨gathered_init s t u, fun _ => ?_⟩
    have hnil : ((Connection.init t u).ep s).core.state.batchDeliveries = [] := by
      cases s <;> rfl
    rw [BatchOrdered, hnil]
    exact List.nil_prefix
  rw [← watched_run s ⟨Connection.init t u, []⟩] at hrun
  obtain ⟨w, hw, rfl⟩ := Option.map_eq_some_iff.mp hrun
  exact (Machine.run_invariant_along (fun _ _ _ h hc hs => h.step hc hs) hstart hin hw).batch
    hsends

def twoBatchEvents : List Transmission :=
  splitEvents ++ sendEvents [2] .batch

-- The fragments of the first message arrive backwards and one of them again after its delivery.
theorem two_batch_messages_in_order :
    ∃ c, Machine.run Connection.step (Connection.init 0 0)
        (twoBatchEvents ++ [.receive .acceptor 1 0, .receive .acceptor 0 0,
          .receive .acceptor 1 0, .receive .acceptor 2 0]) = some c ∧
      (c.ep .acceptor).core.state.batchDeliveries =
        [⟨1, splitMessage, .batch⟩, ⟨2, [2], .batch⟩] ∧
      BatchOrdered .acceptor c := by
  have hrun : (Machine.run Connection.step (Connection.init 0 0)
      (twoBatchEvents ++ [.receive .acceptor 1 0, .receive .acceptor 0 0,
        .receive .acceptor 1 0, .receive .acceptor 2 0])).map
        (fun c => ((c.ep .acceptor).core.state.batchDeliveries,
          (c.ep .dialer).accepted.length)) =
      some ([⟨1, splitMessage, .batch⟩, ⟨2, [2], .batch⟩], 2) := by decide +kernel
  obtain ⟨c, hc, heq⟩ := Option.map_eq_some_iff.mp hrun
  obtain ⟨hd, hlen⟩ := Prod.mk.inj heq
  refine ⟨c, hc, hd, ?_⟩
  refine batch_ordered_when_arriving_in_order hc .acceptor ?_ (by decide +kernel)
  show (c.ep .dialer).accepted.length < maxSends
  rw [hlen]
  decide

theorem later_batch_message_overtakes :
    ¬∀ (t u : Instant) (es : List Transmission) (c : Connection),
      Machine.run Connection.step (Connection.init t u) es = some c → ∀ s, BatchOrdered s c := by
  intro h
  have hrun : (Machine.run Connection.step (Connection.init 0 0)
      (handshakeEvents ++ sendEvents [1] .batch ++ sendEvents [2] .batch ++
        [.receive .acceptor 1 0])).map
        (fun c => ((c.ep .acceptor).core.state.batchDeliveries, (c.ep .dialer).accepted)) =
      some ([⟨2, [2], .batch⟩], [⟨1, [1], .batch⟩, ⟨2, [2], .batch⟩]) := by decide
  obtain ⟨c, hc, heq⟩ := Option.map_eq_some_iff.mp hrun
  obtain ⟨hd, ha⟩ := Prod.mk.inj heq
  have hord : (c.ep .acceptor).core.state.batchDeliveries <+:
      (batchLog (c.ep .dialer).accepted).map Accepted.delivery := h 0 0 _ c hc .acceptor
  rw [hd, ha] at hord
  revert hord
  decide

end Cross233.Qcp
