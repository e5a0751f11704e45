import Mathlib.Tactic.Linarith
import Mathlib.Tactic.Positivity
import Cross233.Qcp.Listener
import Cross233.Qcp.Steps

namespace Cross233.Qcp

def sampleMs (sample : Duration) : ℚ := (sample : ℚ) / 1000000

theorem sampleMs_nonneg (sample : Duration) : 0 ≤ sampleMs sample := by
  unfold sampleMs
  positivity

theorem sampleMs_injective {s t : Duration} (h : sampleMs s = sampleMs t) : s = t := by
  unfold sampleMs at h
  exact_mod_cast (div_left_inj' (by norm_num)).mp h

theorem updateRto_first {st : CoreState} (h : st.rttInit = false) (sample : Duration) :
    (updateRto st sample).srttMs = sampleMs sample ∧
      (updateRto st sample).rttvarMs = sampleMs sample / 2 ∧
      (updateRto st sample).rttInit = true := by
  simp [updateRto, h, sampleMs]

theorem updateRto_later {st : CoreState} (h : st.rttInit = true) (sample : Duration) :
    (updateRto st sample).srttMs = st.srttMs + 1 / 8 * (st.srttMs - sampleMs sample) ∧
      (updateRto st sample).rttvarMs =
        (1 - 1 / 4) * st.rttvarMs + 1 / 4 * |st.srttMs - sampleMs sample| ∧
      (updateRto st sample).rttInit = true := by
  simp [updateRto, h, sampleMs]

def Moves (st : CoreState) (sample : Duration) : Prop :=
  min st.srttMs (sampleMs sample) ≤ (updateRto st sample).srttMs ∧
    (updateRto st sample).srttMs ≤ max st.srttMs (sampleMs sample)

structure Tracks (st : CoreState) (samples : List Duration) : Prop where
  between : ∀ pre d post, samples = pre ++ d :: post → Moves (pre.foldl updateRto st) d
  interval : ∀ pre post a b, samples = pre ++ post → pre ≠ [] →
    (∀ d ∈ samples, a ≤ sampleMs d ∧ sampleMs d ≤ b) →
      a ≤ (pre.foldl updateRto st).srttMs ∧ (pre.foldl updateRto st).srttMs ≤ b
  rttvar : ∀ pre post, samples = pre ++ post → pre ≠ [] → 0 ≤ (pre.foldl updateRto st).rttvarMs

structure SettledAt (first : Duration) (st : CoreState) : Prop where
  init : st.rttInit = true
  srtt : st.srttMs = sampleMs first
  rttvar : 0 ≤ st.rttvarMs

theorem settled_first {st : CoreState} (h : st.rttInit = false) (first : Duration) :
    SettledAt first (updateRto st first) := by
  obtain ⟨hs, hv, hi⟩ := updateRto_first h first
  refine ⟨hi, hs, ?_⟩
  rw [hv]
  exact div_nonneg (sampleMs_nonneg first) (by norm_num)

theorem SettledAt.update {first : Duration} {st : CoreState} (h : SettledAt first st) :
    SettledAt first (updateRto st first) := by
  obtain ⟨hs, hv, hi⟩ := updateRto_later h.init first
  refine ⟨hi, ?_, ?_⟩
  · rw [hs, h.srtt]
    ring
  · rw [hv, h.srtt]
    have := h.rttvar
    simp only [sub_self, abs_zero]
    linarith

theorem SettledAt.foldl {first : Duration} {st : CoreState} (h : SettledAt first st)
    {later : List Duration} (hl : ∀ d ∈ later, d = first) :
    SettledAt first (later.foldl updateRto st) := by
  induction later generalizing st with
  | nil => exact h
  | cons d later ih =>
    rw [List.foldl_cons, hl d List.mem_cons_self]
    exact ih h.update (fun x hx => hl x (List.mem_cons_of_mem d hx))

-- The estimate is pushed away from any sample it differs from.
theorem SettledAt.moves_iff {first : Duration} {st : CoreState} (h : SettledAt first st)
    (d : Duration) : Moves st d ↔ d = first := by
  constructor
  · intro hm
    unfold Moves at hm
    rw [(updateRto_later h.init d).1, h.srtt] at hm
    apply sampleMs_injective
    rcases le_total (sampleMs first) (sampleMs d) with hle | hle
    · rw [min_eq_left hle] at hm
      linarith [hm.1]
    · rw [max_eq_left hle] at hm
      linarith [hm.2]
  · rintro rfl
    have hs := h.update.srtt
    rw [Moves, hs, h.srtt]
    simp

theorem SettledAt.constant {first : Duration} {st : CoreState} (h : SettledAt first st)
    {later : List Duration}
    (hm : ∀ pre d post, later = pre ++ d :: post → Moves (pre.foldl updateRto st) d) :
    ∀ d ∈ later, d = first := by
  induction later generalizing st with
  | nil => simp
  | cons d later ih =>
    have hd : d = first := (h.moves_iff d).mp (hm [] d later rfl)
    have hnext : SettledAt first (updateRto st d) := by
      rw [hd]
      exact h.update
    intro x hx
    rcases List.mem_cons.mp hx with rfl | hx
    · exact hd
    · refine ih hnext (fun pre y post hl => ?_) x hx
      simpa using hm (d :: pre) y post (by simp [hl])

theorem tracks_of_constant {st : CoreState} (h : st.rttInit = false) {first : Duration}
    {later : List Duration} (hl : ∀ d ∈ later, d = first) : Tracks st (first :: later) := by
  have settled (d : Duration) (pre post : List Duration) (hs : first :: later = d :: pre ++ post) :
      SettledAt first ((d :: pre).foldl updateRto st) := by
    obtain ⟨rfl, rfl⟩ := List.cons.inj hs
    exact (settled_first h first).foldl (fun x hx => hl x (List.mem_append_left _ hx))
  refine ⟨?_, ?_, ?_⟩
  · intro pre d post hs
    cases pre with
    | nil =>
      obtain ⟨rfl, rfl⟩ := List.cons.inj hs
      rw [Moves, List.foldl_nil, (updateRto_first h first).1]
      exact ⟨min_le_right _ _, le_max_right _ _⟩
    | cons x pre =>
      obtain ⟨-, rfl⟩ := List.cons.inj hs
      exact ((settled x pre (d :: post) hs).moves_iff d).mpr (hl d (by simp))
  · intro pre post a b hs hne hab
    cases pre with
    | nil => exact absurd rfl hne
    | cons x pre =>
      rw [(settled x pre post hs).srtt]
      exact hab first List.mem_cons_self
  · intro pre post hs hne
    cases pre with
    | nil => exact absurd rfl hne
    | cons x pre => exact (settled x pre post hs).rttvar

theorem rtt_tracks_iff {st : CoreState} (h : st.rttInit = false) (first : Duration)
    (later : List Duration) : Tracks st (first :: later) ↔ ∀ d ∈ later, d = first := by
  constructor
  · intro ht
    refine (settled_first h first).constant (fun pre d post hl => ?_)
    simpa using ht.between (first :: pre) d post (by simp [hl])
  · exact tracks_of_constant h

theorem steady_path_tracked :
    Tracks (newCore dialWindow dialRto 0).state [millis 40, millis 40] ↔
      ∀ d ∈ [millis 40], d = millis 40 :=
  rtt_tracks_iff rfl (millis 40) [millis 40]

theorem slower_path_lowers_srtt :
    ¬Tracks (newCore dialWindow dialRto 0).state [millis 100, millis 200] := by
  intro h
  obtain ⟨hle, -⟩ := h.between [millis 100] (millis 200) [] rfl
  have hsettled : SettledAt (millis 100)
      (updateRto (newCore dialWindow dialRto 0).state (millis 100)) := settled_first rfl _
  simp only [List.foldl_cons, List.foldl_nil, (updateRto_later hsettled.init (millis 200)).1,
    hsettled.srtt] at hle
  norm_num [sampleMs, millis] at hle

structure CoreState.Bounded (st : CoreState) : Prop where
  cwnd : minCwnd ≤ st.cwnd ∧ st.cwnd ≤ maxCwnd
  ssthresh : minCwnd ≤ st.ssthresh ∧ st.ssthresh ≤ maxCwnd
  caAck : st.caAck < st.cwnd
  retrans : ∀ id n, st.retrans.lookup id = some n → n ≤ maxRetransmit
  rto : millis minRtoMs ≤ st.rto ∧ st.rto ≤ millis maxRtoMs

theorem CoreState.Bounded.of_eq {st st' : CoreState} (h : st.Bounded) (hc : st'.cwnd = st.cwnd)
    (hs : st'.ssthresh = st.ssthresh) (ha : st'.caAck = st.caAck)
    (hr : st'.retrans = st.retrans) (ht : st'.rto = st.rto) : st'.Bounded where
  cwnd := hc ▸ h.cwnd
  ssthresh := hs ▸ h.ssthresh
  caAck := by
    rw [hc, ha]
    exact h.caAck
  retrans := hr ▸ h.retrans
  rto := ht ▸ h.rto

theorem updateRto_rto (st : CoreState) (sample : Duration) :
    millis minRtoMs ≤ (updateRto st sample).rto ∧ (updateRto st sample).rto ≤ millis maxRtoMs := by
  have hclamp (x : ℚ) : minRtoMs ≤ ⌊max (minRtoMs : ℚ) (min x maxRtoMs)⌋.toNat ∧
      ⌊max (minRtoMs : ℚ) (min x maxRtoMs)⌋.toNat ≤ maxRtoMs := by
    have hlow : (minRtoMs : ℤ) ≤ ⌊max (minRtoMs : ℚ) (min x maxRtoMs)⌋ :=
      Int.le_floor.mpr (by exact_mod_cast le_max_left _ _)
    have hle : max (minRtoMs : ℚ) (min x maxRtoMs) ≤ maxRtoMs :=
      max_le (by norm_num [minRtoMs, maxRtoMs]) (min_le_right _ _)
    have hhigh : ⌊max (minRtoMs : ℚ) (min x maxRtoMs)⌋ ≤ (maxRtoMs : ℤ) := by
      exact_mod_cast (Int.floor_le _).trans hle
    omega
  unfold updateRto millis
  exact ⟨Nat.mul_le_mul_right _ (hclamp _).1, Nat.mul_le_mul_right _ (hclamp _).2⟩

theorem growWindow_cases (st : CoreState) (h : st.Bounded) :
    (growWindow st).Bounded ∧ st.cwnd ≤ (growWindow st).cwnd ∧
      (growWindow st).cwnd ≤ st.cwnd + 1 := by
  obtain ⟨⟨hlow, hhigh⟩, hss, hca, hre, hrto⟩ := h
  have hmin : st.cwnd ≤ min (st.cwnd + 1) maxCwnd := le_min (Nat.le_succ _) hhigh
  have hcap : min (st.cwnd + 1) maxCwnd ≤ maxCwnd := min_le_right _ _
  have hone : min (st.cwnd + 1) maxCwnd ≤ st.cwnd + 1 := min_le_left _ _
  unfold growWindow
  split_ifs with hslow hround
  · exact ⟨⟨⟨hlow.trans hmin, hcap⟩, hss, hca.trans_le hmin, hre, hrto⟩, hmin, hone⟩
  · have hpos : 0 < min (st.cwnd + 1) maxCwnd := (Nat.zero_lt_of_lt hca).trans_le hmin
    exact ⟨⟨⟨hlow.trans hmin, hcap⟩, hss, hpos, hre, hrto⟩, hmin, hone⟩
  · exact ⟨⟨⟨hlow, hhigh⟩, hss, Nat.not_le.mp hround, hre, hrto⟩, le_rfl, Nat.le_succ _⟩

theorem handleAck_bounded (now : Instant) (st : CoreState) (h : st.Bounded) (id : UInt32) :
    (handleAck now st id).Bounded ∧ st.cwnd ≤ (handleAck now st id).cwnd ∧
      (handleAck now st id).cwnd ≤ st.cwnd + 1 := by
  unfold handleAck
  cases hl : st.inFlight.lookup id with
  | none => exact ⟨h, le_rfl, Nat.le_succ _⟩
  | some inf =>
    have herase : ∀ j n, (st.retrans.erase id).lookup j = some n → n ≤ maxRetransmit := by
      intro j n hj
      rw [AList.lookup_erase_eq] at hj
      split_ifs at hj
      exact h.retrans j n hj
    simp only
    split_ifs
    · exact growWindow_cases _ ⟨h.cwnd, h.ssthresh, h.caAck, herase, h.rto⟩
    · have hrto := updateRto_rto { st with inFlight := st.inFlight.erase id } (now - inf.sentAt)
      obtain ⟨_, _, _, _, he⟩ :=
        updateRto_eq { st with inFlight := st.inFlight.erase id } (now - inf.sentAt)
      rw [he] at hrto ⊢
      exact growWindow_cases _ ⟨h.cwnd, h.ssthresh, h.caAck, herase, hrto⟩

theorem handled_bounded {now : Instant} {core core' : Core} {p : Packet}
    (hk : Handled now core p core') (h : core.state.Bounded) :
    core'.state.Bounded ∧ core.state.cwnd ≤ core'.state.cwnd ∧
      core'.state.cwnd ≤ core.state.cwnd + 1 := by
  have same (hb : core'.state.Bounded) (hc : core'.state.cwnd = core.state.cwnd) :
      core'.state.Bounded ∧ core.state.cwnd ≤ core'.state.cwnd ∧
        core'.state.cwnd ≤ core.state.cwnd + 1 := by
    rw [hc]
    exact ⟨hb, le_rfl, Nat.le_succ _⟩
  cases hk with
  | ack hc ha he =>
    rw [he]
    exact handleAck_bounded now (core.touch now).state (h.of_eq rfl rfl rfl rfl rfl) p.msgId
  | realtime hc hs he =>
    obtain ⟨last, tx, hr⟩ := handleRealtime_eq (core.touch now).state p
    rw [hr] at he
    subst he
    exact same (h.of_eq rfl rfl rfl rfl rfl) rfl
  | fragment hc hf hk =>
    obtain ⟨_, _, _, _, rfl, -, -⟩ := handleFragment_eq hk
    exact same (h.of_eq rfl rfl rfl rfl rfl) rfl
  | ignored hc he | syn hc he | fin hc hf he | ping hc he | touched hc he =>
    subst he
    exact same (h.of_eq rfl rfl rfl rfl rfl) rfl

structure SameTables (st st' : CoreState) : Prop where
  inFlight : st'.inFlight = st.inFlight
  retrans : st'.retrans = st.retrans

structure Released (id : UInt32) (st st' : CoreState) : Prop where
  mem : id ∈ st.inFlight
  inFlight : st'.inFlight = st.inFlight.erase id
  retrans : st'.retrans = st.retrans.erase id

theorem growWindow_tables (st : CoreState) : SameTables st (growWindow st) := by
  obtain ⟨_, _, he⟩ := growWindow_eq st
  rw [he]
  exact ⟨rfl, rfl⟩

theorem handleAck_tables (now : Instant) (st : CoreState) (id : UInt32) :
    handleAck now st id = st ∨ Released id st (handleAck now st id) := by
  unfold handleAck
  cases hl : st.inFlight.lookup id with
  | none => exact Or.inl rfl
  | some inf =>
    right
    obtain ⟨_, _, _, _, he⟩ :=
      updateRto_eq { st with inFlight := st.inFlight.erase id } (now - inf.sentAt)
    simp only [he]
    refine ⟨AList.mem_of_lookup hl, (growWindow_tables _).inFlight.trans ?_,
      (growWindow_tables _).retrans.trans ?_⟩
    · split_ifs <;> rfl
    · split_ifs <;> rfl

theorem handled_tables {now : Instant} {core core' : Core} {p : Packet}
    (hk : Handled now core p core') :
    SameTables core.state core'.state ∨
      (p.isAck = true ∧ Released p.msgId core.state core'.state) := by
  cases hk with
  | ack hc ha he =>
    rw [he]
    rcases handleAck_tables now (core.touch now).state p.msgId with hs | hr
    · rw [hs]
      exact Or.inl ⟨rfl, rfl⟩
    · exact Or.inr ⟨ha, hr.mem, hr.inFlight, hr.retrans⟩
  | realtime hc hs he =>
    obtain ⟨last, tx, hr⟩ := handleRealtime_eq (core.touch now).state p
    rw [hr] at he
    subst he
    exact Or.inl ⟨rfl, rfl⟩
  | fragment hc hf hk =>
    obtain ⟨_, _, _, _, rfl, -, -⟩ := handleFragment_eq hk
    exact Or.inl ⟨rfl, rfl⟩
  | ignored hc he | syn hc he | fin hc hf he | ping hc he | touched hc he =>
    subst he
    exact Or.inl ⟨rfl, rfl⟩

def CoreState.resends (st : CoreState) (id : UInt32) : Nat := (st.retrans.lookup id).getD 0

theorem handled_resends {now : Instant} {core core' : Core} {p : Packet}
    (hk : Handled now core p core') (id : UInt32) :
    core'.state.resends id ≤ core.state.resends id := by
  unfold CoreState.resends
  rcases handled_tables hk with hs | ⟨-, hr⟩
  · rw [hs.retrans]
  · rw [hr.retrans, AList.lookup_erase_eq]
    split_ifs
    · exact Nat.zero_le _
    · exact le_rfl

structure Paced (ep : Endpoint) : Prop where
  state : ep.core.state.Bounded
  nodup : ep.retransmit.ids.Nodup
  budget : ∀ id ∈ ep.retransmit.ids, ep.core.state.resends id + 1 ≤ maxRetransmit

theorem toResend_ids (st : CoreState) (now : Instant) :
    ((st.toResend now).map Accepted.msgId).Nodup ∧
      ∀ id ∈ (st.toResend now).map Accepted.msgId, st.resends id + 1 ≤ maxRetransmit := by
  have hmap : (st.toResend now).map Accepted.msgId =
      ((st.aged now).filter (fun e => ¬st.spent e.1)).map Sigma.fst := by
    rw [CoreState.toResend, List.map_map]
    rfl
  rw [hmap]
  constructor
  · have hsub : List.Sublist (((st.aged now).filter (fun e => ¬st.spent e.1)).map Sigma.fst)
        (st.inFlight.entries.map Sigma.fst) :=
      (List.filter_sublist.trans List.filter_sublist).map Sigma.fst
    exact hsub.nodup st.inFlight.nodupKeys
  · intro id hid
    obtain ⟨e, he, rfl⟩ := List.mem_map.mp hid
    have hspent := (List.mem_filter.mp he).2
    simpa [CoreState.spent, CoreState.resends] using hspent

theorem noteResent_bounded {st : CoreState} (h : st.Bounded) (now : Instant) {id : UInt32}
    (hb : st.resends id + 1 ≤ maxRetransmit) : (st.noteResent now id).Bounded where
  cwnd := (by decide : minCwnd ≤ minCwnd ∧ minCwnd ≤ maxCwnd)
  ssthresh := by
    refine ⟨le_max_right _ _, max_le ?_ (by decide)⟩
    exact (Nat.div_le_self _ _).trans h.cwnd.2
  caAck := (by decide : 0 < minCwnd)
  retrans := by
    intro j n hj
    simp only [CoreState.noteResent, AList.lookup_insert_eq] at hj
    split_ifs at hj
    · cases hj
      exact hb
    · exact h.retrans j n hj
  rto := h.rto

theorem noteResent_resends {st : CoreState} (now : Instant) {id j : UInt32} (hne : j ≠ id) :
    (st.noteResent now id).resends j = st.resends j := by
  simp only [CoreState.resends, CoreState.noteResent, AList.lookup_insert_eq, if_neg hne]

theorem Paced.setCore {ep : Endpoint} (h : Paced ep) {core : Core} (hb : core.state.Bounded)
    (hr : ∀ id, core.state.resends id ≤ ep.core.state.resends id) :
    Paced { ep with core := core } where
  state := hb
  nodup := h.nodup
  budget := fun id hid => (Nat.succ_le_succ (hr id)).trans (h.budget id hid)

theorem Paced.retarget {ep : Endpoint} (h : Paced ep) {pc : RetransmitPc} (hn : pc.ids.Nodup)
    (hb : ∀ id ∈ pc.ids, ep.core.state.resends id + 1 ≤ maxRetransmit) :
    Paced { ep with retransmit := pc } where
  state := h.state
  nodup := hn
  budget := hb

theorem Paced.step {ep ep' : Endpoint} {e : Event} (h : Paced ep) (hs : ep.step e = some ep') :
    Paced ep' := by
  cases step_moved hs with
  | waited now pc he hpc hm =>
    subst hm
    rcases hpc with ⟨hids, -⟩ | ⟨hids, -⟩ | ⟨pending, hperm, rfl⟩
    · exact h.retarget (by rw [hids]; exact List.nodup_nil) (by simp [hids])
    · exact h.retarget (hids ▸ h.nodup) (hids ▸ h.budget)
    · obtain ⟨hnodup, hbudget⟩ := toResend_ids ep.core.state now
      have hids := hperm.map Accepted.msgId
      exact h.retarget (hids.nodup_iff.mpr hnodup) (fun id hid => hbudget id (hids.subset hid))
  | resent now at' m pending he hpc hm =>
    subst hm
    have hids : ep.retransmit.ids = m.msgId :: pending.map Accepted.msgId := by rw [hpc]; rfl
    obtain ⟨hstate, hnodup, hbudget⟩ := h
    rw [hids] at hnodup hbudget
    exact ⟨hstate, hnodup, hbudget⟩
  | noted now at' id pending he hpc hm =>
    subst hm
    have hids : ep.retransmit.ids = id :: pending.map Accepted.msgId := by rw [hpc]; rfl
    obtain ⟨hstate, hnodup, hbudget⟩ := h
    rw [hids] at hnodup hbudget
    obtain ⟨hnot, hrest⟩ := List.nodup_cons.mp hnodup
    refine ⟨noteResent_bounded hstate at' (hbudget id List.mem_cons_self), hrest, ?_⟩
    intro j hj
    have hne : j ≠ id := by
      rintro rfl
      exact hnot hj
    show (ep.core.state.noteResent at' id).resends j + 1 ≤ maxRetransmit
    rw [noteResent_resends at' hne]
    exact hbudget j (List.mem_cons_of_mem id hj)
  | gaveUp now he hpc hm =>
    subst hm
    exact ⟨h.state.of_eq rfl rfl rfl rfl rfl, List.nodup_nil, by simp [RetransmitPc.ids]⟩
  | received now buf p core he hp hk hm =>
    subst hm
    have hcases := handlePacket_cases hk
    exact h.setCore (handled_bounded hcases h.state).1 (handled_resends hcases)
  | pumped d he hp =>
    rcases pump_cases hp with ⟨ctrl, -, rfl⟩ | ⟨data, -, -, rfl⟩
    · exact ⟨h.state, h.nodup, h.budget⟩
    · exact ⟨h.state, h.nodup, h.budget⟩
  | idle hm => exact hm ▸ h
  | called data stream call he hcall hm | failed i now call err he hget hpc herr hm
  | passed i now call he hget hpc hno hspace hm | allocated i now call he hget hpc hno hm
  | inserted i now call id he hget hpc hm | pushed i now call id he hget hpc hm
  | timedOut now he hidle hm | pinged now he hm | closed he hm | panicked now buf err he hm =>
    subst hm
    exact ⟨h.state.of_eq rfl rfl rfl rfl rfl, h.nodup, h.budget⟩

inductive Core.Created : Core → Prop where
  | dial (now : Instant) : Core.Created (newCore dialWindow dialRto now)
  | listen (now : Instant) : Core.Created (acceptedCore now)

theorem paced_init {core : Core} (h : core.Created) : Paced (Endpoint.ofCore core) := by
  have bounded (st : CoreState) (hc : st.cwnd = 256) (hs : st.ssthresh = 512) (ha : st.caAck = 0)
      (hr : st.retrans = ∅) (ht : st.rto = dialRto) : st.Bounded := by
    refine ⟨?_, ?_, ?_, by simp [hr], ?_⟩
    · rw [hc]
      decide
    · rw [hs]
      decide
    · rw [hc, ha]
      decide
    · rw [ht]
      decide
  have hstate : core.state.Bounded := by
    cases h with
    | dial now => exact bounded _ rfl rfl rfl rfl rfl
    | listen now => exact bounded _ rfl rfl rfl rfl rfl
  exact ⟨hstate, List.nodup_nil, by simp [Endpoint.ofCore, RetransmitPc.ids]⟩

theorem CoreState.Bounded.half_rto_pos {st : CoreState} (h : st.Bounded) : 0 < st.rto / 2 := by
  have hlow : 2 ≤ st.rto := le_trans (by decide) h.rto.1
  exact Nat.div_pos hlow (by decide)

theorem congestion_stays_in_bounds {core : Core} (hcore : core.Created) {es : List Event}
    {ep : Endpoint} (hrun : Machine.run Endpoint.step (Endpoint.ofCore core) es = some ep) :
    ep.core.state.Bounded ∧ 0 < ep.core.state.rto / 2 ∧
      ∀ now p core', handlePacket now ep.core p = .ok core' →
        ep.core.state.cwnd ≤ core'.state.cwnd ∧ core'.state.cwnd ≤ ep.core.state.cwnd + 1 := by
  have hp : Paced ep := Machine.run_invariant (fun _ _ _ h hs => h.step hs) (paced_init hcore) hrun
  refine ⟨hp.state, hp.state.half_rto_pos, ?_⟩
  intro now p core' hk
  exact (handled_bounded (handlePacket_cases hk) hp.state).2

theorem bounds_after_resend :
    ∃ ep, Machine.run Endpoint.step (Endpoint.ofCore (newCore dialWindow dialRto 0))
        (sendSteps 0 [1, 2] .batch ++
          [.act (.retransmit 0), .act (.retransmit dialRto), .act (.retransmit dialRto),
            .act (.retransmit dialRto), .act (.retransmit dialRto)]) = some ep ∧
      ep.core.state.cwnd = minCwnd ∧ ep.core.state.Bounded := by
  have hrun : (Machine.run Endpoint.step (Endpoint.ofCore (newCore dialWindow dialRto 0))
      (sendSteps 0 [1, 2] .batch ++
        [.act (.retransmit 0), .act (.retransmit dialRto), .act (.retransmit dialRto),
          .act (.retransmit dialRto), .act (.retransmit dialRto)])).map
        (fun ep => ep.core.state.cwnd) = some minCwnd := by decide
  obtain ⟨ep, hep, hcwnd⟩ := Option.map_eq_some_iff.mp hrun
  exact ⟨ep, hep, hcwnd, (congestion_stays_in_bounds (.dial 0) hep).1⟩

end Cross233.Qcp
