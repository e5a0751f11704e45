import Mathlib.Algebra.Order.Ring.Nat
import Cross233.Qcp.Sending

namespace Cross233.Qcp

def idAt (start : UInt32) (j : Nat) : UInt32 := nextId^[j] start

theorem nextId_top {id : UInt32} (h : id.toNat = maxSends) : nextId id = 1 := by
  have hid : id = 4294967295 := UInt32.toNat_inj.mp h
  rw [hid]
  decide

theorem idAt_toNat {start : UInt32} (h : start ≠ 0) (j : Nat) :
    (idAt start j).toNat = (start.toNat - 1 + j) % maxSends + 1 := by
  have hpos : 0 < start.toNat := Nat.pos_of_ne_zero (fun h0 => h (UInt32.toNat_inj.mp h0))
  have hlt := UInt32.toNat_lt start
  induction j with
  | zero =>
    simp only [idAt, Function.iterate_zero, id_eq, Nat.add_zero, maxSends]
    omega
  | succ j ih =>
    have hstep : idAt start (j + 1) = nextId (idAt start j) := Function.iterate_succ_apply' ..
    rw [hstep]
    by_cases htop : (idAt start j).toNat = maxSends
    · rw [nextId_top htop]
      rw [htop] at ih
      simp only [maxSends] at ih ⊢
      have hone : (1 : UInt32).toNat = 1 := rfl
      omega
    · have hbelow : (idAt start j).toNat < maxSends := by
        simp only [maxSends] at ih htop ⊢
        omega
      rw [nextId_toNat hbelow, ih]
      simp only [maxSends] at ih htop ⊢
      omega

theorem idAt_ne_zero {start : UInt32} (h : start ≠ 0) (j : Nat) : idAt start j ≠ 0 := by
  intro h0
  have := idAt_toNat h j
  rw [h0] at this
  simp at this

theorem cyclic_pos {s i : Nat} (hs : s < maxSends) (hi : i < maxSends) :
    (s + i < maxSends ∧ (s + i) % maxSends = s + i) ∨
      (maxSends ≤ s + i ∧ (s + i) % maxSends = s + i - maxSends) := by
  rcases Nat.lt_or_ge (s + i) maxSends with h | h
  · exact Or.inl ⟨h, Nat.mod_eq_of_lt h⟩
  · refine Or.inr ⟨h, ?_⟩
    rw [Nat.mod_eq_sub_mod h]
    exact Nat.mod_eq_of_lt (by omega)

-- Crossing the wrap skips the id 0, so a difference grows by one there; it stays below 2 ^ 31.
theorem serial_le_iff {start : UInt32} (h : start ≠ 0) {n i j : Nat} (hn : n < 2 ^ 31)
    (hi : i < n) (hj : j < n) : idAt start j - idAt start i < 0x80000000 ↔ i ≤ j := by
  have hpos : 0 < start.toNat := Nat.pos_of_ne_zero (fun h0 => h (UInt32.toNat_inj.mp h0))
  have hlt := UInt32.toNat_lt start
  have hmax : maxSends = 4294967295 := rfl
  have hs : start.toNat - 1 < maxSends := by omega
  have hlit : (0x80000000 : UInt32).toNat = 2147483648 := rfl
  rw [UInt32.lt_iff_toNat_lt, UInt32.toNat_sub, idAt_toNat h i, idAt_toNat h j, hlit]
  rcases cyclic_pos hs (i := i) (by omega) with ⟨hiw, hiv⟩ | ⟨hiw, hiv⟩ <;>
    rcases cyclic_pos hs (i := j) (by omega) with ⟨hjw, hjv⟩ | ⟨hjw, hjv⟩ <;>
    rw [hiv, hjv] <;> omega

-- A Realtime packet of the message `pos` places after the window's first id.
structure Incoming where
  now : Instant
  pos : Nat
  fragIndex : UInt16
  fragTotal : UInt16
  payload : Bytes
  deriving DecidableEq, Repr

def Incoming.packet (start : UInt32) (a : Incoming) : Packet where
  flags := flagData
  stream := .realtime
  msgId := idAt start a.pos
  fragIndex := a.fragIndex
  fragTotal := a.fragTotal
  payload := a.payload

def Incoming.delivery (start : UInt32) (a : Incoming) : Delivery :=
  ⟨idAt start a.pos, a.payload, .realtime⟩

def arriveRealtime (start : UInt32) (core : Core) (arrivals : List Incoming) : Except Panic Core :=
  arrivals.foldlM (fun core a => handlePacket a.now core (a.packet start)) core

def Incoming.Latest (a : Incoming) (before : List Incoming) : Prop := ∀ b ∈ before, b.pos ≤ a.pos

instance (a : Incoming) (before : List Incoming) : Decidable (a.Latest before) :=
  inferInstanceAs (Decidable (∀ b ∈ before, _))

def latestOf (before : List Incoming) : List Incoming → List Incoming
  | [] => []
  | a :: as =>
    if a.Latest before then a :: latestOf (before ++ [a]) as else latestOf (before ++ [a]) as

theorem handlePacket_realtime (now : Instant) {core : Core} {p : Packet}
    (hc : core.state.closed = false) (hf : p.flags = flagData) (hs : p.stream = .realtime) :
    handlePacket now core p =
      .ok { core.touch now with state := handleRealtime (core.touch now).state p } := by
  obtain ⟨hsyn, hfin, hping, hpong, hack, hdata⟩ :
      (flagData &&& flagSyn != 0) = false ∧ (flagData &&& flagFin != 0) = false ∧
      (flagData &&& flagPing != 0) = false ∧ (flagData &&& flagPong != 0) = false ∧
      (flagData &&& flagAck != 0) = false ∧ (flagData &&& flagData != 0) = true := by decide
  simp only [handlePacket, hc, Packet.has, hf, hs, hsyn, hfin, hping, hpong, hack, hdata,
    Bool.false_eq_true, if_false, not_true_eq_false]

structure Following (start : UInt32) (before : List Incoming) (core : Core) : Prop where
  closed : core.state.closed = false
  none : before = [] → core.state.lastRealtime = 0
  newest : ∀ a ∈ before, a.Latest before → core.state.lastRealtime = idAt start a.pos

theorem exists_latest {before : List Incoming} (h : before ≠ []) :
    ∃ a ∈ before, a.Latest before := by
  induction before with
  | nil => exact absurd rfl h
  | cons b bs ih =>
    cases bs with
    | nil => exact ⟨b, List.mem_cons_self, by simp [Incoming.Latest]⟩
    | cons c cs =>
      obtain ⟨a, ha, hl⟩ := ih (List.cons_ne_nil c cs)
      rcases Nat.le_total b.pos a.pos with hle | hle
      · refine ⟨a, List.mem_cons_of_mem b ha, fun x hx => ?_⟩
        rcases List.mem_cons.mp hx with rfl | hx
        · exact hle
        · exact hl x hx
      · refine ⟨b, List.mem_cons_self, fun x hx => ?_⟩
        rcases List.mem_cons.mp hx with rfl | hx
        · exact le_rfl
        · exact (hl x hx).trans hle

theorem Following.accepts_iff {start : UInt32} (hs : start ≠ 0) {n : Nat} (hn : n < 2 ^ 31)
    {before : List Incoming} {core : Core} (h : Following start before core) {a : Incoming}
    (ha : a.pos < n) (hb : ∀ b ∈ before, b.pos < n) :
    (idAt start a.pos - core.state.lastRealtime < 0x80000000 ∨ core.state.lastRealtime = 0) ↔
      a.Latest before := by
  by_cases hnil : before = []
  · rw [h.none hnil, hnil]
    simp [Incoming.Latest]
  · obtain ⟨b, hbm, hbl⟩ := exists_latest hnil
    rw [h.newest b hbm hbl, serial_le_iff hs hn (hb b hbm) ha]
    simp only [idAt_ne_zero hs, or_false]
    constructor
    · intro hle x hx
      exact (hbl x hx).trans hle
    · intro hl
      exact hl b hbm

theorem Following.step {start : UInt32} (hs : start ≠ 0) {n : Nat} (hn : n < 2 ^ 31)
    {before : List Incoming} {core : Core} (h : Following start before core) {a : Incoming}
    (ha : a.pos < n) (hb : ∀ b ∈ before, b.pos < n) :
    ∃ core', handlePacket a.now core (a.packet start) = .ok core' ∧
      Following start (before ++ [a]) core' ∧
      core'.state.deliverTx = core.state.deliverTx ++
        if a.Latest before then [a.delivery start] else [] := by
  have haccept := h.accepts_iff hs hn ha hb
  refine ⟨_, handlePacket_realtime a.now h.closed rfl rfl, ?_⟩
  unfold handleRealtime
  split_ifs with htest hlatest hlatest
  · refine ⟨⟨h.closed, by simp, ?_⟩, rfl⟩
    intro b hbm hbl
    have hle : b.pos ≤ a.pos := by
      rcases List.mem_append.mp hbm with hbm | hbm
      · exact hlatest b hbm
      · rw [List.mem_singleton.mp hbm]
    have hge : a.pos ≤ b.pos := hbl a (by simp)
    rw [Nat.le_antisymm hle hge]
    rfl
  · exact absurd (haccept.mp htest) hlatest
  · exact absurd (haccept.mpr hlatest) htest
  · refine ⟨⟨h.closed, by simp, ?_⟩, by simp [Core.touch]⟩
    intro b hbm hbl
    rcases List.mem_append.mp hbm with hbm | hbm
    · exact h.newest b hbm (fun x hx => hbl x (List.mem_append_left _ hx))
    · rw [List.mem_singleton.mp hbm] at hbl
      exact absurd (fun x hx => hbl x (List.mem_append_left _ hx)) hlatest

theorem Following.run {start : UInt32} (hs : start ≠ 0) {n : Nat} (hn : n < 2 ^ 31)
    {before : List Incoming} {core : Core} (h : Following start before core)
    (hb : ∀ b ∈ before, b.pos < n) {arrivals : List Incoming} (ha : ∀ a ∈ arrivals, a.pos < n) :
    ∃ core', arriveRealtime start core arrivals = .ok core' ∧
      Following start (before ++ arrivals) core' ∧
      core'.state.deliverTx = core.state.deliverTx ++
        (latestOf before arrivals).map (Incoming.delivery start) := by
  induction arrivals generalizing before core with
  | nil => exact ⟨core, rfl, by simpa using h, by simp [latestOf]⟩
  | cons a as ih =>
    obtain ⟨core1, hstep, hnext, htx⟩ := h.step hs hn (ha a List.mem_cons_self) hb
    have hb1 : ∀ b ∈ before ++ [a], b.pos < n := by
      intro b hbm
      rcases List.mem_append.mp hbm with hbm | hbm
      · exact hb b hbm
      · rw [List.mem_singleton.mp hbm]
        exact ha a List.mem_cons_self
    obtain ⟨core', hrun, hlast, htx'⟩ := ih hnext hb1 (fun x hx => ha x (List.mem_cons_of_mem a hx))
    refine ⟨core', ?_, by simpa using hlast, ?_⟩
    · rw [arriveRealtime, List.foldlM_cons, hstep]
      exact hrun
    · rw [htx', htx, latestOf]
      split_ifs
      · simp
      · simp

theorem latestOf_above {before : List Incoming} (arrivals : List Incoming) {b : Incoming}
    (hb : b ∈ before) : ∀ a ∈ latestOf before arrivals, b.pos ≤ a.pos := by
  induction arrivals generalizing before with
  | nil => simp [latestOf]
  | cons c cs ih =>
    have hrest : ∀ a ∈ latestOf (before ++ [c]) cs, b.pos ≤ a.pos :=
      ih (List.mem_append_left _ hb)
    intro a ha
    rw [latestOf] at ha
    split_ifs at ha with hlatest
    · rcases List.mem_cons.mp ha with rfl | ha
      · exact hlatest b hb
      · exact hrest a ha
    · exact hrest a ha

theorem latestOf_sorted (before arrivals : List Incoming) :
    (latestOf before arrivals).Pairwise (fun a b => a.pos ≤ b.pos) := by
  induction arrivals generalizing before with
  | nil => exact .nil
  | cons c cs ih =>
    rw [latestOf]
    split_ifs
    · exact .cons (latestOf_above cs (by simp)) (ih (before ++ [c]))
    · exact ih (before ++ [c])

theorem realtime_latest_wins {start : UInt32} (hs : start ≠ 0) {n : Nat} (hn : n < 2 ^ 31)
    {core : Core} (hopen : core.state.closed = false) (hlast : core.state.lastRealtime = 0)
    {arrivals : List Incoming} (h : ∀ a ∈ arrivals, a.pos < n) :
    ∃ core', arriveRealtime start core arrivals = .ok core' ∧
      core'.state.deliverTx =
        core.state.deliverTx ++ (latestOf [] arrivals).map (Incoming.delivery start) ∧
      (latestOf [] arrivals).Pairwise (fun a b => a.pos ≤ b.pos) ∧
      (∀ (pre : List Incoming) (a : Incoming) post, arrivals = pre ++ a :: post →
        ∃ c c', arriveRealtime start core pre = .ok c ∧
          handlePacket a.now c (a.packet start) = .ok c' ∧
          c'.state.deliverTx = c.state.deliverTx ++
            if a.Latest pre then [a.delivery start] else []) ∧
      ∀ a ∈ arrivals, a.Latest arrivals → core'.state.lastRealtime = idAt start a.pos := by
  have hinit : Following start [] core := ⟨hopen, fun _ => hlast, by simp⟩
  obtain ⟨core', hrun, hfollow, htx⟩ := hinit.run hs hn (by simp) h
  refine ⟨core', hrun, htx, latestOf_sorted [] arrivals, ?_, hfollow.newest⟩
  intro pre a post harr
  have hpre : ∀ b ∈ pre, b.pos < n := fun b hb => h b (by simp [harr, hb])
  obtain ⟨c, hc, hmid, -⟩ := hinit.run hs hn (by simp) hpre
  obtain ⟨c', hc', -, htx'⟩ := hmid.step hs hn (h a (by simp [harr])) hpre
  exact ⟨c, c', hc, hc', htx'⟩

theorem latest_wins_across_wrap :
    ∃ core', arriveRealtime 0xFFFFFFFF (newCore dialWindow dialRto 0)
        [⟨0, 0, 0, 1, [1]⟩, ⟨0, 2, 0, 1, [3]⟩, ⟨0, 1, 0, 1, [2]⟩] = .ok core' ∧
      core'.state.deliverTx = [⟨0xFFFFFFFF, [1], .realtime⟩, ⟨2, [3], .realtime⟩] ∧
      core'.state.lastRealtime = 2 := by
  have hstart : (0xFFFFFFFF : UInt32) ≠ 0 := by decide
  have hpos : ∀ a ∈ ([⟨0, 0, 0, 1, [1]⟩, ⟨0, 2, 0, 1, [3]⟩, ⟨0, 1, 0, 1, [2]⟩] : List Incoming),
      a.pos < 3 := by decide
  have hopen : (newCore dialWindow dialRto 0).state.closed = false := rfl
  obtain ⟨core', hrun, htx, -, -, hlast⟩ :=
    realtime_latest_wins hstart (by decide) hopen rfl hpos
  refine ⟨core', hrun, ?_, ?_⟩
  · rw [htx]
    decide
  · rw [hlast ⟨0, 2, 0, 1, [3]⟩ (by decide) (by decide)]
    decide

end Cross233.Qcp
