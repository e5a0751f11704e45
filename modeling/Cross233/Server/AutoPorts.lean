import Cross233.Server.ProtectedPorts
import Cross233.Server.Acceptance
import Mathlib.Data.Nat.ModEq

namespace Cross233.Server

open Protocol

namespace ServerConfig

theorem throw_then (message : String) (rest : PUnit → Except String Unit) :
    (throw message >>= rest) = .error message := rfl

theorem then_ok {x : Except String Unit} {rest : Unit → Except String Unit}
    (h : (x >>= rest) = .ok ()) : rest () = .ok () := by
  cases x with
  | error message => cases h
  | ok u => exact h

theorem validate_range {config : ServerConfig} (h : config.validate = .ok ()) :
    config.portMin ≠ 0 ∧ config.portMin ≤ config.portMax ∧ config.hasSafeAutoPort = true := by
  unfold validate at h
  simp only [throw_then] at h
  split_ifs at h with hbind hproxy hcontrol hzero horder hnone
  · cases then_ok (then_ok h)
  · exact ⟨fun hmin => hzero (Or.inl hmin), UInt16.not_lt.mp horder, eq_true_of_ne_false hnone⟩

theorem mem_autoPorts {config : ServerConfig} {port : UInt16} :
    port ∈ config.autoPorts ↔ config.portMin ≤ port ∧ port ≤ config.portMax := by
  have hmax := config.portMax.toNat_lt
  rw [autoPorts, List.mem_map]
  constructor
  · rintro ⟨i, hi, rfl⟩
    rw [List.mem_range] at hi
    have hsum : (config.portMin + UInt16.ofNat i).toNat = config.portMin.toNat + i := by
      rw [UInt16.toNat_add, UInt16.toNat_ofNat']
      omega
    rw [UInt16.le_iff_toNat_le, UInt16.le_iff_toNat_le, hsum]
    omega
  · rintro ⟨hlower, hupper⟩
    rw [UInt16.le_iff_toNat_le] at hlower hupper
    refine ⟨port.toNat - config.portMin.toNat, List.mem_range.mpr (by omega), ?_⟩
    apply UInt16.toNat_inj.mp
    rw [UInt16.toNat_add, UInt16.toNat_ofNat']
    omega

end ServerConfig

-- Some attempt of a full round falls on each residue, wherever the counter starts.
theorem round_visits {len r : Nat} (start : Nat) (hr : r < len) :
    ∃ i < len, (start + i) % len = r := by
  have hlen : 0 < len := Nat.zero_lt_of_lt hr
  have hstart := Nat.mod_lt start hlen
  refine ⟨(r + (len - start % len)) % len, Nat.mod_lt _ hlen, ?_⟩
  have hsum : start + (r + (len - start % len)) = len * (start / len + 1) + r := by
    have hdiv := Nat.div_add_mod start len
    rw [Nat.mul_add, Nat.mul_one]
    omega
  rw [Nat.add_mod_mod, hsum, Nat.mul_add_mod, Nat.mod_eq_of_lt hr]

namespace SharedServiceState

structure Governed (config : ServerConfig) (s : SharedServiceState) : Prop where
  portMin : s.portMin = config.portMin
  portMax : s.portMax = config.portMax
  privileged : s.allowPrivilegedPorts = config.allowPrivilegedPorts
  protectedPorts : s.protectedPorts = config.effectiveProtectedPorts
  reservedPorts : s.reservedPorts = config.reservedPorts

structure Assignable (s : SharedServiceState) (port : UInt16) : Prop where
  lower : s.portMin ≤ port
  upper : port ≤ s.portMax
  valid : s.validateExplicitPort port = .ok ()
  free : port ∉ s.allocatedPorts

-- What the u16 expressions of one call need: the subtraction, the increment, the division, and
-- the sum with the cast for every value the counter may show.
structure RangeSafe (s : SharedServiceState) : Prop where
  difference : s.portMin ≤ s.portMax
  increment : (s.portMax - s.portMin).toNat + 1 < 2 ^ 16
  divisor : s.rangeLen ≠ 0
  port : ∀ idx : UInt64, s.portMin.toNat + (idx % s.rangeLen.toUInt64).toNat < 2 ^ 16

variable {s : SharedServiceState}

theorem rangeLen_toNat (h0 : s.portMin ≠ 0) (h : s.portMin ≤ s.portMax) :
    s.rangeLen.toNat = s.portMax.toNat - s.portMin.toNat + 1 := by
  have hmin : s.portMin.toNat ≠ 0 := fun hz => h0 (UInt16.toNat_inj.mp hz)
  have hmax := s.portMax.toNat_lt
  rw [rangeLen, UInt16.toNat_add, UInt16.toNat_sub_of_le _ _ h, UInt16.toNat_one,
    Nat.mod_eq_of_lt]
  omega

theorem residue_toNat (h0 : s.portMin ≠ 0) (h : s.portMin ≤ s.portMax) (idx : UInt64) :
    (idx % s.rangeLen.toUInt64).toNat =
      idx.toNat % (s.portMax.toNat - s.portMin.toNat + 1) := by
  rw [UInt64.toNat_mod, UInt16.toNat_toUInt64, rangeLen_toNat h0 h]

theorem range_safe (h0 : s.portMin ≠ 0) (h : s.portMin ≤ s.portMax) : s.RangeSafe := by
  have hmin : s.portMin.toNat ≠ 0 := fun hz => h0 (UInt16.toNat_inj.mp hz)
  have hmax := s.portMax.toNat_lt
  have hle : s.portMin.toNat ≤ s.portMax.toNat := h
  refine ⟨h, ?_, ?_, fun idx => ?_⟩
  · rw [UInt16.toNat_sub_of_le _ _ h]
    omega
  · intro hz
    have hlen := rangeLen_toNat h0 h
    rw [hz, UInt16.toNat_zero] at hlen
    omega
  · have hlt := Nat.mod_lt idx.toNat (Nat.zero_lt_succ (s.portMax.toNat - s.portMin.toNat))
    rw [Nat.succ_eq_add_one] at hlt
    rw [residue_toNat h0 h]
    omega

theorem candidate_toNat (h0 : s.portMin ≠ 0) (h : s.portMin ≤ s.portMax) {i : Nat}
    (hi : s.nextPort.toNat + i < 2 ^ 64) :
    (s.candidate i).toNat = s.portMin.toNat +
      (s.nextPort.toNat + i) % (s.portMax.toNat - s.portMin.toNat + 1) := by
  have hport := (range_safe h0 h).port (s.nextPort + UInt64.ofNat i)
  have hidx : (s.nextPort + UInt64.ofNat i).toNat = s.nextPort.toNat + i := by
    rw [UInt64.toNat_add, UInt64.toNat_ofNat']
    omega
  rw [residue_toNat h0 h, hidx] at hport
  rw [candidate, UInt16.toNat_add, UInt64.toNat_toUInt16, residue_toNat h0 h, hidx]
  omega

theorem candidate_range (h0 : s.portMin ≠ 0) (h : s.portMin ≤ s.portMax) (i : Nat) :
    s.portMin ≤ s.candidate i ∧ s.candidate i ≤ s.portMax := by
  have hport := (range_safe h0 h).port (s.nextPort + UInt64.ofNat i)
  have hle : s.portMin.toNat ≤ s.portMax.toNat := h
  have hlt := Nat.mod_lt (s.nextPort + UInt64.ofNat i).toNat
    (Nat.zero_lt_succ (s.portMax.toNat - s.portMin.toNat))
  rw [Nat.succ_eq_add_one] at hlt
  rw [residue_toNat h0 h] at hport
  have hsum : (s.candidate i).toNat = s.portMin.toNat +
      (s.nextPort + UInt64.ofNat i).toNat % (s.portMax.toNat - s.portMin.toNat + 1) := by
    rw [candidate, UInt16.toNat_add, UInt64.toNat_toUInt16, residue_toNat h0 h]
    omega
  rw [UInt16.le_iff_toNat_le, UInt16.le_iff_toNat_le, hsum]
  omega

theorem allocateWithin_range (h0 : s.portMin ≠ 0) (h : s.portMin ≤ s.portMax) {name : String}
    {k : Nat} {s' : SharedServiceState} {port : UInt16}
    (ha : s.allocateWithin name k = (s', some port)) :
    s.portMin ≤ port ∧ port ≤ s.portMax := by
  induction k generalizing s with
  | zero => cases ha
  | succ k ih =>
    simp only [allocateWithin] at ha
    split at ha
    · cases ha
      have hfirst := candidate_range h0 h 0
      have hcounter : s.nextPort + UInt64.ofNat 0 = s.nextPort := UInt64.add_zero _
      rwa [candidate, hcounter] at hfirst
    · exact ih (s := { s with nextPort := s.nextPort + 1 }) h0 h ha

theorem allocateWithin_exhausted {name : String} {k : Nat} {s' : SharedServiceState}
    (ha : s.allocateWithin name k = (s', none)) :
    s' = { s with nextPort := s.nextPort + UInt64.ofNat k } := by
  induction k generalizing s with
  | zero =>
    cases ha
    have hcounter : s'.nextPort + UInt64.ofNat 0 = s'.nextPort := UInt64.add_zero _
    rw [hcounter]
  | succ k ih =>
    simp only [allocateWithin] at ha
    split at ha
    · cases ha
    · rw [ih ha, Nat.add_comm k 1, UInt64.ofNat_add, ← UInt64.add_assoc]
      rfl

theorem unwrapped_of_le {n : UInt64} {k : Nat} (hk : k < 2 ^ 64) (h : n ≤ n + UInt64.ofNat k) :
    n.toNat + k < 2 ^ 64 ∨ k = 0 := by
  rw [UInt64.le_iff_toNat_le, UInt64.toNat_add, UInt64.toNat_ofNat'] at h
  have hn := n.toNat_lt
  omega

theorem exhausted_unassignable (h0 : s.portMin ≠ 0) (h : s.portMin ≤ s.portMax) {name : String}
    {s' : SharedServiceState} (ha : s.allocatePort name = (s', none))
    (hwrap : s.nextPort ≤ s'.nextPort) (port : UInt16) : ¬s.Assignable port := by
  rintro ⟨hlower, hupper, hvalid, hfree⟩
  rw [UInt16.le_iff_toNat_le] at hlower hupper
  have hlen := rangeLen_toNat h0 h
  have hsmall := s.rangeLen.toNat_lt
  rw [allocateWithin_exhausted ha] at hwrap
  have hoffset : port.toNat - s.portMin.toNat < s.rangeLen.toNat := by omega
  obtain ⟨i, hi, hvisit⟩ := round_visits s.nextPort.toNat hoffset
  have hbound : s.nextPort.toNat + i < 2 ^ 64 := by
    have hno := unwrapped_of_le (by omega) hwrap
    omega
  have hport : s.candidate i = port := by
    apply UInt16.toNat_inj.mp
    rw [candidate_toNat h0 h hbound, ← hlen, hvisit]
    omega
  have hany : (List.range s.rangeLen.toNat).any s.offers = true := by
    rw [List.any_eq_true]
    refine ⟨i, List.mem_range.mpr hi, ?_⟩
    simp only [offers, hport, hvalid, hfree, not_false_eq_true, decide_true, Bool.and_self]
  rw [← allocateWithin_isSome s name, ← allocatePort, ha] at hany
  cases hany

theorem Governed.validateExplicitPort_iff {config : ServerConfig} (hg : Governed config s)
    {port : UInt16} (h0 : port ≠ 0) :
    s.validateExplicitPort port = .ok () ↔
      port ∉ config.reservedPorts ∧ port ∉ config.effectiveProtectedPorts ∧
        (config.allowPrivilegedPorts = true ∨ 1024 ≤ port) := by
  rw [← hg.reservedPorts, ← hg.protectedPorts, ← hg.privileged]
  constructor
  · intro hok
    obtain ⟨-, hprotected, hreserved, hprivileged⟩ := validateExplicitPort_ok hok
    refine ⟨hreserved, hprotected, ?_⟩
    rcases UInt16.lt_or_le port 1024 with hlow | hhigh
    · exact Or.inl (hprivileged hlow)
    · exact Or.inr hhigh
  · rintro ⟨hreserved, hprotected, hprivileged⟩
    rw [validateExplicitPort, if_neg h0, if_neg hprotected, if_neg hreserved, if_neg]
    rintro ⟨hlow, hoff⟩
    rcases hprivileged with hon | hhigh
    · rw [hon] at hoff
      cases hoff
    · exact UInt16.not_le.mpr hlow hhigh

theorem Governed.assignable {config : ServerConfig} (hg : Governed config s)
    (hv : config.validate = .ok ()) (hempty : s.allocatedPorts = ∅) :
    ∃ port, s.Assignable port := by
  obtain ⟨h0, h, hsafe⟩ := ServerConfig.validate_range hv
  obtain ⟨port, hmem, hport⟩ := List.any_eq_true.mp hsafe
  obtain ⟨hlower, hupper⟩ := ServerConfig.mem_autoPorts.mp hmem
  have hnonzero : port ≠ 0 := by
    rintro rfl
    exact h0 (UInt16.le_zero_iff.mp hlower)
  rw [Bool.and_eq_true, Bool.and_eq_true, Bool.or_eq_true, decide_eq_true_eq, decide_eq_true_eq,
    decide_eq_true_eq, and_assoc] at hport
  refine ⟨port, hg.portMin ▸ hlower, hg.portMax ▸ hupper,
    (hg.validateExplicitPort_iff hnonzero).mpr hport, ?_⟩
  rw [hempty]
  exact AList.notMem_empty port

theorem allocate_port_complete (config : ServerConfig) (hv : config.validate = .ok ())
    (s : SharedServiceState) (hg : s.Governed config) (name : String)
    (hwrap : s.nextPort ≤ (s.allocatePort name).1.nextPort) :
    (∀ s' port, s.allocatePort name = (s', some port) → s.Assignable port ∧
      s' = { s with
        nextPort := s'.nextPort, allocatedPorts := s.allocatedPorts.insert port name }) ∧
    (∀ s', s.allocatePort name = (s', none) → s' = { s with nextPort := s'.nextPort }) ∧
    ((s.allocatePort name).2 = none ↔ ¬∃ port, s.Assignable port) ∧
    s.RangeSafe ∧
    (s.allocatedPorts = ∅ → ∃ port, (s.allocatePort name).2 = some port) ∧
    ∀ port ∈ config.autoPorts, s.validateExplicitPort port = .ok () ↔
      port ∉ config.reservedPorts ∧ port ∉ config.effectiveProtectedPorts ∧
        (config.allowPrivilegedPorts = true ∨ 1024 ≤ port) := by
  obtain ⟨hmin, hle, -⟩ := ServerConfig.validate_range hv
  have h0 : s.portMin ≠ 0 := hg.portMin ▸ hmin
  have h : s.portMin ≤ s.portMax := hg.portMin ▸ hg.portMax ▸ hle
  have hfound : ∀ s' port, s.allocatePort name = (s', some port) → s.Assignable port ∧
      s' = { s with
        nextPort := s'.nextPort, allocatedPorts := s.allocatedPorts.insert port name } := by
    intro s' port ha
    obtain ⟨next, hnone | ⟨q, hvalid, hfree, hsome⟩⟩ :=
      allocateWithin_cases s name s.rangeLen.toNat
    · rw [allocatePort, hnone] at ha
      cases ha
    · have hrange := allocateWithin_range h0 h hsome
      rw [allocatePort, hsome] at ha
      cases ha
      exact ⟨⟨hrange.1, hrange.2, hvalid, hfree⟩, rfl⟩
  have hnone : (s.allocatePort name).2 = none ↔ ¬∃ port, s.Assignable port := by
    cases ha : s.allocatePort name with
    | mk s' r =>
      cases r with
      | none =>
        rw [ha] at hwrap
        have hno := exhausted_unassignable h0 h ha hwrap
        refine iff_of_true rfl ?_
        rintro ⟨port, hport⟩
        exact hno port hport
      | some port =>
        refine iff_of_false (Option.some_ne_none port) (fun hno => ?_)
        exact hno ⟨port, (hfound s' port ha).1⟩
  refine ⟨hfound, ?_, hnone, range_safe h0 h, ?_, ?_⟩
  · intro s' ha
    rw [allocateWithin_exhausted ha]
  · intro hempty
    apply Option.ne_none_iff_exists'.mp
    intro hno
    exact hnone.mp hno (hg.assignable hv hempty)
  · intro port hmem
    apply hg.validateExplicitPort_iff
    rintro rfl
    exact hmin (UInt16.le_zero_iff.mp (ServerConfig.mem_autoPorts.mp hmem).1)

theorem run_governed (server : Server) : Governed server.config server.run.registry :=
  ⟨rfl, rfl, rfl, rfl, rfl⟩

def busyRegistry : SharedServiceState :=
  { ServerState.defaultServer.run.registry with
    nextPort := 7718
    allocatedPorts := ((∅ : HashMap UInt16 String).insert 7712 "db").insert 7717 "web" }

theorem busyRegistry_governed : Governed ServerState.defaultServer.config busyRegistry := by
  obtain ⟨hmin, hmax, hprivileged, hprotected, hreserved⟩ :=
    run_governed ServerState.defaultServer
  exact ⟨hmin, hmax, hprivileged, hprotected, hreserved⟩

-- The port under the counter is taken, so the scan goes on to the next one.
theorem port_beside_taken_allocated :
    ∃ s', busyRegistry.allocatePort "mail" = (s', some 7718) ∧
      busyRegistry.Assignable 7718 := by
  have hcomplete := allocate_port_complete _ ServerState.defaultServer.valid busyRegistry
    busyRegistry_governed "mail" (by decide +kernel)
  have hport : (busyRegistry.allocatePort "mail").2 = some 7718 := by decide +kernel
  have hpair : busyRegistry.allocatePort "mail" =
      ((busyRegistry.allocatePort "mail").1, some 7718) := Prod.ext rfl hport
  exact ⟨_, hpair, (hcomplete.1 _ 7718 hpair).1⟩

end SharedServiceState

end Cross233.Server
