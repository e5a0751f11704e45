import Cross233.Server.Tables

namespace Cross233.Server.SharedServiceState

open Protocol

def candidate (s : SharedServiceState) (i : Nat) : UInt16 :=
  s.portMin + ((s.nextPort + UInt64.ofNat i) % s.rangeLen.toUInt64).toUInt16

def offers (s : SharedServiceState) (i : Nat) : Bool :=
  s.validateExplicitPort (s.candidate i) = .ok () && s.candidate i ∉ s.allocatedPorts

def hasFreePort (s : SharedServiceState) : Bool :=
  (List.range s.rangeLen.toNat).any s.offers

def acceptsPort (s : SharedServiceState) (existing : Option ServiceEntry) (svc : Service) : Bool :=
  if svc.usesAutoPort then existing.any s.reusable || s.hasFreePort
  else !svc.isDirect || (s.validateExplicitPort svc.remotePort = .ok () &&
    (s.allocatedPorts.lookup svc.remotePort).all (· = svc.name))

def accepts (s : SharedServiceState) (clientId : String) (svc : Service) : Bool :=
  svc.isEnabled &&
    (s.servicesByName.lookup svc.name).all (fun entry => entry.clientId = clientId) &&
    s.acceptsPort (s.servicesByName.lookup svc.name) svc

variable {s s' : SharedServiceState}

theorem allocateWithin_isSome (s : SharedServiceState) (name : String) (k : Nat) :
    (s.allocateWithin name k).2.isSome = (List.range k).any s.offers := by
  induction k generalizing s with
  | zero => rfl
  | succ k ih =>
    rw [List.range_succ_eq_map, List.any_cons, List.any_map]
    have hzero : s.candidate 0 = s.portMin + (s.nextPort % s.rangeLen.toUInt64).toUInt16 := by
      rw [candidate]
      simp
    have hsucc : s.offers ∘ Nat.succ = offers { s with nextPort := s.nextPort + 1 } := by
      funext i
      have hnext : s.candidate (i + 1) = candidate { s with nextPort := s.nextPort + 1 } i := by
        simp only [candidate, rangeLen]
        rw [Nat.add_comm i 1, UInt64.ofNat_add, ← UInt64.add_assoc]
        rfl
      simp only [Function.comp, offers, Nat.succ_eq_add_one, hnext]
      rfl
    rw [hsucc, ← ih { s with nextPort := s.nextPort + 1 }]
    simp only [allocateWithin, offers, hzero]
    split
    · next h => simp [h]
    · next h =>
      have hno : (decide (s.validateExplicitPort
          (s.portMin + (s.nextPort % s.rangeLen.toUInt64).toUInt16) = .ok ()) &&
          decide (s.portMin + (s.nextPort % s.rangeLen.toUInt64).toUInt16 ∉ s.allocatedPorts)) =
          false := by
        rw [← Bool.decide_and]
        exact decide_eq_false h
      rw [hno, Bool.false_or]

theorem assignPort_isSome (s : SharedServiceState) (existing : Option ServiceEntry)
    (svc : Service) : (s.assignPort existing svc).2.isSome = s.acceptsPort existing svc := by
  unfold assignPort acceptsPort
  split
  · cases he : existing.filter s.reusable with
    | some entry =>
      obtain ⟨rfl, hr⟩ := Option.filter_eq_some_iff.mp he
      simp [hr]
    | none =>
      have hany : existing.any s.reusable = false := by
        cases existing with
        | none => rfl
        | some entry => simpa [Option.filter] using he
      simp only [hany, Bool.false_or, allocatePort, Option.isSome_map]
      exact allocateWithin_isSome s svc.name s.rangeLen.toNat
  · next hauto =>
    cases hd : usesDirectPublicPort svc with
    | true =>
      have hdirect : svc.isDirect = true := by
        rw [usesDirectPublicPort, Bool.and_eq_true] at hd
        exact hd.1
      simp only [if_true, hdirect, Bool.not_true, Bool.false_or]
      cases hv : s.validateExplicitPort svc.remotePort with
      | error e => simp
      | ok u =>
        cases hl : s.allocatedPorts.lookup svc.remotePort with
        | none => simp
        | some owner =>
          by_cases ho : owner = svc.name
          · simp [ho]
          · simp [ho]
    | false =>
      have hindirect : svc.isDirect = false := by
        simp only [usesDirectPublicPort, Service.usesAutoPort] at hd hauto
        cases h : svc.isDirect <;> simp_all
      simp [hindirect]

theorem registerService_some {clientId : String} {tx : Channel} {svc svc' : Service}
    (h : (s.registerService clientId tx svc).2 = some svc') :
    svc.isEnabled = true ∧
    (∀ entry, s.servicesByName.lookup svc.name = some entry → entry.clientId = clientId) ∧
    (s.assignPort (s.servicesByName.lookup svc.name) svc).2 = some svc' ∧
    (s.registerService clientId tx svc).1 =
      (((s.assignPort (s.servicesByName.lookup svc.name) svc).1.replacePrevious
        (s.servicesByName.lookup svc.name) svc').storeEntry ⟨svc', clientId, tx⟩) := by
  unfold registerService at h ⊢
  split at h
  · cases h
  · next hen =>
    rw [if_neg hen]
    dsimp only at h ⊢
    split at h
    · cases h
    · next hown =>
      rw [if_neg hown]
      refine ⟨by simpa using hen, fun entry he => by simpa [he] using hown, ?_⟩
      generalize s.assignPort (s.servicesByName.lookup svc.name) svc = r at h ⊢
      obtain ⟨t, r⟩ := r
      cases r with
      | none => cases h
      | some svc'' =>
        cases h
        exact ⟨rfl, rfl⟩

theorem registerService_none {clientId : String} {tx : Channel} {svc : Service}
    (h : (s.registerService clientId tx svc).2 = none) :
    ∃ next, (s.registerService clientId tx svc).1 = { s with nextPort := next } := by
  have hr := registerService_cases s clientId tx svc
  rw [h] at hr
  generalize (s.registerService clientId tx svc).1 = t at hr ⊢
  cases hr with
  | skipped next => exact ⟨next, rfl⟩

theorem registerService_isSome (s : SharedServiceState) (clientId : String) (tx : Channel)
    (svc : Service) :
    (s.registerService clientId tx svc).2.isSome = s.accepts clientId svc := by
  unfold registerService accepts
  split
  · next h => simp [h]
  · next hen =>
    dsimp only
    have hother : ((s.servicesByName.lookup svc.name).all
        fun entry => decide (entry.clientId = clientId)) =
        !((s.servicesByName.lookup svc.name).any
          fun entry => decide (entry.clientId ≠ clientId)) := by
      cases s.servicesByName.lookup svc.name with
      | none => rfl
      | some entry => simp
    split
    · next h =>
      rw [hother, h]
      simp
    · next h =>
      rw [hother, Bool.not_eq_true _ |>.mp h, ← assignPort_isSome]
      have hen' : svc.isEnabled = true := by simpa using hen
      rw [hen']
      cases hr : s.assignPort (s.servicesByName.lookup svc.name) svc with
      | mk t r =>
        cases r with
        | none => rfl
        | some svc' => rfl

theorem assignPort_service {existing : Option ServiceEntry} {svc svc' : Service}
    (h : (s.assignPort existing svc).2 = some svc') :
    svc' = { svc with remotePort := svc'.remotePort } := by
  have ha := assignPort_cases s existing svc
  rw [h] at ha
  generalize (s.assignPort existing svc).1 = t at ha
  cases ha with
  | reused | allocated | explicit | indirect => rfl

theorem registerService_lookup {clientId : String} {tx : Channel} {svc svc' : Service}
    (h : (s.registerService clientId tx svc).2 = some svc') (n : String) :
    (s.registerService clientId tx svc).1.servicesByName.lookup n =
      if n = svc.name then some ⟨svc', clientId, tx⟩ else s.servicesByName.lookup n := by
  obtain ⟨-, -, ha, hstored⟩ := registerService_some h
  have hname : svc'.name = svc.name := by rw [assignPort_service ha]
  have hf := (assignPort_cases s (s.servicesByName.lookup svc.name) svc).frame.trans
    (replacePrevious_frame _ (s.servicesByName.lookup svc.name) svc')
  simp only [hstored, storeEntry, AList.lookup_insert_eq, hname, hf.byName]

def keepsPort (s : SharedServiceState) (previous : ServiceEntry) (svc : Service) : Bool :=
  if svc.usesAutoPort then s.reusable previous
  else previous.config.remotePort = svc.remotePort

theorem assignPort_keeps {previous : ServiceEntry} {svc svc' : Service}
    (h : (s.assignPort (some previous) svc).2 = some svc') (hk : s.keepsPort previous svc = true) :
    svc'.remotePort = previous.config.remotePort := by
  unfold keepsPort at hk
  unfold assignPort at h
  split at h
  · next hauto =>
    rw [if_pos hauto] at hk
    rw [Option.filter_some, if_pos hk] at h
    cases h
    rfl
  · next hauto =>
    rw [if_neg hauto, decide_eq_true_eq] at hk
    split at h
    · split at h
      · cases h
      · split at h
        · cases h
        · cases h
          exact hk.symm
    · cases h
      exact hk.symm

-- A new automatic port can only coincide with the previous one when that one was free again.
theorem assignPort_leaves {previous : ServiceEntry} {svc svc' : Service}
    (h : (s.assignPort (some previous) svc).2 = some svc') (hk : s.keepsPort previous svc = false)
    (hp : svc'.remotePort = previous.config.remotePort) :
    s.validateExplicitPort previous.config.remotePort = .ok () ∧
      previous.config.remotePort ∉ s.allocatedPorts ∧ s.reusable previous = false := by
  unfold keepsPort at hk
  unfold assignPort at h
  split at h
  · next hauto =>
    rw [if_pos hauto] at hk
    rw [Option.filter_some, if_neg (by simp [hk])] at h
    obtain ⟨next, ha | ⟨port, hok, hfree, ha⟩⟩ :=
      allocateWithin_cases s svc.name s.rangeLen.toNat
    · simp only [allocatePort, ha, Option.map_none] at h
      cases h
    · simp only [allocatePort, ha, Option.map_some] at h
      cases h
      dsimp only at hp
      subst hp
      exact ⟨hok, hfree, hk⟩
  · next hauto =>
    rw [if_neg hauto, decide_eq_false_iff_not] at hk
    split at h
    · split at h
      · cases h
      · split at h
        · cases h
        · cases h
          exact absurd hp.symm hk
    · cases h
      exact absurd hp.symm hk

theorem isDirect_of_tcp {svc : Service} (h : isTcpListener svc = true) : svc.isDirect = true := by
  unfold isTcpListener at h
  split at h
  all_goals first | contradiction | simp_all [Service.isDirect]

theorem not_vhost_of_direct {svc : Service} (h : svc.isDirect = true) : svc.isVhost = false := by
  unfold Service.isDirect at h
  split at h
  all_goals first | contradiction | simp_all [Service.isVhost]

theorem port_ne_zero {port : UInt16} (h : s.validateExplicitPort port = .ok ()) : port ≠ 0 := by
  rintro rfl
  simp [validateExplicitPort] at h

theorem assignPort_indirect {svc : Service} (h : svc.isDirect = false)
    (s : SharedServiceState) (existing : Option ServiceEntry) :
    s.assignPort existing svc = (s, some svc) := by
  simp [assignPort, Service.usesAutoPort, usesDirectPublicPort, h]

theorem assignPort_records {existing : Option ServiceEntry} {svc svc' : Service}
    (h : (s.assignPort existing svc).2 = some svc') {port : UInt16} {n : String}
    (hp : (s.assignPort existing svc).1.allocatedPorts.lookup port = some n) :
    s.allocatedPorts.lookup port = some n ∨
      n = svc.name ∧ port = svc'.remotePort ∧ svc.isDirect = true ∧
        s.validateExplicitPort port = .ok () := by
  cases hd : svc.isDirect with
  | false =>
    rw [assignPort_indirect hd] at hp
    exact Or.inl hp
  | true =>
    have ha := assignPort_cases s existing svc
    rw [h] at ha
    generalize (s.assignPort existing svc).1 = t at ha hp
    cases ha with
    | reused entry he hde hok =>
      rw [AList.lookup_orInsert] at hp
      split at hp
      · next hport =>
        subst hport
        cases hl : s.allocatedPorts.lookup entry.config.remotePort with
        | none =>
          rw [hl] at hp
          exact Or.inr ⟨(Option.some.inj hp).symm, rfl, rfl, hok⟩
        | some owner =>
          rw [hl] at hp
          exact Or.inl hp
      · exact Or.inl hp
    | allocated next port' hok hfree =>
      rw [AList.lookup_insert_eq] at hp
      split at hp
      · next hport =>
        subst hport
        exact Or.inr ⟨(Option.some.inj hp).symm, rfl, rfl, hok⟩
      · exact Or.inl hp
    | explicit hok hfree =>
      rw [AList.lookup_insert_eq] at hp
      split at hp
      · next hport =>
        subst hport
        exact Or.inr ⟨(Option.some.inj hp).symm, rfl, rfl, hok⟩
      · exact Or.inl hp
    | indirect hi => exact Or.inl hp

section Registered

variable {clientId : String} {tx : Channel} {svc svc' : Service}

theorem accepts_of_registered (h : (s.registerService clientId tx svc).2 = some svc') :
    s.accepts clientId svc = true := by
  rw [← registerService_isSome s clientId tx svc, h]
  rfl

theorem registerService_ports (h : (s.registerService clientId tx svc).2 = some svc')
    (port : UInt16) :
    (s.registerService clientId tx svc).1.allocatedPorts.lookup port =
      if (s.servicesByName.lookup svc.name).any (fun previous =>
          moves previous svc' && port = previous.config.remotePort) ∧
          (s.assignPort (s.servicesByName.lookup svc.name) svc).1.allocatedPorts.lookup port =
            some svc.name then none
      else (s.assignPort (s.servicesByName.lookup svc.name) svc).1.allocatedPorts.lookup port := by
  obtain ⟨-, -, ha, hstored⟩ := registerService_some h
  have hname : svc'.name = svc.name := by rw [assignPort_service ha]
  rw [hstored, ← hname, ← replacePrevious_ports, hname]
  rfl

-- A recorded port is an old record of another name, or was kept or taken by the new entry.
theorem registerService_records (h : (s.registerService clientId tx svc).2 = some svc')
    {port : UInt16} {n : String}
    (hp : (s.registerService clientId tx svc).1.allocatedPorts.lookup port = some n) :
    (n = svc.name → (s.servicesByName.lookup svc.name).any (fun previous =>
      moves previous svc' && port = previous.config.remotePort) = false) ∧
    (s.allocatedPorts.lookup port = some n ∨
      n = svc.name ∧ port = svc'.remotePort ∧ svc.isDirect = true ∧
        s.validateExplicitPort port = .ok ()) := by
  rw [registerService_ports h] at hp
  split at hp
  · cases hp
  · next hstay =>
    refine ⟨fun hn => Bool.eq_false_iff.mpr fun hmoves => ?_,
      assignPort_records (registerService_some h).2.2.1 hp⟩
    subst hn
    exact hstay ⟨hmoves, hp⟩

theorem registerService_listening (h : (s.registerService clientId tx svc).2 = some svc')
    {port : UInt16} {n : String}
    (hp : (s.registerService clientId tx svc).1.activeListeners.lookup port = some n) :
    s.activeListeners.lookup port = some n ∧
    (n = svc.name → (s.servicesByName.lookup svc.name).any (fun previous =>
      moves previous svc' && isTcpListener previous.config &&
        port = previous.config.remotePort) = false) := by
  obtain ⟨-, -, ha, hstored⟩ := registerService_some h
  have hname : svc'.name = svc.name := by rw [assignPort_service ha]
  rw [hstored] at hp
  dsimp only [storeEntry] at hp
  rw [replacePrevious_listeners, hname, (assignPort_cases s _ svc).tables.2] at hp
  split at hp
  · cases hp
  · next hstay =>
    refine ⟨hp, fun hn => Bool.eq_false_iff.mpr fun hmoves => ?_⟩
    subst hn
    exact hstay ⟨hmoves, hp⟩

end Registered

end Cross233.Server.SharedServiceState
