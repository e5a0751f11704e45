import Cross233.Server.Indexes
import Cross233.Server.Binding

namespace Cross233.Server.SharedServiceState

open Protocol

variable {s s' t : SharedServiceState} {clientId : String} {tx : Channel}

structure OthersSpared (clientId : String) (s s' : SharedServiceState) : Prop where
  byName : ∀ n entry, entry.clientId ≠ clientId →
    (s'.servicesByName.lookup n = some entry ↔ s.servicesByName.lookup n = some entry)
  clients : ∀ c, c ≠ clientId → s'.clientServices.lookup c = s.clientServices.lookup c
  groups : ∀ g, (s'.groupOf g).filter (fun entry => entry.clientId ≠ clientId) =
    (s.groupOf g).filter (fun entry => entry.clientId ≠ clientId)
  listeners : ∀ c, c ≠ clientId → ∀ n ∈ s.namesOf c, ∀ port,
    (s'.activeListeners.lookup port = some n ↔ s.activeListeners.lookup port = some n)

def PortsSpared (clientId : String) (s s' : SharedServiceState) : Prop :=
  ∀ c, c ≠ clientId → ∀ n ∈ s.namesOf c, ∀ port,
    (s'.allocatedPorts.lookup port = some n ↔ s.allocatedPorts.lookup port = some n)

theorem OthersSpared.refl (clientId : String) (s : SharedServiceState) :
    OthersSpared clientId s s :=
  ⟨fun _ _ _ => Iff.rfl, fun _ _ => rfl, fun _ => rfl, fun _ _ _ _ _ => Iff.rfl⟩

theorem PortsSpared.of_eq (h : s'.allocatedPorts = s.allocatedPorts) :
    PortsSpared clientId s s' :=
  fun _ _ _ _ _ => by rw [h]

theorem OthersSpared.namesOf (h : OthersSpared clientId s s') {c : String} (hc : c ≠ clientId) :
    s'.namesOf c = s.namesOf c := by
  rw [SharedServiceState.namesOf, h.clients c hc, SharedServiceState.namesOf]

theorem OthersSpared.trans (h : OthersSpared clientId s s') (h' : OthersSpared clientId s' t) :
    OthersSpared clientId s t where
  byName n entry hc := (h'.byName n entry hc).trans (h.byName n entry hc)
  clients c hc := (h'.clients c hc).trans (h.clients c hc)
  groups g := (h'.groups g).trans (h.groups g)
  listeners c hc n hn port :=
    (h'.listeners c hc n (h.namesOf hc ▸ hn) port).trans (h.listeners c hc n hn port)

theorem PortsSpared.trans (h : PortsSpared clientId s s') (hs : OthersSpared clientId s s')
    (h' : PortsSpared clientId s' t) : PortsSpared clientId s t :=
  fun c hc n hn port => (h' c hc n (hs.namesOf hc ▸ hn) port).trans (h c hc n hn port)

theorem Assignment.other_ports {existing : Option ServiceEntry} {svc : Service}
    {r : Option Service} (h : Assignment s existing svc s' r) {port : UInt16} {n : String}
    (hn : n ≠ svc.name) :
    s'.allocatedPorts.lookup port = some n ↔ s.allocatedPorts.lookup port = some n := by
  refine ⟨fun hp => ?_, h.keeps hn⟩
  have hnew : ∀ {q : UInt16} {o : Option String}, (if port = q then some svc.name else o) =
      some n → o = some n := by
    intro q o ho
    split at ho
    · exact absurd (Option.some.inj ho).symm hn
    · exact ho
  cases h with
  | rejected next => exact hp
  | reused entry he hd hok =>
    rw [AList.lookup_orInsert] at hp
    split at hp
    · next hport =>
      subst hport
      cases hl : s.allocatedPorts.lookup entry.config.remotePort with
      | none =>
        rw [hl] at hp
        exact absurd (Option.some.inj hp).symm hn
      | some owner =>
        rw [hl] at hp
        exact hp
    · exact hp
  | allocated next port' hok hfree =>
    rw [AList.lookup_insert_eq] at hp
    exact hnew hp
  | explicit hok hfree =>
    rw [AList.lookup_insert_eq] at hp
    exact hnew hp
  | indirect hd => exact hp

theorem foreign_ne (hi : Indexed s) {name : String}
    (howner : ∀ entry, s.servicesByName.lookup name = some entry → entry.clientId = clientId)
    {c n : String} (hc : c ≠ clientId) (hn : n ∈ s.namesOf c) : n ≠ name := by
  rintro rfl
  obtain ⟨entry, he, hec⟩ := hi.owner c n hn
  exact hc (hec.symm.trans (howner entry he))

theorem kept_unless {o : Option String} {n name : String} {c : Prop} [Decidable c] (h : n ≠ name) :
    (if c ∧ o = some name then none else o) = some n ↔ o = some n := by
  split
  · next hc =>
    refine iff_of_false (by simp) (fun ho => ?_)
    rw [ho] at hc
    exact h (Option.some.inj hc.2)
  · rfl

theorem Registration.spared {svc : Service} {r : Option Service} (hi : Indexed s)
    (hg : Grouped s) (hr : Registration s clientId tx svc s' r) :
    OthersSpared clientId s s' ∧ PortsSpared clientId s s' := by
  cases hr with
  | skipped next =>
    have hs := OthersSpared.refl clientId s
    exact ⟨⟨hs.byName, hs.clients, hs.groups, hs.listeners⟩, PortsSpared.of_eq rfl⟩
  | stored t svc' howner ha =>
    have hf := ha.frame.trans (replacePrevious_frame t (s.servicesByName.lookup svc.name) svc')
    have hforeign : ∀ {c n : String}, c ≠ clientId → n ∈ s.namesOf c → n ≠ svc'.name :=
      fun hc hn => ha.name.symm ▸ foreign_ne hi howner hc hn
    refine ⟨⟨fun n entry hc => ?_, fun c hc => ?_, fun g => ?_, fun c hc n hn port => ?_⟩,
      fun c hc n hn port => ?_⟩
    · rw [stored_lookup ha]
      split
      · next hn =>
        subst hn
        refine iff_of_false (fun he => ?_) (fun he => ?_)
        · cases he
          exact hc rfl
        · exact hc (howner entry (ha.name ▸ he))
      · rfl
    · dsimp only [storeEntry]
      split
      · rw [hf.clients]
      · rw [AList.lookup_insert_ne hc, hf.clients]
    · have hkept : ((s.groupOf g).filter (fun entry => entry.config.name ≠ svc'.name)).filter
          (fun entry => entry.clientId ≠ clientId) =
          (s.groupOf g).filter (fun entry => entry.clientId ≠ clientId) := by
        rw [List.filter_filter]
        refine List.filter_congr (fun e he => ?_)
        by_cases hn : e.config.name = svc'.name
        · have hown := howner e (ha.name ▸ hn ▸ (hg g e he).1)
          simp [hown]
        · simp [hn]
      rw [storeEntry_groupOf, hg.replaced ha g]
      split
      · rw [List.filter_append, hkept]
        simp
      · exact hkept
    · dsimp only [storeEntry]
      rw [replacePrevious_listeners, ha.tables.2]
      exact kept_unless (hforeign hc hn)
    · have hne := hforeign hc hn
      dsimp only [storeEntry]
      rw [replacePrevious_ports, ← ha.other_ports (ha.name ▸ hne)]
      exact kept_unless hne

theorem registerAll_spared (services : List Service) (hi : Indexed s) (hg : Grouped s) :
    OthersSpared clientId s (s.registerAll clientId tx services).1 ∧
      PortsSpared clientId s (s.registerAll clientId tx services).1 := by
  induction services generalizing s with
  | nil => exact ⟨OthersSpared.refl clientId s, PortsSpared.of_eq rfl⟩
  | cons svc services ih =>
    have hr := registerService_cases s clientId tx svc
    obtain ⟨hs, hp⟩ := hr.spared hi hg
    obtain ⟨hs', hp'⟩ := ih (hi.registration hr) (hg.registration hr)
    exact ⟨hs.trans hs', hp.trans hs hp'⟩

theorem registerServices_spared (services : List Service) (hi : Indexed s) (hg : Grouped s) :
    OthersSpared clientId s (s.registerServices clientId tx services).1 ∧
      PortsSpared clientId s (s.registerServices clientId tx services).1 := by
  have hattach : OthersSpared clientId s (s.attachControl clientId tx) := by
    refine ⟨fun _ _ _ => Iff.rfl, fun c hc => ?_, fun _ => rfl, fun _ _ _ _ _ => Iff.rfl⟩
    exact (AList.lookup_orInsert _ _ _ _).trans (if_neg hc)
  obtain ⟨hs, hp⟩ :=
    @registerAll_spared _ clientId tx services (hi.attach clientId tx) (hg.of_eq rfl rfl)
  have hports : PortsSpared clientId s (s.attachControl clientId tx) := PortsSpared.of_eq rfl
  exact ⟨hattach.trans hs, hports.trans hattach hp⟩

theorem unregister_spared (hi : Indexed s) (hg : Grouped s) (clientId : String) :
    OthersSpared clientId s (s.unregisterClient clientId) where
  byName n entry hc := by
    rw [unregisterClient_lookup]
    split
    · next hn => exact iff_of_false (by simp) (fun he => hc (hi.owner_eq hn he))
    · rfl
  clients c hc := by
    rw [(unregisterClient_removal s clientId).clients]
    exact AList.lookup_erase_ne hc
  groups := unregister_groups_kept hi hg clientId
  listeners c hc n hn := unregister_listeners_kept hi hc hn

-- What registering services under names nobody holds has changed so far.
structure Added (s s' : SharedServiceState) : Prop where
  kept : ∀ n entry, s.servicesByName.lookup n = some entry →
    s'.servicesByName.lookup n = some entry
  occupied : ∀ n entry, s.servicesByName.lookup n = none →
    s'.servicesByName.lookup n = some entry → entry.config.remotePort ≠ 0 →
    entry.config.isVhost = false → s.allocatedPorts.lookup entry.config.remotePort = none
  ports : ∀ port, s'.allocatedPorts.lookup port = s.allocatedPorts.lookup port ∨
    s.allocatedPorts.lookup port = none ∧ ∃ n entry, s.servicesByName.lookup n = none ∧
      s'.servicesByName.lookup n = some entry ∧ entry.config.remotePort = port ∧ port ≠ 0 ∧
      entry.config.isVhost = false ∧ s'.allocatedPorts.lookup port = some n
  listeners : ∀ port, s'.activeListeners.lookup port = s.activeListeners.lookup port

theorem Added.refl (s : SharedServiceState) : Added s s where
  kept _ _ h := h
  occupied n entry h h' := by
    rw [h] at h'
    cases h'
  ports _ := Or.inl rfl
  listeners _ := rfl

-- A service that may be added without disturbing what the registry holds.
structure Addable (s : SharedServiceState) (svc : Service) : Prop where
  unrecorded : s.servicesByName.lookup svc.name = none →
    ∀ port, s.allocatedPorts.lookup port ≠ some svc.name
  indirect : svc.isDirect = false → svc.isVhost = false → svc.remotePort ≠ 0 →
    svc.remotePort ∉ s.allocatedPorts

theorem Added.unnamed (h : Added s s') {n : String}
    (hnew : s'.servicesByName.lookup n = none) : s.servicesByName.lookup n = none := by
  rw [Option.eq_none_iff_forall_ne_some]
  intro entry he
  rw [h.kept n entry he] at hnew
  cases hnew

theorem Added.free (h : Added s s') {svc : Service} (hsvc : Addable s svc)
    (hnew : s'.servicesByName.lookup svc.name = none) {port : UInt16}
    (hport : ∀ owner, s'.allocatedPorts.lookup port = some owner → owner = svc.name) :
    s.allocatedPorts.lookup port = none := by
  rcases h.ports port with hsame | ⟨hnone, -⟩
  · rw [Option.eq_none_iff_forall_ne_some]
    intro owner ho
    have hname := hport owner (hsame.trans ho)
    exact hsvc.unrecorded (h.unnamed hnew) port (hname ▸ ho)
  · exact hnone

-- What a name without an entry is assigned: its own configuration, or a port free for it.
inductive FirstAssignment (s : SharedServiceState) (svc : Service) :
    SharedServiceState → Service → Prop where
  | indirect (hd : svc.isDirect = false) : FirstAssignment s svc s svc
  | direct (t : SharedServiceState) (svc' : Service) (hd : svc'.isDirect = true)
      (h0 : svc'.remotePort ≠ 0)
      (hfree : ∀ owner, s.allocatedPorts.lookup svc'.remotePort = some owner → owner = svc.name)
      (hports : ∀ port, t.allocatedPorts.lookup port =
        if port = svc'.remotePort then some svc.name else s.allocatedPorts.lookup port) :
      FirstAssignment s svc t svc'

theorem assignPort_first {svc svc' : Service} (h : (s.assignPort none svc).2 = some svc') :
    FirstAssignment s svc (s.assignPort none svc).1 svc' := by
  cases hd : svc.isDirect with
  | false =>
    rw [assignPort_indirect hd] at h ⊢
    cases h
    exact .indirect hd
  | true =>
    have hd' : svc'.isDirect = true := by
      rw [assignPort_service h]
      exact hd
    have ha := assignPort_cases s none svc
    rw [h] at ha
    have h0 := port_ne_zero (ha.valid hd')
    generalize (s.assignPort none svc).1 = t at ha ⊢
    cases ha with
    | reused entry he => cases he
    | allocated next port hok hfree =>
      refine .direct _ _ hd' h0 (fun owner ho => ?_) (fun q => AList.lookup_insert_eq _ _ _ _)
      exact absurd (AList.mem_of_lookup ho) hfree
    | explicit hok hfree => exact .direct _ _ hd' h0 hfree (fun q => AList.lookup_insert_eq _ _ _ _)
    | indirect hi =>
      rw [hd] at hi
      cases hi

theorem Added.ports_of_kept (h : Added s s')
    (hkept : ∀ n entry, s'.servicesByName.lookup n = some entry →
      t.servicesByName.lookup n = some entry) (port : UInt16) :
    s'.allocatedPorts.lookup port = s.allocatedPorts.lookup port ∨
      s.allocatedPorts.lookup port = none ∧ ∃ n entry, s.servicesByName.lookup n = none ∧
        t.servicesByName.lookup n = some entry ∧ entry.config.remotePort = port ∧ port ≠ 0 ∧
        entry.config.isVhost = false ∧ s'.allocatedPorts.lookup port = some n := by
  rcases h.ports port with hsame | ⟨hnone, n, entry, hn, he, hrest⟩
  · exact Or.inl hsame
  · exact Or.inr ⟨hnone, n, entry, hn, hkept n entry he, hrest⟩

theorem Added.register {svc svc' : Service} (h : Added s s') (hsvc : Addable s svc)
    (hnew : s'.servicesByName.lookup svc.name = none)
    (hs : (s'.registerService clientId tx svc).2 = some svc') :
    Added s (s'.registerService clientId tx svc).1 := by
  obtain ⟨-, -, ha, hstored⟩ := registerService_some hs
  have hlook := registerService_lookup hs
  rw [hnew] at ha hstored
  have hother : ∀ n entry, s'.servicesByName.lookup n = some entry →
      (s'.registerService clientId tx svc).1.servicesByName.lookup n = some entry := by
    intro n entry he
    rw [hlook, if_neg]
    · exact he
    · rintro rfl
      rw [hnew] at he
      cases he
  have hlisteners : ∀ port, (s'.registerService clientId tx svc).1.activeListeners.lookup port =
      s.activeListeners.lookup port := by
    intro port
    rw [hstored]
    exact (congrArg (AList.lookup port) (assignPort_cases s' none svc).tables.2).trans
      (h.listeners port)
  have hports : (s'.registerService clientId tx svc).1.allocatedPorts =
      (s'.assignPort none svc).1.allocatedPorts := by
    rw [hstored]
    rfl
  have hold := h.ports_of_kept hother
  have hoccupied : (svc'.remotePort ≠ 0 → svc'.isVhost = false →
      s.allocatedPorts.lookup svc'.remotePort = none) →
      ∀ n entry, s.servicesByName.lookup n = none →
        (s'.registerService clientId tx svc).1.servicesByName.lookup n = some entry →
        entry.config.remotePort ≠ 0 → entry.config.isVhost = false →
        s.allocatedPorts.lookup entry.config.remotePort = none := by
    intro hsvc' n entry hn he h0 hv
    rw [hlook] at he
    split at he
    · cases he
      exact hsvc' h0 hv
    · exact h.occupied n entry hn he h0 hv
  have hfirst := assignPort_first ha
  generalize (s'.assignPort none svc).1 = t at hfirst hports
  cases hfirst with
  | indirect hd =>
    refine ⟨fun n entry he => hother n entry (h.kept n entry he), hoccupied (fun h0 hv => ?_),
      fun port => hports ▸ hold port, hlisteners⟩
    exact AList.lookup_eq_none.mpr (hsvc.indirect hd hv h0)
  | direct t svc' hd h0 hfree hrecords =>
    have hnone := h.free hsvc hnew hfree
    refine ⟨fun n entry he => hother n entry (h.kept n entry he), hoccupied (fun _ _ => hnone),
      fun port => ?_, hlisteners⟩
    rw [hports, hrecords]
    split
    · next hport =>
      subst hport
      exact Or.inr ⟨hnone, svc.name, _, h.unnamed hnew, (hlook _).trans (if_pos rfl), rfl, h0,
        not_vhost_of_direct hd, rfl⟩
    · exact hold port

theorem registerAll_unnamed {services : List Service} {n : String}
    (h : ∀ svc ∈ services, svc.name ≠ n) :
    (s.registerAll clientId tx services).1.servicesByName.lookup n =
      s.servicesByName.lookup n := by
  induction services generalizing s with
  | nil => rfl
  | cons svc services ih =>
    have htail := ih (s := (s.registerService clientId tx svc).1)
      (fun svc' hm => h svc' (List.mem_cons_of_mem _ hm))
    refine htail.trans (registerService_kept tx (fun hn => ?_))
    exact absurd hn (h svc List.mem_cons_self)

theorem Added.registerAll {services : List Service} (h : Added s s')
    (hadd : ∀ svc ∈ services, Addable s svc) (hnodup : (services.map Service.name).Nodup)
    (hnames : ∀ svc ∈ services, s'.servicesByName.lookup svc.name =
      s.servicesByName.lookup svc.name)
    (hforeign : ∀ n entry, s.servicesByName.lookup n = some entry → entry.clientId ≠ clientId) :
    Added s (s'.registerAll clientId tx services).1 ∧
      ∀ svc ∈ (s'.registerAll clientId tx services).2,
        (s'.registerAll clientId tx services).1.servicesByName.lookup svc.name =
          some ⟨svc, clientId, tx⟩ := by
  induction services generalizing s' with
  | nil => exact ⟨h, fun svc hm => absurd hm List.not_mem_nil⟩
  | cons svc services ih =>
    obtain ⟨hhead, htail⟩ := List.nodup_cons.mp hnodup
    have hlater : ∀ svc' ∈ services, svc'.name ≠ svc.name := by
      intro svc' hm hn
      exact hhead (hn ▸ List.mem_map_of_mem hm)
    have hadd' := fun svc' hm => hadd svc' (List.mem_cons_of_mem _ hm)
    have hnames' : ∀ svc' ∈ services,
        (s'.registerService clientId tx svc).1.servicesByName.lookup svc'.name =
          s.servicesByName.lookup svc'.name := by
      intro svc' hm
      rw [registerService_kept tx (fun hn => absurd hn.symm (hlater svc' hm))]
      exact hnames svc' (List.mem_cons_of_mem _ hm)
    have hsplit : (s'.registerAll clientId tx (svc :: services)).2 =
        (s'.registerService clientId tx svc).2.toList ++
          ((s'.registerService clientId tx svc).1.registerAll clientId tx services).2 := rfl
    rw [hsplit]
    cases hs : (s'.registerService clientId tx svc).2 with
    | none =>
      obtain ⟨next, hnext⟩ := registerService_none hs
      have hskip : Added s (s'.registerService clientId tx svc).1 := by
        rw [hnext]
        exact ⟨h.kept, h.occupied, h.ports, h.listeners⟩
      obtain ⟨hall, hassigned⟩ := ih hskip hadd' htail hnames'
      exact ⟨hall, hassigned⟩
    | some svc' =>
      have hnew : s'.servicesByName.lookup svc.name = none := by
        rw [Option.eq_none_iff_forall_ne_some]
        intro entry he
        refine hforeign svc.name entry ?_ ((registerService_some hs).2.1 entry he)
        rw [← hnames svc List.mem_cons_self, he]
      have hadded := h.register (hadd svc List.mem_cons_self) hnew hs
      obtain ⟨hall, hassigned⟩ := ih hadded hadd' htail hnames'
      refine ⟨hall, fun svc'' hm => ?_⟩
      rcases List.mem_append.mp hm with hm | hm
      · cases List.mem_singleton.mp hm
        have hname : svc'.name = svc.name := by
          rw [assignPort_service (registerService_some hs).2.2.1]
        have hkept :=
          @registerAll_unnamed (s'.registerService clientId tx svc).1 clientId tx _ _ hlater
        rw [registerService_lookup hs, if_pos rfl] at hkept
        exact hname ▸ hkept
      · exact hassigned svc'' hm

theorem registerService_owned {svc : Service} {n : String}
    (h : ∃ entry, s.servicesByName.lookup n = some entry ∧ entry.clientId = clientId) :
    ∃ entry, (s.registerService clientId tx svc).1.servicesByName.lookup n = some entry ∧
      entry.clientId = clientId := by
  cases hs : (s.registerService clientId tx svc).2 with
  | none =>
    obtain ⟨next, hnext⟩ := registerService_none hs
    rw [hnext]
    exact h
  | some svc' =>
    rw [registerService_lookup hs]
    split
    · exact ⟨_, rfl, rfl⟩
    · exact h

theorem registerAll_owned {services : List Service} {n : String}
    (h : ∃ entry, s.servicesByName.lookup n = some entry ∧ entry.clientId = clientId) :
    ∃ entry, (s.registerAll clientId tx services).1.servicesByName.lookup n = some entry ∧
      entry.clientId = clientId := by
  induction services generalizing s with
  | nil => exact h
  | cons svc services ih => exact ih (registerService_owned h)

theorem registerAll_assigned {services : List Service} {svc : Service}
    (h : svc ∈ (s.registerAll clientId tx services).2) :
    ∃ entry, (s.registerAll clientId tx services).1.servicesByName.lookup svc.name = some entry ∧
      entry.clientId = clientId := by
  induction services generalizing s with
  | nil => cases h
  | cons svc' services ih =>
    rcases List.mem_append.mp h with hm | hm
    · have hs : (s.registerService clientId tx svc').2 = some svc := Option.mem_toList.mp hm
      have hname : svc.name = svc'.name := by
        rw [assignPort_service (registerService_some hs).2.2.1]
      refine registerAll_owned (s := (s.registerService clientId tx svc').1) ?_
      exact ⟨_, (registerService_lookup hs _).trans (if_pos hname), rfl⟩
    · exact ih hm

theorem Consistent.setListeners (h : Consistent s) (listeners : HashMap UInt16 String) :
    Consistent { s with activeListeners := listeners } where
  indexed := h.indexed.of_eq rfl (fun _ => rfl)
  grouped := h.grouped.of_eq rfl rfl
  listed := ⟨h.listed.keys, h.listed.names⟩
  collected := ⟨h.collected.inhabited, h.collected.members, h.collected.covers⟩

structure ClientGone (clientId : String) (s : SharedServiceState) : Prop where
  byName : ∀ n entry, s.servicesByName.lookup n = some entry → entry.clientId ≠ clientId
  clients : s.clientServices.lookup clientId = none
  groups : ∀ g, ∀ entry ∈ s.groupOf g, entry.clientId ≠ clientId
  control : s.clientControlTx.lookup clientId = none

structure IndexesRestored (s s' : SharedServiceState) : Prop where
  byName : ∀ n, s'.servicesByName.lookup n = s.servicesByName.lookup n
  clients : ∀ c, s'.clientServices.lookup c = s.clientServices.lookup c
  groups : ∀ g, s'.servicesByGroup.lookup g = s.servicesByGroup.lookup g

theorem Consistent.gone (h : Consistent s) (hc : s.clientServices.lookup clientId = none) :
    ClientGone clientId s := by
  have hbyName : ∀ n entry, s.servicesByName.lookup n = some entry →
      entry.clientId ≠ clientId := by
    rintro n entry he rfl
    have hn := h.indexed.listed n entry he
    rw [namesOf, hc] at hn
    cases hn
  refine ⟨hbyName, hc, fun g entry he => hbyName _ entry (h.grouped g entry he).1, ?_⟩
  rw [AList.lookup_eq_none, ← h.listed.keys, ← AList.lookup_eq_none]
  exact hc

theorem Consistent.unregistered (h : Consistent s) (clientId : String) :
    ClientGone clientId (s.unregisterClient clientId) := by
  refine (h.unregister clientId).gone ?_
  rw [(unregisterClient_removal s clientId).clients]
  exact AList.lookup_erase _ _

theorem OthersSpared.restored (h : OthersSpared clientId s s') (hs : Consistent s)
    (hs' : Consistent s') (hgone : ClientGone clientId s) (hgone' : ClientGone clientId s') :
    IndexesRestored s s' where
  byName n := by
    refine Option.ext (fun entry => ?_)
    by_cases hc : entry.clientId = clientId
    · exact iff_of_false (fun he => hgone'.byName n entry he hc)
        (fun he => hgone.byName n entry he hc)
    · exact h.byName n entry hc
  clients c := by
    by_cases hc : c = clientId
    · rw [hc, hgone.clients, hgone'.clients]
    · exact h.clients c hc
  groups g := by
    have hall : ∀ {r : SharedServiceState}, ClientGone clientId r →
        (r.groupOf g).filter (fun entry => entry.clientId ≠ clientId) = r.groupOf g := by
      intro r hr
      exact List.filter_eq_self.mpr (fun entry he => decide_eq_true (hr.groups g entry he))
    have hsame := h.groups g
    rw [hall hgone, hall hgone', groupOf, groupOf] at hsame
    -- A group without members has no key, so equal members mean equal entries of the map.
    have hempty := hs.collected.inhabited g
    have hempty' := hs'.collected.inhabited g
    cases hl : s.servicesByGroup.lookup g with
    | none =>
      cases hl' : s'.servicesByGroup.lookup g with
      | none => rfl
      | some entries =>
        rw [hl, hl'] at hsame
        rw [hl'] at hempty'
        exact absurd (congrArg some hsame) hempty'
    | some entries =>
      cases hl' : s'.servicesByGroup.lookup g with
      | none =>
        rw [hl, hl'] at hsame
        rw [hl] at hempty
        exact absurd (congrArg some hsame.symm) hempty
      | some entries' =>
        rw [hl, hl'] at hsame
        exact congrArg some hsame

end Cross233.Server.SharedServiceState
