import Cross233.Server.Disconnect

namespace Cross233.Server.SharedServiceState

open Protocol

structure IndexesAgree (s : SharedServiceState) : Prop where
  keys : ∀ c, c ∈ s.clientServices ↔ c ∈ s.clientControlTx
  owners : ∀ n entry, s.servicesByName.lookup n = some entry → entry.clientId ∈ s.clientServices
  names : ∀ c names, s.clientServices.lookup c = some names → names.Nodup ∧
    ∀ n, n ∈ names ↔ ∃ entry, s.servicesByName.lookup n = some entry ∧ entry.clientId = c
  groups : ∀ g, g ∈ s.servicesByGroup ↔
    ∃ n entry, s.servicesByName.lookup n = some entry ∧ entry.config.group = some g
  members : ∀ g entries, s.servicesByGroup.lookup g = some entries →
    (∀ n entry, s.servicesByName.lookup n = some entry → entry.config.group = some g →
      entries.count entry = 1) ∧
    ∀ entry ∈ entries, s.servicesByName.lookup entry.config.name = some entry ∧
      entry.config.group = some g

structure Listed (s : SharedServiceState) : Prop where
  keys : ∀ c, c ∈ s.clientServices ↔ c ∈ s.clientControlTx
  names : ∀ c, (s.namesOf c).Nodup

def NoEmptyGroup (s : SharedServiceState) : Prop :=
  ∀ g, s.servicesByGroup.lookup g ≠ some []

structure Collected (s : SharedServiceState) : Prop where
  inhabited : s.NoEmptyGroup
  members : ∀ g, (s.groupOf g).Nodup
  covers : ∀ n entry g, s.servicesByName.lookup n = some entry → entry.config.group = some g →
    entry ∈ s.groupOf g

variable {s s' : SharedServiceState}

theorem namesOf_of_lookup {c : String} {names : List String}
    (h : s.clientServices.lookup c = some names) : s.namesOf c = names := by
  rw [namesOf, h]
  rfl

theorem groupOf_of_lookup {g : String} {entries : List ServiceEntry}
    (h : s.servicesByGroup.lookup g = some entries) : s.groupOf g = entries := by
  rw [groupOf, h]
  rfl

theorem mem_clients_of_mem_namesOf {c n : String} (h : n ∈ s.namesOf c) :
    c ∈ s.clientServices := by
  cases hl : s.clientServices.lookup c with
  | none =>
    rw [namesOf, hl] at h
    cases h
  | some names => exact AList.mem_of_lookup hl

theorem mem_groups_of_mem_groupOf {g : String} {entry : ServiceEntry} (h : entry ∈ s.groupOf g) :
    g ∈ s.servicesByGroup := by
  cases hl : s.servicesByGroup.lookup g with
  | none =>
    rw [groupOf, hl] at h
    cases h
  | some entries => exact AList.mem_of_lookup hl

theorem Indexed.agree (hi : Indexed s) (hg : Grouped s) (hl : Listed s) (hc : Collected s) :
    IndexesAgree s where
  keys := hl.keys
  owners n entry he := mem_clients_of_mem_namesOf (hi.listed n entry he)
  names c names hn := by
    have hnames := namesOf_of_lookup hn
    refine ⟨hnames ▸ hl.names c, fun n => ⟨fun hm => ?_, ?_⟩⟩
    · exact hi.owner c n (hnames.symm ▸ hm)
    · rintro ⟨entry, he, rfl⟩
      exact hnames ▸ hi.listed n entry he
  groups g := by
    constructor
    · intro hm
      obtain ⟨entries, he⟩ := AList.mem_iff_lookup.mp hm
      cases entries with
      | nil => exact absurd he (hc.inhabited g)
      | cons entry entries =>
        obtain ⟨hn, heg⟩ := hg g entry (groupOf_of_lookup he ▸ List.mem_cons_self)
        exact ⟨entry.config.name, entry, hn, heg⟩
    · rintro ⟨n, entry, he, heg⟩
      exact mem_groups_of_mem_groupOf (hc.covers n entry g he heg)
  members g entries he := by
    have hentries := groupOf_of_lookup he
    refine ⟨fun n entry hn heg => ?_, fun entry hm => hg g entry (hentries.symm ▸ hm)⟩
    rw [← hentries]
    exact List.count_eq_one_of_mem (hc.members g) (hc.covers n entry g hn heg)

theorem storeEntry_namesOf_nodup {entry : ServiceEntry} (h : ∀ c, (s.namesOf c).Nodup)
    (c : String) : ((s.storeEntry entry).namesOf c).Nodup := by
  by_cases hn : entry.config.name ∈ s.namesOf entry.clientId
  · have hsame : (s.storeEntry entry).clientServices = s.clientServices := if_pos hn
    rw [namesOf, hsame]
    exact h c
  · have hpush : (s.storeEntry entry).clientServices =
        s.clientServices.insert entry.clientId (s.namesOf entry.clientId ++ [entry.config.name]) :=
      if_neg hn
    rw [namesOf, hpush, AList.lookup_insert_eq]
    split
    · refine List.nodup_append.mpr ⟨h _, List.nodup_singleton _, fun n hm n' hm' heq => hn ?_⟩
      rw [← List.mem_singleton.mp hm', ← heq]
      exact hm
    · exact h c

theorem mem_storeEntry_clients (entry : ServiceEntry) (h : entry.clientId ∈ s.clientServices)
    (c : String) : c ∈ (s.storeEntry entry).clientServices ↔ c ∈ s.clientServices := by
  simp only [storeEntry]
  split
  · rfl
  · rw [AList.mem_insert]
    exact or_iff_right_of_imp (fun hc => hc ▸ h)

theorem Listed.registration {clientId : String} {tx : Channel} {svc : Service} {r : Option Service}
    (h : Listed s) (hc : clientId ∈ s.clientServices)
    (hr : Registration s clientId tx svc s' r) : Listed s' ∧ clientId ∈ s'.clientServices := by
  cases hr with
  | skipped next => exact ⟨⟨h.keys, h.names⟩, hc⟩
  | stored t svc' howner ha =>
    have hf := ha.frame.trans (replacePrevious_frame t (s.servicesByName.lookup svc.name) svc')
    have hmem := mem_storeEntry_clients ⟨svc', clientId, tx⟩ (hf.clients.symm ▸ hc)
    refine ⟨⟨fun c => ?_, storeEntry_namesOf_nodup (fun c => ?_)⟩, ?_⟩
    · rw [hmem c, hf.clients, h.keys c]
      exact hf.control ▸ Iff.rfl
    · rw [namesOf, hf.clients]
      exact h.names c
    · exact (hmem clientId).mpr (hf.clients.symm ▸ hc)

theorem Listed.registerAll {clientId : String} (tx : Channel) (services : List Service)
    (h : Listed s) (hc : clientId ∈ s.clientServices) :
    Listed (s.registerAll clientId tx services).1 := by
  induction services generalizing s with
  | nil => exact h
  | cons svc services ih =>
    obtain ⟨h', hc'⟩ := h.registration hc (registerService_cases s clientId tx svc)
    exact ih h' hc'

theorem Listed.attach (h : Listed s) (clientId : String) (tx : Channel) :
    Listed (s.attachControl clientId tx) ∧
      clientId ∈ (s.attachControl clientId tx).clientServices := by
  have hmem (c : String) : c ∈ (s.attachControl clientId tx).clientServices ↔
      c = clientId ∨ c ∈ s.clientServices := by
    simp only [AList.mem_iff_lookup, attachControl, AList.lookup_orInsert]
    split
    · next hc => simp [hc]
    · next hc => simp [hc]
  refine ⟨⟨fun c => ?_, fun c => ?_⟩, (hmem clientId).mpr (Or.inl rfl)⟩
  · rw [hmem, h.keys]
    exact (AList.mem_insert _).symm
  · rw [attachControl_namesOf]
    exact h.names c

theorem Listed.unregister (h : Listed s) (clientId : String) :
    Listed (s.unregisterClient clientId) where
  keys c := by
    rw [(unregisterClient_removal s clientId).clients, unregisterClient_control, AList.mem_erase,
      ← h.keys]
    exact AList.mem_erase
  names c := by
    rw [unregisterClient_namesOf]
    split
    · exact List.nodup_nil
    · exact h.names c

theorem NoEmptyGroup.leave (h : NoEmptyGroup s) (group : Option String) (name : String) :
    NoEmptyGroup (s.leaveGroup group name) := by
  unfold leaveGroup
  split
  · exact h
  split
  · exact h
  · intro g
    dsimp only
    split
    · rw [AList.lookup_erase_eq]
      split
      · exact fun hn => by cases hn
      · exact h g
    · next hkept =>
      rw [AList.lookup_insert_eq]
      split
      · exact fun hn => hkept (Option.some.inj hn)
      · exact h g

theorem NoEmptyGroup.store (h : NoEmptyGroup s) (entry : ServiceEntry) :
    NoEmptyGroup (s.storeEntry entry) := by
  intro g
  simp only [storeEntry]
  split
  · exact h g
  · rw [AList.lookup_insert_eq]
    split
    · simp
    · exact h g

theorem NoEmptyGroup.replaced (h : NoEmptyGroup s) (existing : Option ServiceEntry)
    (svc : Service) : NoEmptyGroup (s.replacePrevious existing svc) := by
  cases existing with
  | none => exact h
  | some previous =>
    rw [replacePrevious_some]
    refine NoEmptyGroup.leave (fun g => ?_) _ _
    rw [vacate_groups]
    exact h g

theorem NoEmptyGroup.removeService (h : NoEmptyGroup s) (name : String) :
    NoEmptyGroup (s.removeService name).1 := by
  unfold SharedServiceState.removeService
  split
  · exact h
  · dsimp only
    refine NoEmptyGroup.leave ?_ _ _
    exact h

theorem NoEmptyGroup.removeAll (h : NoEmptyGroup s) (names : List String) :
    NoEmptyGroup (s.removeAll names).1 := by
  induction names generalizing s with
  | nil => exact h
  | cons name names ih => exact ih (h.removeService name)

theorem NoEmptyGroup.unregister (h : NoEmptyGroup s) (clientId : String) :
    NoEmptyGroup (s.unregisterClient clientId) := by
  have hstop : (s.unregisterClient clientId).servicesByGroup =
      ((s.forget clientId).removeAll (s.namesOf clientId)).1.servicesByGroup :=
    stopListeners_groups _ _
  have hforget : NoEmptyGroup (s.forget clientId) := h
  have hremoved := hforget.removeAll (s.namesOf clientId)
  intro g
  rw [hstop]
  exact hremoved g

theorem Collected.registration {clientId : String} {tx : Channel} {svc : Service}
    {r : Option Service} (hi : Indexed s) (hg : Grouped s) (h : Collected s)
    (hr : Registration s clientId tx svc s' r) : Collected s' := by
  cases hr with
  | skipped next => exact ⟨h.inhabited, h.members, h.covers⟩
  | stored t svc' howner ha =>
    refine ⟨?_, fun g => ?_, fun n entry g he heg => ?_⟩
    · refine NoEmptyGroup.store (NoEmptyGroup.replaced (fun g => ?_) _ _) _
      rw [ha.tables.1]
      exact h.inhabited g
    · have hkept : ((t.replacePrevious (s.servicesByName.lookup svc.name) svc').groupOf g).Nodup :=
        hg.replaced ha g ▸ (h.members g).filter _
      rw [storeEntry_groupOf]
      split
      · refine List.nodup_append.mpr ⟨hkept, List.nodup_singleton _, fun e he e' he' heq => ?_⟩
        -- The pushed entry has the name whose entries were dropped.
        have hname := ((hg.mem_replaced ha).mp he).2
        rw [heq, List.mem_singleton.mp he'] at hname
        exact hname rfl
      · exact hkept
    · rw [stored_lookup ha] at he
      rw [storeEntry_groupOf]
      split at he
      · cases he
        rw [if_pos heg]
        exact List.mem_append_right _ (List.mem_singleton.mpr rfl)
      · next hn =>
        have hold := (hg.mem_replaced ha).mpr
          ⟨h.covers n entry g he heg, by rw [hi.named n entry he]; exact hn⟩
        split
        · exact List.mem_append_left _ hold
        · exact hold

theorem Collected.registerAll {clientId : String} (tx : Channel) (services : List Service)
    (hi : Indexed s) (hg : Grouped s) (h : Collected s) :
    Collected (s.registerAll clientId tx services).1 := by
  induction services generalizing s with
  | nil => exact h
  | cons svc services ih =>
    have hr := registerService_cases s clientId tx svc
    exact ih (hi.registration hr) (hg.registration hr) (Collected.registration hi hg h hr)

theorem Collected.unregister (hi : Indexed s) (h : Collected s) (clientId : String) :
    Collected (s.unregisterClient clientId) := by
  refine ⟨NoEmptyGroup.unregister h.inhabited clientId, fun g => ?_, fun n entry g he heg => ?_⟩
  · rw [unregisterClient_groupOf]
    exact (h.members g).filter _
  · rw [unregisterClient_lookup] at he
    split at he
    · cases he
    · next hn =>
      rw [unregisterClient_groupOf, List.mem_filter]
      refine ⟨h.covers n entry g he heg, ?_⟩
      rw [withdrawn, hi.named n entry he]
      simp [hn]

structure Consistent (s : SharedServiceState) : Prop where
  indexed : Indexed s
  grouped : Grouped s
  listed : Listed s
  collected : Collected s

theorem Consistent.unregister (h : Consistent s) (clientId : String) :
    Consistent (s.unregisterClient clientId) where
  indexed := h.indexed.unregister clientId
  grouped := h.grouped.unregister clientId
  listed := h.listed.unregister clientId
  collected := h.collected.unregister h.indexed clientId

theorem Consistent.register (h : Consistent s) (clientId : String) (tx : Channel)
    (services : List Service) : Consistent (s.registerServices clientId tx services).1 := by
  obtain ⟨hl, hc⟩ := h.listed.attach clientId tx
  have hi := h.indexed.attach clientId tx
  have hg : Grouped (s.attachControl clientId tx) := h.grouped.of_eq rfl rfl
  refine ⟨?_, hg.registerAll clientId tx services, hl.registerAll tx services hc, ?_⟩
  · exact (registerAll_exclusive clientId tx services hi).1
  · refine Collected.registerAll tx services hi hg ?_
    exact ⟨h.collected.inhabited, h.collected.members, h.collected.covers⟩

theorem call_consistent {c : RegistryCall} (h : Consistent s) (hc : s.call c = some s') :
    Consistent s' := by
  cases c with
  | registerServices clientId tx services =>
    cases hc
    exact h.register clientId tx services
  | unregisterClient clientId =>
    cases hc
    exact h.unregister clientId
  | unregisterClientIfCurrent clientId tx =>
    cases hc
    unfold unregisterClientIfCurrent
    split
    · exact h.unregister clientId
    · exact h

theorem new_consistent (portMin portMax : UInt16) (proxyBind : String) (allow : Bool)
    (protectedPorts reservedPorts : Finset UInt16) :
    Consistent
      (newWithNetworkPolicy portMin portMax proxyBind allow protectedPorts reservedPorts) := by
  refine ⟨(new_indexed portMin portMax proxyBind allow protectedPorts reservedPorts).1, ?_,
    ⟨fun c => Iff.rfl, fun c => List.nodup_nil⟩, ⟨?_, fun g => List.nodup_nil, ?_⟩⟩
  · intro g entry he
    cases he
  · intro g he
    cases he
  · intro n entry g he
    cases he

theorem registry_indexes_agree (portMin portMax : UInt16) (proxyBind : String) (allow : Bool)
    (protectedPorts reservedPorts : Finset UInt16) (calls : List RegistryCall) :
    Machine.Always call IndexesAgree
      (newWithNetworkPolicy portMin portMax proxyBind allow protectedPorts reservedPorts)
      calls := by
  refine Machine.always_invariant (I := Consistent) ?_ ?_ calls
    (new_consistent portMin portMax proxyBind allow protectedPorts reservedPorts)
  · exact fun s c s' hs hc => call_consistent hs hc
  · exact fun s hs => hs.indexed.agree hs.grouped hs.listed hs.collected

end Cross233.Server.SharedServiceState
