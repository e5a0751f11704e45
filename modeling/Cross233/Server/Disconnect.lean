import Cross233.Server.Tables

namespace Cross233.Server

open Protocol

inductive RegistryOp where
  | call (c : RegistryCall)
  | registerListener (port : UInt16) (name : String)
  | stopListener (port : UInt16) (name : String)
  | removeListenerHandle (port : UInt16) (name : String)

namespace SharedServiceState

def operate (s : SharedServiceState) : RegistryOp → Option SharedServiceState
  | .call c => s.call c
  | .registerListener port name => some (s.registerListener port name)
  | .stopListener port name => some (s.stopListener port name)
  | .removeListenerHandle port name => some (s.removeListenerHandle port name)

structure OthersKept (clientId : String) (s s' : SharedServiceState) : Prop where
  byName : ∀ n entry, entry.clientId ≠ clientId →
    (s'.servicesByName.lookup n = some entry ↔ s.servicesByName.lookup n = some entry)
  clients : ∀ c, c ≠ clientId → s'.clientServices.lookup c = s.clientServices.lookup c
  groups : ∀ g, (s'.groupOf g).filter (fun entry => entry.clientId ≠ clientId) =
    (s.groupOf g).filter (fun entry => entry.clientId ≠ clientId)
  ports : ∀ c, c ≠ clientId → ∀ n ∈ s.namesOf c, ∀ port,
    (s'.allocatedPorts.lookup port = some n ↔ s.allocatedPorts.lookup port = some n)
  listeners : ∀ c, c ≠ clientId → ∀ n ∈ s.namesOf c, ∀ port,
    (s'.activeListeners.lookup port = some n ↔ s.activeListeners.lookup port = some n)
  control : ∀ c, c ≠ clientId → s'.clientControlTx.lookup c = s.clientControlTx.lookup c

def TakesForeignPort (s : SharedServiceState) (clientId : String) : Prop :=
  ∃ name ∈ s.namesOf clientId, ∃ entry, s.servicesByName.lookup name = some entry ∧
    entry.config.remotePort ≠ 0 ∧ entry.config.isVhost = false ∧
    ∃ c n, c ≠ clientId ∧ n ∈ s.namesOf c ∧
      s.allocatedPorts.lookup entry.config.remotePort = some n

def Grouped (s : SharedServiceState) : Prop :=
  ∀ g, ∀ entry ∈ s.groupOf g,
    s.servicesByName.lookup entry.config.name = some entry ∧ entry.config.group = some g

variable {s s' : SharedServiceState}

theorem Grouped.of_eq (h : Grouped s) (hname : s'.servicesByName = s.servicesByName)
    (hgroups : s'.servicesByGroup = s.servicesByGroup) : Grouped s' := by
  intro g entry he
  rw [groupOf, hgroups] at he
  rw [hname]
  exact h g entry he

-- No entry of the replaced name is left in any group when the new entry is pushed.
theorem Grouped.replaced {t : SharedServiceState} {svc svc' : Service} (h : Grouped s)
    (ha : Assignment s (s.servicesByName.lookup svc.name) svc t (some svc')) (g : String) :
    (t.replacePrevious (s.servicesByName.lookup svc.name) svc').groupOf g =
      (s.groupOf g).filter (fun entry => entry.config.name ≠ svc'.name) := by
  rw [replacePrevious_groupOf, groupOf, ha.tables.1]
  split
  · rfl
  · next hany =>
    refine (List.filter_eq_self.mpr (fun e he => ?_)).symm
    rw [decide_eq_true_eq]
    intro hn
    obtain ⟨hl, hg⟩ := h g e he
    refine hany ?_
    rw [← ha.name, ← hn, hl]
    simp [hg]

theorem Grouped.mem_replaced {t : SharedServiceState} {svc svc' : Service} (h : Grouped s)
    (ha : Assignment s (s.servicesByName.lookup svc.name) svc t (some svc')) {g : String}
    {e : ServiceEntry} :
    e ∈ (t.replacePrevious (s.servicesByName.lookup svc.name) svc').groupOf g ↔
      e ∈ s.groupOf g ∧ e.config.name ≠ svc'.name := by
  rw [h.replaced ha, List.mem_filter, decide_eq_true_eq]

theorem stored_lookup {t : SharedServiceState} {svc svc' : Service}
    (ha : Assignment s (s.servicesByName.lookup svc.name) svc t (some svc')) (clientId : String)
    (tx : Channel) (n : String) :
    ((t.replacePrevious (s.servicesByName.lookup svc.name) svc').storeEntry
        ⟨svc', clientId, tx⟩).servicesByName.lookup n =
      if n = svc'.name then some ⟨svc', clientId, tx⟩ else s.servicesByName.lookup n := by
  have hf := ha.frame.trans (replacePrevious_frame t (s.servicesByName.lookup svc.name) svc')
  simp only [storeEntry, AList.lookup_insert_eq, hf.byName]

theorem Grouped.registration {clientId : String} {tx : Channel} {svc : Service}
    {r : Option Service} (h : Grouped s) (hr : Registration s clientId tx svc s' r) :
    Grouped s' := by
  cases hr with
  | skipped next => exact h.of_eq rfl rfl
  | stored t svc' howner ha =>
    have hkept (g : String) (e : ServiceEntry) (he : e ∈ s.groupOf g ∧ e.config.name ≠ svc'.name) :
        ((t.replacePrevious (s.servicesByName.lookup svc.name) svc').storeEntry
          ⟨svc', clientId, tx⟩).servicesByName.lookup e.config.name = some e ∧
          e.config.group = some g := by
      rw [stored_lookup ha, if_neg he.2]
      exact h g e he.1
    intro g e he
    rw [storeEntry_groupOf] at he
    split at he
    · next hg =>
      rcases List.mem_append.mp he with he | he
      · exact hkept g e ((h.mem_replaced ha).mp he)
      · rw [List.mem_singleton.mp he]
        exact ⟨AList.lookup_insert _, hg⟩
    · exact hkept g e ((h.mem_replaced ha).mp he)

theorem Grouped.registerAll (h : Grouped s) (clientId : String) (tx : Channel)
    (services : List Service) : Grouped (s.registerAll clientId tx services).1 := by
  induction services generalizing s with
  | nil => exact h
  | cons svc services ih => exact ih (h.registration (registerService_cases s clientId tx svc))

theorem Grouped.unregister (h : Grouped s) (clientId : String) :
    Grouped (s.unregisterClient clientId) := by
  intro g e he
  rw [unregisterClient_groupOf] at he
  obtain ⟨he, hw⟩ := List.mem_filter.mp he
  obtain ⟨hl, hg⟩ := h g e he
  refine ⟨?_, hg⟩
  rw [unregisterClient_lookup, if_neg]
  · exact hl
  · intro hn
    simp [withdrawn, hn, hl, hg] at hw

theorem call_grouped {c : RegistryCall} (h : Grouped s) (hc : s.call c = some s') :
    Grouped s' := by
  cases c with
  | registerServices clientId tx services =>
    cases hc
    exact Grouped.registerAll (s := s.attachControl clientId tx) (h.of_eq rfl rfl) clientId tx
      services
  | unregisterClient clientId =>
    cases hc
    exact h.unregister clientId
  | unregisterClientIfCurrent clientId tx =>
    cases hc
    unfold unregisterClientIfCurrent
    split
    · exact h.unregister clientId
    · exact h

theorem operate_indexed {op : RegistryOp} (h : Indexed s ∧ Grouped s)
    (ho : s.operate op = some s') : Indexed s' ∧ Grouped s' := by
  obtain ⟨hi, hg⟩ := h
  cases op with
  | call c => exact ⟨call_indexed hi ho, call_grouped hg ho⟩
  | registerListener port name =>
    cases ho
    exact ⟨hi.of_eq rfl (fun _ => rfl), hg.of_eq rfl rfl⟩
  | stopListener port name =>
    cases ho
    have hf := (stopListener_frame s port name).1
    refine ⟨hi.of_eq hf.byName (fun c => ?_), hg.of_eq hf.byName (stopListener_groups s port name)⟩
    rw [namesOf, hf.clients, namesOf]
  | removeListenerHandle port name =>
    cases ho
    unfold removeListenerHandle
    split
    · exact ⟨hi.of_eq rfl (fun _ => rfl), hg.of_eq rfl rfl⟩
    · exact ⟨hi, hg⟩

theorem reachable_indexed {portMin portMax : UInt16} {proxyBind : String} {allow : Bool}
    {protectedPorts reservedPorts : Finset UInt16} {ops : List RegistryOp}
    (hrun : Machine.run operate
      (newWithNetworkPolicy portMin portMax proxyBind allow protectedPorts reservedPorts) ops =
        some s) : Indexed s ∧ Grouped s := by
  refine Machine.run_invariant (I := fun s => Indexed s ∧ Grouped s) ?_ ⟨?_, ?_⟩ hrun
  · exact fun s op s' h ho => operate_indexed h ho
  · exact (new_indexed portMin portMax proxyBind allow protectedPorts reservedPorts).1
  · intro g e he
    cases he

theorem Indexed.foreign_name (h : Indexed s) {c d n : String} (hn : n ∈ s.namesOf c)
    (hd : c ≠ d) : n ∉ s.namesOf d := by
  intro hn'
  obtain ⟨entry, he, hc⟩ := h.owner c n hn
  exact hd (hc.symm.trans (h.owner_eq hn' he))

theorem unregister_entry_foreign (hi : Indexed s) {clientId n : String} {entry : ServiceEntry}
    (he : (s.unregisterClient clientId).servicesByName.lookup n = some entry) :
    entry.clientId ≠ clientId := by
  intro hc
  have hl := (hi.unregister clientId).listed n entry he
  rw [hc, unregisterClient_namesOf, if_pos rfl] at hl
  cases hl

theorem unregister_groups_kept (hi : Indexed s) (hg : Grouped s) (clientId g : String) :
    ((s.unregisterClient clientId).groupOf g).filter (fun entry => entry.clientId ≠ clientId) =
      (s.groupOf g).filter (fun entry => entry.clientId ≠ clientId) := by
  rw [unregisterClient_groupOf, List.filter_filter]
  refine List.filter_congr (fun e he => ?_)
  by_cases hc : e.clientId = clientId
  · simp [hc]
  · have hn : e.config.name ∉ s.namesOf clientId :=
      fun hn => hc (hi.owner_eq hn (hg g e he).1)
    simp [withdrawn, hn]

theorem unregister_listeners_kept (hi : Indexed s) {clientId c n : String} (hc : c ≠ clientId)
    (hn : n ∈ s.namesOf c) (port : UInt16) :
    (s.unregisterClient clientId).activeListeners.lookup port = some n ↔
      s.activeListeners.lookup port = some n := by
  rw [unregisterClient_listeners]
  refine and_iff_left ?_
  rintro ⟨m, hm, entry, he, -, -, -, -, rfl⟩
  rw [hi.named m entry he] at hn
  exact hi.foreign_name hn hc hm

theorem unregister_others_kept_iff (hi : Indexed s) (hg : Grouped s) (clientId : String) :
    OthersKept clientId s (s.unregisterClient clientId) ↔ ¬s.TakesForeignPort clientId := by
  have hr := unregisterClient_removal s clientId
  constructor
  · rintro h ⟨name, hname, entry, he, h0, hv, c, n, hc, hn, hp⟩
    have hkept := (h.ports c hc n hn entry.config.remotePort).mpr hp
    rw [hr.released _ ⟨name, hname, entry, he, rfl, h0, hv⟩] at hkept
    cases hkept
  · intro hfree
    refine ⟨fun n entry hc => ?_, fun c hc => ?_, unregister_groups_kept hi hg clientId,
      fun c hc n hn port => ?_, fun c hc n hn => unregister_listeners_kept hi hc hn,
      fun c hc => ?_⟩
    · rw [unregisterClient_lookup]
      split
      · next hn =>
        refine iff_of_false (by simp) (fun he => hc (hi.owner_eq hn he))
      · rfl
    · rw [hr.clients]
      exact AList.lookup_erase_ne hc
    · by_cases hrel : s.Released (s.namesOf clientId) port
      · rw [hr.released port hrel]
        refine iff_of_false (by simp) (fun hp => hfree ?_)
        obtain ⟨name, hname, entry, he, rfl, h0, hv⟩ := hrel
        exact ⟨name, hname, entry, he, h0, hv, c, n, hc, hn, hp⟩
      · rw [hr.kept port hrel]
        rfl
    · rw [unregisterClient_control]
      exact AList.lookup_erase_ne hc

theorem disconnect_keeps_others_iff (portMin portMax : UInt16) (proxyBind : String) (allow : Bool)
    (protectedPorts reservedPorts : Finset UInt16) (ops : List RegistryOp)
    (s : SharedServiceState)
    (hrun : Machine.run operate
      (newWithNetworkPolicy portMin portMax proxyBind allow protectedPorts reservedPorts) ops =
        some s) (clientId : String) :
    (OthersKept clientId s (s.unregisterClient clientId) ↔ ¬s.TakesForeignPort clientId) ∧
    ∀ tx, (s.unregisterClientIfCurrent clientId tx).2 = true →
      (OthersKept clientId s (s.unregisterClientIfCurrent clientId tx).1 ↔
        ¬s.TakesForeignPort clientId) := by
  obtain ⟨hi, hg⟩ := reachable_indexed hrun
  refine ⟨unregister_others_kept_iff hi hg clientId, fun tx htx => ?_⟩
  unfold unregisterClientIfCurrent at htx ⊢
  split
  · exact unregister_others_kept_iff hi hg clientId
  · next h =>
    rw [if_neg h] at htx
    cases htx

def webAndDatabase (databasePort : UInt16) : List RegistryOp :=
  [.call (.registerServices "alice" 0 [{ name := "web", remotePort := 60080 }]),
    .registerListener 60080 "web",
    .call (.registerServices "bob" 1
      [{ name := "db", ty := some "stcp", remotePort := databasePort }])]

theorem disconnect_keeps_web_service :
    ∃ s, Machine.run operate (new 60080 60090) (webAndDatabase 60081) = some s ∧
      s.allocatedPorts.lookup 60080 = some "web" ∧ ¬s.TakesForeignPort "bob" ∧
      OthersKept "bob" s (s.unregisterClient "bob") := by
  have hrun : (Machine.run operate (new 60080 60090) (webAndDatabase 60081)).map (fun s =>
      (s.allocatedPorts.lookup 60080, s.namesOf "bob",
        (s.servicesByName.lookup "db").map (fun e => e.config.remotePort),
        s.allocatedPorts.lookup 60081)) =
      some (some "web", ["db"], some 60081, none) := by decide +kernel
  obtain ⟨s, hs, hlook⟩ := Option.map_eq_some_iff.mp hrun
  simp only [Prod.mk.injEq] at hlook
  obtain ⟨hweb, hnames, hdb, hfree⟩ := hlook
  obtain ⟨db, hdb, hport⟩ := Option.map_eq_some_iff.mp hdb
  have hkeeps : ¬s.TakesForeignPort "bob" := by
    rintro ⟨name, hname, entry, he, -, -, c, n, -, -, hp⟩
    rw [hnames] at hname
    rw [List.mem_singleton.mp hname, hdb] at he
    cases he
    rw [hport, hfree] at hp
    cases hp
  refine ⟨s, hs, hweb, hkeeps, ?_⟩
  exact (disconnect_keeps_others_iff 60080 60090 "0.0.0.0" false {22} ∅ _ s hs "bob").1.mpr hkeeps

theorem disconnect_takes_web_port :
    ∃ s, Machine.run operate (new 60080 60090) (webAndDatabase 60080) = some s ∧
      "web" ∈ s.namesOf "alice" ∧ s.allocatedPorts.lookup 60080 = some "web" ∧
      (s.unregisterClient "bob").allocatedPorts.lookup 60080 = none ∧
      (s.unregisterClientIfCurrent "bob" 1).2 = true ∧
      (s.unregisterClientIfCurrent "bob" 1).1.allocatedPorts.lookup 60080 = none ∧
      ¬OthersKept "bob" s (s.unregisterClient "bob") := by
  have hrun : (Machine.run operate (new 60080 60090) (webAndDatabase 60080)).map (fun s =>
      (s.namesOf "alice", s.allocatedPorts.lookup 60080,
        (s.unregisterClient "bob").allocatedPorts.lookup 60080,
        (s.unregisterClientIfCurrent "bob" 1).2,
        (s.unregisterClientIfCurrent "bob" 1).1.allocatedPorts.lookup 60080)) =
      some (["web"], some "web", none, true, none) := by decide +kernel
  obtain ⟨s, hs, hlook⟩ := Option.map_eq_some_iff.mp hrun
  simp only [Prod.mk.injEq] at hlook
  obtain ⟨hnames, hweb, hgone, hcur, hgone'⟩ := hlook
  have hmem : "web" ∈ s.namesOf "alice" := by simp [hnames]
  refine ⟨s, hs, hmem, hweb, hgone, hcur, hgone', fun h => ?_⟩
  have hkept := (h.ports "alice" (by decide) "web" hmem 60080).mpr hweb
  rw [hgone] at hkept
  cases hkept

end SharedServiceState

end Cross233.Server
