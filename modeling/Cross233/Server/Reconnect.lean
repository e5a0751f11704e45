import Cross233.Server.Tables

namespace Cross233.Server

open Protocol

inductive RegisterPc where
  | attach (services : List Service)
  | lock (services : List Service)
  | next (services : List Service)
  | assign (svc : Service) (existing : Option ServiceEntry) (rest : List Service)
  | release (svc : Service) (existing : Option ServiceEntry) (rest : List Service)
  | stop (svc : Service) (existing : Option ServiceEntry) (rest : List Service)
  | leave (svc : Service) (existing : Option ServiceEntry) (rest : List Service)
  | store (svc : Service) (rest : List Service)
  | join (svc : Service) (rest : List Service)
  | done
  deriving DecidableEq

inductive UnregisterPc where
  | precheck
  | check
  | take
  | remove (names : List String)
  | stop (listeners : List (UInt16 × String))
  | done
  deriving DecidableEq

inductive Actor where
  | registering
  | unregistering

structure Race where
  registry : SharedServiceState
  register : RegisterPc
  assigned : List Service
  unregister : UnregisterPc

-- The write guard of client_services lives from the lock to the return of register_services.
def RegisterPc.holdsClientServices : RegisterPc → Bool
  | .attach _ | .lock _ | .done => false
  | _ => true

namespace SharedServiceState

def releasePrevious (s : SharedServiceState) (existing : Option ServiceEntry) (svc : Service) :
    SharedServiceState :=
  match existing with
  | some previous =>
    if moves previous svc then s.releasePort previous.config.remotePort svc.name else s
  | none => s

def stopPrevious (s : SharedServiceState) (existing : Option ServiceEntry) (svc : Service) :
    SharedServiceState :=
  match existing with
  | some previous =>
    if moves previous svc && isTcpListener previous.config then
      s.stopListener previous.config.remotePort svc.name
    else s
  | none => s

def leavePrevious (s : SharedServiceState) (existing : Option ServiceEntry) (svc : Service) :
    SharedServiceState :=
  match existing with
  | some previous => s.leaveGroup previous.config.group svc.name
  | none => s

def storeName (s : SharedServiceState) (entry : ServiceEntry) : SharedServiceState :=
  { s with servicesByName := s.servicesByName.insert entry.config.name entry }

def joinGroup (s : SharedServiceState) (entry : ServiceEntry) : SharedServiceState :=
  match entry.config.group with
  | none => s
  | some g =>
    { s with servicesByGroup :=
        s.servicesByGroup.insert g ((s.servicesByGroup.lookup g).getD [] ++ [entry]) }

def listName (s : SharedServiceState) (clientId name : String) : SharedServiceState :=
  let names := (s.clientServices.lookup clientId).getD []
  if name ∈ names then s
  else { s with clientServices := s.clientServices.insert clientId (names ++ [name]) }

theorem replacePrevious_steps (s : SharedServiceState) (existing : Option ServiceEntry)
    (svc : Service) :
    s.replacePrevious existing svc =
      ((s.releasePrevious existing svc).stopPrevious existing svc).leavePrevious existing svc := by
  cases existing with
  | none => rfl
  | some previous =>
    rw [replacePrevious_some]
    simp only [vacate, releasePrevious, stopPrevious, leavePrevious]
    cases moves previous svc with
    | false => rfl
    | true => cases isTcpListener previous.config <;> rfl

theorem storeEntry_steps (s : SharedServiceState) (entry : ServiceEntry) :
    s.storeEntry entry =
      ((s.storeName entry).joinGroup entry).listName entry.clientId entry.config.name := by
  unfold storeEntry joinGroup listName storeName
  cases entry.config.group with
  | none =>
    dsimp only
    split <;> rfl
  | some g =>
    dsimp only
    split <;> rfl

end SharedServiceState

namespace Race

def start (s : SharedServiceState) (services : List Service) : Race :=
  ⟨s, .attach services, [], .precheck⟩

def registerStep (clientId : String) (newTx : Channel) (r : Race) : Option Race :=
  match r.register with
  | .attach services =>
    some { r with
      registry := { r.registry with
        clientControlTx := r.registry.clientControlTx.insert clientId newTx }
      register := .lock services }
  | .lock services =>
    some { r with
      registry := { r.registry with
        clientServices := r.registry.clientServices.orInsert clientId [] }
      register := .next services }
  | .next [] => some { r with register := .done }
  | .next (svc :: rest) =>
    if svc.isEnabled = false then some { r with register := .next rest }
    else
      let existing := r.registry.servicesByName.lookup svc.name
      if existing.any (fun entry => entry.clientId ≠ clientId) then
        some { r with register := .next rest }
      else some { r with register := .assign svc existing rest }
  | .assign svc existing rest =>
    match r.registry.assignPort existing svc with
    | (s, none) => some { r with registry := s, register := .next rest }
    | (s, some svc) => some { r with registry := s, register := .release svc existing rest }
  | .release svc existing rest =>
    some { r with
      registry := r.registry.releasePrevious existing svc
      register := .stop svc existing rest }
  | .stop svc existing rest =>
    some { r with
      registry := r.registry.stopPrevious existing svc
      register := .leave svc existing rest }
  | .leave svc existing rest =>
    some { r with
      registry := r.registry.leavePrevious existing svc
      register := .store svc rest }
  | .store svc rest =>
    some { r with
      registry := r.registry.storeName ⟨svc, clientId, newTx⟩
      register := .join svc rest }
  | .join svc rest =>
    some { r with
      registry := (r.registry.joinGroup ⟨svc, clientId, newTx⟩).listName clientId svc.name
      register := .next rest
      assigned := r.assigned ++ [svc] }
  | .done => none

def unregisterStep (clientId : String) (oldTx : Channel) (r : Race) : Option Race :=
  match r.unregister with
  | .precheck =>
    some { r with
      unregister := if r.registry.isCurrentControl clientId oldTx then .check else .done }
  | .check =>
    if r.registry.isCurrentControl clientId oldTx then
      some { r with
        registry := { r.registry with
          clientControlTx := r.registry.clientControlTx.erase clientId }
        unregister := .take }
    else some { r with unregister := .done }
  | .take =>
    if r.register.holdsClientServices then none
    else
      some { r with
        registry := { r.registry with
          clientServices := r.registry.clientServices.erase clientId }
        unregister := .remove (r.registry.namesOf clientId) }
  | .remove names =>
    let (s, listeners) := r.registry.removeAll names
    some { r with registry := s, unregister := .stop listeners }
  | .stop [] => some { r with unregister := .done }
  | .stop (l :: listeners) =>
    some { r with
      registry := r.registry.stopListener l.1 l.2
      unregister := .stop listeners }
  | .done => none

def step (clientId : String) (oldTx newTx : Channel) (r : Race) : Actor → Option Race
  | .registering => r.registerStep clientId newTx
  | .unregistering => r.unregisterStep clientId oldTx

def Finished (r : Race) : Prop := r.register = .done ∧ r.unregister = .done

def NewerKept (clientId : String) (newTx : Channel) (r : Race) : Prop :=
  ∀ svc ∈ r.assigned,
    (∃ entry, r.registry.servicesByName.lookup svc.name = some entry ∧
      entry.clientId = clientId ∧ entry.controlTx = newTx) ∧
    svc.name ∈ r.registry.namesOf clientId

def stored (r : Race) : List String :=
  r.assigned.map Service.name ++
    match r.register with
    | .join svc _ => [svc.name]
    | _ => []

def sparesNewer (r : Race) : Actor → Bool
  | .registering => true
  | .unregistering =>
    match r.unregister with
    | .take => r.stored = []
    | .remove names => r.stored.all (fun n => n ∉ names)
    | _ => true

section Alone

-- Run without interruption, the steps of either side compute the whole call.
def Alone (clientId : String) (oldTx newTx : Channel) (a : Actor) (r r' : Race) : Prop :=
  ∃ k, Machine.run (step clientId oldTx newTx) r (List.replicate k a) = some r'

variable {clientId : String} {oldTx newTx : Channel} {a : Actor} {r t r' : Race}

theorem Alone.refl (r : Race) : Alone clientId oldTx newTx a r r := ⟨0, rfl⟩

theorem Alone.head (hs : r.step clientId oldTx newTx a = some t)
    (h : Alone clientId oldTx newTx a t r') : Alone clientId oldTx newTx a r r' := by
  obtain ⟨k, hk⟩ := h
  refine ⟨k + 1, ?_⟩
  rw [List.replicate_succ, Machine.run, hs]
  exact hk

theorem Alone.trans (h : Alone clientId oldTx newTx a r t)
    (h' : Alone clientId oldTx newTx a t r') : Alone clientId oldTx newTx a r r' := by
  obtain ⟨k, hk⟩ := h
  obtain ⟨k', hk'⟩ := h'
  refine ⟨k + k', ?_⟩
  rw [← List.replicate_append_replicate, Machine.run_append, hk]
  exact hk'

theorem registerService_alone (s : SharedServiceState) (svc : Service) (rest : List Service)
    (assigned : List Service) (u : UnregisterPc) :
    Alone clientId oldTx newTx .registering ⟨s, .next (svc :: rest), assigned, u⟩
      ⟨(s.registerService clientId newTx svc).1, .next rest,
        assigned ++ (s.registerService clientId newTx svc).2.toList, u⟩ := by
  unfold SharedServiceState.registerService
  split
  · next hdis =>
    refine Alone.head (by simp [step, registerStep, hdis]; rfl) ?_
    simpa using Alone.refl _
  · next hen =>
    dsimp only
    split
    · next hother =>
      refine Alone.head (by simp only [step, registerStep, if_neg hen, if_pos hother]; rfl) ?_
      simpa using Alone.refl _
    · next hmine =>
      refine Alone.head (by simp only [step, registerStep, if_neg hen, if_neg hmine]; rfl) ?_
      cases ha : s.assignPort (s.servicesByName.lookup svc.name) svc with
      | mk t svc' =>
        cases svc' with
        | none =>
          refine Alone.head (by simp only [step, registerStep, ha]; rfl) ?_
          simpa using Alone.refl _
        | some svc' =>
          refine Alone.head (by simp only [step, registerStep, ha]; rfl) ?_
          refine Alone.head rfl (Alone.head rfl (Alone.head rfl ?_))
          refine Alone.head rfl (Alone.head rfl ?_)
          dsimp only
          rw [SharedServiceState.replacePrevious_steps, SharedServiceState.storeEntry_steps]
          exact Alone.refl _

theorem registerAll_alone (s : SharedServiceState) (services assigned : List Service)
    (u : UnregisterPc) :
    Alone clientId oldTx newTx .registering ⟨s, .next services, assigned, u⟩
      ⟨(s.registerAll clientId newTx services).1, .done,
        assigned ++ (s.registerAll clientId newTx services).2, u⟩ := by
  induction services generalizing s assigned with
  | nil =>
    refine Alone.head rfl ?_
    simpa [SharedServiceState.registerAll] using Alone.refl _
  | cons svc services ih =>
    refine (registerService_alone s svc services assigned u).trans ?_
    have htail := ih (s.registerService clientId newTx svc).1
      (assigned ++ (s.registerService clientId newTx svc).2.toList)
    rw [List.append_assoc] at htail
    exact htail

theorem registerServices_alone (s : SharedServiceState) (services : List Service) :
    Alone clientId oldTx newTx .registering (start s services)
      ⟨(s.registerServices clientId newTx services).1, .done,
        (s.registerServices clientId newTx services).2, .precheck⟩ :=
  Alone.head rfl (Alone.head rfl (registerAll_alone _ services [] .precheck))

theorem stopListeners_alone (s : SharedServiceState) (pc : RegisterPc) (assigned : List Service)
    (listeners : List (UInt16 × String)) :
    Alone clientId oldTx newTx .unregistering ⟨s, pc, assigned, .stop listeners⟩
      ⟨listeners.foldl (fun s l => s.stopListener l.1 l.2) s, pc, assigned, .done⟩ := by
  induction listeners generalizing s with
  | nil => exact Alone.head rfl (Alone.refl _)
  | cons l listeners ih => exact Alone.head rfl (ih (s.stopListener l.1 l.2))

theorem removeClientServices_alone (s : SharedServiceState) (pc : RegisterPc)
    (assigned : List Service) (hpc : pc.holdsClientServices = false) :
    Alone clientId oldTx newTx .unregistering ⟨s, pc, assigned, .take⟩
      ⟨s.removeClientServices clientId, pc, assigned, .done⟩ := by
  refine Alone.head (by simp only [step, unregisterStep, hpc, Bool.false_eq_true, if_false]; rfl)
    (Alone.head rfl ?_)
  exact stopListeners_alone _ pc assigned _

theorem unregisterClient_alone (s : SharedServiceState) (pc : RegisterPc)
    (assigned : List Service) (hpc : pc.holdsClientServices = false)
    (hcur : s.isCurrentControl clientId oldTx = true) :
    Alone clientId oldTx newTx .unregistering ⟨s, pc, assigned, .check⟩
      ⟨s.unregisterClient clientId, pc, assigned, .done⟩ := by
  refine Alone.head (by simp only [step, unregisterStep, if_pos hcur]; rfl) ?_
  exact removeClientServices_alone _ pc assigned hpc

theorem unregisterClientIfCurrent_alone (s : SharedServiceState) (pc : RegisterPc)
    (assigned : List Service) (hpc : pc.holdsClientServices = false) :
    Alone clientId oldTx newTx .unregistering ⟨s, pc, assigned, .precheck⟩
      ⟨(s.unregisterClientIfCurrent clientId oldTx).1, pc, assigned, .done⟩ := by
  unfold SharedServiceState.unregisterClientIfCurrent
  split
  · next hcur =>
    refine Alone.head (by simp only [step, unregisterStep, if_pos hcur]; rfl) ?_
    exact unregisterClient_alone s pc assigned hpc hcur
  · next hcur =>
    refine Alone.head (by simp only [step, unregisterStep, if_neg hcur]; rfl) ?_
    exact Alone.refl _

theorem unregisterStep_frame (h : r.unregisterStep clientId oldTx = some r') :
    r'.register = r.register ∧ r'.assigned = r.assigned := by
  unfold unregisterStep at h
  split at h
  · cases h
    exact ⟨rfl, rfl⟩
  · split at h
    · cases h
      exact ⟨rfl, rfl⟩
    · cases h
      exact ⟨rfl, rfl⟩
  · split at h
    · cases h
    · cases h
      exact ⟨rfl, rfl⟩
  · cases h
    exact ⟨rfl, rfl⟩
  · cases h
    exact ⟨rfl, rfl⟩
  · cases h
    exact ⟨rfl, rfl⟩
  · cases h

end Alone

structure NewerStored (clientId : String) (newTx : Channel) (r : Race) : Prop where
  bound : ∀ n ∈ r.stored, ∃ entry, r.registry.servicesByName.lookup n = some entry ∧
    entry.clientId = clientId ∧ entry.controlTx = newTx
  listed : ∀ svc ∈ r.assigned, svc.name ∈ r.registry.namesOf clientId

variable {clientId : String} {oldTx newTx : Channel} {r r' : Race}

theorem NewerStored.of_frame (h : NewerStored clientId newTx r)
    (hf : SharedServiceState.Frame r.registry r'.registry) (ha : r'.assigned = r.assigned)
    (hs : r'.stored = r.stored) : NewerStored clientId newTx r' where
  bound n hn := by
    rw [hf.byName]
    exact h.bound n (hs ▸ hn)
  listed svc hsvc := by
    rw [SharedServiceState.namesOf, hf.clients]
    exact h.listed svc (ha ▸ hsvc)

theorem releasePrevious_frame (s : SharedServiceState) (existing : Option ServiceEntry)
    (svc : Service) : SharedServiceState.Frame s (s.releasePrevious existing svc) := by
  unfold SharedServiceState.releasePrevious
  split
  · split
    · exact SharedServiceState.releasePort_frame s _ _
    · exact .refl s
  · exact .refl s

theorem stopPrevious_frame (s : SharedServiceState) (existing : Option ServiceEntry)
    (svc : Service) : SharedServiceState.Frame s (s.stopPrevious existing svc) := by
  unfold SharedServiceState.stopPrevious
  split
  · split
    · exact (SharedServiceState.stopListener_frame s _ _).1
    · exact .refl s
  · exact .refl s

theorem leavePrevious_frame (s : SharedServiceState) (existing : Option ServiceEntry)
    (svc : Service) : SharedServiceState.Frame s (s.leavePrevious existing svc) := by
  unfold SharedServiceState.leavePrevious
  split
  · exact (SharedServiceState.leaveGroup_frame s _ _).1
  · exact .refl s

theorem mem_listName (s : SharedServiceState) (c n m : String) :
    m ∈ (s.listName c n).namesOf c ↔ m ∈ s.namesOf c ∨ m = n := by
  unfold SharedServiceState.listName
  dsimp only
  split
  · next hn => exact ⟨Or.inl, fun h => h.elim id (fun h => h ▸ hn)⟩
  · simp [SharedServiceState.namesOf]

theorem joinGroup_tables (s : SharedServiceState) (entry : ServiceEntry) :
    (s.joinGroup entry).servicesByName = s.servicesByName ∧
      (s.joinGroup entry).clientServices = s.clientServices := by
  unfold SharedServiceState.joinGroup
  split <;> exact ⟨rfl, rfl⟩

theorem listName_byName (s : SharedServiceState) (c n : String) :
    (s.listName c n).servicesByName = s.servicesByName := by
  unfold SharedServiceState.listName
  dsimp only
  split <;> rfl

theorem NewerStored.lock {services : List Service} (h : NewerStored clientId newTx r)
    (hr : r.register = .lock services) :
    NewerStored clientId newTx { r with
      registry := { r.registry with
        clientServices := r.registry.clientServices.orInsert clientId [] }
      register := .next services } where
  bound := by simpa [stored, hr] using h.bound
  listed svc hsvc := by
    have hold := h.listed svc hsvc
    simp only [SharedServiceState.namesOf, AList.lookup_orInsert, if_true] at hold ⊢
    cases hl : r.registry.clientServices.lookup clientId with
    | none =>
      rw [hl] at hold
      cases hold
    | some names =>
      rw [hl] at hold
      exact hold

theorem NewerStored.store {svc : Service} {rest : List Service}
    (h : NewerStored clientId newTx r) (hr : r.register = .store svc rest) :
    NewerStored clientId newTx { r with
      registry := r.registry.storeName ⟨svc, clientId, newTx⟩, register := .join svc rest } where
  bound n hn := by
    simp only [SharedServiceState.storeName, AList.lookup_insert_eq]
    split
    · exact ⟨_, rfl, rfl, rfl⟩
    · next hne =>
      have hold : n ∈ r.stored := by
        simp only [stored, hr, List.append_nil, List.mem_append, List.mem_singleton] at hn ⊢
        exact hn.resolve_right hne
      exact h.bound n hold
  listed := h.listed

theorem NewerStored.join {svc : Service} {rest : List Service}
    (h : NewerStored clientId newTx r) (hr : r.register = .join svc rest) :
    NewerStored clientId newTx { r with
      registry := (r.registry.joinGroup ⟨svc, clientId, newTx⟩).listName clientId svc.name
      register := .next rest
      assigned := r.assigned ++ [svc] } where
  bound n hn := by
    simp only [listName_byName, (joinGroup_tables _ _).1]
    refine h.bound n ?_
    simpa [stored, hr] using hn
  listed svc' hs := by
    refine (mem_listName _ _ _ _).mpr ?_
    rw [SharedServiceState.namesOf, (joinGroup_tables _ _).2]
    rcases List.mem_append.mp hs with hs | hs
    · exact Or.inl (h.listed svc' hs)
    · exact Or.inr (by rw [List.mem_singleton.mp hs])

theorem NewerStored.registerStep (h : NewerStored clientId newTx r)
    (hs : r.registerStep clientId newTx = some r') : NewerStored clientId newTx r' := by
  unfold Race.registerStep at hs
  cases hr : r.register with
  | attach services =>
    rw [hr] at hs
    cases hs
    exact ⟨by simpa [stored, hr] using h.bound, h.listed⟩
  | lock services =>
    rw [hr] at hs
    cases hs
    exact h.lock hr
  | next services =>
    rw [hr] at hs
    cases services with
    | nil =>
      cases hs
      exact h.of_frame (.refl _) rfl (by simp [stored, hr])
    | cons svc rest =>
      dsimp only at hs
      split at hs
      · cases hs
        exact h.of_frame (.refl _) rfl (by simp [stored, hr])
      · split at hs
        · cases hs
          exact h.of_frame (.refl _) rfl (by simp [stored, hr])
        · cases hs
          exact h.of_frame (.refl _) rfl (by simp [stored, hr])
  | assign svc existing rest =>
    rw [hr] at hs
    have hf := (SharedServiceState.assignPort_cases r.registry existing svc).frame
    dsimp only at hs
    cases ha : r.registry.assignPort existing svc with
    | mk t svc' =>
      rw [ha] at hs hf
      cases svc' with
      | none =>
        cases hs
        exact h.of_frame hf rfl (by simp [stored, hr])
      | some svc' =>
        cases hs
        exact h.of_frame hf rfl (by simp [stored, hr])
  | release svc existing rest =>
    rw [hr] at hs
    cases hs
    exact h.of_frame (releasePrevious_frame _ _ _) rfl (by simp [stored, hr])
  | stop svc existing rest =>
    rw [hr] at hs
    cases hs
    exact h.of_frame (stopPrevious_frame _ _ _) rfl (by simp [stored, hr])
  | leave svc existing rest =>
    rw [hr] at hs
    cases hs
    exact h.of_frame (leavePrevious_frame _ _ _) rfl (by simp [stored, hr])
  | store svc rest =>
    rw [hr] at hs
    cases hs
    exact h.store hr
  | join svc rest =>
    rw [hr] at hs
    cases hs
    exact h.join hr
  | done =>
    rw [hr] at hs
    cases hs

theorem NewerStored.unregisterStep (h : NewerStored clientId newTx r)
    (hspare : r.sparesNewer .unregistering = true)
    (hs : r.unregisterStep clientId oldTx = some r') : NewerStored clientId newTx r' := by
  unfold Race.unregisterStep at hs
  cases hu : r.unregister with
  | precheck =>
    rw [hu] at hs
    cases hs
    exact h.of_frame (.refl _) rfl rfl
  | check =>
    rw [hu] at hs
    dsimp only at hs
    split at hs
    · cases hs
      exact ⟨h.bound, h.listed⟩
    · cases hs
      exact h.of_frame (.refl _) rfl rfl
  | take =>
    rw [hu] at hs
    dsimp only at hs
    have hnone : r.stored = [] := by simpa [sparesNewer, hu] using hspare
    split at hs
    · cases hs
    · cases hs
      refine ⟨h.bound, fun svc hsvc => ?_⟩
      have hmem : svc.name ∈ r.stored :=
        List.mem_append_left _ (List.mem_map_of_mem hsvc)
      rw [hnone] at hmem
      cases hmem
  | remove names =>
    rw [hu] at hs
    cases hs
    have hr := SharedServiceState.removeAll_removal r.registry names
    have hspare : ∀ n ∈ r.stored, n ∉ names := by simpa [sparesNewer, hu] using hspare
    refine ⟨fun n hn => ?_, fun svc hsvc => ?_⟩
    · dsimp only
      rw [hr.byName, if_neg (hspare n hn)]
      exact h.bound n hn
    · rw [SharedServiceState.namesOf, hr.clients]
      exact h.listed svc hsvc
  | stop listeners =>
    rw [hu] at hs
    cases listeners with
    | nil =>
      cases hs
      exact h.of_frame (.refl _) rfl rfl
    | cons l listeners =>
      cases hs
      exact h.of_frame (SharedServiceState.stopListener_frame _ _ _).1 rfl rfl
  | done =>
    rw [hu] at hs
    cases hs

theorem stale_session_spares_newer (s : SharedServiceState) (clientId : String)
    (oldTx newTx : Channel) (services : List Service) (schedule : List Actor) (r : Race)
    (hrun : Machine.run (step clientId oldTx newTx) (start s services) schedule = some r)
    (hspare : Machine.Along (step clientId oldTx newTx) (fun r a => r.sparesNewer a = true)
      (start s services) schedule) : NewerKept clientId newTx r := by
  have hstart : NewerStored clientId newTx (start s services) := by
    refine ⟨?_, ?_⟩
    · intro n hn
      cases hn
    · intro svc hsvc
      cases hsvc
  have h : NewerStored clientId newTx r := by
    refine Machine.run_invariant_along ?_ hstart hspare hrun
    intro r a r' h hc hs
    cases a with
    | registering => exact h.registerStep hs
    | unregistering => exact h.unregisterStep hc hs
  refine fun svc hsvc => ⟨h.bound svc.name ?_, h.listed svc hsvc⟩
  exact List.mem_append_left _ (List.mem_map_of_mem hsvc)

def webSession : SharedServiceState :=
  ((SharedServiceState.new 60080 60090).registerServices "alice" 0
    [{ name := "web", remotePort := 60080 }]).1

def removalFirst : List Actor :=
  ([.unregistering, .unregistering, .registering, .unregistering, .registering,
      .unregistering] : List Actor) ++
    List.replicate 8 Actor.registering ++ List.replicate 2 Actor.unregistering

theorem removal_before_store_spares_newer :
    ∃ r, Machine.run (step "alice" 0 1) (start webSession [{ name := "web", remotePort := 60080 }])
        removalFirst = some r ∧ r.Finished ∧ r.assigned.map Service.name = ["web"] ∧
      NewerKept "alice" 1 r := by
  have hrun : (Machine.run (step "alice" 0 1)
      (start webSession [{ name := "web", remotePort := 60080 }]) removalFirst).map (fun r =>
        (r.register, r.unregister, r.assigned.map Service.name)) =
      some (.done, .done, ["web"]) := by decide +kernel
  obtain ⟨r, hr, hlook⟩ := Option.map_eq_some_iff.mp hrun
  simp only [Prod.mk.injEq] at hlook
  obtain ⟨hreg, hunreg, hassigned⟩ := hlook
  exact ⟨r, hr, ⟨hreg, hunreg⟩, hassigned,
    stale_session_spares_newer webSession "alice" 0 1 _ removalFirst r hr (by decide +kernel)⟩

-- The old session passes its currency check before the new one attaches, and removes what the new
-- one has registered meanwhile.
def removalLast : List Actor :=
  List.replicate 2 Actor.unregistering ++ List.replicate 10 Actor.registering ++
    List.replicate 4 Actor.unregistering

theorem stale_session_removes_newer :
    ∃ r, Machine.run (step "alice" 0 1) (start webSession [{ name := "web", remotePort := 60080 }])
        removalLast = some r ∧ r.Finished ∧ r.assigned.map Service.name = ["web"] ∧
      r.registry.clientControlTx.lookup "alice" = some 1 ∧
      r.registry.servicesByName.lookup "web" = none ∧ ¬NewerKept "alice" 1 r := by
  have hrun : (Machine.run (step "alice" 0 1)
      (start webSession [{ name := "web", remotePort := 60080 }]) removalLast).map (fun r =>
        (r.register, r.unregister, r.assigned.map Service.name,
          r.registry.clientControlTx.lookup "alice",
          (r.registry.servicesByName.lookup "web").isNone)) =
      some (.done, .done, ["web"], some 1, true) := by decide +kernel
  obtain ⟨r, hr, hlook⟩ := Option.map_eq_some_iff.mp hrun
  simp only [Prod.mk.injEq] at hlook
  obtain ⟨hreg, hunreg, hassigned, hcur, hgone⟩ := hlook
  rw [Option.isNone_iff_eq_none] at hgone
  refine ⟨r, hr, ⟨hreg, hunreg⟩, hassigned, hcur, hgone, fun h => ?_⟩
  have hweb : "web" ∈ r.assigned.map Service.name := by simp [hassigned]
  obtain ⟨svc, hsvc, hname⟩ := List.mem_map.mp hweb
  obtain ⟨⟨entry, he, -⟩, -⟩ := h svc hsvc
  rw [hname, hgone] at he
  cases he

end Race

end Cross233.Server
