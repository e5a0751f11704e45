import Cross233.Server.ExclusivePorts

namespace Cross233.Server.SharedServiceState

open Protocol

variable {s s' : SharedServiceState}

def groupOf (s : SharedServiceState) (g : String) : List ServiceEntry :=
  (s.servicesByGroup.lookup g).getD []

theorem mem_groupOf_iff (s : SharedServiceState) (entry : ServiceEntry) :
    s.InGroup entry ↔ ∃ g, entry ∈ s.groupOf g := by
  constructor
  · rintro ⟨g, entries, hg, he⟩
    exact ⟨g, by rwa [groupOf, hg]⟩
  · rintro ⟨g, he⟩
    cases hg : s.servicesByGroup.lookup g with
    | none =>
      rw [groupOf, hg] at he
      cases he
    | some entries =>
      rw [groupOf, hg] at he
      exact ⟨g, entries, hg, he⟩

theorem leaveGroup_groupOf (s : SharedServiceState) (group : Option String) (name g : String) :
    (s.leaveGroup group name).groupOf g =
      if group = some g then (s.groupOf g).filter (fun entry => entry.config.name ≠ name)
      else s.groupOf g := by
  cases group with
  | none => rfl
  | some g' =>
    cases hl : s.servicesByGroup.lookup g' with
    | none =>
      have hsame : s.leaveGroup (some g') name = s := by simp only [leaveGroup, hl]
      rw [hsame]
      split
      · next hg =>
        cases hg
        rw [groupOf, hl]
        rfl
      · rfl
    | some entries =>
      simp only [leaveGroup, hl, groupOf]
      by_cases hg : g = g'
      · subst hg
        rw [if_pos rfl, hl]
        split
        · next hnil =>
          rw [AList.lookup_erase]
          exact hnil.symm
        · rw [AList.lookup_insert]
          rfl
      · rw [if_neg (fun h => hg (Option.some.inj h).symm)]
        split
        · rw [AList.lookup_erase_ne hg]
        · rw [AList.lookup_insert_ne hg]

theorem leaveGroup_listeners (s : SharedServiceState) (group : Option String) (name : String) :
    (s.leaveGroup group name).activeListeners = s.activeListeners ∧
      (s.leaveGroup group name).clientControlTx = s.clientControlTx := by
  unfold leaveGroup
  split
  · exact ⟨rfl, rfl⟩
  · split <;> exact ⟨rfl, rfl⟩

theorem releasePort_tables (s : SharedServiceState) (port : UInt16) (name : String) :
    (s.releasePort port name).servicesByGroup = s.servicesByGroup ∧
      (s.releasePort port name).activeListeners = s.activeListeners := by
  unfold releasePort
  split <;> exact ⟨rfl, rfl⟩

theorem stopListener_groups (s : SharedServiceState) (port : UInt16) (name : String) :
    (s.stopListener port name).servicesByGroup = s.servicesByGroup := by
  unfold stopListener
  split
  · split <;> rfl
  · rfl

theorem stopListener_lookup (s : SharedServiceState) (port q : UInt16) (name : String) :
    (s.stopListener port name).activeListeners.lookup q =
      if q = port ∧ s.activeListeners.lookup port = some name then none
      else s.activeListeners.lookup q := by
  unfold stopListener
  cases hl : s.activeListeners.lookup port with
  | none => simp
  | some owner =>
    by_cases ho : owner = name
    · subst ho
      simp [AList.lookup_erase_eq]
    · simp [ho]

theorem storeEntry_groupOf (s : SharedServiceState) (entry : ServiceEntry) (g : String) :
    (s.storeEntry entry).groupOf g =
      if entry.config.group = some g then s.groupOf g ++ [entry] else s.groupOf g := by
  cases hg : entry.config.group with
  | none => simp [groupOf, storeEntry, hg]
  | some g' =>
    simp only [groupOf, storeEntry, hg, AList.lookup_insert_eq, Option.some.injEq]
    by_cases h : g = g'
    · subst h
      simp
    · simp [h, Ne.symm h]

theorem Assignment.tables {existing : Option ServiceEntry} {svc : Service} {r : Option Service}
    (h : Assignment s existing svc s' r) :
    s'.servicesByGroup = s.servicesByGroup ∧ s'.activeListeners = s.activeListeners := by
  cases h with
  | rejected | reused | allocated | explicit | indirect => exact ⟨rfl, rfl⟩

-- A replaced entry gives up its port and its listener only when it moves to another port.
def moves (previous : ServiceEntry) (svc : Service) : Bool :=
  usesDirectPublicPort previous.config && previous.config.remotePort ≠ svc.remotePort

def vacate (s : SharedServiceState) (previous : ServiceEntry) (svc : Service) :
    SharedServiceState :=
  if moves previous svc then
    let s := s.releasePort previous.config.remotePort svc.name
    if isTcpListener previous.config then s.stopListener previous.config.remotePort svc.name else s
  else s

theorem replacePrevious_some (s : SharedServiceState) (previous : ServiceEntry) (svc : Service) :
    s.replacePrevious (some previous) svc =
      (s.vacate previous svc).leaveGroup previous.config.group svc.name := rfl

theorem vacate_groups (s : SharedServiceState) (previous : ServiceEntry) (svc : Service) :
    (s.vacate previous svc).servicesByGroup = s.servicesByGroup := by
  unfold vacate
  split
  · dsimp only
    split
    · rw [stopListener_groups, (releasePort_tables _ _ _).1]
    · rw [(releasePort_tables _ _ _).1]
  · rfl

theorem vacate_listeners (s : SharedServiceState) (previous : ServiceEntry) (svc : Service)
    (port : UInt16) :
    (s.vacate previous svc).activeListeners.lookup port =
      if moves previous svc ∧ isTcpListener previous.config ∧ port = previous.config.remotePort ∧
          s.activeListeners.lookup port = some svc.name then none
      else s.activeListeners.lookup port := by
  unfold vacate
  cases hm : moves previous svc with
  | false => simp
  | true =>
    cases ht : isTcpListener previous.config with
    | false => simp [(releasePort_tables _ _ _).2]
    | true =>
      simp only [if_true, stopListener_lookup, (releasePort_tables _ _ _).2, true_and]
      by_cases hp : port = previous.config.remotePort
      · rw [hp]
      · simp [hp]

theorem vacate_ports (s : SharedServiceState) (previous : ServiceEntry) (svc : Service)
    (port : UInt16) :
    (s.vacate previous svc).allocatedPorts.lookup port =
      if moves previous svc ∧ port = previous.config.remotePort ∧
          s.allocatedPorts.lookup port = some svc.name then none
      else s.allocatedPorts.lookup port := by
  unfold vacate
  cases hm : moves previous svc with
  | false => simp
  | true =>
    have hports : (if isTcpListener previous.config = true then
        (s.releasePort previous.config.remotePort svc.name).stopListener
          previous.config.remotePort svc.name
        else s.releasePort previous.config.remotePort svc.name).allocatedPorts =
        (s.releasePort previous.config.remotePort svc.name).allocatedPorts := by
      split
      · exact (stopListener_frame _ _ _).2
      · rfl
    simp only [if_true, hports, releasePort_lookup, true_and]
    by_cases hp : port = previous.config.remotePort
    · rw [hp]
    · simp [hp]

theorem replacePrevious_groupOf (s : SharedServiceState) (existing : Option ServiceEntry)
    (svc : Service) (g : String) :
    (s.replacePrevious existing svc).groupOf g =
      if existing.any (fun previous => previous.config.group = some g) then
        (s.groupOf g).filter (fun entry => entry.config.name ≠ svc.name)
      else s.groupOf g := by
  cases existing with
  | none => rfl
  | some previous =>
    rw [replacePrevious_some, leaveGroup_groupOf]
    simp only [groupOf, vacate_groups, Option.any_some, decide_eq_true_eq]

theorem replacePrevious_listeners (s : SharedServiceState) (existing : Option ServiceEntry)
    (svc : Service) (port : UInt16) :
    (s.replacePrevious existing svc).activeListeners.lookup port =
      if existing.any (fun previous => moves previous svc && isTcpListener previous.config &&
          port = previous.config.remotePort) ∧
          s.activeListeners.lookup port = some svc.name then none
      else s.activeListeners.lookup port := by
  cases existing with
  | none => simp [replacePrevious]
  | some previous =>
    rw [replacePrevious_some, (leaveGroup_listeners _ _ _).1, vacate_listeners]
    simp [and_assoc]

theorem replacePrevious_ports (s : SharedServiceState) (existing : Option ServiceEntry)
    (svc : Service) (port : UInt16) :
    (s.replacePrevious existing svc).allocatedPorts.lookup port =
      if existing.any (fun previous => moves previous svc && port = previous.config.remotePort) ∧
          s.allocatedPorts.lookup port = some svc.name then none
      else s.allocatedPorts.lookup port := by
  cases existing with
  | none => simp [replacePrevious]
  | some previous =>
    rw [replacePrevious_some, (leaveGroup_frame _ _ _).2, vacate_ports]
    simp [and_assoc]

def withdrawn (s : SharedServiceState) (names : List String) (g : String)
    (entry : ServiceEntry) : Bool :=
  entry.config.name ∈ names &&
    (s.servicesByName.lookup entry.config.name).any (fun current => current.config.group = some g)

def Closes (s : SharedServiceState) (names : List String) (port : UInt16) (owner : String) :
    Prop :=
  ∃ n ∈ names, ∃ entry, s.servicesByName.lookup n = some entry ∧
    entry.config.remotePort = port ∧ port ≠ 0 ∧ entry.config.isVhost = false ∧
    isTcpListener entry.config = true ∧ entry.config.name = owner

structure Withdrawal (s : SharedServiceState) (names : List String) (s' : SharedServiceState)
    (listeners : List (UInt16 × String)) : Prop where
  groups : ∀ g, s'.groupOf g = (s.groupOf g).filter (fun entry => !s.withdrawn names g entry)
  active : s'.activeListeners = s.activeListeners
  control : s'.clientControlTx = s.clientControlTx
  closes : ∀ port owner, (port, owner) ∈ listeners ↔ s.Closes names port owner

theorem Withdrawal.nil (s : SharedServiceState) : Withdrawal s [] s [] where
  groups g := by simp [withdrawn]
  active := rfl
  control := rfl
  closes port owner := by simp [Closes]

theorem withdrawn_singleton (s : SharedServiceState) (name g : String) (entry : ServiceEntry) :
    s.withdrawn [name] g entry = (decide (entry.config.name = name) &&
      (s.servicesByName.lookup name).any (fun current => current.config.group = some g)) := by
  by_cases hn : entry.config.name = name
  · subst hn
    simp [withdrawn]
  · simp [withdrawn, hn]

theorem removeService_withdrawal (s : SharedServiceState) (name : String) :
    Withdrawal s [name] (s.removeService name).1 (s.removeService name).2.toList := by
  unfold removeService
  cases hl : s.servicesByName.lookup name with
  | none =>
    refine ⟨fun g => ?_, rfl, rfl, fun port owner => ?_⟩
    · have hstay : ∀ entry ∈ s.groupOf g, (!s.withdrawn [name] g entry) = true := by
        intro entry _
        simp [withdrawn_singleton, hl]
      exact (List.filter_eq_self.mpr hstay).symm
    · simp [Closes, hl]
  | some entry =>
    refine ⟨fun g => ?_, (leaveGroup_listeners _ _ _).1, (leaveGroup_listeners _ _ _).2,
      fun port owner => ?_⟩
    · dsimp only
      rw [leaveGroup_groupOf]
      change (if entry.config.group = some g then (s.groupOf g).filter _ else s.groupOf g) = _
      split
      · next hg =>
        refine List.filter_congr (fun e _ => ?_)
        simp [withdrawn_singleton, hl, hg]
      · next hg =>
        have hstay : ∀ e ∈ s.groupOf g, (!s.withdrawn [name] g e) = true := by
          intro e _
          simp [withdrawn_singleton, hl, hg]
        exact (List.filter_eq_self.mpr hstay).symm
    · have hcloses : s.Closes [name] port owner ↔ entry.config.remotePort = port ∧ port ≠ 0 ∧
          entry.config.isVhost = false ∧ isTcpListener entry.config = true ∧
          entry.config.name = owner := by
        simp [Closes, hl]
      rw [hcloses]
      dsimp only
      split
      · next h =>
        simp only [Bool.and_eq_true, decide_eq_true_eq, Bool.not_eq_true'] at h
        obtain ⟨⟨h0, hv⟩, ht⟩ := h
        simp only [Option.toList_some, List.mem_singleton, Prod.mk.injEq]
        constructor
        · rintro ⟨rfl, rfl⟩
          exact ⟨rfl, h0, hv, ht, rfl⟩
        · rintro ⟨rfl, -, -, -, rfl⟩
          exact ⟨rfl, rfl⟩
      · next h =>
        simp only [Option.toList_none, List.not_mem_nil, false_iff]
        rintro ⟨rfl, h0, hv, ht, -⟩
        exact h (by simp [h0, hv, ht])

theorem Withdrawal.cons {t u : SharedServiceState} {name : String} {names : List String}
    {l l' : List (UInt16 × String)} (h : Withdrawal s [name] t l) (hr : Removal s [name] t)
    (h' : Withdrawal t names u l') : Withdrawal s (name :: names) u (l ++ l') := by
  have hlook (n : String) : t.servicesByName.lookup n =
      if n = name then none else s.servicesByName.lookup n := by
    rw [hr.byName]
    simp
  refine ⟨fun g => ?_, h'.active.trans h.active, h'.control.trans h.control,
    fun port owner => ?_⟩
  · rw [h'.groups, h.groups, List.filter_filter]
    refine List.filter_congr (fun e _ => ?_)
    by_cases hn : e.config.name = name
    · simp [withdrawn, hn, hlook]
    · simp [withdrawn, hn, hlook]
  · rw [List.mem_append, h.closes, h'.closes]
    constructor
    · rintro (⟨n, hn, entry, he, hp⟩ | ⟨n, hn, entry, he, hp⟩)
      · exact ⟨n, by simp [List.mem_singleton.mp hn], entry, he, hp⟩
      · rw [hlook] at he
        split at he
        · cases he
        · exact ⟨n, List.mem_cons_of_mem _ hn, entry, he, hp⟩
    · rintro ⟨n, hn, entry, he, hp⟩
      by_cases hnn : n = name
      · exact Or.inl ⟨n, by simp [hnn], entry, he, hp⟩
      · refine Or.inr ⟨n, (List.mem_cons.mp hn).resolve_left hnn, entry, ?_, hp⟩
        rw [hlook, if_neg hnn, he]

theorem removeAll_withdrawal (s : SharedServiceState) (names : List String) :
    Withdrawal s names (s.removeAll names).1 (s.removeAll names).2 := by
  induction names generalizing s with
  | nil => exact Withdrawal.nil s
  | cons name names ih =>
    exact (removeService_withdrawal s name).cons (removeService_removal s name)
      (ih (s.removeService name).1)

theorem stopListeners_lookup (s : SharedServiceState) (listeners : List (UInt16 × String))
    (port : UInt16) (owner : String) :
    (listeners.foldl (fun s l => s.stopListener l.1 l.2) s).activeListeners.lookup port =
        some owner ↔
      s.activeListeners.lookup port = some owner ∧ (port, owner) ∉ listeners := by
  induction listeners generalizing s with
  | nil => simp
  | cons l listeners ih =>
    rw [List.foldl_cons, ih, stopListener_lookup, List.mem_cons, not_or]
    obtain ⟨p, n⟩ := l
    split
    · next h =>
      obtain ⟨rfl, hl⟩ := h
      simp only [hl, Option.some.injEq, Prod.mk.injEq, true_and, reduceCtorEq, false_and, false_iff]
      rintro ⟨rfl, hne, -⟩
      exact hne rfl
    · next h =>
      constructor
      · rintro ⟨hl, hm⟩
        refine ⟨hl, fun he => ?_, hm⟩
        cases he
        exact h ⟨rfl, hl⟩
      · rintro ⟨hl, -, hm⟩
        exact ⟨hl, hm⟩

theorem stopListeners_groups (s : SharedServiceState) (listeners : List (UInt16 × String)) :
    (listeners.foldl (fun s l => s.stopListener l.1 l.2) s).servicesByGroup =
      s.servicesByGroup := by
  induction listeners generalizing s with
  | nil => rfl
  | cons l listeners ih =>
    rw [List.foldl_cons, ih, stopListener_groups]

theorem unregisterClient_groupOf (s : SharedServiceState) (clientId g : String) :
    (s.unregisterClient clientId).groupOf g =
      (s.groupOf g).filter (fun entry => !s.withdrawn (s.namesOf clientId) g entry) := by
  have hw := removeAll_withdrawal (s.forget clientId) (s.namesOf clientId)
  have hstop : (s.unregisterClient clientId).servicesByGroup =
      ((s.forget clientId).removeAll (s.namesOf clientId)).1.servicesByGroup :=
    stopListeners_groups _ _
  rw [groupOf, hstop]
  exact hw.groups g

theorem unregisterClient_listeners (s : SharedServiceState) (clientId : String) (port : UInt16)
    (owner : String) :
    (s.unregisterClient clientId).activeListeners.lookup port = some owner ↔
      s.activeListeners.lookup port = some owner ∧
        ¬s.Closes (s.namesOf clientId) port owner := by
  have hw := removeAll_withdrawal (s.forget clientId) (s.namesOf clientId)
  have hstop := stopListeners_lookup ((s.forget clientId).removeAll (s.namesOf clientId)).1
    ((s.forget clientId).removeAll (s.namesOf clientId)).2 port owner
  rw [hw.active, hw.closes] at hstop
  exact hstop

theorem unregisterClient_control (s : SharedServiceState) (clientId : String) :
    (s.unregisterClient clientId).clientControlTx = s.clientControlTx.erase clientId := by
  have hw := removeAll_withdrawal (s.forget clientId) (s.namesOf clientId)
  have hf := (stopListeners_frame ((s.forget clientId).removeAll (s.namesOf clientId)).1
    ((s.forget clientId).removeAll (s.namesOf clientId)).2).1
  exact hf.control.trans hw.control

end Cross233.Server.SharedServiceState
