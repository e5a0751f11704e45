import Cross233.Server.Service

namespace Cross233.Server

open Protocol

namespace SharedServiceState

def InGroup (s : SharedServiceState) (entry : ServiceEntry) : Prop :=
  ∃ g entries, s.servicesByGroup.lookup g = some entries ∧ entry ∈ entries

structure Frame (s s' : SharedServiceState) : Prop where
  byName : s'.servicesByName = s.servicesByName
  clients : s'.clientServices = s.clientServices
  control : s'.clientControlTx = s.clientControlTx
  policy : ∀ port, s'.validateExplicitPort port = s.validateExplicitPort port
  groups : ∀ entry, s'.InGroup entry → s.InGroup entry

theorem Frame.refl (s : SharedServiceState) : Frame s s :=
  ⟨rfl, rfl, rfl, fun _ => rfl, fun _ h => h⟩

theorem Frame.trans {s t u : SharedServiceState} (h : Frame s t) (h' : Frame t u) : Frame s u where
  byName := h'.byName.trans h.byName
  clients := h'.clients.trans h.clients
  control := h'.control.trans h.control
  policy port := (h'.policy port).trans (h.policy port)
  groups entry he := h.groups entry (h'.groups entry he)

theorem allocateWithin_cases (s : SharedServiceState) (name : String) (k : Nat) :
    ∃ next, s.allocateWithin name k = ({ s with nextPort := next }, none) ∨
      ∃ port, s.validateExplicitPort port = .ok () ∧ port ∉ s.allocatedPorts ∧
        s.allocateWithin name k = ({ s with
          nextPort := next
          allocatedPorts := s.allocatedPorts.insert port name }, some port) := by
  induction k generalizing s with
  | zero => exact ⟨s.nextPort, Or.inl rfl⟩
  | succ k ih =>
    simp only [allocateWithin]
    split
    · next h => exact ⟨s.nextPort + 1, Or.inr ⟨_, h.1, h.2, rfl⟩⟩
    · exact ih { s with nextPort := s.nextPort + 1 }

inductive Assignment (s : SharedServiceState) (existing : Option ServiceEntry) (svc : Service) :
    SharedServiceState → Option Service → Prop where
  | rejected (next : UInt64) : Assignment s existing svc { s with nextPort := next } none
  | reused (entry : ServiceEntry) (he : existing = some entry)
      (hd : usesDirectPublicPort entry.config = true)
      (hok : s.validateExplicitPort entry.config.remotePort = .ok ()) :
      Assignment s existing svc
        { s with allocatedPorts := s.allocatedPorts.orInsert entry.config.remotePort svc.name }
        (some { svc with remotePort := entry.config.remotePort })
  | allocated (next : UInt64) (port : UInt16) (hok : s.validateExplicitPort port = .ok ())
      (hfree : port ∉ s.allocatedPorts) :
      Assignment s existing svc
        { s with nextPort := next, allocatedPorts := s.allocatedPorts.insert port svc.name }
        (some { svc with remotePort := port })
  | explicit (hok : s.validateExplicitPort svc.remotePort = .ok ())
      (hfree : ∀ owner, s.allocatedPorts.lookup svc.remotePort = some owner → owner = svc.name) :
      Assignment s existing svc
        { s with allocatedPorts := s.allocatedPorts.insert svc.remotePort svc.name } (some svc)
  | indirect (hd : svc.isDirect = false) : Assignment s existing svc s (some svc)

theorem assignPort_cases (s : SharedServiceState) (existing : Option ServiceEntry)
    (svc : Service) :
    Assignment s existing svc (s.assignPort existing svc).1 (s.assignPort existing svc).2 := by
  unfold assignPort
  split
  · split
    · next entry he =>
      obtain ⟨he, hr⟩ := Option.filter_eq_some_iff.mp he
      simp only [reusable, Bool.and_eq_true, decide_eq_true_eq] at hr
      exact .reused entry he hr.1 hr.2
    · obtain ⟨next, h | ⟨port, hok, hfree, h⟩⟩ :=
        allocateWithin_cases s svc.name s.rangeLen.toNat
      · simp only [allocatePort, h, Option.map_none]
        exact .rejected next
      · simp only [allocatePort, h, Option.map_some]
        exact .allocated next port hok hfree
  · next hauto =>
    split
    · split
      · exact .rejected s.nextPort
      · next hok =>
        split
        · exact .rejected s.nextPort
        · next hfree =>
          refine .explicit hok (fun owner ho => ?_)
          simpa [ho] using hfree
    · next hdirect =>
      refine .indirect ?_
      simp only [usesDirectPublicPort, Service.usesAutoPort] at hdirect hauto
      cases hd : svc.isDirect <;> simp_all

theorem Assignment.frame {s s' : SharedServiceState} {existing : Option ServiceEntry}
    {svc : Service} {r : Option Service} (h : Assignment s existing svc s' r) : Frame s s' := by
  cases h with
  | rejected | reused | allocated | explicit | indirect =>
    exact ⟨rfl, rfl, rfl, fun _ => rfl, fun _ h => h⟩

theorem Assignment.name {s s' : SharedServiceState} {existing : Option ServiceEntry}
    {svc svc' : Service} (h : Assignment s existing svc s' (some svc')) :
    svc'.name = svc.name := by
  cases h with
  | reused | allocated | explicit | indirect => rfl

theorem Assignment.valid {s s' : SharedServiceState} {existing : Option ServiceEntry}
    {svc svc' : Service} (h : Assignment s existing svc s' (some svc'))
    (hd : svc'.isDirect = true) : s.validateExplicitPort svc'.remotePort = .ok () := by
  cases h with
  | reused entry he hd hok => exact hok
  | allocated next port hok hfree => exact hok
  | explicit hok hfree => exact hok
  | indirect hi => exact absurd (hi.symm.trans hd) Bool.false_ne_true

theorem stopListener_frame (s : SharedServiceState) (port : UInt16) (name : String) :
    Frame s (s.stopListener port name) ∧
      (s.stopListener port name).allocatedPorts = s.allocatedPorts := by
  unfold stopListener
  split
  · split
    · exact ⟨⟨rfl, rfl, rfl, fun _ => rfl, fun _ h => h⟩, rfl⟩
    · exact ⟨Frame.refl s, rfl⟩
  · exact ⟨Frame.refl s, rfl⟩

theorem leaveGroup_frame (s : SharedServiceState) (group : Option String) (name : String) :
    Frame s (s.leaveGroup group name) ∧
      (s.leaveGroup group name).allocatedPorts = s.allocatedPorts := by
  unfold leaveGroup
  split
  · exact ⟨Frame.refl s, rfl⟩
  split
  · exact ⟨Frame.refl s, rfl⟩
  · next g _ entries hg =>
    refine ⟨⟨rfl, rfl, rfl, fun _ => rfl, ?_⟩, rfl⟩
    rintro entry ⟨g', entries', hg', he⟩
    by_cases hgg : g' = g
    · subst hgg
      dsimp only at hg'
      split at hg'
      · rw [AList.lookup_erase] at hg'
        cases hg'
      · rw [AList.lookup_insert] at hg'
        cases hg'
        exact ⟨g', entries, hg, (List.mem_filter.mp he).1⟩
    · refine ⟨g', entries', ?_, he⟩
      dsimp only at hg'
      split at hg'
      · rwa [AList.lookup_erase_ne hgg] at hg'
      · rwa [AList.lookup_insert_ne hgg] at hg'

theorem releasePort_frame (s : SharedServiceState) (port : UInt16) (name : String) :
    Frame s (s.releasePort port name) := by
  unfold releasePort
  split
  · exact ⟨rfl, rfl, rfl, fun _ => rfl, fun _ h => h⟩
  · exact Frame.refl s

theorem releasePort_lookup (s : SharedServiceState) (port q : UInt16) (name : String) :
    (s.releasePort port name).allocatedPorts.lookup q =
      if q = port ∧ s.allocatedPorts.lookup port = some name then none
      else s.allocatedPorts.lookup q := by
  unfold releasePort
  split
  · next h =>
    rw [AList.lookup_erase_eq]
    simp [h]
  · next h => simp [h]

theorem replacePrevious_frame (s : SharedServiceState) (existing : Option ServiceEntry)
    (svc : Service) : Frame s (s.replacePrevious existing svc) := by
  unfold replacePrevious
  split
  · exact Frame.refl s
  · dsimp only
    refine Frame.trans ?_ (leaveGroup_frame _ _ _).1
    split
    · split
      · exact (releasePort_frame s _ _).trans (stopListener_frame _ _ _).1
      · exact releasePort_frame s _ _
    · exact Frame.refl s

theorem replacePrevious_lookup (s : SharedServiceState) (existing : Option ServiceEntry)
    (svc : Service) (q : UInt16) :
    (s.replacePrevious existing svc).allocatedPorts.lookup q = s.allocatedPorts.lookup q ∨
      q ≠ svc.remotePort ∧ s.allocatedPorts.lookup q = some svc.name := by
  unfold replacePrevious
  split
  · exact Or.inl rfl
  · next previous =>
    dsimp only
    rw [(leaveGroup_frame _ _ _).2]
    split
    · next h =>
      have hrelease : (s.releasePort previous.config.remotePort svc.name).allocatedPorts.lookup q =
          s.allocatedPorts.lookup q ∨
          q ≠ svc.remotePort ∧ s.allocatedPorts.lookup q = some svc.name := by
        rw [releasePort_lookup]
        split
        · next hq =>
          rw [Bool.and_eq_true, decide_eq_true_eq] at h
          rw [hq.1]
          exact Or.inr ⟨h.2, hq.2⟩
        · exact Or.inl rfl
      split
      · rwa [(stopListener_frame _ _ _).2]
      · exact hrelease
    · exact Or.inl rfl

inductive Registration (s : SharedServiceState) (clientId : String) (controlTx : Channel)
    (svc : Service) : SharedServiceState → Option Service → Prop where
  | skipped (next : UInt64) :
      Registration s clientId controlTx svc { s with nextPort := next } none
  | stored (t : SharedServiceState) (svc' : Service)
      (howner : ∀ entry, s.servicesByName.lookup svc.name = some entry →
        entry.clientId = clientId)
      (ha : Assignment s (s.servicesByName.lookup svc.name) svc t (some svc')) :
      Registration s clientId controlTx svc
        ((t.replacePrevious (s.servicesByName.lookup svc.name) svc').storeEntry
          ⟨svc', clientId, controlTx⟩) (some svc')

theorem registerService_cases (s : SharedServiceState) (clientId : String) (controlTx : Channel)
    (svc : Service) :
    Registration s clientId controlTx svc (s.registerService clientId controlTx svc).1
      (s.registerService clientId controlTx svc).2 := by
  unfold registerService
  split
  · exact .skipped s.nextPort
  dsimp only
  split
  · exact .skipped s.nextPort
  · next hother =>
    have hassign := assignPort_cases s (s.servicesByName.lookup svc.name) svc
    generalize s.assignPort (s.servicesByName.lookup svc.name) svc = r at hassign ⊢
    obtain ⟨t, svc'⟩ := r
    cases svc' with
    | none =>
      cases hassign with
      | rejected next => exact .skipped next
    | some svc' =>
      refine .stored t svc' (fun entry he => ?_) hassign
      simpa [he] using hother

theorem storeEntry_inGroup {s : SharedServiceState} {entry e : ServiceEntry}
    (h : (s.storeEntry entry).InGroup e) : s.InGroup e ∨ e = entry := by
  obtain ⟨g, entries, hg, he⟩ := h
  simp only [storeEntry] at hg
  split at hg
  · exact Or.inl ⟨g, entries, hg, he⟩
  · next g' _ =>
    rw [AList.lookup_insert_eq] at hg
    split at hg
    · next hgg =>
      cases hg
      rcases List.mem_append.mp he with he | he
      · cases hl : s.servicesByGroup.lookup g' with
        | none => simp [hl] at he
        | some old => exact Or.inl ⟨g', old, hl, by simpa [hl] using he⟩
      · exact Or.inr (List.mem_singleton.mp he)
    · exact Or.inl ⟨g, entries, hg, he⟩

def namesOf (s : SharedServiceState) (clientId : String) : List String :=
  (s.clientServices.lookup clientId).getD []

theorem mem_storeEntry_namesOf (s : SharedServiceState) (entry : ServiceEntry) (c n : String) :
    n ∈ (s.storeEntry entry).namesOf c ↔
      n ∈ s.namesOf c ∨ c = entry.clientId ∧ n = entry.config.name := by
  by_cases hc : c = entry.clientId
  · subst hc
    by_cases hn : entry.config.name ∈ s.namesOf entry.clientId
    · have hsame : (s.storeEntry entry).namesOf entry.clientId = s.namesOf entry.clientId := by
        simp only [namesOf, storeEntry] at hn ⊢
        rw [if_pos hn]
      rw [hsame]
      exact ⟨Or.inl, fun h => h.elim id (fun h => h.2 ▸ hn)⟩
    · have hpush : (s.storeEntry entry).namesOf entry.clientId =
          s.namesOf entry.clientId ++ [entry.config.name] := by
        simp only [namesOf, storeEntry] at hn ⊢
        rw [if_neg hn, AList.lookup_insert]
        rfl
      simp [hpush]
  · have hother : (s.storeEntry entry).namesOf c = s.namesOf c := by
      simp only [namesOf, storeEntry]
      split
      · rfl
      · rw [AList.lookup_insert_ne hc]
    simp [hother, hc]

def Released (s : SharedServiceState) (names : List String) (port : UInt16) : Prop :=
  ∃ n ∈ names, ∃ entry, s.servicesByName.lookup n = some entry ∧
    entry.config.remotePort = port ∧ port ≠ 0 ∧ entry.config.isVhost = false

structure Removal (s : SharedServiceState) (names : List String) (s' : SharedServiceState) :
    Prop where
  byName : ∀ n, s'.servicesByName.lookup n =
    if n ∈ names then none else s.servicesByName.lookup n
  released : ∀ port, s.Released names port → s'.allocatedPorts.lookup port = none
  kept : ∀ port, ¬s.Released names port →
    s'.allocatedPorts.lookup port = s.allocatedPorts.lookup port
  clients : s'.clientServices = s.clientServices
  policy : ∀ port, s'.validateExplicitPort port = s.validateExplicitPort port
  groups : ∀ entry, s'.InGroup entry → s.InGroup entry

theorem Removal.nil (s : SharedServiceState) : Removal s [] s where
  byName := by simp
  released := by simp [Released]
  kept _ _ := rfl
  clients := rfl
  policy _ := rfl
  groups _ h := h

theorem Removal.frame {s t u : SharedServiceState} {names : List String} (h : Removal s names t)
    (hf : Frame t u) (hp : u.allocatedPorts = t.allocatedPorts) : Removal s names u where
  byName n := hf.byName ▸ h.byName n
  released port hr := hp ▸ h.released port hr
  kept port hr := hp ▸ h.kept port hr
  clients := hf.clients.trans h.clients
  policy port := (hf.policy port).trans (h.policy port)
  groups entry he := h.groups entry (hf.groups entry he)

theorem removeService_removal (s : SharedServiceState) (name : String) :
    Removal s [name] (s.removeService name).1 := by
  unfold removeService
  cases hl : s.servicesByName.lookup name with
  | none =>
    refine ⟨fun n => ?_, ?_, fun _ _ => rfl, rfl, fun _ => rfl, fun _ h => h⟩
    · by_cases hn : n = name
      · rw [if_pos (List.mem_singleton.mpr hn), hn]
        exact hl
      · rw [if_neg (fun h => hn (List.mem_singleton.mp h))]
    · rintro port ⟨n, hn, entry, he, -⟩
      rw [List.mem_singleton.mp hn, hl] at he
      cases he
  | some entry =>
    have hiff (port : UInt16) : s.Released [name] port ↔
        entry.config.remotePort = port ∧ port ≠ 0 ∧ entry.config.isVhost = false := by
      simp [Released, hl]
    refine Removal.frame (t := { s with
      servicesByName := s.servicesByName.erase name
      allocatedPorts := if entry.config.remotePort ≠ 0 && !entry.config.isVhost then
        s.allocatedPorts.erase entry.config.remotePort else s.allocatedPorts }) ?_
      (leaveGroup_frame _ _ _).1 (leaveGroup_frame _ _ _).2
    refine ⟨fun n => ?_, fun port hr => ?_, fun port hr => ?_, rfl, fun _ => rfl, fun _ h => h⟩
    · rw [AList.lookup_erase_eq]
      simp
    · obtain ⟨rfl, h0, hv⟩ := (hiff port).mp hr
      simp [h0, hv]
    · dsimp only
      split
      · next h =>
        refine AList.lookup_erase_ne (fun hp => hr ((hiff port).mpr ?_))
        simpa [hp] using h
      · rfl

theorem Removal.cons {s t u : SharedServiceState} {name : String} {names : List String}
    (h : Removal s [name] t) (h' : Removal t names u) : Removal s (name :: names) u := by
  have hmem (n : String) (hn : n ≠ name) :
      t.servicesByName.lookup n = s.servicesByName.lookup n := by
    rw [h.byName, if_neg (by simpa using hn)]
  have hgone : t.servicesByName.lookup name = none := by rw [h.byName, if_pos (by simp)]
  have hrel (port : UInt16) : s.Released (name :: names) port ↔
      s.Released [name] port ∨ t.Released names port := by
    constructor
    · rintro ⟨n, hn, entry, he, hp⟩
      by_cases hnn : n = name
      · exact Or.inl ⟨n, by simp [hnn], entry, he, hp⟩
      · refine Or.inr ⟨n, ?_, entry, by rw [hmem n hnn, he], hp⟩
        exact (List.mem_cons.mp hn).resolve_left hnn
    · rintro (⟨n, hn, entry, he, hp⟩ | ⟨n, hn, entry, he, hp⟩)
      · exact ⟨n, by simp [List.mem_singleton.mp hn], entry, he, hp⟩
      · refine ⟨n, List.mem_cons_of_mem _ hn, entry, ?_, hp⟩
        rwa [← hmem n]
        rintro rfl
        rw [hgone] at he
        cases he
  refine ⟨fun n => ?_, fun port hr => ?_, fun port hr => ?_, h'.clients.trans h.clients,
    fun port => (h'.policy port).trans (h.policy port),
    fun entry he => h.groups entry (h'.groups entry he)⟩
  · rw [h'.byName, h.byName]
    by_cases hn : n ∈ names <;> by_cases hnn : n = name <;> simp [hn, hnn]
  · by_cases ht : t.Released names port
    · exact h'.released port ht
    · rw [h'.kept port ht]
      exact h.released port (((hrel port).mp hr).resolve_right ht)
  · rw [hrel, not_or] at hr
    rw [h'.kept port hr.2, h.kept port hr.1]

theorem removeAll_removal (s : SharedServiceState) (names : List String) :
    Removal s names (s.removeAll names).1 := by
  induction names generalizing s with
  | nil => exact Removal.nil s
  | cons name names ih => exact (removeService_removal s name).cons (ih (s.removeService name).1)

theorem stopListeners_frame (s : SharedServiceState) (listeners : List (UInt16 × String)) :
    Frame s (listeners.foldl (fun s l => s.stopListener l.1 l.2) s) ∧
      (listeners.foldl (fun s l => s.stopListener l.1 l.2) s).allocatedPorts =
        s.allocatedPorts := by
  induction listeners generalizing s with
  | nil => exact ⟨Frame.refl s, rfl⟩
  | cons l listeners ih =>
    obtain ⟨hf, hp⟩ := stopListener_frame s l.1 l.2
    obtain ⟨hf', hp'⟩ := ih (s.stopListener l.1 l.2)
    exact ⟨hf.trans hf', hp'.trans hp⟩

def forget (s : SharedServiceState) (clientId : String) : SharedServiceState :=
  { s with
    clientControlTx := s.clientControlTx.erase clientId
    clientServices := s.clientServices.erase clientId }

theorem unregisterClient_removal (s : SharedServiceState) (clientId : String) :
    Removal (s.forget clientId) (s.namesOf clientId) (s.unregisterClient clientId) := by
  have hremove := removeAll_removal (s.forget clientId) (s.namesOf clientId)
  obtain ⟨hf, hp⟩ := stopListeners_frame ((s.forget clientId).removeAll (s.namesOf clientId)).1
    ((s.forget clientId).removeAll (s.namesOf clientId)).2
  exact hremove.frame hf hp

theorem unregisterClient_lookup (s : SharedServiceState) (clientId n : String) :
    (s.unregisterClient clientId).servicesByName.lookup n =
      if n ∈ s.namesOf clientId then none else s.servicesByName.lookup n :=
  (unregisterClient_removal s clientId).byName n

theorem unregisterClient_namesOf (s : SharedServiceState) (clientId c : String) :
    (s.unregisterClient clientId).namesOf c = if c = clientId then [] else s.namesOf c := by
  rw [namesOf, (unregisterClient_removal s clientId).clients]
  simp only [forget, AList.lookup_erase_eq, namesOf]
  split
  · rfl
  · rfl

end SharedServiceState

end Cross233.Server
