import Cross233.Server.Acceptance
import Cross233.Server.Disconnect
import Cross233.Server.ProtectedPorts

namespace Cross233.Server

open Protocol

def getServiceNameByPort (values : List ServiceEntry) (port : UInt16) : Option String :=
  (values.find? (fun entry => entry.config.remotePort = port)).map (fun entry => entry.config.name)

namespace SharedServiceState

-- The iteration order of a HashMap is any order of its values.
def IterationOrder (s : SharedServiceState) (values : List ServiceEntry) : Prop :=
  values.Perm (s.servicesByName.entries.map Sigma.snd)

def PortsLeadToOwner (s : SharedServiceState) : Prop :=
  ∀ port, s.isListenerActive port = true → ∀ values, s.IterationOrder values →
    getServiceNameByPort values port = s.allocatedPorts.lookup port

structure Unshared (s : SharedServiceState) (port : UInt16) : Prop where
  recorded : ∀ n entry, s.servicesByName.lookup n = some entry →
    entry.config.remotePort = port → s.allocatedPorts.lookup port = some entry.config.name
  registered : ∀ n, s.allocatedPorts.lookup port = some n →
    ∃ m entry, s.servicesByName.lookup m = some entry ∧ entry.config.remotePort = port

variable {s s' : SharedServiceState}

theorem mem_values_iff (s : SharedServiceState) (entry : ServiceEntry) :
    entry ∈ s.servicesByName.entries.map Sigma.snd ↔
      ∃ n, s.servicesByName.lookup n = some entry := by
  constructor
  · intro h
    obtain ⟨⟨n, e⟩, hmem, rfl⟩ := List.mem_map.mp h
    exact ⟨n, AList.lookup_of_mem_entries hmem⟩
  · rintro ⟨n, hn⟩
    exact List.mem_map.mpr ⟨⟨n, entry⟩, AList.mem_lookup_iff.mp hn, rfl⟩

theorem leads_to_owner_iff (s : SharedServiceState) (port : UInt16) :
    (∀ values, s.IterationOrder values →
      getServiceNameByPort values port = s.allocatedPorts.lookup port) ↔ s.Unshared port := by
  constructor
  · intro h
    refine ⟨fun n entry he hport => ?_, fun n hn => ?_⟩
    · -- Some order visits this entry first.
      have hmem := (mem_values_iff s entry).mpr ⟨n, he⟩
      have hfirst := h _ (List.perm_cons_erase hmem).symm
      rw [← hfirst]
      simp [getServiceNameByPort, hport]
    · have hfind := h _ (List.Perm.refl _)
      rw [hn] at hfind
      obtain ⟨entry, he, -⟩ := Option.map_eq_some_iff.mp hfind
      obtain ⟨m, hm⟩ := (mem_values_iff s entry).mp (List.mem_of_find?_eq_some he)
      exact ⟨m, entry, hm, by simpa using List.find?_some he⟩
  · intro h values horder
    unfold getServiceNameByPort
    cases hf : values.find? (fun entry => entry.config.remotePort = port) with
    | none =>
      cases hl : s.allocatedPorts.lookup port with
      | none => rfl
      | some n =>
        obtain ⟨m, entry, he, hport⟩ := h.registered n hl
        have hmem := horder.mem_iff.mpr ((mem_values_iff s entry).mpr ⟨m, he⟩)
        have := List.find?_eq_none.mp hf entry hmem
        simp [hport] at this
    | some entry =>
      obtain ⟨n, hn⟩ := (mem_values_iff s entry).mp
        (horder.mem_iff.mp (List.mem_of_find?_eq_some hf))
      have hport : entry.config.remotePort = port := by simpa using List.find?_some hf
      exact (h.recorded n entry hn hport).symm

-- The service is the only one registered with its number, and the number is recorded for it.
def holdsAlone (s : SharedServiceState) (svc : Service) : Bool :=
  s.allocatedPorts.lookup svc.remotePort = some svc.name &&
    ((s.servicesByName.lookup svc.name).any fun entry =>
      entry.config.remotePort = svc.remotePort) &&
    (s.servicesByName.entries.map Sigma.snd).all fun entry =>
      entry.config.remotePort ≠ svc.remotePort || entry.config.name = svc.name

theorem holdsAlone_unshared {svc : Service} (h : s.holdsAlone svc = true) :
    s.Unshared svc.remotePort := by
  simp only [holdsAlone, Bool.and_eq_true, List.all_eq_true, Bool.or_eq_true, decide_eq_true_eq,
    Option.any_eq_true] at h
  obtain ⟨⟨hrecorded, own, hown, hownPort⟩, halone⟩ := h
  refine ⟨fun n entry he hport => ?_, fun _ _ => ⟨svc.name, own, hown, hownPort⟩⟩
  have hname : entry.config.name = svc.name :=
    (halone entry ((mem_values_iff s entry).mpr ⟨n, he⟩)).resolve_left (not_not.mpr hport)
  rw [hrecorded, hname]

def registersUnshared (s : SharedServiceState) (clientId : String) (svc : Service) : Bool :=
  !s.accepts clientId svc ||
    ((svc.isDirect || !s.isListenerActive svc.remotePort ||
      s.allocatedPorts.lookup svc.remotePort = some svc.name) &&
    (s.servicesByName.lookup svc.name).all fun previous =>
      s.keepsPort previous svc || previous.config.isDirect ||
        !s.isListenerActive previous.config.remotePort ||
        s.allocatedPorts.lookup previous.config.remotePort ≠ some svc.name)

def registersAllUnshared (s : SharedServiceState) (clientId : String) (tx : Channel) :
    List Service → Bool
  | [] => true
  | svc :: services =>
    s.registersUnshared clientId svc &&
      (s.registerService clientId tx svc).1.registersAllUnshared clientId tx services

def leavesUnshared (s : SharedServiceState) (clientId : String) : Bool :=
  (s.namesOf clientId).all fun n => (s.servicesByName.lookup n).all fun entry =>
    !entry.config.isVhost || !s.isListenerActive entry.config.remotePort

structure Routed (s : SharedServiceState) : Prop where
  indexed : Indexed s
  nonzero : s.isListenerActive 0 = false
  unshared : ∀ port, s.isListenerActive port = true → s.Unshared port

theorem isListenerActive_iff (s : SharedServiceState) (port : UInt16) :
    s.isListenerActive port = true ↔ ∃ n, s.activeListeners.lookup port = some n := by
  simp [isListenerActive, AList.mem_iff_lookup]

theorem Routed.of_listeners (h : Routed s) (hi : Indexed s')
    (hname : s'.servicesByName = s.servicesByName) (hports : s'.allocatedPorts = s.allocatedPorts)
    (hactive : ∀ port, s'.isListenerActive port = true → s.isListenerActive port = true) :
    Routed s' := by
  refine ⟨hi, ?_, fun port hp => ?_⟩
  · rw [Bool.eq_false_iff]
    intro h0
    exact absurd (hactive 0 h0) (by simp [h.nonzero])
  · obtain ⟨hrec, hreg⟩ := h.unshared port (hactive port hp)
    exact ⟨by rw [hname, hports]; exact hrec, by rw [hname, hports]; exact hreg⟩

theorem registersUnshared_iff (clientId : String) (svc : Service) :
    s.registersUnshared clientId svc = true ↔ (s.accepts clientId svc = true →
      (svc.isDirect = false → s.isListenerActive svc.remotePort = true →
        s.allocatedPorts.lookup svc.remotePort = some svc.name) ∧
      ∀ previous, s.servicesByName.lookup svc.name = some previous →
        s.keepsPort previous svc = false → previous.config.isDirect = false →
        s.isListenerActive previous.config.remotePort = true →
        s.allocatedPorts.lookup previous.config.remotePort ≠ some svc.name) := by
  unfold registersUnshared
  cases s.accepts clientId svc with
  | false => simp
  | true =>
    cases s.servicesByName.lookup svc.name with
    | none =>
      cases svc.isDirect <;> cases s.isListenerActive svc.remotePort <;> simp
    | some previous =>
      simp only [Option.all_some, Option.some.injEq, forall_eq']
      cases svc.isDirect <;> cases s.isListenerActive svc.remotePort <;>
        cases s.keepsPort previous svc <;> cases previous.config.isDirect <;>
        cases s.isListenerActive previous.config.remotePort <;> simp

theorem Routed.assigned (h : Routed s) {svc svc' : Service}
    (hs : (s.assignPort (s.servicesByName.lookup svc.name) svc).2 = some svc')
    (hactive : s.isListenerActive svc'.remotePort = true)
    (hindirect : svc.isDirect = false → s.isListenerActive svc.remotePort = true →
      s.allocatedPorts.lookup svc.remotePort = some svc.name) :
    (s.assignPort (s.servicesByName.lookup svc.name) svc).1.allocatedPorts.lookup
      svc'.remotePort = some svc.name := by
  cases hd : svc.isDirect with
  | false =>
    rw [assignPort_indirect hd] at hs ⊢
    cases hs
    exact hindirect hd hactive
  | true =>
    have ha := assignPort_cases s (s.servicesByName.lookup svc.name) svc
    rw [hs] at ha
    generalize (s.assignPort (s.servicesByName.lookup svc.name) svc).1 = t at ha ⊢
    cases ha with
    | reused entry he hde hok =>
      have hown := (h.unshared _ hactive).recorded svc.name entry he rfl
      rw [h.indexed.named _ entry he] at hown
      dsimp only at hown ⊢
      rw [AList.lookup_orInsert, if_pos rfl, hown]
      rfl
    | allocated next port hok hfree => exact AList.lookup_insert _
    | explicit hok hfree => exact AList.lookup_insert _
    | indirect hi => exact absurd (hi.symm.trans hd) Bool.false_ne_true

theorem registerService_active {clientId : String} {tx : Channel} {svc svc' : Service}
    (hs : (s.registerService clientId tx svc).2 = some svc') {port : UInt16}
    (hp : (s.registerService clientId tx svc).1.isListenerActive port = true) :
    s.isListenerActive port = true := by
  rw [isListenerActive_iff] at hp ⊢
  obtain ⟨n, hn⟩ := hp
  exact ⟨n, (registerService_listening hs hn).1⟩

theorem Routed.ne_zero (h : Routed s) {port : UInt16} (hp : s.isListenerActive port = true) :
    port ≠ 0 := by
  rintro rfl
  rw [h.nonzero] at hp
  cases hp

-- The port of an entry leads to it after a registration: its own port, or one it had before.
theorem Routed.register_recorded (h : Routed s) {clientId : String} {tx : Channel}
    {svc svc' : Service} (hu : s.registersUnshared clientId svc = true)
    (hs : (s.registerService clientId tx svc).2 = some svc') {port : UInt16}
    (hp : s.isListenerActive port = true) {n : String} {entry : ServiceEntry}
    (he : (s.registerService clientId tx svc).1.servicesByName.lookup n = some entry)
    (hport : entry.config.remotePort = port) :
    (s.registerService clientId tx svc).1.allocatedPorts.lookup port =
      some entry.config.name := by
  have ha := (registerService_some hs).2.2.1
  rw [registerService_lookup hs] at he
  rw [registerService_ports hs]
  split at he
  · cases he
    dsimp only at hport ⊢
    subst hport
    have hindirect := ((registersUnshared_iff clientId svc).mp hu (accepts_of_registered hs)).1
    have hname : svc'.name = svc.name := by rw [assignPort_service ha]
    rw [h.assigned ha hp hindirect, hname, if_neg]
    rintro ⟨hany, -⟩
    obtain ⟨previous, -, hm⟩ := (Option.any_eq_true _ _).mp hany
    simp only [moves, Bool.and_eq_true, decide_eq_true_eq] at hm
    exact hm.1.2 hm.2.symm
  · next hne =>
    have hold := (h.unshared port hp).recorded n entry he hport
    rw [h.indexed.named n entry he] at hold ⊢
    rw [(assignPort_cases s (s.servicesByName.lookup svc.name) svc).keeps hne hold, if_neg]
    rintro ⟨-, hsame⟩
    exact hne (Option.some.inj hsame)

-- A port the previous entry of the name leaves behind is given up, so none stays without an entry.
theorem Routed.register_moved (h : Routed s) {clientId : String} {tx : Channel}
    {svc svc' : Service} (hu : s.registersUnshared clientId svc = true)
    (hs : (s.registerService clientId tx svc).2 = some svc') {port : UInt16}
    (hp : s.isListenerActive port = true) {entry : ServiceEntry}
    (he : s.servicesByName.lookup svc.name = some entry) (hport : entry.config.remotePort = port)
    (hold : s.allocatedPorts.lookup port = some svc.name)
    (hstay : (s.servicesByName.lookup svc.name).any (fun previous =>
      moves previous svc' && port = previous.config.remotePort) = false) :
    svc'.remotePort = port := by
  have ha := (registerService_some hs).2.2.1
  rw [he] at ha hstay
  by_contra hne
  have hk : s.keepsPort entry svc = false :=
    Bool.eq_false_iff.mpr fun hk => hne ((assignPort_keeps ha hk).trans hport)
  have hacc := accepts_of_registered hs
  have hleave := ((registersUnshared_iff clientId svc).mp hu hacc).2 entry he hk
  rw [hport] at hleave
  have hd : entry.config.isDirect = true := by
    by_contra hd
    exact hleave (Bool.eq_false_iff.mpr hd) hp hold
  simp [moves, usesDirectPublicPort, hd, hport, h.ne_zero hp, Ne.symm hne] at hstay

theorem Routed.register_registered (h : Routed s) {clientId : String} {tx : Channel}
    {svc svc' : Service} (hu : s.registersUnshared clientId svc = true)
    (hs : (s.registerService clientId tx svc).2 = some svc') {port : UInt16}
    (hp : s.isListenerActive port = true) {n : String}
    (hn : (s.registerService clientId tx svc).1.allocatedPorts.lookup port = some n) :
    ∃ m entry, (s.registerService clientId tx svc).1.servicesByName.lookup m = some entry ∧
      entry.config.remotePort = port := by
  have hlook := registerService_lookup hs
  obtain ⟨hstay, hold | ⟨-, hport, -⟩⟩ := registerService_records hs hn
  · obtain ⟨m, entry, hm, hport⟩ := (h.unshared port hp).registered n hold
    by_cases hmn : m = svc.name
    · subst hmn
      have hown := (h.unshared port hp).recorded svc.name entry hm hport
      rw [h.indexed.named _ entry hm, hold] at hown
      cases hown
      exact ⟨svc.name, _, (hlook _).trans (if_pos rfl),
        h.register_moved hu hs hp hm hport hold (hstay rfl)⟩
    · exact ⟨m, entry, (hlook _).trans ((if_neg hmn).trans hm), hport⟩
  · exact ⟨svc.name, _, (hlook _).trans (if_pos rfl), hport.symm⟩

theorem Routed.register (h : Routed s) (clientId : String) (tx : Channel) (svc : Service)
    (hu : s.registersUnshared clientId svc = true) :
    Routed (s.registerService clientId tx svc).1 := by
  have hi := h.indexed.registration (registerService_cases s clientId tx svc)
  cases hs : (s.registerService clientId tx svc).2 with
  | none =>
    obtain ⟨next, hnext⟩ := registerService_none hs
    rw [hnext] at hi ⊢
    exact h.of_listeners hi rfl rfl (fun _ hp => hp)
  | some svc' =>
    refine ⟨hi, Bool.eq_false_iff.mpr fun h0 => ?_, fun port hp => ?_⟩
    · exact h.ne_zero (registerService_active hs h0) rfl
    · have hp := registerService_active hs hp
      exact ⟨fun n entry he hport => h.register_recorded hu hs hp he hport,
        fun n hn => h.register_registered hu hs hp hn⟩

theorem Routed.registerAll (h : Routed s) (clientId : String) (tx : Channel)
    (services : List Service) (hu : s.registersAllUnshared clientId tx services = true) :
    Routed (s.registerAll clientId tx services).1 := by
  induction services generalizing s with
  | nil => exact h
  | cons svc services ih =>
    rw [registersAllUnshared, Bool.and_eq_true] at hu
    exact ih (h.register clientId tx svc hu.1) hu.2

theorem Routed.unregister (h : Routed s) (clientId : String)
    (hu : s.leavesUnshared clientId = true) : Routed (s.unregisterClient clientId) := by
  have hr := unregisterClient_removal s clientId
  have hactive (port : UInt16) (hp : (s.unregisterClient clientId).isListenerActive port = true) :
      s.isListenerActive port = true := by
    rw [isListenerActive_iff] at hp ⊢
    obtain ⟨n, hn⟩ := hp
    exact ⟨n, ((unregisterClient_listeners s clientId port n).mp hn).1⟩
  refine ⟨h.indexed.unregister clientId, ?_, fun port hp => ⟨fun n entry he hport => ?_,
    fun n hn => ?_⟩⟩
  · rw [Bool.eq_false_iff]
    intro h0
    exact absurd (hactive 0 h0) (by simp [h.nonzero])
  · rw [unregisterClient_lookup] at he
    split at he
    · cases he
    · next hn =>
      have hun := h.unshared port (hactive port hp)
      have hold := hun.recorded n entry he hport
      rw [hr.kept port]
      · exact hold
      · rintro ⟨m, hm, other, ho, hoport, -⟩
        have hother := hun.recorded m other ho hoport
        rw [hold, h.indexed.named n entry he, h.indexed.named m other ho] at hother
        exact hn (Option.some.inj hother ▸ hm)
  · have hrel : ¬s.Released (s.namesOf clientId) port := by
      intro hrel
      rw [hr.released port hrel] at hn
      cases hn
    rw [hr.kept port hrel] at hn
    obtain ⟨m, entry, hm, hport⟩ := (h.unshared port (hactive port hp)).registered n hn
    refine ⟨m, entry, ?_, hport⟩
    rw [unregisterClient_lookup, if_neg]
    · exact hm
    · intro hmem
      simp only [leavesUnshared, List.all_eq_true] at hu
      have hentry := hu m hmem
      simp only [hm, Option.all_some, hport, hactive port hp, Bool.not_true, Bool.or_false,
        Bool.not_eq_true'] at hentry
      refine hrel ⟨m, hmem, entry, hm, hport, ?_, hentry⟩
      rintro rfl
      exact absurd (hactive 0 hp) (by simp [h.nonzero])

end SharedServiceState

namespace ServerState

open SharedServiceState

def endsUnshared (s : ServerState) (ch : Channel) (session : Session) : Bool :=
  !s.registry.isCurrentControl session.clientId ch || s.registry.leavesUnshared session.clientId

def exposesUnshared (s : ServerState) (ch : Channel) (session : Session) (svc : Service)
    (bind : Except String Unit) : Bool :=
  match s.exposeService svc bind with
  | .ok _ => !isTcpListener svc || svc.remotePort = 0 ||
    s.registry.isListenerActive svc.remotePort || s.registry.holdsAlone svc
  | .error _ => s.endsUnshared ch session

def keepsUnshared (s : ServerState) : ServerEvent → Bool
  | .hello clientId services =>
    clientId = "" || (s.registry.attachControl clientId s.nextChannel).registersAllUnshared
      clientId s.nextChannel services
  | .expose ch bind =>
    (s.sessions.lookup ch).all fun session =>
      session.pending.head?.all fun svc => s.exposesUnshared ch session svc bind
  | .ready ch written => written || (s.sessions.lookup ch).all (s.endsUnshared ch)
  | .disconnect ch => (s.sessions.lookup ch).all (s.endsUnshared ch)
  | .kick clientId => s.registry.leavesUnshared clientId
  | .listenerEnded _ _ => true
  | .udpEnded _ => true

theorem endSession_registry (s : ServerState) (ch : Channel) (session : Session) :
    (s.endSession ch session).registry =
      if s.registry.isCurrentControl session.clientId ch then
        s.registry.unregisterClient session.clientId
      else s.registry := by
  unfold endSession cleanupRegisteredSession
  split
  · next hcur =>
    simp [stopServices_eq, unregisterClientIfCurrent, hcur]
  · rfl

theorem endSession_routed {s : ServerState} (h : Routed s.registry) (ch : Channel)
    (session : Session) (he : s.endsUnshared ch session = true) :
    Routed (s.endSession ch session).registry := by
  rw [endSession_registry]
  split
  · next hcur =>
    simp only [endsUnshared, hcur, Bool.not_true, Bool.false_or] at he
    exact h.unregister session.clientId he
  · exact h

theorem exposeService_ok (s : ServerState) (svc : Service) :
    ∃ t, s.exposeService svc (.ok ()) = .ok t := by
  have htcp : ∃ t, s.exposeTcp svc (.ok ()) = .ok t := by
    unfold exposeTcp startTcpListenerForService
    split
    · split
      · exact ⟨_, rfl⟩
      · next herr =>
        split at herr
        · cases herr
        · cases herr
    · exact ⟨s, rfl⟩
  have hudp : ∃ t, s.exposeUdp svc (.ok ()) = .ok t := by
    unfold exposeUdp startService
    split
    · split
      · exact ⟨_, rfl⟩
      · next herr =>
        split at herr
        · cases herr
        · cases herr
    · exact ⟨s, rfl⟩
  unfold exposeService
  split
  · exact htcp
  · exact htcp
  · exact htcp
  · exact hudp
  · exact ⟨s, rfl⟩

theorem exposed_routed {s t : ServerState} {svc : Service} {bind : Except String Unit}
    (h : Routed s.registry) (he : Exposed s svc bind t)
    (hu : bind = .ok () → isTcpListener svc = true → svc.remotePort ≠ 0 →
      s.registry.isListenerActive svc.remotePort = false →
        s.registry.Unshared svc.remotePort) : Routed t.registry := by
  cases he with
  | unchanged => exact h
  | udp htype hport hfree hbind => exact h
  | tcp htype hport hfree hbind =>
    have hactive (port : UInt16) (hp : (s.registry.registerListener svc.remotePort
        svc.name).isListenerActive port = true) :
        port = svc.remotePort ∨ s.registry.isListenerActive port = true := by
      simpa [isListenerActive, registerListener, AList.mem_insert] using hp
    refine ⟨h.indexed.of_eq rfl (fun _ => rfl), ?_, fun port hp => ?_⟩
    · rw [Bool.eq_false_iff]
      intro h0
      rcases hactive 0 h0 with h0 | h0
      · exact hport h0.symm
      · exact absurd h0 (by simp [h.nonzero])
    · rcases hactive port hp with rfl | hp
      · have hun := hu hbind htype hport hfree
        exact ⟨hun.recorded, hun.registered⟩
      · exact ⟨(h.unshared port hp).recorded, (h.unshared port hp).registered⟩

theorem step_routed {s s' : ServerState} {e : ServerEvent} (h : Routed s.registry)
    (hc : s.keepsUnshared e = true) (hs : s.step e = some s') : Routed s'.registry := by
  cases step_cases hs with
  | anonymous services => exact h
  | hello clientId services hne =>
    simp only [keepsUnshared, hne, decide_false, Bool.false_or] at hc
    have hattach : Routed (s.registry.attachControl clientId s.nextChannel) :=
      h.of_listeners (h.indexed.attach clientId s.nextChannel) rfl rfl (fun _ hp => hp)
    exact hattach.registerAll clientId s.nextChannel services hc
  | exposed ch bind session svc pending t hl hp he =>
    simp only [keepsUnshared, hl, hp, Option.all_some, List.head?_cons] at hc
    refine exposed_routed (t := t) h he (fun hbind htype hport hfree => holdsAlone_unshared ?_)
    subst hbind
    obtain ⟨u, hu⟩ := exposeService_ok s svc
    simpa [exposesUnshared, hu, htype, hport, hfree] using hc
  | refused ch bind session svc pending message hl hp he =>
    simp only [keepsUnshared, hl, hp, Option.all_some, List.head?_cons, exposesUnshared, he] at hc
    exact endSession_routed h ch session hc
  | announced ch session hl hp hr => exact h
  | unannounced ch session hl hp hr =>
    simp only [keepsUnshared, hl, Option.all_some, Bool.false_or] at hc
    exact endSession_routed h ch session hc
  | disconnected ch session hl hr =>
    simp only [keepsUnshared, hl, Option.all_some] at hc
    exact endSession_routed h ch session hc
  | kicked clientId => exact h.unregister clientId hc
  | listenerEnded port name =>
    dsimp only
    unfold removeListenerHandle
    split
    · refine h.of_listeners (h.indexed.of_eq rfl (fun _ => rfl)) rfl rfl (fun q hq => ?_)
      simp only [isListenerActive, AList.mem_erase, decide_eq_true_eq] at hq ⊢
      exact hq.2
    · exact h
  | udpEnded name => exact h

theorem run_routed (server : Server) : Routed server.run.registry := by
  refine ⟨(new_indexed _ _ _ _ _ _).1, ?_, ?_⟩
  · rfl
  · intro port hp
    cases hp

theorem public_ports_lead_to_owner (server : Server) (events : List ServerEvent)
    (hu : Machine.Along step (fun s e => s.keepsUnshared e = true) server.run events) :
    Machine.Always step (fun s => s.registry.PortsLeadToOwner) server.run events := by
  refine Machine.always_of_along (I := fun s => Routed s.registry) ?_ ?_ (run_routed server) hu
  · exact fun s e s' h hc hs => step_routed h hc hs
  · intro s h port hp values horder
    exact (leads_to_owner_iff s.registry port).mpr (h.unshared port hp) values horder

def webAndTrap (trapPort : UInt16) : List ServerEvent :=
  [.hello "alice" [{ name := "web", remotePort := 60080 }], .expose 0 (.ok ()), .ready 0 true,
    .hello "bob" [{ name := "trap", ty := some "stcp", remotePort := trapPort }]]

theorem web_port_leads_to_web :
    Machine.Always step (fun s => s.registry.PortsLeadToOwner) defaultServer.run
        (webAndTrap 60081) ∧
      (Machine.run step defaultServer.run (webAndTrap 60081)).map (fun s =>
        (s.registry.isListenerActive 60080, s.registry.allocatedPorts.lookup 60080)) =
      some (true, some "web") :=
  ⟨public_ports_lead_to_owner defaultServer (webAndTrap 60081) (by decide +kernel),
    by decide +kernel⟩

theorem web_port_leads_to_trap :
    ∃ s, Machine.run step defaultServer.run (webAndTrap 60080) = some s ∧
      s.registry.isListenerActive 60080 = true ∧
      s.registry.allocatedPorts.lookup 60080 = some "web" ∧
      (∃ values, s.registry.IterationOrder values ∧
        getServiceNameByPort values 60080 = some "trap") ∧
      ¬s.registry.PortsLeadToOwner := by
  have hrun : (Machine.run step defaultServer.run (webAndTrap 60080)).map (fun s =>
      (s.registry.isListenerActive 60080, s.registry.allocatedPorts.lookup 60080,
        getServiceNameByPort (s.registry.servicesByName.entries.map Sigma.snd) 60080)) =
      some (true, some "web", some "trap") := by decide +kernel
  obtain ⟨s, hs, hlook⟩ := Option.map_eq_some_iff.mp hrun
  simp only [Prod.mk.injEq] at hlook
  obtain ⟨hactive, hport, htrap⟩ := hlook
  refine ⟨s, hs, hactive, hport, ⟨_, List.Perm.refl _, htrap⟩, fun h => ?_⟩
  have := h 60080 hactive _ (List.Perm.refl _)
  rw [htrap, hport] at this
  exact absurd (Option.some.inj this) (by decide)

end ServerState

end Cross233.Server
