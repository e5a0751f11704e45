import Cross233.Server.Transition

namespace Cross233.Server

open Protocol

structure ServerConfig.Exposable (config : ServerConfig) (port : UInt16) : Prop where
  nonzero : port ≠ 0
  unprotected : port ∉ config.effectiveProtectedPorts
  notSsh : port ≠ 22
  unreserved : port ∉ config.reservedPorts
  privileged : port < 1024 → config.allowPrivilegedPorts = true

namespace SharedServiceState

def Registered (s : SharedServiceState) (entry : ServiceEntry) : Prop :=
  (∃ name, s.servicesByName.lookup name = some entry) ∨ s.InGroup entry

def Admitted (s : SharedServiceState) (svc : Service) : Prop :=
  svc.isDirect = true → s.validateExplicitPort svc.remotePort = .ok ()

def Guarded (s : SharedServiceState) : Prop :=
  ∀ entry, s.Registered entry → s.Admitted entry.config

theorem validateExplicitPort_ok {s : SharedServiceState} {port : UInt16}
    (h : s.validateExplicitPort port = .ok ()) :
    port ≠ 0 ∧ port ∉ s.protectedPorts ∧ port ∉ s.reservedPorts ∧
      (port < 1024 → s.allowPrivilegedPorts = true) := by
  unfold validateExplicitPort at h
  split at h
  · cases h
  next h0 =>
  split at h
  · cases h
  next hp =>
  split at h
  · cases h
  next hr =>
  split at h
  · cases h
  · next ha =>
    refine ⟨h0, hp, hr, fun hlt => ?_⟩
    simpa using fun hf => ha ⟨hlt, hf⟩

theorem Admitted.of_policy {s s' : SharedServiceState} {svc : Service}
    (hpolicy : ∀ port, s'.validateExplicitPort port = s.validateExplicitPort port)
    (h : s.Admitted svc) : s'.Admitted svc :=
  fun hd => (hpolicy _).trans (h hd)

theorem Guarded.of_registered {s s' : SharedServiceState} (h : Guarded s)
    (hpolicy : ∀ port, s'.validateExplicitPort port = s.validateExplicitPort port)
    (hreg : ∀ entry, s'.Registered entry → s.Registered entry ∨ s.Admitted entry.config) :
    Guarded s' := by
  intro entry he
  rcases hreg entry he with he | he
  · exact (h entry he).of_policy hpolicy
  · exact he.of_policy hpolicy

theorem Guarded.frame {s s' : SharedServiceState} (h : Guarded s) (hf : Frame s s') :
    Guarded s' := by
  refine h.of_registered hf.policy ?_
  rintro entry (⟨name, he⟩ | hg)
  · exact Or.inl (Or.inl ⟨name, hf.byName ▸ he⟩)
  · exact Or.inl (Or.inr (hf.groups entry hg))

theorem Guarded.store {s : SharedServiceState} (h : Guarded s) {entry : ServiceEntry}
    (ha : s.Admitted entry.config) : Guarded (s.storeEntry entry) := by
  refine h.of_registered (fun _ => rfl) ?_
  rintro e (⟨name, he⟩ | hg)
  · simp only [storeEntry, AList.lookup_insert_eq] at he
    split at he
    · cases he
      exact Or.inr ha
    · exact Or.inl (Or.inl ⟨name, he⟩)
  · rcases storeEntry_inGroup hg with hg | rfl
    · exact Or.inl (Or.inr hg)
    · exact Or.inr ha

theorem Guarded.remove {s s' : SharedServiceState} {names : List String} (h : Guarded s)
    (hr : Removal s names s') : Guarded s' := by
  refine h.of_registered hr.policy ?_
  rintro entry (⟨name, he⟩ | hg)
  · rw [hr.byName] at he
    split at he
    · cases he
    · exact Or.inl (Or.inl ⟨name, he⟩)
  · exact Or.inl (Or.inr (hr.groups entry hg))

theorem Guarded.unregister {s : SharedServiceState} (h : Guarded s) (clientId : String) :
    Guarded (s.unregisterClient clientId) ∧
      ∀ port, (s.unregisterClient clientId).validateExplicitPort port =
        s.validateExplicitPort port := by
  have hr := unregisterClient_removal s clientId
  have hs : Guarded (s.forget clientId) := h
  exact ⟨hs.remove hr, hr.policy⟩

theorem Guarded.registration {s s' : SharedServiceState} {clientId : String} {tx : Channel}
    {svc : Service} {r : Option Service} (h : Guarded s)
    (hr : Registration s clientId tx svc s' r) :
    Guarded s' ∧ (∀ port, s'.validateExplicitPort port = s.validateExplicitPort port) ∧
      ∀ svc' ∈ r, s.Admitted svc' := by
  cases hr with
  | skipped next => exact ⟨h, fun _ => rfl, by simp⟩
  | stored t svc' howner ha =>
    have hf := ha.frame.trans (replacePrevious_frame t (s.servicesByName.lookup svc.name) svc')
    have hadm : s.Admitted svc' := ha.valid
    refine ⟨(h.frame hf).store (hadm.of_policy hf.policy), hf.policy, ?_⟩
    rintro _ ⟨⟩
    exact hadm

theorem Guarded.registerAll {s : SharedServiceState} (h : Guarded s) (clientId : String)
    (tx : Channel) (services : List Service) :
    Guarded (s.registerAll clientId tx services).1 ∧
      (∀ port, (s.registerAll clientId tx services).1.validateExplicitPort port =
        s.validateExplicitPort port) ∧
      ∀ svc ∈ (s.registerAll clientId tx services).2, s.Admitted svc := by
  induction services generalizing s with
  | nil => exact ⟨h, fun _ => rfl, by simp [SharedServiceState.registerAll]⟩
  | cons svc services ih =>
    obtain ⟨hg, hp, ha⟩ := h.registration (registerService_cases s clientId tx svc)
    obtain ⟨hg', hp', ha'⟩ := ih hg
    refine ⟨hg', fun port => (hp' port).trans (hp port), ?_⟩
    intro svc' hs
    rcases List.mem_append.mp hs with hs | hs
    · exact ha svc' (Option.mem_toList.mp hs)
    · exact (ha' svc' hs).of_policy (fun port => (hp port).symm)

end SharedServiceState

structure ServerState.Safe (config : ServerConfig) (s : ServerState) : Prop where
  policy : ∀ port, s.registry.validateExplicitPort port = .ok () → config.Exposable port
  registry : s.registry.Guarded
  sessions : ∀ ch session, s.sessions.lookup ch = some session →
    ∀ svc ∈ session.pending, s.registry.Admitted svc
  opened : ∀ listener ∈ s.opened, config.Exposable listener.2

namespace ServerState

theorem run_safe (server : Server) : server.run.Safe server.config where
  policy port h := by
    obtain ⟨h0, hp, hr, ha⟩ := SharedServiceState.validateExplicitPort_ok h
    refine ⟨h0, hp, ?_, hr, ha⟩
    rintro rfl
    exact hp server.config.ssh_protected
  registry := by
    rintro entry (⟨name, he⟩ | ⟨g, entries, hg, he⟩)
    · cases he
    · cases hg
  sessions := by
    intro ch session hl
    cases hl
  opened := by simp [Server.run]

theorem Safe.setRegistry {config : ServerConfig} {s : ServerState} (h : s.Safe config)
    {registry : SharedServiceState} (hg : registry.Guarded)
    (hp : ∀ port, registry.validateExplicitPort port = s.registry.validateExplicitPort port) :
    Safe config { s with registry := registry } where
  policy port hok := h.policy port ((hp port).symm.trans hok)
  registry := hg
  sessions ch session hl svc hs := (h.sessions ch session hl svc hs).of_policy hp
  opened := h.opened

theorem Safe.setSession {config : ServerConfig} {s : ServerState} (h : s.Safe config)
    (ch : Channel) (session : Session) (hs : ∀ svc ∈ session.pending, s.registry.Admitted svc) :
    Safe config { s with sessions := s.sessions.insert ch session } where
  policy := h.policy
  registry := h.registry
  sessions := by
    intro ch' session' hl
    rw [AList.lookup_insert_eq] at hl
    split at hl
    · cases hl
      exact hs
    · exact h.sessions ch' session' hl
  opened := h.opened

theorem Safe.unregister {config : ServerConfig} {s : ServerState} (h : s.Safe config)
    (clientId : String) :
    Safe config { s with registry := s.registry.unregisterClient clientId } :=
  h.setRegistry (h.registry.unregister clientId).1 (h.registry.unregister clientId).2

theorem Safe.endSession {config : ServerConfig} {s : ServerState} (h : s.Safe config)
    (ch : Channel) (session : Session) : Safe config (s.endSession ch session) := by
  obtain ⟨registry, udp, hreg, he⟩ := endSession_cases s ch session
  rw [he]
  have hset : Safe config { s with registry := registry } := by
    rcases hreg with rfl | rfl
    · exact h
    · exact h.unregister session.clientId
  refine ⟨hset.policy, hset.registry, ?_, hset.opened⟩
  intro ch' session' hl
  dsimp only at hl
  rw [AList.lookup_erase_eq] at hl
  split at hl
  · cases hl
  · exact hset.sessions ch' session' hl

theorem Safe.hello {config : ServerConfig} {s : ServerState} (h : s.Safe config)
    (clientId : String) (services : List Service) : Safe config (s.hello clientId services) := by
  have hattach : (s.registry.attachControl clientId s.nextChannel).Guarded := h.registry
  obtain ⟨hg, hp, ha⟩ := hattach.registerAll clientId s.nextChannel services
  have hsession := (h.setRegistry hg hp).setSession s.nextChannel
    ⟨clientId, (s.registry.registerServices clientId s.nextChannel services).2,
      (s.registry.registerServices clientId s.nextChannel services).2, false⟩
    (fun svc hs => (ha svc hs).of_policy hp)
  exact ⟨hsession.policy, hsession.registry, hsession.sessions, hsession.opened⟩

theorem Exposed.safe {config : ServerConfig} {s t : ServerState} {svc : Service}
    {bind : Except String Unit} (h : s.Safe config) (hadm : s.registry.Admitted svc)
    (he : Exposed s svc bind t) :
    t.Safe config ∧ t.sessions = s.sessions ∧
      ∀ port, t.registry.validateExplicitPort port = s.registry.validateExplicitPort port := by
  have hopen (listener : Transport × UInt16) (hd : svc.isDirect = true)
      (hl : listener.2 = svc.remotePort) :
      ∀ l ∈ s.opened ++ [listener], config.Exposable l.2 := by
    intro l hmem
    rcases List.mem_append.mp hmem with hmem | hmem
    · exact h.opened l hmem
    · rw [List.mem_singleton.mp hmem, hl]
      exact h.policy _ (hadm hd)
  cases he with
  | unchanged => exact ⟨h, rfl, fun _ => rfl⟩
  | tcp htype hport hfree hbind =>
    have hd : svc.isDirect = true := by
      unfold SharedServiceState.isTcpListener at htype
      split at htype
      all_goals first | contradiction | simp_all [Service.isDirect]
    exact ⟨⟨h.policy, h.registry, h.sessions, hopen _ hd rfl⟩, rfl, fun _ => rfl⟩
  | udp htype hport hfree hbind =>
    have hd : svc.isDirect = true := by simp [Service.isDirect, htype]
    exact ⟨⟨h.policy, h.registry, h.sessions, hopen _ hd rfl⟩, rfl, fun _ => rfl⟩

theorem Safe.step {config : ServerConfig} {s s' : ServerState} {e : ServerEvent}
    (h : s.Safe config) (hstep : s.step e = some s') : s'.Safe config := by
  cases step_cases hstep with
  | anonymous services => exact h
  | hello clientId services hc => exact h.hello clientId services
  | exposed ch bind session svc pending t hl hp he =>
    have hpending := h.sessions ch session hl
    rw [hp] at hpending
    obtain ⟨ht, -, hpolicy⟩ := he.safe h (hpending svc List.mem_cons_self)
    refine ht.setSession ch _ (fun svc' hs => ?_)
    exact (hpending svc' (List.mem_cons_of_mem _ hs)).of_policy hpolicy
  | refused ch bind session svc pending message hl hp he =>
    have hend := h.endSession ch session
    exact ⟨hend.policy, hend.registry, hend.sessions, hend.opened⟩
  | announced ch session hl hp hr =>
    have hset := h.setSession ch { session with isReady := true }
      (h.sessions ch session hl)
    exact ⟨hset.policy, hset.registry, hset.sessions, hset.opened⟩
  | unannounced ch session hl hp hr => exact h.endSession ch session
  | disconnected ch session hl hr => exact h.endSession ch session
  | kicked clientId => exact h.unregister clientId
  | listenerEnded port name =>
    refine h.setRegistry ?_ ?_
    · unfold SharedServiceState.removeListenerHandle
      split
      · exact h.registry
      · exact h.registry
    · intro q
      unfold SharedServiceState.removeListenerHandle
      split <;> rfl
  | udpEnded name => exact ⟨h.policy, h.registry, h.sessions, h.opened⟩

theorem protected_ports_never_exposed (server : Server) (events : List ServerEvent)
    (s : ServerState) (h : Machine.run step server.run events = some s) :
    (∀ entry, s.registry.Registered entry → entry.config.isDirect = true →
      server.config.Exposable entry.config.remotePort) ∧
    ∀ listener ∈ s.opened, server.config.Exposable listener.2 := by
  have hsafe : s.Safe server.config :=
    Machine.run_invariant (fun _ _ _ hs ht => hs.step ht) (run_safe server) h
  refine ⟨fun entry hreg hd => ?_, hsafe.opened⟩
  exact hsafe.policy _ (hsafe.registry entry hreg hd)

def defaultServer : Server := ⟨{}, by decide +kernel⟩

def laptopEvents : List ServerEvent :=
  [.hello "laptop" [{ name := "web" }, { name := "dns", ty := some "udp" }],
    .expose 0 (.ok ()), .expose 0 (.ok ()), .ready 0 true]

theorem automatic_ports_exposed :
    ∃ s, Machine.run step defaultServer.run laptopEvents = some s ∧
      s.opened = [(.tcp, 7720), (.udp, 7712)] ∧
      (∀ entry, s.registry.Registered entry → entry.config.isDirect = true →
        defaultServer.config.Exposable entry.config.remotePort) ∧
      ∀ listener ∈ s.opened, defaultServer.config.Exposable listener.2 := by
  have hrun : (Machine.run step defaultServer.run laptopEvents).map ServerState.opened =
      some [(.tcp, 7720), (.udp, 7712)] := by decide +kernel
  obtain ⟨s, hs, hopened⟩ := Option.map_eq_some_iff.mp hrun
  exact ⟨s, hs, hopened, protected_ports_never_exposed defaultServer laptopEvents s hs⟩

end ServerState

end Cross233.Server
