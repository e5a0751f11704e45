import Cross233.Server.Sparing
import Cross233.Server.UdpSockets

namespace Cross233.Server.ServerState

open Protocol
open SharedServiceState

-- The hello of one session and the loop that starts the listeners of the assigned services, up
-- to the listener that cannot be started.
structure FailedHello (s : ServerState) (clientId : String) (services : List Service)
    (binds : List (Except String Unit)) (t : ServerState) : Prop where
  named : clientId ≠ ""
  run : Machine.run step s
    (.hello clientId services :: binds.map (ServerEvent.expose s.nextChannel)) = some t
  ended : t.sessions.lookup s.nextChannel = none

def registered (s : ServerState) (clientId : String) (services : List Service) :
    SharedServiceState :=
  (s.registry.registerServices clientId s.nextChannel services).1

def assigned (s : ServerState) (clientId : String) (services : List Service) : List Service :=
  (s.registry.registerServices clientId s.nextChannel services).2

structure Underway (s : ServerState) (clientId : String) (services : List Service)
    (u : ServerState) : Prop where
  session : ∃ session, u.sessions.lookup s.nextChannel = some session ∧
    session.clientId = clientId ∧ ∀ svc ∈ session.pending, svc ∈ s.assigned clientId services
  registry : u.registry =
    { s.registered clientId services with activeListeners := u.registry.activeListeners }
  listeners : ∀ port,
    u.registry.activeListeners.lookup port =
        (s.registered clientId services).activeListeners.lookup port ∨
      (s.registered clientId services).activeListeners.lookup port = none ∧
      ∃ svc ∈ s.assigned clientId services, isTcpListener svc = true ∧ svc.remotePort = port ∧
        port ≠ 0 ∧ u.registry.activeListeners.lookup port = some svc.name
  sockets : ∀ n, u.udpServices.lookup n = s.udpServices.lookup n ∨
    ∃ svc ∈ s.assigned clientId services, svc.name = n

structure Cleaned (clientId : String) (u t : ServerState) : Prop where
  registry : t.registry = u.registry.unregisterClient clientId
  sockets : ∀ n, t.udpServices.lookup n =
    if n ∈ u.registry.namesOf clientId then none else u.udpServices.lookup n

variable {s t u v : ServerState} {clientId : String} {services : List Service}

theorem Underway.hello (s : ServerState) (clientId : String) (services : List Service) :
    Underway s clientId services (s.hello clientId services) where
  session := ⟨_, AList.lookup_insert _, rfl, fun _ h => h⟩
  registry := rfl
  listeners _ := Or.inl rfl
  sockets _ := Or.inl rfl

theorem Underway.exposed {session : Session} {svc : Service} {pending : List Service}
    {bind : Except String Unit} (h : Underway s clientId services u)
    (hl : u.sessions.lookup s.nextChannel = some session) (hp : session.pending = svc :: pending)
    (he : Exposed u svc bind v) :
    Underway s clientId services { v with
      sessions := v.sessions.insert s.nextChannel { session with pending := pending } } := by
  obtain ⟨session', hl', hc, hpending⟩ := h.session
  cases hl.symm.trans hl'
  have hsvc : svc ∈ s.assigned clientId services := hpending svc (hp ▸ List.mem_cons_self)
  have hnext : ∃ session', (v.sessions.insert s.nextChannel
      { session with pending := pending }).lookup s.nextChannel = some session' ∧
      session'.clientId = clientId ∧
      ∀ svc ∈ session'.pending, svc ∈ s.assigned clientId services :=
    ⟨_, AList.lookup_insert _, hc, fun svc' hm => hpending svc' (hp ▸ List.mem_cons_of_mem _ hm)⟩
  cases he with
  | unchanged => exact ⟨hnext, h.registry, h.listeners, h.sockets⟩
  | udp htype hport hfree hbind =>
    refine ⟨hnext, h.registry, h.listeners, fun n => ?_⟩
    dsimp only
    rw [AList.lookup_insert_eq]
    split
    · next hn => exact Or.inr ⟨svc, hsvc, hn.symm⟩
    · exact h.sockets n
  | tcp htype hport hfree hbind =>
    refine ⟨hnext, ?_, fun port => ?_, h.sockets⟩
    · dsimp only [registerListener]
      rw [h.registry]
    · dsimp only [registerListener]
      rw [AList.lookup_insert_eq]
      split
      · next hpo =>
        subst hpo
        refine Or.inr ⟨?_, svc, hsvc, htype, rfl, hport, rfl⟩
        have hnone : u.registry.activeListeners.lookup svc.remotePort = none :=
          AList.lookup_eq_none.mpr (of_decide_eq_false hfree)
        rcases h.listeners svc.remotePort with hold | ⟨hold, -⟩
        · rw [← hold]
          exact hnone
        · exact hold
      · exact h.listeners port

theorem Underway.refused {session : Session} {message : String}
    (h : Underway s clientId services u) (hl : u.sessions.lookup s.nextChannel = some session) :
    Cleaned clientId u
      ((u.endSession s.nextChannel session).reply s.nextChannel (.newError message)) := by
  obtain ⟨session', hl', hc, -⟩ := h.session
  cases hl.symm.trans hl'
  subst hc
  have hcurrent : u.registry.isCurrentControl session.clientId s.nextChannel = true := by
    rw [h.registry]
    refine decide_eq_true ?_
    exact (registerServices_control _ _ s.nextChannel services).trans (if_pos rfl)
  simp only [endSession, cleanupRegisteredSession, hcurrent, if_true, stopServices_eq,
    unregisterClientIfCurrent, reply]
  exact ⟨rfl, fun n => stopServices_lookup _ _ n⟩

theorem Underway.run {binds : List (Except String Unit)} (h : Underway s clientId services u)
    (hrun : Machine.run step u (binds.map (ServerEvent.expose s.nextChannel)) = some t)
    (hover : t.sessions.lookup s.nextChannel = none) :
    ∃ v, Underway s clientId services v ∧ Cleaned clientId v t := by
  induction binds generalizing u with
  | nil =>
    cases hrun
    obtain ⟨session, hl, -⟩ := h.session
    rw [hover] at hl
    cases hl
  | cons bind binds ih =>
    obtain ⟨v, hv, hrest⟩ := Option.bind_eq_some_iff.mp hrun
    cases step_cases hv with
    | exposed _ _ session svc pending w hl hp he => exact ih (h.exposed hl hp he) hrest
    | refused _ _ session svc pending message hl hp he =>
      -- The session has ended, so no further listener is tried.
      cases binds with
      | nil =>
        cases hrest
        exact ⟨u, h, h.refused hl⟩
      | cons bind' binds =>
        obtain ⟨w, hw, -⟩ := Option.bind_eq_some_iff.mp hrest
        have hgone : ((u.endSession s.nextChannel session).reply s.nextChannel
            (.newError message)).sessions.lookup s.nextChannel = none := by
          obtain ⟨_, _, -, hend⟩ := endSession_cases u s.nextChannel session
          rw [hend]
          exact AList.lookup_erase _ _
        simp only [step, hgone] at hw
        cases hw

theorem FailedHello.cleaned {binds : List (Except String Unit)}
    (h : FailedHello s clientId services binds t) :
    ∃ u, Underway s clientId services u ∧ Cleaned clientId u t := by
  obtain ⟨v, hv, hrest⟩ := Option.bind_eq_some_iff.mp h.run
  simp only [step, if_neg h.named] at hv
  cases hv
  exact (Underway.hello s clientId services).run hrest h.ended

theorem Underway.consistent (h : Underway s clientId services u) (hs : Consistent s.registry) :
    Consistent u.registry := by
  rw [h.registry]
  exact (hs.register clientId s.nextChannel services).setListeners _

theorem Underway.byName (h : Underway s clientId services u) :
    u.registry.servicesByName = (s.registered clientId services).servicesByName := by
  rw [h.registry]

theorem Underway.assigned_names (h : Underway s clientId services u)
    (hs : Consistent s.registry) {svc : Service} (hm : svc ∈ s.assigned clientId services) :
    svc.name ∈ u.registry.namesOf clientId := by
  obtain ⟨entry, he, hc⟩ := registerAll_assigned hm
  rw [← hc]
  exact (h.consistent hs).indexed.listed svc.name entry (h.byName ▸ he)

theorem Underway.spared (h : Underway s clientId services u) (hs : Consistent s.registry) :
    OthersSpared clientId s.registry u.registry ∧ PortsSpared clientId s.registry u.registry := by
  obtain ⟨hspared, hports⟩ :=
    @registerServices_spared _ clientId s.nextChannel services hs.indexed hs.grouped
  have hlisten : OthersSpared clientId (s.registered clientId services) u.registry := by
    have hnames : ∀ c, u.registry.namesOf c = (s.registered clientId services).namesOf c :=
      fun c => by rw [h.registry]; rfl
    have hspared' := OthersSpared.refl clientId (s.registered clientId services)
    refine ⟨?_, ?_, ?_, fun c hc n hn port => ?_⟩
    · rw [h.registry]
      exact hspared'.byName
    · rw [h.registry]
      exact hspared'.clients
    · rw [h.registry]
      exact hspared'.groups
    · rcases h.listeners port with hsame | ⟨hnone, svc, hm, -, -, -, hl⟩
      · rw [hsame]
      · rw [hnone, hl]
        refine iff_of_false (fun hname => ?_) (by simp)
        rw [← hnames] at hn
        rw [← Option.some.inj hname] at hn
        exact (h.consistent hs).indexed.foreign_name hn hc (h.assigned_names hs hm)
  refine ⟨hspared.trans hlisten, hports.trans hspared (PortsSpared.of_eq ?_)⟩
  rw [h.registry]
  rfl

structure TablesRestored (s t : ServerState) : Prop where
  indexes : IndexesRestored s.registry t.registry
  ports : ∀ port, t.registry.allocatedPorts.lookup port = s.registry.allocatedPorts.lookup port
  listeners : ∀ port,
    t.registry.activeListeners.lookup port = s.registry.activeListeners.lookup port
  sockets : ∀ n, t.udpServices.lookup n = s.udpServices.lookup n

-- A hello of a client that has nothing registered, whose services have names of their own that
-- nothing is left recorded for, and name no recorded port without asking for it.
structure Unburdened (s : ServerState) (clientId : String) (services : List Service) : Prop where
  unregistered : s.registry.clientServices.lookup clientId = none
  distinct : (services.map Service.name).Nodup
  addable : ∀ svc ∈ services, s.registry.Addable svc
  listeners : ∀ svc ∈ services, s.registry.servicesByName.lookup svc.name = none →
    ∀ port, s.registry.activeListeners.lookup port ≠ some svc.name
  sockets : ∀ svc ∈ services, s.registry.servicesByName.lookup svc.name = none →
    s.udpServices.lookup svc.name = none

theorem Unburdened.added (h : Unburdened s clientId services) (hs : Consistent s.registry) :
    Added s.registry (s.registered clientId services) ∧
      ∀ svc ∈ s.assigned clientId services,
        (s.registered clientId services).servicesByName.lookup svc.name =
          some ⟨svc, clientId, s.nextChannel⟩ := by
  have hgone := hs.gone h.unregistered
  have hstart : Added s.registry (s.registry.attachControl clientId s.nextChannel) := by
    have hrefl := Added.refl s.registry
    exact ⟨hrefl.kept, hrefl.occupied, hrefl.ports, hrefl.listeners⟩
  exact hstart.registerAll h.addable h.distinct (fun _ _ => rfl) hgone.byName

section Restored

variable (h : Unburdened s clientId services) (hs : Consistent s.registry)
  (hu : Underway s clientId services u)

include h hs hu

theorem own_name {n : String} (hn : n ∈ u.registry.namesOf clientId) :
    s.registry.servicesByName.lookup n = none ∧ ∃ svc ∈ services, svc.name = n := by
  obtain ⟨entry, he, hc⟩ := (hu.consistent hs).indexed.owner clientId n hn
  have hnone : s.registry.servicesByName.lookup n = none := by
    rw [Option.eq_none_iff_forall_ne_some]
    intro other ho
    have hother := (hs.gone h.unregistered).byName n other ho
    rw [← (hu.spared hs).1.byName n other hother, he] at ho
    cases ho
    exact hother hc
  refine ⟨hnone, ?_⟩
  by_contra hnames
  have hother : ∀ svc ∈ services, svc.name ≠ n := fun svc hm hname => hnames ⟨svc, hm, hname⟩
  have hkept := @registerAll_unnamed (s.registry.attachControl clientId s.nextChannel) clientId
    s.nextChannel _ _ hother
  rw [hu.byName] at he
  rw [registered, registerServices, hkept] at he
  cases hnone.symm.trans he

theorem ports_restored (port : UInt16) :
    (u.registry.unregisterClient clientId).allocatedPorts.lookup port =
      s.registry.allocatedPorts.lookup port := by
  obtain ⟨hadded, -⟩ := h.added hs
  have hr := unregisterClient_removal u.registry clientId
  have hports : u.registry.allocatedPorts = (s.registered clientId services).allocatedPorts := by
    rw [hu.registry]
  by_cases hrel : (u.registry.forget clientId).Released (u.registry.namesOf clientId) port
  · rw [hr.released port hrel]
    obtain ⟨n, hn, entry, he, rfl, h0, hv⟩ := hrel
    exact (hadded.occupied n entry (own_name h hs hu hn).1 (hu.byName ▸ he) h0 hv).symm
  · rw [hr.kept port hrel]
    refine Eq.trans (congrArg (AList.lookup port) hports) ?_
    rcases hadded.ports port with hsame | ⟨-, n, entry, hn, he, hp, h0, hv, -⟩
    · exact hsame
    · -- The new record belongs to an entry of the client, so its port was released.
      have hown : entry.clientId = clientId := by
        by_contra hc
        rw [← hu.byName, (hu.spared hs).1.byName n entry hc, hn] at he
        cases he
      have he' : u.registry.servicesByName.lookup n = some entry := hu.byName ▸ he
      refine absurd ⟨n, ?_, entry, he', hp, h0, hv⟩ hrel
      exact hown ▸ (hu.consistent hs).indexed.listed n entry he'

theorem listeners_restored (port : UInt16) :
    (u.registry.unregisterClient clientId).activeListeners.lookup port =
      s.registry.activeListeners.lookup port := by
  obtain ⟨hadded, hassigned⟩ := h.added hs
  refine Option.ext (fun owner => (unregisterClient_listeners _ _ _ _).trans ?_)
  rw [← hadded.listeners port]
  rcases hu.listeners port with hsame | ⟨hnone, svc, hm, htcp, hp, h0, hl⟩
  · rw [hsame]
    refine and_iff_left_of_imp (fun howner => ?_)
    rintro ⟨n, hn, entry, he, -, -, -, -, hname⟩
    obtain ⟨hnew, svc, hm, hsvc⟩ := own_name h hs hu hn
    have hn' : n = owner := ((hu.consistent hs).indexed.named n entry he).symm.trans hname
    subst hn'
    subst hsvc
    exact h.listeners svc hm hnew port (hadded.listeners port ▸ howner)
  · rw [hnone, hl]
    refine iff_of_false ?_ nofun
    rintro ⟨hname, hopen⟩
    have he : u.registry.servicesByName.lookup svc.name = some ⟨svc, clientId, s.nextChannel⟩ :=
      hu.byName ▸ hassigned svc hm
    refine hopen ⟨svc.name, hu.assigned_names hs hm, _, he, hp, h0, ?_, htcp, ?_⟩
    · exact not_vhost_of_direct (isDirect_of_tcp htcp)
    · exact Option.some.inj hname

theorem sockets_restored (hc : Cleaned clientId u t) (n : String) :
    t.udpServices.lookup n = s.udpServices.lookup n := by
  rw [hc.sockets]
  split
  · next hn =>
    obtain ⟨hnew, svc, hm, rfl⟩ := own_name h hs hu hn
    exact (h.sockets svc hm hnew).symm
  · next hn =>
    rcases hu.sockets n with hsame | ⟨svc, hm, rfl⟩
    · exact hsame
    · exact absurd (hu.assigned_names hs hm) hn

end Restored

theorem step_consistent {e : ServerEvent} (h : Consistent s.registry) (hs : s.step e = some t) :
    Consistent t.registry := by
  have hended : ∀ (ch : Channel) (session : Session),
      Consistent (s.endSession ch session).registry := by
    intro ch session
    obtain ⟨registry, udp, hr | hr, hend⟩ := endSession_cases s ch session
    · rw [hend]
      exact hr ▸ h
    · rw [hend]
      exact hr ▸ h.unregister session.clientId
  cases step_cases hs with
  | anonymous services => exact h
  | hello clientId services hne => exact h.register clientId s.nextChannel services
  | exposed ch bind session svc pending t hl hp he =>
    cases he with
    | unchanged | udp => exact h
    | tcp => exact h.setListeners _
  | refused ch bind session svc pending message hl hp he => exact hended ch session
  | announced ch session hl hp hr => exact h
  | unannounced ch session hl hp hr => exact hended ch session
  | disconnected ch session hl hr => exact hended ch session
  | kicked clientId => exact h.unregister clientId
  | listenerEnded port name =>
    unfold removeListenerHandle
    split
    · exact h.setListeners _
    · exact h
  | udpEnded name => exact h

theorem failed_hello_undone (server : Server) (events : List ServerEvent) (s : ServerState)
    (hrun : Machine.run step server.run events = some s) (clientId : String)
    (services : List Service) (binds : List (Except String Unit)) (t : ServerState)
    (hfail : FailedHello s clientId services binds t) :
    ClientGone clientId t.registry ∧
    OthersSpared clientId s.registry t.registry ∧
    (∀ c, c ≠ clientId → ∀ n ∈ s.registry.namesOf c,
      t.udpServices.lookup n = s.udpServices.lookup n) ∧
    (¬(s.registered clientId services).TakesForeignPort clientId →
      PortsSpared clientId s.registry t.registry) ∧
    (s.registry.clientServices.lookup clientId = none →
      IndexesRestored s.registry t.registry) ∧
    (Unburdened s clientId services → TablesRestored s t) := by
  have hs : Consistent s.registry := Machine.run_invariant (I := fun s => Consistent s.registry)
    (fun _ _ _ h hstep => step_consistent h hstep) (new_consistent _ _ _ _ _ _) hrun
  obtain ⟨u, hu, hclean⟩ := hfail.cleaned
  have hcu := hu.consistent hs
  obtain ⟨hspared, hports⟩ := hu.spared hs
  have hall : OthersSpared clientId s.registry t.registry := by
    rw [hclean.registry]
    exact hspared.trans (unregister_spared hcu.indexed hcu.grouped clientId)
  have hgone : ClientGone clientId t.registry := hclean.registry ▸ hcu.unregistered clientId
  have hrestored : s.registry.clientServices.lookup clientId = none →
      IndexesRestored s.registry t.registry := fun hnone =>
    hall.restored hs (hclean.registry ▸ hcu.unregister clientId) (hs.gone hnone) hgone
  refine ⟨hgone, hall, fun c hc n hn => ?_, fun hfree => ?_, hrestored, fun h => ?_⟩
  · have hforeign : n ∉ u.registry.namesOf clientId :=
      hcu.indexed.foreign_name (hspared.namesOf hc ▸ hn) hc
    rw [hclean.sockets, if_neg hforeign]
    rcases hu.sockets n with hsame | ⟨svc, hm, rfl⟩
    · exact hsame
    · exact absurd (hu.assigned_names hs hm) hforeign
  · have hfree' : ¬u.registry.TakesForeignPort clientId := by
      rw [hu.registry]
      exact hfree
    rw [hclean.registry]
    exact hports.trans hspared
      ((unregister_others_kept_iff hcu.indexed hcu.grouped clientId).mpr hfree').ports
  · refine ⟨hrestored h.unregistered, ?_, ?_, sockets_restored h hs hu hclean⟩
    · rw [hclean.registry]
      exact ports_restored h hs hu
    · rw [hclean.registry]
      exact listeners_restored h hs hu

def shopOnline (clientId : String) : List ServerEvent :=
  [.hello clientId [{ name := "web", remotePort := 60080 }], .expose 0 (.ok ()), .ready 0 true]

def database : List Service :=
  [{ name := "db", remotePort := 60081 }, { name := "dns", ty := some "udp", remotePort := 60053 }]

def portTaken : List (Except String Unit) := [.ok (), .error "address in use"]

-- The first session is connected all the while: its service is up before the second hello.
theorem older_session_loses_services :
    ∃ s t, Machine.run step defaultServer.run (shopOnline "alice") = some s ∧
      FailedHello s "alice" database portTaken t ∧
      (∃ session, t.sessions.lookup 0 = some session ∧ session.isReady = true) ∧
      s.registry.namesOf "alice" = ["web"] ∧ t.registry.servicesByName.lookup "web" = none ∧
      s.registry.allocatedPorts.lookup 60080 = some "web" ∧
      t.registry.allocatedPorts.lookup 60080 = none ∧
      s.registry.activeListeners.lookup 60080 = some "web" ∧
      t.registry.activeListeners.lookup 60080 = none ∧ ¬TablesRestored s t := by
  have hrun : ((Machine.run step defaultServer.run (shopOnline "alice")).bind fun s =>
      (Machine.run step s (.hello "alice" database ::
        portTaken.map (ServerEvent.expose s.nextChannel))).map fun t =>
        ((t.sessions.lookup s.nextChannel).isNone && (t.sessions.lookup 0).any Session.isReady &&
          (t.registry.servicesByName.lookup "web").isNone, s.registry.namesOf "alice",
          ([s.registry.allocatedPorts.lookup 60080, t.registry.allocatedPorts.lookup 60080,
            s.registry.activeListeners.lookup 60080,
            t.registry.activeListeners.lookup 60080] : List (Option String)))) =
      some (true, ["web"], [some "web", none, some "web", none]) := by decide +kernel
  obtain ⟨s, hs, hrest⟩ := Option.bind_eq_some_iff.mp hrun
  obtain ⟨t, ht, hstate⟩ := Option.map_eq_some_iff.mp hrest
  simp only [Prod.mk.injEq, List.cons.injEq, and_true, Bool.and_eq_true,
    Option.isNone_iff_eq_none, Option.any_eq_true] at hstate
  obtain ⟨⟨⟨hover, hready⟩, hweb⟩, hnames, hport, hport', hlistener, hlistener'⟩ := hstate
  refine ⟨s, t, hs, ⟨by decide, ht, hover⟩, hready, hnames, hweb, hport, hport', hlistener,
    hlistener', fun h => ?_⟩
  have hsame := h.ports 60080
  rw [hport, hport'] at hsame
  cases hsame

theorem newcomer_leaves_no_trace :
    ∃ s t, Machine.run step defaultServer.run (shopOnline "bob") = some s ∧
      FailedHello s "alice" database portTaken t ∧ TablesRestored s t := by
  have hrun : ((Machine.run step defaultServer.run (shopOnline "bob")).bind fun s =>
      (Machine.run step s (.hello "alice" database ::
        portTaken.map (ServerEvent.expose s.nextChannel))).map fun t =>
        ((t.sessions.lookup s.nextChannel).isNone, s.registry.clientServices.lookup "alice",
          s.registry.allocatedPorts.entries.map Sigma.snd,
          s.registry.activeListeners.entries.map Sigma.snd, s.udpServices.keys)) =
      some (true, none, ["web"], ["web"], []) := by decide +kernel
  obtain ⟨s, hs, hrest⟩ := Option.bind_eq_some_iff.mp hrun
  obtain ⟨t, ht, hstate⟩ := Option.map_eq_some_iff.mp hrest
  simp only [Prod.mk.injEq] at hstate
  obtain ⟨hover, hnone, hports, hlisteners, hsockets⟩ := hstate
  have hfail : FailedHello s "alice" database portTaken t :=
    ⟨by decide, ht, Option.isNone_iff_eq_none.mp hover⟩
  refine ⟨s, t, hs, hfail, ?_⟩
  refine (failed_hello_undone defaultServer _ s hs "alice" database portTaken t hfail).2.2.2.2.2 ?_
  have howner : ∀ {m : HashMap UInt16 String} {port : UInt16} {n : String},
      m.entries.map Sigma.snd = ["web"] → m.lookup port = some n → n = "web" := by
    intro m port n hm hl
    have hmem : n ∈ m.entries.map Sigma.snd :=
      List.mem_map_of_mem (f := Sigma.snd) (AList.mem_lookup_iff.mp hl)
    rw [hm] at hmem
    exact List.mem_singleton.mp hmem
  have hnames : ∀ svc ∈ database, svc.name ≠ "web" ∧ svc.isDirect = true := by decide
  refine ⟨hnone, by decide, fun svc hm => ⟨fun _ port hl => ?_, fun hd => ?_⟩,
    fun svc hm _ port hl => ?_, fun svc hm _ => ?_⟩
  · exact (hnames svc hm).1 (howner hports hl)
  · rw [(hnames svc hm).2] at hd
    cases hd
  · exact (hnames svc hm).1 (howner hlisteners hl)
  · rw [AList.lookup_eq_none, AList.mem_keys, hsockets]
    exact List.not_mem_nil

end Cross233.Server.ServerState
