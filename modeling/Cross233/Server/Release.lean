import Cross233.Server.Acceptance
import Cross233.Server.Disconnect
import Cross233.Server.ProtectedPorts

namespace Cross233.Server

open Protocol

namespace SharedServiceState

structure Accounted (s : SharedServiceState) : Prop where
  ports : ∀ port n, s.allocatedPorts.lookup port = some n →
    ∃ entry, s.servicesByName.lookup n = some entry ∧ entry.config.remotePort = port ∧
      port ≠ 0 ∧ entry.config.isVhost = false
  listeners : ∀ port n, s.activeListeners.lookup port = some n →
    ∃ entry, s.servicesByName.lookup n = some entry ∧ entry.config.remotePort = port ∧
      port ≠ 0 ∧ isTcpListener entry.config = true

structure AllReleased (clientId : String) (s : SharedServiceState) : Prop where
  ports : ∀ port n, s.allocatedPorts.lookup port = some n →
    ∃ entry, s.servicesByName.lookup n = some entry ∧ entry.config.remotePort = port ∧
      entry.clientId ≠ clientId
  listeners : ∀ port n, s.activeListeners.lookup port = some n →
    ∃ entry, s.servicesByName.lookup n = some entry ∧ entry.config.remotePort = port ∧
      entry.clientId ≠ clientId
  groups : ∀ entry, s.InGroup entry → entry.clientId ≠ clientId

def replacesCleanly (s : SharedServiceState) (clientId : String) (svc : Service) : Bool :=
  (s.servicesByName.lookup svc.name).all fun previous =>
    !s.accepts clientId svc ||
      ((s.allocatedPorts.lookup previous.config.remotePort ≠ some svc.name ||
        (if s.keepsPort previous svc then !svc.isVhost else previous.config.isDirect)) &&
      (s.activeListeners.lookup previous.config.remotePort ≠ some svc.name ||
        !s.keepsPort previous svc || isTcpListener svc))

def registersCleanly (s : SharedServiceState) (clientId : String) (tx : Channel) :
    List Service → Bool
  | [] => true
  | svc :: services =>
    s.replacesCleanly clientId svc &&
      (s.registerService clientId tx svc).1.registersCleanly clientId tx services

variable {s s' : SharedServiceState}

theorem replacesCleanly_iff (clientId : String) (svc : Service) :
    s.replacesCleanly clientId svc = true ↔
      ∀ previous, s.servicesByName.lookup svc.name = some previous →
        s.accepts clientId svc = true →
        (s.allocatedPorts.lookup previous.config.remotePort = some svc.name →
          (s.keepsPort previous svc = true → svc.isVhost = false) ∧
          (s.keepsPort previous svc = false → previous.config.isDirect = true)) ∧
        (s.activeListeners.lookup previous.config.remotePort = some svc.name →
          s.keepsPort previous svc = true → isTcpListener svc = true) := by
  unfold replacesCleanly
  cases s.servicesByName.lookup svc.name with
  | none => simp
  | some previous =>
    simp only [Option.all_some, Option.some.injEq, forall_eq']
    cases s.accepts clientId svc with
    | false => simp
    | true => cases s.keepsPort previous svc <;> simp [imp_iff_not_or]

-- What remains recorded for the name of a stored service is recorded for its new entry.
theorem registered_port {clientId : String} {tx : Channel} {svc svc' : Service} (h : Accounted s)
    (hclean : s.replacesCleanly clientId svc = true)
    (hs : (s.registerService clientId tx svc).2 = some svc') {port : UInt16}
    (hp : (s.registerService clientId tx svc).1.allocatedPorts.lookup port = some svc.name) :
    svc'.remotePort = port ∧ port ≠ 0 ∧ svc'.isVhost = false := by
  have ha := (registerService_some hs).2.2.1
  have hsvc := assignPort_service ha
  obtain ⟨hstay, hold | ⟨-, hport, hd, hok⟩⟩ := registerService_records hs hp
  · obtain ⟨previous, he, hport, h0, hv⟩ := h.ports port svc.name hold
    have hacc := accepts_of_registered hs
    have hreplaces := (replacesCleanly_iff clientId svc).mp hclean previous he hacc
    obtain ⟨hkeep, hleave⟩ := hreplaces.1 (hport.symm ▸ hold)
    have hstay := hstay rfl
    rw [he] at ha hstay
    cases hk : s.keepsPort previous svc with
    | true =>
      refine ⟨(assignPort_keeps ha hk).trans hport, h0, ?_⟩
      rw [hsvc]
      exact hkeep hk
    | false =>
      by_cases hsame : svc'.remotePort = previous.config.remotePort
      · have hfree := (assignPort_leaves ha hk hsame).2.1
        rw [hport] at hfree
        exact absurd (AList.mem_of_lookup hold) hfree
      · simp [moves, usesDirectPublicPort, hleave hk, hport, h0, Ne.symm (hport ▸ hsame)] at hstay
  · refine ⟨hport.symm, port_ne_zero hok, ?_⟩
    rw [hsvc]
    exact not_vhost_of_direct hd

theorem registered_listener {clientId : String} {tx : Channel} {svc svc' : Service}
    (h : Accounted s) (hclean : s.replacesCleanly clientId svc = true)
    (hs : (s.registerService clientId tx svc).2 = some svc') {port : UInt16}
    (hp : (s.registerService clientId tx svc).1.activeListeners.lookup port = some svc.name) :
    svc'.remotePort = port ∧ port ≠ 0 ∧ isTcpListener svc' = true := by
  have ha := (registerService_some hs).2.2.1
  have hsvc := assignPort_service ha
  obtain ⟨hp, hstay⟩ := registerService_listening hs hp
  obtain ⟨previous, he, hport, h0, htcp⟩ := h.listeners port svc.name hp
  have hacc := accepts_of_registered hs
  obtain ⟨-, hkeep⟩ := (replacesCleanly_iff clientId svc).mp hclean previous he hacc
  have hstay := hstay rfl
  rw [he] at ha hstay
  have hdirect := isDirect_of_tcp htcp
  have hsame : svc'.remotePort = previous.config.remotePort := by
    by_contra hne
    simp [moves, usesDirectPublicPort, hdirect, htcp, hport, h0, Ne.symm (hport ▸ hne)] at hstay
  cases hk : s.keepsPort previous svc with
  | true =>
    refine ⟨hsame.trans hport, h0, ?_⟩
    rw [hsvc]
    exact hkeep (hport.symm ▸ hp) hk
  | false =>
    obtain ⟨hok, -, hr⟩ := assignPort_leaves ha hk hsame
    simp [reusable, usesDirectPublicPort, hdirect, hport, h0] at hr hok
    exact absurd hok hr

theorem Accounted.of_eq (h : Accounted s) (hname : s'.servicesByName = s.servicesByName)
    (hports : s'.allocatedPorts = s.allocatedPorts)
    (hlisteners : s'.activeListeners = s.activeListeners) : Accounted s' where
  ports port n hp := by
    rw [hname]
    exact h.ports port n (hports ▸ hp)
  listeners port n hp := by
    rw [hname]
    exact h.listeners port n (hlisteners ▸ hp)

theorem Accounted.register (h : Accounted s) (clientId : String) (tx : Channel) (svc : Service)
    (hclean : s.replacesCleanly clientId svc = true) :
    Accounted (s.registerService clientId tx svc).1 := by
  cases hs : (s.registerService clientId tx svc).2 with
  | none =>
    obtain ⟨next, hnext⟩ := registerService_none hs
    rw [hnext]
    exact h.of_eq rfl rfl rfl
  | some svc' =>
    have hlook := registerService_lookup hs
    refine ⟨fun port n hp => ?_, fun port n hp => ?_⟩
    · by_cases hn : n = svc.name
      · subst hn
        exact ⟨_, (hlook _).trans (if_pos rfl), registered_port h hclean hs hp⟩
      · rw [hlook, if_neg hn]
        rcases (registerService_records hs hp).2 with hold | ⟨hn', -⟩
        · exact h.ports port n hold
        · exact absurd hn' hn
    · by_cases hn : n = svc.name
      · subst hn
        exact ⟨_, (hlook _).trans (if_pos rfl), registered_listener h hclean hs hp⟩
      · rw [hlook, if_neg hn]
        exact h.listeners port n (registerService_listening hs hp).1

theorem Accounted.registerAll (h : Accounted s) (clientId : String) (tx : Channel)
    (services : List Service) (hclean : s.registersCleanly clientId tx services = true) :
    Accounted (s.registerAll clientId tx services).1 := by
  induction services generalizing s with
  | nil => exact h
  | cons svc services ih =>
    rw [registersCleanly, Bool.and_eq_true] at hclean
    exact ih (h.register clientId tx svc hclean.1) hclean.2

theorem Accounted.unregister (h : Accounted s) (hi : Indexed s) (clientId : String) :
    Accounted (s.unregisterClient clientId) := by
  have hr := unregisterClient_removal s clientId
  refine ⟨fun port n hp => ?_, fun port n hp => ?_⟩
  · by_cases hrel : s.Released (s.namesOf clientId) port
    · rw [hr.released port hrel] at hp
      cases hp
    · rw [hr.kept port hrel] at hp
      obtain ⟨entry, he, hport, h0, hv⟩ := h.ports port n hp
      refine ⟨entry, ?_, hport, h0, hv⟩
      rw [unregisterClient_lookup, if_neg]
      · exact he
      · exact fun hn => hrel ⟨n, hn, entry, he, hport, h0, hv⟩
  · rw [unregisterClient_listeners] at hp
    obtain ⟨hl, hopen⟩ := hp
    obtain ⟨entry, he, hport, h0, htcp⟩ := h.listeners port n hl
    refine ⟨entry, ?_, hport, h0, htcp⟩
    rw [unregisterClient_lookup, if_neg]
    · exact he
    · exact fun hn => hopen ⟨n, hn, entry, he, hport, h0,
        not_vhost_of_direct (isDirect_of_tcp htcp), htcp, hi.named n entry he⟩

theorem Accounted.released (h : Accounted s) (hi : Indexed s) (hg : Grouped s)
    (clientId : String) : AllReleased clientId (s.unregisterClient clientId) := by
  have h' := h.unregister hi clientId
  refine ⟨fun port n hp => ?_, fun port n hp => ?_, fun entry he => ?_⟩
  · obtain ⟨entry, he, hport, -⟩ := h'.ports port n hp
    exact ⟨entry, he, hport, unregister_entry_foreign hi he⟩
  · obtain ⟨entry, he, hport, -⟩ := h'.listeners port n hp
    exact ⟨entry, he, hport, unregister_entry_foreign hi he⟩
  · obtain ⟨g, he⟩ := (mem_groupOf_iff _ entry).mp he
    exact unregister_entry_foreign hi (hg.unregister clientId g entry he).1

end SharedServiceState

namespace ServerState

open SharedServiceState

def exposesCurrent (s : ServerState) (svc : Service) (bind : Except String Unit) : Bool :=
  !isTcpListener svc || svc.remotePort = 0 || s.registry.isListenerActive svc.remotePort ||
    bind.isOk = false || (s.registry.servicesByName.lookup svc.name).any fun entry =>
      entry.config.remotePort = svc.remotePort && isTcpListener entry.config

def releasesCleanly (s : ServerState) : ServerEvent → Bool
  | .hello clientId services =>
    clientId = "" || (s.registry.attachControl clientId s.nextChannel).registersCleanly clientId
      s.nextChannel services
  | .expose ch bind =>
    (s.sessions.lookup ch).all fun session =>
      session.pending.head?.all fun svc => s.exposesCurrent svc bind
  | _ => true

structure Sound (s : ServerState) : Prop where
  indexed : Indexed s.registry
  grouped : Grouped s.registry
  accounted : Accounted s.registry

theorem Sound.of_registry {s s' : ServerState} (h : s.Sound) (hr : s'.registry = s.registry) :
    s'.Sound :=
  ⟨hr ▸ h.indexed, hr ▸ h.grouped, hr ▸ h.accounted⟩

theorem Sound.unregister {s s' : ServerState} (h : s.Sound) (clientId : String)
    (hr : s'.registry = s.registry.unregisterClient clientId) : s'.Sound where
  indexed := hr ▸ h.indexed.unregister clientId
  grouped := hr ▸ h.grouped.unregister clientId
  accounted := hr ▸ h.accounted.unregister h.indexed clientId

theorem Sound.endSession {s : ServerState} (h : s.Sound) (ch : Channel) (session : Session) :
    (s.endSession ch session).Sound := by
  obtain ⟨registry, udp, hr | hr, hend⟩ := endSession_cases s ch session
  · exact h.of_registry (by rw [hend]; exact hr)
  · exact h.unregister session.clientId (by rw [hend]; exact hr)

theorem Sound.exposed {s t : ServerState} {svc : Service} {bind : Except String Unit}
    (h : s.Sound) (he : Exposed s svc bind t) (hc : s.exposesCurrent svc bind = true) :
    t.Sound := by
  cases he with
  | unchanged => exact h
  | udp htype hport hfree hbind => exact h.of_registry rfl
  | tcp htype hport hfree hbind =>
    refine ⟨h.indexed.of_eq rfl (fun _ => rfl), h.grouped.of_eq rfl rfl,
      ⟨h.accounted.ports, fun port n hp => ?_⟩⟩
    simp only [registerListener, AList.lookup_insert_eq] at hp
    split at hp
    · next hp' =>
      cases hp
      subst hp'
      simp only [exposesCurrent, htype, hport, hfree, hbind, Except.isOk, Except.toBool,
        Bool.not_true, decide_false, Bool.false_or, Bool.or_false, Bool.true_eq_false,
        Option.any_eq_true, Bool.and_eq_true, decide_eq_true_eq] at hc
      obtain ⟨entry, he, hport', htcp⟩ := hc
      exact ⟨entry, he, hport', hport, htcp⟩
    · exact h.accounted.listeners port n hp

theorem Sound.step {s s' : ServerState} {e : ServerEvent} (h : s.Sound)
    (hc : s.releasesCleanly e = true) (hs : s.step e = some s') : s'.Sound := by
  cases step_cases hs with
  | anonymous services => exact h
  | hello clientId services hne =>
    simp only [releasesCleanly, hne, decide_false, Bool.false_or] at hc
    have hgrouped : Grouped (s.registry.attachControl clientId s.nextChannel) :=
      h.grouped.of_eq rfl rfl
    have haccounted : Accounted (s.registry.attachControl clientId s.nextChannel) :=
      h.accounted.of_eq rfl rfl rfl
    refine ⟨?_, ?_, ?_⟩
    · exact (registerAll_exclusive clientId s.nextChannel services
        (h.indexed.attach clientId s.nextChannel)).1
    · exact hgrouped.registerAll clientId s.nextChannel services
    · exact haccounted.registerAll clientId s.nextChannel services hc
  | exposed ch bind session svc pending t hl hp he =>
    simp only [releasesCleanly, hl, hp, Option.all_some, List.head?_cons] at hc
    exact (h.exposed he hc).of_registry rfl
  | refused ch bind session svc pending message hl hp he =>
    exact (h.endSession ch session).of_registry rfl
  | announced ch session hl hp hr => exact h.of_registry rfl
  | unannounced ch session hl hp hr => exact h.endSession ch session
  | disconnected ch session hl hr => exact h.endSession ch session
  | kicked clientId => exact h.unregister clientId rfl
  | listenerEnded port name =>
    unfold removeListenerHandle
    split
    · refine ⟨h.indexed.of_eq rfl (fun _ => rfl), h.grouped.of_eq rfl rfl,
        ⟨h.accounted.ports, fun q n hq => ?_⟩⟩
      simp only [AList.lookup_erase_eq] at hq
      split at hq
      · cases hq
      · exact h.accounted.listeners q n hq
    · exact h.of_registry rfl
  | udpEnded name => exact h.of_registry rfl

theorem run_sound (server : Server) : server.run.Sound where
  indexed := (new_indexed _ _ _ _ _ _).1
  grouped := by
    intro g entry he
    cases he
  accounted := by
    refine ⟨?_, ?_⟩
    · intro port n hp
      cases hp
    · intro port n hp
      cases hp

theorem disconnect_releases_everything (server : Server) (events : List ServerEvent)
    (s : ServerState) (hrun : Machine.run step server.run events = some s)
    (hclean : Machine.Along step (fun s e => s.releasesCleanly e = true) server.run events)
    (clientId : String) : AllReleased clientId (s.registry.unregisterClient clientId) := by
  have h : s.Sound := Machine.run_invariant_along (I := Sound)
    (fun s e s' h hc hs => h.step hc hs) (run_sound server) hclean hrun
  exact h.accounted.released h.indexed h.grouped clientId

def reconnect (second : List Service) : List ServerEvent :=
  [.hello "alice" [{ name := "web", remotePort := 60080, group := some "shop" }],
    .expose 0 (.ok ()), .ready 0 true, .hello "alice" second, .expose 1 (.ok ()), .ready 1 true]

theorem moved_service_released :
    ∃ s, Machine.run step defaultServer.run
        (reconnect [{ name := "web", remotePort := 60081, group := some "site" }]) = some s ∧
      s.registry.allocatedPorts.lookup 60081 = some "web" ∧
      s.registry.activeListeners.lookup 60081 = some "web" ∧
      AllReleased "alice" (s.registry.unregisterClient "alice") := by
  have hrun : (Machine.run step defaultServer.run
      (reconnect [{ name := "web", remotePort := 60081, group := some "site" }])).map (fun s =>
        (s.registry.allocatedPorts.lookup 60081, s.registry.activeListeners.lookup 60081)) =
      some (some "web", some "web") := by decide +kernel
  obtain ⟨s, hs, hlook⟩ := Option.map_eq_some_iff.mp hrun
  obtain ⟨hport, hlistener⟩ := Prod.mk.inj hlook
  exact ⟨s, hs, hport, hlistener,
    disconnect_releases_everything defaultServer _ s hs (by decide +kernel) "alice"⟩

theorem retyped_service_leaks :
    ∃ s, Machine.run step defaultServer.run
        (reconnect [{ name := "web", ty := some "http", remotePort := 60080 }]) = some s ∧
      s.registry.namesOf "alice" = ["web"] ∧
      (s.registry.unregisterClient "alice").servicesByName.lookup "web" = none ∧
      (s.registry.unregisterClient "alice").allocatedPorts.lookup 60080 = some "web" ∧
      (s.registry.unregisterClient "alice").activeListeners.lookup 60080 = some "web" ∧
      ¬AllReleased "alice" (s.registry.unregisterClient "alice") := by
  have hrun : (Machine.run step defaultServer.run
      (reconnect [{ name := "web", ty := some "http", remotePort := 60080 }])).map (fun s =>
        (s.registry.namesOf "alice",
          (s.registry.unregisterClient "alice").servicesByName.lookup "web",
          (s.registry.unregisterClient "alice").allocatedPorts.lookup 60080,
          (s.registry.unregisterClient "alice").activeListeners.lookup 60080)) =
      some (["web"], none, some "web", some "web") := by decide +kernel
  obtain ⟨s, hs, hlook⟩ := Option.map_eq_some_iff.mp hrun
  simp only [Prod.mk.injEq] at hlook
  obtain ⟨hnames, hgone, hport, hlistener⟩ := hlook
  refine ⟨s, hs, hnames, hgone, hport, hlistener, fun h => ?_⟩
  obtain ⟨entry, he, -⟩ := h.ports 60080 "web" hport
  rw [hgone] at he
  cases he

end ServerState

end Cross233.Server
