import Cross233.Server.Acceptance
import Cross233.Server.Cleanup
import Cross233.Server.ProtectedPorts

namespace Cross233.Server

open Protocol

namespace SharedServiceState

def namesUdp (s : SharedServiceState) (name : String) : Bool :=
  (s.servicesByName.lookup name).any fun entry => isUdp entry.config

def registersUdp (s : SharedServiceState) (clientId : String) (tx : Channel)
    (sockets : HashMap String UInt16) : List Service → Bool
  | [] => true
  | svc :: services =>
    (!s.accepts clientId svc || svc.name ∉ sockets || isUdp svc) &&
      (s.registerService clientId tx svc).1.registersUdp clientId tx sockets services

variable {s : SharedServiceState} {clientId : String} {tx : Channel}

theorem isDirect_of_udp {svc : Service} (h : isUdp svc = true) : svc.isDirect = true := by
  simp_all [isUdp, Service.isDirect]

theorem registerService_isUdp {svc svc' : Service}
    (h : (s.registerService clientId tx svc).2 = some svc') : isUdp svc' = isUdp svc := by
  rw [assignPort_service (registerService_some h).2.2.1]
  rfl

theorem registerService_udp_port {svc svc' : Service}
    (h : (s.registerService clientId tx svc).2 = some svc') (hu : isUdp svc' = true) :
    svc'.remotePort ≠ 0 := by
  have ha := assignPort_cases s (s.servicesByName.lookup svc.name) svc
  rw [(registerService_some h).2.2.1] at ha
  exact port_ne_zero (ha.valid (isDirect_of_udp hu))

theorem registerAll_udp_ports (services : List Service) :
    ∀ svc ∈ (s.registerAll clientId tx services).2, isUdp svc = true → svc.remotePort ≠ 0 := by
  induction services generalizing s with
  | nil =>
    intro svc hm
    cases hm
  | cons svc services ih =>
    intro svc' hm hu
    rcases List.mem_append.mp hm with hm | hm
    · exact registerService_udp_port (Option.mem_toList.mp hm) hu
    · exact ih svc' hm hu

theorem registerService_other {svc : Service} {n : String} {entry : ServiceEntry}
    (he : (s.registerService clientId tx svc).1.servicesByName.lookup n = some entry) :
    entry.controlTx = tx ∨ s.servicesByName.lookup n = some entry := by
  cases hr : (s.registerService clientId tx svc).2 with
  | none =>
    obtain ⟨next, hs⟩ := registerService_none hr
    rw [hs] at he
    exact Or.inr he
  | some svc' =>
    rw [registerService_lookup hr] at he
    split at he
    · cases he
      exact Or.inl rfl
    · exact Or.inr he

theorem registerAll_other {services : List Service} {n : String} {entry : ServiceEntry}
    (he : (s.registerAll clientId tx services).1.servicesByName.lookup n = some entry) :
    entry.controlTx = tx ∨ s.servicesByName.lookup n = some entry := by
  induction services generalizing s with
  | nil => exact Or.inr he
  | cons svc services ih =>
    rcases ih he with h | h
    · exact Or.inl h
    · exact registerService_other h

theorem registerService_namesUdp {sockets : HashMap String UInt16} {svc : Service}
    (h : ∀ n ∈ sockets, s.namesUdp n = true)
    (hc : (!s.accepts clientId svc || svc.name ∉ sockets || isUdp svc) = true) :
    ∀ n ∈ sockets, (s.registerService clientId tx svc).1.namesUdp n = true := by
  intro n hn
  cases hr : (s.registerService clientId tx svc).2 with
  | none =>
    obtain ⟨next, hs⟩ := registerService_none hr
    rw [hs]
    exact h n hn
  | some svc' =>
    rw [namesUdp, registerService_lookup hr]
    split
    · next hname =>
      subst hname
      rw [Option.any_some, registerService_isUdp hr]
      simpa [accepts_of_registered hr, hn] using hc
    · exact h n hn

theorem registerAll_namesUdp {sockets : HashMap String UInt16} {services : List Service}
    (h : ∀ n ∈ sockets, s.namesUdp n = true)
    (hc : s.registersUdp clientId tx sockets services = true) :
    ∀ n ∈ sockets, (s.registerAll clientId tx services).1.namesUdp n = true := by
  induction services generalizing s with
  | nil => exact h
  | cons svc services ih =>
    rw [registersUdp, Bool.and_eq_true] at hc
    exact ih (registerService_namesUdp h hc.1) hc.2

end SharedServiceState

open SharedServiceState

namespace ServerState

def announcedTo (s : ServerState) (ch : Channel) : List Service :=
  (s.replies.filter fun reply => reply.1 = ch ∧ reply.2.ty = "ready").flatMap fun reply =>
    reply.2.services

-- The services of a session that its handler has got past exposing.
def exposedTo (s : ServerState) (ch : Channel) : List Service :=
  (s.sessions.lookup ch).toList.flatMap fun session =>
    session.assigned.take (session.assigned.length - session.pending.length)

def served (s : ServerState) (ch : Channel) : List Service := s.announcedTo ch ++ s.exposedTo ch

end ServerState

namespace SocketState

-- A registration is current until its own session begins to withdraw it.
def isCurrent (s : SocketState) (ch : Channel) (svc : Service) : Bool :=
  ch ∉ s.withdrawn &&
    (s.server.registry.servicesByName.lookup svc.name).any fun entry =>
      entry.controlTx = ch && isUdp entry.config && entry.config.remotePort = svc.remotePort

-- The session that has the name registered now has exposed it.
def holds (s : SocketState) (name : String) : Bool :=
  (s.server.registry.servicesByName.lookup name).any fun entry =>
    (s.server.served entry.controlTx).any fun svc =>
      svc.name = name && isUdp svc && s.isCurrent entry.controlTx svc

structure Following (s : SocketState) : Prop where
  served : ∀ ch, ∀ svc ∈ s.server.served ch, isUdp svc = true → s.isCurrent ch svc = true →
    s.server.udpServices.lookup svc.name = some svc.remotePort
  registered : ∀ n ∈ s.server.udpServices, s.server.registry.namesUdp n = true

structure Numbered (s : SocketState) : Prop where
  announced : ∀ ch svc, svc ∈ s.server.announcedTo ch → ch < s.server.nextChannel
  sessions : ∀ ch session, s.server.sessions.lookup ch = some session →
    ch < s.server.nextChannel ∧ session.pending <:+ session.assigned ∧
      ∀ svc ∈ session.pending, isUdp svc = true → svc.remotePort ≠ 0

end SocketState

namespace ServerState

variable {s t : ServerState} {ch c : Channel} {session : Session} {svc : Service}
  {pending : List Service} {bind : Except String Unit}

theorem mem_exposedTo : svc ∈ s.exposedTo ch ↔
    ∃ session, s.sessions.lookup ch = some session ∧
      svc ∈ session.assigned.take (session.assigned.length - session.pending.length) := by
  simp [exposedTo, List.mem_flatMap, Option.mem_toList]

theorem take_exposed {assigned : List Service} (h : svc :: pending <:+ assigned) :
    assigned.take (assigned.length - pending.length) =
      assigned.take (assigned.length - (svc :: pending).length) ++ [svc] := by
  obtain ⟨past, rfl⟩ := h
  have hlen : past.length + (pending.length + 1) - pending.length = past.length + 1 := by omega
  simp [hlen, List.take_append]

theorem announcedTo_reply (s : ServerState) (ch c : Channel) (msg : Message) :
    (s.reply ch msg).announcedTo c =
      s.announcedTo c ++ if ch = c ∧ msg.ty = "ready" then msg.services else [] := by
  unfold announcedTo reply
  rw [List.filter_append, List.flatMap_append]
  congr 1
  split
  · next h => simp [h]
  · next h => simp [h]

theorem announcedTo_congr (h : t.replies = s.replies) (c : Channel) :
    t.announcedTo c = s.announcedTo c := by
  unfold announcedTo
  rw [h]

theorem served_withPending (hreplies : t.replies = s.replies) (hsessions : t.sessions = s.sessions)
    (hl : s.sessions.lookup ch = some session) (hp : session.pending = svc :: pending)
    (hsuffix : session.pending <:+ session.assigned) {svc' : Service}
    (h : svc' ∈ (t.withPending ch session pending).served c) :
    svc' ∈ s.served c ∨ c = ch ∧ svc' = svc := by
  rcases List.mem_append.mp h with h | h
  · exact .inl (List.mem_append_left _ ((announcedTo_congr hreplies c) ▸ h))
  · obtain ⟨found, hf, hm⟩ := mem_exposedTo.mp h
    dsimp only [withPending] at hf
    rw [AList.lookup_insert_eq, hsessions] at hf
    split at hf
    · next hc =>
      cases hf
      rw [take_exposed (hp ▸ hsuffix), ← hp] at hm
      rcases List.mem_append.mp hm with hm | hm
      · exact .inl (List.mem_append_right _ (mem_exposedTo.mpr ⟨session, hc ▸ hl, hm⟩))
      · exact .inr ⟨hc, List.mem_singleton.mp hm⟩
    · exact .inl (List.mem_append_right _ (mem_exposedTo.mpr ⟨found, hf, hm⟩))

theorem served_ready (hl : s.sessions.lookup ch = some session) (hp : session.pending = [])
    (h : svc ∈ (s.ready ch session true).served c) : svc ∈ s.served c := by
  rcases List.mem_append.mp h with h | h
  · have hr : svc ∈ (s.reply ch (.newReady session.assigned s.qcpPort
        s.qcpTunnelPort)).announcedTo c := h
    rw [announcedTo_reply] at hr
    rcases List.mem_append.mp hr with hr | hr
    · exact List.mem_append_left _ hr
    · split at hr
      · next hc =>
        refine List.mem_append_right _ (mem_exposedTo.mpr ⟨session, hc.1 ▸ hl, ?_⟩)
        rw [hp, List.length_nil, Nat.sub_zero, List.take_length]
        exact hr
      · cases hr
  · obtain ⟨found, hf, hm⟩ := mem_exposedTo.mp h
    simp only [ready, reply, if_true] at hf
    rw [AList.lookup_insert_eq] at hf
    split at hf
    · next hc =>
      cases hf
      exact List.mem_append_right _ (mem_exposedTo.mpr ⟨session, hc ▸ hl, hm⟩)
    · exact List.mem_append_right _ (mem_exposedTo.mpr ⟨found, hf, hm⟩)

theorem exposeService_kept (h : s.exposeService svc bind = .ok t) :
    t.replies = s.replies ∧ t.sessions = s.sessions ∧ t.nextChannel = s.nextChannel := by
  cases exposeService_cases h with
  | unchanged | tcp | udp => exact ⟨rfl, rfl, rfl⟩

end ServerState

namespace SocketState

open ServerState

variable {s s' : SocketState} {ch c : Channel} {session : Session} {svc : Service}
  {pending : List Service} {bind : Except String Unit}

theorem isCurrent_mono (h : s'.isCurrent ch svc = true)
    (hname : ∀ entry, s'.server.registry.servicesByName.lookup svc.name = some entry →
      s.server.registry.servicesByName.lookup svc.name = some entry)
    (hw : s.withdrawn ⊆ s'.withdrawn) : s.isCurrent ch svc = true := by
  simp only [isCurrent, Bool.and_eq_true, decide_eq_true_eq, Option.any_eq_true] at h ⊢
  obtain ⟨hnot, entry, he, hmatch⟩ := h
  exact ⟨fun hm => hnot (hw hm), entry, hname entry he, hmatch⟩

theorem holds_of_served (hs : svc ∈ s.server.served ch) (hu : isUdp svc = true)
    (hc : s.isCurrent ch svc = true) : s.holds svc.name = true := by
  have hcur := hc
  simp only [isCurrent, Bool.and_eq_true, decide_eq_true_eq, Option.any_eq_true] at hcur
  obtain ⟨-, entry, he, ⟨htx, -⟩, -⟩ := hcur
  subst htx
  refine (Option.any_eq_true _ _).mpr ⟨entry, he, List.any_eq_true.mpr ⟨svc, hs, ?_⟩⟩
  simp [hu, hc]

theorem Following.keep (h : Following s)
    (hserved : ∀ ch svc, svc ∈ s'.server.served ch → svc ∈ s.server.served ch)
    (hcurrent : ∀ ch, ∀ svc ∈ s.server.served ch, isUdp svc = true →
      s'.isCurrent ch svc = true → s.isCurrent ch svc = true ∧
        s'.server.udpServices.lookup svc.name = s.server.udpServices.lookup svc.name)
    (hregistered : ∀ n ∈ s'.server.udpServices, s'.server.registry.namesUdp n = true) :
    Following s' where
  served ch svc hs hu hc := by
    obtain ⟨hc, hl⟩ := hcurrent ch svc (hserved ch svc hs) hu hc
    exact hl ▸ h.served ch svc (hserved ch svc hs) hu hc
  registered := hregistered

theorem Numbered.served_lt (h : Numbered s) (hs : svc ∈ s.server.served ch) :
    ch < s.server.nextChannel := by
  rcases List.mem_append.mp hs with hs | hs
  · exact h.announced ch svc hs
  · obtain ⟨session, hl, -⟩ := mem_exposedTo.mp hs
    exact (h.sessions ch session hl).1

-- What a step leaves alone that neither registers, exposes nor removes a service or a socket.
structure Frame (s s' : SocketState) : Prop where
  byName : s'.server.registry.servicesByName = s.server.registry.servicesByName
  sockets : s'.server.udpServices = s.server.udpServices
  announced : ∀ ch, s'.server.announcedTo ch = s.server.announcedTo ch
  sessions : ∀ ch session, s'.server.sessions.lookup ch = some session →
    s.server.sessions.lookup ch = some session
  nextChannel : s'.server.nextChannel = s.server.nextChannel
  withdrawn : s.withdrawn ⊆ s'.withdrawn

theorem Frame.served (f : Frame s s') (h : svc ∈ s'.server.served ch) :
    svc ∈ s.server.served ch := by
  rcases List.mem_append.mp h with h | h
  · exact List.mem_append_left _ (f.announced ch ▸ h)
  · obtain ⟨session, hl, hm⟩ := mem_exposedTo.mp h
    exact List.mem_append_right _ (mem_exposedTo.mpr ⟨session, f.sessions ch session hl, hm⟩)

theorem Frame.numbered (f : Frame s s') (h : Numbered s) : Numbered s' where
  announced ch svc hm := by
    rw [f.nextChannel]
    exact h.announced ch svc (f.announced ch ▸ hm)
  sessions ch session hl := by
    rw [f.nextChannel]
    exact h.sessions ch session (f.sessions ch session hl)

theorem Following.hello {clientId : String} {services : List Service} (h : Following s)
    (hn : Numbered s)
    (hc : (s.server.registry.attachControl clientId s.server.nextChannel).registersUdp clientId
      s.server.nextChannel s.server.udpServices services = true) :
    Following { s with server := s.server.hello clientId services } := by
  refine h.keep (fun ch svc hs => ?_) (fun ch svc hs _ hcur => ⟨?_, rfl⟩) ?_
  · rcases List.mem_append.mp hs with hs | hs
    · exact List.mem_append_left _ hs
    · obtain ⟨session, hl, hm⟩ := mem_exposedTo.mp hs
      dsimp only [ServerState.hello] at hl
      rw [AList.lookup_insert_eq] at hl
      split at hl
      · cases hl
        simp at hm
      · exact List.mem_append_right _ (mem_exposedTo.mpr ⟨session, hl, hm⟩)
  · -- The channel of the new session is no channel of an older entry.
    simp only [isCurrent, Bool.and_eq_true, decide_eq_true_eq, Option.any_eq_true] at hcur ⊢
    obtain ⟨hw, entry, he, ⟨htx, hu⟩, hport⟩ := hcur
    rcases registerAll_other he with hnew | he
    · exact absurd (htx.symm.trans hnew) (Nat.ne_of_lt (hn.served_lt hs))
    · exact ⟨hw, entry, he, ⟨htx, hu⟩, hport⟩
  · exact registerAll_namesUdp h.registered hc

theorem Numbered.hello {clientId : String} {services : List Service} (h : Numbered s) :
    Numbered { s with server := s.server.hello clientId services } where
  announced ch svc hm := Nat.lt_succ_of_lt (h.announced ch svc hm)
  sessions ch session hl := by
    dsimp only [ServerState.hello] at hl ⊢
    rw [AList.lookup_insert_eq] at hl
    split at hl
    · next hch =>
      cases hl
      exact ⟨hch ▸ Nat.lt_succ_self _, List.suffix_refl _, registerAll_udp_ports services⟩
    · exact ⟨Nat.lt_succ_of_lt (h.sessions ch session hl).1, (h.sessions ch session hl).2⟩

theorem Numbered.withPending {t : ServerState} (h : Numbered s)
    (hreplies : t.replies = s.server.replies) (hsessions : t.sessions = s.server.sessions)
    (hnext : t.nextChannel = s.server.nextChannel)
    (hl : s.server.sessions.lookup ch = some session) (hp : session.pending = svc :: pending)
    (starting : Finset Channel) :
    Numbered { s with server := t.withPending ch session pending, starting := starting } := by
  refine ⟨fun c svc' hm => ?_, fun c found hf => ?_⟩
  · exact hnext ▸ h.announced c svc' (announcedTo_congr hreplies c ▸ hm)
  · dsimp only [ServerState.withPending] at hf ⊢
    rw [AList.lookup_insert_eq, hsessions] at hf
    rw [hnext]
    split at hf
    · next hc =>
      cases hf
      obtain ⟨hlt, hsuffix, hports⟩ := h.sessions ch session hl
      rw [hp] at hsuffix
      exact ⟨hc ▸ hlt, (List.suffix_cons svc pending).trans hsuffix,
        fun svc' hm => hports svc' (hp ▸ List.mem_cons_of_mem _ hm)⟩
    · exact h.sessions c found hf

theorem Following.exposed {t : ServerState} (h : Following s) (hn : Numbered s)
    (hl : s.server.sessions.lookup ch = some session) (hp : session.pending = svc :: pending)
    (ht : s.server.exposeService svc bind = .ok t)
    (hsockets : t.udpServices = s.server.udpServices)
    (hnames : t.registry.servicesByName = s.server.registry.servicesByName)
    (hc : isUdp svc = true → s.isCurrent ch svc = true →
      s.server.udpServices.lookup svc.name = some svc.remotePort) :
    Following { s with server := t.withPending ch session pending } := by
  obtain ⟨hreplies, hsessions, -⟩ := exposeService_kept ht
  refine ⟨fun c svc' hs hu hcur => ?_, fun n hn => ?_⟩
  · have hheld : s.isCurrent c svc' = true :=
      isCurrent_mono hcur (fun entry he => hnames ▸ he) (Finset.Subset.refl _)
    refine (congrArg (AList.lookup svc'.name) hsockets).trans ?_
    rcases served_withPending hreplies hsessions hl hp (hn.sessions ch session hl).2.1 hs with
      hs | ⟨rfl, rfl⟩
    · exact h.served c svc' hs hu hheld
    · exact hc hu hheld
  · have hold := h.registered n (hsockets ▸ hn)
    rwa [namesUdp, ← hnames] at hold

theorem Following.inserted (h : Following s) (hn : Numbered s)
    (hl : s.server.sessions.lookup ch = some session)
    (hp : session.pending = svc :: pending)
    (hnames : s.server.registry.namesUdp svc.name = true)
    (hfree : (!s.holds svc.name ||
      s.server.udpServices.lookup svc.name = some svc.remotePort) = true) :
    Following (s.insertSocket ch session svc pending) := by
  have hlook (n : String) : (s.server.udpServices.insert svc.name svc.remotePort).lookup n =
      if n = svc.name then some svc.remotePort else s.server.udpServices.lookup n :=
    AList.lookup_insert_eq _ _ _ _
  refine ⟨fun c svc' hs hu hcur => ?_, fun n hn => ?_⟩
  · refine (hlook svc'.name).trans ?_
    rcases served_withPending rfl rfl hl hp (hn.sessions ch session hl).2.1 hs with
      hs | ⟨rfl, rfl⟩
    · have hold := h.served c svc' hs hu hcur
      split
      · next hname =>
        have hholds : s.holds svc.name = true := hname ▸ holds_of_served hs hu hcur
        have hsame : s.server.udpServices.lookup svc.name = some svc.remotePort := by
          simpa [hholds] using hfree
        rw [← hsame, ← hname, hold]
      · exact hold
    · exact if_pos rfl
  · obtain ⟨port, hn⟩ := AList.mem_iff_lookup.mp hn
    replace hn := (hlook n).symm.trans hn
    split at hn
    · next hname => exact hname ▸ hnames
    · exact h.registered n (AList.mem_of_lookup hn)

theorem Following.announced (h : Following s) (hl : s.server.sessions.lookup ch = some session)
    (hp : session.pending = []) :
    Following { s with server := s.server.ready ch session true } :=
  h.keep (fun _ _ hs => served_ready hl hp hs) (fun _ _ _ _ hc => ⟨hc, rfl⟩) h.registered

theorem Following.stopped {name : String} (h : Following s) (hc : s.holds name = false)
    (cleanups : HashMap Channel Cleanup) :
    Following { s with server := s.server.stopService name, cleanups := cleanups } := by
  have hlook (n : String) : (s.server.udpServices.erase name).lookup n =
      if n = name then none else s.server.udpServices.lookup n := AList.lookup_erase_eq _ _ _
  refine h.keep (fun _ _ hs => hs) (fun c svc hs hu hcur => ⟨hcur, (hlook svc.name).trans ?_⟩)
    (fun n hn => ?_)
  · refine if_neg (fun hname => ?_)
    have hholds : s.holds name = true := hname ▸ holds_of_served hs hu hcur
    cases hc.symm.trans hholds
  · obtain ⟨port, hn⟩ := AList.mem_iff_lookup.mp hn
    replace hn := (hlook n).symm.trans hn
    split at hn
    · cases hn
    · exact h.registered n (AList.mem_of_lookup hn)

def clock : Service := { name := "ntp", ty := some "udp", remotePort := 60082 }

def observe (s : SocketState) (ch : Channel) : List (String × UInt16 × Bool × Option UInt16) :=
  (s.server.announcedTo ch).map fun svc =>
    (svc.name, svc.remotePort, isUdp svc && s.isCurrent ch svc,
      s.server.udpServices.lookup svc.name)

end SocketState

end Cross233.Server
