import Cross233.Server.Control
import Cross233.Server.Registration

namespace Cross233.Server.ServerState

open Protocol

inductive Exposed (s : ServerState) (svc : Service) (bind : Except String Unit) :
    ServerState → Prop where
  | unchanged : Exposed s svc bind s
  | tcp (htype : SharedServiceState.isTcpListener svc = true) (hport : svc.remotePort ≠ 0)
      (hfree : s.registry.isListenerActive svc.remotePort = false) (hbind : bind = .ok ()) :
      Exposed s svc bind { s with
        registry := s.registry.registerListener svc.remotePort svc.name
        opened := s.opened ++ [(.tcp, svc.remotePort)] }
  | udp (htype : svc.effectiveType = "udp") (hport : svc.remotePort ≠ 0)
      (hfree : svc.name ∉ s.udpServices) (hbind : bind = .ok ()) :
      Exposed s svc bind { s with
        udpServices := s.udpServices.insert svc.name svc.remotePort
        opened := s.opened ++ [(.udp, svc.remotePort)] }

theorem startTcp_cases {s s' : ServerState} {svc : Service} {bind : Except String Unit}
    (htype : SharedServiceState.isTcpListener svc = true) (hport : svc.remotePort ≠ 0)
    (h : s.startTcpListenerForService svc.name svc.remotePort bind = .ok s') :
    Exposed s svc bind s' := by
  unfold startTcpListenerForService at h
  split at h
  · cases h
    exact .unchanged
  · next hfree =>
    cases bind with
    | error e => cases h
    | ok u =>
      cases h
      exact .tcp htype hport (Bool.eq_false_iff.mpr hfree) rfl

theorem startUdp_cases {s s' : ServerState} {svc : Service} {bind : Except String Unit}
    (htype : svc.effectiveType = "udp") (hport : svc.remotePort ≠ 0)
    (h : s.startService svc.name svc.remotePort bind = .ok s') : Exposed s svc bind s' := by
  unfold startService at h
  split at h
  · cases h
    exact .unchanged
  · next hfree =>
    cases bind with
    | error e => cases h
    | ok u =>
      cases h
      exact .udp htype hport hfree rfl

theorem exposeTcp_cases {s s' : ServerState} {svc : Service} {bind : Except String Unit}
    (htype : SharedServiceState.isTcpListener svc = true) (h : s.exposeTcp svc bind = .ok s') :
    Exposed s svc bind s' := by
  unfold exposeTcp at h
  split at h
  · next hguard =>
    simp only [Bool.and_eq_true, decide_eq_true_eq] at hguard
    split at h
    · next t ht =>
      cases h
      exact startTcp_cases htype hguard.1.2 ht
    · cases h
  · cases h
    exact .unchanged

theorem exposeUdp_cases {s s' : ServerState} {svc : Service} {bind : Except String Unit}
    (htype : svc.effectiveType = "udp") (h : s.exposeUdp svc bind = .ok s') :
    Exposed s svc bind s' := by
  unfold exposeUdp at h
  split at h
  · next hport =>
    split at h
    · next t ht =>
      cases h
      exact startUdp_cases htype hport ht
    · cases h
  · cases h
    exact .unchanged

theorem exposeService_cases {s s' : ServerState} {svc : Service} {bind : Except String Unit}
    (h : s.exposeService svc bind = .ok s') : Exposed s svc bind s' := by
  unfold exposeService at h
  split at h
  · next htype => exact exposeTcp_cases (by simp [SharedServiceState.isTcpListener, htype]) h
  · next htype => exact exposeTcp_cases (by simp [SharedServiceState.isTcpListener, htype]) h
  · next htype => exact exposeTcp_cases (by simp [SharedServiceState.isTcpListener, htype]) h
  · next htype => exact exposeUdp_cases htype h
  · cases h
    exact .unchanged

theorem stopServices_eq (s : ServerState) (names : List String) :
    names.foldl stopService s =
      { s with udpServices := names.foldl (fun m name => m.erase name) s.udpServices } := by
  induction names generalizing s with
  | nil => rfl
  | cons name names ih => exact ih (s.stopService name)

theorem stopServices_lookup (names : List String) (sockets : HashMap String UInt16) (n : String) :
    (names.foldl (fun m name => m.erase name) sockets).lookup n =
      if n ∈ names then none else sockets.lookup n := by
  induction names generalizing sockets with
  | nil => simp
  | cons name names ih =>
    rw [List.foldl_cons, ih, AList.lookup_erase_eq]
    by_cases hn : n ∈ names <;> by_cases hnn : n = name <;> simp [hn, hnn]

theorem endSession_cases (s : ServerState) (ch : Channel) (session : Session) :
    ∃ registry udp, (registry = s.registry ∨
        registry = s.registry.unregisterClient session.clientId) ∧
      s.endSession ch session = { s with
        registry := registry, udpServices := udp, sessions := s.sessions.erase ch } := by
  unfold endSession cleanupRegisteredSession
  split
  · next hcur =>
    simp only [stopServices_eq, SharedServiceState.unregisterClientIfCurrent, hcur, if_true]
    exact ⟨_, _, Or.inr rfl, rfl⟩
  · exact ⟨_, _, Or.inl rfl, rfl⟩

inductive Transition (s : ServerState) : ServerEvent → ServerState → Prop where
  | anonymous (services : List Service) : Transition s (.hello "" services) s
  | hello (clientId : String) (services : List Service) (hc : clientId ≠ "") :
      Transition s (.hello clientId services) (s.hello clientId services)
  | exposed (ch : Channel) (bind : Except String Unit) (session : Session) (svc : Service)
      (pending : List Service) (t : ServerState) (hl : s.sessions.lookup ch = some session)
      (hp : session.pending = svc :: pending) (he : Exposed s svc bind t) :
      Transition s (.expose ch bind)
        { t with sessions := t.sessions.insert ch { session with pending := pending } }
  | refused (ch : Channel) (bind : Except String Unit) (session : Session) (svc : Service)
      (pending : List Service) (message : String) (hl : s.sessions.lookup ch = some session)
      (hp : session.pending = svc :: pending) (he : s.exposeService svc bind = .error message) :
      Transition s (.expose ch bind) ((s.endSession ch session).reply ch (.newError message))
  | announced (ch : Channel) (session : Session) (hl : s.sessions.lookup ch = some session)
      (hp : session.pending = []) (hr : session.isReady = false) :
      Transition s (.ready ch true) { s with
        replies := s.replies ++ [(ch, .newReady session.assigned s.qcpPort s.qcpTunnelPort)]
        sessions := s.sessions.insert ch { session with isReady := true } }
  | unannounced (ch : Channel) (session : Session) (hl : s.sessions.lookup ch = some session)
      (hp : session.pending = []) (hr : session.isReady = false) :
      Transition s (.ready ch false) (s.endSession ch session)
  | disconnected (ch : Channel) (session : Session) (hl : s.sessions.lookup ch = some session)
      (hr : session.isReady = true) : Transition s (.disconnect ch) (s.endSession ch session)
  | kicked (clientId : String) : Transition s (.kick clientId)
      { s with registry := s.registry.unregisterClient clientId }
  | listenerEnded (port : UInt16) (name : String) : Transition s (.listenerEnded port name)
      { s with registry := s.registry.removeListenerHandle port name }
  | udpEnded (name : String) : Transition s (.udpEnded name) (s.stopService name)

theorem step_cases {s s' : ServerState} {e : ServerEvent} (h : s.step e = some s') :
    Transition s e s' := by
  cases e with
  | hello clientId services =>
    simp only [step] at h
    split at h
    · next hc =>
      cases h
      exact hc ▸ .anonymous services
    · next hc =>
      cases h
      exact .hello clientId services hc
  | expose ch bind =>
    obtain ⟨session, hl, h⟩ := Option.bind_eq_some_iff.mp h
    split at h
    · cases h
    · next svc pending hp =>
      cases h
      unfold expose
      split
      · next t he => exact .exposed ch bind session svc pending t hl hp (exposeService_cases he)
      · next message he => exact .refused ch bind session svc pending message hl hp he
  | ready ch written =>
    obtain ⟨session, hl, h⟩ := Option.bind_eq_some_iff.mp h
    split at h
    · next hp =>
      cases h
      cases written with
      | true => exact .announced ch session hl hp.1 hp.2
      | false => exact .unannounced ch session hl hp.1 hp.2
    · cases h
  | disconnect ch =>
    obtain ⟨session, hl, h⟩ := Option.bind_eq_some_iff.mp h
    split at h
    · next hr =>
      cases h
      exact .disconnected ch session hl hr
    · cases h
  | kick clientId =>
    cases h
    exact .kicked clientId
  | listenerEnded port name =>
    cases h
    exact .listenerEnded port name
  | udpEnded name =>
    cases h
    exact .udpEnded name

end Cross233.Server.ServerState
