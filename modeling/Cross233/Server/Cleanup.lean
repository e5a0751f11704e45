import Mathlib.Data.Finset.Basic
import Cross233.Server.Reconnect
import Cross233.Server.Transition

namespace Cross233.Server

open Protocol

def SharedServiceState.isUdp (svc : Service) : Bool := svc.effectiveType = "udp"

open SharedServiceState

inductive CleanupPc where
  | check
  | copy
  | stop (names : List String)
  | unregister (pc : UnregisterPc)

structure Cleanup where
  clientId : String
  refusal : Option String
  pc : CleanupPc

-- The server and the calls that others can come in between: start_service after its bind, the
-- cleanups of ended sessions, and the removals of kicked clients.
structure SocketState where
  server : ServerState
  starting : Finset Channel
  cleanups : HashMap Channel Cleanup
  withdrawn : Finset Channel
  kicks : List (String × UnregisterPc)

inductive SocketEvent where
  | hello (clientId : String) (services : List Service)
  | expose (ch : Channel) (bind : Except String Unit)
  | insert (ch : Channel)
  | ready (ch : Channel) (written : Bool)
  | disconnect (ch : Channel)
  | cleanup (ch : Channel)
  | kick (clientId : String)
  | removal (k : Nat)
  | listenerEnded (port : UInt16) (name : String)
  | udpEnded (name : String)

-- One lock section of unregister_client_if_current, or of unregister_client from `take` on.
def unregisterNext (registry : SharedServiceState) (clientId : String) (ch : Channel)
    (pc : UnregisterPc) : Option (SharedServiceState × UnregisterPc) :=
  (Race.unregisterStep clientId ch ⟨registry, .done, [], pc⟩).map fun r =>
    (r.registry, r.unregister)

namespace ServerState

def withPending (t : ServerState) (ch : Channel) (session : Session) (pending : List Service) :
    ServerState :=
  { t with sessions := t.sessions.insert ch { session with pending := pending } }

def withRegistry (s : ServerState) (registry : SharedServiceState) : ServerState :=
  { s with registry := registry }

def putSocket (s : ServerState) (svc : Service) : ServerState :=
  { s with
    udpServices := s.udpServices.insert svc.name svc.remotePort
    opened := s.opened ++ [(.udp, svc.remotePort)] }

end ServerState

namespace SocketState

def run (server : Server) : SocketState where
  server := server.run
  starting := ∅
  cleanups := ∅
  withdrawn := ∅
  kicks := []

def endSession (s : SocketState) (ch : Channel) (session : Session) (refusal : Option String) :
    SocketState :=
  { s with
    server := { s.server with sessions := s.server.sessions.erase ch }
    cleanups := s.cleanups.insert ch ⟨session.clientId, refusal, .check⟩ }

def finish (s : SocketState) (ch : Channel) (c : Cleanup) : SocketState :=
  { s with
    server :=
      match c.refusal with
      | some message => s.server.reply ch (.newError message)
      | none => s.server
    cleanups := s.cleanups.erase ch }

def goto (s : SocketState) (ch : Channel) (c : Cleanup) (pc : CleanupPc) : SocketState :=
  { s with cleanups := s.cleanups.insert ch { c with pc := pc } }

def binds (s : SocketState) (svc : Service) : Bool :=
  isUdp svc && svc.remotePort ≠ 0 && svc.name ∉ s.server.udpServices

def expose (s : SocketState) (ch : Channel) (session : Session) (svc : Service)
    (pending : List Service) (bind : Except String Unit) : SocketState :=
  match s.server.exposeService svc bind with
  | .ok t =>
    if s.binds svc then { s with starting := insert ch s.starting }
    else { s with server := t.withPending ch session pending }
  | .error message => s.endSession ch session (some message)

def insertSocket (s : SocketState) (ch : Channel) (session : Session) (svc : Service)
    (pending : List Service) : SocketState :=
  { s with
    server := (s.server.putSocket svc).withPending ch session pending
    starting := s.starting.erase ch }

def cleanup (s : SocketState) (ch : Channel) (c : Cleanup) : Option SocketState :=
  match c.pc with
  | .check =>
    if s.server.registry.isCurrentControl c.clientId ch then
      some ({ s with withdrawn := insert ch s.withdrawn }.goto ch c .copy)
    else some (s.finish ch c)
  | .copy => some (s.goto ch c (.stop (s.server.registry.namesOf c.clientId)))
  | .stop [] => some (s.goto ch c (.unregister .check))
  | .stop (name :: names) =>
    some ({ s with server := s.server.stopService name }.goto ch c (.stop names))
  | .unregister .done => some (s.finish ch c)
  | .unregister pc =>
    (unregisterNext s.server.registry c.clientId ch pc).map fun next =>
      { s with server := s.server.withRegistry next.1 }.goto ch c (.unregister next.2)

-- The control sender of a kicked client is gone before its services are taken.
def kick (s : SocketState) (clientId : String) : SocketState :=
  { s with
    server := s.server.withRegistry { s.server.registry with
      clientControlTx := s.server.registry.clientControlTx.erase clientId }
    kicks := s.kicks ++ [(clientId, .take)] }

def removal (s : SocketState) (k : Nat) (clientId : String) (pc : UnregisterPc) :
    Option SocketState :=
  (unregisterNext s.server.registry clientId 0 pc).map fun next =>
    { s with
      server := s.server.withRegistry next.1
      kicks := s.kicks.set k (clientId, next.2) }

def step (s : SocketState) : SocketEvent → Option SocketState
  | .hello clientId services =>
    if clientId = "" then some s
    else some { s with server := s.server.hello clientId services }
  | .expose ch bind => do
    let session ← s.server.sessions.lookup ch
    match session.pending with
    | [] => none
    | svc :: pending =>
      if ch ∈ s.starting then none else some (s.expose ch session svc pending bind)
  | .insert ch => do
    let session ← s.server.sessions.lookup ch
    match session.pending with
    | [] => none
    | svc :: pending =>
      if ch ∈ s.starting then some (s.insertSocket ch session svc pending) else none
  | .ready ch written => do
    let session ← s.server.sessions.lookup ch
    if session.pending = [] ∧ session.isReady = false then
      if written then some { s with server := s.server.ready ch session true }
      else some (s.endSession ch session none)
    else none
  | .disconnect ch => do
    let session ← s.server.sessions.lookup ch
    if session.isReady then some (s.endSession ch session none) else none
  | .cleanup ch => do
    let c ← s.cleanups.lookup ch
    s.cleanup ch c
  | .kick clientId => some (s.kick clientId)
  | .removal k => do
    let task ← s.kicks[k]?
    s.removal k task.1 task.2
  | .listenerEnded port name =>
    some { s with server :=
      s.server.withRegistry (s.server.registry.removeListenerHandle port name) }
  | .udpEnded name => some { s with server := s.server.stopService name }

end SocketState

namespace ServerState

variable {s t : ServerState} {svc : Service} {bind : Except String Unit}

theorem exposeService_put (hu : isUdp svc = true) (hport : svc.remotePort ≠ 0)
    (hfree : svc.name ∉ s.udpServices) (h : s.exposeService svc bind = .ok t) :
    t = s.putSocket svc := by
  have htype : svc.effectiveType = "udp" := of_decide_eq_true hu
  simp only [exposeService, htype, exposeUdp, if_pos hport, startService, if_neg hfree] at h
  cases bind with
  | error e => cases h
  | ok u =>
    cases h
    rfl

theorem endSession_erased (s : ServerState) (ch : Channel) (session : Session) :
    { s with sessions := s.sessions.erase ch }.cleanupRegisteredSession session.clientId ch =
      s.endSession ch session := by
  unfold endSession cleanupRegisteredSession
  dsimp only
  split
  · simp only [stopServices_eq]
  · rfl

end ServerState

namespace SocketState

open ServerState

variable {s s' t : SocketState} {e : SocketEvent} {ch : Channel} {clientId : String}
  {refusal : Option String}

-- Run without interruption, the finer steps compute those of `ServerState.step`.
def Reaches (s s' : SocketState) : Prop := ∃ events, Machine.run step s events = some s'

theorem Reaches.refl (s : SocketState) : Reaches s s := ⟨[], rfl⟩

theorem Reaches.head (hs : s.step e = some t) (h : Reaches t s') : Reaches s s' := by
  obtain ⟨events, hrun⟩ := h
  exact ⟨e :: events, by rw [Machine.run, hs]; exact hrun⟩

theorem Reaches.trans (h : Reaches s t) (h' : Reaches t s') : Reaches s s' := by
  obtain ⟨events, hrun⟩ := h
  obtain ⟨events', hrun'⟩ := h'
  exact ⟨events ++ events', by rw [Machine.run_append, hrun]; exact hrun'⟩

theorem cleanup_step {c : Cleanup} (hl : s.cleanups.lookup ch = some c) :
    s.step (.cleanup ch) = s.cleanup ch c := by
  simp [step, hl]

-- A task that takes its lock sections one by one gets through the whole removal.
theorem unregister_reaches {Q : SocketState → SharedServiceState → UnregisterPc → Prop}
    {tx : Channel} {registry : SharedServiceState} {pc : UnregisterPc} {r' : Race}
    (h : Race.Alone clientId ch tx .unregistering ⟨registry, .done, [], pc⟩ r')
    (hstep : ∀ s registry pc next, Q s registry pc →
      unregisterNext registry clientId ch pc = some next →
        ∃ s', Reaches s s' ∧ Q s' next.1 next.2)
    (hq : Q s registry pc) : ∃ s', Reaches s s' ∧ Q s' r'.registry r'.unregister := by
  obtain ⟨k, hk⟩ := h
  induction k generalizing s registry pc with
  | zero =>
    cases hk
    exact ⟨s, Reaches.refl s, hq⟩
  | succ k ih =>
    obtain ⟨r, hr, hrest⟩ := Option.bind_eq_some_iff.mp hk
    have hframe : r = ⟨r.registry, .done, [], r.unregister⟩ := by
      obtain ⟨hregister, hassigned⟩ := Race.unregisterStep_frame hr
      calc r = ⟨r.registry, r.register, r.assigned, r.unregister⟩ := rfl
        _ = ⟨r.registry, .done, [], r.unregister⟩ := by rw [hregister, hassigned]
    have hnext : unregisterNext registry clientId ch pc = some (r.registry, r.unregister) :=
      Option.map_eq_some_iff.mpr ⟨r, hr, rfl⟩
    obtain ⟨t, ht, hqt⟩ := hstep s registry pc _ hq hnext
    rw [hframe] at hrest
    obtain ⟨s', hs', hfinal⟩ := ih hqt hrest
    exact ⟨s', ht.trans hs', hfinal⟩

structure Cleaning (s₀ : SocketState) (ch : Channel) (clientId : String)
    (refusal : Option String) (s : SocketState) (pc : CleanupPc) : Prop where
  task : s.cleanups.lookup ch = some ⟨clientId, refusal, pc⟩
  starting : s.starting = s₀.starting

theorem stops_reach {s₀ : SocketState} {names : List String}
    (h : Cleaning s₀ ch clientId refusal s (.stop names)) :
    ∃ s', Reaches s s' ∧ Cleaning s₀ ch clientId refusal s' (.unregister .check) ∧
      s'.server = names.foldl stopService s.server := by
  induction names generalizing s with
  | nil =>
    refine ⟨_, Reaches.head (cleanup_step h.task) (Reaches.refl _), ⟨?_, h.starting⟩, rfl⟩
    simp [goto]
  | cons name names ih =>
    obtain ⟨s', hs', hc, hserver⟩ := ih (s := { s with
      server := s.server.stopService name }.goto ch ⟨clientId, refusal, .stop (name :: names)⟩
        (.stop names)) ⟨by simp [goto], h.starting⟩
    exact ⟨s', Reaches.head (cleanup_step h.task) hs', hc, hserver⟩

theorem cleanup_unregister {c : Cleanup} {pc : UnregisterPc}
    {next : SharedServiceState × UnregisterPc} (hpc : c.pc = .unregister pc)
    (hn : unregisterNext s.server.registry c.clientId ch pc = some next) :
    s.cleanup ch c = some ({ s with server := s.server.withRegistry next.1 }.goto ch c
      (.unregister next.2)) := by
  cases pc with
  | done => cases hn
  | _ => simp only [cleanup, hpc, hn, Option.map_some]

theorem finish_reaches {c : Cleanup} (hl : s.cleanups.lookup ch = some c)
    (hc : s.cleanup ch c = some (s.finish ch c)) :
    ∃ s', Reaches s s' ∧ s'.starting = s.starting ∧ s'.server =
      c.refusal.elim s.server fun message => s.server.reply ch (.newError message) := by
  refine ⟨_, Reaches.head ((cleanup_step hl).trans hc) (Reaches.refl _), rfl, ?_⟩
  unfold finish
  cases c.refusal <;> rfl

theorem copied_reaches (hl : s.cleanups.lookup ch = some ⟨clientId, refusal, .check⟩)
    (hcur : s.server.registry.isCurrentControl clientId ch = true) :
    ∃ s', Reaches s s' ∧
      Cleaning s ch clientId refusal s' (.stop (s.server.registry.namesOf clientId)) ∧
      s'.server = s.server := by
  let c₀ : Cleanup := ⟨clientId, refusal, .check⟩
  let checked := { s with withdrawn := insert ch s.withdrawn }.goto ch c₀ .copy
  let copied := checked.goto ch { c₀ with pc := .copy }
    (.stop (s.server.registry.namesOf clientId))
  have hcheck : s.step (.cleanup ch) = some checked := by
    rw [cleanup_step hl]
    exact if_pos hcur
  have hcopy : checked.step (.cleanup ch) = some copied := by
    rw [cleanup_step (c := { c₀ with pc := .copy }) (by simp [checked, c₀, goto])]
    rfl
  refine ⟨copied, Reaches.head hcheck (Reaches.head hcopy (Reaches.refl _)), ⟨?_, rfl⟩, rfl⟩
  simp [copied, checked, c₀, goto]

theorem unregistered_reaches {s₀ : SocketState}
    (h : Cleaning s₀ ch clientId refusal s (.unregister .check))
    (hcur : s.server.registry.isCurrentControl clientId ch = true) :
    ∃ s', Reaches s s' ∧ Cleaning s₀ ch clientId refusal s' (.unregister .done) ∧
      s'.server = s.server.withRegistry (s.server.registry.unregisterClient clientId) := by
  have halone : Race.Alone clientId ch ch .unregistering
      ⟨s.server.registry, .done, [], .check⟩
      ⟨s.server.registry.unregisterClient clientId, .done, [], .done⟩ :=
    Race.unregisterClient_alone _ .done [] rfl hcur
  refine unregister_reaches halone
    (Q := fun t registry pc => Cleaning s₀ ch clientId refusal t (.unregister pc) ∧
      t.server = s.server.withRegistry registry) ?_ ⟨h, rfl⟩
  intro t registry pc next hq hnext
  obtain ⟨hq, htserver⟩ := hq
  have hregistry : t.server.registry = registry := by
    rw [htserver]
    rfl
  have hnext' : unregisterNext t.server.registry clientId ch pc = some next :=
    hregistry ▸ hnext
  refine ⟨_, Reaches.head ((cleanup_step hq.task).trans (cleanup_unregister rfl hnext'))
    (Reaches.refl _), ⟨by simp [goto], hq.starting⟩, ?_⟩
  simp only [goto, htserver]
  rfl

theorem cleanup_reaches (hl : s.cleanups.lookup ch = some ⟨clientId, refusal, .check⟩) :
    ∃ s', Reaches s s' ∧ s'.starting = s.starting ∧ s'.server =
      refusal.elim (s.server.cleanupRegisteredSession clientId ch) fun message =>
        (s.server.cleanupRegisteredSession clientId ch).reply ch (.newError message) := by
  by_cases hcur : s.server.registry.isCurrentControl clientId ch = true
  · obtain ⟨t, ht, hcopied, htserver⟩ := copied_reaches hl hcur
    obtain ⟨u, hu, hstopped, huserver⟩ := stops_reach hcopied
    have hserver : u.server =
        (s.server.registry.namesOf clientId).foldl stopService s.server := htserver ▸ huserver
    have hregistry : u.server.registry = s.server.registry := by
      rw [hserver, stopServices_eq]
    obtain ⟨v, hv, hdone, hremoved⟩ := unregistered_reaches hstopped (hregistry ▸ hcur)
    obtain ⟨s', hs', hstarting, hfinal⟩ := finish_reaches hdone.task rfl
    refine ⟨s', ht.trans (hu.trans (hv.trans hs')), hstarting.trans hdone.starting, ?_⟩
    have hcleaned : v.server = s.server.cleanupRegisteredSession clientId ch := by
      unfold cleanupRegisteredSession
      rw [if_pos hcur, hremoved, hregistry, hserver]
      simp only [stopServices_eq, unregisterClientIfCurrent, hcur, if_true, withRegistry]
      rfl
    rw [hfinal, hcleaned]
  · have hstale : s.server.cleanupRegisteredSession clientId ch = s.server := if_neg hcur
    rw [hstale]
    exact finish_reaches hl (if_neg hcur)

theorem removals_reach {registry : SharedServiceState} {k : Nat}
    (hl : s.kicks[k]? = some (clientId, .take)) (hregistry : s.server.registry = registry) :
    ∃ s', Reaches s s' ∧ s'.starting = s.starting ∧
      s'.server = s.server.withRegistry (registry.removeClientServices clientId) := by
  have halone : Race.Alone clientId 0 0 .unregistering ⟨registry, .done, [], .take⟩
      ⟨registry.removeClientServices clientId, .done, [], .done⟩ :=
    Race.removeClientServices_alone registry .done [] rfl
  obtain ⟨s', hs', -, hstarting, hserver⟩ := unregister_reaches halone
    (Q := fun t registry pc => t.kicks[k]? = some (clientId, pc) ∧ t.starting = s.starting ∧
      t.server = s.server.withRegistry registry)
    (fun t registry pc next hq hnext => by
      obtain ⟨htask, hstarting, htserver⟩ := hq
      have hregistry : t.server.registry = registry := by
        rw [htserver]
        rfl
      have hstep : t.step (.removal k) = some { t with
          server := t.server.withRegistry next.1, kicks := t.kicks.set k (clientId, next.2) } := by
        simp [step, htask, removal, hregistry, hnext]
      have hlt : k < t.kicks.length := (List.getElem?_eq_some_iff.mp htask).1
      refine ⟨_, Reaches.head hstep (Reaches.refl _), ?_, hstarting, ?_⟩
      · rw [List.getElem?_set_self hlt]
      · rw [htserver]
        rfl)
    ⟨hl, rfl, by rw [← hregistry]; rfl⟩
  exact ⟨s', hs', hstarting, hserver⟩

theorem ended_reaches {session : Session} {t : ServerState}
    (hs : s.step e = some (s.endSession ch session refusal))
    (ht : t = refusal.elim (s.server.endSession ch session) fun message =>
      (s.server.endSession ch session).reply ch (.newError message)) :
    ∃ s', Reaches s s' ∧ s'.starting = s.starting ∧ s'.server = t := by
  have hl : (s.endSession ch session refusal).cleanups.lookup ch =
      some ⟨session.clientId, refusal, .check⟩ := by simp [endSession]
  obtain ⟨s', hs', hstarting, hserver⟩ := cleanup_reaches hl
  refine ⟨s', Reaches.head hs hs', hstarting, ?_⟩
  rw [hserver, ht]
  simp only [endSession, endSession_erased]

theorem exposed_reaches {session : Session} {svc : Service} {pending : List Service}
    {bind : Except String Unit} {t : ServerState} (hfree : ch ∉ s.starting)
    (hl : s.server.sessions.lookup ch = some session) (hp : session.pending = svc :: pending)
    (he : s.server.exposeService svc bind = .ok t) :
    ∃ s', Reaches s s' ∧ s'.starting = s.starting ∧
      s'.server = t.withPending ch session pending := by
  have hexpose : s.step (.expose ch bind) = some (s.expose ch session svc pending bind) := by
    simp [step, hl, hp, hfree]
  cases hbinds : s.binds svc with
  | false =>
    refine ⟨_, Reaches.head hexpose (Reaches.refl _), ?_, ?_⟩
    · simp [expose, he, hbinds]
    · simp [expose, he, hbinds]
  | true =>
    have hbound : s.expose ch session svc pending bind =
        { s with starting := insert ch s.starting } := by simp [expose, he, hbinds]
    have hinsert : { s with starting := insert ch s.starting }.step (.insert ch) =
        some ({ s with starting := insert ch s.starting }.insertSocket ch session svc pending) := by
      simp [step, hl, hp]
    simp only [binds, Bool.and_eq_true, decide_eq_true_eq] at hbinds
    have ht : t = s.server.putSocket svc :=
      exposeService_put hbinds.1.1 hbinds.1.2 hbinds.2 he
    rw [hbound] at hexpose
    refine ⟨_, Reaches.head hexpose (Reaches.head hinsert (Reaches.refl _)), ?_, ?_⟩
    · exact Finset.erase_insert hfree
    · rw [ht]
      rfl

theorem step_reaches {e : ServerEvent} {t : ServerState} (hfree : s.starting = ∅)
    (h : s.server.step e = some t) :
    ∃ s', Reaches s s' ∧ s'.starting = s.starting ∧ s'.server = t := by
  cases e with
  | hello clientId services =>
    simp only [ServerState.step] at h
    split at h
    · next hc =>
      cases h
      exact ⟨s, Reaches.refl s, rfl, rfl⟩
    · next hc =>
      cases h
      have hs : s.step (.hello clientId services) =
          some { s with server := s.server.hello clientId services } := if_neg hc
      exact ⟨_, Reaches.head hs (Reaches.refl _), rfl, rfl⟩
  | expose ch bind =>
    obtain ⟨session, hl, h⟩ := Option.bind_eq_some_iff.mp h
    have hnot : ch ∉ s.starting := by simp [hfree]
    split at h
    · cases h
    · next svc pending hp =>
      cases h
      unfold ServerState.expose
      split
      · next t he => exact exposed_reaches hnot hl hp he
      · next message he =>
        have hs : s.step (.expose ch bind) =
            some (s.endSession ch session (some message)) := by
          simp [step, hl, hp, hnot, expose, he]
        exact ended_reaches hs rfl
  | ready ch written =>
    obtain ⟨session, hl, h⟩ := Option.bind_eq_some_iff.mp h
    split at h
    · next hr =>
      cases h
      cases written with
      | true =>
        have hs : s.step (.ready ch true) =
            some { s with server := s.server.ready ch session true } := by
          simp [step, hl, hr]
        exact ⟨_, Reaches.head hs (Reaches.refl _), rfl, rfl⟩
      | false =>
        have hs : s.step (.ready ch false) = some (s.endSession ch session none) := by
          simp [step, hl, hr]
        exact ended_reaches hs rfl
    · cases h
  | disconnect ch =>
    obtain ⟨session, hl, h⟩ := Option.bind_eq_some_iff.mp h
    split at h
    · next hr =>
      cases h
      have hs : s.step (.disconnect ch) = some (s.endSession ch session none) := by
        simp [step, hl, hr]
      exact ended_reaches hs rfl
    · cases h
  | kick clientId =>
    cases h
    have hs : s.step (.kick clientId) = some (s.kick clientId) := rfl
    have hl : (s.kick clientId).kicks[s.kicks.length]? = some (clientId, .take) := by
      simp [kick]
    obtain ⟨s', hs', hstarting, hserver⟩ := removals_reach hl rfl
    exact ⟨s', Reaches.head hs hs', hstarting, hserver⟩
  | listenerEnded port name =>
    cases h
    exact ⟨_, Reaches.head (e := .listenerEnded port name) rfl (Reaches.refl _), rfl, rfl⟩
  | udpEnded name =>
    cases h
    exact ⟨_, Reaches.head (e := .udpEnded name) rfl (Reaches.refl _), rfl, rfl⟩

theorem server_run_reached (server : Server) {events : List ServerEvent} {t : ServerState}
    (h : Machine.run ServerState.step server.run events = some t) :
    ∃ s, Reaches (run server) s ∧ s.server = t := by
  obtain ⟨s, hs, -, hserver⟩ := Machine.run_invariant
    (I := fun t => ∃ s, Reaches (run server) s ∧ s.starting = ∅ ∧ s.server = t)
    (fun t e u ht hstep => by
      obtain ⟨s, hs, hfree, rfl⟩ := ht
      obtain ⟨s', hs', hstarting, hserver⟩ := step_reaches hfree hstep
      exact ⟨s', hs.trans hs', hstarting.trans hfree, hserver⟩)
    ⟨run server, Reaches.refl _, rfl, rfl⟩ h
  exact ⟨s, hs, hserver⟩

end SocketState

end Cross233.Server
