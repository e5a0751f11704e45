import Cross233.Control.Session
import Cross233.Server.Messages

namespace Cross233.Relay

open Cross233.Protocol Cross233.Server IpAddr

def udpBuffer : Nat := 65536

structure UdpForwarder where
  service : Service
  remotePort : UInt16
  deriving DecidableEq

structure Forwarded where
  service : Service
  source : SocketAddr
  data : List UInt8
  deriving DecidableEq

structure LocalDatagram where
  dest : SocketAddr
  data : List UInt8
  deriving DecidableEq

structure Answer where
  datagram : Nat
  data : List UInt8
  deriving DecidableEq

-- The server, one control session and its client: `forwarded` lists what the server hands to the
-- control channel, `sentLocal` what the client's sockets send out, `answers` what the local
-- service sends back for a datagram it got.
structure UdpRelay where
  relay : RelayState
  toClient : List Message
  toServer : List Message
  live : Bool
  forwarders : HashMap UInt16 UdpForwarder
  running : List UdpForwarder
  forwarded : List Forwarded
  sentLocal : List LocalDatagram
  answers : List Answer

inductive UdpEvent where
  | datagram (name : String) (source : SocketAddr) (data : List UInt8)
  | clientReads
  | serverReads (order : MapOrder)
  | localDatagram (forwarder : Nat) (source : SocketAddr) (data : List UInt8)
      (answers : Option Nat)
  | serverSends (msg : Message)
  | clientSends (msg : Message)
  | registry (e : ServerEvent)
  | setEnabled (name : String) (enabled : Bool)

def isPrivate (svc : Service) : Bool :=
  match svc.effectiveType with
  | "stcp" | "sudp" => true
  | _ => false

def isUdp (svc : Service) : Bool :=
  match svc.effectiveType with
  | "udp" | "sudp" => true
  | _ => false

-- A later service on the same port takes the table's entry; both forwarders keep running.
def startForwarders (bind : String → Bool) (assigned : List Service) : List UdpForwarder :=
  (assigned.filter (fun svc => isUdp svc && !isPrivate svc && 0 < svc.remotePort &&
    bind svc.localAddr)).map (fun svc => ⟨svc, svc.remotePort⟩)

def serverSendsType (ty : String) : Bool :=
  ty = "ping" || ty = "open" || ty = "static_request" || ty = "close"

def clientSendsType (ty : String) : Bool :=
  ty = "ping" || ty = "health" || ty = "static_response"

namespace UdpRelay

def start (relay : RelayState) (bind : String → Bool) (assigned : List Service) : UdpRelay where
  relay := relay
  toClient := []
  toServer := []
  live := true
  forwarders := (startForwarders bind assigned).foldl
    (fun m fwd => m.insert fwd.remotePort fwd) ∅
  running := startForwarders bind assigned
  forwarded := []
  sentLocal := []
  answers := []

def forwards (tx : Channel) (s : UdpRelay) (name : String) : Option ServiceEntry :=
  (s.relay.server.registry.servicesByName.lookup name).filter fun entry =>
    s.relay.isEnabled name && s.relay.isHealthy name && entry.controlTx = tx

def runUdpService (tx : Channel) (s : UdpRelay) (name : String) (source : SocketAddr)
    (data : List UInt8) : Option UdpRelay :=
  if name ∈ s.relay.server.udpServices then
    let data := data.take udpBuffer
    match s.forwards tx name with
    | none => some s
    | some entry => some { s with
        toClient := s.toClient ++
          [.newUdp entry.config.remotePort source.toString data entry.config]
        forwarded := s.forwarded ++ [⟨entry.config, source, data⟩] }
  else none

def handleUdpResponse (s : UdpRelay) (remotePort : UInt16) (addr : String) (data : List UInt8) :
    UdpRelay :=
  match s.forwarders.lookup remotePort with
  | none => s
  | some _ =>
    match parseSocket addr with
    | none => s
    | some dest => { s with sentLocal := s.sentLocal ++ [⟨dest, data⟩] }

def clientHandles (s : UdpRelay) (msg : Message) : UdpRelay :=
  match msg.ty with
  | "ping" => { s with toServer := s.toServer ++ [.newPong] }
  | "pong" => s
  | "error" => { s with live := !Control.isFatal msg }
  | "open" => s
  | "static_request" => s
  | "udp_response" =>
    match msg.remotePort, msg.address, msg.data with
    | some rp, some addr, some data => s.handleUdpResponse rp addr data
    | _, _, _ => s
  | "bye" => { s with live := false }
  | "close" => { s with live := false }
  | _ => s

def clientReads (s : UdpRelay) : Option UdpRelay :=
  match s.live, s.toClient with
  | true, msg :: rest => some ({ s with toClient := rest }.clientHandles msg)
  | _, _ => none

def serverReads (tx : Channel) (s : UdpRelay) (order : MapOrder) : Option UdpRelay :=
  match s.toServer with
  | [] => none
  | msg :: rest => some { s with
      toServer := rest
      relay := s.relay.handleMessage tx msg order
      toClient := if msg.ty = "ping" then s.toClient ++ [.newPong] else s.toClient }

-- The local service can only answer a datagram that came to it.
def localDatagram (s : UdpRelay) (fwd : UdpForwarder) (source : SocketAddr) (data : List UInt8)
    (answers : Option Nat) : Option UdpRelay :=
  let data := data.take udpBuffer
  let s := { s with
    toServer := s.toServer ++ [.newUdp fwd.remotePort source.toString data fwd.service] }
  match answers with
  | none => some s
  | some i =>
    if i < s.sentLocal.length then some { s with answers := s.answers ++ [⟨i, data⟩] } else none

def step (tx : Channel) (s : UdpRelay) : UdpEvent → Option UdpRelay
  | .datagram name source data => s.runUdpService tx name source data
  | .clientReads => s.clientReads
  | .serverReads order => s.serverReads tx order
  | .localDatagram i source data answers =>
    (s.running[i]?).bind fun fwd => s.localDatagram fwd source data answers
  | .serverSends msg =>
    if serverSendsType msg.ty then some { s with toClient := s.toClient ++ [msg] } else none
  | .clientSends msg =>
    if clientSendsType msg.ty then some { s with toServer := s.toServer ++ [msg] } else none
  | .registry e => (s.relay.server.step e).map fun server =>
      { s with relay := { s.relay with server := server } }
  | .setEnabled name enabled =>
    some { s with relay := { s.relay with enabled := s.relay.enabled.insert name enabled } }

def Quiescent (s : UdpRelay) : Prop := (s.toClient = [] ∨ s.live = false) ∧ s.toServer = []

-- Whatever happens next, once the messages under way are dealt with, every datagram forwarded
-- so far is at its local service, and every answer so far went out of the public port.
structure Relayed (resolve : String → Option SocketAddr) (tx : Channel) (s : UdpRelay) :
    Prop where
  reach : ∀ more t, Machine.run (step tx) s more = some t → t.Quiescent →
    (s.forwarded.map fun g => (resolve g.service.localAddr, g.data)).Subperm
      (t.sentLocal.map fun g => (some g.dest, g.data))
  answered : ∀ more t, Machine.run (step tx) s more = some t → t.Quiescent →
    ∀ answer ∈ s.answers, ∃ g, s.forwarded[answer.datagram]? = some g ∧
      (⟨g.service.name, g.source, answer.data⟩ : Datagram) ∈ t.relay.sent

def Unforwarded (tx : Channel) (s : UdpRelay) : UdpEvent → Prop
  | .datagram name _ _ => s.forwards tx name = none
  | _ => True

instance (tx : Channel) (s : UdpRelay) (e : UdpEvent) : Decidable (s.Unforwarded tx e) := by
  unfold Unforwarded
  split <;> infer_instance

structure Silent (s : UdpRelay) : Prop where
  sentLocal : s.sentLocal = []
  answers : s.answers = []
  types : ∀ msg ∈ s.toClient, msg.ty ≠ "udp_response"

variable {tx : Channel} {s s' t : UdpRelay}

theorem start_silent (relay : RelayState) (bind : String → Bool) (assigned : List Service) :
    Silent (start relay bind assigned) :=
  ⟨rfl, rfl, fun _ h => nomatch h⟩

theorem Silent.of_eq (h : Silent s) (hl : s'.sentLocal = s.sentLocal)
    (ha : s'.answers = s.answers) (ht : ∀ msg ∈ s'.toClient, msg ∈ s.toClient ∨
      msg.ty ≠ "udp_response") : Silent s' where
  sentLocal := hl.trans h.sentLocal
  answers := ha.trans h.answers
  types msg hmsg := by
    rcases ht msg hmsg with hold | hnew
    · exact h.types msg hold
    · exact hnew

theorem mem_sent {msg m : Message} (hm : m ∈ s.toClient ++ [msg])
    (hty : msg.ty ≠ "udp_response") : m ∈ s.toClient ∨ m.ty ≠ "udp_response" := by
  rcases List.mem_append.mp hm with hm | hm
  · exact Or.inl hm
  · exact Or.inr (List.mem_singleton.mp hm ▸ hty)

-- A message of any other type than `udp_response` ends at the client's session loop.
theorem clientHandles_silent {msg : Message} (hty : msg.ty ≠ "udp_response") :
    (s.clientHandles msg).sentLocal = s.sentLocal ∧
      (s.clientHandles msg).answers = s.answers ∧
      (s.clientHandles msg).toClient = s.toClient ∧
      (s.clientHandles msg).forwarded = s.forwarded := by
  unfold clientHandles
  split
  · exact ⟨rfl, rfl, rfl, rfl⟩
  · exact ⟨rfl, rfl, rfl, rfl⟩
  · exact ⟨rfl, rfl, rfl, rfl⟩
  · exact ⟨rfl, rfl, rfl, rfl⟩
  · exact ⟨rfl, rfl, rfl, rfl⟩
  · next h => exact absurd h hty
  · exact ⟨rfl, rfl, rfl, rfl⟩
  · exact ⟨rfl, rfl, rfl, rfl⟩
  · exact ⟨rfl, rfl, rfl, rfl⟩

theorem clientReads_cases (h : s.clientReads = some s') :
    ∃ msg rest, s.live = true ∧ s.toClient = msg :: rest ∧
      s' = { s with toClient := rest }.clientHandles msg := by
  unfold clientReads at h
  split at h
  · next msg rest hlive hq =>
    cases h
    exact ⟨msg, rest, hlive, hq, rfl⟩
  · cases h

-- While no `udp_response` reaches the client the only thing a step can do is forward a datagram.
theorem silent_step_cases (h : Silent s) {e : UdpEvent} (hs : step tx s e = some s') :
    Silent s' ∧ (Unforwarded tx s e ∧ s'.forwarded = s.forwarded ∨
      ¬Unforwarded tx s e ∧ ∃ g, s'.forwarded = s.forwarded ++ [g]) := by
  cases e with
  | datagram name source data =>
    simp only [UdpRelay.step, runUdpService] at hs
    split at hs
    · split at hs
      · next hnone =>
        cases hs
        exact ⟨h, Or.inl ⟨hnone, rfl⟩⟩
      · next entry hsome =>
        cases hs
        refine ⟨h.of_eq rfl rfl fun m hm =>
          mem_sent hm (show "udp" ≠ "udp_response" by decide), Or.inr ⟨fun hnone => ?_, _, rfl⟩⟩
        have hnone : s.forwards tx name = none := hnone
        rw [hsome] at hnone
        cases hnone
    · cases hs
  | clientReads =>
    obtain ⟨msg, rest, -, hq, rfl⟩ := clientReads_cases hs
    have hty : msg.ty ≠ "udp_response" := h.types msg (hq ▸ List.mem_cons_self)
    obtain ⟨hl, ha, ht, hf⟩ := clientHandles_silent (s := { s with toClient := rest }) hty
    refine ⟨h.of_eq hl ha fun m hm => Or.inl ?_, Or.inl ⟨trivial, hf⟩⟩
    rw [ht] at hm
    exact hq ▸ List.mem_cons_of_mem msg hm
  | serverReads order =>
    simp only [UdpRelay.step, serverReads] at hs
    split at hs
    · cases hs
    · cases hs
      refine ⟨h.of_eq rfl rfl fun m hm => ?_, Or.inl ⟨trivial, rfl⟩⟩
      dsimp only at hm
      split at hm
      · exact mem_sent hm (show "pong" ≠ "udp_response" by decide)
      · exact Or.inl hm
  | localDatagram i source data answers =>
    obtain ⟨fwd, -, hs⟩ := Option.bind_eq_some_iff.mp hs
    simp only [UdpRelay.localDatagram] at hs
    split at hs
    · cases hs
      exact ⟨h.of_eq rfl rfl fun m hm => Or.inl hm, Or.inl ⟨trivial, rfl⟩⟩
    · split at hs
      · next hlt =>
        rw [h.sentLocal] at hlt
        cases hlt
      · cases hs
  | serverSends msg =>
    simp only [UdpRelay.step] at hs
    split at hs
    · next hty =>
      cases hs
      refine ⟨h.of_eq rfl rfl fun m hm => mem_sent hm ?_, Or.inl ⟨trivial, rfl⟩⟩
      intro hresponse
      rw [hresponse] at hty
      revert hty
      decide
    · cases hs
  | clientSends msg =>
    simp only [UdpRelay.step] at hs
    split at hs
    · cases hs
      exact ⟨h.of_eq rfl rfl fun m hm => Or.inl hm, Or.inl ⟨trivial, rfl⟩⟩
    · cases hs
  | registry e =>
    obtain ⟨server, -, rfl⟩ := Option.map_eq_some_iff.mp hs
    exact ⟨h.of_eq rfl rfl fun m hm => Or.inl hm, Or.inl ⟨trivial, rfl⟩⟩
  | setEnabled name enabled =>
    cases hs
    exact ⟨h.of_eq rfl rfl fun m hm => Or.inl hm, Or.inl ⟨trivial, rfl⟩⟩

theorem Silent.step (h : Silent s) {e : UdpEvent} (hs : step tx s e = some s') : Silent s' :=
  (silent_step_cases h hs).1

theorem forwarded_length_le (h : Silent s) {events : List UdpEvent}
    (hrun : Machine.run (step tx) s events = some t) :
    s.forwarded.length ≤ t.forwarded.length := by
  induction events generalizing s with
  | nil =>
    cases hrun
    exact Nat.le_refl _
  | cons e events ih =>
    obtain ⟨u, hu, hrest⟩ := Option.bind_eq_some_iff.mp hrun
    refine Nat.le_trans ?_ (ih (h.step hu) hrest)
    rcases (silent_step_cases h hu).2 with ⟨-, heq⟩ | ⟨-, g, heq⟩
    · rw [heq]
    · rw [heq, List.length_append]
      exact Nat.le_add_right _ _

theorem run_unforwarded_iff (h : Silent s) {events : List UdpEvent}
    (hrun : Machine.run (step tx) s events = some t) :
    Machine.Along (step tx) (Unforwarded tx) s events ↔
      t.forwarded.length = s.forwarded.length := by
  induction events generalizing s with
  | nil =>
    cases hrun
    exact ⟨fun _ => rfl, fun _ => trivial⟩
  | cons e events ih =>
    obtain ⟨u, hu, hrest⟩ := Option.bind_eq_some_iff.mp hrun
    have hiff := ih (h.step hu) hrest
    rcases (silent_step_cases h hu).2 with ⟨hfree, heq⟩ | ⟨hsent, g, heq⟩
    · rw [heq] at hiff
      refine ⟨fun halong => hiff.mp (halong.2 u hu), fun hlen => ⟨hfree, fun v hv => ?_⟩⟩
      cases hu.symm.trans hv
      exact hiff.mpr hlen
    · refine ⟨fun halong => absurd halong.1 hsent, fun hlen => ?_⟩
      have hle := forwarded_length_le (h.step hu) hrest
      rw [heq, List.length_append, List.length_singleton] at hle
      omega

theorem drain_client (tx : Channel) (h : Silent s) :
    ∃ more t, Machine.run (step tx) s more = some t ∧ (t.toClient = [] ∨ t.live = false) ∧
      ((∀ msg ∈ s.toClient, msg.ty = "pong") → t.toServer = s.toServer) := by
  obtain ⟨n, hn⟩ : ∃ n, s.toClient.length = n := ⟨_, rfl⟩
  induction n generalizing s with
  | zero => exact ⟨[], s, rfl, Or.inl (List.length_eq_zero_iff.mp hn), fun _ => rfl⟩
  | succ n ih =>
    cases hlive : s.live with
    | false => exact ⟨[], s, rfl, Or.inr hlive, fun _ => rfl⟩
    | true =>
      obtain ⟨msg, rest, hq⟩ := List.exists_cons_of_length_eq_add_one hn
      have hty : msg.ty ≠ "udp_response" := h.types msg (hq ▸ List.mem_cons_self)
      have hread : step tx s .clientReads =
          some ({ s with toClient := rest }.clientHandles msg) := by
        simp only [UdpRelay.step, UdpRelay.clientReads, hlive, hq]
      have hkept := (clientHandles_silent (s := { s with toClient := rest }) hty).2.2.1
      have hlen : ({ s with toClient := rest }.clientHandles msg).toClient.length = n := by
        rw [hq, List.length_cons] at hn
        rw [hkept]
        exact Nat.succ.inj hn
      obtain ⟨more, t, hrun, hend, hpongs⟩ := ih (h.step hread) hlen
      refine ⟨.clientReads :: more, t, by simp [Machine.run, hread, hrun], hend, fun hall => ?_⟩
      have hpong : msg.ty = "pong" := hall msg (hq ▸ List.mem_cons_self)
      refine (hpongs fun m hm => ?_).trans ?_
      · rw [hkept] at hm
        exact hall m (hq ▸ List.mem_cons_of_mem msg hm)
      · simp only [clientHandles, hpong]

theorem drain_server (tx : Channel) (s : UdpRelay) (order : MapOrder) :
    ∃ more t pongs, Machine.run (step tx) s more = some t ∧ t.toServer = [] ∧
      t.live = s.live ∧ t.toClient = s.toClient ++ pongs ∧ ∀ msg ∈ pongs, msg.ty = "pong" := by
  obtain ⟨n, hn⟩ : ∃ n, s.toServer.length = n := ⟨_, rfl⟩
  induction n generalizing s with
  | zero =>
    exact ⟨[], s, [], rfl, List.length_eq_zero_iff.mp hn, rfl, (List.append_nil _).symm,
      fun _ hm => nomatch hm⟩
  | succ n ih =>
    obtain ⟨msg, rest, hq⟩ := List.exists_cons_of_length_eq_add_one hn
    have hread : step tx s (.serverReads order) = some { s with
        toServer := rest
        relay := s.relay.handleMessage tx msg order
        toClient := if msg.ty = "ping" then s.toClient ++ [.newPong] else s.toClient } := by
      simp only [UdpRelay.step, UdpRelay.serverReads, hq]
    rw [hq, List.length_cons, Nat.add_right_cancel_iff] at hn
    obtain ⟨more, t, pongs, hrun, hend, hlive, hto, hpongs⟩ := ih { s with
      toServer := rest
      relay := s.relay.handleMessage tx msg order
      toClient := if msg.ty = "ping" then s.toClient ++ [.newPong] else s.toClient } hn
    refine ⟨.serverReads order :: more, t, (if msg.ty = "ping" then [.newPong] else []) ++ pongs,
      by simp [Machine.run, hread, hrun], hend, hlive, ?_, fun m hm => ?_⟩
    · rw [hto]
      split
      · exact List.append_assoc _ _ _
      · rfl
    · rcases List.mem_append.mp hm with hm | hm
      · split at hm
        · rw [List.mem_singleton.mp hm]
          rfl
        · cases hm
      · exact hpongs m hm

theorem drains (tx : Channel) (h : Silent s) :
    ∃ more t, Machine.run (step tx) s more = some t ∧ t.Quiescent := by
  obtain ⟨first, u, hu, hclient, -⟩ := drain_client tx h
  have hsilent : Silent u := Machine.run_invariant (fun s e t hs ht => hs.step ht) h hu
  obtain ⟨second, v, pongs, hv, hserver, hlive, hto, hpongs⟩ :=
    drain_server tx u MapOrder.identity
  have hrun : Machine.run (step tx) s (first ++ second) = some v := by
    rw [Machine.run_append, hu]
    exact hv
  rcases hclient with hclient | hdead
  · have hsilent' : Silent v := Machine.run_invariant (fun s e t hs ht => hs.step ht) hsilent hv
    obtain ⟨third, w, hw, hend, hkept⟩ := drain_client tx hsilent'
    rw [hclient, List.nil_append] at hto
    refine ⟨first ++ second ++ third, w, ?_, hend, ?_⟩
    · rw [Machine.run_append, hrun]
      exact hw
    · rw [hkept (hto ▸ hpongs), hserver]
  · exact ⟨first ++ second, v, hrun, Or.inr (hlive.trans hdead), hserver⟩

theorem udp_relayed_iff (resolve : String → Option SocketAddr) (relay : RelayState)
    (bind : String → Bool) (assigned : List Service) (tx : Channel) (events : List UdpEvent)
    (s : UdpRelay) (hrun : Machine.run (step tx) (start relay bind assigned) events = some s) :
    s.Relayed resolve tx ↔
      Machine.Along (step tx) (Unforwarded tx) (start relay bind assigned) events := by
  have hstart := start_silent relay bind assigned
  have hsilent : Silent s := Machine.run_invariant (fun s e t hs ht => hs.step ht) hstart hrun
  rw [run_unforwarded_iff hstart hrun]
  constructor
  · intro hrelayed
    obtain ⟨more, t, ht, hquiet⟩ := drains tx hsilent
    have ht' : Silent t := Machine.run_invariant (fun s e t hs ht => hs.step ht) hsilent ht
    have hsub := (hrelayed.reach more t ht hquiet).length_le
    rw [ht'.sentLocal, List.map_nil, List.length_map] at hsub
    exact Nat.le_zero.mp hsub
  · intro hnone
    have hempty : s.forwarded = [] := List.length_eq_zero_iff.mp hnone
    constructor
    · intro more t _ _
      rw [hempty]
      exact List.nil_subperm
    · intro more t _ _ answer hanswer
      rw [hsilent.answers] at hanswer
      cases hanswer

def dnsService : Service where
  name := "dns"
  ty := some "udp"
  localAddr := "127.0.0.1:53"
  remotePort := 60053

def dnsServer : ServerState where
  registry := ((SharedServiceState.new 60000 60100).registerServices "alice" 0 [dnsService]).1
  udpServices := (∅ : HashMap String UInt16).insert "dns" 60053
  sessions := ∅
  nextChannel := 1
  opened := [(.udp, 60053)]
  replies := []
  qcpPort := 0
  qcpTunnelPort := 0

def dnsStart : UdpRelay := start (.fresh dnsServer) (fun _ => true) [dnsService]

def disabledEvents : List UdpEvent :=
  [.setEnabled "dns" false, .datagram "dns" ⟨.v4 [192, 0, 2, 7], 4000, 0⟩ [1, 2, 3],
    .clientSends .newPing, .serverReads MapOrder.identity, .clientReads]

theorem disabled_service_relayed :
    ∃ s, Machine.run (step 0) dnsStart disabledEvents = some s ∧ s.toClient = [] ∧
      s.Relayed parseSocket 0 := by
  have hrun : (Machine.run (step 0) dnsStart disabledEvents).map UdpRelay.toClient = some [] := by
    decide +kernel
  obtain ⟨s, hs, hto⟩ := Option.map_eq_some_iff.mp hrun
  exact ⟨s, hs, hto, (udp_relayed_iff parseSocket _ _ _ 0 disabledEvents s hs).mpr
    (by decide +kernel)⟩

def queryEvents : List UdpEvent :=
  [.datagram "dns" ⟨.v4 [192, 0, 2, 7], 4000, 0⟩ [1, 2, 3], .clientReads]

theorem query_never_reaches_resolver :
    ∃ s, Machine.run (step 0) dnsStart queryEvents = some s ∧ s.Quiescent ∧
      s.forwarded = [⟨dnsService, ⟨.v4 [192, 0, 2, 7], 4000, 0⟩, [1, 2, 3]⟩] ∧
      s.sentLocal = [] ∧ ¬s.Relayed parseSocket 0 := by
  have hrun : (Machine.run (step 0) dnsStart queryEvents).map
      (fun s => (s.toClient, s.toServer, s.sentLocal)) = some ([], [], []) := by decide +kernel
  have hsent : (Machine.run (step 0) dnsStart queryEvents).map UdpRelay.forwarded =
      some [⟨dnsService, ⟨.v4 [192, 0, 2, 7], 4000, 0⟩, [1, 2, 3]⟩] := by
    with_unfolding_all rfl
  obtain ⟨s, hs, hfields⟩ := Option.map_eq_some_iff.mp hrun
  rw [hs, Option.map_some, Option.some.injEq] at hsent
  simp only [Prod.mk.injEq] at hfields
  obtain ⟨hc, hv, hl⟩ := hfields
  refine ⟨s, hs, ⟨Or.inl hc, hv⟩, hsent, hl, fun hrelayed => ?_⟩
  have hsub := (hrelayed.reach [] s rfl ⟨Or.inl hc, hv⟩).length_le
  rw [hl, hsent] at hsub
  exact absurd hsub (by decide)

end UdpRelay

end Cross233.Relay
