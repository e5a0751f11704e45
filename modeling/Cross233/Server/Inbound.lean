import Cross233.Server.Messages
import Cross233.Server.Requests

namespace Cross233.Server

open Protocol IpAddr

structure Flags where
  enabled : Bool
  healthy : Bool
  deriving DecidableEq

inductive ForwardKind where
  | openTunnel (flags : Flags)
  | staticRequest (request : List UInt8)
  | udp (data : List UInt8)

-- What reaches the client of an entry; an open tunnel keeps the entry's flags at that moment.
structure Forward where
  entry : ServiceEntry
  src : Option SocketAddr
  kind : ForwardKind

-- What the other tasks and the client do while the static request is relayed.
structure StaticRelay where
  readsInTime : Nat
  slotFree : Bool
  sent : Bool
  firstChunk : Option (List UInt8)
  later : RelayState

inductive Inbound where
  | direct (port : UInt16) (src : SocketAddr) (stream : PeerStream) (currentConns : Nat)
      (relay : StaticRelay)
  | http (src : SocketAddr) (stream : PeerStream)
  | https (src : SocketAddr) (stream : PeerStream)
  | tcpmux (src : SocketAddr) (stream : PeerStream)
  | qcp (stream : PeerStream) (replyWritten : Bool) (held : Flags)
  | udp (service : String) (src : SocketAddr) (data : List UInt8)

namespace RelayState

def flags (s : RelayState) (entry : ServiceEntry) : Flags where
  enabled := s.isEnabled entry.config.name
  healthy := s.isHealthy entry.config.name

def available (s : RelayState) (entry : ServiceEntry) : Bool :=
  (s.flags entry).enabled && (s.flags entry).healthy

def getServiceByName (s : RelayState) (name : String) : Option ServiceEntry :=
  s.server.registry.servicesByName.lookup name

def answersHost (svc : Service) (host : String) : Bool :=
  let hostLower := Text.toAsciiLower host.toList
  svc.host.any (fun h => Text.eqIgnoreAsciiCase h.toList hostLower) ||
    svc.subdomain.any (fun sub => sub.toList.isPrefixOf hostLower)

def getServiceByHost (s : RelayState) (order : MapOrder) (host : String) : Option ServiceEntry :=
  (order.visit s.entries).find? fun entry =>
    s.isEnabled entry.config.name && answersHost entry.config host

def openTunnel (s : RelayState) (entry : ServiceEntry) (src : SocketAddr) : Forward where
  entry := entry
  src := some src
  kind := .openTunnel (s.flags entry)

def requestStaticResponse (entry : ServiceEntry) (src : SocketAddr) (relay : StaticRelay)
    (request : List UInt8) : Option Forward :=
  if request.length ≤ staticResponseChunkMax && relay.slotFree && relay.sent then
    some { entry := entry, src := some src, kind := .staticRequest request }
  else none

def fallbackTunnel (relay : StaticRelay) (name : String) (src : SocketAddr) : Option Forward :=
  (relay.later.getServiceByName name).map (fun current => relay.later.openTunnel current src)

-- The fallback takes whatever entry has the name by then.
def handleStaticInbound (entry : ServiceEntry) (name : String) (src : SocketAddr)
    (stream : PeerStream) (relay : StaticRelay) : List Forward :=
  match captureStaticRequestHeaders relay.readsInTime [] stream with
  | none => []
  | some capture =>
    match capture.controlRequest.bind (requestStaticResponse entry src relay) with
    | some request =>
      if relay.firstChunk.any (· ≠ []) then [request]
      else request :: (fallbackTunnel relay name src).toList
    | none => (fallbackTunnel relay name src).toList

def relaysStatic (svc : Service) : Bool := svc.effectiveType = "static" && !svc.proxyProtocol

def hasRoom (svc : Service) (currentConns : Nat) : Bool :=
  svc.maxConnections = 0 || currentConns < svc.maxConnections.toNat

def directEntry (s : RelayState) (order : MapOrder) (port : UInt16) (currentConns : Nat) :
    Option (String × ServiceEntry) := do
  let name ← getServiceNameByPort (order.visit s.entries) port
  let entry ← (s.getServiceByName name).filter s.available
  if hasRoom entry.config currentConns then some (name, entry) else none

def handleInboundTcp (s : RelayState) (order : MapOrder) (port : UInt16) (src : SocketAddr)
    (stream : PeerStream) (currentConns : Nat) (relay : StaticRelay) : List Forward :=
  match s.directEntry order port currentConns with
  | none => []
  | some (name, entry) =>
    if relaysStatic entry.config then handleStaticInbound entry name src stream relay
    else [s.openTunnel entry src]

def admitsCredentials (decode : String → Option (List UInt8)) (svc : Service)
    (buf : List UInt8) : Bool :=
  match svc.httpUser, svc.httpPassword with
  | some user, some pass => checkBasicAuth decode buf user pass
  | _, _ => true

def httpVhostEntry (s : RelayState) (decode : String → Option (List UInt8)) (order : MapOrder)
    (stream : PeerStream) : Option ServiceEntry := do
  let buf ← readUntil headerTerminator 65536 [] stream.bytes
  let host ← extractHost buf
  let entry ← (s.getServiceByHost order (host.getD "")).filter s.available
  if admitsCredentials decode entry.config buf then some entry else none

def handleHttpVhostConn (s : RelayState) (decode : String → Option (List UInt8))
    (order : MapOrder) (src : SocketAddr) (stream : PeerStream) : Option Forward :=
  (s.httpVhostEntry decode order stream).map (fun entry => s.openTunnel entry src)

def httpsVhostEntry (s : RelayState) (order : MapOrder) (stream : PeerStream) :
    Option ServiceEntry := do
  let sni ← readHello helloCapacity [] stream
  (s.getServiceByHost order (sni.getD "")).filter s.available

def handleHttpsVhostConn (s : RelayState) (order : MapOrder) (src : SocketAddr)
    (stream : PeerStream) : Option Forward :=
  (s.httpsVhostEntry order stream).map (fun entry => s.openTunnel entry src)

def tcpmuxEntry (s : RelayState) (order : MapOrder) (stream : PeerStream) :
    Option ServiceEntry := do
  let buf ← readUntil crlf 8192 [] stream.bytes
  let host ← connectTarget buf
  (s.getServiceByHost order host).filter s.available

def handleTcpmuxConn (s : RelayState) (order : MapOrder) (src : SocketAddr)
    (stream : PeerStream) : Option Forward :=
  (s.tcpmuxEntry order stream).map (fun entry => s.openTunnel entry src)

def isQcp (svc : Service) : Bool := svc.effectiveType = "qcp"

def readServiceName (bytes : List UInt8) : Option (String × List UInt8) := do
  let (len, rest) ← readExact 2 bytes
  let nameLen := BigEndian.ofBe len
  if nameLen = 0 ∨ 256 < nameLen then none
  else
    let (name, rest) ← readExact nameLen rest
    (Text.fromUtf8 name).map (fun name => (name, rest))

def readSecret (bytes : List UInt8) : Option String := do
  let (len, rest) ← readExact 2 bytes
  if 256 < BigEndian.ofBe len then none
  else
    let (secret, _) ← readExact (BigEndian.ofBe len) rest
    Text.fromUtf8 secret

def admitsSecret (svc : Service) (bytes : List UInt8) : Bool :=
  svc.secret.all (fun secret => readSecret bytes = some secret)

def qcpEntry (s : RelayState) (stream : PeerStream) : Option ServiceEntry := do
  let (name, rest) ← readServiceName stream.bytes
  let entry ← (s.getServiceByName name).filter fun entry => isQcp entry.config && s.available entry
  if admitsSecret entry.config rest then some entry else none

-- The secret is read and the reply written before the tunnel is opened for the entry still held.
def handleQcpConn (s : RelayState) (stream : PeerStream) (replyWritten : Bool) (held : Flags) :
    Option Forward :=
  if replyWritten then
    (s.qcpEntry stream).map fun entry =>
      { entry := entry, src := none, kind := .openTunnel held }
  else none

def udpEntry (s : RelayState) (name : String) : Option ServiceEntry :=
  (s.getServiceByName name).filter s.available

def runUdpService (s : RelayState) (name : String) (src : SocketAddr) (data : List UInt8) :
    Option Forward :=
  (s.udpEntry name).map fun entry => { entry := entry, src := some src, kind := .udp data }

def handleInbound (s : RelayState) (decode : String → Option (List UInt8)) (order : MapOrder) :
    Inbound → List Forward
  | .direct port src stream conns relay => s.handleInboundTcp order port src stream conns relay
  | .http src stream => (s.handleHttpVhostConn decode order src stream).toList
  | .https src stream => (s.handleHttpsVhostConn order src stream).toList
  | .tcpmux src stream => (s.handleTcpmuxConn order src stream).toList
  | .qcp stream replyWritten held => (s.handleQcpConn stream replyWritten held).toList
  | .udp name src data => (s.runUdpService name src data).toList

def controlRequest (entry : ServiceEntry) (src : SocketAddr) (stream : PeerStream)
    (relay : StaticRelay) : Option Forward :=
  (captureStaticRequestHeaders relay.readsInTime [] stream).bind fun capture =>
    capture.controlRequest.bind (requestStaticResponse entry src relay)

def fallsBack (entry : ServiceEntry) (src : SocketAddr) (stream : PeerStream)
    (relay : StaticRelay) : Bool :=
  (captureStaticRequestHeaders relay.readsInTime [] stream).isSome &&
    !((controlRequest entry src stream relay).isSome && relay.firstChunk.any (· ≠ []))

variable {s : RelayState} {decode : String → Option (List UInt8)} {order : MapOrder}

theorem mem_handleStaticInbound (entry : ServiceEntry) (name : String) (src : SocketAddr)
    (stream : PeerStream) (relay : StaticRelay) (forward : Forward) :
    forward ∈ handleStaticInbound entry name src stream relay ↔
      controlRequest entry src stream relay = some forward ∨
        fallsBack entry src stream relay = true ∧ fallbackTunnel relay name src = some forward := by
  unfold handleStaticInbound fallsBack controlRequest
  cases captureStaticRequestHeaders relay.readsInTime [] stream with
  | none => simp
  | some capture =>
    simp only [Option.bind_some, Option.isSome_some, Bool.true_and]
    cases capture.controlRequest.bind (requestStaticResponse entry src relay) with
    | none => simp
    | some request =>
      cases relay.firstChunk.any (· ≠ []) with
      | true => simp [eq_comm]
      | false => simp [eq_comm]

theorem controlRequest_some {entry : ServiceEntry} {src : SocketAddr} {stream : PeerStream}
    {relay : StaticRelay} {forward : Forward}
    (h : controlRequest entry src stream relay = some forward) :
    ∃ request, forward = ⟨entry, some src, .staticRequest request⟩ := by
  obtain ⟨capture, -, h⟩ := Option.bind_eq_some_iff.mp h
  obtain ⟨request, -, h⟩ := Option.bind_eq_some_iff.mp h
  unfold requestStaticResponse at h
  split at h
  · cases h
    exact ⟨request, rfl⟩
  · cases h

-- Everything a direct connection forwards, once its entry is found.
theorem forall_handleInboundTcp {port : UInt16} {conns : Nat} {name : String}
    {entry : ServiceEntry} (hd : s.directEntry order port conns = some (name, entry))
    (src : SocketAddr) (stream : PeerStream) (relay : StaticRelay) (P : Forward → Prop) :
    (∀ forward ∈ s.handleInboundTcp order port src stream conns relay, P forward) ↔
      if relaysStatic entry.config then
        (∀ request, controlRequest entry src stream relay = some request → P request) ∧
        (fallsBack entry src stream relay = true → ∀ current,
          relay.later.getServiceByName name = some current → P (relay.later.openTunnel current src))
      else P (s.openTunnel entry src) := by
  unfold handleInboundTcp
  simp only [hd]
  cases relaysStatic entry.config with
  | false => simp
  | true =>
    simp only [if_true, mem_handleStaticInbound]
    constructor
    · intro h
      refine ⟨fun request hr => h request (Or.inl hr), fun hf current hc => ?_⟩
      exact h _ (Or.inr ⟨hf, Option.map_eq_some_iff.mpr ⟨current, hc, rfl⟩⟩)
    · rintro ⟨hreq, hback⟩ forward (hr | ⟨hf, hfall⟩)
      · exact hreq forward hr
      · obtain ⟨current, hc, rfl⟩ := Option.map_eq_some_iff.mp hfall
        exact hback hf current hc

theorem available_of_filter {found : Option ServiceEntry} {entry : ServiceEntry}
    (h : found.filter s.available = some entry) : s.available entry = true :=
  (Option.filter_eq_some_iff.mp h).2

theorem directEntry_available {port : UInt16} {conns : Nat} {name : String} {entry : ServiceEntry}
    (h : s.directEntry order port conns = some (name, entry)) : s.available entry = true := by
  obtain ⟨n, -, h⟩ := Option.bind_eq_some_iff.mp h
  obtain ⟨e, he, h⟩ := Option.bind_eq_some_iff.mp h
  split at h
  · cases h
    exact available_of_filter he
  · cases h

theorem directEntry_forall {port : UInt16} {conns : Nat} {found : String × ServiceEntry}
    {P : String → ServiceEntry → Prop} (hd : s.directEntry order port conns = some found) :
    (∀ name entry, s.directEntry order port conns = some (name, entry) → P name entry) ↔
      P found.1 found.2 := by
  constructor
  · exact fun h => h found.1 found.2 hd
  · intro h name entry he
    cases hd.symm.trans he
    exact h

theorem httpVhostEntry_some {stream : PeerStream} {entry : ServiceEntry}
    (h : s.httpVhostEntry decode order stream = some entry) :
    s.available entry = true ∧ ∃ buf, readUntil headerTerminator 65536 [] stream.bytes = some buf ∧
      admitsCredentials decode entry.config buf = true := by
  obtain ⟨buf, hbuf, h⟩ := Option.bind_eq_some_iff.mp h
  obtain ⟨host, -, h⟩ := Option.bind_eq_some_iff.mp h
  obtain ⟨e, he, h⟩ := Option.bind_eq_some_iff.mp h
  split at h
  · next hc =>
    cases h
    exact ⟨available_of_filter he, buf, hbuf, hc⟩
  · cases h

theorem httpsVhostEntry_available {stream : PeerStream} {entry : ServiceEntry}
    (h : s.httpsVhostEntry order stream = some entry) : s.available entry = true := by
  obtain ⟨sni, -, h⟩ := Option.bind_eq_some_iff.mp h
  exact available_of_filter h

theorem tcpmuxEntry_available {stream : PeerStream} {entry : ServiceEntry}
    (h : s.tcpmuxEntry order stream = some entry) : s.available entry = true := by
  obtain ⟨buf, -, h⟩ := Option.bind_eq_some_iff.mp h
  obtain ⟨host, -, h⟩ := Option.bind_eq_some_iff.mp h
  exact available_of_filter h

theorem qcpEntry_type {stream : PeerStream} {entry : ServiceEntry}
    (h : s.qcpEntry stream = some entry) : isQcp entry.config = true := by
  obtain ⟨⟨name, rest⟩, -, h⟩ := Option.bind_eq_some_iff.mp h
  obtain ⟨e, he, h⟩ := Option.bind_eq_some_iff.mp h
  have hpass := (Option.filter_eq_some_iff.mp he).2
  split at h
  · cases h
    exact (Bool.and_eq_true_iff.mp hpass).1
  · cases h

end RelayState

end Cross233.Server
