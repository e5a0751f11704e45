import Cross233.Server.Inbound

namespace Cross233.Server

open Protocol IpAddr

structure Ipnet where
  Net : Type
  parse : String → Option Net
  contains : Net → IpAddr → Bool

def cidrContains (ipnet : Ipnet) (cidrs : List String) (ip : IpAddr) : Bool :=
  cidrs.any fun c => (ipnet.parse c).any fun net => ipnet.contains net ip

structure Permits (ipnet : Ipnet) (svc : Service) (ip : IpAddr) : Prop where
  denied : cidrContains ipnet svc.denyCidrs ip = false
  allowed : svc.allowCidrs ≠ [] → cidrContains ipnet svc.allowCidrs ip = true

namespace RelayState

variable {s : RelayState} {decode : String → Option (List UInt8)} {order : MapOrder}
  {ipnet : Ipnet}

-- An entry point and, for the direct ports, the registry once a static request has failed.
inductive EntryPoint where
  | direct (port : UInt16) (later : RelayState)
  | http
  | https
  | tcpmux
  | udp (service : String)

def EntryPoint.Enters : EntryPoint → Inbound → Prop
  | .direct port later, .direct port' _ _ _ relay => port' = port ∧ relay.later = later
  | .http, .http .. => True
  | .https, .https .. => True
  | .tcpmux, .tcpmux .. => True
  | .udp name, .udp name' _ _ => name' = name
  | _, _ => False

def HonoursCidrsOn (s : RelayState) (ipnet : Ipnet) (decode : String → Option (List UInt8))
    (path : EntryPoint) (sources : Set IpAddr) : Prop :=
  ∀ order conn, path.Enters conn → ∀ forward ∈ s.handleInbound decode order conn, ∀ src,
    forward.src = some src → src.ip ∈ sources → Permits ipnet forward.entry.config src.ip

def AskedByHttp (decode : String → Option (List UInt8)) (svc : Service) : Prop :=
  ∃ (stream : PeerStream) (buf : List UInt8) (host : Option String),
    readUntil headerTerminator 65536 [] stream.bytes = some buf ∧ extractHost buf = some host ∧
      answersHost svc (host.getD "") = true ∧ admitsCredentials decode svc buf = true

def AskedByHttps (svc : Service) : Prop :=
  ∃ (stream : PeerStream) (sni : Option String), readHello helloCapacity [] stream = some sni ∧
    answersHost svc (sni.getD "") = true

def AskedByTcpmux (svc : Service) : Prop :=
  ∃ (stream : PeerStream) (buf : List UInt8) (host : String),
    readUntil crlf 8192 [] stream.bytes = some buf ∧ connectTarget buf = some host ∧
      answersHost svc host = true

-- The entries that an entry point can lead to; a static service may also lead to the entry that
-- has its name after its request has failed.
def Selectable (s : RelayState) (decode : String → Option (List UInt8)) :
    EntryPoint → ServiceEntry → Prop
  | .direct port later, entry => ∃ listening ∈ s.entries, listening.config.remotePort = port ∧
      ∃ found, s.getServiceByName listening.config.name = some found ∧
        s.available found = true ∧ (entry = found ∨ relaysStatic found.config = true ∧
          later.getServiceByName listening.config.name = some entry)
  | .http, entry => entry ∈ s.entries ∧ s.available entry = true ∧ AskedByHttp decode entry.config
  | .https, entry => entry ∈ s.entries ∧ s.available entry = true ∧ AskedByHttps entry.config
  | .tcpmux, entry => entry ∈ s.entries ∧ s.available entry = true ∧ AskedByTcpmux entry.config
  | .udp name, entry => s.getServiceByName name = some entry ∧ s.available entry = true

def ExcludesNone (ipnet : Ipnet) (svc : Service) (sources : Set IpAddr) : Prop :=
  ∀ ip ∈ sources, Permits ipnet svc ip

theorem enabled_of_available {entry : ServiceEntry} (h : s.available entry = true) :
    s.isEnabled entry.config.name = true :=
  (Bool.and_eq_true_iff.mp h).1

theorem hostEntry_mem {host : String} {entry : ServiceEntry}
    (h : s.getServiceByHost order host = some entry) :
    entry ∈ s.entries ∧ answersHost entry.config host = true := by
  unfold getServiceByHost at h
  have hp := List.find?_some h
  exact ⟨(order.perm s.entries).subset (List.mem_of_find?_eq_some h),
    (Bool.and_eq_true_iff.mp hp).2⟩

theorem directEntry_some {port : UInt16} {conns : Nat} {name : String} {entry : ServiceEntry}
    (h : s.directEntry order port conns = some (name, entry)) :
    ∃ listening ∈ s.entries, listening.config.remotePort = port ∧
      listening.config.name = name ∧ s.getServiceByName name = some entry ∧
        s.available entry = true := by
  obtain ⟨n, hn, h⟩ := Option.bind_eq_some_iff.mp h
  obtain ⟨e, he, h⟩ := Option.bind_eq_some_iff.mp h
  obtain ⟨listening, hfind, rfl⟩ := Option.map_eq_some_iff.mp hn
  obtain ⟨hlookup, havail⟩ := Option.filter_eq_some_iff.mp he
  split at h
  · cases h
    exact ⟨listening, (order.perm s.entries).subset (List.mem_of_find?_eq_some hfind),
      by simpa using List.find?_some hfind, rfl, hlookup, havail⟩
  · cases h

theorem direct_selectable {port : UInt16} {src : SocketAddr} {stream : PeerStream} {conns : Nat}
    {relay : StaticRelay} {forward : Forward}
    (hf : forward ∈ s.handleInboundTcp order port src stream conns relay) :
    s.Selectable decode (.direct port relay.later) forward.entry := by
  cases hd : s.directEntry order port conns with
  | none => simp [handleInboundTcp, hd] at hf
  | some found =>
    obtain ⟨name, entry⟩ := found
    obtain ⟨listening, hl, hport, rfl, hlookup, havail⟩ := directEntry_some hd
    refine (forall_handleInboundTcp hd src stream relay
      (fun f => s.Selectable decode (.direct port relay.later) f.entry)).mpr ?_ forward hf
    split
    · next hstatic =>
      refine ⟨?_, ?_⟩
      · intro request hr
        obtain ⟨_, rfl⟩ := controlRequest_some hr
        exact ⟨listening, hl, hport, entry, hlookup, havail, Or.inl rfl⟩
      · intro _ current hcur
        exact ⟨listening, hl, hport, entry, hlookup, havail, Or.inr ⟨hstatic, hcur⟩⟩
    · exact ⟨listening, hl, hport, entry, hlookup, havail, Or.inl rfl⟩

theorem http_selectable {stream : PeerStream} {entry : ServiceEntry}
    (h : s.httpVhostEntry decode order stream = some entry) :
    s.Selectable decode .http entry := by
  obtain ⟨buf, hbuf, h⟩ := Option.bind_eq_some_iff.mp h
  obtain ⟨host, hhost, h⟩ := Option.bind_eq_some_iff.mp h
  obtain ⟨e, hsel, h⟩ := Option.bind_eq_some_iff.mp h
  obtain ⟨hfind, havail⟩ := Option.filter_eq_some_iff.mp hsel
  split at h
  · next hcred =>
    cases h
    obtain ⟨hmem, hans⟩ := hostEntry_mem hfind
    exact ⟨hmem, havail, stream, buf, host, hbuf, hhost, hans, hcred⟩
  · cases h

theorem https_selectable {stream : PeerStream} {entry : ServiceEntry}
    (h : s.httpsVhostEntry order stream = some entry) : s.Selectable decode .https entry := by
  obtain ⟨sni, hsni, hsel⟩ := Option.bind_eq_some_iff.mp h
  obtain ⟨hfind, havail⟩ := Option.filter_eq_some_iff.mp hsel
  obtain ⟨hmem, hans⟩ := hostEntry_mem hfind
  exact ⟨hmem, havail, stream, sni, hsni, hans⟩

theorem tcpmux_selectable {stream : PeerStream} {entry : ServiceEntry}
    (h : s.tcpmuxEntry order stream = some entry) : s.Selectable decode .tcpmux entry := by
  obtain ⟨buf, hbuf, h⟩ := Option.bind_eq_some_iff.mp h
  obtain ⟨host, hhost, hsel⟩ := Option.bind_eq_some_iff.mp h
  obtain ⟨hfind, havail⟩ := Option.filter_eq_some_iff.mp hsel
  obtain ⟨hmem, hans⟩ := hostEntry_mem hfind
  exact ⟨hmem, havail, stream, buf, host, hbuf, hhost, hans⟩

-- What a handler forwards belongs to a service that the entry point can select.
theorem forwarded_selectable {path : EntryPoint} {conn : Inbound} (hc : path.Enters conn)
    {forward : Forward} (hf : forward ∈ s.handleInbound decode order conn) :
    s.Selectable decode path forward.entry := by
  cases path with
  | direct port later =>
    cases conn with
    | direct port' src stream conns relay =>
      obtain ⟨rfl, rfl⟩ := hc
      exact direct_selectable hf
    | http | https | tcpmux | qcp | udp => exact hc.elim
  | http =>
    cases conn with
    | http src stream =>
      obtain ⟨entry, he, rfl⟩ := Option.map_eq_some_iff.mp (Option.mem_toList.mp hf)
      exact http_selectable he
    | direct | https | tcpmux | qcp | udp => exact hc.elim
  | https =>
    cases conn with
    | https src stream =>
      obtain ⟨entry, he, rfl⟩ := Option.map_eq_some_iff.mp (Option.mem_toList.mp hf)
      exact https_selectable he
    | direct | http | tcpmux | qcp | udp => exact hc.elim
  | tcpmux =>
    cases conn with
    | tcpmux src stream =>
      obtain ⟨entry, he, rfl⟩ := Option.map_eq_some_iff.mp (Option.mem_toList.mp hf)
      exact tcpmux_selectable he
    | direct | http | https | qcp | udp => exact hc.elim
  | udp name =>
    cases conn with
    | udp name' src data =>
      obtain rfl := hc
      obtain ⟨entry, he, rfl⟩ := Option.map_eq_some_iff.mp (Option.mem_toList.mp hf)
      exact Option.filter_eq_some_iff.mp he
    | direct | http | https | tcpmux | qcp => exact hc.elim

theorem first_host {entry : ServiceEntry} (h : entry ∈ s.entries)
    (ha : s.available entry = true) {host : String} (hans : answersHost entry.config host = true) :
    (s.getServiceByHost (.first entry) host).filter s.available = some entry := by
  rw [getServiceByHost, MapOrder.find_first h (by simp [enabled_of_available ha, hans])]
  exact Option.filter_eq_some_iff.mpr ⟨rfl, ha⟩

theorem hasRoom_zero (svc : Service) : hasRoom svc 0 = true := by
  unfold hasRoom
  by_cases h : svc.maxConnections = 0
  · simp [h]
  · have hpos : 0 < svc.maxConnections.toNat :=
      Nat.pos_of_ne_zero (fun h0 => h (UInt32.toNat_inj.mp h0))
    simp [hpos]

theorem directEntry_first {listening found : ServiceEntry} (h : listening ∈ s.entries)
    (hl : s.getServiceByName listening.config.name = some found)
    (ha : s.available found = true) :
    s.directEntry (.first listening) listening.config.remotePort 0 =
      some (listening.config.name, found) := by
  have hname : getServiceNameByPort ((MapOrder.first listening).visit s.entries)
      listening.config.remotePort = some listening.config.name := by
    rw [getServiceNameByPort, MapOrder.find_first h (by simp)]
    rfl
  have hfound : (s.getServiceByName listening.config.name).filter s.available = some found :=
    Option.filter_eq_some_iff.mpr ⟨hl, ha⟩
  rw [directEntry]
  simp [hname, hfound, hasRoom_zero]

def emptyHead : PeerStream := ⟨[crlf ++ crlf], .closed⟩

-- Whatever the source, some connection on the entry point is forwarded to a selectable service.
theorem selectable_forwarded {path : EntryPoint} {entry : ServiceEntry}
    (h : s.Selectable decode path entry) (src : SocketAddr) :
    ∃ order conn, path.Enters conn ∧ ∃ forward ∈ s.handleInbound decode order conn,
      forward.entry = entry ∧ forward.src = some src := by
  cases path with
  | direct port later =>
    obtain ⟨listening, hmem, rfl, found, hlookup, havail, hcase⟩ := h
    have hd := directEntry_first hmem hlookup havail
    rcases hcase with rfl | ⟨hstatic, hcur⟩
    · cases hstatic : relaysStatic entry.config with
      | false =>
        refine ⟨.first listening,
          .direct listening.config.remotePort src emptyHead 0 ⟨0, true, true, none, later⟩,
          ⟨rfl, rfl⟩, s.openTunnel entry src, ?_, rfl, rfl⟩
        simp [handleInbound, handleInboundTcp, hd, hstatic]
      | true =>
        refine ⟨.first listening,
          .direct listening.config.remotePort src emptyHead 0 ⟨1, true, true, none, later⟩,
          ⟨rfl, rfl⟩, ⟨entry, some src, .staticRequest (crlf ++ crlf)⟩, ?_, rfl, rfl⟩
        have hreq : controlRequest entry src emptyHead ⟨1, true, true, none, later⟩ =
            some ⟨entry, some src, .staticRequest (crlf ++ crlf)⟩ := by
          rfl
        simp [handleInbound, handleInboundTcp, hd, hstatic, mem_handleStaticInbound, hreq]
    · refine ⟨.first listening,
        .direct listening.config.remotePort src emptyHead 0 ⟨0, true, true, none, later⟩,
        ⟨rfl, rfl⟩, later.openTunnel entry src, ?_, rfl, rfl⟩
      have hback : fallsBack found src emptyHead ⟨0, true, true, none, later⟩ = true := rfl
      simp [handleInbound, handleInboundTcp, hd, hstatic, mem_handleStaticInbound, hback,
        fallbackTunnel, hcur]
  | http =>
    obtain ⟨hmem, havail, stream, buf, host, hbuf, hhost, hans, hcred⟩ := h
    refine ⟨.first entry, .http src stream, trivial, s.openTunnel entry src, ?_, rfl, rfl⟩
    have hsel := first_host hmem havail hans
    simp [handleInbound, handleHttpVhostConn, httpVhostEntry, hbuf, hhost, hsel, hcred]
  | https =>
    obtain ⟨hmem, havail, stream, sni, hsni, hans⟩ := h
    refine ⟨.first entry, .https src stream, trivial, s.openTunnel entry src, ?_, rfl, rfl⟩
    have hsel := first_host hmem havail hans
    simp [handleInbound, handleHttpsVhostConn, httpsVhostEntry, hsni, hsel]
  | tcpmux =>
    obtain ⟨hmem, havail, stream, buf, host, hbuf, hhost, hans⟩ := h
    refine ⟨.first entry, .tcpmux src stream, trivial, s.openTunnel entry src, ?_, rfl, rfl⟩
    have hsel := first_host hmem havail hans
    simp [handleInbound, handleTcpmuxConn, tcpmuxEntry, hbuf, hhost, hsel]
  | udp name =>
    obtain ⟨hlookup, havail⟩ := h
    refine ⟨.identity, .udp name src [], rfl, ⟨entry, some src, .udp []⟩, ?_, rfl, rfl⟩
    have hsel : s.udpEntry name = some entry := Option.filter_eq_some_iff.mpr ⟨hlookup, havail⟩
    simp [handleInbound, runUdpService, hsel]

theorem honours_cidrs_iff (s : RelayState) (ipnet : Ipnet)
    (decode : String → Option (List UInt8)) (path : EntryPoint) (sources : Set IpAddr) :
    s.HonoursCidrsOn ipnet decode path sources ↔
      ∀ entry, s.Selectable decode path entry → ExcludesNone ipnet entry.config sources := by
  constructor
  · intro h entry hsel ip hip
    obtain ⟨order, conn, hc, forward, hf, rfl, hsrc⟩ := selectable_forwarded hsel ⟨ip, 0, 0⟩
    exact h order conn hc forward hf ⟨ip, 0, 0⟩ hsrc hip
  · intro h order conn hc forward hf src _ hip
    exact h forward.entry (forwarded_selectable hc hf) src.ip hip

def bits : IpAddr → Nat × Nat
  | .v4 octets => (32, octets.foldl (fun n octet => n * 256 + octet) 0)
  | .v6 groups => (128, groups.foldl (fun n group => n * 65536 + group) 0)

def parseBlock (s : String) : Option (IpAddr × Nat) := do
  let (addr, len) ← Text.splitOnce '/' s.toList
  let ip ← IpAddr.parse (String.ofList addr)
  let (len, rest) ← readUnsigned ((bits ip).1 + 1) len
  if rest = [] then some (ip, len) else none

def inBlock (block : IpAddr × Nat) (ip : IpAddr) : Bool :=
  let (width, net) := bits block.1
  let (width', addr) := bits ip
  width = width' && net / 2 ^ (width - block.2) = addr / 2 ^ (width - block.2)

def blocks : Ipnet := ⟨IpAddr × Nat, parseBlock, inBlock⟩

def guardedWeb : Service where
  name := "web"
  localAddr := "127.0.0.1:3000"
  remotePort := 60080
  denyCidrs := ["192.0.2.0/24"]

def guardedHello : List ServerEvent :=
  [.hello "alice" [guardedWeb], .expose 0 (.ok ()), .ready 0 true]

def deniedPeer : SocketAddr := ⟨.v4 [192, 0, 2, 7], 50000, 0⟩

def noRelay (server : ServerState) : StaticRelay := ⟨0, true, true, none, fresh server⟩

theorem denied_peer_is_forwarded :
    cidrContains blocks guardedWeb.denyCidrs deniedPeer.ip = true ∧
    ∃ server, Machine.run ServerState.step ServerState.defaultServer.run guardedHello =
        some server ∧
      ∀ decode : String → Option (List UInt8), ¬(fresh server).HonoursCidrsOn blocks decode
        (.direct 60080 (fresh server)) {deniedPeer.ip} := by
  have hdenied : cidrContains blocks ["192.0.2.0/24"] deniedPeer.ip = true := by decide +kernel
  have hrun : (Machine.run ServerState.step ServerState.defaultServer.run guardedHello).map
      (fun server => ((fresh server).directEntry .identity 60080 0).map
        (fun found => (found.1, found.2.config.denyCidrs, relaysStatic found.2.config))) =
      some (some ("web", ["192.0.2.0/24"], false)) := by decide +kernel
  obtain ⟨server, hs, hfound⟩ := Option.map_eq_some_iff.mp hrun
  obtain ⟨⟨name, entry⟩, hd, hentry⟩ := Option.map_eq_some_iff.mp hfound
  simp only [Prod.mk.injEq] at hentry
  obtain ⟨-, hdeny, hstatic⟩ := hentry
  refine ⟨hdenied, server, hs, fun decode h => ?_⟩
  have hp := h .identity (.direct 60080 deniedPeer ⟨[], .silent⟩ 0 (noRelay server)) ⟨rfl, rfl⟩
    ((fresh server).openTunnel entry deniedPeer)
    (by simp [handleInbound, handleInboundTcp, hd, hstatic]) deniedPeer rfl rfl
  have hallowed : cidrContains blocks ["192.0.2.0/24"] deniedPeer.ip = false := hdeny ▸ hp.denied
  rw [hdenied] at hallowed
  cases hallowed

end RelayState

end Cross233.Server
