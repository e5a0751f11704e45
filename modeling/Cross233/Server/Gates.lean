import Cross233.Server.Inbound

namespace Cross233.Server

open Protocol IpAddr

def CarriesBasic (decode : String → Option (List UInt8)) (data : List UInt8)
    (user pass : String) : Prop :=
  ∃ header, headerStr data = some header ∧ ∃ line ∈ Text.splitCrlf header.toList,
    basicCredentials decode line = some (user.toList, pass.toList)

def Credentialed (decode : String → Option (List UInt8)) (svc : Service) (data : List UInt8) :
    Prop :=
  ∀ user pass, svc.httpUser = some user → svc.httpPassword = some pass →
    CarriesBasic decode data user pass

namespace Inbound

def bytes : Inbound → List UInt8
  | .direct _ _ stream _ _ => stream.bytes
  | .http _ stream => stream.bytes
  | .https _ stream => stream.bytes
  | .tcpmux _ stream => stream.bytes
  | .qcp stream _ _ => stream.bytes
  | .udp _ _ data => data

def serves (svc : Service) : Inbound → Prop
  | .direct .. => SharedServiceState.isTcpListener svc = true
  | .http .. => svc.effectiveType = "http"
  | .https .. => svc.effectiveType = "https"
  | .tcpmux .. => svc.effectiveType = "tcpmux"
  | .qcp .. => svc.effectiveType = "qcp"
  | .udp .. => svc.effectiveType = "udp"

end Inbound

structure Gated (decode : String → Option (List UInt8)) (conn : Inbound) (entry : ServiceEntry)
    (flags : Flags) : Prop where
  type : conn.serves entry.config
  enabled : flags.enabled = true
  healthy : flags.healthy = true
  credentials : Credentialed decode entry.config conn.bytes

namespace RelayState

variable {s : RelayState} {decode : String → Option (List UInt8)} {order : MapOrder}

def OpensGated (s : RelayState) (decode : String → Option (List UInt8)) (order : MapOrder)
    (conn : Inbound) : Prop :=
  ∀ forward ∈ s.handleInbound decode order conn, ∀ flags,
    forward.kind = .openTunnel flags → Gated decode conn forward.entry flags

def RelaysGated (decode : String → Option (List UInt8)) (src : SocketAddr)
    (stream : PeerStream) (relay : StaticRelay) (name : String) (entry : ServiceEntry) : Prop :=
  if relaysStatic entry.config then
    fallsBack entry src stream relay = true → ∀ current,
      relay.later.getServiceByName name = some current →
        SharedServiceState.isTcpListener current.config = true ∧
          relay.later.available current = true ∧
          Credentialed decode current.config stream.bytes
  else SharedServiceState.isTcpListener entry.config = true ∧
    Credentialed decode entry.config stream.bytes

-- What each handler leaves open: only QCP looks at the type and only HTTP at the credentials, and
-- neither the static fallback nor QCP looks at the flags again.
def KeepsOwnGate (s : RelayState) (decode : String → Option (List UInt8)) (order : MapOrder) :
    Inbound → Prop
  | .direct port src stream conns relay => ∀ name entry,
      s.directEntry order port conns = some (name, entry) →
        RelaysGated decode src stream relay name entry
  | .http _ stream => ∀ entry, s.httpVhostEntry decode order stream = some entry →
      entry.config.effectiveType = "http"
  | .https _ stream => ∀ entry, s.httpsVhostEntry order stream = some entry →
      entry.config.effectiveType = "https" ∧ Credentialed decode entry.config stream.bytes
  | .tcpmux _ stream => ∀ entry, s.tcpmuxEntry order stream = some entry →
      entry.config.effectiveType = "tcpmux" ∧ Credentialed decode entry.config stream.bytes
  | .qcp stream replyWritten held => ∀ entry, s.qcpEntry stream = some entry →
      replyWritten = true → held.enabled = true ∧ held.healthy = true ∧
        Credentialed decode entry.config stream.bytes
  | .udp .. => True

theorem checkBasicAuth_carries {data : List UInt8} {user pass : String}
    (h : checkBasicAuth decode data user pass = true) : CarriesBasic decode data user pass := by
  unfold checkBasicAuth at h
  split at h
  · cases h
  · next header hh =>
    obtain ⟨credentials, hf, hc⟩ := (Option.any_eq_true _ _).mp h
    obtain ⟨line, hl, hline⟩ := List.exists_of_findSome?_eq_some hf
    exact ⟨header, hh, line, hl, by rw [hline, of_decide_eq_true hc]⟩

theorem carries_append {data : List UInt8} {user pass : String}
    (h : CarriesBasic decode data user pass) (rest : List UInt8) :
    CarriesBasic decode (data ++ rest) user pass := by
  obtain ⟨header, hh, line, hl, hc⟩ := h
  cases hend : findHeadersEnd data with
  | some n => exact ⟨header, by rw [headerStr_append hend]; exact hh, line, hl, hc⟩
  | none =>
    -- Without a terminator the header is empty, and an empty line has no credentials.
    have hempty : header = "" := by
      have hh : Text.fromUtf8 [] = some header := by
        simpa [headerStr, headersEnd, hend] using hh
      rw [← Text.utf8_empty, Text.fromUtf8_utf8] at hh
      exact (Option.some.inj hh).symm
    subst hempty
    obtain rfl : line = [] := by simpa [Text.splitCrlf] using hl
    simp [basicCredentials, Text.toAsciiLower] at hc

theorem credentialed_of_admits {svc : Service} {stream : PeerStream} {buf : List UInt8}
    (hbuf : readUntil headerTerminator 65536 [] stream.bytes = some buf)
    (h : admitsCredentials decode svc buf = true) : Credentialed decode svc stream.bytes := by
  intro user pass hu hp
  simp only [admitsCredentials, hu, hp] at h
  obtain ⟨rest, hrest⟩ := readUntil_append hbuf
  rw [List.nil_append] at hrest
  rw [hrest]
  exact carries_append (checkBasicAuth_carries h) rest

theorem openTunnel_gated_iff (conn : Inbound) (entry : ServiceEntry) (src : SocketAddr) :
    (∀ flags, (s.openTunnel entry src).kind = .openTunnel flags →
        Gated decode conn (s.openTunnel entry src).entry flags) ↔
      conn.serves entry.config ∧ s.available entry = true ∧
        Credentialed decode entry.config conn.bytes := by
  constructor
  · intro h
    obtain ⟨ht, he, hh, hc⟩ := h (s.flags entry) rfl
    exact ⟨ht, Bool.and_eq_true_iff.mpr ⟨he, hh⟩, hc⟩
  · rintro ⟨ht, ha, hc⟩ flags hk
    cases hk
    obtain ⟨he, hh⟩ := Bool.and_eq_true_iff.mp ha
    exact ⟨ht, he, hh, hc⟩

-- The handlers that open a tunnel for the entry they found at once.
theorem opened_gated_iff {found : Option ServiceEntry} {conn : Inbound} (src : SocketAddr)
    (h : s.handleInbound decode order conn =
      (found.map (fun entry => s.openTunnel entry src)).toList)
    (ha : ∀ entry, found = some entry → s.available entry = true) :
    s.OpensGated decode order conn ↔ ∀ entry, found = some entry →
      conn.serves entry.config ∧ Credentialed decode entry.config conn.bytes := by
  unfold OpensGated
  rw [h]
  cases found with
  | none => simp
  | some entry =>
    simp only [Option.map_some, Option.toList_some, List.mem_singleton, forall_eq,
      Option.some.injEq, openTunnel_gated_iff, ha entry rfl, true_and, forall_eq']

theorem relay_gated_iff {port : UInt16} {conns : Nat} {name : String} {entry : ServiceEntry}
    (hd : s.directEntry order port conns = some (name, entry)) (src : SocketAddr)
    (stream : PeerStream) (relay : StaticRelay) :
    s.OpensGated decode order (.direct port src stream conns relay) ↔
      RelaysGated decode src stream relay name entry := by
  refine (forall_handleInboundTcp hd src stream relay _).trans ?_
  unfold RelaysGated
  split
  · refine (and_iff_right fun request hr flags hk => ?_).trans ?_
    · obtain ⟨_, rfl⟩ := controlRequest_some hr
      cases hk
    · exact forall_congr' fun _ => forall₂_congr fun current _ => openTunnel_gated_iff _ current src
  · refine (openTunnel_gated_iff _ entry src).trans (and_congr_right' ?_)
    exact and_iff_right (directEntry_available hd)

theorem opens_gated_iff (s : RelayState) (decode : String → Option (List UInt8))
    (order : MapOrder) (conn : Inbound) :
    s.OpensGated decode order conn ↔ s.KeepsOwnGate decode order conn := by
  cases conn with
  | direct port src stream conns relay =>
    cases hd : s.directEntry order port conns with
    | none => simp [OpensGated, KeepsOwnGate, handleInbound, handleInboundTcp, hd]
    | some found =>
      exact (relay_gated_iff hd src stream relay).trans (directEntry_forall hd).symm
  | http src stream =>
    rw [opened_gated_iff src rfl (fun entry h => (httpVhostEntry_some h).1)]
    refine forall₂_congr fun entry h => and_iff_left ?_
    obtain ⟨-, buf, hbuf, hc⟩ := httpVhostEntry_some h
    exact credentialed_of_admits hbuf hc
  | https src stream => exact opened_gated_iff src rfl (fun entry h => httpsVhostEntry_available h)
  | tcpmux src stream => exact opened_gated_iff src rfl (fun entry h => tcpmuxEntry_available h)
  | qcp stream replyWritten held =>
    unfold OpensGated KeepsOwnGate
    simp only [handleInbound, handleQcpConn]
    cases replyWritten with
    | false => simp
    | true =>
      constructor
      · intro h entry he _
        obtain ⟨-, hen, hh, hc⟩ := h ⟨entry, none, .openTunnel held⟩ (by simp [he]) held rfl
        exact ⟨hen, hh, hc⟩
      · intro h forward hm flags hk
        obtain ⟨entry, he, rfl⟩ := Option.map_eq_some_iff.mp (Option.mem_toList.mp hm)
        cases hk
        obtain ⟨hen, hh, hc⟩ := h entry he rfl
        have htype : entry.config.effectiveType = "qcp" := of_decide_eq_true (qcpEntry_type he)
        exact ⟨htype, hen, hh, hc⟩
  | udp name src data =>
    refine iff_of_true (fun forward hm flags hk => ?_) trivial
    obtain ⟨entry, -, rfl⟩ := Option.map_eq_some_iff.mp (Option.mem_toList.mp hm)
    cases hk

def protectedWeb : Service where
  name := "protected-web"
  ty := some "http"
  localAddr := "127.0.0.1:3000"
  host := some "app.example"
  httpUser := some "user"
  httpPassword := some "pass"

def connectLine : List UInt8 := Text.utf8 "CONNECT app.example:80 HTTP/1.1\r\n\r\n"

def stranger : SocketAddr := ⟨.v4 [192, 0, 2, 7], 50000, 0⟩

theorem connectLine_carries_nothing (decode : String → Option (List UInt8)) (user pass : String) :
    ¬CarriesBasic decode connectLine user pass := by
  rintro ⟨header, hh, line, hl, hc⟩
  have hhead : headerStr connectLine = some "CONNECT app.example:80 HTTP/1.1" := by decide +kernel
  obtain rfl := Option.some.inj (hhead.symm.trans hh)
  have hlines : Text.splitCrlf "CONNECT app.example:80 HTTP/1.1".toList =
      ["CONNECT app.example:80 HTTP/1.1".toList] := by decide +kernel
  rw [hlines, List.mem_singleton] at hl
  subst hl
  have hname : ("authorization:".toList.isPrefixOf
        (Text.toAsciiLower "CONNECT app.example:80 HTTP/1.1".toList) ||
      "proxy-authorization:".toList.isPrefixOf
        (Text.toAsciiLower "CONNECT app.example:80 HTTP/1.1".toList)) = false := by decide +kernel
  simp only [basicCredentials, hname, Bool.false_eq_true, if_false] at hc
  cases hc

def webHello : List ServerEvent :=
  [.hello "alice" [protectedWeb], .expose 0 (.ok ()), .ready 0 true]

theorem tcpmux_opens_protected_web :
    ∃ server, Machine.run ServerState.step ServerState.defaultServer.run webHello = some server ∧
      ((fresh server).handleTcpmuxConn .identity stranger ⟨[connectLine], .silent⟩).map
        (fun forward => (forward.entry.config.effectiveType, forward.entry.config.httpUser,
          forward.entry.config.httpPassword)) = some ("http", some "user", some "pass") ∧
      ∀ decode : String → Option (List UInt8), ¬(fresh server).OpensGated decode .identity
        (.tcpmux stranger ⟨[connectLine], .silent⟩) := by
  have hrun : (Machine.run ServerState.step ServerState.defaultServer.run webHello).map
      (fun server =>
        ((fresh server).handleTcpmuxConn .identity stranger ⟨[connectLine], .silent⟩).map
          (fun forward => (forward.entry.config.effectiveType, forward.entry.config.httpUser,
            forward.entry.config.httpPassword))) =
      some (some ("http", some "user", some "pass")) := by decide +kernel
  obtain ⟨server, hs, hopen⟩ := Option.map_eq_some_iff.mp hrun
  refine ⟨server, hs, hopen, fun decode h => ?_⟩
  obtain ⟨forward, hf, hconfig⟩ := Option.map_eq_some_iff.mp hopen
  obtain ⟨entry, hentry, rfl⟩ := Option.map_eq_some_iff.mp hf
  simp only [Prod.mk.injEq] at hconfig
  obtain ⟨-, huser, hpass⟩ := hconfig
  have hc := ((opened_gated_iff stranger rfl (fun _ => tcpmuxEntry_available)).mp h entry hentry).2
  exact connectLine_carries_nothing decode "user" "pass" (hc "user" "pass" huser hpass)

end RelayState

end Cross233.Server
