import Cross233.Relay.ProxyHeader
import Cross233.Server.HttpVhost

namespace Cross233.Server

open Protocol IpAddr

structure ConnectHead where
  requestLine : List UInt8
  headerLines : List (List UInt8)
  oneLine : ¬crlf <:+: requestLine
  eachLine : ∀ line ∈ headerLines, line ≠ [] ∧ ¬crlf <:+: line

namespace ConnectHead

def request (head : ConnectHead) : List UInt8 := head.requestLine ++ crlf

def afterRequest (head : ConnectHead) : List UInt8 :=
  head.headerLines.flatMap (fun line => line ++ crlf) ++ crlf

def bytes (head : ConnectHead) : List UInt8 := head.request ++ head.afterRequest

end ConnectHead

theorem readUntil_length_le {terminator read : List UInt8} {limit : Nat}
    {buf before rest : List UInt8} (h : readUntil terminator limit buf (before ++ rest) = some read)
    (hbefore : before ≠ []) (hend : terminator <:+ buf ++ before) :
    read.length ≤ (buf ++ before).length := by
  induction before generalizing buf with
  | nil => exact absurd rfl hbefore
  | cons b before ih =>
    have hsplit : buf ++ b :: before = buf ++ [b] ++ before := by simp
    rw [hsplit] at hend ⊢
    rw [List.cons_append, readUntil] at h
    split at h
    · cases h
      exact (List.prefix_append _ _).length_le
    · next hnot =>
      cases before with
      | nil =>
        rw [List.append_nil] at hend
        exact absurd (List.isSuffixOf_iff_suffix.mpr hend) hnot
      | cons b' before =>
        split at h
        · cases h
        · exact ih h (List.cons_ne_nil _ _) hend

theorem crlf_first {line : List UInt8} (h : ¬crlf <:+: line) {k : Nat}
    (hk : k < (line ++ crlf).length) : ¬crlf <:+ (line ++ crlf).take k := by
  intro hend
  rcases Nat.lt_or_ge line.length k with hlt | hle
  · have hk' : k = line.length + 1 := by
      simp only [List.length_append, crlf, List.length_cons, List.length_nil] at hk
      omega
    have htake : (line ++ crlf).take k = line ++ [13] := by
      rw [hk', List.take_append, List.take_of_length_le (Nat.le_succ _), Nat.add_sub_cancel_left]
      rfl
    rw [htake] at hend
    obtain ⟨before, hbefore⟩ := hend
    have hlast := congrArg List.getLast? hbefore
    simp [crlf] at hlast
  · rw [List.take_append_of_le_length hle] at hend
    exact h (hend.isInfix.trans (List.take_prefix _ _).isInfix)

theorem ConnectHead.request_ne_nil (head : ConnectHead) : head.request ≠ [] := by
  intro hnil
  cases (List.append_eq_nil_iff.mp hnil).2

theorem ConnectHead.read (head : ConnectHead) (h : head.request.length ≤ 8192 + 1)
    (rest : List UInt8) : readUntil crlf 8192 [] (head.request ++ rest) = some head.request := by
  have hend : crlf <:+ [] ++ head.request := List.suffix_append _ _
  exact readUntil_first rest head.request_ne_nil h hend (fun k hk => crlf_first head.oneLine hk)

theorem relayInboundTunnel_inj {svc : Service} {src : SocketAddr} {dst : Option SocketAddr}
    {replay p p' : List UInt8}
    (h : Relay.Server.relayInboundTunnel svc src dst replay p =
      Relay.Server.relayInboundTunnel svc src dst replay p') : p = p' :=
  List.append_cancel_left h

namespace RelayState

-- What the loop has not read is copied into the tunnel as it comes.
def tcpmuxTunnel (s : RelayState) (order : MapOrder) (src : SocketAddr) (dst : Option SocketAddr)
    (stream : PeerStream) : Option (ServiceEntry × List UInt8) := do
  let buf ← readUntil crlf 8192 [] stream.bytes
  let host ← connectTarget buf
  let entry ← (s.getServiceByHost order host).filter s.available
  some (entry, Relay.Server.relayInboundTunnel entry.config src dst []
    (stream.bytes.drop buf.length))

def ForwardsPayload (s : RelayState) (order : MapOrder) (src : SocketAddr)
    (dst : Option SocketAddr) (stream : PeerStream) (payload : List UInt8) : Prop :=
  ∃ entry, s.tcpmuxTunnel order src dst stream =
    some (entry, Relay.Server.relayInboundTunnel entry.config src dst [] payload)

variable {s : RelayState} {order : MapOrder} {src : SocketAddr} {dst : Option SocketAddr}
  {stream : PeerStream}

theorem tcpmuxTunnel_entry :
    (s.tcpmuxTunnel order src dst stream).map Prod.fst = s.tcpmuxEntry order stream := by
  unfold tcpmuxTunnel tcpmuxEntry
  cases readUntil crlf 8192 [] stream.bytes with
  | none => rfl
  | some buf =>
    simp only [Option.bind_eq_bind, Option.bind_some]
    cases connectTarget buf with
    | none => rfl
    | some host =>
      simp only [Option.bind_some]
      cases (s.getServiceByHost order host).filter s.available with
      | none => rfl
      | some entry => rfl

theorem tcpmuxTunnel_some {entry : ServiceEntry} {sent : List UInt8}
    (h : s.tcpmuxTunnel order src dst stream = some (entry, sent)) :
    ∃ buf, readUntil crlf 8192 [] stream.bytes = some buf ∧
      sent = Relay.Server.relayInboundTunnel entry.config src dst []
        (stream.bytes.drop buf.length) := by
  simp only [tcpmuxTunnel, Option.bind_eq_bind, Option.bind_eq_some_iff, Option.some.injEq,
    Prod.mk.injEq] at h
  obtain ⟨buf, hbuf, host, -, found, -, rfl, rfl⟩ := h
  exact ⟨buf, hbuf, rfl⟩

theorem tcpmux_leaks_head (s : RelayState) (order : MapOrder) (src : SocketAddr)
    (dst : Option SocketAddr) (stream : PeerStream) (head : ConnectHead) (payload : List UInt8)
    (hbytes : stream.bytes = head.bytes ++ payload) :
    ¬s.ForwardsPayload order src dst stream payload ∧
      ∀ host entry, connectTarget head.request = some host →
        (s.getServiceByHost order host).filter s.available = some entry →
        head.request.length ≤ 8192 + 1 →
        s.tcpmuxTunnel order src dst stream =
          some (entry, Relay.Server.relayInboundTunnel entry.config src dst []
            (head.afterRequest ++ payload)) := by
  rw [ConnectHead.bytes, List.append_assoc] at hbytes
  constructor
  · rintro ⟨entry, h⟩
    obtain ⟨buf, hbuf, hsent⟩ := tcpmuxTunnel_some h
    have hdrop := relayInboundTunnel_inj hsent
    rw [hbytes] at hbuf hdrop
    have hend : crlf <:+ [] ++ head.request := List.suffix_append _ _
    have hlen := readUntil_length_le hbuf head.request_ne_nil hend
    have hcrlf : crlf.length ≤ head.afterRequest.length := (List.suffix_append _ _).length_le
    have hpayload := congrArg List.length hdrop
    simp only [List.length_drop, List.length_append, crlf, List.length_cons, List.length_nil] at *
    omega
  · intro host entry hhost hentry hlimit
    rw [tcpmuxTunnel, hbytes, head.read hlimit]
    simp only [Option.bind_eq_bind, Option.bind_some, hhost, hentry, List.drop_left]

def shellService : Service :=
  { name := "shell", ty := some "tcpmux", host := some "shell.example" }

def shellServer : RelayState :=
  .fresh (ServerState.defaultServer.run.hello "alice" [shellService])

def shellHead : ConnectHead where
  requestLine := Text.utf8 "CONNECT shell.example:22 HTTP/1.1"
  headerLines := [Text.utf8 "Host: shell.example:22"]
  oneLine := by decide +kernel
  eachLine := by decide +kernel

def shellStream : PeerStream := ⟨[shellHead.bytes, Text.utf8 "SSH-2.0"], .silent⟩

def shellPeer : SocketAddr := ⟨.v4 [203, 0, 113, 9], 40000, 0⟩

theorem host_line_enters_tunnel :
    (shellServer.tcpmuxTunnel .identity shellPeer none shellStream).map Prod.snd =
        some (Text.utf8 "Host: shell.example:22\r\n\r\nSSH-2.0") ∧
      ¬shellServer.ForwardsPayload .identity shellPeer none shellStream
        (Text.utf8 "SSH-2.0") := by
  refine ⟨by decide +kernel, ?_⟩
  rintro ⟨entry, h⟩
  obtain ⟨buf, hbuf, hsent⟩ := tcpmuxTunnel_some h
  have hread : readUntil crlf 8192 [] shellStream.bytes = some shellHead.request := by
    decide +kernel
  rw [hread] at hbuf
  cases hbuf
  exact absurd (relayInboundTunnel_inj hsent) (by decide +kernel)

theorem shell_payload_not_alone :
    ¬shellServer.ForwardsPayload .identity shellPeer none shellStream (Text.utf8 "SSH-2.0") ∧
      shellServer.tcpmuxTunnel .identity shellPeer none shellStream =
        some (⟨shellService, "alice", 0⟩,
          Text.utf8 "Host: shell.example:22\r\n\r\nSSH-2.0") := by
  obtain ⟨hnot, hsent⟩ := tcpmux_leaks_head shellServer .identity shellPeer none shellStream
    shellHead (Text.utf8 "SSH-2.0") (by decide +kernel)
  refine ⟨hnot, ?_⟩
  rw [hsent "shell.example" ⟨shellService, "alice", 0⟩ (by decide +kernel) rfl (by decide +kernel)]
  have hafter : shellHead.afterRequest ++ Text.utf8 "SSH-2.0" =
      Text.utf8 "Host: shell.example:22\r\n\r\nSSH-2.0" := by decide +kernel
  rw [hafter]
  rfl

end RelayState

end Cross233.Server
