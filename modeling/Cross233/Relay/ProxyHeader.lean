import Cross233.Library.BigEndian
import Cross233.Library.IpText
import Cross233.Library.Lines
import Cross233.Protocol.Msg

namespace Cross233.Relay

open Protocol IpAddr

def octets : IpAddr → List UInt8
  | .v4 octets => octets.map UInt8.ofNat
  | .v6 groups => groups.flatMap (BigEndian.toBe 2)

def v2Signature : List UInt8 :=
  [0x0d, 0x0a, 0x0d, 0x0a, 0x00, 0x0d, 0x0a, 0x51, 0x55, 0x49, 0x54, 0x0a]

def v1Signature : List Char := "PROXY ".toList

def v1Text (proto : String) (src dst : SocketAddr) : List Char :=
  v1Signature ++ (proto.toList ++ ' ' :: (src.ip.text ++ ' ' :: (dst.ip.text ++
    ' ' :: (Nat.toDigits 10 src.port ++ ' ' :: (Nat.toDigits 10 dst.port ++ ['\r', '\n'])))))

def v1Header (proto : String) (src dst : SocketAddr) : List UInt8 :=
  Text.utf8 (String.ofList (v1Text proto src dst))

def v2Header (command family : UInt8) (addresses : List UInt8) : List UInt8 :=
  v2Signature ++ [command, family] ++ BigEndian.toBe 2 addresses.length ++ addresses

def v2Addresses (src dst : SocketAddr) : List UInt8 :=
  octets src.ip ++ octets dst.ip ++ BigEndian.toBe 2 src.port ++ BigEndian.toBe 2 dst.port

namespace Server

def buildV1Header (src dst : SocketAddr) : List UInt8 :=
  v1Header (if src.ip.isV4 then "TCP4" else "TCP6") src dst

-- The server writes each port behind its own address.
def buildV2Header (src dst : SocketAddr) : List UInt8 :=
  let endpoint (addr : SocketAddr) := octets addr.ip ++ BigEndian.toBe 2 addr.port
  let endpointV4 (addr : SocketAddr) :=
    if addr.ip.isV4 then endpoint addr else List.replicate 6 0
  match src.ip, dst.ip with
  | .v4 _, .v4 _ => v2Header 0x21 0x11 (endpoint src ++ endpoint dst)
  | .v6 _, .v6 _ => v2Header 0x21 0x21 (endpoint src ++ endpoint dst)
  | _, _ => v2Header 0x21 0x11 (endpointV4 src ++ endpointV4 dst)

def buildHeader (version : String) (src dst : SocketAddr) : List UInt8 :=
  match version with
  | "v1" | "" => buildV1Header src dst
  | "v2" => buildV2Header src dst
  | _ => buildV1Header src dst

-- What goes into the tunnel, `dst` being the accepted connection's local address where the
-- system knows it.
def relayInboundTunnel (svc : Service) (src : SocketAddr) (dst : Option SocketAddr)
    (replay payload : List UInt8) : List UInt8 :=
  let header :=
    if svc.proxyProtocol then
      match dst with
      | some dst => buildHeader (svc.proxyProtocolVersion.getD "v1") src dst
      | none => []
    else []
  header ++ replay ++ payload

def openTunnel (id : String) (svc : Service) (src dst : Option SocketAddr) : Message :=
  .newOpen id ((src.map SocketAddr.toString).getD "") ((dst.map SocketAddr.toString).getD "") svc

end Server

namespace Client

def buildV1Header (src dst : SocketAddr) : List UInt8 :=
  v1Header (if src.ip.isV4 && dst.ip.isV4 then "TCP4" else "TCP6") src dst

def buildV2Header (src dst : SocketAddr) : List UInt8 :=
  match src.ip, dst.ip with
  | .v4 _, .v4 _ => v2Signature ++ [0x21, 0x11] ++ BigEndian.toBe 2 12 ++ v2Addresses src dst
  | .v6 _, .v6 _ => v2Signature ++ [0x21, 0x21] ++ BigEndian.toBe 2 36 ++ v2Addresses src dst
  | _, _ => v2Signature ++ [0x20, 0x00] ++ BigEndian.toBe 2 0

def buildHeader (src dst : SocketAddr) (version : Option String) : List UInt8 :=
  match version with
  | some "v2" => buildV2Header src dst
  | _ => buildV1Header src dst

-- What is written to the local service, `la` being the local end of the connection to it; a
-- static service has none, and without `la` the request is given up.
def handleOpen (remoteAddress : String) (svc : Service) (la : Option SocketAddr)
    (tunnel : List UInt8) : List UInt8 :=
  if svc.effectiveType = "static" then []
  else if svc.proxyProtocol then
    match la with
    | none => []
    | some la =>
      let ra := (parseSocket remoteAddress).getD la
      buildHeader ra la svc.proxyProtocolVersion ++ tunnel
  else tunnel

end Client

def backendBytes (id : String) (svc : Service) (src : SocketAddr) (dst la : Option SocketAddr)
    (payload : List UInt8) : List UInt8 :=
  let msg := Server.openTunnel id svc (some src) dst
  let tunnel := Server.relayInboundTunnel svc src dst [] payload
  match msg.service with
  | some svc => Client.handleOpen (msg.address.getD "") svc la tunnel
  | none => []

-- The headers of the protocol that name `src` as the peer: the text line of version 1, or the
-- block of version 2 with any extension fields after the addresses.
inductive Describes (src : SocketAddr) : List UInt8 → Prop where
  | v1 (dst : SocketAddr) (hvalid : dst.Valid) (hfamily : dst.ip.isV4 = src.ip.isV4) :
      Describes src (v1Header (if src.ip.isV4 then "TCP4" else "TCP6") src dst)
  | v2 (dst : SocketAddr) (extensions : List UInt8) (hvalid : dst.Valid)
      (hfamily : dst.ip.isV4 = src.ip.isV4)
      (hlen : (v2Addresses src dst ++ extensions).length < 65536) :
      Describes src (v2Header 0x21 (if src.ip.isV4 then 0x11 else 0x21)
        (v2Addresses src dst ++ extensions))

def OneHeader (src : SocketAddr) (payload written : List UInt8) : Prop :=
  ∃ header, Describes src header ∧ written = header ++ payload

variable {src dst : SocketAddr}

theorem octets_length (h : src.Valid) : (octets src.ip).length = if src.ip.isV4 then 4 else 16 := by
  obtain ⟨-, hip⟩ := h
  cases hsrc : src.ip with
  | v4 os =>
    rw [hsrc] at hip
    simp [octets, isV4, hip.1]
  | v6 gs =>
    rw [hsrc] at hip
    simp [octets, isV4, hip.1]

theorem v2Addresses_length (hs : src.Valid) (hd : dst.Valid)
    (hfamily : dst.ip.isV4 = src.ip.isV4) :
    (v2Addresses src dst).length = if src.ip.isV4 then 12 else 36 := by
  simp only [v2Addresses, List.length_append, BigEndian.length_toBe, octets_length hs,
    octets_length hd, hfamily]
  split
  · rfl
  · rfl

theorem clientV2_same (hs : src.Valid) (hd : dst.Valid) (hfamily : dst.ip.isV4 = src.ip.isV4) :
    Client.buildV2Header src dst =
      v2Header 0x21 (if src.ip.isV4 then 0x11 else 0x21) (v2Addresses src dst) := by
  have hlen := v2Addresses_length hs hd hfamily
  unfold Client.buildV2Header v2Header
  rw [hlen]
  cases hsrc : src.ip with
  | v4 os =>
    cases hdst : dst.ip with
    | v4 os' => rfl
    | v6 gs' => simp [hsrc, hdst, isV4] at hfamily
  | v6 gs =>
    cases hdst : dst.ip with
    | v4 os' => simp [hsrc, hdst, isV4] at hfamily
    | v6 gs' => rfl

theorem clientV2_mixed (hfamily : dst.ip.isV4 ≠ src.ip.isV4) :
    Client.buildV2Header src dst = v2Header 0x20 0x00 [] := by
  unfold Client.buildV2Header
  cases hsrc : src.ip with
  | v4 os =>
    cases hdst : dst.ip with
    | v4 os' => simp [hsrc, hdst, isV4] at hfamily
    | v6 gs' => rfl
  | v6 gs =>
    cases hdst : dst.ip with
    | v4 os' => rfl
    | v6 gs' => simp [hsrc, hdst, isV4] at hfamily

theorem clientV1_proto (hfamily : dst.ip.isV4 = src.ip.isV4) :
    Client.buildV1Header src dst = v1Header (if src.ip.isV4 then "TCP4" else "TCP6") src dst := by
  rw [Client.buildV1Header, hfamily, Bool.and_self]

theorem v1Header_head (proto : String) (src dst : SocketAddr) :
    (v1Header proto src dst).head? = some 0x50 := by
  have hsplit : v1Header proto src dst = Text.utf8 "PROXY " ++ Text.utf8 (String.ofList
      ((v1Text proto src dst).drop 6)) := by
    rw [← Text.utf8_append, v1Header]
    congr 1
    apply String.toList_inj.mp
    simp only [String.toList_append, String.toList_ofList]
    rfl
  rw [hsplit]
  rfl

theorem v2Header_head (command family : UInt8) (addresses : List UInt8) :
    (v2Header command family addresses).head? = some 0x0d := rfl

theorem v2Header_append {command command' family family' : UInt8} {xs ys rest : List UInt8}
    (hx : xs.length < 65536) (hy : ys.length < 65536)
    (h : v2Header command family xs ++ rest = v2Header command' family' ys) :
    command = command' ∧ rest = [] := by
  have hpow : (65536 : Nat) = 256 ^ 2 := rfl
  simp only [v2Header, List.append_assoc, List.append_cancel_left_eq, List.cons_append,
    List.nil_append, List.cons.injEq] at h
  obtain ⟨hcommand, -, h⟩ := h
  -- The length field says where a header ends.
  obtain ⟨hfield, hrest⟩ := List.append_inj h (by simp)
  have hlen := congrArg BigEndian.ofBe hfield
  rw [BigEndian.ofBe_toBe_of_lt (hpow ▸ hx), BigEndian.ofBe_toBe_of_lt (hpow ▸ hy)] at hlen
  refine ⟨hcommand, ?_⟩
  have := congrArg List.length hrest
  rw [List.length_append, hlen] at this
  exact List.length_eq_zero_iff.mp (by omega)

theorem utf8_inj {s t : String} (h : Text.utf8 s = Text.utf8 t) : s = t := by
  have := congrArg Text.fromUtf8 h
  rw [Text.fromUtf8_utf8, Text.fromUtf8_utf8] at this
  exact Option.some.inj this

theorem notMem_ipText {c : Char} (hc : isIpChar c = false) (ip : IpAddr) : c ∉ ip.text := by
  intro h
  rw [isIpChar_of_mem h] at hc
  cases hc

theorem notMem_toDigits {c : Char} (hc : isDigit 16 c = false) (n : Nat) :
    c ∉ Nat.toDigits 10 n := by
  intro h
  rw [mem_toDigits (by decide) (by decide) h] at hc
  cases hc

theorem v1Text_line {proto : String} (hp : '\n' ∉ proto.toList) (src dst : SocketAddr) :
    ∃ body, '\n' ∉ body ∧ v1Text proto src dst = body ++ ['\n'] := by
  refine ⟨v1Signature ++ (proto.toList ++ ' ' :: (src.ip.text ++ ' ' :: (dst.ip.text ++
    ' ' :: (Nat.toDigits 10 src.port ++ ' ' :: (Nat.toDigits 10 dst.port ++ ['\r']))))), ?_, ?_⟩
  · have hip (ip : IpAddr) : '\n' ∉ ip.text := notMem_ipText (by decide) ip
    have hdigits (n : Nat) : '\n' ∉ Nat.toDigits 10 n := notMem_toDigits (by decide) n
    have hspace {text : List Char} (h : '\n' ∉ text) : '\n' ∉ ' ' :: text :=
      List.not_mem_cons_of_ne_of_not_mem (by decide) h
    refine List.not_mem_append (by decide) (List.not_mem_append hp (hspace ?_))
    refine List.not_mem_append (hip _) (hspace (List.not_mem_append (hip _) (hspace ?_)))
    exact List.not_mem_append (hdigits _) (hspace (List.not_mem_append (hdigits _) (by decide)))
  · simp only [v1Text, List.append_assoc, List.cons_append, List.nil_append]

theorem v1Header_append {proto proto' : String} {a b : SocketAddr} {rest : String}
    (hp : '\n' ∉ proto.toList) (hp' : '\n' ∉ proto'.toList)
    (h : v1Header proto src a ++ Text.utf8 rest = v1Header proto' src b) :
    v1Text proto src a = v1Text proto' src b ∧ rest = "" := by
  rw [v1Header, v1Header, ← Text.utf8_append] at h
  have hchars := congrArg String.toList (utf8_inj h)
  rw [String.toList_append, String.toList_ofList, String.toList_ofList] at hchars
  obtain ⟨body, hbody, htext⟩ := v1Text_line hp src a
  obtain ⟨body', hbody', htext'⟩ := v1Text_line hp' src b
  rw [htext, htext', List.append_assoc] at hchars
  obtain ⟨hsame, hrest⟩ := Lines.append_cons_inj hbody hbody' hchars
  refine ⟨by rw [htext, htext', hsame], ?_⟩
  exact String.toList_inj.mp hrest

theorem v1Text_family {a b : SocketAddr} (hb : b.Valid) (hfamily : b.ip.isV4 = src.ip.isV4)
    (h : v1Text (if src.ip.isV4 && a.ip.isV4 then "TCP4" else "TCP6") src a =
      v1Text (if src.ip.isV4 then "TCP4" else "TCP6") src b) : a.ip.isV4 = src.ip.isV4 := by
  cases hsrc : src.ip.isV4 with
  | true =>
    cases ha : a.ip.isV4 with
    | true => rfl
    | false => simp [v1Text, hsrc, ha] at h
  | false =>
    cases haip : a.ip with
    | v6 gs => rfl
    | v4 os =>
      -- The addresses of both lines stand between blanks, so they would have to be equal.
      have hspace (ip : IpAddr) : ' ' ∉ ip.text := notMem_ipText (by decide) ip
      simp only [v1Text, hsrc, Bool.false_and, Bool.false_eq_true, if_false,
        List.append_cancel_left_eq, List.cons.injEq, true_and] at h
      obtain ⟨htext, -⟩ := Lines.append_cons_inj (hspace _) (hspace _) h
      have hcolon : ':' ∈ b.ip.text := by
        obtain ⟨-, hip⟩ := hb
        cases hbip : b.ip with
        | v4 os' =>
          rw [hsrc, hbip] at hfamily
          cases hfamily
        | v6 gs =>
          rw [hbip] at hip
          exact colon_mem_ipv6Text hip.1
      rw [← htext, haip] at hcolon
      exact absurd hcolon (colon_notMem_octetsText os)

theorem newline_notMem_proto (v4 : Bool) : '\n' ∉ (if v4 then "TCP4" else "TCP6").toList := by
  cases v4 <;> decide

theorem serverHeader_v1 {svc : Service} (hv : svc.proxyProtocolVersion ≠ some "v2") :
    Server.buildHeader (svc.proxyProtocolVersion.getD "v1") src dst =
      Server.buildV1Header src dst := by
  unfold Server.buildHeader
  split
  · rfl
  · rfl
  · next heq =>
    cases hver : svc.proxyProtocolVersion with
    | none => simp [hver] at heq
    | some v =>
      rw [hver] at heq
      exact absurd (hver.trans (congrArg some heq)) hv
  · rfl

theorem clientHeader_v1 {version : Option String} (hv : version ≠ some "v2") :
    Client.buildHeader src dst version = Client.buildV1Header src dst := by
  unfold Client.buildHeader
  split
  · exact absurd rfl hv
  · rfl

theorem serverV2_cons (src dst : SocketAddr) :
    ∃ command family addresses, Server.buildV2Header src dst =
      v2Header command family addresses := by
  unfold Server.buildV2Header
  split
  · exact ⟨_, _, _, rfl⟩
  · exact ⟨_, _, _, rfl⟩
  · exact ⟨_, _, _, rfl⟩

theorem backendBytes_eq {svc : Service} (hproxy : svc.proxyProtocol = true)
    (hlocal : svc.effectiveType ≠ "static") (id : String) (hsrc : src.Valid)
    (dst : Option SocketAddr) (la : SocketAddr) (payload : List UInt8) :
    backendBytes id svc src dst (some la) payload =
      Client.buildHeader src la svc.proxyProtocolVersion ++
        (match dst with
          | some dst => Server.buildHeader (svc.proxyProtocolVersion.getD "v1") src dst
          | none => []) ++ payload := by
  have hparse : parseSocket src.toString = some src := SocketAddr.parseSocket_toString hsrc
  simp [backendBytes, Server.openTunnel, Message.newOpen, Client.handleOpen,
    Server.relayInboundTunnel, hproxy, hlocal, hparse]

theorem Describes.ne_nil {header : List UInt8} (h : Describes src header) : header ≠ [] := by
  cases h with
  | v1 dst hvalid hfamily =>
    intro hnil
    have := v1Header_head (if src.ip.isV4 then "TCP4" else "TCP6") src dst
    rw [hnil] at this
    cases this
  | v2 dst extensions hvalid hfamily hlen => exact fun hnil => nomatch hnil

theorem described_v1 {la : SocketAddr} {server : String}
    (h : Describes src (Client.buildV1Header src la ++ Text.utf8 server)) :
    la.ip.isV4 = src.ip.isV4 ∧ server = "" := by
  generalize hbytes : Client.buildV1Header src la ++ Text.utf8 server = header at h
  cases h with
  | v1 dst hvalid hfamily =>
    obtain ⟨htext, hrest⟩ := v1Header_append (newline_notMem_proto _) (newline_notMem_proto _)
      hbytes
    exact ⟨v1Text_family hvalid hfamily htext, hrest⟩
  | v2 dst extensions hvalid hfamily hlen =>
    have hhead := congrArg List.head? hbytes
    rw [List.head?_append, Client.buildV1Header, v1Header_head, v2Header_head] at hhead
    simp at hhead

theorem described_v2 {la : SocketAddr} (hsrc : src.Valid) (hla : la.Valid) {server : List UInt8}
    (h : Describes src (Client.buildV2Header src la ++ server)) :
    la.ip.isV4 = src.ip.isV4 ∧ server = [] := by
  generalize hbytes : Client.buildV2Header src la ++ server = header at h
  by_cases hsame : la.ip.isV4 = src.ip.isV4
  · refine ⟨hsame, ?_⟩
    have hshort : (v2Addresses src la).length < 65536 := by
      rw [v2Addresses_length hsrc hla hsame]
      split <;> decide
    rw [clientV2_same hsrc hla hsame] at hbytes
    cases h with
    | v1 dst hvalid hfamily =>
      have hhead := congrArg List.head? hbytes
      rw [List.head?_append, v1Header_head, v2Header_head] at hhead
      simp at hhead
    | v2 dst extensions hvalid hfamily hlen => exact (v2Header_append hshort hlen hbytes).2
  · rw [clientV2_mixed hsame] at hbytes
    cases h with
    | v1 dst hvalid hfamily =>
      have hhead := congrArg List.head? hbytes
      rw [List.head?_append, v1Header_head, v2Header_head] at hhead
      simp at hhead
    | v2 dst extensions hvalid hfamily hlen =>
      have hcommand := (v2Header_append (by decide) hlen hbytes).1
      exact absurd hcommand (by decide)

theorem describes_client {la : SocketAddr} (hsrc : src.Valid) (hla : la.Valid)
    (hfamily : la.ip.isV4 = src.ip.isV4) (version : Option String) :
    Describes src (Client.buildHeader src la version) := by
  by_cases hv : version = some "v2"
  · have hshort : (v2Addresses src la ++ []).length < 65536 := by
      rw [List.append_nil, v2Addresses_length hsrc hla hfamily]
      split <;> decide
    have hdescribed := Describes.v2 la [] hla hfamily hshort
    rw [List.append_nil, ← clientV2_same hsrc hla hfamily] at hdescribed
    rw [hv]
    exact hdescribed
  · rw [clientHeader_v1 hv, clientV1_proto hfamily]
    exact .v1 la hla hfamily

theorem OneHeader.unknown_destination {id : String} {svc : Service}
    (hproxy : svc.proxyProtocol = true) (hlocal : svc.effectiveType ≠ "static") (hsrc : src.Valid)
    {dst : Option SocketAddr} {la : SocketAddr} (hla : la.Valid) {payload : List UInt8}
    (h : OneHeader src payload (backendBytes id svc src dst (some la) payload)) :
    dst = none ∧ la.ip.isV4 = src.ip.isV4 := by
  obtain ⟨header, hdescribes, hbytes⟩ := h
  rw [backendBytes_eq hproxy hlocal id hsrc] at hbytes
  obtain rfl := List.append_cancel_right hbytes
  by_cases hv : svc.proxyProtocolVersion = some "v2"
  · rw [hv] at hdescribes
    obtain ⟨hfamily, hserver⟩ := described_v2 hsrc hla hdescribes
    refine ⟨?_, hfamily⟩
    cases dst with
    | none => rfl
    | some d =>
      obtain ⟨command, family, addresses, hheader⟩ := serverV2_cons src d
      exact absurd (hheader.symm.trans hserver) (by simp [v2Header, v2Signature])
  · rw [clientHeader_v1 hv] at hdescribes
    cases dst with
    | none =>
      have hplain : Describes src (Client.buildV1Header src la ++ Text.utf8 "") := hdescribes
      exact ⟨rfl, (described_v1 hplain).1⟩
    | some d =>
      dsimp only at hdescribes
      rw [serverHeader_v1 hv] at hdescribes
      have hempty := (described_v1 hdescribes).2
      have hhead := v1Header_head (if src.ip.isV4 then "TCP4" else "TCP6") src d
      rw [v1Header, hempty] at hhead
      cases hhead

theorem one_header_iff (id : String) (svc : Service) (hproxy : svc.proxyProtocol = true)
    (hlocal : svc.effectiveType ≠ "static") (src : SocketAddr) (hsrc : src.Valid)
    (dst la : Option SocketAddr) (hla : ∀ a ∈ la, a.Valid) (payload : List UInt8) :
    OneHeader src payload (backendBytes id svc src dst la payload) ↔
      dst = none ∧ ∃ a, la = some a ∧ a.ip.isV4 = src.ip.isV4 := by
  cases la with
  | none =>
    refine ⟨?_, fun ⟨_, a, ha, _⟩ => nomatch ha⟩
    rintro ⟨header, hdescribes, hbytes⟩
    have hnothing : backendBytes id svc src dst none payload = [] := by
      simp [backendBytes, Server.openTunnel, Message.newOpen, Client.handleOpen, hproxy, hlocal]
    rw [hnothing] at hbytes
    exact absurd (List.append_eq_nil_iff.mp hbytes.symm).1 hdescribes.ne_nil
  | some a =>
    have hvalid := hla a rfl
    constructor
    · intro hone
      obtain ⟨hdst, hfamily⟩ := hone.unknown_destination hproxy hlocal hsrc hvalid
      exact ⟨hdst, a, rfl, hfamily⟩
    · rintro ⟨rfl, b, hb, hfamily⟩
      cases hb
      rw [backendBytes_eq hproxy hlocal id hsrc]
      exact ⟨_, describes_client hsrc hvalid hfamily _, by rw [List.append_nil]⟩

def proxiedService : Service where
  name := "web"
  localAddr := "127.0.0.1:80"
  remotePort := 60080
  proxyProtocol := true

def peerAddr : SocketAddr := ⟨.v4 [192, 0, 2, 7], 4000, 0⟩

def publicAddr : SocketAddr := ⟨.v4 [203, 0, 113, 1], 60080, 0⟩

def localAddr : SocketAddr := ⟨.v4 [127, 0, 0, 1], 50000, 0⟩

theorem peerAddr_valid : peerAddr.Valid := ⟨by decide, rfl, by decide, rfl⟩

theorem localAddr_valid : localAddr.Valid := ⟨by decide, rfl, by decide, rfl⟩

theorem unknown_destination_one_header :
    OneHeader peerAddr [0x47, 0x45, 0x54]
      (backendBytes "t1" proxiedService peerAddr none (some localAddr) [0x47, 0x45, 0x54]) :=
  (one_header_iff "t1" proxiedService rfl (by decide) peerAddr peerAddr_valid none (some localAddr)
    (fun a ha => by cases ha; exact localAddr_valid) _).mpr ⟨rfl, localAddr, rfl, rfl⟩

theorem backend_sees_two_headers :
    backendBytes "t1" proxiedService peerAddr (some publicAddr) (some localAddr)
        (Text.utf8 "GET") =
      Text.utf8 ("PROXY TCP4 192.0.2.7 127.0.0.1 4000 50000\r\n" ++
        "PROXY TCP4 192.0.2.7 203.0.113.1 4000 60080\r\nGET") ∧
    ¬OneHeader peerAddr (Text.utf8 "GET") (backendBytes "t1" proxiedService peerAddr
      (some publicAddr) (some localAddr) (Text.utf8 "GET")) := by
  refine ⟨?_, fun hone => ?_⟩
  · have htexts : String.ofList (v1Text "TCP4" peerAddr localAddr) ++
        String.ofList (v1Text "TCP4" peerAddr publicAddr) ++ "GET" =
        "PROXY TCP4 192.0.2.7 127.0.0.1 4000 50000\r\n" ++
          "PROXY TCP4 192.0.2.7 203.0.113.1 4000 60080\r\nGET" := by
      apply String.toList_inj.mp
      decide +kernel
    rw [← htexts, Text.utf8_append, Text.utf8_append]
    exact backendBytes_eq rfl (by decide) "t1" peerAddr_valid (some publicAddr) localAddr _
  · have hdst := hone.unknown_destination rfl (by decide) peerAddr_valid localAddr_valid
    cases hdst.1

end Cross233.Relay
