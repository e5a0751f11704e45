import Cross233.Relay.ProxyHeader

namespace Cross233.Relay

open IpAddr BigEndian

structure V2Peers where
  srcIp : IpAddr
  dstIp : IpAddr
  srcPort : Nat
  dstPort : Nat
  deriving DecidableEq

def groupsOfBytes : List UInt8 → List Nat
  | hi :: lo :: bytes => ofBe [hi, lo] :: groupsOfBytes bytes
  | _ => []

def ipOfV4 (bytes : List UInt8) : IpAddr := .v4 (bytes.map UInt8.toNat)

def ipOfV6 (bytes : List UInt8) : IpAddr := .v6 (groupsOfBytes bytes)

-- Both addresses stand before both ports.
def decodeAddresses (size : Nat) (ip : List UInt8 → IpAddr) (bytes : List UInt8) :
    Option V2Peers :=
  if bytes.length < size + size + 2 + 2 then none
  else
    let (src, bytes) := bytes.splitAt size
    let (dst, bytes) := bytes.splitAt size
    let (srcPort, bytes) := bytes.splitAt 2
    some ⟨ip src, ip dst, ofBe srcPort, ofBe (bytes.take 2)⟩

def decodeV2 (bytes : List UInt8) : Option V2Peers :=
  if v2Signature.isPrefixOf bytes then
    match bytes.drop v2Signature.length with
    | command :: family :: hi :: lo :: body =>
      let len := ofBe [hi, lo]
      if command ≠ 0x21 ∨ body.length < len then none
      else if family = 0x11 then decodeAddresses 4 ipOfV4 (body.take len)
      else if family = 0x21 then decodeAddresses 16 ipOfV6 (body.take len)
      else none
    | _ => none
  else none

def V2Peers.of (src dst : SocketAddr) : V2Peers := ⟨src.ip, dst.ip, src.port, dst.port⟩

structure FollowsLayout (src dst : SocketAddr) : Prop where
  server : decodeV2 (Server.buildV2Header src dst) = some (.of src dst)
  client : decodeV2 (Client.buildV2Header src dst) = some (.of src dst)
  same : Server.buildV2Header src dst = Client.buildV2Header src dst

-- The address as a sequence of sixteen bit numbers.
def portGroups : IpAddr → List Nat
  | .v4 octets => ipv4Groups octets
  | .v6 groups => groups

theorem toBe_two (a b : Nat) (hb : b < 256) :
    toBe 2 (a * 256 + b) = [UInt8.ofNat a, UInt8.ofNat b] := by
  have hhigh : (a * 256 + b) / 256 = a := by omega
  have hlow : UInt8.ofNat (a * 256 + b) = UInt8.ofNat b := by
    apply UInt8.toNat_inj.mp
    rw [UInt8.toNat_ofNat', UInt8.toNat_ofNat']
    omega
  simp [toBe, hhigh, hlow]

variable {src dst : SocketAddr}

theorem octets_eq (h : src.Valid) : octets src.ip = (portGroups src.ip).flatMap (toBe 2) := by
  obtain ⟨-, hip⟩ := h
  cases hsrc : src.ip with
  | v4 os =>
    rw [hsrc] at hip
    obtain ⟨hlen, hbound, -⟩ := hip
    match os, hlen with
    | [a, b, c, d], _ =>
      have hb : b < 256 := hbound b (by simp)
      have hd : d < 256 := hbound d (by simp)
      simp [octets, portGroups, ipv4Groups, toBe_two, hb, hd]
  | v6 gs => rfl

theorem portGroups_lt (h : src.Valid) : ∀ g ∈ portGroups src.ip, g < 65536 := by
  obtain ⟨-, hip⟩ := h
  cases hsrc : src.ip with
  | v4 os =>
    rw [hsrc] at hip
    obtain ⟨hlen, hbound, -⟩ := hip
    match os, hlen with
    | [a, b, c, d], _ =>
      simp only [List.forall_mem_cons] at hbound
      simp only [portGroups, ipv4Groups, List.forall_mem_cons]
      refine ⟨by omega, by omega, by simp⟩
  | v6 gs =>
    rw [hsrc] at hip
    exact hip.2.1

theorem groupsOfBytes_flatMap {groups : List Nat} (h : ∀ g ∈ groups, g < 65536) :
    groupsOfBytes (groups.flatMap (toBe 2)) = groups := by
  induction groups with
  | nil => rfl
  | cons g groups ih =>
    obtain ⟨hg, hgroups⟩ := List.forall_mem_cons.mp h
    have hback : ofBe (toBe 2 g) = g := ofBe_toBe_of_lt (by simpa using hg)
    rw [List.flatMap_cons]
    exact congrArg₂ List.cons hback (ih hgroups)

theorem decodeAddresses_append (size : Nat) (ip : List UInt8 → IpAddr) {a b : List UInt8}
    (ha : a.length = size) (hb : b.length = size) {p q : Nat} (hp : p < 65536) (hq : q < 65536) :
    decodeAddresses size ip (a ++ b ++ toBe 2 p ++ toBe 2 q) = some ⟨ip a, ip b, p, q⟩ := by
  have hlen : ¬(a ++ b ++ toBe 2 p ++ toBe 2 q).length < size + size + 2 + 2 := by
    simp only [List.length_append, length_toBe, ha, hb, Nat.lt_irrefl, not_false_eq_true]
  have hport {n : Nat} (hn : n < 65536) : ofBe (toBe 2 n) = n := ofBe_toBe_of_lt (by simpa using hn)
  rw [decodeAddresses, if_neg hlen]
  simp only [List.splitAt_eq, List.append_assoc, List.take_left' ha, List.drop_left' ha,
    List.take_left' hb, List.drop_left' hb, List.take_left' (length_toBe 2 p),
    List.drop_left' (length_toBe 2 p), List.take_of_length_le (length_toBe 2 q).le, hport hp,
    hport hq]

theorem ipOfV4_octets {os : List Nat} (h : ∀ o ∈ os, o < 256) :
    ipOfV4 (octets (.v4 os)) = .v4 os := by
  rw [octets, ipOfV4, List.map_map]
  congr 1
  refine List.map_congr_left (g := id) (fun o ho => ?_) |>.trans (List.map_id _)
  rw [Function.comp_apply, UInt8.toNat_ofNat', Nat.mod_eq_of_lt (h o ho), id]

theorem ipOfV6_octets {gs : List Nat} (h : ∀ g ∈ gs, g < 65536) :
    ipOfV6 (octets (.v6 gs)) = .v6 gs := congrArg IpAddr.v6 (groupsOfBytes_flatMap h)

theorem decodeV2_header (family : UInt8) {addresses : List UInt8}
    (hlen : addresses.length < 65536) :
    decodeV2 (v2Header 0x21 family addresses) =
      if family = 0x11 then decodeAddresses 4 ipOfV4 addresses
      else if family = 0x21 then decodeAddresses 16 ipOfV6 addresses
      else none := by
  have hfield : ofBe (toBe 2 addresses.length) = addresses.length :=
    ofBe_toBe_of_lt (by simpa using hlen)
  have hbytes : v2Header 0x21 family addresses = v2Signature ++ (0x21 :: family ::
      UInt8.ofNat (addresses.length / 256) :: UInt8.ofNat addresses.length :: addresses) := by
    simp [v2Header, toBe]
  have hsignature (rest : List UInt8) : v2Signature.isPrefixOf (v2Signature ++ rest) = true :=
    List.isPrefixOf_iff_prefix.mpr (List.prefix_append _ _)
  rw [hbytes, decodeV2, if_pos (hsignature _), List.drop_left]
  simp only
  rw [show ofBe [UInt8.ofNat (addresses.length / 256), UInt8.ofNat addresses.length] =
    addresses.length from hfield, if_neg (by simp), List.take_length]

theorem client_follows (hs : src.Valid) (hd : dst.Valid) (hfamily : dst.ip.isV4 = src.ip.isV4) :
    decodeV2 (Client.buildV2Header src dst) = some (.of src dst) := by
  have hlen := v2Addresses_length hs hd hfamily
  have hsize := octets_length hs
  have hsize' := octets_length hd
  rw [clientV2_same hs hd hfamily, decodeV2_header _ (by rw [hlen]; split <;> decide), v2Addresses]
  obtain ⟨hsp, hsip⟩ := hs
  obtain ⟨hdp, hdip⟩ := hd
  cases hsrc : src.ip with
  | v4 os =>
    cases hdst : dst.ip with
    | v6 gs => simp [hsrc, hdst, isV4] at hfamily
    | v4 os' =>
      rw [hsrc] at hsip hsize
      rw [hdst] at hdip hsize'
      have hv4 : (v4 os).isV4 = true := rfl
      have hdecode := decodeAddresses_append 4 ipOfV4 hsize hsize' hsp hdp
      rw [hv4, if_pos rfl, if_pos rfl, hdecode, ipOfV4_octets hsip.2.1,
        ipOfV4_octets hdip.2.1, V2Peers.of, hsrc, hdst]
  | v6 gs =>
    cases hdst : dst.ip with
    | v4 os => simp [hsrc, hdst, isV4] at hfamily
    | v6 gs' =>
      rw [hsrc] at hsip hsize
      rw [hdst] at hdip hsize'
      have hv6 : (v6 gs).isV4 = false := rfl
      have hdecode := decodeAddresses_append 16 ipOfV6 hsize hsize' hsp hdp
      rw [hv6, if_neg Bool.false_ne_true, if_neg (by decide), if_pos rfl, hdecode,
        ipOfV6_octets hsip.2.1, ipOfV6_octets hdip.2.1, V2Peers.of, hsrc, hdst]

theorem serverV2_same (hfamily : dst.ip.isV4 = src.ip.isV4) :
    Server.buildV2Header src dst = v2Header 0x21 (if src.ip.isV4 then 0x11 else 0x21)
      (octets src.ip ++ toBe 2 src.port ++ (octets dst.ip ++ toBe 2 dst.port)) := by
  obtain ⟨srcIp, srcPort, srcScope⟩ := src
  obtain ⟨dstIp, dstPort, dstScope⟩ := dst
  cases srcIp with
  | v4 os =>
    cases dstIp with
    | v4 os' => rfl
    | v6 gs' => cases hfamily
  | v6 gs =>
    cases dstIp with
    | v4 os' => cases hfamily
    | v6 gs' => rfl

-- A field moves past the groups of an address unseen only where each of them equals it.
theorem toBe_comm_iff {port : Nat} (hport : port < 65536) {groups : List Nat}
    (h : ∀ g ∈ groups, g < 65536) :
    toBe 2 port ++ groups.flatMap (toBe 2) = groups.flatMap (toBe 2) ++ toBe 2 port ↔
      ∀ g ∈ groups, g = port := by
  induction groups with
  | nil => simp
  | cons g groups ih =>
    obtain ⟨hg, hgroups⟩ := List.forall_mem_cons.mp h
    rw [List.flatMap_cons, List.append_assoc, List.forall_mem_cons, ← ih hgroups]
    constructor
    · intro heq
      obtain ⟨hfirst, hrest⟩ := List.append_inj heq (by simp)
      have hsame := congrArg ofBe hfirst
      rw [ofBe_toBe_of_lt (by simpa using hport), ofBe_toBe_of_lt (by simpa using hg)] at hsame
      exact ⟨hsame.symm, hsame ▸ hrest⟩
    · rintro ⟨rfl, hrest⟩
      rw [hrest]

theorem server_same_iff (hs : src.Valid) (hd : dst.Valid) (hfamily : dst.ip.isV4 = src.ip.isV4) :
    Server.buildV2Header src dst = Client.buildV2Header src dst ↔
      ∀ g ∈ portGroups dst.ip, g = src.port := by
  rw [serverV2_same hfamily, clientV2_same hs hd hfamily,
    ← toBe_comm_iff hs.port (portGroups_lt hd), ← octets_eq hd, v2Header, v2Header, v2Addresses]
  have hlen : (octets src.ip ++ toBe 2 src.port ++ (octets dst.ip ++ toBe 2 dst.port)).length =
      (octets src.ip ++ octets dst.ip ++ toBe 2 src.port ++ toBe 2 dst.port).length := by
    simp only [List.length_append, length_toBe]
    omega
  rw [hlen, List.append_right_inj]
  simp only [List.append_assoc, List.append_right_inj]
  rw [← List.append_assoc, ← List.append_assoc, List.append_left_inj]

theorem proxy_v2_layout_iff (src dst : SocketAddr) (hs : src.Valid) (hd : dst.Valid)
    (hfamily : dst.ip.isV4 = src.ip.isV4) :
    FollowsLayout src dst ↔ ∀ g ∈ portGroups dst.ip, g = src.port := by
  have hclient := client_follows hs hd hfamily
  constructor
  · exact fun h => (server_same_iff hs hd hfamily).mp h.same
  · intro h
    have hsame := (server_same_iff hs hd hfamily).mpr h
    exact ⟨hsame ▸ hclient, hclient, hsame⟩

-- The groups of 15.160.15.160 are the port 4000 twice.
def echoAddr : SocketAddr := ⟨.v4 [15, 160, 15, 160], 443, 0⟩

theorem echoed_port_follows_layout : FollowsLayout peerAddr echoAddr :=
  (proxy_v2_layout_iff peerAddr echoAddr peerAddr_valid ⟨by decide, rfl, by decide, rfl⟩ rfl).mpr
    (by decide)

theorem server_misplaces_ports :
    decodeV2 (Server.buildV2Header peerAddr publicAddr) =
        some ⟨.v4 [192, 0, 2, 7], .v4 [15, 160, 203, 0], 28929, 60080⟩ ∧
      decodeV2 (Client.buildV2Header peerAddr publicAddr) = some (.of peerAddr publicAddr) ∧
      ¬FollowsLayout peerAddr publicAddr := by
  refine ⟨by decide +kernel, by decide +kernel, fun h => ?_⟩
  exact absurd h.same (by decide +kernel)

end Cross233.Relay
