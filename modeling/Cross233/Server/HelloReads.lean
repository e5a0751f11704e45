import Cross233.Relay.ProxyHeader
import Cross233.Server.Inbound
import Cross233.Server.SniBounds

namespace Cross233.Server

open BigEndian IpAddr

def vector (lenBytes : Nat) (bytes : List UInt8) : List UInt8 :=
  toBe lenBytes bytes.length ++ bytes

structure ServerNames where
  host : String
  others : List (Tagged 1)
  name : Tagged 1
  more : List (Tagged 1)
  ext : Tagged 2
  others_tag : ∀ entry ∈ others, entry.tag ≠ 0
  name_tag : name.tag = 0
  name_data : name.data = Text.utf8 host
  ext_tag : ext.tag = 0
  ext_data : ext.data = vector 2 ((others ++ name :: more).flatMap Tagged.encode)

structure ClientHello where
  version : List UInt8
  random : List UInt8
  sessionId : List UInt8
  cipherSuites : List UInt8
  compressions : List UInt8
  before : List (Tagged 2)
  names : ServerNames
  after : List (Tagged 2)
  version_length : version.length = 2
  random_length : random.length = 32
  sessionId_lt : sessionId.length < 256 ^ 1
  cipherSuites_lt : cipherSuites.length < 256 ^ 2
  compressions_lt : compressions.length < 256 ^ 1
  before_tag : ∀ ext ∈ before, ext.tag ≠ 0

namespace ClientHello

def extensionBytes (hello : ClientHello) : List UInt8 :=
  (hello.before ++ hello.names.ext :: hello.after).flatMap Tagged.encode

def body (hello : ClientHello) : List UInt8 :=
  hello.version ++ hello.random ++ vector 1 hello.sessionId ++ vector 2 hello.cipherSuites ++
    vector 1 hello.compressions ++ vector 2 hello.extensionBytes

def handshake (hello : ClientHello) : List UInt8 := [0x01] ++ vector 3 hello.body

end ClientHello

structure HelloRecord where
  version : List UInt8
  hello : ClientHello
  version_length : version.length = 2
  handshake_lt : hello.handshake.length < 256 ^ 2

namespace HelloRecord

def bytes (record : HelloRecord) : List UInt8 :=
  [0x16] ++ record.version ++ vector 2 record.hello.handshake

def nameEnd (record : HelloRecord) : Nat :=
  record.bytes.length - (record.hello.after.flatMap Tagged.encode).length

end HelloRecord

theorem readExact_left {n : Nat} {bytes : List UInt8} (h : bytes.length = n)
    (rest : List UInt8) : readExact n (bytes ++ rest) = some (bytes, rest) := by
  rw [readExact, if_neg, List.take_left' h, List.drop_left' h]
  rw [List.length_append]
  omega

theorem skipVector_vector {n : Nat} {bytes : List UInt8} (h : bytes.length < 256 ^ n)
    (rest : List UInt8) : skipVector n (vector n bytes ++ rest) = some rest := by
  have hskip : bytes.length = ofBe (toBe n bytes.length) := (ofBe_toBe_of_lt h).symm
  rw [vector, List.append_assoc, skipVector, readExact_left (length_toBe n _), Option.map_some]
  exact congrArg some (List.drop_left' hskip)

theorem ServerNames.serverHost_eq (names : ServerNames) :
    serverHost names.ext = some names.host := by
  have hsplit : listedNames (names.ext.data.drop 2) = names.others ++ names.name :: names.more := by
    rw [names.ext_data, vector, List.drop_left' (length_toBe 2 _)]
    exact (Tagged.framing 1).split_flatMap _
  have hothers : names.others.findSome? entryHost = none := by
    rw [List.findSome?_eq_none_iff]
    exact fun entry hentry => if_neg (names.others_tag entry hentry)
  have hname : entryHost names.name = some names.host := by
    rw [entryHost, if_pos names.name_tag, names.name_data, Text.fromUtf8_utf8]
  rw [serverHost, if_pos names.ext_tag, hsplit, List.findSome?_append, hothers, Option.none_or,
    List.findSome?_cons, hname]

theorem ServerNames.hasListLength_eq (names : ServerNames) : hasListLength names.ext = true := by
  rw [hasListLength, names.ext_data, vector, List.length_append, length_toBe]
  simp

namespace HelloRecord

variable (record : HelloRecord)

def opening : List UInt8 :=
  [0x16] ++ record.version ++ toBe 2 record.hello.handshake.length ++ ([0x01] ++
    toBe 3 record.hello.body.length ++ record.hello.version ++ record.hello.random ++
    (vector 1 record.hello.sessionId ++ (vector 2 record.hello.cipherSuites ++
      (vector 1 record.hello.compressions ++ toBe 2 record.hello.extensionBytes.length))))

def upToName : List UInt8 :=
  record.opening ++ (record.hello.before.flatMap Tagged.encode ++ record.hello.names.ext.encode)

theorem bytes_opening : record.bytes = record.opening ++ record.hello.extensionBytes := by
  simp only [bytes, opening, ClientHello.handshake, ClientHello.body, vector, List.append_assoc]

theorem bytes_upToName :
    record.bytes = record.upToName ++ record.hello.after.flatMap Tagged.encode := by
  rw [bytes_opening, upToName, ClientHello.extensionBytes, List.flatMap_append, List.flatMap_cons]
  simp only [List.append_assoc]

theorem length_upToName : record.upToName.length = record.nameEnd := by
  rw [nameEnd, bytes_upToName, List.length_append, Nat.add_sub_cancel]

theorem length_recordHeader :
    ([0x16] ++ record.version ++ toBe 2 record.hello.handshake.length).length = 5 := by
  rw [List.length_append, List.length_append, record.version_length, length_toBe]
  rfl

theorem opening_starts (rest : List UInt8) : StartsHello (record.opening ++ rest) := by
  refine ⟨?_, rfl, ?_⟩
  · simp only [opening, vector, List.length_append, length_toBe, record.version_length,
      record.hello.version_length, record.hello.random_length, List.length_cons, List.length_nil]
    omega
  · rw [opening, List.append_assoc, List.drop_left' record.length_recordHeader]
    rfl

theorem opening_extensions (rest : List UInt8) :
    helloExtensions ((record.opening ++ rest).drop 5) =
      some (toBe 2 record.hello.extensionBytes.length, rest) := by
  have hfixed : ([0x01] ++ toBe 3 record.hello.body.length ++ record.hello.version ++
      record.hello.random).length = 38 := by
    rw [List.length_append, List.length_append, List.length_append, length_toBe,
      record.hello.version_length, record.hello.random_length]
    rfl
  rw [opening, List.append_assoc, List.drop_left' record.length_recordHeader, List.append_assoc,
    helloExtensions, List.drop_left' hfixed]
  simp only [List.append_assoc, skipVector_vector record.hello.sessionId_lt,
    skipVector_vector record.hello.cipherSuites_lt,
    skipVector_vector record.hello.compressions_lt, Option.bind_eq_bind, Option.bind_some]
  exact readExact_left (length_toBe 2 _) rest

theorem parseSni_upToName : parseSni record.upToName = some record.hello.names.host := by
  have hsplit : extensions (record.hello.before.flatMap Tagged.encode ++
      record.hello.names.ext.encode) = record.hello.before ++ [record.hello.names.ext] := by
    have h := (Tagged.framing 2).split_flatMap (record.hello.before ++ [record.hello.names.ext])
    rw [List.flatMap_append, List.flatMap_singleton] at h
    exact h
  refine parseSni_eq_some_iff.mpr ⟨record.opening_starts _, _, _, record.opening_extensions _, ?_⟩
  rw [hsplit]
  refine announcedHost_first (fun ext hext => ?_) record.hello.names.hasListLength_eq
    record.hello.names.serverHost_eq []
  have htag := record.hello.before_tag ext hext
  exact ⟨by simp [hasListLength, htag], if_neg htag⟩

end HelloRecord

namespace PeerStream

variable {stream rest : PeerStream} {capacity : Nat}

theorem read_error {e : StreamEnd} (h : stream.read capacity = (.error e, rest)) :
    rest = stream := by
  unfold read at h
  split at h
  · cases h
    rfl
  · split at h
    · cases h
      rfl
    · split at h <;> cases h

theorem read_bytes {chunk : List UInt8} (h : stream.read capacity = (.ok chunk, rest)) :
    chunk ++ rest.bytes = stream.bytes := by
  unfold read at h
  split at h
  · cases h
  · next first reads hreads =>
    split at h
    · cases h
    · split at h
      · cases h
        simp only [bytes, hreads, List.flatten_cons]
      · cases h
        simp only [bytes, hreads, List.flatten_cons]
        rw [← List.append_assoc, List.take_append_drop]

theorem read_ready (hreads : ∀ chunk ∈ stream.reads, chunk ≠ []) (hbytes : stream.bytes ≠ [])
    (hcapacity : 0 < capacity) :
    ∃ chunk rest, stream.read capacity = (.ok chunk, rest) ∧ chunk ≠ [] ∧
      ∀ chunk ∈ rest.reads, chunk ≠ [] := by
  obtain ⟨reads, ending⟩ := stream
  cases reads with
  | nil => exact absurd rfl hbytes
  | cons first reads =>
    rw [List.forall_mem_cons] at hreads
    have hread : PeerStream.read ⟨first :: reads, ending⟩ capacity = _ := if_neg hreads.1
    rw [hread]
    split
    · exact ⟨first, _, rfl, hreads.1, hreads.2⟩
    · next hlong =>
      refine ⟨first.take capacity, _, rfl, ?_, ?_⟩
      · rw [ne_eq, List.take_eq_nil_iff]
        rintro (hzero | hnil)
        · omega
        · exact hreads.1 hnil
      · intro chunk hchunk
        rcases List.mem_cons.mp hchunk with rfl | hchunk
        · rw [ne_eq, List.drop_eq_nil_iff]
          omega
        · exact hreads.2 chunk hchunk

end PeerStream

-- The read loop with what it keeps for the tunnel and what it leaves to the copy.
def readHelloKept : Nat → List UInt8 → PeerStream →
    Option (Option String × List UInt8 × PeerStream)
  | 0, buf, stream => some (none, buf, stream)
  | fuel + 1, buf, stream =>
    if helloCapacity ≤ buf.length then some (none, buf, stream)
    else
      match stream.read (helloCapacity - buf.length) with
      | (.error .closed, stream) => some (none, buf, stream)
      | (.error _, _) => none
      | (.ok chunk, stream) =>
        let buf := buf ++ chunk
        if buf.length < 44 then readHelloKept fuel buf stream
        else
          match parseSni buf with
          | some name => some (some name, buf, stream)
          | none => readHelloKept fuel buf stream

theorem readHello_eq (fuel : Nat) (buf : List UInt8) (stream : PeerStream) :
    readHello fuel buf stream = (readHelloKept fuel buf stream).map Prod.fst := by
  induction fuel generalizing buf stream with
  | zero => rfl
  | succ fuel ih =>
    rw [readHello, readHelloKept]
    split
    · rfl
    · generalize stream.read (helloCapacity - buf.length) = r
      obtain ⟨result, rest⟩ := r
      cases result with
      | error e => cases e <;> rfl
      | ok chunk =>
        simp only
        split
        · exact ih _ _
        · cases parseSni (buf ++ chunk) with
          | some name => rfl
          | none => exact ih _ _

theorem readHelloKept_bytes {fuel : Nat} {buf kept : List UInt8} {stream rest : PeerStream}
    {sni : Option String} (h : readHelloKept fuel buf stream = some (sni, kept, rest)) :
    kept ++ rest.bytes = buf ++ stream.bytes := by
  induction fuel generalizing buf stream with
  | zero =>
    cases h
    rfl
  | succ fuel ih =>
    rw [readHelloKept] at h
    split at h
    · cases h
      rfl
    · split at h
      · next hread =>
        cases h
        rw [PeerStream.read_error hread]
      · cases h
      · next chunk after hread =>
        have hbytes := PeerStream.read_bytes hread
        rw [← hbytes, ← List.append_assoc]
        simp only at h
        split at h
        · exact ih h
        · split at h
          · cases h
            rfl
          · exact ih h

theorem HelloRecord.parse_part (record : HelloRecord) {buf rest more : List UInt8}
    (h : buf ++ rest = record.bytes ++ more) :
    parseSni buf = some record.hello.names.host ∨
      parseSni buf = none ∧ buf.length < record.nameEnd := by
  have hparse := record.parseSni_upToName
  have hall : buf ++ rest =
      record.upToName ++ (record.hello.after.flatMap Tagged.encode ++ more) := by
    rw [h, record.bytes_upToName, List.append_assoc]
  cases hbuf : parseSni buf with
  | some name =>
    have hname := parseSni_append hbuf rest
    rw [hall, parseSni_append hparse] at hname
    exact Or.inl hname.symm
  | none =>
    refine Or.inr ⟨rfl, Nat.lt_of_not_le fun hle => ?_⟩
    rw [← record.length_upToName] at hle
    obtain ⟨tail, rfl⟩ := List.prefix_of_prefix_length_le
      (hall ▸ List.prefix_append record.upToName _) (List.prefix_append buf rest) hle
    rw [parseSni_append hparse] at hbuf
    cases hbuf

-- As long as the name is not complete the loop reads on, and the parser finds it once it is.
theorem readHelloKept_named {record : HelloRecord} {more : List UInt8} {fuel : Nat}
    {buf : List UInt8} {stream : PeerStream} (hname : record.nameEnd ≤ helloCapacity)
    (hreads : ∀ chunk ∈ stream.reads, chunk ≠ [])
    (hbytes : buf ++ stream.bytes = record.bytes ++ more) (hbuf : buf.length < record.nameEnd)
    (hfuel : helloCapacity - buf.length ≤ fuel) :
    ∃ kept rest,
      readHelloKept fuel buf stream = some (some record.hello.names.host, kept, rest) := by
  induction fuel generalizing buf stream with
  | zero => omega
  | succ fuel ih =>
    have hlen : record.nameEnd ≤ record.bytes.length := Nat.sub_le _ _
    have hrest : stream.bytes ≠ [] := by
      intro hnil
      have hshort := congrArg List.length hbytes
      rw [hnil, List.length_append, List.length_append, List.length_nil] at hshort
      omega
    have hroom : 0 < helloCapacity - buf.length := by omega
    obtain ⟨chunk, rest, hread, hne, hreads⟩ := PeerStream.read_ready hreads hrest hroom
    have hkept : buf ++ chunk ++ rest.bytes = record.bytes ++ more := by
      rw [List.append_assoc, PeerStream.read_bytes hread, hbytes]
    have hnext : (buf ++ chunk).length < record.nameEnd → ∃ kept rest', readHelloKept fuel
        (buf ++ chunk) rest = some (some record.hello.names.host, kept, rest') := by
      intro hlt
      have hpos := List.length_pos_iff.mpr hne
      refine ih hreads hkept hlt ?_
      rw [List.length_append]
      omega
    rw [readHelloKept, if_neg (by omega), hread]
    simp only
    split
    · next hshort =>
      have hlong := (parseSni_eq_some_iff.mp record.parseSni_upToName).1.long
      rw [record.length_upToName] at hlong
      exact hnext (by omega)
    · rcases record.parse_part hkept with hparse | ⟨hparse, hlt⟩
      · rw [hparse]
        exact ⟨_, _, rfl⟩
      · rw [hparse]
        exact hnext hlt

namespace RelayState

def httpsTunnel (s : RelayState) (order : MapOrder) (src : SocketAddr) (dst : Option SocketAddr)
    (stream : PeerStream) : Option (ServiceEntry × List UInt8) := do
  let (sni, buf, rest) ← readHelloKept helloCapacity [] stream
  let entry ← (s.getServiceByHost order (sni.getD "")).filter s.available
  some (entry, Relay.Server.relayInboundTunnel entry.config src dst buf rest.bytes)

variable {s : RelayState} {order : MapOrder} {src : SocketAddr} {dst : Option SocketAddr}
  {stream : PeerStream}

theorem httpsTunnel_entry :
    (s.httpsTunnel order src dst stream).map Prod.fst = s.httpsVhostEntry order stream := by
  rw [httpsTunnel, httpsVhostEntry, readHello_eq]
  cases readHelloKept helloCapacity [] stream with
  | none => rfl
  | some r =>
    obtain ⟨sni, buf, rest⟩ := r
    simp only [Option.bind_eq_bind, Option.bind_some, Option.map_some]
    cases (s.getServiceByHost order (sni.getD "")).filter s.available with
    | none => rfl
    | some entry => rfl

theorem httpsTunnel_whole {entry : ServiceEntry} {sent : List UInt8}
    (h : s.httpsTunnel order src dst stream = some (entry, sent)) :
    sent = Relay.Server.relayInboundTunnel entry.config src dst [] stream.bytes := by
  simp only [httpsTunnel, Option.bind_eq_bind, Option.bind_eq_some_iff, Option.some.injEq,
    Prod.mk.injEq] at h
  obtain ⟨⟨sni, buf, rest⟩, hread, found, -, rfl, rfl⟩ := h
  have hbytes := readHelloKept_bytes hread
  rw [List.nil_append] at hbytes
  simp only [← hbytes, Relay.Server.relayInboundTunnel, List.append_nil, List.append_assoc]

end RelayState

theorem sni_extraction :
    (∀ data, indexedSni data = some (parseSni data)) ∧
    (∀ data host more, parseSni data = some host → parseSni (data ++ more) = some host) ∧
    ∀ (record : HelloRecord) (stream : PeerStream) (more : List UInt8),
      record.nameEnd ≤ helloCapacity → (∀ chunk ∈ stream.reads, chunk ≠ []) →
      stream.bytes = record.bytes ++ more →
      ∃ kept rest, readHelloKept helloCapacity [] stream =
          some (some record.hello.names.host, kept, rest) ∧
        kept ++ rest.bytes = stream.bytes := by
  refine ⟨indexedSni_eq, fun data host more h => parseSni_append h more, ?_⟩
  intro record stream more hname hreads hbytes
  have hlong := (parseSni_eq_some_iff.mp record.parseSni_upToName).1.long
  rw [record.length_upToName] at hlong
  have hempty : ([] : List UInt8).length < record.nameEnd := Nat.lt_of_lt_of_le (by decide) hlong
  obtain ⟨kept, rest, hread⟩ :=
    readHelloKept_named hname hreads (List.nil_append _ ▸ hbytes) hempty (Nat.sub_le _ _)
  exact ⟨kept, rest, hread, readHelloKept_bytes hread⟩

def shopName : Tagged 1 := ⟨0, Text.utf8 "shop.example", by decide, by decide +kernel⟩

def shopNames : ServerNames where
  host := "shop.example"
  others := []
  name := shopName
  more := []
  ext := ⟨0, vector 2 ([shopName].flatMap Tagged.encode), by decide, by decide +kernel⟩
  others_tag := by simp
  name_tag := rfl
  name_data := rfl
  ext_tag := rfl
  ext_data := rfl

def shopHello : ClientHello where
  version := [0x03, 0x03]
  random := List.replicate 32 0x2a
  sessionId := List.replicate 32 0x17
  cipherSuites := [0x13, 0x01, 0x13, 0x02]
  compressions := [0x00]
  before := [⟨0x2b, [0x02, 0x03, 0x04], by decide, by decide⟩]
  names := shopNames
  after := [⟨0x17, [], by decide, by decide⟩]
  version_length := rfl
  random_length := rfl
  sessionId_lt := by decide
  cipherSuites_lt := by decide
  compressions_lt := by decide
  before_tag := by simp

def shopRecord : HelloRecord where
  version := [0x03, 0x01]
  hello := shopHello
  version_length := rfl
  handshake_lt := by decide +kernel

theorem shop_hello_byte_by_byte :
    ∃ kept rest, readHelloKept helloCapacity [] ⟨shopRecord.bytes.map ([·]), .silent⟩ =
        some (some "shop.example", kept, rest) ∧
      kept ++ rest.bytes = shopRecord.bytes := by
  have hbytes : PeerStream.bytes ⟨shopRecord.bytes.map ([·]), .silent⟩ = shopRecord.bytes := by
    decide +kernel
  have h := sni_extraction.2.2 shopRecord ⟨shopRecord.bytes.map ([·]), .silent⟩ []
    (by decide +kernel) (by simp) (by rw [hbytes, List.append_nil])
  rw [hbytes] at h
  exact h

end Cross233.Server
