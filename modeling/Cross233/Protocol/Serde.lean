import Cross233.Library.Json
import Cross233.Protocol.Msg

namespace Cross233.Protocol

open Json

structure Base64 where
  encode : List UInt8 → String
  decode : String → Option (List UInt8)

def base64Bytes (standard : Base64) : Format (Option (List UInt8)) where
  write
    | some b => .str (standard.encode b)
    | none => .null
  read j :=
    match (option text).read j with
    | some (some s) => (standard.decode s).map some
    | some none => some none
    | none => none

theorem base64Bytes_reads {standard : Base64} {data : Option (List UInt8)}
    (h : ∀ bytes ∈ data, standard.decode (standard.encode bytes) = some bytes) :
    (base64Bytes standard).Reads data := by
  cases data with
  | none => rfl
  | some bytes =>
    show (standard.decode (standard.encode bytes)).map some = some (some bytes)
    rw [h bytes rfl]
    rfl

def isZero (v : UInt64) : Bool := v = 0

def isZeroU32 (v : UInt32) : Bool := v = 0

def isZeroU16 (v : UInt16) : Bool := v = 0

def isFalse (v : Bool) : Bool := !v

section Fields

variable {α : Type}

def written (names : String × List String) : StructField String where
  name := names.1
  aliases := names.2
  format := text
  skip _ := false
  default := ""
  restores := nofun

def skipEmpty (name : String) : StructField String where
  name := name
  aliases := []
  format := text
  skip := String.isEmpty
  default := ""
  restores _ h := String.isEmpty_iff.mp h

def skipNone (name : String) (format : Format (Option α)) : StructField (Option α) where
  name := name
  aliases := []
  format := format
  skip := Option.isNone
  default := none
  restores _ h := Option.isNone_iff_eq_none.mp h

def skipEmptyVec (name : String) (format : Format α) : StructField (List α) where
  name := name
  aliases := []
  format := list format
  skip := List.isEmpty
  default := []
  restores _ h := List.isEmpty_iff.mp h

def skipEmptyMap (name : String) : StructField (HashMap String String) where
  name := name
  aliases := []
  format := stringMap
  skip m := m.entries.isEmpty
  default := ∅
  restores _ h := AList.ext (List.isEmpty_iff.mp h)

def skipZero (name : String) : StructField UInt64 where
  name := name
  aliases := []
  format := u64
  skip := isZero
  default := 0
  restores _ h := of_decide_eq_true h

def skipZeroU32 (name : String) : StructField UInt32 where
  name := name
  aliases := []
  format := u32
  skip := isZeroU32
  default := 0
  restores _ h := of_decide_eq_true h

def skipZeroU16 (names : String × List String) : StructField UInt16 where
  name := names.1
  aliases := names.2
  format := u16
  skip := isZeroU16
  default := 0
  restores _ h := of_decide_eq_true h

def skipFalse (name : String) : StructField Bool where
  name := name
  aliases := []
  format := boolean
  skip := isFalse
  default := false
  restores b h := by simpa [isFalse] using h

@[simp] theorem written_format (names : String × List String) : (written names).format = text := rfl

@[simp] theorem skipEmpty_format (name : String) : (skipEmpty name).format = text := rfl

@[simp] theorem skipNone_format (name : String) (format : Format (Option α)) :
    (skipNone name format).format = format := rfl

@[simp] theorem skipEmptyVec_format (name : String) (format : Format α) :
    (skipEmptyVec name format).format = list format := rfl

@[simp] theorem skipEmptyMap_format (name : String) : (skipEmptyMap name).format = stringMap := rfl

@[simp] theorem skipZero_format (name : String) : (skipZero name).format = u64 := rfl

@[simp] theorem skipZeroU32_format (name : String) : (skipZeroU32 name).format = u32 := rfl

@[simp] theorem skipZeroU16_format (names : String × List String) :
    (skipZeroU16 names).format = u16 := rfl

@[simp] theorem skipFalse_format (name : String) : (skipFalse name).format = boolean := rfl

end Fields

namespace Service

def record : Record Service where
  columns := [
    ⟨written ("name", []), name, fun a s => { s with name := a }⟩,
    ⟨skipNone "type" (option text), ty, fun a s => { s with ty := a }⟩,
    ⟨written ("localAddr", ["local_addr"]), localAddr, fun a s => { s with localAddr := a }⟩,
    ⟨skipZeroU16 ("remotePort", ["remote_port"]), remotePort,
      fun a s => { s with remotePort := a }⟩,
    ⟨skipNone "host" (option text), host, fun a s => { s with host := a }⟩,
    ⟨skipNone "subdomain" (option text), subdomain, fun a s => { s with subdomain := a }⟩,
    ⟨skipNone "routeByHTTPUser" (option text), routeByHttpUser,
      fun a s => { s with routeByHttpUser := a }⟩,
    ⟨skipEmptyVec "locations" text, locations, fun a s => { s with locations := a }⟩,
    ⟨skipNone "group" (option text), group, fun a s => { s with group := a }⟩,
    ⟨skipNone "groupKey" (option text), groupKey, fun a s => { s with groupKey := a }⟩,
    ⟨skipNone "httpUser" (option text), httpUser, fun a s => { s with httpUser := a }⟩,
    ⟨skipNone "httpPassword" (option text), httpPassword,
      fun a s => { s with httpPassword := a }⟩,
    ⟨skipNone "secret" (option text), secret, fun a s => { s with secret := a }⟩,
    ⟨skipZero "bandwidthLimitKbps", bandwidthLimitKbps,
      fun a s => { s with bandwidthLimitKbps := a }⟩,
    ⟨skipZeroU32 "maxConnections", maxConnections, fun a s => { s with maxConnections := a }⟩,
    ⟨skipFalse "compression", compression, fun a s => { s with compression := a }⟩,
    ⟨skipFalse "proxyProtocol", proxyProtocol, fun a s => { s with proxyProtocol := a }⟩,
    ⟨skipNone "proxyProtocolVersion" (option text), proxyProtocolVersion,
      fun a s => { s with proxyProtocolVersion := a }⟩,
    ⟨skipEmptyVec "allowCIDRs" text, allowCidrs, fun a s => { s with allowCidrs := a }⟩,
    ⟨skipEmptyVec "denyCIDRs" text, denyCidrs, fun a s => { s with denyCidrs := a }⟩,
    ⟨skipNone "hostHeaderRewrite" (option text), hostHeaderRewrite,
      fun a s => { s with hostHeaderRewrite := a }⟩,
    ⟨skipEmptyMap "requestHeaders", requestHeaders, fun a s => { s with requestHeaders := a }⟩,
    ⟨skipEmptyMap "responseHeaders", responseHeaders,
      fun a s => { s with responseHeaders := a }⟩,
    ⟨skipNone "healthCheck" (option text), healthCheck, fun a s => { s with healthCheck := a }⟩,
    ⟨skipZeroU32 "healthInterval", healthInterval, fun a s => { s with healthInterval := a }⟩,
    ⟨skipZeroU32 "healthTimeout", healthTimeout, fun a s => { s with healthTimeout := a }⟩,
    ⟨skipZeroU32 "healthMaxFailed", healthMaxFailed, fun a s => { s with healthMaxFailed := a }⟩,
    ⟨skipNone "healthPath" (option text), healthPath, fun a s => { s with healthPath := a }⟩,
    ⟨skipEmptyMap "healthHeaders", healthHeaders, fun a s => { s with healthHeaders := a }⟩,
    ⟨skipEmptyMap "annotations", annotations, fun a s => { s with annotations := a }⟩,
    ⟨skipNone "enabled" (option boolean), enabled, fun a s => { s with enabled := a }⟩]
  empty := { }
  distinct := by decide
  copies s := by
    simp only [List.foldl_cons, List.foldl_nil, Column.copy]

theorem format_lawful : record.format.Lawful := by
  refine Record.format_lawful (fun svc => ?_)
  simp [record, text_lawful.reads, boolean_lawful.reads, u16_lawful.reads, u32_lawful.reads,
    u64_lawful.reads, option_reads text_lawful, option_reads boolean_lawful,
    list_reads text_lawful, stringMap_reads]

end Service

namespace Message

def record (standard : Base64) : Record Message where
  columns := [
    ⟨skipEmpty "type", ty, fun a m => { m with ty := a }⟩,
    ⟨skipNone "client_id" (option text), clientId, fun a m => { m with clientId := a }⟩,
    ⟨skipNone "id" (option text), id, fun a m => { m with id := a }⟩,
    ⟨skipNone "nonce" (option text), nonce, fun a m => { m with nonce := a }⟩,
    ⟨skipNone "proof" (option text), proof, fun a m => { m with proof := a }⟩,
    ⟨skipNone "error" (option text), error, fun a m => { m with error := a }⟩,
    ⟨skipNone "service_name" (option text), serviceName, fun a m => { m with serviceName := a }⟩,
    ⟨skipNone "address" (option text), address, fun a m => { m with address := a }⟩,
    ⟨skipNone "localAddress" (option text), localAddress,
      fun a m => { m with localAddress := a }⟩,
    ⟨skipNone "remotePort" (option u16), remotePort, fun a m => { m with remotePort := a }⟩,
    ⟨skipNone "healthy" (option boolean), healthy, fun a m => { m with healthy := a }⟩,
    ⟨skipNone "eof" (option boolean), eof, fun a m => { m with eof := a }⟩,
    ⟨skipNone "qcpPort" (option u16), qcpPort, fun a m => { m with qcpPort := a }⟩,
    ⟨skipNone "qcpTunnelPort" (option u16), qcpTunnelPort,
      fun a m => { m with qcpTunnelPort := a }⟩,
    ⟨skipEmptyVec "services" Service.record.format, services,
      fun a m => { m with services := a }⟩,
    ⟨skipNone "service" (option Service.record.format), service,
      fun a m => { m with service := a }⟩,
    ⟨skipNone "data" (base64Bytes standard), data, fun a m => { m with data := a }⟩]
  empty := { }
  distinct := by
    simp only [List.flatMap_cons, List.flatMap_nil, StructField.names, skipEmpty, skipNone,
      skipEmptyVec]
    decide
  copies s := by
    simp only [List.foldl_cons, List.foldl_nil, Column.copy]

theorem format_reads {standard : Base64} {msg : Message}
    (h : ∀ bytes ∈ msg.data, standard.decode (standard.encode bytes) = some bytes) :
    (record standard).format.Reads msg := by
  refine Record.format_reads ?_
  simp [record, text_lawful.reads, option_reads text_lawful, option_reads boolean_lawful,
    option_reads u16_lawful, option_reads Service.format_lawful,
    list_reads Service.format_lawful, base64Bytes_reads h]

end Message

end Cross233.Protocol
