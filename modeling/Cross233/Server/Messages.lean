import Cross233.Library.IpAddr
import Cross233.Server.Routing

namespace Cross233.Server

open Protocol

def staticResponseChunkMax : Nat := 8 * 1024

def staticResponseQueueCapacity : Nat := 16

structure StaticResponseChunk where
  data : List UInt8
  eof : Bool
  deriving DecidableEq

structure PendingStaticResponse where
  owner : Channel
  queue : List StaticResponseChunk
  receiving : Bool
  deriving DecidableEq

structure Datagram where
  service : String
  dest : IpAddr.SocketAddr
  data : List UInt8
  deriving DecidableEq

-- The flags of an entry are kept under its name: a new entry starts without any, both true.
structure RelayState where
  server : ServerState
  healthy : HashMap String Bool
  enabled : HashMap String Bool
  pendingStatic : HashMap String PendingStaticResponse
  sent : List Datagram

structure MapOrder where
  visit : List ServiceEntry → List ServiceEntry
  perm : ∀ values, (visit values).Perm values

def MapOrder.identity : MapOrder := ⟨id, fun _ => List.Perm.refl _⟩

theorem cons_erase_perm (entry : ServiceEntry) (values : List ServiceEntry) :
    (if entry ∈ values then entry :: values.erase entry else values).Perm values := by
  split
  · next h => exact (List.perm_cons_erase h).symm
  · exact List.Perm.refl _

def MapOrder.first (entry : ServiceEntry) : MapOrder where
  visit values := if entry ∈ values then entry :: values.erase entry else values
  perm values := cons_erase_perm entry values

theorem MapOrder.find_first {entry : ServiceEntry} {values : List ServiceEntry}
    (h : entry ∈ values) {p : ServiceEntry → Bool} (hp : p entry = true) :
    ((MapOrder.first entry).visit values).find? p = some entry := by
  rw [MapOrder.first]
  simp only [if_pos h]
  exact List.find?_cons_of_pos hp

namespace RelayState

def fresh (server : ServerState) : RelayState := ⟨server, ∅, ∅, ∅, []⟩

def isHealthy (s : RelayState) (name : String) : Bool := (s.healthy.lookup name).getD true

def isEnabled (s : RelayState) (name : String) : Bool := (s.enabled.lookup name).getD true

def entries (s : RelayState) : List ServiceEntry :=
  s.server.registry.servicesByName.entries.map Sigma.snd

def reportHealth (s : RelayState) (name : String) (healthy : Bool) : RelayState :=
  if name ∈ s.server.registry.servicesByName then
    { s with healthy := s.healthy.insert name healthy }
  else s

def cancelStaticResponseForControl (s : RelayState) (id : String) (tx : Channel) : RelayState :=
  if (s.pendingStatic.lookup id).any (fun response => response.owner = tx) then
    { s with pendingStatic := s.pendingStatic.erase id }
  else s

def trySend (response : PendingStaticResponse) (chunk : StaticResponseChunk) :
    Option PendingStaticResponse :=
  if response.receiving && decide (response.queue.length < staticResponseQueueCapacity) then
    some { response with queue := response.queue ++ [chunk] }
  else none

def deliverStaticResponse (s : RelayState) (tx : Channel) (id : String) (data : List UInt8)
    (eof : Bool) : RelayState × Bool :=
  if staticResponseChunkMax < data.length then (s.cancelStaticResponseForControl id tx, false)
  else
    match (s.pendingStatic.lookup id).filter (fun response => response.owner = tx) with
    | none => (s, false)
    | some response =>
      match trySend response ⟨data, eof⟩ with
      | some response =>
        let s := { s with pendingStatic := s.pendingStatic.insert id response }
        (if eof then s.cancelStaticResponseForControl id tx else s, true)
      | none => (s.cancelStaticResponseForControl id tx, false)

def forwardResponse (s : RelayState) (name addr : String) (data : List UInt8) : RelayState :=
  match IpAddr.parseSocket addr with
  | none => s
  | some dest =>
    if name ∈ s.server.udpServices then { s with sent := s.sent ++ [⟨name, dest, data⟩] } else s

def handleMessage (s : RelayState) (tx : Channel) (msg : Message) (order : MapOrder) :
    RelayState :=
  match msg.ty with
  | "pong" => s
  | "ping" => { s with server := s.server.reply tx .newPong }
  | "health" =>
    match msg.serviceName, msg.healthy with
    | some name, some healthy => s.reportHealth name healthy
    | _, _ => s
  | "static_response" =>
    match msg.id with
    | some id => (s.deliverStaticResponse tx id (msg.data.getD []) (msg.eof.getD false)).1
    | none => s
  | "udp_response" =>
    match msg.remotePort, msg.address, msg.data with
    | some rport, some addr, some data =>
      match getServiceNameByPort (order.visit s.entries) rport with
      | some name => s.forwardResponse name addr data
      | none => s
    | _, _, _ => s
  | _ => s

end RelayState

end Cross233.Server
