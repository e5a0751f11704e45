import Cross233.Server.Service
import Cross233.Library.Machine

namespace Cross233

structure Server where
  config : Server.ServerConfig
  valid : config.validate = .ok ()

namespace Server

open Protocol

def new (config : ServerConfig) : Except String Server :=
  match h : config.validate with
  | .ok () => .ok ⟨config, h⟩
  | .error e => .error e

inductive Transport where
  | tcp
  | udp
  deriving DecidableEq

structure Session where
  clientId : String
  assigned : List Service
  pending : List Service
  isReady : Bool
  deriving DecidableEq

structure ServerState where
  registry : SharedServiceState
  udpServices : HashMap String UInt16
  sessions : HashMap Channel Session
  nextChannel : Channel
  opened : List (Transport × UInt16)
  replies : List (Channel × Message)
  qcpPort : UInt16
  qcpTunnelPort : UInt16
  deriving DecidableEq

inductive ServerEvent where
  | hello (clientId : String) (services : List Service)
  | expose (ch : Channel) (bind : Except String Unit)
  | ready (ch : Channel) (written : Bool)
  | disconnect (ch : Channel)
  | kick (clientId : String)
  | listenerEnded (port : UInt16) (name : String)
  | udpEnded (name : String)

def run (server : Server) : ServerState where
  registry := .newWithNetworkPolicy server.config.portMin server.config.portMax
    server.config.effectiveProxyBind server.config.allowPrivilegedPorts
    server.config.effectiveProtectedPorts server.config.reservedPorts
  udpServices := ∅
  sessions := ∅
  nextChannel := 0
  opened := []
  replies := []
  qcpPort := server.config.qcpPort
  qcpTunnelPort := server.config.qcpTunnelPort

namespace ServerState

def reply (s : ServerState) (ch : Channel) (msg : Message) : ServerState :=
  { s with replies := s.replies ++ [(ch, msg)] }

def stopService (s : ServerState) (name : String) : ServerState :=
  { s with udpServices := s.udpServices.erase name }

def cleanupRegisteredSession (s : ServerState) (clientId : String) (ch : Channel) : ServerState :=
  if s.registry.isCurrentControl clientId ch then
    let names := (s.registry.clientServices.lookup clientId).getD []
    let s := names.foldl stopService s
    { s with registry := (s.registry.unregisterClientIfCurrent clientId ch).1 }
  else s

def endSession (s : ServerState) (ch : Channel) (session : Session) : ServerState :=
  let s := s.cleanupRegisteredSession session.clientId ch
  { s with sessions := s.sessions.erase ch }

def startTcpListenerForService (s : ServerState) (name : String) (port : UInt16)
    (bind : Except String Unit) : Except String ServerState :=
  if s.registry.isListenerActive port then .ok s
  else
    match bind with
    | .error e => .error e
    | .ok () =>
      .ok { s with
        registry := s.registry.registerListener port name
        opened := s.opened ++ [(.tcp, port)] }

def startService (s : ServerState) (name : String) (port : UInt16) (bind : Except String Unit) :
    Except String ServerState :=
  if name ∈ s.udpServices then .ok s
  else
    match bind with
    | .error e => .error e
    | .ok () =>
      .ok { s with
        udpServices := s.udpServices.insert name port
        opened := s.opened ++ [(.udp, port)] }

def exposeTcp (s : ServerState) (svc : Service) (bind : Except String Unit) :
    Except String ServerState :=
  if !svc.isVhost && svc.remotePort ≠ 0 && !s.registry.isListenerActive svc.remotePort then
    match s.startTcpListenerForService svc.name svc.remotePort bind with
    | .ok s => .ok s
    | .error e =>
      .error (s!"cannot expose service {svc.name} on {s.registry.proxyBind}:" ++
        s!"{svc.remotePort}: {e}")
  else .ok s

def exposeUdp (s : ServerState) (svc : Service) (bind : Except String Unit) :
    Except String ServerState :=
  if svc.remotePort ≠ 0 then
    match s.startService svc.name svc.remotePort bind with
    | .ok s => .ok s
    | .error e =>
      .error (s!"cannot expose UDP service {svc.name} on {s.registry.proxyBind}:" ++
        s!"{svc.remotePort}: {e}")
  else .ok s

def exposeService (s : ServerState) (svc : Service) (bind : Except String Unit) :
    Except String ServerState :=
  match svc.effectiveType with
  | "tcp" | "static" | "" => s.exposeTcp svc bind
  | "udp" => s.exposeUdp svc bind
  | _ => .ok s

def hello (s : ServerState) (clientId : String) (services : List Service) : ServerState :=
  let ch := s.nextChannel
  let (registry, assigned) := s.registry.registerServices clientId ch services
  { s with
    registry := registry
    sessions := s.sessions.insert ch ⟨clientId, assigned, assigned, false⟩
    nextChannel := ch + 1 }

def expose (s : ServerState) (ch : Channel) (session : Session) (svc : Service)
    (pending : List Service) (bind : Except String Unit) : ServerState :=
  match s.exposeService svc bind with
  | .ok s => { s with sessions := s.sessions.insert ch { session with pending := pending } }
  | .error message => (s.endSession ch session).reply ch (.newError message)

def ready (s : ServerState) (ch : Channel) (session : Session) (written : Bool) : ServerState :=
  if written then
    let s := s.reply ch (.newReady session.assigned s.qcpPort s.qcpTunnelPort)
    { s with sessions := s.sessions.insert ch { session with isReady := true } }
  else s.endSession ch session

def step (s : ServerState) : ServerEvent → Option ServerState
  | .hello clientId services =>
    if clientId = "" then some s else some (s.hello clientId services)
  | .expose ch bind => do
    let session ← s.sessions.lookup ch
    match session.pending with
    | [] => none
    | svc :: pending => some (s.expose ch session svc pending bind)
  | .ready ch written => do
    let session ← s.sessions.lookup ch
    if session.pending = [] ∧ session.isReady = false then some (s.ready ch session written)
    else none
  | .disconnect ch => do
    let session ← s.sessions.lookup ch
    if session.isReady then some (s.endSession ch session) else none
  | .kick clientId => some { s with registry := s.registry.unregisterClient clientId }
  | .listenerEnded port name =>
    some { s with registry := s.registry.removeListenerHandle port name }
  | .udpEnded name => some (s.stopService name)

end ServerState

end Server

end Cross233
