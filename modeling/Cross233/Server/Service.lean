import Cross233.Protocol.Msg
import Cross233.Server.Config

namespace Cross233.Server

open Protocol

abbrev Channel := Nat

structure ServiceEntry where
  config : Service
  clientId : String
  controlTx : Channel
  deriving DecidableEq

structure SharedServiceState where
  servicesByName : HashMap String ServiceEntry
  servicesByGroup : HashMap String (List ServiceEntry)
  clientServices : HashMap String (List String)
  allocatedPorts : HashMap UInt16 String
  activeListeners : HashMap UInt16 String
  nextPort : UInt64
  portMin : UInt16
  portMax : UInt16
  proxyBind : String
  allowPrivilegedPorts : Bool
  protectedPorts : Finset UInt16
  reservedPorts : Finset UInt16
  clientControlTx : HashMap String Channel
  deriving DecidableEq

def usesDirectPublicPort (svc : Service) : Bool := svc.isDirect && svc.remotePort ≠ 0

namespace SharedServiceState

def newWithNetworkPolicy (portMin portMax : UInt16) (proxyBind : String)
    (allowPrivilegedPorts : Bool) (protectedPorts reservedPorts : Finset UInt16) :
    SharedServiceState where
  servicesByName := ∅
  servicesByGroup := ∅
  clientServices := ∅
  allocatedPorts := ∅
  activeListeners := ∅
  nextPort := portMin.toUInt64
  portMin := portMin
  portMax := portMax
  proxyBind := proxyBind
  allowPrivilegedPorts := allowPrivilegedPorts
  protectedPorts := protectedPorts
  reservedPorts := reservedPorts
  clientControlTx := ∅

def new (portMin portMax : UInt16) : SharedServiceState :=
  newWithNetworkPolicy portMin portMax "0.0.0.0" false {22} ∅

def validateExplicitPort (s : SharedServiceState) (port : UInt16) : Except String Unit :=
  if port = 0 then .error "port zero is only valid for automatic allocation"
  else if port ∈ s.protectedPorts then .error "port is protected by server configuration"
  else if port ∈ s.reservedPorts then .error "port is reserved by a cross233 server listener"
  else if port < 1024 ∧ s.allowPrivilegedPorts = false then
    .error "privileged ports below 1024 are disabled"
  else .ok ()

def rangeLen (s : SharedServiceState) : UInt16 := s.portMax - s.portMin + 1

def allocateWithin (s : SharedServiceState) (name : String) :
    Nat → SharedServiceState × Option UInt16
  | 0 => (s, none)
  | k + 1 =>
    let port := s.portMin + (s.nextPort % s.rangeLen.toUInt64).toUInt16
    let s' := { s with nextPort := s.nextPort + 1 }
    if s.validateExplicitPort port = .ok () ∧ port ∉ s.allocatedPorts then
      ({ s' with allocatedPorts := s.allocatedPorts.insert port name }, some port)
    else allocateWithin s' name k

def allocatePort (s : SharedServiceState) (name : String) : SharedServiceState × Option UInt16 :=
  s.allocateWithin name s.rangeLen.toNat

def registerListener (s : SharedServiceState) (port : UInt16) (name : String) :
    SharedServiceState :=
  { s with activeListeners := s.activeListeners.insert port name }

def isListenerActive (s : SharedServiceState) (port : UInt16) : Bool := port ∈ s.activeListeners

def stopListener (s : SharedServiceState) (port : UInt16) (name : String) : SharedServiceState :=
  match s.activeListeners.lookup port with
  | some owner =>
    if owner = name then { s with activeListeners := s.activeListeners.erase port } else s
  | none => s

def leaveGroup (s : SharedServiceState) (group : Option String) (name : String) :
    SharedServiceState :=
  match group with
  | none => s
  | some g =>
    match s.servicesByGroup.lookup g with
    | none => s
    | some entries =>
      let kept := entries.filter (fun entry => entry.config.name ≠ name)
      { s with servicesByGroup :=
          if kept = [] then s.servicesByGroup.erase g else s.servicesByGroup.insert g kept }

def reusable (s : SharedServiceState) (entry : ServiceEntry) : Bool :=
  usesDirectPublicPort entry.config && s.validateExplicitPort entry.config.remotePort = .ok ()

def assignPort (s : SharedServiceState) (existing : Option ServiceEntry) (svc : Service) :
    SharedServiceState × Option Service :=
  if svc.usesAutoPort then
    match existing.filter s.reusable with
    | some entry =>
      ({ s with allocatedPorts := s.allocatedPorts.orInsert entry.config.remotePort svc.name },
        some { svc with remotePort := entry.config.remotePort })
    | none =>
      let (s, port) := s.allocatePort svc.name
      (s, port.map (fun port => { svc with remotePort := port }))
  else if usesDirectPublicPort svc then
    match s.validateExplicitPort svc.remotePort with
    | .error _ => (s, none)
    | .ok () =>
      if (s.allocatedPorts.lookup svc.remotePort).any (· ≠ svc.name) then (s, none)
      else ({ s with allocatedPorts := s.allocatedPorts.insert svc.remotePort svc.name }, some svc)
  else (s, some svc)

def releasePort (s : SharedServiceState) (port : UInt16) (name : String) : SharedServiceState :=
  if s.allocatedPorts.lookup port = some name then
    { s with allocatedPorts := s.allocatedPorts.erase port }
  else s

def isTcpListener (svc : Service) : Bool :=
  match svc.effectiveType with
  | "" | "tcp" | "static" => true
  | _ => false

def replacePrevious (s : SharedServiceState) (existing : Option ServiceEntry) (svc : Service) :
    SharedServiceState :=
  match existing with
  | none => s
  | some previous =>
    let port := previous.config.remotePort
    let s :=
      if usesDirectPublicPort previous.config && port ≠ svc.remotePort then
        let s := s.releasePort port svc.name
        if isTcpListener previous.config then s.stopListener port svc.name else s
      else s
    s.leaveGroup previous.config.group svc.name

def storeEntry (s : SharedServiceState) (entry : ServiceEntry) : SharedServiceState :=
  let name := entry.config.name
  let names := (s.clientServices.lookup entry.clientId).getD []
  { s with
    servicesByName := s.servicesByName.insert name entry
    servicesByGroup :=
      match entry.config.group with
      | none => s.servicesByGroup
      | some g => s.servicesByGroup.insert g ((s.servicesByGroup.lookup g).getD [] ++ [entry])
    clientServices :=
      if name ∈ names then s.clientServices
      else s.clientServices.insert entry.clientId (names ++ [name]) }

def registerService (s : SharedServiceState) (clientId : String) (controlTx : Channel)
    (svc : Service) : SharedServiceState × Option Service :=
  if svc.isEnabled = false then (s, none)
  else
    let existing := s.servicesByName.lookup svc.name
    if existing.any (fun entry => entry.clientId ≠ clientId) then (s, none)
    else
      match s.assignPort existing svc with
      | (s, none) => (s, none)
      | (s, some svc) =>
        let s := s.replacePrevious existing svc
        (s.storeEntry ⟨svc, clientId, controlTx⟩, some svc)

def registerAll (s : SharedServiceState) (clientId : String) (controlTx : Channel) :
    List Service → SharedServiceState × List Service
  | [] => (s, [])
  | svc :: services =>
    let (s, registered) := s.registerService clientId controlTx svc
    let (s, assigned) := s.registerAll clientId controlTx services
    (s, registered.toList ++ assigned)

def attachControl (s : SharedServiceState) (clientId : String) (controlTx : Channel) :
    SharedServiceState :=
  { s with
    clientControlTx := s.clientControlTx.insert clientId controlTx
    clientServices := s.clientServices.orInsert clientId [] }

def registerServices (s : SharedServiceState) (clientId : String) (controlTx : Channel)
    (services : List Service) : SharedServiceState × List Service :=
  (s.attachControl clientId controlTx).registerAll clientId controlTx services

def removeService (s : SharedServiceState) (name : String) :
    SharedServiceState × Option (UInt16 × String) :=
  match s.servicesByName.lookup name with
  | none => (s, none)
  | some entry =>
    let port := entry.config.remotePort
    let occupies := port ≠ 0 && !entry.config.isVhost
    let s := { s with
      servicesByName := s.servicesByName.erase name
      allocatedPorts := if occupies then s.allocatedPorts.erase port else s.allocatedPorts }
    (s.leaveGroup entry.config.group name,
      if occupies && isTcpListener entry.config then some (port, entry.config.name) else none)

def removeAll (s : SharedServiceState) :
    List String → SharedServiceState × List (UInt16 × String)
  | [] => (s, [])
  | name :: names =>
    let (s, listener) := s.removeService name
    let (s, listeners) := s.removeAll names
    (s, listener.toList ++ listeners)

def removeClientServices (s : SharedServiceState) (clientId : String) : SharedServiceState :=
  let names := (s.clientServices.lookup clientId).getD []
  let s := { s with clientServices := s.clientServices.erase clientId }
  let (s, listenerPorts) := s.removeAll names
  listenerPorts.foldl (fun s l => s.stopListener l.1 l.2) s

def isCurrentControl (s : SharedServiceState) (clientId : String) (controlTx : Channel) : Bool :=
  s.clientControlTx.lookup clientId = some controlTx

def unregisterClient (s : SharedServiceState) (clientId : String) : SharedServiceState :=
  let s := { s with clientControlTx := s.clientControlTx.erase clientId }
  s.removeClientServices clientId

def unregisterClientIfCurrent (s : SharedServiceState) (clientId : String) (controlTx : Channel) :
    SharedServiceState × Bool :=
  if s.isCurrentControl clientId controlTx then (s.unregisterClient clientId, true) else (s, false)

def removeListenerHandle (s : SharedServiceState) (port : UInt16) (name : String) :
    SharedServiceState :=
  if s.activeListeners.lookup port = some name then
    { s with activeListeners := s.activeListeners.erase port }
  else s

end SharedServiceState

end Cross233.Server
