import Cross233.Library.HashMap

namespace Cross233.Protocol

structure Service where
  name : String := ""
  ty : Option String := none
  localAddr : String := ""
  remotePort : UInt16 := 0
  host : Option String := none
  subdomain : Option String := none
  routeByHttpUser : Option String := none
  locations : List String := []
  group : Option String := none
  groupKey : Option String := none
  httpUser : Option String := none
  httpPassword : Option String := none
  secret : Option String := none
  bandwidthLimitKbps : UInt64 := 0
  maxConnections : UInt32 := 0
  compression : Bool := false
  proxyProtocol : Bool := false
  proxyProtocolVersion : Option String := none
  allowCidrs : List String := []
  denyCidrs : List String := []
  hostHeaderRewrite : Option String := none
  requestHeaders : HashMap String String := ∅
  responseHeaders : HashMap String String := ∅
  healthCheck : Option String := none
  healthInterval : UInt32 := 0
  healthTimeout : UInt32 := 0
  healthMaxFailed : UInt32 := 0
  healthPath : Option String := none
  healthHeaders : HashMap String String := ∅
  annotations : HashMap String String := ∅
  enabled : Option Bool := none
  deriving DecidableEq

namespace Service

def effectiveType (svc : Service) : String := svc.ty.getD "tcp"

def isVhost (svc : Service) : Bool :=
  match svc.effectiveType with
  | "http" | "https" | "tcpmux" => true
  | _ => false

def isDirect (svc : Service) : Bool :=
  match svc.effectiveType with
  | "" | "tcp" | "static" | "udp" | "qcp" => true
  | _ => false

def usesAutoPort (svc : Service) : Bool := svc.remotePort = 0 && svc.isDirect

def isEnabled (svc : Service) : Bool := svc.enabled.getD true

end Service

structure Message where
  ty : String := ""
  clientId : Option String := none
  id : Option String := none
  nonce : Option String := none
  proof : Option String := none
  error : Option String := none
  serviceName : Option String := none
  address : Option String := none
  localAddress : Option String := none
  remotePort : Option UInt16 := none
  healthy : Option Bool := none
  eof : Option Bool := none
  qcpPort : Option UInt16 := none
  qcpTunnelPort : Option UInt16 := none
  services : List Service := []
  service : Option Service := none
  data : Option (List UInt8) := none
  deriving DecidableEq

namespace Message

def newClientHello (clientId : String) (services : List Service) : Message where
  ty := "client"
  clientId := some clientId
  services := services

def newTunnelHello (id : String) : Message where
  ty := "tunnel"
  id := some id

def newVisitorHello (clientId serviceName : String) (id : Option String) : Message where
  ty := "visitor"
  clientId := some clientId
  serviceName := some serviceName
  id := id

def newChallenge (nonce : String) : Message where
  ty := "challenge"
  nonce := some nonce

def newAuth (proof : String) : Message where
  ty := "auth"
  proof := some proof

def newReady (services : List Service) (qcpPort qcpTunnelPort : UInt16) : Message where
  ty := "ready"
  services := services
  qcpPort := some qcpPort
  qcpTunnelPort := some qcpTunnelPort

def newError (msg : String) : Message where
  ty := "error"
  error := some msg

def newOpen (id address localAddress : String) (service : Service) : Message where
  ty := "open"
  id := some id
  address := some address
  localAddress := some localAddress
  service := some service

def newUdp (remotePort : UInt16) (address : String) (data : List UInt8) (service : Service) :
    Message where
  ty := "udp"
  remotePort := some remotePort
  address := some address
  data := some data
  service := some service

def newStaticResponse (id : String) (data : List UInt8) (eof : Bool) : Message where
  ty := "static_response"
  id := some id
  data := some data
  eof := some eof

def newHealth (serviceName : String) (healthy : Bool) : Message where
  ty := "health"
  serviceName := some serviceName
  healthy := some healthy

def newReject (id err : String) : Message where
  ty := "reject"
  id := some id
  error := some err

def newPing : Message := { ty := "ping" }

def newPong : Message := { ty := "pong" }

end Message

end Cross233.Protocol
