import Cross233.Library.HashMap
import Cross233.Library.IpAddr
import Mathlib.Data.Finset.Insert

namespace Cross233.Server

structure ServerConfig where
  bind : String := "0.0.0.0"
  proxyBind : String := ""
  controlPort : UInt16 := 7710
  webPort : UInt16 := 7711
  httpVhostPort : UInt16 := 80
  httpsVhostPort : UInt16 := 443
  tcpmuxPort : UInt16 := 0
  qcpPort : UInt16 := 7713
  qcpTunnelPort : UInt16 := 0
  portMin : UInt16 := 7712
  portMax : UInt16 := 7720
  allowPrivilegedPorts : Bool := false
  protectedPorts : List UInt16 := [22]
  deriving DecidableEq

namespace ServerConfig

def effectiveProxyBind (config : ServerConfig) : String :=
  if Text.trim config.proxyBind.toList = [] then config.bind else config.proxyBind

def effectiveProtectedPorts (config : ServerConfig) : Finset UInt16 :=
  insert 22 config.protectedPorts.toFinset

def reservedPorts (config : ServerConfig) : Finset UInt16 :=
  ([config.controlPort, config.webPort, config.httpVhostPort, config.httpsVhostPort,
    config.tcpmuxPort, config.qcpPort, config.qcpTunnelPort].filter (· ≠ 0)).toFinset

end ServerConfig

def validateUniquePorts (protocol : String) (seen : HashMap UInt16 String) :
    List (String × UInt16) → Except String Unit
  | [] => .ok ()
  | (name, port) :: ports =>
    if port = 0 then validateUniquePorts protocol seen ports
    else
      match seen.lookup port with
      | some previous =>
        .error (s!"{protocol} listener port conflict: {previous} and {name} both use {port}")
      | none => validateUniquePorts protocol (seen.insert port name) ports

namespace ServerConfig

def autoPorts (config : ServerConfig) : List UInt16 :=
  (List.range (config.portMax.toNat + 1 - config.portMin.toNat)).map
    (fun i => config.portMin + UInt16.ofNat i)

def hasSafeAutoPort (config : ServerConfig) : Bool :=
  config.autoPorts.any (fun port =>
    port ∉ config.reservedPorts && port ∉ config.effectiveProtectedPorts &&
      (config.allowPrivilegedPorts || 1024 ≤ port))

def validate (config : ServerConfig) : Except String Unit := do
  if IpAddr.parse config.bind = none then
    throw (s!"bind must be an IP address: {config.bind}")
  if IpAddr.parse config.effectiveProxyBind = none then
    throw (s!"proxy_bind must be an IP address: {config.effectiveProxyBind}")
  if config.controlPort = 0 then
    throw "control_port must not be zero"
  if config.portMin = 0 ∨ config.portMax = 0 then
    throw "automatic proxy port range must not include port zero"
  if config.portMax < config.portMin then
    throw (s!"invalid automatic proxy port range: {config.portMin} is greater than " ++
      toString config.portMax)
  validateUniquePorts "TCP" ∅
    [("control_port", config.controlPort), ("web_port", config.webPort),
      ("http_vhost_port", config.httpVhostPort), ("https_vhost_port", config.httpsVhostPort),
      ("tcpmux_port", config.tcpmuxPort)]
  validateUniquePorts "UDP" ∅
    [("qcp_port", config.qcpPort), ("qcp_tunnel_port", config.qcpTunnelPort)]
  if config.hasSafeAutoPort = false then
    throw (s!"automatic proxy port range {config.portMin}-{config.portMax} contains no " ++
      "assignable port")

theorem ssh_protected (config : ServerConfig) : 22 ∈ config.effectiveProtectedPorts :=
  Finset.mem_insert_self _ _

example : ({} : ServerConfig).validate = .ok () := by decide +kernel

end ServerConfig

end Cross233.Server
