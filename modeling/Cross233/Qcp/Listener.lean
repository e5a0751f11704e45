import Cross233.Qcp.Endpoint

namespace Cross233.Qcp

structure SocketAddr where
  ip : Bytes
  port : UInt16
  deriving DecidableEq, Repr

structure Listener where
  cores : HashMap SocketAddr Nat
  conns : List Endpoint
  task : Option Panic
  sent : List (SocketAddr × Bytes)

def Listener.new : Listener where
  cores := ∅
  conns := []
  task := none
  sent := []

def Listener.coreFor (l : Listener) (src : SocketAddr) : Option (Nat × Endpoint) :=
  (l.cores.lookup src).bind (fun i => l.conns[i]?.map (fun ep => (i, ep)))

def Listener.replaceClosed (l : Listener) (src : SocketAddr) : Bool :=
  match l.coreFor src with
  | some (_, ep) => ep.core.state.closed
  | none => true

def acceptedCore (now : Instant) : Core :=
  let core := newCore dialWindow dialRto now
  { core with state := { core.state with handshaked := true } }

def Listener.open (l : Listener) (now : Instant) (src : SocketAddr) : Listener :=
  { l with
    cores := l.cores.insert src l.conns.length
    conns := l.conns ++ [Endpoint.ofCore (acceptedCore now)] }

def synAck : Packet := control (flagSyn ||| flagAck) .batch 0

def Listener.onPacket (l : Listener) (now : Instant) (src : SocketAddr) (p : Packet) : Listener :=
  if p.has flagSyn then
    let l := if l.replaceClosed src then l.open now src else l
    { l with sent := l.sent ++ [(src, encode synAck)] }
  else
    match l.coreFor src with
    | none => l
    | some (i, ep) =>
      match handlePacket now ep.core p with
      | .ok core => { l with conns := l.conns.set i { ep with core := core } }
      | .error e => { l with task := some e }

inductive ListenerEvent where
  | datagram (now : Instant) (src : SocketAddr) (buf : Bytes)
  | conn (i : Nat) (a : Action)
  | pump (i : Nat)

def Listener.step (l : Listener) : ListenerEvent → Option Listener
  | .datagram now src buf =>
    if l.task = none then some ((recvFrom buf).elim l (l.onPacket now src)) else none
  | .conn i a =>
    l.conns[i]?.bind (fun ep => (ep.act a).map (fun ep' => { l with conns := l.conns.set i ep' }))
  | .pump i =>
    l.conns[i]?.bind (fun ep => ep.pump.map (fun r => { l with conns := l.conns.set i r.2 }))

end Cross233.Qcp
