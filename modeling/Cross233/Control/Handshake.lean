import Cross233.Control.Framing
import Cross233.Server.Replay
import Cross233.Server.Transition

namespace Cross233.Control

open Protocol Server

def maxNdjsonBytes : Nat := 16 * 1024

def maxInitialMessageBytes : Nat := 16 * 1024

inductive ReadError where
  | eof
  | tooLong
  | utf8
  | invalid
  deriving DecidableEq

section Reading

variable (codec : Codec)

def decode (text : String) : Except ReadError Message :=
  match codec.fromStr (trimmed text) with
  | some msg => .ok msg
  | none => .error .invalid

def decodeUtf8 (line : List UInt8) : Except ReadError Message :=
  match Text.fromUtf8 line with
  | some text => decode codec text
  | none => .error .utf8

-- Reads byte by byte up to a newline; `none` while the next byte is still to come.
def readBytes (limit : Nat) (incoming : List UInt8) (closed : Bool) :
    Option (Except ReadError (List UInt8) × List UInt8) :=
  match Lines.takeLine newline incoming with
  | some (head, rest) =>
    let line := head.dropLast
    some (if limit < line.length then .error .tooLong else .ok line, rest)
  | none =>
    if limit < incoming.length then some (.error .tooLong, [])
    else if closed then some (.error .eof, [])
    else none

def readNdjson (incoming : List UInt8) (closed : Bool) :
    Option (Except ReadError Message × List UInt8) :=
  (readBytes maxNdjsonBytes incoming closed).map fun (line, rest) =>
    (line.bind fun line => decode codec (Text.lossyText line), rest)

def readInitialMessage (incoming : List UInt8) (closed : Bool) :
    Option (Except ReadError Message × List UInt8) :=
  (readBytes maxInitialMessageBytes incoming closed).map fun (line, rest) =>
    (line.bind (decodeUtf8 codec), rest)

-- At the end of the stream `read_line` returns what is left.
def readLine (incoming : List UInt8) (closed : Bool) :
    Option (Except ReadError Message × List UInt8) :=
  match Lines.takeLine newline incoming with
  | some (line, rest) => some (decodeUtf8 codec line, rest)
  | none => if closed then some (decodeUtf8 codec incoming, []) else none

end Reading

section Lines

variable {codec : Codec} {msg : Message}

theorem takeLine_line (h : codec.Carries msg) :
    Lines.takeLine newline (codec.line msg) = some (codec.body msg ++ [newline], []) :=
  Lines.takeLine_append h.noNewline []

theorem readBytes_line (h : codec.Carries msg) (limit : Nat) (closed : Bool) :
    readBytes limit (codec.line msg) closed =
      some (if limit < (codec.body msg).length then .error .tooLong else .ok (codec.body msg),
        []) := by
  simp only [readBytes, takeLine_line h, List.dropLast_concat]

theorem trimmed_text (h : codec.Carries msg) :
    trimmed (codec.toString msg) = codec.toString msg := by
  obtain ⟨body, hbody⟩ := h.object
  have hchars : (codec.toString msg).toList = '\x7b' :: body.toList ++ ['\x7d'] := by
    rw [hbody]
    simp
  rw [Control.trimmed, hchars, Text.trim_id body.toList (by decide) (by decide), ← hchars,
    String.ofList_toList]

theorem decode_text (h : codec.Carries msg) : decode codec (codec.toString msg) = .ok msg := by
  simp only [decode, trimmed_text h, h.roundTrip]

theorem decodeUtf8_body (h : codec.Carries msg) : decodeUtf8 codec (codec.body msg) = .ok msg := by
  simp only [decodeUtf8, Codec.body, Text.fromUtf8_utf8, decode_text h]

theorem decodeUtf8_line (h : codec.Carries msg) :
    decodeUtf8 codec (codec.body msg ++ [newline]) = .ok msg := by
  simp only [decodeUtf8, codec.text_line, decode, h.trimmed, h.roundTrip]

theorem decode_lossyText (h : codec.Carries msg) :
    decode codec (Text.lossyText (codec.body msg)) = .ok msg := by
  simp only [Text.lossyText, Codec.body, Text.fromUtf8_utf8, Option.getD_some, decode_text h]

theorem readNdjson_line (h : codec.Carries msg) (hlen : (codec.body msg).length ≤ maxNdjsonBytes)
    (closed : Bool) : readNdjson codec (codec.line msg) closed = some (.ok msg, []) := by
  simp only [readNdjson, readBytes_line h, Nat.not_lt.mpr hlen, if_false, Option.map_some,
    Except.bind, decode_lossyText h]

theorem readInitialMessage_line (h : codec.Carries msg)
    (hlen : (codec.body msg).length ≤ maxInitialMessageBytes) (closed : Bool) :
    readInitialMessage codec (codec.line msg) closed = some (.ok msg, []) := by
  simp only [readInitialMessage, readBytes_line h, Nat.not_lt.mpr hlen, if_false,
    Option.map_some, Except.bind, decodeUtf8_body h]

theorem readInitialMessage_long (h : codec.Carries msg)
    (hlen : maxInitialMessageBytes < (codec.body msg).length) (closed : Bool) :
    readInitialMessage codec (codec.line msg) closed = some (.error .tooLong, []) := by
  simp only [readInitialMessage, readBytes_line h, hlen, if_true, Option.map_some, Except.bind]

theorem readLine_line (h : codec.Carries msg) (closed : Bool) :
    readLine codec (codec.line msg) closed = some (.ok msg, []) := by
  simp only [readLine, takeLine_line h, decodeUtf8_line h]

end Lines

structure Dialer where
  role : Server.Role
  authKey : String
  clientId : String
  id : String
  serviceName : String
  services : List Service
  deriving DecidableEq

inductive DialError where
  | read (error : ReadError)
  | expectedChallenge (got : String)
  | rejected (reason : String)
  | expectedReady (got : String)
  deriving DecidableEq

inductive DialPhase where
  | connected
  | awaitingChallenge
  | answering (proof : String)
  | awaitingReady
  | ready (msg : Message)
  | failed (error : DialError)
  deriving DecidableEq

inductive HandlerError where
  | read (error : ReadError)
  | timeout
  | emptyClientId
  | emptyTunnelId
  | expectedAuth (got : String)
  | missingProof
  | authFailed
  | cannotExpose (message : String)
  | noPendingWork
  | visitorAuthFailed
  deriving DecidableEq

inductive HandlerPhase where
  | initial
  | issued (role : Server.Role) (first : Message) (nonce : String)
  | challenging (role : Server.Role) (first : Message) (nonce : String)
  | awaiting (role : Server.Role) (first : Message)
  | verifying (role : Server.Role) (first : Message) (proof : String)
  | rejecting (tunnelId : String)
  | registering (first : Message)
  | exposing (ch : Channel)
  | claiming (tunnelId : String)
  | delivering
  | refusing (reply : Message) (error : HandlerError)
  | serving
  | returned (result : Except HandlerError Unit)

-- A program that returns drops its end of the stream, unless it goes on serving it.
def DialPhase.closed : DialPhase → Bool
  | .failed _ => true
  | _ => false

def DialPhase.settled : DialPhase → Bool
  | .ready _ => true
  | .failed _ => true
  | _ => false

def HandlerPhase.closed : HandlerPhase → Bool
  | .returned _ => true
  | _ => false

def HandlerPhase.settled : HandlerPhase → Bool
  | .serving => true
  | .returned _ => true
  | _ => false

structure HandshakeState where
  dial : DialPhase
  toServer : List UInt8
  toClient : List UInt8
  handler : HandlerPhase
  auth : AuthState
  pendingWork : HashMap String Nat
  server : ServerState
  verdict : Option Bool

-- What the clock and the operating system give a step comes with its event; the other events
-- are the work of the other connections on the state all handlers share.
inductive HandshakeEvent where
  | dial
  | handle (now : Nat) (bind : Except String Unit)
  | timeout
  | otherAuth (call : AuthCall)
  | otherSession (e : ServerEvent)
  | otherTunnels (pendingWork : HashMap String Nat)

def HandshakeEvent.isOwn : HandshakeEvent → Bool
  | .dial => true
  | .handle _ _ => true
  | _ => false

def actsFor (ch : Channel) : ServerEvent → Bool
  | .expose c _ => c = ch
  | .ready c _ => c = ch
  | .disconnect c => c = ch
  | _ => false

namespace Dialer

def hello (d : Dialer) : Message :=
  match d.role with
  | .client => .newClientHello d.clientId d.services
  | .tunnel => .newTunnelHello d.id
  | .visitor => .newVisitorHello d.clientId d.serviceName (some d.id)

def key (d : Dialer) : String := connId d.role d.clientId d.id

def prove (mac : String → String → String) (d : Dialer) (nonce : String) : String :=
  match d.role with
  | .client => computeProof mac d.authKey "client" d.clientId d.clientId nonce
  | .tunnel => computeProof mac d.authKey "tunnel" "" d.id nonce
  | .visitor => computeProof mac d.authKey "visitor" d.clientId d.id nonce

def onChallenge (mac : String → String → String) (d : Dialer) :
    Except ReadError Message → DialPhase
  | .error e => .failed (.read e)
  | .ok challenge =>
    if challenge.ty ≠ "challenge" then .failed (.expectedChallenge challenge.ty)
    else .answering (d.prove mac (challenge.nonce.getD ""))

def unknown (d : Dialer) : String :=
  match d.role with
  | .client => "unknown"
  | .tunnel => "unknown"
  | .visitor => ""

def succeeds (d : Dialer) (ty : String) : Bool :=
  match d.role with
  | .client => ty = "ready"
  | .tunnel => ty = "ready" || ty = "tunnel_ok"
  | .visitor => ty = "ready" || ty = "visitor_ok"

def onReply (d : Dialer) : Except ReadError Message → DialPhase
  | .error e => .failed (.read e)
  | .ok resp =>
    if resp.ty = "error" then .failed (.rejected (resp.error.getD d.unknown))
    else if d.succeeds resp.ty then .ready resp
    else .failed (.expectedReady resp.ty)

def admitted (codec : Codec) (d : Dialer) : Bool :=
  admits d.role d.clientId d.id && (codec.body d.hello).length ≤ maxInitialMessageBytes

end Dialer

def attempt (role : Server.Role) (first : Message) (proof : String) : Attempt :=
  let cid := first.clientId.getD ""
  let id := first.id.getD ""
  match role with
  | .client => ⟨connId .client cid id, "client", cid, cid, proof⟩
  | .tunnel => ⟨connId .tunnel cid id, "tunnel", "", id, proof⟩
  | .visitor => ⟨connId .visitor cid id, "visitor", cid, id, proof⟩

namespace HandlerPhase

def onIssued (role : Server.Role) (first : Message) (nonce : String) : HandlerPhase :=
  match if role = .client then none else first.proof with
  | some proof => .verifying role first proof
  | none => .challenging role first nonce

def onAnswer (role : Server.Role) (first : Message) (answer : Except ReadError Message) :
    HandlerPhase :=
  match role with
  | .client =>
    match answer with
    | .error e => .returned (.error (.read e))
    | .ok msg =>
      if msg.ty ≠ "auth" then .refusing (.newError "expected auth") (.expectedAuth msg.ty)
      else
        match msg.proof with
        | some proof => .verifying role first proof
        | none => .returned (.error .missingProof)
  | .tunnel =>
    match answer with
    | .error e => .returned (.error (.read e))
    | .ok msg =>
      match msg.proof with
      | some proof => .verifying role first proof
      | none => .returned (.error .missingProof)
  | .visitor =>
    match answer.toOption.bind Message.proof with
    | some proof => .verifying role first proof
    | none => .returned (.error .visitorAuthFailed)

def onVerdict (role : Server.Role) (first : Message) (ok : Bool) : HandlerPhase :=
  match role, ok with
  | .client, true => .registering first
  | .client, false => .refusing (.newError "auth failed") .authFailed
  | .tunnel, true => .claiming (first.id.getD "")
  | .tunnel, false => .rejecting (first.id.getD "")
  | .visitor, true => .returned (.ok ())
  | .visitor, false => .returned (.error .visitorAuthFailed)

def onTimeout : HandlerPhase → Option HandlerPhase
  | .initial => some (.returned (.error .timeout))
  | .awaiting .visitor _ => some (.returned (.error .visitorAuthFailed))
  | .awaiting _ _ => some (.returned (.error .timeout))
  | _ => none

def channel : HandlerPhase → Option Channel
  | .exposing ch => some ch
  | _ => none

end HandlerPhase

namespace HandshakeState

def start (d : Dialer) (pending : HashMap String PendingAuth) (pendingWork : HashMap String Nat)
    (server : ServerState) : HandshakeState where
  dial := .connected
  toServer := []
  toClient := []
  handler := .initial
  auth := ⟨d.authKey, pending⟩
  pendingWork := pendingWork
  server := server
  verdict := none

def settled (s : HandshakeState) : Bool := s.dial.settled && s.handler.settled

def goto (s : HandshakeState) (handler : HandlerPhase) : HandshakeState :=
  { s with handler := handler }

section Steps

variable (codec : Codec) (mac : String → String → String)

def sendLine (s : HandshakeState) (msg : Message) : HandshakeState :=
  { s with toClient := s.toClient ++ codec.line msg }

def writeNdjson (s : HandshakeState) (msg : Message) : HandshakeState :=
  { s with toServer := s.toServer ++ codec.line msg }

def dialStep (d : Dialer) (s : HandshakeState) : Option HandshakeState :=
  match s.dial with
  | .connected => some { s.writeNdjson codec d.hello with dial := .awaitingChallenge }
  | .awaitingChallenge =>
    (readNdjson codec s.toClient s.handler.closed).map fun (challenge, rest) =>
      { s with dial := d.onChallenge mac challenge, toClient := rest }
  | .answering proof =>
    some { s.writeNdjson codec (.newAuth proof) with dial := .awaitingReady }
  | .awaitingReady =>
    (readNdjson codec s.toClient s.handler.closed).map fun (resp, rest) =>
      { s with dial := d.onReply resp, toClient := rest }
  | .ready _ => none
  | .failed _ => none

def challenge (s : HandshakeState) (role : Server.Role) (first : Message) (nonce : String)
    (now : Nat) : HandshakeState :=
  { s with
    auth := s.auth.issue (connId role (first.clientId.getD "") (first.id.getD "")) nonce now
    handler := .issued role first nonce }

def handleConnection (s : HandshakeState) (nonce : String) (now : Nat) :
    Except ReadError Message → HandshakeState
  | .error e => s.goto (.returned (.error (.read e)))
  | .ok first =>
    match first.ty with
    | "client" =>
      if first.clientId.getD "" = "" then s.goto (.returned (.error .emptyClientId))
      else s.challenge .client first nonce now
    | "tunnel" =>
      if first.id.getD "" = "" then s.goto (.returned (.error .emptyTunnelId))
      else s.challenge .tunnel first nonce now
    | "visitor" => s.challenge .visitor first nonce now
    | _ => s.goto (.returned (.ok ()))

def verify (s : HandshakeState) (role : Server.Role) (first : Message) (proof : String) :
    HandshakeState :=
  let (auth, ok) := s.auth.attempt mac (attempt role first proof)
  { s with auth := auth, verdict := some ok, handler := .onVerdict role first ok }

def claim (s : HandshakeState) (tunnelId : String) : HandshakeState :=
  match s.pendingWork.lookup tunnelId with
  | some _ =>
    { s with pendingWork := s.pendingWork.erase tunnelId, handler := .delivering }
  | none => s.goto (.refusing (.newReject tunnelId "no pending work") .noPendingWork)

def register (s : HandshakeState) (first : Message) : HandshakeState :=
  { s with
    server := s.server.hello (first.clientId.getD "") first.services
    handler := .exposing s.server.nextChannel }

def expose (s : HandshakeState) (ch : Channel) (bind : Except String Unit) :
    Option HandshakeState := do
  let session ← s.server.sessions.lookup ch
  match session.pending with
  | svc :: pending =>
    let s' := { s with server := s.server.expose ch session svc pending bind }
    match s.server.exposeService svc bind with
    | .ok _ => some s'
    | .error message => some (s'.goto (.refusing (.newError message) (.cannotExpose message)))
  | [] =>
    let reply := .newReady session.assigned s.server.qcpPort s.server.qcpTunnelPort
    some ({ s with server := s.server.ready ch session true }.sendLine codec reply |>.goto .serving)

def handle (nonce : String) (s : HandshakeState) (now : Nat) (bind : Except String Unit) :
    Option HandshakeState :=
  match s.handler with
  | .initial =>
    (readInitialMessage codec s.toServer s.dial.closed).map fun (first, rest) =>
      { s with toServer := rest }.handleConnection nonce now first
  | .issued role first nonce =>
    some { s with auth := s.auth.cleanupExpired now, handler := .onIssued role first nonce }
  | .challenging role first nonce =>
    some ((s.sendLine codec (.newChallenge nonce)).goto (.awaiting role first))
  | .awaiting role first =>
    (readLine codec s.toServer s.dial.closed).map fun (answer, rest) =>
      { s with toServer := rest }.goto (.onAnswer role first answer)
  | .verifying role first proof => some (s.verify mac role first proof)
  | .rejecting tunnelId =>
    some ({ s with pendingWork := s.pendingWork.erase tunnelId }.sendLine codec
      (.newReject tunnelId "auth failed") |>.goto (.returned (.error .authFailed)))
  | .registering first => some (s.register first)
  | .exposing ch => s.expose codec ch bind
  | .claiming tunnelId => some (s.claim tunnelId)
  | .delivering => some ((s.sendLine codec (.newReady [] 0 0)).goto .serving)
  | .refusing reply error =>
    some ((s.sendLine codec reply).goto (.returned (.error error)))
  | .serving => none
  | .returned _ => none

def step (d : Dialer) (nonce : String) (s : HandshakeState) :
    HandshakeEvent → Option HandshakeState
  | .dial => s.dialStep codec mac d
  | .handle now bind => s.handle codec mac nonce now bind
  | .timeout => s.handler.onTimeout.map s.goto
  | .otherAuth call => some { s with auth := s.auth.perform mac call }
  | .otherSession e =>
    if s.handler.channel.any (fun ch => actsFor ch e) then none
    else (s.server.step e).map fun server => { s with server := server }
  | .otherTunnels pendingWork => some { s with pendingWork := pendingWork }

end Steps

end HandshakeState

end Cross233.Control
