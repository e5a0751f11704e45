import Cross233.Library.Lines
import Cross233.Library.Machine
import Cross233.Library.Text
import Cross233.Protocol.Msg

namespace Cross233.Control

open Protocol

-- The JSON library both programs use; `fromStr` is `none` where it returns an error.
structure Codec where
  toString : Message → String
  fromStr : String → Option Message

inductive Role where
  | server
  | client
  deriving DecidableEq

inductive Ending where
  | eof
  | readError
  | writeError
  | invalidMessage
  | keepalive
  | shutdown
  | fatal
  | closed
  deriving DecidableEq

inductive Status where
  | running
  | ended (ending : Ending)
  deriving DecidableEq

structure Loop where
  written : List Message
  wire : List UInt8
  reader : Lines.Reader UInt8
  handled : List Message
  outbox : List Message
  sent : List Message
  status : Status
  deriving DecidableEq

-- `ok` is false where the write to the stream that the step comes to, or its flush, fails.
inductive LoopEvent where
  | write (msg : Message)
  | arrive (n : Nat)
  | poll (ok : Bool)
  | eof (ok : Bool)
  | queue (msg : Message)
  | outbound (ok : Bool)
  | timeout (stale ok : Bool)
  | tick (expired : Bool)
  | shutdown

def newline : UInt8 := 10

def Codec.line (codec : Codec) (msg : Message) : List UInt8 :=
  Text.utf8 (codec.toString msg) ++ [newline]

def trimmed (text : String) : String := String.ofList (Text.trim text.toList)

def isFatal (msg : Message) : Bool :=
  let err := (msg.error.getD "unknown").toList
  Text.contains "auth".toList err || Text.contains "fatal".toList err

namespace Loop

def init : Loop where
  written := []
  wire := []
  reader := ⟨[], []⟩
  handled := []
  outbox := []
  sent := []
  status := .running

def finish (s : Loop) (ending : Ending) : Loop := { s with status := .ended ending }

def flush (s : Loop) (ok : Bool) : Loop :=
  if s.outbox = [] then s
  else if ok then { s with outbox := [], sent := s.sent ++ s.outbox }
  else { s with outbox := [] }.finish .writeError

def handle (s : Loop) (msg : Message) : Loop :=
  let s := { s with handled := s.handled ++ [msg] }
  if msg.ty = "ping" then { s with outbox := s.outbox ++ [.newPong] } else s

def serverLine (codec : Codec) (ok : Bool) (s : Loop) (line : List UInt8) : Loop :=
  match Text.fromUtf8 line with
  | none => s.finish .readError
  | some text =>
    if trimmed text = "" then s.flush ok
    else
      match codec.fromStr (trimmed text) with
      | some msg => (s.handle msg).flush ok
      | none => s.flush ok

def clientLine (codec : Codec) (s : Loop) (line : List UInt8) : Loop :=
  match Text.fromUtf8 line with
  | none => s.finish .readError
  | some text =>
    match codec.fromStr (trimmed text) with
    | none => s.finish .invalidMessage
    | some msg =>
      let s := s.handle msg
      match msg.ty with
      | "error" => if isFatal msg then s.finish .fatal else s
      | "bye" => s.finish .closed
      | "close" => s.finish .closed
      | _ => s

def onLine (codec : Codec) (ok : Bool) : Role → Loop → List UInt8 → Loop
  | .server => serverLine codec ok
  | .client => clientLine codec

def pollRead (codec : Codec) (role : Role) (ok : Bool) (s : Loop) : Loop :=
  match s.reader.poll newline with
  | (reader, none) => { s with reader := reader }
  | (reader, some line) => onLine codec ok role { s with reader := reader } line

def readEof (codec : Codec) (role : Role) (ok : Bool) (s : Loop) : Loop :=
  if s.reader.line = [] then s.finish .eof
  else onLine codec ok role { s with reader := s.reader.cancel } s.reader.line

def sendOutbound (s : Loop) (ok : Bool) : Option Loop :=
  match s.outbox with
  | [] => none
  | msg :: outbox =>
    let s := { s with reader := s.reader.cancel, outbox := outbox }
    some (if ok then { s with sent := s.sent ++ [msg] } else s.finish .writeError)

def readTimeout (s : Loop) (stale ok : Bool) : Loop :=
  let s := { s with reader := s.reader.cancel }
  if stale then s.finish .keepalive else s.flush ok

def keepaliveTick (s : Loop) (expired : Bool) : Loop :=
  let s := { s with reader := s.reader.cancel }
  if expired then s.finish .keepalive else { s with outbox := s.outbox ++ [.newPing] }

def step (codec : Codec) (role : Role) (s : Loop) (e : LoopEvent) : Option Loop :=
  if s.status = .running then
    match e, role with
    | .write msg, _ =>
      some { s with written := s.written ++ [msg], wire := s.wire ++ codec.line msg }
    | .arrive n, _ =>
      some { s with reader := s.reader.fill (s.wire.take n), wire := s.wire.drop n }
    | .poll ok, role => some (pollRead codec role ok s)
    | .eof ok, role =>
      if s.wire = [] ∧ s.reader.buffered = [] then some (readEof codec role ok s) else none
    | .queue msg, _ => some { s with outbox := s.outbox ++ [msg] }
    | .outbound ok, .server => s.sendOutbound ok
    | .timeout stale ok, .server => some (s.readTimeout stale ok)
    | .tick expired, .client => some (s.keepaliveTick expired)
    | .shutdown, .client => some (s.finish .shutdown)
    | _, _ => none
  else none

end Loop

end Cross233.Control
