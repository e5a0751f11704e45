import Cross233.Library.Text

inductive IpAddr where
  | v4 (octets : List Nat)
  | v6 (groups : List Nat)
  deriving DecidableEq, Repr

namespace IpAddr

abbrev Reader (α : Type) := List Char → Option (α × List Char)

def readDigits (radix : Nat) : List Char → List Nat × List Char
  | [] => ([], [])
  | c :: cs =>
    match Text.digit radix c with
    | none => ([], c :: cs)
    | some d =>
      let (ds, rest) := readDigits radix cs
      (d :: ds, rest)

def readNumber (radix maxDigits bound : Nat) (allowZeroPrefix : Bool) : Reader Nat := fun s =>
  let (digits, rest) := readDigits radix s
  let value := digits.foldl (fun n d => n * radix + d) 0
  if digits = [] ∨ maxDigits < digits.length then none
  else if allowZeroPrefix = false ∧ digits.head? = some 0 ∧ 1 < digits.length then none
  else if value < bound then some (value, rest)
  else none

def readSeparator {α : Type} (sep : Char) (index : Nat) (inner : Reader α) : Reader α := fun s =>
  if index = 0 then inner s
  else
    match s with
    | c :: cs => if c = sep then inner cs else none
    | [] => none

def readOctets : Nat → Reader (List Nat)
  | 0 => fun s => some ([], s)
  | n + 1 => fun s => do
    let (octet, s) ← readSeparator '.' (3 - n) (readNumber 10 3 256 false) s
    let (octets, s) ← readOctets n s
    some (octet :: octets, s)

def readIpv4 : Reader (List Nat) := readOctets 4

def ipv4Groups (octets : List Nat) : List Nat :=
  match octets with
  | [a, b, c, d] => [a * 256 + b, c * 256 + d]
  | _ => []

-- An embedded IPv4 address takes two groups and ends the series.
def readGroups (limit : Nat) : Nat → List Char → List Nat × Bool × List Char
  | 0, s => ([], false, s)
  | n + 1, s =>
    let index := limit - (n + 1)
    match (if n = 0 then none else readSeparator ':' index readIpv4 s) with
    | some (octets, s) => (ipv4Groups octets, true, s)
    | none =>
      match readSeparator ':' index (readNumber 16 4 65536 true) s with
      | none => ([], false, s)
      | some (group, s) =>
        let (groups, embedded, s) := readGroups limit n s
        (group :: groups, embedded, s)

def readIpv6 : Reader (List Nat) := fun s =>
  let (head, embedded, s) := readGroups 8 8 s
  if head.length = 8 then some (head, s)
  else if embedded then none
  else
    match s with
    | ':' :: ':' :: s =>
      let limit := 8 - (head.length + 1)
      let (tail, _, s) := readGroups limit limit s
      some (head ++ List.replicate (8 - head.length - tail.length) 0 ++ tail, s)
    | _ => none

def readIp : Reader IpAddr := fun s =>
  match readIpv4 s with
  | some (octets, s) => some (.v4 octets, s)
  | none => (readIpv6 s).map (fun r => (.v6 r.1, r.2))

def parse (s : String) : Option IpAddr :=
  match readIp s.toList with
  | some (ip, []) => some ip
  | _ => none

def readUnsigned (bound : Nat) : Reader Nat := fun s =>
  let (digits, rest) := readDigits 10 s
  let value := digits.foldl (fun n d => n * 10 + d) 0
  if digits = [] then none else if value < bound then some (value, rest) else none

def readChar (c : Char) : Reader Unit := fun s =>
  match s with
  | d :: rest => if d = c then some ((), rest) else none
  | [] => none

def readPort : Reader Nat := fun s => do
  let (_, s) ← readChar ':' s
  readUnsigned 65536 s

structure SocketAddr where
  ip : IpAddr
  port : Nat
  scopeId : Nat
  deriving DecidableEq, Repr

def readScopeId (s : List Char) : Nat × List Char :=
  match (readChar '%' s).bind (fun r => readUnsigned 4294967296 r.2) with
  | some (scope, rest) => (scope, rest)
  | none => (0, s)

def readSocketV4 : Reader SocketAddr := fun s => do
  let (octets, s) ← readIpv4 s
  let (port, s) ← readPort s
  some (⟨.v4 octets, port, 0⟩, s)

def readSocketV6 : Reader SocketAddr := fun s => do
  let (_, s) ← readChar '[' s
  let (groups, s) ← readIpv6 s
  let (scope, s) := readScopeId s
  let (_, s) ← readChar ']' s
  let (port, s) ← readPort s
  some (⟨.v6 groups, port, scope⟩, s)

def parseSocket (s : String) : Option SocketAddr :=
  match (readSocketV4 s.toList).orElse (fun _ => readSocketV6 s.toList) with
  | some (addr, []) => some addr
  | _ => none

def octetsText (octets : List Nat) : List Char :=
  ['.'].intercalate (octets.map (Nat.toDigits 10))

def groupsText (groups : List Nat) : List Char :=
  [':'].intercalate (groups.map (Nat.toDigits 16))

def ipv4Mapped (groups : List Nat) : Option (List Nat) :=
  match groups with
  | [0, 0, 0, 0, 0, 0xffff, g, h] => some [g / 256, g % 256, h / 256, h % 256]
  | _ => none

structure Span where
  start : Nat
  len : Nat
  deriving DecidableEq

-- The first of the longest runs of zero groups, given the longest run and the current one.
def zeroSpan (longest current : Span) (index : Nat) : List Nat → Span
  | [] => longest
  | group :: groups =>
    if group = 0 then
      let current := ⟨if current.len = 0 then index else current.start, current.len + 1⟩
      zeroSpan (if longest.len < current.len then current else longest) current (index + 1) groups
    else zeroSpan longest ⟨0, 0⟩ (index + 1) groups

def ipv6Text (groups : List Nat) : List Char :=
  match ipv4Mapped groups with
  | some octets => "::ffff:".toList ++ octetsText octets
  | none =>
    let span := zeroSpan ⟨0, 0⟩ ⟨0, 0⟩ 0 groups
    if 1 < span.len then
      groupsText (groups.take span.start) ++ "::".toList ++
        groupsText (groups.drop (span.start + span.len))
    else groupsText groups

def text : IpAddr → List Char
  | .v4 octets => octetsText octets
  | .v6 groups => ipv6Text groups

def SocketAddr.text (addr : SocketAddr) : List Char :=
  match addr.ip with
  | .v4 octets => octetsText octets ++ ':' :: Nat.toDigits 10 addr.port
  | .v6 groups =>
    let scope := if addr.scopeId = 0 then [] else '%' :: Nat.toDigits 10 addr.scopeId
    '[' :: ipv6Text groups ++ scope ++ "]:".toList ++ Nat.toDigits 10 addr.port

def SocketAddr.toString (addr : SocketAddr) : String := String.ofList addr.text

example : parse "192.0.2.10" = some (.v4 [192, 0, 2, 10]) := by decide +kernel

example : parse "2001:db8::1" = some (.v6 [0x2001, 0xdb8, 0, 0, 0, 0, 0, 1]) := by
  decide +kernel

example : parseSocket "192.0.2.10:53" = some ⟨.v4 [192, 0, 2, 10], 53, 0⟩ := by decide +kernel

example : parseSocket "[2001:db8::1]:53" =
    some ⟨.v6 [0x2001, 0xdb8, 0, 0, 0, 0, 0, 1], 53, 0⟩ := by decide +kernel

example : SocketAddr.toString ⟨.v6 [0x2001, 0xdb8, 0, 0, 1, 0, 0, 1], 53, 0⟩ =
    "[2001:db8::1:0:0:1]:53" := by decide +kernel

example : SocketAddr.toString ⟨.v6 [0, 0, 0, 0, 0, 0xffff, 0xc000, 0x20a], 53, 2⟩ =
    "[::ffff:192.0.2.10%2]:53" := by decide +kernel

end IpAddr
