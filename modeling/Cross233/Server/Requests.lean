import Cross233.Library.BigEndian
import Cross233.Library.Text
import Mathlib.Data.List.TakeDrop

namespace Cross233.Server

inductive StreamEnd where
  | closed
  | silent
  | failed
  deriving DecidableEq

-- What the reads of a connection return one after the other, and how it ends.
structure PeerStream where
  reads : List (List UInt8)
  ending : StreamEnd

namespace PeerStream

def bytes (stream : PeerStream) : List UInt8 := stream.reads.flatten

-- An empty read is the end of the stream.
def read (stream : PeerStream) (capacity : Nat) : Except StreamEnd (List UInt8) × PeerStream :=
  match stream.reads with
  | [] => (.error stream.ending, stream)
  | chunk :: reads =>
    if chunk = [] then (.error .closed, stream)
    else if chunk.length ≤ capacity then (.ok chunk, { stream with reads := reads })
    else (.ok (chunk.take capacity), { stream with reads := chunk.drop capacity :: reads })

end PeerStream

def readUntil (terminator : List UInt8) (limit : Nat) (buf : List UInt8) :
    List UInt8 → Option (List UInt8)
  | [] => none
  | b :: rest =>
    let buf := buf ++ [b]
    if terminator.isSuffixOf buf then some buf
    else if limit < buf.length then none
    else readUntil terminator limit buf rest

def readExact (n : Nat) (bytes : List UInt8) : Option (List UInt8 × List UInt8) :=
  if bytes.length < n then none else some (bytes.take n, bytes.drop n)

def crlf : List UInt8 := [13, 10]

def headerTerminator : List UInt8 := [13, 10, 13, 10]

def findHeadersEnd : List UInt8 → Option Nat
  | [] => none
  | b :: data =>
    if headerTerminator.isPrefixOf (b :: data) then some 0
    else (findHeadersEnd data).map (· + 1)

def headersEnd (data : List UInt8) : Nat := (findHeadersEnd data).getD 0

def headerStr (data : List UInt8) : Option String := Text.fromUtf8 (data.take (headersEnd data))

def hostOf (target : List Char) : String := String.ofList (target.takeWhile (· ≠ ':'))

-- None is a panic: the line is cut at byte five, which may lie inside a character.
def hostLine (line : List Char) : Option (Option String) :=
  if 5 < Text.byteLength line then
    (Text.splitAtByte 5 line).map fun (name, value) =>
      if Text.eqIgnoreAsciiCase name "host:".toList then some (hostOf (Text.trim value)) else none
  else some none

def findHost : List (List Char) → Option (Option String)
  | [] => some none
  | line :: lines =>
    match hostLine line with
    | none => none
    | some (some host) => some (some host)
    | some none => findHost lines

def extractHost (data : List UInt8) : Option (Option String) :=
  match headerStr data with
  | none => some none
  | some header => findHost (Text.splitCrlf header.toList)

def basicCredentials (decode : String → Option (List UInt8)) (line : List Char) :
    Option (List Char × List Char) :=
  let lower := Text.toAsciiLower line
  if "authorization:".toList.isPrefixOf lower ||
      "proxy-authorization:".toList.isPrefixOf lower then do
    let value := Text.trim ((Text.splitOnce ':' line).elim [] Prod.snd)
    let encoded ← (Text.stripHead "Basic ".toList value).or (Text.stripHead "basic ".toList value)
    let decoded ← decode (String.ofList (Text.trim encoded))
    let credentials ← Text.fromUtf8 decoded
    let password := (Text.splitOnce ':' credentials.toList).elim [] Prod.snd
    some (credentials.toList.takeWhile (· ≠ ':'), password)
  else none

def checkBasicAuth (decode : String → Option (List UInt8)) (data : List UInt8)
    (user pass : String) : Bool :=
  match headerStr data with
  | none => false
  | some header =>
    ((Text.splitCrlf header.toList).findSome? (basicCredentials decode)).any
      (fun credentials => credentials = (user.toList, pass.toList))

def serverName : Nat → List UInt8 → Option String
  | fuel + 1, nameType :: hi :: lo :: rest =>
    let nameLen := BigEndian.ofBe [hi, lo]
    let name :=
      if nameLen ≤ rest.length ∧ nameType = 0 then Text.fromUtf8 (rest.take nameLen) else none
    match name with
    | some name => some name
    | none => serverName fuel (rest.drop nameLen)
  | _, _ => none

def sniExtension : Nat → List UInt8 → Option String
  | fuel + 1, ty1 :: ty0 :: size1 :: size0 :: rest =>
    let extSize := BigEndian.ofBe [size1, size0]
    if rest.length < extSize then none
    else if BigEndian.ofBe [ty1, ty0] = 0 then
      if extSize < 2 then none
      else
        match serverName extSize ((rest.take extSize).drop 2) with
        | some name => some name
        | none => sniExtension fuel (rest.drop extSize)
    else sniExtension fuel (rest.drop extSize)
  | _, _ => none

def skipVector (lenBytes : Nat) (bytes : List UInt8) : Option (List UInt8) :=
  (readExact lenBytes bytes).map fun (len, rest) => rest.drop (BigEndian.ofBe len)

def parseSni (data : List UInt8) : Option String :=
  if data.length < 44 ∨ data.head? ≠ some 0x16 then none
  else
    let handshake := data.drop 5
    if handshake.head? ≠ some 0x01 then none
    else do
      let rest ← skipVector 1 (handshake.drop 38)
      let rest ← skipVector 2 rest
      let rest ← skipVector 1 rest
      let (_, extensions) ← readExact 2 rest
      sniExtension handshake.length extensions

def helloCapacity : Nat := 4096

-- The fuel is one read for each byte of the buffer: no read that counts is empty.
def readHello : Nat → List UInt8 → PeerStream → Option (Option String)
  | 0, _, _ => some none
  | fuel + 1, buf, stream =>
    if helloCapacity ≤ buf.length then some none
    else
      match stream.read (helloCapacity - buf.length) with
      | (.error .closed, _) => some none
      | (.error _, _) => none
      | (.ok chunk, stream) =>
        let buf := buf ++ chunk
        if buf.length < 44 then readHello fuel buf stream
        else
          match parseSni buf with
          | some name => some (some name)
          | none => readHello fuel buf stream

def connectTarget (buf : List UInt8) : Option String :=
  let parts := Text.splitWhitespace (Text.fromUtf8Lossy buf)
  if Text.eqIgnoreAsciiCase (parts.headD []) "CONNECT".toList then
    some (hostOf ((parts.drop 1).headD []))
  else none

structure StaticRequestCapture where
  controlRequest : Option (List UInt8)
  replay : List UInt8
  deriving DecidableEq

def staticCaptureMax : Nat := 8 * 1024

-- The first argument counts the reads that end before the deadline.
def captureStaticRequestHeaders : Nat → List UInt8 → PeerStream → Option StaticRequestCapture
  | 0, replay, _ => some ⟨none, replay⟩
  | reads + 1, replay, stream =>
    match stream.read 1024 with
    | (.error .failed, _) => none
    | (.error _, _) => some ⟨none, replay⟩
    | (.ok chunk, stream) =>
      let replay := replay ++ chunk
      match (findHeadersEnd replay).filter (fun i => i + 4 ≤ staticCaptureMax) with
      | some i => some ⟨some (replay.take (i + 4)), replay⟩
      | none =>
        if staticCaptureMax ≤ replay.length then some ⟨none, replay⟩
        else captureStaticRequestHeaders reads replay stream

theorem readUntil_append {terminator : List UInt8} {limit : Nat} {buf bytes read : List UInt8}
    (h : readUntil terminator limit buf bytes = some read) :
    ∃ rest, buf ++ bytes = read ++ rest := by
  induction bytes generalizing buf with
  | nil => cases h
  | cons b bytes ih =>
    simp only [readUntil] at h
    split at h
    · cases h
      exact ⟨bytes, by simp⟩
    · split at h
      · cases h
      · obtain ⟨rest, hrest⟩ := ih h
        exact ⟨rest, by simpa using hrest⟩

theorem findHeadersEnd_le {data : List UInt8} {n : Nat} (h : findHeadersEnd data = some n) :
    n + 4 ≤ data.length := by
  induction data generalizing n with
  | nil => cases h
  | cons b data ih =>
    simp only [findHeadersEnd] at h
    split at h
    · next ht =>
      cases h
      simpa [headerTerminator] using (List.isPrefixOf_iff_prefix.mp ht).length_le
    · obtain ⟨m, hm, rfl⟩ := Option.map_eq_some_iff.mp h
      have := ih hm
      simp only [List.length_cons]
      omega

theorem findHeadersEnd_append {data : List UInt8} {n : Nat} (h : findHeadersEnd data = some n)
    (rest : List UInt8) : findHeadersEnd (data ++ rest) = some n := by
  induction data generalizing n with
  | nil => cases h
  | cons b data ih =>
    simp only [findHeadersEnd] at h
    rw [List.cons_append, findHeadersEnd, ← List.cons_append]
    split at h
    · next ht =>
      have ht := (List.isPrefixOf_iff_prefix.mp ht).trans (List.prefix_append _ rest)
      rw [if_pos (List.isPrefixOf_iff_prefix.mpr ht)]
      exact h
    · next ht =>
      obtain ⟨m, hm, rfl⟩ := Option.map_eq_some_iff.mp h
      -- The terminator lies inside the data, so what follows cannot complete an earlier one.
      have hlen : headerTerminator.length ≤ (b :: data).length := by
        have := findHeadersEnd_le hm
        simp only [headerTerminator, List.length_cons, List.length_nil]
        omega
      have hnot : ¬headerTerminator.isPrefixOf (b :: data ++ rest) = true := fun hp =>
        ht (List.isPrefixOf_iff_prefix.mpr
          (List.prefix_of_prefix_length_le (List.isPrefixOf_iff_prefix.mp hp)
            (List.prefix_append _ rest) hlen))
      rw [if_neg hnot, ih hm]
      rfl

theorem findHeadersEnd_drop {data : List UInt8} {n : Nat} (h : findHeadersEnd data = some n) :
    headerTerminator <+: data.drop n := by
  induction data generalizing n with
  | nil => cases h
  | cons b data ih =>
    simp only [findHeadersEnd] at h
    split at h
    · next ht =>
      cases h
      exact List.isPrefixOf_iff_prefix.mp ht
    · obtain ⟨m, hm, rfl⟩ := Option.map_eq_some_iff.mp h
      exact ih hm

theorem findHeadersEnd_le_of_append (before rest : List UInt8) :
    ∃ n ≤ before.length, findHeadersEnd (before ++ (headerTerminator ++ rest)) = some n := by
  induction before with
  | nil =>
    refine ⟨0, Nat.le_refl _, ?_⟩
    simp [findHeadersEnd, headerTerminator]
  | cons b before ih =>
    obtain ⟨n, hn, hfind⟩ := ih
    rw [List.cons_append, findHeadersEnd]
    split
    · exact ⟨0, Nat.zero_le _, rfl⟩
    · exact ⟨n + 1, Nat.succ_le_succ hn, by rw [hfind]; rfl⟩

theorem findHeadersEnd_take {data : List UInt8} {n : Nat} (h : findHeadersEnd data = some n) :
    headerTerminator <:+ data.take (n + 4) := by
  obtain ⟨rest, hrest⟩ := findHeadersEnd_drop h
  refine ⟨data.take n, ?_⟩
  rw [List.take_add, ← hrest, List.take_append_of_le_length (Nat.le_refl 4)]
  rfl

theorem findHeadersEnd_first {data : List UInt8} {n k : Nat} (h : findHeadersEnd data = some n)
    (hk : headerTerminator <:+ data.take k) : n + 4 ≤ k := by
  obtain ⟨before, hbefore⟩ := hk
  have hdata : before ++ (headerTerminator ++ data.drop k) = data := by
    rw [← List.append_assoc, hbefore, List.take_append_drop]
  obtain ⟨m, hm, hfind⟩ := findHeadersEnd_le_of_append before (data.drop k)
  rw [hdata, h] at hfind
  cases hfind
  have hlen : before.length + 4 ≤ k := by
    calc before.length + 4 = (data.take k).length := by
          rw [← hbefore, List.length_append]
          rfl
      _ ≤ k := List.length_take_le k data
  omega

theorem captureStaticRequestHeaders_some {reads : Nat} {seen request replay : List UInt8}
    {stream : PeerStream}
    (h : captureStaticRequestHeaders reads seen stream = some ⟨some request, replay⟩) :
    ∃ n, findHeadersEnd replay = some n ∧ n + 4 ≤ staticCaptureMax ∧
      request = replay.take (n + 4) := by
  induction reads generalizing seen stream with
  | zero => simp [captureStaticRequestHeaders] at h
  | succ reads ih =>
    simp only [captureStaticRequestHeaders] at h
    split at h
    · cases h
    · simp at h
    · next chunk stream' hread =>
      split at h
      · next n hn =>
        obtain ⟨hfind, hmax⟩ := Option.filter_eq_some_iff.mp hn
        simp only [Option.some.injEq, StaticRequestCapture.mk.injEq] at h
        obtain ⟨hrequest, rfl⟩ := h
        exact ⟨n, hfind, of_decide_eq_true hmax, hrequest.symm⟩
      · split at h
        · simp at h
        · exact ih h

theorem headerStr_append {data : List UInt8} {n : Nat} (h : findHeadersEnd data = some n)
    (rest : List UInt8) : headerStr (data ++ rest) = headerStr data := by
  have hn := findHeadersEnd_le h
  rw [headerStr, headerStr, headersEnd, headersEnd, findHeadersEnd_append h, h, Option.getD_some,
    List.take_append_of_le_length (by omega)]

end Cross233.Server
