import Cross233.Library.Framing
import Cross233.Server.Requests

namespace Cross233.Server

open BigEndian

def listedNames (bytes : List UInt8) : List (Tagged 1) := (Tagged.framing 1).split bytes

def extensions (bytes : List UInt8) : List (Tagged 2) := (Tagged.framing 2).split bytes

def entryHost (entry : Tagged 1) : Option String :=
  if entry.tag = 0 then Text.fromUtf8 entry.data else none

def serverHost (ext : Tagged 2) : Option String :=
  if ext.tag = 0 then (listedNames (ext.data.drop 2)).findSome? entryHost else none

-- A server_name extension without room for the length of its list ends the walk.
def hasListLength (ext : Tagged 2) : Bool := ext.tag ≠ 0 || 2 ≤ ext.data.length

def announcedHost (exts : List (Tagged 2)) : Option String :=
  (exts.takeWhile hasListLength).findSome? serverHost

theorem announcedHost_cons (ext : Tagged 2) (exts : List (Tagged 2)) :
    announcedHost (ext :: exts) =
      if hasListLength ext then (serverHost ext).or (announcedHost exts) else none := by
  rw [announcedHost, List.takeWhile_cons]
  split
  · rw [List.findSome?_cons]
    cases serverHost ext with
    | none => rfl
    | some name => rfl
  · rfl

theorem serverName_eq {fuel : Nat} {bytes : List UInt8} (h : bytes.length ≤ fuel) :
    serverName fuel bytes = (listedNames bytes).findSome? entryHost := by
  induction fuel generalizing bytes with
  | zero =>
    rw [List.length_eq_zero_iff.mp (Nat.le_zero.mp h)]
    rfl
  | succ fuel ih =>
    match bytes with
    | [] => rfl
    | [_] => rfl
    | [_, _] => rfl
    | b :: hi :: lo :: rest =>
      simp only [List.length_cons] at h
      have hrest : (rest.drop (ofBe [hi, lo])).length ≤ fuel := by
        rw [List.length_drop]
        omega
      rw [serverName, ih hrest]
      rcases Nat.lt_or_ge rest.length (ofBe [hi, lo]) with hlt | hle
      · have hstop : listedNames (b :: hi :: lo :: rest) = [] :=
          @Tagged.split_of_lt 1 [b] [hi, lo] rest rfl rfl hlt
        rw [hstop, if_neg (by omega), List.drop_of_length_le (by omega)]
        rfl
      · obtain ⟨entry, htag, hdata, hsplit⟩ :=
          @Tagged.split_of_le 1 [b] [hi, lo] rest rfl rfl hle
        have hcons : listedNames (b :: hi :: lo :: rest) =
            entry :: listedNames (rest.drop (ofBe [hi, lo])) := hsplit
        have hzero : entry.tag = 0 ↔ ofBe [hi, lo] ≤ rest.length ∧ b = 0 := by
          rw [htag, and_iff_right hle, ← UInt8.toNat_inj]
          simp [ofBe]
        have hname : entryHost entry = if ofBe [hi, lo] ≤ rest.length ∧ b = 0 then
            Text.fromUtf8 (rest.take (ofBe [hi, lo])) else none := by
          rw [entryHost, hdata]
          exact if_congr hzero rfl rfl
        rw [hcons, List.findSome?_cons, ← hname]
        cases entryHost entry with
        | none => rfl
        | some name => rfl

theorem sniExtension_eq {fuel : Nat} {bytes : List UInt8} (h : bytes.length ≤ fuel) :
    sniExtension fuel bytes = announcedHost (extensions bytes) := by
  induction fuel generalizing bytes with
  | zero =>
    rw [List.length_eq_zero_iff.mp (Nat.le_zero.mp h)]
    rfl
  | succ fuel ih =>
    match bytes with
    | [] => rfl
    | [_] => rfl
    | [_, _] => rfl
    | [_, _, _] => rfl
    | ty1 :: ty0 :: size1 :: size0 :: rest =>
      simp only [List.length_cons] at h
      have hrest : (rest.drop (ofBe [size1, size0])).length ≤ fuel := by
        rw [List.length_drop]
        omega
      rw [sniExtension, ih hrest]
      rcases Nat.lt_or_ge rest.length (ofBe [size1, size0]) with hlt | hle
      · have hstop : extensions (ty1 :: ty0 :: size1 :: size0 :: rest) = [] :=
          @Tagged.split_of_lt 2 [ty1, ty0] [size1, size0] rest rfl rfl hlt
        rw [hstop, if_pos hlt]
        rfl
      · obtain ⟨ext, htag, hdata, hsplit⟩ :=
          @Tagged.split_of_le 2 [ty1, ty0] [size1, size0] rest rfl rfl hle
        have hcons : extensions (ty1 :: ty0 :: size1 :: size0 :: rest) =
            ext :: extensions (rest.drop (ofBe [size1, size0])) := hsplit
        have hlen : ext.data.length = ofBe [size1, size0] := by
          rw [hdata, List.length_take_of_le hle]
        rw [hcons, if_neg (by omega), ← htag, ← hdata, ← hlen, announcedHost_cons, hasListLength,
          serverHost]
        split
        · next hty =>
          split
          · next hshort => simp [hty, Nat.not_le.mpr hshort]
          · next hlong =>
            have hfuel : (ext.data.drop 2).length ≤ ext.data.length := by
              rw [List.length_drop]
              omega
            rw [serverName_eq hfuel]
            simp only [hty, ne_eq, not_true_eq_false, decide_false, Bool.false_or,
              Nat.not_lt.mp hlong, decide_true, if_true]
            cases (listedNames (ext.data.drop 2)).findSome? entryHost with
            | none => rfl
            | some name => rfl
        · next hty => simp [hty]

def helloExtensions (handshake : List UInt8) : Option (List UInt8 × List UInt8) := do
  let rest ← skipVector 1 (handshake.drop 38)
  let rest ← skipVector 2 rest
  let rest ← skipVector 1 rest
  readExact 2 rest

structure StartsHello (data : List UInt8) : Prop where
  long : 44 ≤ data.length
  record : data.head? = some 0x16
  hello : (data.drop 5).head? = some 0x01

theorem readExact_append {n : Nat} {bytes head rest : List UInt8}
    (h : readExact n bytes = some (head, rest)) (more : List UInt8) :
    readExact n (bytes ++ more) = some (head, rest ++ more) := by
  unfold readExact at h ⊢
  split at h
  · cases h
  · next hle =>
    cases h
    rw [if_neg (by rw [List.length_append]; omega), List.take_append_of_le_length (by omega),
      List.drop_append_of_le_length (by omega)]

theorem drop_append_of_ne_nil {α : Type} {n : Nat} {l : List α} (h : l.drop n ≠ [])
    (more : List α) : (l ++ more).drop n = l.drop n ++ more := by
  refine List.drop_append_of_le_length (Nat.le_of_lt ?_)
  rw [ne_eq, List.drop_eq_nil_iff] at h
  omega

theorem skipVector_some {n : Nat} {bytes rest : List UInt8} (h : skipVector n bytes = some rest) :
    ∃ len tail, readExact n bytes = some (len, tail) ∧ rest = tail.drop (ofBe len) := by
  obtain ⟨⟨len, tail⟩, hread, hrest⟩ := Option.map_eq_some_iff.mp h
  exact ⟨len, tail, hread, hrest.symm⟩

theorem skipVector_append {n : Nat} {bytes rest : List UInt8} (h : skipVector n bytes = some rest)
    (hne : rest ≠ []) (more : List UInt8) :
    skipVector n (bytes ++ more) = some (rest ++ more) := by
  obtain ⟨len, tail, hread, rfl⟩ := skipVector_some h
  rw [skipVector, readExact_append hread, Option.map_some, ← drop_append_of_ne_nil hne]

theorem readExact_ne_nil {n : Nat} {bytes : List UInt8} {r : List UInt8 × List UInt8}
    (h : readExact (n + 1) bytes = some r) : bytes ≠ [] := by
  rintro rfl
  cases h

theorem skipVector_ne_nil {n : Nat} {bytes rest : List UInt8}
    (h : skipVector (n + 1) bytes = some rest) : bytes ≠ [] := by
  obtain ⟨len, tail, hread, -⟩ := skipVector_some h
  exact readExact_ne_nil hread

theorem helloExtensions_append {handshake len rest : List UInt8}
    (h : helloExtensions handshake = some (len, rest)) (more : List UInt8) :
    helloExtensions (handshake ++ more) = some (len, rest ++ more) := by
  simp only [helloExtensions, Option.bind_eq_bind, Option.bind_eq_some_iff] at h ⊢
  obtain ⟨ciphers, hsession, compressions, hciphers, exts, hcompressions, hexts⟩ := h
  rw [drop_append_of_ne_nil (skipVector_ne_nil hsession)]
  exact ⟨_, skipVector_append hsession (skipVector_ne_nil hciphers) more,
    _, skipVector_append hciphers (skipVector_ne_nil hcompressions) more,
    _, skipVector_append hcompressions (readExact_ne_nil hexts) more,
    readExact_append hexts more⟩

theorem readExact_suffix {n : Nat} {bytes head rest : List UInt8}
    (h : readExact n bytes = some (head, rest)) : rest <:+ bytes := by
  unfold readExact at h
  split at h
  · cases h
  · cases h
    exact List.drop_suffix n bytes

theorem skipVector_suffix {n : Nat} {bytes rest : List UInt8}
    (h : skipVector n bytes = some rest) : rest <:+ bytes := by
  obtain ⟨len, tail, hread, rfl⟩ := skipVector_some h
  exact (List.drop_suffix _ tail).trans (readExact_suffix hread)

theorem helloExtensions_suffix {handshake len rest : List UInt8}
    (h : helloExtensions handshake = some (len, rest)) : rest <:+ handshake := by
  simp only [helloExtensions, Option.bind_eq_bind, Option.bind_eq_some_iff] at h
  obtain ⟨ciphers, hsession, compressions, hciphers, exts, hcompressions, hexts⟩ := h
  have hrest := (readExact_suffix hexts).trans (skipVector_suffix hcompressions)
  have hskip := (skipVector_suffix hciphers).trans (skipVector_suffix hsession)
  exact (hrest.trans hskip).trans (List.drop_suffix 38 handshake)

theorem parseSni_walk (data : List UInt8) :
    parseSni data =
      if data.length < 44 ∨ data.head? ≠ some 0x16 then none
      else if (data.drop 5).head? ≠ some 0x01 then none
      else (helloExtensions (data.drop 5)).bind (fun r => announcedHost (extensions r.2)) := by
  have hwalk : ∀ r ∈ helloExtensions (data.drop 5),
      announcedHost (extensions r.2) = sniExtension (data.drop 5).length r.2 := by
    intro r hr
    exact (sniExtension_eq (helloExtensions_suffix hr).length_le).symm
  rw [parseSni, Option.bind_congr hwalk]
  simp only [helloExtensions, Option.bind_eq_bind, Option.bind_assoc]

theorem parseSni_eq_some_iff {data : List UInt8} {host : String} :
    parseSni data = some host ↔ StartsHello data ∧
      ∃ len rest, helloExtensions (data.drop 5) = some (len, rest) ∧
        announcedHost (extensions rest) = some host := by
  rw [parseSni_walk]
  constructor
  · intro h
    split at h
    · cases h
    · next hstart =>
      rw [not_or, not_lt, not_not] at hstart
      split at h
      · cases h
      · next hhello =>
        obtain ⟨⟨len, rest⟩, hexts, hhost⟩ := Option.bind_eq_some_iff.mp h
        exact ⟨⟨hstart.1, hstart.2, not_not.mp hhello⟩, len, rest, hexts, hhost⟩
  · rintro ⟨⟨hlong, hrecord, hhello⟩, len, rest, hexts, hhost⟩
    rw [if_neg (by simp [hrecord, hlong]), if_neg (not_not.mpr hhello), hexts, Option.bind_some,
      hhost]

theorem StartsHello.append {data : List UInt8} (h : StartsHello data) (more : List UInt8) :
    StartsHello (data ++ more) := by
  have hlong := h.long
  refine ⟨?_, ?_, ?_⟩
  · rw [List.length_append]
    omega
  · rw [List.head?_append, h.record]
    rfl
  · rw [List.drop_append_of_le_length (by omega), List.head?_append, h.hello]
    rfl

theorem announcedHost_first {passed : List (Tagged 2)} {ext : Tagged 2} {host : String}
    (hpassed : ∀ e ∈ passed, hasListLength e = true ∧ serverHost e = none)
    (hlength : hasListLength ext = true) (hhost : serverHost ext = some host)
    (rest : List (Tagged 2)) : announcedHost (passed ++ ext :: rest) = some host := by
  induction passed with
  | nil => rw [List.nil_append, announcedHost_cons, if_pos hlength, hhost, Option.some_or]
  | cons e passed ih =>
    rw [List.forall_mem_cons] at hpassed
    rw [List.cons_append, announcedHost_cons, if_pos hpassed.1.1, hpassed.1.2, Option.none_or,
      ih hpassed.2]

theorem exists_first {exts : List (Tagged 2)} {host : String}
    (h : announcedHost exts = some host) :
    ∃ passed ext, passed ++ [ext] <+: exts ∧
      (∀ e ∈ passed, hasListLength e = true ∧ serverHost e = none) ∧
      hasListLength ext = true ∧ serverHost ext = some host := by
  induction exts with
  | nil => cases h
  | cons e exts ih =>
    rw [announcedHost_cons] at h
    split at h
    · next hlength =>
      cases he : serverHost e with
      | some name =>
        rw [he, Option.some_or] at h
        cases h
        exact ⟨[], e, List.prefix_append [e] exts, by simp, hlength, he⟩
      | none =>
        rw [he, Option.none_or] at h
        obtain ⟨passed, ext, hprefix, hpassed, hext⟩ := ih h
        refine ⟨e :: passed, ext, (List.prefix_cons_inj e).mpr hprefix, ?_, hext⟩
        rw [List.forall_mem_cons]
        exact ⟨⟨hlength, he⟩, hpassed⟩
    · cases h

theorem announcedHost_mono {exts longer : List (Tagged 2)} {host : String} (h : exts <+: longer)
    (hhost : announcedHost exts = some host) : announcedHost longer = some host := by
  obtain ⟨passed, ext, hprefix, hpassed, hlength, hext⟩ := exists_first hhost
  obtain ⟨rest, rfl⟩ := hprefix.trans h
  rw [List.append_assoc]
  exact announcedHost_first hpassed hlength hext rest

theorem parseSni_append {data : List UInt8} {host : String} (h : parseSni data = some host)
    (more : List UInt8) : parseSni (data ++ more) = some host := by
  obtain ⟨hs, len, rest, hexts, hhost⟩ := parseSni_eq_some_iff.mp h
  have hlong := hs.long
  refine parseSni_eq_some_iff.mpr ⟨hs.append more, len, rest ++ more, ?_, ?_⟩
  · rw [List.drop_append_of_le_length (by omega)]
    exact helloExtensions_append hexts more
  · have hlonger := (Tagged.framing 2).split_mono (List.prefix_append rest more)
    exact announcedHost_mono hlonger hhost

end Cross233.Server
