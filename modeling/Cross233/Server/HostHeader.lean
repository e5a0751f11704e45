import Cross233.Server.HttpVhost

namespace Cross233.Server

def hostName : List Char := "host:".toList

def fieldValue (line : List Char) : Option (List Char) :=
  if Text.eqIgnoreAsciiCase (line.take 5) hostName then some (line.drop 5) else none

structure Bracketed (value literal : List Char) : Prop where
  closed : ']' ∉ literal
  shape : ∃ port, value = '[' :: literal ++ ']' :: port ∧ (port = [] ∨ port.head? = some ':')

-- What a Host value asks for, once the blanks around it are gone.
def RequestedHost (value host : List Char) : Prop :=
  (∀ literal, Bracketed value literal → host = '[' :: literal ++ [']']) ∧
    ((∀ literal, ¬Bracketed value literal) → host = value.takeWhile (· ≠ ':'))

structure HostExtracted (data : List UInt8) : Prop where
  total : extractHost data ≠ none
  value : ∀ head : RequestHead, head.bytes = data →
    ∀ value, head.lines.findSome? fieldValue = some value →
    ∃ host, RequestedHost (Text.trim value) host ∧
      extractHost data = some (some (String.ofList host))

def cutsCharacter (line : List Char) : Bool :=
  5 < Text.byteLength line && (Text.splitAtByte 5 line).isNone

def longValue (line : List Char) : Option (List Char) := (fieldValue line).filter (· ≠ [])

structure Readable (lines : List (List Char)) : Prop where
  whole : ∀ line ∈ lines.takeWhile (fun line => (longValue line).isNone),
    cutsCharacter line = false
  first : ∀ value, lines.findSome? fieldValue = some value → value ≠ [] →
    ∀ literal, Bracketed (Text.trim value) literal → ':' ∉ literal
  bare : lines.findSome? fieldValue = some [] → ∃ value, lines.findSome? longValue = some value ∧
    ∀ c ∈ (Text.trim value).head?, c = ':'

theorem length_hostName {name : List Char} (h : Text.eqIgnoreAsciiCase name hostName = true) :
    name.length = 5 ∧ Text.byteLength name = 5 := by
  rw [Text.eqIgnoreAsciiCase, decide_eq_true_eq] at h
  refine ⟨?_, ?_⟩
  · have hlen := congrArg List.length h
    rw [Text.toAsciiLower, Text.toAsciiLower, List.length_map, List.length_map] at hlen
    exact hlen
  · rw [← Text.byteLength_toAsciiLower, h]
    decide

theorem fieldValue_append {name : List Char} (h : Text.eqIgnoreAsciiCase name hostName = true)
    (value : List Char) : fieldValue (name ++ value) = some value := by
  have hlen := (length_hostName h).1
  rw [fieldValue, ← hlen, List.take_left, if_pos h, List.drop_left]

theorem fieldValue_some {line value : List Char} (h : fieldValue line = some value) :
    ∃ name, Text.eqIgnoreAsciiCase name hostName = true ∧ line = name ++ value := by
  unfold fieldValue at h
  split at h
  · next hname =>
    cases h
    exact ⟨line.take 5, hname, (List.take_append_drop 5 line).symm⟩
  · cases h

-- A Host line is cut behind its colon, so only other lines can be cut inside a character.
theorem hostLine_eq (line : List Char) :
    hostLine line = if cutsCharacter line then none
      else some ((longValue line).map (fun value => hostOf (Text.trim value))) := by
  unfold hostLine cutsCharacter
  by_cases hlong : 5 < Text.byteLength line
  · rw [if_pos hlong, decide_eq_true hlong, Bool.true_and]
    cases hsplit : Text.splitAtByte 5 line with
    | none => rfl
    | some r =>
      obtain ⟨name, rest⟩ := r
      obtain ⟨rfl, hname⟩ := Text.splitAtByte_some hsplit
      rw [Text.byteLength_append, hname] at hlong
      have hrest : rest ≠ [] := by
        rintro rfl
        exact absurd hlong (by decide)
      have hhost : "host:".toList = hostName := rfl
      simp only [hhost, Option.map_some, Option.isNone_some, Bool.false_eq_true, if_false]
      cases heq : Text.eqIgnoreAsciiCase name hostName with
      | true =>
        rw [longValue, fieldValue_append heq, Option.filter_some, if_pos (decide_eq_true hrest)]
        rfl
      | false =>
        have hnone : fieldValue (name ++ rest) = none := by
          rw [Option.eq_none_iff_forall_ne_some]
          intro value hv
          obtain ⟨name', heq', happ⟩ := fieldValue_some hv
          have hsame := Text.splitAtByte_append name' value
          rw [(length_hostName heq').2, ← happ, hsplit] at hsame
          cases hsame
          rw [heq] at heq'
          cases heq'
        rw [longValue, hnone]
        rfl
  · rw [if_neg hlong, decide_eq_false hlong, Bool.false_and, if_neg Bool.false_ne_true]
    cases hv : fieldValue line with
    | none =>
      rw [longValue, hv]
      rfl
    | some value =>
      obtain ⟨name, heq, rfl⟩ := fieldValue_some hv
      have hempty : value = [] := by
        by_contra hne
        have hpos := List.length_pos_of_ne_nil hne
        have hle := Text.length_le_byteLength value
        rw [Text.byteLength_append, (length_hostName heq).2] at hlong
        omega
      rw [longValue, hv, hempty]
      rfl

theorem longValue_cut {line : List Char} (h : cutsCharacter line = true) :
    longValue line = none := by
  cases hv : fieldValue line with
  | none =>
    rw [longValue, hv]
    rfl
  | some value =>
    obtain ⟨name, heq, rfl⟩ := fieldValue_some hv
    have hsplit := Text.splitAtByte_append name value
    rw [(length_hostName heq).2] at hsplit
    rw [cutsCharacter, hsplit, Option.isNone_some, Bool.and_false] at h
    cases h

theorem findHost_some_iff {lines : List (List Char)} {r : Option String} :
    findHost lines = some r ↔
      (∀ line ∈ lines.takeWhile (fun line => (longValue line).isNone),
        cutsCharacter line = false) ∧
      r = (lines.findSome? longValue).map (fun value => hostOf (Text.trim value)) := by
  induction lines with
  | nil =>
    refine ⟨fun h => ⟨fun line hm => absurd hm List.not_mem_nil, ?_⟩, fun h => ?_⟩
    · cases h
      rfl
    · rw [h.2]
      rfl
  | cons line lines ih =>
    cases hcut : cutsCharacter line with
    | true =>
      have hnone := longValue_cut hcut
      rw [findHost, hostLine_eq, hcut, if_pos rfl]
      refine iff_of_false nofun (fun h => ?_)
      have hline := h.1 line (by simp [hnone])
      rw [hcut] at hline
      cases hline
    | false =>
      rw [findHost, hostLine_eq, hcut, if_neg Bool.false_ne_true]
      cases hlong : longValue line with
      | none => simpa [hlong, hcut] using ih
      | some value =>
        have hstop : (line :: lines).takeWhile (fun line => (longValue line).isNone) = [] := by
          rw [List.takeWhile_cons, hlong]
          rfl
        have hfound : (line :: lines).findSome? longValue = some value := by
          rw [List.findSome?_cons, hlong]
        rw [hstop, hfound]
        refine ⟨fun h => ⟨fun line hm => absurd hm List.not_mem_nil, ?_⟩, fun h => ?_⟩
        · cases h
          rfl
        · rw [h.2]
          rfl

theorem findSome?_longValue {lines : List (List Char)} {value : List Char}
    (h : lines.findSome? fieldValue = some value) (hne : value ≠ []) :
    lines.findSome? longValue = some value := by
  induction lines with
  | nil => cases h
  | cons line lines ih =>
    rw [List.findSome?_cons] at h ⊢
    cases hv : fieldValue line with
    | none =>
      rw [hv] at h
      rw [longValue, hv]
      exact ih h
    | some value' =>
      rw [hv] at h
      cases h
      rw [longValue, hv, Option.filter_some, if_pos (decide_eq_true hne)]

theorem takeWhile_bracketed {value literal : List Char} (h : Bracketed value literal) :
    value.takeWhile (· ≠ ':') = '[' :: literal ++ [']'] ↔ ':' ∉ literal := by
  obtain ⟨-, port, rfl, hport⟩ := h
  constructor
  · intro heq hmem
    have hall : ':' ∈ List.takeWhile (· ≠ ':') ('[' :: literal ++ ']' :: port) := by
      rw [heq]
      exact List.mem_append_left _ (List.mem_cons_of_mem _ hmem)
    exact absurd (List.all_eq_true.mp List.all_takeWhile ':' hall) (by decide)
  · intro hmem
    have hwhole : ∀ c ∈ '[' :: literal ++ [']'], decide (c ≠ ':') = true := by
      intro c hc
      refine decide_eq_true (fun hcolon => ?_)
      subst hcolon
      simp [hmem] at hc
    have hsplit : '[' :: literal ++ ']' :: port = ('[' :: literal ++ [']']) ++ port := by simp
    rw [hsplit, List.takeWhile_append_of_pos hwhole]
    rcases hport with rfl | hcolon
    · simp
    · obtain ⟨rest, rfl⟩ := List.head?_eq_some_iff.mp hcolon
      simp

theorem takeWhile_eq_nil {value : List Char} :
    value.takeWhile (· ≠ ':') = [] ↔ ∀ c ∈ value.head?, c = ':' := by
  cases value with
  | nil => simp
  | cons c value => simp [List.takeWhile_cons]

theorem requestedHost_nil : RequestedHost [] [] := by
  refine ⟨fun literal h => ?_, fun _ => rfl⟩
  obtain ⟨-, port, hshape, -⟩ := h
  cases hshape

theorem requestedHost_nil_eq {host : List Char} (h : RequestedHost [] host) : host = [] := by
  refine h.2 (fun literal hb => ?_)
  obtain ⟨-, port, hshape, -⟩ := hb
  cases hshape

theorem requestedHost_takeWhile_iff {value : List Char} :
    RequestedHost value (value.takeWhile (· ≠ ':')) ↔
      ∀ literal, Bracketed value literal → ':' ∉ literal := by
  constructor
  · intro h literal hb
    exact (takeWhile_bracketed hb).mp (h.1 literal hb)
  · intro h
    exact ⟨fun literal hb => (takeWhile_bracketed hb).mpr (h literal hb), fun _ => rfl⟩

theorem RequestHead.headerStr_eq (head : RequestHead) :
    headerStr head.bytes = some head.text := by
  rw [headerStr, headersEnd, bytes, head.only, Option.getD_some, List.take_left,
    Text.fromUtf8_utf8]

theorem RequestHead.lines_eq {head head' : RequestHead} (h : head'.bytes = head.bytes) :
    head'.lines = head.lines := by
  have htext := head'.headerStr_eq
  rw [h, head.headerStr_eq, Option.some.injEq] at htext
  rw [lines, lines, htext]

theorem RequestHead.extractHost_eq (head : RequestHead) :
    extractHost head.bytes = findHost head.lines := by
  rw [extractHost, head.headerStr_eq]
  rfl

theorem exists_head {data : List UInt8} {text : String}
    (hdata : findHeadersEnd data = some (data.length - 4)) (htext : headerStr data = some text) :
    ∃ head : RequestHead, head.bytes = data := by
  have hle := findHeadersEnd_le hdata
  have hutf8 : Text.utf8 text = data.take (data.length - 4) := by
    rw [headerStr, headersEnd, hdata, Option.getD_some] at htext
    exact Text.utf8_of_fromUtf8 htext
  have hend : headerTerminator = data.drop (data.length - 4) := by
    refine (findHeadersEnd_drop hdata).eq_of_length ?_
    rw [List.length_drop]
    simp only [headerTerminator, List.length_cons, List.length_nil]
    omega
  have hbytes : Text.utf8 text ++ headerTerminator = data := by
    rw [hutf8, hend, List.take_append_drop]
  refine ⟨⟨text, ?_⟩, hbytes⟩
  rw [hbytes, hdata, hutf8, List.length_take]
  congr 1
  omega

theorem hostOf_eq {value host : List Char} :
    hostOf value = String.ofList host ↔ value.takeWhile (· ≠ ':') = host := by
  rw [hostOf, String.ofList_inj]

structure LinesExtracted (lines : List (List Char)) : Prop where
  total : findHost lines ≠ none
  value : ∀ value, lines.findSome? fieldValue = some value →
    ∃ host, RequestedHost (Text.trim value) host ∧
      findHost lines = some (some (String.ofList host))

theorem LinesExtracted.readable {lines : List (List Char)} (h : LinesExtracted lines) :
    Readable lines := by
  obtain ⟨r, hr⟩ := Option.ne_none_iff_exists'.mp h.total
  refine ⟨(findHost_some_iff.mp hr).1, fun value hv hne => ?_, fun hv => ?_⟩
  · obtain ⟨host, hhost, hfound⟩ := h.value value hv
    have hlong := (findHost_some_iff.mp hfound).2
    rw [findSome?_longValue hv hne, Option.map_some, Option.some.injEq, eq_comm,
      hostOf_eq] at hlong
    exact requestedHost_takeWhile_iff.mp (hlong ▸ hhost)
  · obtain ⟨host, hhost, hfound⟩ := h.value [] hv
    cases requestedHost_nil_eq hhost
    have hlong := (findHost_some_iff.mp hfound).2
    obtain ⟨value, hvalue, hname⟩ := Option.map_eq_some_iff.mp hlong.symm
    exact ⟨value, hvalue, takeWhile_eq_nil.mp (hostOf_eq.mp hname)⟩

theorem Readable.extracted {lines : List (List Char)} (h : Readable lines) :
    LinesExtracted lines := by
  have hfound := findHost_some_iff.mpr ⟨h.whole, rfl⟩
  refine ⟨by rw [hfound]; exact Option.some_ne_none _, fun value hv => ?_⟩
  rw [hfound]
  by_cases hne : value = []
  · subst hne
    obtain ⟨value, hvalue, hempty⟩ := h.bare hv
    refine ⟨[], requestedHost_nil, ?_⟩
    rw [hvalue, Option.map_some, hostOf_eq.mpr (takeWhile_eq_nil.mpr hempty)]
  · refine ⟨_, requestedHost_takeWhile_iff.mpr (h.first value hv hne), ?_⟩
    rw [findSome?_longValue hv hne]
    rfl

theorem host_extraction_iff (data : List UInt8)
    (hdata : findHeadersEnd data = some (data.length - headerTerminator.length)) :
    HostExtracted data ↔
      ∀ head : RequestHead, head.bytes = data → Readable head.lines := by
  constructor
  · rintro h head rfl
    refine LinesExtracted.readable ⟨?_, fun value hv => ?_⟩
    · rw [← head.extractHost_eq]
      exact h.total
    · rw [← head.extractHost_eq]
      exact h.value head rfl value hv
  · intro h
    cases htext : headerStr data with
    | none =>
      have hnone : extractHost data = some none := by rw [extractHost, htext]
      refine ⟨by rw [hnone]; exact Option.some_ne_none _, fun head hbytes => ?_⟩
      rw [← hbytes, head.headerStr_eq] at htext
      cases htext
    | some text =>
      obtain ⟨head, rfl⟩ := exists_head hdata htext
      have hextracted := (h head rfl).extracted
      refine ⟨?_, fun head' hbytes value hv => ?_⟩
      · rw [head.extractHost_eq]
        exact hextracted.total
      · rw [head.extractHost_eq]
        exact hextracted.value value (RequestHead.lines_eq hbytes ▸ hv)

def headBytes (lines : String) : List UInt8 :=
  Text.utf8 ("GET / HTTP/1.1\r\n" ++ lines) ++ headerTerminator

-- The sixth byte of the first header line is the second of its last letter; the bracketed
-- literal ends at its first colon; a bare Host line is passed over.
theorem host_lost_or_panicked :
    (findHeadersEnd (headBytes "kaffé: 1\r\nHost: shop.example") =
        some ((headBytes "kaffé: 1\r\nHost: shop.example").length - headerTerminator.length) ∧
      extractHost (headBytes "kaffé: 1\r\nHost: shop.example") = none ∧
      ¬HostExtracted (headBytes "kaffé: 1\r\nHost: shop.example")) ∧
    extractHost (headBytes "Host: [::1]:8080") = some (some "[") ∧
    extractHost (headBytes "Host:\r\nHost: shop.example") = some (some "shop.example") := by
  have hpanic : extractHost (headBytes "kaffé: 1\r\nHost: shop.example") = none := by
    decide +kernel
  refine ⟨⟨by decide +kernel, hpanic, fun h => h.total hpanic⟩, by decide +kernel,
    by decide +kernel⟩

def shopHost : RequestHead where
  text := "GET / HTTP/1.1\r\nAccept: */*\r\nhOST:  shop.example:8080 "
  only := by decide +kernel

theorem shop_host_extracted :
    HostExtracted shopHost.bytes ∧ extractHost shopHost.bytes = some (some "shop.example") := by
  refine ⟨(host_extraction_iff shopHost.bytes (by decide +kernel)).mpr (fun head hbytes => ?_),
    by decide +kernel⟩
  rw [RequestHead.lines_eq hbytes]
  have hfield : shopHost.lines.findSome? fieldValue = some "  shop.example:8080 ".toList := by
    decide +kernel
  refine ⟨by decide +kernel, fun value hv _ literal hb => ?_, fun hv => ?_⟩
  · rw [hfield] at hv
    cases hv
    obtain ⟨-, port, hshape, -⟩ := hb
    have hfirst : (Text.trim "  shop.example:8080 ".toList).head? = some '[' :=
      congrArg List.head? hshape
    exact absurd hfirst (by decide +kernel)
  · rw [hfield] at hv
    cases hv

end Cross233.Server
