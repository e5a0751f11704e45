import Cross233.Server.Inbound

namespace Cross233.Server

open Protocol

-- A head as the vhost handler reads it: its first empty line is its end.
structure RequestHead where
  text : String
  only : findHeadersEnd (Text.utf8 text ++ headerTerminator) = some (Text.utf8 text).length

namespace RequestHead

def bytes (head : RequestHead) : List UInt8 := Text.utf8 head.text ++ headerTerminator

def lines (head : RequestHead) : List (List Char) := Text.splitCrlf head.text.toList

end RequestHead

def encodeText (s : List Char) : List UInt8 := Text.utf8 (String.ofList s)

def renderLines (lines : List (List Char)) : List UInt8 :=
  lines.flatMap (fun line => encodeText line ++ crlf)

def isHostLine (line : List Char) : Bool :=
  "host:".toList.isPrefixOf (Text.toAsciiLower line)

def rewriteLine (rewrite : String) (line : List Char) : List Char :=
  if isHostLine line then "Host: ".toList ++ rewrite.toList else line

def headerLine (header : String × String) : List Char :=
  header.1.toList ++ ": ".toList ++ header.2.toList

-- The configured headers come in whatever order their map is visited in.
def rewriteHead (svc : Service) (headers : List (String × String)) (buf : List UInt8) :
    List UInt8 :=
  match svc.hostHeaderRewrite with
  | none => buf
  | some rewrite =>
    match Text.fromUtf8 buf with
    | none => buf
    | some s =>
      match Text.splitCrlf s.toList with
      | [] => renderLines (headers.map headerLine)
      | first :: lines =>
        renderLines (first :: lines.map (rewriteLine rewrite)) ++
          renderLines (headers.map headerLine)

def headLimit : Nat := 65536

-- What goes into the tunnel: the head as rewritten, then whatever the peer sends after it.
def forwardRequest (svc : Service) (headers : List (String × String)) (bytes : List UInt8) :
    Option (List UInt8) :=
  (readUntil headerTerminator headLimit [] bytes).map fun buf =>
    rewriteHead svc headers buf ++ bytes.drop buf.length

def configuredHeaders (svc : Service) : List (String × String) :=
  svc.requestHeaders.entries.map (fun e => (e.1, e.2))

def keptLine (svc : Service) (line : List Char) : List Char :=
  match svc.hostHeaderRewrite with
  | none => line
  | some rewrite => rewriteLine rewrite line

structure HeadKept (svc : Service) (head : RequestHead) (out : List UInt8) : Prop where
  lines : ∃ first rest written, head.lines = first :: rest ∧
    List.Sublist (rest.map (keptLine svc)) written ∧
    written.Perm (rest.map (keptLine svc) ++ (configuredHeaders svc).map headerLine) ∧
    out = renderLines (first :: written) ++ crlf
  framed : ∀ body, findHeadersEnd (out ++ body) = some (out.length - headerTerminator.length)

theorem encodeText_append (s t : List Char) :
    encodeText (s ++ t) = encodeText s ++ encodeText t := by
  rw [encodeText, String.ofList_append, Text.utf8_append]
  rfl

theorem renderLines_cons (line : List Char) (lines : List (List Char)) :
    renderLines (line :: lines) = encodeText line ++ crlf ++ renderLines lines := rfl

theorem renderLines_append (lines lines' : List (List Char)) :
    renderLines (lines ++ lines') = renderLines lines ++ renderLines lines' :=
  List.flatMap_append

theorem renderLines_perm {lines lines' : List (List Char)} (h : lines.Perm lines') :
    (renderLines lines).length = (renderLines lines').length :=
  (h.flatMap_right _).length_eq

theorem renderLines_eq_encode (lines : List (List Char)) :
    renderLines lines = encodeText ((lines.map (· ++ ['\r', '\n'])).flatten) := by
  induction lines with
  | nil => rfl
  | cons line lines ih =>
    have hcrlf : encodeText ['\r', '\n'] = crlf := by decide +kernel
    rw [renderLines_cons, ih, List.map_cons, List.flatten_cons, encodeText_append,
      encodeText_append, hcrlf]

theorem renderLines_splitCrlf (s : List Char) :
    renderLines (Text.splitCrlf s) = encodeText s ++ crlf := by
  have hcrlf : encodeText ['\r', '\n'] = crlf := by decide +kernel
  rw [renderLines_eq_encode, Text.flatten_splitCrlf, encodeText_append, hcrlf]

theorem renderLines_pos (line : List Char) (lines : List (List Char)) :
    0 < (renderLines (line :: lines)).length := by
  rw [renderLines_cons]
  simp only [List.length_append, crlf, List.length_cons, List.length_nil]
  omega

theorem RequestHead.rendered (head : RequestHead) :
    head.bytes = renderLines head.lines ++ crlf := by
  rw [lines, renderLines_splitCrlf, encodeText, String.ofList_toList, List.append_assoc]
  rfl

theorem RequestHead.pieces (head : RequestHead) :
    ∃ s, Text.fromUtf8 head.bytes = some s ∧
      Text.splitCrlf s.toList = head.lines ++ [[], []] := by
  have hend : Text.utf8 "\r\n\r\n" = headerTerminator := by decide +kernel
  refine ⟨head.text ++ "\r\n\r\n", ?_, ?_⟩
  · rw [bytes, ← hend, ← Text.utf8_append, Text.fromUtf8_utf8]
  · have hlist : (head.text ++ "\r\n\r\n").toList =
        head.text.toList ++ '\r' :: '\n' :: ['\r', '\n'] := by
      rw [String.toList_append]
      rfl
    rw [hlist, Text.splitCrlf_append]
    rfl

theorem readUntil_first {terminator : List UInt8} {limit : Nat} {buf rest : List UInt8}
    (body : List UInt8) (hrest : rest ≠ []) (hlimit : (buf ++ rest).length ≤ limit + 1)
    (hend : terminator <:+ buf ++ rest)
    (hfirst : ∀ k, k < (buf ++ rest).length → ¬terminator <:+ (buf ++ rest).take k) :
    readUntil terminator limit buf (rest ++ body) = some (buf ++ rest) := by
  induction rest generalizing buf with
  | nil => exact absurd rfl hrest
  | cons b rest ih =>
    have hsplit : buf ++ b :: rest = buf ++ [b] ++ rest := by simp
    rw [hsplit] at hlimit hend hfirst ⊢
    rw [List.cons_append, readUntil]
    cases rest with
    | nil =>
      rw [List.append_nil] at hend ⊢
      rw [if_pos (List.isSuffixOf_iff_suffix.mpr hend)]
    | cons b' rest =>
      have hlength : (buf ++ [b]).length < (buf ++ [b] ++ b' :: rest).length := by simp
      have hnot := hfirst (buf ++ [b]).length hlength
      rw [List.take_left] at hnot
      rw [if_neg (fun h => hnot (List.isSuffixOf_iff_suffix.mp h)), if_neg (by omega)]
      exact ih (List.cons_ne_nil _ _) hlimit hend hfirst

theorem RequestHead.length_bytes (head : RequestHead) :
    head.bytes.length = (Text.utf8 head.text).length + 4 := by
  rw [bytes, List.length_append]
  rfl

theorem RequestHead.read (head : RequestHead) (h : head.bytes.length ≤ headLimit + 1)
    (body : List UInt8) :
    readUntil headerTerminator headLimit [] (head.bytes ++ body) = some head.bytes := by
  have hend : headerTerminator <:+ [] ++ head.bytes := List.suffix_append _ _
  refine readUntil_first body ?_ h hend (fun k hk hsuffix => ?_)
  · intro hnil
    have hlen := head.length_bytes
    rw [hnil, List.length_nil] at hlen
    omega
  · have hle := findHeadersEnd_first head.only hsuffix
    rw [List.nil_append, head.length_bytes] at hk
    omega

theorem forwardRequest_head (svc : Service) (headers : List (String × String))
    (head : RequestHead) (h : head.bytes.length ≤ headLimit + 1) (body : List UInt8) :
    forwardRequest svc headers (head.bytes ++ body) =
      some (rewriteHead svc headers head.bytes ++ body) := by
  rw [forwardRequest, head.read h, Option.map_some, List.drop_left]

-- The two pieces after the terminator are written as lines of their own.
theorem rewriteHead_some {svc : Service} {rewrite : String}
    (h : svc.hostHeaderRewrite = some rewrite) (headers : List (String × String))
    {head : RequestHead} {first : List Char} {rest : List (List Char)}
    (hlines : head.lines = first :: rest) :
    rewriteHead svc headers head.bytes = renderLines (first :: rest.map (keptLine svc)) ++
      (crlf ++ crlf) ++ renderLines (headers.map headerLine) := by
  obtain ⟨s, hs, hpieces⟩ := head.pieces
  have hkept : keptLine svc = rewriteLine rewrite := by
    funext line
    rw [keptLine, h]
  rw [rewriteHead, h]
  simp only [hs, hpieces, hlines, List.cons_append]
  rw [hkept, List.map_append, ← List.cons_append, renderLines_append]
  rfl

theorem rewritten_not_kept {svc : Service} {rewrite : String}
    (h : svc.hostHeaderRewrite = some rewrite) {headers : List (String × String)}
    (horder : headers.Perm (configuredHeaders svc)) (head : RequestHead) :
    ¬HeadKept svc head (rewriteHead svc headers head.bytes) := by
  rintro ⟨⟨first, rest, written, hlines, -, hperm, hout⟩, -⟩
  rw [rewriteHead_some h headers hlines] at hout
  have hwritten := renderLines_perm hperm
  have hheaders := renderLines_perm (horder.map headerLine)
  have hlength := congrArg List.length hout
  simp only [renderLines_cons, renderLines_append, List.length_append, crlf, List.length_cons,
    List.length_nil] at hlength hwritten
  omega

theorem untouched_kept_iff {svc : Service} (h : svc.hostHeaderRewrite = none)
    (head : RequestHead) : HeadKept svc head head.bytes ↔ svc.requestHeaders = ∅ := by
  have hkept : keptLine svc = id := by
    funext line
    rw [keptLine, h]
    rfl
  constructor
  · rintro ⟨⟨first, rest, written, hlines, -, hperm, hout⟩, -⟩
    rw [head.rendered, hlines] at hout
    have hwritten := renderLines_perm hperm
    have hlength := congrArg List.length hout
    rw [hkept, List.map_id, renderLines_append] at hwritten
    simp only [renderLines_cons, List.length_append] at hlength hwritten
    -- Any configured header would make the head longer.
    apply AList.ext
    cases hentries : svc.requestHeaders.entries with
    | nil => rfl
    | cons e entries =>
      have hpos := renderLines_pos (headerLine (e.1, e.2))
        ((entries.map (fun e => (e.1, e.2))).map headerLine)
      rw [configuredHeaders, hentries, List.map_cons, List.map_cons] at hwritten
      omega
  · intro hempty
    obtain ⟨first, rest, hlines⟩ := List.exists_cons_of_ne_nil
      (Text.splitCrlf_ne_nil head.text.toList)
    have hconfigured : configuredHeaders svc = [] := by rw [configuredHeaders, hempty]; rfl
    refine ⟨⟨first, rest, rest, hlines, ?_, ?_, ?_⟩, fun body => ?_⟩
    · rw [hkept, List.map_id]
    · rw [hkept, List.map_id, hconfigured, List.map_nil, List.append_nil]
    · rw [head.rendered, RequestHead.lines, hlines]
    · rw [RequestHead.bytes, findHeadersEnd_append head.only, List.length_append,
        Nat.add_sub_cancel]

theorem header_rewriting_exact_iff (svc : Service) (headers : List (String × String))
    (horder : headers.Perm (configuredHeaders svc)) (head : RequestHead)
    (hlen : head.bytes.length ≤ headLimit + 1) (body : List UInt8) :
    (∃ out, HeadKept svc head out ∧
      forwardRequest svc headers (head.bytes ++ body) = some (out ++ body)) ↔
      svc.hostHeaderRewrite = none ∧ svc.requestHeaders = ∅ := by
  rw [forwardRequest_head svc headers head hlen body]
  have hout : ∀ out, some (rewriteHead svc headers head.bytes ++ body) = some (out ++ body) ↔
      rewriteHead svc headers head.bytes = out := fun out => by
    rw [Option.some.injEq, List.append_left_inj]
  simp only [hout, exists_eq_right']
  cases h : svc.hostHeaderRewrite with
  | some rewrite =>
    refine iff_of_false (rewritten_not_kept h horder head) ?_
    rintro ⟨hnone, -⟩
    cases hnone
  | none =>
    have hsame : rewriteHead svc headers head.bytes = head.bytes := by rw [rewriteHead, h]
    rw [hsame, untouched_kept_iff h head]
    exact (and_iff_right rfl).symm

def shopHead : RequestHead where
  text := "POST / HTTP/1.1\r\nHost: shop.example\r\nContent-Length: 2"
  only := by decide +kernel

def shopService (rewrite : Option String) : Service where
  name := "shop"
  ty := some "http"
  host := some "shop.example"
  hostHeaderRewrite := rewrite

-- The backend reads the two bytes after the empty line as the body: the extra line end.
theorem rewritten_head_shifts_body :
    forwardRequest (shopService (some "10.0.0.5")) [] (shopHead.bytes ++ Text.utf8 "hi") =
      some (Text.utf8 ("POST / HTTP/1.1\r\nHost: 10.0.0.5\r\nContent-Length: 2\r\n\r\n" ++
        "\r\nhi")) ∧
    ¬∃ out, HeadKept (shopService (some "10.0.0.5")) shopHead out ∧
      forwardRequest (shopService (some "10.0.0.5")) [] (shopHead.bytes ++ Text.utf8 "hi") =
        some (out ++ Text.utf8 "hi") := by
  refine ⟨by decide +kernel, ?_⟩
  rintro ⟨out, hkept, hout⟩
  rw [forwardRequest_head _ _ _ (by decide +kernel), Option.some.injEq,
    List.append_left_inj] at hout
  subst hout
  exact @rewritten_not_kept _ "10.0.0.5" rfl [] (List.Perm.refl _) shopHead hkept

theorem plain_head_kept :
    ∃ out, HeadKept (shopService none) shopHead out ∧
      forwardRequest (shopService none) [] (shopHead.bytes ++ Text.utf8 "hi") =
        some (out ++ Text.utf8 "hi") :=
  (header_rewriting_exact_iff (shopService none) [] (List.Perm.refl _) shopHead
    (by decide +kernel) (Text.utf8 "hi")).mpr ⟨rfl, rfl⟩

end Cross233.Server
