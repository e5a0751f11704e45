import Cross233.Library.Chunks
import Cross233.Library.Text
import Cross233.Protocol.Msg

namespace Cross233.Client

open Protocol

def maxHeaderBytes : Nat := 16 * 1024

def controlResponseChunkBytes : Nat := 8 * 1024

def maxControlResponseBytes : UInt64 := 16 * 1024 * 1024

abbrev OsString := List UInt8

abbrev PathBuf := List OsString

def slash : UInt8 := 47

def pathText (path : PathBuf) : OsString :=
  if path = [] then [slash] else path.flatMap (slash :: ·)

structure Metadata where
  isDir : Bool
  isFile : Bool
  len : UInt64
  deriving DecidableEq

structure OpenFile where
  reads : List (List UInt8)
  failed : Bool
  nonempty : ∀ chunk ∈ reads, chunk ≠ []
  bounded : ∀ chunk ∈ reads, chunk.length ≤ controlResponseChunkBytes

def OpenFile.content (file : OpenFile) : List UInt8 := file.reads.flatten

-- A copy that fails has not written all that it had read.
def OpenFile.copied (file : OpenFile) (unwritten : Nat) : List UInt8 :=
  if file.failed then file.content.take (file.content.length - unwritten) else file.content

structure FileSystem where
  canonicalize : OsString → Option PathBuf
  metadata : OsString → Option Metadata
  openFile : OsString → Option OpenFile

namespace FileSystem

def isDir (fs : FileSystem) (path : PathBuf) : Bool :=
  (fs.metadata (pathText path)).any Metadata.isDir

def isFile (fs : FileSystem) (path : PathBuf) : Bool :=
  (fs.metadata (pathText path)).any Metadata.isFile

end FileSystem

def requestEnd : List UInt8 := [13, 10, 13, 10]

def parseRequest (bytes : List UInt8) : Except String (String × String) :=
  if requestEnd.isSuffixOf bytes = false then .error "incomplete HTTP headers"
  else
    match Text.fromUtf8 bytes with
    | none => .error "HTTP headers are not UTF-8"
    | some headers =>
      match Text.splitCrlf headers.toList with
      | [] => .error "missing request line"
      | requestLine :: _ =>
        match Text.splitWhitespace requestLine with
        | [] => .error "missing HTTP method"
        | [_] => .error "missing HTTP target"
        | [_, _] => .error "missing HTTP version"
        | method :: target :: _ :: _ =>
          .ok (String.ofList (Text.toAsciiUpper method), String.ofList target)

def readRequest (bytes tunnel : List UInt8) : Except String (String × String) :=
  if maxHeaderBytes ≤ bytes.length then .error "HTTP headers exceed 16384 bytes"
  else
    match tunnel with
    | [] => .error "connection closed before HTTP headers"
    | byte :: tunnel =>
      let bytes := bytes ++ [byte]
      if requestEnd.isSuffixOf bytes then parseRequest bytes else readRequest bytes tunnel

def hexValue (value : UInt8) : Option UInt8 :=
  if 48 ≤ value ∧ value ≤ 57 then some (value - 48)
  else if 97 ≤ value ∧ value ≤ 102 then some (value - 97 + 10)
  else if 65 ≤ value ∧ value ≤ 70 then some (value - 65 + 10)
  else none

def decodeBytes : List UInt8 → Option (List UInt8)
  | [] => some []
  | 37 :: high :: low :: bytes => do
    let high ← hexValue high
    let low ← hexValue low
    let output ← decodeBytes bytes
    some ((high <<< 4 ||| low) :: output)
  | 37 :: _ => none
  | byte :: bytes => (decodeBytes bytes).map (byte :: ·)

def percentDecode (input : String) : Option String :=
  (decodeBytes (Text.utf8 input)).bind Text.fromUtf8

example : percentDecode "/hello%20world.txt" = some "/hello world.txt" := by decide +kernel
example : percentDecode "/%ZZ" = none := by decide +kernel

inductive Component where
  | normal (part : OsString)
  | curDir
  | parentDir
  | rootDir
  deriving DecidableEq

def component (part : List Char) : Option Component :=
  if part = [] ∨ part = ['.'] then none
  else if part = ['.', '.'] then some .parentDir
  else some (.normal (Text.utf8 (String.ofList part)))

-- A dot counts only at the start of a relative path.
def components (path : List Char) : List Component :=
  let first : List Component :=
    match path with
    | '/' :: _ => [.rootDir]
    | ['.'] => [.curDir]
    | '.' :: '/' :: _ => [.curDir]
    | _ => []
  first ++ (path.splitOn '/').filterMap component

inductive PathError where
  | badRequest
  | notFound
  deriving DecidableEq

def pushComponents (relative : PathBuf) : List Component → Except PathError PathBuf
  | [] => .ok relative
  | .normal part :: rest => pushComponents (relative ++ [part]) rest
  | .curDir :: rest => pushComponents relative rest
  | .parentDir :: _ => .error .badRequest
  | .rootDir :: _ => .error .badRequest

def indexHtml : OsString := Text.utf8 "index.html"

def candidate (fs : FileSystem) (root relative : PathBuf) (wantsIndex : Bool) : PathBuf :=
  let candidate := root ++ relative
  if wantsIndex || fs.isDir candidate then candidate ++ [indexHtml] else candidate

def resolvePath (fs : FileSystem) (root : PathBuf) (target : String) : Except PathError PathBuf :=
  let rawPath := (Text.splitOnce '?' target.toList).elim target.toList Prod.fst
  if rawPath.head? ≠ some '/' then .error .badRequest
  else
    match percentDecode (String.ofList rawPath) with
    | none => .error .badRequest
    | some decoded =>
      if '\x00' ∈ decoded.toList ∨ '\\' ∈ decoded.toList then .error .badRequest
      else do
        let relative ← pushComponents [] (components (decoded.toList.dropWhile (· = '/')))
        let wantsIndex := decoded.toList.getLast? = some '/'
        match fs.canonicalize (pathText (candidate fs root relative wantsIndex)) with
        | none => .error .notFound
        | some canonical =>
          if root.isPrefixOf canonical && fs.isFile canonical then .ok canonical
          else .error .notFound

def errorResponse (status : Nat) (reason body : String) : List UInt8 :=
  Text.utf8 ("HTTP/1.1 " ++ toString status ++ " " ++ reason ++ "\r\nContent-Length: " ++
    toString (Text.utf8 body).length ++
    "\r\nContent-Type: text/plain; charset=utf-8\r\nConnection: close\r\n\r\n" ++ body)

def okHeaders (len : UInt64) (contentType : String) : List UInt8 :=
  Text.utf8 ("HTTP/1.1 200 OK\r\nContent-Length: " ++ toString len.toNat ++
    "\r\nContent-Type: " ++ contentType ++
    "\r\nX-Content-Type-Options: nosniff\r\nConnection: close\r\n\r\n")

-- The guess for the type of a file by its name comes from outside.
structure StaticSite where
  fs : FileSystem
  mime : PathBuf → String
  root : OsString

inductive ControlResponse where
  | bytes (response : List UInt8)
  | file (headers : List UInt8) (file : OpenFile)

namespace StaticSite

def serve (site : StaticSite) (unwritten : Nat) (tunnel : List UInt8) : List UInt8 :=
  match readRequest [] tunnel with
  | .error _ => errorResponse 400 "Bad Request" "bad request"
  | .ok (method, target) =>
    if method ≠ "GET" ∧ method ≠ "HEAD" then
      errorResponse 405 "Method Not Allowed" "only GET and HEAD are supported"
    else
      match site.fs.canonicalize site.root with
      | none => errorResponse 500 "Internal Server Error" "static root is unavailable"
      | some root =>
        if site.fs.isDir root = false then
          errorResponse 500 "Internal Server Error" "static root is not a directory"
        else
          match resolvePath site.fs root target with
          | .error .badRequest => errorResponse 400 "Bad Request" "invalid path"
          | .error .notFound => errorResponse 404 "Not Found" "not found"
          | .ok path =>
            match (site.fs.metadata (pathText path)).filter Metadata.isFile with
            | none => errorResponse 404 "Not Found" "not found"
            | some metadata =>
              let headers := okHeaders metadata.len (site.mime path)
              if method = "GET" then
                match site.fs.openFile (pathText path) with
                | none => headers
                | some file => headers ++ file.copied unwritten
              else headers

def prepareControlResponse (site : StaticSite) (request : List UInt8) : ControlResponse :=
  match parseRequest request with
  | .error _ => .bytes (errorResponse 400 "Bad Request" "bad request")
  | .ok (method, target) =>
    if method ≠ "GET" ∧ method ≠ "HEAD" then
      .bytes (errorResponse 405 "Method Not Allowed" "only GET and HEAD are supported")
    else
      match site.fs.canonicalize site.root with
      | none => .bytes (errorResponse 500 "Internal Server Error" "static root is unavailable")
      | some root =>
        if site.fs.isDir root = false then
          .bytes (errorResponse 500 "Internal Server Error" "static root is not a directory")
        else
          match resolvePath site.fs root target with
          | .error .badRequest => .bytes (errorResponse 400 "Bad Request" "invalid path")
          | .error .notFound => .bytes (errorResponse 404 "Not Found" "not found")
          | .ok path =>
            match (site.fs.metadata (pathText path)).filter Metadata.isFile with
            | none => .bytes (errorResponse 404 "Not Found" "not found")
            | some metadata =>
              if maxControlResponseBytes < metadata.len then
                .bytes (errorResponse 413 "Payload Too Large"
                  "static response exceeds control relay limit")
              else
                let headers := okHeaders metadata.len (site.mime path)
                if method = "HEAD" then .bytes headers
                else
                  match site.fs.openFile (pathText path) with
                  | some file => .file headers file
                  | none => .bytes (errorResponse 404 "Not Found" "not found")

end StaticSite

def sendStaticResponseBytes (requestId : String) (bytes : List UInt8) (finalChunk : Bool) :
    List Message :=
  if bytes = [] then [.newStaticResponse requestId [] finalChunk]
  else
    let chunks := Chunks.chunksOf controlResponseChunkBytes bytes
    chunks.mapIdx fun index chunk =>
      .newStaticResponse requestId chunk (finalChunk && index + 1 = chunks.length)

-- A failed read ends the response as the end of the file does.
def sendStaticControlResponse (site : StaticSite) (requestId : String) (request : List UInt8) :
    List Message :=
  match site.prepareControlResponse request with
  | .bytes response => sendStaticResponseBytes requestId response true
  | .file headers file =>
    sendStaticResponseBytes requestId headers false ++
      file.reads.map (fun chunk => .newStaticResponse requestId chunk false) ++
      [.newStaticResponse requestId [] true]

inductive Located where
  | refused (status : Nat) (reason body : String)
  | found (method : String) (path : PathBuf) (metadata : Metadata)
  deriving DecidableEq

namespace StaticSite

def locatePath (site : StaticSite) (method : String) :
    Except PathError PathBuf → Located
  | .error .badRequest => .refused 400 "Bad Request" "invalid path"
  | .error .notFound => .refused 404 "Not Found" "not found"
  | .ok path =>
    match (site.fs.metadata (pathText path)).filter Metadata.isFile with
    | none => .refused 404 "Not Found" "not found"
    | some metadata => .found method path metadata

def locate (site : StaticSite) : Except String (String × String) → Located
  | .error _ => .refused 400 "Bad Request" "bad request"
  | .ok (method, target) =>
    if method ≠ "GET" ∧ method ≠ "HEAD" then
      .refused 405 "Method Not Allowed" "only GET and HEAD are supported"
    else
      match site.fs.canonicalize site.root with
      | none => .refused 500 "Internal Server Error" "static root is unavailable"
      | some root =>
        if site.fs.isDir root = false then
          .refused 500 "Internal Server Error" "static root is not a directory"
        else site.locatePath method (resolvePath site.fs root target)

def served (site : StaticSite) (unwritten : Nat) : Located → List UInt8
  | .refused status reason body => errorResponse status reason body
  | .found method path metadata =>
    let headers := okHeaders metadata.len (site.mime path)
    if method = "GET" then
      match site.fs.openFile (pathText path) with
      | none => headers
      | some file => headers ++ file.copied unwritten
    else headers

def prepared (site : StaticSite) : Located → ControlResponse
  | .refused status reason body => .bytes (errorResponse status reason body)
  | .found method path metadata =>
    if maxControlResponseBytes < metadata.len then
      .bytes (errorResponse 413 "Payload Too Large" "static response exceeds control relay limit")
    else
      let headers := okHeaders metadata.len (site.mime path)
      if method = "HEAD" then .bytes headers
      else
        match site.fs.openFile (pathText path) with
        | some file => .file headers file
        | none => .bytes (errorResponse 404 "Not Found" "not found")

theorem respond_locate {A : Type} (site : StaticSite) (respond : Located → A)
    (parsed : Except String (String × String)) :
    respond (site.locate parsed) =
      match parsed with
      | .error _ => respond (.refused 400 "Bad Request" "bad request")
      | .ok (method, target) =>
        if method ≠ "GET" ∧ method ≠ "HEAD" then
          respond (.refused 405 "Method Not Allowed" "only GET and HEAD are supported")
        else
          match site.fs.canonicalize site.root with
          | none => respond (.refused 500 "Internal Server Error" "static root is unavailable")
          | some root =>
            if site.fs.isDir root = false then
              respond (.refused 500 "Internal Server Error" "static root is not a directory")
            else
              match resolvePath site.fs root target with
              | .error .badRequest => respond (.refused 400 "Bad Request" "invalid path")
              | .error .notFound => respond (.refused 404 "Not Found" "not found")
              | .ok path =>
                match (site.fs.metadata (pathText path)).filter Metadata.isFile with
                | none => respond (.refused 404 "Not Found" "not found")
                | some metadata => respond (.found method path metadata) := by
  cases parsed with
  | error => rfl
  | ok request =>
    obtain ⟨method, target⟩ := request
    simp only [locate]
    split
    · rfl
    · cases site.fs.canonicalize site.root with
      | none => rfl
      | some root =>
        dsimp only
        split
        · rfl
        · cases resolvePath site.fs root target with
          | error e => cases e <;> rfl
          | ok path =>
            simp only [locatePath]
            cases (site.fs.metadata (pathText path)).filter Metadata.isFile <;> rfl

theorem serve_eq (site : StaticSite) (unwritten : Nat) (tunnel : List UInt8) :
    site.serve unwritten tunnel = site.served unwritten (site.locate (readRequest [] tunnel)) :=
  (site.respond_locate (site.served unwritten) _).symm

theorem prepareControlResponse_eq (site : StaticSite) (request : List UInt8) :
    site.prepareControlResponse request = site.prepared (site.locate (parseRequest request)) :=
  (site.respond_locate site.prepared _).symm

theorem locatePath_method {site : StaticSite} {given method : String} {path : PathBuf}
    {resolved : Except PathError PathBuf} {metadata : Metadata}
    (h : site.locatePath given resolved = .found method path metadata) : given = method := by
  unfold locatePath at h
  split at h
  · cases h
  · cases h
  · split at h
    · cases h
    · cases h
      rfl

theorem locate_method {site : StaticSite} {parsed : Except String (String × String)}
    {method : String} {path : PathBuf} {metadata : Metadata}
    (h : site.locate parsed = .found method path metadata) : method = "GET" ∨ method = "HEAD" := by
  unfold locate at h
  split at h
  · cases h
  · split at h
    · cases h
    · next hmethod =>
      split at h
      · cases h
      · split at h
        · cases h
        · rw [locatePath_method h] at hmethod
          grind

end StaticSite

def ControlResponse.content : ControlResponse → List UInt8
  | .bytes response => response
  | .file headers opened => headers ++ opened.content

def ControlResponse.opening : ControlResponse → List UInt8
  | .bytes response => response
  | .file headers _ => headers

theorem utf8_httpVersion : Text.utf8 "HTTP/1.1 " ≠ [] := by decide +kernel

theorem errorResponse_ne_nil (status : Nat) (reason body : String) :
    errorResponse status reason body ≠ [] := by
  simp [errorResponse, Text.utf8_append, utf8_httpVersion]

theorem okHeaders_ne_nil (len : UInt64) (contentType : String) :
    okHeaders len contentType ≠ [] := by
  have hstatus : Text.utf8 "HTTP/1.1 200 OK\r\nContent-Length: " ≠ [] := by decide +kernel
  simp [okHeaders, Text.utf8_append, hstatus]

namespace StaticSite

theorem prepared_opening (site : StaticSite) (located : Located) :
    (site.prepared located).opening ≠ [] := by
  cases located with
  | refused status reason body =>
    rw [prepared, ControlResponse.opening]
    exact errorResponse_ne_nil status reason body
  | found method path metadata =>
    rw [prepared]
    split
    · rw [ControlResponse.opening]
      exact errorResponse_ne_nil _ _ _
    · dsimp only
      split
      · rw [ControlResponse.opening]
        exact okHeaders_ne_nil _ _
      · cases site.fs.openFile (pathText path) with
        | some file =>
          rw [ControlResponse.opening]
          exact okHeaders_ne_nil _ _
        | none =>
          rw [ControlResponse.opening]
          exact errorResponse_ne_nil _ _ _

theorem prepareControlResponse_opening (site : StaticSite) (request : List UInt8) :
    (site.prepareControlResponse request).opening ≠ [] := by
  rw [prepareControlResponse_eq]
  exact site.prepared_opening _

def tooLarge : List UInt8 :=
  errorResponse 413 "Payload Too Large" "static response exceeds control relay limit"

def Oversized (site : StaticSite) (request : List UInt8) : Prop :=
  ∃ method path metadata, site.locate (parseRequest request) = .found method path metadata ∧
    maxControlResponseBytes < metadata.len

def Readable (site : StaticSite) (request : List UInt8) : Prop :=
  ∀ path metadata, site.locate (parseRequest request) = .found "GET" path metadata →
    ∃ file, site.fs.openFile (pathText path) = some file ∧ file.failed = false

theorem prepareControlResponse_oversized {site : StaticSite} {request : List UInt8}
    (h : site.Oversized request) : site.prepareControlResponse request = .bytes tooLarge := by
  obtain ⟨method, path, metadata, hlocate, hlen⟩ := h
  rw [prepareControlResponse_eq, hlocate, prepared, if_pos hlen]
  rfl

theorem prepareControlResponse_content {site : StaticSite} {request : List UInt8}
    (hsize : ¬site.Oversized request) (hread : site.Readable request) (unwritten : Nat) :
    (site.prepareControlResponse request).content =
      site.served unwritten (site.locate (parseRequest request)) := by
  rw [prepareControlResponse_eq]
  cases hlocate : site.locate (parseRequest request) with
  | refused status reason body => rfl
  | found method path metadata =>
    have hlen : ¬maxControlResponseBytes < metadata.len := fun hlt =>
      hsize ⟨method, path, metadata, hlocate, hlt⟩
    rw [prepared, if_neg hlen, served]
    rcases locate_method hlocate with rfl | rfl
    · obtain ⟨file, hfile, hfailed⟩ := hread path metadata hlocate
      have hcopied : file.copied unwritten = file.content := by simp [OpenFile.copied, hfailed]
      rw [if_neg (by decide), if_pos rfl, hfile]
      simp only [ControlResponse.content, hcopied]
    · rw [if_pos rfl, if_neg (by decide), ControlResponse.content]

end StaticSite

end Cross233.Client
