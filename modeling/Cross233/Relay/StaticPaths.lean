import Cross233.Client.StaticFiles
import Cross233.Server.Messages
import Cross233.Server.Requests

namespace Cross233.Relay

open Cross233.Protocol Cross233.Client Cross233.Server

def staticChunk (msg : Message) : StaticResponseChunk := ⟨msg.data.getD [], msg.eof.getD false⟩

-- What became of a response: not begun, sent to its end, or broken off.
inductive RelayOutcome where
  | unavailable
  | sent (bytes : List UInt8)
  | broken (bytes : List UInt8)
  deriving DecidableEq

def relayRest (sent : List UInt8) : Bool → List StaticResponseChunk → RelayOutcome
  | true, _ => .sent sent
  | false, [] => .broken sent
  | false, chunk :: responses => relayRest (sent ++ chunk.data) chunk.eof responses

-- The chunks are those that are received in time.
def relayStaticControlResponse : List StaticResponseChunk → RelayOutcome
  | [] => .unavailable
  | first :: responses =>
    if first.data = [] then .unavailable else relayRest first.data first.eof responses

-- Nothing is received where no request could be sent.
def handleStaticInbound (site : StaticSite) (unwritten : Nat) (capture : StaticRequestCapture)
    (later : List UInt8) (responses : List StaticResponseChunk) : RelayOutcome :=
  let relayed :=
    match capture.controlRequest with
    | some _ => relayStaticControlResponse responses
    | none => .unavailable
  match relayed with
  | .unavailable => .sent (site.serve unwritten (capture.replay ++ later))
  | outcome => outcome

inductive Closes : List StaticResponseChunk → Prop where
  | last {chunk : StaticResponseChunk} (heof : chunk.eof = true) : Closes [chunk]
  | more {chunk : StaticResponseChunk} {chunks : List StaticResponseChunk}
      (heof : chunk.eof = false) (h : Closes chunks) : Closes (chunk :: chunks)

def payload (chunks : List StaticResponseChunk) : List UInt8 :=
  chunks.flatMap StaticResponseChunk.data

structure Carries (chunks : List StaticResponseChunk) (response : List UInt8) : Prop where
  closes : Closes chunks
  content : payload chunks = response
  opening : ∀ chunk ∈ chunks.head?, chunk.data ≠ []

theorem Closes.append {opened chunks : List StaticResponseChunk}
    (hopen : ∀ chunk ∈ opened, chunk.eof = false) (h : Closes chunks) :
    Closes (opened ++ chunks) := by
  induction opened with
  | nil => exact h
  | cons chunk opened ih =>
    exact .more (hopen chunk List.mem_cons_self)
      (ih fun c hc => hopen c (List.mem_cons_of_mem _ hc))

@[simp] theorem payload_nil : payload [] = [] := rfl

@[simp] theorem payload_cons (chunk : StaticResponseChunk) (chunks : List StaticResponseChunk) :
    payload (chunk :: chunks) = chunk.data ++ payload chunks := rfl

theorem payload_append (chunks rest : List StaticResponseChunk) :
    payload (chunks ++ rest) = payload chunks ++ payload rest := List.flatMap_append

theorem relayRest_closes {chunks : List StaticResponseChunk} (h : Closes chunks)
    (sent : List UInt8) : relayRest sent false chunks = .sent (sent ++ payload chunks) := by
  induction h generalizing sent with
  | last heof => simp [relayRest, heof]
  | more heof _ ih => simp [relayRest, heof, ih]

-- A response that is cut short has begun as the whole one does.
theorem relayRest_received {chunks responses : List StaticResponseChunk} (h : Closes chunks)
    (hreceived : responses <+: chunks) (sent : List UInt8) :
    relayRest sent false responses = .sent (sent ++ payload chunks) ∨
      ∃ part, part <+: sent ++ payload chunks ∧ relayRest sent false responses = .broken part := by
  induction h generalizing responses sent with
  | @last chunk heof =>
    cases responses with
    | nil => exact .inr ⟨sent, List.prefix_append _ _, rfl⟩
    | cons first responses =>
      obtain ⟨rfl, -⟩ := List.cons_prefix_cons.mp hreceived
      exact .inl (by simp [relayRest, heof])
  | @more chunk chunks heof _ ih =>
    cases responses with
    | nil => exact .inr ⟨sent, List.prefix_append _ _, rfl⟩
    | cons first responses =>
      obtain ⟨rfl, htail⟩ := List.cons_prefix_cons.mp hreceived
      rw [relayRest, heof, payload_cons, ← List.append_assoc]
      exact ih htail (sent ++ first.data)

theorem relayStaticControlResponse_cons {first : StaticResponseChunk} (hdata : first.data ≠ [])
    (responses : List StaticResponseChunk) :
    relayStaticControlResponse (first :: responses) = relayRest [] false (first :: responses) := by
  rw [relayStaticControlResponse, if_neg hdata, relayRest, List.nil_append]

theorem Carries.relayed {chunks : List StaticResponseChunk} {response : List UInt8}
    (h : Carries chunks response) : relayStaticControlResponse chunks = .sent response := by
  obtain ⟨hcloses, rfl, hopening⟩ := h
  cases chunks with
  | nil => cases hcloses
  | cons first responses =>
    rw [relayStaticControlResponse_cons (hopening first rfl), relayRest_closes hcloses,
      List.nil_append]

theorem Carries.received {chunks responses : List StaticResponseChunk} {response : List UInt8}
    (h : Carries chunks response) (hreceived : responses <+: chunks) :
    relayStaticControlResponse responses = .unavailable ∨
      relayStaticControlResponse responses = .sent response ∨
      ∃ part, part <+: response ∧ relayStaticControlResponse responses = .broken part := by
  obtain ⟨hcloses, rfl, hopening⟩ := h
  cases responses with
  | nil => exact .inl rfl
  | cons first responses =>
    have hfirst : first ∈ chunks.head? := by
      obtain ⟨rest, rfl⟩ := hreceived
      rfl
    rw [relayStaticControlResponse_cons (hopening first hfirst)]
    exact .inr (relayRest_received hcloses hreceived [])

def chunkOf (last : Bool) (count index : Nat) (piece : List UInt8) : StaticResponseChunk :=
  ⟨piece, last && index + 1 = count⟩

def chunksOfPieces (last : Bool) (pieces : List (List UInt8)) : List StaticResponseChunk :=
  pieces.mapIdx (chunkOf last pieces.length)

theorem payload_chunksOfPieces (last : Bool) (pieces : List (List UInt8)) :
    payload (chunksOfPieces last pieces) = pieces.flatten := by
  have hdata : (chunksOfPieces last pieces).map StaticResponseChunk.data = pieces := by
    rw [chunksOfPieces, Chunks.map_mapIdx]
    exact Chunks.mapIdx_const pieces
  rw [payload, List.flatMap_def, hdata]

theorem closes_chunksOfPieces {pieces : List (List UInt8)} (h : pieces ≠ []) :
    Closes (chunksOfPieces true pieces) := by
  obtain ⟨before, last, rfl⟩ := (List.eq_nil_or_concat pieces).resolve_left h
  rw [List.concat_eq_append, chunksOfPieces, List.mapIdx_concat]
  refine Closes.append ?_ (.last ?_)
  · intro chunk hchunk
    obtain ⟨index, hindex, rfl⟩ := List.mem_mapIdx.mp hchunk
    simp only [chunkOf, List.length_append, List.length_singleton, Bool.true_and,
      decide_eq_false_iff_not]
    omega
  · simp [chunkOf]

theorem open_chunksOfPieces {pieces : List (List UInt8)} {chunk : StaticResponseChunk}
    (h : chunk ∈ chunksOfPieces false pieces) : chunk.eof = false := by
  obtain ⟨index, hindex, rfl⟩ := List.mem_mapIdx.mp h
  rfl

theorem sendStaticResponseBytes_chunks (requestId : String) {bytes : List UInt8}
    (hbytes : bytes ≠ []) (last : Bool) :
    (sendStaticResponseBytes requestId bytes last).map staticChunk =
      chunksOfPieces last (Chunks.chunksOf controlResponseChunkBytes bytes) := by
  rw [sendStaticResponseBytes, if_neg hbytes]
  dsimp only
  rw [Chunks.map_mapIdx]
  rfl

section Bytes

variable {bytes : List UInt8}

theorem pieces_ne_nil (hbytes : bytes ≠ []) :
    Chunks.chunksOf controlResponseChunkBytes bytes ≠ [] :=
  List.length_pos_iff.mp (Chunks.length_chunksOf_pos (by decide) hbytes)

theorem payload_sendStaticResponseBytes (requestId : String) (hbytes : bytes ≠ []) (last : Bool) :
    payload ((sendStaticResponseBytes requestId bytes last).map staticChunk) = bytes := by
  rw [sendStaticResponseBytes_chunks requestId hbytes, payload_chunksOfPieces]
  exact Chunks.flatten_chunksOf (by decide) bytes

theorem opening_sendStaticResponseBytes (requestId : String) (hbytes : bytes ≠ []) (last : Bool)
    (rest : List StaticResponseChunk) {chunk : StaticResponseChunk}
    (h : chunk ∈ ((sendStaticResponseBytes requestId bytes last).map staticChunk ++ rest).head?) :
    chunk.data ≠ [] := by
  rw [sendStaticResponseBytes_chunks requestId hbytes] at h
  obtain ⟨piece, pieces, hpieces⟩ := List.exists_cons_of_ne_nil (pieces_ne_nil hbytes)
  have hmem : piece ∈ Chunks.chunksOf controlResponseChunkBytes bytes := by
    rw [hpieces]
    exact List.mem_cons_self
  rw [hpieces, chunksOfPieces, List.mapIdx_cons] at h
  cases h
  exact Chunks.ne_nil_of_mem_chunksOf (by decide) hmem

theorem bytes_carried (requestId : String) (hbytes : bytes ≠ []) :
    Carries ((sendStaticResponseBytes requestId bytes true).map staticChunk) bytes where
  closes := by
    rw [sendStaticResponseBytes_chunks requestId hbytes]
    exact closes_chunksOfPieces (pieces_ne_nil hbytes)
  content := payload_sendStaticResponseBytes requestId hbytes true
  opening chunk h :=
    opening_sendStaticResponseBytes requestId hbytes true [] (by rwa [List.append_nil])

end Bytes

theorem sendStaticResponseBytes_fits (requestId : String) {bytes : List UInt8} {last : Bool}
    {msg : Message} (h : msg ∈ sendStaticResponseBytes requestId bytes last) :
    (staticChunk msg).data.length ≤ staticResponseChunkMax := by
  unfold sendStaticResponseBytes at h
  split at h
  · cases List.mem_singleton.mp h
    exact Nat.zero_le _
  · obtain ⟨index, hindex, rfl⟩ := List.mem_mapIdx.mp h
    exact Chunks.length_le_of_mem_chunksOf (List.getElem_mem hindex)

-- The server refuses no message of a response for its size.
theorem sendStaticControlResponse_fits {site : StaticSite} {requestId : String}
    {request : List UInt8} {msg : Message}
    (h : msg ∈ sendStaticControlResponse site requestId request) :
    (staticChunk msg).data.length ≤ staticResponseChunkMax := by
  unfold sendStaticControlResponse at h
  split at h
  · exact sendStaticResponseBytes_fits requestId h
  · next headers file _ =>
    rcases List.mem_append.mp h with h | h
    · rcases List.mem_append.mp h with h | h
      · exact sendStaticResponseBytes_fits requestId h
      · obtain ⟨piece, hpiece, rfl⟩ := List.mem_map.mp h
        exact file.bounded piece hpiece
    · cases List.mem_singleton.mp h
      exact Nat.zero_le _

theorem file_carried (requestId : String) {headers : List UInt8} (hheaders : headers ≠ [])
    (file : OpenFile) :
    Carries ((sendStaticResponseBytes requestId headers false ++
        file.reads.map (fun chunk => Message.newStaticResponse requestId chunk false) ++
        [Message.newStaticResponse requestId [] true]).map staticChunk)
      (headers ++ file.content) := by
  rw [List.map_append, List.map_append, List.map_map, List.append_assoc]
  refine ⟨?_, ?_, fun chunk h => opening_sendStaticResponseBytes requestId hheaders false _ h⟩
  · refine Closes.append ?_ (Closes.append ?_ (.last rfl))
    · intro chunk hchunk
      rw [sendStaticResponseBytes_chunks requestId hheaders] at hchunk
      exact open_chunksOfPieces hchunk
    · intro chunk hchunk
      obtain ⟨piece, -, rfl⟩ := List.mem_map.mp hchunk
      rfl
  · have hreads : payload (file.reads.map
        (staticChunk ∘ fun chunk => Message.newStaticResponse requestId chunk false)) =
          file.content := by
      rw [payload, List.flatMap_map, OpenFile.content]
      exact List.flatMap_id
    rw [payload_append, payload_append, payload_sendStaticResponseBytes requestId hheaders, hreads]
    exact congrArg (headers ++ ·) (List.append_nil _)

theorem response_carried (site : StaticSite) (requestId : String) (request : List UInt8) :
    Carries ((sendStaticControlResponse site requestId request).map staticChunk)
      (site.prepareControlResponse request).content := by
  have hopening := site.prepareControlResponse_opening request
  unfold sendStaticControlResponse
  cases hresponse : site.prepareControlResponse request with
  | bytes response =>
    rw [hresponse, ControlResponse.opening] at hopening
    exact bytes_carried requestId hopening
  | file headers file =>
    rw [hresponse, ControlResponse.opening] at hopening
    exact file_carried requestId hopening file

section Replay

variable {data : List UInt8} {n : Nat}

-- The byte that completes the block is the first after which the headers end.
theorem readRequest_headers (h : findHeadersEnd data = some n) (hmax : n + 4 ≤ maxHeaderBytes)
    {bytes tunnel : List UInt8} (hdata : bytes ++ tunnel = data) (hlen : bytes.length < n + 4) :
    readRequest bytes tunnel = parseRequest (data.take (n + 4)) := by
  induction tunnel generalizing bytes with
  | nil =>
    have hle := findHeadersEnd_le h
    rw [← hdata, List.append_nil] at hle
    omega
  | cons byte tunnel ih =>
    have hbytes : bytes ++ [byte] ++ tunnel = data := by
      rw [← hdata, List.append_assoc, List.singleton_append]
    have htake : data.take (bytes.length + 1) = bytes ++ [byte] := by
      rw [← hbytes, List.take_left' (by simp)]
    unfold readRequest
    rw [if_neg (by omega)]
    dsimp only
    by_cases hend : requestEnd.isSuffixOf (bytes ++ [byte]) = true
    · have hfirst : n + 4 ≤ bytes.length + 1 :=
        findHeadersEnd_first h (htake ▸ List.isSuffixOf_iff_suffix.mp hend)
      have hn : n + 4 = bytes.length + 1 := by omega
      rw [if_pos hend, hn, htake]
    · rw [if_neg hend]
      refine ih hbytes ?_
      have hne : n + 4 ≠ bytes.length + 1 := by
        intro hn
        have hsuffix := findHeadersEnd_take h
        rw [hn, htake] at hsuffix
        exact hend (List.isSuffixOf_iff_suffix.mpr hsuffix)
      rw [List.length_append, List.length_singleton]
      omega

theorem readRequest_replayed {reads : Nat} {stream : PeerStream} {request replay : List UInt8}
    (h : captureStaticRequestHeaders reads [] stream = some ⟨some request, replay⟩)
    (later : List UInt8) : readRequest [] (replay ++ later) = parseRequest request := by
  obtain ⟨n, hfind, hmax, rfl⟩ := captureStaticRequestHeaders_some h
  have hle := findHeadersEnd_le hfind
  have hheader : n + 4 ≤ maxHeaderBytes := Nat.le_trans hmax (by decide)
  have hread : readRequest [] (replay ++ later) = parseRequest ((replay ++ later).take (n + 4)) :=
    readRequest_headers (findHeadersEnd_append hfind later) hheader (List.nil_append _)
      (Nat.succ_pos _)
  rw [hread, List.take_append_of_le_length hle]

end Replay

theorem static_paths_agree (site : StaticSite) (requestId : String) (unwritten : Nat)
    (later : List UInt8) {reads : Nat} {stream : PeerStream} {request replay : List UInt8}
    (hcapture : captureStaticRequestHeaders reads [] stream = some ⟨some request, replay⟩) :
    let control := (sendStaticControlResponse site requestId request).map staticChunk
    let answer := site.serve unwritten (replay ++ later)
    (site.Oversized request →
      relayStaticControlResponse control = .sent StaticSite.tooLarge) ∧
    (¬site.Oversized request → site.Readable request →
      relayStaticControlResponse control = .sent answer ∧
      ∀ responses, responses <+: control →
        handleStaticInbound site unwritten ⟨some request, replay⟩ later responses = .sent answer ∨
        ∃ part, part <+: answer ∧
          handleStaticInbound site unwritten ⟨some request, replay⟩ later responses =
            .broken part) := by
  intro control answer
  have hcarried : Carries control (site.prepareControlResponse request).content :=
    response_carried site requestId request
  refine ⟨fun hsize => ?_, fun hsize hread => ?_⟩
  · rw [hcarried.relayed, StaticSite.prepareControlResponse_oversized hsize]
    rfl
  · have hanswer : (site.prepareControlResponse request).content = answer := by
      rw [StaticSite.prepareControlResponse_content hsize hread unwritten,
        ← readRequest_replayed hcapture later, ← StaticSite.serve_eq]
    rw [hanswer] at hcarried
    refine ⟨hcarried.relayed, fun responses hreceived => ?_⟩
    unfold handleStaticInbound
    rcases hcarried.received hreceived with hnone | hsent | ⟨part, hpart, hbroken⟩
    · exact .inl (by simp only [hnone]; rfl)
    · exact .inl (by simp only [hsent])
    · exact .inr ⟨part, hpart, by simp only [hbroken]⟩

def siteRoot : PathBuf := [Text.utf8 "site"]

def siteIndex : PathBuf := siteRoot ++ [indexHtml]

def indexSite (len : UInt64) (file : OpenFile) : StaticSite where
  fs := {
    canonicalize := fun text =>
      if text = pathText siteRoot then some siteRoot
      else if text = pathText siteIndex then some siteIndex
      else none
    metadata := fun text =>
      if text = pathText siteRoot then some ⟨true, false, 4096⟩
      else if text = pathText siteIndex then some ⟨false, true, len⟩
      else none
    openFile := fun text => if text = pathText siteIndex then some file else none }
  mime := fun _ => "text/html"
  root := pathText siteRoot

theorem indexSite_openFile (len : UInt64) (file : OpenFile) :
    (indexSite len file).fs.openFile (pathText siteIndex) = some file := by
  simp [indexSite]

def getIndex : List UInt8 := Text.utf8 "GET / HTTP/1.1\r\n\r\n"

def helloFile : OpenFile where
  reads := [Text.utf8 "hello"]
  failed := false
  nonempty := by decide +kernel
  bounded := by decide +kernel

def zeroFile : OpenFile where
  reads := List.replicate 2049 (List.replicate controlResponseChunkBytes 0)
  failed := false
  nonempty := by
    intro chunk hchunk
    rw [List.eq_of_mem_replicate hchunk]
    exact List.ne_nil_of_length_pos (by rw [List.length_replicate]; decide)
  bounded := by
    intro chunk hchunk
    rw [List.eq_of_mem_replicate hchunk, List.length_replicate]

def helloSite : StaticSite := indexSite 5 helloFile

def zeroSite : StaticSite := indexSite 16785408 zeroFile

theorem zeroFile_length : zeroFile.content.length = 16785408 := by
  rw [OpenFile.content, zeroFile, List.flatten_replicate_replicate, List.length_replicate]
  rfl

theorem getIndex_captured :
    captureStaticRequestHeaders 1 [] ⟨[getIndex], .silent⟩ = some ⟨some getIndex, getIndex⟩ := by
  decide +kernel

theorem helloSite_located :
    helloSite.locate (parseRequest getIndex) = .found "GET" siteIndex ⟨false, true, 5⟩ := by
  decide +kernel

theorem zeroSite_located :
    zeroSite.locate (parseRequest getIndex) = .found "GET" siteIndex ⟨false, true, 16785408⟩ := by
  decide +kernel

theorem helloSite_fits : ¬helloSite.Oversized getIndex := by
  rintro ⟨method, path, metadata, hlocate, hlen⟩
  rw [helloSite_located] at hlocate
  cases hlocate
  exact absurd hlen (by decide)

theorem helloSite_readable : helloSite.Readable getIndex := by
  intro path metadata hlocate
  rw [helloSite_located] at hlocate
  cases hlocate
  exact ⟨helloFile, indexSite_openFile 5 helloFile, rfl⟩

theorem zeroSite_oversized : zeroSite.Oversized getIndex :=
  ⟨_, _, _, zeroSite_located, by decide⟩

theorem index_served_either_way :
    relayStaticControlResponse
        ((sendStaticControlResponse helloSite "r0" getIndex).map staticChunk) =
      .sent (helloSite.serve 0 getIndex) ∧
    relayStaticControlResponse
        ((sendStaticControlResponse zeroSite "r0" getIndex).map staticChunk) =
      .sent StaticSite.tooLarge :=
  ⟨((static_paths_agree helloSite "r0" 0 [] getIndex_captured).2 helloSite_fits
      helloSite_readable).1,
    (static_paths_agree zeroSite "r0" 0 [] getIndex_captured).1 zeroSite_oversized⟩

theorem status_differs (len : UInt64) (contentType : String) (content : List UInt8) :
    StaticSite.tooLarge ≠ okHeaders len contentType ++ content := by
  intro h
  have hrefused : StaticSite.tooLarge[9]? = some 52 := by decide +kernel
  have hserved : (okHeaders len contentType ++ content)[9]? = some 50 := by
    simp only [okHeaders, Text.utf8_append, List.append_assoc]
    rw [List.getElem?_append_left (by decide +kernel)]
    decide +kernel
  rw [h, hserved] at hrefused
  exact absurd hrefused (by decide)

-- The tunnel carries the file that the control channel refuses.
theorem zero_file_depends_on_relay :
    captureStaticRequestHeaders 1 [] ⟨[getIndex], .silent⟩ = some ⟨some getIndex, getIndex⟩ ∧
    zeroFile.content.length = 16785408 ∧
    relayStaticControlResponse
        ((sendStaticControlResponse zeroSite "r0" getIndex).map staticChunk) ≠
      .sent (zeroSite.serve 0 getIndex) := by
  refine ⟨getIndex_captured, zeroFile_length, ?_⟩
  have hserve : zeroSite.serve 0 getIndex =
      okHeaders 16785408 "text/html" ++ zeroFile.copied 0 := by
    have hread := readRequest_replayed getIndex_captured []
    rw [List.append_nil] at hread
    rw [StaticSite.serve_eq, hread, zeroSite_located, StaticSite.served, if_pos rfl, zeroSite,
      indexSite_openFile]
    rfl
  rw [(response_carried zeroSite "r0" getIndex).relayed,
    StaticSite.prepareControlResponse_oversized zeroSite_oversized, hserve]
  intro hsent
  injection hsent with hbytes
  exact status_differs _ _ _ hbytes

end Cross233.Relay
