import Cross233.Server.HelloReads

namespace Cross233.Server

open Relay.Server (relayInboundTunnel)

def ShortestHeaders (bytes request : List UInt8) : Prop :=
  request <+: bytes ∧ headerTerminator <:+ request ∧
    ∀ other, other <+: bytes → headerTerminator <:+ other → request.length ≤ other.length

def StaticHeaders (bytes request : List UInt8) : Prop :=
  ShortestHeaders bytes request ∧ request.length ≤ staticCaptureMax

-- No further byte can change what the capture answers.
def Settled (bytes : List UInt8) : Prop :=
  (∃ request, StaticHeaders bytes request) ∨ staticCaptureMax ≤ bytes.length

def PeerStream.Split (stream : PeerStream) : Prop :=
  ∀ chunk ∈ stream.reads, 1 ≤ chunk.length ∧ chunk.length ≤ 1024

inductive CaptureExit where
  | request
  | full
  | deadline
  | ended
  deriving DecidableEq

structure CaptureRun where
  exit : CaptureExit
  capture : StaticRequestCapture
  unread : PeerStream

namespace CaptureRun

def Decided (run : CaptureRun) : Prop := run.exit = .request ∨ run.exit = .full

end CaptureRun

-- The capture loop with the exit it takes and what it leaves to the copy.
def captureRun : Nat → List UInt8 → PeerStream → Option CaptureRun
  | 0, replay, stream => some ⟨.deadline, ⟨none, replay⟩, stream⟩
  | reads + 1, replay, stream =>
    match stream.read 1024 with
    | (.error .failed, _) => none
    | (.error .closed, stream) => some ⟨.ended, ⟨none, replay⟩, stream⟩
    | (.error .silent, stream) => some ⟨.deadline, ⟨none, replay⟩, stream⟩
    | (.ok chunk, stream) =>
      let replay := replay ++ chunk
      match (findHeadersEnd replay).filter (fun i => i + 4 ≤ staticCaptureMax) with
      | some i => some ⟨.request, ⟨some (replay.take (i + 4)), replay⟩, stream⟩
      | none =>
        if staticCaptureMax ≤ replay.length then some ⟨.full, ⟨none, replay⟩, stream⟩
        else captureRun reads replay stream

theorem captureRun_capture (reads : Nat) (replay : List UInt8) (stream : PeerStream) :
    (captureRun reads replay stream).map CaptureRun.capture =
      captureStaticRequestHeaders reads replay stream := by
  induction reads generalizing replay stream with
  | zero => rfl
  | succ reads ih =>
    rw [captureRun, captureStaticRequestHeaders]
    generalize stream.read 1024 = r
    obtain ⟨result, rest⟩ := r
    cases result with
    | error e => cases e <;> rfl
    | ok chunk =>
      simp only
      cases (findHeadersEnd (replay ++ chunk)).filter (fun i => i + 4 ≤ staticCaptureMax) with
      | some i => rfl
      | none =>
        simp only
        split
        · rfl
        · exact ih _ _

theorem findHeadersEnd_of_take {data : List UInt8} {k : Nat}
    (hk : headerTerminator <:+ data.take k) : ∃ n, findHeadersEnd data = some n ∧ n + 4 ≤ k := by
  obtain ⟨before, hbefore⟩ := hk
  have hdata : before ++ (headerTerminator ++ data.drop k) = data := by
    rw [← List.append_assoc, hbefore, List.take_append_drop]
  obtain ⟨n, -, hfind⟩ := findHeadersEnd_le_of_append before (data.drop k)
  rw [hdata] at hfind
  exact ⟨n, hfind, findHeadersEnd_first hfind ⟨before, hbefore⟩⟩

theorem shortestHeaders_iff {bytes request : List UInt8} :
    ShortestHeaders bytes request ↔
      ∃ n, findHeadersEnd bytes = some n ∧ request = bytes.take (n + 4) := by
  constructor
  · rintro ⟨hpre, hend, hleast⟩
    have htake : bytes.take request.length = request := (List.prefix_iff_eq_take.mp hpre).symm
    obtain ⟨n, hfind, hn⟩ := findHeadersEnd_of_take (htake.symm ▸ hend)
    refine ⟨n, hfind, ?_⟩
    have hle := hleast _ (List.take_prefix (n + 4) bytes) (findHeadersEnd_take hfind)
    have hlen : request.length = n + 4 :=
      Nat.le_antisymm (hle.trans (List.length_take_le _ _)) hn
    rw [← hlen, htake]
  · rintro ⟨n, hfind, rfl⟩
    refine ⟨List.take_prefix _ _, findHeadersEnd_take hfind, fun other hother hend => ?_⟩
    have htake : bytes.take other.length = other := (List.prefix_iff_eq_take.mp hother).symm
    have hn := findHeadersEnd_first hfind (htake.symm ▸ hend)
    exact (List.length_take_le _ _).trans hn

theorem staticHeaders_iff {bytes request : List UInt8} :
    StaticHeaders bytes request ↔
      ∃ n, findHeadersEnd bytes = some n ∧ n + 4 ≤ staticCaptureMax ∧
        request = bytes.take (n + 4) := by
  rw [StaticHeaders, shortestHeaders_iff]
  constructor
  · rintro ⟨⟨n, hfind, rfl⟩, hmax⟩
    rw [List.length_take_of_le (findHeadersEnd_le hfind)] at hmax
    exact ⟨n, hfind, hmax, rfl⟩
  · rintro ⟨n, hfind, hmax, rfl⟩
    exact ⟨⟨n, hfind, rfl⟩, (List.length_take_le _ _).trans hmax⟩

-- Past the limit more bytes neither add a request nor take one away.
theorem StaticHeaders.append {bytes request : List UInt8} (h : StaticHeaders bytes request)
    (rest : List UInt8) : StaticHeaders (bytes ++ rest) request := by
  obtain ⟨n, hfind, hmax, rfl⟩ := staticHeaders_iff.mp h
  refine staticHeaders_iff.mpr ⟨n, findHeadersEnd_append hfind rest, hmax, ?_⟩
  rw [List.take_append_of_le_length (findHeadersEnd_le hfind)]

theorem StaticHeaders.of_append {bytes request rest : List UInt8}
    (h : StaticHeaders (bytes ++ rest) request) (hlong : staticCaptureMax ≤ bytes.length) :
    StaticHeaders bytes request := by
  obtain ⟨n, hfind, hmax, rfl⟩ := staticHeaders_iff.mp h
  have hend := findHeadersEnd_take hfind
  rw [List.take_append_of_le_length (hmax.trans hlong)] at hend ⊢
  obtain ⟨m, hm, -⟩ := findHeadersEnd_of_take hend
  have hmn : some m = some n := (findHeadersEnd_append hm rest).symm.trans hfind
  cases hmn
  exact staticHeaders_iff.mpr ⟨_, hm, hmax, rfl⟩

theorem staticHeaders_unique {bytes request other : List UInt8} (h : StaticHeaders bytes request)
    (hother : StaticHeaders bytes other) : request = other := by
  obtain ⟨n, hn, -, rfl⟩ := staticHeaders_iff.mp h
  obtain ⟨m, hm, -, rfl⟩ := staticHeaders_iff.mp hother
  cases hn.symm.trans hm
  rfl

theorem filter_headersEnd_some {replay : List UInt8} {n : Nat}
    (h : (findHeadersEnd replay).filter (fun i => i + 4 ≤ staticCaptureMax) = some n) :
    StaticHeaders replay (replay.take (n + 4)) := by
  obtain ⟨hfind, hmax⟩ := Option.filter_eq_some_iff.mp h
  exact staticHeaders_iff.mpr ⟨n, hfind, of_decide_eq_true hmax, rfl⟩

theorem filter_headersEnd_none {replay : List UInt8}
    (h : (findHeadersEnd replay).filter (fun i => i + 4 ≤ staticCaptureMax) = none)
    (request : List UInt8) : ¬StaticHeaders replay request := by
  intro hrequest
  obtain ⟨n, hfind, hmax, -⟩ := staticHeaders_iff.mp hrequest
  rw [hfind, Option.filter_some, if_pos (decide_eq_true hmax)] at h
  cases h

theorem captureRun_bytes {reads : Nat} {replay : List UInt8} {stream : PeerStream}
    {run : CaptureRun} (h : captureRun reads replay stream = some run) :
    run.capture.replay ++ run.unread.bytes = replay ++ stream.bytes := by
  induction reads generalizing replay stream with
  | zero =>
    cases h
    rfl
  | succ reads ih =>
    rw [captureRun] at h
    split at h
    · cases h
    · next hread =>
      cases h
      rw [PeerStream.read_error hread]
    · next hread =>
      cases h
      rw [PeerStream.read_error hread]
    · next chunk rest hread =>
      rw [← PeerStream.read_bytes hread, ← List.append_assoc]
      simp only at h
      split at h
      · cases h
        rfl
      · split at h
        · cases h
          rfl
        · exact ih h

theorem captureRun_request {reads : Nat} {replay : List UInt8} {stream : PeerStream}
    {run : CaptureRun} (h : captureRun reads replay stream = some run) (hexit : run.Decided)
    (request : List UInt8) :
    run.capture.controlRequest = some request ↔
      StaticHeaders (replay ++ stream.bytes) request := by
  induction reads generalizing replay stream with
  | zero =>
    cases h
    rcases hexit with hexit | hexit <;> cases hexit
  | succ reads ih =>
    rw [captureRun] at h
    split at h
    · cases h
    · cases h
      rcases hexit with hexit | hexit <;> cases hexit
    · cases h
      rcases hexit with hexit | hexit <;> cases hexit
    · next chunk rest hread =>
      rw [← PeerStream.read_bytes hread, ← List.append_assoc]
      simp only at h
      split at h
      · next n hn =>
        cases h
        have hfound := (filter_headersEnd_some hn).append rest.bytes
        constructor
        · rintro ⟨⟩
          exact hfound
        · exact fun hrequest => congrArg some (staticHeaders_unique hfound hrequest)
      · next hn =>
        split at h
        · next hfull =>
          cases h
          constructor
          · rintro ⟨⟩
          · exact fun hrequest =>
              absurd (hrequest.of_append hfull) (filter_headersEnd_none hn request)
        · exact ih h

theorem not_settled_nil : ¬Settled [] := by
  rintro (⟨request, hrequest⟩ | hfull)
  · obtain ⟨n, hfind, -⟩ := staticHeaders_iff.mp hrequest
    cases hfind
  · cases hfull

theorem captureRun_decided {reads : Nat} {replay : List UInt8} {stream : PeerStream}
    (hsplit : stream.Split) (hnot : ¬Settled replay)
    (h : Settled (replay ++ (stream.reads.take reads).flatten)) :
    ∃ run, captureRun reads replay stream = some run ∧ run.Decided := by
  induction reads generalizing replay stream with
  | zero => exact absurd (by simpa using h) hnot
  | succ reads ih =>
    obtain ⟨chunks, ending⟩ := stream
    cases chunks with
    | nil => exact absurd (by simpa using h) hnot
    | cons chunk chunks =>
      obtain ⟨hchunk, hchunks⟩ := List.forall_mem_cons.mp hsplit
      have hread : PeerStream.read ⟨chunk :: chunks, ending⟩ 1024 =
          (.ok chunk, ⟨chunks, ending⟩) := by
        have hne : chunk ≠ [] := List.length_pos_iff.mp hchunk.1
        simp only [PeerStream.read]
        rw [if_neg hne, if_pos hchunk.2]
      rw [List.take_succ_cons, List.flatten_cons, ← List.append_assoc] at h
      simp only [captureRun, hread]
      split
      · exact ⟨_, rfl, .inl rfl⟩
      · next hn =>
        split
        · exact ⟨_, rfl, .inr rfl⟩
        · next hshort =>
          refine ih hchunks ?_ h
          rintro (⟨request, hrequest⟩ | hfull)
          · exact filter_headersEnd_none hn request hrequest
          · exact hshort hfull

theorem capture_any_split (reads : Nat) (stream : PeerStream) :
    (captureRun reads [] stream).map CaptureRun.capture =
        captureStaticRequestHeaders reads [] stream ∧
      (stream.Split → Settled (stream.reads.take reads).flatten →
        ∃ run, captureRun reads [] stream = some run ∧ run.Decided) ∧
      ∀ run, captureRun reads [] stream = some run →
        (run.Decided → ∀ request,
          run.capture.controlRequest = some request ↔ StaticHeaders stream.bytes request) ∧
        run.capture.replay ++ run.unread.bytes = stream.bytes ∧
        ∀ svc src dst, relayInboundTunnel svc src dst run.capture.replay run.unread.bytes =
          relayInboundTunnel svc src dst [] stream.bytes := by
  refine ⟨captureRun_capture reads [] stream,
    fun hsplit hsettled => captureRun_decided hsplit not_settled_nil hsettled, fun run hrun => ?_⟩
  have hbytes : run.capture.replay ++ run.unread.bytes = stream.bytes := captureRun_bytes hrun
  refine ⟨fun hexit request => captureRun_request hrun hexit request, hbytes,
    fun svc src dst => ?_⟩
  simp only [relayInboundTunnel, List.append_assoc, hbytes, List.append_nil]

-- The terminator lies across the two reads, and a byte of the body follows it.
theorem capture_any_split_straddling :
    let stream : PeerStream := ⟨[[71, 13, 10], [13, 10, 72]], .silent⟩
    ∃ run, captureRun 2 [] stream = some run ∧ run.Decided ∧
      run.capture = ⟨some [71, 13, 10, 13, 10], [71, 13, 10, 13, 10, 72]⟩ ∧
      run.capture.replay ++ run.unread.bytes = stream.bytes := by
  intro stream
  have hsplit : stream.Split := by unfold PeerStream.Split; decide
  have hheaders : StaticHeaders stream.bytes [71, 13, 10, 13, 10] :=
    staticHeaders_iff.mpr ⟨1, by decide, by decide, rfl⟩
  obtain ⟨-, hdecided, hruns⟩ := capture_any_split 2 stream
  obtain ⟨run, hrun, hexit⟩ := hdecided hsplit (.inl ⟨_, hheaders⟩)
  refine ⟨run, hrun, hexit, ?_, (hruns run hrun).2.1⟩
  cases hrun
  rfl

end Cross233.Server
