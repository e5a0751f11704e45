import Cross233.Relay.StaticPaths

namespace Cross233.Relay

open Cross233.Protocol Cross233.Server

structure Volume where
  sent : Nat
  received : Nat
  deriving DecidableEq

structure Traffic where
  trafficTx : UInt64
  trafficRx : UInt64
  deriving DecidableEq

-- What the copy of a relay has moved when it ends; `failed` is also a write before the copy.
structure Copy where
  toPeer : UInt64
  fromPeer : UInt64
  failed : Bool
  deriving DecidableEq

structure StaticWrite where
  chunk : StaticResponseChunk
  written : Nat
  deriving DecidableEq

inductive ControlRelay where
  | unavailable
  | completed (sent : Nat)
  | failed (sent : Nat)
  deriving DecidableEq

structure StaticRun where
  reads : Nat
  stream : PeerStream
  capture : StaticRequestCapture
  captured : captureStaticRequestHeaders reads [] stream = some capture
  responses : List StaticWrite
  copy : Copy

structure HttpRun where
  bytes : List UInt8
  head : List UInt8
  read : readUntil headerTerminator 65536 [] bytes = some head
  copy : Copy

structure QcpRun where
  name : List UInt8
  secret : Option (List UInt8)
  copy : Copy

structure TcpmuxRun where
  bytes : List UInt8
  request : List UInt8
  read : readUntil crlf 8192 [] bytes = some request
  answered : Nat
  copy : Copy

inductive RelayRun where
  | direct (copy : Copy)
  | static (run : StaticRun)
  | qcp (run : QcpRun)
  | httpVhost (run : HttpRun)
  | httpsVhost (hello : List UInt8) (copy : Copy)
  | tcpmux (run : TcpmuxRun)

def Volume.plus (v w : Volume) : Volume := ⟨v.sent + w.sent, v.received + w.received⟩

def Volume.none : Volume := ⟨0, 0⟩

def Copy.volume (copy : Copy) : Volume := ⟨copy.toPeer.toNat, copy.fromPeer.toNat⟩

def Traffic.volume (t : Traffic) : Volume := ⟨t.trafficTx.toNat, t.trafficRx.toNat⟩

def recordTraffic (services : HashMap String Traffic) (serviceName : String) (tx rx : UInt64) :
    HashMap String Traffic :=
  match services.lookup serviceName with
  | some entry =>
    services.insert serviceName ⟨entry.trafficTx + tx, entry.trafficRx + rx⟩
  | none => services

def copyBidirectional (aToB bToA : UInt64) (failed : Bool) : Option (UInt64 × UInt64) :=
  if failed then none else some (aToB, bToA)

namespace StaticWrite

def whole (w : StaticWrite) : Bool := w.chunk.data.length ≤ w.written

def writeRest (sent : Nat) : Bool → List StaticWrite → ControlRelay
  | true, _ => .completed sent
  | false, [] => .failed sent
  | false, w :: responses =>
    if w.whole then writeRest (sent + w.chunk.data.length) w.chunk.eof responses
    else .failed (sent + w.written)

def relayStaticControlResponse : List StaticWrite → ControlRelay
  | [] => .unavailable
  | first :: responses =>
    if first.chunk.data = [] then .unavailable else writeRest 0 false (first :: responses)

end StaticWrite

namespace Copy

-- The tunnel is the first stream here and the peer the first one of a QCP connection.
def relayInboundTunnel (copy : Copy) : Option (UInt64 × UInt64) :=
  copyBidirectional copy.toPeer copy.fromPeer copy.failed

def handleQcpConn (copy : Copy) : Option (UInt64 × UInt64) :=
  copyBidirectional copy.fromPeer copy.toPeer copy.failed

end Copy

namespace StaticRun

def outcome (run : StaticRun) : ControlRelay :=
  match run.capture.controlRequest with
  | some _ => StaticWrite.relayStaticControlResponse run.responses
  | none => .unavailable

def recorded (run : StaticRun) : Option (UInt64 × UInt64) :=
  match run.outcome with
  | .unavailable => run.copy.relayInboundTunnel
  | .completed sent =>
    some (UInt64.ofNat sent, UInt64.ofNat (run.capture.controlRequest.getD []).length)
  | .failed _ => none

def moved (run : StaticRun) : Volume :=
  match run.outcome with
  | .unavailable =>
    ⟨run.copy.volume.sent, run.capture.replay.length + run.copy.volume.received⟩
  | .completed sent | .failed sent => ⟨sent, run.capture.replay.length⟩

end StaticRun

namespace RelayRun

-- The virtual hosts and the multiplexer never call `record_traffic`.
def recorded : RelayRun → Option (UInt64 × UInt64)
  | .direct copy => copy.relayInboundTunnel
  | .static run => run.recorded
  | .qcp run => run.copy.handleQcpConn
  | .httpVhost _ | .httpsVhost _ _ | .tcpmux _ => none

def finish (services : HashMap String Traffic) (serviceName : String) (relay : RelayRun) :
    HashMap String Traffic :=
  match relay.recorded with
  | some (tx, rx) => recordTraffic services serviceName tx rx
  | none => services

def moved : RelayRun → Volume
  | .direct copy => copy.volume
  | .static run => run.moved
  | .qcp run => run.copy.volume
  | .httpVhost run => ⟨run.copy.volume.sent, run.head.length + run.copy.volume.received⟩
  | .httpsVhost hello copy => ⟨copy.volume.sent, hello.length + copy.volume.received⟩
  | .tcpmux run => run.copy.volume

-- What the handler itself exchanges with the peer: which service it asks for, and the answer.
def opening : RelayRun → Volume
  | .qcp run => ⟨3, 2 + run.name.length + run.secret.elim 0 (fun secret => 2 + secret.length)⟩
  | .tcpmux run => ⟨run.answered, run.request.length⟩
  | .direct _ | .static _ | .httpVhost _ | .httpsVhost _ _ => .none

end RelayRun

def GrowsBy (before after : HashMap String Traffic) (serviceName : String) (v : Volume) : Prop :=
  ∀ name, (after.lookup name).map Traffic.volume =
    if name = serviceName then (before.lookup name).map (fun t => t.volume.plus v)
    else (before.lookup name).map Traffic.volume

structure Traffic.HasRoom (t : Traffic) (v : Volume) : Prop where
  sent : t.trafficTx.toNat + v.sent < UInt64.size
  received : t.trafficRx.toNat + v.received < UInt64.size

inductive Delivered : List StaticWrite → Prop where
  | last {w : StaticWrite} (hwhole : w.whole = true) (heof : w.chunk.eof = true)
      (rest : List StaticWrite) : Delivered (w :: rest)
  | more {w : StaticWrite} {rest : List StaticWrite} (hwhole : w.whole = true)
      (heof : w.chunk.eof = false) (h : Delivered rest) : Delivered (w :: rest)

def Copy.Counted (copy : Copy) : Prop := copy.failed = true → copy.volume = .none

def StaticRun.Begins (run : StaticRun) : Prop :=
  run.capture.controlRequest.isSome ∧ ∃ w ∈ run.responses.head?, w.chunk.data ≠ []

def StaticRun.Counted (run : StaticRun) : Prop :=
  (run.Begins → Delivered run.responses ∧
    run.capture.controlRequest = some run.capture.replay) ∧
  (¬run.Begins → run.capture.replay = [] ∧ run.copy.Counted)

def RelayRun.Counted : RelayRun → Prop
  | .direct copy => copy.Counted
  | .static run => run.Counted
  | .qcp run => run.copy.Counted ∧ run.copy.toPeer = run.copy.fromPeer
  | .httpVhost _ => False
  | .httpsVhost hello copy => hello = [] ∧ copy.volume = .none
  | .tcpmux run => run.copy.volume = .none

def ControlRelay.ofOutcome : RelayOutcome → ControlRelay
  | .unavailable => .unavailable
  | .sent bytes => .completed bytes.length
  | .broken bytes => .failed bytes.length

namespace StaticWrite

theorem writeRest_eof (sent : Nat) (responses : List StaticWrite) :
    writeRest sent true responses = .completed sent := by
  cases responses <;> rfl

theorem writeRest_cases {responses : List StaticWrite} (sent : Nat) :
    (Delivered responses ∧ ∃ total, writeRest sent false responses = .completed total) ∨
      ¬Delivered responses ∧ ∃ total, writeRest sent false responses = .failed total := by
  induction responses generalizing sent with
  | nil => exact .inr ⟨by rintro ⟨⟩, sent, rfl⟩
  | cons w responses ih =>
    rw [writeRest]
    cases hwhole : w.whole with
    | false =>
      refine .inr ⟨fun h => ?_, _, rfl⟩
      cases h with
      | last hw => cases hw.symm.trans hwhole
      | more hw => cases hw.symm.trans hwhole
    | true =>
      rw [if_pos rfl]
      cases heof : w.chunk.eof with
      | true => exact .inl ⟨.last hwhole heof responses, _, writeRest_eof _ responses⟩
      | false =>
        rcases ih (sent + w.chunk.data.length) with ⟨hrest, hsent⟩ | ⟨hrest, hsent⟩
        · exact .inl ⟨.more hwhole heof hrest, hsent⟩
        · refine .inr ⟨fun h => ?_, hsent⟩
          cases h with
          | last _ he => cases he.symm.trans heof
          | more _ _ h => exact hrest h

def ofChunk (chunk : StaticResponseChunk) : StaticWrite := ⟨chunk, chunk.data.length⟩

theorem writeRest_ofChunk (chunks : List StaticResponseChunk) (sent : List UInt8) (eof : Bool) :
    writeRest sent.length eof (chunks.map ofChunk) =
      ControlRelay.ofOutcome (relayRest sent eof chunks) := by
  induction chunks generalizing sent eof with
  | nil => cases eof <;> rfl
  | cons chunk chunks ih =>
    cases eof with
    | true => rfl
    | false =>
      rw [List.map_cons, writeRest, if_pos (by simp [whole, ofChunk]), relayRest, ← ih,
        List.length_append]
      rfl

theorem relayStaticControlResponse_ofChunk (chunks : List StaticResponseChunk) :
    relayStaticControlResponse (chunks.map ofChunk) =
      ControlRelay.ofOutcome (Relay.relayStaticControlResponse chunks) := by
  cases chunks with
  | nil => rfl
  | cons first chunks =>
    by_cases hempty : first.data = []
    · have hdata : (ofChunk first).chunk.data = [] := hempty
      rw [List.map_cons, relayStaticControlResponse, if_pos hdata,
        Relay.relayStaticControlResponse, if_pos hempty]
      rfl
    · have hdata : (ofChunk first).chunk.data ≠ [] := hempty
      rw [List.map_cons, relayStaticControlResponse, if_neg hdata,
        relayStaticControlResponse_cons hempty]
      exact writeRest_ofChunk (first :: chunks) [] false

end StaticWrite

namespace StaticRun

variable (run : StaticRun)

inductive Ending : Prop where
  | fallback (hbegins : ¬run.Begins) (houtcome : run.outcome = .unavailable)
  | completed (hbegins : run.Begins) (hall : Delivered run.responses) (sent : Nat)
      (houtcome : run.outcome = .completed sent)
  | failed (hbegins : run.Begins) (hpart : ¬Delivered run.responses) (sent : Nat)
      (houtcome : run.outcome = .failed sent)

theorem ending : run.Ending := by
  cases hrequest : run.capture.controlRequest with
  | none =>
    refine .fallback (fun h => ?_) ?_
    · rw [Begins, hrequest] at h
      cases h.1
    · rw [outcome, hrequest]
  | some request =>
    have houtcome : run.outcome = StaticWrite.relayStaticControlResponse run.responses := by
      rw [outcome, hrequest]
    cases hresponses : run.responses with
    | nil =>
      rw [hresponses] at houtcome
      refine .fallback (fun h => ?_) houtcome
      obtain ⟨w, hw, -⟩ := h.2
      rw [hresponses] at hw
      cases hw
    | cons first responses =>
      by_cases hempty : first.chunk.data = []
      · refine .fallback (fun h => ?_) ?_
        · obtain ⟨w, hw, hdata⟩ := h.2
          rw [hresponses] at hw
          cases hw
          exact hdata hempty
        · rw [houtcome, hresponses, StaticWrite.relayStaticControlResponse, if_pos hempty]
      · have hbegins : run.Begins := by
          refine ⟨by rw [hrequest]; rfl, first, ?_, hempty⟩
          rw [hresponses]
          rfl
        rw [hresponses, StaticWrite.relayStaticControlResponse, if_neg hempty, ← hresponses]
          at houtcome
        rcases StaticWrite.writeRest_cases 0 with ⟨hall, sent, hsent⟩ | ⟨hpart, sent, hsent⟩
        · exact .completed hbegins hall sent (houtcome.trans hsent)
        · exact .failed hbegins hpart sent (houtcome.trans hsent)

end StaticRun

def volumeOf (recorded : Option (UInt64 × UInt64)) : Volume :=
  recorded.elim .none (fun r => ⟨r.1.toNat, r.2.toNat⟩)

theorem Volume.eq_none_iff {v : Volume} : v = .none ↔ v.sent = 0 ∧ v.received = 0 := by
  cases v
  simp [Volume.none]

theorem toNat_add_eq_iff {count amount : UInt64} {v : Nat} :
    (count + amount).toNat = count.toNat + v ↔
      amount.toNat = v ∧ count.toNat + v < UInt64.size := by
  have hcount := count.toNat_lt
  have hamount := amount.toNat_lt
  rw [UInt64.toNat_add]
  unfold UInt64.size
  omega

def Traffic.grown (t : Traffic) (tx rx : UInt64) : Traffic := ⟨t.trafficTx + tx, t.trafficRx + rx⟩

theorem grown_volume_iff {t : Traffic} {tx rx : UInt64} {v : Volume} :
    (t.grown tx rx).volume = t.volume.plus v ↔
      (⟨tx.toNat, rx.toNat⟩ : Volume) = v ∧ t.HasRoom v := by
  cases v with
  | mk sent received =>
    simp only [Traffic.grown, Traffic.volume, Volume.plus, Volume.mk.injEq, toNat_add_eq_iff]
    constructor
    · rintro ⟨⟨hsent, hroom⟩, hreceived, hroom'⟩
      exact ⟨⟨hsent, hreceived⟩, hroom, hroom'⟩
    · rintro ⟨⟨hsent, hreceived⟩, hroom⟩
      exact ⟨⟨hsent, hroom.sent⟩, hreceived, hroom.received⟩

theorem recordTraffic_lookup (services : HashMap String Traffic) (serviceName : String)
    (tx rx : UInt64) (name : String) :
    (recordTraffic services serviceName tx rx).lookup name =
      if name = serviceName then (services.lookup name).map (·.grown tx rx)
      else services.lookup name := by
  cases hservice : services.lookup serviceName with
  | none =>
    simp only [recordTraffic, hservice]
    split
    · next heq =>
      subst heq
      rw [hservice]
      rfl
    · rfl
  | some entry =>
    simp only [recordTraffic, hservice, AList.lookup_insert_eq]
    split
    · next heq =>
      subst heq
      rw [hservice]
      rfl
    · rfl

theorem growsBy_iff {before after : HashMap String Traffic} {serviceName : String}
    {tx rx : UInt64}
    (hafter : ∀ name, after.lookup name =
      if name = serviceName then (before.lookup name).map (·.grown tx rx)
      else before.lookup name) (v : Volume) :
    GrowsBy before after serviceName v ↔
      ∀ t, before.lookup serviceName = some t →
        (⟨tx.toNat, rx.toNat⟩ : Volume) = v ∧ t.HasRoom v := by
  constructor
  · intro hgrows t ht
    have hname := hgrows serviceName
    rw [hafter, if_pos rfl, if_pos rfl, ht] at hname
    exact grown_volume_iff.mp (Option.some.inj hname)
  · intro h name
    rw [hafter]
    split
    · next heq =>
      subst heq
      cases hservice : before.lookup name with
      | none => rfl
      | some t => exact congrArg some (grown_volume_iff.mpr (h t hservice))
    · rfl

theorem growsBy_finish_iff (services : HashMap String Traffic) (serviceName : String)
    (relay : RelayRun) (v : Volume) :
    GrowsBy services (relay.finish services serviceName) serviceName v ↔
      ∀ t, services.lookup serviceName = some t →
        volumeOf relay.recorded = v ∧ t.HasRoom v := by
  cases hrecorded : relay.recorded with
  | none =>
    simp only [RelayRun.finish, hrecorded]
    have hkept : (fun t : Traffic => t.grown 0 0) = id := by
      funext t
      simp [Traffic.grown]
    have hsame : ∀ name, services.lookup name =
        if name = serviceName then (services.lookup name).map (·.grown 0 0)
        else services.lookup name := by
      intro name
      rw [hkept, Option.map_id, id, ite_self]
    exact growsBy_iff hsame v
  | some r =>
    simp only [RelayRun.finish, hrecorded]
    exact growsBy_iff (recordTraffic_lookup services serviceName r.1 r.2) v

theorem readUntil_ne_nil {terminator buf bytes read : List UInt8} {limit : Nat}
    (h : readUntil terminator limit buf bytes = some read) : read ≠ [] := by
  induction bytes generalizing buf with
  | nil => cases h
  | cons b bytes ih =>
    rw [readUntil] at h
    split at h
    · cases h
      simp
    · split at h
      · cases h
      · exact ih h

theorem StaticRun.replay_ne_nil (run : StaticRun) {request : List UInt8}
    (h : run.capture.controlRequest = some request) :
    run.capture.replay ≠ [] ∧ request.length ≤ run.capture.replay.length ∧
      (request.length = run.capture.replay.length ↔ request = run.capture.replay) := by
  obtain ⟨reads, stream, ⟨controlRequest, replay⟩, captured, responses, copy⟩ := run
  change controlRequest = some request at h
  subst h
  obtain ⟨n, hfind, -, rfl⟩ := captureStaticRequestHeaders_some captured
  have hlong := findHeadersEnd_le hfind
  have hprefix := List.take_prefix (n + 4) replay
  refine ⟨?_, hprefix.length_le, fun hlength => ?_, congrArg List.length⟩
  · rintro rfl
    simp at hlong
  · exact hprefix.eq_of_length hlength

def Volume.Fits (v : Volume) : Prop := v.sent < UInt64.size ∧ v.received < UInt64.size

theorem Traffic.HasRoom.fits {t : Traffic} {v : Volume} (h : t.HasRoom v) : v.Fits :=
  ⟨(Nat.le_add_left _ _).trans_lt h.sent, (Nat.le_add_left _ _).trans_lt h.received⟩

theorem copy_counted_iff (copy : Copy) :
    volumeOf copy.relayInboundTunnel = copy.volume ↔ copy.Counted := by
  rw [Copy.relayInboundTunnel, copyBidirectional, Copy.Counted]
  cases copy.failed with
  | false => simp [volumeOf, Copy.volume]
  | true => simp [volumeOf, eq_comm]

theorem qcp_counted_iff (copy : Copy) :
    volumeOf copy.handleQcpConn = copy.volume ↔ copy.Counted ∧ copy.toPeer = copy.fromPeer := by
  rw [Copy.handleQcpConn, copyBidirectional, Copy.Counted, ← UInt64.toNat_inj]
  cases copy.failed with
  | false => simp [volumeOf, Copy.volume, eq_comm]
  | true =>
    rw [if_pos rfl, eq_comm]
    constructor
    · intro hnone
      have hzero := Volume.eq_none_iff.mp hnone
      exact ⟨fun _ => hnone, hzero.1.trans hzero.2.symm⟩
    · exact fun h => h.1 rfl

theorem fallback_counted_iff (copy : Copy) (replay : List UInt8) :
    volumeOf copy.relayInboundTunnel =
        ⟨copy.volume.sent, replay.length + copy.volume.received⟩ ↔
      replay = [] ∧ copy.Counted := by
  rw [← copy_counted_iff, ← List.length_eq_zero_iff, Copy.relayInboundTunnel, copyBidirectional]
  cases copy.failed with
  | false => simp [volumeOf, Copy.volume]
  | true =>
    simp only [volumeOf, Copy.volume, Volume.none, if_true, Option.elim_none, Volume.mk.injEq]
    omega

theorem StaticRun.counted_iff (run : StaticRun) (hfits : run.moved.Fits) :
    volumeOf run.recorded = run.moved ↔ run.Counted := by
  cases run.ending with
  | fallback hbegins houtcome =>
    simp only [recorded, moved, houtcome]
    rw [fallback_counted_iff]
    exact ⟨fun h => ⟨fun hb => absurd hb hbegins, fun _ => h⟩, fun h => h.2 hbegins⟩
  | completed hbegins hall sent houtcome =>
    obtain ⟨request, hrequest⟩ := Option.isSome_iff_exists.mp hbegins.1
    simp only [moved, houtcome] at hfits
    simp only [recorded, moved, houtcome, hrequest]
    obtain ⟨-, hshort, hwhole⟩ := run.replay_ne_nil hrequest
    have hrecorded : volumeOf (some (UInt64.ofNat sent,
        UInt64.ofNat ((some request).getD []).length)) = ⟨sent, request.length⟩ := by
      simp only [volumeOf, Option.elim_some, Option.getD_some,
        UInt64.toNat_ofNat_of_lt' hfits.1, UInt64.toNat_ofNat_of_lt' (hshort.trans_lt hfits.2)]
    rw [hrecorded]
    constructor
    · intro hsame
      have hlength : request.length = run.capture.replay.length := (Volume.mk.inj hsame).2
      refine ⟨fun _ => ⟨hall, ?_⟩, fun h => absurd hbegins h⟩
      rw [hrequest, hwhole.mp hlength]
    · intro h
      have hreplay := (h.1 hbegins).2
      rw [hrequest] at hreplay
      rw [← Option.some.inj hreplay]
  | failed hbegins hpart sent houtcome =>
    obtain ⟨request, hrequest⟩ := Option.isSome_iff_exists.mp hbegins.1
    simp only [recorded, moved, houtcome]
    refine iff_of_false (fun hsame => ?_) (fun h => hpart (h.1 hbegins).1)
    have hnone : run.capture.replay.length = 0 := (Volume.mk.inj hsame).2.symm
    exact (run.replay_ne_nil hrequest).1 (List.length_eq_zero_iff.mp hnone)

theorem RelayRun.counted_iff (relay : RelayRun) (hfits : relay.moved.Fits) :
    volumeOf relay.recorded = relay.moved ↔ relay.Counted := by
  cases relay with
  | direct copy => exact copy_counted_iff copy
  | static run => exact run.counted_iff hfits
  | qcp run => exact qcp_counted_iff run.copy
  | httpVhost run =>
    refine iff_of_false (fun hsame => ?_) id
    have hhead : 0 = run.head.length + run.copy.volume.received := (Volume.mk.inj hsame).2
    have hread := List.length_pos_iff.mpr (readUntil_ne_nil run.read)
    omega
  | httpsVhost hello copy =>
    rw [RelayRun.Counted, Volume.eq_none_iff, ← List.length_eq_zero_iff]
    simp only [recorded, moved, volumeOf, Volume.none, Option.elim_none, Volume.mk.injEq]
    omega
  | tcpmux run => exact eq_comm

theorem RelayRun.opening_counted_iff (relay : RelayRun)
    (hfits : (relay.opening.plus relay.moved).Fits) :
    volumeOf relay.recorded = relay.opening.plus relay.moved ↔
      relay.opening = .none ∧ relay.Counted := by
  by_cases hopening : relay.opening = .none
  · have hplus : relay.opening.plus relay.moved = relay.moved := by
      simp [hopening, Volume.none, Volume.plus]
    rw [hplus] at hfits
    rw [hplus, relay.counted_iff hfits]
    exact (and_iff_right hopening).symm
  · refine iff_of_false (fun hsame => ?_) (fun h => hopening h.1)
    cases relay with
    | direct | static | httpVhost | httpsVhost => exact hopening rfl
    | qcp run =>
      simp only [recorded, Copy.handleQcpConn, copyBidirectional] at hsame
      split at hsame
      · have hsent : 0 = 3 + run.copy.volume.sent := (Volume.mk.inj hsame).1
        omega
      · have hsent : run.copy.volume.received = 3 + run.copy.volume.sent :=
          (Volume.mk.inj hsame).1
        have hreceived : run.copy.volume.sent = _ + run.copy.volume.received :=
          (Volume.mk.inj hsame).2
        omega
    | tcpmux run =>
      have hrequest : 0 = run.request.length + run.copy.volume.received :=
        (Volume.mk.inj hsame).2
      have hread := List.length_pos_iff.mpr (readUntil_ne_nil run.read)
      omega

theorem traffic_exact_iff (services : HashMap String Traffic) (serviceName : String)
    (relay : RelayRun) :
    (GrowsBy services (relay.finish services serviceName) serviceName relay.moved ↔
        ∀ t, services.lookup serviceName = some t → relay.Counted ∧ t.HasRoom relay.moved) ∧
      (GrowsBy services (relay.finish services serviceName) serviceName
          (relay.opening.plus relay.moved) ↔
        ∀ t, services.lookup serviceName = some t →
          (relay.opening = .none ∧ relay.Counted) ∧
            t.HasRoom (relay.opening.plus relay.moved)) := by
  rw [growsBy_finish_iff, growsBy_finish_iff]
  refine ⟨forall_congr' fun t => forall_congr' fun _ => ?_,
    forall_congr' fun t => forall_congr' fun _ => ?_⟩
  · exact and_congr_left fun hroom => relay.counted_iff hroom.fits
  · exact and_congr_left fun hroom => relay.opening_counted_iff hroom.fits

def idleServices : HashMap String Traffic := (∅ : HashMap String Traffic).insert "game" ⟨0, 0⟩

def gameRun (failed : Bool) : QcpRun := ⟨Text.utf8 "game", none, ⟨700, 20, failed⟩⟩

def shopRun : HttpRun where
  bytes := Text.utf8 "GET / HTTP/1.1\r\n\r\n"
  head := Text.utf8 "GET / HTTP/1.1\r\n\r\n"
  read := by decide +kernel
  copy := ⟨700, 0, false⟩

theorem traffic_swapped_or_missing :
    ((RelayRun.qcp (gameRun false)).finish idleServices "game").lookup "game" = some ⟨20, 700⟩ ∧
      (RelayRun.qcp (gameRun false)).moved = ⟨700, 20⟩ ∧
      ∀ relay ∈ [RelayRun.qcp (gameRun false), .httpVhost shopRun, .direct ⟨700, 20, true⟩],
        ¬GrowsBy idleServices (relay.finish idleServices "game") "game" relay.moved := by
  refine ⟨by decide +kernel, rfl, fun relay hrelay hgrows => ?_⟩
  have hgame := hgrows "game"
  simp only [List.mem_cons, List.not_mem_nil, or_false] at hrelay
  rcases hrelay with rfl | rfl | rfl
  all_goals exact absurd hgame (by decide +kernel)

end Cross233.Relay
