import Cross233.Server.Replay

namespace Cross233.Server

-- Where the sender of a oneshot channel is: in the pending table, with the handler of a tunnel
-- connection, used up by a send, or dropped.
inductive Oneshot where
  | pending
  | taken (conn : Nat)
  | sent (result : Except String Nat)
  | closed
  deriving DecidableEq

inductive OpenPhase where
  | inserted
  | waiting
  | cancelling (error : String)
  | returned (result : Except String Nat)
  deriving DecidableEq

structure OpenCall where
  id : String
  channel : Oneshot
  phase : OpenPhase
  deriving DecidableEq

inductive TunnelPhase where
  | issued (offered : Option String)
  | challenging
  | awaiting
  | verifying (proof : String)
  | denied
  | rejecting
  | authenticated
  | unclaimed
  | claimed (call : Nat)
  | delivering (call : Nat)
  | delivered (call : Nat)
  | failed
  deriving DecidableEq

structure TunnelConn where
  id : String
  phase : TunnelPhase
  deriving DecidableEq

structure TunnelState where
  auth : AuthState
  pendingWork : HashMap String Nat
  calls : HashMap Nat OpenCall
  conns : HashMap Nat TunnelConn
  nextCall : Nat
  nextConn : Nat
  verdicts : List (Nat × Bool)
  handed : List (Nat × Nat)
  received : List (Nat × Nat)
  deriving DecidableEq

-- A stream is named by the number of its connection; what a read or write on the stream yields
-- comes with the event.
inductive TunnelEvent where
  | openTunnel (id : String)
  | resume (call : Nat) (sent : Bool) (expired : Bool)
  | connect (id : String) (offered : Option String) (bytes : Vector UInt8 16) (now : Nat)
  | proceed (conn : Nat) (now : Nat) (written : Bool) (answer : Option String)
  | rejectTunnel (id : String) (error : String)
  | cancelPendingTunnel (id : String)
  | otherAuth (call : AuthCall)
  deriving DecidableEq

namespace TunnelState

def start (authKey : String) : TunnelState := ⟨.new authKey, ∅, ∅, ∅, 0, 0, [], [], []⟩

def setChannel (s : TunnelState) (c : Nat) (channel : Oneshot) : TunnelState :=
  match s.calls.lookup c with
  | none => s
  | some call => { s with calls := s.calls.insert c { call with channel := channel } }

def setPhase (s : TunnelState) (c : Nat) (call : OpenCall) (phase : OpenPhase) : TunnelState :=
  { s with calls := s.calls.insert c { call with phase := phase } }

def setConn (s : TunnelState) (k : Nat) (conn : TunnelConn) (phase : TunnelPhase) : TunnelState :=
  { s with conns := s.conns.insert k { conn with phase := phase } }

def removePending (s : TunnelState) (id : String) (channel : Oneshot) : TunnelState :=
  match s.pendingWork.lookup id with
  | none => s
  | some c => { s with pendingWork := s.pendingWork.erase id }.setChannel c channel

def cancelPendingTunnel (s : TunnelState) (id : String) : TunnelState :=
  s.removePending id .closed

def rejectTunnel (s : TunnelState) (id error : String) : TunnelState :=
  s.removePending id (.sent (.error error))

def openTunnel (s : TunnelState) (id : String) : TunnelState :=
  let s := s.cancelPendingTunnel id
  { s with
    pendingWork := s.pendingWork.insert id s.nextCall
    calls := s.calls.insert s.nextCall ⟨id, .pending, .inserted⟩
    nextCall := s.nextCall + 1 }

def receive (s : TunnelState) (c : Nat) (call : OpenCall) : Option TunnelState :=
  match call.channel with
  | .pending => none
  | .taken _ => none
  | .sent (.ok k) =>
    some { s.setPhase c call (.returned (.ok k)) with received := s.received ++ [(c, k)] }
  | .sent (.error error) =>
    some (s.setPhase c call (.returned (.error ("tunnel rejected: " ++ error))))
  | .closed => some (s.setPhase c call (.returned (.error "tunnel channel closed")))

def resume (s : TunnelState) (c : Nat) (call : OpenCall) (sent expired : Bool) :
    Option TunnelState :=
  match call.phase with
  | .inserted =>
    some (s.setPhase c call
      (if sent then .waiting else .cancelling "failed to send open: channel closed"))
  | .waiting =>
    if expired then some (s.setPhase c call (.cancelling "tunnel open timeout"))
    else s.receive c call
  | .cancelling error =>
    let s := s.cancelPendingTunnel call.id
    some (s.setPhase c ((s.calls.lookup c).getD call) (.returned (.error error)))
  | .returned _ => none

def connect (s : TunnelState) (id : String) (offered : Option String) (bytes : Vector UInt8 16)
    (now : Nat) : TunnelState :=
  { s with
    auth := s.auth.issue (connId .tunnel "" id) (generateNonce bytes) now
    conns := s.conns.insert s.nextConn ⟨id, .issued offered⟩
    nextConn := s.nextConn + 1 }

def claim (s : TunnelState) (k : Nat) (conn : TunnelConn) : TunnelState :=
  match s.pendingWork.lookup conn.id with
  | none => s.setConn k conn .unclaimed
  | some c =>
    ({ s with pendingWork := s.pendingWork.erase conn.id }.setChannel c (.taken k)).setConn k conn
      (.claimed c)

-- The receiver may be gone when the stream is sent: the stream is dropped then.
def handOver (s : TunnelState) (k : Nat) (conn : TunnelConn) (c : Nat) : TunnelState :=
  { (s.setChannel c (.sent (.ok k))).setConn k conn (.delivered c) with
    handed := s.handed ++ [(c, k)] }

variable (computeProof : String → String → String → String → String → String)

def verify (s : TunnelState) (k : Nat) (conn : TunnelConn) (proof : String) : TunnelState :=
  let (auth, ok) :=
    s.auth.verify computeProof (connId .tunnel "" conn.id) "tunnel" "" conn.id proof
  { s.setConn k conn (if ok then .authenticated else .denied) with
    auth := auth
    verdicts := s.verdicts ++ [(k, ok)] }

def proceed (s : TunnelState) (k : Nat) (conn : TunnelConn) (now : Nat) (written : Bool)
    (answer : Option String) : Option TunnelState :=
  match conn.phase with
  | .issued offered =>
    some { s.setConn k conn (offered.elim .challenging .verifying) with
      auth := s.auth.cleanupExpired now }
  | .challenging => some (s.setConn k conn (if written then .awaiting else .failed))
  | .awaiting => some (s.setConn k conn (answer.elim .failed .verifying))
  | .verifying proof => some (s.verify computeProof k conn proof)
  | .denied => some (s.setConn k conn (if written then .rejecting else .failed))
  | .rejecting => some ((s.rejectTunnel conn.id "auth failed").setConn k conn .failed)
  | .authenticated => some (s.claim k conn)
  | .unclaimed => some (s.setConn k conn .failed)
  | .claimed c =>
    if written then some (s.setConn k conn (.delivering c))
    else some ((s.setChannel c .closed).setConn k conn .failed)
  | .delivering c => some (s.handOver k conn c)
  | .delivered _ => none
  | .failed => none

def step (s : TunnelState) : TunnelEvent → Option TunnelState
  | .openTunnel id => some (s.openTunnel id)
  | .resume c sent expired => do
    let call ← s.calls.lookup c
    s.resume c call sent expired
  | .connect id offered bytes now =>
    some (if id = "" then s else s.connect id offered bytes now)
  | .proceed k now written answer => do
    let conn ← s.conns.lookup k
    s.proceed computeProof k conn now written answer
  | .rejectTunnel id error => some (s.rejectTunnel id error)
  | .cancelPendingTunnel id => some (s.cancelPendingTunnel id)
  | .otherAuth call =>
    match call with
    | .issue connId bytes now =>
      some { s with auth := s.auth.issue connId (generateNonce bytes) now }
    | .cleanupExpired now => some { s with auth := s.auth.cleanupExpired now }
    | .verify a => some { s with
        auth := (s.auth.verify computeProof a.connId a.ty a.clientId a.id a.proof).1 }

def opensFresh (s : TunnelState) : TunnelEvent → Bool
  | .openTunnel id => s.calls.entries.all (fun e => e.2.id ≠ id)
  | _ => true

structure ExactlyMatched (s : TunnelState) : Prop where
  received : (s.received.map Prod.fst).Nodup
  handed : (s.handed.map Prod.snd).Nodup
  receipts : ∀ p ∈ s.received, p ∈ s.handed
  presented : ∀ c k, (c, k) ∈ s.handed → ∃ call conn, s.calls.lookup c = some call ∧
    s.conns.lookup k = some conn ∧ call.id = conn.id
  authenticated : ∀ c k, (c, k) ∈ s.handed → (k, true) ∈ s.verdicts
  released : ∀ c call r, s.calls.lookup c = some call → call.phase = .returned r →
    call.id ∉ s.pendingWork

end TunnelState

def TunnelConn.holds (conn : TunnelConn) : Option Nat :=
  match conn.phase with
  | .claimed c => some c
  | .delivering c => some c
  | _ => none

def TunnelConn.passed (conn : TunnelConn) : Bool := conn.phase = .authenticated || conn.holds.isSome

namespace TunnelState

structure Attached (s : TunnelState) (k : Nat) (conn : TunnelConn) : Prop where
  verdict : conn.passed = true → (k, true) ∈ s.verdicts
  sender : ∀ c, conn.holds = some c → ∃ call, s.calls.lookup c = some call ∧
    call.id = conn.id ∧ call.channel = .taken k

structure HandedOver (s : TunnelState) (c k : Nat) : Prop where
  verdict : (k, true) ∈ s.verdicts
  ends : ∃ call conn, s.calls.lookup c = some call ∧ s.conns.lookup k = some conn ∧
    call.id = conn.id ∧ call.channel = .sent (.ok k) ∧ conn.phase = .delivered c

structure Matched (s : TunnelState) : Prop where
  ids : ∀ c c' call call', s.calls.lookup c = some call → s.calls.lookup c' = some call' →
    call.id = call'.id → c = c'
  pending : ∀ id c, s.pendingWork.lookup id = some c → ∃ call, s.calls.lookup c = some call ∧
    call.id = id ∧ call.channel = .pending ∧ ∀ r, call.phase ≠ .returned r
  attached : ∀ k conn, s.conns.lookup k = some conn → s.Attached k conn
  handed : ∀ c k, (c, k) ∈ s.handed → s.HandedOver c k
  sent : ∀ c call k, s.calls.lookup c = some call → call.channel = .sent (.ok k) →
    (c, k) ∈ s.handed
  handedOnce : s.handed.Nodup
  received : ∀ c k, (c, k) ∈ s.received → (c, k) ∈ s.handed ∧
    ∃ call, s.calls.lookup c = some call ∧ call.phase = .returned (.ok k)
  receivedOnce : s.received.Nodup
  numbered : (∀ c call, s.calls.lookup c = some call → c < s.nextCall) ∧
    ∀ k conn, s.conns.lookup k = some conn → k < s.nextConn

variable {computeProof} {s s' : TunnelState}

theorem Matched.exactly (h : Matched s) : ExactlyMatched s where
  received := by
    refine List.Nodup.map_on ?_ h.receivedOnce
    rintro ⟨c, k⟩ hc ⟨c', k'⟩ hc' heq
    obtain ⟨-, call, hl, hr⟩ := h.received c k hc
    obtain ⟨-, call', hl', hr'⟩ := h.received c' k' hc'
    cases heq
    cases hl.symm.trans hl'
    cases hr.symm.trans hr'
    rfl
  handed := by
    refine List.Nodup.map_on ?_ h.handedOnce
    rintro ⟨c, k⟩ hc ⟨c', k'⟩ hc' heq
    obtain ⟨-, conn, -, hl, -, -, hp⟩ := (h.handed c k hc).ends
    obtain ⟨-, conn', -, hl', -, -, hp'⟩ := (h.handed c' k' hc').ends
    cases heq
    cases hl.symm.trans hl'
    cases hp.symm.trans hp'
    rfl
  receipts p hp := (h.received p.1 p.2 hp).1
  presented c k hp := by
    obtain ⟨call, conn, hl, hl', hid, -⟩ := (h.handed c k hp).ends
    exact ⟨call, conn, hl, hl', hid⟩
  authenticated c k hp := (h.handed c k hp).verdict
  released c call r hl hr hm := by
    obtain ⟨c', hp⟩ := AList.mem_iff_lookup.mp hm
    obtain ⟨call', hl', hid, -, hnot⟩ := h.pending call.id c' hp
    obtain rfl := h.ids c c' call call' hl hl' hid.symm
    cases hl.symm.trans hl'
    exact hnot r hr

theorem Matched.insert_ids (h : Matched s) {c : Nat} {call : OpenCall} (call' : OpenCall)
    (hl : s.calls.lookup c = some call) (hid : call'.id = call.id) :
    ∀ d d' found found', (s.calls.insert c call').lookup d = some found →
      (s.calls.insert c call').lookup d' = some found' → found.id = found'.id → d = d' := by
  have hold (d : Nat) (found : OpenCall) (hd : (s.calls.insert c call').lookup d = some found) :
      ∃ old, s.calls.lookup d = some old ∧ old.id = found.id := by
    rw [AList.lookup_insert_eq] at hd
    split at hd
    · next hdc =>
      cases hd
      exact ⟨call, hdc ▸ hl, hid.symm⟩
    · exact ⟨found, hd, rfl⟩
  intro d d' found found' hd hd' heq
  obtain ⟨old, ho, hoid⟩ := hold d found hd
  obtain ⟨old', ho', hoid'⟩ := hold d' found' hd'
  exact h.ids d d' old old' ho ho' (hoid.trans (heq.trans hoid'.symm))

-- The channel of a call changes only while no handler holds its sender.
theorem Matched.withCall (h : Matched s) {c : Nat} {call : OpenCall} (call' : OpenCall)
    (hl : s.calls.lookup c = some call) (hid : call'.id = call.id)
    (hchannel : call'.channel = call.channel ∨
      ((∀ k conn, s.conns.lookup k = some conn → conn.holds ≠ some c) ∧
        (∀ k, call.channel ≠ .sent (.ok k)) ∧ ∀ k, call'.channel ≠ .sent (.ok k)))
    (hphase : ∀ r, call.phase = .returned r → call'.phase = .returned r)
    {pendingWork : HashMap String Nat}
    (hpending : ∀ id d, pendingWork.lookup id = some d → s.pendingWork.lookup id = some d ∧
      (d = c → call'.channel = .pending ∧ ∀ r, call'.phase ≠ .returned r)) :
    Matched { s with pendingWork := pendingWork, calls := s.calls.insert c call' } := by
  have hlook (d : Nat) : (s.calls.insert c call').lookup d =
      if d = c then some call' else s.calls.lookup d := AList.lookup_insert_eq _ _ _ _
  have hsent (k : Nat) : call'.channel = .sent (.ok k) ↔ call.channel = .sent (.ok k) := by
    rcases hchannel with heq | ⟨-, hold, hnew⟩
    · rw [heq]
    · exact iff_of_false (hnew k) (hold k)
  refine ⟨h.insert_ids call' hl hid, fun id d hd => ?_, fun k conn hk => ?_, fun d k hm => ?_,
    fun d found k hd hf => ?_, h.handedOnce, fun d k hm => ?_, h.receivedOnce,
    fun d found hd => ?_, h.numbered.2⟩
  · obtain ⟨hd, hc⟩ := hpending id d hd
    obtain ⟨found, hf, hfid, hch, hph⟩ := h.pending id d hd
    by_cases hdc : d = c
    · subst hdc
      cases hl.symm.trans hf
      exact ⟨call', by rw [hlook, if_pos rfl], hid.trans hfid, hc rfl⟩
    · exact ⟨found, by rw [hlook, if_neg hdc]; exact hf, hfid, hch, hph⟩
  · refine ⟨(h.attached k conn hk).verdict, fun d hd => ?_⟩
    obtain ⟨found, hf, hfid, hch⟩ := (h.attached k conn hk).sender d hd
    by_cases hdc : d = c
    · subst hdc
      cases hl.symm.trans hf
      rcases hchannel with heq | ⟨hfree, -⟩
      · exact ⟨call', by rw [hlook, if_pos rfl], hid.trans hfid, heq.trans hch⟩
      · exact absurd hd (hfree k conn hk)
    · exact ⟨found, by rw [hlook, if_neg hdc]; exact hf, hfid, hch⟩
  · obtain ⟨found, conn, hf, hk, hfid, hch, hph⟩ := (h.handed d k hm).ends
    refine ⟨(h.handed d k hm).verdict, ?_⟩
    by_cases hdc : d = c
    · subst hdc
      cases hl.symm.trans hf
      exact ⟨call', conn, by rw [hlook, if_pos rfl], hk, hid.trans hfid, (hsent k).mpr hch, hph⟩
    · exact ⟨found, conn, by rw [hlook, if_neg hdc]; exact hf, hk, hfid, hch, hph⟩
  · rw [hlook] at hd
    split at hd
    · next hdc =>
      cases hd
      exact hdc ▸ h.sent c call k hl ((hsent k).mp hf)
    · exact h.sent d found k hd hf
  · obtain ⟨hh, found, hf, hph⟩ := h.received d k hm
    refine ⟨hh, ?_⟩
    by_cases hdc : d = c
    · subst hdc
      cases hl.symm.trans hf
      exact ⟨call', by rw [hlook, if_pos rfl], hphase _ hph⟩
    · exact ⟨found, by rw [hlook, if_neg hdc]; exact hf, hph⟩
  · rw [hlook] at hd
    split at hd
    · next hdc => exact hdc ▸ h.numbered.1 c call hl
    · exact h.numbered.1 d found hd

theorem Matched.withConn (h : Matched s) {k : Nat} {conn : TunnelConn} (phase : TunnelPhase)
    (auth : AuthState) {verdicts : List (Nat × Bool)} (hl : s.conns.lookup k = some conn)
    (hopen : ∀ c, conn.phase ≠ .delivered c)
    (hverdicts : ∀ v ∈ s.verdicts, v ∈ verdicts)
    (hattached : Attached { s with verdicts := verdicts } k { conn with phase := phase }) :
    Matched { s.setConn k conn phase with auth := auth, verdicts := verdicts } := by
  have hlook (j : Nat) : (s.setConn k conn phase).conns.lookup j =
      if j = k then some { conn with phase := phase } else s.conns.lookup j :=
    AList.lookup_insert_eq _ _ _ _
  refine ⟨h.ids, h.pending, fun j found hj => ?_, fun c j hm => ?_, h.sent, h.handedOnce,
    h.received, h.receivedOnce, h.numbered.1, fun j found hj => ?_⟩
  · replace hj := (hlook j).symm.trans hj
    split at hj
    · next heq =>
      cases hj
      subst heq
      exact ⟨hattached.verdict, hattached.sender⟩
    · exact ⟨fun hp => hverdicts _ ((h.attached j found hj).verdict hp),
        (h.attached j found hj).sender⟩
  · obtain ⟨call, found, hc, hj, hid, hch, hph⟩ := (h.handed c j hm).ends
    refine ⟨hverdicts _ (h.handed c j hm).verdict, call, found, hc, ?_, hid, hch, hph⟩
    refine (hlook j).trans ?_
    rw [if_neg, hj]
    rintro rfl
    cases hl.symm.trans hj
    exact hopen c hph
  · replace hj := (hlook j).symm.trans hj
    split at hj
    · next heq => exact heq ▸ h.numbered.2 k conn hl
    · exact h.numbered.2 j found hj

theorem Matched.pending_unheld (h : Matched s) {id : String} {c : Nat}
    (hl : s.pendingWork.lookup id = some c) :
    ∀ k conn, s.conns.lookup k = some conn → conn.holds ≠ some c := by
  intro k conn hk hc
  obtain ⟨call, hcall, -, hch, -⟩ := h.pending id c hl
  obtain ⟨call', hcall', -, hch'⟩ := (h.attached k conn hk).sender c hc
  cases hcall.symm.trans hcall'
  cases hch.symm.trans hch'

theorem Matched.removePending (h : Matched s) (id : String) (channel : Oneshot)
    (hchannel : ∀ k, channel ≠ .sent (.ok k)) : Matched (s.removePending id channel) := by
  unfold TunnelState.removePending
  split
  · exact h
  · next c hp =>
    obtain ⟨call, hl, hid, hch, hph⟩ := h.pending id c hp
    simp only [setChannel, hl]
    refine h.withCall { call with channel := channel } hl rfl
      (Or.inr ⟨h.pending_unheld hp, ?_, hchannel⟩) (fun r hr => hr) ?_
    · intro k hk
      cases hch.symm.trans hk
    · intro id' d hd
      rw [AList.lookup_erase_eq] at hd
      split at hd
      · cases hd
      · next hne =>
        refine ⟨hd, fun hdc => absurd ?_ hne⟩
        obtain ⟨call', hl', hid', -⟩ := h.pending id' d hd
        subst hdc
        cases hl.symm.trans hl'
        exact hid'.symm.trans hid

theorem Matched.claim (h : Matched s) {k : Nat} {conn : TunnelConn}
    (hl : s.conns.lookup k = some conn) (hph : conn.phase = .authenticated) :
    Matched (s.claim k conn) := by
  have hverdict : (k, true) ∈ s.verdicts :=
    (h.attached k conn hl).verdict (by simp [TunnelConn.passed, hph])
  have hopen (c : Nat) : conn.phase ≠ .delivered c := by simp [hph]
  unfold TunnelState.claim
  split
  · refine h.withConn _ s.auth hl hopen (fun _ hv => hv) ⟨?_, ?_⟩
    · simp [TunnelConn.passed, TunnelConn.holds]
    · simp [TunnelConn.holds]
  · next c hp =>
    obtain ⟨call, hcall, hid, -⟩ := h.pending conn.id c hp
    have hremoved := h.removePending conn.id (.taken k) (by simp)
    simp only [TunnelState.removePending, hp, setChannel, hcall] at hremoved ⊢
    refine hremoved.withConn _ s.auth hl hopen (fun _ hv => hv)
      ⟨fun _ => hverdict, fun d hd => ?_⟩
    cases hd
    exact ⟨{ call with channel := .taken k }, AList.lookup_insert _, hid, rfl⟩

theorem Matched.dropSender (h : Matched s) {k c : Nat} {conn : TunnelConn}
    (hl : s.conns.lookup k = some conn) (hph : conn.phase = .claimed c) :
    Matched ((s.setChannel c .closed).setConn k conn .failed) := by
  obtain ⟨call, hcall, hid, hch⟩ :=
    (h.attached k conn hl).sender c (by simp [TunnelConn.holds, hph])
  have hfailed := h.withConn .failed s.auth hl (by simp [hph]) (fun _ hv => hv)
    ⟨by simp [TunnelConn.passed, TunnelConn.holds], by simp [TunnelConn.holds]⟩
  simp only [setChannel, hcall]
  refine hfailed.withCall { call with channel := .closed } hcall rfl
    (Or.inr ⟨fun j found hj hc => ?_, by simp [hch], by simp⟩) (fun r hr => hr) ?_
  · -- Any other holder of the sender would be the one that took it.
    obtain ⟨call', hcall', -, hch'⟩ := (hfailed.attached j found hj).sender c hc
    cases hcall.symm.trans hcall'
    cases hch.symm.trans hch'
    have hj : (s.conns.insert k { conn with phase := .failed }).lookup k = some found := hj
    rw [AList.lookup_insert] at hj
    cases hj
    cases hc
  · intro id d hd
    refine ⟨hd, fun hdc => ?_⟩
    subst hdc
    obtain ⟨call', hcall', -, hch', -⟩ := h.pending id d hd
    cases hcall.symm.trans hcall'
    cases hch.symm.trans hch'

theorem Matched.handOver (h : Matched s) {k c : Nat} {conn : TunnelConn}
    (hl : s.conns.lookup k = some conn) (hph : conn.phase = .delivering c) :
    Matched (s.handOver k conn c) := by
  have hverdict : (k, true) ∈ s.verdicts :=
    (h.attached k conn hl).verdict (by simp [TunnelConn.passed, TunnelConn.holds, hph])
  obtain ⟨call, hcall, hid, hch⟩ :=
    (h.attached k conn hl).sender c (by simp [TunnelConn.holds, hph])
  have hfresh (d j : Nat) (hm : (d, j) ∈ s.handed) : d ≠ c ∧ j ≠ k := by
    obtain ⟨found, other, hd, hj, -, hch', hph'⟩ := (h.handed d j hm).ends
    constructor
    · rintro rfl
      cases hcall.symm.trans hd
      cases hch.symm.trans hch'
    · rintro rfl
      cases hl.symm.trans hj
      cases hph.symm.trans hph'
  have hcalls (d : Nat) (hd : d ≠ c) :
      (s.calls.insert c { call with channel := .sent (.ok k) }).lookup d = s.calls.lookup d :=
    AList.lookup_insert_ne hd
  simp only [TunnelState.handOver, setChannel, hcall, setConn]
  refine ⟨h.insert_ids _ hcall rfl, fun id d hd => ?_, fun j found hj => ?_,
    fun d j hm => ?_, fun d found j hd hf => ?_, ?_, fun d j hm => ?_, h.receivedOnce,
    fun d found hd => ?_, fun j found hj => ?_⟩
  · obtain ⟨found, hf, hfid, hfch, hfph⟩ := h.pending id d hd
    refine ⟨found, (hcalls d ?_).trans hf, hfid, hfch, hfph⟩
    rintro rfl
    cases hcall.symm.trans hf
    cases hch.symm.trans hfch
  · rw [AList.lookup_insert_eq] at hj
    split at hj
    · cases hj
      exact ⟨by simp [TunnelConn.passed, TunnelConn.holds], by simp [TunnelConn.holds]⟩
    · next hne =>
      refine ⟨(h.attached j found hj).verdict, fun d hd => ?_⟩
      obtain ⟨call', hf, hfid, hfch⟩ := (h.attached j found hj).sender d hd
      refine ⟨call', (hcalls d ?_).trans hf, hfid, hfch⟩
      rintro rfl
      cases hcall.symm.trans hf
      cases hch.symm.trans hfch
      exact hne rfl
  · rcases List.mem_append.mp hm with hm | hm
    · obtain ⟨hdc, hjk⟩ := hfresh d j hm
      obtain ⟨found, other, hd, hj, hrest⟩ := (h.handed d j hm).ends
      refine ⟨(h.handed d j hm).verdict, found, other, (hcalls d hdc).trans hd, ?_, hrest⟩
      exact (AList.lookup_insert_ne hjk).trans hj
    · cases List.mem_singleton.mp hm
      exact ⟨hverdict, _, _, AList.lookup_insert _, AList.lookup_insert _, hid, rfl, rfl⟩
  · rw [AList.lookup_insert_eq] at hd
    split at hd
    · next hdc =>
      cases hd
      cases hf
      exact List.mem_append_right _ (List.mem_singleton.mpr (hdc ▸ rfl))
    · exact List.mem_append_left _ (h.sent d found j hd hf)
  · refine List.nodup_append.mpr ⟨h.handedOnce, List.nodup_singleton _, ?_⟩
    rintro ⟨d, j⟩ hm p hp heq
    cases heq.trans (List.mem_singleton.mp hp)
    exact (hfresh c k hm).1 rfl
  · obtain ⟨hh, found, hf, hr⟩ := h.received d j hm
    exact ⟨List.mem_append_left _ hh, found, (hcalls d (hfresh d j hh).1).trans hf, hr⟩
  · rw [AList.lookup_insert_eq] at hd
    split at hd
    · next hdc => exact hdc ▸ h.numbered.1 c call hcall
    · exact h.numbered.1 d found hd
  · rw [AList.lookup_insert_eq] at hj
    split at hj
    · next heq => exact heq ▸ h.numbered.2 k conn hl
    · exact h.numbered.2 j found hj

theorem Matched.pending_iff (h : Matched s) {c : Nat} {call : OpenCall}
    (hl : s.calls.lookup c = some call) {id : String} (hp : s.pendingWork.lookup id = some c) :
    id = call.id ∧ call.channel = .pending := by
  obtain ⟨found, hf, hid, hch, -⟩ := h.pending id c hp
  cases hl.symm.trans hf
  exact ⟨hid.symm, hch⟩

theorem Matched.setPhase (h : Matched s) {c : Nat} {call : OpenCall} (phase : OpenPhase)
    (hl : s.calls.lookup c = some call) (hopen : ∀ r, call.phase ≠ .returned r)
    (hphase : (∀ r, phase ≠ .returned r) ∨ ∀ id, s.pendingWork.lookup id ≠ some c) :
    Matched (s.setPhase c call phase) := by
  refine h.withCall { call with phase := phase } hl rfl (Or.inl rfl)
    (fun r hr => absurd hr (hopen r)) (fun id d hd => ⟨hd, fun hdc => ?_⟩)
  subst hdc
  rcases hphase with hphase | hgone
  · exact ⟨(h.pending_iff hl hd).2, hphase⟩
  · exact absurd hd (hgone id)

theorem Matched.receiveStream (h : Matched s) {c k : Nat} {call : OpenCall}
    (hl : s.calls.lookup c = some call) (hopen : ∀ r, call.phase ≠ .returned r)
    (hch : call.channel = .sent (.ok k)) :
    Matched { s.setPhase c call (.returned (.ok k)) with received := s.received ++ [(c, k)] } := by
  have hset := h.setPhase (.returned (.ok k)) hl hopen (Or.inr fun id hp => by
    cases hch.symm.trans (h.pending_iff hl hp).2)
  refine ⟨hset.ids, hset.pending,
    fun j conn hj => ⟨(hset.attached j conn hj).verdict, (hset.attached j conn hj).sender⟩,
    fun d j hm => ⟨(hset.handed d j hm).verdict, (hset.handed d j hm).ends⟩, hset.sent,
    hset.handedOnce, fun d j hm => ?_, ?_, hset.numbered⟩
  · rcases List.mem_append.mp hm with hm | hm
    · exact hset.received d j hm
    · cases List.mem_singleton.mp hm
      exact ⟨h.sent c call k hl hch, { call with phase := .returned (.ok k) },
        AList.lookup_insert _, rfl⟩
  · refine List.nodup_append.mpr ⟨h.receivedOnce, List.nodup_singleton _, ?_⟩
    rintro p hp q hq rfl
    cases List.mem_singleton.mp hq
    obtain ⟨-, found, hf, hr⟩ := h.received c k hp
    cases hl.symm.trans hf
    exact hopen _ hr

theorem Matched.receive (h : Matched s) {c : Nat} {call : OpenCall}
    (hl : s.calls.lookup c = some call) (hopen : ∀ r, call.phase ≠ .returned r)
    (hs : s.receive c call = some s') : Matched s' := by
  have hgone (hch : call.channel ≠ .pending) (id : String) :
      s.pendingWork.lookup id ≠ some c := fun hp => hch (h.pending_iff hl hp).2
  unfold TunnelState.receive at hs
  split at hs
  · cases hs
  · cases hs
  · next k hch =>
    cases hs
    exact h.receiveStream hl hopen hch
  · next error hch =>
    cases hs
    exact h.setPhase _ hl hopen (Or.inr (hgone (by simp [hch])))
  · next hch =>
    cases hs
    exact h.setPhase _ hl hopen (Or.inr (hgone (by simp [hch])))

theorem Matched.cancelled (h : Matched s) {c : Nat} {call : OpenCall} {error : String}
    (hl : s.calls.lookup c = some call) (hph : call.phase = .cancelling error) :
    Matched ((s.cancelPendingTunnel call.id).setPhase c
      (((s.cancelPendingTunnel call.id).calls.lookup c).getD call) (.returned (.error error))) := by
  have hcancel : Matched (s.cancelPendingTunnel call.id) := h.removePending _ _ (by simp)
  cases hp : s.pendingWork.lookup call.id with
  | none =>
    have hsame : s.cancelPendingTunnel call.id = s := by
      simp only [cancelPendingTunnel, TunnelState.removePending, hp]
    rw [hsame, hl, Option.getD_some]
    refine h.setPhase _ hl (by simp [hph]) (Or.inr fun id hid => ?_)
    rw [(h.pending_iff hl hid).1, hp] at hid
    cases hid
  | some d =>
    obtain ⟨found, hf, hfid, -⟩ := h.pending call.id d hp
    obtain rfl := h.ids d c found call hf hl hfid
    cases hl.symm.trans hf
    have hremoved : s.cancelPendingTunnel call.id = { s with
        pendingWork := s.pendingWork.erase call.id
        calls := s.calls.insert d { call with channel := .closed } } := by
      simp only [cancelPendingTunnel, TunnelState.removePending, hp, setChannel, hl]
    rw [hremoved] at hcancel ⊢
    dsimp only
    rw [AList.lookup_insert, Option.getD_some]
    refine hcancel.setPhase _ (AList.lookup_insert _) (by simp [hph]) (Or.inr fun id hid => ?_)
    cases (hcancel.pending_iff (AList.lookup_insert _) hid).2

theorem Matched.resume (h : Matched s) {c : Nat} {call : OpenCall} {sent expired : Bool}
    (hl : s.calls.lookup c = some call) (hs : s.resume c call sent expired = some s') :
    Matched s' := by
  unfold TunnelState.resume at hs
  split at hs
  · next hph =>
    cases hs
    refine h.setPhase _ hl (by simp [hph]) (Or.inl fun r => ?_)
    split <;> simp
  · next hph =>
    split at hs
    · cases hs
      exact h.setPhase _ hl (by simp [hph]) (Or.inl (by simp))
    · exact h.receive hl (by simp [hph]) hs
  · next error hph =>
    cases hs
    exact h.cancelled hl hph
  · cases hs

theorem Matched.openTunnel (h : Matched s) {id : String}
    (hfresh : ∀ c call, s.calls.lookup c = some call → call.id ≠ id) :
    Matched (s.openTunnel id) := by
  have hnone : s.pendingWork.lookup id = none := by
    cases hp : s.pendingWork.lookup id with
    | none => rfl
    | some c =>
      obtain ⟨call, hl, hid, -⟩ := h.pending id c hp
      exact absurd hid (hfresh c call hl)
  have hsame : s.cancelPendingTunnel id = s := by
    simp only [cancelPendingTunnel, TunnelState.removePending, hnone]
  have hnew {c : Nat} {call : OpenCall} (hl : s.calls.lookup c = some call) :
      c ≠ s.nextCall := Nat.ne_of_lt (h.numbered.1 c call hl)
  have hkept {c : Nat} {call : OpenCall} (hl : s.calls.lookup c = some call) :
      (s.calls.insert s.nextCall ⟨id, .pending, .inserted⟩).lookup c = some call :=
    (AList.lookup_insert_ne (hnew hl)).trans hl
  simp only [TunnelState.openTunnel, hsame]
  refine ⟨fun c c' call call' hc hc' heq => ?_, fun id' c hp => ?_, fun k conn hk => ?_,
    fun c k hm => ?_, fun c call k hc hch => ?_, h.handedOnce, fun c k hm => ?_, h.receivedOnce,
    fun c call hc => ?_, h.numbered.2⟩
  · rw [AList.lookup_insert_eq] at hc hc'
    split at hc
    · next heqc =>
      split at hc'
      · next heqc' => exact heqc.trans heqc'.symm
      · cases hc
        exact absurd heq.symm (hfresh c' call' hc')
    · split at hc'
      · cases hc'
        exact absurd heq (hfresh c call hc)
      · exact h.ids c c' call call' hc hc' heq
  · rw [AList.lookup_insert_eq] at hp
    split at hp
    · next heq =>
      cases hp
      exact ⟨_, AList.lookup_insert _, heq.symm, rfl, by simp⟩
    · obtain ⟨call, hl, hrest⟩ := h.pending id' c hp
      exact ⟨call, hkept hl, hrest⟩
  · refine ⟨(h.attached k conn hk).verdict, fun c hc => ?_⟩
    obtain ⟨call, hl, hrest⟩ := (h.attached k conn hk).sender c hc
    exact ⟨call, hkept hl, hrest⟩
  · obtain ⟨call, conn, hl, hrest⟩ := (h.handed c k hm).ends
    exact ⟨(h.handed c k hm).verdict, call, conn, hkept hl, hrest⟩
  · rw [AList.lookup_insert_eq] at hc
    split at hc
    · cases hc
      cases hch
    · exact h.sent c call k hc hch
  · obtain ⟨hh, call, hl, hr⟩ := h.received c k hm
    exact ⟨hh, call, hkept hl, hr⟩
  · rw [AList.lookup_insert_eq] at hc
    split at hc
    · next heq => exact heq ▸ Nat.lt_succ_self _
    · exact Nat.lt_succ_of_lt (h.numbered.1 c call hc)

theorem Matched.connect (h : Matched s) (id : String) (offered : Option String)
    (bytes : Vector UInt8 16) (now : Nat) : Matched (s.connect id offered bytes now) := by
  refine ⟨h.ids, h.pending, fun k conn hk => ?_, fun c k hm => ?_, h.sent, h.handedOnce,
    h.received, h.receivedOnce, h.numbered.1, fun k conn hk => ?_⟩
  · dsimp only [TunnelState.connect] at hk
    rw [AList.lookup_insert_eq] at hk
    split at hk
    · cases hk
      exact ⟨by simp [TunnelConn.passed, TunnelConn.holds], by simp [TunnelConn.holds]⟩
    · exact ⟨(h.attached k conn hk).verdict, (h.attached k conn hk).sender⟩
  · obtain ⟨call, conn, hl, hk, hrest⟩ := (h.handed c k hm).ends
    refine ⟨(h.handed c k hm).verdict, call, conn, hl, ?_, hrest⟩
    exact (AList.lookup_insert_ne (Nat.ne_of_lt (h.numbered.2 k conn hk))).trans hk
  · dsimp only [TunnelState.connect] at hk ⊢
    rw [AList.lookup_insert_eq] at hk
    split at hk
    · next heq => exact heq ▸ Nat.lt_succ_self _
    · exact Nat.lt_succ_of_lt (h.numbered.2 k conn hk)

theorem Matched.quiet (h : Matched s) {k : Nat} {conn : TunnelConn} (phase : TunnelPhase)
    (auth : AuthState) (hl : s.conns.lookup k = some conn)
    (hopen : ∀ c, conn.phase ≠ .delivered c)
    (hquiet : TunnelConn.passed { conn with phase := phase } = false)
    {verdicts : List (Nat × Bool)} (hverdicts : ∀ v ∈ s.verdicts, v ∈ verdicts) :
    Matched { s.setConn k conn phase with auth := auth, verdicts := verdicts } := by
  refine h.withConn phase auth hl hopen hverdicts ⟨fun hp => ?_, fun c hc => ?_⟩
  · rw [hquiet] at hp
    cases hp
  · rw [TunnelConn.passed, hc] at hquiet
    simp at hquiet

theorem Matched.verify (h : Matched s) {k : Nat} {conn : TunnelConn} {proof : String}
    (hl : s.conns.lookup k = some conn) (hph : conn.phase = .verifying proof) :
    Matched (s.verify computeProof k conn proof) := by
  have hopen (c : Nat) : conn.phase ≠ .delivered c := by simp [hph]
  unfold TunnelState.verify
  cases hv : s.auth.verify computeProof (connId .tunnel "" conn.id) "tunnel" "" conn.id proof with
  | mk auth ok =>
    cases ok with
    | false =>
      exact h.quiet .denied auth hl hopen rfl (fun v hv => List.mem_append_left _ hv)
    | true =>
      refine h.withConn .authenticated auth hl hopen
        (fun v hv => List.mem_append_left _ hv) ⟨fun _ => ?_, fun c hc => by cases hc⟩
      exact List.mem_append_right _ (List.mem_singleton.mpr rfl)

theorem Matched.plain (h : Matched s) {k : Nat} {conn : TunnelConn} {phase : TunnelPhase}
    (hl : s.conns.lookup k = some conn) (hopen : ∀ c, conn.phase ≠ .delivered c)
    (hquiet : TunnelConn.passed { conn with phase := phase } = false) :
    Matched (s.setConn k conn phase) :=
  h.quiet phase s.auth hl hopen hquiet (fun _ hv => hv)

theorem removePending_conns (s : TunnelState) (id : String) (channel : Oneshot) :
    (s.removePending id channel).conns = s.conns := by
  unfold TunnelState.removePending setChannel
  split
  · rfl
  · split <;> rfl

theorem Matched.delivering (h : Matched s) {k c : Nat} {conn : TunnelConn}
    (hl : s.conns.lookup k = some conn) (hph : conn.phase = .claimed c) :
    Matched (s.setConn k conn (.delivering c)) := by
  have ha := h.attached k conn hl
  refine h.withConn _ s.auth hl (by simp [hph]) (fun _ hv => hv)
    ⟨fun _ => ha.verdict ?_, fun d hd => ?_⟩
  · simp [TunnelConn.passed, TunnelConn.holds, hph]
  · cases hd
    exact ha.sender c (by simp [TunnelConn.holds, hph])

theorem Matched.proceed (h : Matched s) {k : Nat} {conn : TunnelConn} {now : Nat}
    {written : Bool} {answer : Option String} (hl : s.conns.lookup k = some conn)
    (hs : s.proceed computeProof k conn now written answer = some s') : Matched s' := by
  unfold TunnelState.proceed at hs
  split at hs
  · next offered hph =>
    cases hs
    exact h.quiet _ _ hl (by simp [hph]) (by cases offered <;> rfl) (fun _ hv => hv)
  · next hph =>
    cases hs
    exact h.plain hl (by simp [hph]) (by cases written <;> rfl)
  · next hph =>
    cases hs
    exact h.plain hl (by simp [hph]) (by cases answer <;> rfl)
  · next proof hph =>
    cases hs
    exact h.verify hl hph
  · next hph =>
    cases hs
    exact h.plain hl (by simp [hph]) (by cases written <;> rfl)
  · next hph =>
    cases hs
    have hreject : Matched (s.rejectTunnel conn.id "auth failed") := h.removePending _ _ (by simp)
    refine hreject.plain ?_ (by simp [hph]) rfl
    rw [rejectTunnel, removePending_conns, hl]
  · next hph =>
    cases hs
    exact h.claim hl hph
  · next hph =>
    cases hs
    exact h.plain hl (by simp [hph]) rfl
  · next c hph =>
    split at hs
    · cases hs
      exact h.delivering hl hph
    · cases hs
      exact h.dropSender hl hph
  · next c hph =>
    cases hs
    exact h.handOver hl hph
  · cases hs
  · cases hs

theorem Matched.withAuth (h : Matched s) (auth : AuthState) : Matched { s with auth := auth } :=
  ⟨h.ids, h.pending,
    fun k conn hk => ⟨(h.attached k conn hk).verdict, (h.attached k conn hk).sender⟩,
    fun c k hm => ⟨(h.handed c k hm).verdict, (h.handed c k hm).ends⟩, h.sent, h.handedOnce,
    h.received, h.receivedOnce, h.numbered⟩

theorem Matched.step (h : Matched s) {e : TunnelEvent} (hfresh : s.opensFresh e = true)
    (hs : s.step computeProof e = some s') : Matched s' := by
  cases e with
  | openTunnel id =>
    cases hs
    refine h.openTunnel (fun c call hl => ?_)
    have hmem := AList.mem_lookup_iff.mp hl
    exact of_decide_eq_true (List.all_eq_true.mp hfresh _ hmem)
  | resume c sent expired =>
    obtain ⟨call, hl, hs⟩ := Option.bind_eq_some_iff.mp hs
    exact h.resume hl hs
  | connect id offered bytes now =>
    cases hs
    split
    · exact h
    · exact h.connect id offered bytes now
  | proceed k now written answer =>
    obtain ⟨conn, hl, hs⟩ := Option.bind_eq_some_iff.mp hs
    exact h.proceed hl hs
  | rejectTunnel id error =>
    cases hs
    exact h.removePending _ _ (by simp)
  | cancelPendingTunnel id =>
    cases hs
    exact h.removePending _ _ (by simp)
  | otherAuth call =>
    cases call with
    | issue | cleanupExpired | verify =>
      cases hs
      exact h.withAuth _

theorem start_matched (authKey : String) : Matched (start authKey) := by
  refine ⟨?_, ?_, ?_, ?_, ?_, List.nodup_nil, ?_, List.nodup_nil, ?_, ?_⟩
  · intro c c' call call' hl
    cases hl
  · intro id c hp
    cases hp
  · intro k conn hk
    cases hk
  · intro c k hm
    cases hm
  · intro c call k hl
    cases hl
  · intro c k hm
    cases hm
  · intro c call hl
    cases hl
  · intro k conn hk
    cases hk

theorem tunnels_exactly_matched
    (computeProof : String → String → String → String → String → String) (authKey : String)
    (events : List TunnelEvent)
    (hfresh : Machine.Along (step computeProof) (fun s e => s.opensFresh e = true)
      (start authKey) events) :
    Machine.Always (step computeProof) ExactlyMatched (start authKey) events := by
  refine Machine.always_of_along (I := Matched) ?_ ?_ (start_matched authKey) hfresh
  · exact fun s e s' h hf hs => h.step hf hs
  · exact fun s h => h.exactly

def advance (conn : Nat) (answer : Option String) : TunnelEvent := .proceed conn 5 true answer

def twoTunnels : List TunnelEvent :=
  [.openTunnel "t0", .openTunnel "t1", .resume 0 true false, .resume 1 true false,
    .connect "t0" none (AuthState.nonceBytes 1) 0,
    .connect "t1" (some "guess") (AuthState.nonceBytes 2) 0, advance 0 none, advance 0 none,
    advance 0 (some (Handshakes.taggedProof "secret" "tunnel" "" "t0"
      (generateNonce (AuthState.nonceBytes 1)))),
    advance 0 none, advance 1 none, advance 1 none, advance 0 none, advance 1 none,
    advance 1 none, .resume 1 true false, advance 0 none, advance 0 none, .resume 0 true false]

theorem two_tunnels_matched :
    Machine.Always (step Handshakes.taggedProof) ExactlyMatched (start "secret") twoTunnels ∧
      (Machine.run (step Handshakes.taggedProof) (start "secret") twoTunnels).map (fun s =>
        (s.handed, s.received, s.verdicts)) =
      some ([(0, 0)], [(0, 0)], [(0, true), (1, false)]) :=
  ⟨tunnels_exactly_matched Handshakes.taggedProof "secret" twoTunnels (by decide +kernel),
    by decide +kernel⟩

end TunnelState

end Cross233.Server
