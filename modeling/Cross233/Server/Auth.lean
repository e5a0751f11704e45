import Cross233.Library.HashMap
import Cross233.Library.Machine

namespace Cross233.Server

structure PendingAuth where
  nonce : String
  createdAt : Nat
  deriving DecidableEq

structure AuthState where
  authKey : String
  pending : HashMap String PendingAuth
  deriving DecidableEq

-- Instants and durations are in milliseconds.
def challengeTtl : Nat := 60 * 1000

inductive Role where
  | client
  | tunnel
  | visitor
  deriving DecidableEq

-- A tunnel or visitor may offer its proof with the first message: no challenge is sent to it then.
structure Handshake where
  role : Role
  clientId : String
  id : String
  offered : Option String
  nonce : String
  createdAt : Nat
  cleaned : Bool
  sentAt : Option Nat
  deriving DecidableEq

def answerTimeout : Role → Nat
  | .client => 30 * 1000
  | .tunnel => 15 * 1000
  | .visitor => 15 * 1000

def connId (role : Role) (clientId id : String) : String :=
  match role with
  | .client => clientId
  | .tunnel => "tunnel:" ++ id
  | .visitor => "visitor:" ++ id

def admits (role : Role) (clientId id : String) : Bool :=
  match role with
  | .client => clientId ≠ ""
  | .tunnel => id ≠ ""
  | .visitor => true

structure Handshakes where
  auth : AuthState
  underway : HashMap Nat Handshake
  clock : Nat
  nextConn : Nat
  verdicts : List (Nat × Bool)
  deriving DecidableEq

inductive AuthEvent where
  | hello (role : Role) (clientId id : String) (offered : Option String) (nonce : String)
      (now : Nat)
  | cleanup (conn : Nat) (now : Nat)
  | offer (conn : Nat) (now : Nat)
  | sent (conn : Nat) (now : Nat)
  | answer (conn : Nat) (proof : String) (now : Nat)
  | close (conn : Nat) (now : Nat)

namespace AuthState

def new (authKey : String) : AuthState := ⟨authKey, ∅⟩

def cleanupExpired (s : AuthState) (now : Nat) : AuthState :=
  { s with pending := s.pending.retain (fun p => now - p.createdAt < challengeTtl) }

-- create_challenge takes the lock once to insert the challenge and once more to drop the
-- expired ones, so other calls may run between the two.
def issue (s : AuthState) (connId nonce : String) (now : Nat) : AuthState :=
  { s with pending := s.pending.insert connId ⟨nonce, now⟩ }

variable (computeProof : String → String → String → String → String → String)

def verifyProof (key ty clientId id nonce proof : String) : Bool :=
  computeProof key ty clientId id nonce = proof

def verify (s : AuthState) (connId ty clientId id proof : String) : AuthState × Bool :=
  match s.pending.lookup connId with
  | none => (s, false)
  | some p =>
    ({ s with pending := s.pending.erase connId },
      verifyProof computeProof s.authKey ty clientId id p.nonce proof)

end AuthState

namespace Handshake

def key (h : Handshake) : String := connId h.role h.clientId h.id

def timely (h : Handshake) (now : Nat) : Bool :=
  h.sentAt.all (fun t => now - t < answerTimeout h.role)

def awaiting (h : Handshake) (now : Nat) : Bool := h.offered = none && h.timely now

variable (computeProof : String → String → String → String → String → String)

def expected (h : Handshake) (authKey : String) : String :=
  match h.role with
  | .client => computeProof authKey "client" h.clientId h.clientId h.nonce
  | .tunnel => computeProof authKey "tunnel" "" h.id h.nonce
  | .visitor => computeProof authKey "visitor" h.clientId h.id h.nonce

def verify (h : Handshake) (auth : AuthState) (proof : String) : AuthState × Bool :=
  match h.role with
  | .client => auth.verify computeProof h.key "client" h.clientId h.clientId proof
  | .tunnel => auth.verify computeProof h.key "tunnel" "" h.id proof
  | .visitor => auth.verify computeProof h.key "visitor" h.clientId h.id proof

end Handshake

namespace Handshakes

def start (authKey : String) : Handshakes := ⟨.new authKey, ∅, 0, 0, []⟩

def hello (s : Handshakes) (role : Role) (clientId id : String) (offered : Option String)
    (nonce : String) : Handshakes :=
  { s with
    auth := s.auth.issue (connId role clientId id) nonce s.clock
    underway := s.underway.insert s.nextConn
      ⟨role, clientId, id, if role = .client then none else offered, nonce, s.clock, false, none⟩
    nextConn := s.nextConn + 1 }

variable (computeProof : String → String → String → String → String → String)

def conclude (s : Handshakes) (conn : Nat) (h : Handshake) (proof : String) : Handshakes :=
  let (auth, ok) := h.verify computeProof s.auth proof
  { s with
    auth := auth
    underway := s.underway.erase conn
    verdicts := s.verdicts ++ [(conn, ok)] }

def refuse (s : Handshakes) (conn : Nat) : Handshakes :=
  { s with underway := s.underway.erase conn, verdicts := s.verdicts ++ [(conn, false)] }

def react (s : Handshakes) : AuthEvent → Option Handshakes
  | .hello role clientId id offered nonce _ =>
    some (if admits role clientId id then s.hello role clientId id offered nonce else s)
  | .cleanup conn _ => do
    let h ← s.underway.lookup conn
    if h.cleaned then none
    else
      some { s with
        auth := s.auth.cleanupExpired s.clock
        underway := s.underway.insert conn { h with cleaned := true } }
  | .offer conn _ => do
    let h ← s.underway.lookup conn
    let proof ← h.offered
    if h.cleaned then some (s.conclude computeProof conn h proof) else none
  | .sent conn _ => do
    let h ← s.underway.lookup conn
    if h.cleaned = true ∧ h.offered = none ∧ h.sentAt = none then
      some { s with underway := s.underway.insert conn { h with sentAt := some s.clock } }
    else none
  | .answer conn proof _ => do
    let h ← s.underway.lookup conn
    if h.sentAt = none then none
    else if h.timely s.clock then some (s.conclude computeProof conn h proof)
    else some (s.refuse conn)
  | .close conn _ => some { s with underway := s.underway.erase conn }

end Handshakes

def AuthEvent.now : AuthEvent → Nat
  | .hello _ _ _ _ _ now | .cleanup _ now | .offer _ now | .sent _ now | .answer _ _ now
  | .close _ now => now

namespace Handshakes

variable (computeProof : String → String → String → String → String → String)

def step (s : Handshakes) (e : AuthEvent) : Option Handshakes :=
  if e.now < s.clock then none else { s with clock := e.now }.react computeProof e

def AcceptsCorrect (s : Handshakes) : AuthEvent → Prop
  | .answer conn proof now =>
    ∀ h s', s.underway.lookup conn = some h → h.timely now = true →
      proof = h.expected computeProof s.auth.authKey →
      s.step computeProof (.answer conn proof now) = some s' →
      s'.verdicts.getLast? = some (conn, true)
  | _ => True

def awaits (s : Handshakes) (p : Nat → Handshake → Bool) (now : Nat) : Bool :=
  s.underway.entries.any (fun e => e.2.awaiting now && p e.1 e.2)

def undisturbed (s : Handshakes) : AuthEvent → Bool
  | .hello role clientId id _ _ now =>
    !admits role clientId id || !s.awaits (fun _ h => h.key = connId role clientId id) now
  | .cleanup _ now => !s.awaits (fun _ h => challengeTtl ≤ now - h.createdAt) now
  | .offer conn now =>
    (s.underway.lookup conn).all fun h => !s.awaits (fun c h' => c ≠ conn && h'.key = h.key) now
  | .answer conn _ now =>
    (s.underway.lookup conn).all fun h =>
      !h.timely now || !s.awaits (fun c h' => c ≠ conn && h'.key = h.key) now
  | .sent _ _ => true
  | .close _ _ => true

def Remembered (s : Handshakes) : Prop :=
  ∀ conn h, s.underway.lookup conn = some h → (h.sentAt ≠ none → h.offered = none) ∧
    (h.awaiting s.clock = true → s.auth.pending.lookup h.key = some ⟨h.nonce, h.createdAt⟩)

variable {computeProof} {s s' : Handshakes}

theorem awaiting_of_le {h : Handshake} {t now : Nat} (hle : t ≤ now)
    (hn : h.awaiting now = true) : h.awaiting t = true := by
  simp only [Handshake.awaiting, Handshake.timely, Bool.and_eq_true, Option.all_eq_true,
    decide_eq_true_eq] at hn ⊢
  refine ⟨hn.1, fun sent hs => ?_⟩
  have := hn.2 sent hs
  omega

theorem not_awaits {p : Nat → Handshake → Bool} {now c : Nat} {h : Handshake}
    (ha : s.awaits p now = false) (hl : s.underway.lookup c = some h)
    (hw : h.awaiting now = true) : p c h = false := by
  have hmem := AList.mem_lookup_iff.mp hl
  simp only [awaits, List.any_eq_false, Bool.and_eq_true, not_and, Bool.not_eq_true] at ha
  exact ha _ hmem hw

theorem verify_pending (h : Handshake) (auth : AuthState) (proof k : String) (hk : k ≠ h.key) :
    (h.verify computeProof auth proof).1.pending.lookup k = auth.pending.lookup k := by
  have hverify (ty clientId id : String) :
      (auth.verify computeProof h.key ty clientId id proof).1.pending.lookup k =
        auth.pending.lookup k := by
    unfold AuthState.verify
    split
    · rfl
    · exact AList.lookup_erase_ne hk
  unfold Handshake.verify
  split
  · exact hverify _ _ _
  · exact hverify _ _ _
  · exact hverify _ _ _

theorem verify_correct {h : Handshake} {auth : AuthState} {proof : String}
    (hp : auth.pending.lookup h.key = some ⟨h.nonce, h.createdAt⟩)
    (hproof : proof = h.expected computeProof auth.authKey) :
    (h.verify computeProof auth proof).2 = true := by
  subst hproof
  unfold Handshake.verify Handshake.expected
  split
  · simp [AuthState.verify, AuthState.verifyProof, hp]
  · simp [AuthState.verify, AuthState.verifyProof, hp]
  · simp [AuthState.verify, AuthState.verifyProof, hp]

theorem Remembered.advance (h : Remembered s) {now : Nat} (hle : s.clock ≤ now) :
    Remembered { s with clock := now } :=
  fun conn hs hl => ⟨(h conn hs hl).1, fun hw => (h conn hs hl).2 (awaiting_of_le hle hw)⟩

theorem Remembered.hello (h : Remembered s) {role : Role} {clientId id nonce : String}
    {offered : Option String}
    (hu : s.awaits (fun _ h => h.key = connId role clientId id) s.clock = false) :
    Remembered (s.hello role clientId id offered nonce) := by
  intro conn hs hl
  simp only [Handshakes.hello, AList.lookup_insert_eq] at hl
  split at hl
  · cases hl
    refine ⟨by simp, fun _ => ?_⟩
    simp only [Handshakes.hello, AuthState.issue, AList.lookup_insert, Handshake.key]
  · refine ⟨(h conn hs hl).1, fun hw => ?_⟩
    have hfree : hs.key ≠ connId role clientId id := by simpa using not_awaits hu hl hw
    simp only [Handshakes.hello, AuthState.issue, AList.lookup_insert_ne hfree]
    exact (h conn hs hl).2 hw

theorem Remembered.cleanup (h : Remembered s) {conn : Nat} {hs : Handshake}
    (hl : s.underway.lookup conn = some hs)
    (hu : s.awaits (fun _ h => challengeTtl ≤ s.clock - h.createdAt) s.clock = false) :
    Remembered { s with
      auth := s.auth.cleanupExpired s.clock
      underway := s.underway.insert conn { hs with cleaned := true } } := by
  -- The challenges still awaited are younger than 60 s.
  have kept {c : Nat} {other : Handshake} (ho : s.underway.lookup c = some other)
      (hw : other.awaiting s.clock = true) :
      (s.auth.cleanupExpired s.clock).pending.lookup other.key =
        some ⟨other.nonce, other.createdAt⟩ := by
    have hyoung := not_awaits hu ho hw
    simp only [decide_eq_false_iff_not, Nat.not_le] at hyoung
    simp [AuthState.cleanupExpired, AList.lookup_retain, (h c other ho).2 hw, hyoung]
  intro c other hl'
  simp only [AList.lookup_insert_eq] at hl'
  split at hl'
  · cases hl'
    refine ⟨(h conn hs hl).1, fun hw => ?_⟩
    have hwaits : hs.awaiting s.clock = true := hw
    have hkept := kept hl hwaits
    exact hkept
  · exact ⟨(h c other hl').1, fun hw => kept hl' hw⟩

theorem Remembered.conclude (h : Remembered s) {conn : Nat} {hs : Handshake} (proof : String)
    (hu : s.awaits (fun c h' => c ≠ conn && h'.key = hs.key) s.clock = false) :
    Remembered (s.conclude computeProof conn hs proof) := by
  intro c other hl
  simp only [Handshakes.conclude, AList.lookup_erase_eq] at hl
  split at hl
  · cases hl
  · next hne =>
    refine ⟨(h c other hl).1, fun hw => ?_⟩
    have hkey : other.key ≠ hs.key := by
      have hfree := not_awaits hu hl hw
      simpa [hne] using hfree
    simp only [Handshakes.conclude]
    rw [verify_pending hs s.auth proof other.key hkey]
    exact (h c other hl).2 hw

theorem Remembered.erase (h : Remembered s) (conn : Nat) (verdicts : List (Nat × Bool)) :
    Remembered { s with underway := s.underway.erase conn, verdicts := verdicts } := by
  intro c other hl
  simp only [AList.lookup_erase_eq] at hl
  split at hl
  · cases hl
  · exact h c other hl

theorem Remembered.sent (h : Remembered s) {conn : Nat} {hs : Handshake}
    (hl : s.underway.lookup conn = some hs) (ho : hs.offered = none) (hn : hs.sentAt = none) :
    Remembered { s with
      underway := s.underway.insert conn { hs with sentAt := some s.clock } } := by
  intro c other hl'
  simp only [AList.lookup_insert_eq] at hl'
  split at hl'
  · cases hl'
    refine ⟨fun _ => ho, fun _ => ?_⟩
    exact (h conn hs hl).2 (by simp [Handshake.awaiting, Handshake.timely, ho, hn])
  · exact h c other hl'

theorem Remembered.react (h : Remembered s) {e : AuthEvent} (hclock : e.now = s.clock)
    (hu : s.undisturbed e = true) (hs : s.react computeProof e = some s') : Remembered s' := by
  cases e with
  | hello role clientId id offered nonce now =>
    cases hclock
    cases hs
    split
    · next had =>
      refine h.hello ?_
      simpa [undisturbed, had] using hu
    · exact h
  | cleanup conn now =>
    cases hclock
    obtain ⟨hs', hl, hs⟩ := Option.bind_eq_some_iff.mp hs
    split at hs
    · cases hs
    · cases hs
      refine h.cleanup hl ?_
      simpa only [undisturbed, Bool.not_eq_true'] using hu
  | offer conn now =>
    cases hclock
    obtain ⟨hs', hl, hs⟩ := Option.bind_eq_some_iff.mp hs
    obtain ⟨proof, ho, hs⟩ := Option.bind_eq_some_iff.mp hs
    split at hs
    · cases hs
      refine h.conclude proof ?_
      simpa only [undisturbed, hl, Option.all_some, Bool.not_eq_true'] using hu
    · cases hs
  | sent conn now =>
    obtain ⟨hs', hl, hs⟩ := Option.bind_eq_some_iff.mp hs
    split at hs
    · next ho =>
      cases hs
      exact h.sent hl ho.2.1 ho.2.2
    · cases hs
  | answer conn proof now =>
    cases hclock
    obtain ⟨hs', hl, hs⟩ := Option.bind_eq_some_iff.mp hs
    split at hs
    · cases hs
    · split at hs
      · next ht =>
        cases hs
        refine h.conclude proof ?_
        simpa only [undisturbed, hl, Option.all_some, ht, Bool.not_true, Bool.false_or,
          Bool.not_eq_true'] using hu
      · cases hs
        exact h.erase conn _
  | close conn now =>
    cases hs
    exact h.erase conn s.verdicts

theorem Remembered.step (h : Remembered s) {e : AuthEvent} (hu : s.undisturbed e = true)
    (hs : s.step computeProof e = some s') : Remembered s' := by
  unfold Handshakes.step at hs
  split at hs
  · cases hs
  · next hle => exact (h.advance (Nat.not_lt.mp hle)).react rfl hu hs

theorem Remembered.accepts (h : Remembered s) (e : AuthEvent) :
    s.AcceptsCorrect computeProof e := by
  cases e with
  | hello | cleanup | offer | sent | close => trivial
  | answer conn proof now =>
    intro hs s' hl ht hproof hstep
    unfold Handshakes.step at hstep
    split at hstep
    · cases hstep
    · next hle =>
      obtain ⟨hs', hl', hstep⟩ := Option.bind_eq_some_iff.mp hstep
      cases hl.symm.trans hl'
      split at hstep
      · cases hstep
      · next hsent =>
        split at hstep
        · cases hstep
          obtain ⟨ho, hp⟩ := h.advance (Nat.not_lt.mp hle) conn hs hl
          have hw : hs.awaiting now = true := by simp [Handshake.awaiting, ho hsent, ht]
          have hok : (hs.verify computeProof s.auth proof).2 = true :=
            verify_correct (hp hw) hproof
          simp [Handshakes.conclude, hok]
        · next hlate => exact absurd ht hlate

theorem undisturbed_answers_accepted
    (computeProof : String → String → String → String → String → String) (authKey : String)
    (events : List AuthEvent)
    (hu : Machine.Along (step computeProof) (fun s e => s.undisturbed e = true) (start authKey)
      events) :
    Machine.Along (step computeProof) (AcceptsCorrect computeProof) (start authKey) events := by
  refine Machine.along_invariant (I := Remembered) ?_ (fun s e h _ => h.accepts e) ?_ hu
  · exact fun s e s' h hc hs => h.step hc hs
  · intro conn h hl
    cases hl

def taggedProof (key ty clientId id nonce : String) : String :=
  key ++ "\x00" ++ ty ++ "\x00" ++ clientId ++ "\x00" ++ id ++ "\x00" ++ nonce

def aliceHandshake (other : List AuthEvent) : List AuthEvent :=
  ([.hello .client "alice" "" none "n0" 0, .cleanup 0 1, .sent 0 5] : List AuthEvent) ++ other ++
    [AuthEvent.answer 0 (taggedProof "secret" "client" "alice" "alice" "n0") 40]

def besideTunnel : List AuthEvent :=
  [.hello .tunnel "" "alice" (some "guess") "n1" 10, .cleanup 1 15, .offer 1 20]

theorem alice_accepted_beside_tunnel :
    Machine.Along (step taggedProof) (AcceptsCorrect taggedProof) (start "secret")
        (aliceHandshake besideTunnel) ∧
      (Machine.run (step taggedProof) (start "secret")
        (aliceHandshake besideTunnel)).map
          Handshakes.verdicts = some [(1, false), (0, true)] :=
  ⟨undisturbed_answers_accepted taggedProof "secret" _ (by decide +kernel), by decide +kernel⟩

theorem stranger_hello_rejects_alice :
    (Machine.run (step taggedProof) (start "secret")
        (aliceHandshake [.hello .client "alice" "" none "n1" 10])).map Handshakes.verdicts =
        some [(0, false)] ∧
      ¬Machine.Along (step taggedProof) (AcceptsCorrect taggedProof) (start "secret")
        (aliceHandshake [.hello .client "alice" "" none "n1" 10]) := by
  have hrun : (Machine.run (step taggedProof) (start "secret")
      [.hello .client "alice" "" none "n0" 0, .cleanup 0 1, .sent 0 5,
        .hello .client "alice" "" none "n1" 10]).bind (fun t =>
      (step taggedProof t (.answer 0 (taggedProof "secret" "client" "alice" "alice" "n0") 40)).map
        (fun u => (t.underway.lookup 0, t.auth.authKey, u.verdicts))) =
      some (some ⟨.client, "alice", "", none, "n0", 0, true, some 5⟩, "secret", [(0, false)]) := by
    decide +kernel
  refine ⟨by decide +kernel, fun h => ?_⟩
  obtain ⟨t, ht, hrun⟩ := Option.bind_eq_some_iff.mp hrun
  obtain ⟨u, hu, hlook⟩ := Option.map_eq_some_iff.mp hrun
  simp only [Prod.mk.injEq] at hlook
  obtain ⟨halice, hkey, hverdicts⟩ := hlook
  obtain ⟨s₁, h₁, ht⟩ := Option.bind_eq_some_iff.mp ht
  obtain ⟨s₂, h₂, ht⟩ := Option.bind_eq_some_iff.mp ht
  obtain ⟨s₃, h₃, ht⟩ := Option.bind_eq_some_iff.mp ht
  obtain ⟨s₄, h₄, ht⟩ := Option.bind_eq_some_iff.mp ht
  cases ht
  have hlast := (((h.2 s₁ h₁).2 s₂ h₂).2 s₃ h₃).2 t h₄
  have haccept := hlast.1 _ u halice (by decide) (by rw [hkey]; rfl) hu
  rw [hverdicts] at haccept
  cases haccept

end Handshakes

end Cross233.Server
