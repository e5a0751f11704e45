import Cross233.Library.Text
import Cross233.Server.Auth

namespace Cross233.Server

def generateNonce (bytes : Vector UInt8 16) : String := String.ofList (Text.hexEncode bytes.toList)

def macInput (ty clientId id nonce : String) : String :=
  "cross233/v1\x00" ++ ty ++ "\x00" ++ clientId ++ "\x00" ++ id ++ "\x00" ++ nonce

def computeProof (mac : String → String → String) (key ty clientId id nonce : String) : String :=
  mac key (macInput ty clientId id nonce)

structure Attempt where
  connId : String
  ty : String
  clientId : String
  id : String
  proof : String
  deriving DecidableEq

inductive AuthCall where
  | issue (connId : String) (bytes : Vector UInt8 16) (now : Nat)
  | cleanupExpired (now : Nat)
  | verify (attempt : Attempt)
  deriving DecidableEq

namespace AuthCall

def nonce : AuthCall → Option String
  | .issue _ bytes _ => some (generateNonce bytes)
  | .cleanupExpired _ => none
  | .verify _ => none

def concerns (connId : String) : AuthCall → Bool
  | .issue c _ _ => c = connId
  | .cleanupExpired _ => false
  | .verify attempt => attempt.connId = connId

end AuthCall

namespace AuthState

section Calls

variable (mac : String → String → String)

def attempt (s : AuthState) (a : Attempt) : AuthState × Bool :=
  s.verify (computeProof mac) a.connId a.ty a.clientId a.id a.proof

def perform (s : AuthState) : AuthCall → AuthState
  | .issue connId bytes now => s.issue connId (generateNonce bytes) now
  | .cleanupExpired now => s.cleanupExpired now
  | .verify a => (s.attempt mac a).1

def before (authKey : String) (calls : List AuthCall) (i : Nat) : AuthState :=
  (calls.take i).foldl (perform mac) (new authKey)

def Succeeds (authKey : String) (calls : List AuthCall) (i : Nat) (a : Attempt) : Prop :=
  calls[i]? = some (.verify a) ∧ ((before mac authKey calls i).attempt mac a).2 = true

def nonceAt (authKey : String) (calls : List AuthCall) (i : Nat) (connId : String) :
    Option String :=
  ((before mac authKey calls i).pending.lookup connId).map PendingAuth.nonce

structure NoReplay (authKey : String) (calls : List AuthCall) : Prop where
  once : ∀ i j a b, Succeeds mac authKey calls i a → Succeeds mac authKey calls j b →
    nonceAt mac authKey calls i a.connId = nonceAt mac authKey calls j b.connId → i = j
  latest : ∀ i a, Succeeds mac authKey calls i a →
    ∃ k bytes now, k < i ∧ calls[k]? = some (.issue a.connId bytes now) ∧
      (∀ j call, k < j → j < i → calls[j]? = some call → call.concerns a.connId = false) ∧
      nonceAt mac authKey calls i a.connId = some (generateNonce bytes) ∧
      a.proof = computeProof mac authKey a.ty a.clientId a.id (generateNonce bytes)
  unrepeated : ∀ i j a b, Succeeds mac authKey calls i a → Succeeds mac authKey calls j b →
    a.proof = b.proof → i = j

end Calls

variable {mac : String → String → String} {authKey : String} {calls : List AuthCall}

theorem perform_authKey (s : AuthState) (call : AuthCall) :
    (s.perform mac call).authKey = s.authKey := by
  cases call with
  | issue connId bytes now => rfl
  | cleanupExpired now => rfl
  | verify a =>
    simp only [perform, attempt, verify]
    split <;> rfl

theorem before_authKey (i : Nat) : (before mac authKey calls i).authKey = authKey := by
  have hfold (s : AuthState) (cs : List AuthCall) :
      (cs.foldl (perform mac) s).authKey = s.authKey := by
    induction cs generalizing s with
    | nil => rfl
    | cons c cs ih => exact (ih (s.perform mac c)).trans (perform_authKey s c)
  exact hfold _ _

-- What a call leaves pending under an id it put there itself or found there, and then it does
-- not concern that id.
theorem perform_pending {s : AuthState} {call : AuthCall} {c : String} {p : PendingAuth}
    (h : (s.perform mac call).pending.lookup c = some p) :
    (∃ bytes now, call = .issue c bytes now ∧ p.nonce = generateNonce bytes) ∨
      call.concerns c = false ∧ s.pending.lookup c = some p := by
  cases call with
  | issue connId bytes now =>
    simp only [perform, issue, AList.lookup_insert_eq] at h
    split at h
    · next hc =>
      cases h
      exact Or.inl ⟨bytes, now, hc ▸ rfl, rfl⟩
    · next hc => exact Or.inr ⟨decide_eq_false (Ne.symm hc), h⟩
  | cleanupExpired now =>
    simp only [perform, cleanupExpired, AList.lookup_retain] at h
    exact Or.inr ⟨rfl, (Option.filter_eq_some_iff.mp h).1⟩
  | verify a =>
    simp only [perform, attempt, verify] at h
    by_cases hc : a.connId = c
    · subst hc
      split at h
      · next hnone =>
        rw [hnone] at h
        cases h
      · rw [AList.lookup_erase] at h
        cases h
    · refine Or.inr ⟨decide_eq_false hc, ?_⟩
      split at h
      · exact h
      · rwa [AList.lookup_erase_ne (Ne.symm hc)] at h

theorem before_succ {i : Nat} {call : AuthCall} (h : calls[i]? = some call) :
    before mac authKey calls (i + 1) = (before mac authKey calls i).perform mac call := by
  rw [before, List.take_add_one, h, Option.toList_some, List.foldl_append]
  rfl

theorem before_end {i : Nat} (h : calls[i]? = none) :
    before mac authKey calls (i + 1) = before mac authKey calls i := by
  rw [before, List.take_add_one, h, Option.toList_none, List.append_nil]
  rfl

theorem pending_issued {i : Nat} {c : String} {p : PendingAuth}
    (h : (before mac authKey calls i).pending.lookup c = some p) :
    ∃ k bytes now, k < i ∧ calls[k]? = some (.issue c bytes now) ∧
      (∀ j call, k < j → j < i → calls[j]? = some call → call.concerns c = false) ∧
      p.nonce = generateNonce bytes := by
  induction i with
  | zero => cases h
  | succ i ih =>
    cases hi : calls[i]? with
    | none =>
      rw [before_end hi] at h
      obtain ⟨k, bytes, now, hk, hissue, hmid, hp⟩ := ih h
      refine ⟨k, bytes, now, Nat.lt_succ_of_lt hk, hissue, fun j call hkj hj hcall => ?_, hp⟩
      rcases Nat.lt_succ_iff_lt_or_eq.mp hj with hj | rfl
      · exact hmid j call hkj hj hcall
      · rw [hi] at hcall
        cases hcall
    | some call =>
      rw [before_succ hi] at h
      rcases perform_pending h with ⟨bytes, now, rfl, hp⟩ | ⟨hfree, hold⟩
      · exact ⟨i, bytes, now, Nat.lt_succ_self i, hi, fun j _ hkj hj => by omega, hp⟩
      · obtain ⟨k, bytes, now, hk, hissue, hmid, hp⟩ := ih hold
        refine ⟨k, bytes, now, Nat.lt_succ_of_lt hk, hissue, fun j call' hkj hj hcall => ?_, hp⟩
        rcases Nat.lt_succ_iff_lt_or_eq.mp hj with hj | rfl
        · exact hmid j call' hkj hj hcall
        · rw [hi] at hcall
          cases hcall
          exact hfree

theorem Succeeds.issued {i : Nat} {a : Attempt} (h : Succeeds mac authKey calls i a) :
    ∃ k bytes now, k < i ∧ calls[k]? = some (.issue a.connId bytes now) ∧
      (∀ j call, k < j → j < i → calls[j]? = some call → call.concerns a.connId = false) ∧
      nonceAt mac authKey calls i a.connId = some (generateNonce bytes) ∧
      a.proof = computeProof mac authKey a.ty a.clientId a.id (generateNonce bytes) := by
  obtain ⟨-, hok⟩ := h
  unfold attempt verify at hok
  split at hok
  · cases hok
  · next p hp =>
    obtain ⟨k, bytes, now, hk, hissue, hmid, hnonce⟩ := pending_issued hp
    refine ⟨k, bytes, now, hk, hissue, hmid, ?_, ?_⟩
    · rw [nonceAt, hp, Option.map_some, hnonce]
    · rw [before_authKey, hnonce] at hok
      exact (of_decide_eq_true hok).symm

theorem issued_once (hfresh : (calls.filterMap AuthCall.nonce).Nodup) {k k' : Nat}
    {c c' : String} {bytes bytes' : Vector UInt8 16} {now now' : Nat}
    (h : calls[k]? = some (.issue c bytes now)) (h' : calls[k']? = some (.issue c' bytes' now'))
    (hn : generateNonce bytes = generateNonce bytes') : k = k' := by
  have hpair := List.pairwise_iff_getElem.mp (List.pairwise_filterMap.mp hfresh)
  obtain ⟨hk, hg⟩ := List.getElem?_eq_some_iff.mp h
  obtain ⟨hk', hg'⟩ := List.getElem?_eq_some_iff.mp h'
  rcases Nat.lt_trichotomy k k' with hlt | heq | hlt
  · exact absurd hn (hpair k k' hk hk' hlt _ (by rw [hg]; rfl) _ (by rw [hg']; rfl))
  · exact heq
  · exact absurd hn.symm (hpair k' k hk' hk hlt _ (by rw [hg']; rfl) _ (by rw [hg]; rfl))

theorem succeeds_once (hfresh : (calls.filterMap AuthCall.nonce).Nodup) {i j : Nat}
    {a b : Attempt} (hi : Succeeds mac authKey calls i a) (hj : Succeeds mac authKey calls j b)
    (hn : nonceAt mac authKey calls i a.connId = nonceAt mac authKey calls j b.connId) :
    i = j := by
  obtain ⟨k, bytes, now, hk, hissue, hmid, hnonce, -⟩ := hi.issued
  obtain ⟨k', bytes', now', hk', hissue', hmid', hnonce', -⟩ := hj.issued
  rw [hnonce, hnonce', Option.some.injEq] at hn
  obtain rfl := issued_once hfresh hissue hissue' hn
  have hconn : a.connId = b.connId := by
    rw [hissue, Option.some.injEq, AuthCall.issue.injEq] at hissue'
    exact hissue'.1
  -- The earlier of two uses of one challenge would lie between its issue and the later use.
  rcases Nat.lt_trichotomy i j with hlt | heq | hlt
  · have hfree := hmid' i _ hk hlt hi.1
    exact absurd hconn (of_decide_eq_false hfree)
  · exact heq
  · have hfree := hmid j _ hk' hlt hj.1
    exact absurd hconn.symm (of_decide_eq_false hfree)

theorem generateNonce_length (bytes : Vector UInt8 16) :
    (generateNonce bytes).toList.length = 32 := by
  rw [generateNonce, String.toList_ofList, Text.hexEncode_length, Vector.length_toList]

theorem macInput_ends (ty clientId id nonce : String) :
    ∃ header, macInput ty clientId id nonce = header ++ nonce :=
  ⟨"cross233/v1\x00" ++ ty ++ "\x00" ++ clientId ++ "\x00" ++ id ++ "\x00", rfl⟩

theorem macInput_nonce {ty clientId id nonce ty' clientId' id' nonce' : String}
    (hlen : nonce.toList.length = nonce'.toList.length)
    (h : macInput ty clientId id nonce = macInput ty' clientId' id' nonce') : nonce = nonce' := by
  obtain ⟨header, hinput⟩ := macInput_ends ty clientId id nonce
  obtain ⟨header', hinput'⟩ := macInput_ends ty' clientId' id' nonce'
  have hchars : header.toList ++ nonce.toList = header'.toList ++ nonce'.toList := by
    rw [← String.toList_append, ← String.toList_append, ← hinput, ← hinput', h]
  exact String.toList_inj.mp (List.append_inj_right' hchars hlen)

theorem proofs_never_replayed (mac : String → String → String) (authKey : String)
    (hmac : Function.Injective (mac authKey)) (calls : List AuthCall)
    (hfresh : (calls.filterMap AuthCall.nonce).Nodup) : NoReplay mac authKey calls where
  once i j a b hi hj hn := succeeds_once hfresh hi hj hn
  latest i a hi := hi.issued
  unrepeated i j a b hi hj hproof := by
    obtain ⟨-, bytes, -, -, -, -, hn, hp⟩ := hi.issued
    obtain ⟨-, bytes', -, -, -, -, hn', hp'⟩ := hj.issued
    rw [hp, hp'] at hproof
    refine succeeds_once hfresh hi hj ?_
    have hlen := (generateNonce_length bytes).trans (generateNonce_length bytes').symm
    rw [hn, hn', macInput_nonce hlen (hmac hproof)]

def nonceBytes (b : UInt8) : Vector UInt8 16 := Vector.replicate 16 b

def aliceProof (b : UInt8) : Attempt where
  connId := "alice"
  ty := "client"
  clientId := "alice"
  id := "alice"
  proof := computeProof (fun key msg => key ++ msg) "secret" "client" "alice" "alice"
    (generateNonce (nonceBytes b))

def aliceCalls : List AuthCall :=
  [.issue "alice" (nonceBytes 1) 0, .cleanupExpired 0, .verify (aliceProof 1),
    .verify (aliceProof 1), .issue "alice" (nonceBytes 2) 10, .verify (aliceProof 2)]

theorem alice_proof_accepted_once :
    (Succeeds (fun key msg => key ++ msg) "secret" aliceCalls 2 (aliceProof 1) ∧
      ¬Succeeds (fun key msg => key ++ msg) "secret" aliceCalls 3 (aliceProof 1) ∧
      Succeeds (fun key msg => key ++ msg) "secret" aliceCalls 5 (aliceProof 2)) ∧
    NoReplay (fun key msg => key ++ msg) "secret" aliceCalls := by
  refine ⟨by unfold Succeeds; decide +kernel, proofs_never_replayed _ "secret" ?_ _ ?_⟩
  · intro msg msg' h
    have hchars := congrArg String.toList h
    simp only [String.toList_append] at hchars
    exact String.toList_inj.mp (List.append_cancel_left hchars)
  · decide +kernel

end AuthState

end Cross233.Server
