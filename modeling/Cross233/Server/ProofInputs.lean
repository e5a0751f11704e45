import Cross233.Library.Lines
import Cross233.Server.Replay

namespace Cross233.Server

structure ProofInput where
  ty : String
  clientId : String
  id : String
  nonce : String
  deriving DecidableEq

def ProofInput.text (t : ProofInput) : String := macInput t.ty t.clientId t.id t.nonce

-- What each handler has the server check a proof for.
def Handshake.input (h : Handshake) (nonce : String) : ProofInput :=
  match h.role with
  | .client => ⟨"client", h.clientId, h.clientId, nonce⟩
  | .tunnel => ⟨"tunnel", "", h.id, nonce⟩
  | .visitor => ⟨"visitor", h.clientId, h.id, nonce⟩

namespace ProofInput

def Verifiable (t : ProofInput) : Prop :=
  ∃ (h : Handshake) (bytes : Vector UInt8 16),
    admits h.role h.clientId h.id = true ∧ t = h.input (generateNonce bytes)

-- A visitor's client id goes on past the other's with a NUL and the text that begins its id.
def Overruns (t other : ProofInput) : Prop :=
  t.ty = "visitor" ∧ other.ty = "visitor" ∧ t.nonce = other.nonce ∧
    ∃ m, t.clientId = other.clientId ++ "\x00" ++ m ∧ other.id = m ++ "\x00" ++ t.id

end ProofInput

theorem Handshake.verify_input (mac : String → String → String) (h : Handshake)
    (auth : AuthState) (proof : String) :
    h.verify (computeProof mac) auth proof =
      match auth.pending.lookup h.key with
      | none => (auth, false)
      | some p =>
        ({ auth with pending := auth.pending.erase h.key },
          decide (mac auth.authKey (h.input p.nonce).text = proof)) := by
  obtain ⟨role, clientId, id, offered, nonce, createdAt, sentAt⟩ := h
  cases role with
  | client => rfl
  | tunnel => rfl
  | visitor => rfl

namespace ProofInput

variable {t other : ProofInput}

theorem text_toList (t : ProofInput) :
    t.text.toList = "cross233/v1\x00".toList ++ (t.ty.toList ++ '\x00' ::
      (t.clientId.toList ++ '\x00' :: t.id.toList)) ++ '\x00' :: t.nonce.toList := by
  have hnul : "\x00".toList = ['\x00'] := rfl
  unfold text macInput
  generalize "cross233/v1\x00" = header
  simp only [String.toList_append, hnul, List.append_assoc, List.cons_append, List.nil_append]

-- The nonce has a fixed length and the type holds no NUL, so only the two ids can run together.
theorem text_eq_iff (hnonce : t.nonce.toList.length = other.nonce.toList.length)
    (hty : '\x00' ∉ t.ty.toList) (hty' : '\x00' ∉ other.ty.toList) :
    t.text = other.text ↔ t.ty = other.ty ∧ t.nonce = other.nonce ∧
      t.clientId.toList ++ '\x00' :: t.id.toList =
        other.clientId.toList ++ '\x00' :: other.id.toList := by
  rw [← String.toList_inj, text_toList, text_toList]
  constructor
  · intro h
    obtain ⟨hhead, htail⟩ := List.append_inj' h (by simp [hnonce])
    injection htail with _ htail
    obtain ⟨hsame, hids⟩ := Lines.append_cons_inj hty hty' (List.append_cancel_left hhead)
    exact ⟨String.toList_inj.mp hsame, String.toList_inj.mp htail, hids⟩
  · rintro ⟨hsame, hsameNonce, hids⟩
    rw [hsame, hsameNonce, hids]

theorem overruns_iff (t other : ProofInput) :
    (∃ m, t.clientId.toList = other.clientId.toList ++ '\x00' :: m ∧
        other.id.toList = m ++ '\x00' :: t.id.toList) ↔
      ∃ m, t.clientId = other.clientId ++ "\x00" ++ m ∧ other.id = m ++ "\x00" ++ t.id := by
  have hpart (m : List Char) : t.clientId.toList = other.clientId.toList ++ '\x00' :: m ∧
        other.id.toList = m ++ '\x00' :: t.id.toList ↔
      t.clientId = other.clientId ++ "\x00" ++ String.ofList m ∧
        other.id = String.ofList m ++ "\x00" ++ t.id := by
    rw [← String.toList_inj, ← String.toList_inj]
    simp [String.toList_append, List.append_assoc]
  constructor
  · rintro ⟨m, hm⟩
    exact ⟨String.ofList m, (hpart m).mp hm⟩
  · rintro ⟨m, hm⟩
    exact ⟨m.toList, (hpart m.toList).mpr (by rwa [String.ofList_toList])⟩

theorem ids_eq_iff :
    t.clientId.toList ++ '\x00' :: t.id.toList =
        other.clientId.toList ++ '\x00' :: other.id.toList ↔
      (t.clientId = other.clientId ∧ t.id = other.id) ∨
      (∃ m, t.clientId = other.clientId ++ "\x00" ++ m ∧ other.id = m ++ "\x00" ++ t.id) ∨
      ∃ m, other.clientId = t.clientId ++ "\x00" ++ m ∧ t.id = m ++ "\x00" ++ other.id := by
  rw [Lines.append_cons_eq_iff]
  refine or_congr (and_congr String.toList_inj String.toList_inj) ?_
  exact or_congr (overruns_iff t other) (overruns_iff other t)

def roleText : Role → String
  | .client => "client"
  | .tunnel => "tunnel"
  | .visitor => "visitor"

theorem roleText_inj {role role' : Role} (h : roleText role = roleText role') : role = role' := by
  cases role <;> cases role' <;> first | rfl | exact absurd h (by decide)

-- A client's two ids are one, and a tunnel has only one.
structure Form (t : ProofInput) (role : Role) : Prop where
  ty : t.ty = roleText role
  client : role = .client → t.id = t.clientId
  tunnel : role = .tunnel → t.clientId = ""
  nonce : t.nonce.toList.length = 32

theorem Verifiable.form (h : t.Verifiable) : ∃ role, t.Form role := by
  obtain ⟨⟨role, clientId, id, offered, nonce, createdAt, sentAt⟩, bytes, -, rfl⟩ := h
  have hlen := AuthState.generateNonce_length bytes
  refine ⟨role, ?_⟩
  cases role with
  | client => exact ⟨rfl, fun _ => rfl, (fun h => by cases h), hlen⟩
  | tunnel => exact ⟨rfl, (fun h => by cases h), fun _ => rfl, hlen⟩
  | visitor => exact ⟨rfl, (fun h => by cases h), (fun h => by cases h), hlen⟩

theorem Form.text_eq_iff {role role' : Role} (h : t.Form role) (h' : other.Form role') :
    t.text = other.text ↔ t.ty = other.ty ∧ t.nonce = other.nonce ∧
      t.clientId.toList ++ '\x00' :: t.id.toList =
        other.clientId.toList ++ '\x00' :: other.id.toList := by
  have hclean (role : Role) : '\x00' ∉ (roleText role).toList := by
    cases role <;> decide
  refine ProofInput.text_eq_iff (h.nonce.trans h'.nonce.symm) ?_ ?_
  · rw [h.ty]
    exact hclean role
  · rw [h'.ty]
    exact hclean role'

theorem overrun_or_eq (ht : t.Verifiable) (hother : other.Verifiable) (h : t.text = other.text) :
    t = other ∨ t.Overruns other ∨ other.Overruns t := by
  obtain ⟨role, hform⟩ := ht.form
  obtain ⟨role', hform'⟩ := hother.form
  obtain ⟨hty, hnonce, hids⟩ := (hform.text_eq_iff hform').mp h
  have hrole : role = role' := roleText_inj (hform.ty.symm.trans (hty.trans hform'.ty))
  subst hrole
  have heq (hc : t.clientId = other.clientId) : t = other := by
    have hid : t.id = other.id := by
      rw [hc, List.append_right_inj, List.cons_inj_right] at hids
      exact String.toList_inj.mp hids
    cases t
    cases other
    simp_all
  cases role with
  | client =>
    refine .inl (heq ?_)
    have hlength := congrArg List.length hids
    simp only [List.length_append, List.length_cons, hform.client rfl, hform'.client rfl]
      at hlength
    exact String.toList_inj.mp (List.append_inj_left hids (by omega))
  | tunnel => exact .inl (heq ((hform.tunnel rfl).trans (hform'.tunnel rfl).symm))
  | visitor =>
    rcases ids_eq_iff.mp hids with ⟨hc, -⟩ | hover | hover
    · exact .inl (heq hc)
    · exact .inr (.inl ⟨hform.ty, hform'.ty, hnonce, hover⟩)
    · exact .inr (.inr ⟨hform'.ty, hform.ty, hnonce.symm, hover⟩)

theorem proofs_distinct_iff (t other : ProofInput) (ht : t.Verifiable) (hother : other.Verifiable)
    (hne : t ≠ other) : t.text ≠ other.text ↔ ¬(t.Overruns other ∨ other.Overruns t) := by
  obtain ⟨role, hform⟩ := ht.form
  obtain ⟨role', hform'⟩ := hother.form
  refine not_congr ⟨fun h => (overrun_or_eq ht hother h).resolve_left hne, ?_⟩
  rintro (⟨hty, hty', hnonce, hm⟩ | ⟨hty', hty, hnonce, hm⟩)
  · exact (hform.text_eq_iff hform').mpr
      ⟨hty.trans hty'.symm, hnonce, ids_eq_iff.mpr (.inr (.inl hm))⟩
  · exact (hform.text_eq_iff hform').mpr
      ⟨hty.trans hty'.symm, hnonce.symm, ids_eq_iff.mpr (.inr (.inr hm))⟩

def oneNonce : String := generateNonce (AuthState.nonceBytes 1)

def handshakeOf (role : Role) (clientId id : String) : Handshake :=
  ⟨role, clientId, id, none, oneNonce, 0, true, none⟩

theorem handshakeOf_verifiable {role : Role} {clientId id : String}
    (h : admits role clientId id = true) :
    ((handshakeOf role clientId id).input oneNonce).Verifiable :=
  ⟨handshakeOf role clientId id, AuthState.nonceBytes 1, h, rfl⟩

theorem client_and_visitor_proofs_distinct :
    ((handshakeOf .client "a" "").input oneNonce).text ≠
      ((handshakeOf .visitor "a" "a").input oneNonce).text := by
  refine (proofs_distinct_iff _ _ (handshakeOf_verifiable (by decide))
    (handshakeOf_verifiable rfl) (by decide)).mpr ?_
  rintro (⟨hty, -⟩ | ⟨-, hty, -⟩)
  · exact absurd hty (by decide)
  · exact absurd hty (by decide)

-- The proof that a visitor "a" computes for the id "b NUL c" lets in a visitor "a NUL b" for "c".
theorem visitor_proofs_collide :
    ((handshakeOf .visitor "a\x00b" "c").input oneNonce).Verifiable ∧
      ((handshakeOf .visitor "a" "b\x00c").input oneNonce).Verifiable ∧
      (handshakeOf .visitor "a\x00b" "c").input oneNonce ≠
        (handshakeOf .visitor "a" "b\x00c").input oneNonce ∧
      ((handshakeOf .visitor "a\x00b" "c").input oneNonce).text =
        ((handshakeOf .visitor "a" "b\x00c").input oneNonce).text ∧
      (Machine.run (Handshakes.step (computeProof fun key msg => key ++ msg))
        (Handshakes.start "secret")
        [.hello .visitor "a\x00b" "c" none oneNonce 0, .cleanup 0 0, .sent 0 0,
          .answer 0 (computeProof (fun key msg => key ++ msg) "secret" "visitor" "a" "b\x00c"
            oneNonce) 0]).map Handshakes.verdicts = some [(0, true)] := by
  refine ⟨handshakeOf_verifiable rfl, handshakeOf_verifiable rfl, by decide, ?_, ?_⟩
  · decide +kernel
  · decide +kernel

end ProofInput

end Cross233.Server
