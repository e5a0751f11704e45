import Cross233.Control.Handshake

namespace Cross233.Control

open Protocol Server

structure Codec.Speaks (codec : Codec) (mac : String → String → String) (d : Dialer)
    (nonce : String) : Prop where
  hello : codec.Carries d.hello
  challenge : codec.Carries (.newChallenge nonce)
  challengeShort : (codec.body (.newChallenge nonce)).length ≤ maxNdjsonBytes
  auth : codec.Carries (.newAuth (d.prove mac nonce))
  clientReady : d.role = .client → ∀ services p q, codec.Carries (.newReady services p q)
  clientError : d.role = .client → ∀ message, codec.Carries (.newError message)
  tunnelReady : d.role = .tunnel → codec.Carries (.newReady [] 0 0)
  tunnelReadyShort : d.role = .tunnel → (codec.body (.newReady [] 0 0)).length ≤ maxNdjsonBytes

namespace HandshakeState

def spares (auth : AuthState) (key : String) : AuthCall → Bool
  | .cleanupExpired now =>
    (auth.pending.lookup key).all (fun p => now - p.createdAt < challengeTtl)
  | call => !call.concerns key

def pends (s : HandshakeState) (key : String) (now : Nat) : Bool :=
  match s.handler with
  | .issued _ _ _ => spares s.auth key (.cleanupExpired now)
  | .claiming tunnelId => tunnelId ∈ s.pendingWork
  | _ => true

-- What agreement supposes of the rest of the world: no message is late, no cleanup drops this
-- connection's challenge, the others leave it alone, and the tunnel id is pending when claimed.
def Quiet (d : Dialer) (s : HandshakeState) : HandshakeEvent → Prop
  | .dial => True
  | .handle now _ => s.pends d.key now = true
  | .timeout => False
  | .otherAuth call => spares s.auth d.key call = true
  | .otherSession _ => True
  | .otherTunnels _ => True

instance (d : Dialer) (s : HandshakeState) (e : HandshakeEvent) : Decidable (s.Quiet d e) := by
  unfold Quiet
  split <;> infer_instance

-- The next service of a control client can be exposed; the ready message fits the client's line.
def grants (codec : Codec) (s : HandshakeState) (bind : Except String Unit)
    (session : Session) : Bool :=
  match session.pending with
  | svc :: _ => (s.server.exposeService svc bind).isOk
  | [] =>
    (codec.body (.newReady session.assigned s.server.qcpPort s.server.qcpTunnelPort)).length ≤
      maxNdjsonBytes

def Granted (codec : Codec) (s : HandshakeState) : HandshakeEvent → Prop
  | .handle _ bind => ∀ ch ∈ s.handler.channel, ∀ session ∈ s.server.sessions.lookup ch,
      s.grants codec bind session = true
  | _ => True

instance (codec : Codec) (s : HandshakeState) (e : HandshakeEvent) :
    Decidable (s.Granted codec e) := by
  unfold Granted
  split <;> infer_instance

structure Agrees (codec : Codec) (mac : String → String → String) (d : Dialer) (nonce : String)
    (s : HandshakeState) : Prop where
  moving : s.settled = false →
    ∃ e, e.isOwn = true ∧ (s.step codec mac d nonce e).isSome = true
  success : s.settled = true → s.verdict = some true ∧ s.handler.closed = false ∧
    ∃ msg, s.dial = .ready msg ∧ msg.ty = "ready"

structure At (d : Dialer) (s : HandshakeState) (dial : DialPhase) (toServer toClient : List UInt8)
    (handler : HandlerPhase) : Prop where
  dial : s.dial = dial
  toServer : s.toServer = toServer
  toClient : s.toClient = toClient
  handler : s.handler = handler
  authKey : s.auth.authKey = d.authKey

def Remembers (d : Dialer) (nonce : String) (s : HandshakeState) : Prop :=
  (s.auth.pending.lookup d.key).map PendingAuth.nonce = some nonce

-- The joint states of an undisturbed handshake, with how many steps of the two programs are
-- still to come at most.
inductive Stage (codec : Codec) (mac : String → String → String) (d : Dialer) (nonce : String)
    (s : HandshakeState) : Nat → Prop where
  | connected (hat : At d s .connected [] [] .initial) :
      Stage codec mac d nonce s (11 + d.services.length)
  | greeted (hat : At d s .awaitingChallenge (codec.line d.hello) [] .initial) :
      Stage codec mac d nonce s (10 + d.services.length)
  | issued (hadm : d.admitted codec = true)
      (hat : At d s .awaitingChallenge [] [] (.issued d.role d.hello nonce))
      (hp : Remembers d nonce s) : Stage codec mac d nonce s (9 + d.services.length)
  | challenging (hadm : d.admitted codec = true)
      (hat : At d s .awaitingChallenge [] [] (.challenging d.role d.hello nonce))
      (hp : Remembers d nonce s) : Stage codec mac d nonce s (8 + d.services.length)
  | challenged (hadm : d.admitted codec = true)
      (hat : At d s .awaitingChallenge [] (codec.line (.newChallenge nonce))
        (.awaiting d.role d.hello)) (hp : Remembers d nonce s) :
      Stage codec mac d nonce s (7 + d.services.length)
  | answering (hadm : d.admitted codec = true)
      (hat : At d s (.answering (d.prove mac nonce)) [] [] (.awaiting d.role d.hello))
      (hp : Remembers d nonce s) : Stage codec mac d nonce s (6 + d.services.length)
  | answered (hadm : d.admitted codec = true)
      (hat : At d s .awaitingReady (codec.line (.newAuth (d.prove mac nonce))) []
        (.awaiting d.role d.hello)) (hp : Remembers d nonce s) :
      Stage codec mac d nonce s (5 + d.services.length)
  | verifying (hadm : d.admitted codec = true) (hat : At d s .awaitingReady [] []
        (.verifying d.role d.hello (d.prove mac nonce))) (hp : Remembers d nonce s) :
      Stage codec mac d nonce s (4 + d.services.length)
  | registering (hadm : d.admitted codec = true) (hrole : d.role = .client)
      (hat : At d s .awaitingReady [] [] (.registering d.hello)) (hv : s.verdict = some true) :
      Stage codec mac d nonce s (3 + d.services.length)
  | exposing (hadm : d.admitted codec = true) (hrole : d.role = .client) (ch : Channel)
      (session : Session) (hat : At d s .awaitingReady [] [] (.exposing ch))
      (hch : ch < s.server.nextChannel) (hl : s.server.sessions.lookup ch = some session)
      (hv : s.verdict = some true) : Stage codec mac d nonce s (2 + session.pending.length)
  | claiming (hadm : d.admitted codec = true) (hrole : d.role = .tunnel)
      (hat : At d s .awaitingReady [] [] (.claiming d.id)) (hv : s.verdict = some true) :
      Stage codec mac d nonce s (3 + d.services.length)
  | delivering (hadm : d.admitted codec = true) (hrole : d.role = .tunnel)
      (hat : At d s .awaitingReady [] [] .delivering) (hv : s.verdict = some true) :
      Stage codec mac d nonce s 2
  | replied (hadm : d.admitted codec = true) (hrole : d.role ≠ .visitor)
      (services : List Service) (p q : UInt16)
      (hc : codec.Carries (.newReady services p q))
      (hlen : (codec.body (.newReady services p q)).length ≤ maxNdjsonBytes)
      (hat : At d s .awaitingReady [] (codec.line (.newReady services p q)) .serving)
      (hv : s.verdict = some true) : Stage codec mac d nonce s 1
  | agreed (hadm : d.admitted codec = true) (hrole : d.role ≠ .visitor)
      (services : List Service) (p q : UInt16)
      (hat : At d s (.ready (.newReady services p q)) [] [] .serving)
      (hv : s.verdict = some true) : Stage codec mac d nonce s 0

-- A connection that the server drops, whose service it refuses, or whose ready message is too
-- long for the client: its client end reads no ready message any more.
inductive Doomed (codec : Codec) (s : HandshakeState) : Prop where
  | refusing (message : String) (hc : codec.Carries (.newError message))
      (hd : s.dial = .awaitingReady) (htc : s.toClient = [])
      (hh : s.handler = .refusing (.newError message) (.cannotExpose message))
  | refused (message : String) (hc : codec.Carries (.newError message))
      (hd : s.dial = .awaitingReady) (htc : s.toClient = codec.line (.newError message))
      (hh : s.handler = .returned (.error (.cannotExpose message)))
  | dropped (result : Except HandlerError Unit)
      (hd : s.dial = .awaitingChallenge ∨ s.dial = .awaitingReady) (htc : s.toClient = [])
      (hh : s.handler = .returned result)
  | overlong (msg : Message) (hc : codec.Carries msg)
      (hlen : maxNdjsonBytes < (codec.body msg).length) (hd : s.dial = .awaitingReady)
      (htc : s.toClient = codec.line msg) (hh : s.handler = .serving)
  | failed (error : DialError) (hd : s.dial = .failed error) (hh : s.handler.settled = true)

end HandshakeState

namespace HandshakeState

variable {codec : Codec} {mac : String → String → String} {d : Dialer} {nonce : String}
  {s s' : HandshakeState}

theorem dial_waits (hd : s.dial = .awaitingChallenge ∨ s.dial = .awaitingReady)
    (hin : s.toClient = []) (hopen : s.handler.closed = false) :
    s.dialStep codec mac d = none := by
  have hread : readNdjson codec s.toClient s.handler.closed = none := by
    rw [hin, hopen]
    rfl
  rcases hd with hd | hd
  · simp only [dialStep, hd, hread, Option.map_none]
  · simp only [dialStep, hd, hread, Option.map_none]

theorem handle_waits {now : Nat} {bind : Except String Unit}
    (hh : s.handler = .initial ∨ ∃ role first, s.handler = .awaiting role first)
    (hin : s.toServer = []) (hopen : s.dial.closed = false) :
    s.handle codec mac nonce now bind = none := by
  rcases hh with hh | ⟨role, first, hh⟩
  · have hread : readInitialMessage codec s.toServer s.dial.closed = none := by
      rw [hin, hopen]
      rfl
    simp only [handle, hh, hread, Option.map_none]
  · have hread : readLine codec s.toServer s.dial.closed = none := by
      rw [hin, hopen]
      rfl
    simp only [handle, hh, hread, Option.map_none]

theorem challenge_hello (s : HandshakeState) (now : Nat) :
    s.challenge d.role d.hello nonce now = { s with
      auth := s.auth.issue d.key nonce now
      handler := .issued d.role d.hello nonce } := by
  unfold challenge Dialer.hello Dialer.key
  cases d.role with
  | client => rfl
  | tunnel => rfl
  | visitor => rfl

theorem handleConnection_hello (s : HandshakeState) (now : Nat)
    (h : admits d.role d.clientId d.id = true) :
    s.handleConnection nonce now (.ok d.hello) = { s with
      auth := s.auth.issue d.key nonce now
      handler := .issued d.role d.hello nonce } := by
  rw [← challenge_hello]
  unfold Dialer.hello
  cases hrole : d.role with
  | client =>
    have hid : d.clientId ≠ "" := by simpa [admits, hrole] using h
    simp [handleConnection, Message.newClientHello, hid]
  | tunnel =>
    have hid : d.id ≠ "" := by simpa [admits, hrole] using h
    simp [handleConnection, Message.newTunnelHello, hid]
  | visitor => rfl

theorem greeting_refused (hcodec : codec.Speaks mac d nonce) (hadm : d.admitted codec = false)
    (s : HandshakeState) (now : Nat) :
    ∃ r error, readInitialMessage codec (codec.line d.hello) false = some (r, []) ∧
      s.handleConnection nonce now r = s.goto (.returned (.error error)) := by
  by_cases hlen : maxInitialMessageBytes < (codec.body d.hello).length
  · exact ⟨_, .read .tooLong, readInitialMessage_long hcodec.hello hlen false, rfl⟩
  · have hread := readInitialMessage_line hcodec.hello (Nat.not_lt.mp hlen) false
    have hid : admits d.role d.clientId d.id = false := by
      simpa [Dialer.admitted, Nat.not_lt.mp hlen] using hadm
    cases hrole : d.role with
    | client =>
      refine ⟨.ok d.hello, .emptyClientId, hread, ?_⟩
      have hempty : d.clientId = "" := by simpa [admits, hrole] using hid
      simp [handleConnection, Dialer.hello, hrole, Message.newClientHello, hempty]
    | tunnel =>
      refine ⟨.ok d.hello, .emptyTunnelId, hread, ?_⟩
      have hempty : d.id = "" := by simpa [admits, hrole] using hid
      simp [handleConnection, Dialer.hello, hrole, Message.newTunnelHello, hempty]
    | visitor => simp [admits, hrole] at hid

theorem onAnswer_auth (role : Server.Role) (first : Message) (proof : String) :
    HandlerPhase.onAnswer role first (.ok (.newAuth proof)) = .verifying role first proof := by
  cases role with
  | client => rfl
  | tunnel => rfl
  | visitor => rfl

theorem handle_greeting (hcodec : codec.Speaks mac d nonce) (hadm : d.admitted codec = true)
    (hh : s.handler = .initial) (hin : s.toServer = codec.line d.hello) (now : Nat)
    (bind : Except String Unit) :
    s.handle codec mac nonce now bind = some { s with
      toServer := []
      auth := s.auth.issue d.key nonce now
      handler := .issued d.role d.hello nonce } := by
  simp only [Dialer.admitted, Bool.and_eq_true, decide_eq_true_eq] at hadm
  simp only [handle, hh, hin, readInitialMessage_line hcodec.hello hadm.2, Option.map_some,
    handleConnection_hello _ _ hadm.1]

theorem dial_challenge (hcodec : codec.Speaks mac d nonce) (hd : s.dial = .awaitingChallenge)
    (hin : s.toClient = codec.line (.newChallenge nonce)) :
    s.dialStep codec mac d = some { s with
      dial := .answering (d.prove mac nonce), toClient := [] } := by
  simp only [dialStep, hd, hin, readNdjson_line hcodec.challenge hcodec.challengeShort,
    Option.map_some]
  rfl

theorem handle_answer (hcodec : codec.Speaks mac d nonce)
    (hh : s.handler = .awaiting d.role d.hello)
    (hin : s.toServer = codec.line (.newAuth (d.prove mac nonce))) (now : Nat)
    (bind : Except String Unit) :
    s.handle codec mac nonce now bind = some { s with
      toServer := [], handler := .verifying d.role d.hello (d.prove mac nonce) } := by
  simp only [handle, hh, hin, readLine_line hcodec.auth, onAnswer_auth, Option.map_some]
  rfl

theorem onReply_ready (d : Dialer) (services : List Service) (p q : UInt16) :
    d.onReply (.ok (.newReady services p q)) = .ready (.newReady services p q) := by
  have hready : d.succeeds "ready" = true := by
    unfold Dialer.succeeds
    cases d.role with
    | client => rfl
    | tunnel => rfl
    | visitor => rfl
  simp [Dialer.onReply, Message.newReady, hready]

theorem Remembers.issued (auth : AuthState) (now : Nat) :
    ((auth.issue d.key nonce now).pending.lookup d.key).map PendingAuth.nonce = some nonce := by
  simp [AuthState.issue]

theorem onIssued_hello (d : Dialer) (nonce : String) :
    HandlerPhase.onIssued d.role d.hello nonce = .challenging d.role d.hello nonce := by
  unfold HandlerPhase.onIssued Dialer.hello
  cases d.role with
  | client => rfl
  | tunnel => rfl
  | visitor => rfl

theorem verify_accepts (h : Remembers d nonce s) (hkey : s.auth.authKey = d.authKey) :
    (s.auth.attempt mac (attempt d.role d.hello (d.prove mac nonce))).2 = true := by
  obtain ⟨p, hp, hn⟩ := Option.map_eq_some_iff.mp h
  unfold Dialer.key at hp
  unfold attempt Dialer.hello Dialer.prove
  cases hrole : d.role with
  | client =>
    rw [hrole] at hp
    simp [AuthState.attempt, AuthState.verify, AuthState.verifyProof, Message.newClientHello,
      hkey, connId, hn, show s.auth.pending.lookup d.clientId = some p from hp]
  | tunnel =>
    rw [hrole] at hp
    simp [AuthState.attempt, AuthState.verify, AuthState.verifyProof, Message.newTunnelHello,
      hkey, connId, hn, show s.auth.pending.lookup ("tunnel:" ++ d.id) = some p from hp]
  | visitor =>
    rw [hrole] at hp
    simp [AuthState.attempt, AuthState.verify, AuthState.verifyProof, Message.newVisitorHello,
      hkey, connId, hn, show s.auth.pending.lookup ("visitor:" ++ d.id) = some p from hp]

theorem Stage.dial (hcodec : codec.Speaks mac d nonce) {k : Nat} (h : Stage codec mac d nonce s k)
    (hs : s.dialStep codec mac d = some s') : ∃ k' < k, Stage codec mac d nonce s' k' := by
  have stuck (hd : s.dial = .awaitingChallenge ∨ s.dial = .awaitingReady)
      (hin : s.toClient = []) (hopen : s.handler.closed = false) :
      ∃ k' < k, Stage codec mac d nonce s' k' := by
    rw [dial_waits hd hin hopen] at hs
    cases hs
  cases h with
  | connected hat =>
    simp only [dialStep, hat.dial, Option.some.injEq] at hs
    subst hs
    refine ⟨_, by omega, .greeted ⟨rfl, ?_, hat.toClient, hat.handler, hat.authKey⟩⟩
    simp only [writeNdjson, hat.toServer, List.nil_append]
  | greeted hat => exact stuck (.inl hat.dial) hat.toClient (by rw [hat.handler]; rfl)
  | issued hadm hat hp => exact stuck (.inl hat.dial) hat.toClient (by rw [hat.handler]; rfl)
  | challenging hadm hat hp => exact stuck (.inl hat.dial) hat.toClient (by rw [hat.handler]; rfl)
  | challenged hadm hat hp =>
    rw [dial_challenge hcodec hat.dial hat.toClient] at hs
    cases hs
    exact ⟨_, by omega, .answering hadm ⟨rfl, hat.toServer, rfl, hat.handler, hat.authKey⟩ hp⟩
  | answering hadm hat hp =>
    simp only [dialStep, hat.dial, Option.some.injEq] at hs
    subst hs
    refine ⟨_, by omega, .answered hadm ⟨rfl, ?_, hat.toClient, hat.handler, hat.authKey⟩ hp⟩
    simp only [writeNdjson, hat.toServer, List.nil_append]
  | answered hadm hat hp => exact stuck (.inr hat.dial) hat.toClient (by rw [hat.handler]; rfl)
  | verifying hadm hat hp => exact stuck (.inr hat.dial) hat.toClient (by rw [hat.handler]; rfl)
  | registering hadm hrole hat hv =>
    exact stuck (.inr hat.dial) hat.toClient (by rw [hat.handler]; rfl)
  | exposing hadm hrole ch session hat hch hl hv =>
    exact stuck (.inr hat.dial) hat.toClient (by rw [hat.handler]; rfl)
  | claiming hadm hrole hat hv =>
    exact stuck (.inr hat.dial) hat.toClient (by rw [hat.handler]; rfl)
  | delivering hadm hrole hat hv =>
    exact stuck (.inr hat.dial) hat.toClient (by rw [hat.handler]; rfl)
  | replied hadm hrole services p q hc hlen hat hv =>
    simp only [dialStep, hat.dial, hat.toClient, readNdjson_line hc hlen, onReply_ready,
      Option.map_some, Option.some.injEq] at hs
    subst hs
    exact ⟨0, Nat.zero_lt_one, .agreed hadm hrole services p q
      ⟨rfl, hat.toServer, rfl, hat.handler, hat.authKey⟩ hv⟩
  | agreed hadm hrole services p q hat hv =>
    simp only [dialStep, hat.dial] at hs
    cases hs

theorem registerAll_length (r : SharedServiceState) (clientId : String) (tx : Channel)
    (services : List Service) :
    (r.registerAll clientId tx services).2.length ≤ services.length := by
  induction services generalizing r with
  | nil => exact Nat.le_refl 0
  | cons svc services ih =>
    have htail := ih (r.registerService clientId tx svc).1
    have hhead : (r.registerService clientId tx svc).2.toList.length ≤ 1 := by
      cases (r.registerService clientId tx svc).2 with
      | none => exact Nat.zero_le 1
      | some svc' => exact Nat.le_refl 1
    simp only [SharedServiceState.registerAll, List.length_append, List.length_cons]
    omega

theorem Stage.verified (hadm : d.admitted codec = true)
    (hat : At d s .awaitingReady [] [] (.verifying d.role d.hello (d.prove mac nonce)))
    (hp : Remembers d nonce s) :
    Stage codec mac d nonce (s.verify mac d.role d.hello (d.prove mac nonce))
        (3 + d.services.length) ∨
      d.role = .visitor ∧ Doomed codec (s.verify mac d.role d.hello (d.prove mac nonce)) := by
  have hok : (s.auth.attempt mac (attempt d.role d.hello (d.prove mac nonce))).2 = true :=
    verify_accepts hp hat.authKey
  have hkey : (s.auth.attempt mac (attempt d.role d.hello (d.prove mac nonce))).1.authKey =
      d.authKey := (AuthState.perform_authKey s.auth (.verify _)).trans hat.authKey
  cases hr : d.role with
  | client =>
    refine .inl (.registering hadm hr ⟨hat.dial, hat.toServer, hat.toClient, ?_, ?_⟩ ?_)
    · rw [hr] at hok
      simp only [verify, hok, HandlerPhase.onVerdict]
    · rw [hr] at hkey
      exact hkey
    · rw [hr] at hok
      simp only [verify, hok]
  | tunnel =>
    have hid : d.hello.id.getD "" = d.id := by simp [Dialer.hello, hr, Message.newTunnelHello]
    refine .inl (.claiming hadm hr ⟨hat.dial, hat.toServer, hat.toClient, ?_, ?_⟩ ?_)
    · rw [hr] at hok
      simp only [verify, hok, HandlerPhase.onVerdict, hid]
    · rw [hr] at hkey
      exact hkey
    · rw [hr] at hok
      simp only [verify, hok]
  | visitor =>
    -- The proof is right, and the handler returns without a word.
    refine .inr ⟨rfl, .dropped (.ok ()) (.inr hat.dial) hat.toClient ?_⟩
    rw [hr] at hok
    simp only [verify, hok, HandlerPhase.onVerdict]

theorem Stage.registered (hadm : d.admitted codec = true) (hrole : d.role = .client)
    (hat : At d s .awaitingReady [] [] (.registering d.hello)) (hv : s.verdict = some true) :
    ∃ k < 3 + d.services.length, Stage codec mac d nonce (s.register d.hello) k := by
  have hassigned := registerAll_length
    (s.server.registry.attachControl d.clientId s.server.nextChannel) d.clientId
    s.server.nextChannel d.services
  have hl : (s.register d.hello).server.sessions.lookup s.server.nextChannel = some
      ⟨d.clientId, (s.server.registry.registerServices d.clientId s.server.nextChannel
          d.services).2,
        (s.server.registry.registerServices d.clientId s.server.nextChannel d.services).2,
        false⟩ := by
    simp [register, ServerState.hello, Dialer.hello, hrole, Message.newClientHello]
  refine ⟨_, ?_, .exposing hadm hrole s.server.nextChannel _
    ⟨hat.dial, hat.toServer, hat.toClient, rfl, hat.authKey⟩ (Nat.lt_succ_self _) hl hv⟩
  dsimp only [SharedServiceState.registerServices]
  omega

theorem Stage.exposed (hcodec : codec.Speaks mac d nonce) {bind : Except String Unit}
    (hadm : d.admitted codec = true) (hrole : d.role = .client) {ch : Channel} {session : Session}
    (hat : At d s .awaitingReady [] [] (.exposing ch)) (hch : ch < s.server.nextChannel)
    (hl : s.server.sessions.lookup ch = some session) (hv : s.verdict = some true)
    (hs : s.expose codec ch bind = some s') :
    (s.grants codec bind session = true ∧
        ∃ k < 2 + session.pending.length, Stage codec mac d nonce s' k) ∨
      s.grants codec bind session = false ∧ Doomed codec s' := by
  unfold expose at hs
  rw [hl] at hs
  unfold grants
  cases hp : session.pending with
  | nil =>
    simp only [Option.bind_eq_bind, Option.bind_some, hp, Option.some.injEq] at hs
    subst hs
    have hreply := hcodec.clientReady hrole session.assigned s.server.qcpPort
      s.server.qcpTunnelPort
    by_cases hlen : (codec.body (.newReady session.assigned s.server.qcpPort
        s.server.qcpTunnelPort)).length ≤ maxNdjsonBytes
    · refine .inl ⟨decide_eq_true hlen, 1, by simp, .replied hadm (by simp [hrole]) _ _ _ hreply
        hlen ⟨hat.dial, hat.toServer, ?_, rfl, hat.authKey⟩ hv⟩
      simp only [goto, sendLine, hat.toClient, List.nil_append]
    · refine .inr ⟨decide_eq_false hlen, .overlong _ hreply (Nat.not_le.mp hlen) hat.dial ?_ rfl⟩
      simp only [goto, sendLine, hat.toClient, List.nil_append]
  | cons svc pending =>
    cases ht : s.server.exposeService svc bind with
    | error message =>
      simp only [Option.bind_eq_bind, Option.bind_some, hp, ht, Option.some.injEq] at hs
      subst hs
      exact .inr ⟨by simp only [ht]; rfl,
        .refusing message (hcodec.clientError hrole message) hat.dial hat.toClient rfl⟩
    | ok t =>
      simp only [Option.bind_eq_bind, Option.bind_some, hp, ht, Option.some.injEq] at hs
      subst hs
      have hexp := ServerState.exposeService_cases ht
      have hnext : t.nextChannel = s.server.nextChannel := by
        cases hexp with
        | unchanged => rfl
        | tcp => rfl
        | udp => rfl
      refine .inl ⟨by simp only [ht]; rfl, 2 + pending.length,
        by simp only [List.length_cons]; omega,
        .exposing hadm hrole ch { session with pending := pending }
        ⟨hat.dial, hat.toServer, hat.toClient, hat.handler, hat.authKey⟩ ?_ ?_ hv⟩
      · simp only [ServerState.expose, ht, hnext]
        exact hch
      · simp only [ServerState.expose, ht, AList.lookup_insert]

theorem Doomed.fails (h : Doomed codec s) (hset : s.settled = true) :
    ∃ error, s.dial = .failed error := by
  have waiting (hd : s.dial.settled = false) : ∃ error, s.dial = .failed error := by
    simp [settled, hd] at hset
  cases h with
  | refusing message hc hd htc hh => exact waiting (by rw [hd]; rfl)
  | refused message hc hd htc hh => exact waiting (by rw [hd]; rfl)
  | dropped result hd htc hh =>
    rcases hd with hd | hd
    · exact waiting (by rw [hd]; rfl)
    · exact waiting (by rw [hd]; rfl)
  | overlong msg hc hlen hd htc hh => exact waiting (by rw [hd]; rfl)
  | failed error hd hh => exact ⟨error, hd⟩

theorem Doomed.frame (h : Doomed codec s) (hd : s'.dial = s.dial)
    (htc : s'.toClient = s.toClient) (hh : s'.handler = s.handler) : Doomed codec s' := by
  cases h with
  | refusing message hc h₁ h₂ h₃ =>
    exact .refusing message hc (hd.trans h₁) (htc.trans h₂) (hh.trans h₃)
  | refused message hc h₁ h₂ h₃ =>
    exact .refused message hc (hd.trans h₁) (htc.trans h₂) (hh.trans h₃)
  | dropped result h₁ h₂ h₃ =>
    exact .dropped result (h₁.imp hd.trans hd.trans) (htc.trans h₂) (hh.trans h₃)
  | overlong msg hc hlen h₁ h₂ h₃ =>
    exact .overlong msg hc hlen (hd.trans h₁) (htc.trans h₂) (hh.trans h₃)
  | failed error h₁ h₃ => exact .failed error (hd.trans h₁) (by rw [hh]; exact h₃)

theorem Doomed.dial (h : Doomed codec s) (hs : s.dialStep codec mac d = some s') :
    Doomed codec s' := by
  cases h with
  | refusing message hc hd htc hh =>
    rw [dial_waits (.inr hd) htc (by rw [hh]; rfl)] at hs
    cases hs
  | refused message hc hd htc hh =>
    simp only [dialStep, hd, htc, readNdjson, readBytes_line hc, Option.map_some,
      Option.some.injEq] at hs
    subst hs
    split
    · exact .failed _ rfl (by rw [hh]; rfl)
    · simp only [Except.bind, decode_lossyText hc]
      exact .failed _ rfl (by rw [hh]; rfl)
  | dropped result hd htc hh =>
    have hread : readNdjson codec s.toClient s.handler.closed = some (.error .eof, []) := by
      rw [htc, hh]
      rfl
    rcases hd with hd | hd
    · simp only [dialStep, hd, hread, Option.map_some, Option.some.injEq] at hs
      subst hs
      exact .failed _ rfl (by rw [hh]; rfl)
    · simp only [dialStep, hd, hread, Option.map_some, Option.some.injEq] at hs
      subst hs
      exact .failed _ rfl (by rw [hh]; rfl)
  | overlong msg hc hlen hd htc hh =>
    simp only [dialStep, hd, htc, readNdjson, readBytes_line hc, hlen, if_true, Option.map_some,
      Option.some.injEq] at hs
    subst hs
    exact .failed _ rfl (by rw [hh]; rfl)
  | failed error hd hh =>
    simp only [dialStep, hd] at hs
    cases hs

theorem settled_handle {now : Nat} {bind : Except String Unit} (hh : s.handler.settled = true) :
    s.handle codec mac nonce now bind = none := by
  unfold HandshakeState.handle
  cases hphase : s.handler with
  | serving => rfl
  | returned result => rfl
  | _ => simp [hphase, HandlerPhase.settled] at hh

theorem Doomed.handle (h : Doomed codec s) {now : Nat} {bind : Except String Unit}
    (hs : s.handle codec mac nonce now bind = some s') : Doomed codec s' := by
  have idle (hh : s.handler.settled = true) : Doomed codec s' := by
    rw [settled_handle hh] at hs
    cases hs
  cases h with
  | refusing message hc hd htc hh =>
    simp only [HandshakeState.handle, hh, Option.some.injEq] at hs
    subst hs
    refine .refused message hc hd ?_ rfl
    simp only [goto, sendLine, htc, List.nil_append]
  | refused message hc hd htc hh => exact idle (by rw [hh]; rfl)
  | dropped result hd htc hh => exact idle (by rw [hh]; rfl)
  | overlong msg hc hlen hd htc hh => exact idle (by rw [hh]; rfl)
  | failed error hd hh => exact idle hh

theorem Doomed.step (h : Doomed codec s) {e : HandshakeEvent} (hq : s.Quiet d e)
    (hs : s.step codec mac d nonce e = some s') : Doomed codec s' := by
  cases e with
  | dial => exact h.dial hs
  | handle now bind => exact h.handle hs
  | timeout => cases hq
  | otherAuth call =>
    cases hs
    exact h.frame rfl rfl rfl
  | otherSession e =>
    simp only [HandshakeState.step] at hs
    split at hs
    · cases hs
    · obtain ⟨t, -, rfl⟩ := Option.map_eq_some_iff.mp hs
      exact h.frame rfl rfl rfl
  | otherTunnels pendingWork =>
    cases hs
    exact h.frame rfl rfl rfl

theorem spared_lookup {auth : AuthState} {key : String} {call : AuthCall}
    (h : spares auth key call = true) :
    (auth.perform mac call).pending.lookup key = auth.pending.lookup key := by
  cases call with
  | issue connId bytes now =>
    have hne : connId ≠ key := by
      simpa only [spares, AuthCall.concerns, Bool.not_eq_true', decide_eq_false_iff_not] using h
    simp only [AuthState.perform, AuthState.issue, AList.lookup_insert_ne hne.symm]
  | cleanupExpired now =>
    simp only [spares, Option.all_eq_true] at h
    simp only [AuthState.perform, AuthState.cleanupExpired, AList.lookup_retain]
    cases hp : auth.pending.lookup key with
    | none => rfl
    | some p => exact Option.filter_eq_some_iff.mpr ⟨rfl, h p hp⟩
  | verify a =>
    have hne : a.connId ≠ key := by
      simpa only [spares, AuthCall.concerns, Bool.not_eq_true', decide_eq_false_iff_not] using h
    simp only [AuthState.perform, AuthState.attempt, AuthState.verify]
    split
    · rfl
    · exact AList.lookup_erase_ne hne.symm

theorem granted_free (hh : s.handler.channel = none) (e : HandshakeEvent) :
    s.Granted codec e := by
  cases e with
  | handle now bind =>
    intro ch hch
    rw [hh] at hch
    cases hch
  | _ => trivial

theorem Stage.greeted_handle (hcodec : codec.Speaks mac d nonce)
    (hat : At d s .awaitingChallenge (codec.line d.hello) [] .initial) {now : Nat}
    {bind : Except String Unit} (hs : s.handle codec mac nonce now bind = some s') :
    Stage codec mac d nonce s' (9 + d.services.length) ∨
      d.admitted codec = false ∧ Doomed codec s' := by
  cases hadm : d.admitted codec with
  | true =>
    rw [handle_greeting hcodec hadm hat.handler hat.toServer] at hs
    cases hs
    exact .inl (.issued hadm ⟨hat.dial, rfl, hat.toClient, rfl, hat.authKey⟩
      (Remembers.issued s.auth now))
  | false =>
    obtain ⟨r, error, hread, hreturn⟩ :=
      greeting_refused hcodec hadm { s with toServer := [] } now
    have hopen : s.dial.closed = false := by
      rw [hat.dial]
      rfl
    have hhandle : s.handle codec mac nonce now bind =
        some ({ s with toServer := [] }.handleConnection nonce now r) := by
      simp only [HandshakeState.handle, hat.handler, hat.toServer, hopen, hread, Option.map_some]
    rw [hhandle, hreturn] at hs
    cases hs
    exact .inr ⟨rfl, .dropped _ (.inl hat.dial) hat.toClient rfl⟩

theorem Stage.handle (hcodec : codec.Speaks mac d nonce) {k : Nat}
    (h : Stage codec mac d nonce s k) {now : Nat} {bind : Except String Unit}
    (hpends : s.pends d.key now = true) (hs : s.handle codec mac nonce now bind = some s') :
    (s.Granted codec (.handle now bind) ∧ ∃ k' < k, Stage codec mac d nonce s' k') ∨
      ¬(d.role ≠ .visitor ∧ d.admitted codec = true ∧ s.Granted codec (.handle now bind)) ∧
        Doomed codec s' := by
  have goes {k' : Nat} (hh : s.handler.channel = none) (hlt : k' < k)
      (hstage : Stage codec mac d nonce s' k') :
      s.Granted codec (.handle now bind) ∧ ∃ k' < k, Stage codec mac d nonce s' k' :=
    ⟨granted_free hh _, k', hlt, hstage⟩
  have stuck (hh : s.handler = .initial ∨ ∃ role first, s.handler = .awaiting role first)
      (hin : s.toServer = []) (hopen : s.dial.closed = false) : False := by
    rw [handle_waits hh hin hopen] at hs
    cases hs
  cases h with
  | connected hat => exact (stuck (.inl hat.handler) hat.toServer (by rw [hat.dial]; rfl)).elim
  | greeted hat =>
    rcases Stage.greeted_handle hcodec hat hs with hstage | ⟨hadm, hdoomed⟩
    · exact .inl (goes (by rw [hat.handler]; rfl) (by omega) hstage)
    · refine .inr ⟨fun hfit => ?_, hdoomed⟩
      cases hadm.symm.trans hfit.2.1
  | issued hadm hat hp =>
    simp only [HandshakeState.handle, hat.handler, onIssued_hello, Option.some.injEq] at hs
    subst hs
    have hkept : (s.auth.perform mac (.cleanupExpired now)).pending.lookup d.key =
        s.auth.pending.lookup d.key :=
      spared_lookup (by simpa only [pends, hat.handler] using hpends)
    refine .inl (goes (by rw [hat.handler]; rfl) (by omega)
      (.challenging hadm ⟨hat.dial, hat.toServer, hat.toClient, rfl, hat.authKey⟩ ?_))
    exact (congrArg (Option.map PendingAuth.nonce) hkept).trans hp
  | challenging hadm hat hp =>
    simp only [HandshakeState.handle, hat.handler, Option.some.injEq] at hs
    subst hs
    refine .inl (goes (by rw [hat.handler]; rfl) (by omega)
      (.challenged hadm ⟨hat.dial, hat.toServer, ?_, rfl, hat.authKey⟩ hp))
    simp only [goto, sendLine, hat.toClient, List.nil_append]
  | challenged hadm hat hp =>
    exact (stuck (.inr ⟨_, _, hat.handler⟩) hat.toServer (by rw [hat.dial]; rfl)).elim
  | answering hadm hat hp =>
    exact (stuck (.inr ⟨_, _, hat.handler⟩) hat.toServer (by rw [hat.dial]; rfl)).elim
  | answered hadm hat hp =>
    rw [handle_answer hcodec hat.handler hat.toServer] at hs
    cases hs
    exact .inl (goes (by rw [hat.handler]; rfl) (by omega)
      (.verifying hadm ⟨hat.dial, rfl, hat.toClient, rfl, hat.authKey⟩ hp))
  | verifying hadm hat hp =>
    simp only [HandshakeState.handle, hat.handler, Option.some.injEq] at hs
    subst hs
    rcases Stage.verified hadm hat hp with hstage | ⟨hrole, hdoomed⟩
    · exact .inl (goes (by rw [hat.handler]; rfl) (by omega) hstage)
    · exact .inr ⟨fun hfit => hfit.1 hrole, hdoomed⟩
  | registering hadm hclient hat hv =>
    simp only [HandshakeState.handle, hat.handler, Option.some.injEq] at hs
    subst hs
    obtain ⟨k', hlt, hstage⟩ := Stage.registered hadm hclient hat hv
    exact .inl (goes (by rw [hat.handler]; rfl) hlt hstage)
  | exposing hadm hclient ch session hat hch hl hv =>
    simp only [HandshakeState.handle, hat.handler] at hs
    have hgranted :
        s.Granted codec (.handle now bind) ↔ s.grants codec bind session = true := by
      simp [Granted, hat.handler, HandlerPhase.channel, hl]
    rw [hgranted]
    rcases Stage.exposed hcodec hadm hclient hat hch hl hv hs with hstage | ⟨hg, hdoomed⟩
    · exact .inl hstage
    · refine .inr ⟨fun hfit => ?_, hdoomed⟩
      cases hg.symm.trans hfit.2.2
  | claiming hadm htunnel hat hv =>
    simp only [pends, hat.handler, decide_eq_true_eq] at hpends
    obtain ⟨call, hcall⟩ := AList.mem_iff_lookup.mp hpends
    simp only [HandshakeState.handle, hat.handler, claim, hcall, Option.some.injEq] at hs
    subst hs
    exact .inl (goes (by rw [hat.handler]; rfl) (by omega)
      (.delivering hadm htunnel ⟨hat.dial, hat.toServer, hat.toClient, rfl, hat.authKey⟩ hv))
  | delivering hadm htunnel hat hv =>
    simp only [HandshakeState.handle, hat.handler, Option.some.injEq] at hs
    subst hs
    refine .inl (goes (by rw [hat.handler]; rfl) (Nat.lt_succ_self 1)
      (.replied hadm (by simp [htunnel]) [] 0 0 (hcodec.tunnelReady htunnel)
        (hcodec.tunnelReadyShort htunnel) ⟨hat.dial, hat.toServer, ?_, rfl, hat.authKey⟩ hv))
    simp only [goto, sendLine, hat.toClient, List.nil_append]
  | replied hadm hrole services p q hc hlen hat hv =>
    simp only [HandshakeState.handle, hat.handler] at hs
    cases hs
  | agreed hadm hrole services p q hat hv =>
    simp only [HandshakeState.handle, hat.handler] at hs
    cases hs

theorem At.frame {dial : DialPhase} {toServer toClient : List UInt8} {handler : HandlerPhase}
    (h : At d s dial toServer toClient handler) (hd : s'.dial = s.dial)
    (hts : s'.toServer = s.toServer) (htc : s'.toClient = s.toClient)
    (hh : s'.handler = s.handler) (hk : s'.auth.authKey = s.auth.authKey) :
    At d s' dial toServer toClient handler :=
  ⟨hd.trans h.dial, hts.trans h.toServer, htc.trans h.toClient, hh.trans h.handler,
    hk.trans h.authKey⟩

theorem Stage.frame {k : Nat} (h : Stage codec mac d nonce s k) (hd : s'.dial = s.dial)
    (hts : s'.toServer = s.toServer) (htc : s'.toClient = s.toClient)
    (hh : s'.handler = s.handler) (hv : s'.verdict = s.verdict)
    (hk : s'.auth.authKey = s.auth.authKey)
    (hr : s'.auth.pending.lookup d.key = s.auth.pending.lookup d.key)
    (hsession : ∀ ch, s.handler = .exposing ch → ch < s.server.nextChannel →
      s'.server.sessions.lookup ch = s.server.sessions.lookup ch ∧
        ch < s'.server.nextChannel) : Stage codec mac d nonce s' k := by
  have remembers (hp : Remembers d nonce s) : Remembers d nonce s' := by
    unfold Remembers
    rw [hr]
    exact hp
  cases h with
  | connected hat => exact .connected (hat.frame hd hts htc hh hk)
  | greeted hat => exact .greeted (hat.frame hd hts htc hh hk)
  | issued hadm hat hp => exact .issued hadm (hat.frame hd hts htc hh hk) (remembers hp)
  | challenging hadm hat hp => exact .challenging hadm (hat.frame hd hts htc hh hk) (remembers hp)
  | challenged hadm hat hp => exact .challenged hadm (hat.frame hd hts htc hh hk) (remembers hp)
  | answering hadm hat hp => exact .answering hadm (hat.frame hd hts htc hh hk) (remembers hp)
  | answered hadm hat hp => exact .answered hadm (hat.frame hd hts htc hh hk) (remembers hp)
  | verifying hadm hat hp => exact .verifying hadm (hat.frame hd hts htc hh hk) (remembers hp)
  | registering hadm hrole hat ht =>
    exact .registering hadm hrole (hat.frame hd hts htc hh hk) (hv.trans ht)
  | exposing hadm hrole ch session hat hch hl ht =>
    obtain ⟨hsame, hlt⟩ := hsession ch hat.handler hch
    exact .exposing hadm hrole ch session (hat.frame hd hts htc hh hk) hlt (hsame.trans hl)
      (hv.trans ht)
  | claiming hadm hrole hat ht =>
    exact .claiming hadm hrole (hat.frame hd hts htc hh hk) (hv.trans ht)
  | delivering hadm hrole hat ht =>
    exact .delivering hadm hrole (hat.frame hd hts htc hh hk) (hv.trans ht)
  | replied hadm hrole services p q hc hlen hat ht =>
    exact .replied hadm hrole services p q hc hlen (hat.frame hd hts htc hh hk) (hv.trans ht)
  | agreed hadm hrole services p q hat ht =>
    exact .agreed hadm hrole services p q (hat.frame hd hts htc hh hk) (hv.trans ht)

theorem session_kept {t t' : ServerState} {e : ServerEvent} (h : t.step e = some t')
    {ch : Channel} (hch : ch < t.nextChannel) (he : actsFor ch e = false) :
    t'.sessions.lookup ch = t.sessions.lookup ch ∧ ch < t'.nextChannel := by
  have ended {c : Channel} {session : Session} (hc : ch ≠ c) :
      (t.endSession c session).sessions.lookup ch = t.sessions.lookup ch ∧
        ch < (t.endSession c session).nextChannel := by
    obtain ⟨registry, udp, -, heq⟩ := ServerState.endSession_cases t c session
    rw [heq]
    exact ⟨AList.lookup_erase_ne hc, hch⟩
  cases ServerState.step_cases h with
  | anonymous services => exact ⟨rfl, hch⟩
  | hello clientId services hc =>
    exact ⟨AList.lookup_insert_ne (Nat.ne_of_lt hch), Nat.lt_succ_of_lt hch⟩
  | exposed c bind session svc pending u hl hp hexp =>
    have hne : ch ≠ c := Ne.symm (of_decide_eq_false he)
    cases hexp with
    | unchanged => exact ⟨AList.lookup_insert_ne hne, hch⟩
    | tcp => exact ⟨AList.lookup_insert_ne hne, hch⟩
    | udp => exact ⟨AList.lookup_insert_ne hne, hch⟩
  | refused c bind session svc pending message hl hp hexp =>
    exact ended (Ne.symm (of_decide_eq_false he))
  | announced c session hl hp hr =>
    exact ⟨AList.lookup_insert_ne (Ne.symm (of_decide_eq_false he)), hch⟩
  | unannounced c session hl hp hr => exact ended (Ne.symm (of_decide_eq_false he))
  | disconnected c session hl hr => exact ended (Ne.symm (of_decide_eq_false he))
  | kicked clientId => exact ⟨rfl, hch⟩
  | listenerEnded port name => exact ⟨rfl, hch⟩
  | udpEnded name => exact ⟨rfl, hch⟩

theorem Stage.step (hcodec : codec.Speaks mac d nonce) {k : Nat}
    (h : Stage codec mac d nonce s k) {e : HandshakeEvent} (hq : s.Quiet d e)
    (hs : s.step codec mac d nonce e = some s') :
    (s.Granted codec e ∧
        ∃ k', Stage codec mac d nonce s' k' ∧ (if e.isOwn then k' < k else k' = k)) ∨
      ¬(d.role ≠ .visitor ∧ d.admitted codec = true ∧ s.Granted codec e) ∧ Doomed codec s' := by
  cases e with
  | dial =>
    obtain ⟨k', hlt, hstage⟩ := h.dial hcodec hs
    exact .inl ⟨trivial, k', hstage, hlt⟩
  | handle now bind =>
    rcases h.handle hcodec hq hs with ⟨hg, k', hlt, hstage⟩ | hdoomed
    · exact .inl ⟨hg, k', hstage, hlt⟩
    · exact .inr hdoomed
  | timeout => cases hq
  | otherAuth call =>
    cases hs
    exact .inl ⟨trivial, k, h.frame rfl rfl rfl rfl rfl (AuthState.perform_authKey s.auth call)
      (spared_lookup hq) (fun ch _ hch => ⟨rfl, hch⟩), rfl⟩
  | otherSession e =>
    simp only [HandshakeState.step] at hs
    split at hs
    · cases hs
    · next hfree =>
      obtain ⟨t, ht, rfl⟩ := Option.map_eq_some_iff.mp hs
      refine .inl ⟨trivial, k, h.frame rfl rfl rfl rfl rfl rfl rfl (fun ch hh hch => ?_), rfl⟩
      have he : actsFor ch e = false := by
        rw [hh] at hfree
        simpa [HandlerPhase.channel] using hfree
      exact session_kept ht hch he
  | otherTunnels pendingWork =>
    cases hs
    exact .inl ⟨trivial, k,
      h.frame rfl rfl rfl rfl rfl rfl rfl (fun ch _ hch => ⟨rfl, hch⟩), rfl⟩

theorem Stage.run (hcodec : codec.Speaks mac d nonce) {k : Nat}
    (h : Stage codec mac d nonce s k) {events : List HandshakeEvent}
    (hq : Machine.Along (HandshakeState.step codec mac d nonce) (Quiet d) s events)
    (hs : Machine.run (HandshakeState.step codec mac d nonce) s events = some s') :
    (Machine.Along (HandshakeState.step codec mac d nonce) (Granted codec) s events ∧
        ∃ k', Stage codec mac d nonce s' k' ∧ events.countP HandshakeEvent.isOwn + k' ≤ k) ∨
      ¬(d.role ≠ .visitor ∧ d.admitted codec = true ∧
          Machine.Along (HandshakeState.step codec mac d nonce) (Granted codec) s events) ∧
        Doomed codec s' := by
  induction events generalizing s k with
  | nil =>
    cases hs
    exact .inl ⟨trivial, k, h, by simp⟩
  | cons e events ih =>
    obtain ⟨t, ht, hrest⟩ := Option.bind_eq_some_iff.mp hs
    rcases h.step hcodec hq.1 ht with ⟨hg, k₁, hstage, hmeasure⟩ | ⟨hunfit, hdoomed⟩
    · rcases ih hstage (hq.2 t ht) hrest with ⟨hgs, k', hfinal, hcount⟩ | ⟨hunfit, hdoomed⟩
      · refine .inl ⟨⟨hg, fun t' ht' => ?_⟩, k', hfinal, ?_⟩
        · cases ht.symm.trans ht'
          exact hgs
        · rw [List.countP_cons]
          split at hmeasure
          · next hown =>
            rw [if_pos hown]
            omega
          · next hown =>
            rw [if_neg hown]
            omega
      · exact .inr ⟨fun hfit => hunfit ⟨hfit.1, hfit.2.1, hfit.2.2.2 t ht⟩, hdoomed⟩
    · refine .inr ⟨fun hfit => hunfit ⟨hfit.1, hfit.2.1, hfit.2.2.1⟩, ?_⟩
      exact Machine.run_invariant_along (fun _ _ _ hd hquiet hstep => hd.step hquiet hstep)
        hdoomed (hq.2 t ht) hrest

theorem Stage.fits {k : Nat} (h : Stage codec mac d nonce s k) (hset : s.settled = true) :
    d.role ≠ .visitor ∧ d.admitted codec = true := by
  have waiting (hd : s.dial.settled = false) : d.role ≠ .visitor ∧ d.admitted codec = true := by
    simp [settled, hd] at hset
  cases h with
  | connected hat => exact waiting (by rw [hat.dial]; rfl)
  | greeted hat => exact waiting (by rw [hat.dial]; rfl)
  | issued hadm hat hp => exact waiting (by rw [hat.dial]; rfl)
  | challenging hadm hat hp => exact waiting (by rw [hat.dial]; rfl)
  | challenged hadm hat hp => exact waiting (by rw [hat.dial]; rfl)
  | answering hadm hat hp => exact waiting (by rw [hat.dial]; rfl)
  | answered hadm hat hp => exact waiting (by rw [hat.dial]; rfl)
  | verifying hadm hat hp => exact waiting (by rw [hat.dial]; rfl)
  | registering hadm hrole hat hv => exact ⟨by simp [hrole], hadm⟩
  | exposing hadm hrole ch session hat hch hl hv => exact ⟨by simp [hrole], hadm⟩
  | claiming hadm hrole hat hv => exact ⟨by simp [hrole], hadm⟩
  | delivering hadm hrole hat hv => exact ⟨by simp [hrole], hadm⟩
  | replied hadm hrole services p q hc hlen hat hv => exact ⟨hrole, hadm⟩
  | agreed hadm hrole services p q hat hv => exact ⟨hrole, hadm⟩

theorem Stage.agrees (hcodec : codec.Speaks mac d nonce) (hadm : d.admitted codec = true) {k : Nat}
    (h : Stage codec mac d nonce s k) : Agrees codec mac d nonce s := by
  simp only [Dialer.admitted, Bool.and_eq_true, decide_eq_true_eq] at hadm
  have dials (hd : s.dial.settled = false) (hs : (s.dialStep codec mac d).isSome = true) :
      Agrees codec mac d nonce s := by
    refine ⟨fun _ => ⟨.dial, rfl, hs⟩, fun hset => ?_⟩
    simp [settled, hd] at hset
  have handles (hd : s.dial.settled = false)
      (hs : (s.handle codec mac nonce 0 (.ok ())).isSome = true) :
      Agrees codec mac d nonce s := by
    refine ⟨fun _ => ⟨.handle 0 (.ok ()), rfl, hs⟩, fun hset => ?_⟩
    simp [settled, hd] at hset
  cases h with
  | connected hat => exact dials (by rw [hat.dial]; rfl) (by simp [dialStep, hat.dial])
  | greeted hat =>
    refine handles (by rw [hat.dial]; rfl) ?_
    simp [HandshakeState.handle, hat.handler, hat.toServer,
      readInitialMessage_line hcodec.hello hadm.2]
  | issued hadm hat hp =>
    exact handles (by rw [hat.dial]; rfl) (by simp [HandshakeState.handle, hat.handler])
  | challenging hadm hat hp =>
    exact handles (by rw [hat.dial]; rfl) (by simp [HandshakeState.handle, hat.handler])
  | challenged hadm hat hp =>
    refine dials (by rw [hat.dial]; rfl) ?_
    simp [dialStep, hat.dial, hat.toClient,
      readNdjson_line hcodec.challenge hcodec.challengeShort]
  | answering hadm hat hp => exact dials (by rw [hat.dial]; rfl) (by simp [dialStep, hat.dial])
  | answered hadm hat hp =>
    refine handles (by rw [hat.dial]; rfl) ?_
    simp [HandshakeState.handle, hat.handler, hat.toServer, readLine_line hcodec.auth]
  | verifying hadm hat hp =>
    exact handles (by rw [hat.dial]; rfl) (by simp [HandshakeState.handle, hat.handler])
  | registering hadm hrole hat hv =>
    exact handles (by rw [hat.dial]; rfl) (by simp [HandshakeState.handle, hat.handler])
  | exposing hadm hrole ch session hat hch hl hv =>
    refine handles (by rw [hat.dial]; rfl) ?_
    simp only [HandshakeState.handle, hat.handler, expose, hl, Option.bind_eq_bind,
      Option.bind_some]
    split
    · split
      · rfl
      · rfl
    · rfl
  | claiming hadm hrole hat hv =>
    exact handles (by rw [hat.dial]; rfl) (by simp [HandshakeState.handle, hat.handler])
  | delivering hadm hrole hat hv =>
    exact handles (by rw [hat.dial]; rfl) (by simp [HandshakeState.handle, hat.handler])
  | replied hadm hrole services p q hc hlen hat hv =>
    refine dials (by rw [hat.dial]; rfl) ?_
    simp [dialStep, hat.dial, hat.toClient, readNdjson_line hc hlen]
  | agreed hadm hrole services p q hat hv =>
    refine ⟨fun hset => ?_, fun _ => ⟨hv, by rw [hat.handler]; rfl, _, hat.dial, rfl⟩⟩
    simp [settled, hat.dial, hat.handler, DialPhase.settled, HandlerPhase.settled] at hset

theorem handshake_agreement (codec : Codec) (mac : String → String → String) (d : Dialer)
    (nonce : String) (hcodec : codec.Speaks mac d nonce) (pending : HashMap String PendingAuth)
    (pendingWork : HashMap String Nat) (server : ServerState) (events : List HandshakeEvent)
    (s : HandshakeState)
    (hquiet : Machine.Along (step codec mac d nonce) (Quiet d)
      (start d pending pendingWork server) events)
    (hrun : Machine.run (step codec mac d nonce) (start d pending pendingWork server) events =
      some s) :
    (d.role ≠ .visitor ∧ d.admitted codec = true ∧
        Machine.Along (step codec mac d nonce) (Granted codec)
          (start d pending pendingWork server) events →
      Agrees codec mac d nonce s ∧
        events.countP HandshakeEvent.isOwn ≤ 11 + d.services.length) ∧
    (s.settled = true → (Agrees codec mac d nonce s ↔
      d.role ≠ .visitor ∧ d.admitted codec = true ∧
        Machine.Along (step codec mac d nonce) (Granted codec)
          (start d pending pendingWork server) events)) := by
  have hstart : Stage codec mac d nonce (start d pending pendingWork server)
      (11 + d.services.length) := .connected ⟨rfl, rfl, rfl, rfl, rfl⟩
  rcases hstart.run hcodec hquiet hrun with ⟨hgranted, k, hstage, hcount⟩ | ⟨hunfit, hdoomed⟩
  · refine ⟨fun hfit => ⟨hstage.agrees hcodec hfit.2.1, by omega⟩, fun hset => ?_⟩
    obtain ⟨hrole, hadm⟩ := hstage.fits hset
    exact ⟨fun _ => ⟨hrole, hadm, hgranted⟩, fun _ => hstage.agrees hcodec hadm⟩
  · refine ⟨fun hfit => absurd hfit hunfit, fun hset => ⟨fun hagrees => ?_, fun hfit =>
      absurd hfit hunfit⟩⟩
    obtain ⟨error, hfailed⟩ := hdoomed.fails hset
    obtain ⟨-, -, msg, hready, -⟩ := hagrees.success hset
    cases hfailed.symm.trans hready

def tableCodec (table : List (Message × String)) : Codec where
  toString msg := ((table.find? (fun e => e.1 = msg)).map Prod.snd).getD "\x7b\x7d"
  fromStr text := (table.find? (fun e => e.2 = text)).map Prod.fst

def keyMac (key _msg : String) : String := "hmac-" ++ key

def idleServer : ServerState where
  registry := .new 60080 60090
  udpServices := ∅
  sessions := ∅
  nextChannel := 0
  opened := []
  replies := []
  qcpPort := 0
  qcpTunnelPort := 0

def tunnelDialer : Dialer := ⟨.tunnel, "secret", "alice", "t1", "", []⟩

def visitorDialer : Dialer := ⟨.visitor, "secret", "alice", "v1", "db", []⟩

def handshakeCodec : Codec := tableCodec
  [(.newTunnelHello "t1", "\x7b\"type\":\"tunnel\",\"id\":\"t1\"\x7d"),
    (.newVisitorHello "alice" "db" (some "v1"),
      "\x7b\"type\":\"visitor\",\"client_id\":\"alice\",\"id\":\"v1\"," ++
        "\"service_name\":\"db\"\x7d"),
    (.newChallenge "0a", "\x7b\"type\":\"challenge\",\"nonce\":\"0a\"\x7d"),
    (.newAuth "hmac-secret", "\x7b\"type\":\"auth\",\"proof\":\"hmac-secret\"\x7d"),
    (.newReady [] 0 0, "\x7b\"type\":\"ready\",\"qcpPort\":0,\"qcpTunnelPort\":0\x7d")]

theorem handshakeCodec_carries (msg : Message)
    (h : msg ∈ [tunnelDialer.hello, .newChallenge "0a", .newAuth "hmac-secret",
      .newReady [] 0 0]) : handshakeCodec.Carries msg := by
  simp only [List.mem_cons, List.not_mem_nil, or_false] at h
  rcases h with rfl | rfl | rfl | rfl
  · exact ⟨by decide +kernel, ⟨"\"type\":\"tunnel\",\"id\":\"t1\"", by decide +kernel⟩,
      by decide +kernel⟩
  · exact ⟨by decide +kernel, ⟨"\"type\":\"challenge\",\"nonce\":\"0a\"", by decide +kernel⟩,
      by decide +kernel⟩
  · exact ⟨by decide +kernel, ⟨"\"type\":\"auth\",\"proof\":\"hmac-secret\"",
      by decide +kernel⟩, by decide +kernel⟩
  · exact ⟨by decide +kernel, ⟨"\"type\":\"ready\",\"qcpPort\":0,\"qcpTunnelPort\":0",
      by decide +kernel⟩, by decide +kernel⟩

theorem handshakeCodec_speaks : handshakeCodec.Speaks keyMac tunnelDialer "0a" where
  hello := handshakeCodec_carries _ (by simp)
  challenge := handshakeCodec_carries _ (by simp)
  challengeShort := by decide +kernel
  auth := handshakeCodec_carries _ (by
    have : tunnelDialer.prove keyMac "0a" = "hmac-secret" := by decide
    simp [this])
  clientReady h := by cases h
  clientError h := by cases h
  tunnelReady _ := handshakeCodec_carries _ (by simp)
  tunnelReadyShort _ := by decide +kernel

def tunnelEvents : List HandshakeEvent :=
  [.dial, .handle 0 (.ok ()), .otherAuth (.issue "bob" (AuthState.nonceBytes 1) 0),
    .handle 0 (.ok ()), .handle 0 (.ok ()), .dial, .dial, .otherAuth (.cleanupExpired 5),
    .handle 5 (.ok ()),
    .handle 5 (.ok ()), .handle 5 (.ok ()), .otherTunnels ∅, .handle 5 (.ok ()), .dial]

theorem tunnel_becomes_ready :
    ∃ s, Machine.run (step handshakeCodec keyMac tunnelDialer "0a")
        (start tunnelDialer ∅ ((∅ : HashMap String Nat).insert "t1" 0) idleServer)
        tunnelEvents = some s ∧
      s.settled = true ∧ Agrees handshakeCodec keyMac tunnelDialer "0a" s := by
  have hrun : (Machine.run (Machine.guarded (step handshakeCodec keyMac tunnelDialer "0a")
      (fun s e => Quiet tunnelDialer s e ∧ Granted handshakeCodec s e))
      (start tunnelDialer ∅ ((∅ : HashMap String Nat).insert "t1" 0) idleServer)
      tunnelEvents).map settled = some true := by decide +kernel
  obtain ⟨s, hs, hset⟩ := Option.map_eq_some_iff.mp hrun
  obtain ⟨halong, hrun⟩ := Machine.run_guarded hs
  refine ⟨s, hrun, hset, ?_⟩
  exact ((handshake_agreement handshakeCodec keyMac tunnelDialer "0a" handshakeCodec_speaks ∅ _
    idleServer tunnelEvents s (halong.imp fun _ _ => And.left) hrun).1
    ⟨by decide, by decide +kernel, halong.imp fun _ _ => And.right⟩).1

def visitorEvents : List HandshakeEvent :=
  [.dial, .handle 0 (.ok ()), .handle 0 (.ok ()), .handle 0 (.ok ()), .dial, .dial,
    .handle 0 (.ok ()), .handle 0 (.ok ()), .dial]

theorem visitor_gets_no_reply :
    Machine.Leads (step handshakeCodec keyMac visitorDialer "0a")
      (Quiet visitorDialer)
      (fun s => s.verdict = some true ∧ s.dial = .failed (.read .eof) ∧
        ¬Agrees handshakeCodec keyMac visitorDialer "0a" s)
      (start visitorDialer ∅ ∅ idleServer) visitorEvents := by
  have hrun : (Machine.run (Machine.guarded (step handshakeCodec keyMac visitorDialer "0a")
      (Quiet visitorDialer)) (start visitorDialer ∅ ∅ idleServer) visitorEvents).map
        (fun s => (s.settled, s.verdict, s.dial)) =
      some (true, some true, .failed (.read .eof)) := by decide +kernel
  refine Machine.leads_of_guarded _ hrun (fun s hfields => ?_)
  simp only [Prod.mk.injEq] at hfields
  obtain ⟨hsettled, hverdict, hdial⟩ := hfields
  refine ⟨hverdict, hdial, fun hagrees => ?_⟩
  obtain ⟨-, -, msg, hready, -⟩ := hagrees.success hsettled
  rw [hdial] at hready
  cases hready

end HandshakeState

end Cross233.Control
