import Cross233.Control.Agreement
import Cross233.Control.Ndjson
import Cross233.Protocol.Widths

namespace Cross233.Server

open Protocol

namespace SharedServiceState

def answers (s : SharedServiceState) (clientId : String) (controlTx : Channel) :
    List Service → List (Service × Service)
  | [] => []
  | svc :: services =>
    let (s, registered) := s.registerService clientId controlTx svc
    (registered.map (Prod.mk svc)).toList ++ s.answers clientId controlTx services

theorem answers_announced (s : SharedServiceState) (clientId : String) (controlTx : Channel)
    (services : List Service) :
    (s.answers clientId controlTx services).map Prod.snd =
      (s.registerAll clientId controlTx services).2 := by
  induction services generalizing s with
  | nil => rfl
  | cons svc services ih =>
    simp only [answers, registerAll, List.map_append, ih]
    cases (s.registerService clientId controlTx svc).2 <;> rfl

inductive Announces (svc : Service) : Service → Prop where
  | assigned (port : UInt16) (hauto : svc.usesAutoPort = true) :
      Announces svc { svc with remotePort := port }
  | asSent (hauto : svc.usesAutoPort = false) : Announces svc svc

theorem assignPort_announces {s : SharedServiceState} {existing : Option ServiceEntry}
    {svc svc' : Service} (h : (s.assignPort existing svc).2 = some svc') :
    Announces svc svc' := by
  unfold assignPort at h
  split at h
  · next hauto =>
    split at h
    · cases h
      exact .assigned _ hauto
    · obtain ⟨port, -, rfl⟩ := Option.map_eq_some_iff.mp h
      exact .assigned port hauto
  · next hauto =>
    have hsent := Announces.asSent (Bool.not_eq_true _ ▸ hauto)
    split at h
    · split at h
      · cases h
      · split at h
        · cases h
        · cases h
          exact hsent
    · cases h
      exact hsent

theorem registerService_announces {s : SharedServiceState} {clientId : String}
    {controlTx : Channel} {svc svc' : Service}
    (h : (s.registerService clientId controlTx svc).2 = some svc') : Announces svc svc' := by
  unfold registerService at h
  split at h
  · cases h
  · simp only at h
    split at h
    · cases h
    · split at h
      · cases h
      · next hassign =>
        cases h
        exact assignPort_announces (congrArg Prod.snd hassign)

theorem announces_of_mem_answers {s : SharedServiceState} {clientId : String}
    {controlTx : Channel} {services : List Service} {a : Service × Service}
    (h : a ∈ s.answers clientId controlTx services) : Announces a.1 a.2 := by
  induction services generalizing s with
  | nil => cases h
  | cons svc services ih =>
    rcases List.mem_append.mp h with hhead | htail
    · obtain ⟨svc', hsvc, rfl⟩ := Option.map_eq_some_iff.mp (Option.mem_toList.mp hhead)
      exact registerService_announces hsvc
    · exact ih htail

end SharedServiceState

def portGain (a : Service × Service) : Nat :=
  if a.1.usesAutoPort then portWidth a.2.remotePort else 0

theorem width_announced {svc svc' : Service} (h : SharedServiceState.Announces svc svc') :
    (Service.record.format.write svc').width =
      (Service.record.format.write svc).width + portGain (svc, svc') := by
  cases h with
  | assigned port hauto =>
    have hzero : svc.remotePort = 0 := by
      simp only [Service.usesAutoPort, Bool.and_eq_true, decide_eq_true_eq] at hauto
      exact hauto.1
    have hport := svc.width_port port
    have hnone : portWidth svc.remotePort = 0 := if_pos hzero
    have hgain : portGain (svc, { svc with remotePort := port }) = portWidth port := if_pos hauto
    rw [hgain]
    omega
  | asSent hauto =>
    have hgain : portGain (svc, svc) = 0 := if_neg (by simp [hauto])
    rw [hgain, Nat.add_zero]

namespace ServerState

def answers (s : ServerState) (first : Message) : List (Service × Service) :=
  (s.registry.attachControl (first.clientId.getD "") s.nextChannel).answers
    (first.clientId.getD "") s.nextChannel first.services

def readyReply (s : ServerState) (first : Message) : Message :=
  .newReady (s.registry.registerServices (first.clientId.getD "") s.nextChannel first.services).2
    s.qcpPort s.qcpTunnelPort

theorem readyReply_eq (s : ServerState) (first : Message) :
    s.readyReply first = .newReady ((s.answers first).map Prod.snd) s.qcpPort s.qcpTunnelPort := by
  rw [readyReply, answers, SharedServiceState.answers_announced]
  rfl

theorem width_readyReply (s : ServerState) (first : Message) (standard : Base64) :
    ((Message.record standard).format.write (s.readyReply first)).width +
        Text.byteLength (Json.escapedText (first.clientId.getD "")) =
      ((Message.record standard).format.write
          (.newClientHello (first.clientId.getD "") ((s.answers first).map Prod.fst))).width +
        ((s.answers first).map portGain).sum + (Nat.toDigits 10 s.qcpPort.toNat).length +
        (Nat.toDigits 10 s.qcpTunnelPort.toNat).length + 12 := by
  have hgain : Message.servicesWidth ((s.answers first).map Prod.snd) =
      Message.servicesWidth ((s.answers first).map Prod.fst) +
        ((s.answers first).map portGain).sum :=
    Message.servicesWidth_of_gain Prod.fst Prod.snd portGain fun a ha =>
      width_announced (SharedServiceState.announces_of_mem_answers ha)
  rw [readyReply_eq, Message.width_newReady, Message.width_newClientHello, hgain]
  omega

end ServerState

end Cross233.Server

namespace Cross233.Control

open Protocol Server

-- `serde_json::to_string` writes no blanks.
def SerdeJson.Compact (json : SerdeJson) : Prop := ∀ j, json.print j = j.compact

theorem readNdjson_long {codec : Codec} {msg : Message} (h : newline ∉ codec.body msg)
    (hlen : maxNdjsonBytes < (codec.body msg).length) :
    readNdjson codec (codec.line msg) false = some (.error .tooLong, []) := by
  have hline : Lines.takeLine newline (codec.line msg) = some (codec.body msg ++ [newline], []) :=
    Lines.takeLine_append h []
  simp only [readNdjson, readBytes, hline, List.dropLast_concat, hlen, if_true, Option.map_some,
    Except.bind]

namespace SerdeJson.Compact

variable {json : SerdeJson} (h : json.Compact) (standard : Base64)

include h

theorem length_body (msg : Message) : ((json.codec standard).body msg).length =
    ((Message.record standard).format.write msg).width := by
  have htext : (json.codec standard).toString msg =
      ((Message.record standard).format.write msg).compact := h _
  rw [Codec.body, htext, Json.length_compact]

theorem noNewline (msg : Message) : newline ∉ (json.codec standard).body msg := by
  intro hmem
  have htext : (json.codec standard).toString msg =
      ((Message.record standard).format.write msg).compact := h _
  rw [Codec.body, htext] at hmem
  obtain ⟨c, hc, hten⟩ := Text.mem_utf8_ofList (by decide) hmem
  have hnewline : c = '\n' := Char.toNat_inj.mp hten
  exact Message.format_oneLine standard msg (hnewline ▸ hc)

theorem documented {msg : Message} (hdata : msg.data = none)
    (hparse : json.parse ((json.codec standard).toString msg) =
      some ((Message.record standard).format.write msg)) : json.Documented standard msg := by
  have htext : (json.codec standard).toString msg =
      ((Message.record standard).format.write msg).compact := h _
  obtain ⟨body, hbody⟩ : ∃ body, ((Message.record standard).format.write msg).chars =
      '\x7b' :: body ++ ['\x7d'] := ⟨_, Json.chars_obj _⟩
  refine ⟨hparse, h.noNewline standard msg, ⟨String.ofList body, ?_⟩, by simp [hdata]⟩
  rw [htext, Json.compact, hbody]
  simp [String.append_assoc]

end SerdeJson.Compact

theorem ports_kept {t t' : ServerState} {e : ServerEvent} (h : t.step e = some t') :
    t'.qcpPort = t.qcpPort ∧ t'.qcpTunnelPort = t.qcpTunnelPort := by
  have ended (c : Channel) (session : Session) :
      (t.endSession c session).qcpPort = t.qcpPort ∧
        (t.endSession c session).qcpTunnelPort = t.qcpTunnelPort := by
    obtain ⟨registry, udp, -, heq⟩ := ServerState.endSession_cases t c session
    rw [heq]
    exact ⟨rfl, rfl⟩
  cases ServerState.step_cases h with
  | anonymous services => exact ⟨rfl, rfl⟩
  | hello clientId services hc => exact ⟨rfl, rfl⟩
  | exposed c bind session svc pending u hl hp hexp =>
    cases hexp with
    | unchanged => exact ⟨rfl, rfl⟩
    | tcp => exact ⟨rfl, rfl⟩
    | udp => exact ⟨rfl, rfl⟩
  | refused c bind session svc pending message hl hp hexp => exact ended c session
  | announced c session hl hp hr => exact ⟨rfl, rfl⟩
  | unannounced c session hl hp hr => exact ended c session
  | disconnected c session hl hr => exact ended c session
  | kicked clientId => exact ⟨rfl, rfl⟩
  | listenerEnded port name => exact ⟨rfl, rfl⟩
  | udpEnded name => exact ⟨rfl, rfl⟩

namespace HandshakeState

theorem settled_idle {s : HandshakeState} (h : s.handler.settled = true) :
    (∀ codec mac nonce now bind, s.handle codec mac nonce now bind = none) ∧
      s.handler.onTimeout = none := by
  cases hh : s.handler with
  | serving => simp [HandshakeState.handle, hh, HandlerPhase.onTimeout]
  | returned result => simp [HandshakeState.handle, hh, HandlerPhase.onTimeout]
  | _ => simp [hh, HandlerPhase.settled] at h

-- A handler past the registration of a hello: it still has to announce what was registered, it
-- refuses the client, or it has nothing more to send.
inductive Replying (reply : Message) (s : HandshakeState) : Prop where
  | exposing (ch : Channel) (session : Session) (hh : s.handler = .exposing ch)
      (hch : ch < s.server.nextChannel) (hl : s.server.sessions.lookup ch = some session)
      (hreply : .newReady session.assigned s.server.qcpPort s.server.qcpTunnelPort = reply)
  | refusing (msg : Message) (error : HandlerError) (hh : s.handler = .refusing msg error)
  | settled (hh : s.handler.settled = true)

namespace Replying

variable {codec : Codec} {mac : String → String → String} {d : Dialer} {nonce : String}
  {reply : Message} {s s' : HandshakeState}

theorem register (s : HandshakeState) (first : Message) :
    Replying (s.server.readyReply first) (s.register first) :=
  .exposing s.server.nextChannel _ rfl (Nat.lt_succ_self _) (AList.lookup_insert _) rfl

theorem frame (h : Replying reply s) (hh : s'.handler = s.handler) (hs : s'.server = s.server) :
    Replying reply s' := by
  cases h with
  | exposing ch session hat hch hl hreply =>
    rw [← hs] at hch hl hreply
    exact .exposing ch session (hh.trans hat) hch hl hreply
  | refusing msg error hat => exact .refusing msg error (hh.trans hat)
  | settled hat => exact .settled (hh ▸ hat)

theorem dial (h : Replying reply s) (hs : s.dialStep codec mac d = some s') :
    Replying reply s' := by
  unfold dialStep at hs
  split at hs
  · cases hs
    exact h.frame rfl rfl
  · obtain ⟨read, -, rfl⟩ := Option.map_eq_some_iff.mp hs
    exact h.frame rfl rfl
  · cases hs
    exact h.frame rfl rfl
  · obtain ⟨read, -, rfl⟩ := Option.map_eq_some_iff.mp hs
    exact h.frame rfl rfl
  · cases hs
  · cases hs

theorem otherSession (h : Replying reply s) {e : ServerEvent} {server : ServerState}
    (hother : s.handler.channel.any (fun ch => actsFor ch e) = false)
    (hs : s.server.step e = some server) : Replying reply { s with server := server } := by
  cases h with
  | exposing ch session hat hch hl hreply =>
    have hspares : actsFor ch e = false := by simpa [HandlerPhase.channel, hat] using hother
    obtain ⟨hsession, hnext⟩ := session_kept hs hch hspares
    obtain ⟨hqcp, htunnel⟩ := ports_kept hs
    rw [← hqcp, ← htunnel] at hreply
    exact .exposing ch session hat hnext (hsession.trans hl) hreply
  | refusing msg error hat => exact .refusing msg error hat
  | settled hat => exact .settled hat

theorem expose_cases {ch : Channel} {session : Session} {bind : Except String Unit}
    (hat : s.handler = .exposing ch) (hch : ch < s.server.nextChannel)
    (hl : s.server.sessions.lookup ch = some session)
    (hreply : .newReady session.assigned s.server.qcpPort s.server.qcpTunnelPort = reply)
    (hs : s.expose codec ch bind = some s') :
    (s'.handler = .serving ∧ s'.toClient = s.toClient ++ codec.line reply) ∨
      s'.handler ≠ .serving ∧ Replying reply s' := by
  unfold HandshakeState.expose at hs
  rw [hl] at hs
  cases hp : session.pending with
  | nil =>
    simp only [Option.bind_eq_bind, Option.bind_some, hp, Option.some.injEq] at hs
    subst hs
    exact .inl ⟨rfl, congrArg (fun msg => s.toClient ++ codec.line msg) hreply⟩
  | cons svc pending =>
    right
    simp only [Option.bind_eq_bind, Option.bind_some, hp] at hs
    split at hs
    · next t ht =>
      cases hs
      refine ⟨by simp [hat], .exposing ch { session with pending := pending } hat ?_ ?_ ?_⟩
      · simp only [ServerState.expose, ht]
        cases ServerState.exposeService_cases ht <;> exact hch
      · simp only [ServerState.expose, ht, AList.lookup_insert]
      · simp only [ServerState.expose, ht]
        cases ServerState.exposeService_cases ht <;> exact hreply
    · cases hs
      exact ⟨by simp [goto], .refusing _ _ rfl⟩

theorem handle (h : Replying reply s) {now : Nat} {bind : Except String Unit}
    (hs : s.handle codec mac nonce now bind = some s') : Replying reply s' := by
  cases h with
  | exposing ch session hat hch hl hreply =>
    simp only [HandshakeState.handle, hat] at hs
    rcases expose_cases hat hch hl hreply hs with ⟨hserving, -⟩ | ⟨-, hnext⟩
    · exact .settled (by rw [hserving]; rfl)
    · exact hnext
  | refusing msg error hat =>
    simp only [HandshakeState.handle, hat] at hs
    cases hs
    exact .settled rfl
  | settled hat =>
    rw [(settled_idle hat).1] at hs
    cases hs

theorem step (h : Replying reply s) {e : HandshakeEvent}
    (hs : s.step codec mac d nonce e = some s') : Replying reply s' := by
  cases e with
  | dial => exact h.dial hs
  | handle now bind => exact h.handle hs
  | timeout =>
    obtain ⟨handler, hout, rfl⟩ := Option.map_eq_some_iff.mp hs
    cases h with
    | exposing ch session hat => simp [hat, HandlerPhase.onTimeout] at hout
    | refusing msg error hat => simp [hat, HandlerPhase.onTimeout] at hout
    | settled hat =>
      rw [(settled_idle hat).2] at hout
      cases hout
  | otherAuth call =>
    cases hs
    exact h.frame rfl rfl
  | otherSession e =>
    simp only [HandshakeState.step] at hs
    split at hs
    · cases hs
    · next hother =>
      obtain ⟨server, hserver, rfl⟩ := Option.map_eq_some_iff.mp hs
      exact h.otherSession (Bool.eq_false_of_not_eq_true hother) hserver
  | otherTunnels pendingWork =>
    cases hs
    exact h.frame rfl rfl

end Replying

theorem reply_sent {codec : Codec} {mac : String → String → String} {d : Dialer} {nonce : String}
    {s u v : HandshakeState} {first : Message} {now later : Nat}
    {bind bound : Except String Unit} {events : List HandshakeEvent}
    (hs : s.handler = .registering first)
    (hrun : Machine.run (step codec mac d nonce) s (.handle now bind :: events) = some u)
    (hsend : u.handle codec mac nonce later bound = some v) (hserving : v.handler = .serving) :
    v.toClient = u.toClient ++ codec.line (s.server.readyReply first) := by
  have hregister : s.step codec mac d nonce (.handle now bind) = some (s.register first) := by
    simp [step, HandshakeState.handle, hs]
  rw [Machine.run, hregister] at hrun
  have hu : Replying (s.server.readyReply first) u :=
    Machine.run_invariant (fun _ _ _ h hstep => Replying.step h hstep) (.register s first) hrun
  cases hu with
  | exposing ch session hat hch hl hreply =>
    simp only [HandshakeState.handle, hat] at hsend
    rcases Replying.expose_cases hat hch hl hreply hsend with ⟨-, hsent⟩ | ⟨hother, -⟩
    · exact hsent
    · exact absurd hserving hother
  | refusing msg error hat =>
    simp only [HandshakeState.handle, hat] at hsend
    cases hsend
    cases hserving
  | settled hat =>
    rw [(settled_idle hat).1] at hsend
    cases hsend

end HandshakeState

def Readable (codec : Codec) (reply : Message) : Prop :=
  (codec.body reply).length ≤ maxNdjsonBytes ∧
    readNdjson codec (codec.line reply) false = some (.ok reply, [])

-- The reply says the ports where the hello said the client, and adds the ports assigned to the
-- services that asked for one.
def RoomForReply (codec : Codec) (server : ServerState) (first : Message) : Prop :=
  let clientId := first.clientId.getD ""
  let answers := server.answers first
  (codec.body (.newClientHello clientId (answers.map Prod.fst))).length +
      (answers.map portGain).sum + (Nat.toDigits 10 server.qcpPort.toNat).length +
      (Nat.toDigits 10 server.qcpTunnelPort.toNat).length + 12 ≤
    maxNdjsonBytes + Text.byteLength (Json.escapedText clientId)

theorem ready_readable_iff (json : SerdeJson) (standard : Base64) (hjson : json.Compact)
    (mac : String → String → String) (d : Dialer) (nonce : String) (s u v : HandshakeState)
    (first : Message) (now later : Nat) (bind bound : Except String Unit)
    (events : List HandshakeEvent) (hs : s.handler = .registering first)
    (hrun : Machine.run (HandshakeState.step (json.codec standard) mac d nonce) s
      (.handle now bind :: events) = some u)
    (hsend : u.handle (json.codec standard) mac nonce later bound = some v)
    (hserving : v.handler = .serving)
    (hparse : json.parse ((json.codec standard).toString (s.server.readyReply first)) =
      some ((Message.record standard).format.write (s.server.readyReply first))) :
    v.toClient = u.toClient ++ (json.codec standard).line (s.server.readyReply first) ∧
      (Readable (json.codec standard) (s.server.readyReply first) ↔
        RoomForReply (json.codec standard) s.server first) := by
  refine ⟨HandshakeState.reply_sent hs hrun hsend hserving, ?_⟩
  have hwidth := s.server.width_readyReply first standard
  rw [← hjson.length_body, ← hjson.length_body] at hwidth
  have hfits : ((json.codec standard).body (s.server.readyReply first)).length ≤ maxNdjsonBytes ↔
      RoomForReply (json.codec standard) s.server first := by
    unfold RoomForReply
    omega
  have hdoc := hjson.documented standard rfl hparse
  rw [← hfits]
  exact ⟨And.left, fun hlen => ⟨hlen, readNdjson_line hdoc.carries hlen false⟩⟩

def echoJson (value : Json) : SerdeJson where
  print := Json.compact
  parse text := if text = value.compact then some value else none

theorem echoJson_compact (value : Json) : (echoJson value).Compact := fun _ => rfl

theorem echoJson_parses (standard : Base64) (msg : Message) :
    let value := (Message.record standard).format.write msg
    (echoJson value).parse (((echoJson value).codec standard).toString msg) = some value :=
  if_pos rfl

def dbService (localAddr : String) : Service := { name := "db", localAddr := localAddr }

def dbDialer (localAddr : String) : Dialer where
  role := .client
  authKey := "secret"
  clientId := "a"
  id := ""
  serviceName := ""
  services := [dbService localAddr]

def dbRegistering (localAddr : String) : HandshakeState :=
  { HandshakeState.start (dbDialer localAddr) ∅ ∅ HandshakeState.idleServer with
    dial := .awaitingReady
    handler := .registering (dbDialer localAddr).hello }

theorem registerService_auto {s : SharedServiceState} {clientId : String} {controlTx : Channel}
    {svc : Service} {port : UInt16} (henabled : svc.isEnabled = true)
    (hauto : svc.usesAutoPort = true) (hnew : s.servicesByName.lookup svc.name = none)
    (hport : (s.allocatePort svc.name).2 = some port) :
    (s.registerService clientId controlTx svc).2 = some { svc with remotePort := port } := by
  have hassign : (s.assignPort none svc).2 = some { svc with remotePort := port } := by
    rw [SharedServiceState.assignPort, if_pos hauto]
    simp only [Option.filter_none, hport, Option.map_some]
  rw [SharedServiceState.registerService, if_neg (by simp [henabled])]
  simp only [hnew, Option.any_none, Bool.false_eq_true, if_false]
  split
  · next hnone => simp [hnone] at hassign
  · next hsome =>
    rw [hsome] at hassign
    exact hassign

theorem answers_singleton {s : SharedServiceState} {clientId : String} {controlTx : Channel}
    {svc svc' : Service} (h : (s.registerService clientId controlTx svc).2 = some svc') :
    s.answers clientId controlTx [svc] = [(svc, svc')] := by
  simp only [SharedServiceState.answers, h]
  rfl

theorem answers_db (localAddr : String) :
    HandshakeState.idleServer.answers (dbDialer localAddr).hello =
      [(dbService localAddr, { dbService localAddr with remotePort := 60089 })] := by
  have hport : ((HandshakeState.idleServer.registry.attachControl "a" 0).allocatePort "db").2 =
      some 60089 := by decide +kernel
  exact answers_singleton (registerService_auto rfl rfl (AList.lookup_empty _) hport)

theorem width_dbHello (standard : Base64) (localAddr : String) :
    ((Message.record standard).format.write (dbDialer localAddr).hello).width =
      Text.byteLength (Json.escapedText localAddr) + 75 := by
  have hhello : (dbDialer localAddr).hello = .newClientHello "a" [dbService localAddr] := rfl
  have hid : Text.byteLength (Json.escapedText "a") = 1 := by decide
  have hservices : Text.byteLength (Json.quoted "services") = 10 := by decide
  have hname : Text.byteLength (Json.quoted "name") = 6 := by decide
  have hdb : Text.byteLength (Json.escapedText "db") = 2 := by decide
  have haddr : Text.byteLength (Json.quoted "localAddr") = 11 := by decide
  have hwrite : (Json.list Service.record.format).write [dbService localAddr] =
      .arr [.obj [("name", .str "db"), ("localAddr", .str localAddr)]] := rfl
  rw [hhello, Message.width_newClientHello, hid, Message.servicesWidth, Message.servicesMember,
    if_neg (List.cons_ne_nil _ _), hwrite]
  simp only [List.map_cons, List.map_nil, List.sum_cons, List.sum_nil, Json.memberWidth,
    Json.width_arr (List.cons_ne_nil _ _), Json.width_obj (List.cons_ne_nil _ _), hservices,
    hname, haddr, hdb, Json.width_str]
  omega

theorem width_dbReply (standard : Base64) (localAddr : String) :
    ((Message.record standard).format.write
        (HandshakeState.idleServer.readyReply (dbDialer localAddr).hello)).width =
      Text.byteLength (Json.escapedText localAddr) + 107 := by
  have hreply := HandshakeState.idleServer.width_readyReply (dbDialer localAddr).hello standard
  have hhello := width_dbHello standard localAddr
  have hclient : (dbDialer localAddr).hello.clientId.getD "" = "a" := rfl
  have hsent : (.newClientHello "a" [dbService localAddr] : Message) =
    (dbDialer localAddr).hello := rfl
  have hid : Text.byteLength (Json.escapedText "a") = 1 := by decide
  have hgain : portGain (dbService localAddr, { dbService localAddr with remotePort := 60089 }) =
    portWidth 60089 := rfl
  have hport : portWidth 60089 = 19 := by decide
  have hqcp : (Nat.toDigits 10 HandshakeState.idleServer.qcpPort.toNat).length = 1 := by decide
  have htunnel : (Nat.toDigits 10 HandshakeState.idleServer.qcpTunnelPort.toNat).length = 1 := by
    decide
  rw [answers_db, hclient, hid, hqcp, htunnel] at hreply
  simp only [List.map_cons, List.map_nil, List.sum_cons, List.sum_nil, hgain, hport, hsent,
    hhello] at hreply
  omega

section Runs

variable (codec : Codec) (localAddr : String)

def dbHandled : Option HandshakeState :=
  Machine.run (HandshakeState.step codec HandshakeState.keyMac (dbDialer localAddr) "0a")
    (dbRegistering localAddr) [.handle 0 (.ok ()), .handle 0 (.ok ())]

def dbReplied : Option HandshakeState :=
  (dbHandled codec localAddr).bind fun u => u.handle codec HandshakeState.keyMac "0a" 0 (.ok ())

theorem dbReplied_serving {codec : Codec} {localAddr : String}
    (h : (dbReplied codec localAddr).map (fun v => (v.handler.settled, v.handler.closed)) =
      some (true, false)) :
    ∃ u v, dbHandled codec localAddr = some u ∧
      u.handle codec HandshakeState.keyMac "0a" 0 (.ok ()) = some v ∧ v.handler = .serving := by
  obtain ⟨v, hv, hphase⟩ := Option.map_eq_some_iff.mp h
  obtain ⟨u, hu, hv⟩ := Option.bind_eq_some_iff.mp hv
  refine ⟨u, v, hu, hv, ?_⟩
  obtain ⟨hsettled, hopen⟩ := Prod.mk.inj hphase
  cases hh : v.handler <;> simp_all [HandlerPhase.settled, HandlerPhase.closed]

theorem dbReply_sent {codec : Codec} {localAddr : String} {u v : HandshakeState}
    (hu : dbHandled codec localAddr = some u)
    (hv : u.handle codec HandshakeState.keyMac "0a" 0 (.ok ()) = some v)
    (hserving : v.handler = .serving) :
    v.toClient = u.toClient ++
      codec.line (HandshakeState.idleServer.readyReply (dbDialer localAddr).hello) := by
  have hs : (dbRegistering localAddr).handler = .registering (dbDialer localAddr).hello := rfl
  have hserver : (dbRegistering localAddr).server = HandshakeState.idleServer := rfl
  rw [← hserver]
  exact HandshakeState.reply_sent hs hu hv hserving

end Runs

def shortReply : Message := HandshakeState.idleServer.readyReply (dbDialer "127.0.0.1:80").hello

def shortJson : SerdeJson := echoJson ((Message.record noteBase64).format.write shortReply)

theorem short_ready_readable :
    ∃ u v, dbHandled (shortJson.codec noteBase64) "127.0.0.1:80" = some u ∧
      u.handle (shortJson.codec noteBase64) HandshakeState.keyMac "0a" 0 (.ok ()) = some v ∧
      v.toClient = u.toClient ++ (shortJson.codec noteBase64).line shortReply ∧
      Readable (shortJson.codec noteBase64) shortReply := by
  have hreplied : (dbReplied (shortJson.codec noteBase64) "127.0.0.1:80").map
      (fun v => (v.handler.settled, v.handler.closed)) = some (true, false) := by decide +kernel
  obtain ⟨u, v, hu, hv, hserving⟩ := dbReplied_serving hreplied
  have hroom : RoomForReply (shortJson.codec noteBase64) HandshakeState.idleServer
      (dbDialer "127.0.0.1:80").hello := by
    unfold RoomForReply
    decide +kernel
  obtain ⟨hsent, hiff⟩ := ready_readable_iff shortJson noteBase64 (echoJson_compact _)
    HandshakeState.keyMac (dbDialer "127.0.0.1:80") "0a" (dbRegistering "127.0.0.1:80") u v
    (dbDialer "127.0.0.1:80").hello 0 0 (.ok ()) (.ok ()) [.handle 0 (.ok ())] rfl hu hv hserving
    (echoJson_parses noteBase64 shortReply)
  exact ⟨u, v, hu, hv, hsent, hiff.mpr hroom⟩

def addrOf (n : Nat) : String := String.ofList (List.replicate n 'x')

theorem width_addrOf (n : Nat) : Text.byteLength (Json.escapedText (addrOf n)) = n := by
  rw [Json.escapedText, addrOf, String.toList_ofList]
  induction n with
  | zero => rfl
  | succ n ih =>
    have hone : Text.byteLength (Json.escaped 'x') = 1 := by decide
    rw [List.replicate_succ, List.flatMap_cons, Text.byteLength_append, ih, hone, Nat.add_comm]

def longAddr : String := addrOf 16309

def longHello : Message := (dbDialer longAddr).hello

def longReply : Message := HandshakeState.idleServer.readyReply longHello

def longJson : SerdeJson := echoJson ((Message.record noteBase64).format.write longHello)

-- The hello is as long as it may be, and the reply outgrows it by 32 bytes.
theorem long_ready_unreadable :
    ((longJson.codec noteBase64).body longHello).length ≤ maxInitialMessageBytes ∧
      readInitialMessage (longJson.codec noteBase64) ((longJson.codec noteBase64).line longHello)
        false = some (.ok longHello, []) ∧
      ∃ u v, dbHandled (longJson.codec noteBase64) longAddr = some u ∧
        u.handle (longJson.codec noteBase64) HandshakeState.keyMac "0a" 0 (.ok ()) = some v ∧
        v.toClient = u.toClient ++ (longJson.codec noteBase64).line longReply ∧
        readNdjson (longJson.codec noteBase64) ((longJson.codec noteBase64).line longReply)
          false = some (.error .tooLong, []) ∧
        ¬Readable (longJson.codec noteBase64) longReply := by
  have hcompact : longJson.Compact := echoJson_compact _
  have hhello : ((longJson.codec noteBase64).body longHello).length = 16384 := by
    rw [hcompact.length_body, longHello, width_dbHello, longAddr, width_addrOf]
  have hlong : maxNdjsonBytes < ((longJson.codec noteBase64).body longReply).length := by
    rw [hcompact.length_body, longReply, longHello, width_dbReply, longAddr, width_addrOf]
    decide
  have hlimit : ((longJson.codec noteBase64).body longHello).length ≤ maxInitialMessageBytes :=
    hhello.le
  have hdoc : longJson.Documented noteBase64 longHello :=
    hcompact.documented noteBase64 rfl (echoJson_parses noteBase64 longHello)
  have hreplied : (dbReplied (longJson.codec noteBase64) longAddr).map
      (fun v => (v.handler.settled, v.handler.closed)) = some (true, false) := by decide +kernel
  obtain ⟨u, v, hu, hv, hserving⟩ := dbReplied_serving hreplied
  refine ⟨hlimit, readInitialMessage_line hdoc.carries hlimit false, u, v, hu, hv,
    dbReply_sent hu hv hserving, ?_, fun hread => ?_⟩
  · exact readNdjson_long (hcompact.noNewline noteBase64 longReply) hlong
  · exact absurd hread.1 (Nat.not_le.mpr hlong)

end Cross233.Control
