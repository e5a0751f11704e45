import Cross233.Library.Chunks
import Cross233.Library.Machine
import Cross233.Qcp.Core

namespace Cross233.Qcp

inductive QcpError where
  | closed
  | tooLarge (len max : Nat)
  | connectionFailed (reason : String)
  deriving DecidableEq, Repr

def maxMessage : Nat := maxPayload * 65535

def chunks (data : Bytes) : List Bytes := Chunks.chunksOf maxPayload data

def fragment (msgId : UInt32) (stream : Stream) (total : Nat) (index : Nat) (c : Bytes) :
    Packet where
  flags := flagData
  stream := stream
  msgId := msgId
  fragIndex := UInt16.ofNat index
  fragTotal := UInt16.ofNat total
  payload := c

def fragments (msgId : UInt32) (data : Bytes) (stream : Stream) : List Packet :=
  (chunks data).mapIdx (fun i c => fragment msgId stream (chunks data).length i c)

def sendFrags (core : Core) (msgId : UInt32) (data : Bytes) (stream : Stream) : Core :=
  { core with dataTx := core.dataTx ++ (fragments msgId data stream).map encode }

inductive SendPc where
  | window
  | alloc
  | insert (msgId : UInt32)
  | push (msgId : UInt32)
  deriving DecidableEq, Repr

structure SendCall where
  data : Bytes
  stream : Stream
  pc : SendPc
  deriving DecidableEq, Repr

structure Accepted where
  msgId : UInt32
  data : Bytes
  stream : Stream
  deriving DecidableEq, Repr

inductive RetransmitPc where
  | top
  | snapshot
  | collected (pending : List Accepted)
  | resend (now : Instant) (pending : List Accepted)
  | update (now : Instant) (msgId : UInt32) (pending : List Accepted)
  | giveUp
  | stopped
  deriving DecidableEq, Repr

structure Endpoint where
  core : Core
  calls : List SendCall
  retransmit : RetransmitPc
  inbound : Option Panic
  accepted : List Accepted
  returned : List Accepted

def Endpoint.ofCore (core : Core) : Endpoint where
  core := core
  calls := []
  retransmit := .top
  inbound := none
  accepted := []
  returned := []

def Endpoint.setState (ep : Endpoint) (st : CoreState) : Endpoint :=
  { ep with core := { ep.core with state := st } }

def sendStream (data : Bytes) (stream : Stream) : Except QcpError (Option SendCall) :=
  if data.length > maxMessage then .error (.tooLarge data.length maxMessage)
  else if data.isEmpty then .ok none
  else .ok (some ⟨data, stream, if stream = .realtime then .alloc else .window⟩)

def CoreState.sendError (st : CoreState) : Option QcpError :=
  if st.closed then some .closed
  else if st.dead then some (.connectionFailed (st.deadReason.getD "connection dead"))
  else none

def nextId (id : UInt32) : UInt32 := if id + 1 = 0 then 1 else id + 1

def fragCount (data : Bytes) : UInt16 :=
  UInt16.ofNat ((data.length + maxPayload - 1) / maxPayload)

inductive CallResult where
  | running (call : SendCall)
  | done (result : Except QcpError Unit)

def Endpoint.resume (ep : Endpoint) (now : Instant) (call : SendCall) : Endpoint × CallResult :=
  let st := ep.core.state
  match call.pc with
  | .window =>
    match st.sendError with
    | some e => (ep, .done (.error e))
    | none =>
      if st.inFlight.len < st.cwnd then (ep, .running { call with pc := .alloc })
      else (ep, .running call)
  | .alloc =>
    match st.sendError with
    | some e => (ep, .done (.error e))
    | none =>
      let id := st.nextMsgId
      let ep := { ep.setState { st with nextMsgId := nextId id } with
        accepted := ep.accepted ++ [⟨id, call.data, call.stream⟩] }
      (ep, .running { call with pc := if call.stream = .realtime then .push id else .insert id })
  | .insert id =>
    let inf : InFlight := ⟨call.data, call.stream, fragCount call.data, now, false⟩
    (ep.setState { st with inFlight := st.inFlight.insert id inf, lastActivity := now },
      .running { call with pc := .push id })
  | .push id =>
    ({ ep with
        core := sendFrags ep.core id call.data call.stream
        returned := ep.returned ++ [⟨id, call.data, call.stream⟩] }, .done (.ok ()))

def CoreState.aged (st : CoreState) (now : Instant) : List (Sigma fun _ : UInt32 => InFlight) :=
  st.inFlight.entries.filter (fun e => now - e.2.sentAt ≥ st.rto)

def CoreState.spent (st : CoreState) (id : UInt32) : Bool :=
  (st.retrans.lookup id).getD 0 + 1 > maxRetransmit

def CoreState.toResend (st : CoreState) (now : Instant) : List Accepted :=
  ((st.aged now).filter (fun e => ¬st.spent e.1)).map (fun e => ⟨e.1, e.2.data, e.2.stream⟩)

def CoreState.giveUp (st : CoreState) (now : Instant) : Bool :=
  (st.aged now).any (fun e => st.spent e.1)

def CoreState.noteResent (st : CoreState) (now : Instant) (id : UInt32) : CoreState :=
  { st with
    inFlight := match st.inFlight.lookup id with
      | none => st.inFlight
      | some inf => st.inFlight.insert id { inf with sentAt := now, retransmitted := true }
    retrans := st.retrans.insert id ((st.retrans.lookup id).getD 0 + 1)
    ssthresh := max (st.cwnd / 2) minCwnd
    cwnd := minCwnd
    caAck := 0 }

def Endpoint.retransmitStep (ep : Endpoint) (now : Instant) : Endpoint :=
  let st := ep.core.state
  match ep.retransmit with
  | .top => { ep with retransmit := if st.closed then .stopped else .snapshot }
  | .snapshot =>
    { ep with retransmit := if st.giveUp now then .giveUp else .collected (st.toResend now) }
  | .collected pending => { ep with retransmit := .resend now pending }
  | .giveUp =>
    { ep.setState (markDead st "max retransmit exceeded") with retransmit := .stopped }
  | .resend _ [] => { ep with retransmit := if st.closed then .stopped else .top }
  | .resend at' (m :: pending) =>
    { ep with
      core := sendFrags ep.core m.msgId m.data m.stream
      retransmit := .update at' m.msgId pending }
  | .update at' id pending =>
    { ep.setState (st.noteResent at' id) with retransmit := .resend at' pending }
  | .stopped => ep

-- `in_flight` is a hash map: the snapshot may list its messages in any order.
def Endpoint.collect (ep : Endpoint) (now : Instant) (pending : List Accepted) : Option Endpoint :=
  if ep.retransmit = .snapshot ∧ ep.core.state.giveUp now = false ∧
      pending.Perm (ep.core.state.toResend now) then
    some { ep with retransmit := .collected pending }
  else none

def Endpoint.tick (ep : Endpoint) (now : Instant) : Endpoint :=
  let st := ep.core.state
  let idle := now - st.lastActivity
  if st.closed then ep
  else if idle ≥ millis deadTimeoutMs then ep.setState (markDead st "peer idle timeout")
  else if idle ≥ millis keepaliveIntervalMs then
    { ep with core := ep.core.sendCtrl (control flagPing .batch 0) }
  else ep

def Endpoint.close (ep : Endpoint) : Endpoint :=
  let ep := ep.setState
    { ep.core.state with closed := true, inFlight := ∅, assemblers := ∅ }
  { ep with core := ep.core.sendCtrl (control flagFin .batch 0) }

def Endpoint.receive (ep : Endpoint) (now : Instant) (buf : Bytes) : Endpoint :=
  match Qcp.receive now ep.core buf with
  | .ok core => { ep with core := core }
  | .error e => { ep with inbound := some e }

def Endpoint.pump (ep : Endpoint) : Option (Bytes × Endpoint) :=
  match ep.core.ctrlTx, ep.core.dataTx with
  | p :: ctrl, _ => some (p, { ep with core := { ep.core with ctrlTx := ctrl } })
  | [], p :: data => some (p, { ep with core := { ep.core with dataTx := data } })
  | [], [] => none

inductive Action where
  | call (data : Bytes) (stream : Stream)
  | resume (i : Nat) (now : Instant)
  | retransmit (now : Instant)
  | collect (now : Instant) (pending : List Accepted)
  | tick (now : Instant)
  | close
  deriving DecidableEq, Repr

def Endpoint.resumeAt (ep : Endpoint) (i : Nat) (now : Instant) : Option Endpoint :=
  ep.calls[i]?.map (fun call =>
    match ep.resume now call with
    | (ep', .running call') => { ep' with calls := ep'.calls.set i call' }
    | (ep', .done _) => { ep' with calls := ep'.calls.eraseIdx i })

def Endpoint.act (ep : Endpoint) : Action → Option Endpoint
  | .call data stream =>
    match sendStream data stream with
    | .ok (some call) => some { ep with calls := ep.calls ++ [call] }
    | _ => some ep
  | .resume i now => ep.resumeAt i now
  | .retransmit now => some (ep.retransmitStep now)
  | .collect now pending => ep.collect now pending
  | .tick now => some (ep.tick now)
  | .close => some ep.close

inductive Event where
  | act (a : Action)
  | pump
  | receive (now : Instant) (buf : Bytes)
  deriving DecidableEq, Repr

def Endpoint.step (ep : Endpoint) : Event → Option Endpoint
  | .act a => ep.act a
  | .pump => ep.pump.map Prod.snd
  | .receive now buf => if ep.inbound = none then some (ep.receive now buf) else none

def dialWindow : Nat := 256
def dialRto : Duration := millis 200

theorem receive_none {ep : Endpoint} {now : Instant} {buf : Bytes} (h : recvFrom buf = none) :
    ep.receive now buf = ep := by
  simp [Endpoint.receive, receive, h]

theorem receive_ok {ep : Endpoint} {now : Instant} {buf : Bytes} {p : Packet} {core : Core}
    (h : recvFrom buf = some p) (hk : handlePacket now ep.core p = .ok core) :
    ep.receive now buf = { ep with core := core } := by
  simp [Endpoint.receive, receive, h, hk]

theorem receive_error {ep : Endpoint} {now : Instant} {buf : Bytes} {p : Packet} {e : Panic}
    (h : recvFrom buf = some p) (hk : handlePacket now ep.core p = .error e) :
    ep.receive now buf = { ep with inbound := some e } := by
  simp [Endpoint.receive, receive, h, hk]

theorem step_receive {ep ep' : Endpoint} {now : Instant} {buf : Bytes}
    (h : ep.step (.receive now buf) = some ep') :
    ep.inbound = none ∧ ep' = ep.receive now buf := by
  simp only [Endpoint.step] at h
  split_ifs at h with hi
  cases h
  exact ⟨hi, rfl⟩

structure SameReceiver (ep ep' : Endpoint) : Prop where
  assemblers : ep'.core.state.assemblers = ep.core.state.assemblers ∨
    ep'.core.state.assemblers = ∅
  delivered : ep'.core.state.delivered = ep.core.state.delivered
  deliverTx : ep'.core.state.deliverTx = ep.core.state.deliverTx
  inbound : ep'.inbound = ep.inbound
  newest : ep'.core.state.lastRealtime = ep.core.state.lastRealtime
  listening : ep'.core.state.closed = false →
    ep.core.state.closed = false ∧ ep'.core.state.assemblers = ep.core.state.assemblers

theorem SameReceiver.of_open {ep ep' : Endpoint}
    (ha : ep'.core.state.assemblers = ep.core.state.assemblers)
    (hd : ep'.core.state.delivered = ep.core.state.delivered)
    (ht : ep'.core.state.deliverTx = ep.core.state.deliverTx) (hi : ep'.inbound = ep.inbound)
    (hn : ep'.core.state.lastRealtime = ep.core.state.lastRealtime)
    (hc : ep'.core.state.closed = false → ep.core.state.closed = false) : SameReceiver ep ep' :=
  ⟨Or.inl ha, hd, ht, hi, hn, fun h => ⟨hc h, ha⟩⟩

theorem resumeAt_eq {ep ep' : Endpoint} {i : Nat} {now : Instant}
    (h : ep.resumeAt i now = some ep') :
    ∃ call calls, ep.calls[i]? = some call ∧ ep' = { (ep.resume now call).1 with calls := calls } ∧
      ∀ c ∈ calls, c ∈ (ep.resume now call).1.calls ∨ (ep.resume now call).2 = .running c := by
  obtain ⟨call, hcall, rfl⟩ := Option.map_eq_some_iff.mp h
  refine ⟨call, ?_⟩
  rcases hr : ep.resume now call with ⟨ep1, running | done⟩
  · refine ⟨ep1.calls.set i running, hcall, rfl, ?_⟩
    intro c hc
    rcases List.mem_or_eq_of_mem_set hc with hm | rfl
    · exact Or.inl hm
    · exact Or.inr rfl
  · exact ⟨ep1.calls.eraseIdx i, hcall, rfl, fun c hc => Or.inl (List.mem_of_mem_eraseIdx hc)⟩

def Endpoint.Calm (ep : Endpoint) : Action → Prop
  | .close => False
  | .retransmit _ => ep.retransmit ≠ .giveUp
  | .tick now => now - ep.core.state.lastActivity < millis deadTimeoutMs
  | _ => True

instance (ep : Endpoint) : ∀ a : Action, Decidable (ep.Calm a)
  | .close => isFalse id
  | .retransmit _ => inferInstanceAs (Decidable (_ ≠ _))
  | .tick _ => inferInstanceAs (Decidable (_ < _))
  | .call _ _ => isTrue trivial
  | .resume _ _ => isTrue trivial
  | .collect _ _ => isTrue trivial

inductive Effect (ep : Endpoint) (a : Action) (ep' : Endpoint) : Prop where
  | idle (calls : List SendCall) (pc : RetransmitPc)
      (h : ep' = { ep with calls := calls, retransmit := pc })
  | alloc (call : SendCall) (calls : List SendCall)
      (h : ep' =
        { ep.setState { ep.core.state with nextMsgId := nextId ep.core.state.nextMsgId } with
        accepted := ep.accepted ++ [⟨ep.core.state.nextMsgId, call.data, call.stream⟩]
        calls := calls })
  | insert (id : UInt32) (inf : InFlight) (now : Instant) (calls : List SendCall)
      (h : ep' = { ep.setState { ep.core.state with
          inFlight := ep.core.state.inFlight.insert id inf, lastActivity := now } with
        calls := calls })
  | push (m : Accepted) (returned : List Accepted) (calls : List SendCall) (pc : RetransmitPc)
      (h : ep' = { ep with
        core := sendFrags ep.core m.msgId m.data m.stream
        returned := returned, calls := calls, retransmit := pc })
  | update (now : Instant) (id : UInt32) (pc : RetransmitPc)
      (h : ep' = { ep.setState (ep.core.state.noteResent now id) with retransmit := pc })
  | dead (reason : String) (pc : RetransmitPc) (hcalm : ¬ep.Calm a)
      (h : ep' = { ep.setState (markDead ep.core.state reason) with retransmit := pc })
  | ping (h : ep' = { ep with core := ep.core.sendCtrl (control flagPing .batch 0) })
  | close (ha : a = .close) (h : ep' = ep.close)

theorem resume_effect (ep : Endpoint) (i : Nat) (now : Instant) (call : SendCall)
    (calls : List SendCall) :
    Effect ep (.resume i now) { (ep.resume now call).1 with calls := calls } := by
  unfold Endpoint.resume
  cases call.pc with
  | window =>
    simp only
    split
    · exact .idle calls ep.retransmit rfl
    · split_ifs
      · exact .idle calls ep.retransmit rfl
      · exact .idle calls ep.retransmit rfl
  | alloc =>
    simp only
    split
    · exact .idle calls ep.retransmit rfl
    · exact .alloc call calls rfl
  | insert id => exact .insert id _ now calls rfl
  | push id => exact .push ⟨id, call.data, call.stream⟩ _ calls ep.retransmit rfl

theorem retransmit_effect (ep : Endpoint) (now : Instant) :
    Effect ep (.retransmit now) (ep.retransmitStep now) := by
  unfold Endpoint.retransmitStep
  cases hpc : ep.retransmit with
  | resend at' pending =>
    cases pending with
    | nil => exact .idle ep.calls _ rfl
    | cons m pending => exact .push m ep.returned ep.calls _ rfl
  | update at' id pending => exact .update at' id _ rfl
  | giveUp => exact .dead _ _ (fun h => h hpc) rfl
  | stopped => exact .idle ep.calls ep.retransmit rfl
  | _ => exact .idle ep.calls _ rfl

theorem collect_cases {ep ep' : Endpoint} {now : Instant} {pending : List Accepted}
    (h : ep.collect now pending = some ep') : ep.retransmit = .snapshot ∧
      pending.Perm (ep.core.state.toResend now) ∧
      ep' = { ep with retransmit := .collected pending } := by
  unfold Endpoint.collect at h
  split_ifs at h with hc
  cases h
  exact ⟨hc.1, hc.2.2, rfl⟩

theorem tick_effect (ep : Endpoint) (now : Instant) : Effect ep (.tick now) (ep.tick now) := by
  unfold Endpoint.tick
  simp only
  split_ifs with hc hdead hping
  · exact .idle ep.calls ep.retransmit rfl
  · exact .dead _ ep.retransmit (fun h => absurd h (not_lt.mpr hdead)) rfl
  · exact .ping rfl
  · exact .idle ep.calls ep.retransmit rfl

theorem act_effect {ep ep' : Endpoint} {a : Action} (h : ep.act a = some ep') :
    Effect ep a ep' := by
  cases a with
  | call data stream =>
    simp only [Endpoint.act] at h
    split at h
    · cases h
      exact .idle _ ep.retransmit rfl
    · cases h
      exact .idle ep.calls ep.retransmit rfl
  | resume i now =>
    obtain ⟨call, calls, -, rfl, -⟩ := resumeAt_eq h
    exact resume_effect ep i now call calls
  | retransmit now =>
    cases h
    exact retransmit_effect ep now
  | collect now pending =>
    obtain ⟨-, -, rfl⟩ := collect_cases h
    exact .idle ep.calls _ rfl
  | tick now =>
    cases h
    exact tick_effect ep now
  | close =>
    cases h
    exact .close rfl rfl

theorem act_receiver {ep ep' : Endpoint} {a : Action} (h : ep.act a = some ep') :
    SameReceiver ep ep' := by
  cases act_effect h with
  | close ha h =>
    rw [h]
    refine ⟨Or.inr rfl, rfl, rfl, rfl, rfl, ?_⟩
    intro hc
    cases hc
  | dead reason pc hcalm h =>
    rw [h]
    refine .of_open rfl rfl rfl rfl rfl ?_
    intro hc
    cases hc
  | idle calls pc h | alloc call calls h | insert id inf now calls h | push m rs calls pc h
  | update now id pc h | ping h =>
    rw [h]
    exact .of_open rfl rfl rfl rfl rfl (fun hc => hc)

theorem act_ctrlTx {ep ep' : Endpoint} {a : Action} (h : ep.act a = some ep') :
    ∀ d ∈ ep'.core.ctrlTx, d ∈ ep.core.ctrlTx ∨ d = encode (control flagPing .batch 0) ∨
      (a = .close ∧ d = encode (control flagFin .batch 0)) := by
  intro d hd
  cases act_effect h with
  | close ha h =>
    rw [h] at hd
    rcases List.mem_append.mp hd with hd | hd
    · exact Or.inl hd
    · exact Or.inr (Or.inr ⟨ha, List.mem_singleton.mp hd⟩)
  | ping h =>
    rw [h] at hd
    rcases List.mem_append.mp hd with hd | hd
    · exact Or.inl hd
    · exact Or.inr (Or.inl (List.mem_singleton.mp hd))
  | idle calls pc h | alloc call calls h | insert id inf now calls h | push m rs calls pc h
  | update now id pc h | dead reason pc hcalm h =>
    rw [h] at hd
    exact Or.inl hd

theorem pump_cases {ep ep' : Endpoint} {d : Bytes} (h : ep.pump = some (d, ep')) :
    (∃ ctrl, ep.core.ctrlTx = d :: ctrl ∧
        ep' = { ep with core := { ep.core with ctrlTx := ctrl } }) ∨
      (∃ data, ep.core.ctrlTx = [] ∧ ep.core.dataTx = d :: data ∧
        ep' = { ep with core := { ep.core with dataTx := data } }) := by
  unfold Endpoint.pump at h
  split at h
  · next hc =>
    cases h
    exact Or.inl ⟨_, hc, rfl⟩
  · next hc hd =>
    cases h
    exact Or.inr ⟨_, hc, hd, rfl⟩
  · cases h

theorem pump_receiver {ep ep' : Endpoint} {d : Bytes} (h : ep.pump = some (d, ep')) :
    SameReceiver ep ep' := by
  rcases pump_cases h with ⟨ctrl, -, rfl⟩ | ⟨data, -, -, rfl⟩
  · exact .of_open rfl rfl rfl rfl rfl id
  · exact .of_open rfl rfl rfl rfl rfl id

end Cross233.Qcp
