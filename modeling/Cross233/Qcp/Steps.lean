import Cross233.Qcp.Sending

namespace Cross233.Qcp

def RetransmitPc.ids : RetransmitPc → List UInt32
  | .collected ms => ms.map Accepted.msgId
  | .resend _ ms => ms.map Accepted.msgId
  | .update _ id ms => id :: ms.map Accepted.msgId
  | _ => []

def SendCall.inFlight (call : SendCall) (now : Instant) : InFlight :=
  ⟨call.data, call.stream, fragCount call.data, now, false⟩

inductive Moved (ep : Endpoint) (e : Event) (ep' : Endpoint) : Prop where
  | idle (h : ep' = ep)
  | called (data : Bytes) (stream : Stream) (call : SendCall) (he : e = .act (.call data stream))
      (hcall : sendStream data stream = .ok (some call))
      (h : ep' = { ep with calls := ep.calls ++ [call] })
  | failed (i : Nat) (now : Instant) (call : SendCall) (err : QcpError)
      (he : e = .act (.resume i now)) (hget : ep.calls[i]? = some call)
      (hpc : call.pc = .window ∨ call.pc = .alloc) (herr : ep.core.state.sendError = some err)
      (h : ep' = { ep with calls := ep.calls.eraseIdx i })
  | passed (i : Nat) (now : Instant) (call : SendCall) (he : e = .act (.resume i now))
      (hget : ep.calls[i]? = some call) (hpc : call.pc = .window)
      (hno : ep.core.state.sendError = none)
      (hspace : ep.core.state.inFlight.len < ep.core.state.cwnd)
      (h : ep' = { ep with calls := ep.calls.set i { call with pc := .alloc } })
  | allocated (i : Nat) (now : Instant) (call : SendCall) (he : e = .act (.resume i now))
      (hget : ep.calls[i]? = some call) (hpc : call.pc = .alloc)
      (hno : ep.core.state.sendError = none)
      (h : ep' =
        { ep.setState { ep.core.state with nextMsgId := nextId ep.core.state.nextMsgId } with
        accepted := ep.accepted ++ [⟨ep.core.state.nextMsgId, call.data, call.stream⟩]
        calls := ep.calls.set i { call with
          pc := if call.stream = .realtime then .push ep.core.state.nextMsgId
            else .insert ep.core.state.nextMsgId } })
  | inserted (i : Nat) (now : Instant) (call : SendCall) (id : UInt32)
      (he : e = .act (.resume i now)) (hget : ep.calls[i]? = some call) (hpc : call.pc = .insert id)
      (h : ep' = { ep.setState { ep.core.state with
          inFlight := ep.core.state.inFlight.insert id (call.inFlight now)
          lastActivity := now } with
        calls := ep.calls.set i { call with pc := .push id } })
  | pushed (i : Nat) (now : Instant) (call : SendCall) (id : UInt32)
      (he : e = .act (.resume i now)) (hget : ep.calls[i]? = some call) (hpc : call.pc = .push id)
      (h : ep' = { ep with
        core := sendFrags ep.core id call.data call.stream
        returned := ep.returned ++ [⟨id, call.data, call.stream⟩]
        calls := ep.calls.eraseIdx i })
  | waited (now : Instant) (pc : RetransmitPc)
      (he : e = .act (.retransmit now) ∨ ∃ pending, e = .act (.collect now pending))
      (hpc : (pc.ids = [] ∧ pc.pending = []) ∨
        (pc.ids = ep.retransmit.ids ∧ pc.pending = ep.retransmit.pending) ∨
        ∃ pending, pending.Perm (ep.core.state.toResend now) ∧ pc = .collected pending)
      (h : ep' = { ep with retransmit := pc })
  | resent (now at' : Instant) (m : Accepted) (pending : List Accepted)
      (he : e = .act (.retransmit now)) (hpc : ep.retransmit = .resend at' (m :: pending))
      (h : ep' = { ep with
        core := sendFrags ep.core m.msgId m.data m.stream
        retransmit := .update at' m.msgId pending })
  | noted (now at' : Instant) (id : UInt32) (pending : List Accepted)
      (he : e = .act (.retransmit now)) (hpc : ep.retransmit = .update at' id pending)
      (h : ep' = { ep.setState (ep.core.state.noteResent at' id) with
        retransmit := .resend at' pending })
  | gaveUp (now : Instant) (he : e = .act (.retransmit now)) (hpc : ep.retransmit = .giveUp)
      (h : ep' = { ep.setState (markDead ep.core.state "max retransmit exceeded") with
        retransmit := .stopped })
  | timedOut (now : Instant) (he : e = .act (.tick now))
      (hidle : now - ep.core.state.lastActivity ≥ millis deadTimeoutMs)
      (h : ep' = ep.setState (markDead ep.core.state "peer idle timeout"))
  | pinged (now : Instant) (he : e = .act (.tick now))
      (h : ep' = { ep with core := ep.core.sendCtrl (control flagPing .batch 0) })
  | closed (he : e = .act .close) (h : ep' = ep.close)
  | pumped (d : Bytes) (he : e = .pump) (hp : ep.pump = some (d, ep'))
  | panicked (now : Instant) (buf : Bytes) (err : Panic) (he : e = .receive now buf)
      (h : ep' = { ep with inbound := some err })
  | received (now : Instant) (buf : Bytes) (p : Packet) (core : Core) (he : e = .receive now buf)
      (hp : recvFrom buf = some p) (hk : handlePacket now ep.core p = .ok core)
      (h : ep' = { ep with core := core })

theorem resume_moved {ep ep' : Endpoint} {i : Nat} {now : Instant}
    (h : ep.resumeAt i now = some ep') : Moved ep (.act (.resume i now)) ep' := by
  obtain ⟨call, hget, rfl⟩ := Option.map_eq_some_iff.mp h
  simp only [Endpoint.resume]
  cases hpc : call.pc with
  | window =>
    cases herr : ep.core.state.sendError with
    | some err => exact .failed i now call err rfl hget (Or.inl hpc) herr rfl
    | none =>
      simp only
      split_ifs with hspace
      · exact .passed i now call rfl hget hpc herr hspace rfl
      · refine .idle ?_
        obtain ⟨hi, hc⟩ := List.getElem?_eq_some_iff.mp hget
        have hset : ep.calls.set i call = ep.calls := by
          rw [← hc]
          exact List.set_getElem_self hi
        simp only [hset]
  | alloc =>
    cases herr : ep.core.state.sendError with
    | some err => exact .failed i now call err rfl hget (Or.inr hpc) herr rfl
    | none => exact .allocated i now call rfl hget hpc herr rfl
  | insert id => exact .inserted i now call id rfl hget hpc rfl
  | push id => exact .pushed i now call id rfl hget hpc rfl

theorem retransmit_moved (ep : Endpoint) (now : Instant) :
    Moved ep (.act (.retransmit now)) (ep.retransmitStep now) := by
  unfold Endpoint.retransmitStep
  cases hpc : ep.retransmit with
  | top =>
    refine .waited now _ (Or.inl rfl) (Or.inl ?_) rfl
    split_ifs <;> exact ⟨rfl, rfl⟩
  | snapshot =>
    refine .waited now _ (Or.inl rfl) ?_ rfl
    split_ifs
    · exact Or.inl ⟨rfl, rfl⟩
    · exact Or.inr (Or.inr ⟨_, List.Perm.refl _, rfl⟩)
  | collected pending =>
    refine .waited now _ (Or.inl rfl) (Or.inr (Or.inl ?_)) rfl
    rw [hpc]
    exact ⟨rfl, rfl⟩
  | resend at' pending =>
    cases pending with
    | nil =>
      refine .waited now _ (Or.inl rfl) (Or.inl ?_) rfl
      split_ifs <;> exact ⟨rfl, rfl⟩
    | cons m pending => exact .resent now at' m pending rfl hpc rfl
  | update at' id pending => exact .noted now at' id pending rfl hpc rfl
  | giveUp => exact .gaveUp now rfl hpc rfl
  | stopped => exact .idle rfl

theorem tick_moved (ep : Endpoint) (now : Instant) : Moved ep (.act (.tick now)) (ep.tick now) := by
  unfold Endpoint.tick
  simp only
  split_ifs with hc hidle hping
  · exact .idle rfl
  · exact .timedOut now rfl hidle rfl
  · exact .pinged now rfl rfl
  · exact .idle rfl

theorem step_moved {ep ep' : Endpoint} {e : Event} (h : ep.step e = some ep') : Moved ep e ep' := by
  cases e with
  | pump =>
    obtain ⟨⟨d, ep1⟩, hp, rfl⟩ := Option.map_eq_some_iff.mp h
    exact .pumped d rfl hp
  | receive now buf =>
    obtain ⟨-, rfl⟩ := step_receive h
    cases hp : recvFrom buf with
    | none => exact .idle (receive_none hp)
    | some p =>
      cases hk : handlePacket now ep.core p with
      | error err => exact .panicked now buf err rfl (receive_error hp hk)
      | ok core => exact .received now buf p core rfl hp hk (receive_ok hp hk)
  | act a =>
    cases a with
    | call data stream =>
      simp only [Endpoint.step, Endpoint.act] at h
      split at h
      · next call hcall =>
        cases h
        exact .called data stream call rfl hcall rfl
      · cases h
        exact .idle rfl
    | resume i now => exact resume_moved h
    | retransmit now =>
      cases h
      exact retransmit_moved ep now
    | collect now pending =>
      obtain ⟨-, hperm, rfl⟩ := collect_cases h
      exact .waited now _ (Or.inr ⟨pending, rfl⟩) (Or.inr (Or.inr ⟨pending, hperm, rfl⟩)) rfl
    | tick now =>
      cases h
      exact tick_moved ep now
    | close =>
      cases h
      exact .closed rfl rfl

def SendPc.inserting : SendPc → Option UInt32
  | .insert id => some id
  | _ => none

def Endpoint.inserting (ep : Endpoint) : Event → Option UInt32
  | .act (.resume i _) => ep.calls[i]?.bind (fun call => call.pc.inserting)
  | _ => none

def RetransmitPc.noting : RetransmitPc → Option UInt32
  | .update _ id _ => some id
  | _ => none

def Endpoint.noting (ep : Endpoint) : Event → Option UInt32
  | .act (.retransmit _) => ep.retransmit.noting
  | _ => none

theorem inserting_none_of_step {ep : Endpoint} {e : Event} (h : ep.step e = none) :
    ep.inserting e = none := by
  cases e with
  | pump => rfl
  | receive now buf => rfl
  | act a =>
    cases a with
    | resume i now =>
      have hget : ep.calls[i]? = none := Option.map_eq_none_iff.mp h
      simp [Endpoint.inserting, hget]
    | call data stream => rfl
    | retransmit now => rfl
    | collect now pending => rfl
    | tick now => rfl
    | close => rfl

theorem noting_none_of_step {ep : Endpoint} {e : Event} (h : ep.step e = none) :
    ep.noting e = none := by
  cases e with
  | pump => rfl
  | receive now buf => rfl
  | act a =>
    cases a with
    | retransmit now => cases h
    | collect now pending => rfl
    | call data stream => rfl
    | resume i now => rfl
    | tick now => rfl
    | close => rfl

theorem inserting_of_pc {ep : Endpoint} {i : Nat} {call : SendCall} {id : UInt32}
    (hget : ep.calls[i]? = some call) (hpc : call.pc = .insert id) (now : Instant) :
    ep.inserting (.act (.resume i now)) = some id := by
  simp [Endpoint.inserting, hget, hpc, SendPc.inserting]

theorem noting_of_pc {ep : Endpoint} {at' : Instant} {id : UInt32} {pending : List Accepted}
    (hpc : ep.retransmit = .update at' id pending) (now : Instant) :
    ep.noting (.act (.retransmit now)) = some id := by
  simp [Endpoint.noting, hpc, RetransmitPc.noting]

theorem noting_cases {ep : Endpoint} {e : Event} {id : UInt32} (h : id ∈ ep.noting e) :
    ∃ now at' pending, e = .act (.retransmit now) ∧ ep.retransmit = .update at' id pending := by
  unfold Endpoint.noting at h
  split at h
  · next now =>
    unfold RetransmitPc.noting at h
    split at h
    · next at' j pending hpc =>
      cases h
      exact ⟨now, at', pending, rfl, hpc⟩
    · cases h
  · cases h

theorem step_noting {ep ep' : Endpoint} {e : Event} {id : UInt32} (h : id ∈ ep.noting e)
    (hs : ep.step e = some ep') : ∃ at' pending,
      ep' = { ep.setState (ep.core.state.noteResent at' id) with
        retransmit := .resend at' pending } := by
  obtain ⟨now, at', pending, rfl, hpc⟩ := noting_cases h
  refine ⟨at', pending, ?_⟩
  simp only [Endpoint.step, Endpoint.act, Endpoint.retransmitStep, hpc] at hs
  exact (Option.some.inj hs).symm

def Endpoint.Open (ep : Endpoint) : Prop := ep.core.state.closed = false

instance (ep : Endpoint) : Decidable ep.Open := inferInstanceAs (Decidable (_ = _))

theorem handled_open {now : Instant} {core core' : Core} {p : Packet}
    (hk : Handled now core p core') (h : core'.state.closed = false) :
    core.state.closed = false := by
  cases hk with
  | ignored hc he => exact he ▸ h
  | syn hc he | fin hc hf he | ping hc he | touched hc he | ack hc ha he | realtime hc hs he
  | fragment hc hf hk => exact hc

theorem step_open {ep ep' : Endpoint} {e : Event} (hs : ep.step e = some ep') (h : ep'.Open) :
    ep.Open := by
  cases step_moved hs with
  | received now buf p core he hp hk hm =>
    subst hm
    exact handled_open (handlePacket_cases hk) h
  | gaveUp now he hpc hm | timedOut now he hidle hm | closed he hm =>
    subst hm
    cases h
  | pumped d he hp =>
    rcases pump_cases hp with ⟨ctrl, -, rfl⟩ | ⟨data, -, -, rfl⟩
    · exact h
    · exact h
  | idle hm | called data stream call he hcall hm | failed i now call err he hget hpc herr hm
  | passed i now call he hget hpc hno hspace hm | allocated i now call he hget hpc hno hm
  | inserted i now call id he hget hpc hm | pushed i now call id he hget hpc hm
  | waited now pc he hpc hm | resent now at' m pending he hpc hm
  | noted now at' id pending he hpc hm | pinged now he hm | panicked now buf err he hm =>
    subst hm
    exact h

end Cross233.Qcp
