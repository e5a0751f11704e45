import Cross233.Qcp.Listener
import Cross233.Qcp.Sending

namespace Cross233.Qcp

inductive Side where
  | dialer
  | acceptor
  deriving DecidableEq, Repr

def Side.other : Side → Side
  | .dialer => .acceptor
  | .acceptor => .dialer

inductive DialPc where
  | check (left : Nat)
  | wait (left : Nat)
  | connected
  | failed
  deriving DecidableEq, Repr

def syn : Packet := control flagSyn .batch 0
def handshakeAck : Packet := control flagAck .batch 0

inductive DialEvent where
  | attempt
  | notified
  | timeout
  deriving DecidableEq, Repr

def dialStep (pc : DialPc) (core : Core) : DialEvent → Option (DialPc × Core)
  | .attempt =>
    match pc with
    | .check 0 => some (.failed, core)
    | .check (n + 1) =>
      if core.state.handshaked then some (.connected, core.sendCtrl handshakeAck)
      else some (.wait n, core.sendCtrl syn)
    | _ => none
  | .notified =>
    match pc with
    | .wait _ =>
      if core.state.handshaked then some (.connected, core.sendCtrl handshakeAck) else none
    | _ => none
  | .timeout =>
    match pc with
    | .wait n => some (.check n, core)
    | _ => none

structure Connection where
  ep : Side → Endpoint
  wire : Side → List Bytes
  dial : DialPc

def Connection.init (dialed accepted : Instant) : Connection where
  ep
    | .dialer => Endpoint.ofCore (newCore dialWindow dialRto dialed)
    | .acceptor => Endpoint.ofCore (acceptedCore accepted)
  wire
    | .dialer => [encode syn]
    | .acceptor => [encode synAck]
  dial := .wait 9

def Connection.setEp (c : Connection) (s : Side) (ep : Endpoint) : Connection :=
  { c with ep := Function.update c.ep s ep }

def Connection.setWire (c : Connection) (s : Side) (ds : List Bytes) : Connection :=
  { c with wire := Function.update c.wire s ds }

def Action.needsConn : Action → Bool
  | .call _ _ => true
  | .close => true
  | _ => false

inductive Transmission where
  | act (s : Side) (a : Action)
  | dial (e : DialEvent)
  | pump (s : Side)
  | receive (s : Side) (i : Nat) (now : Instant)
  | lose (s : Side) (i : Nat)
  deriving DecidableEq, Repr

def Connection.receive (c : Connection) (s : Side) (now : Instant) (buf : Bytes) :
    Option Connection :=
  if (c.ep s).inbound ≠ none then none
  else if s = .acceptor ∧ (recvFrom buf).any (fun p => p.has flagSyn) then
    -- A SYN for a closed core opens another connection; this one ends there.
    if (c.ep s).core.state.closed then none
    else some (c.setWire s (c.wire s ++ [encode synAck]))
  else some (c.setEp s ((c.ep s).receive now buf))

def Connection.step (c : Connection) : Transmission → Option Connection
  | .act s a =>
    if s = .dialer ∧ a.needsConn ∧ c.dial ≠ .connected then none
    else ((c.ep s).act a).map (c.setEp s)
  | .dial e =>
    (dialStep c.dial (c.ep .dialer).core e).map (fun r =>
      { c.setEp .dialer { c.ep .dialer with core := r.2 } with dial := r.1 })
  | .pump s =>
    (c.ep s).pump.map (fun r => (c.setEp s r.2).setWire s (c.wire s ++ [r.1]))
  | .receive s i now => (c.wire s.other)[i]?.bind (c.receive s now)
  | .lose s i => some (c.setWire s ((c.wire s).eraseIdx i))

inductive Change (c : Connection) (e : Transmission) (c' : Connection) : Prop where
  | act (s : Side) (a : Action) (ep : Endpoint) (hev : e = .act s a)
      (ha : (c.ep s).act a = some ep) (he : c' = c.setEp s ep)
  | dial (de : DialEvent) (pc : DialPc) (p : Packet) (hev : e = .dial de) (hp : p.IsReply)
      (he : c' = { c.setEp .dialer { c.ep .dialer with
        core := (c.ep .dialer).core.sendCtrl p } with dial := pc })
  | dialed (de : DialEvent) (pc : DialPc) (hev : e = .dial de) (he : c' = { c with dial := pc })
  | pump (s : Side) (d : Bytes) (ep : Endpoint) (hev : e = .pump s)
      (hp : (c.ep s).pump = some (d, ep)) (he : c' = (c.setEp s ep).setWire s (c.wire s ++ [d]))
  | receive (s : Side) (i : Nat) (now : Instant) (d : Bytes) (hev : e = .receive s i now)
      (hd : (c.wire s.other)[i]? = some d) (hi : (c.ep s).inbound = none)
      (he : c' = c.setEp s ((c.ep s).receive now d))
  | synAck (i : Nat) (now : Instant) (d : Bytes) (p : Packet) (hev : e = .receive .acceptor i now)
      (hd : (c.wire .dialer)[i]? = some d) (hp : recvFrom d = some p) (hsyn : p.has flagSyn = true)
      (he : c' = c.setWire .acceptor (c.wire .acceptor ++ [encode synAck]))
  | lose (s : Side) (i : Nat) (hev : e = .lose s i) (he : c' = c.setWire s ((c.wire s).eraseIdx i))

theorem dialStep_cases {pc pc' : DialPc} {core core' : Core} {e : DialEvent}
    (h : dialStep pc core e = some (pc', core')) :
    core' = core ∨ ∃ p : Packet, p.IsReply ∧ core' = core.sendCtrl p := by
  have hsyn : syn.IsReply := control_isReply (by decide) (by decide) _ _
  have hack : handshakeAck.IsReply := control_isReply (by decide) (by decide) _ _
  cases e with
  | attempt =>
    simp only [dialStep] at h
    split at h
    · cases h
      exact Or.inl rfl
    · split_ifs at h
      · cases h
        exact Or.inr ⟨_, hack, rfl⟩
      · cases h
        exact Or.inr ⟨_, hsyn, rfl⟩
    · cases h
  | notified =>
    simp only [dialStep] at h
    split at h
    · split_ifs at h
      cases h
      exact Or.inr ⟨_, hack, rfl⟩
    · cases h
  | timeout =>
    simp only [dialStep] at h
    split at h
    · cases h
      exact Or.inl rfl
    · cases h

theorem connection_receive_cases {c c' : Connection} {s : Side} {now : Instant} {d : Bytes}
    (h : c.receive s now d = some c') :
    (c.ep s).inbound = none ∧ (c' = c.setEp s ((c.ep s).receive now d) ∨
      (s = .acceptor ∧ (∃ p, recvFrom d = some p ∧ p.has flagSyn = true) ∧
        c' = c.setWire .acceptor (c.wire .acceptor ++ [encode synAck]))) := by
  unfold Connection.receive at h
  split_ifs at h with hi hs hc
  · cases h
    obtain ⟨p, hp, hsyn⟩ := (Option.any_eq_true _ _).mp hs.2
    rw [hs.1] at hi ⊢
    exact ⟨not_not.mp hi, Or.inr ⟨rfl, ⟨p, hp, hsyn⟩, rfl⟩⟩
  · cases h
    exact ⟨not_not.mp hi, Or.inl rfl⟩

theorem connection_step_cases {c c' : Connection} {e : Transmission} (h : c.step e = some c') :
    Change c e c' := by
  cases e with
  | act s a =>
    simp only [Connection.step] at h
    split_ifs at h
    obtain ⟨ep, ha, rfl⟩ := Option.map_eq_some_iff.mp h
    exact .act s a ep rfl ha rfl
  | dial e =>
    obtain ⟨⟨pc, core⟩, hd, rfl⟩ := Option.map_eq_some_iff.mp h
    rcases dialStep_cases hd with rfl | ⟨p, hp, rfl⟩
    · refine .dialed e pc rfl ?_
      simp only [Connection.setEp, Function.update_eq_self]
    · exact .dial e pc p rfl hp rfl
  | pump s =>
    obtain ⟨⟨d, ep⟩, hp, rfl⟩ := Option.map_eq_some_iff.mp h
    exact .pump s d ep rfl hp rfl
  | receive s i now =>
    obtain ⟨d, hd, hr⟩ := Option.bind_eq_some_iff.mp h
    obtain ⟨hi, rfl | ⟨rfl, ⟨p, hp, hsyn⟩, rfl⟩⟩ := connection_receive_cases hr
    · exact .receive s i now d rfl hd hi rfl
    · exact .synAck i now d p rfl hd hp hsyn rfl
  | lose s i =>
    cases h
    exact .lose s i rfl rfl

theorem act_accepted {ep ep' : Endpoint} {a : Action} (h : ep.act a = some ep') :
    ep.accepted <+: ep'.accepted := by
  cases act_effect h with
  | alloc call calls h =>
    rw [h]
    exact List.prefix_append _ _
  | idle calls pc h | insert id inf now calls h | push m rs calls pc h | update now id pc h
  | dead reason pc hcalm h | ping h | close ha h =>
    subst h
    exact List.prefix_rfl

theorem receive_accepted (ep : Endpoint) (now : Instant) (buf : Bytes) :
    (ep.receive now buf).accepted = ep.accepted := by
  unfold Endpoint.receive
  split
  · rfl
  · rfl

theorem pump_accepted {ep ep' : Endpoint} {d : Bytes} (h : ep.pump = some (d, ep')) :
    ep'.accepted = ep.accepted := by
  rcases pump_cases h with ⟨ctrl, -, rfl⟩ | ⟨data, -, -, rfl⟩
  · rfl
  · rfl

theorem Change.accepted {c c' : Connection} {e : Transmission} (h : Change c e c') (s : Side) :
    (c.ep s).accepted <+: (c'.ep s).accepted := by
  have update (t : Side) (ep : Endpoint) (he : (c.ep t).accepted <+: ep.accepted) :
      (c.ep s).accepted <+: (Function.update c.ep t ep s).accepted := by
    rcases eq_or_ne s t with rfl | hne
    · simpa using he
    · simp [Function.update_of_ne hne]
  cases h with
  | act t a ep hev ha he =>
    rw [he]
    exact update t ep (act_accepted ha)
  | dial de pc p hev hp he =>
    rw [he]
    exact update .dialer _ List.prefix_rfl
  | dialed de pc hev he =>
    subst he
    exact List.prefix_rfl
  | pump t d ep hev hp he =>
    rw [he]
    exact update t ep (pump_accepted hp ▸ List.prefix_rfl)
  | receive t i now d hev hd hi he =>
    rw [he]
    exact update t _ (receive_accepted .. ▸ List.prefix_rfl)
  | synAck i now d p hev hd hp hsyn he =>
    rw [he]
    exact List.prefix_rfl
  | lose t i hev he =>
    rw [he]
    exact List.prefix_rfl

theorem Change.receiver {c c' : Connection} {e : Transmission} (h : Change c e c') (s : Side) :
    SameReceiver (c.ep s) (c'.ep s) ∨ ∃ i now d, e = .receive s i now ∧
      (c.wire s.other)[i]? = some d ∧ (c.ep s).inbound = none ∧
        c'.ep s = (c.ep s).receive now d := by
  have keep (he : c'.ep s = c.ep s) : SameReceiver (c.ep s) (c'.ep s) := by
    rw [he]
    exact .of_open rfl rfl rfl rfl rfl id
  have update (t : Side) (ep : Endpoint) (he : c'.ep = Function.update c.ep t ep)
      (hr : SameReceiver (c.ep t) ep) : SameReceiver (c.ep s) (c'.ep s) := by
    rcases eq_or_ne s t with rfl | hne
    · simpa [he] using hr
    · exact keep (by rw [he, Function.update_of_ne hne])
  cases h with
  | act t a ep hev ha he => exact Or.inl (update t ep (by rw [he]; rfl) (act_receiver ha))
  | dial de pc p hev hp he =>
    exact Or.inl (update .dialer { c.ep .dialer with core := (c.ep .dialer).core.sendCtrl p }
      (by rw [he]; rfl) (.of_open rfl rfl rfl rfl rfl id))
  | dialed de pc hev he => exact Or.inl (keep (by rw [he]))
  | pump t d ep hev hp he => exact Or.inl (update t ep (by rw [he]; rfl) (pump_receiver hp))
  | synAck i now d p hev hd hp hsyn he => exact Or.inl (keep (by rw [he]; rfl))
  | lose t i hev he => exact Or.inl (keep (by rw [he]; rfl))
  | receive t i now d hev hd hi he =>
    rcases eq_or_ne s t with rfl | hne
    · refine Or.inr ⟨i, now, d, hev, hd, hi, ?_⟩
      rw [he]
      simp [Connection.setEp]
    · exact Or.inl (keep (by rw [he]; exact Function.update_of_ne hne _ _))

structure Honest (c : Connection) : Prop where
  sender : ∀ s, SenderInv (c.ep s)
  numbered : ∀ s, Numbered (c.ep s)
  wire : ∀ s, ∀ d ∈ c.wire s, Emitted (c.ep s).accepted d

theorem honest_init (t u : Instant) : Honest (Connection.init t u) where
  sender := by
    intro s
    cases s with
    | dialer => exact SenderInv.ofCore rfl rfl rfl
    | acceptor => exact SenderInv.ofCore rfl rfl rfl
  numbered := by
    intro s
    cases s with
    | dialer => exact Numbered.ofCore rfl
    | acceptor => exact Numbered.ofCore rfl
  wire := by
    intro s d hd
    cases s with
    | dialer =>
      rw [List.mem_singleton.mp hd]
      exact Or.inl ⟨syn, control_isControl (by decide) _ _, rfl⟩
    | acceptor =>
      rw [List.mem_singleton.mp hd]
      exact Or.inl ⟨synAck, control_isControl (by decide) _ _, rfl⟩

theorem Honest.setEp {c : Connection} (h : Honest c) {s : Side} {ep : Endpoint}
    (hs : SenderInv ep) (hn : Numbered ep) (ha : (c.ep s).accepted <+: ep.accepted) :
    Honest (c.setEp s ep) where
  sender := by
    intro t
    rcases eq_or_ne t s with rfl | hne
    · simpa [Connection.setEp] using hs
    · simpa [Connection.setEp, Function.update_of_ne hne] using h.sender t
  numbered := by
    intro t
    rcases eq_or_ne t s with rfl | hne
    · simpa [Connection.setEp] using hn
    · simpa [Connection.setEp, Function.update_of_ne hne] using h.numbered t
  wire := by
    intro t d hd
    rcases eq_or_ne t s with rfl | hne
    · simpa [Connection.setEp] using (h.wire t d hd).mono (fun m hm => ha.subset hm)
    · simpa [Connection.setEp, Function.update_of_ne hne] using h.wire t d hd

theorem Honest.setWire {c : Connection} (h : Honest c) {s : Side} {ds : List Bytes}
    (hd : ∀ d ∈ ds, d ∈ c.wire s ∨ Emitted (c.ep s).accepted d) : Honest (c.setWire s ds) where
  sender := h.sender
  numbered := h.numbered
  wire := by
    intro t d hm
    rcases eq_or_ne t s with rfl | hne
    · rcases hd d (by simpa [Connection.setWire] using hm) with hw | he
      · exact h.wire t d hw
      · exact he
    · exact h.wire t d (by simpa [Connection.setWire, Function.update_of_ne hne] using hm)

theorem receive_numbered {ep : Endpoint} (h : Numbered ep) (now : Instant) (buf : Bytes) :
    Numbered (ep.receive now buf) := by
  cases hp : recvFrom buf with
  | none => rwa [receive_none hp]
  | some p =>
    cases hk : handlePacket now ep.core p with
    | error e =>
      rw [receive_error hp hk]
      exact h.of_eq rfl rfl
    | ok core =>
      rw [receive_ok hp hk]
      exact h.of_eq rfl (handlePacket_sender hk).nextMsgId

theorem pump_numbered {ep ep' : Endpoint} {d : Bytes} (h : Numbered ep)
    (hp : ep.pump = some (d, ep')) : Numbered ep' := by
  rcases pump_cases hp with ⟨ctrl, -, rfl⟩ | ⟨data, -, -, rfl⟩
  · exact h.of_eq rfl rfl
  · exact h.of_eq rfl rfl

theorem Honest.change {c c' : Connection} {e : Transmission} (h : Honest c)
    (hc : Change c e c') : Honest c' := by
  cases hc with
  | act s a ep hev ha he =>
    rw [he]
    exact h.setEp ((h.sender s).act ha) ((h.numbered s).act ha) (act_accepted ha)
  | dial de pc p hev hp he =>
    have hep := h.setEp ((h.sender .dialer).sendCtrl hp.1)
      ((h.numbered .dialer).of_eq rfl rfl) List.prefix_rfl
    rw [he]
    exact ⟨hep.sender, hep.numbered, hep.wire⟩
  | dialed de pc hev he =>
    rw [he]
    exact ⟨h.sender, h.numbered, h.wire⟩
  | pump s d ep hev hp he =>
    obtain ⟨hs, hd⟩ := (h.sender s).pump hp
    have hep : Honest (c.setEp s ep) := h.setEp hs (pump_numbered (h.numbered s) hp)
      (pump_accepted hp ▸ List.prefix_rfl)
    rw [he]
    refine hep.setWire ?_
    intro x hx
    rcases List.mem_append.mp hx with hx | hx
    · exact Or.inl hx
    · rw [List.mem_singleton.mp hx]
      exact Or.inr (by simpa [Connection.setEp, pump_accepted hp] using hd)
  | receive s i now d hev hd hi he =>
    rw [he]
    exact h.setEp ((h.sender s).receive now d) (receive_numbered (h.numbered s) now d)
      (receive_accepted .. ▸ List.prefix_rfl)
  | synAck i now d p hev hd hp hsyn he =>
    rw [he]
    refine h.setWire ?_
    intro d hd
    rcases List.mem_append.mp hd with hd | hd
    · exact Or.inl hd
    · rw [List.mem_singleton.mp hd]
      exact Or.inr (Or.inl ⟨synAck, control_isControl (by decide) _ _, rfl⟩)
  | lose s i hev he =>
    rw [he]
    exact h.setWire (fun d hd => Or.inl (List.mem_of_mem_eraseIdx hd))

theorem run_acts {c : Connection} (s : Side) (hd : c.dial = .connected) {as : List Action}
    {ep : Endpoint} (h : Machine.run Endpoint.act (c.ep s) as = some ep) :
    Machine.run Connection.step c (as.map (Transmission.act s)) = some (c.setEp s ep) := by
  induction as generalizing c with
  | nil =>
    cases h
    simp [Machine.run, Connection.setEp]
  | cons a as ih =>
    obtain ⟨ep1, ha, hrest⟩ := Option.bind_eq_some_iff.mp h
    have hstep : c.step (.act s a) = some (c.setEp s ep1) := by
      simp [Connection.step, hd, ha]
    have hih := ih (c := c.setEp s ep1) hd (by simpa [Connection.setEp] using hrest)
    simp only [List.map_cons, Machine.run, hstep, Option.bind_some, hih]
    simp [Connection.setEp]

theorem step_pump {c : Connection} {s : Side} {d : Bytes} {ep : Endpoint}
    (h : (c.ep s).pump = some (d, ep)) :
    c.step (.pump s) = some ((c.setEp s ep).setWire s (c.wire s ++ [d])) := by
  simp [Connection.step, h]

theorem step_deliver {c : Connection} {s : Side} {i : Nat} {now : Instant} {d : Bytes} {p : Packet}
    {core : Core} (hw : (c.wire s.other)[i]? = some d) (hi : (c.ep s).inbound = none)
    (hp : recvFrom d = some p) (hsyn : p.has flagSyn = false)
    (hk : handlePacket now (c.ep s).core p = .ok core) :
    c.step (.receive s i now) = some (c.setEp s { c.ep s with core := core }) := by
  simp [Connection.step, hw, Connection.receive, hi, hp, hsyn, receive_ok hp hk]

end Cross233.Qcp
