import Cross233.Qcp.Congestion

namespace Cross233.Qcp

-- The calls that still ask whether the connection can send: those that wait for the window and
-- those that have just started.
def SendCall.Asking (call : SendCall) : Prop := call.pc = .window ∨ call.pc = .alloc

def ReportsDead (ep : Endpoint) : Prop :=
  ∀ (now : Instant) (call : SendCall), call.Asking →
    ∃ reason, ep.core.state.deadReason = some reason ∧
      (ep.resume now call).2 = .done (.error (.connectionFailed reason))

structure Doomed (st : CoreState) : Prop where
  closed : st.closed = true
  reason : ∃ reason, st.deadReason = some reason

def DeadDoomed (ep : Endpoint) : Prop := ep.core.state.dead = true → Doomed ep.core.state

theorem sendStream_asking {data : Bytes} {stream : Stream} {call : SendCall}
    (h : sendStream data stream = .ok (some call)) : call.Asking := by
  unfold sendStream at h
  split_ifs at h with hlen hempty hrt
  · cases h
  · cases h
    exact Or.inr rfl
  · cases h
    exact Or.inl rfl

theorem resume_closed {ep : Endpoint} (h : ep.core.state.closed = true) (now : Instant)
    {call : SendCall} (hc : call.Asking) : (ep.resume now call).2 = .done (.error .closed) := by
  have herr : ep.core.state.sendError = some .closed := if_pos h
  rcases hc with hpc | hpc
  · simp only [Endpoint.resume, hpc, herr]
  · simp only [Endpoint.resume, hpc, herr]

theorem handled_dead {now : Instant} {core core' : Core} {p : Packet}
    (h : Handled now core p core') : core'.state.dead = core.state.dead ∧
      core'.state.deadReason = core.state.deadReason := by
  cases h with
  | ack hc ha he =>
    obtain ⟨_, _, _, _, _, _, _, hack⟩ := handleAck_eq now (core.touch now).state p.msgId
    rw [he, hack]
    exact ⟨rfl, rfl⟩
  | realtime hc hs he =>
    obtain ⟨last, tx, hr⟩ := handleRealtime_eq (core.touch now).state p
    rw [he, hr]
    exact ⟨rfl, rfl⟩
  | fragment hc hf hk =>
    obtain ⟨_, _, _, _, rfl, -, -⟩ := handleFragment_eq hk
    exact ⟨rfl, rfl⟩
  | ignored hc he | syn hc he | fin hc hf he | ping hc he | touched hc he =>
    subst he
    exact ⟨rfl, rfl⟩

-- A connection once closed stays closed, so only the flag and the reason need an argument.
theorem DeadDoomed.keep {ep ep' : Endpoint} {e : Event} (h : DeadDoomed ep)
    (hs : ep.step e = some ep') (hd : ep'.core.state.dead = ep.core.state.dead)
    (hr : ep'.core.state.deadReason = ep.core.state.deadReason) : DeadDoomed ep' := by
  intro hdead
  obtain ⟨hclosed, hreason⟩ := h (hd ▸ hdead)
  refine ⟨?_, hr ▸ hreason⟩
  by_contra hopen
  have hbefore : ep.core.state.closed = false := step_open hs (eq_false_of_ne_true hopen)
  rw [hclosed] at hbefore
  cases hbefore

theorem DeadDoomed.step {ep ep' : Endpoint} {e : Event} (h : DeadDoomed ep)
    (hs : ep.step e = some ep') : DeadDoomed ep' := by
  cases step_moved hs with
  | received now buf p core he hp hk hm =>
    subst hm
    obtain ⟨hd, hr⟩ := handled_dead (handlePacket_cases hk)
    exact h.keep hs hd hr
  | gaveUp now he hpc hm | timedOut now he hidle hm =>
    subst hm
    exact fun _ => ⟨rfl, _, rfl⟩
  | pumped d he hp =>
    rcases pump_cases hp with ⟨ctrl, -, rfl⟩ | ⟨data, -, -, rfl⟩
    · exact h.keep hs rfl rfl
    · exact h.keep hs rfl rfl
  | idle hm | called data stream call he hcall hm | failed i now call err he hget hpc herr hm
  | passed i now call he hget hpc hno hspace hm | allocated i now call he hget hpc hno hm
  | inserted i now call id he hget hpc hm | pushed i now call id he hget hpc hm
  | waited now pc he hpc hm | resent now at' m pending he hpc hm
  | noted now at' id pending he hpc hm | pinged now he hm | closed he hm
  | panicked now buf err he hm =>
    subst hm
    exact h.keep hs rfl rfl

theorem deadDoomed_init {core : Core} (h : core.Created) : DeadDoomed (Endpoint.ofCore core) := by
  cases h with
  | dial now | listen now => exact nofun

theorem dead_link_never_reported {core : Core} (hcore : core.Created) {es : List Event}
    {ep : Endpoint} (hrun : Machine.run Endpoint.step (Endpoint.ofCore core) es = some ep)
    (hdead : ep.core.state.dead = true) :
    ¬ReportsDead ep ∧
      (∀ (now : Instant) (call : SendCall), call.Asking →
        (ep.resume now call).2 = .done (.error .closed)) ∧
      ∀ (data : Bytes) (stream : Stream) (call : SendCall),
        sendStream data stream = .ok (some call) → call.Asking := by
  have hdoomed : DeadDoomed ep :=
    Machine.run_invariant (fun _ _ _ h hs => h.step hs) (deadDoomed_init hcore) hrun
  have hclosed := (hdoomed hdead).closed
  refine ⟨fun hreports => ?_, fun now call => resume_closed hclosed now,
    fun _ _ _ => sendStream_asking⟩
  obtain ⟨reason, -, hres⟩ := hreports 0 ⟨[0], .batch, .window⟩ (Or.inl rfl)
  rw [resume_closed hclosed 0 (Or.inl rfl)] at hres
  cases hres

-- One call waits for the window when the peer falls silent; nobody has closed the connection.
def silentPeer : List Event := [.act (.call [1] .batch), .act (.tick (millis deadTimeoutMs))]

theorem silent_peer_reported_as_closed :
    ∃ ep, Machine.run Endpoint.step (Endpoint.ofCore (newCore dialWindow dialRto 0)) silentPeer =
        some ep ∧ ep.core.state.dead = true ∧
      ep.core.state.deadReason = some "peer idle timeout" ∧
      ep.calls = [⟨[1], .batch, .window⟩] ∧
      (ep.resume (millis deadTimeoutMs) ⟨[1], .batch, .window⟩).2 = .done (.error .closed) ∧
      ¬ReportsDead ep := by
  have hrun : (Machine.run Endpoint.step (Endpoint.ofCore (newCore dialWindow dialRto 0))
      silentPeer).map (fun ep => (ep.core.state.dead, ep.core.state.deadReason, ep.calls,
        ep.core.state.closed)) =
        some (true, some "peer idle timeout", [⟨[1], .batch, .window⟩], true) := by decide
  obtain ⟨ep, hep, hstate⟩ := Option.map_eq_some_iff.mp hrun
  simp only [Prod.mk.injEq] at hstate
  obtain ⟨hdead, hreason, hcalls, hclosed⟩ := hstate
  have hcall : (ep.resume (millis deadTimeoutMs) ⟨[1], .batch, .window⟩).2 =
      .done (.error .closed) := resume_closed hclosed (millis deadTimeoutMs) (Or.inl rfl)
  refine ⟨ep, hep, hdead, hreason, hcalls, hcall, fun hreports => ?_⟩
  obtain ⟨reason, -, hres⟩ := hreports (millis deadTimeoutMs) ⟨[1], .batch, .window⟩ (Or.inl rfl)
  rw [hcall] at hres
  cases hres

theorem idle_timeout_never_reported :
    ∃ ep, Machine.run Endpoint.step (Endpoint.ofCore (newCore dialWindow dialRto 0))
        [.act (.tick (millis deadTimeoutMs))] = some ep ∧ ¬ReportsDead ep := by
  have hrun : Machine.run Endpoint.step (Endpoint.ofCore (newCore dialWindow dialRto 0))
      [.act (.tick (millis deadTimeoutMs))] = some _ := rfl
  exact ⟨_, hrun, (dead_link_never_reported (.dial 0) hrun rfl).1⟩

end Cross233.Qcp
