import Cross233.Qcp.Window

namespace Cross233.Qcp

-- Where a call at the window is: before the test, between the failed test and the clone of
-- `window_notify`, between the clone and the creation of the `Notified` future, and on it.
inductive Wait where
  | testing
  | sawFull
  | cloned
  | waiting (notified : Bool)
  deriving DecidableEq, Repr

def Wait.wake : Wait → Wait
  | .waiting _ => .waiting true
  | w => w

structure Senders where
  ep : Endpoint
  waits : List Wait

def Senders.ofCore (core : Core) : Senders := ⟨Endpoint.ofCore core, []⟩

def Packet.notifiesWindow (p : Packet) : Bool :=
  !p.has flagSyn &&
    (p.has flagFin || !p.has flagPing && !p.has flagPong && p.has flagAck)

def Endpoint.notifies (ep : Endpoint) : Event → Bool
  | .act .close => true
  | .act (.retransmit _) => ep.retransmit = .giveUp
  | .act (.tick now) =>
    !ep.core.state.closed && now - ep.core.state.lastActivity ≥ millis deadTimeoutMs
  | .receive _ buf => !ep.core.state.closed && (recvFrom buf).any Packet.notifiesWindow
  | _ => false

def Senders.resume (s : Senders) (i : Nat) (now : Instant) (call : SendCall) : Senders :=
  match s.ep.resume now call with
  | (ep, .running call') =>
    ⟨{ ep with calls := ep.calls.set i call' },
      if call'.pc = .window then s.waits.set i .sawFull else s.waits⟩
  | (ep, .done _) => ⟨{ ep with calls := ep.calls.eraseIdx i }, s.waits.eraseIdx i⟩

def Senders.enter (s : Senders) : Event → List Wait
  | .act (.call data stream) =>
    match sendStream data stream with
    | .ok (some _) => s.waits ++ [.testing]
    | _ => s.waits
  | _ => s.waits

def Senders.step (s : Senders) : Event → Option Senders
  | .act (.resume i now) =>
    match s.ep.calls[i]?, s.waits[i]? with
    | some call, some w =>
      if call.pc ≠ .window then some (s.resume i now call)
      else
        match w with
        | .testing => some (s.resume i now call)
        | .sawFull => some { s with waits := s.waits.set i .cloned }
        | .cloned => some { s with waits := s.waits.set i (.waiting false) }
        | .waiting true => some { s with waits := s.waits.set i .testing }
        | .waiting false => none
    | _, _ => none
  | e => (s.ep.step e).map (fun ep =>
      ⟨ep, if s.ep.notifies e then (s.enter e).map Wait.wake else s.enter e⟩)

def Senders.creating (s : Senders) : Event → Bool
  | .act (.resume i _) =>
    s.ep.calls[i]?.any (fun call => call.pc = .window) && s.waits[i]? = some .cloned
  | _ => false

def CoreState.Blocked (st : CoreState) : Prop := st.closed = false ∧ st.cwnd ≤ st.inFlight.len

instance (st : CoreState) : Decidable st.Blocked := inferInstanceAs (Decidable (_ ∧ _))

def NoLostWakeup (s : Senders) : Prop := .waiting false ∈ s.waits → s.ep.core.state.Blocked

def CreatedBlocked (s : Senders) (e : Event) : Prop :=
  s.creating e = true → s.ep.core.state.Blocked

instance (s : Senders) (e : Event) : Decidable (CreatedBlocked s e) :=
  inferInstanceAs (Decidable (_ → _))

theorem resume_ep {s : Senders} {i : Nat} {call : SendCall} (now : Instant)
    (hget : s.ep.calls[i]? = some call) :
    s.ep.step (.act (.resume i now)) = some (s.resume i now call).ep := by
  simp only [Endpoint.step, Endpoint.act, Endpoint.resumeAt, hget, Option.map_some, Senders.resume]
  split <;> simp_all

theorem resume_waits (s : Senders) (i : Nat) (now : Instant) (call : SendCall) :
    ∀ w ∈ (s.resume i now call).waits, w = .waiting false → w ∈ s.waits := by
  intro w hw hwait
  unfold Senders.resume at hw
  split at hw
  · simp only at hw
    split_ifs at hw
    · rcases List.mem_or_eq_of_mem_set hw with hmem | rfl
      · exact hmem
      · cases hwait
    · exact hw
  · exact List.mem_of_mem_eraseIdx hw

theorem enter_waits (s : Senders) (e : Event) :
    ∀ w ∈ s.enter e, w = .waiting false → w ∈ s.waits := by
  intro w hw hwait
  unfold Senders.enter at hw
  split at hw
  · split at hw
    · rcases List.mem_append.mp hw with hmem | hmem
      · exact hmem
      · rw [List.mem_singleton.mp hmem] at hwait
        cases hwait
    · exact hw
  · exact hw

inductive Stepped (s : Senders) (e : Event) (s' : Senders) : Prop where
  | parked (i : Nat) (w : Wait) (hw : w = .waiting false ↔ s.creating e = true)
      (hi : i < s.waits.length) (h : s' = { s with waits := s.waits.set i w })
  | moved (hs : s.ep.step e = some s'.ep) (hc : s.creating e = false)
      (hw : .waiting false ∈ s'.waits → .waiting false ∈ s.waits ∧ s.ep.notifies e = false)

theorem moved_of_resume {s : Senders} {i : Nat} {now : Instant} {call : SendCall} {w : Wait}
    (hget : s.ep.calls[i]? = some call) (hwait : s.waits[i]? = some w)
    (hphase : call.pc ≠ .window ∨ w ≠ .cloned) :
    Stepped s (.act (.resume i now)) (s.resume i now call) := by
  refine .moved (resume_ep now hget) ?_ ?_
  · rcases hphase with hpc | hw
    · simp [Senders.creating, hget, hpc]
    · simp [Senders.creating, hwait, hw]
  · intro hmem
    exact ⟨resume_waits s i now call _ hmem rfl, rfl⟩

theorem moved_of_event {s s' : Senders} {e : Event} (hc : s.creating e = false)
    (h : (s.ep.step e).map (fun ep => (⟨ep, if s.ep.notifies e then (s.enter e).map Wait.wake
      else s.enter e⟩ : Senders)) = some s') : Stepped s e s' := by
  obtain ⟨ep, hep, rfl⟩ := Option.map_eq_some_iff.mp h
  refine .moved hep hc ?_
  intro hmem
  cases hn : s.ep.notifies e with
  | false =>
    simp only [hn, Bool.false_eq_true, if_false] at hmem
    exact ⟨enter_waits s e _ hmem rfl, rfl⟩
  | true =>
    simp only [hn, if_true] at hmem
    obtain ⟨w, -, hw⟩ := List.mem_map.mp hmem
    cases w <;> cases hw

theorem senders_step_cases {s s' : Senders} {e : Event} (h : s.step e = some s') :
    Stepped s e s' := by
  unfold Senders.step at h
  split at h
  · next i now =>
    split at h
    · next call w hget hwait =>
      have hi := (List.getElem?_eq_some_iff.mp hwait).1
      split_ifs at h with hpc
      · cases h
        exact moved_of_resume hget hwait (Or.inl hpc)
      · have hcreating : s.creating (.act (.resume i now)) = true ↔ w = .cloned := by
          simp [Senders.creating, hget, hwait, not_not.mp hpc]
        split at h
        · cases h
          exact moved_of_resume hget hwait (Or.inr nofun)
        · cases h
          exact .parked i .cloned (by rw [hcreating]; exact ⟨nofun, nofun⟩) hi rfl
        · cases h
          have hw : Wait.waiting false = .waiting false ↔
              s.creating (.act (.resume i now)) = true := by
            rw [hcreating]
            exact ⟨fun _ => rfl, fun _ => rfl⟩
          exact .parked i (.waiting false) hw hi rfl
        · cases h
          exact .parked i .testing (by rw [hcreating]; exact ⟨nofun, nofun⟩) hi rfl
        · cases h
    · cases h
  · next hne =>
    refine moved_of_event ?_ h
    unfold Senders.creating
    split
    · next i now => exact absurd rfl (hne i now)
    · rfl

theorem senders_refine_endpoint {s s' : Senders} {es : List Event}
    (h : Machine.run Senders.step s es = some s') :
    ∃ es', Machine.run Endpoint.step s.ep es' = some s'.ep := by
  induction es generalizing s with
  | nil =>
    cases h
    exact ⟨[], rfl⟩
  | cons e es ih =>
    obtain ⟨t, ht, hrun⟩ := Option.bind_eq_some_iff.mp h
    obtain ⟨es', hes'⟩ := ih hrun
    cases senders_step_cases ht with
    | parked i w hw hi he =>
      subst he
      exact ⟨es', hes'⟩
    | moved hs hc hw =>
      refine ⟨e :: es', ?_⟩
      simp only [Machine.run, hs, Option.bind_some]
      exact hes'

theorem handlePacket_syn (now : Instant) {core : Core} {p : Packet}
    (hc : core.state.closed = false) (hs : p.has flagSyn = true) :
    handlePacket now core p = .ok { core.touch now with
      state := { (core.touch now).state with handshaked := true } } := by
  simp [handlePacket, hc, hs]

theorem isAck_notifiesWindow {p : Packet} (h : p.isAck = true) : p.notifiesWindow = true := by
  simp only [Packet.isAck, Bool.and_eq_true, Bool.not_eq_true'] at h
  obtain ⟨⟨⟨⟨hs, -⟩, hpi⟩, hpo⟩, ha⟩ := h
  simp [Packet.notifiesWindow, hs, hpi, hpo, ha]

theorem receive_blocked {now : Instant} {core core' : Core} {p : Packet}
    (hk : handlePacket now core p = .ok core') (hn : p.notifiesWindow = false)
    (hb : core.state.Blocked) : core'.state.Blocked := by
  cases handlePacket_cases hk with
  | fin hc hf he =>
    have hsyn : p.has flagSyn = true := by
      by_contra hs
      simp [Packet.notifiesWindow, hs, hf] at hn
    rw [handlePacket_syn now hc hsyn] at hk
    cases hk
    exact hb
  | ack hc ha he =>
    rw [isAck_notifiesWindow ha] at hn
    cases hn
  | realtime hc hs he =>
    obtain ⟨last, tx, hr⟩ := handleRealtime_eq (core.touch now).state p
    rw [he, hr]
    exact hb
  | fragment hc hf hk =>
    obtain ⟨_, _, _, _, rfl, -, -⟩ := handleFragment_eq hk
    exact hb
  | ignored hc he | syn hc he | ping hc he | touched hc he =>
    subst he
    exact hb

-- Without a notification the window only gets fuller: nothing else frees a slot or closes.
theorem step_blocked {ep ep' : Endpoint} {e : Event} (hs : ep.step e = some ep')
    (hn : ep.notifies e = false) (hp : Paced ep) (hb : ep.core.state.Blocked) :
    ep'.core.state.Blocked := by
  cases step_moved hs with
  | inserted i now call id he hget hpc hm =>
    subst hm
    exact ⟨hb.1, hb.2.trans (AList.len_le_insert _ id (call.inFlight now))⟩
  | noted now at' id pending he hpc hm =>
    subst hm
    refine ⟨hb.1, ?_⟩
    show minCwnd ≤ (ep.core.state.noteResent at' id).inFlight.len
    rw [noteResent_len]
    exact hp.state.cwnd.1.trans hb.2
  | gaveUp now he hpc hm =>
    subst he
    simp [Endpoint.notifies, hpc] at hn
  | timedOut now he hidle hm =>
    subst he
    simp only [Endpoint.notifies, hb.1, Bool.not_false, Bool.true_and,
      decide_eq_false_iff_not] at hn
    exact absurd hidle hn
  | closed he hm =>
    subst he
    cases hn
  | received now buf p core he hpk hk hm =>
    subst he hm
    refine receive_blocked hk ?_ hb
    simpa [Endpoint.notifies, hb.1, hpk] using hn
  | pumped d he hpump =>
    rcases pump_cases hpump with ⟨ctrl, -, rfl⟩ | ⟨data, -, -, rfl⟩
    · exact hb
    · exact hb
  | idle hm | called data stream call he hcall hm | failed i now call err he hget hpc herr hm
  | passed i now call he hget hpc hno hspace hm | allocated i now call he hget hpc hno hm
  | pushed i now call id he hget hpc hm | waited now pc he hpc hm
  | resent now at' m pending he hpc hm | pinged now he hm | panicked now buf err he hm =>
    subst hm
    exact hb

theorem NoLostWakeup.step {s s' : Senders} {e : Event} (h : NoLostWakeup s) (hp : Paced s.ep)
    (hc : CreatedBlocked s e) (hs : s.step e = some s') : NoLostWakeup s' := by
  cases senders_step_cases hs with
  | parked i w hw hi he =>
    subst he
    intro hmem
    rcases List.mem_or_eq_of_mem_set hmem with hmem | heq
    · exact h hmem
    · exact hc (hw.mp heq.symm)
  | moved hstep _ hw =>
    intro hmem
    obtain ⟨hold, hn⟩ := hw hmem
    exact step_blocked hstep hn hp (h hold)

theorem paced_senders_step {s s' : Senders} {e : Event} (h : Paced s.ep)
    (hs : s.step e = some s') : Paced s'.ep := by
  cases senders_step_cases hs with
  | parked i w hw hi he =>
    subst he
    exact h
  | moved hstep _ hw => exact h.step hstep

theorem createdBlocked_of_noLost {s s' : Senders} {e : Event} (hs : s.step e = some s')
    (h : NoLostWakeup s') : CreatedBlocked s e := by
  intro hcreating
  cases senders_step_cases hs with
  | parked i w hw hi he =>
    subst he
    refine h ?_
    rw [← hw.mpr hcreating]
    exact List.mem_set hi w
  | moved hstep hc hw =>
    rw [hcreating] at hc
    cases hc

theorem creating_step {s : Senders} {e : Event} (h : s.creating e = true) :
    ∃ s', s.step e = some s' := by
  unfold Senders.creating at h
  split at h
  · next i now =>
    obtain ⟨hcall, hwait⟩ := Bool.and_eq_true_iff.mp h
    obtain ⟨call, hget, hpc⟩ := (Option.any_eq_true _ _).mp hcall
    simp only [decide_eq_true_eq] at hpc hwait
    simp [Senders.step, hget, hwait, hpc]
  · cases h

theorem no_lost_wakeup_iff {core : Core} (hcore : core.Created) (es : List Event) :
    Machine.Always Senders.step NoLostWakeup (Senders.ofCore core) es ↔
      Machine.Along Senders.step CreatedBlocked (Senders.ofCore core) es := by
  have hinit : Paced (Senders.ofCore core).ep := paced_init hcore
  constructor
  · intro h
    refine Machine.along_of_always (I := fun s => Paced s.ep)
      (fun _ _ _ hp _ _ hs => paced_senders_step hp hs)
      (fun _ _ _ _ _ hs hlost => createdBlocked_of_noLost hs hlost) ?_ hinit h
    intro s e _ hnone hcreating
    obtain ⟨s', hs'⟩ := creating_step hcreating
    rw [hnone] at hs'
    cases hs'
  · intro h
    exact Machine.always_of_along (I := fun s => Paced s.ep ∧ NoLostWakeup s)
      (fun _ _ _ hi hc hs => ⟨paced_senders_step hi.1 hs, hi.2.step hi.1 hc hs⟩)
      (fun _ hi => hi.2) ⟨hinit, by simp [NoLostWakeup, Senders.ofCore]⟩ h

def fullWindowEvents : List Event :=
  sendSteps 0 [1] .batch ++ sendSteps 0 [2] .batch ++
    [.act (.retransmit dialRto), .act (.retransmit dialRto), .act (.retransmit dialRto),
      .act (.retransmit dialRto), .act (.retransmit dialRto), .act (.call [3] .batch)]

theorem sender_parks_on_full_window :
    Machine.Always Senders.step NoLostWakeup (Senders.ofCore (newCore dialWindow dialRto 0))
      (fullWindowEvents ++ [.act (.resume 0 0), .act (.resume 0 0), .act (.resume 0 0)]) :=
  (no_lost_wakeup_iff (.dial 0) _).mpr (by decide)

theorem close_before_notified_created :
    ∃ s, Machine.run Senders.step (Senders.ofCore (newCore dialWindow dialRto 0))
        (fullWindowEvents ++
          [.act (.resume 0 0), .act (.resume 0 0), .act .close, .act (.resume 0 0)]) = some s ∧
      ¬NoLostWakeup s := by
  have hrun : (Machine.run Senders.step (Senders.ofCore (newCore dialWindow dialRto 0))
      (fullWindowEvents ++
        [.act (.resume 0 0), .act (.resume 0 0), .act .close, .act (.resume 0 0)])).map
        (fun s => (s.waits, s.ep.core.state.closed)) = some ([.waiting false], true) := by decide
  obtain ⟨s, hs, hstate⟩ := Option.map_eq_some_iff.mp hrun
  obtain ⟨hwaits, hclosed⟩ := Prod.mk.inj hstate
  refine ⟨s, hs, fun h => ?_⟩
  have hopen := (h (by rw [hwaits]; exact List.mem_cons_self)).1
  rw [hclosed] at hopen
  cases hopen

end Cross233.Qcp
