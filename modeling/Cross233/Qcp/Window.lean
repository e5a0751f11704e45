import Cross233.Qcp.Congestion

namespace Cross233.Qcp

def SendCall.admitted (call : SendCall) : Bool :=
  match call.pc with
  | .alloc => call.stream ≠ .realtime
  | .insert _ => true
  | _ => false

-- The calls that have passed the window test and have not put their message in flight yet.
def Endpoint.admitted (ep : Endpoint) : Nat := ep.calls.countP SendCall.admitted

def Endpoint.testing (ep : Endpoint) : Event → Bool
  | .act (.resume i _) => ep.calls[i]?.any (fun call => call.pc = .window)
  | _ => false

def CoreState.hasSpace (st : CoreState) : Prop := st.sendError = none ∧ st.inFlight.len < st.cwnd

instance (st : CoreState) : Decidable st.hasSpace := inferInstanceAs (Decidable (_ ∧ _))

def Capped (ep : Endpoint) (e : Event) : Prop :=
  (ep.inserting e).isSome = true → ep.core.state.inFlight.len < ep.core.state.cwnd

instance (ep : Endpoint) (e : Event) : Decidable (Capped ep e) :=
  inferInstanceAs (Decidable (_ → _))

def Roomy (ep : Endpoint) (e : Event) : Prop :=
  (ep.testing e = true → ep.core.state.hasSpace →
      ep.core.state.inFlight.len + ep.admitted < ep.core.state.cwnd) ∧
    ((ep.noting e).isSome = true →
      ep.admitted = 0 ∨ ep.core.state.inFlight.len + ep.admitted ≤ minCwnd)

instance (ep : Endpoint) (e : Event) : Decidable (Roomy ep e) :=
  inferInstanceAs (Decidable (_ ∧ _))

def Reserved (ep : Endpoint) : Prop :=
  0 < ep.admitted → ep.core.state.inFlight.len + ep.admitted ≤ ep.core.state.cwnd

theorem Reserved.of_le {ep ep' : Endpoint} (h : Reserved ep) (ha : ep'.admitted ≤ ep.admitted)
    (hi : ep'.core.state.inFlight.len ≤ ep.core.state.inFlight.len)
    (hc : ep.core.state.cwnd ≤ ep'.core.state.cwnd) : Reserved ep' := by
  intro hpos
  have := h (hpos.trans_le ha)
  omega

theorem admitted_set {calls : List SendCall} {i : Nat} {call : SendCall}
    (hget : calls[i]? = some call) (call' : SendCall) :
    (calls.set i call').countP SendCall.admitted + (if call.admitted then 1 else 0) =
      calls.countP SendCall.admitted + (if call'.admitted then 1 else 0) := by
  obtain ⟨hi, hc⟩ := List.getElem?_eq_some_iff.mp hget
  have hpos : call.admitted = true → 0 < calls.countP SendCall.admitted := by
    intro h
    exact List.countP_pos_iff.mpr ⟨call, List.mem_of_getElem? hget, h⟩
  rw [List.countP_set hi, hc]
  split_ifs with h1 h2
  · have := hpos h1
    omega
  · have := hpos h1
    omega
  · omega
  · omega

theorem admitted_eraseIdx (calls : List SendCall) (i : Nat) :
    (calls.eraseIdx i).countP SendCall.admitted ≤ calls.countP SendCall.admitted :=
  (List.eraseIdx_sublist calls i).countP_le

theorem handled_len {now : Instant} {core core' : Core} {p : Packet}
    (hk : Handled now core p core') : core'.state.inFlight.len ≤ core.state.inFlight.len := by
  rcases handled_tables hk with hs | ⟨-, hr⟩
  · rw [hs.inFlight]
  · have := AList.len_erase_of_mem hr.mem
    rw [hr.inFlight]
    omega

theorem noteResent_len (st : CoreState) (now : Instant) (id : UInt32) :
    (st.noteResent now id).inFlight.len = st.inFlight.len := by
  unfold CoreState.noteResent
  cases hl : st.inFlight.lookup id with
  | none => rfl
  | some inf => exact AList.len_insert_of_mem _ (AList.mem_of_lookup hl)

theorem sendStream_not_admitted {data : Bytes} {stream : Stream} {call : SendCall}
    (h : sendStream data stream = .ok (some call)) : call.admitted = false := by
  unfold sendStream at h
  split_ifs at h with hlen hempty hrt
  · cases h
  · cases h
    simp [SendCall.admitted, hrt]
  · cases h
    simp [SendCall.admitted]

theorem admitted_allocate {calls : List SendCall} {i : Nat} {call : SendCall}
    (hget : calls[i]? = some call) (hpc : call.pc = .alloc) (id : UInt32) :
    (calls.set i { call with
      pc := if call.stream = .realtime then .push id else .insert id }).countP
        SendCall.admitted = calls.countP SendCall.admitted := by
  have hsame : ({ call with
      pc := if call.stream = .realtime then .push id else .insert id } : SendCall).admitted =
        call.admitted := by
    unfold SendCall.admitted
    rw [hpc]
    split_ifs with hrt
    · simp [hrt]
    · simp [hrt]
  have hset := admitted_set hget { call with
    pc := if call.stream = .realtime then .push id else .insert id }
  rwa [hsame, Nat.add_right_cancel_iff] at hset

theorem Reserved.pass {ep : Endpoint} {i : Nat} {call : SendCall}
    (hget : ep.calls[i]? = some call)
    (hroom : ep.core.state.inFlight.len + (ep.admitted + 1) ≤ ep.core.state.cwnd) :
    Reserved { ep with calls := ep.calls.set i { call with pc := .alloc } } := by
  have hset := admitted_set hget { call with pc := .alloc }
  have hle : (ep.calls.set i { call with pc := .alloc }).countP SendCall.admitted ≤
      ep.admitted + 1 := by
    unfold Endpoint.admitted
    split_ifs at hset <;> omega
  intro _
  exact (Nat.add_le_add_left hle _).trans hroom

theorem Reserved.insert {ep : Endpoint} (h : Reserved ep) {i : Nat} {call : SendCall} {id : UInt32}
    (hget : ep.calls[i]? = some call) (hpc : call.pc = .insert id) (now : Instant) :
    Reserved { ep.setState { ep.core.state with
        inFlight := ep.core.state.inFlight.insert id (call.inFlight now)
        lastActivity := now } with
      calls := ep.calls.set i { call with pc := .push id } } := by
  have hset := admitted_set hget { call with pc := .push id }
  have hbefore : call.admitted = true := by simp [SendCall.admitted, hpc]
  have hafter : ({ call with pc := .push id } : SendCall).admitted = false := rfl
  simp only [hbefore, hafter, if_true, Bool.false_eq_true, if_false, Nat.add_zero] at hset
  have hadm : ep.admitted = (ep.calls.set i { call with pc := .push id }).countP
      SendCall.admitted + 1 := hset.symm
  have hin := h (by rw [hadm]; exact Nat.succ_pos _)
  have hlen := AList.len_insert_le ep.core.state.inFlight id (call.inFlight now)
  intro _
  show (ep.core.state.inFlight.insert id (call.inFlight now)).len +
    (ep.calls.set i { call with pc := .push id }).countP SendCall.admitted ≤ ep.core.state.cwnd
  omega

theorem Reserved.step {ep ep' : Endpoint} {e : Event} (h : Reserved ep) (hp : Paced ep)
    (hr : Roomy ep e) (hs : ep.step e = some ep') : Reserved ep' := by
  cases step_moved hs with
  | called data stream call he hcall hm =>
    subst hm
    have hcalls : (ep.calls ++ [call]).countP SendCall.admitted = ep.admitted := by
      simp [Endpoint.admitted, List.countP_append, sendStream_not_admitted hcall]
    exact h.of_le hcalls.le le_rfl le_rfl
  | failed i now call err he hget hpc herr hm | pushed i now call id he hget hpc hm =>
    subst hm
    exact h.of_le (admitted_eraseIdx ep.calls i) le_rfl le_rfl
  | passed i now call he hget hpc hno hspace hm =>
    subst he hm
    have htest : ep.testing (.act (.resume i now)) = true := by
      simp [Endpoint.testing, hget, hpc]
    exact Reserved.pass hget (hr.1 htest ⟨hno, hspace⟩)
  | allocated i now call he hget hpc hno hm =>
    subst hm
    exact h.of_le (admitted_allocate hget hpc _).le le_rfl le_rfl
  | inserted i now call id he hget hpc hm =>
    subst hm
    exact h.insert hget hpc now
  | noted now at' id pending he hpc hm =>
    subst he hm
    have hroom := hr.2 (by rw [noting_of_pc hpc now]; rfl)
    intro hpos
    rcases hroom with hzero | hfits
    · exact absurd hzero (Nat.ne_of_gt hpos)
    · show (ep.core.state.noteResent at' id).inFlight.len + ep.admitted ≤ minCwnd
      rw [noteResent_len]
      exact hfits
  | received now buf p core he hpk hk hm =>
    subst hm
    have hcases := handlePacket_cases hk
    exact h.of_le le_rfl (handled_len hcases) (handled_bounded hcases hp.state).2.1
  | pumped d he hpump =>
    rcases pump_cases hpump with ⟨ctrl, -, rfl⟩ | ⟨data, -, -, rfl⟩
    · exact h.of_le le_rfl le_rfl le_rfl
    · exact h.of_le le_rfl le_rfl le_rfl
  | closed he hm =>
    subst hm
    exact h.of_le le_rfl (Nat.zero_le _) le_rfl
  | idle hm | waited now pc he hpc hm | resent now at' m pending he hpc hm
  | gaveUp now he hpc hm | timedOut now he hidle hm | pinged now he hm
  | panicked now buf err he hm =>
    subst hm
    exact h.of_le le_rfl le_rfl le_rfl

theorem inserting_cases {ep : Endpoint} {e : Event} {id : UInt32} (h : id ∈ ep.inserting e) :
    ∃ i now call, e = .act (.resume i now) ∧ ep.calls[i]? = some call ∧ call.pc = .insert id := by
  unfold Endpoint.inserting at h
  split at h
  · next i now =>
    obtain ⟨call, hget, hpc⟩ := Option.bind_eq_some_iff.mp h
    refine ⟨i, now, call, rfl, hget, ?_⟩
    unfold SendPc.inserting at hpc
    split at hpc
    · next hcall =>
      cases hpc
      exact hcall
    · cases hpc
  · cases h

theorem Reserved.capped {ep : Endpoint} (h : Reserved ep) (e : Event) : Capped ep e := by
  intro hsome
  obtain ⟨id, hid⟩ := Option.isSome_iff_exists.mp hsome
  obtain ⟨i, now, call, -, hget, hpc⟩ := inserting_cases hid
  have hpos : 0 < ep.admitted :=
    List.countP_pos_iff.mpr ⟨call, List.mem_of_getElem? hget, by simp [SendCall.admitted, hpc]⟩
  have := h hpos
  omega

theorem window_caps_in_flight {core : Core} (hcore : core.Created) {es : List Event}
    (h : Machine.Along Endpoint.step Roomy (Endpoint.ofCore core) es) :
    Machine.Along Endpoint.step Capped (Endpoint.ofCore core) es := by
  have hinit : Paced (Endpoint.ofCore core) ∧ Reserved (Endpoint.ofCore core) := by
    refine ⟨paced_init hcore, fun hpos => absurd hpos ?_⟩
    simp [Endpoint.ofCore, Endpoint.admitted]
  exact Machine.along_invariant (I := fun ep => Paced ep ∧ Reserved ep)
    (fun _ _ _ hi hr hs => ⟨hi.1.step hs, hi.2.step hi.1 hr hs⟩) (fun _ e hi _ => hi.2.capped e)
    hinit h

def collapseEvents : List Event :=
  sendSteps 0 [1] .batch ++ sendSteps 0 [2] .batch ++
    [.act (.call [3] .batch), .act (.resume 0 0), .act (.resume 0 0),
      .act (.retransmit dialRto), .act (.retransmit dialRto), .act (.retransmit dialRto),
      .act (.retransmit dialRto), .act (.retransmit dialRto)]

theorem two_senders_in_turn_capped :
    Machine.Along Endpoint.step Capped (Endpoint.ofCore (newCore dialWindow dialRto 0))
      (sendSteps 0 [1] .batch ++ sendSteps 0 [2] .batch) :=
  window_caps_in_flight (.dial 0) (by decide)

theorem insertion_over_collapsed_window :
    ¬Machine.Along Endpoint.step Capped (Endpoint.ofCore (newCore dialWindow dialRto 0))
      (collapseEvents ++ [.act (.resume 0 dialRto)]) := by decide

end Cross233.Qcp
