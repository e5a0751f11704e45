import Cross233.Qcp.Congestion

namespace Cross233.Qcp

def Accounted (ep : Endpoint) : Prop :=
  ep.Open → ∀ id ∈ ep.core.state.retrans, id ∈ ep.core.state.inFlight

def StartsAtZero (ep : Endpoint) (e : Event) : Prop :=
  ep.Open → ∀ id ∈ ep.inserting e, id ∉ ep.core.state.retrans

def Resent (st : CoreState) (id : UInt32) : Prop :=
  ∃ inf, st.inFlight.lookup id = some inf ∧ inf.retransmitted = true

instance (st : CoreState) (id : UInt32) : Decidable (Resent st id) :=
  inferInstanceAs (Decidable (∃ inf ∈ st.inFlight.lookup id, inf.retransmitted = true))

structure Accountable (ep : Endpoint) (e : Event) : Prop where
  noted : ep.Open → ∀ id ∈ ep.noting e, id ∈ ep.core.state.inFlight
  inserted : ep.Open → ∀ id ∈ ep.inserting e, ¬Resent ep.core.state id

-- The ids are looked at one option at a time, never by running through all of `UInt32`.
instance (ep : Endpoint) (e : Event) : Decidable (Accountable ep e) :=
  haveI : Decidable (∀ id ∈ ep.noting e, id ∈ ep.core.state.inFlight) :=
    (ep.noting e).decidableForallMem
  haveI : Decidable (∀ id ∈ ep.inserting e, ¬Resent ep.core.state id) :=
    (ep.inserting e).decidableForallMem
  decidable_of_iff
    ((ep.Open → ∀ id ∈ ep.noting e, id ∈ ep.core.state.inFlight) ∧
      (ep.Open → ∀ id ∈ ep.inserting e, ¬Resent ep.core.state id))
    ⟨fun h => ⟨h.1, h.2⟩, fun h => ⟨h.noted, h.inserted⟩⟩

-- A counter belongs to a message that is in flight and has been sent again.
def Matched (st : CoreState) : Prop := ∀ id, id ∈ st.retrans ↔ Resent st id

theorem Matched.of_eq {st st' : CoreState} (h : Matched st) (hs : SameTables st st') :
    Matched st' := by
  intro id
  rw [Resent, hs.inFlight, hs.retrans]
  exact h id

theorem Matched.released {st st' : CoreState} (h : Matched st) {id : UInt32}
    (hr : Released id st st') : Matched st' := by
  intro j
  rw [Resent, hr.inFlight, hr.retrans, AList.mem_erase, AList.lookup_erase_eq]
  split_ifs with hj
  · simp [hj]
  · simp only [ne_eq, hj, not_false_eq_true, true_and]
    exact h j

theorem Matched.noteResent {st : CoreState} (h : Matched st) (now : Instant) {id : UInt32}
    (hid : id ∈ st.inFlight) : Matched (st.noteResent now id) := by
  obtain ⟨inf, hinf⟩ := AList.mem_iff_lookup.mp hid
  intro j
  simp only [Resent, CoreState.noteResent, hinf, AList.mem_insert, AList.lookup_insert_eq]
  split_ifs with hj
  · simp [hj]
  · simp only [hj, false_or]
    exact h j

theorem Matched.insert {st : CoreState} (h : Matched st) (now : Instant) {id : UInt32}
    {inf : InFlight} (hinf : inf.retransmitted = false) (hid : ¬Resent st id) :
    Matched { st with inFlight := st.inFlight.insert id inf, lastActivity := now } := by
  intro j
  simp only [Resent, AList.lookup_insert_eq]
  split_ifs with hj
  · rw [hj, h id]
    simp [hid, hinf]
  · exact h j

def OpenMatched (ep : Endpoint) : Prop := ep.Open → Matched ep.core.state

theorem OpenMatched.step {ep ep' : Endpoint} {e : Event} (h : OpenMatched ep)
    (hc : Accountable ep e) (hs : ep.step e = some ep') : OpenMatched ep' := by
  intro hopen'
  have hopen := step_open hs hopen'
  have hm := h hopen
  cases step_moved hs with
  | inserted i now call id he hget hpc heq =>
    subst he heq
    exact hm.insert now rfl (hc.inserted hopen id (inserting_of_pc hget hpc now))
  | noted now at' id pending he hpc heq =>
    subst he heq
    exact hm.noteResent at' (hc.noted hopen id (noting_of_pc hpc now))
  | received now buf p core he hp hk heq =>
    subst heq
    rcases handled_tables (handlePacket_cases hk) with hsame | ⟨-, hr⟩
    · exact hm.of_eq hsame
    · exact hm.released hr
  | pumped d he hp =>
    rcases pump_cases hp with ⟨ctrl, -, rfl⟩ | ⟨data, -, -, rfl⟩
    · exact hm
    · exact hm
  | closed he heq =>
    subst heq
    cases hopen'
  | idle heq | called data stream call he hcall heq | failed i now call err he hget hpc herr heq
  | passed i now call he hget hpc hno hspace heq | allocated i now call he hget hpc hno heq
  | pushed i now call id he hget hpc heq | waited now pc he hpc heq
  | resent now at' m pending he hpc heq | gaveUp now he hpc heq | timedOut now he hidle heq
  | pinged now he heq | panicked now buf err he heq =>
    subst heq
    exact hm.of_eq ⟨rfl, rfl⟩

theorem OpenMatched.accounted {ep : Endpoint} (h : OpenMatched ep) : Accounted ep := by
  intro hopen id hid
  obtain ⟨inf, hinf, -⟩ := (h hopen id).mp hid
  exact AList.mem_of_lookup hinf

theorem OpenMatched.startsAtZero {ep : Endpoint} {e : Event} (h : OpenMatched ep)
    (hc : Accountable ep e) : StartsAtZero ep e := by
  intro hopen id hid hcount
  exact hc.inserted hopen id hid ((h hopen id).mp hcount)

theorem accountable_of_accounted {ep ep' : Endpoint} {e : Event} (h : OpenMatched ep)
    (hz : StartsAtZero ep e) (hs : ep.step e = some ep') (ha : Accounted ep') :
    Accountable ep e where
  noted := by
    intro hopen id hid
    obtain ⟨at', pending, rfl⟩ := step_noting hid hs
    have hin := ha hopen id ((AList.mem_insert _).mpr (Or.inl rfl))
    by_contra hnot
    have hl := AList.lookup_eq_none.mpr hnot
    simp only [Endpoint.setState, CoreState.noteResent, hl] at hin
    exact hnot hin
  inserted := by
    intro hopen id hid hr
    exact hz hopen id hid ((h hopen id).mpr hr)

theorem openMatched_init {core : Core} (h : core.Created) : OpenMatched (Endpoint.ofCore core) := by
  intro _ id
  cases h with
  | dial now => simp [Endpoint.ofCore, newCore, Resent]
  | listen now => simp [Endpoint.ofCore, acceptedCore, newCore, Resent]

theorem retransmit_accounting_iff {core : Core} (hcore : core.Created) (es : List Event) :
    (Machine.Always Endpoint.step Accounted (Endpoint.ofCore core) es ∧
        Machine.Along Endpoint.step StartsAtZero (Endpoint.ofCore core) es) ↔
      Machine.Along Endpoint.step Accountable (Endpoint.ofCore core) es := by
  have hinit := openMatched_init hcore
  constructor
  · rintro ⟨halways, hzero⟩
    refine Machine.along_of_always_and (I := OpenMatched) (fun _ _ _ h _ hc hs => h.step hc hs)
      (fun _ _ _ h _ hz hs ha => accountable_of_accounted h hz hs ha) ?_ hinit halways hzero
    intro ep e _ hnone
    exact ⟨by simp [noting_none_of_step hnone], by simp [inserting_none_of_step hnone]⟩
  · intro halong
    refine ⟨Machine.always_of_along (fun _ _ _ h hc hs => h.step hc hs) (fun _ h => h.accounted)
      hinit halong, ?_⟩
    exact Machine.along_invariant (fun _ _ _ h hc hs => h.step hc hs)
      (fun _ _ h hc => h.startsAtZero hc) hinit halong

def resendRound (now : Instant) : List Event :=
  [.act (.retransmit now), .act (.retransmit now), .act (.retransmit now), .act (.retransmit now)]

theorem accounting_of_resend :
    Machine.Always Endpoint.step Accounted (Endpoint.ofCore (newCore dialWindow dialRto 0))
        (sendSteps 0 [1] .batch ++ resendRound dialRto ++
          [.act (.retransmit dialRto), .receive dialRto (encode (control flagAck .batch 1))]) ∧
      Machine.Along Endpoint.step StartsAtZero (Endpoint.ofCore (newCore dialWindow dialRto 0))
        (sendSteps 0 [1] .batch ++ resendRound dialRto ++
          [.act (.retransmit dialRto), .receive dialRto (encode (control flagAck .batch 1))]) :=
  (retransmit_accounting_iff (.dial 0) _).mpr (by decide +kernel)

theorem acknowledged_message_keeps_counter :
    ∃ ep, Machine.run Endpoint.step (Endpoint.ofCore (newCore dialWindow dialRto 0))
        (sendSteps 0 [1] .batch ++ resendRound dialRto ++
          [.receive dialRto (encode (control flagAck .batch 1)), .act (.retransmit dialRto)]) =
          some ep ∧ ¬Accounted ep := by
  have hrun : (Machine.run Endpoint.step (Endpoint.ofCore (newCore dialWindow dialRto 0))
      (sendSteps 0 [1] .batch ++ resendRound dialRto ++
        [.receive dialRto (encode (control flagAck .batch 1)), .act (.retransmit dialRto)])).map
        (fun ep => (ep.core.state.closed, ep.core.state.retrans.keys,
          ep.core.state.inFlight.keys)) = some (false, [1], []) := by decide
  obtain ⟨ep, hep, hstate⟩ := Option.map_eq_some_iff.mp hrun
  simp only [Prod.mk.injEq] at hstate
  obtain ⟨hopen, hretrans, hin⟩ := hstate
  refine ⟨ep, hep, fun ha => ?_⟩
  have hmem := ha hopen 1 (by rw [AList.mem_keys, hretrans]; exact List.mem_cons_self)
  rw [AList.mem_keys, hin] at hmem
  cases hmem

end Cross233.Qcp
