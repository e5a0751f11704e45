import Cross233.Qcp.Assembly

namespace Cross233.Qcp

structure Closure where
  messages : List Accepted
  sent : Nat
  deriving DecidableEq, Repr

-- `pos s` counts the datagrams handed to side `s`; the wires keep everything that was sent.
structure Fifo where
  conn : Connection
  pos : Side → Nat
  atClose : Side → Option Closure

inductive FifoEvent where
  | act (s : Side) (a : Action)
  | dial (e : DialEvent)
  | pump (s : Side)
  | deliver (s : Side) (now : Instant)
  deriving DecidableEq, Repr

def Fifo.init (dialed accepted : Instant) : Fifo where
  conn := Connection.init dialed accepted
  pos
    | .dialer => 0
    | .acceptor => 1
  atClose _ := none

def FifoEvent.transmission (pos : Side → Nat) : FifoEvent → Transmission
  | .act s a => .act s a
  | .dial e => .dial e
  | .pump s => .pump s
  | .deliver s now => .receive s (pos s) now

def Fifo.noteClose (f : Fifo) (s : Side) : Side → Option Closure :=
  Function.update f.atClose s
    (f.atClose s <|> some ⟨(f.conn.ep s).returned, (f.conn.wire s).length⟩)

def Fifo.after (f : Fifo) (c : Connection) : FifoEvent → Fifo
  | .act s .close => { f with conn := c, atClose := f.noteClose s }
  | .deliver s _ => { f with conn := c, pos := Function.update f.pos s (f.pos s + 1) }
  | _ => { f with conn := c }

def Fifo.step (f : Fifo) (e : FifoEvent) : Option Fifo :=
  (f.conn.step (e.transmission f.pos)).map (fun c => f.after c e)

def Fits (data : Bytes) : Prop := (chunks data).length ≤ maxFragmentCount

instance (data : Bytes) : Decidable (Fits data) := inferInstanceAs (Decidable (_ ≤ _))

def CloseLossless (r : Side) (f : Fifo) : Prop :=
  (f.conn.ep r).core.state.closed = true → ∀ k ∈ f.atClose r.other, ∀ m ∈ k.messages,
    m.stream ≠ .realtime → m.delivery ∈ (f.conn.ep r).core.state.deliverTx

def Drained (s : Side) (f : Fifo) : Prop :=
  ∀ m ∈ (f.conn.ep s).returned, m.stream ≠ .realtime →
    Fits m.data ∧ ∀ p ∈ m.packets, encode p ∈ f.conn.wire s

instance (s : Side) (f : Fifo) : Decidable (Drained s f) :=
  inferInstanceAs (Decidable (∀ _ ∈ _, _))

def CoreState.HasRoom (st : CoreState) (d : Bytes) : Prop :=
  ∀ p ∈ recvFrom d, p.isFragment = true → ¬st.TableFull p.msgId

instance (st : CoreState) (d : Bytes) : Decidable (st.HasRoom d) :=
  inferInstanceAs (Decidable (∀ p ∈ recvFrom d, _))

def GracefulStep (r : Side) (f : Fifo) : FifoEvent → Prop
  | .act s a => (s = r.other → a = .close → Drained s f) ∧
      (s = r → (f.conn.ep r).core.state.closed = false → (f.conn.ep r).Calm a)
  | .deliver s _ => s = r → (f.conn.ep r).core.state.closed = false →
      ∀ d ∈ (f.conn.wire r.other)[f.pos r]?, (f.conn.ep r).core.state.HasRoom d
  | _ => True

instance (r : Side) (f : Fifo) : ∀ e : FifoEvent, Decidable (GracefulStep r f e)
  | .act _ _ => inferInstanceAs (Decidable (_ ∧ _))
  | .deliver _ _ => inferInstanceAs (Decidable (_ → _))
  | .dial _ => isTrue trivial
  | .pump _ => isTrue trivial

def NotFin (d : Bytes) : Prop := ∀ p, recvFrom d = some p → p.has flagFin = false

theorem notFin_reply {p : Packet} (hp : p.IsReply) : NotFin (encode p) := by
  intro q hq
  rw [recvFrom_control hp.1] at hq
  cases hq
  exact hp.2

theorem notFin_fragment {log : List Accepted} {d : Bytes} (h : Fragmented log d) : NotFin d := by
  obtain ⟨m, -, p, hp, rfl⟩ := h
  intro q hq
  obtain rfl := recvFrom_encode_eq (payload_le_of_mem_packets hp) hq
  obtain ⟨i, c, -, rfl⟩ := mem_packets hp
  exact show (flagData &&& flagFin != 0) = false by decide

theorem receive_ctrlTx (ep : Endpoint) (now : Instant) (buf : Bytes) :
    ∀ d ∈ (ep.receive now buf).core.ctrlTx, d ∈ ep.core.ctrlTx ∨ NotFin d := by
  cases hp : recvFrom buf with
  | none =>
    rw [receive_none hp]
    exact fun d hd => Or.inl hd
  | some p =>
    cases hk : handlePacket now ep.core p with
    | error e =>
      rw [receive_error hp hk]
      exact fun d hd => Or.inl hd
    | ok core =>
      rw [receive_ok hp hk]
      intro d hd
      rcases (handlePacket_sender hk).ctrlTx d hd with hd | ⟨q, hq, rfl⟩
      · exact Or.inl hd
      · exact Or.inr (notFin_reply hq)

theorem ctrlTx_grows {c c' : Connection} {e : Transmission} (h : Change c e c') (s : Side) :
    ∀ d ∈ (c'.ep s).core.ctrlTx, d ∈ (c.ep s).core.ctrlTx ∨ NotFin d ∨ e = .act s .close := by
  have update (t : Side) (ep : Endpoint) (he : c'.ep = Function.update c.ep t ep)
      (hq : ∀ d ∈ ep.core.ctrlTx, d ∈ (c.ep t).core.ctrlTx ∨ NotFin d ∨ e = .act t .close) :
      ∀ d ∈ (c'.ep s).core.ctrlTx, d ∈ (c.ep s).core.ctrlTx ∨ NotFin d ∨ e = .act s .close := by
    rcases eq_or_ne s t with rfl | hne
    · simpa [he] using hq
    · rw [he, Function.update_of_ne hne]
      exact fun d hd => Or.inl hd
  cases h with
  | act t a ep hev ha he =>
    refine update t ep (by rw [he]; rfl) (fun d hd => ?_)
    rcases act_ctrlTx ha d hd with h | rfl | ⟨rfl, -⟩
    · exact Or.inl h
    · exact Or.inr (Or.inl (notFin_reply (control_isReply (by decide) (by decide) _ _)))
    · exact Or.inr (Or.inr hev)
  | dial de pc p hev hp he =>
    refine update .dialer { c.ep .dialer with core := (c.ep .dialer).core.sendCtrl p }
      (by rw [he]; rfl) (fun d hd => ?_)
    rcases List.mem_append.mp hd with hd | hd
    · exact Or.inl hd
    · rw [List.mem_singleton.mp hd]
      exact Or.inr (Or.inl (notFin_reply hp))
  | dialed de pc hev he =>
    rw [he]
    exact fun d hd => Or.inl hd
  | pump t d ep hev hp he =>
    refine update t ep (by rw [he]; rfl) (fun x hx => Or.inl ?_)
    rcases pump_cases hp with ⟨ctrl, hc, rfl⟩ | ⟨data, hc, -, rfl⟩
    · rw [hc]
      exact List.mem_cons_of_mem d hx
    · exact hx
  | receive t i now d hev hd hi he =>
    refine update t _ (by rw [he]; rfl) (fun x hx => ?_)
    rcases receive_ctrlTx (c.ep t) now d x hx with h | h
    · exact Or.inl h
    · exact Or.inr (Or.inl h)
  | synAck i now d p hev hd hp hsyn he =>
    rw [he]
    exact fun d hd => Or.inl hd
  | lose t i hev he =>
    rw [he]
    exact fun d hd => Or.inl hd

theorem wire_grows {c c' : Connection} {e : Transmission} (hh : Honest c) (h : Change c e c')
    (hl : ∀ t i, e ≠ .lose t i) (s : Side) :
    ∃ new, c'.wire s = c.wire s ++ new ∧ ∀ d ∈ new, d ∈ (c.ep s).core.ctrlTx ∨ NotFin d := by
  have same (he : c'.wire = c.wire) : ∃ new, c'.wire s = c.wire s ++ new ∧
      ∀ d ∈ new, d ∈ (c.ep s).core.ctrlTx ∨ NotFin d := ⟨[], by simp [he], by simp⟩
  have update (t : Side) (d : Bytes) (he : c'.wire = Function.update c.wire t (c.wire t ++ [d]))
      (hd : d ∈ (c.ep t).core.ctrlTx ∨ NotFin d) : ∃ new, c'.wire s = c.wire s ++ new ∧
        ∀ d ∈ new, d ∈ (c.ep s).core.ctrlTx ∨ NotFin d := by
    rcases eq_or_ne s t with rfl | hne
    · exact ⟨[d], by simp [he], by simpa using hd⟩
    · exact ⟨[], by simp [he, Function.update_of_ne hne], by simp⟩
  cases h with
  | act t a ep hev ha he => exact same (by rw [he]; rfl)
  | dial de pc p hev hp he => exact same (by rw [he]; rfl)
  | dialed de pc hev he => exact same (by rw [he])
  | receive t i now d hev hd hi he => exact same (by rw [he]; rfl)
  | pump t d ep hev hp he =>
    refine update t d (by rw [he]; rfl) ?_
    rcases pump_cases hp with ⟨ctrl, hc, -⟩ | ⟨data, -, hd, -⟩
    · exact Or.inl (by simp [hc])
    · exact Or.inr (notFin_fragment ((hh.sender t).dataTx d (by simp [hd])))
  | synAck i now d p hev hd hp hsyn he =>
    exact update .acceptor _ (by rw [he]; rfl)
      (Or.inr (notFin_reply (control_isReply (by decide) (by decide) _ _)))
  | lose t i hev he => exact absurd hev (hl t i)

structure Still (st st' : CoreState) : Prop where
  assemblers : st'.assemblers = st.assemblers
  quiet : Quiet st st'
  closed : st'.closed = st.closed

theorem act_calm {ep ep' : Endpoint} {a : Action} (h : ep.act a = some ep') (hc : ep.Calm a) :
    Still ep.core.state ep'.core.state := by
  have hq := (act_receiver h).quiet
  cases act_effect h with
  | close ha h =>
    rw [ha] at hc
    exact absurd hc id
  | dead reason pc hcalm h => exact absurd hc hcalm
  | idle calls pc h | alloc call calls h | insert id inf now calls h | push m rs calls pc h
  | update now id pc h | ping h =>
    subst h
    exact ⟨rfl, hq, rfl⟩

theorem act_closed {ep ep' : Endpoint} {a : Action} (h : ep.act a = some ep')
    (hc : ep.core.state.closed = true) : ep'.core.state.closed = true := by
  cases act_effect h with
  | close ha h | dead reason pc hcalm h =>
    rw [h]
    rfl
  | idle calls pc h | alloc call calls h | insert id inf now calls h | push m rs calls pc h
  | update now id pc h | ping h =>
    rw [h]
    exact hc

theorem receive_advances {log : List Accepted} (hu : UniqueIds log)
    (hsize : ∀ m ∈ log, Sized m.data) (now : Instant) {ep : Endpoint}
    (hinv : ReceiverInv log ep.core.state)
    (hk : ep.core.state.Known)
    {d : Bytes} (hd : Emitted log d) (hopen : ep.core.state.closed = false)
    (hroom : ep.core.state.HasRoom d) :
    Advances log ep.core.state (ep.receive now d).core.state ∧
      (∀ p, recvFrom d = some p → p.isFragment = true → ∀ m ∈ log, FragmentOf m p →
        (ep.receive now d).core.state.Holds m p.fragIndex.toNat) ∧
      (NotFin d → (ep.receive now d).core.state.closed = false) := by
  cases hp : recvFrom d with
  | none =>
    rw [receive_none hp]
    exact ⟨⟨fun _ _ _ h => h, id⟩, by simp, fun _ => hopen⟩
  | some p =>
    obtain ⟨core, hok, -, -⟩ := handlePacket_honest hu now hinv (p := p) (recv_emitted hsize hd hp)
    rw [receive_ok hp hok]
    have hclosed : NotFin d → core.state.closed = false := by
      intro hfin
      by_contra hc
      simp only [Bool.not_eq_false] at hc
      exact absurd (handlePacket_closes hok hc (hfin p hp)) (by simp [hopen])
    cases hf : p.isFragment with
    | false =>
      obtain ⟨core', hok', hframe⟩ := handlePacket_frame now ep.core (Or.inr hf)
      obtain rfl : core' = core := Except.ok.inj (hok'.symm.trans hok)
      refine ⟨.of_eq log hframe.assemblers hframe.reliable, ?_, hclosed⟩
      intro q hq hqf
      cases hq
      rw [hf] at hqf
      cases hqf
    | true =>
      obtain ⟨hadv, hholds⟩ := receive_taken hu hsize now hinv hk hd hp ⟨hopen, hf, hroom p hp hf⟩
      rw [receive_ok hp hok] at hadv hholds
      refine ⟨hadv, ?_, hclosed⟩
      intro q hq _
      cases hq
      exact hholds

theorem transmission_ne_lose (e : FifoEvent) (pos : Side → Nat) (t : Side) (i : Nat) :
    e.transmission pos ≠ .lose t i := by
  cases e <;> simp [FifoEvent.transmission]

theorem transmission_act {e : FifoEvent} {pos : Side → Nat} {s : Side} {b : Action}
    (h : e.transmission pos = .act s b) : e = .act s b := by
  cases e with
  | act t a =>
    cases h
    rfl
  | dial e => cases h
  | pump t => cases h
  | deliver t now => cases h

theorem transmission_receive {e : FifoEvent} {pos : Side → Nat} {s : Side} {i : Nat}
    {now : Instant} (h : e.transmission pos = .receive s i now) : e = .deliver s now := by
  cases e with
  | deliver t now =>
    cases h
    rfl
  | act t a => cases h
  | dial e => cases h
  | pump t => cases h

theorem fifo_step_change {f f' : Fifo} {e : FifoEvent} (h : f.step e = some f') :
    ∃ c, f.conn.step (e.transmission f.pos) = some c ∧ f' = f.after c e ∧ f'.conn = c := by
  obtain ⟨c, hc, rfl⟩ := Option.map_eq_some_iff.mp h
  refine ⟨c, hc, rfl, ?_⟩
  unfold Fifo.after
  split <;> rfl

theorem after_atClose (f : Fifo) (c : Connection) (e : FifoEvent) (s : Side) :
    (f.after c e).atClose s = f.atClose s ∨ (e = .act s .close ∧ f.atClose s = none ∧
      (f.after c e).atClose s = some ⟨(f.conn.ep s).returned, (f.conn.wire s).length⟩) := by
  unfold Fifo.after
  split
  · next t =>
    rcases eq_or_ne s t with rfl | hne
    · cases hk : f.atClose s with
      | none => exact Or.inr ⟨rfl, rfl, by simp [Fifo.noteClose, hk]⟩
      | some k => exact Or.inl (by simp [Fifo.noteClose, hk])
    · exact Or.inl (by simp [Fifo.noteClose, Function.update_of_ne hne])
  · exact Or.inl rfl
  · exact Or.inl rfl

theorem after_keeps (f : Fifo) (c : Connection) (e : FifoEvent) {s : Side} {k : Closure}
    (h : f.atClose s = some k) : (f.after c e).atClose s = some k := by
  rcases after_atClose f c e s with he | ⟨-, hnone, -⟩
  · rw [he, h]
  · rw [hnone] at h
    cases h

theorem after_pos_act (f : Fifo) (c : Connection) (e : FifoEvent) (s : Side)
    (h : ∀ now, e ≠ .deliver s now) : (f.after c e).pos s = f.pos s := by
  unfold Fifo.after
  split
  · rfl
  · next t now =>
    rcases eq_or_ne s t with rfl | hne
    · exact absurd rfl (h now)
    · simp [Function.update_of_ne hne]
  · rfl

structure FinLast (s : Side) (f : Fifo) : Prop where
  wire : ∀ i d, (f.conn.wire s)[i]? = some d → NotFin d ∨ ∃ k ∈ f.atClose s, k.sent ≤ i
  queued : ∀ d ∈ (f.conn.ep s).core.ctrlTx, NotFin d ∨ ∃ k, f.atClose s = some k
  bound : ∀ k ∈ f.atClose s, k.sent ≤ (f.conn.wire s).length
  messages : ∀ k ∈ f.atClose s, ∀ m ∈ k.messages, m ∈ (f.conn.ep s).accepted ∧
    (m.stream ≠ .realtime → Fits m.data ∧
      ∀ p ∈ m.packets, ∃ i < k.sent, (f.conn.wire s)[i]? = some (encode p))

theorem FinLast.wireStep {s : Side} {f : Fifo} (h : FinLast s f) (c : Connection) (e : FifoEvent)
    {new : List Bytes} (hwire : c.wire s = f.conn.wire s ++ new)
    (hnew : ∀ d ∈ new, d ∈ (f.conn.ep s).core.ctrlTx ∨ NotFin d) :
    ∀ i d, (c.wire s)[i]? = some d →
      NotFin d ∨ ∃ k ∈ (f.after c e).atClose s, k.sent ≤ i := by
  intro i d hd
  rw [hwire] at hd
  by_cases hi : i < (f.conn.wire s).length
  · rw [List.getElem?_append_left hi] at hd
    rcases h.wire i d hd with hn | ⟨k, hk, hle⟩
    · exact Or.inl hn
    · exact Or.inr ⟨k, after_keeps f c e hk, hle⟩
  · rw [List.getElem?_append_right (not_lt.mp hi)] at hd
    rcases hnew d (List.mem_of_getElem? hd) with hq | hn
    · rcases h.queued d hq with hn | ⟨k, hk⟩
      · exact Or.inl hn
      · exact Or.inr ⟨k, after_keeps f c e hk, (h.bound k hk).trans (not_lt.mp hi)⟩
    · exact Or.inl hn

theorem FinLast.queuedStep {s : Side} {f : Fifo} (h : FinLast s f) {c : Connection} {e : FifoEvent}
    (hchange : Change f.conn (e.transmission f.pos) c) :
    ∀ d ∈ (c.ep s).core.ctrlTx, NotFin d ∨ ∃ k, (f.after c e).atClose s = some k := by
  intro d hd
  rcases ctrlTx_grows hchange s d hd with hq | hn | hclose
  · rcases h.queued d hq with hn | ⟨k, hk⟩
    · exact Or.inl hn
    · exact Or.inr ⟨k, after_keeps f c e hk⟩
  · exact Or.inl hn
  · refine Or.inr ?_
    rcases after_atClose f c e s with he | ⟨-, -, he⟩
    · cases hk : f.atClose s with
      | some k => exact ⟨k, by rw [he, hk]⟩
      | none =>
        rw [transmission_act hclose] at he ⊢
        simp [Fifo.after, Fifo.noteClose, hk] at he
    · exact ⟨_, he⟩

-- What is emitted before the close stays where it is on the wire.
theorem FinLast.messagesStep {s : Side} {f : Fifo} (hh : Honest f.conn) (h : FinLast s f)
    {c : Connection} {e : FifoEvent} (hchange : Change f.conn (e.transmission f.pos) c)
    (hg : e = .act s .close → Drained s f) {new : List Bytes}
    (hwire : c.wire s = f.conn.wire s ++ new) :
    ∀ k ∈ (f.after c e).atClose s, ∀ m ∈ k.messages, m ∈ (c.ep s).accepted ∧
      (m.stream ≠ .realtime → Fits m.data ∧
        ∀ p ∈ m.packets, ∃ i < k.sent, (c.wire s)[i]? = some (encode p)) := by
  have hkeep : ∀ (i : Nat) (d : Bytes), (f.conn.wire s)[i]? = some d →
      (c.wire s)[i]? = some d := by
    intro i d hd
    rw [hwire, List.getElem?_append_left (List.getElem?_eq_some_iff.mp hd).1]
    exact hd
  have hsub : ∀ m ∈ (f.conn.ep s).accepted, m ∈ (c.ep s).accepted :=
    fun m hm => (hchange.accepted s).subset hm
  intro k hk m hm
  rcases after_atClose f c e s with he | ⟨rfl, -, he⟩
  · rw [he] at hk
    obtain ⟨hmem, hrest⟩ := h.messages k hk m hm
    refine ⟨hsub m hmem, fun hr => ⟨(hrest hr).1, fun p hp => ?_⟩⟩
    obtain ⟨i, hi, hget⟩ := (hrest hr).2 p hp
    exact ⟨i, hi, hkeep i _ hget⟩
  · rw [he] at hk
    cases hk
    refine ⟨hsub m ((hh.sender s).returned m hm), fun hr => ?_⟩
    obtain ⟨hfit, hall⟩ := hg rfl m hm hr
    refine ⟨hfit, fun p hp => ?_⟩
    obtain ⟨i, hi⟩ := List.mem_iff_getElem?.mp (hall p hp)
    exact ⟨i, (List.getElem?_eq_some_iff.mp hi).1, hkeep i _ hi⟩

theorem FinLast.step {s : Side} {f f' : Fifo} {e : FifoEvent} (hh : Honest f.conn)
    (h : FinLast s f) (hg : e = .act s .close → Drained s f) (hs : f.step e = some f') :
    FinLast s f' := by
  obtain ⟨c, hc, rfl, hconn⟩ := fifo_step_change hs
  have hchange := connection_step_cases hc
  obtain ⟨new, hwire, hnew⟩ := wire_grows hh hchange (transmission_ne_lose e f.pos) s
  have hlen : (f.conn.wire s).length ≤ (c.wire s).length := by
    rw [hwire]
    simp
  refine ⟨?_, ?_, ?_, ?_⟩
  · rw [hconn]
    exact h.wireStep c e hwire hnew
  · rw [hconn]
    exact h.queuedStep hchange
  · intro k hk
    rw [hconn]
    rcases after_atClose f c e s with he | ⟨-, -, he⟩
    · rw [he] at hk
      exact (h.bound k hk).trans hlen
    · rw [he] at hk
      cases hk
      exact hlen
  · rw [hconn]
    exact h.messagesStep hh hchange hg hwire

theorem change_closed {c c' : Connection} {e : Transmission} (h : Change c e c') (r : Side)
    (hc : (c.ep r).core.state.closed = true) : (c'.ep r).core.state.closed = true := by
  have update (t : Side) (ep : Endpoint) (he : c'.ep = Function.update c.ep t ep)
      (hk : (c.ep t).core.state.closed = true → ep.core.state.closed = true) :
      (c'.ep r).core.state.closed = true := by
    rcases eq_or_ne r t with rfl | hne
    · simpa [he] using hk hc
    · rw [he, Function.update_of_ne hne]
      exact hc
  cases h with
  | act t a ep hev ha he => exact update t ep (by rw [he]; rfl) (act_closed ha)
  | dial de pc p hev hp he =>
    exact update .dialer { c.ep .dialer with core := (c.ep .dialer).core.sendCtrl p }
      (by rw [he]; rfl) id
  | dialed de pc hev he =>
    rw [he]
    exact hc
  | pump t d ep hev hp he =>
    refine update t ep (by rw [he]; rfl) ?_
    rcases pump_cases hp with ⟨ctrl, -, rfl⟩ | ⟨data, -, -, rfl⟩
    · exact id
    · exact id
  | receive t i now d hev hd hi he =>
    refine update t _ (by rw [he]; rfl) (fun hclosed => ?_)
    cases hp : recvFrom d with
    | none => rwa [receive_none hp]
    | some p => rwa [receive_ok hp (handlePacket_closed p hclosed)]
  | synAck i now d p hev hd hp hsyn he =>
    rw [he]
    exact hc
  | lose t i hev he =>
    rw [he]
    exact hc

inductive Turn (r : Side) (c : Connection) (e : Transmission) (c' : Connection) : Prop where
  | still (h : Still (c.ep r).core.state (c'.ep r).core.state)
      (hsyn : ∀ i now d p, e = .receive r i now → (c.wire r.other)[i]? = some d →
        recvFrom d = some p → p.isFragment = false)
  | receive (i : Nat) (now : Instant) (d : Bytes) (hev : e = .receive r i now)
      (hd : (c.wire r.other)[i]? = some d) (hep : c'.ep r = (c.ep r).receive now d)

theorem isFragment_noSyn {p : Packet} (h : p.has flagSyn = true) : p.isFragment = false := by
  simp [Packet.isFragment, h]

theorem change_turn {c c' : Connection} {e : Transmission} (h : Change c e c') (r : Side)
    (hcalm : ∀ a, e = .act r a → (c.ep r).Calm a) : Turn r c e c' := by
  have refl (st : CoreState) : Still st st := ⟨rfl, ⟨rfl, rfl⟩, rfl⟩
  have update (t : Side) (ep : Endpoint) (he : c'.ep = Function.update c.ep t ep)
      (hk : r = t → Still (c.ep t).core.state ep.core.state) :
      Still (c.ep r).core.state (c'.ep r).core.state := by
    rcases eq_or_ne r t with rfl | hne
    · simpa [he] using hk rfl
    · rw [he, Function.update_of_ne hne]
      exact refl _
  cases h with
  | act t a ep hev ha he =>
    subst hev
    refine .still (update t ep (by rw [he]; rfl) (fun hrt => ?_)) (by simp)
    subst hrt
    exact act_calm ha (hcalm a rfl)
  | dial de pc p hev hp he =>
    subst hev
    exact .still (update .dialer { c.ep .dialer with core := (c.ep .dialer).core.sendCtrl p }
      (by rw [he]; rfl) (fun _ => refl _)) (by simp)
  | dialed de pc hev he =>
    subst hev
    exact .still (by rw [he]; exact refl _) (by simp)
  | pump t d ep hev hp he =>
    subst hev
    refine .still (update t ep (by rw [he]; rfl) (fun _ => ?_)) (by simp)
    rcases pump_cases hp with ⟨ctrl, -, rfl⟩ | ⟨data, -, -, rfl⟩
    · exact refl _
    · exact refl _
  | receive t i now d hev hd hi he =>
    subst hev
    rcases eq_or_ne r t with rfl | hne
    · refine .receive i now d rfl hd ?_
      rw [he]
      simp [Connection.setEp]
    · refine .still (update t _ (by rw [he]; rfl) (fun h => absurd h hne)) ?_
      intro j now' d' p hev
      cases hev
      exact absurd rfl hne
  | synAck i now d p hev hd hp hsyn he =>
    subst hev
    refine .still (by rw [he]; exact refl _) ?_
    intro j now' d' q hev hd' hq
    cases hev
    obtain rfl : d = d' := Option.some.inj (hd.symm.trans hd')
    obtain rfl : p = q := Option.some.inj (hp.symm.trans hq)
    exact isFragment_noSyn hsyn
  | lose t i hev he =>
    subst hev
    exact .still (by rw [he]; exact refl _) (by simp)

def Processed (r : Side) (f : Fifo) : Prop :=
  ∀ i < f.pos r, ∀ d p, (f.conn.wire r.other)[i]? = some d → recvFrom d = some p →
    p.isFragment = true → ∀ m ∈ (f.conn.ep r.other).accepted, FragmentOf m p →
      (f.conn.ep r).core.state.Holds m p.fragIndex.toNat

structure Draining (r : Side) (f : Fifo) : Prop where
  base : SenderDeduplicated f.conn
  pos : f.pos r ≤ (f.conn.wire r.other).length
  fin : FinLast r.other f
  alive : (f.conn.ep r.other).accepted.length < maxSends →
    (f.conn.ep r).core.state.closed = false →
      (f.conn.ep r).core.state.Unfinished ∧ Processed r f
  closed : (f.conn.ep r.other).accepted.length < maxSends →
    (f.conn.ep r).core.state.closed = true → ∃ k, f.atClose r.other = some k ∧
      ∀ m ∈ k.messages, m.stream ≠ .realtime →
        m.delivery ∈ (f.conn.ep r).core.state.reliableDeliveries

theorem Arrival.reliable {c c' : Connection} {e : Transmission} {r : Side} (h : Arrival c e c' r) :
    ∀ d ∈ (c.ep r).core.state.reliableDeliveries, d ∈ (c'.ep r).core.state.reliableDeliveries := by
  intro d hd
  cases h with
  | quiet hq =>
    rw [hq.reliable]
    exact hd
  | put i now b p m hev hw hopen hp hf hm hfrag hput =>
    rw [hput.reliable]
    exact List.mem_append_left _ hd

theorem Draining.delivered {r : Side} {f : Fifo} (h : Draining r f)
    (hlen : (f.conn.ep r.other).accepted.length < maxSends)
    (hopen : (f.conn.ep r).core.state.closed = false) {k : Closure}
    (hk : f.atClose r.other = some k) (hpos : k.sent ≤ f.pos r) {m : Accepted}
    (hm : m ∈ k.messages) (hr : m.stream ≠ .realtime) :
    m.delivery ∈ (f.conn.ep r).core.state.reliableDeliveries := by
  obtain ⟨hun, hproc⟩ := h.alive hlen hopen
  have hu := (h.base.1.honest.numbered r.other).uniqueIds hlen
  obtain ⟨hacc, hrest⟩ := h.fin.messages k hk m hm
  obtain ⟨hfit, hsent⟩ := hrest hr
  have hs := (h.base.1.honest.sender r.other).size m hacc
  refine delivered_of_holds hu (h.base.1.receiver r hlen).1 hun hacc hs ?_
  intro i hi
  obtain ⟨p, hp, rfl⟩ := exists_packet hs hi
  obtain ⟨j, hj, hget⟩ := hsent p hp
  exact hproc j (lt_of_lt_of_le hj hpos) _ p hget (packet_received hs hfit hp)
    (packets_isFragment hr hp) m hacc (fragmentOf_of_mem_packets hs hp)

theorem old_message {c c' : Connection} {e : Transmission} (hh : Honest c) (hc : Change c e c')
    {s : Side} (hu : UniqueIds (c'.ep s).accepted) {d : Bytes} (hd : d ∈ c.wire s) {p : Packet}
    (hp : recvFrom d = some p) (hf : p.isFragment = true) {m : Accepted}
    (hm : m ∈ (c'.ep s).accepted) (hfrag : FragmentOf m p) : m ∈ (c.ep s).accepted := by
  obtain ⟨m0, hm0, hfrag0⟩ := recv_emitted (hh.sender s).size (hh.wire s d hd) hp hf
  have hm0' : m0 ∈ (c'.ep s).accepted := (hc.accepted s).subset hm0
  rwa [hu m hm m0 hm0' (hfrag.msgId.symm.trans hfrag0.msgId)]

theorem Processed.step {r : Side} {f : Fifo} {c : Connection} {e : FifoEvent}
    (hh : Honest f.conn) (hc : Change f.conn (e.transmission f.pos) c)
    (hu : UniqueIds (c.ep r.other).accepted) (h : Processed r f) (hconn : (f.after c e).conn = c)
    (hadv : Advances (f.conn.ep r.other).accepted (f.conn.ep r).core.state (c.ep r).core.state)
    (hnew : ∀ now d p, e = .deliver r now → (f.conn.wire r.other)[f.pos r]? = some d →
      recvFrom d = some p → p.isFragment = true → ∀ m ∈ (f.conn.ep r.other).accepted,
        FragmentOf m p → (c.ep r).core.state.Holds m p.fragIndex.toNat)
    (hpos : f.pos r < (f.conn.wire r.other).length ∨ ∀ now, e ≠ .deliver r now)
    (hle : f.pos r ≤ (f.conn.wire r.other).length) :
    Processed r (f.after c e) := by
  intro i hi d p hd hp hf m hm hfrag
  rw [hconn] at hd hm ⊢
  obtain ⟨new, hwire, -⟩ := wire_grows hh hc (transmission_ne_lose e f.pos) r.other
  have hold : ∀ j, j < (f.conn.wire r.other).length → (c.wire r.other)[j]? = some d →
      (f.conn.wire r.other)[j]? = some d := by
    intro j hj hget
    rwa [hwire, List.getElem?_append_left hj] at hget
  have hmem (j : Nat) (hj : (f.conn.wire r.other)[j]? = some d) :
      m ∈ (f.conn.ep r.other).accepted :=
    old_message hh hc hu (List.mem_of_getElem? hj) hp hf hm hfrag
  by_cases hlt : i < f.pos r
  · have hget := hold i (by omega) hd
    exact hadv.holds m (hmem i hget) _ (h i hlt d p hget hp hf m (hmem i hget) hfrag)
  · by_cases hev : ∃ now, e = .deliver r now
    · obtain ⟨now, rfl⟩ := hev
      have hi' : i = f.pos r := by
        simp only [Fifo.after, Function.update_self] at hi
        omega
      subst hi'
      have hget := hold _ (hpos.resolve_right (fun hne => hne now rfl)) hd
      exact hnew now d p rfl hget hp hf m (hmem _ hget) hfrag
    · rw [after_pos_act f c e r (fun now he => hev ⟨now, he⟩)] at hi
      exact absurd hi hlt

theorem deliver_pos {f : Fifo} {c : Connection} {r : Side} {now : Instant}
    (h : f.conn.step (.receive r (f.pos r) now) = some c) :
    f.pos r < (f.conn.wire r.other).length := by
  obtain ⟨d, hd, -⟩ := Option.bind_eq_some_iff.mp h
  exact (List.getElem?_eq_some_iff.mp hd).1

theorem Draining.turn {r : Side} {f : Fifo} {c : Connection} {e : FifoEvent} (h : Draining r f)
    (hg : GracefulStep r f e) (hc : f.conn.step (e.transmission f.pos) = some c)
    (hconn : (f.after c e).conn = c) (hlen : (c.ep r.other).accepted.length < maxSends)
    (hopen : (f.conn.ep r).core.state.closed = false) :
    (c.ep r).core.state.Unfinished ∧ Processed r (f.after c e) ∧
      ((c.ep r).core.state.closed = true →
        ∃ k, f.atClose r.other = some k ∧ k.sent ≤ f.pos r) := by
  have hchange := connection_step_cases hc
  have hdeliver : f.pos r < (f.conn.wire r.other).length ∨ ∀ now, e ≠ .deliver r now := by
    by_cases hev : ∃ now, e = .deliver r now
    · obtain ⟨now, rfl⟩ := hev
      exact Or.inl (deliver_pos hc)
    · exact Or.inr (fun now he => hev ⟨now, he⟩)
  have hlen' : (f.conn.ep r.other).accepted.length < maxSends :=
    lt_of_le_of_lt (hchange.accepted r.other).length_le hlen
  obtain ⟨hun, hproc⟩ := h.alive hlen' hopen
  have hu := (h.base.1.honest.numbered r.other).uniqueIds hlen'
  have hu' := ((h.base.step hc).1.honest.numbered r.other).uniqueIds hlen
  have hcalm : ∀ a, e.transmission f.pos = .act r a → (f.conn.ep r).Calm a := by
    intro a ha
    obtain rfl := transmission_act ha
    exact hg.2 rfl hopen
  cases change_turn hchange r hcalm with
  | still hstill hsyn =>
    have hadv := Advances.of_eq (f.conn.ep r.other).accepted hstill.assemblers
      hstill.quiet.reliable
    refine ⟨hadv.unfinished hun, ?_, ?_⟩
    · refine hproc.step h.base.1.honest hchange hu' hconn hadv ?_ hdeliver h.pos
      intro now d p hev hd hp hf
      subst hev
      rw [hsyn (f.pos r) now d p rfl hd hp] at hf
      cases hf
    · intro hcl
      rw [hstill.closed, hopen] at hcl
      cases hcl
  | receive i now d hev hd hep =>
    obtain rfl := transmission_receive hev
    cases hev
    have hroom := hg rfl hopen d hd
    obtain ⟨hadv, hholds, hnotfin⟩ := receive_advances hu (h.base.1.honest.sender r.other).size
      now (h.base.1.receiver r hlen').1 (delivered_known h.base hlen')
      (h.base.1.honest.wire r.other d (List.mem_of_getElem? hd)) hopen hroom
    rw [← hep] at hadv hholds hnotfin
    refine ⟨hadv.unfinished hun, ?_, ?_⟩
    · refine hproc.step h.base.1.honest hchange hu' hconn hadv ?_ hdeliver h.pos
      intro now' d' p hev' hd' hp hf m hm hfrag
      obtain rfl : d = d' := Option.some.inj (hd.symm.trans hd')
      exact hholds p hp hf m hm hfrag
    · intro hcl
      rcases h.fin.wire (f.pos r) d hd with hn | hk
      · rw [hnotfin hn] at hcl
        cases hcl
      · exact hk

theorem Draining.step {r : Side} {f f' : Fifo} {e : FifoEvent} (h : Draining r f)
    (hg : GracefulStep r f e) (hs : f.step e = some f') : Draining r f' := by
  have hfin : FinLast r.other f' := by
    refine h.fin.step h.base.1.honest ?_ hs
    rintro rfl
    exact hg.1 rfl rfl
  obtain ⟨c, hc, rfl, hconn⟩ := fifo_step_change hs
  have hchange := connection_step_cases hc
  obtain ⟨new, hwire, -⟩ :=
    wire_grows h.base.1.honest hchange (transmission_ne_lose e f.pos) r.other
  have hpos : (f.after c e).pos r ≤ ((f.after c e).conn.wire r.other).length := by
    rw [hconn, hwire, List.length_append]
    by_cases hev : ∃ now, e = .deliver r now
    · obtain ⟨now, rfl⟩ := hev
      have := deliver_pos hc
      simp only [Fifo.after, Function.update_self]
      omega
    · rw [after_pos_act f c e r (fun now he => hev ⟨now, he⟩)]
      have := h.pos
      omega
  have hbase : SenderDeduplicated (f.after c e).conn := hconn.symm ▸ h.base.step hc
  refine ⟨hbase, hpos, hfin, ?_, ?_⟩
  · intro hlen hopen
    rw [hconn] at hlen hopen ⊢
    have hopen' : (f.conn.ep r).core.state.closed = false := by
      by_contra hcl
      simp only [Bool.not_eq_false] at hcl
      rw [change_closed hchange r hcl] at hopen
      cases hopen
    obtain ⟨hun, hproc, -⟩ := h.turn hg hc hconn hlen hopen'
    exact ⟨hun, hproc⟩
  · intro hlen hcl
    rw [hconn] at hlen hcl ⊢
    have hlen' : (f.conn.ep r.other).accepted.length < maxSends :=
      lt_of_le_of_lt (hchange.accepted r.other).length_le hlen
    have hgrow := (h.base.1.change hchange r hlen).2.reliable
    cases hopen : (f.conn.ep r).core.state.closed with
    | true =>
      obtain ⟨k, hk, hall⟩ := h.closed hlen' hopen
      exact ⟨k, after_keeps f c e hk, fun m hm hr => hgrow _ (hall m hm hr)⟩
    | false =>
      obtain ⟨k, hk, hle⟩ := (h.turn hg hc hconn hlen hopen).2.2 hcl
      exact ⟨k, after_keeps f c e hk,
        fun m hm hr => hgrow _ (h.delivered hlen' hopen hk hle hm hr)⟩

theorem draining_init (r : Side) (t u : Instant) : Draining r (Fifo.init t u) where
  base := deduplicated_init t u
  pos := by cases r <;> simp [Fifo.init, Connection.init, Side.other]
  fin := by
    refine ⟨?_, ?_, by simp [Fifo.init], by simp [Fifo.init]⟩
    · intro i d hd
      have hmem := List.mem_of_getElem? hd
      refine Or.inl ?_
      cases r with
      | dialer =>
        rw [List.mem_singleton.mp hmem]
        exact notFin_reply (control_isReply (by decide) (by decide) _ _)
      | acceptor =>
        rw [List.mem_singleton.mp hmem]
        exact notFin_reply (control_isReply (by decide) (by decide) _ _)
    · intro d hd
      cases r <;> cases hd
  alive := by
    intro _ _
    refine ⟨?_, ?_⟩
    · cases r <;>
        simp [CoreState.Unfinished, Fifo.init, Connection.init, Endpoint.ofCore, newCore,
          acceptedCore]
    · intro i hi d p hd hp hf
      cases r with
      | dialer => exact absurd hi (Nat.not_lt_zero i)
      | acceptor =>
        have hmem := List.mem_of_getElem? hd
        rw [List.mem_singleton.mp hmem,
          recvFrom_control (p := syn) (control_isControl (by decide) _ _)] at hp
        cases hp
        rw [isFragment_noSyn (show syn.has flagSyn = true by decide)] at hf
        cases hf
  closed := by
    intro _ hc
    cases r <;> cases hc

theorem graceful_close_lossless {t u : Instant} {es : List FifoEvent} {f : Fifo}
    (hrun : Machine.run Fifo.step (Fifo.init t u) es = some f) (r : Side)
    (hsends : (f.conn.ep r.other).accepted.length < maxSends)
    (hg : Machine.Along Fifo.step (GracefulStep r) (Fifo.init t u) es) : CloseLossless r f := by
  have h := Machine.run_invariant_along (fun _ _ _ h hc hs => Draining.step h hc hs)
    (draining_init r t u) hg hrun
  intro hclosed k hk m hm hr
  obtain ⟨k', hk', hall⟩ := h.closed hsends hclosed
  obtain rfl : k' = k := Option.some.inj (hk'.symm.trans hk)
  exact List.mem_of_mem_filter (hall m hm hr)

def fifoHandshake : List FifoEvent :=
  [.deliver .dialer 0, .dial .notified, .pump .dialer, .deliver .acceptor 0]

def fifoSend (data : Bytes) : List FifoEvent :=
  (sendActions 0 data .batch).map (FifoEvent.act .dialer)

def drainedClose : List FifoEvent :=
  fifoHandshake ++ fifoSend [1] ++ ([.pump .dialer, .act .dialer .close, .pump .dialer,
    .deliver .acceptor 0, .deliver .acceptor 0] : List FifoEvent)

def hastyClose : List FifoEvent :=
  fifoHandshake ++ fifoSend [1] ++ ([.act .dialer .close, .pump .dialer, .deliver .acceptor 0,
    .pump .dialer, .deliver .acceptor 0] : List FifoEvent)

theorem drained_close_delivers :
    ∃ f, Machine.run Fifo.step (Fifo.init 0 0) drainedClose = some f ∧
      (f.conn.ep .acceptor).core.state.closed = true ∧
      f.atClose .dialer = some ⟨[⟨1, [1], .batch⟩], 3⟩ ∧ CloseLossless .acceptor f := by
  have hrun : (Machine.run Fifo.step (Fifo.init 0 0) drainedClose).map
      (fun f => ((f.conn.ep .acceptor).core.state.closed, f.atClose .dialer,
        (f.conn.ep .dialer).accepted.length)) =
      some (true, some ⟨[⟨1, [1], .batch⟩], 3⟩, 1) := by decide
  obtain ⟨f, hf, heq⟩ := Option.map_eq_some_iff.mp hrun
  simp only [Prod.mk.injEq] at heq
  refine ⟨f, hf, heq.1, heq.2.1, graceful_close_lossless hf .acceptor ?_ (by decide)⟩
  show (f.conn.ep .dialer).accepted.length < maxSends
  rw [heq.2.2]
  decide

theorem fin_overtakes_queued_data :
    ¬∀ (t u : Instant) (es : List FifoEvent) (f : Fifo),
      Machine.run Fifo.step (Fifo.init t u) es = some f → ∀ r, CloseLossless r f := by
  intro h
  have hrun : (Machine.run Fifo.step (Fifo.init 0 0) hastyClose).map
      (fun f => ((f.conn.ep .acceptor).core.state.closed, f.atClose .dialer,
        (f.conn.ep .acceptor).core.state.deliverTx)) =
      some (true, some ⟨[⟨1, [1], .batch⟩], 2⟩, []) := by decide
  obtain ⟨f, hf, heq⟩ := Option.map_eq_some_iff.mp hrun
  simp only [Prod.mk.injEq] at heq
  have hlost := h 0 0 _ f hf .acceptor heq.1 _ heq.2.1 ⟨1, [1], .batch⟩ (by simp) (by decide)
  rw [heq.2.2] at hlost
  cases hlost

end Cross233.Qcp
