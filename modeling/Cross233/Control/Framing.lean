import Cross233.Control.Session

namespace Cross233.Control

open Protocol

structure Codec.Carries (codec : Codec) (msg : Message) : Prop where
  noNewline : newline ∉ Text.utf8 (codec.toString msg)
  object : ∃ body, codec.toString msg = "\x7b" ++ body ++ "\x7d"
  roundTrip : codec.fromStr (codec.toString msg) = some msg

def Codec.body (codec : Codec) (msg : Message) : List UInt8 := Text.utf8 (codec.toString msg)

theorem Codec.text_line (codec : Codec) (msg : Message) :
    Text.fromUtf8 (codec.body msg ++ [newline]) = some (codec.toString msg ++ "\n") := by
  have hline : codec.body msg ++ [newline] = Text.utf8 (codec.toString msg ++ "\n") := by
    rw [Text.utf8_append]
    rfl
  rw [hline, Text.fromUtf8_utf8]

theorem Codec.Carries.trimmed {codec : Codec} {msg : Message} (h : codec.Carries msg) :
    trimmed (codec.toString msg ++ "\n") = codec.toString msg := by
  obtain ⟨body, hbody⟩ := h.object
  have hchars : (codec.toString msg).toList = '\x7b' :: body.toList ++ ['\x7d'] := by
    rw [hbody]
    simp
  have hline : (codec.toString msg ++ "\n").toList =
      '\x7b' :: body.toList ++ ['\x7d'] ++ ['\n'] := by
    rw [String.toList_append, hchars]
    rfl
  rw [Control.trimmed, hline, Text.trim_concat body.toList (by decide) (by decide) (by decide),
    ← hchars, String.ofList_toList]

theorem Codec.Carries.ne_empty {codec : Codec} {msg : Message} (h : codec.Carries msg) :
    codec.toString msg ≠ "" := by
  obtain ⟨body, hbody⟩ := h.object
  intro he
  have hlen := congrArg String.length (hbody.symm.trans he)
  simp at hlen

namespace Loop

structure Lossless (s : Loop) : Prop where
  inOrder : s.handled <+: s.written
  complete : s.status = .running → s.reader.buffered = [] → s.wire = [] → s.handled = s.written
  readable : s.status ≠ .ended .readError ∧ s.status ≠ .ended .invalidMessage

def Undisturbed (s : Loop) : LoopEvent → Prop
  | .outbound true => s.reader.line = []
  | .timeout false _ => s.reader.line = []
  | .tick false => s.reader.line = []
  | _ => True

instance (s : Loop) (e : LoopEvent) : Decidable (s.Undisturbed e) := by
  unfold Undisturbed
  split <;> infer_instance

structure Pending (codec : Codec) (s : Loop) (rest : List Message) : Prop where
  split : s.written = s.handled ++ rest
  carried : ∀ msg ∈ rest, codec.Carries msg
  held : s.reader.Holds newline s.wire (rest.map codec.body)

structure Accounted (codec : Codec) (s : Loop) : Prop where
  inOrder : s.handled <+: s.written
  readable : s.status ≠ .ended .readError ∧ s.status ≠ .ended .invalidMessage
  pending : s.status = .running → ∃ rest, Pending codec s rest

variable {codec : Codec} {role : Role} {ok : Bool} {s s' : Loop}

theorem init_accounted (codec : Codec) : Accounted codec init where
  inOrder := List.prefix_rfl
  readable := ⟨by decide, by decide⟩
  pending _ := ⟨[], rfl, by simp, by simp [init], by simp, rfl⟩

theorem Accounted.lossless (h : Accounted codec s) : Lossless s where
  inOrder := h.inOrder
  readable := h.readable
  complete hrun hbuf hwire := by
    obtain ⟨rest, hp⟩ := h.pending hrun
    have hrest := ((hwire ▸ hp.held).drained hbuf).2
    rw [hp.split, List.map_eq_nil_iff.mp hrest, List.append_nil]

theorem Pending.accounted (rest : List Message) (h : Pending codec s rest)
    (hrun : s.status = .running) : Accounted codec s where
  inOrder := h.split ▸ List.prefix_append _ _
  readable := by simp [hrun]
  pending _ := ⟨rest, h⟩

theorem Accounted.ended (h : Accounted codec s) (hw : s'.written = s.written)
    (hh : s'.handled = s.handled) {ending : Ending} (hs : s'.status = .ended ending)
    (he : ending ≠ .readError) (hi : ending ≠ .invalidMessage) : Accounted codec s' where
  inOrder := hh ▸ hw ▸ h.inOrder
  readable := by simp [hs, he, hi]
  pending hrun := by
    rw [hs] at hrun
    cases hrun

theorem Accounted.of_eq (h : Accounted codec s) (hw : s'.written = s.written)
    (hh : s'.handled = s.handled) (hwire : s'.wire = s.wire) (hr : s'.reader = s.reader)
    (hs : s'.status = s.status) : Accounted codec s' where
  inOrder := hh ▸ hw ▸ h.inOrder
  readable := hs ▸ h.readable
  pending hrun := by
    obtain ⟨rest, hp⟩ := h.pending (hs ▸ hrun)
    exact ⟨rest, hh ▸ hw ▸ hp.split, hp.carried, hr ▸ hwire ▸ hp.held⟩

theorem Accounted.flush (h : Accounted codec s) : Accounted codec (s.flush ok) := by
  unfold Loop.flush
  split
  · exact h
  · split
    · exact h.of_eq rfl rfl rfl rfl rfl
    · exact h.ended rfl rfl rfl (by decide) (by decide)

theorem Pending.handle {msg : Message} {rest : List Message} {reader : Lines.Reader UInt8}
    (h : Pending codec s (msg :: rest)) (hr : reader.Holds newline s.wire (rest.map codec.body)) :
    Pending codec ({ s with reader := reader }.handle msg) rest := by
  have hsplit : s.written = (s.handled ++ [msg]) ++ rest := by
    rw [h.split, List.append_assoc]
    rfl
  unfold Loop.handle
  split
  · exact ⟨hsplit, fun m hm => h.carried m (List.mem_cons_of_mem _ hm), hr⟩
  · exact ⟨hsplit, fun m hm => h.carried m (List.mem_cons_of_mem _ hm), hr⟩

theorem handle_status (msg : Message) : (s.handle msg).status = s.status := by
  unfold Loop.handle
  split
  · rfl
  · rfl

theorem Pending.onLine {msg : Message} {rest : List Message} {reader : Lines.Reader UInt8}
    (hrun : s.status = .running) (h : Pending codec s (msg :: rest))
    (hr : reader.Holds newline s.wire (rest.map codec.body)) :
    Accounted codec
      (Loop.onLine codec ok role { s with reader := reader } (codec.body msg ++ [newline])) := by
  have hc := h.carried msg List.mem_cons_self
  have hhandled : Accounted codec ({ s with reader := reader }.handle msg) :=
    (h.handle hr).accounted rest ((handle_status msg).trans hrun)
  cases role with
  | server =>
    simp only [Loop.onLine, serverLine, codec.text_line, hc.trimmed, hc.ne_empty, hc.roundTrip,
      if_false]
    exact hhandled.flush
  | client =>
    simp only [Loop.onLine, clientLine, codec.text_line, hc.trimmed, hc.roundTrip]
    split
    · split
      · exact hhandled.ended rfl rfl rfl (by decide) (by decide)
      · exact hhandled
    · exact hhandled.ended rfl rfl rfl (by decide) (by decide)
    · exact hhandled.ended rfl rfl rfl (by decide) (by decide)
    · exact hhandled

theorem Accounted.poll (h : Accounted codec s) (hrun : s.status = .running) :
    Accounted codec (pollRead codec role ok s) := by
  obtain ⟨rest, hp⟩ := h.pending hrun
  unfold pollRead
  split
  · next reader hpoll =>
    exact Pending.accounted rest ⟨hp.split, hp.carried, hp.held.poll_none hpoll⟩ hrun
  · next reader line hpoll =>
    obtain ⟨body, bodies, hbodies, rfl, hheld⟩ := hp.held.poll_some hpoll
    cases rest with
    | nil => cases hbodies
    | cons msg rest =>
      obtain ⟨rfl, rfl⟩ := List.cons.inj hbodies
      exact hp.onLine hrun hheld

theorem Accounted.eof (h : Accounted codec s) (hrun : s.status = .running) (hw : s.wire = [])
    (hb : s.reader.buffered = []) : Accounted codec (readEof codec role ok s) := by
  have hline : s.reader.line = [] := by
    obtain ⟨rest, hp⟩ := h.pending hrun
    exact ((hw ▸ hp.held).drained hb).1
  unfold readEof
  rw [if_pos hline]
  exact h.ended rfl rfl rfl (by decide) (by decide)

theorem Accounted.write (h : Accounted codec s) (hrun : s.status = .running) {msg : Message}
    (hc : codec.Carries msg) :
    Accounted codec { s with written := s.written ++ [msg], wire := s.wire ++ codec.line msg } := by
  obtain ⟨rest, hp⟩ := h.pending hrun
  refine Pending.accounted (rest ++ [msg]) ⟨?_, ?_, ?_⟩ hrun
  · dsimp only
    rw [hp.split, List.append_assoc]
  · intro m hm
    rcases List.mem_append.mp hm with hm | hm
    · exact hp.carried m hm
    · exact List.mem_singleton.mp hm ▸ hc
  · rw [List.map_append]
    exact hp.held.concat hc.noNewline

theorem Accounted.arrive (h : Accounted codec s) (hrun : s.status = .running) (n : Nat) :
    Accounted codec
      { s with reader := s.reader.fill (s.wire.take n), wire := s.wire.drop n } := by
  obtain ⟨rest, hp⟩ := h.pending hrun
  exact Pending.accounted rest ⟨hp.split, hp.carried, hp.held.fill n⟩ hrun

theorem Accounted.cancel (h : Accounted codec s) (hline : s.reader.line = []) :
    Accounted codec { s with reader := s.reader.cancel } where
  inOrder := h.inOrder
  readable := h.readable
  pending hrun := by
    obtain ⟨rest, hp⟩ := h.pending hrun
    exact ⟨rest, hp.split, hp.carried, hp.held.cancel hline⟩

theorem Accounted.step {e : LoopEvent} (h : Accounted codec s) (hu : s.Undisturbed e)
    (hc : ∀ msg, e = .write msg → codec.Carries msg) (hs : step codec role s e = some s') :
    Accounted codec s' := by
  unfold Loop.step at hs
  split at hs
  · next hrun =>
    split at hs
    · next msg =>
      cases hs
      exact h.write hrun (hc msg rfl)
    · next n =>
      cases hs
      exact h.arrive hrun n
    · cases hs
      exact h.poll hrun
    · split at hs
      · next hend =>
        cases hs
        exact h.eof hrun hend.1 hend.2
      · cases hs
    · cases hs
      exact h.of_eq rfl rfl rfl rfl rfl
    · next ok =>
      unfold sendOutbound at hs
      split at hs
      · cases hs
      · cases hs
        cases ok with
        | true => exact (h.cancel hu).of_eq rfl rfl rfl rfl rfl
        | false => exact h.ended rfl rfl rfl (by decide) (by decide)
    · next stale ok =>
      cases hs
      cases stale with
      | true => exact h.ended rfl rfl rfl (by decide) (by decide)
      | false => exact (h.cancel hu).flush
    · next expired =>
      cases hs
      cases expired with
      | true => exact h.ended rfl rfl rfl (by decide) (by decide)
      | false => exact (h.cancel hu).of_eq rfl rfl rfl rfl rfl
    · cases hs
      exact h.ended rfl rfl rfl (by decide) (by decide)
    · cases hs
  · cases hs

theorem framing_lossless_when_undisturbed (codec : Codec) (role : Role) (events : List LoopEvent)
    (hcodec : ∀ msg, .write msg ∈ events → codec.Carries msg)
    (hquiet : Machine.Along (step codec role) Undisturbed init events) :
    Machine.Always (step codec role) Lossless init events := by
  have hcond := hquiet.and_mem (Q := fun e => ∀ msg, e = .write msg → codec.Carries msg)
    (fun e he msg hm => hcodec msg (hm ▸ he))
  refine Machine.always_of_along ?_ (fun s hs => hs.lossless) (init_accounted codec) hcond
  exact fun s e s' hs hc ht => hs.step hc.1 hc.2 ht

def pingText : String := "\x7b\"type\":\"ping\"\x7d"

-- JSON of the messages that hold nothing but their type.
def typeCodec : Codec where
  toString msg := "\x7b\"type\":\"" ++ msg.ty ++ "\"\x7d"
  fromStr text := if text = pingText then some .newPing else none

theorem typeCodec_carries : typeCodec.Carries .newPing where
  noNewline := by decide +kernel
  object := ⟨"\"type\":\"ping\"", by decide +kernel⟩
  roundTrip := by decide +kernel

def quietEvents : List LoopEvent :=
  [.write .newPing, .arrive 7, .poll true, .arrive 9, .queue .newPing, .poll true, .queue .newPing,
    .outbound true, .write .newPing, .arrive 16, .poll true]

theorem split_lines_handled :
    (Machine.run (step typeCodec .server) init quietEvents).map Loop.handled =
      some [.newPing, .newPing] ∧
    Machine.Always (step typeCodec .server) Lossless init quietEvents := by
  refine ⟨by decide +kernel, ?_⟩
  refine framing_lossless_when_undisturbed typeCodec .server quietEvents ?_ (by decide +kernel)
  intro msg hmsg
  have : msg = .newPing := by simpa [quietEvents] using hmsg
  exact this ▸ typeCodec_carries

def outboundMidLine : List LoopEvent :=
  [.write .newPing, .arrive 7, .poll true, .queue .newPing, .outbound true, .arrive 9, .poll true]

def tickMidLine : List LoopEvent :=
  [.write .newPing, .arrive 7, .poll true, .tick false, .arrive 9, .poll true]

theorem interrupted_line_lost :
    (∃ s, Machine.run (step typeCodec .server) init outboundMidLine = some s ∧
      s.status = .running ∧ s.written = [.newPing] ∧ s.handled = [] ∧ ¬Lossless s) ∧
    ∃ s, Machine.run (step typeCodec .client) init tickMidLine = some s ∧
      s.status = .ended .invalidMessage ∧ s.handled = [] ∧ ¬Lossless s := by
  have hserver : (Machine.run (step typeCodec .server) init outboundMidLine).map
      (fun s => (s.status, s.written, s.handled, s.reader.buffered, s.wire)) =
      some (.running, [.newPing], [], [], []) := by decide +kernel
  have hclient : (Machine.run (step typeCodec .client) init tickMidLine).map
      (fun s => (s.status, s.handled)) = some (.ended .invalidMessage, []) := by decide +kernel
  obtain ⟨s, hs, hfields⟩ := Option.map_eq_some_iff.mp hserver
  obtain ⟨t, ht, hended⟩ := Option.map_eq_some_iff.mp hclient
  simp only [Prod.mk.injEq] at hfields hended
  obtain ⟨hrun, hw, hh, hb, hwire⟩ := hfields
  refine ⟨⟨s, hs, hrun, hw, hh, fun hl => ?_⟩, t, ht, hended.1, hended.2, fun hl => ?_⟩
  · have := hl.complete hrun hb hwire
    rw [hh, hw] at this
    cases this
  · exact hl.readable.2 hended.1

end Loop

end Cross233.Control
