import Cross233.Qcp.Endpoint

namespace Cross233.Qcp

def flushThreshold : Nat := 64 * 1024

def scratch : Nat := 1 <<< 20

inductive WriteOp where
  | pollWrite (buf : Bytes)
  | pollFlush
  deriving DecidableEq

-- One direction between two stream ends. The connection keeps what it accepts in order and
-- hands each message over once; the last three fields only record what the callers saw.
structure QcpStream where
  writeBuf : Bytes
  writer : List Bytes
  bridged : Bool
  conn : List Bytes
  reader : List Bytes
  readBuf : Bytes
  accepted : Bytes
  read : Bytes
  failed : Bool
  deriving DecidableEq

inductive StreamEvent where
  | call (op : WriteOp)
  | sendStream
  | recv
  | pollRead (remaining : Nat)
  deriving DecidableEq

def StreamEvent.writeOp : StreamEvent → Option WriteOp
  | .call op => some op
  | .sendStream => none
  | .recv => none
  | .pollRead _ => none

namespace QcpStream

def new : QcpStream := ⟨[], [], true, [], [], [], [], [], false⟩

-- A failed send loses the buffer: it was taken before the send.
def sendBuffered (s : QcpStream) : QcpStream :=
  if s.bridged then { s with writer := s.writer ++ [s.writeBuf], writeBuf := [] }
  else { s with writeBuf := [], failed := true }

def pollWrite (s : QcpStream) (buf : Bytes) : QcpStream :=
  let s := { s with writeBuf := s.writeBuf ++ buf }
  if s.writeBuf.length < flushThreshold then { s with accepted := s.accepted ++ buf }
  else if s.bridged then { s.sendBuffered with accepted := s.accepted ++ buf }
  else s.sendBuffered

def pollFlush (s : QcpStream) : QcpStream :=
  if s.writeBuf = [] then s else s.sendBuffered

def apply (s : QcpStream) : WriteOp → QcpStream
  | .pollWrite buf => s.pollWrite buf
  | .pollFlush => s.pollFlush

def sendNext (s : QcpStream) (stream : Stream) : Option QcpStream :=
  match s.writer with
  | [] => none
  | b :: writer =>
    match sendStream b stream with
    | .error _ => some { s with bridged := false, writer := [] }
    | .ok none => some { s with writer := writer }
    | .ok (some call) => some { s with writer := writer, conn := s.conn ++ [call.data] }

def recv (s : QcpStream) : Option QcpStream :=
  match s.conn with
  | [] => none
  | msg :: conn =>
    let received := msg.take scratch
    if 0 < received.length then some { s with conn := conn, reader := s.reader ++ [received] }
    else some { s with conn := conn }

def fill (s : QcpStream) : QcpStream :=
  match s.readBuf, s.reader with
  | [], data :: reader => { s with readBuf := data, reader := reader }
  | _, _ => s

def pollRead (s : QcpStream) (remaining : Nat) : QcpStream :=
  let s := s.fill
  let n := min remaining s.readBuf.length
  { s with read := s.read ++ s.readBuf.take n, readBuf := s.readBuf.drop n }

def step (stream : Stream) (s : QcpStream) : StreamEvent → Option QcpStream
  | .call op => some (s.apply op)
  | .sendStream => s.sendNext stream
  | .recv => s.recv
  | .pollRead remaining => some (s.pollRead remaining)

structure Drained (s : QcpStream) : Prop where
  writeBuf : s.writeBuf = []
  writer : s.writer = []
  conn : s.conn = []
  reader : s.reader = []
  readBuf : s.readBuf = []

structure Faithful (s : QcpStream) : Prop where
  inOrder : s.read <+: s.accepted
  complete : s.failed = false → Drained s → s.read = s.accepted

def pendingAfter (n : Nat) : WriteOp → Nat
  | .pollWrite buf => if n + buf.length < flushThreshold then n + buf.length else 0
  | .pollFlush => 0

def fits (n : Nat) : List WriteOp → Bool
  | [] => true
  | .pollWrite buf :: ops => n + buf.length ≤ scratch && fits (pendingAfter n (.pollWrite buf)) ops
  | .pollFlush :: ops => fits 0 ops

def opFits (s : QcpStream) : StreamEvent → Bool
  | .call (.pollWrite buf) => s.writeBuf.length + buf.length ≤ scratch
  | _ => true

variable {stream : Stream} {s s' : QcpStream}

theorem apply_pending (s : QcpStream) (op : WriteOp) :
    (s.apply op).writeBuf.length = pendingAfter s.writeBuf.length op := by
  have hsent (t : QcpStream) : t.sendBuffered.writeBuf = [] := by
    unfold sendBuffered
    split <;> rfl
  cases op with
  | pollWrite buf =>
    simp only [apply, pollWrite, pendingAfter, List.length_append]
    split
    · exact List.length_append
    · split <;> rw [hsent] <;> rfl
  | pollFlush =>
    simp only [apply, pollFlush, pendingAfter]
    split
    · next h => rw [h]; rfl
    · rw [hsent]; rfl

theorem sendNext_writeBuf (h : s.sendNext stream = some s') : s'.writeBuf = s.writeBuf := by
  unfold sendNext at h
  split at h
  · cases h
  · split at h <;> cases h <;> rfl

theorem recv_writeBuf (h : s.recv = some s') : s'.writeBuf = s.writeBuf := by
  unfold recv at h
  split at h
  · cases h
  · dsimp only at h
    split at h <;> cases h <;> rfl

theorem fill_writeBuf (s : QcpStream) : s.fill.writeBuf = s.writeBuf := by
  unfold fill
  split <;> rfl

theorem step_pending {e : StreamEvent} (h : s.step stream e = some s') :
    s'.writeBuf.length = (e.writeOp.map (pendingAfter s.writeBuf.length)).getD
      s.writeBuf.length := by
  cases e with
  | call op =>
    cases h
    exact apply_pending s op
  | sendStream => rw [sendNext_writeBuf h]; rfl
  | recv => rw [recv_writeBuf h]; rfl
  | pollRead remaining =>
    cases h
    exact congrArg List.length (fill_writeBuf s)

theorem fits_cons {n : Nat} (op : WriteOp) {ops : List WriteOp} (h : fits n (op :: ops) = true) :
    fits (pendingAfter n op) ops = true ∧
      ∀ buf, op = .pollWrite buf → n + buf.length ≤ scratch := by
  cases op with
  | pollWrite buf =>
    rw [fits, Bool.and_eq_true, decide_eq_true_eq] at h
    refine ⟨h.2, fun b hb => ?_⟩
    cases hb
    exact h.1
  | pollFlush => exact ⟨h, fun b hb => by cases hb⟩

theorem along_of_fits {events : List StreamEvent}
    (h : fits s.writeBuf.length (events.filterMap StreamEvent.writeOp) = true) :
    Machine.Along (step stream) (fun s e => s.opFits e = true) s events := by
  induction events generalizing s with
  | nil => trivial
  | cons e events ih =>
    cases e with
    | call op =>
      obtain ⟨hrest, hfits⟩ := fits_cons op h
      refine ⟨?_, fun t ht => ih ?_⟩
      · cases op with
        | pollWrite buf => exact decide_eq_true (hfits buf rfl)
        | pollFlush => rfl
      · rw [step_pending ht]
        exact hrest
    | sendStream | recv | pollRead =>
      refine ⟨rfl, fun t ht => ih ?_⟩
      rw [step_pending ht]
      exact h

structure Carried (s : QcpStream) : Prop where
  bridged : s.bridged = true
  conserved : s.accepted =
    s.read ++ s.readBuf ++ s.reader.flatten ++ s.conn.flatten ++ s.writer.flatten ++ s.writeBuf
  messages : ∀ m ∈ s.conn ++ s.writer, m.length ≤ scratch
  buffered : s.writeBuf.length < flushThreshold

theorem Carried.faithful (h : Carried s) : Faithful s where
  inOrder := by
    rw [h.conserved]
    simp only [List.append_assoc]
    exact List.prefix_append _ _
  complete _ hd := by
    rw [h.conserved, hd.writeBuf, hd.writer, hd.conn, hd.reader, hd.readBuf]
    simp

theorem Carried.sendBuffered (h : Carried s) (buf : Bytes)
    (hlen : s.writeBuf.length + buf.length ≤ scratch) :
    Carried { QcpStream.sendBuffered { s with writeBuf := s.writeBuf ++ buf } with
      accepted := s.accepted ++ buf } := by
  simp only [QcpStream.sendBuffered, h.bridged, if_true]
  refine ⟨rfl, ?_, fun m hm => ?_, (by decide : 0 < flushThreshold)⟩
  · dsimp only
    rw [h.conserved]
    simp
  · rw [← List.append_assoc] at hm
    rcases List.mem_append.mp hm with hm | hm
    · exact h.messages m hm
    · rw [List.mem_singleton.mp hm, List.length_append]
      exact hlen

theorem Carried.pollWrite (h : Carried s) {buf : Bytes}
    (hlen : s.writeBuf.length + buf.length ≤ scratch) : Carried (s.pollWrite buf) := by
  unfold QcpStream.pollWrite
  dsimp only
  split
  · next hshort =>
    refine ⟨h.bridged, ?_, h.messages, hshort⟩
    dsimp only
    rw [h.conserved]
    simp
  · rw [if_pos h.bridged]
    exact h.sendBuffered _ hlen

theorem Carried.pollFlush (h : Carried s) : Carried s.pollFlush := by
  unfold QcpStream.pollFlush
  split
  · exact h
  · have hsent := h.sendBuffered [] (by
      have hbound := h.buffered
      have hle : flushThreshold ≤ scratch := by decide
      simp only [List.length_nil]
      omega)
    simpa [QcpStream.sendBuffered, h.bridged] using hsent

theorem sendStream_fits {data : Bytes} (h : data.length ≤ maxMessage) (stream : Stream) :
    sendStream data stream = .ok none ∧ data = [] ∨
      ∃ call, sendStream data stream = .ok (some call) ∧ call.data = data := by
  unfold sendStream
  rw [if_neg (Nat.not_lt.mpr h)]
  split
  · next hempty => exact Or.inl ⟨rfl, List.isEmpty_iff.mp hempty⟩
  · exact Or.inr ⟨_, rfl, rfl⟩

theorem scratch_le_maxMessage : scratch ≤ maxMessage := by decide

theorem Carried.sendNext (h : Carried s) (hs : s.sendNext stream = some s') : Carried s' := by
  unfold QcpStream.sendNext at hs
  split at hs
  · cases hs
  · next b writer hw =>
    have hb : b.length ≤ scratch := h.messages b (by simp [hw])
    have hmessages (m : Bytes) (hm : m ∈ s.conn ++ writer) : m.length ≤ scratch := by
      refine h.messages m ?_
      simp only [hw, List.mem_append, List.mem_cons] at hm ⊢
      exact hm.imp id Or.inr
    rcases sendStream_fits (hb.trans scratch_le_maxMessage) stream with
      ⟨hsend, rfl⟩ | ⟨call, hsend, hdata⟩
    · rw [hsend] at hs
      cases hs
      refine ⟨h.bridged, ?_, hmessages, h.buffered⟩
      simp [h.conserved, hw]
    · rw [hsend] at hs
      cases hs
      refine ⟨h.bridged, ?_, fun m hm => h.messages m ?_, h.buffered⟩
      · simp [h.conserved, hw, hdata]
      · simpa [hw, hdata] using hm

theorem Carried.recv (h : Carried s) (hs : s.recv = some s') : Carried s' := by
  unfold QcpStream.recv at hs
  split at hs
  · cases hs
  · next msg conn hc =>
    have hmsg : msg.take scratch = msg := List.take_of_length_le (h.messages msg (by simp [hc]))
    have hmessages (m : Bytes) (hm : m ∈ conn ++ s.writer) : m.length ≤ scratch :=
      h.messages m (by rw [hc]; exact List.mem_cons_of_mem _ hm)
    simp only [hmsg] at hs
    split at hs
    · cases hs
      refine ⟨h.bridged, ?_, hmessages, h.buffered⟩
      simp [h.conserved, hc]
    · next hempty =>
      have hnil : msg = [] := List.length_eq_zero_iff.mp (Nat.eq_zero_of_not_pos hempty)
      cases hs
      refine ⟨h.bridged, ?_, hmessages, h.buffered⟩
      simp [h.conserved, hc, hnil]

theorem Carried.fill (h : Carried s) : Carried s.fill := by
  unfold QcpStream.fill
  split
  · next data reader hbuf hreader =>
    refine ⟨h.bridged, ?_, h.messages, h.buffered⟩
    simp [h.conserved, hbuf, hreader]
  · exact h

theorem Carried.pollRead (h : Carried s) (remaining : Nat) : Carried (s.pollRead remaining) := by
  have hf := h.fill
  refine ⟨hf.bridged, ?_, hf.messages, hf.buffered⟩
  have hread (n : Nat) : s.fill.read ++ s.fill.readBuf.take n ++ s.fill.readBuf.drop n =
      s.fill.read ++ s.fill.readBuf := by
    rw [List.append_assoc, List.take_append_drop]
  dsimp only [QcpStream.pollRead]
  rw [hf.conserved, hread]

theorem Carried.step (h : Carried s) {e : StreamEvent} (hfits : s.opFits e = true)
    (hs : s.step stream e = some s') : Carried s' := by
  cases e with
  | call op =>
    cases hs
    cases op with
    | pollWrite buf => exact h.pollWrite (of_decide_eq_true hfits)
    | pollFlush => exact h.pollFlush
  | sendStream => exact h.sendNext hs
  | recv => exact h.recv hs
  | pollRead remaining =>
    cases hs
    exact h.pollRead remaining

theorem new_carried : Carried new := ⟨rfl, rfl, by simp [new], by decide⟩

theorem faithful_of_fits {ops : List WriteOp} (h : fits 0 ops = true) {events : List StreamEvent}
    (hops : events.filterMap StreamEvent.writeOp = ops) :
    Machine.Always (step stream) Faithful new events := by
  refine Machine.always_of_along (I := Carried) ?_ ?_ new_carried
    (along_of_fits (s := new) (hops ▸ h))
  · exact fun s e s' hc hf hs => hc.step hf hs
  · exact fun s hc => hc.faithful

-- What the other direction needs: writes alone leave everything in the writer's queue.
structure Unsent (s : QcpStream) : Prop where
  bridged : s.bridged = true
  intact : s.failed = false
  conn : s.conn = []
  reader : s.reader = []
  readBuf : s.readBuf = []
  read : s.read = []
  conserved : s.accepted = s.writer.flatten ++ s.writeBuf

theorem Unsent.apply (h : Unsent s) (op : WriteOp) : Unsent (s.apply op) := by
  cases op with
  | pollWrite buf =>
    simp only [QcpStream.apply, QcpStream.pollWrite]
    split
    · refine ⟨h.bridged, h.intact, h.conn, h.reader, h.readBuf, h.read, ?_⟩
      simp [h.conserved]
    · rw [if_pos h.bridged]
      simp only [QcpStream.sendBuffered, h.bridged, if_true]
      refine ⟨rfl, h.intact, h.conn, h.reader, h.readBuf, h.read, ?_⟩
      simp [h.conserved]
  | pollFlush =>
    simp only [QcpStream.apply, QcpStream.pollFlush]
    split
    · exact h
    · simp only [QcpStream.sendBuffered, h.bridged, if_true]
      refine ⟨rfl, h.intact, h.conn, h.reader, h.readBuf, h.read, ?_⟩
      simp [h.conserved]

def carriedLength : List Bytes → Nat
  | [] => 0
  | m :: messages => min m.length scratch + carriedLength messages

theorem carriedLength_lt {messages : List Bytes} {m : Bytes} (h : scratch < m.length) :
    carriedLength (messages ++ [m]) < (messages ++ [m]).flatten.length := by
  induction messages with
  | nil => simp [carriedLength, h]
  | cons m' messages ih =>
    rw [List.cons_append, List.flatten_cons, List.length_append]
    exact Nat.add_lt_add_of_le_of_lt (Nat.min_le_left _ _) ih

structure Idle (s : QcpStream) : Prop where
  conn : s.conn = []
  reader : s.reader = []
  readBuf : s.readBuf = []

def exchange : List StreamEvent := [.sendStream, .recv, .pollRead scratch]

theorem exchange_run (h : Idle s) {m : Bytes} {writer : List Bytes} (hw : s.writer = m :: writer)
    (hm : m ≠ []) (hsize : m.length ≤ maxMessage) :
    Machine.run (step stream) s exchange =
      some { s with writer := writer, read := s.read ++ m.take scratch } := by
  have hscratch : 0 < scratch := by decide
  have hpos : 0 < (m.take scratch).length := by
    rw [List.length_take]
    exact Nat.lt_min.mpr ⟨hscratch, List.length_pos_of_ne_nil hm⟩
  have hread : min scratch (m.take scratch).length = (m.take scratch).length :=
    Nat.min_eq_right (List.length_take_le _ _)
  rcases sendStream_fits hsize stream with ⟨-, hnil⟩ | ⟨call, hsend, hdata⟩
  · exact absurd hnil hm
  · have hsent : s.sendNext stream = some { s with writer := writer, conn := [m] } := by
      simp [QcpStream.sendNext, hw, hsend, hdata, h.conn]
    have hreceived : QcpStream.recv { s with writer := writer, conn := [m] } =
        some { s with writer := writer, reader := [m.take scratch] } := by
      simp only [QcpStream.recv, if_pos hpos, h.reader, List.nil_append, h.conn]
    have hpolled :
        QcpStream.pollRead { s with writer := writer, reader := [m.take scratch] } scratch =
          { s with writer := writer, read := s.read ++ m.take scratch } := by
      simp only [QcpStream.pollRead, QcpStream.fill, h.readBuf, hread, List.take_length,
        List.drop_length, h.reader]
    simp only [exchange, Machine.run, QcpStream.step, hsent, hreceived, Option.bind_some, hpolled]

theorem drain_run (stream : Stream) (messages : List Bytes) (h : Idle s)
    (hw : s.writer = messages) :
    ∃ events t, events.filterMap StreamEvent.writeOp = [] ∧
      Machine.run (step stream) s events = some t ∧ Idle t ∧ t.writer = [] ∧
      t.writeBuf = s.writeBuf ∧ t.accepted = s.accepted ∧ t.failed = s.failed ∧
      t.read.length ≤ s.read.length + carriedLength messages := by
  induction messages generalizing s with
  | nil => exact ⟨[], s, rfl, rfl, h, hw, rfl, rfl, rfl, Nat.le_refl _⟩
  | cons m messages ih =>
    by_cases hsize : m.length ≤ maxMessage
    · by_cases hm : m = []
      · have hsent : s.sendNext stream = some { s with writer := messages } := by
          simp [QcpStream.sendNext, hw, hm, sendStream]
        obtain ⟨events, t, hops, hrun, hidle, hwriter, hbuf, hacc, hfailed, hlen⟩ :=
          ih (s := { s with writer := messages }) ⟨h.conn, h.reader, h.readBuf⟩ rfl
        refine ⟨.sendStream :: events, t, hops, ?_, hidle, hwriter, hbuf, hacc, hfailed, ?_⟩
        · exact Option.bind_eq_some_iff.mpr ⟨_, hsent, hrun⟩
        · rw [carriedLength]
          exact hlen.trans (Nat.add_le_add_left (Nat.le_add_left _ _) _)
      · obtain ⟨events, t, hops, hrun, hidle, hwriter, hbuf, hacc, hfailed, hlen⟩ :=
          ih (s := { s with writer := messages, read := s.read ++ m.take scratch })
            ⟨h.conn, h.reader, h.readBuf⟩ rfl
        refine ⟨exchange ++ events, t, hops, ?_, hidle, hwriter, hbuf, hacc, hfailed, ?_⟩
        · rw [Machine.run_append, exchange_run h hw hm hsize]
          exact hrun
        · rw [carriedLength]
          rw [List.length_append, List.length_take, Nat.min_comm] at hlen
          omega
    · have hsent : s.sendNext stream = some { s with bridged := false, writer := [] } := by
        simp [QcpStream.sendNext, hw, sendStream, Nat.not_le.mp hsize]
      refine ⟨[.sendStream], _, rfl, Option.bind_eq_some_iff.mpr ⟨_, hsent, rfl⟩,
        ⟨h.conn, h.reader, h.readBuf⟩, rfl, rfl, rfl, rfl, Nat.le_add_right _ _⟩

theorem writes_run (ops : List WriteOp) (s : QcpStream) :
    Machine.run (step stream) s (ops.map .call) = some (ops.foldl apply s) := by
  induction ops generalizing s with
  | nil => rfl
  | cons op ops ih => exact ih (s.apply op)

theorem writes_unsent (ops : List WriteOp) (h : Unsent s) : Unsent (ops.foldl apply s) := by
  induction ops generalizing s with
  | nil => exact h
  | cons op ops ih => exact ih (h.apply op)

theorem writes_pending (ops : List WriteOp) (s : QcpStream) :
    (ops.foldl apply s).writeBuf.length = ops.foldl pendingAfter s.writeBuf.length := by
  induction ops generalizing s with
  | nil => rfl
  | cons op ops ih =>
    rw [List.foldl_cons, ih, apply_pending]
    rfl

theorem writes_ops (ops : List WriteOp) :
    (ops.map StreamEvent.call).filterMap StreamEvent.writeOp = ops := by
  rw [List.filterMap_map]
  exact List.filterMap_some

theorem overflowing_write {ops : List WriteOp} {n : Nat} (h : fits n ops = false) :
    ∃ before buf after, ops = before ++ .pollWrite buf :: after ∧
      scratch < before.foldl pendingAfter n + buf.length := by
  induction ops generalizing n with
  | nil => cases h
  | cons op ops ih =>
    have hlater (hrest : fits (pendingAfter n op) ops = false) :
        ∃ before buf after, op :: ops = before ++ .pollWrite buf :: after ∧
          scratch < before.foldl pendingAfter n + buf.length := by
      obtain ⟨before, buf, after, rfl, hlen⟩ := ih hrest
      exact ⟨op :: before, buf, after, rfl, hlen⟩
    cases op with
    | pollWrite buf =>
      rw [fits, Bool.and_eq_false_iff, decide_eq_false_iff_not] at h
      rcases h with h | h
      · exact ⟨[], buf, ops, rfl, Nat.not_le.mp h⟩
      · exact hlater h
    | pollFlush => exact hlater h

theorem pollWrite_sends (h : Unsent s) {buf : Bytes}
    (hlen : scratch < s.writeBuf.length + buf.length) :
    (s.pollWrite buf).writer = s.writer ++ [s.writeBuf ++ buf] ∧
      (s.pollWrite buf).writeBuf = [] := by
  have hlong : ¬s.writeBuf.length + buf.length < flushThreshold := by
    have hle : flushThreshold ≤ scratch := by decide
    omega
  simp [QcpStream.pollWrite, hlong, h.bridged, QcpStream.sendBuffered]

theorem new_unsent : Unsent new := ⟨rfl, rfl, rfl, rfl, rfl, rfl, rfl⟩

theorem unfaithful_of_overflow {ops : List WriteOp} (h : fits 0 ops = false) (stream : Stream) :
    ∃ events, events.filterMap StreamEvent.writeOp = ops ∧
      ¬Machine.Always (step stream) Faithful new events := by
  obtain ⟨before, buf, after, rfl, hlen⟩ := overflowing_write h
  let s := before.foldl apply new
  have hs : Unsent s := writes_unsent before new_unsent
  have hwrite : Unsent (s.pollWrite buf) := hs.apply (.pollWrite buf)
  have hpending : scratch < s.writeBuf.length + buf.length :=
    (writes_pending before new).symm ▸ hlen
  obtain ⟨hwriter, hbuf⟩ := pollWrite_sends hs hpending
  obtain ⟨events, t, hops, hrun, hidle, hdone, htbuf, hacc, hfailed, hread⟩ :=
    drain_run stream _ ⟨hwrite.conn, hwrite.reader, hwrite.readBuf⟩ hwriter
  refine ⟨before.map .call ++ .call (.pollWrite buf) :: events ++ after.map .call, ?_, ?_⟩
  · simp only [List.filterMap_append, writes_ops, List.filterMap_cons, StreamEvent.writeOp, hops]
    simp
  · intro halways
    have hreach : Machine.run (step stream) new
        (before.map .call ++ .call (.pollWrite buf) :: events) = some t := by
      rw [Machine.run_append, writes_run]
      exact hrun
    have hfaithful := halways.run hreach
    have hdrained : Drained t :=
      ⟨htbuf.trans hbuf, hdone, hidle.conn, hidle.reader, hidle.readBuf⟩
    have hall := hfaithful.complete (hfailed.trans hwrite.intact) hdrained
    -- Everything accepted is in the writer's queue, and one message of it is cut short.
    have hcut : carriedLength (s.writer ++ [s.writeBuf ++ buf]) <
        (s.writer ++ [s.writeBuf ++ buf]).flatten.length := by
      refine carriedLength_lt ?_
      rw [List.length_append]
      exact hpending
    rw [hall, hacc, hwrite.conserved, hwrite.read, hwriter, hbuf, List.append_nil,
      List.length_nil, Nat.zero_add] at hread
    exact absurd hread (Nat.not_le.mpr hcut)

theorem byte_stream_faithful_iff (stream : Stream) (ops : List WriteOp) :
    (∀ events, events.filterMap StreamEvent.writeOp = ops →
      Machine.Always (step stream) Faithful new events) ↔ fits 0 ops = true := by
  constructor
  · intro h
    by_contra hfits
    obtain ⟨events, hops, hnot⟩ := unfaithful_of_overflow (Bool.eq_false_iff.mpr hfits) stream
    exact hnot (h events hops)
  · exact fun h events hops => faithful_of_fits h hops

theorem large_write_cut_short :
    ∃ events, events.filterMap StreamEvent.writeOp =
        [.pollWrite (List.replicate (scratch + 1) 0), .pollFlush] ∧
      ¬Machine.Always (step .batch) Faithful new events := by
  refine unfaithful_of_overflow ?_ .batch
  simp [fits]

end QcpStream

end Cross233.Qcp
