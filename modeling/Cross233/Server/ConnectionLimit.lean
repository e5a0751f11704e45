import Cross233.Library.Machine
import Cross233.Library.Slots
import Cross233.Server.Inbound

namespace Cross233.Server

open Protocol RelayState

inductive EntryPoint where
  | direct
  | qcp
  | httpVhost
  | httpsVhost
  | tcpmux
  deriving DecidableEq

inductive ConnPhase where
  | found
  | admitted
  | relaying
  | leaving
  | closed
  deriving DecidableEq

structure ConnTask where
  point : EntryPoint
  entry : Nat
  phase : ConnPhase
  deriving DecidableEq

-- One service over its registrations: the entries made for it are numbered, each with its own
-- counter, and `current` is the one under the service's name.
structure LimitState where
  current : Option Nat
  made : Nat
  currentConns : Nat → Nat
  tasks : List ConnTask

inductive LimitEvent where
  | register
  | disconnect
  | arrive (point : EntryPoint)
  | refuse (task : Nat)
  | load (task : Nat)
  | fetchAdd (task : Nat)
  | relay (task : Nat)
  | finish (task : Nat)
  | fetchSub (task : Nat)

namespace EntryPoint

def serves (svc : Service) : EntryPoint → Bool
  | direct => svc.remotePort ≠ 0
  | qcp => isQcp svc
  | httpVhost | httpsVhost | tcpmux => svc.host.isSome || svc.subdomain.isSome

def counts : EntryPoint → Bool
  | direct | qcp => true
  | httpVhost | httpsVhost | tcpmux => false

end EntryPoint

namespace LimitState

def fresh : LimitState := ⟨none, 0, fun _ => 0, []⟩

def enter (s : LimitState) (i : Nat) (task : ConnTask) (phase : ConnPhase) : LimitState :=
  { s with tasks := s.tasks.set i { task with phase := phase } }

def setConns (s : LimitState) (entry conns : Nat) : LimitState :=
  { s with currentConns := Function.update s.currentConns entry conns }

def register (s : LimitState) : LimitState :=
  { s with
    current := some s.made
    made := s.made + 1
    currentConns := Function.update s.currentConns s.made 0 }

def step (svc : Service) (s : LimitState) : LimitEvent → Option LimitState
  | .register => some s.register
  | .disconnect => some { s with current := none }
  | .arrive point => do
    let entry ← s.current
    if point.serves svc then some { s with tasks := s.tasks ++ [⟨point, entry, .found⟩] }
    else none
  | .refuse i => do
    let task ← s.tasks[i]?
    if task.phase = .found then some (s.enter i task .closed) else none
  | .load i => do
    let task ← s.tasks[i]?
    if task.point = .direct ∧ task.phase = .found then
      if hasRoom svc (s.currentConns task.entry) then some (s.enter i task .admitted)
      else some (s.enter i task .closed)
    else none
  -- The direct port has checked the counter before, a QCP connection never does.
  | .fetchAdd i => do
    let task ← s.tasks[i]?
    if task.point = .direct ∧ task.phase = .admitted ∨
        task.point = .qcp ∧ task.phase = .found then
      some ((s.enter i task .relaying).setConns task.entry (s.currentConns task.entry + 1))
    else none
  | .relay i => do
    let task ← s.tasks[i]?
    if task.point.counts = false ∧ task.phase = .found then some (s.enter i task .relaying)
    else none
  | .finish i => do
    let task ← s.tasks[i]?
    if task.phase = .relaying then
      some (s.enter i task (if task.point.counts then .leaving else .closed))
    else none
  | .fetchSub i => do
    let task ← s.tasks[i]?
    if task.phase = .leaving then
      some ((s.enter i task .closed).setConns task.entry (s.currentConns task.entry - 1))
    else none

def relayed (s : LimitState) : Nat := s.tasks.countP (·.phase = .relaying)

def Limited (svc : Service) (s : LimitState) : Prop := s.relayed ≤ svc.maxConnections.toNat

-- No connection is checked while another one stands between its check and its count, none is
-- relayed without a check, and the service is registered anew only when none is left.
def Orderly (s : LimitState) : LimitEvent → Prop
  | .register => ∀ task ∈ s.tasks, task.phase = .leaving ∨ task.phase = .closed
  | .load _ => ∀ task ∈ s.tasks, task.phase ≠ .admitted
  | .fetchAdd i => ∀ task, s.tasks[i]? = some task → task.phase = .admitted
  | .relay _ => False
  | _ => True

instance decidableOrderly (s : LimitState) : ∀ event, Decidable (s.Orderly event)
  | .register => inferInstanceAs (Decidable (∀ task ∈ s.tasks, _))
  | .load _ => inferInstanceAs (Decidable (∀ task ∈ s.tasks, _))
  | .fetchAdd i => inferInstanceAs (Decidable (∀ task, s.tasks[i]? = some task → _))
  | .relay _ => .isFalse id
  | .disconnect | .arrive _ | .refuse _ | .finish _ | .fetchSub _ => .isTrue trivial

@[simp] theorem enter_currentConns (s : LimitState) (i : Nat) (task : ConnTask)
    (phase : ConnPhase) : (s.enter i task phase).currentConns = s.currentConns := rfl

end LimitState

namespace ConnTask

def inside (entry : Nat) (task : ConnTask) : Bool :=
  task.entry = entry && (task.phase = .relaying || task.phase = .leaving)

def waiting (entry : Nat) (task : ConnTask) : Bool :=
  task.entry = entry && task.phase = .admitted

def Live (task : ConnTask) : Prop := task.phase ≠ .leaving ∧ task.phase ≠ .closed

end ConnTask

structure Counted (svc : Service) (s : LimitState) : Prop where
  current : ∀ entry, s.current = some entry → entry + 1 = s.made
  made : ∀ task ∈ s.tasks, task.entry < s.made
  newest : ∀ task ∈ s.tasks, task.Live → task.entry + 1 = s.made
  direct : ∀ task ∈ s.tasks, task.phase = .relaying → task.point = .direct
  counter : ∀ entry, s.currentConns entry = s.tasks.countP (ConnTask.inside entry)
  room : ∀ entry, s.currentConns entry + s.tasks.countP (ConnTask.waiting entry) ≤
    svc.maxConnections.toNat

namespace Counted

variable {svc : Service} {s : LimitState} {i : Nat} {task : ConnTask} {phase : ConnPhase}
  {conns : Nat → Nat}

theorem fresh (svc : Service) : Counted svc .fresh where
  current := by rintro entry ⟨⟩
  made := by rintro task ⟨⟩
  newest := by rintro task ⟨⟩
  direct := by rintro task ⟨⟩
  counter := fun _ => rfl
  room := fun _ => Nat.zero_le _

theorem limited (h : Counted svc s) : s.Limited svc := by
  have hinside : s.relayed ≤ s.tasks.countP (ConnTask.inside (s.made - 1)) := by
    refine List.countP_mono_left fun task htask hphase => ?_
    have hphase : task.phase = .relaying := of_decide_eq_true hphase
    have hentry := h.newest task htask (by simp [ConnTask.Live, hphase])
    simp [ConnTask.inside, hphase]
    omega
  have hcounter := h.counter (s.made - 1)
  have hroom := h.room (s.made - 1)
  unfold LimitState.Limited
  omega

theorem enter (h : Counted svc s) (hi : s.tasks[i]? = some task)
    (hlive : ({ task with phase := phase } : ConnTask).Live → task.Live)
    (hdirect : phase = .relaying → task.point = .direct)
    (hcounter : ∀ entry, conns entry + (task.inside entry).toNat =
      s.currentConns entry + (ConnTask.inside entry { task with phase := phase }).toNat)
    (hroom : ∀ entry, conns entry + (s.tasks.set i { task with phase := phase }).countP
      (ConnTask.waiting entry) ≤ svc.maxConnections.toNat) :
    Counted svc { s.enter i task phase with currentConns := conns } := by
  have hmem : task ∈ s.tasks := List.mem_of_getElem? hi
  refine ⟨h.current, fun t ht => ?_, fun t ht hl => ?_, fun t ht hr => ?_, fun entry => ?_, hroom⟩
  · rcases List.mem_or_eq_of_mem_set ht with ht | rfl
    · exact h.made t ht
    · exact h.made task hmem
  · rcases List.mem_or_eq_of_mem_set ht with ht | rfl
    · exact h.newest t ht hl
    · exact h.newest task hmem (hlive hl)
  · rcases List.mem_or_eq_of_mem_set ht with ht | rfl
    · exact h.direct t ht hr
    · exact hdirect hr
  · have hset := Slots.countP_set_add hi (ConnTask.inside entry) { task with phase := phase }
    have hexact := h.counter entry
    have hnext := hcounter entry
    show conns entry = (s.tasks.set i _).countP _
    omega

theorem move (h : Counted svc s) (hi : s.tasks[i]? = some task)
    (hlive : ({ task with phase := phase } : ConnTask).Live → task.Live)
    (hdirect : phase = .relaying → task.point = .direct)
    (hcounter : ∀ entry, conns entry + (task.inside entry).toNat =
      s.currentConns entry + (ConnTask.inside entry { task with phase := phase }).toNat)
    (hroom : ∀ entry,
      conns entry + (ConnTask.waiting entry { task with phase := phase }).toNat ≤
        s.currentConns entry + (task.waiting entry).toNat) :
    Counted svc { s.enter i task phase with currentConns := conns } := by
  refine h.enter hi hlive hdirect hcounter fun entry => ?_
  have hset := Slots.countP_set_add hi (ConnTask.waiting entry) { task with phase := phase }
  have hbefore := h.room entry
  have hnext := hroom entry
  omega

theorem register (h : Counted svc s) (ho : s.Orderly .register) : Counted svc s.register := by
  have hgone (p : ConnTask → Bool) (hp : ∀ task, p task = true → task.entry = s.made) :
      s.tasks.countP p = 0 :=
    List.countP_eq_zero.mpr fun task ht hpt => (h.made task ht).ne (hp task hpt)
  have hentry (entry : Nat) : s.register.currentConns entry = s.currentConns entry := by
    show Function.update s.currentConns s.made 0 entry = s.currentConns entry
    by_cases he : entry = s.made
    · subst he
      rw [Function.update_self, h.counter, hgone _ fun task ht => by simp_all [ConnTask.inside]]
    · exact Function.update_of_ne he _ _
  refine ⟨fun entry he => ?_, fun task ht => ?_, fun task ht hl => ?_, h.direct, fun entry => ?_,
    fun entry => ?_⟩
  · cases he
    rfl
  · exact Nat.lt_succ_of_lt (h.made task ht)
  · rcases ho task ht with hleaving | hclosed
    · exact absurd hleaving hl.1
    · exact absurd hclosed hl.2
  · exact (hentry entry).trans (h.counter entry)
  · rw [hentry]
    exact h.room entry

theorem arrive (h : Counted svc s) {entry : Nat} (hcurrent : s.current = some entry)
    (point : EntryPoint) :
    Counted svc { s with tasks := s.tasks ++ [⟨point, entry, .found⟩] } := by
  have hnew := h.current entry hcurrent
  refine ⟨h.current, fun task ht => ?_, fun task ht hl => ?_, fun task ht hr => ?_,
    fun e => ?_, fun e => ?_⟩
  · rcases List.mem_append.mp ht with ht | ht
    · exact h.made task ht
    · cases List.mem_singleton.mp ht
      exact Nat.lt_of_succ_le hnew.le
  · rcases List.mem_append.mp ht with ht | ht
    · exact h.newest task ht hl
    · cases List.mem_singleton.mp ht
      exact hnew
  · rcases List.mem_append.mp ht with ht | ht
    · exact h.direct task ht hr
    · cases List.mem_singleton.mp ht
      cases hr
  · rw [List.countP_append]
    simpa [ConnTask.inside] using h.counter e
  · rw [List.countP_append]
    simpa [ConnTask.waiting] using h.room e

-- A check that passes takes the last place at most, for nobody else holds a passed check.
theorem pass (h : Counted svc s) (hpos : 0 < svc.maxConnections)
    (hi : s.tasks[i]? = some task) (hfound : task.phase = .found)
    (hroom : hasRoom svc (s.currentConns task.entry) = true)
    (ho : ∀ t ∈ s.tasks, t.phase ≠ .admitted) : Counted svc (s.enter i task .admitted) := by
  have hbelow : s.currentConns task.entry < svc.maxConnections.toNat := by
    rcases (Bool.or_eq_true _ _).mp hroom with hzero | hlt
    · exact absurd (of_decide_eq_true hzero) (UInt32.pos_iff_ne_zero.mp hpos)
    · exact of_decide_eq_true hlt
  refine h.enter hi (fun _ => by simp [ConnTask.Live, hfound]) (by rintro ⟨⟩) (fun entry => ?_)
    fun entry => ?_
  · simp [ConnTask.inside, hfound]
  · have hset := Slots.countP_set_add hi (ConnTask.waiting entry) { task with phase := .admitted }
    have hnone : s.tasks.countP (ConnTask.waiting entry) = 0 :=
      List.countP_eq_zero.mpr fun t ht hw => ho t ht (by simp_all [ConnTask.waiting])
    have hbefore : task.waiting entry = false := by simp [ConnTask.waiting, hfound]
    have hafter : ConnTask.waiting entry { task with phase := .admitted } =
        decide (task.entry = entry) := by simp [ConnTask.waiting]
    rw [hnone, hbefore, hafter] at hset
    show s.currentConns entry + (s.tasks.set i _).countP _ ≤ _
    by_cases he : task.entry = entry
    · subst he
      rw [decide_eq_true rfl] at hset
      simp only [Bool.toNat_false, Bool.toNat_true] at hset
      omega
    · rw [decide_eq_false he] at hset
      simp only [Bool.toNat_false] at hset
      have hold := h.room entry
      omega

theorem refuse (h : Counted svc s) (hi : s.tasks[i]? = some task) (hfound : task.phase = .found) :
    Counted svc (s.enter i task .closed) :=
  h.move hi (by simp [ConnTask.Live]) (by rintro ⟨⟩) (by simp [ConnTask.inside, hfound])
    (by simp [ConnTask.waiting])

theorem finish (h : Counted svc s) (hi : s.tasks[i]? = some task)
    (hrelaying : task.phase = .relaying) : Counted svc (s.enter i task .leaving) :=
  h.move hi (by simp [ConnTask.Live]) (by rintro ⟨⟩) (by simp [ConnTask.inside, hrelaying])
    (by simp [ConnTask.waiting])

theorem count (h : Counted svc s) (hi : s.tasks[i]? = some task) {conns : Nat}
    (hlive : ({ task with phase := phase } : ConnTask).Live → task.Live)
    (hdirect : phase = .relaying → task.point = .direct)
    (hcounter : conns + (task.inside task.entry).toNat = s.currentConns task.entry +
      (ConnTask.inside task.entry { task with phase := phase }).toNat)
    (hroom : conns + (ConnTask.waiting task.entry { task with phase := phase }).toNat ≤
      s.currentConns task.entry + (task.waiting task.entry).toNat) :
    Counted svc ((s.enter i task phase).setConns task.entry conns) := by
  refine h.move hi hlive hdirect (fun entry => ?_) (fun entry => ?_)
  · by_cases he : task.entry = entry
    · subst he
      simpa using hcounter
    · simp [ConnTask.inside, he, Function.update_of_ne (Ne.symm he)]
  · by_cases he : task.entry = entry
    · subst he
      simpa using hroom
    · simp [ConnTask.waiting, he, Function.update_of_ne (Ne.symm he)]

theorem fetchAdd (h : Counted svc s) (hi : s.tasks[i]? = some task)
    (hadmitted : task.phase = .admitted) (hdirect : task.point = .direct) :
    Counted svc
      ((s.enter i task .relaying).setConns task.entry (s.currentConns task.entry + 1)) :=
  h.count hi (fun _ => by simp [ConnTask.Live, hadmitted]) (fun _ => hdirect)
    (by simp [ConnTask.inside, hadmitted]) (by simp [ConnTask.waiting, hadmitted])

theorem fetchSub (h : Counted svc s) (hi : s.tasks[i]? = some task)
    (hleaving : task.phase = .leaving) :
    Counted svc
      ((s.enter i task .closed).setConns task.entry (s.currentConns task.entry - 1)) := by
  have hinside : task.inside task.entry = true := by simp [ConnTask.inside, hleaving]
  have hone : 0 < s.currentConns task.entry := by
    rw [h.counter]
    exact List.countP_pos_iff.mpr ⟨task, List.mem_of_getElem? hi, hinside⟩
  refine h.count hi (by simp [ConnTask.Live]) (by rintro ⟨⟩) ?_ ?_
  · simp [ConnTask.inside, hleaving]
    omega
  · simp [ConnTask.waiting, hleaving]

theorem step (hpos : 0 < svc.maxConnections) {t : LimitState} {event : LimitEvent}
    (h : Counted svc s) (ho : s.Orderly event) (hstep : s.step svc event = some t) :
    Counted svc t := by
  cases event with
  | register =>
    cases hstep
    exact h.register ho
  | disconnect =>
    cases hstep
    exact { h with current := by rintro entry ⟨⟩ }
  | arrive point =>
    obtain ⟨entry, hcurrent, hstep⟩ := Option.bind_eq_some_iff.mp hstep
    split at hstep
    · cases hstep
      exact h.arrive hcurrent point
    · cases hstep
  | refuse i =>
    obtain ⟨task, hi, hstep⟩ := Option.bind_eq_some_iff.mp hstep
    split at hstep
    · next hfound =>
      cases hstep
      exact h.refuse hi hfound
    · cases hstep
  | load i =>
    obtain ⟨task, hi, hstep⟩ := Option.bind_eq_some_iff.mp hstep
    split at hstep
    · next hfound =>
      split at hstep
      · next hroom =>
        cases hstep
        exact h.pass hpos hi hfound.2 hroom ho
      · cases hstep
        exact h.refuse hi hfound.2
    · cases hstep
  | fetchAdd i =>
    obtain ⟨task, hi, hstep⟩ := Option.bind_eq_some_iff.mp hstep
    have hadmitted := ho task hi
    split at hstep
    · next hcase =>
      have hdirect : task.point = .direct := by
        rcases hcase with hdirect | hqcp
        · exact hdirect.1
        · simp [hadmitted] at hqcp
      cases hstep
      exact h.fetchAdd hi hadmitted hdirect
    · cases hstep
  | relay i => exact ho.elim
  | finish i =>
    obtain ⟨task, hi, hstep⟩ := Option.bind_eq_some_iff.mp hstep
    split at hstep
    · next hrelaying =>
      rw [h.direct task (List.mem_of_getElem? hi) hrelaying] at hstep
      cases hstep
      exact h.finish hi hrelaying
    · cases hstep
  | fetchSub i =>
    obtain ⟨task, hi, hstep⟩ := Option.bind_eq_some_iff.mp hstep
    split at hstep
    · next hleaving =>
      cases hstep
      exact h.fetchSub hi hleaving
    · cases hstep

end Counted

theorem connections_limited (svc : Service) (hpos : 0 < svc.maxConnections)
    (events : List LimitEvent)
    (h : Machine.Along (LimitState.step svc) LimitState.Orderly .fresh events) :
    Machine.Always (LimitState.step svc) (LimitState.Limited svc) .fresh events :=
  Machine.always_of_along (I := Counted svc) (fun _ _ _ hs ho hstep => hs.step hpos ho hstep)
    (fun _ hs => hs.limited) (Counted.fresh svc) h

namespace LimitState

def single : Service :=
  { name := "web", ty := some "tcp", remotePort := 9000, host := some "a.b", maxConnections := 1 }

def inTurn : List LimitEvent :=
  [.register, .arrive .direct, .arrive .direct, .load 0, .fetchAdd 0, .load 1, .finish 0,
    .fetchSub 0, .disconnect, .register, .arrive .direct, .load 2, .fetchAdd 2]

theorem in_turn_limited :
    Machine.Along (step single) Orderly .fresh inTurn ∧
      Machine.Always (step single) (Limited single) .fresh inTurn := by
  have h : Machine.Along (step single) Orderly .fresh inTurn := by decide +kernel
  exact ⟨h, connections_limited single (by decide) inTurn h⟩

theorem not_always_limited {svc : Service} {events : List LimitEvent} {n : Nat}
    (h : (Machine.run (step svc) fresh events).map relayed = some n)
    (hn : svc.maxConnections.toNat < n) :
    ¬Machine.Always (step svc) (Limited svc) .fresh events := by
  intro halways
  obtain ⟨t, ht, rfl⟩ := Option.map_eq_some_iff.mp h
  rw [← List.append_nil events] at halways
  exact absurd (halways.run ht) (Nat.not_le.mpr hn)

def bothChecked : List LimitEvent :=
  [.register, .arrive .direct, .arrive .direct, .load 0, .load 1, .fetchAdd 0, .fetchAdd 1]

def registeredAnew : List LimitEvent :=
  [.register, .arrive .direct, .load 0, .fetchAdd 0, .disconnect, .register, .arrive .direct,
    .load 1, .fetchAdd 1]

def throughVhost : List LimitEvent :=
  [.register, .arrive .httpVhost, .arrive .httpVhost, .relay 0, .relay 1]

def singleQcp : Service := { single with ty := some "qcp" }

def throughQcp : List LimitEvent :=
  [.register, .arrive .qcp, .arrive .qcp, .fetchAdd 0, .fetchAdd 1]

theorem limit_exceeded :
    (0 < single.maxConnections ∧ 0 < singleQcp.maxConnections) ∧
      ¬Machine.Always (step single) (Limited single) .fresh bothChecked ∧
      ¬Machine.Always (step single) (Limited single) .fresh registeredAnew ∧
      ¬Machine.Always (step single) (Limited single) .fresh throughVhost ∧
      ¬Machine.Always (step singleQcp) (Limited singleQcp) .fresh throughQcp := by
  refine ⟨by decide, ?_, ?_, ?_, ?_⟩
  · exact not_always_limited (n := 2) (by decide +kernel) (by decide)
  · exact not_always_limited (n := 2) (by decide +kernel) (by decide)
  · exact not_always_limited (n := 2) (by decide +kernel) (by decide)
  · exact not_always_limited (n := 2) (by decide +kernel) (by decide)

end LimitState

end Cross233.Server
