import Cross233.Library.Machine
import Cross233.Library.Slots
import Cross233.Protocol.Msg

namespace Cross233.Client

open Protocol

-- Where a task of `handle_open` stands; `settling` is past the relay and before the lock under
-- which its end is written down, `copied` being what the copy moved and absent for static files.
inductive OpenPhase where
  | connectLocal
  | writeHeader
  | connectTunnel
  | connected
  | relaying
  | settling (copied : Option (UInt64 × UInt64))
  | ended
  deriving DecidableEq

structure OpenTask where
  service : Service
  phase : OpenPhase
  deriving DecidableEq

structure WebStateData where
  bytesIn : UInt64
  bytesOut : UInt64
  tunnelsActive : UInt32
  deriving DecidableEq

structure OpenState where
  web : WebStateData
  tasks : List OpenTask
  deriving DecidableEq

inductive OpenEvent where
  | spawn (service : Service)
  | attempt (task : Nat) (ok : Bool)
  | count (task : Nat)
  | finish (task : Nat) (copied : Option (UInt64 × UInt64))
  | settle (task : Nat)

namespace OpenPhase

def first (svc : Service) : OpenPhase :=
  if svc.effectiveType = "static" then .connectTunnel else .connectLocal

def next (svc : Service) : OpenPhase → Option OpenPhase
  | .connectLocal => some (if svc.proxyProtocol then .writeHeader else .connectTunnel)
  | .writeHeader => some .connectTunnel
  | .connectTunnel => some .connected
  | _ => none

-- The `?` after the copy leaves the function before the counter is taken down again.
def after (svc : Service) (copied : Option (UInt64 × UInt64)) : OpenPhase :=
  if svc.effectiveType = "static" then .settling none
  else copied.elim .ended (fun bytes => .settling (some bytes))

def relays : OpenPhase → Bool
  | .relaying | .settling _ => true
  | _ => false

end OpenPhase

namespace WebStateData

def fresh : WebStateData := ⟨0, 0, 0⟩

def opened (web : WebStateData) : WebStateData :=
  { web with tunnelsActive := web.tunnelsActive + 1 }

def closed (web : WebStateData) (copied : Option (UInt64 × UInt64)) : WebStateData where
  bytesIn := web.bytesIn + (copied.map Prod.fst).getD 0
  bytesOut := web.bytesOut + (copied.map Prod.snd).getD 0
  tunnelsActive := if web.tunnelsActive = 0 then 0 else web.tunnelsActive - 1

end WebStateData

namespace OpenState

def fresh : OpenState := ⟨.fresh, []⟩

def enter (s : OpenState) (i : Nat) (task : OpenTask) (phase : OpenPhase) : OpenState :=
  { s with tasks := s.tasks.set i { task with phase := phase } }

def step (s : OpenState) : OpenEvent → Option OpenState
  | .spawn svc => some { s with tasks := s.tasks ++ [⟨svc, .first svc⟩] }
  | .attempt i ok => do
    let task ← s.tasks[i]?
    let phase ← task.phase.next task.service
    some (s.enter i task (if ok then phase else .ended))
  | .count i => do
    let task ← s.tasks[i]?
    if task.phase = .connected then
      some { s.enter i task .relaying with web := s.web.opened }
    else none
  | .finish i copied => do
    let task ← s.tasks[i]?
    if task.phase = .relaying then some (s.enter i task (.after task.service copied)) else none
  | .settle i => do
    let task ← s.tasks[i]?
    match task.phase with
    | .settling copied => some { s.enter i task .ended with web := s.web.closed copied }
    | _ => none

def relaying (s : OpenState) : Nat := s.tasks.countP (fun task => task.phase.relays)

def Exact (s : OpenState) : Prop := s.web.tunnelsActive.toNat = s.relaying

instance decidableExact (s : OpenState) : Decidable s.Exact :=
  inferInstanceAs (Decidable (_ = _))

-- No copy fails, and the counter has room for each relay it counts.
def Steady (s : OpenState) : OpenEvent → Prop
  | .count i => ∀ task, s.tasks[i]? = some task → task.phase = .connected →
      s.relaying + 1 < UInt32.size
  | .finish i copied => ∀ task, s.tasks[i]? = some task → task.phase = .relaying →
      copied = none → task.service.effectiveType = "static"
  | _ => True

variable {s t : OpenState} {i : Nat} {task : OpenTask} {phase : OpenPhase}

theorem relaying_enter (h : s.tasks[i]? = some task) (phase : OpenPhase) (web : WebStateData) :
    ({ s.enter i task phase with web := web } : OpenState).relaying + task.phase.relays.toNat =
      s.relaying + phase.relays.toNat :=
  Slots.countP_set_add h (fun task => task.phase.relays) { task with phase := phase }

theorem exact_enter (h : s.tasks[i]? = some task) (hsame : phase.relays = task.phase.relays) :
    (s.enter i task phase).Exact ↔ s.Exact := by
  have hcount := relaying_enter h phase s.web
  rw [hsame] at hcount
  rw [Exact, Exact, ← Nat.add_right_cancel hcount]
  rfl

theorem next_relays {svc : Service} {phase phase' : OpenPhase} (h : phase.next svc = some phase') :
    phase.relays = false ∧ phase'.relays = false := by
  cases phase with
  | connectLocal =>
    cases h
    refine ⟨rfl, ?_⟩
    split <;> rfl
  | writeHeader | connectTunnel =>
    cases h
    exact ⟨rfl, rfl⟩
  | connected | relaying | settling | ended => cases h

theorem count_exact (hs : s.Exact) (h : s.tasks[i]? = some task)
    (hphase : task.phase = .connected) :
    ({ s.enter i task .relaying with web := s.web.opened } : OpenState).Exact ↔
      s.relaying + 1 < UInt32.size := by
  have hcount := relaying_enter h .relaying s.web.opened
  rw [hphase] at hcount
  have hadd : s.web.opened.tunnelsActive.toNat = (s.relaying + 1) % UInt32.size := by
    rw [← hs]
    exact UInt32.toNat_add _ 1
  change s.web.opened.tunnelsActive.toNat = _ ↔ _
  rw [hadd, show ({ s.enter i task .relaying with web := s.web.opened } : OpenState).relaying =
    s.relaying + 1 from hcount]
  constructor
  · intro heq
    rw [← heq]
    exact Nat.mod_lt _ (by decide)
  · exact Nat.mod_eq_of_lt

theorem finish_exact (hs : s.Exact) (h : s.tasks[i]? = some task) (hphase : task.phase = .relaying)
    (copied : Option (UInt64 × UInt64)) :
    (s.enter i task (.after task.service copied)).Exact ↔
      (copied = none → task.service.effectiveType = "static") := by
  by_cases hkept : copied = none → task.service.effectiveType = "static"
  · refine iff_of_true ((exact_enter h ?_).mpr hs) hkept
    rw [hphase, OpenPhase.after]
    split
    · rfl
    · next hstatic =>
      cases copied with
      | none => exact absurd (hkept rfl) hstatic
      | some bytes => rfl
  · refine iff_of_false (fun hexact => ?_) hkept
    obtain ⟨rfl, hstatic⟩ := Classical.not_imp.mp hkept
    have hcount := relaying_enter h (.after task.service none) s.web
    rw [hphase, OpenPhase.after, if_neg hstatic] at hcount
    rw [OpenPhase.after, if_neg hstatic] at hexact
    have hlost : s.web.tunnelsActive.toNat + 1 = s.relaying :=
      (congrArg (· + 1) hexact).trans hcount
    have hs : s.web.tunnelsActive.toNat = s.relaying := hs
    omega

theorem toNat_closed (web : WebStateData) (copied : Option (UInt64 × UInt64)) :
    (web.closed copied).tunnelsActive.toNat = web.tunnelsActive.toNat - 1 := by
  rw [WebStateData.closed]
  split
  · next hzero => rw [hzero, UInt32.toNat_zero]
  · next hpos =>
    rw [UInt32.toNat_sub_of_le]
    · rfl
    · exact UInt32.le_iff_toNat_le.mpr (UInt32.lt_iff_toNat_lt.mp (UInt32.pos_iff_ne_zero.mpr hpos))

theorem settle_exact (hs : s.Exact) (h : s.tasks[i]? = some task)
    {copied : Option (UInt64 × UInt64)} (hphase : task.phase = .settling copied) :
    ({ s.enter i task .ended with web := s.web.closed copied } : OpenState).Exact := by
  have hcount := relaying_enter h .ended (s.web.closed copied)
  rw [hphase] at hcount
  rw [Exact, toNat_closed, show s.web.tunnelsActive.toNat = s.relaying from hs]
  exact Nat.sub_eq_of_eq_add hcount.symm

theorem spawn_exact (svc : Service) :
    ({ s with tasks := s.tasks ++ [⟨svc, .first svc⟩] } : OpenState).Exact ↔ s.Exact := by
  have hfirst : (OpenPhase.first svc).relays = false := by
    rw [OpenPhase.first]
    split <;> rfl
  rw [Exact, Exact, relaying, List.countP_append, List.countP_singleton]
  simp only [hfirst]
  rfl

theorem step_exact {e : OpenEvent} (hs : s.Exact) (hstep : s.step e = some t) :
    t.Exact ↔ s.Steady e := by
  cases e with
  | spawn svc =>
    cases hstep
    exact iff_of_true ((spawn_exact svc).mpr hs) trivial
  | attempt i ok =>
    obtain ⟨task, htask, hrest⟩ := Option.bind_eq_some_iff.mp hstep
    obtain ⟨phase, hnext, hrest⟩ := Option.bind_eq_some_iff.mp hrest
    cases hrest
    obtain ⟨hbefore, hafter⟩ := next_relays hnext
    refine iff_of_true ((exact_enter htask ?_).mpr hs) trivial
    cases ok with
    | false => exact hbefore.symm
    | true => exact hafter.trans hbefore.symm
  | count i =>
    obtain ⟨task, htask, hrest⟩ := Option.bind_eq_some_iff.mp hstep
    split at hrest
    · next hphase =>
      cases hrest
      refine (count_exact hs htask hphase).trans ⟨fun hroom _ _ _ => hroom, fun hsteady => ?_⟩
      exact hsteady task htask hphase
    · cases hrest
  | finish i copied =>
    obtain ⟨task, htask, hrest⟩ := Option.bind_eq_some_iff.mp hstep
    split at hrest
    · next hphase =>
      cases hrest
      refine (finish_exact hs htask hphase copied).trans ⟨fun hkept u hu _ => ?_, fun hsteady => ?_⟩
      · cases htask.symm.trans hu
        exact hkept
      · exact hsteady task htask hphase
    · cases hrest
  | settle i =>
    obtain ⟨task, htask, hrest⟩ := Option.bind_eq_some_iff.mp hstep
    split at hrest
    · next copied hphase =>
      cases hrest
      exact iff_of_true (settle_exact hs htask hphase) trivial
    · cases hrest

theorem steady_of_blocked {e : OpenEvent} (h : s.step e = none) : s.Steady e := by
  cases e with
  | spawn | attempt | settle => trivial
  | count i =>
    intro task htask hphase
    simp [step, htask, hphase] at h
  | finish i copied =>
    intro task htask hphase
    simp [step, htask, hphase] at h

theorem active_exact_iff (events : List OpenEvent) :
    Machine.Always step Exact fresh events ↔ Machine.Along step Steady fresh events := by
  have hfresh : fresh.Exact := rfl
  constructor
  · intro halways
    exact Machine.along_of_always (I := Exact)
      (fun _ _ _ hs _ hsteady hstep => (step_exact hs hstep).mpr hsteady)
      (fun _ _ _ hs _ hstep ht => (step_exact hs hstep).mp ht)
      (fun _ _ _ hnone => steady_of_blocked hnone) hfresh halways
  · intro halong
    exact Machine.always_of_along (fun _ _ _ hs hsteady hstep => (step_exact hs hstep).mpr hsteady)
      (fun _ hs => hs) hfresh halong

def leak : List OpenEvent :=
  [.spawn {}, .attempt 0 true, .attempt 0 true, .count 0, .finish 0 none]

theorem failed_copy_leaks :
    Machine.run step fresh leak = some ⟨⟨0, 0, 1⟩, [⟨{}, .ended⟩]⟩ ∧
      ¬Machine.Always step Exact fresh leak := by
  have hrun : Machine.run step fresh leak = some ⟨⟨0, 0, 1⟩, [⟨{}, .ended⟩]⟩ := rfl
  refine ⟨hrun, fun halways => ?_⟩
  rw [← List.append_nil leak] at halways
  exact absurd (halways.run hrun) (by decide)

end OpenState

end Cross233.Client
