import Cross233.Library.Machine
import Cross233.Library.TokenBucket
import Mathlib.Algebra.Order.Field.Rat

namespace Cross233.Server

-- The seconds of an instant and the tokens are exact rationals here and `f64` in the source.
structure BandwidthInner where
  bytesPerSecond : UInt64
  tokens : ℚ
  lastRefill : ℚ
  capacity : ℚ
  deriving DecidableEq

inductive LockOutcome where
  | granted
  | sleep (secs : ℚ)
  | panicked
  deriving DecidableEq

def bytes (n : UInt64) : ℚ := n.toNat

namespace BandwidthInner

def new (bytesPerSecond : UInt64) (now : ℚ) : BandwidthInner :=
  let capacity := bytes (max bytesPerSecond 1)
  ⟨bytesPerSecond, capacity, now, capacity⟩

def newKbps (kbps : UInt64) (now : ℚ) : BandwidthInner := new (kbps * 1024 / 8) now

def durationSince (now earlier : ℚ) : ℚ := max (now - earlier) 0

-- A division by a zero rate is infinite, and no `Duration` can be made of it.
def waitFor (inner : BandwidthInner) (deficit : ℚ) : LockOutcome :=
  if inner.bytesPerSecond = 0 then .panicked
  else .sleep (max (deficit / bytes inner.bytesPerSecond) (1 / 1000))

def refill (inner : BandwidthInner) (now : ℚ) : BandwidthInner :=
  let elapsed := durationSince now inner.lastRefill
  { inner with
    tokens := min (inner.tokens + elapsed * bytes inner.bytesPerSecond) inner.capacity
    lastRefill := now }

@[irreducible] def attempt (inner : BandwidthInner) (n : UInt64) (now : ℚ) :
    LockOutcome × BandwidthInner :=
  let inner := inner.refill now
  if bytes n ≤ inner.tokens then (.granted, { inner with tokens := inner.tokens - bytes n })
  else (inner.waitFor (bytes n - inner.tokens), inner)

def acquireLoop : Nat → BandwidthInner → UInt64 → ℚ → Option BandwidthInner
  | 0, _, _, _ => none
  | turns + 1, inner, n, now =>
    match inner.attempt n now with
    | (.granted, inner) => some inner
    | (.sleep secs, inner) => acquireLoop turns inner n (now + secs)
    | (.panicked, _) => none

def acquire (turns : Nat) (inner : BandwidthInner) (n : UInt64) (now : ℚ) :
    Option BandwidthInner :=
  if n = 0 then some inner else acquireLoop turns inner n now

def bucket (inner : BandwidthInner) : TokenBucket ℚ :=
  ⟨bytes inner.bytesPerSecond, inner.capacity, inner.tokens, inner.lastRefill⟩

end BandwidthInner

inductive CallPhase where
  | waiting
  | returned
  | panicked
  deriving DecidableEq

structure AcquireCall where
  n : UInt64
  phase : CallPhase
  deriving DecidableEq

-- The callers share the limiter; `grants` is what they were given and when, latest first.
structure LimiterState where
  inner : BandwidthInner
  calls : List AcquireCall
  grants : List (ℚ × UInt64)
  deriving DecidableEq

inductive LimiterEvent where
  | acquire (n : UInt64)
  | lock (call : Nat) (now : ℚ)

namespace LimiterState

def fresh (inner : BandwidthInner) : LimiterState := ⟨inner, [], []⟩

def setPhase (s : LimiterState) (i : Nat) (call : AcquireCall) (phase : CallPhase) :
    LimiterState :=
  { s with calls := s.calls.set i { call with phase := phase } }

-- The bound does not rest on the sleeps, so a refused caller may lock again at any later time.
def step (s : LimiterState) : LimiterEvent → Option LimiterState
  | .acquire n =>
    some { s with calls := s.calls ++ [⟨n, if n = 0 then .returned else .waiting⟩] }
  | .lock i now => do
    let call ← s.calls[i]?
    if call.phase = .waiting ∧ s.inner.lastRefill ≤ now then
      match s.inner.attempt call.n now with
      | (.granted, inner) =>
        some { s.setPhase i call .returned with
          inner := inner
          grants := (now, call.n) :: s.grants }
      | (.sleep _, inner) => some { s with inner := inner }
      | (.panicked, inner) => some { s.setPhase i call .panicked with inner := inner }
    else none

def grantedIn (s : LimiterState) (start stop : ℚ) : ℚ :=
  ((s.grants.filter (fun g => start ≤ g.1 ∧ g.1 ≤ stop)).map (fun g => bytes g.2)).sum

def WithinRate (bytesPerSecond : UInt64) (s : LimiterState) : Prop :=
  0 ≤ s.inner.tokens ∧ s.inner.tokens ≤ s.inner.capacity ∧
    ∀ start t : ℚ, 0 ≤ t →
      s.grantedIn start (start + t) ≤ max (bytes bytesPerSecond) 1 + bytes bytesPerSecond * t

def AtMostTwice (s : LimiterState) (n : UInt64) (now : ℚ) : Prop :=
  (BandwidthInner.acquire 2 s.inner n now).isSome ∧
    ∀ secs inner, s.inner.attempt n now = (.sleep secs, inner) → ∀ others t,
      Machine.run step { s with inner := inner } others = some t → t.grants = s.grants →
        t.inner.lastRefill ≤ now + secs → (t.inner.attempt n (now + secs)).1 = .granted

end LimiterState

theorem bytes_nonneg (n : UInt64) : 0 ≤ bytes n := Nat.cast_nonneg _

theorem bytes_le_bytes {m n : UInt64} : bytes m ≤ bytes n ↔ m ≤ n := by
  rw [bytes, bytes, Nat.cast_le, UInt64.le_iff_toNat_le]

theorem bytes_pos {n : UInt64} : 0 < bytes n ↔ 0 < n := by
  rw [bytes, Nat.cast_pos, UInt64.lt_iff_toNat_lt, UInt64.toNat_zero]

theorem bytes_max_one (n : UInt64) : bytes (max n 1) = max (bytes n) 1 := by
  change bytes (if n ≤ 1 then 1 else n) = max (bytes n) (bytes 1)
  split
  · next h => rw [max_eq_right (bytes_le_bytes.mpr h)]
  · next h =>
    rw [max_eq_left]
    exact (not_le.mp (mt bytes_le_bytes.mp h)).le

namespace BandwidthInner

variable {inner : BandwidthInner} {n : UInt64} {now : ℚ}

theorem bucket_refill (h : inner.lastRefill ≤ now) :
    (inner.refill now).bucket = inner.bucket.refill now := by
  have helapsed : durationSince now inner.lastRefill = now - inner.lastRefill :=
    max_eq_left (sub_nonneg.mpr h)
  rw [refill, helapsed]
  rfl

theorem refill_tokens_le : (inner.refill now).tokens ≤ inner.capacity := min_le_right _ _

theorem attempt_granted (h : bytes n ≤ (inner.refill now).tokens) :
    inner.attempt n now =
      (.granted,
        { inner.refill now with tokens := (inner.refill now).tokens - bytes n }) := by
  unfold attempt
  exact if_pos h

theorem attempt_refused (h : ¬bytes n ≤ (inner.refill now).tokens) :
    inner.attempt n now =
      ((inner.refill now).waitFor (bytes n - (inner.refill now).tokens), inner.refill now) := by
  unfold attempt
  exact if_neg h

theorem waitFor_ne_granted (deficit : ℚ) : inner.waitFor deficit ≠ .granted := by
  rw [waitFor]
  split <;> simp

theorem attempt_fst_granted :
    (inner.attempt n now).1 = .granted ↔ bytes n ≤ (inner.refill now).tokens := by
  constructor
  · intro h
    by_contra hrefused
    rw [attempt_refused hrefused] at h
    exact waitFor_ne_granted _ h
  · intro h
    rw [attempt_granted h]

theorem new_filled (bytesPerSecond : UInt64) (now : ℚ) :
    (new bytesPerSecond now).bucket.Filled where
  rate_nonneg := bytes_nonneg _
  tokens_nonneg := bytes_nonneg _
  tokens_le := le_refl _

end BandwidthInner

namespace LimiterState

def ledger (s : LimiterState) : List (ℚ × ℚ) := s.grants.map (fun g => (g.1, bytes g.2))

theorem grantedIn_eq (s : LimiterState) (start stop : ℚ) :
    s.grantedIn start stop = TokenBucket.granted s.ledger start stop := by
  rw [grantedIn, TokenBucket.granted, ledger, List.filter_map, List.map_map]
  rfl

theorem step_cases {s t : LimiterState} {e : LimiterEvent} (h : s.step e = some t) :
    t.inner = s.inner ∧ t.grants = s.grants ∨
      ∃ n now, s.inner.lastRefill ≤ now ∧ t.inner = (s.inner.attempt n now).2 ∧
        t.grants = if (s.inner.attempt n now).1 = .granted then (now, n) :: s.grants
          else s.grants := by
  cases e with
  | acquire n =>
    cases h
    exact .inl ⟨rfl, rfl⟩
  | lock i now =>
    obtain ⟨call, -, hcall⟩ := Option.bind_eq_some_iff.mp h
    split at hcall
    · next hwaiting =>
      refine .inr ⟨call.n, now, hwaiting.2, ?_⟩
      split at hcall
      all_goals
        next hattempt =>
        cases hcall
        rw [hattempt]
        exact ⟨rfl, rfl⟩
    · cases hcall

structure Sound (bytesPerSecond : UInt64) (s : LimiterState) : Prop where
  rate : s.inner.bytesPerSecond = bytesPerSecond
  capacity : s.inner.capacity = max (bytes bytesPerSecond) 1
  ledger : s.inner.bucket.Ledger s.ledger

namespace Sound

variable {bytesPerSecond : UInt64} {s t : LimiterState}

theorem fresh (bytesPerSecond : UInt64) (now : ℚ) :
    Sound bytesPerSecond (fresh (.new bytesPerSecond now)) where
  rate := rfl
  capacity := bytes_max_one bytesPerSecond
  ledger := .start (BandwidthInner.new_filled bytesPerSecond now)

theorem attempt (h : Sound bytesPerSecond s) {n : UInt64} {now : ℚ}
    (hnow : s.inner.lastRefill ≤ now) {calls : List AcquireCall} :
    Sound bytesPerSecond
      ⟨(s.inner.attempt n now).2, calls,
        if (s.inner.attempt n now).1 = .granted then (now, n) :: s.grants else s.grants⟩ := by
  have hrefill : (s.inner.refill now).bucket.Ledger s.ledger := by
    rw [BandwidthInner.bucket_refill hnow]
    exact h.ledger.refill hnow
  by_cases hgrant : bytes n ≤ (s.inner.refill now).tokens
  · rw [BandwidthInner.attempt_granted hgrant, if_pos rfl]
    exact ⟨h.rate, h.capacity, hrefill.take (bytes_nonneg n) hgrant⟩
  · rw [if_neg (mt BandwidthInner.attempt_fst_granted.mp hgrant),
      BandwidthInner.attempt_refused hgrant]
    exact ⟨h.rate, h.capacity, hrefill⟩

theorem step {e : LimiterEvent} (h : Sound bytesPerSecond s) (hstep : s.step e = some t) :
    Sound bytesPerSecond t := by
  obtain ⟨inner, calls, grants⟩ := t
  rcases step_cases hstep with ⟨hinner, hgrants⟩ | ⟨n, now, hnow, hinner, hgrants⟩
  · cases hinner
    cases hgrants
    exact ⟨h.rate, h.capacity, h.ledger⟩
  · cases hinner
    cases hgrants
    exact h.attempt hnow

theorem withinRate (h : Sound bytesPerSecond s) : WithinRate bytesPerSecond s := by
  refine ⟨h.ledger.filled.tokens_nonneg, h.ledger.filled.tokens_le, fun start t ht => ?_⟩
  have hwithin := h.ledger.within start (start + t) (le_add_of_nonneg_right ht)
  have hrate : s.inner.bucket.rate = bytes bytesPerSecond := congrArg bytes h.rate
  rwa [hrate, add_sub_cancel_left, show s.inner.bucket.capacity = _ from h.capacity,
    ← grantedIn_eq] at hwithin

end Sound

theorem granted_within_rate (bytesPerSecond : UInt64) (created : ℚ)
    (events : List LimiterEvent) :
    Machine.Always step (WithinRate bytesPerSecond) (fresh (.new bytesPerSecond created))
      events :=
  Machine.always_invariant (fun _ _ _ h hstep => h.step hstep) (fun _ h => h.withinRate) events
    (Sound.fresh bytesPerSecond created)

end LimiterState

namespace BandwidthInner

variable {inner : BandwidthInner} {n : UInt64} {now : ℚ}

theorem waitFor_sleep (hrate : 0 < inner.bytesPerSecond) (deficit : ℚ) :
    inner.waitFor deficit =
      .sleep (max (deficit / bytes inner.bytesPerSecond) (1 / 1000)) := by
  rw [waitFor, if_neg (UInt64.pos_iff_ne_zero.mp hrate)]

theorem tokens_le_refill (now : ℚ) (h : inner.tokens ≤ inner.capacity) :
    inner.tokens ≤ (inner.refill now).tokens := by
  refine le_min (le_add_of_nonneg_right ?_) h
  exact mul_nonneg (le_max_right _ _) (bytes_nonneg _)

-- The bucket never holds `n` tokens, so no turn of the loop is the last.
theorem acquireLoop_starved (hcap : inner.capacity < bytes n) (turns : Nat) :
    acquireLoop turns inner n now = none := by
  induction turns generalizing inner now with
  | zero => rfl
  | succ turns ih =>
    have hrefused : ¬bytes n ≤ (inner.refill now).tokens :=
      not_le.mpr (refill_tokens_le.trans_lt hcap)
    rw [acquireLoop, attempt_refused hrefused, waitFor]
    split
    · next hgranted =>
      split at hgranted <;> simp at hgranted
    · next hsleep =>
      cases (Prod.mk.inj hsleep).2
      exact ih hcap
    · rfl

theorem acquireLoop_dry (hrate : inner.bytesPerSecond = 0) (htokens : inner.tokens < bytes n)
    (turns : Nat) : acquireLoop turns inner n now = none := by
  cases turns with
  | zero => rfl
  | succ turns =>
    have hzero : bytes inner.bytesPerSecond = 0 := by
      rw [hrate]
      rfl
    have hrefill : (inner.refill now).tokens ≤ inner.tokens := by
      refine (min_le_left _ _).trans ?_
      rw [hzero, mul_zero, add_zero]
    rw [acquireLoop, attempt_refused (not_le.mpr (hrefill.trans_lt htokens)), waitFor,
      if_pos (show (inner.refill now).bytesPerSecond = 0 from hrate)]

end BandwidthInner

namespace LimiterState

variable {s t : LimiterState} {n : UInt64} {now : ℚ}

-- Refused callers only move the time of the last refill.
structure Undrained (s t : LimiterState) : Prop where
  rate : t.inner.bytesPerSecond = s.inner.bytesPerSecond
  refill : ∀ later, t.inner.lastRefill ≤ later →
    s.inner.lastRefill ≤ later ∧ t.inner.bucket.refill later = s.inner.bucket.refill later

theorem Undrained.refl (s : LimiterState) : Undrained s s :=
  ⟨rfl, fun _ hlater => ⟨hlater, rfl⟩⟩

theorem Undrained.attempt (h : Undrained s t) (hnow : t.inner.lastRefill ≤ now)
    (hrefused : ¬bytes n ≤ (t.inner.refill now).tokens) {calls : List AcquireCall}
    {grants : List (ℚ × UInt64)} :
    Undrained s ⟨(t.inner.attempt n now).2, calls, grants⟩ := by
  rw [BandwidthInner.attempt_refused hrefused]
  refine ⟨h.rate, fun later hlater => ?_⟩
  obtain ⟨hs, hrefill⟩ := h.refill later (hnow.trans hlater)
  refine ⟨hs, ?_⟩
  change (t.inner.refill now).bucket.refill later = _
  rw [BandwidthInner.bucket_refill hnow, ← hrefill]
  exact TokenBucket.refill_refill (bytes_nonneg _) hlater

theorem undrained_step {u : LimiterState} {e : LimiterEvent} (hstep : t.step e = some u)
    (h : s.grants.length ≤ t.grants.length ∧ (t.grants = s.grants → Undrained s t)) :
    s.grants.length ≤ u.grants.length ∧ (u.grants = s.grants → Undrained s u) := by
  obtain ⟨inner, calls, grants⟩ := u
  rcases step_cases hstep with ⟨hinner, hgrants⟩ | ⟨n, now, hnow, hinner, hgrants⟩
  · cases hinner
    cases hgrants
    exact ⟨h.1, fun hsame => ⟨(h.2 hsame).rate, (h.2 hsame).refill⟩⟩
  · cases hinner
    by_cases hgrant : bytes n ≤ (t.inner.refill now).tokens
    · rw [if_pos (BandwidthInner.attempt_fst_granted.mpr hgrant)] at hgrants
      cases hgrants
      refine ⟨h.1.trans (Nat.le_succ _), fun hsame => ?_⟩
      have hlength := congrArg List.length hsame
      exact absurd (h.1.trans_lt (Nat.lt_succ_self _)) (Nat.not_lt.mpr hlength.le)
    · rw [if_neg (mt BandwidthInner.attempt_fst_granted.mp hgrant)] at hgrants
      cases hgrants
      exact ⟨h.1, fun hsame => (h.2 hsame).attempt hnow hgrant⟩

theorem undrained_run {others : List LimiterEvent} (hrun : Machine.run step s others = some t)
    (hgrants : t.grants = s.grants) : Undrained s t := by
  have hinvariant := Machine.run_invariant
    (I := fun t => s.grants.length ≤ t.grants.length ∧ (t.grants = s.grants → Undrained s t))
    (fun _ _ _ h hstep => undrained_step hstep h)
    ⟨le_refl _, fun _ => Undrained.refl s⟩ hrun
  exact hinvariant.2 hgrants

namespace Sound

variable {bytesPerSecond : UInt64}

theorem rate_pos_of_le (hn : 0 < n) (hle : n ≤ bytesPerSecond) : 0 < bytes bytesPerSecond :=
  (bytes_pos.mpr hn).trans_le (bytes_le_bytes.mpr hle)

theorem le_capacity (h : Sound bytesPerSecond s) (hle : n ≤ bytesPerSecond) :
    bytes n ≤ s.inner.capacity := by
  rw [h.capacity]
  exact (bytes_le_bytes.mpr hle).trans (le_max_left _ _)

theorem second_granted (h : Sound bytesPerSecond s) (hn : 0 < n) (hle : n ≤ bytesPerSecond)
    (hundrained : Undrained { s with inner := s.inner.refill now } t) {secs : ℚ}
    (hsecs : (bytes n - (s.inner.refill now).tokens) / bytes bytesPerSecond ≤ secs)
    (hlast : t.inner.lastRefill ≤ now + secs) :
    bytes n ≤ (t.inner.refill (now + secs)).tokens := by
  have hrefill := (hundrained.refill (now + secs) hlast).2
  have hbucket : (t.inner.refill (now + secs)).bucket =
      (s.inner.refill now).bucket.refill (now + secs) := by
    rw [BandwidthInner.bucket_refill hlast, hrefill]
  have hrate : (s.inner.refill now).bucket.rate = bytes bytesPerSecond := congrArg bytes h.rate
  change bytes n ≤ (t.inner.refill (now + secs)).bucket.tokens
  rw [hbucket]
  apply TokenBucket.le_tokens_refill
  · rw [hrate]
    exact rate_pos_of_le hn hle
  · exact h.le_capacity hle
  · rw [hrate, show (s.inner.refill now).bucket.last = now from rfl, add_sub_cancel_left]
    exact hsecs

theorem refused_waits (h : Sound bytesPerSecond s) (hn : 0 < n) (hle : n ≤ bytesPerSecond)
    (hrefused : ¬bytes n ≤ (s.inner.refill now).tokens) :
    s.inner.attempt n now =
      (.sleep (max ((bytes n - (s.inner.refill now).tokens) / bytes bytesPerSecond) (1 / 1000)),
        s.inner.refill now) := by
  have hrate : 0 < (s.inner.refill now).bytesPerSecond := by
    rw [show (s.inner.refill now).bytesPerSecond = bytesPerSecond from h.rate]
    exact bytes_pos.mp (rate_pos_of_le hn hle)
  rw [BandwidthInner.attempt_refused hrefused, BandwidthInner.waitFor_sleep hrate,
    show (s.inner.refill now).bytesPerSecond = bytesPerSecond from h.rate]

theorem atMostTwice_of_le (h : Sound bytesPerSecond s) (hn : 0 < n) (hle : n ≤ bytesPerSecond)
    (hrefused : ¬bytes n ≤ (s.inner.refill now).tokens) : AtMostTwice s n now := by
  have hwait := h.refused_waits hn hle hrefused
  constructor
  · have hsecond := h.second_granted hn hle (Undrained.refl { s with inner := s.inner.refill now })
      (le_max_left _ (1 / 1000))
      (le_add_of_nonneg_right (le_max_of_le_right (by norm_num)))
    rw [BandwidthInner.acquire, if_neg (UInt64.pos_iff_ne_zero.mp hn),
      BandwidthInner.acquireLoop, hwait]
    simp only [BandwidthInner.acquireLoop]
    rw [BandwidthInner.attempt_granted hsecond]
    rfl
  · intro secs inner hattempt others t hrun hgrants hlast
    cases hwait.symm.trans hattempt
    exact BandwidthInner.attempt_fst_granted.mpr
      (h.second_granted hn hle (undrained_run hrun hgrants) (le_max_left _ _) hlast)

theorem atMostTwice_of_tokens (hgrant : bytes n ≤ (s.inner.refill now).tokens) :
    AtMostTwice s n now := by
  have hattempt := BandwidthInner.attempt_granted hgrant
  constructor
  · rw [BandwidthInner.acquire, BandwidthInner.acquireLoop, hattempt]
    split <;> rfl
  · intro secs inner hsleep
    cases hattempt.symm.trans hsleep

theorem acquire_none (h : Sound bytesPerSecond s) (hlarge : ¬n ≤ bytesPerSecond)
    (htokens : ¬bytes n ≤ s.inner.tokens) (turns : Nat) :
    BandwidthInner.acquireLoop turns s.inner n now = none := by
  by_cases hrate : bytesPerSecond = 0
  · exact BandwidthInner.acquireLoop_dry (h.rate.trans hrate) (not_le.mp htokens) turns
  · apply BandwidthInner.acquireLoop_starved
    have hone : (1 : UInt64) ≤ bytesPerSecond := by
      rw [UInt64.le_iff_toNat_le]
      exact Nat.pos_of_ne_zero (fun hzero => hrate (UInt64.toNat_inj.mp hzero))
    have hmax : max (bytes bytesPerSecond) 1 = bytes bytesPerSecond :=
      max_eq_left (bytes_le_bytes.mpr hone)
    rw [h.capacity, hmax]
    exact not_le.mp (mt bytes_le_bytes.mp hlarge)

end Sound

theorem at_most_twice_iff (kbps n : UInt64) (hn : 0 < n) (created now : ℚ)
    (events : List LimiterEvent) (s : LimiterState)
    (hrun : Machine.run step (fresh (.newKbps kbps created)) events = some s) :
    AtMostTwice s n now ↔ n ≤ kbps * 1024 / 8 ∨ bytes n ≤ s.inner.tokens := by
  have hsound : Sound (kbps * 1024 / 8) s :=
    Machine.run_invariant (fun _ _ _ h hstep => h.step hstep) (Sound.fresh _ created) hrun
  constructor
  · intro htwice
    by_contra hcond
    rw [not_or] at hcond
    have hreturns := htwice.1
    rw [BandwidthInner.acquire, if_neg (UInt64.pos_iff_ne_zero.mp hn),
      hsound.acquire_none hcond.1 hcond.2] at hreturns
    cases hreturns
  · intro hcond
    by_cases hgrant : bytes n ≤ (s.inner.refill now).tokens
    · exact Sound.atMostTwice_of_tokens hgrant
    · rcases hcond with hle | htokens
      · exact hsound.atMostTwice_of_le hn hle hgrant
      · have hkept := BandwidthInner.tokens_le_refill now hsound.ledger.filled.tokens_le
        exact absurd (htokens.trans hkept) hgrant

theorem at_most_twice_one_kbps :
    ∃ s, Machine.run step (fresh (.newKbps 1 0)) [.acquire 100, .lock 0 0] = some s ∧
      (s.inner.attempt 128 (1 / 4)).1 = .sleep (17 / 32) ∧
      AtMostTwice s 128 (1 / 4) ∧ ¬AtMostTwice s 200 (1 / 4) := by
  have hrun : Machine.run step (fresh (.newKbps 1 0)) [.acquire 100, .lock 0 0] =
      some ⟨⟨128, 28, 0, 128⟩, [⟨100, .returned⟩], [(0, 100)]⟩ := by decide +kernel
  refine ⟨_, hrun, by decide +kernel, ?_, ?_⟩
  · exact (at_most_twice_iff 1 128 (by decide) 0 (1 / 4) _ _ hrun).mpr (.inl (by decide))
  · rw [at_most_twice_iff 1 200 (by decide) 0 (1 / 4) _ _ hrun]
    decide +kernel

theorem acquire_never_returns :
    (∃ secs inner, (BandwidthInner.newKbps 1 0).attempt 200 0 = (.sleep secs, inner) ∧
        (inner.attempt 200 secs).1 ≠ .granted) ∧
      ¬AtMostTwice (fresh (.newKbps 1 0)) 200 0 ∧
      ∃ s, Machine.run step (fresh (.newKbps 0 0)) [.acquire 1, .lock 0 0] = some s ∧
        (s.inner.attempt 1 1).1 = .panicked ∧ ¬AtMostTwice s 1 1 := by
  refine ⟨⟨9 / 16, .new 128 0, by decide +kernel, by decide +kernel⟩, ?_, ?_⟩
  · intro htwice
    exact absurd htwice.1 (by decide +kernel)
  · refine ⟨⟨⟨0, 0, 0, 1⟩, [⟨1, .returned⟩], [(0, 1)]⟩, by decide +kernel, by decide +kernel, ?_⟩
    intro htwice
    exact absurd htwice.1 (by decide +kernel)

end LimiterState

end Cross233.Server
