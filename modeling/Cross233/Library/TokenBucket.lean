import Mathlib.Algebra.BigOperators.Group.List.Basic
import Mathlib.Algebra.Order.Field.Basic
import Mathlib.Tactic.Linarith
import Mathlib.Tactic.Ring

structure TokenBucket (K : Type) where
  rate : K
  capacity : K
  tokens : K
  last : K
  deriving DecidableEq

namespace TokenBucket

variable {K : Type} [Field K] [LinearOrder K]

def refill (b : TokenBucket K) (now : K) : TokenBucket K :=
  { b with tokens := min (b.tokens + (now - b.last) * b.rate) b.capacity, last := now }

def take (b : TokenBucket K) (n : K) : TokenBucket K := { b with tokens := b.tokens - n }

-- The grants are pairs of a time and an amount.
def granted (grants : List (K × K)) (start stop : K) : K :=
  ((grants.filter (fun g => start ≤ g.1 ∧ g.1 ≤ stop)).map Prod.snd).sum

structure Filled (b : TokenBucket K) : Prop where
  rate_nonneg : 0 ≤ b.rate
  tokens_nonneg : 0 ≤ b.tokens
  tokens_le : b.tokens ≤ b.capacity

-- Every grant since `start` and what is left was in the bucket then or has flowed in since.
structure Ledger (b : TokenBucket K) (grants : List (K × K)) : Prop where
  filled : b.Filled
  past : ∀ g ∈ grants, g.1 ≤ b.last
  covered : ∀ start ≤ b.last,
    granted grants start b.last + b.tokens ≤ b.capacity + b.rate * (b.last - start)
  within : ∀ start stop, start ≤ stop →
    granted grants start stop ≤ b.capacity + b.rate * (stop - start)

theorem granted_nil (start stop : K) : granted ([] : List (K × K)) start stop = 0 := rfl

theorem granted_cons_in {start stop time : K} (h : start ≤ time ∧ time ≤ stop) (n : K)
    (grants : List (K × K)) :
    granted ((time, n) :: grants) start stop = n + granted grants start stop := by
  simp [granted, h.1, h.2]

theorem granted_cons_out {start stop time : K} (h : ¬(start ≤ time ∧ time ≤ stop)) (n : K)
    (grants : List (K × K)) :
    granted ((time, n) :: grants) start stop = granted grants start stop := by
  rw [granted, List.filter_cons_of_neg (by simpa using h), granted]

theorem granted_after {grants : List (K × K)} {last start stop : K}
    (hpast : ∀ g ∈ grants, g.1 ≤ last) (h : last < start) : granted grants start stop = 0 := by
  have hnone : grants.filter (fun g => start ≤ g.1 ∧ g.1 ≤ stop) = [] := by
    rw [List.filter_eq_nil_iff]
    intro g hg hin
    exact absurd (of_decide_eq_true hin).1 (not_le.mpr ((hpast g hg).trans_lt h))
  rw [granted, hnone, List.map_nil, List.sum_nil]

theorem granted_past {grants : List (K × K)} {last start stop : K}
    (hpast : ∀ g ∈ grants, g.1 ≤ last) (h : last ≤ stop) :
    granted grants start stop = granted grants start last := by
  rw [granted, granted]
  congr 2
  apply List.filter_congr
  intro g hg
  have hlast := hpast g hg
  simp [hlast, hlast.trans h]

section

variable [IsStrictOrderedRing K] {b : TokenBucket K} {now n : K} {grants : List (K × K)}

theorem Filled.refill (h : b.Filled) (hnow : b.last ≤ now) : (b.refill now).Filled where
  rate_nonneg := h.rate_nonneg
  tokens_nonneg := by
    have hflow : 0 ≤ (now - b.last) * b.rate := mul_nonneg (sub_nonneg.mpr hnow) h.rate_nonneg
    exact le_min (add_nonneg h.tokens_nonneg hflow) (h.tokens_nonneg.trans h.tokens_le)
  tokens_le := min_le_right _ _

theorem Filled.take (h : b.Filled) (hn : 0 ≤ n) (hle : n ≤ b.tokens) : (b.take n).Filled where
  rate_nonneg := h.rate_nonneg
  tokens_nonneg := sub_nonneg.mpr hle
  tokens_le := (sub_le_self b.tokens hn).trans h.tokens_le

theorem le_tokens_refill (hrate : 0 < b.rate) (hcap : n ≤ b.capacity)
    (hwait : (n - b.tokens) / b.rate ≤ now - b.last) : n ≤ (b.refill now).tokens := by
  refine le_min ?_ hcap
  have hflow : n - b.tokens ≤ (now - b.last) * b.rate := (div_le_iff₀ hrate).mp hwait
  linarith

theorem refill_refill {later : K} (hrate : 0 ≤ b.rate) (hlater : now ≤ later) :
    (b.refill now).refill later = b.refill later := by
  have hflow : 0 ≤ (later - now) * b.rate := mul_nonneg (sub_nonneg.mpr hlater) hrate
  have hsum : b.tokens + (now - b.last) * b.rate + (later - now) * b.rate =
      b.tokens + (later - b.last) * b.rate := by ring
  have htokens : min (min (b.tokens + (now - b.last) * b.rate) b.capacity +
      (later - now) * b.rate) b.capacity =
      min (b.tokens + (later - b.last) * b.rate) b.capacity := by
    rw [← min_add_add_right, hsum, min_assoc, min_eq_right (le_add_of_nonneg_right hflow)]
  rw [refill, refill, refill, htokens]

namespace Ledger

theorem start (h : b.Filled) : b.Ledger [] where
  filled := h
  past := by simp
  covered := by
    intro start hstart
    have hflow : 0 ≤ b.rate * (b.last - start) := mul_nonneg h.rate_nonneg (sub_nonneg.mpr hstart)
    rw [granted_nil]
    linarith [h.tokens_le]
  within := by
    intro start stop hle
    have hflow : 0 ≤ b.rate * (stop - start) := mul_nonneg h.rate_nonneg (sub_nonneg.mpr hle)
    rw [granted_nil]
    linarith [h.tokens_nonneg, h.tokens_le]

theorem refill (h : b.Ledger grants) (hnow : b.last ≤ now) : (b.refill now).Ledger grants where
  filled := h.filled.refill hnow
  past := fun g hg => (h.past g hg).trans hnow
  covered := by
    intro start hstart
    change start ≤ now at hstart
    change granted grants start now + min (b.tokens + (now - b.last) * b.rate) b.capacity ≤
      b.capacity + b.rate * (now - start)
    rcases le_or_gt start b.last with hbefore | hafter
    · have hcovered := h.covered start hbefore
      have hflow := min_le_left (b.tokens + (now - b.last) * b.rate) b.capacity
      rw [granted_past h.past hnow]
      linarith
    · have hfull := min_le_right (b.tokens + (now - b.last) * b.rate) b.capacity
      have hsince : 0 ≤ b.rate * (now - start) :=
        mul_nonneg h.filled.rate_nonneg (sub_nonneg.mpr hstart)
      rw [granted_after h.past hafter]
      linarith
  within := h.within

theorem covered_take (h : b.Ledger grants) {start : K} (hstart : start ≤ b.last) :
    granted ((b.last, n) :: grants) start b.last + (b.tokens - n) ≤
      b.capacity + b.rate * (b.last - start) := by
  have hcovered := h.covered start hstart
  rw [granted_cons_in ⟨hstart, le_refl b.last⟩]
  linarith

theorem take (h : b.Ledger grants) (hn : 0 ≤ n) (hle : n ≤ b.tokens) :
    (b.take n).Ledger ((b.last, n) :: grants) where
  filled := h.filled.take hn hle
  past := by
    intro g hg
    cases hg with
    | head => exact le_refl b.last
    | tail _ hg => exact h.past g hg
  covered := fun start hstart => h.covered_take hstart
  within := by
    intro start stop hle'
    by_cases hin : start ≤ b.last ∧ b.last ≤ stop
    · have hcovered := h.covered_take (n := n) hin.1
      have hlater : b.rate * (b.last - start) ≤ b.rate * (stop - start) :=
        mul_le_mul_of_nonneg_left (sub_le_sub_right hin.2 start) h.filled.rate_nonneg
      rw [granted_cons_in ⟨hin.1, le_refl b.last⟩] at hcovered
      rw [granted_cons_in hin, granted_past h.past hin.2]
      change n + granted grants start b.last ≤ b.capacity + b.rate * (stop - start)
      linarith
    · rw [granted_cons_out hin]
      exact h.within start stop hle'

end Ledger

end

end TokenBucket
