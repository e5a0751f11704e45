import Mathlib.Algebra.GroupWithZero.Nat
import Mathlib.Data.List.Chain

-- Serial numbers of 32 bits: a number is ahead of another by less than half the circle.
namespace Serial

def Ahead (a b : UInt32) : Prop := a - b < 0x80000000

def Newer (a b : UInt32) : Prop := a ≠ b ∧ Ahead a b

instance (a b : UInt32) : Decidable (Ahead a b) := inferInstanceAs (Decidable (_ < _))

instance (a b : UInt32) : Decidable (Newer a b) := inferInstanceAs (Decidable (_ ∧ _))

theorem ahead_iff (a b : UInt32) : Ahead a b ↔ (a - b).toNat < 2 ^ 31 :=
  UInt32.lt_iff_toNat_lt

theorem toNat_sub_pos {a b : UInt32} (h : a ≠ b) : 0 < (a - b).toNat := by
  have hne : a.toNat ≠ b.toNat := fun he => h (UInt32.toNat_inj.mp he)
  have ha := UInt32.toNat_lt a
  have hb := UInt32.toNat_lt b
  rw [UInt32.toNat_sub]
  omega

theorem Newer.not_ahead {a b : UInt32} (h : Newer a b) : ¬Ahead b a := by
  have hpos := toNat_sub_pos h.1
  have hlt := (ahead_iff a b).mp h.2
  rw [ahead_iff]
  have ha := UInt32.toNat_lt a
  have hb := UInt32.toNat_lt b
  rw [UInt32.toNat_sub] at hpos hlt ⊢
  omega

theorem toNat_sub_mono {x a b : UInt32} (h : Ahead b a) (ha : Ahead a x) :
    (a - x).toNat ≤ (b - x).toNat := by
  rw [ahead_iff] at h ha
  have hx := UInt32.toNat_lt x
  have ha' := UInt32.toNat_lt a
  have hb' := UInt32.toNat_lt b
  rw [UInt32.toNat_sub] at h ha ⊢
  rw [UInt32.toNat_sub]
  omega

-- Within half a circle of `x`, a chain of steps ahead never comes closer to `x`.
theorem toNat_sub_le_last {x a : UInt32} {ys : List UInt32}
    (hc : (a :: ys).IsChain (fun b c => Ahead c b)) (hb : ∀ y ∈ a :: ys, Ahead y x) :
    ∀ y ∈ a :: ys, (y - x).toNat ≤ ((a :: ys).getLast (List.cons_ne_nil a ys) - x).toNat := by
  induction ys generalizing a with
  | nil =>
    intro y hy
    rw [List.mem_singleton.mp hy]
    exact le_rfl
  | cons b ys ih =>
    obtain ⟨hab, hrest⟩ := List.isChain_cons_cons.mp hc
    have hlast := ih hrest (fun y hy => hb y (List.mem_cons_of_mem a hy))
    rw [List.getLast_cons (List.cons_ne_nil b ys)]
    intro y hy
    rcases List.mem_cons.mp hy with rfl | hy
    · exact (toNat_sub_mono hab (hb y List.mem_cons_self)).trans (hlast b List.mem_cons_self)
    · exact hlast y hy

theorem last_newer {x : UInt32} {ys : List UInt32}
    (hc : (x :: ys).IsChain (fun b c => Ahead c b)) (hb : ∀ y ∈ ys, Ahead y x)
    (hn : ∃ y ∈ ys, Newer y x) : Newer ((x :: ys).getLast (List.cons_ne_nil x ys)) x := by
  have hall : ∀ y ∈ x :: ys, Ahead y x := by
    intro y hy
    rcases List.mem_cons.mp hy with rfl | hy
    · rw [ahead_iff, UInt32.sub_self]
      decide
    · exact hb y hy
  obtain ⟨y, hy, hnew⟩ := hn
  have hle := toNat_sub_le_last hc hall y (List.mem_cons_of_mem x hy)
  refine ⟨?_, hall _ (List.getLast_mem _)⟩
  intro he
  have hpos := toNat_sub_pos hnew.1
  rw [he, UInt32.sub_self] at hle
  exact absurd hle (Nat.not_le.mpr hpos)

end Serial
