import Mathlib.Tactic.Ring
import Mathlib.Algebra.Order.Ring.Nat
import Mathlib.Data.List.Induction

namespace BigEndian

def toBe : Nat → Nat → List UInt8
  | 0, _ => []
  | k + 1, n => toBe k (n / 256) ++ [UInt8.ofNat n]

def ofBe (bs : List UInt8) : Nat := bs.foldl (fun acc b => acc * 256 + b.toNat) 0

@[simp] theorem length_toBe (k n : Nat) : (toBe k n).length = k := by
  induction k generalizing n with
  | zero => rfl
  | succ k ih => simp [toBe, ih]

theorem ofBe_concat (bs : List UInt8) (b : UInt8) : ofBe (bs ++ [b]) = ofBe bs * 256 + b.toNat := by
  simp [ofBe]

theorem ofBe_toBe (k n : Nat) : ofBe (toBe k n) = n % 256 ^ k := by
  induction k generalizing n with
  | zero => simp [toBe, ofBe, Nat.mod_one]
  | succ k ih =>
    rw [toBe, ofBe_concat, ih, UInt8.toNat_ofNat', pow_succ' 256 k, Nat.mod_mul]
    omega

theorem ofBe_lt (bs : List UInt8) : ofBe bs < 256 ^ bs.length := by
  induction bs using List.reverseRecOn with
  | nil => decide
  | append_singleton bs b ih =>
    have hb := b.toNat_lt
    rw [ofBe_concat, List.length_append, List.length_singleton, pow_succ]
    omega

theorem toBe_ofBe (bs : List UInt8) : toBe bs.length (ofBe bs) = bs := by
  induction bs using List.reverseRecOn with
  | nil => rfl
  | append_singleton bs b ih =>
    have hb := b.toNat_lt
    have hhigh : (ofBe bs * 256 + b.toNat) / 256 = ofBe bs := by omega
    have hlow : UInt8.ofNat (ofBe bs * 256 + b.toNat) = b := by
      apply UInt8.toNat_inj.mp
      rw [UInt8.toNat_ofNat']
      omega
    rw [ofBe_concat, List.length_append, List.length_singleton, toBe, hhigh, hlow, ih]

theorem toBe_ofBe_of_length {k : Nat} {bs : List UInt8} (h : bs.length = k) :
    toBe k (ofBe bs) = bs := by
  rw [← h, toBe_ofBe]

theorem ofBe_toBe_of_lt {k n : Nat} (h : n < 256 ^ k) : ofBe (toBe k n) = n := by
  rw [ofBe_toBe, Nat.mod_eq_of_lt h]

end BigEndian
