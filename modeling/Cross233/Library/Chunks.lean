import Mathlib.Data.List.Basic
import Mathlib.Data.Nat.Init
import Mathlib.Tactic.Ring
import Mathlib.Algebra.Order.Ring.Nat

namespace Chunks

variable {α : Type}

def chunkAt (n : Nat) (xs : List α) (i : Nat) : List α := (xs.drop (i * n)).take n

def chunksOf (n : Nat) (xs : List α) : List (List α) :=
  (List.range ((xs.length + n - 1) / n)).map (chunkAt n xs)

@[simp] theorem length_chunksOf (n : Nat) (xs : List α) :
    (chunksOf n xs).length = (xs.length + n - 1) / n := by
  simp [chunksOf]

theorem flatten_chunkAt (n k : Nat) (xs : List α) :
    ((List.range k).map (chunkAt n xs)).flatten = xs.take (k * n) := by
  induction k with
  | zero => simp
  | succ k ih =>
    rw [List.range_succ, List.map_append, List.flatten_append, ih, Nat.succ_mul, List.take_add]
    simp [chunkAt]

theorem flatten_chunksOf {n : Nat} (hn : 0 < n) (xs : List α) : (chunksOf n xs).flatten = xs := by
  rw [chunksOf, flatten_chunkAt]
  apply List.take_of_length_le
  have h := Nat.lt_div_mul_add (a := xs.length + n - 1) hn
  omega

theorem length_le_of_mem_chunksOf {n : Nat} {xs c : List α} (h : c ∈ chunksOf n xs) :
    c.length ≤ n := by
  obtain ⟨i, -, rfl⟩ := List.mem_map.mp h
  exact List.length_take_le _ _

theorem length_chunksOf_le {n m : Nat} (hn : 0 < n) {xs : List α} (h : xs.length ≤ n * m) :
    (chunksOf n xs).length ≤ m := by
  rw [length_chunksOf]
  apply Nat.lt_succ_iff.mp
  rw [Nat.div_lt_iff_lt_mul hn, Nat.succ_mul, Nat.mul_comm m n]
  omega

theorem length_chunksOf_pos {n : Nat} (hn : 0 < n) {xs : List α} (h : xs ≠ []) :
    0 < (chunksOf n xs).length := by
  have hx := List.length_pos_iff.mpr h
  rw [length_chunksOf]
  exact Nat.div_pos (by omega) hn

theorem ne_nil_of_mem_chunksOf {n : Nat} (hn : 0 < n) {xs c : List α} (h : c ∈ chunksOf n xs) :
    c ≠ [] := by
  obtain ⟨i, hi, rfl⟩ := List.mem_map.mp h
  have hlt : (i + 1) * n ≤ xs.length + n - 1 := by
    calc (i + 1) * n ≤ (xs.length + n - 1) / n * n :=
          Nat.mul_le_mul_right n (List.mem_range.mp hi)
      _ ≤ xs.length + n - 1 := Nat.div_mul_le_self _ _
  rw [Nat.succ_mul] at hlt
  have hpos : 0 < (chunkAt n xs i).length := by
    simp only [chunkAt, List.length_take, List.length_drop]
    omega
  exact List.length_pos_iff.mp hpos

theorem map_mapIdx {β γ : Type} (g : β → γ) (f : Nat → α → β) (xs : List α) :
    (xs.mapIdx f).map g = xs.mapIdx (fun i x => g (f i x)) := by
  apply List.ext_getElem?
  intro i
  simp [Option.map_map, Function.comp_def]

theorem mapIdx_const (xs : List α) : xs.mapIdx (fun _ x => x) = xs := by
  apply List.ext_getElem?
  intro i
  simp

theorem chunkAt_concat_last {n : Nat} (hn : 0 < n) (xs : List α) (x : α) :
    chunkAt n (xs ++ [x]) (xs.length / n) = chunkAt n xs (xs.length / n) ++ [x] := by
  have hle : xs.length / n * n ≤ xs.length := Nat.div_mul_le_self _ _
  have hlt : xs.length < xs.length / n * n + n := Nat.lt_div_mul_add hn
  rw [chunkAt, chunkAt, List.drop_append_of_le_length hle, List.take_of_length_le,
    List.take_of_length_le]
  · simp only [List.length_drop]
    omega
  · simp only [List.length_append, List.length_drop, List.length_singleton]
    omega

theorem chunkAt_concat_of_ne {n k : Nat} (hn : 0 < n) {xs : List α} (x : α)
    (hk : k ≠ xs.length / n) : chunkAt n (xs ++ [x]) k = chunkAt n xs k := by
  rcases Nat.lt_or_gt_of_ne hk with hlt | hgt
  · have hle : (k + 1) * n ≤ xs.length := by
      calc (k + 1) * n ≤ xs.length / n * n := Nat.mul_le_mul_right n hlt
        _ ≤ xs.length := Nat.div_mul_le_self _ _
    rw [Nat.succ_mul] at hle
    rw [chunkAt, chunkAt, List.drop_append_of_le_length (by omega),
      List.take_append_of_le_length]
    simp only [List.length_drop]
    omega
  · have hle : xs.length < k * n := by
      calc xs.length < (xs.length / n + 1) * n := by
            rw [Nat.succ_mul]
            exact Nat.lt_div_mul_add hn
        _ ≤ k * n := Nat.mul_le_mul_right n hgt
    have hnil : xs.drop (k * n) = [] := List.drop_eq_nil_of_le (by omega)
    have hnil' : (xs ++ [x]).drop (k * n) = [] := by
      apply List.drop_eq_nil_of_le
      simp only [List.length_append, List.length_singleton]
      omega
    rw [chunkAt, chunkAt, hnil, hnil']

theorem chunkAt_length_div {n : Nat} {xs : List α} (h : xs.length % n = 0) :
    chunkAt n xs (xs.length / n) = [] := by
  have hlen : xs.length / n * n = xs.length := Nat.div_mul_cancel (Nat.dvd_of_mod_eq_zero h)
  simp [chunkAt, hlen]

end Chunks
