import Mathlib.Data.List.ReduceOption
import Mathlib.Data.List.Basic

namespace Slots

variable {α : Type}

def filled (slots : List (Option α)) : Nat := slots.countP Option.isSome

structure Agrees (slots : List (Option α)) (chunks : List α) : Prop where
  length : slots.length = chunks.length
  get : ∀ (i : Nat) (c : α), slots[i]? = some (some c) → chunks[i]? = some c

@[simp] theorem filled_replicate_none (n : Nat) :
    filled (List.replicate n (none : Option α)) = 0 := by
  simp [filled, List.countP_replicate]

theorem countP_set_add {slots : List α} {i : Nat} {a : α} (h : slots[i]? = some a)
    (p : α → Bool) (b : α) :
    (slots.set i b).countP p + (p a).toNat = slots.countP p + (p b).toNat := by
  obtain ⟨hi, hg⟩ := List.getElem?_eq_some_iff.mp h
  rw [List.countP_set hi, hg]
  have hpos : p a = true → 0 < slots.countP p := fun ha =>
    List.countP_pos_iff.mpr ⟨a, List.mem_of_getElem? h, ha⟩
  cases ha : p a with
  | true =>
    have := hpos ha
    cases p b <;> simp <;> omega
  | false => cases p b <;> simp

theorem filled_set {slots : List (Option α)} {i : Nat} (c : α) (h : slots[i]? = some none) :
    filled (slots.set i (some c)) = filled slots + 1 := by
  obtain ⟨hi, hg⟩ := List.getElem?_eq_some_iff.mp h
  simp [filled, List.countP_set hi, hg]

theorem agrees_replicate (chunks : List α) :
    Agrees (List.replicate chunks.length none) chunks where
  length := by simp
  get := by
    intro i c h
    have hm := List.mem_of_getElem? h
    simp [List.mem_replicate] at hm

theorem Agrees.set {slots : List (Option α)} {chunks : List α} (h : Agrees slots chunks)
    {i : Nat} {c : α} (hc : chunks[i]? = some c) : Agrees (slots.set i (some c)) chunks where
  length := by simpa using h.length
  get := by
    intro j d hj
    rw [List.getElem?_set] at hj
    split_ifs at hj with hij hlt
    · subst hij
      cases hj
      exact hc
    · exact h.get j d hj

theorem all_some_of_filled (slots : List (Option α)) (h : filled slots = slots.length) :
    ∀ x ∈ slots, x.isSome = true :=
  List.countP_eq_length.mp h

theorem reduceOption_of_filled {slots : List (Option α)} {chunks : List α}
    (h : Agrees slots chunks) (hf : filled slots = slots.length) :
    slots.reduceOption = chunks := by
  have hall := all_some_of_filled slots hf
  have hmap : slots = chunks.map some := by
    apply List.ext_getElem?
    intro i
    cases hi : slots[i]? with
    | none =>
      have hle : chunks.length ≤ i := by
        rw [← h.length]
        exact List.getElem?_eq_none_iff.mp hi
      simp [List.getElem?_eq_none hle]
    | some x =>
      obtain ⟨c, rfl⟩ := Option.isSome_iff_exists.mp (hall x (List.mem_of_getElem? hi))
      simp [h.get i c hi]
  rw [hmap]
  simp [List.reduceOption]

end Slots
