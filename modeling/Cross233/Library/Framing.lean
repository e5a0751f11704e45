import Cross233.Library.BigEndian
import Mathlib.Data.List.TakeDrop

-- Items one after the other, each of which tells where it ends.
structure Framing (β α : Type) where
  encode : α → List β
  next : List β → Option (α × List β)
  encode_ne_nil : ∀ a, encode a ≠ []
  next_encode : ∀ a rest, next (encode a ++ rest) = some (a, rest)
  encode_next : ∀ {bytes a rest}, next bytes = some (a, rest) → bytes = encode a ++ rest

namespace Framing

variable {β α : Type} (f : Framing β α)

def items : Nat → List β → List α
  | 0, _ => []
  | fuel + 1, bytes =>
    match f.next bytes with
    | none => []
    | some (a, rest) => a :: items fuel rest

def split (bytes : List β) : List α := f.items bytes.length bytes

theorem next_nil : f.next [] = none := by
  cases h : f.next [] with
  | none => rfl
  | some r =>
    have hnil := f.encode_next h
    exact absurd (List.append_eq_nil_iff.mp hnil.symm).1 (f.encode_ne_nil r.1)

theorem next_length {bytes rest : List β} {a : α} (h : f.next bytes = some (a, rest)) :
    rest.length < bytes.length := by
  have hpos := List.length_pos_iff.mpr (f.encode_ne_nil a)
  rw [f.encode_next h, List.length_append]
  omega

theorem items_of_le {fuel : Nat} {bytes : List β} (h : bytes.length ≤ fuel) :
    f.items fuel bytes = f.split bytes := by
  induction fuel using Nat.strongRecOn generalizing bytes with
  | ind fuel ih =>
    cases hnext : f.next bytes with
    | none =>
      cases fuel <;> cases hlen : bytes.length <;> simp [split, items, hlen, hnext]
    | some r =>
      obtain ⟨a, rest⟩ := r
      have hrest := f.next_length hnext
      obtain ⟨fuel, rfl⟩ := Nat.exists_eq_succ_of_ne_zero (by omega : fuel ≠ 0)
      obtain ⟨n, hn⟩ := Nat.exists_eq_succ_of_ne_zero (by omega : bytes.length ≠ 0)
      rw [split, hn, items, items, hnext]
      simp only [List.cons.injEq, true_and]
      rw [ih fuel (by omega) (by omega)]
      rcases Nat.lt_or_ge n (fuel + 1) with hlt | hge
      · exact (ih n hlt (by omega)).symm
      · omega

theorem split_next {bytes rest : List β} {a : α} (h : f.next bytes = some (a, rest)) :
    f.split bytes = a :: f.split rest := by
  have hrest := f.next_length h
  obtain ⟨n, hn⟩ := Nat.exists_eq_succ_of_ne_zero (by omega : bytes.length ≠ 0)
  rw [split, hn, items, h]
  simp only [List.cons.injEq, true_and]
  exact f.items_of_le (by omega)

theorem split_stop {bytes : List β} (h : f.next bytes = none) : f.split bytes = [] := by
  unfold split
  cases bytes.length with
  | zero => rfl
  | succ n => rw [items, h]

theorem split_append (as : List α) (rest : List β) :
    f.split (as.flatMap f.encode ++ rest) = as ++ f.split rest := by
  induction as with
  | nil => rfl
  | cons a as ih =>
    rw [List.flatMap_cons, List.append_assoc, f.split_next (f.next_encode a _), ih,
      List.cons_append]

theorem split_flatMap (as : List α) : f.split (as.flatMap f.encode) = as := by
  have h := f.split_append as []
  rwa [List.append_nil, f.split_stop f.next_nil, List.append_nil] at h

theorem exists_rest (bytes : List β) :
    ∃ rest, bytes = (f.split bytes).flatMap f.encode ++ rest := by
  induction h : bytes.length using Nat.strongRecOn generalizing bytes with
  | ind n ih =>
    cases hnext : f.next bytes with
    | none => exact ⟨bytes, by rw [f.split_stop hnext, List.flatMap_nil, List.nil_append]⟩
    | some r =>
      obtain ⟨a, tail⟩ := r
      have hlt := f.next_length hnext
      obtain ⟨rest, hrest⟩ := ih tail.length (by omega) tail rfl
      refine ⟨rest, ?_⟩
      rw [f.split_next hnext, List.flatMap_cons, List.append_assoc, ← hrest]
      exact f.encode_next hnext

-- What is split off does not depend on what follows.
theorem split_mono {bytes longer : List β} (h : bytes <+: longer) :
    f.split bytes <+: f.split longer := by
  obtain ⟨more, rfl⟩ := h
  obtain ⟨rest, hrest⟩ := f.exists_rest bytes
  refine ⟨f.split (rest ++ more), ?_⟩
  conv_rhs => rw [hrest, List.append_assoc, f.split_append]

end Framing

structure Tagged (width : Nat) where
  tag : Nat
  data : List UInt8
  tag_lt : tag < 256 ^ width
  data_lt : data.length < 256 ^ 2

namespace Tagged

open BigEndian

variable {width : Nat}

def encode (t : Tagged width) : List UInt8 :=
  toBe width t.tag ++ (toBe 2 t.data.length ++ t.data)

theorem ofBe_take_lt (n : Nat) (bytes : List UInt8) : ofBe (bytes.take n) < 256 ^ n :=
  Nat.lt_of_lt_of_le (ofBe_lt _)
    (Nat.pow_le_pow_right (by decide) (List.length_take_le n bytes))

def next (bytes : List UInt8) : Option (Tagged width × List UInt8) :=
  let len := ofBe ((bytes.drop width).take 2)
  let rest := bytes.drop (width + 2)
  if width + 2 ≤ bytes.length ∧ len ≤ rest.length then
    some (⟨ofBe (bytes.take width), rest.take len, ofBe_take_lt width bytes,
      Nat.lt_of_le_of_lt (List.length_take_le _ _) (ofBe_take_lt 2 _)⟩, rest.drop len)
  else none

theorem encode_ne_nil (t : Tagged width) : t.encode ≠ [] := by
  intro h
  have hlen := congrArg List.length h
  rw [encode, List.length_append, List.length_append, length_toBe, length_toBe,
    List.length_nil] at hlen
  omega

theorem next_encode (t : Tagged width) (rest : List UInt8) :
    next (t.encode ++ rest) = some (t, rest) := by
  obtain ⟨tag, data, htag, hdata⟩ := t
  have htake : (encode ⟨tag, data, htag, hdata⟩ ++ rest).take width = toBe width tag := by
    rw [encode, List.append_assoc, List.take_left' (length_toBe width tag)]
  have hdrop : (encode ⟨tag, data, htag, hdata⟩ ++ rest).drop width =
      toBe 2 data.length ++ (data ++ rest) := by
    rw [encode, List.append_assoc, List.drop_left' (length_toBe width tag), List.append_assoc]
  have hrest : (encode ⟨tag, data, htag, hdata⟩ ++ rest).drop (width + 2) = data ++ rest := by
    rw [← List.drop_drop, hdrop, List.drop_left' (length_toBe 2 data.length)]
  have hlen : width + 2 ≤ (encode ⟨tag, data, htag, hdata⟩ ++ rest).length := by
    rw [encode, List.length_append, List.length_append, List.length_append, length_toBe,
      length_toBe]
    omega
  have hsize : ofBe ((toBe 2 data.length ++ (data ++ rest)).take 2) = data.length := by
    rw [List.take_left' (length_toBe 2 data.length), ofBe_toBe_of_lt hdata]
  have hfit : data.length ≤ (data ++ rest).length := (List.prefix_append data rest).length_le
  simp only [next, htake, hdrop, hrest, hsize, ofBe_toBe_of_lt htag, List.take_left,
    List.drop_left]
  exact if_pos ⟨hlen, hfit⟩

theorem encode_next {bytes rest : List UInt8} {t : Tagged width} (h : next bytes = some (t, rest)) :
    bytes = t.encode ++ rest := by
  simp only [next] at h
  split at h
  · next hle =>
    cases h
    have htag : toBe width (ofBe (bytes.take width)) = bytes.take width :=
      toBe_ofBe_of_length (List.length_take_of_le (by omega))
    have hsize : toBe 2 (ofBe ((bytes.drop width).take 2)) = (bytes.drop width).take 2 := by
      refine toBe_ofBe_of_length (List.length_take_of_le ?_)
      rw [List.length_drop]
      omega
    rw [encode, htag, List.length_take_of_le hle.2, hsize, List.append_assoc, List.append_assoc,
      List.take_append_drop, ← List.drop_drop, List.take_append_drop, List.take_append_drop]
  · cases h

def framing (width : Nat) : Framing UInt8 (Tagged width) where
  encode := encode
  next := next
  encode_ne_nil := encode_ne_nil
  next_encode := next_encode
  encode_next := encode_next

variable {tag size rest : List UInt8}

theorem split_of_le (htag : tag.length = width) (hsize : size.length = 2)
    (h : ofBe size ≤ rest.length) :
    ∃ t : Tagged width, t.tag = ofBe tag ∧ t.data = rest.take (ofBe size) ∧
      (framing width).split (tag ++ (size ++ rest)) =
        t :: (framing width).split (rest.drop (ofBe size)) := by
  have htag_lt : ofBe tag < 256 ^ width := htag ▸ ofBe_lt tag
  have hsize_lt : ofBe size < 256 ^ 2 := hsize ▸ ofBe_lt size
  have hlen : (rest.take (ofBe size)).length = ofBe size := List.length_take_of_le h
  let t : Tagged width := ⟨ofBe tag, rest.take (ofBe size), htag_lt, by omega⟩
  refine ⟨t, rfl, rfl, (framing width).split_next ?_⟩
  have hbytes : tag ++ (size ++ rest) = t.encode ++ rest.drop (ofBe size) := by
    rw [encode, hlen, toBe_ofBe_of_length htag, toBe_ofBe_of_length hsize, List.append_assoc,
      List.append_assoc, List.take_append_drop]
  rw [hbytes]
  exact next_encode t _

theorem split_of_lt (htag : tag.length = width) (hsize : size.length = 2)
    (h : rest.length < ofBe size) : (framing width).split (tag ++ (size ++ rest)) = [] := by
  refine (framing width).split_stop (if_neg ?_)
  rw [List.drop_left' htag, List.take_left' hsize, ← List.drop_drop, List.drop_left' htag,
    List.drop_left' hsize]
  omega

end Tagged
