import Mathlib.Algebra.GroupWithZero.Nat
import Cross233.Library.Json
import Cross233.Library.Text

namespace Json

-- Control characters, quotation marks and backslashes are escaped, all else stands as it is.
def escaped (c : Char) : List Char :=
  if c = '"' then ['\\', '"']
  else if c = '\\' then ['\\', '\\']
  else if c = '\x08' then ['\\', 'b']
  else if c = '\x0c' then ['\\', 'f']
  else if c = '\n' then ['\\', 'n']
  else if c = '\r' then ['\\', 'r']
  else if c = '\t' then ['\\', 't']
  else if c.toNat < 32 then
    ['\\', 'u', '0', '0', Nat.digitChar (c.toNat / 16), Nat.digitChar (c.toNat % 16)]
  else [c]

def escapedText (s : String) : List Char := s.toList.flatMap escaped

def quoted (s : String) : List Char := '"' :: escapedText s ++ ['"']

def commas (parts : List (List Char)) : List Char := [','].intercalate parts

mutual

def chars : Json → List Char
  | null => "null".toList
  | bool b => (if b then "true" else "false").toList
  | num n => Nat.toDigits 10 n
  | other text => text.toList
  | str s => quoted s
  | arr xs => '[' :: commas (elements xs) ++ [']']
  | obj ms => '\x7b' :: commas (pairs ms) ++ ['\x7d']

def elements : List Json → List (List Char)
  | [] => []
  | x :: xs => chars x :: elements xs

def pairs : List (String × Json) → List (List Char)
  | [] => []
  | (k, x) :: ms => (quoted k ++ ':' :: chars x) :: pairs ms

end

def compact (j : Json) : String := String.ofList (chars j)

def width (j : Json) : Nat := Text.byteLength (chars j)

example : compact (.obj [("a", .arr [.num 10, .null]), ("b\n", .str "\"\x01é")]) =
    "\x7b\"a\":[10,null],\"b\\n\":\"\\\"\\u0001é\"\x7d" := by decide +kernel

theorem elements_eq (xs : List Json) : elements xs = xs.map chars := by
  induction xs with
  | nil => rfl
  | cons x xs ih => exact congrArg (chars x :: ·) ih

theorem pairs_eq (ms : List (String × Json)) :
    pairs ms = ms.map (fun m => quoted m.1 ++ ':' :: chars m.2) := by
  induction ms with
  | nil => rfl
  | cons m ms ih =>
    obtain ⟨k, x⟩ := m
    exact congrArg ((quoted k ++ ':' :: chars x) :: ·) ih

theorem chars_arr (xs : List Json) :
    chars (.arr xs) = '[' :: commas (xs.map chars) ++ [']'] := by
  rw [chars, elements_eq]

theorem chars_obj (ms : List (String × Json)) : chars (.obj ms) =
    '\x7b' :: commas (ms.map (fun m => quoted m.1 ++ ':' :: chars m.2)) ++ ['\x7d'] := by
  rw [chars, pairs_eq]

section Width

open Text

theorem length_compact (j : Json) : (utf8 (compact j)).length = width j := length_utf8_ofList _

theorem width_num (n : Nat) : width (.num n) = (Nat.toDigits 10 n).length := by
  have hsizes : ∀ cs : List Char, (∀ c ∈ cs, c.isDigit = true) → byteLength cs = cs.length := by
    intro cs
    induction cs with
    | nil => exact fun _ => rfl
    | cons c cs ih =>
      intro h
      rw [List.forall_mem_cons] at h
      have hdigit : c.val ≥ 48 ∧ c.val ≤ 57 := by simpa [Char.isDigit] using h.1
      have hsize : c.utf8Size = 1 :=
        Char.utf8Size_eq_one_iff.mpr (UInt32.le_trans hdigit.2 (by decide))
      rw [byteLength_cons, hsize, ih h.2, List.length_cons, Nat.add_comm]
  exact hsizes _ fun c hc => Nat.isDigit_of_mem_toDigits (by decide) (by decide) hc

theorem width_str (s : String) : width (.str s) = byteLength (escapedText s) + 2 := by
  have hquote : Char.utf8Size '"' = 1 := rfl
  have hnil : byteLength [] = 0 := rfl
  rw [width, chars, quoted, byteLength_append, byteLength_cons, byteLength_cons, hquote, hnil]
  omega

theorem byteLength_commas {parts : List (List Char)} (h : parts ≠ []) :
    byteLength (commas parts) + 1 = (parts.map (fun p => byteLength p + 1)).sum := by
  induction parts with
  | nil => exact absurd rfl h
  | cons p parts ih =>
    cases parts with
    | nil => simp [commas]
    | cons q parts =>
      have hrest := ih (List.cons_ne_nil q parts)
      have hcomma : commas (p :: q :: parts) = p ++ ',' :: commas (q :: parts) := by
        simp [commas, List.intercalate_cons_cons]
      have hsize : Char.utf8Size ',' = 1 := rfl
      rw [List.map_cons, List.sum_cons, hcomma, byteLength_append, byteLength_cons, hsize]
      omega

def memberWidth (m : String × Json) : Nat := byteLength (quoted m.1) + width m.2 + 2

theorem byteLength_enclosed {a z : Char} (ha : a.utf8Size = 1) (hz : z.utf8Size = 1)
    {parts : List (List Char)} (h : parts ≠ []) :
    byteLength (a :: commas parts ++ [z]) = 1 + (parts.map (fun p => byteLength p + 1)).sum := by
  have hnil : byteLength [] = 0 := rfl
  rw [← byteLength_commas h, byteLength_append, byteLength_cons, byteLength_cons, ha, hz, hnil]
  omega

theorem width_arr {xs : List Json} (h : xs ≠ []) :
    width (.arr xs) = 1 + (xs.map (fun x => width x + 1)).sum := by
  rw [width, chars_arr, byteLength_enclosed rfl rfl (by simpa using h), List.map_map]
  rfl

theorem width_obj {ms : List (String × Json)} (h : ms ≠ []) :
    width (.obj ms) = 1 + (ms.map memberWidth).sum := by
  have hmember (m : String × Json) :
      byteLength (quoted m.1 ++ ':' :: chars m.2) + 1 = memberWidth m := by
    have hcolon : Char.utf8Size ':' = 1 := rfl
    rw [byteLength_append, byteLength_cons, hcolon, memberWidth, width]
    omega
  rw [width, chars_obj, byteLength_enclosed rfl rfl (by simpa using h), List.map_map]
  exact congrArg (fun f => 1 + (ms.map f).sum) (funext hmember)

variable {σ : Type}

def Column.width (c : Column σ) (s : σ) : Nat := (c.member s).elim 0 memberWidth

theorem Record.width_write {r : Record σ} {s : σ} (h : members r.columns s ≠ []) :
    (r.format.write s).width = 1 + (r.columns.map (fun c => c.width s)).sum := by
  have hsum (columns : List (Column σ)) :
      ((members columns s).map memberWidth).sum = (columns.map (fun c => c.width s)).sum := by
    induction columns with
    | nil => rfl
    | cons c columns ih =>
      unfold members at ih ⊢
      rw [List.filterMap_cons, List.map_cons, List.sum_cons, Column.width]
      cases c.member s with
      | none => simpa using ih
      | some m => simp [ih]
  exact (width_obj h).trans (congrArg (1 + ·) (hsum r.columns))

end Width

section OneLine

variable {α σ : Type}

def Format.OneLine (fmt : Format α) : Prop := ∀ a, '\n' ∉ chars (fmt.write a)

theorem digitChar_ne_newline {n : Nat} (h : n < 16) : Nat.digitChar n ≠ '\n' := by
  revert n
  decide

theorem newline_notMem_escaped (c : Char) : '\n' ∉ escaped c := by
  unfold escaped
  repeat' split
  all_goals try decide
  · next hcontrol =>
    have hhigh := digitChar_ne_newline (n := c.toNat / 16) (by omega)
    have hlow := digitChar_ne_newline (n := c.toNat % 16) (by omega)
    simp [hhigh.symm, hlow.symm]
  · next hnewline _ _ _ => simpa using Ne.symm hnewline

theorem newline_notMem_quoted (s : String) : '\n' ∉ quoted s := by
  simp [quoted, escapedText, newline_notMem_escaped]

theorem newline_notMem_commas {parts : List (List Char)} (h : ∀ p ∈ parts, '\n' ∉ p) :
    '\n' ∉ commas parts := by
  induction parts with
  | nil => simp [commas]
  | cons p parts ih =>
    rw [List.forall_mem_cons] at h
    cases parts with
    | nil => simpa [commas] using h.1
    | cons q parts =>
      have hrest := ih h.2
      unfold commas at hrest ⊢
      rw [List.intercalate_cons_cons]
      simp [h.1, hrest]

theorem text_oneLine : text.OneLine := newline_notMem_quoted

theorem boolean_oneLine : boolean.OneLine := by
  intro b
  cases b <;> decide

theorem unsigned_oneLine (size : Nat) (toNat : α → Nat) (ofNat : Nat → α) :
    (unsigned size toNat ofNat).OneLine := by
  intro a hmem
  have hdigit := Nat.isDigit_of_mem_toDigits (b := 10) (by decide) (by decide) hmem
  exact absurd hdigit (by decide)

theorem list_oneLine {fmt : Format α} (h : fmt.OneLine) : (list fmt).OneLine := by
  intro xs
  show '\n' ∉ chars (.arr (xs.map fmt.write))
  rw [chars_arr, List.map_map]
  have hparts : '\n' ∉ commas (xs.map (chars ∘ fmt.write)) :=
    newline_notMem_commas (by simpa using fun x _ => h x)
  simp [hparts]

theorem option_oneLine {fmt : Format α} (h : fmt.OneLine) : (option fmt).OneLine := by
  intro o
  cases o with
  | none =>
    show '\n' ∉ chars .null
    decide
  | some a => exact h a

theorem newline_notMem_obj {ms : List (String × Json)} (h : ∀ m ∈ ms, '\n' ∉ chars m.2) :
    '\n' ∉ chars (.obj ms) := by
  rw [chars_obj]
  have hparts : '\n' ∉ commas (ms.map (fun m => quoted m.1 ++ ':' :: chars m.2)) := by
    refine newline_notMem_commas fun p hp => ?_
    obtain ⟨m, hm, rfl⟩ := List.mem_map.mp hp
    simp [newline_notMem_quoted, h m hm]
  simp [hparts]

theorem stringMap_oneLine : stringMap.OneLine := by
  refine fun m => newline_notMem_obj fun e he => ?_
  obtain ⟨entry, -, rfl⟩ := List.mem_map.mp he
  exact newline_notMem_quoted _

theorem Record.format_oneLine {r : Record σ} (h : ∀ c ∈ r.columns, c.field.format.OneLine) :
    r.format.OneLine := by
  refine fun s => newline_notMem_obj fun m hm => ?_
  obtain ⟨c, hc, hmember⟩ := List.mem_filterMap.mp hm
  unfold Column.member StructField.member at hmember
  split at hmember
  · cases hmember
  · cases hmember
    exact h c hc _

end OneLine

end Json
