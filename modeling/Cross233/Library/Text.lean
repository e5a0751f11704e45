import Mathlib.Data.List.Basic

namespace Text

-- The code points with the Unicode property White_Space.
def isWhitespace (c : Char) : Bool :=
  c = ' ' || ('\t' ≤ c && c ≤ '\r') || c = '\u0085' || c = '\u00a0' || c = '\u1680' ||
    ('\u2000' ≤ c && c ≤ '\u200a') || c = '\u2028' || c = '\u2029' || c = '\u202f' ||
    c = '\u205f' || c = '\u3000'

def trim (s : List Char) : List Char :=
  ((s.dropWhile isWhitespace).reverse.dropWhile isWhitespace).reverse

def contains (pattern text : List Char) : Bool :=
  text.tails.any (fun suffix => pattern.isPrefixOf suffix)

def digit (radix : Nat) (c : Char) : Option Nat :=
  let d :=
    if '0' ≤ c ∧ c ≤ '9' then some (c.toNat - '0'.toNat)
    else if 'a' ≤ c ∧ c ≤ 'z' then some (c.toNat - 'a'.toNat + 10)
    else if 'A' ≤ c ∧ c ≤ 'Z' then some (c.toNat - 'A'.toNat + 10)
    else none
  d.filter (· < radix)

def toAsciiLower (s : List Char) : List Char := s.map Char.toLower

def toAsciiUpper (s : List Char) : List Char := s.map Char.toUpper

def eqIgnoreAsciiCase (s t : List Char) : Bool := toAsciiLower s = toAsciiLower t

theorem toLower_val {c : Char} (h : c.val ≥ 'A'.val ∧ c.val ≤ 'Z'.val) :
    c.toLower.val = c.val + 32 :=
  congrArg Char.val (dif_pos h : c.toLower = _)

theorem toLower_toLower (c : Char) : c.toLower.toLower = c.toLower := by
  by_cases h : c.val ≥ 'A'.val ∧ c.val ≤ 'Z'.val
  · have hval := toLower_val h
    have hlow : c.toLower.val > 'Z'.val := by
      obtain ⟨hge, hle⟩ := h
      rw [hval]
      simp only [ge_iff_le, gt_iff_lt, UInt32.le_iff_toNat_le, UInt32.lt_iff_toNat_lt,
        UInt32.toNat_add] at hge hle ⊢
      change 65 ≤ _ at hge
      change _ ≤ 90 at hle
      change 90 < (_ + 32) % _
      omega
    exact dif_neg (fun hc => absurd hc.2 (UInt32.not_le.mpr hlow))
  · have hsame : c.toLower = c := dif_neg h
    rw [hsame, hsame]

theorem toAsciiLower_toAsciiLower (s : List Char) :
    toAsciiLower (toAsciiLower s) = toAsciiLower s := by
  rw [toAsciiLower, toAsciiLower, List.map_map]
  exact List.map_congr_left (fun c _ => toLower_toLower c)

def byteLength (s : List Char) : Nat := (s.map Char.utf8Size).foldl (· + ·) 0

-- Fails where the index falls inside a character, as slicing a str does.
def splitAtByte : Nat → List Char → Option (List Char × List Char)
  | 0, s => some ([], s)
  | _ + 1, [] => none
  | n + 1, c :: cs =>
    if c.utf8Size ≤ n + 1 then
      (splitAtByte (n + 1 - c.utf8Size) cs).map (fun r => (c :: r.1, r.2))
    else none

def splitCrlf : List Char → List (List Char)
  | [] => [[]]
  | '\r' :: '\n' :: cs => [] :: splitCrlf cs
  | c :: cs =>
    match splitCrlf cs with
    | [] => [[c]]
    | line :: lines => (c :: line) :: lines

def splitOnce (sep : Char) (s : List Char) : Option (List Char × List Char) :=
  match s.span (· ≠ sep) with
  | (_, []) => none
  | (head, _ :: rest) => some (head, rest)

def splitWhitespace (s : List Char) : List (List Char) :=
  (s.splitOnP isWhitespace).filter (· ≠ [])

def stripHead (pattern s : List Char) : Option (List Char) :=
  if pattern.isPrefixOf s then some (s.drop pattern.length) else none

def utf8 (s : String) : List UInt8 := s.toUTF8.data.toList

def fromUtf8 (bytes : List UInt8) : Option String := String.fromUTF8? ⟨bytes.toArray⟩

def utf8Width (b : UInt8) : Nat :=
  if b < 0x80 then 1
  else if 0xc2 ≤ b ∧ b ≤ 0xdf then 2
  else if 0xe0 ≤ b ∧ b ≤ 0xef then 3
  else if 0xf0 ≤ b ∧ b ≤ 0xf4 then 4
  else 0

-- The second byte of a sequence excludes overlong forms, surrogates and values past U+10FFFF.
def utf8Continues (seen : List UInt8) (b : UInt8) : Bool :=
  match seen with
  | [] => false
  | [0xe0] => 0xa0 ≤ b && b ≤ 0xbf
  | [0xed] => 0x80 ≤ b && b ≤ 0x9f
  | [0xf0] => 0x90 ≤ b && b ≤ 0xbf
  | [0xf4] => 0x80 ≤ b && b ≤ 0x8f
  | _ => 0x80 ≤ b && b ≤ 0xbf

def utf8Char (bytes : List UInt8) : Char :=
  match bytes with
  | [] => '\ufffd'
  | b :: rest =>
    let head := if rest = [] then b.toNat else b.toNat % (64 >>> rest.length)
    Char.ofNat (rest.foldl (fun n c => n * 64 + c.toNat % 64) head)

-- Every maximal broken sequence becomes one replacement character.
def decodeLossy (seen : List UInt8) : List UInt8 → List Char
  | [] => if seen = [] then [] else ['\ufffd']
  | b :: bs =>
    let continues := utf8Continues seen b
    let broken := if continues || seen = [] then [] else ['\ufffd']
    let bytes := if continues then seen ++ [b] else [b]
    let width := utf8Width (bytes.headD b)
    if width = 0 then broken ++ '\ufffd' :: decodeLossy [] bs
    else if bytes.length = width then broken ++ utf8Char bytes :: decodeLossy [] bs
    else broken ++ decodeLossy bytes bs

def fromUtf8Lossy (bytes : List UInt8) : List Char := decodeLossy [] bytes

example : fromUtf8Lossy (utf8 "aé€😀" ++ [0xe2, 0x82, 0x41, 0xff]) =
    "aé€😀".toList ++ ['\ufffd', 'A', '\ufffd'] := by decide +kernel

-- A valid text is borrowed as it is.
def lossyText (bytes : List UInt8) : String :=
  (fromUtf8 bytes).getD (String.ofList (fromUtf8Lossy bytes))

def hexEncode (bytes : List UInt8) : List Char :=
  bytes.flatMap (fun b => [Nat.digitChar (b.toNat / 16), Nat.digitChar (b.toNat % 16)])

example : hexEncode [0x00, 0x9f, 0xff] = "009fff".toList := by decide

theorem hexEncode_length (bytes : List UInt8) :
    (hexEncode bytes).length = 2 * bytes.length := by
  induction bytes with
  | nil => rfl
  | cons b bytes ih =>
    have hcons : hexEncode (b :: bytes) =
        [Nat.digitChar (b.toNat / 16), Nat.digitChar (b.toNat % 16)] ++ hexEncode bytes := rfl
    rw [hcons, List.length_append, ih, List.length_cons]
    simp only [List.length_cons, List.length_nil]
    omega

theorem fromUtf8_utf8 (s : String) : fromUtf8 (utf8 s) = some s := by
  simp [fromUtf8, utf8, String.fromUTF8?, String.fromUTF8, s.isValidUTF8]

theorem utf8_empty : utf8 "" = [] := rfl

theorem utf8_append (s t : String) : utf8 (s ++ t) = utf8 s ++ utf8 t := by
  simp [utf8]

theorem dropWhile_of_head {p : Char → Bool} {c : Char} (cs : List Char) (h : p c = false) :
    (c :: cs).dropWhile p = c :: cs := by
  simp [h]

theorem trim_id {a z : Char} (body : List Char) (ha : isWhitespace a = false)
    (hz : isWhitespace z = false) : trim (a :: body ++ [z]) = a :: body ++ [z] := by
  have hfront : (a :: body ++ [z]).dropWhile isWhitespace = a :: body ++ [z] :=
    dropWhile_of_head _ ha
  have hrev : (a :: body ++ [z]).reverse = z :: (a :: body).reverse := by simp
  rw [trim, hfront, hrev, dropWhile_of_head _ hz]
  simp

theorem trim_concat {a z c : Char} (body : List Char) (ha : isWhitespace a = false)
    (hz : isWhitespace z = false) (hc : isWhitespace c = true) :
    trim (a :: body ++ [z] ++ [c]) = a :: body ++ [z] := by
  have hfront : (a :: body ++ [z] ++ [c]).dropWhile isWhitespace = a :: body ++ [z] ++ [c] :=
    dropWhile_of_head _ ha
  have hback : (c :: z :: (a :: body).reverse).dropWhile isWhitespace =
      z :: (a :: body).reverse := by
    rw [List.dropWhile_cons_of_pos hc]
    exact dropWhile_of_head _ hz
  have hrev : (a :: body ++ [z] ++ [c]).reverse = c :: z :: (a :: body).reverse := by simp
  rw [trim, hfront, hrev, hback]
  simp

theorem trim_front (s : List Char) : trim s <+: s.dropWhile isWhitespace := by
  rw [← List.reverse_suffix, trim, List.reverse_reverse]
  exact List.dropWhile_suffix _

theorem mem_of_mem_trim {s : List Char} {c : Char} (h : c ∈ trim s) : c ∈ s :=
  (List.dropWhile_suffix _).subset ((trim_front s).subset h)

theorem trim_head {s cs : List Char} {c : Char} (h : trim s = c :: cs) :
    isWhitespace c = false := by
  obtain ⟨rest, hrest⟩ := trim_front s
  have hhead : (s.dropWhile isWhitespace).head? = some c := by
    rw [← hrest, h]
    rfl
  have hnot := List.head?_dropWhile_not isWhitespace s
  rw [hhead] at hnot
  exact hnot

theorem splitCrlf_ne_nil (s : List Char) : splitCrlf s ≠ [] := by
  fun_induction splitCrlf s with
  | case1 => exact List.cons_ne_nil _ _
  | case2 cs ih => exact List.cons_ne_nil _ _
  | case3 c cs h hsplit ih => exact List.cons_ne_nil _ _
  | case4 c cs h line lines hsplit ih => exact List.cons_ne_nil _ _

theorem splitCrlf_cons {c : Char} {cs line : List Char} {lines : List (List Char)}
    (h : ∀ rest, c = '\r' → cs = '\n' :: rest → False) (hsplit : splitCrlf cs = line :: lines) :
    splitCrlf (c :: cs) = (c :: line) :: lines := by
  rw [splitCrlf, hsplit]
  exact h

-- A line end is never made by what stands on both sides of the cut.
theorem splitCrlf_append (s t : List Char) :
    splitCrlf (s ++ '\r' :: '\n' :: t) = splitCrlf s ++ splitCrlf t := by
  fun_induction splitCrlf s with
  | case1 => rfl
  | case2 cs ih => exact congrArg ([] :: ·) ih
  | case3 c cs h hsplit ih => exact absurd hsplit (splitCrlf_ne_nil cs)
  | case4 c cs h line lines hsplit ih =>
    rw [hsplit] at ih
    refine splitCrlf_cons (fun rest hc hcs => ?_) ih
    cases cs with
    | nil => cases hcs
    | cons d ds =>
      cases hcs
      exact h ds hc rfl

theorem flatten_splitCrlf (s : List Char) :
    ((splitCrlf s).map (· ++ ['\r', '\n'])).flatten = s ++ ['\r', '\n'] := by
  fun_induction splitCrlf s with
  | case1 => rfl
  | case2 cs ih => exact congrArg (['\r', '\n'] ++ ·) ih
  | case3 c cs h hsplit ih => exact absurd hsplit (splitCrlf_ne_nil cs)
  | case4 c cs h line lines hsplit ih =>
    rw [hsplit] at ih
    exact congrArg (c :: ·) ih

theorem byteLength_cons (c : Char) (s : List Char) :
    byteLength (c :: s) = c.utf8Size + byteLength s := by
  have hacc : ∀ (l : List Nat) (n : Nat), l.foldl (· + ·) n = n + l.foldl (· + ·) 0 := by
    intro l
    induction l with
    | nil => exact fun n => rfl
    | cons x l ih =>
      intro n
      rw [List.foldl_cons, List.foldl_cons, ih (n + x), ih (0 + x)]
      omega
  rw [byteLength, List.map_cons, List.foldl_cons, hacc, Nat.zero_add]
  rfl

theorem byteLength_append (s t : List Char) :
    byteLength (s ++ t) = byteLength s + byteLength t := by
  induction s with
  | nil => exact (Nat.zero_add _).symm
  | cons c s ih => rw [List.cons_append, byteLength_cons, byteLength_cons, ih, Nat.add_assoc]

theorem length_le_byteLength (s : List Char) : s.length ≤ byteLength s := by
  induction s with
  | nil => exact Nat.le_refl _
  | cons c s ih =>
    have hpos := c.utf8Size_pos
    rw [byteLength_cons, List.length_cons]
    omega

theorem splitAtByte_append (s t : List Char) :
    splitAtByte (byteLength s) (s ++ t) = some (s, t) := by
  induction s with
  | nil => cases t <;> rfl
  | cons c s ih =>
    have hpos := c.utf8Size_pos
    obtain ⟨n, hn⟩ : ∃ n, byteLength (c :: s) = n + 1 := ⟨byteLength (c :: s) - 1, by
      rw [byteLength_cons]
      omega⟩
    have hrest : n + 1 - c.utf8Size = byteLength s := by
      rw [← hn, byteLength_cons]
      omega
    have hfits : c.utf8Size ≤ n + 1 := by
      rw [← hn, byteLength_cons]
      omega
    rw [hn, List.cons_append, splitAtByte, if_pos hfits, hrest, ih]
    rfl

theorem splitAtByte_some {n : Nat} {s head rest : List Char}
    (h : splitAtByte n s = some (head, rest)) : s = head ++ rest ∧ byteLength head = n := by
  fun_induction splitAtByte n s generalizing head with
  | case1 s =>
    cases h
    exact ⟨rfl, rfl⟩
  | case2 n => cases h
  | case3 n c cs hfits ih =>
    obtain ⟨⟨head', rest'⟩, hr, he⟩ := Option.map_eq_some_iff.mp h
    cases he
    obtain ⟨hcs, hlen⟩ := ih hr
    refine ⟨congrArg (c :: ·) hcs, ?_⟩
    rw [byteLength_cons, hlen]
    omega
  | case4 n c cs hfits => cases h
theorem toLower_utf8Size (c : Char) : c.toLower.utf8Size = c.utf8Size := by
  by_cases h : c.val ≥ 'A'.val ∧ c.val ≤ 'Z'.val
  · have hval := toLower_val h
    obtain ⟨hge, hle⟩ := h
    have hsmall : c.val ≤ 0x7f := UInt32.le_trans hle (by decide)
    have hsmall' : c.toLower.val ≤ 0x7f := by
      rw [hval]
      simp only [UInt32.le_iff_toNat_le, UInt32.toNat_add] at hle ⊢
      change _ ≤ 90 at hle
      change (_ + 32) % _ ≤ 127
      omega
    exact (if_pos hsmall' : c.toLower.utf8Size = 1).trans (if_pos hsmall).symm
  · have hsame : c.toLower = c := dif_neg h
    rw [hsame]

theorem byteLength_toAsciiLower (s : List Char) : byteLength (toAsciiLower s) = byteLength s := by
  induction s with
  | nil => rfl
  | cons c s ih =>
    have hcons : toAsciiLower (c :: s) = c.toLower :: toAsciiLower s := rfl
    rw [hcons, byteLength_cons, byteLength_cons, toLower_utf8Size, ih]

theorem utf8_of_fromUtf8 {bytes : List UInt8} {s : String} (h : fromUtf8 bytes = some s) :
    utf8 s = bytes := by
  unfold fromUtf8 String.fromUTF8? at h
  split at h
  · cases h
    rfl
  · cases h

theorem utf8_ofList (cs : List Char) :
    utf8 (String.ofList cs) = cs.flatMap String.utf8EncodeChar := by
  simp [utf8, List.utf8Encode]

theorem length_utf8_ofList (cs : List Char) : (utf8 (String.ofList cs)).length = byteLength cs := by
  rw [utf8_ofList]
  induction cs with
  | nil => rfl
  | cons c cs ih =>
    rw [List.flatMap_cons, List.length_append, ih, String.length_utf8EncodeChar, byteLength_cons]

-- Only the characters of the ASCII range have bytes below 128.
theorem toNat_of_mem_encode {c : Char} {b : UInt8} (hb : b.toNat < 128)
    (h : b ∈ String.utf8EncodeChar c) : c.toNat = b.toNat := by
  have hbytes : String.utf8EncodeChar c =
      if c.toNat ≤ 0x7f then [UInt8.ofNat c.toNat]
      else if c.toNat ≤ 0x7ff then
        [UInt8.ofNat (c.toNat / 64 % 0x20 + 0xc0), UInt8.ofNat (c.toNat % 0x40 + 0x80)]
      else if c.toNat ≤ 0xffff then
        [UInt8.ofNat (c.toNat / 4096 % 0x10 + 0xe0), UInt8.ofNat (c.toNat / 64 % 0x40 + 0x80),
          UInt8.ofNat (c.toNat % 0x40 + 0x80)]
      else
        [UInt8.ofNat (c.toNat / 262144 % 0x08 + 0xf0), UInt8.ofNat (c.toNat / 4096 % 0x40 + 0x80),
          UInt8.ofNat (c.toNat / 64 % 0x40 + 0x80), UInt8.ofNat (c.toNat % 0x40 + 0x80)] := rfl
  have hlarge (n : Nat) (hn : 128 ≤ n) (hn' : n < 256) : b ≠ UInt8.ofNat n := by
    rintro rfl
    rw [UInt8.toNat_ofNat_of_lt' hn'] at hb
    omega
  rw [hbytes] at h
  split at h
  · next hsmall =>
    rw [List.mem_singleton.mp h, UInt8.toNat_ofNat_of_lt' (by simp [UInt8.size]; omega)]
  · exfalso
    split at h
    · simp only [List.mem_cons, List.not_mem_nil, or_false] at h
      rcases h with h | h <;> exact hlarge _ (by omega) (by omega) h
    · split at h
      · simp only [List.mem_cons, List.not_mem_nil, or_false] at h
        rcases h with h | h | h <;> exact hlarge _ (by omega) (by omega) h
      · simp only [List.mem_cons, List.not_mem_nil, or_false] at h
        rcases h with h | h | h | h <;> exact hlarge _ (by omega) (by omega) h

theorem mem_utf8_ofList {cs : List Char} {b : UInt8} (hb : b.toNat < 128)
    (h : b ∈ utf8 (String.ofList cs)) : ∃ c ∈ cs, c.toNat = b.toNat := by
  rw [utf8_ofList] at h
  obtain ⟨c, hc, hbyte⟩ := List.mem_flatMap.mp h
  exact ⟨c, hc, toNat_of_mem_encode hb hbyte⟩

end Text
