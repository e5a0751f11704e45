import Cross233.Client.StaticFiles

namespace Cross233.Client

def percent : UInt8 := 37

def hexDigit (upper : Bool) (n : UInt8) : UInt8 :=
  if n < 10 then 48 + n else if upper then 55 + n else 87 + n

def IsHexDigit (d : UInt8) : Prop := ∃ upper n, n < 16 ∧ d = hexDigit upper n

-- Any byte may be written as an escape, and a percent sign must be.
inductive Encodes : List UInt8 → List UInt8 → Prop where
  | nil : Encodes [] []
  | plain {byte : UInt8} {bytes text : List UInt8} (hplain : byte ≠ percent)
      (hrest : Encodes bytes text) : Encodes (byte :: bytes) (byte :: text)
  | escaped {byte : UInt8} {bytes text : List UInt8} (upper upper' : Bool)
      (hrest : Encodes bytes text) :
      Encodes (byte :: bytes)
        (percent :: hexDigit upper (byte >>> 4) :: hexDigit upper' (byte &&& 15) :: text)

def BrokenEscape (text : List UInt8) : Prop :=
  ∃ before after, text = before ++ percent :: after ∧
    ¬∃ high low rest, after = high :: low :: rest ∧ IsHexDigit high ∧ IsHexDigit low

theorem forall_byte {p : UInt8 → Prop} (h : ∀ n : Fin 256, p (UInt8.ofNat n)) (b : UInt8) :
    p b := by
  have hb := h ⟨b.toNat, b.toNat_lt⟩
  rwa [UInt8.ofNat_toNat] at hb

theorem hexValue_hexDigit (upper : Bool) (b : UInt8) (h : b < 16) :
    hexValue (hexDigit upper b) = some b := by
  revert b
  refine forall_byte ?_
  cases upper <;> decide +kernel

theorem hexDigit_ne_percent (upper : Bool) (b : UInt8) (h : b < 16) :
    hexDigit upper b ≠ percent := by
  revert b
  refine forall_byte ?_
  cases upper <;> decide +kernel

theorem nibbles (b : UInt8) : b >>> 4 < 16 ∧ b &&& 15 < 16 ∧ (b >>> 4) <<< 4 ||| b &&& 15 = b := by
  revert b
  exact forall_byte (by decide +kernel)

theorem hexDigit_of_hexValue (d v : UInt8) (h : hexValue d = some v) :
    v < 16 ∧ ∃ upper, d = hexDigit upper v := by
  have hdigit : ∀ d : UInt8, (hexValue d).all
      (fun v => v < 16 && (d = hexDigit false v || d = hexDigit true v)) = true :=
    forall_byte (by decide +kernel)
  have hd := hdigit d
  rw [h] at hd
  simp only [Option.all_some, Bool.and_eq_true, Bool.or_eq_true, decide_eq_true_eq] at hd
  refine ⟨hd.1, ?_⟩
  rcases hd.2 with hlower | hupper
  · exact ⟨false, hlower⟩
  · exact ⟨true, hupper⟩

theorem nibbles_joined (high low : UInt8) (hh : high < 16) (hl : low < 16) :
    (high <<< 4 ||| low) >>> 4 = high ∧ (high <<< 4 ||| low) &&& 15 = low := by
  have hjoin : ∀ m n : Fin 16, (UInt8.ofNat m <<< 4 ||| UInt8.ofNat n) >>> 4 = UInt8.ofNat m ∧
      (UInt8.ofNat m <<< 4 ||| UInt8.ofNat n) &&& 15 = UInt8.ofNat n := by decide +kernel
  have h := hjoin ⟨high.toNat, UInt8.lt_iff_toNat_lt.mp hh⟩ ⟨low.toNat, UInt8.lt_iff_toNat_lt.mp hl⟩
  rwa [UInt8.ofNat_toNat, UInt8.ofNat_toNat] at h

theorem isHexDigit_iff (d : UInt8) : IsHexDigit d ↔ ∃ v, hexValue d = some v := by
  constructor
  · rintro ⟨upper, n, hn, rfl⟩
    exact ⟨n, hexValue_hexDigit upper n hn⟩
  · rintro ⟨v, hv⟩
    obtain ⟨hlt, upper, rfl⟩ := hexDigit_of_hexValue d v hv
    exact ⟨upper, v, hlt, rfl⟩

theorem decodeBytes_plain {byte : UInt8} (h : byte ≠ percent) (text : List UInt8) :
    decodeBytes (byte :: text) = (decodeBytes text).map (byte :: ·) := by
  rw [decodeBytes]
  · rintro high low rest rfl
    exact absurd rfl h
  · rintro rfl
    exact absurd rfl h

theorem decodeBytes_escape (high low : UInt8) (text : List UInt8) :
    decodeBytes (percent :: high :: low :: text) =
      (hexValue high).bind fun high => (hexValue low).bind fun low =>
        (decodeBytes text).map ((high <<< 4 ||| low) :: ·) := by
  rw [percent, decodeBytes]
  cases hexValue high <;> cases hexValue low <;> cases decodeBytes text <;> rfl

namespace Encodes

variable {bytes text : List UInt8}

theorem decodeBytes (h : Encodes bytes text) : decodeBytes text = some bytes := by
  induction h with
  | nil => rfl
  | plain hplain _ ih => rw [decodeBytes_plain hplain, ih, Option.map_some]
  | @escaped byte _ _ upper upper' _ ih =>
    obtain ⟨hhigh, hlow, hbyte⟩ := nibbles byte
    rw [decodeBytes_escape, hexValue_hexDigit upper _ hhigh, hexValue_hexDigit upper' _ hlow, ih]
    simp only [Option.bind_some, Option.map_some, hbyte]

theorem escapes_whole (h : Encodes bytes text) {before after : List UInt8}
    (htext : text = before ++ percent :: after) :
    ∃ high low rest, after = high :: low :: rest ∧ IsHexDigit high ∧ IsHexDigit low := by
  induction h generalizing before with
  | nil => simp at htext
  | plain hplain _ ih =>
    cases before with
    | nil => exact absurd (List.cons.inj htext).1 hplain
    | cons b before => exact ih (List.cons.inj htext).2
  | @escaped byte _ text upper upper' _ ih =>
    obtain ⟨hhigh, hlow, -⟩ := nibbles byte
    cases before with
    | nil =>
      refine ⟨_, _, text, (List.cons.inj htext).2.symm, ?_, ?_⟩
      · exact ⟨upper, _, hhigh, rfl⟩
      · exact ⟨upper', _, hlow, rfl⟩
    | cons b before =>
      -- The two digits are no percent signs, so the sign stands after the escape.
      cases before with
      | nil =>
        have hsign := (List.cons.inj (List.cons.inj htext).2).1
        exact absurd hsign (hexDigit_ne_percent upper _ hhigh)
      | cons b before =>
        have hdigits := (List.cons.inj (List.cons.inj htext).2).2
        cases before with
        | nil => exact absurd (List.cons.inj hdigits).1 (hexDigit_ne_percent upper' _ hlow)
        | cons b before => exact ih (List.cons.inj hdigits).2

end Encodes

theorem brokenEscape_append (before : List UInt8) {text : List UInt8} (h : BrokenEscape text) :
    BrokenEscape (before ++ text) := by
  obtain ⟨front, after, rfl, hbroken⟩ := h
  exact ⟨before ++ front, after, (List.append_assoc _ _ _).symm, hbroken⟩

theorem encodes_or_broken (text : List UInt8) :
    (∃ bytes, Encodes bytes text) ∨ BrokenEscape text ∧ decodeBytes text = none := by
  induction text using decodeBytes.induct with
  | case1 => exact .inl ⟨[], .nil⟩
  | case2 high low text ih =>
    by_cases hdigits : IsHexDigit high ∧ IsHexDigit low
    · rcases ih with ⟨bytes, hbytes⟩ | ⟨hbroken, hnone⟩
      · obtain ⟨⟨upper, m, hm, rfl⟩, upper', n, hn, rfl⟩ := hdigits
        obtain ⟨hhigh, hlow⟩ := nibbles_joined m n hm hn
        have hescaped : Encodes ((m <<< 4 ||| n) :: bytes) _ := .escaped upper upper' hbytes
        rw [hhigh, hlow] at hescaped
        exact .inl ⟨_, hescaped⟩
      · refine .inr ⟨brokenEscape_append [percent, high, low] hbroken, ?_⟩
        exact (decodeBytes_escape high low text).trans (by simp [hnone])
    · refine .inr ⟨⟨[], high :: low :: text, rfl, ?_⟩, ?_⟩
      · rintro ⟨_, _, _, heq, hhigh, hlow⟩
        cases heq
        exact hdigits ⟨hhigh, hlow⟩
      · refine (decodeBytes_escape high low text).trans ?_
        rw [isHexDigit_iff, isHexDigit_iff] at hdigits
        cases hhigh : hexValue high with
        | none => rfl
        | some v =>
          cases hlow : hexValue low with
          | none => rfl
          | some w => exact absurd ⟨⟨v, hhigh⟩, w, hlow⟩ hdigits
  | case3 text hshort =>
    refine .inr ⟨⟨[], text, rfl, ?_⟩, ?_⟩
    · rintro ⟨high, low, rest, rfl, -⟩
      exact hshort high low rest rfl
    · rw [decodeBytes]
      exact hshort
  | case4 byte text _ hplain ih =>
    rcases ih with ⟨bytes, hbytes⟩ | ⟨hbroken, hnone⟩
    · exact .inl ⟨byte :: bytes, .plain hplain hbytes⟩
    · refine .inr ⟨brokenEscape_append [byte] hbroken, ?_⟩
      rw [decodeBytes_plain hplain, hnone, Option.map_none]

theorem percent_decode_inverts :
    (∀ s input : String, Encodes (Text.utf8 s) (Text.utf8 input) →
        percentDecode input = some s) ∧
      ∀ input : String, percentDecode input = none ↔
        BrokenEscape (Text.utf8 input) ∨
          ∃ bytes, Encodes bytes (Text.utf8 input) ∧ ∀ s : String, Text.utf8 s ≠ bytes := by
  refine ⟨fun s input h => ?_, fun input => ?_⟩
  · rw [percentDecode, h.decodeBytes, Option.bind_some, Text.fromUtf8_utf8]
  · rcases encodes_or_broken (Text.utf8 input) with ⟨bytes, hbytes⟩ | ⟨hbroken, hnone⟩
    · have hdecode : percentDecode input = Text.fromUtf8 bytes := by
        rw [percentDecode, hbytes.decodeBytes, Option.bind_some]
      rw [hdecode]
      constructor
      · intro hnone
        refine .inr ⟨bytes, hbytes, fun s hs => ?_⟩
        rw [← hs, Text.fromUtf8_utf8] at hnone
        cases hnone
      · rintro (⟨before, after, htext, hnone⟩ | ⟨bytes', hbytes', hinvalid⟩)
        · exact absurd (hbytes.escapes_whole htext) hnone
        · cases Option.some.inj (hbytes.decodeBytes.symm.trans hbytes'.decodeBytes)
          rw [Option.eq_none_iff_forall_ne_some]
          exact fun s hs => hinvalid s (Text.utf8_of_fromUtf8 hs)
    · refine iff_of_true ?_ (.inl hbroken)
      rw [percentDecode, hnone, Option.bind_none]

theorem percent_decode_inverts_mixed :
    percentDecode "%c3%A9%25 a" = some "é% a" ∧ percentDecode "a%2" = none ∧
      percentDecode "%FF" = none := by
  refine ⟨percent_decode_inverts.1 "é% a" "%c3%A9%25 a" ?_,
    (percent_decode_inverts.2 "a%2").mpr (.inl ?_), by decide +kernel⟩
  · have hs : Text.utf8 "é% a" = [0xc3, 0xa9, 37, 32, 97] := by decide +kernel
    have hinput : Text.utf8 "%c3%A9%25 a" =
        [37, 99, 51, 37, 65, 57, 37, 50, 53, 32, 97] := by decide +kernel
    rw [hs, hinput]
    exact .escaped false true (.escaped true true (.escaped true true
      (.plain (by decide) (.plain (by decide) .nil))))
  · have hinput : Text.utf8 "a%2" = [97, 37, 50] := by decide +kernel
    rw [hinput]
    exact ⟨[97], [50], rfl, by rintro ⟨high, low, rest, heq, -⟩; cases heq⟩

end Cross233.Client
