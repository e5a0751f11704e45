import Mathlib.Algebra.Order.Ring.Nat
import Cross233.Library.IpAddr

namespace IpAddr

def isDigit (radix : Nat) (c : Char) : Bool := (Text.digit radix c).isSome

-- A text at which a number ends.
def Breaks (radix : Nat) (rest : List Char) : Prop := ∀ c ∈ rest.head?, isDigit radix c = false

theorem digit_digitChar {radix d : Nat} (hr : radix ≤ 16) (hd : d < radix) :
    Text.digit radix (Nat.digitChar d) = some d := by
  have hall : ∀ d < 16, ∀ radix ≤ 16, d < radix → Text.digit radix (Nat.digitChar d) = some d := by
    decide
  exact hall d (by omega) radix hr hd

theorem readDigits_break {radix : Nat} {rest : List Char} (h : Breaks radix rest) :
    readDigits radix rest = ([], rest) := by
  cases rest with
  | nil => rfl
  | cons c rest =>
    have hc : Text.digit radix c = none := by
      simpa [isDigit] using h c rfl
    simp only [readDigits, hc]

theorem readDigits_append {radix : Nat} (ds : List Nat) (hr : radix ≤ 16)
    (hd : ∀ d ∈ ds, d < radix) {rest : List Char} (h : Breaks radix rest) :
    readDigits radix (ds.map Nat.digitChar ++ rest) = (ds, rest) := by
  induction ds with
  | nil => exact readDigits_break h
  | cons d ds ih =>
    have hhead := digit_digitChar hr (hd d List.mem_cons_self)
    have htail := ih (fun d' hd' => hd d' (List.mem_cons_of_mem d hd'))
    simp only [List.map_cons, List.cons_append, readDigits, hhead, htail]

structure Digits (radix n : Nat) (ds : List Nat) : Prop where
  text : Nat.toDigits radix n = ds.map Nat.digitChar
  bound : ∀ d ∈ ds, d < radix
  value : ds.foldl (fun n d => n * radix + d) 0 = n
  canonical : ds.head? = some 0 → ds.length = 1

theorem exists_digits {radix : Nat} (hr : 1 < radix) (n : Nat) : ∃ ds, Digits radix n ds := by
  induction n using Nat.strongRecOn with
  | ind n ih =>
    by_cases hlt : n < radix
    · exact ⟨[n], Nat.toDigits_of_lt_base hlt, by simpa using hlt, by simp, fun _ => rfl⟩
    · have hle : radix ≤ n := Nat.not_lt.mp hlt
      have hsmall : n / radix < n := Nat.div_lt_self (by omega) hr
      obtain ⟨ds, hds⟩ := ih (n / radix) hsmall
      have hmod : n % radix < radix := Nat.mod_lt n (by omega)
      have hpos : 0 < n / radix := Nat.div_pos hle (by omega)
      refine ⟨ds ++ [n % radix], ?_, ?_, ?_, ?_⟩
      · rw [Nat.toDigits_of_base_le hr hle, hds.text, List.map_append]
        rfl
      · intro d hd
        rcases List.mem_append.mp hd with hd | hd
        · exact hds.bound d hd
        · exact List.mem_singleton.mp hd ▸ hmod
      · rw [List.foldl_append, hds.value]
        simp only [List.foldl_cons, List.foldl_nil]
        rw [Nat.mul_comm]
        exact Nat.div_add_mod n radix
      · intro hhead
        -- A leading zero would make the leading part zero.
        have hne : ds ≠ [] := by
          rintro rfl
          have := hds.value
          simp at this
          omega
        rw [List.head?_append_of_ne_nil _ hne] at hhead
        obtain ⟨d, rfl⟩ := List.length_eq_one_iff.mp (hds.canonical hhead)
        have hzero := hds.value
        simp only [List.head?_cons, Option.some.injEq] at hhead
        simp [hhead] at hzero
        omega

theorem digits_length {radix n : Nat} {ds : List Nat} (h : Digits radix n ds) (hr : 1 < radix)
    {k : Nat} (hk : 0 < k) (hn : n < radix ^ k) : ds.length ≤ k := by
  have hlen := (Nat.length_toDigits_le_iff hr hk).mpr hn
  rwa [h.text, List.length_map] at hlen

theorem readNumber_toDigits {radix maxDigits bound n : Nat} {allow : Bool} (hr : 1 < radix)
    (hr' : radix ≤ 16) (hm : 0 < maxDigits) (hlen : n < radix ^ maxDigits) (hn : n < bound)
    {rest : List Char} (h : Breaks radix rest) :
    readNumber radix maxDigits bound allow (Nat.toDigits radix n ++ rest) = some (n, rest) := by
  obtain ⟨ds, hds⟩ := exists_digits hr n
  have hne : ds ≠ [] := by
    rintro rfl
    exact Nat.toDigits_ne_nil hds.text
  have hlong := digits_length hds hr hm hlen
  have hzero : ¬(allow = false ∧ ds.head? = some 0 ∧ 1 < ds.length) := by
    rintro ⟨-, hhead, hone⟩
    have := hds.canonical hhead
    omega
  simp only [readNumber, hds.text, readDigits_append ds hr' hds.bound h, hds.value, hne, hzero,
    Nat.not_lt.mpr hlong, hn, or_self, if_false, if_true]

theorem readUnsigned_toDigits {bound n : Nat} (hn : n < bound) {rest : List Char}
    (h : Breaks 10 rest) : readUnsigned bound (Nat.toDigits 10 n ++ rest) = some (n, rest) := by
  obtain ⟨ds, hds⟩ := exists_digits (by decide : 1 < 10) n
  have hne : ds ≠ [] := by
    rintro rfl
    exact Nat.toDigits_ne_nil hds.text
  simp only [readUnsigned, hds.text, readDigits_append ds (by decide) hds.bound h, hds.value, hne,
    hn, if_false, if_true]

theorem breaks_cons {radix : Nat} {c : Char} (h : isDigit radix c = false) (rest : List Char) :
    Breaks radix (c :: rest) := by
  intro d hd
  cases hd
  exact h

theorem readOctet {n : Nat} (hn : n < 256) {rest : List Char} (h : Breaks 10 rest) :
    readNumber 10 3 256 false (Nat.toDigits 10 n ++ rest) = some (n, rest) :=
  readNumber_toDigits (by decide) (by decide) (by decide) (by omega) hn h

theorem readIpv4_octetsText {a b c d : Nat} (ha : a < 256) (hb : b < 256) (hc : c < 256)
    (hd : d < 256) {rest : List Char} (h : Breaks 10 rest) :
    readIpv4 (octetsText [a, b, c, d] ++ rest) = some ([a, b, c, d], rest) := by
  have hdot (s : List Char) : Breaks 10 ('.' :: s) := breaks_cons (by decide) s
  have htext : octetsText [a, b, c, d] ++ rest =
      Nat.toDigits 10 a ++ '.' :: (Nat.toDigits 10 b ++ '.' :: (Nat.toDigits 10 c ++
        '.' :: (Nat.toDigits 10 d ++ rest))) := by
    simp [octetsText, List.intercalate]
  rw [htext]
  simp only [readIpv4, readOctets, readSeparator, readOctet ha (hdot _), readOctet hb (hdot _),
    readOctet hc (hdot _), readOctet hd h, Option.bind_eq_bind, Option.bind_some, Nat.sub_self,
    if_true, Nat.reduceSub, Nat.reduceEqDiff, if_false]

theorem readDigits_rest (radix : Nat) (s : List Char) :
    (readDigits radix s).2 = s.dropWhile (isDigit radix) := by
  induction s with
  | nil => rfl
  | cons c s ih =>
    cases hc : Text.digit radix c with
    | none => simp [readDigits, isDigit, hc]
    | some d => simp [readDigits, isDigit, hc, ih]

theorem readNumber_rest {radix maxDigits bound v : Nat} {allow : Bool} {s rest : List Char}
    (h : readNumber radix maxDigits bound allow s = some (v, rest)) :
    rest = s.dropWhile (isDigit radix) := by
  simp only [readNumber] at h
  rw [← readDigits_rest]
  split at h
  · cases h
  · split at h
    · cases h
    · split at h
      · cases h
        rfl
      · cases h

theorem readIpv4_none {s : List Char} (h : ∀ c ∈ (s.dropWhile (isDigit 10)).head?, c ≠ '.') :
    readIpv4 s = none := by
  have hfirst : readIpv4 s = (readNumber 10 3 256 false s).bind fun r =>
      (readOctets 3 r.2).bind fun t => some (r.1 :: t.1, t.2) := rfl
  rw [hfirst]
  cases hn : readNumber 10 3 256 false s with
  | none => rfl
  | some r =>
    obtain ⟨v, rest⟩ := r
    rw [← readNumber_rest hn] at h
    have hnext : readOctets 3 rest = none := by
      cases rest with
      | nil => rfl
      | cons c rest =>
        have hc : c ≠ '.' := h c rfl
        simp [readOctets, readSeparator, hc]
    simp [hnext]

-- What may follow a group of an IPv6 address.
def Ends (rest : List Char) : Prop := ∀ c ∈ rest.head?, c = ':' ∨ c = ']' ∨ c = '%'

theorem Ends.breaks_hex {rest : List Char} (h : Ends rest) : Breaks 16 rest := by
  intro c hc
  rcases h c hc with rfl | rfl | rfl <;> decide

theorem Ends.breaks {rest : List Char} (h : Ends rest) : Breaks 10 rest := by
  intro c hc
  rcases h c hc with rfl | rfl | rfl <;> decide

theorem ends_cons (rest : List Char) : Ends (':' :: rest) := by
  intro c hc
  cases hc
  exact Or.inl rfl

theorem readIpv4_group (g : Nat) {rest : List Char} (h : Ends rest) :
    readIpv4 (Nat.toDigits 16 g ++ rest) = none := by
  obtain ⟨ds, hds⟩ := exists_digits (by decide : 1 < 16) g
  rw [hds.text]
  refine readIpv4_none ?_
  have hbound := hds.bound
  clear hds
  induction ds with
  | nil =>
    intro c hc
    cases rest with
    | nil => cases hc
    | cons e rest =>
      rw [List.map_nil, List.nil_append,
        List.dropWhile_cons_of_neg (by simp [h.breaks e rfl])] at hc
      cases hc
      rcases h c rfl with rfl | rfl | rfl <;> decide
  | cons d ds ih =>
    intro c hc
    rw [List.map_cons, List.cons_append, List.dropWhile_cons] at hc
    split at hc
    · exact ih (fun d' hd' => hbound d' (List.mem_cons_of_mem d hd')) c hc
    · cases hc
      have hall : ∀ d < 16, Nat.digitChar d ≠ '.' := by decide
      exact hall d (hbound d List.mem_cons_self)

theorem readGroup {g : Nat} (hg : g < 65536) {rest : List Char} (h : Ends rest) :
    readNumber 16 4 65536 true (Nat.toDigits 16 g ++ rest) = some (g, rest) :=
  readNumber_toDigits (by decide) (by decide) (by decide) (by omega) hg h.breaks_hex

def tailText (groups : List Nat) : List Char :=
  groups.flatMap (fun g => ':' :: Nat.toDigits 16 g)

theorem groupsText_cons (g : Nat) (groups : List Nat) :
    groupsText (g :: groups) = Nat.toDigits 16 g ++ tailText groups := by
  induction groups generalizing g with
  | nil => simp [groupsText, tailText, List.intercalate]
  | cons g' groups ih =>
    have htail : groupsText (g :: g' :: groups) =
        Nat.toDigits 16 g ++ ':' :: groupsText (g' :: groups) := by
      simp [groupsText, List.intercalate]
    rw [htail, ih g']
    simp [tailText]

theorem tail_ends (groups : List Nat) {rest : List Char} (h : Ends rest) :
    Ends (tailText groups ++ rest) := by
  cases groups with
  | nil => exact h
  | cons g groups => exact ends_cons _

-- A series of groups ends at the closing bracket, at a scope or at a double colon.
structure Stops (rest : List Char) : Prop where
  ends : Ends rest
  colon : ∀ rest', rest = ':' :: rest' → rest'.head? = some ':'

theorem Stops.first {rest : List Char} (h : Stops rest) :
    readIpv4 rest = none ∧ readNumber 16 4 65536 true rest = none := by
  refine ⟨readIpv4_none fun c hc => ?_, ?_⟩
  · cases rest with
    | nil => cases hc
    | cons e rest =>
      rw [List.dropWhile_cons_of_neg (by simp [h.ends.breaks e rfl])] at hc
      cases hc
      rcases h.ends c rfl with rfl | rfl | rfl <;> decide
  · simp [readNumber, readDigits_break h.ends.breaks_hex]

theorem Stops.next {rest : List Char} (h : Stops rest) {index : Nat} (hi : index ≠ 0) :
    readSeparator ':' index readIpv4 rest = none ∧
      readSeparator ':' index (readNumber 16 4 65536 true) rest = none := by
  cases rest with
  | nil => simp [readSeparator, hi]
  | cons c rest =>
    by_cases hc : c = ':'
    · subst hc
      obtain ⟨rest', rfl⟩ := List.head?_eq_some_iff.mp (h.colon rest rfl)
      have hstop : readIpv4 (':' :: rest') = none ∧
          readNumber 16 4 65536 true (':' :: rest') = none := by
        refine ⟨readIpv4_none fun c hc => ?_, ?_⟩
        · rw [List.dropWhile_cons_of_neg (by decide)] at hc
          cases hc
          decide
        · simp [readNumber, readDigits_break (breaks_cons (by decide : isDigit 16 ':' = false) _)]
      simp [readSeparator, hi, hstop]
    · simp [readSeparator, hi, hc]

theorem readGroups_tail {limit : Nat} {rest : List Char} (hstop : Stops rest) (groups : List Nat)
    (hg : ∀ g ∈ groups, g < 65536) (n : Nat) (hlen : groups.length ≤ n) (hn : n < limit) :
    readGroups limit n (tailText groups ++ rest) = (groups, false, rest) := by
  induction groups generalizing n with
  | nil =>
    cases n with
    | zero => rfl
    | succ n =>
      obtain ⟨hip, hnum⟩ := hstop.next (by omega : limit - (n + 1) ≠ 0)
      simp [readGroups, tailText, hip, hnum]
  | cons g groups ih =>
    cases n with
    | zero => cases hlen
    | succ n =>
      have hindex : limit - (n + 1) ≠ 0 := by omega
      have hends := tail_ends groups hstop.ends
      have htext : tailText (g :: groups) ++ rest =
          ':' :: (Nat.toDigits 16 g ++ (tailText groups ++ rest)) := by
        simp [tailText]
      have hip : readSeparator ':' (limit - (n + 1)) readIpv4 (tailText (g :: groups) ++ rest) =
          none := by
        simp [readSeparator, hindex, htext, readIpv4_group g hends]
      have hnum : readSeparator ':' (limit - (n + 1)) (readNumber 16 4 65536 true)
          (tailText (g :: groups) ++ rest) = some (g, tailText groups ++ rest) := by
        rw [htext]
        simp [readSeparator, hindex, readGroup (hg g List.mem_cons_self) hends]
      have htail := ih (fun g' hg' => hg g' (List.mem_cons_of_mem g hg')) n
        (Nat.le_of_succ_le_succ hlen) (by omega)
      simp only [readGroups, hip, hnum, htail, ite_self]

theorem readGroups_text {limit : Nat} {rest : List Char} (hstop : Stops rest) (groups : List Nat)
    (hg : ∀ g ∈ groups, g < 65536) (hlen : groups.length ≤ limit) :
    readGroups limit limit (groupsText groups ++ rest) = (groups, false, rest) := by
  cases limit with
  | zero =>
    rw [List.length_eq_zero_iff.mp (Nat.le_zero.mp hlen)]
    rfl
  | succ n =>
    cases groups with
    | nil =>
      have hfirst := hstop.first
      simp [readGroups, readSeparator, groupsText, List.intercalate, hfirst]
    | cons g groups =>
      have hends := tail_ends groups hstop.ends
      have htail := readGroups_tail hstop groups
        (fun g' hg' => hg g' (List.mem_cons_of_mem g hg')) n (Nat.le_of_succ_le_succ hlen)
        (Nat.lt_succ_self n)
      rw [groupsText_cons, List.append_assoc]
      simp only [readGroups, readSeparator, Nat.sub_self, if_true, readIpv4_group g hends,
        readGroup (hg g List.mem_cons_self) hends, htail, ite_self]

def ZeroRun (groups : List Nat) (span : Span) : Prop :=
  ∀ i, span.start ≤ i → i < span.start + span.len → groups[i]? = some 0

theorem zeroSpan_zeroRun (all groups : List Nat) (longest current : Span) (index : Nat)
    (hall : all.drop index = groups) (hl : ZeroRun all longest) (hc : ZeroRun all current)
    (hi : 0 < current.len → current.start + current.len = index) :
    ZeroRun all (zeroSpan longest current index groups) := by
  induction groups generalizing longest current index with
  | nil => exact hl
  | cons group groups ih =>
    have hget : all[index]? = some group := by
      rw [← Nat.add_zero index, ← List.getElem?_drop, hall]
      rfl
    have hrest : all.drop (index + 1) = groups := by
      rw [← List.drop_drop, hall]
      rfl
    simp only [zeroSpan]
    split
    · next hzero =>
      -- The current run grows by this group, or starts with it.
      have hgrown : ZeroRun all
          ⟨if current.len = 0 then index else current.start, current.len + 1⟩ := by
        intro i hle hlt
        dsimp only at hle hlt
        split at hle
        · next hnew =>
          rw [hnew, if_pos rfl] at hlt
          have : i = index := by omega
          rw [this, hget, hzero]
        · next hold =>
          rw [if_neg hold] at hlt
          have hend := hi (Nat.pos_of_ne_zero hold)
          by_cases hlast : i = index
          · rw [hlast, hget, hzero]
          · exact hc i hle (by omega)
      refine ih _ _ _ hrest ?_ hgrown fun _ => ?_
      · split
        · exact hgrown
        · exact hl
      · dsimp only
        split
        · next hnew => omega
        · next hold =>
          have hend := hi (Nat.pos_of_ne_zero hold)
          omega
    · exact ih _ _ _ hrest hl (fun i _ hlt => absurd hlt (by dsimp only; omega))
        (fun h => absurd h (Nat.lt_irrefl 0))

theorem zeroRun_split {groups : List Nat} {span : Span} (h : ZeroRun groups span)
    (hpos : 0 < span.len) : span.start + span.len ≤ groups.length ∧
      groups = groups.take span.start ++ List.replicate span.len 0 ++
        groups.drop (span.start + span.len) := by
  have hlen : span.start + span.len ≤ groups.length := by
    have hlast := h (span.start + span.len - 1) (by omega) (by omega)
    obtain ⟨hlt, -⟩ := List.getElem?_eq_some_iff.mp hlast
    omega
  refine ⟨hlen, ?_⟩
  have hrun : (groups.drop span.start).take span.len = List.replicate span.len 0 := by
    refine List.eq_replicate_iff.mpr ⟨by simp; omega, fun g hg => ?_⟩
    obtain ⟨i, hi, rfl⟩ := List.getElem_of_mem hg
    have hget := h (span.start + i) (by omega) (by simp at hi; omega)
    obtain ⟨hlt, hzero⟩ := List.getElem?_eq_some_iff.mp hget
    simpa using hzero
  rw [← hrun, ← List.drop_drop, List.append_assoc, List.take_append_drop, List.take_append_drop]

theorem stops_of_bracket {rest : List Char} (h : ∀ c ∈ rest.head?, c = ']' ∨ c = '%') :
    Stops rest where
  ends c hc := Or.inr (h c hc)
  colon rest' heq := by
    have := h ':' (by rw [heq]; rfl)
    simp at this

theorem stops_double (rest : List Char) : Stops (':' :: ':' :: rest) where
  ends := ends_cons _
  colon rest' heq := by
    cases heq
    rfl

theorem readIpv6_compressed {head tail : List Nat} {rest : List Char} {k : Nat}
    (hstop : Stops rest) (hhead : ∀ g ∈ head, g < 65536) (htail : ∀ g ∈ tail, g < 65536)
    (hk : 1 < k) (hlen : head.length + k + tail.length = 8) :
    readIpv6 (groupsText head ++ ':' :: ':' :: (groupsText tail ++ rest)) =
      some (head ++ List.replicate k 0 ++ tail, rest) := by
  have hh := readGroups_text (stops_double (groupsText tail ++ rest)) head hhead
    (by omega : head.length ≤ 8)
  have ht := readGroups_text hstop tail htail (by omega : tail.length ≤ 8 - (head.length + 1))
  have hne : head.length ≠ 8 := by omega
  have hfill : 8 - head.length - tail.length = k := by omega
  simp only [readIpv6, hh, hne, if_false, ht, hfill, Bool.false_eq_true]

theorem readIpv6_full {groups : List Nat} {rest : List Char} (hstop : Stops rest)
    (hg : ∀ g ∈ groups, g < 65536) (hlen : groups.length = 8) :
    readIpv6 (groupsText groups ++ rest) = some (groups, rest) := by
  have hh := readGroups_text hstop groups hg (by omega : groups.length ≤ 8)
  simp only [readIpv6, hh, hlen, if_true]

theorem readIpv6_mapped {g h : Nat} (hg : g < 65536) (hh : h < 65536) {rest : List Char}
    (hstop : Stops rest) :
    readIpv6 ("::ffff:".toList ++ octetsText [g / 256, g % 256, h / 256, h % 256] ++ rest) =
      some ([0, 0, 0, 0, 0, 0xffff, g, h], rest) := by
  have hgroups : ipv4Groups [g / 256, g % 256, h / 256, h % 256] = [g, h] := by
    simp only [ipv4Groups, List.cons.injEq, and_true]
    omega
  have hip := readIpv4_octetsText (by omega : g / 256 < 256) (by omega : g % 256 < 256)
    (by omega : h / 256 < 256) (by omega : h % 256 < 256) hstop.ends.breaks
  have hffff : Nat.toDigits 16 0xffff = ['f', 'f', 'f', 'f'] := by decide
  have htext : "::ffff:".toList ++ octetsText [g / 256, g % 256, h / 256, h % 256] ++ rest =
      groupsText [] ++ ':' :: ':' :: (Nat.toDigits 16 0xffff ++
        ':' :: (octetsText [g / 256, g % 256, h / 256, h % 256] ++ rest)) := by
    rw [hffff]
    rfl
  have hhead := readGroups_text (stops_double (Nat.toDigits 16 0xffff ++
    ':' :: (octetsText [g / 256, g % 256, h / 256, h % 256] ++ rest))) [] (by simp)
    (by simp : [].length ≤ 8)
  have hends := ends_cons (octetsText [g / 256, g % 256, h / 256, h % 256] ++ rest)
  have htail : readGroups 7 7 (Nat.toDigits 16 0xffff ++
      ':' :: (octetsText [g / 256, g % 256, h / 256, h % 256] ++ rest)) =
      ([0xffff, g, h], true, rest) := by
    simp only [readGroups, readSeparator, Nat.reduceAdd, Nat.sub_self, Nat.reduceSub,
      Nat.reduceEqDiff, if_true, if_false, readIpv4_group _ hends,
      readGroup (by decide : 0xffff < 65536) hends, hip, hgroups]
  rw [htext]
  simp only [readIpv6, hhead, List.length_nil, Nat.reduceAdd, Nat.reduceSub, Nat.reduceEqDiff,
    if_false, Bool.false_eq_true, htail]
  rfl

theorem ipv4Mapped_some {groups octets : List Nat} (h : ipv4Mapped groups = some octets) :
    ∃ g g', groups = [0, 0, 0, 0, 0, 0xffff, g, g'] ∧
      octets = [g / 256, g % 256, g' / 256, g' % 256] := by
  unfold ipv4Mapped at h
  split at h
  · next g g' =>
    cases h
    exact ⟨g, g', rfl, rfl⟩
  · cases h

theorem readIpv6_text {groups : List Nat} {rest : List Char} (hstop : Stops rest)
    (hg : ∀ g ∈ groups, g < 65536) (hlen : groups.length = 8) :
    readIpv6 (ipv6Text groups ++ rest) = some (groups, rest) := by
  unfold ipv6Text
  split
  · next octets hmapped =>
    obtain ⟨g, g', rfl, rfl⟩ := ipv4Mapped_some hmapped
    exact readIpv6_mapped (hg g (by simp)) (hg g' (by simp)) hstop
  · dsimp only
    split
    · next hlong =>
      have hrun := zeroSpan_zeroRun groups groups ⟨0, 0⟩ ⟨0, 0⟩ 0 rfl
        (fun i _ hi => absurd hi (by simp)) (fun i _ hi => absurd hi (by simp)) (by simp)
      obtain ⟨hle, hsplit⟩ := zeroRun_split hrun (by omega)
      have hsum := congrArg List.length hsplit
      rw [hlen, List.length_append, List.length_append, List.length_replicate] at hsum
      have hread := readIpv6_compressed hstop
        (fun g hmem => hg g (List.mem_of_mem_take hmem))
        (fun g hmem => hg g (List.mem_of_mem_drop hmem)) hlong hsum.symm
      rw [← hsplit] at hread
      rw [List.append_assoc, List.append_assoc]
      exact hread
    · exact readIpv6_full hstop hg hlen

structure SocketAddr.Valid (addr : SocketAddr) : Prop where
  port : addr.port < 65536
  ip : match addr.ip with
    | .v4 octets => octets.length = 4 ∧ (∀ o ∈ octets, o < 256) ∧ addr.scopeId = 0
    | .v6 groups => groups.length = 8 ∧ (∀ g ∈ groups, g < 65536) ∧ addr.scopeId < 4294967296

theorem readPort_toDigits {port : Nat} (h : port < 65536) :
    readPort (':' :: Nat.toDigits 10 port) = some (port, []) := by
  have hread : readUnsigned 65536 (Nat.toDigits 10 port ++ []) = some (port, []) :=
    readUnsigned_toDigits h (fun _ hc => nomatch hc)
  rw [List.append_nil] at hread
  simp [readPort, readChar, hread]

theorem readScopeId_text {scope : Nat} (h : scope < 4294967296) (port : List Char) :
    readScopeId ((if scope = 0 then [] else '%' :: Nat.toDigits 10 scope) ++ ']' :: port) =
      (scope, ']' :: port) := by
  split
  · next hzero => simp [readScopeId, readChar, hzero]
  · have hread := readUnsigned_toDigits h (breaks_cons (by decide : isDigit 10 ']' = false) port)
    simp [readScopeId, readChar, hread]

theorem SocketAddr.parseSocket_toString {addr : SocketAddr} (h : addr.Valid) :
    parseSocket addr.toString = some addr := by
  obtain ⟨ip, port, scope⟩ := addr
  obtain ⟨hport, hip⟩ := h
  rw [parseSocket, SocketAddr.toString, String.toList_ofList]
  cases ip with
  | v4 octets =>
    obtain ⟨hlen, ho, hscope⟩ := hip
    obtain ⟨a, b, c, d, rfl⟩ := List.length_eq_four.mp hlen
    simp only [List.mem_cons, List.not_mem_nil, or_false, forall_eq_or_imp, forall_eq] at ho
    have hread := readIpv4_octetsText ho.1 ho.2.1 ho.2.2.1 ho.2.2.2
      (breaks_cons (by decide : isDigit 10 ':' = false) (Nat.toDigits 10 port))
    simp only at hscope
    simp [SocketAddr.text, readSocketV4, hread, readPort_toDigits hport, hscope]
  | v6 groups =>
    obtain ⟨hlen, hg, hscope⟩ := hip
    have hv4 (s : List Char) : readSocketV4 ('[' :: s) = none := by
      have : readIpv4 ('[' :: s) = none := by
        refine readIpv4_none fun c hc => ?_
        rw [List.dropWhile_cons_of_neg (by decide)] at hc
        cases hc
        decide
      simp [readSocketV4, this]
    have hstop : Stops ((if scope = 0 then [] else '%' :: Nat.toDigits 10 scope) ++
        ']' :: ':' :: Nat.toDigits 10 port) := by
      refine stops_of_bracket fun c hc => ?_
      split at hc
      · cases hc
        exact Or.inl rfl
      · cases hc
        exact Or.inr rfl
    have htext : SocketAddr.text ⟨.v6 groups, port, scope⟩ = '[' :: (ipv6Text groups ++
        ((if scope = 0 then [] else '%' :: Nat.toDigits 10 scope) ++
          ']' :: ':' :: Nat.toDigits 10 port)) := by
      simp [SocketAddr.text]
    rw [htext, hv4]
    simp [readSocketV6, readChar, readIpv6_text hstop hg hlen, readScopeId_text hscope,
      readPort_toDigits hport]

def isV4 : IpAddr → Bool
  | .v4 _ => true
  | .v6 _ => false

-- The characters of an address written out: hexadecimal digits, dots and colons.
def isIpChar (c : Char) : Bool := isDigit 16 c || c = '.' || c = ':'

theorem mem_toDigits {radix n : Nat} (hr : 1 < radix) (hr' : radix ≤ 16) {c : Char}
    (h : c ∈ Nat.toDigits radix n) : isDigit 16 c = true := by
  obtain ⟨ds, hds⟩ := exists_digits hr n
  rw [hds.text] at h
  obtain ⟨d, hd, rfl⟩ := List.mem_map.mp h
  have hlt : d < 16 := Nat.lt_of_lt_of_le (hds.bound d hd) hr'
  rw [isDigit, digit_digitChar (Nat.le_refl 16) hlt]
  rfl

theorem mem_intercalate {sep c : Char} {texts : List (List Char)}
    (h : c ∈ [sep].intercalate texts) : c = sep ∨ ∃ text ∈ texts, c ∈ text := by
  induction texts with
  | nil => cases h
  | cons text texts ih =>
    cases texts with
    | nil =>
      rw [List.intercalate_singleton] at h
      exact Or.inr ⟨text, List.mem_cons_self, h⟩
    | cons text' texts =>
      rw [List.intercalate_cons_cons] at h
      rcases List.mem_append.mp h with h | h
      · rcases List.mem_append.mp h with h | h
        · exact Or.inr ⟨text, List.mem_cons_self, h⟩
        · exact Or.inl (List.mem_singleton.mp h)
      · rcases ih h with h | ⟨t, ht, hc⟩
        · exact Or.inl h
        · exact Or.inr ⟨t, List.mem_cons_of_mem text ht, hc⟩

theorem mem_octetsText {octets : List Nat} {c : Char} (h : c ∈ octetsText octets) :
    isDigit 16 c = true ∨ c = '.' := by
  rcases mem_intercalate h with h | ⟨text, htext, hc⟩
  · exact Or.inr h
  · obtain ⟨o, -, rfl⟩ := List.mem_map.mp htext
    exact Or.inl (mem_toDigits (by decide) (by decide) hc)

theorem mem_groupsText {groups : List Nat} {c : Char} (h : c ∈ groupsText groups) :
    isDigit 16 c = true ∨ c = ':' := by
  rcases mem_intercalate h with h | ⟨text, htext, hc⟩
  · exact Or.inr h
  · obtain ⟨g, -, rfl⟩ := List.mem_map.mp htext
    exact Or.inl (mem_toDigits (by decide) (by decide) hc)

theorem isIpChar_of_mem {ip : IpAddr} {c : Char} (h : c ∈ ip.text) : isIpChar c = true := by
  have octets {os : List Nat} (h : c ∈ octetsText os) : isIpChar c = true := by
    rcases mem_octetsText h with h | h <;> simp [isIpChar, h]
  have groups {gs : List Nat} (h : c ∈ groupsText gs) : isIpChar c = true := by
    rcases mem_groupsText h with h | h <;> simp [isIpChar, h]
  cases ip with
  | v4 os => exact octets h
  | v6 gs =>
    simp only [text, ipv6Text] at h
    split at h
    · rcases List.mem_append.mp h with h | h
      · have hall : "::ffff:".toList.all isIpChar = true := by decide
        exact List.all_eq_true.mp hall c h
      · exact octets h
    · split at h
      · rcases List.mem_append.mp h with h | h
        · rcases List.mem_append.mp h with h | h
          · exact groups h
          · have hall : "::".toList.all isIpChar = true := by decide
            exact List.all_eq_true.mp hall c h
        · exact groups h
      · exact groups h

theorem colon_notMem_octetsText (octets : List Nat) : ':' ∉ octetsText octets := by
  intro h
  rcases mem_octetsText h with h | h <;> revert h <;> decide

theorem colon_mem_ipv6Text {groups : List Nat} (hlen : groups.length = 8) :
    ':' ∈ ipv6Text groups := by
  unfold ipv6Text
  split
  · exact List.mem_append_left _ (by decide)
  · dsimp only
    split
    · exact List.mem_append_left _ (List.mem_append_right _ (by decide))
    · obtain ⟨g, rest, rfl⟩ := List.exists_cons_of_length_eq_add_one hlen
      obtain ⟨g', rest', rfl⟩ := List.exists_cons_of_length_eq_add_one (Nat.succ.inj hlen)
      rw [groupsText_cons]
      exact List.mem_append_right _ List.mem_cons_self

end IpAddr
