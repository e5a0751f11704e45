import Cross233.Server.Sni

namespace Cross233.Server

open BigEndian

-- None is an index out of range.
def u16At (bytes : List UInt8) (pos : Nat) : Option Nat := do
  let hi ← bytes[pos]?
  let lo ← bytes[pos + 1]?
  some (ofBe [hi, lo])

def sliceAt (bytes : List UInt8) (start stop : Nat) : Option (List UInt8) :=
  if start ≤ stop ∧ stop ≤ bytes.length then some ((bytes.take stop).drop start) else none

def indexedNames (handshake : List UInt8) (stop ep : Nat) : Option (Option String) :=
  if ep + 3 ≤ stop then do
    let nameType ← handshake[ep]?
    let nameLen ← u16At handshake (ep + 1)
    let name ←
      if ep + 3 + nameLen ≤ stop ∧ nameType = 0 then
        (sliceAt handshake (ep + 3) (ep + 3 + nameLen)).map Text.fromUtf8
      else some none
    match name with
    | some name => some (some name)
    | none => indexedNames handshake stop (ep + 3 + nameLen)
  else some none
termination_by stop - ep

def indexedExtensions (handshake : List UInt8) (pos : Nat) : Option (Option String) :=
  if pos + 4 ≤ handshake.length then do
    let extType ← u16At handshake pos
    let extSize ← u16At handshake (pos + 2)
    let pos' := pos + 4
    if handshake.length < pos' + extSize then some none
    else if extType = 0 then
      if pos' + extSize < pos' + 2 then some none
      else do
        let _ ← u16At handshake pos'
        let name ← indexedNames handshake (pos' + extSize) (pos' + 2)
        match name with
        | some name => some (some name)
        | none => indexedExtensions handshake (pos' + extSize)
    else indexedExtensions handshake (pos' + extSize)
  else some none
termination_by handshake.length - pos

def indexedFields (handshake : List UInt8) : Option (Option String) := do
  let sessionIdLen ← handshake[38]?
  let pos := 38 + (1 + sessionIdLen.toNat)
  if handshake.length < pos + 2 then some none
  else
    let cipherLen ← u16At handshake pos
    let pos := pos + (2 + cipherLen)
    if handshake.length < pos + 1 then some none
    else
      let compLen ← handshake[pos]?
      let pos := pos + (1 + compLen.toNat)
      if handshake.length < pos + 2 then some none
      else
        let _ ← u16At handshake pos
        indexedExtensions handshake (pos + 2)

def indexedSni (data : List UInt8) : Option (Option String) :=
  if data.length < 44 then some none
  else do
    let record ← data[0]?
    if record ≠ 0x16 then some none
    else
      let handshake ← sliceAt data 5 data.length
      let hello ← handshake[0]?
      if hello ≠ 0x01 then some none
      else if handshake.length ≤ 38 then some none
      else indexedFields handshake

theorem getElem_drop {l : List UInt8} {i : Nat} (h : i < l.length) :
    ∃ b, l[i]? = some b ∧ l.drop i = b :: l.drop (i + 1) :=
  ⟨l[i], List.getElem?_eq_getElem h, List.drop_eq_getElem_cons h⟩

theorem u16At_drop {l : List UInt8} {i : Nat} (h : i + 2 ≤ l.length) :
    ∃ hi lo, u16At l i = some (ofBe [hi, lo]) ∧ l.drop i = hi :: lo :: l.drop (i + 2) := by
  obtain ⟨hi, hhi, hdrop⟩ := getElem_drop (l := l) (i := i) (by omega)
  obtain ⟨lo, hlo, hdrop'⟩ := getElem_drop (l := l) (i := i + 1) (by omega)
  refine ⟨hi, lo, ?_, by rw [hdrop, hdrop']⟩
  simp only [u16At, hhi, hlo, Option.bind_eq_bind, Option.bind_some]

theorem serverName_short {fuel : Nat} {bytes : List UInt8} (h : bytes.length < 3) :
    serverName fuel bytes = none := by
  match fuel, bytes with
  | 0, _ => rfl
  | _ + 1, [] => rfl
  | _ + 1, [_] => rfl
  | _ + 1, [_, _] => rfl
  | _ + 1, _ :: _ :: _ :: _ =>
    simp only [List.length_cons] at h
    omega

theorem sniExtension_short {fuel : Nat} {bytes : List UInt8} (h : bytes.length < 4) :
    sniExtension fuel bytes = none := by
  match fuel, bytes with
  | 0, _ => rfl
  | _ + 1, [] => rfl
  | _ + 1, [_] => rfl
  | _ + 1, [_, _] => rfl
  | _ + 1, [_, _, _] => rfl
  | _ + 1, _ :: _ :: _ :: _ :: _ =>
    simp only [List.length_cons] at h
    omega

theorem indexedNames_eq {fuel : Nat} {handshake : List UInt8} {stop ep : Nat}
    (hstop : stop ≤ handshake.length) (hfuel : stop - ep ≤ fuel) :
    indexedNames handshake stop ep =
      some (serverName fuel ((handshake.take stop).drop ep)) := by
  induction fuel generalizing ep with
  | zero =>
    rw [indexedNames, if_neg (by omega)]
    rfl
  | succ fuel ih =>
    rw [indexedNames]
    split
    · next hle =>
      obtain ⟨b, hb, hdrop⟩ := getElem_drop (l := handshake) (i := ep) (by omega)
      obtain ⟨hi, lo, hlen, hdrop'⟩ := u16At_drop (l := handshake) (i := ep + 1) (by omega)
      have hentry : (handshake.take stop).drop ep =
          b :: hi :: lo :: (handshake.take stop).drop (ep + 3) := by
        obtain ⟨k, hk⟩ : ∃ k, stop - ep = k + 3 := ⟨stop - ep - 3, by omega⟩
        have hk' : stop - (ep + 3) = k := by omega
        rw [List.drop_take, List.drop_take, hdrop, hdrop', hk, hk']
        rfl
      have hrest : ((handshake.take stop).drop (ep + 3)).length = stop - (ep + 3) := by
        rw [List.length_drop, List.length_take_of_le hstop]
      have hnext : indexedNames handshake stop (ep + 3 + ofBe [hi, lo]) = _ := ih (by omega)
      rw [← List.drop_drop] at hnext
      simp only [hb, hlen, Option.bind_eq_bind, Option.bind_some]
      rw [hentry, serverName, hnext]
      split
      · next hin =>
        have hslice : sliceAt handshake (ep + 3) (ep + 3 + ofBe [hi, lo]) =
            some (((handshake.take stop).drop (ep + 3)).take (ofBe [hi, lo])) := by
          rw [sliceAt, if_pos (by omega), List.take_drop, List.take_take,
            Nat.min_eq_left (by omega)]
        rw [if_pos ⟨by omega, hin.2⟩, hslice, Option.map_some, Option.bind_some]
        cases Text.fromUtf8 (((handshake.take stop).drop (ep + 3)).take (ofBe [hi, lo])) with
        | none => rfl
        | some name => rfl
      · next hout => rw [if_neg (fun h => hout ⟨by omega, h.2⟩)]
    · next hlt =>
      rw [serverName_short]
      rw [List.length_drop, List.length_take_of_le hstop]
      omega

theorem indexedExtensions_eq {fuel : Nat} {handshake : List UInt8} {i : Nat}
    (hfuel : handshake.length - i ≤ fuel) :
    indexedExtensions handshake i = some (sniExtension fuel (handshake.drop i)) := by
  induction fuel generalizing i with
  | zero =>
    rw [indexedExtensions, if_neg (by omega)]
    rfl
  | succ fuel ih =>
    rw [indexedExtensions]
    split
    · next hle =>
      obtain ⟨ty1, ty0, hty, hdrop⟩ := u16At_drop (l := handshake) (i := i) (by omega)
      obtain ⟨size1, size0, hsize, hdrop'⟩ := u16At_drop (l := handshake) (i := i + 2) (by omega)
      have hrest : (handshake.drop (i + 4)).length = handshake.length - (i + 4) :=
        List.length_drop
      have hnext := ih (i := i + 4 + ofBe [size1, size0]) (by omega)
      rw [← List.drop_drop] at hnext
      simp only [hty, hsize, Option.bind_eq_bind, Option.bind_some]
      rw [hdrop, hdrop', sniExtension, hnext]
      split
      · next hout =>
        have hout : (handshake.drop (i + 4)).length < ofBe [size1, size0] := by omega
        rw [if_pos hout]
      · next hin =>
        have hin : ¬(handshake.drop (i + 4)).length < ofBe [size1, size0] := by omega
        rw [if_neg hin]
        split
        · next hzero =>
          split
          · next hshort =>
            have hshort : ofBe [size1, size0] < 2 := by omega
            rw [if_pos hshort]
          · next hlong =>
            have hlong : ¬ofBe [size1, size0] < 2 := by omega
            obtain ⟨_, _, hlist, -⟩ := u16At_drop (l := handshake) (i := i + 4) (by omega)
            have hnames : indexedNames handshake (i + 4 + ofBe [size1, size0]) (i + 4 + 2) =
                some (serverName (ofBe [size1, size0]) _) := indexedNames_eq (by omega) (by omega)
            rw [← List.drop_drop, List.drop_take, Nat.add_sub_cancel_left] at hnames
            rw [if_neg hlong, hlist, Option.bind_some, hnames, Option.bind_some]
            cases serverName (ofBe [size1, size0])
              (((handshake.drop (i + 4)).take (ofBe [size1, size0])).drop 2) with
            | none => rfl
            | some name => rfl
        · rfl
    · next hlt =>
      rw [sniExtension_short]
      rw [List.length_drop]
      omega

theorem skipVector_short {n : Nat} {bytes : List UInt8} (h : bytes.length < n) :
    skipVector n bytes = none := by
  rw [skipVector, readExact, if_pos h]
  rfl

theorem skipVector_byte {l : List UInt8} {i : Nat} (h : i < l.length) :
    ∃ b, l[i]? = some b ∧ skipVector 1 (l.drop i) = some (l.drop (i + (1 + b.toNat))) := by
  obtain ⟨b, hb, hdrop⟩ := getElem_drop h
  have hlen : ofBe [b] = b.toNat := by simp [ofBe]
  refine ⟨b, hb, ?_⟩
  rw [← Nat.add_assoc, ← List.drop_drop, ← hlen, hdrop]
  exact congrArg some rfl

theorem skipVector_u16 {l : List UInt8} {i : Nat} (h : i + 2 ≤ l.length) :
    ∃ n, u16At l i = some n ∧ skipVector 2 (l.drop i) = some (l.drop (i + (2 + n))) := by
  obtain ⟨hi, lo, hlen, hdrop⟩ := u16At_drop h
  refine ⟨_, hlen, ?_⟩
  rw [← Nat.add_assoc, ← List.drop_drop, hdrop]
  exact congrArg some rfl

theorem indexedFields_eq {handshake : List UInt8} (h : 38 < handshake.length) :
    indexedFields handshake =
      some ((helloExtensions handshake).bind fun r => sniExtension handshake.length r.2) := by
  obtain ⟨session, hsession, hskip⟩ := skipVector_byte h
  simp only [indexedFields, hsession, helloExtensions, hskip, Option.bind_eq_bind, Option.bind_some]
  generalize 38 + (1 + session.toNat) = i
  split
  · next hlt =>
    have hshort : (handshake.drop i).length < 2 := by
      rw [List.length_drop]
      omega
    rw [skipVector_short hshort]
    rfl
  · next hle =>
    obtain ⟨ciphers, hciphers, hskip⟩ := skipVector_u16 (l := handshake) (i := i) (by omega)
    rw [hciphers, hskip]
    simp only [Option.bind_some]
    generalize i + (2 + ciphers) = j
    split
    · next hlt =>
      have hshort : (handshake.drop j).length < 1 := by
        rw [List.length_drop]
        omega
      rw [skipVector_short hshort]
      rfl
    · next hle =>
      obtain ⟨comp, hcomp, hskip⟩ := skipVector_byte (l := handshake) (i := j) (by omega)
      rw [hcomp, hskip]
      simp only [Option.bind_some]
      generalize j + (1 + comp.toNat) = k
      split
      · next hlt =>
        have hshort : (handshake.drop k).length < 2 := by
          rw [List.length_drop]
          omega
        rw [readExact, if_pos hshort]
        rfl
      · next hle =>
        obtain ⟨hi, lo, hlen, -⟩ := u16At_drop (l := handshake) (i := k) (by omega)
        have hlong : ¬(handshake.drop k).length < 2 := by
          rw [List.length_drop]
          omega
        rw [hlen, readExact, if_neg hlong, Option.bind_some, Option.bind_some, List.drop_drop]
        exact indexedExtensions_eq (by omega)

theorem indexedSni_eq (data : List UInt8) : indexedSni data = some (parseSni data) := by
  rw [indexedSni, parseSni]
  split
  · next hshort => rw [if_pos (Or.inl hshort)]
  · next hlong =>
    have hlen : (data.drop 5).length = data.length - 5 := List.length_drop
    obtain ⟨record, hrecord, -⟩ := getElem_drop (l := data) (i := 0) (by omega)
    obtain ⟨hello, hhello, -⟩ := getElem_drop (l := data.drop 5) (i := 0) (by omega)
    have hslice : sliceAt data 5 data.length = some (data.drop 5) := by
      rw [sliceAt, if_pos (by omega), List.take_length]
    simp only [hrecord, hslice, hhello, List.head?_eq_getElem?, Option.bind_eq_bind,
      Option.bind_some, hlong, false_or, ne_eq, Option.some.injEq]
    split
    · rfl
    · split
      · rfl
      · rw [if_neg (by omega), indexedFields_eq (by omega)]
        simp only [helloExtensions, Option.bind_eq_bind, Option.bind_assoc]

end Cross233.Server
