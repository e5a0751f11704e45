import Mathlib.Data.List.TakeWhile

namespace Lines

variable {α : Type} [DecidableEq α]

def frames (delim : α) (bodies : List (List α)) : List α :=
  (bodies.map (· ++ [delim])).flatten

omit [DecidableEq α] in
theorem frames_cons (delim : α) (body : List α) (bodies : List (List α)) :
    frames delim (body :: bodies) = body ++ delim :: frames delim bodies := by
  simp [frames]

omit [DecidableEq α] in
theorem frames_concat (delim : α) (bodies : List (List α)) (body : List α) :
    frames delim (bodies ++ [body]) = frames delim bodies ++ (body ++ [delim]) := by
  simp [frames]

theorem splitOn_frames {delim : α} {bodies : List (List α)} (h : ∀ body ∈ bodies, delim ∉ body) :
    (frames delim bodies).splitOn delim = bodies ++ [[]] := by
  induction bodies with
  | nil => rfl
  | cons body bodies ih =>
    rw [List.forall_mem_cons] at h
    rw [frames_cons, List.splitOn_append_cons_self_of_not_mem h.1, ih h.2, List.cons_append]

theorem notMem_of_mem_splitOn {delim : α} {xs part : List α} (h : part ∈ xs.splitOn delim) :
    delim ∉ part := by
  induction xs generalizing part with
  | nil =>
    rw [List.splitOn_nil, List.mem_singleton] at h
    subst h
    exact List.not_mem_nil
  | cons x xs ih =>
    by_cases hx : x = delim
    · subst hx
      rw [List.splitOn_cons_eq_if_modifyHead, if_pos (by simp)] at h
      rcases List.mem_cons.mp h with rfl | h
      · exact List.not_mem_nil
      · exact ih h
    · obtain ⟨first, rest, hsplit⟩ := List.exists_cons_of_ne_nil (List.splitOn_ne_nil delim xs)
      rw [List.splitOn_cons_eq_if_modifyHead, if_neg (by simpa using hx), hsplit,
        List.modifyHead_cons] at h
      rw [hsplit] at ih
      rcases List.mem_cons.mp h with rfl | h
      · rw [List.mem_cons, not_or]
        exact ⟨Ne.symm hx, ih List.mem_cons_self⟩
      · exact ih (List.mem_cons_of_mem _ h)

-- At most `n` parts, the last of which keeps the separators that are left.
def splitN (delim : α) : Nat → List α → List (List α)
  | 0, _ => []
  | 1, xs => [xs]
  | n + 2, xs =>
    match xs.dropWhile (· ≠ delim) with
    | [] => [xs]
    | _ :: rest => xs.takeWhile (· ≠ delim) :: splitN delim (n + 1) rest

theorem splitN_single {delim : α} {xs : List α} (h : delim ∉ xs) (n : Nat) :
    splitN delim (n + 1) xs = [xs] := by
  cases n with
  | zero => rfl
  | succ n =>
    have hall : xs.dropWhile (· ≠ delim) = [] := by
      rw [List.dropWhile_eq_nil_iff]
      intro x hx
      exact decide_eq_true (ne_of_mem_of_not_mem hx h)
    rw [splitN, hall]

theorem splitN_append {delim : α} {part : List α} (h : delim ∉ part) (n : Nat) (rest : List α) :
    splitN delim (n + 2) (part ++ delim :: rest) = part :: splitN delim (n + 1) rest := by
  have hall : ∀ x ∈ part, decide (x ≠ delim) = true := fun x hx =>
    decide_eq_true (ne_of_mem_of_not_mem hx h)
  have hdrop : (part ++ delim :: rest).dropWhile (· ≠ delim) = delim :: rest := by
    rw [List.dropWhile_append_of_pos hall, List.dropWhile_cons_of_neg (by simp)]
  have htake : (part ++ delim :: rest).takeWhile (· ≠ delim) = part := by
    rw [List.takeWhile_append_of_pos hall, List.takeWhile_cons_of_neg (by simp), List.append_nil]
  rw [splitN, hdrop, htake]

def takeLine (delim : α) : List α → Option (List α × List α)
  | [] => none
  | x :: xs =>
    if x = delim then some ([x], xs)
    else (takeLine delim xs).map (fun r => (x :: r.1, r.2))

theorem notMem_of_takeLine {delim : α} {xs : List α} (h : takeLine delim xs = none) :
    delim ∉ xs := by
  induction xs with
  | nil => exact List.not_mem_nil
  | cons x xs ih =>
    simp only [takeLine] at h
    split at h
    · cases h
    · next hx =>
      rw [Option.map_eq_none_iff] at h
      rw [List.mem_cons, not_or]
      exact ⟨fun hd => hx hd.symm, ih h⟩

theorem takeLine_some {delim : α} {xs head rest : List α}
    (h : takeLine delim xs = some (head, rest)) :
    ∃ body, delim ∉ body ∧ head = body ++ [delim] ∧ xs = body ++ delim :: rest := by
  induction xs generalizing head with
  | nil => cases h
  | cons x xs ih =>
    simp only [takeLine] at h
    split at h
    · next hx =>
      cases h
      exact ⟨[], List.not_mem_nil, by simp [hx], by simp [hx]⟩
    · next hx =>
      obtain ⟨⟨head', rest'⟩, htake, hr⟩ := Option.map_eq_some_iff.mp h
      cases hr
      obtain ⟨body, hclean, rfl, rfl⟩ := ih htake
      refine ⟨x :: body, ?_, rfl, rfl⟩
      rw [List.mem_cons, not_or]
      exact ⟨fun hd => hx hd.symm, hclean⟩

theorem takeLine_append {delim : α} {body : List α} (h : delim ∉ body) (rest : List α) :
    takeLine delim (body ++ delim :: rest) = some (body ++ [delim], rest) := by
  induction body with
  | nil => simp [takeLine]
  | cons x body ih =>
    rw [List.mem_cons, not_or] at h
    simp [takeLine, ih h.2, Ne.symm h.1]

theorem append_cons_inj {delim : α} {xs ys xs' ys' : List α} (hx : delim ∉ xs) (hx' : delim ∉ xs')
    (h : xs ++ delim :: ys = xs' ++ delim :: ys') : xs = xs' ∧ ys = ys' := by
  have htake := congrArg (takeLine delim) h
  rw [takeLine_append hx, takeLine_append hx'] at htake
  simpa using htake

omit [DecidableEq α] in
-- Where the parts may hold the delimiter, one of them may run past the other's delimiter.
theorem append_cons_eq_iff {delim : α} {xs ys xs' ys' : List α} :
    xs ++ delim :: ys = xs' ++ delim :: ys' ↔
      (xs = xs' ∧ ys = ys') ∨
      (∃ m, xs = xs' ++ delim :: m ∧ ys' = m ++ delim :: ys) ∨
      ∃ m, xs' = xs ++ delim :: m ∧ ys = m ++ delim :: ys' := by
  constructor
  · intro h
    rcases List.append_eq_append_iff.mp h with ⟨m, hxs, hys⟩ | ⟨m, hxs, hys⟩
    · cases m with
      | nil =>
        injection hys with _ hys
        exact .inl ⟨by simpa using hxs.symm, hys⟩
      | cons d m =>
        injection hys with hd hys
        exact .inr (.inr ⟨m, hd ▸ hxs, hys⟩)
    · cases m with
      | nil =>
        injection hys with _ hys
        exact .inl ⟨by simpa using hxs, hys.symm⟩
      | cons d m =>
        injection hys with hd hys
        exact .inr (.inl ⟨m, hd ▸ hxs, hys⟩)
  · rintro (⟨rfl, rfl⟩ | ⟨m, rfl, rfl⟩ | ⟨m, rfl, rfl⟩)
    · rfl
    · simp
    · simp

structure Reader (α : Type) where
  line : List α
  buffered : List α
  deriving DecidableEq

namespace Reader

def fill (r : Reader α) (segment : List α) : Reader α :=
  { r with buffered := r.buffered ++ segment }

def poll (delim : α) (r : Reader α) : Reader α × Option (List α) :=
  match takeLine delim r.buffered with
  | some (head, rest) => (⟨[], rest⟩, some (r.line ++ head))
  | none => (⟨r.line ++ r.buffered, []⟩, none)

-- Dropping a pending read loses what it has taken out of the buffer.
def cancel (r : Reader α) : Reader α := { r with line := [] }

structure Holds (delim : α) (r : Reader α) (wire : List α) (bodies : List (List α)) : Prop where
  clean : delim ∉ r.line
  framed : ∀ body ∈ bodies, delim ∉ body
  bytes : r.line ++ r.buffered ++ wire = frames delim bodies

variable {delim : α} {r : Reader α} {wire : List α} {bodies : List (List α)}

omit [DecidableEq α] in
theorem Holds.fill (h : Holds delim r wire bodies) (n : Nat) :
    Holds delim (r.fill (wire.take n)) (wire.drop n) bodies where
  clean := h.clean
  framed := h.framed
  bytes := by
    rw [← h.bytes]
    simp [Reader.fill]

omit [DecidableEq α] in
theorem Holds.cancel (h : Holds delim r wire bodies) (hline : r.line = []) :
    Holds delim r.cancel wire bodies := by
  have : r.cancel = r := by
    cases r
    simp_all [Reader.cancel]
  rwa [this]

omit [DecidableEq α] in
theorem Holds.concat (h : Holds delim r wire bodies) {body : List α} (hb : delim ∉ body) :
    Holds delim r (wire ++ (body ++ [delim])) (bodies ++ [body]) where
  clean := h.clean
  framed := by
    intro b hmem
    rcases List.mem_append.mp hmem with hmem | hmem
    · exact h.framed b hmem
    · exact List.mem_singleton.mp hmem ▸ hb
  bytes := by rw [frames_concat, ← h.bytes, List.append_assoc (r.line ++ r.buffered)]

theorem Holds.poll_none (h : Holds delim r wire bodies) {r' : Reader α}
    (hp : r.poll delim = (r', none)) : Holds delim r' wire bodies := by
  unfold poll at hp
  split at hp
  · cases hp
  · next htake =>
    cases hp
    refine ⟨?_, h.framed, ?_⟩
    · rw [List.mem_append, not_or]
      exact ⟨h.clean, notMem_of_takeLine htake⟩
    · rw [← h.bytes, List.append_nil]

theorem Holds.poll_some (h : Holds delim r wire bodies) {r' : Reader α} {line : List α}
    (hp : r.poll delim = (r', some line)) :
    ∃ body rest, bodies = body :: rest ∧ line = body ++ [delim] ∧ Holds delim r' wire rest := by
  unfold poll at hp
  split at hp
  · next head tail htake =>
    cases hp
    obtain ⟨found, hclean, rfl, hbuf⟩ := takeLine_some htake
    have hbytes := h.bytes
    cases bodies with
    | nil => simp [frames, hbuf] at hbytes
    | cons body rest =>
      have hsplit : (r.line ++ found) ++ delim :: (tail ++ wire) =
          body ++ delim :: frames delim rest := by
        rw [← frames_cons, ← hbytes, hbuf]
        simp
      -- Both sides show their first delimiter, so the bodies in front of it agree.
      have hbody : delim ∉ body := h.framed body List.mem_cons_self
      have hfound : delim ∉ r.line ++ found := by
        rw [List.mem_append, not_or]
        exact ⟨h.clean, hclean⟩
      obtain ⟨hb, ht⟩ := append_cons_inj hfound hbody hsplit
      refine ⟨body, rest, rfl, by rw [← hb]; simp, List.not_mem_nil, ?_, ?_⟩
      · exact fun b hb => h.framed b (List.mem_cons_of_mem _ hb)
      · simpa using ht
  · cases hp

omit [DecidableEq α] in
-- What a pending read has taken holds no delimiter, so no body can end among it.
theorem Holds.drained (h : Holds delim r [] bodies) (hb : r.buffered = []) :
    r.line = [] ∧ bodies = [] := by
  have hbytes := h.bytes
  rw [hb, List.append_nil, List.append_nil] at hbytes
  cases bodies with
  | nil => exact ⟨hbytes, rfl⟩
  | cons body bodies =>
    rw [frames_cons] at hbytes
    exact absurd (by simp [hbytes]) h.clean

end Reader

end Lines
