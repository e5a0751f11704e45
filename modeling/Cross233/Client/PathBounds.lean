import Cross233.Client.StaticFiles
import Cross233.Library.Lines

namespace Cross233.Client

def rawPath (target : String) : List Char :=
  (Text.splitOnce '?' target.toList).elim target.toList Prod.fst

def isNormal (part : List Char) : Bool := part ≠ [] && part ≠ ['.'] && part ≠ ['.', '.']

def partName (part : List Char) : OsString := Text.utf8 (String.ofList part)

-- The names that a decoded path goes through, in order.
def normalParts (decoded : List Char) : List (List Char) :=
  (decoded.splitOn '/').filter isNormal

def hasParent (decoded : List Char) : Bool := ['.', '.'] ∈ decoded.splitOn '/'

theorem splitOn_cons_slash (path : List Char) :
    ('/' :: path).splitOn '/' = [] :: path.splitOn '/' := by
  simp [List.splitOn_cons_eq_if_modifyHead]

theorem splitOn_dropWhile (path : List Char) :
    ∃ k, path.splitOn '/' =
      List.replicate k [] ++ (path.dropWhile (· = '/')).splitOn '/' := by
  induction path with
  | nil => exact ⟨0, rfl⟩
  | cons c path ih =>
    by_cases hc : c = '/'
    · subst hc
      obtain ⟨k, hk⟩ := ih
      refine ⟨k + 1, ?_⟩
      rw [splitOn_cons_slash, hk]
      simp [List.replicate_succ]
    · exact ⟨0, by simp [hc]⟩

theorem normalParts_dropWhile (path : List Char) :
    normalParts (path.dropWhile (· = '/')) = normalParts path := by
  obtain ⟨k, hk⟩ := splitOn_dropWhile path
  have hnil : (List.replicate k []).filter isNormal = [] := by
    rw [List.filter_replicate]
    rfl
  rw [normalParts, normalParts, hk, List.filter_append, hnil, List.nil_append]

theorem hasParent_dropWhile (path : List Char) :
    hasParent (path.dropWhile (· = '/')) = hasParent path := by
  obtain ⟨k, hk⟩ := splitOn_dropWhile path
  have hnot : ['.', '.'] ∉ List.replicate k [] := fun hmem => by
    cases List.eq_of_mem_replicate hmem
  rw [hasParent, hasParent, hk, decide_eq_decide, List.mem_append]
  exact (or_iff_right hnot).symm

theorem pushComponents_parts (relative : PathBuf) (parts : List (List Char)) :
    pushComponents relative (parts.filterMap component) =
      if ['.', '.'] ∈ parts then .error .badRequest
      else .ok (relative ++ (parts.filter isNormal).map partName) := by
  induction parts generalizing relative with
  | nil => simp [pushComponents]
  | cons part parts ih =>
    by_cases hskip : part = [] ∨ part = ['.']
    · have hnot : ['.', '.'] ≠ part := by
        rintro rfl
        rcases hskip with h | h <;> cases h
      have hnormal : isNormal part = false := by
        rcases hskip with rfl | rfl <;> rfl
      rw [List.filterMap_cons_none (by rw [component, if_pos hskip]), ih,
        List.filter_cons_of_neg (by simp [hnormal])]
      simp [hnot]
    · by_cases hparent : part = ['.', '.']
      · subst hparent
        simp [component, pushComponents]
      · have hnormal : isNormal part = true := by
          simp [isNormal, hparent, not_or.mp hskip]
        rw [List.filterMap_cons_some
            (by rw [component, if_neg hskip, if_neg hparent]), pushComponents, ih,
          List.filter_cons_of_pos hnormal]
        simp [Ne.symm hparent, partName]

theorem pushComponents_components {path : List Char} (h : path.head? ≠ some '/') :
    pushComponents [] (components path) =
      pushComponents [] ((path.splitOn '/').filterMap component) := by
  unfold components
  split
  · exact absurd rfl h
  · rfl
  · rfl
  · rfl

theorem pushComponents_decoded (decoded : List Char) :
    pushComponents [] (components (decoded.dropWhile (· = '/'))) =
      if hasParent decoded then .error .badRequest
      else .ok ((normalParts decoded).map partName) := by
  have hhead : (decoded.dropWhile (· = '/')).head? ≠ some '/' := by
    intro hslash
    have hnot := List.head?_dropWhile_not (· = '/') decoded
    rw [hslash] at hnot
    simp at hnot
  rw [pushComponents_components hhead, pushComponents_parts, ← hasParent_dropWhile,
    ← normalParts_dropWhile decoded, hasParent, normalParts, List.nil_append]
  simp only [decide_eq_true_eq]

structure Inside (fs : FileSystem) (root : PathBuf) (decoded : List Char) (path : PathBuf) :
    Prop where
  decent : hasParent decoded = false ∧ '\x00' ∉ decoded ∧ '\\' ∉ decoded
  canonical : ∃ candidate, fs.canonicalize (pathText candidate) = some path ∧
    (candidate = root ++ (normalParts decoded).map partName ∨
      candidate = root ++ (normalParts decoded).map partName ++ [indexHtml])
  within : root <+: path

theorem resolvePath_ok {fs : FileSystem} {root path : PathBuf} {target : String}
    (h : resolvePath fs root target = .ok path) :
    ∃ decoded, percentDecode (String.ofList (rawPath target)) = some decoded ∧
      Inside fs root decoded.toList path := by
  unfold resolvePath at h
  simp only at h
  split at h
  · cases h
  · split at h
    · cases h
    · next decoded hdecoded =>
      refine ⟨decoded, hdecoded, ?_⟩
      split at h
      · cases h
      · next hbytes =>
        rw [pushComponents_decoded] at h
        split at h
        · cases h
        · next hparent =>
          simp only [bind, Except.bind] at h
          split at h
          · cases h
          · next canonical hcanonical =>
            split at h
            · next hinside =>
              cases h
              rw [Bool.and_eq_true, List.isPrefixOf_iff_prefix] at hinside
              refine ⟨⟨Bool.eq_false_iff.mpr hparent, not_or.mp hbytes⟩,
                ⟨_, hcanonical, ?_⟩, hinside.1⟩
              unfold candidate
              simp only
              split
              · exact .inr rfl
              · exact .inl rfl
            · cases h

-- The file system is not looked at.
theorem resolvePath_refused {target : String} {decoded : String}
    (hdecoded : percentDecode (String.ofList (rawPath target)) = some decoded)
    (h : hasParent decoded.toList = true ∨ '\x00' ∈ decoded.toList ∨ '\\' ∈ decoded.toList)
    (fs : FileSystem) (root : PathBuf) : resolvePath fs root target = .error .badRequest := by
  unfold resolvePath
  simp only
  split
  · rfl
  · rw [rawPath] at hdecoded
    rw [hdecoded]
    simp only
    split
    · rfl
    · next hbytes =>
      rw [pushComponents_decoded, if_pos (h.resolve_right hbytes)]
      rfl

theorem mem_normalParts {decoded part : List Char} (h : part ∈ normalParts decoded) :
    part ≠ [] ∧ part ≠ ['.'] ∧ part ≠ ['.', '.'] ∧ '/' ∉ part := by
  obtain ⟨hmem, hnormal⟩ := List.mem_filter.mp h
  simp only [isNormal, Bool.and_eq_true, decide_eq_true_eq] at hnormal
  exact ⟨hnormal.1.1, hnormal.1.2, hnormal.2, Lines.notMem_of_mem_splitOn hmem⟩

theorem static_paths_stay_inside (target : String) :
    (∀ fs root path, resolvePath fs root target = .ok path →
      ∃ decoded, percentDecode (String.ofList (rawPath target)) = some decoded ∧
        Inside fs root decoded.toList path ∧
        ∀ part ∈ normalParts decoded.toList,
          part ≠ [] ∧ part ≠ ['.'] ∧ part ≠ ['.', '.'] ∧ '/' ∉ part) ∧
    ∀ decoded, percentDecode (String.ofList (rawPath target)) = some decoded →
      hasParent decoded.toList = true ∨ '\x00' ∈ decoded.toList ∨ '\\' ∈ decoded.toList →
      ∀ fs root, resolvePath fs root target = .error .badRequest := by
  refine ⟨fun fs root path hpath => ?_, fun decoded hdecoded h => resolvePath_refused hdecoded h⟩
  obtain ⟨decoded, hdecoded, hinside⟩ := resolvePath_ok hpath
  exact ⟨decoded, hdecoded, hinside, fun part hpart => mem_normalParts hpart⟩

def onePage : FileSystem where
  canonicalize text := if text = Text.utf8 "/www/a b" then some [Text.utf8 "www", Text.utf8 "a b"]
    else none
  metadata text := if text = Text.utf8 "/www/a b" then some ⟨false, true, 0⟩ else none
  openFile _ := none

theorem static_paths_stay_inside_encoded :
    (∀ fs root, resolvePath fs root "/a/%2e%2E/b?c" = .error .badRequest) ∧
      ∃ decoded, percentDecode "/.//a%20b" = some decoded ∧
        Inside onePage [Text.utf8 "www"] decoded.toList [Text.utf8 "www", Text.utf8 "a b"] := by
  constructor
  · exact (static_paths_stay_inside "/a/%2e%2E/b?c").2 "/a/../b" (by decide +kernel)
      (.inl (by decide +kernel))
  · obtain ⟨decoded, hdecoded, hinside, -⟩ := (static_paths_stay_inside "/.//a%20b").1 onePage
      [Text.utf8 "www"] [Text.utf8 "www", Text.utf8 "a b"] (by decide +kernel)
    exact ⟨decoded, hdecoded, hinside⟩

end Cross233.Client
