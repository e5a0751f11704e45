import Cross233.Server.HelloReads

namespace Cross233.Server

open BigEndian

def recordBody (data : List UInt8) : List UInt8 :=
  (data.drop 5).take (ofBe ((data.drop 3).take 2))

def declaredHello (data : List UInt8) : List UInt8 :=
  (recordBody data).take (4 + ofBe (((recordBody data).drop 1).take 3))

def declaredExtensions (data : List UInt8) : List (Tagged 2) :=
  match helloExtensions (declaredHello data) with
  | none => []
  | some (len, rest) => extensions (rest.take (ofBe len))

def declaredNames (ext : Tagged 2) : List (Tagged 1) :=
  listedNames ((ext.data.drop 2).take (ofBe (ext.data.take 2)))

def receivedExtensions (data : List UInt8) : List (Tagged 2) :=
  match helloExtensions (data.drop 5) with
  | none => []
  | some (_, rest) => extensions rest

def ListsHost (exts : List (Tagged 2)) (host : String) : Prop :=
  ∃ ext ∈ exts, ext.tag = 0 ∧
    ∃ entry ∈ declaredNames ext, entry.tag = 0 ∧ entry.data = Text.utf8 host

structure DeclaresHost (data : List UInt8) (host : String) : Prop where
  record : data.head? = some 0x16
  hello : (declaredHello data).head? = some 0x01
  listed : ListsHost (declaredExtensions data) host
  -- What follows the declared extensions is not needed to find it.
  decided : announcedHost (declaredExtensions data) = some host

def SniSound (data : List UInt8) : Prop :=
  ∀ host, parseSni data = some host → DeclaresHost data host

-- An entry of a server_name extension, by the extensions before it and the names before it.
structure HostPosition where
  passed : Nat
  ext : Tagged 2
  skipped : Nat
  entry : Tagged 1

instance (data : List UInt8) : Decidable (StartsHello data) :=
  decidable_of_iff
    (44 ≤ data.length ∧ data.head? = some 0x16 ∧ (data.drop 5).head? = some 0x01)
    ⟨fun h => ⟨h.1, h.2.1, h.2.2⟩, fun h => ⟨h.long, h.record, h.hello⟩⟩

-- Where the walk over all that was received meets its first name.
def firstHost (data : List UInt8) : Option HostPosition :=
  if StartsHello data then do
    let exts := (receivedExtensions data).takeWhile hasListLength
    let i ← exts.findIdx? fun ext => (serverHost ext).isSome
    let ext ← exts[i]?
    let names := listedNames (ext.data.drop 2)
    let j ← names.findIdx? fun entry => (entryHost entry).isSome
    let entry ← names[j]?
    some ⟨i, ext, j, entry⟩
  else none

structure WithinLengths (data : List UInt8) (p : HostPosition) : Prop where
  extensions : p.passed < (declaredExtensions data).length
  names : p.skipped < (declaredNames p.ext).length ∨
    ∃ later ∈ (declaredExtensions data).drop (p.passed + 1), later.tag = 0 ∧
      ∃ same ∈ declaredNames later, same.tag = 0 ∧ same.data = p.entry.data

structure MeetsFirst (data : List UInt8) (passed : List (Tagged 2)) (ext : Tagged 2)
    (skipped : List (Tagged 1)) (entry : Tagged 1) : Prop where
  starts : StartsHello data
  received : passed ++ [ext] <+: receivedExtensions data
  passed_none : ∀ e ∈ passed, hasListLength e = true ∧ serverHost e = none
  ext_tag : ext.tag = 0
  ext_length : 2 ≤ ext.data.length
  listed : skipped ++ [entry] <+: listedNames (ext.data.drop 2)
  skipped_none : ∀ e ∈ skipped, entryHost e = none
  entry_tag : entry.tag = 0
  entry_text : (Text.fromUtf8 entry.data).isSome = true

theorem entryHost_eq_some_iff {entry : Tagged 1} {host : String} :
    entryHost entry = some host ↔ entry.tag = 0 ∧ entry.data = Text.utf8 host := by
  rw [entryHost]
  split
  · next htag =>
    refine ⟨fun h => ⟨htag, (Text.utf8_of_fromUtf8 h).symm⟩, ?_⟩
    rintro ⟨-, hdata⟩
    rw [hdata, Text.fromUtf8_utf8]
  · next htag =>
    constructor
    · intro h
      cases h
    · intro h
      exact absurd h.1 htag

theorem prefix_of_snoc {α : Type} {l l' : List α} {a : α} (h : l ++ [a] <+: l') {short : List α}
    (hshort : short <+: l') (hlen : l.length < short.length) : l ++ [a] <+: short := by
  refine List.prefix_of_prefix_length_le h hshort ?_
  rw [List.length_append, List.length_singleton]
  omega

theorem findSome?_of_prefix {α γ : Type} {f : α → Option γ} {l l' : List α} {a : α} {c : γ}
    (h : l ++ [a] <+: l') (hl : ∀ e ∈ l, f e = none) (ha : f a = some c) :
    l'.findSome? f = some c := by
  obtain ⟨rest, rfl⟩ := h
  rw [List.append_assoc]
  exact List.findSome?_eq_some_iff.mpr ⟨l, a, rest, rfl, ha, hl⟩

theorem prefix_of_findIdx? {α : Type} {p : α → Bool} {l : List α} {i : Nat} {a : α}
    (hi : l.findIdx? p = some i) (ha : l[i]? = some a) :
    l.take i ++ [a] <+: l ∧ (∀ e ∈ l.take i, p e = false) ∧ p a = true := by
  obtain ⟨hlt, hp, hbefore⟩ := List.findIdx?_eq_some_iff_getElem.mp hi
  obtain ⟨_, rfl⟩ := List.getElem?_eq_some_iff.mp ha
  refine ⟨?_, fun e he => ?_, hp⟩
  · rw [List.take_append_getElem hlt]
    exact List.take_prefix _ _
  · obtain ⟨k, hk, rfl⟩ := List.getElem_of_mem he
    rw [List.length_take] at hk
    rw [List.getElem_take]
    exact Bool.eq_false_of_not_eq_true (hbefore k (by omega))

theorem exists_findIdx? {α γ : Type} {f : α → Option γ} {l : List α} {c : γ}
    (h : l.findSome? f = some c) :
    ∃ i a, l.findIdx? (fun e => (f e).isSome) = some i ∧ l[i]? = some a ∧
      (f a).isSome = true := by
  obtain ⟨e, he, hfe⟩ := List.exists_of_findSome?_eq_some h
  have hsome : (l.findIdx? fun e => (f e).isSome).isSome = true := by
    rw [List.findIdx?_isSome, List.any_eq_true]
    exact ⟨e, he, by rw [hfe]; rfl⟩
  obtain ⟨i, hi⟩ := Option.isSome_iff_exists.mp hsome
  obtain ⟨hlt, hp, -⟩ := List.findIdx?_eq_some_iff_getElem.mp hi
  exact ⟨i, l[i], hi, List.getElem?_eq_getElem hlt, hp⟩

theorem declaredHello_begins (data : List UInt8) : declaredHello data <+: data.drop 5 :=
  (List.take_prefix _ _).trans (List.take_prefix _ _)

theorem declared_received (data : List UInt8) :
    declaredExtensions data <+: receivedExtensions data := by
  rw [declaredExtensions]
  split
  · exact List.nil_prefix
  · next len rest hexts =>
    obtain ⟨more, hmore⟩ := declaredHello_begins data
    have hreceived := helloExtensions_append hexts more
    rw [hmore] at hreceived
    rw [receivedExtensions, hreceived]
    exact (Tagged.framing 2).split_mono
      ((List.take_prefix _ rest).trans (List.prefix_append rest more))

theorem declared_listed (ext : Tagged 2) :
    declaredNames ext <+: listedNames (ext.data.drop 2) :=
  (Tagged.framing 1).split_mono (List.take_prefix _ _)

theorem parseSni_eq_received {data : List UInt8} {host : String} :
    parseSni data = some host ↔
      StartsHello data ∧ announcedHost (receivedExtensions data) = some host := by
  rw [parseSni_eq_some_iff, receivedExtensions]
  refine and_congr_right fun _ => ?_
  cases helloExtensions (data.drop 5) with
  | none =>
    constructor
    · rintro ⟨len, rest, h, -⟩
      cases h
    · intro h
      cases h
  | some r =>
    obtain ⟨len, rest⟩ := r
    constructor
    · rintro ⟨len', rest', h, hhost⟩
      cases h
      exact hhost
    · intro h
      exact ⟨len, rest, rfl, h⟩

namespace MeetsFirst

variable {data : List UInt8} {passed : List (Tagged 2)} {ext : Tagged 2}
  {skipped : List (Tagged 1)} {entry : Tagged 1}

theorem hasListLength (h : MeetsFirst data passed ext skipped entry) :
    hasListLength ext = true := by
  simp [Server.hasListLength, h.ext_length]

theorem serverHost_eq (h : MeetsFirst data passed ext skipped entry) :
    serverHost ext = Text.fromUtf8 entry.data := by
  obtain ⟨host, hhost⟩ := Option.isSome_iff_exists.mp h.entry_text
  have hname : entryHost entry = some host := by rw [entryHost, if_pos h.entry_tag, hhost]
  rw [serverHost, if_pos h.ext_tag, hhost]
  exact findSome?_of_prefix h.listed h.skipped_none hname

theorem announced (h : MeetsFirst data passed ext skipped entry) {exts : List (Tagged 2)}
    (hexts : passed ++ [ext] <+: exts) : announcedHost exts = Text.fromUtf8 entry.data := by
  obtain ⟨host, hhost⟩ := Option.isSome_iff_exists.mp h.entry_text
  obtain ⟨rest, rfl⟩ := hexts
  rw [List.append_assoc, List.singleton_append, hhost]
  exact announcedHost_first h.passed_none h.hasListLength (h.serverHost_eq.trans hhost) rest

end MeetsFirst

theorem firstHost_meets {data : List UInt8} {p : HostPosition} (h : firstHost data = some p) :
    ∃ passed skipped, MeetsFirst data passed p.ext skipped p.entry ∧
      passed.length = p.passed ∧ skipped.length = p.skipped := by
  unfold firstHost at h
  split at h
  · next hstarts =>
    obtain ⟨i, hi, h⟩ := Option.bind_eq_some_iff.mp h
    obtain ⟨ext, hext, h⟩ := Option.bind_eq_some_iff.mp h
    obtain ⟨j, hj, h⟩ := Option.bind_eq_some_iff.mp h
    obtain ⟨entry, hentry, h⟩ := Option.bind_eq_some_iff.mp h
    cases h
    obtain ⟨hpassed, hnone, hserver⟩ := prefix_of_findIdx? hi hext
    obtain ⟨hskipped, hquiet, hname⟩ := prefix_of_findIdx? hj hentry
    have hlength (e : Tagged 2)
        (he : e ∈ (receivedExtensions data).takeWhile hasListLength) :
        hasListLength e = true := List.mem_takeWhile_imp he
    have htag : ext.tag = 0 := by
      by_contra htag
      rw [serverHost, if_neg htag] at hserver
      cases hserver
    have hroom := hlength ext (List.mem_of_getElem? hext)
    have hentryTag : entry.tag = 0 := by
      by_contra htag
      rw [entryHost, if_neg htag] at hname
      cases hname
    rw [entryHost, if_pos hentryTag] at hname
    refine ⟨_, _, ⟨hstarts, hpassed.trans (List.takeWhile_prefix _), fun e he => ⟨?_, ?_⟩, htag,
      ?_, hskipped, fun e he => ?_, hentryTag, hname⟩, ?_, ?_⟩
    · exact hlength e (List.mem_of_mem_take he)
    · exact Option.not_isSome_iff_eq_none.mp (by simpa using hnone e he)
    · simpa [hasListLength, htag] using hroom
    · exact Option.not_isSome_iff_eq_none.mp (by simpa using hquiet e he)
    · have hlt := (List.getElem?_eq_some_iff.mp hext).1
      exact List.length_take_of_le (Nat.le_of_lt hlt)
    · have hlt := (List.getElem?_eq_some_iff.mp hentry).1
      exact List.length_take_of_le (Nat.le_of_lt hlt)
  · cases h

theorem parseSni_firstHost {data : List UInt8} {host : String} (h : parseSni data = some host) :
    ∃ p, firstHost data = some p := by
  obtain ⟨hstarts, hhost⟩ := parseSni_eq_received.mp h
  obtain ⟨i, ext, hi, hext, hserver⟩ := exists_findIdx? hhost
  obtain ⟨name, hname⟩ := Option.isSome_iff_exists.mp hserver
  rw [serverHost] at hname
  split at hname
  · obtain ⟨j, entry, hj, hentry, -⟩ := exists_findIdx? hname
    refine ⟨⟨i, ext, j, entry⟩, ?_⟩
    rw [firstHost, if_pos hstarts]
    simp only [hi, hext, hj, hentry, Option.bind_eq_bind, Option.bind_some]
  · cases hname

theorem ListsHost.some_host {exts : List (Tagged 2)} {host : String} (h : ListsHost exts host) :
    ∃ ext ∈ exts, serverHost ext ≠ none := by
  obtain ⟨ext, hext, htag, entry, hentry, hhost⟩ := h
  refine ⟨ext, hext, fun hnone => ?_⟩
  rw [serverHost, if_pos htag, List.findSome?_eq_none_iff] at hnone
  have hname := hnone entry ((declared_listed ext).subset hentry)
  rw [entryHost_eq_some_iff.mpr hhost] at hname
  cases hname

theorem declaredHello_head {data : List UInt8} (hstarts : StartsHello data)
    (h : declaredExtensions data ≠ []) : (declaredHello data).head? = some 0x01 := by
  have hne : declaredHello data ≠ [] := by
    intro hnil
    rw [declaredExtensions, hnil] at h
    exact h rfl
  obtain ⟨more, hmore⟩ := declaredHello_begins data
  have hhead := hstarts.hello
  rwa [← hmore, List.head?_append_of_ne_nil _ hne] at hhead

namespace MeetsFirst

variable {data : List UInt8} {passed : List (Tagged 2)} {ext : Tagged 2}
  {skipped : List (Tagged 1)} {entry : Tagged 1} {host : String}

theorem within (h : MeetsFirst data passed ext skipped entry) (hdata : entry.data = Text.utf8 host)
    (hlists : ListsHost (declaredExtensions data) host) :
    WithinLengths data ⟨passed.length, ext, skipped.length, entry⟩ := by
  have hprefix := declared_received data
  have hnone : ¬ListsHost passed host := by
    intro hpassed
    obtain ⟨e, he, hhost⟩ := hpassed.some_host
    exact hhost (h.passed_none e he).2
  have hlength : passed.length < (declaredExtensions data).length := by
    by_contra hle
    have hshort := List.prefix_of_prefix_length_le hprefix
      ((List.prefix_append passed [ext]).trans h.received) (Nat.not_lt.mp hle)
    obtain ⟨e, he, hlisted⟩ := hlists
    exact hnone ⟨e, hshort.subset he, hlisted⟩
  refine ⟨hlength, ?_⟩
  obtain ⟨later, hlater⟩ := prefix_of_snoc h.received hprefix hlength
  have hdrop : (declaredExtensions data).drop (passed.length + 1) = later := by
    rw [← hlater, List.drop_left' (by simp)]
  obtain ⟨e, he, htag, same, hsame, hsame_tag, hsame_data⟩ := hlists
  rw [← hlater, List.append_assoc, List.mem_append, List.singleton_append, List.mem_cons] at he
  rcases he with he | rfl | he
  · exact absurd ⟨e, he, htag, same, hsame, hsame_tag, hsame_data⟩ hnone
  · left
    by_contra hle
    have hshort := List.prefix_of_prefix_length_le (declared_listed e)
      ((List.prefix_append skipped [entry]).trans h.listed) (Nat.not_lt.mp hle)
    have hname := h.skipped_none same (hshort.subset hsame)
    rw [entryHost_eq_some_iff.mpr ⟨hsame_tag, hsame_data⟩] at hname
    cases hname
  · right
    rw [hdrop]
    exact ⟨e, he, htag, same, hsame, hsame_tag, hsame_data.trans hdata.symm⟩

theorem declares (h : MeetsFirst data passed ext skipped entry)
    (hdata : entry.data = Text.utf8 host)
    (hwithin : WithinLengths data ⟨passed.length, ext, skipped.length, entry⟩) :
    DeclaresHost data host := by
  have hexts := prefix_of_snoc h.received (declared_received data) hwithin.extensions
  refine ⟨h.starts.record, declaredHello_head h.starts ?_, ?_, ?_⟩
  · intro hnil
    have hlen := hwithin.extensions
    rw [hnil] at hlen
    exact Nat.not_lt_zero _ hlen
  · rcases hwithin.names with hlen | ⟨later, hlater, htag, same, hsame, hsame_tag, hsame_data⟩
    · have hnames := prefix_of_snoc h.listed (declared_listed ext) hlen
      exact ⟨ext, hexts.subset (by simp), h.ext_tag, entry, hnames.subset (by simp),
        h.entry_tag, hdata⟩
    · exact ⟨later, List.mem_of_mem_drop hlater, htag, same, hsame, hsame_tag,
        hsame_data.trans hdata⟩
  · rw [h.announced hexts, hdata, Text.fromUtf8_utf8]

end MeetsFirst

theorem sni_sound_iff (data : List UInt8) :
    SniSound data ↔ ∀ p, firstHost data = some p → WithinLengths data p := by
  constructor
  · rintro hsound ⟨_, ext, _, entry⟩ hfirst
    obtain ⟨passed, skipped, h, rfl, rfl⟩ := firstHost_meets hfirst
    obtain ⟨host, hhost⟩ := Option.isSome_iff_exists.mp h.entry_text
    have hparse : parseSni data = some host :=
      parseSni_eq_received.mpr ⟨h.starts, (h.announced h.received).trans hhost⟩
    exact h.within (Text.utf8_of_fromUtf8 hhost).symm (hsound host hparse).listed
  · intro hwithin host hparse
    obtain ⟨⟨_, ext, _, entry⟩, hfirst⟩ := parseSni_firstHost hparse
    have hlengths := hwithin _ hfirst
    obtain ⟨passed, skipped, h, rfl, rfl⟩ := firstHost_meets hfirst
    have hhost : Text.fromUtf8 entry.data = some host :=
      (h.announced h.received).symm.trans (parseSni_eq_received.mp hparse).2
    exact h.declares (Text.utf8_of_fromUtf8 hhost).symm hlengths

-- A hello without extensions, and what the same client sends after its record.
def trailingName : List UInt8 :=
  [0x16, 0x03, 0x01] ++ vector 2 ([0x01] ++ vector 3 ([0x03, 0x03] ++ List.replicate 32 0x2a ++
    vector 1 [] ++ vector 2 [0x13, 0x01] ++ vector 1 [0x00] ++ vector 2 [])) ++
    shopNames.ext.encode

theorem trailing_name_routes :
    parseSni trailingName = some "shop.example" ∧ (declaredExtensions trailingName).length = 0 ∧
      ¬SniSound trailingName := by
  have hparse : parseSni trailingName = some "shop.example" := by decide +kernel
  have hnone : (declaredExtensions trailingName).length = 0 := by decide +kernel
  refine ⟨hparse, hnone, fun hsound => ?_⟩
  obtain ⟨ext, hext, -⟩ := (hsound "shop.example" hparse).listed
  rw [List.length_eq_zero_iff.mp hnone] at hext
  exact List.not_mem_nil hext

end Cross233.Server
