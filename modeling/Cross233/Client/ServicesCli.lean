import Cross233.Library.IpText
import Cross233.Library.Lines
import Cross233.Protocol.Msg

namespace Cross233.Client

open Protocol

-- `u16::from_str`, which takes a plus sign before the digits.
def parseU16 (text : List Char) : Option UInt16 :=
  match IpAddr.readUnsigned 65536 ((Text.stripHead ['+'] text).getD text) with
  | some (n, []) => some (UInt16.ofNat n)
  | _ => none

def parseItem (item : List Char) : Except String Service :=
  match Lines.splitN ':' 5 item with
  | name :: ty :: host :: port :: rest =>
    .ok
      { name := String.ofList name
        ty := some (String.ofList ty)
        localAddr := String.ofList (host ++ ':' :: port)
        remotePort := (rest.head?.bind parseU16).getD 0 }
  | _ =>
    .error ("invalid service spec '" ++ String.ofList item ++
      "': expected name:type:localHost:localPort[:remotePort]")

def parseItems : List (List Char) → Except String (List Service)
  | [] => .ok []
  | item :: rest =>
    if Text.trim item = [] then parseItems rest
    else do
      let svc ← parseItem (Text.trim item)
      let services ← parseItems rest
      .ok (svc :: services)

def parseServicesCli (spec : String) : Except String (List Service) :=
  parseItems (spec.toList.splitOn ',')

def items (spec : String) : List (List Char) :=
  ((spec.toList.splitOn ',').map Text.trim).filter (· ≠ [])

-- The four fields that every item has.
structure CliFields where
  name : List Char
  ty : List Char
  host : List Char
  port : List Char
  name_plain : ':' ∉ name
  ty_plain : ':' ∉ ty
  host_plain : ':' ∉ host
  port_plain : ':' ∉ port

namespace CliFields

def text (f : CliFields) : List Char :=
  f.name ++ ':' :: (f.ty ++ ':' :: (f.host ++ ':' :: f.port))

def service (f : CliFields) (remotePort : UInt16) : Service where
  name := String.ofList f.name
  ty := some (String.ofList f.ty)
  localAddr := String.ofList (f.host ++ ':' :: f.port)
  remotePort := remotePort

end CliFields

inductive ItemOf : List Char → Service → Prop where
  | auto (f : CliFields) : ItemOf f.text (f.service 0)
  | remote (f : CliFields) {text : List Char} {port : UInt16} (hport : parseU16 text = some port) :
      ItemOf (f.text ++ ':' :: text) (f.service port)

def ShortItem (item : List Char) : Prop := (Lines.splitN ':' 5 item).length < 4

def BadPort (item : List Char) : Prop :=
  ∃ (f : CliFields) (text : List Char), item = f.text ++ ':' :: text ∧ parseU16 text = none

def printItem (svc : Service) : List Char :=
  svc.name.toList ++ ':' :: ((svc.ty.getD "").toList ++ ':' :: (svc.localAddr.toList ++
    ':' :: Nat.toDigits 10 svc.remotePort.toNat))

def printServices (services : List Service) : String :=
  String.ofList ([','].intercalate (services.map printItem))

def AcceptsGrammar (spec : String) : Prop :=
  (∀ services, parseServicesCli spec = .ok services ↔ List.Forall₂ ItemOf (items spec) services) ∧
    ∀ services, parseServicesCli spec = .ok services →
      parseServicesCli (printServices services) = .ok services

theorem splitN_cases (item : List Char) (n : Nat) :
    (':' ∉ item ∧ Lines.splitN ':' (n + 2) item = [item]) ∨
      ∃ part rest, ':' ∉ part ∧ item = part ++ ':' :: rest ∧
        Lines.splitN ':' (n + 2) item = part :: Lines.splitN ':' (n + 1) rest := by
  by_cases h : ':' ∈ item
  · obtain ⟨part, rest, rfl, hpart⟩ := List.eq_append_cons_of_mem h
    exact .inr ⟨part, rest, hpart, rfl, Lines.splitN_append hpart n rest⟩
  · exact .inl ⟨h, Lines.splitN_single h (n + 1)⟩

namespace CliFields

variable (f : CliFields)

theorem splitN_text : Lines.splitN ':' 5 f.text = [f.name, f.ty, f.host, f.port] := by
  rw [text, Lines.splitN_append f.name_plain, Lines.splitN_append f.ty_plain,
    Lines.splitN_append f.host_plain, Lines.splitN_single f.port_plain]

theorem splitN_remote (remote : List Char) :
    Lines.splitN ':' 5 (f.text ++ ':' :: remote) = [f.name, f.ty, f.host, f.port, remote] := by
  have htext : f.text ++ ':' :: remote =
      f.name ++ ':' :: (f.ty ++ ':' :: (f.host ++ ':' :: (f.port ++ ':' :: remote))) := by
    simp [text]
  rw [htext, Lines.splitN_append f.name_plain, Lines.splitN_append f.ty_plain,
    Lines.splitN_append f.host_plain, Lines.splitN_append f.port_plain]
  rfl

theorem parseItem_text : parseItem f.text = .ok (f.service 0) := by
  rw [parseItem, f.splitN_text]
  rfl

theorem parseItem_remote (remote : List Char) :
    parseItem (f.text ++ ':' :: remote) = .ok (f.service ((parseU16 remote).getD 0)) := by
  rw [parseItem, f.splitN_remote]
  rfl

end CliFields

inductive Shape (item : List Char) : Prop where
  | short (hshort : ShortItem item)
  | auto (f : CliFields) (hitem : item = f.text)
  | remote (f : CliFields) (text : List Char) (hitem : item = f.text ++ ':' :: text)

theorem shape (item : List Char) : Shape item := by
  rcases splitN_cases item 3 with ⟨-, hsplit⟩ | ⟨name, afterName, hname, hitem, hsplit⟩
  · exact .short (by simp [ShortItem, hsplit])
  rcases splitN_cases afterName 2 with ⟨-, hrest⟩ | ⟨ty, afterTy, hty, rfl, hrest⟩
  · exact .short (by simp [ShortItem, hsplit, hrest])
  rcases splitN_cases afterTy 1 with ⟨-, hrest'⟩ | ⟨host, afterHost, hhost, rfl, hrest'⟩
  · exact .short (by simp [ShortItem, hsplit, hrest, hrest'])
  rcases splitN_cases afterHost 0 with ⟨hport, -⟩ | ⟨port, remote, hport, rfl, -⟩
  · exact .auto ⟨name, ty, host, afterHost, hname, hty, hhost, hport⟩ hitem
  · refine .remote ⟨name, ty, host, port, hname, hty, hhost, hport⟩ remote ?_
    rw [hitem]
    simp [CliFields.text]

theorem parseItem_short {item : List Char} (h : ShortItem item) :
    ∃ error, parseItem item = .error error := by
  rw [parseItem]
  split
  · next hsplit =>
    rw [ShortItem, hsplit] at h
    simp at h
    omega
  · exact ⟨_, rfl⟩

theorem itemOf_not_short {item : List Char} {svc : Service} (h : ItemOf item svc) :
    ¬ShortItem item := by
  cases h with
  | auto f => simp [ShortItem, f.splitN_text]
  | remote f hport => simp [ShortItem, f.splitN_remote]

theorem parseItem_of_itemOf {item : List Char} {svc : Service} (h : ItemOf item svc) :
    parseItem item = .ok svc := by
  cases h with
  | auto f => exact f.parseItem_text
  | remote f hport => rw [f.parseItem_remote, hport, Option.getD_some]

-- Outside the bad ports an item is read as the grammar says, or refused.
theorem parseItem_ok_iff {item : List Char} (hport : ¬BadPort item) (svc : Service) :
    parseItem item = .ok svc ↔ ItemOf item svc := by
  refine ⟨fun hok => ?_, parseItem_of_itemOf⟩
  cases shape item with
  | short hshort =>
    obtain ⟨error, herror⟩ := parseItem_short hshort
    rw [herror] at hok
    cases hok
  | auto f hitem =>
    rw [hitem, f.parseItem_text] at hok
    cases hok
    exact hitem ▸ .auto f
  | remote f text hitem =>
    rw [hitem, f.parseItem_remote] at hok
    cases hok
    cases htext : parseU16 text with
    | none => exact absurd ⟨f, text, hitem, htext⟩ hport
    | some port => exact hitem ▸ .remote f htext

theorem parseItems_cons {item : List Char} (h : Text.trim item ≠ []) (rest : List (List Char))
    (services : List Service) :
    parseItems (item :: rest) = .ok services ↔
      ∃ svc tail, parseItem (Text.trim item) = .ok svc ∧ parseItems rest = .ok tail ∧
        services = svc :: tail := by
  rw [parseItems, if_neg h]
  cases parseItem (Text.trim item) with
  | error e =>
    refine iff_of_false (fun h => by cases h) ?_
    rintro ⟨svc, tail, hsvc, -⟩
    cases hsvc
  | ok svc =>
    cases parseItems rest with
    | error e =>
      refine iff_of_false (fun h => by cases h) ?_
      rintro ⟨svc, tail, -, htail, -⟩
      cases htail
    | ok tail =>
      constructor
      · intro hok
        cases hok
        exact ⟨svc, tail, rfl, rfl, rfl⟩
      · rintro ⟨svc, tail, hsvc, htail, rfl⟩
        cases hsvc
        cases htail
        rfl

theorem parseItems_ok_iff (raw : List (List Char)) (services : List Service) :
    parseItems raw = .ok services ↔
      List.Forall₂ (fun item svc => parseItem item = .ok svc)
        ((raw.map Text.trim).filter (· ≠ [])) services := by
  induction raw generalizing services with
  | nil =>
    rw [List.map_nil, List.filter_nil, List.forall₂_nil_left_iff, parseItems]
    constructor
    · intro hok
      cases hok
      rfl
    · rintro rfl
      rfl
  | cons item raw ih =>
    by_cases hblank : Text.trim item = []
    · rw [parseItems, if_pos hblank, List.map_cons, List.filter_cons_of_neg (by simp [hblank])]
      exact ih services
    · rw [parseItems_cons hblank, List.map_cons, List.filter_cons_of_pos (by simp [hblank]),
        List.forall₂_cons_left_iff]
      constructor
      · rintro ⟨svc, tail, hsvc, htail, rfl⟩
        exact ⟨svc, tail, hsvc, (ih tail).mp htail, rfl⟩
      · rintro ⟨svc, tail, hsvc, htail, rfl⟩
        exact ⟨svc, tail, hsvc, (ih tail).mpr htail, rfl⟩

theorem not_badPort_of_itemOf {item : List Char} {svc : Service} (h : ItemOf item svc) :
    ¬BadPort item := by
  rintro ⟨f, text, hitem, hnone⟩
  have hsplit := f.splitN_remote text
  rw [← hitem] at hsplit
  cases h with
  | auto g =>
    rw [g.splitN_text] at hsplit
    simp at hsplit
  | @remote g text' port hport =>
    rw [g.splitN_remote] at hsplit
    have htext : text' = text := by simpa using (congrArg List.getLast? hsplit)
    rw [htext, hnone] at hport
    cases hport

theorem parseItem_total {item : List Char} (h : ¬ShortItem item) :
    ∃ svc, parseItem item = .ok svc := by
  cases shape item with
  | short hshort => exact absurd hshort h
  | auto f hitem => exact ⟨_, hitem ▸ f.parseItem_text⟩
  | remote f text hitem => exact ⟨_, hitem ▸ f.parseItem_remote text⟩

theorem digits_plain {n : Nat} {c : Char} (h : c ∈ Nat.toDigits 10 n) :
    Text.isWhitespace c = false ∧ c ≠ ',' ∧ c ≠ '+' := by
  obtain ⟨ds, hds⟩ := IpAddr.exists_digits (by decide : 1 < 10) n
  rw [hds.text] at h
  obtain ⟨d, hd, rfl⟩ := List.mem_map.mp h
  have hall : ∀ d < 10, Text.isWhitespace (Nat.digitChar d) = false ∧ Nat.digitChar d ≠ ',' ∧
      Nat.digitChar d ≠ '+' := by decide
  exact hall d (hds.bound d hd)

theorem parseU16_toDigits (port : UInt16) :
    parseU16 (Nat.toDigits 10 port.toNat) = some port := by
  have hstrip : Text.stripHead ['+'] (Nat.toDigits 10 port.toNat) = none := by
    cases hdigits : Nat.toDigits 10 port.toNat with
    | nil => rfl
    | cons c cs =>
      have hplain := (digits_plain (hdigits ▸ List.mem_cons_self : c ∈ Nat.toDigits 10 _)).2.2
      simp [Text.stripHead, List.isPrefixOf, Ne.symm hplain]
  have hread : IpAddr.readUnsigned 65536 (Nat.toDigits 10 port.toNat ++ []) =
      some (port.toNat, []) := IpAddr.readUnsigned_toDigits port.toNat_lt (by rintro c ⟨⟩)
  rw [List.append_nil] at hread
  rw [parseU16, hstrip, Option.getD_none, hread]
  simp

-- What the parser returns can be printed: no comma ends an item early, no blank starts one.
def Printable (svc : Service) : Prop :=
  ∃ (f : CliFields) (port : UInt16), svc = f.service port ∧ ',' ∉ f.text ∧
    ∀ c ∈ f.text.head?, Text.isWhitespace c = false

theorem head_text (f : CliFields) (rest : List Char) :
    (f.text ++ rest).head? = f.text.head? := by
  refine List.head?_append_of_ne_nil _ ?_
  simp [CliFields.text]

theorem printable_of_parseItem {item : List Char} {svc : Service}
    (hcomma : ',' ∉ item) (hhead : ∀ c ∈ item.head?, Text.isWhitespace c = false)
    (h : parseItem item = .ok svc) : Printable svc := by
  cases shape item with
  | short hshort =>
    obtain ⟨error, herror⟩ := parseItem_short hshort
    rw [herror] at h
    cases h
  | auto f hitem =>
    subst hitem
    rw [f.parseItem_text] at h
    cases h
    exact ⟨f, 0, rfl, hcomma, hhead⟩
  | remote f text hitem =>
    subst hitem
    rw [f.parseItem_remote] at h
    cases h
    rw [head_text] at hhead
    exact ⟨f, _, rfl, fun hmem => hcomma (List.mem_append_left _ hmem), hhead⟩

theorem item_clean {spec : String} {item : List Char} (h : item ∈ items spec) :
    ',' ∉ item ∧ ∀ c ∈ item.head?, Text.isWhitespace c = false := by
  obtain ⟨raw, hraw, rfl⟩ := List.mem_map.mp (List.mem_filter.mp h).1
  refine ⟨fun hmem => Lines.notMem_of_mem_splitOn hraw (Text.mem_of_mem_trim hmem), ?_⟩
  intro c hc
  obtain ⟨cs, hcs⟩ := List.head?_eq_some_iff.mp hc
  exact Text.trim_head hcs

namespace CliFields

variable (f : CliFields)

theorem printItem_service (port : UInt16) :
    printItem (f.service port) = f.text ++ ':' :: Nat.toDigits 10 port.toNat := by
  simp [printItem, service, text]

theorem comma_notMem_printItem (port : UInt16) (h : ',' ∉ f.text) :
    ',' ∉ printItem (f.service port) := by
  rw [f.printItem_service, List.mem_append, List.mem_cons]
  rintro (hmem | heq | hmem)
  · exact h hmem
  · cases heq
  · exact (digits_plain hmem).2.1 rfl

theorem trim_printItem (port : UInt16)
    (h : ∀ c ∈ f.text.head?, Text.isWhitespace c = false) :
    Text.trim (printItem (f.service port)) = printItem (f.service port) := by
  have hdigits : Nat.toDigits 10 port.toNat ≠ [] := Nat.toDigits_ne_nil
  have hlast : Text.isWhitespace ((Nat.toDigits 10 port.toNat).getLast hdigits) = false :=
    (digits_plain (List.getLast_mem hdigits)).1
  have hprinted := f.printItem_service port
  rw [← List.dropLast_append_getLast hdigits] at hprinted
  cases htext : f.text with
  | nil => simp [text] at htext
  | cons a body =>
    have hshape : printItem (f.service port) =
        a :: (body ++ ':' :: (Nat.toDigits 10 port.toNat).dropLast) ++
          [(Nat.toDigits 10 port.toNat).getLast hdigits] := by
      rw [hprinted, htext]
      simp
    rw [hshape]
    exact Text.trim_id _ (h a (by rw [htext]; rfl)) hlast

end CliFields

theorem parseItems_printed {services : List Service} (h : ∀ svc ∈ services, Printable svc) :
    parseItems (services.map printItem) = .ok services := by
  induction services with
  | nil => rfl
  | cons svc services ih =>
    rw [List.forall_mem_cons] at h
    obtain ⟨f, port, rfl, -, hhead⟩ := h.1
    have htrim := f.trim_printItem port hhead
    have hblank : Text.trim (printItem (f.service port)) ≠ [] := by
      rw [htrim, f.printItem_service]
      simp
    rw [List.map_cons, parseItems_cons hblank]
    refine ⟨f.service port, services, ?_, ih h.2, rfl⟩
    rw [htrim, f.printItem_service, f.parseItem_remote, parseU16_toDigits, Option.getD_some]

theorem parse_printServices {services : List Service} (h : ∀ svc ∈ services, Printable svc) :
    parseServicesCli (printServices services) = .ok services := by
  rw [parseServicesCli, printServices, String.toList_ofList]
  cases services with
  | nil => rfl
  | cons svc services =>
    rw [List.splitOn_intercalate]
    · exact parseItems_printed h
    · intro printed hprinted
      obtain ⟨svc, hsvc, rfl⟩ := List.mem_map.mp hprinted
      obtain ⟨f, port, rfl, hcomma, -⟩ := h svc hsvc
      exact f.comma_notMem_printItem port hcomma
    · simp

theorem exists_of_forall₂ {α β : Type} {r : α → β → Prop} {xs : List α} {ys : List β}
    (h : List.Forall₂ r xs ys) : ∀ x ∈ xs, ∃ y ∈ ys, r x y := by
  induction h with
  | nil => simp
  | @cons x y xs ys hxy _ ih =>
    intro x' hx'
    rcases List.mem_cons.mp hx' with rfl | hx'
    · exact ⟨y, List.mem_cons_self, hxy⟩
    · obtain ⟨y', hy', hr⟩ := ih x' hx'
      exact ⟨y', List.mem_cons_of_mem y hy', hr⟩

theorem parse_printable {spec : String} {services : List Service}
    (h : parseServicesCli spec = .ok services) : ∀ svc ∈ services, Printable svc := by
  have hforall : List.Forall₂ (flip fun item svc => parseItem item = .ok svc) services
      (items spec) := ((parseItems_ok_iff _ _).mp h).flip
  intro svc hsvc
  obtain ⟨item, hitem, hparse⟩ := exists_of_forall₂ hforall svc hsvc
  obtain ⟨hcomma, hhead⟩ := item_clean hitem
  exact printable_of_parseItem hcomma hhead hparse

theorem parse_total {spec : String} (h : ∀ item ∈ items spec, ¬ShortItem item) :
    ∃ services, parseServicesCli spec = .ok services := by
  have hall : ∀ parsed : List (List Char), (∀ item ∈ parsed, ¬ShortItem item) →
      ∃ services, List.Forall₂ (fun item svc => parseItem item = .ok svc) parsed services := by
    intro parsed hlong
    induction parsed with
    | nil => exact ⟨[], .nil⟩
    | cons item parsed ih =>
      rw [List.forall_mem_cons] at hlong
      obtain ⟨svc, hsvc⟩ := parseItem_total hlong.1
      obtain ⟨services, hservices⟩ := ih hlong.2
      exact ⟨svc :: services, .cons hsvc hservices⟩
  obtain ⟨services, hservices⟩ := hall (items spec) h
  exact ⟨services, (parseItems_ok_iff _ _).mpr hservices⟩

theorem parse_ok_iff {spec : String} (h : ∀ item ∈ items spec, ¬BadPort item)
    (services : List Service) :
    parseServicesCli spec = .ok services ↔ List.Forall₂ ItemOf (items spec) services := by
  rw [parseServicesCli, parseItems_ok_iff]
  constructor
  · intro hforall
    exact ((List.forall₂_and_left _ _).mpr ⟨h, hforall⟩).imp
      fun item svc hitem => (parseItem_ok_iff hitem.1 svc).mp hitem.2
  · intro hforall
    exact hforall.imp fun item svc hitem => parseItem_of_itemOf hitem

theorem parse_short {spec : String} {item : List Char} (hitem : item ∈ items spec)
    (hshort : ShortItem item) (services : List Service) : parseServicesCli spec ≠ .ok services := by
  intro hok
  obtain ⟨svc, -, hsvc⟩ := exists_of_forall₂ ((parseItems_ok_iff _ _).mp hok) item hitem
  obtain ⟨error, herror⟩ := parseItem_short hshort
  rw [herror] at hsvc
  cases hsvc

theorem accepts_grammar_iff (spec : String) :
    AcceptsGrammar spec ↔
      (∃ item ∈ items spec, ShortItem item) ∨ ∀ item ∈ items spec, ¬BadPort item := by
  constructor
  · rintro ⟨hgrammar, -⟩
    by_cases hshort : ∃ item ∈ items spec, ShortItem item
    · exact .inl hshort
    · obtain ⟨services, hok⟩ := parse_total fun item hitem h => hshort ⟨item, hitem, h⟩
      refine .inr fun item hitem => ?_
      obtain ⟨svc, -, hsvc⟩ := exists_of_forall₂ ((hgrammar services).mp hok) item hitem
      exact not_badPort_of_itemOf hsvc
  · intro hcond
    refine ⟨fun services => ?_, fun services hok => parse_printServices (parse_printable hok)⟩
    rcases hcond with ⟨item, hitem, hshort⟩ | hports
    · refine iff_of_false (parse_short hitem hshort services) fun hforall => ?_
      obtain ⟨svc, -, hsvc⟩ := exists_of_forall₂ hforall item hitem
      exact itemOf_not_short hsvc hshort
    · exact parse_ok_iff hports services

def webFields : CliFields where
  name := "web".toList
  ty := "tcp".toList
  host := "127.0.0.1".toList
  port := "80".toList
  name_plain := by decide
  ty_plain := by decide
  host_plain := by decide
  port_plain := by decide

theorem bad_port_becomes_auto :
    parseServicesCli "web:tcp:127.0.0.1:80:99999" = .ok [webFields.service 0] ∧
      (webFields.service 0).usesAutoPort = true ∧
      ¬AcceptsGrammar "web:tcp:127.0.0.1:80:99999" := by
  have hparse : parseServicesCli "web:tcp:127.0.0.1:80:99999" = .ok [webFields.service 0] := rfl
  refine ⟨hparse, by decide +kernel, fun haccepts => ?_⟩
  have hitems : items "web:tcp:127.0.0.1:80:99999" = [webFields.text ++ ':' :: "99999".toList] := by
    decide +kernel
  have hforall := (haccepts.1 _).mp hparse
  rw [hitems] at hforall
  cases hforall with
  | cons hitem _ =>
    exact not_badPort_of_itemOf hitem ⟨webFields, "99999".toList, rfl, by decide +kernel⟩

end Cross233.Client
