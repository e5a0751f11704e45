import Mathlib.Data.List.Basic
import Cross233.Library.HashMap

theorem List.mapM_map_pure {m : Type → Type} [Monad m] [LawfulMonad m] {β γ : Type} {f : β → m γ}
    {g : γ → β} {xs : List γ} (h : ∀ x ∈ xs, f (g x) = pure x) : (xs.map g).mapM f = pure xs := by
  induction xs with
  | nil => rfl
  | cons x xs ih =>
    rw [List.forall_mem_cons] at h
    rw [List.map_cons, List.mapM_cons, h.1, ih h.2, pure_bind, pure_bind]

-- `other` is any number that is not an unsigned integer.
inductive Json where
  | null
  | bool (b : Bool)
  | num (n : Nat)
  | other (text : String)
  | str (s : String)
  | arr (xs : List Json)
  | obj (ms : List (String × Json))

namespace Json

structure Format (α : Type) where
  write : α → Json
  read : Json → Option α

variable {α : Type}

def Format.Reads (fmt : Format α) (a : α) : Prop := fmt.read (fmt.write a) = some a

structure Format.Lawful (fmt : Format α) : Prop where
  reads : ∀ a, fmt.Reads a
  value : ∀ a, fmt.write a ≠ .null

def text : Format String where
  write := .str
  read
    | .str s => some s
    | _ => none

def boolean : Format Bool where
  write := .bool
  read
    | .bool b => some b
    | _ => none

def unsigned (size : Nat) (toNat : α → Nat) (ofNat : Nat → α) : Format α where
  write a := .num (toNat a)
  read
    | .num n => if n < size then some (ofNat n) else none
    | _ => none

def u16 : Format UInt16 := unsigned UInt16.size UInt16.toNat UInt16.ofNat
def u32 : Format UInt32 := unsigned UInt32.size UInt32.toNat UInt32.ofNat
def u64 : Format UInt64 := unsigned UInt64.size UInt64.toNat UInt64.ofNat

def list (fmt : Format α) : Format (List α) where
  write xs := .arr (xs.map fmt.write)
  read
    | .arr js => js.mapM fmt.read
    | _ => none

def option (fmt : Format α) : Format (Option α) where
  write
    | none => .null
    | some a => fmt.write a
  read
    | .null => some none
    | j => (fmt.read j).map some

-- Of two members with one key the later one stays, as when they are inserted one after another.
def ofEntries (es : List (String × String)) : HashMap String String :=
  es.foldr (fun e m => m.orInsert e.1 e.2) ∅

def stringMap : Format (HashMap String String) where
  write m := .obj (m.entries.map (fun e => (e.1, .str e.2)))
  read
    | .obj ms => (ms.mapM (fun m => (text.read m.2).map (Prod.mk m.1))).map ofEntries
    | _ => none

theorem text_lawful : text.Lawful := ⟨fun _ => rfl, nofun⟩

theorem boolean_lawful : boolean.Lawful := ⟨fun _ => rfl, nofun⟩

theorem unsigned_lawful {size : Nat} {toNat : α → Nat} {ofNat : Nat → α}
    (hlt : ∀ a, toNat a < size) (ha : ∀ a, ofNat (toNat a) = a) :
    (unsigned size toNat ofNat).Lawful where
  reads a := by simp [Format.Reads, unsigned, hlt a, ha a]
  value := nofun

theorem u16_lawful : u16.Lawful := unsigned_lawful UInt16.toNat_lt (fun _ => UInt16.ofNat_toNat)

theorem u32_lawful : u32.Lawful := unsigned_lawful UInt32.toNat_lt (fun _ => UInt32.ofNat_toNat)

theorem u64_lawful : u64.Lawful := unsigned_lawful UInt64.toNat_lt (fun _ => UInt64.ofNat_toNat)

theorem list_reads {fmt : Format α} (h : fmt.Lawful) (xs : List α) : (list fmt).Reads xs :=
  List.mapM_map_pure (fun x _ => h.reads x)

theorem option_reads {fmt : Format α} (h : fmt.Lawful) (o : Option α) : (option fmt).Reads o := by
  cases o with
  | none => rfl
  | some a =>
    have hread : (option fmt).read (fmt.write a) = (fmt.read (fmt.write a)).map some := by
      cases hj : fmt.write a with
      | null => exact absurd hj (h.value a)
      | _ => rfl
    show (option fmt).read (fmt.write a) = some (some a)
    rw [hread, h.reads a]
    rfl

theorem ofEntries_entries (m : HashMap String String) :
    ofEntries (m.entries.map (fun e => (e.1, e.2))) = m := by
  have hfold : ∀ es : List (Sigma fun _ : String => String), (hn : es.NodupKeys) →
      (ofEntries (es.map (fun e => (e.1, e.2)))) = ⟨es, hn⟩ := by
    intro es
    induction es with
    | nil => intro _; rfl
    | cons e es ih =>
      intro hn
      obtain ⟨hnot, hes⟩ := List.nodupKeys_cons.mp hn
      have hrest := ih hes
      simp only [ofEntries, List.map_cons, List.foldr_cons] at hrest ⊢
      have hfresh : e.1 ∉ (⟨es, hes⟩ : HashMap String String) := hnot
      rw [hrest, AList.orInsert, if_neg hfresh]
      exact AList.ext (AList.entries_insert_of_notMem hfresh)
  exact hfold m.entries m.nodupKeys

theorem stringMap_reads (m : HashMap String String) : stringMap.Reads m := by
  have hread : (m.entries.map (fun e => (e.1, Json.str e.2))).mapM
      (fun e => (text.read e.2).map (Prod.mk e.1)) =
        some (m.entries.map (fun e => (e.1, e.2))) := by
    have hcomp : m.entries.map (fun e => (e.1, Json.str e.2)) =
        (m.entries.map (fun e => (e.1, e.2))).map (fun e => (e.1, Json.str e.2)) := by
      rw [List.map_map]
      rfl
    rw [hcomp]
    exact List.mapM_map_pure (fun _ _ => rfl)
  show ((m.entries.map (fun e => (e.1, Json.str e.2))).mapM
      (fun e => (text.read e.2).map (Prod.mk e.1))).map ofEntries = some m
  rw [hread, Option.map_some, ofEntries_entries]

structure StructField (α : Type) where
  name : String
  aliases : List String
  format : Format α
  skip : α → Bool
  default : α
  restores : ∀ a, skip a = true → a = default

namespace StructField

def names (f : StructField α) : List String := f.name :: f.aliases

def member (f : StructField α) (a : α) : Option (String × Json) :=
  if f.skip a then none else some (f.name, f.format.write a)

-- A second member under one of the names is an error.
def read (f : StructField α) (ms : List (String × Json)) : Option α :=
  match ms.filter (fun m => m.1 ∈ f.names) with
  | [] => some f.default
  | [m] => f.format.read m.2
  | _ => none

theorem mem_names_of_member {f : StructField α} {a : α} {m : String × Json} (h : m ∈ f.member a) :
    m.1 ∈ f.names := by
  unfold member at h
  split at h
  · cases h
  · cases h
    exact List.mem_cons_self

theorem read_member {f : StructField α} {a : α} (h : f.format.Reads a)
    {before after : List (String × Json)} (hb : ∀ m ∈ before, m.1 ∉ f.names)
    (ha : ∀ m ∈ after, m.1 ∉ f.names) :
    f.read (before ++ (f.member a).toList ++ after) = some a := by
  have hown : (f.member a).toList.filter (fun m => m.1 ∈ f.names) = (f.member a).toList :=
    List.filter_eq_self.mpr (fun m hm =>
      decide_eq_true (mem_names_of_member (Option.mem_toList.mp hm)))
  have hfilter : (before ++ (f.member a).toList ++ after).filter (fun m => m.1 ∈ f.names) =
      (f.member a).toList := by
    rw [List.filter_append, List.filter_append, hown,
      List.filter_eq_nil_iff.mpr (fun m hm => by simpa using hb m hm),
      List.filter_eq_nil_iff.mpr (fun m hm => by simpa using ha m hm), List.nil_append,
      List.append_nil]
  rw [read, hfilter, member]
  by_cases hskip : f.skip a = true
  · rw [if_pos hskip, f.restores a hskip]
    rfl
  · rw [if_neg hskip]
    exact h

end StructField

structure Column (σ : Type) where
  {α : Type}
  field : StructField α
  get : σ → α
  set : α → σ → σ

namespace Column

variable {σ : Type}

def member (c : Column σ) (s : σ) : Option (String × Json) := c.field.member (c.get s)

def copy (c : Column σ) (s t : σ) : σ := c.set (c.get s) t

def load (ms : List (String × Json)) (t : σ) (c : Column σ) : Option σ :=
  (c.field.read ms).map (fun a => c.set a t)

-- The elements of an array fill the columns in order, and missing ones take their defaults.
def fill : List (Column σ) → List Json → σ → Option σ
  | [], [], t => some t
  | [], _ :: _, _ => none
  | c :: cs, [], t => fill cs [] (c.set c.field.default t)
  | c :: cs, j :: js, t => (c.field.format.read j).bind (fun a => fill cs js (c.set a t))

end Column

structure Record (σ : Type) where
  columns : List (Column σ)
  empty : σ
  distinct : (columns.flatMap (fun c => c.field.names)).Nodup
  copies : ∀ s, columns.foldl (fun t c => c.copy s t) empty = s

namespace Record

variable {σ : Type}

def members (columns : List (Column σ)) (s : σ) : List (String × Json) :=
  columns.filterMap (fun c => c.member s)

def format (r : Record σ) : Format σ where
  write s := .obj (members r.columns s)
  read
    | .obj ms => r.columns.foldlM (Column.load ms) r.empty
    | .arr js => Column.fill r.columns js r.empty
    | _ => none

theorem mem_names_of_members {columns : List (Column σ)} {s : σ} {m : String × Json}
    (h : m ∈ members columns s) : m.1 ∈ columns.flatMap (fun c => c.field.names) := by
  obtain ⟨c, hc, hm⟩ := List.mem_filterMap.mp h
  exact List.mem_flatMap.mpr ⟨c, hc, StructField.mem_names_of_member hm⟩

-- The names of the other columns are kept apart from those of the column that is read.
theorem load_column {before after : List (Column σ)} {c : Column σ} {s : σ} (t : σ)
    (hn : ((before ++ c :: after).flatMap (fun c => c.field.names)).Nodup)
    (hr : c.field.format.Reads (c.get s)) :
    Column.load (members (before ++ c :: after) s) t c = some (c.copy s t) := by
  rw [List.flatMap_append, List.flatMap_cons, List.nodup_append'] at hn
  obtain ⟨-, hrest, hbefore⟩ := hn
  have hafter := (List.nodup_append'.mp hrest).2.2
  have hsplit : members (before ++ c :: after) s =
      members before s ++ (c.member s).toList ++ members after s := by
    unfold members
    rw [List.filterMap_append, List.filterMap_cons, List.append_assoc]
    cases c.member s <;> rfl
  have hread : c.field.read (members (before ++ c :: after) s) = some (c.get s) := by
    rw [hsplit]
    refine StructField.read_member hr (fun m hm hown => ?_) (fun m hm hown => ?_)
    · exact hbefore (mem_names_of_members hm) (List.mem_append_left _ hown)
    · exact hafter hown (mem_names_of_members hm)
  rw [Column.load, hread]
  rfl

theorem format_reads {r : Record σ} {s : σ}
    (h : ∀ c ∈ r.columns, c.field.format.Reads (c.get s)) : r.format.Reads s := by
  have hload : ∀ (rest before : List (Column σ)) (t : σ), before ++ rest = r.columns →
      rest.foldlM (Column.load (members r.columns s)) t =
        some (rest.foldl (fun t c => c.copy s t) t) := by
    intro rest
    induction rest with
    | nil => exact fun _ _ _ => rfl
    | cons c rest ih =>
      intro before t hsplit
      have hc : c ∈ r.columns := hsplit ▸ List.mem_append_right before List.mem_cons_self
      have hone : Column.load (members r.columns s) t c = some (c.copy s t) := by
        have hn := r.distinct
        rw [← hsplit] at hn ⊢
        exact load_column t hn (h c hc)
      have hnext := ih (before ++ [c]) (c.copy s t) (by rw [List.append_assoc]; exact hsplit)
      rw [List.foldlM_cons, hone]
      exact hnext
  show r.columns.foldlM (Column.load (members r.columns s)) r.empty = some s
  rw [hload r.columns [] r.empty rfl, r.copies s]

theorem format_lawful {r : Record σ}
    (h : ∀ s, ∀ c ∈ r.columns, c.field.format.Reads (c.get s)) : r.format.Lawful where
  reads s := format_reads (h s)
  value := nofun

end Record

end Json
