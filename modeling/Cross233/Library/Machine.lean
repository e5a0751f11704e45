import Mathlib.Data.List.Basic

namespace Machine

variable {S A B : Type}

def run (step : S → A → Option S) : S → List A → Option S
  | s, [] => some s
  | s, a :: as => (step s a).bind (fun t => run step t as)

def Along (step : S → A → Option S) (C : S → A → Prop) : S → List A → Prop
  | _, [] => True
  | s, a :: as => C s a ∧ ∀ t, step s a = some t → Along step C t as

def Always (step : S → A → Option S) (P : S → Prop) : S → List A → Prop
  | s, [] => P s
  | s, a :: as => P s ∧ ∀ t, step s a = some t → Always step P t as

-- The run takes every step, each under the condition, and ends in `P`.
def Leads (step : S → A → Option S) (C : S → A → Prop) (P : S → Prop) (s : S) (as : List A) :
    Prop :=
  Along step C s as ∧ ∃ t, run step s as = some t ∧ P t

-- The steps that meet the condition, so that one run checks both.
def guarded (step : S → A → Option S) (C : S → A → Prop) [∀ s a, Decidable (C s a)] (s : S)
    (a : A) : Option S :=
  if C s a then step s a else none

instance decidableAlong (step : S → A → Option S) (C : S → A → Prop)
    [∀ s a, Decidable (C s a)] : ∀ (s : S) (as : List A), Decidable (Along step C s as)
  | _, [] => isTrue trivial
  | s, a :: as =>
    match h : step s a with
    | none => decidable_of_iff (C s a) ⟨fun hc => ⟨hc, by simp [h]⟩, And.left⟩
    | some t =>
      have := decidableAlong step C t as
      decidable_of_iff (C s a ∧ Along step C t as)
        ⟨fun hc => ⟨hc.1, fun u hu => by cases h.symm.trans hu; exact hc.2⟩,
          fun hc => ⟨hc.1, hc.2 t h⟩⟩

variable {step : S → A → Option S} {C : S → A → Prop} {P I : S → Prop}

theorem run_append (s : S) (as bs : List A) :
    run step s (as ++ bs) = (run step s as).bind (fun t => run step t bs) := by
  induction as generalizing s with
  | nil => rfl
  | cons a as ih =>
    simp only [List.cons_append, run]
    cases step s a with
    | none => rfl
    | some t => exact ih t

theorem run_concat {s t u : S} {as : List A} {a : A} (h : run step s as = some t)
    (ha : step t a = some u) : run step s (as ++ [a]) = some u := by
  rw [run_append, h]
  simp [run, ha]

-- A machine that only records more: forgetting the record takes its runs to the runs it watches.
theorem run_map {T : Type} {step' : T → A → Option T} {f : T → S}
    (h : ∀ t a, (step' t a).map f = step (f t) a) (t : T) (as : List A) :
    (run step' t as).map f = run step (f t) as := by
  induction as generalizing t with
  | nil => rfl
  | cons a as ih =>
    rw [run, run, ← h t a]
    cases step' t a with
    | none => rfl
    | some u => exact ih u

theorem run_guarded [∀ s a, Decidable (C s a)] {s t : S} {as : List A}
    (h : run (guarded step C) s as = some t) : Along step C s as ∧ run step s as = some t := by
  induction as generalizing s with
  | nil => exact ⟨trivial, h⟩
  | cons a as ih =>
    obtain ⟨u, hu, ht⟩ := Option.bind_eq_some_iff.mp h
    rw [guarded] at hu
    split at hu
    · next hc =>
      obtain ⟨halong, hrun⟩ := ih ht
      refine ⟨⟨hc, fun u' hu' => ?_⟩, ?_⟩
      · cases hu.symm.trans hu'
        exact halong
      · rw [run, hu, Option.bind_some, hrun]
    · cases hu

theorem leads_of_guarded [∀ s a, Decidable (C s a)] (observe : S → B) {b : B} {s : S}
    {as : List A} (h : (run (guarded step C) s as).map observe = some b)
    (hP : ∀ t, observe t = b → P t) : Leads step C P s as := by
  obtain ⟨t, ht, hb⟩ := Option.map_eq_some_iff.mp h
  obtain ⟨halong, hrun⟩ := run_guarded ht
  exact ⟨halong, t, hrun, hP t hb⟩

theorem run_invariant (hstep : ∀ s a t, I s → step s a = some t → I t) {s t : S} {as : List A}
    (hs : I s) (h : run step s as = some t) : I t := by
  induction as generalizing s with
  | nil =>
    cases h
    exact hs
  | cons a as ih =>
    obtain ⟨u, hu, ht⟩ := Option.bind_eq_some_iff.mp h
    exact ih (hstep s a u hs hu) ht

theorem run_invariant_mem {as : List A} (hstep : ∀ s a t, a ∈ as → I s → step s a = some t → I t)
    {s t : S} (hs : I s) (h : run step s as = some t) : I t := by
  induction as generalizing s with
  | nil =>
    cases h
    exact hs
  | cons a as ih =>
    obtain ⟨u, hu, ht⟩ := Option.bind_eq_some_iff.mp h
    have hu' : I u := hstep s a u List.mem_cons_self hs hu
    exact ih (fun s b t hb => hstep s b t (List.mem_cons_of_mem a hb)) hu' ht

theorem run_invariant_along (hstep : ∀ s a t, I s → C s a → step s a = some t → I t)
    {s t : S} {as : List A} (hs : I s) (hC : Along step C s as) (h : run step s as = some t) :
    I t := by
  induction as generalizing s with
  | nil =>
    cases h
    exact hs
  | cons a as ih =>
    obtain ⟨u, hu, ht⟩ := Option.bind_eq_some_iff.mp h
    exact ih (hstep s a u hs hC.1 hu) (hC.2 u hu) ht

theorem always_of_along (hstep : ∀ s a t, I s → C s a → step s a = some t → I t)
    (hP : ∀ s, I s → P s) {s : S} {as : List A} (hs : I s) (hC : Along step C s as) :
    Always step P s as := by
  induction as generalizing s with
  | nil => exact hP s hs
  | cons a as ih =>
    exact ⟨hP s hs, fun t ht => ih (hstep s a t hs hC.1 ht) (hC.2 t ht)⟩

theorem always_invariant (hstep : ∀ s a t, I s → step s a = some t → I t) (hP : ∀ s, I s → P s)
    {s : S} (as : List A) (hs : I s) : Always step P s as := by
  induction as generalizing s with
  | nil => exact hP s hs
  | cons a as ih => exact ⟨hP s hs, fun t ht => ih (hstep s a t hs ht)⟩

theorem Always.run {s t : S} {as bs : List A} (h : Always step P s (as ++ bs))
    (hrun : Machine.run step s as = some t) : P t := by
  induction as generalizing s with
  | nil =>
    cases hrun
    cases bs with
    | nil => exact h
    | cons b bs => exact h.1
  | cons a as ih =>
    obtain ⟨u, hu, ht⟩ := Option.bind_eq_some_iff.mp hrun
    exact ih (h.2 u hu) ht

theorem along_invariant {D : S → A → Prop}
    (hstep : ∀ s a t, I s → C s a → step s a = some t → I t) (hD : ∀ s a, I s → C s a → D s a)
    {s : S} {as : List A} (hs : I s) (hC : Along step C s as) : Along step D s as := by
  induction as generalizing s with
  | nil => trivial
  | cons a as ih =>
    exact ⟨hD s a hs hC.1, fun t ht => ih (hstep s a t hs hC.1 ht) (hC.2 t ht)⟩

theorem Along.imp {D : S → A → Prop} {s : S} {as : List A} (h : Along step C s as)
    (hCD : ∀ s a, C s a → D s a) : Along step D s as := by
  induction as generalizing s with
  | nil => trivial
  | cons a as ih => exact ⟨hCD s a h.1, fun t ht => ih (h.2 t ht)⟩

theorem Along.and_mem {Q : A → Prop} {s : S} {as : List A} (h : Along step C s as)
    (hq : ∀ a ∈ as, Q a) : Along step (fun s a => C s a ∧ Q a) s as := by
  induction as generalizing s with
  | nil => trivial
  | cons a as ih =>
    refine ⟨⟨h.1, hq a List.mem_cons_self⟩, fun t ht => ?_⟩
    exact ih (h.2 t ht) (fun b hb => hq b (List.mem_cons_of_mem a hb))

theorem along_of_always_and {D : S → A → Prop}
    (hstep : ∀ s a t, I s → P s → C s a → step s a = some t → I t)
    (hC : ∀ s a t, I s → P s → D s a → step s a = some t → P t → C s a)
    (hnone : ∀ s a, I s → step s a = none → C s a) {s : S} {as : List A} (hs : I s)
    (h : Always step P s as) (hD : Along step D s as) : Along step C s as := by
  induction as generalizing s with
  | nil => trivial
  | cons a as ih =>
    have head (t : S) (ht : step s a = some t) : P t := by
      have := h.2 t ht
      cases as with
      | nil => exact this
      | cons b bs => exact this.1
    have hca : C s a := by
      cases ht : step s a with
      | none => exact hnone s a hs ht
      | some t => exact hC s a t hs h.1 hD.1 ht (head t ht)
    exact ⟨hca, fun t ht => ih (hstep s a t hs h.1 hca ht) (h.2 t ht) (hD.2 t ht)⟩

theorem along_trivial (s : S) (as : List A) : Along step (fun _ _ => True) s as := by
  induction as generalizing s with
  | nil => trivial
  | cons a as ih => exact ⟨trivial, fun t _ => ih t⟩

theorem along_of_always (hstep : ∀ s a t, I s → P s → C s a → step s a = some t → I t)
    (hC : ∀ s a t, I s → P s → step s a = some t → P t → C s a)
    (hnone : ∀ s a, I s → step s a = none → C s a) {s : S} {as : List A} (hs : I s)
    (h : Always step P s as) : Along step C s as :=
  along_of_always_and hstep (fun s a t hi hp _ => hC s a t hi hp) hnone hs h (along_trivial s as)

end Machine
