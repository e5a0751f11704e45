import Cross233.Server.Inbound

namespace Cross233.Server

open Protocol

theorem find?_perm {α : Type} {p : α → Bool} {l l' : List α} (h : l.Perm l')
    (hp : ∀ a ∈ l, ∀ b ∈ l, p a = true → p b = true → a = b) : l.find? p = l'.find? p := by
  cases hl : l.find? p with
  | none =>
    symm
    rw [List.find?_eq_none] at hl ⊢
    intro a ha
    exact hl a (h.mem_iff.mpr ha)
  | some a =>
    cases hl' : l'.find? p with
    | none =>
      rw [List.find?_eq_none] at hl'
      exact absurd (List.find?_some hl) (hl' a (h.mem_iff.mp (List.mem_of_find?_eq_some hl)))
    | some b =>
      have hb : b ∈ l := h.mem_iff.mpr (List.mem_of_find?_eq_some hl')
      rw [hp a (List.mem_of_find?_eq_some hl) b hb (List.find?_some hl) (List.find?_some hl')]

def SameHost (a b : String) : Prop := Text.eqIgnoreAsciiCase a.toList b.toList = true

def firstLabel (host : String) : String := String.ofList (host.toList.takeWhile (· ≠ '.'))

def HasHost (svc : Service) (host : String) : Prop := ∃ h, svc.host = some h ∧ SameHost h host

def HasSubdomain (svc : Service) (label : String) : Prop :=
  ∃ sub, svc.subdomain = some sub ∧ SameHost sub label

-- The comparison the code makes with a subdomain, at the beginning of the whole host.
def BeginsHost (svc : Service) (host : String) : Prop :=
  ∃ sub, svc.subdomain = some sub ∧ sub.toList.isPrefixOf (Text.toAsciiLower host.toList) = true

def routeNames (svc : Service) : List String := svc.host.toList ++ svc.subdomain.toList

namespace RelayState

def Routes (s : RelayState) (entry : ServiceEntry) : Prop :=
  entry ∈ s.entries ∧ s.isEnabled entry.config.name = true

def DistinctNames (s : RelayState) : Prop :=
  ∀ e e', s.Routes e → s.Routes e' → e ≠ e' →
    ∀ a ∈ routeNames e.config, ∀ b ∈ routeNames e'.config, ¬SameHost a b

structure ExactRouting (s : RelayState) (host : String) : Prop where
  sound : ∀ order entry, s.getServiceByHost order host = some entry →
    HasHost entry.config host ∨ HasSubdomain entry.config (firstLabel host)
  unique : s.DistinctNames → ∀ order order',
    s.getServiceByHost order host = s.getServiceByHost order' host
  longer : ∀ order entry, s.getServiceByHost order host = some entry →
    BeginsHost entry.config host → ¬HasSubdomain entry.config (firstLabel host) →
    HasHost entry.config host

structure Unambiguous (s : RelayState) (host : String) : Prop where
  labels : ∀ entry, s.Routes entry → BeginsHost entry.config host →
    HasHost entry.config host ∨ HasSubdomain entry.config (firstLabel host)
  alone : s.DistinctNames → ∀ e e', s.Routes e → s.Routes e' → HasHost e.config host →
    BeginsHost e'.config host → e = e'

variable {s : RelayState} {host : String}

theorem answersHost_iff {svc : Service} :
    answersHost svc host = true ↔ HasHost svc host ∨ BeginsHost svc host := by
  simp only [answersHost, Bool.or_eq_true, Option.any_eq_true, HasHost, BeginsHost, SameHost,
    Text.eqIgnoreAsciiCase, Text.toAsciiLower_toAsciiLower]

theorem getServiceByHost_some {order : MapOrder} {entry : ServiceEntry}
    (h : s.getServiceByHost order host = some entry) :
    s.Routes entry ∧ (HasHost entry.config host ∨ BeginsHost entry.config host) := by
  have hmem := (order.perm s.entries).mem_iff.mp (List.mem_of_find?_eq_some h)
  have hp := List.find?_some (p := fun entry : ServiceEntry =>
    s.isEnabled entry.config.name && answersHost entry.config host) h
  rw [Bool.and_eq_true] at hp
  exact ⟨⟨hmem, hp.1⟩, answersHost_iff.mp hp.2⟩

theorem getServiceByHost_first {entry : ServiceEntry} (h : s.Routes entry)
    (ha : HasHost entry.config host ∨ BeginsHost entry.config host) :
    s.getServiceByHost (.first entry) host = some entry := by
  rw [getServiceByHost]
  exact MapOrder.find_first h.1 (Bool.and_eq_true_iff.mpr ⟨h.2, answersHost_iff.mpr ha⟩)

theorem Unambiguous.single (h : s.Unambiguous host) (hd : s.DistinctNames)
    {e e' : ServiceEntry} (he : s.Routes e) (he' : s.Routes e')
    (ha : HasHost e.config host ∨ BeginsHost e.config host)
    (ha' : HasHost e'.config host ∨ BeginsHost e'.config host) : e = e' := by
  by_contra hne
  have hsame : ∀ {a b c : String}, SameHost a c → SameHost b c → SameHost a b := by
    intro a b c hac hbc
    rw [SameHost, Text.eqIgnoreAsciiCase, decide_eq_true_eq] at hac hbc ⊢
    exact hac.trans hbc.symm
  have hhosts : ¬(HasHost e.config host ∧ HasHost e'.config host) := by
    rintro ⟨⟨a, ha, hsa⟩, ⟨b, hb, hsb⟩⟩
    refine hd e e' he he' hne a ?_ b ?_ (hsame hsa hsb)
    · exact List.mem_append_left _ (Option.mem_toList.mpr ha)
    · exact List.mem_append_left _ (Option.mem_toList.mpr hb)
  have hlabels : ¬(HasSubdomain e.config (firstLabel host) ∧
      HasSubdomain e'.config (firstLabel host)) := by
    rintro ⟨⟨a, ha, hsa⟩, ⟨b, hb, hsb⟩⟩
    refine hd e e' he he' hne a ?_ b ?_ (hsame hsa hsb)
    · exact List.mem_append_right _ (Option.mem_toList.mpr ha)
    · exact List.mem_append_right _ (Option.mem_toList.mpr hb)
  rcases ha with ha | ha
  · rcases ha' with ha' | ha'
    · exact hhosts ⟨ha, ha'⟩
    · exact hne (h.alone hd e e' he he' ha ha')
  · rcases ha' with ha' | ha'
    · exact hne (h.alone hd e' e he' he ha' ha).symm
    · rcases h.labels e he ha with hl | hl
      · exact hne (h.alone hd e e' he he' hl ha')
      · rcases h.labels e' he' ha' with hl' | hl'
        · exact hne (h.alone hd e' e he' he hl' ha).symm
        · exact hlabels ⟨hl, hl'⟩

theorem host_routing_exact_iff (s : RelayState) (host : String) :
    s.ExactRouting host ↔ s.Unambiguous host := by
  constructor
  · intro h
    refine ⟨fun entry he hb => ?_, fun hd e e' he he' hh hb => ?_⟩
    · exact h.sound (.first entry) entry (getServiceByHost_first he (Or.inr hb))
    · have hfirst := getServiceByHost_first he (Or.inl hh)
      have hfirst' := getServiceByHost_first he' (Or.inr hb)
      rw [h.unique hd (.first e) (.first e'), hfirst'] at hfirst
      exact (Option.some.inj hfirst).symm
  · intro h
    have hsound : ∀ order entry, s.getServiceByHost order host = some entry →
        HasHost entry.config host ∨ HasSubdomain entry.config (firstLabel host) := by
      intro order entry hfound
      obtain ⟨he, hh | hb⟩ := getServiceByHost_some hfound
      · exact Or.inl hh
      · exact h.labels entry he hb
    refine ⟨hsound, fun hd order order' => ?_, fun order entry hfound _ hlabel => ?_⟩
    · have hperm := (order.perm s.entries).trans (order'.perm s.entries).symm
      refine find?_perm hperm (fun e he e' he' hp hp' => ?_)
      rw [Bool.and_eq_true] at hp hp'
      have hsub := (order.perm s.entries).subset
      exact h.single hd ⟨hsub he, hp.1⟩ ⟨hsub he', hp'.1⟩ (answersHost_iff.mp hp.2)
        (answersHost_iff.mp hp'.2)
    · exact (hsound order entry hfound).resolve_right hlabel

def webService (name : String) : Service :=
  { name := name, ty := some "http", subdomain := some name }

def appServices : RelayState :=
  .fresh (ServerState.defaultServer.run.hello "alice" [webService "app", webService "apple"])

theorem appServices_entries :
    appServices.entries = [⟨webService "apple", "alice", 0⟩, ⟨webService "app", "alice", 0⟩] :=
  rfl

theorem app_captures_apple :
    appServices.DistinctNames ∧
    (∃ order, appServices.getServiceByHost order "apple.example.com" =
      some ⟨webService "app", "alice", 0⟩) ∧
    (∃ order, appServices.getServiceByHost order "apple.example.com" =
      some ⟨webService "apple", "alice", 0⟩) ∧
    ¬appServices.ExactRouting "apple.example.com" := by
  have hfirst : ∀ name, ⟨webService name, "alice", 0⟩ ∈ appServices.entries →
      BeginsHost (webService name) "apple.example.com" →
      appServices.getServiceByHost (.first ⟨webService name, "alice", 0⟩) "apple.example.com" =
        some ⟨webService name, "alice", 0⟩ :=
    fun name hmem hb => getServiceByHost_first ⟨hmem, rfl⟩ (Or.inr hb)
  have happ := hfirst "app" (by simp [appServices_entries]) ⟨"app", rfl, by decide⟩
  have happle := hfirst "apple" (by simp [appServices_entries]) ⟨"apple", rfl, by decide⟩
  refine ⟨?_, ⟨_, happ⟩, ⟨_, happle⟩, fun h => ?_⟩
  · rintro e e' ⟨he, -⟩ ⟨he', -⟩ hne
    rw [appServices_entries] at he he'
    simp only [List.mem_cons, List.not_mem_nil, or_false] at he he'
    rcases he with rfl | rfl
    · rcases he' with rfl | rfl
      · exact absurd rfl hne
      · unfold SameHost
        decide
    · rcases he' with rfl | rfl
      · unfold SameHost
        decide
      · exact absurd rfl hne
  · rcases h.sound _ _ happ with ⟨a, ha, -⟩ | ⟨a, ha, hsame⟩
    · cases ha
    · cases ha
      unfold SameHost at hsame
      exact absurd hsame (by decide)

end RelayState

end Cross233.Server
