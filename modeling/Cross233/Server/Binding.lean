import Cross233.Server.Acceptance
import Cross233.Server.Disconnect

namespace Cross233.Server.SharedServiceState

open Protocol

def BoundToCurrent (s : SharedServiceState) : Prop :=
  ∀ n entry, s.servicesByName.lookup n = some entry →
    s.clientControlTx.lookup entry.clientId = some entry.controlTx

def renews (s : SharedServiceState) (clientId : String) (tx : Channel) (n : String) :
    List Service → Bool
  | [] => false
  | svc :: services =>
    (svc.name = n && s.accepts clientId svc) ||
      (s.registerService clientId tx svc).1.renews clientId tx n services

def rebinds (s : SharedServiceState) : RegistryCall → Bool
  | .registerServices clientId tx services =>
    s.clientControlTx.lookup clientId = some tx || (s.namesOf clientId).all fun n =>
      (s.attachControl clientId tx).renews clientId tx n services
  | .unregisterClient _ => true
  | .unregisterClientIfCurrent _ _ => true

variable {s s' : SharedServiceState}

theorem registerService_accepted {clientId : String} {svc : Service} (tx : Channel)
    (h : s.accepts clientId svc = true) :
    ∃ svc', (s.registerService clientId tx svc).1.servicesByName.lookup svc.name =
      some ⟨svc', clientId, tx⟩ := by
  rw [← registerService_isSome s clientId tx svc] at h
  obtain ⟨svc', hs⟩ := Option.isSome_iff_exists.mp h
  exact ⟨svc', by rw [registerService_lookup hs, if_pos rfl]⟩

theorem registerService_kept {clientId n : String} {svc : Service} (tx : Channel)
    (h : svc.name = n → s.accepts clientId svc = false) :
    (s.registerService clientId tx svc).1.servicesByName.lookup n =
      s.servicesByName.lookup n := by
  cases hs : (s.registerService clientId tx svc).2 with
  | none =>
    obtain ⟨next, hnext⟩ := registerService_none hs
    rw [hnext]
  | some svc' =>
    rw [registerService_lookup hs, if_neg]
    intro hn
    have hacc := h hn.symm
    rw [← registerService_isSome s clientId tx svc, hs] at hacc
    cases hacc

theorem registerAll_kept {clientId : String} {tx : Channel} {n : String} {services : List Service}
    (h : s.renews clientId tx n services = false) :
    (s.registerAll clientId tx services).1.servicesByName.lookup n =
      s.servicesByName.lookup n := by
  induction services generalizing s with
  | nil => rfl
  | cons svc services ih =>
    rw [renews, Bool.or_eq_false_iff, Bool.and_eq_false_iff, decide_eq_false_iff_not] at h
    have htail := ih h.2
    rw [registerService_kept tx (fun hn => h.1.resolve_left (not_not.mpr hn))] at htail
    exact htail

theorem registerAll_renewed {clientId : String} {tx : Channel} {n : String}
    {services : List Service} (h : s.renews clientId tx n services = true) :
    ∃ svc', (s.registerAll clientId tx services).1.servicesByName.lookup n =
      some ⟨svc', clientId, tx⟩ := by
  induction services generalizing s with
  | nil => cases h
  | cons svc services ih =>
    cases htail : (s.registerService clientId tx svc).1.renews clientId tx n services with
    | true => exact ih htail
    | false =>
      rw [renews, htail, Bool.or_false, Bool.and_eq_true, decide_eq_true_eq] at h
      obtain ⟨rfl, hacc⟩ := h
      obtain ⟨svc', hs⟩ := registerService_accepted tx hacc
      exact ⟨svc', (registerAll_kept htail).trans hs⟩

theorem Registration.control {clientId : String} {tx : Channel} {svc : Service}
    {r : Option Service} (h : Registration s clientId tx svc s' r) :
    s'.clientControlTx = s.clientControlTx := by
  cases h with
  | skipped next => rfl
  | stored t svc' howner ha =>
    exact (ha.frame.trans (replacePrevious_frame t _ svc')).control

theorem registerAll_control (clientId : String) (tx : Channel) (services : List Service) :
    (s.registerAll clientId tx services).1.clientControlTx = s.clientControlTx := by
  induction services generalizing s with
  | nil => rfl
  | cons svc services ih => exact ih.trans (registerService_cases s clientId tx svc).control

theorem registerServices_control (clientId c : String) (tx : Channel) (services : List Service) :
    (s.registerServices clientId tx services).1.clientControlTx.lookup c =
      if c = clientId then some tx else s.clientControlTx.lookup c := by
  rw [registerServices, registerAll_control]
  exact AList.lookup_insert_eq _ _ _ _

theorem register_bound_iff (hi : Indexed s) (hb : BoundToCurrent s) (clientId : String)
    (tx : Channel) (services : List Service) :
    BoundToCurrent (s.registerServices clientId tx services).1 ↔
      s.rebinds (.registerServices clientId tx services) = true := by
  simp only [rebinds, Bool.or_eq_true, decide_eq_true_eq, List.all_eq_true]
  constructor
  · intro hb'
    by_cases hcur : s.clientControlTx.lookup clientId = some tx
    · exact Or.inl hcur
    · refine Or.inr (fun n hn => ?_)
      obtain ⟨entry, he, hc⟩ := hi.owner clientId n hn
      by_contra hrenew
      have hkept := (registerAll_kept (Bool.eq_false_iff.mpr hrenew)).trans he
      have hbound := hb' n entry hkept
      rw [registerServices_control, if_pos hc] at hbound
      have hold := hb n entry he
      rw [hc, ← Option.some.inj hbound] at hold
      exact hcur hold
  · intro hcond n entry he
    rw [registerServices_control]
    cases hrenew : (s.attachControl clientId tx).renews clientId tx n services with
    | true =>
      obtain ⟨svc', hs⟩ := registerAll_renewed hrenew
      rw [registerServices, hs] at he
      cases he
      simp
    | false =>
      rw [registerServices, registerAll_kept hrenew] at he
      have hold := hb n entry he
      split
      · next hc =>
        rcases hcond with hcur | hall
        · rw [hc, hcur] at hold
          exact hold
        · have := hall n (hc ▸ hi.listed n entry he)
          rw [hrenew] at this
          cases this
      · exact hold

theorem unregister_bound (hi : Indexed s) (hb : BoundToCurrent s) (clientId : String) :
    BoundToCurrent (s.unregisterClient clientId) := by
  intro n entry he
  have hc := unregister_entry_foreign hi he
  rw [unregisterClient_lookup] at he
  split at he
  · cases he
  · rw [unregisterClient_control, AList.lookup_erase_ne hc]
    exact hb n entry he

theorem call_bound_iff {c : RegistryCall} (hi : Indexed s) (hb : BoundToCurrent s)
    (hc : s.call c = some s') : BoundToCurrent s' ↔ s.rebinds c = true := by
  cases c with
  | registerServices clientId tx services =>
    cases hc
    exact register_bound_iff hi hb clientId tx services
  | unregisterClient clientId =>
    cases hc
    exact iff_of_true (unregister_bound hi hb clientId) rfl
  | unregisterClientIfCurrent clientId tx =>
    cases hc
    refine iff_of_true ?_ rfl
    unfold unregisterClientIfCurrent
    split
    · exact unregister_bound hi hb clientId
    · exact hb

theorem services_bound_iff (portMin portMax : UInt16) (proxyBind : String) (allow : Bool)
    (protectedPorts reservedPorts : Finset UInt16) (calls : List RegistryCall) :
    Machine.Always call BoundToCurrent
        (newWithNetworkPolicy portMin portMax proxyBind allow protectedPorts reservedPorts) calls ↔
      Machine.Along call (fun s c => s.rebinds c = true)
        (newWithNetworkPolicy portMin portMax proxyBind allow protectedPorts reservedPorts)
        calls := by
  have hi := (new_indexed portMin portMax proxyBind allow protectedPorts reservedPorts).1
  have hb : BoundToCurrent
      (newWithNetworkPolicy portMin portMax proxyBind allow protectedPorts reservedPorts) := by
    intro n entry he
    cases he
  constructor
  · refine Machine.along_of_always (I := Indexed) ?_ ?_ ?_ hi
    · exact fun s c s' hi hb hk hc => call_indexed hi hc
    · exact fun s c s' hi hb hc hb' => (call_bound_iff hi hb hc).mp hb'
    · intro s c hi hc
      cases c with
      | registerServices | unregisterClient | unregisterClientIfCurrent => cases hc
  · refine Machine.always_of_along (I := fun s => Indexed s ∧ BoundToCurrent s) ?_ ?_ ⟨hi, hb⟩
    · rintro s c s' ⟨hi, hb⟩ hk hc
      exact ⟨call_indexed hi hc, (call_bound_iff hi hb hc).mpr hk⟩
    · exact fun s hs => hs.2

def partialReconnect : List RegistryCall :=
  [.registerServices "alice" 0
      [{ name := "web", remotePort := 60080 }, { name := "db", remotePort := 60081 }],
    .registerServices "alice" 1 [{ name := "web", remotePort := 60080 }]]

theorem dropped_service_keeps_old_session :
    ∃ s, Machine.run call (new 60080 60090) partialReconnect = some s ∧
      s.clientControlTx.lookup "alice" = some 1 ∧
      (∃ db, s.servicesByName.lookup "db" = some db ∧ db.clientId = "alice" ∧ db.controlTx = 0) ∧
      ¬BoundToCurrent s := by
  have hrun : (Machine.run call (new 60080 60090) partialReconnect).map (fun s =>
      (s.clientControlTx.lookup "alice",
        (s.servicesByName.lookup "db").map (fun e => (e.clientId, e.controlTx)))) =
      some (some 1, some ("alice", 0)) := by decide +kernel
  obtain ⟨s, hs, hlook⟩ := Option.map_eq_some_iff.mp hrun
  obtain ⟨hcur, hdb⟩ := Prod.mk.inj hlook
  obtain ⟨db, hdb, hown⟩ := Option.map_eq_some_iff.mp hdb
  obtain ⟨hclient, htx⟩ := Prod.mk.inj hown
  refine ⟨s, hs, hcur, ⟨db, hdb, hclient, htx⟩, fun hb => ?_⟩
  have := hb "db" db hdb
  rw [hclient, hcur, htx] at this
  cases this

end Cross233.Server.SharedServiceState
