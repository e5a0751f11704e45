import Cross233.Library.Machine
import Cross233.Server.Registration

namespace Cross233.Server

open Protocol

inductive RegistryCall where
  | registerServices (clientId : String) (controlTx : Channel) (services : List Service)
  | unregisterClient (clientId : String)
  | unregisterClientIfCurrent (clientId : String) (controlTx : Channel)

namespace SharedServiceState

def call (s : SharedServiceState) : RegistryCall → Option SharedServiceState
  | .registerServices clientId controlTx services =>
    some (s.registerServices clientId controlTx services).1
  | .unregisterClient clientId => some (s.unregisterClient clientId)
  | .unregisterClientIfCurrent clientId controlTx =>
    some (s.unregisterClientIfCurrent clientId controlTx).1

structure PortsExclusive (s : SharedServiceState) : Prop where
  distinct : ∀ n n' entry entry', s.servicesByName.lookup n = some entry →
    s.servicesByName.lookup n' = some entry' → entry.config.isDirect = true →
    entry'.config.isDirect = true → entry.config.remotePort = entry'.config.remotePort → n = n'
  owned : ∀ n entry, s.servicesByName.lookup n = some entry → entry.config.isDirect = true →
    s.allocatedPorts.lookup entry.config.remotePort = some entry.config.name

structure Indexed (s : SharedServiceState) : Prop where
  named : ∀ n entry, s.servicesByName.lookup n = some entry → entry.config.name = n
  listed : ∀ n entry, s.servicesByName.lookup n = some entry → n ∈ s.namesOf entry.clientId
  owner : ∀ c, ∀ n ∈ s.namesOf c, ∃ entry, s.servicesByName.lookup n = some entry ∧
    entry.clientId = c

def FreesForeignPort (s : SharedServiceState) (clientId : String) : Prop :=
  ∃ name ∈ s.namesOf clientId, ∃ entry, s.servicesByName.lookup name = some entry ∧
    entry.config.isDirect = false ∧ entry.config.isVhost = false ∧ entry.config.remotePort ≠ 0 ∧
    ∃ n other, s.servicesByName.lookup n = some other ∧ other.clientId ≠ clientId ∧
      other.config.isDirect = true ∧ other.config.remotePort = entry.config.remotePort

def KeepsForeignPorts (s : SharedServiceState) : RegistryCall → Prop
  | .registerServices _ _ _ => True
  | .unregisterClient clientId => ¬s.FreesForeignPort clientId
  | .unregisterClientIfCurrent clientId controlTx =>
    s.isCurrentControl clientId controlTx = true → ¬s.FreesForeignPort clientId

variable {s s' : SharedServiceState}

theorem Indexed.owner_eq (h : Indexed s) {c n : String} {entry : ServiceEntry}
    (hn : n ∈ s.namesOf c) (he : s.servicesByName.lookup n = some entry) : entry.clientId = c := by
  obtain ⟨entry', he', hc⟩ := h.owner c n hn
  rw [he] at he'
  cases he'
  exact hc

theorem Indexed.of_eq (h : Indexed s) (hname : s'.servicesByName = s.servicesByName)
    (hclients : ∀ c, s'.namesOf c = s.namesOf c) : Indexed s' where
  named n entry he := h.named n entry (hname ▸ he)
  listed n entry he := (hclients _).symm ▸ h.listed n entry (hname ▸ he)
  owner c n hn := by
    obtain ⟨entry, he, hc⟩ := h.owner c n (hclients c ▸ hn)
    exact ⟨entry, hname.symm ▸ he, hc⟩

theorem Indexed.exclusive (h : Indexed s)
    (hown : ∀ n entry, s.servicesByName.lookup n = some entry → entry.config.isDirect = true →
      s.allocatedPorts.lookup entry.config.remotePort = some entry.config.name) :
    PortsExclusive s where
  distinct n n' entry entry' he he' hd hd' hport := by
    have hp := hown n entry he hd
    rw [hport, hown n' entry' he' hd', h.named n entry he, h.named n' entry' he'] at hp
    exact (Option.some.inj hp).symm
  owned := hown

theorem Indexed.store (h : Indexed s) {entry : ServiceEntry}
    (hown : ∀ old, s.servicesByName.lookup entry.config.name = some old →
      old.clientId = entry.clientId) : Indexed (s.storeEntry entry) := by
  have hlook (n : String) : (s.storeEntry entry).servicesByName.lookup n =
      if n = entry.config.name then some entry else s.servicesByName.lookup n :=
    AList.lookup_insert_eq _ _ _ _
  refine ⟨fun n e he => ?_, fun n e he => ?_, fun c n hn => ?_⟩
  · rw [hlook] at he
    split at he
    · next hn =>
      cases he
      exact hn.symm
    · exact h.named n e he
  · rw [mem_storeEntry_namesOf]
    rw [hlook] at he
    split at he
    · next hn =>
      cases he
      exact Or.inr ⟨rfl, hn⟩
    · exact Or.inl (h.listed n e he)
  · rw [hlook]
    rcases (mem_storeEntry_namesOf s entry c n).mp hn with hn | ⟨hc, hn⟩
    · obtain ⟨old, ho, hc⟩ := h.owner c n hn
      split
      · next hne =>
        subst hne
        exact ⟨entry, rfl, (hown old ho).symm.trans hc⟩
      · exact ⟨old, ho, hc⟩
    · rw [if_pos hn]
      exact ⟨entry, rfl, hc.symm⟩

theorem Indexed.registration {clientId : String} {tx : Channel} {svc : Service}
    {r : Option Service} (h : Indexed s) (hr : Registration s clientId tx svc s' r) :
    Indexed s' := by
  cases hr with
  | skipped next => exact h.of_eq rfl (fun _ => rfl)
  | stored t svc' howner ha =>
    have hf := ha.frame.trans (replacePrevious_frame t (s.servicesByName.lookup svc.name) svc')
    have hu := h.of_eq hf.byName (fun c => by rw [namesOf, namesOf, hf.clients])
    refine hu.store (fun old ho => howner old ?_)
    rwa [hf.byName, ha.name] at ho

theorem Assignment.keeps {existing : Option ServiceEntry} {svc : Service} {r : Option Service}
    (h : Assignment s existing svc s' r) {port : UInt16} {n : String} (hn : n ≠ svc.name)
    (hp : s.allocatedPorts.lookup port = some n) :
    s'.allocatedPorts.lookup port = some n := by
  cases h with
  | rejected next => exact hp
  | reused entry he hd hok =>
    rw [AList.lookup_orInsert]
    split
    · next hport =>
      rw [← hport, hp]
      rfl
    · exact hp
  | allocated next port' hok hfree =>
    rw [AList.lookup_insert_ne]
    · exact hp
    · rintro rfl
      exact hfree (AList.mem_of_lookup hp)
  | explicit hok hfree =>
    rw [AList.lookup_insert_ne]
    · exact hp
    · rintro rfl
      exact hn (hfree n hp)
  | indirect hd => exact hp

theorem Assignment.owned {svc svc' : Service} (hi : Indexed s) (hx : PortsExclusive s)
    (h : Assignment s (s.servicesByName.lookup svc.name) svc s' (some svc'))
    (hd : svc'.isDirect = true) :
    s'.allocatedPorts.lookup svc'.remotePort = some svc.name := by
  cases h with
  | reused entry he hde hok =>
    have hown := hx.owned _ entry he (by simp_all [usesDirectPublicPort])
    rw [hi.named _ entry he] at hown
    rw [AList.lookup_orInsert, if_pos rfl, hown]
    rfl
  | allocated next port hok hfree => exact AList.lookup_insert _
  | explicit hok hfree => exact AList.lookup_insert _
  | indirect hi => exact absurd (hi.symm.trans hd) Bool.false_ne_true

theorem PortsExclusive.registration {clientId : String} {tx : Channel} {svc : Service}
    {r : Option Service} (hi : Indexed s) (h : PortsExclusive s)
    (hr : Registration s clientId tx svc s' r) : PortsExclusive s' := by
  have hi' := hi.registration hr
  cases hr with
  | skipped next => exact ⟨h.distinct, h.owned⟩
  | stored t svc' howner ha =>
    have hf := ha.frame.trans (replacePrevious_frame t (s.servicesByName.lookup svc.name) svc')
    refine hi'.exclusive (fun n entry he hd => ?_)
    simp only [storeEntry, AList.lookup_insert_eq] at he ⊢
    split at he
    · cases he
      have hown := ha.owned hi h hd
      rcases replacePrevious_lookup t (s.servicesByName.lookup svc.name) svc' svc'.remotePort
        with hp | ⟨hne, -⟩
      · rw [hp, hown, ha.name]
      · exact absurd rfl hne
    · next hn =>
      rw [hf.byName] at he
      have hname := hi.named n entry he
      have hkeep := ha.keeps (by rw [hname, ← ha.name]; exact hn) (h.owned n entry he hd)
      rcases replacePrevious_lookup t (s.servicesByName.lookup svc.name) svc'
        entry.config.remotePort with hp | ⟨-, hp⟩
      · rw [hp, hkeep]
      · rw [hkeep, hname] at hp
        exact absurd (Option.some.inj hp) hn

theorem registerAll_exclusive (clientId : String) (tx : Channel) (services : List Service)
    (hi : Indexed s) :
    Indexed (s.registerAll clientId tx services).1 ∧
      (PortsExclusive s → PortsExclusive (s.registerAll clientId tx services).1) := by
  induction services generalizing s with
  | nil => exact ⟨hi, id⟩
  | cons svc services ih =>
    have hr := registerService_cases s clientId tx svc
    obtain ⟨hi', hx'⟩ := ih (hi.registration hr)
    exact ⟨hi', fun hx => hx' (hx.registration hi hr)⟩

theorem attachControl_namesOf (clientId c : String) (tx : Channel) :
    (s.attachControl clientId tx).namesOf c = s.namesOf c := by
  simp only [namesOf, attachControl, AList.lookup_orInsert]
  split
  · next h =>
    subst h
    cases s.clientServices.lookup c <;> rfl
  · rfl

theorem Indexed.attach (h : Indexed s) (clientId : String) (tx : Channel) :
    Indexed (s.attachControl clientId tx) :=
  h.of_eq rfl (fun c => attachControl_namesOf clientId c tx)

theorem Indexed.unregister (h : Indexed s) (clientId : String) :
    Indexed (s.unregisterClient clientId) := by
  refine ⟨fun n entry he => ?_, fun n entry he => ?_, fun c n hn => ?_⟩
  · rw [unregisterClient_lookup] at he
    split at he
    · cases he
    · exact h.named n entry he
  · rw [unregisterClient_lookup] at he
    split at he
    · cases he
    · next hn =>
      have hl := h.listed n entry he
      rw [unregisterClient_namesOf, if_neg]
      · exact hl
      · intro hc
        exact hn (hc ▸ hl)
  · rw [unregisterClient_namesOf] at hn
    split at hn
    · cases hn
    · next hc =>
      obtain ⟨entry, he, hec⟩ := h.owner c n hn
      refine ⟨entry, ?_, hec⟩
      rw [unregisterClient_lookup, if_neg]
      · exact he
      · intro hn'
        exact hc (hec.symm.trans (h.owner_eq hn' he))

-- Among the entries that are removed only those of a type that is neither direct nor vhost can
-- hold the port number of a service that stays.
theorem unregister_exclusive_iff (hi : Indexed s) (hx : PortsExclusive s) (clientId : String) :
    PortsExclusive (s.unregisterClient clientId) ↔ ¬s.FreesForeignPort clientId := by
  have hr := unregisterClient_removal s clientId
  constructor
  · rintro hx' ⟨name, hn, entry, he, hd, hv, h0, n, other, ho, hc, hod, hport⟩
    have hstays : (s.unregisterClient clientId).servicesByName.lookup n = some other := by
      rw [unregisterClient_lookup, if_neg]
      · exact ho
      · exact fun hn' => hc (hi.owner_eq hn' ho)
    have howned := hx'.owned n other hstays hod
    rw [hport, hr.released _ ⟨name, hn, entry, he, rfl, h0, hv⟩] at howned
    cases howned
  · intro hfree
    refine (hi.unregister clientId).exclusive (fun n other ho hod => ?_)
    rw [unregisterClient_lookup] at ho
    split at ho
    · cases ho
    · next hn =>
      rw [hr.kept]
      · exact hx.owned n other ho hod
      · rintro ⟨name, hname, entry, he, hport, h0, hv⟩
        cases hd : entry.config.isDirect with
        | true =>
          have := hx.distinct name n entry other he ho hd hod hport
          exact hn (this ▸ hname)
        | false =>
          refine hfree ⟨name, hname, entry, he, hd, hv, hport ▸ h0, n, other, ho, ?_, hod,
            hport.symm⟩
          rintro rfl
          exact hn (hi.listed n other ho)

theorem call_indexed {c : RegistryCall} (hi : Indexed s) (hc : s.call c = some s') :
    Indexed s' := by
  cases c with
  | registerServices clientId tx services =>
    cases hc
    exact (registerAll_exclusive clientId tx services (hi.attach clientId tx)).1
  | unregisterClient clientId =>
    cases hc
    exact hi.unregister clientId
  | unregisterClientIfCurrent clientId tx =>
    cases hc
    unfold unregisterClientIfCurrent
    split
    · exact hi.unregister clientId
    · exact hi

theorem call_exclusive_iff {c : RegistryCall} (hi : Indexed s) (hx : PortsExclusive s)
    (hc : s.call c = some s') : PortsExclusive s' ↔ s.KeepsForeignPorts c := by
  cases c with
  | registerServices clientId tx services =>
    cases hc
    obtain ⟨-, hx'⟩ := registerAll_exclusive clientId tx services (hi.attach clientId tx)
    exact iff_of_true (hx' ⟨hx.distinct, hx.owned⟩) trivial
  | unregisterClient clientId =>
    cases hc
    exact unregister_exclusive_iff hi hx clientId
  | unregisterClientIfCurrent clientId tx =>
    cases hc
    unfold unregisterClientIfCurrent KeepsForeignPorts
    split
    · next hcur => simpa [hcur] using unregister_exclusive_iff hi hx clientId
    · next hcur => exact iff_of_true hx (fun h => absurd h hcur)

theorem new_indexed (portMin portMax : UInt16) (proxyBind : String) (allow : Bool)
    (protectedPorts reservedPorts : Finset UInt16) :
    Indexed (newWithNetworkPolicy portMin portMax proxyBind allow protectedPorts reservedPorts) ∧
    PortsExclusive
      (newWithNetworkPolicy portMin portMax proxyBind allow protectedPorts reservedPorts) := by
  refine ⟨⟨?_, ?_, ?_⟩, ⟨?_, ?_⟩⟩
  · intro n entry he
    cases he
  · intro n entry he
    cases he
  · intro c n hn
    cases hn
  · intro n n' entry entry' he
    cases he
  · intro n entry he
    cases he

theorem public_ports_exclusive_iff (portMin portMax : UInt16) (proxyBind : String) (allow : Bool)
    (protectedPorts reservedPorts : Finset UInt16) (calls : List RegistryCall) :
    Machine.Always call PortsExclusive
        (newWithNetworkPolicy portMin portMax proxyBind allow protectedPorts reservedPorts) calls ↔
      Machine.Along call KeepsForeignPorts
        (newWithNetworkPolicy portMin portMax proxyBind allow protectedPorts reservedPorts)
        calls := by
  obtain ⟨hi, hx⟩ := new_indexed portMin portMax proxyBind allow protectedPorts reservedPorts
  constructor
  · refine Machine.along_of_always (I := Indexed) ?_ ?_ ?_ hi
    · exact fun s c s' hi hx hk hc => call_indexed hi hc
    · exact fun s c s' hi hx hc hx' => (call_exclusive_iff hi hx hc).mp hx'
    · intro s c hi hc
      cases c with
      | registerServices | unregisterClient | unregisterClientIfCurrent => cases hc
  · refine Machine.always_of_along (I := fun s => Indexed s ∧ PortsExclusive s) ?_ ?_ ⟨hi, hx⟩
    · rintro s c s' ⟨hi, hx⟩ hk hc
      exact ⟨call_indexed hi hc, (call_exclusive_iff hi hx hc).mpr hk⟩
    · exact fun s hs => hs.2

def stcpRelease : List RegistryCall :=
  [.registerServices "alice" 0 [{ name := "web", remotePort := 60080 }],
    .registerServices "bob" 1 [{ name := "db", ty := some "stcp", remotePort := 60080 }],
    .unregisterClient "bob",
    .registerServices "carol" 2 [{ name := "shop", remotePort := 60080 }]]

theorem stcp_disconnect_frees_public_port :
    ∃ s, Machine.run call (new 60080 60090) stcpRelease = some s ∧
      (∃ web shop, s.servicesByName.lookup "web" = some web ∧
        s.servicesByName.lookup "shop" = some shop ∧ web.config.isDirect = true ∧
        shop.config.isDirect = true ∧ web.config.remotePort = 60080 ∧
        shop.config.remotePort = 60080) ∧
      ¬PortsExclusive s := by
  have hrun : (Machine.run call (new 60080 60090) stcpRelease).map (fun s =>
      ((s.servicesByName.lookup "web").map (fun e => (e.config.isDirect, e.config.remotePort)),
        (s.servicesByName.lookup "shop").map (fun e => (e.config.isDirect, e.config.remotePort)))) =
      some (some (true, 60080), some (true, 60080)) := by decide +kernel
  obtain ⟨s, hs, hlook⟩ := Option.map_eq_some_iff.mp hrun
  obtain ⟨hw, hsh⟩ := Prod.mk.inj hlook
  obtain ⟨web, hweb, hwp⟩ := Option.map_eq_some_iff.mp hw
  obtain ⟨shop, hshop, hsp⟩ := Option.map_eq_some_iff.mp hsh
  obtain ⟨hwd, hwp⟩ := Prod.mk.inj hwp
  obtain ⟨hsd, hsp⟩ := Prod.mk.inj hsp
  refine ⟨s, hs, ⟨web, shop, hweb, hshop, hwd, hsd, hwp, hsp⟩, fun hx => ?_⟩
  have := hx.distinct "web" "shop" web shop hweb hshop hwd hsd (hwp.trans hsp.symm)
  exact absurd this (by decide)

end SharedServiceState

end Cross233.Server
