import Cross233.Server.Messages

namespace Cross233.Server.RelayState

open Protocol

structure ControlInput where
  msg : Message
  order : MapOrder

def step (tx : Channel) (s : RelayState) (input : ControlInput) : Option RelayState :=
  some (s.handleMessage tx input.msg input.order)

structure Isolated (clientId : String) (tx : Channel) (s s' : RelayState) : Prop where
  health : ∀ n entry, s.server.registry.servicesByName.lookup n = some entry →
    entry.clientId ≠ clientId → s'.isHealthy n = s.isHealthy n
  datagrams : ∃ new, s'.sent = s.sent ++ new ∧ ∀ d ∈ new, ∀ entry,
    s.server.registry.servicesByName.lookup d.service = some entry → entry.clientId = clientId
  pending : ∀ id response, s.pendingStatic.lookup id = some response → response.owner ≠ tx →
    s'.pendingStatic.lookup id = some response

def foreign (s : RelayState) (clientId name : String) : Bool :=
  (s.server.registry.servicesByName.lookup name).any (fun entry => entry.clientId ≠ clientId)

def confined (s : RelayState) (clientId : String) (input : ControlInput) : Bool :=
  match input.msg.ty with
  | "health" =>
    match input.msg.serviceName, input.msg.healthy with
    | some name, some healthy => !s.foreign clientId name || s.isHealthy name = healthy
    | _, _ => true
  | "udp_response" =>
    match input.msg.remotePort, input.msg.address, input.msg.data with
    | some rport, some addr, some _ =>
      (getServiceNameByPort (input.order.visit s.entries) rport).all fun name =>
        !s.foreign clientId name || (IpAddr.parseSocket addr).isNone ||
          name ∉ s.server.udpServices
    | _, _, _ => true
  | _ => true

structure SameServices (s s' : RelayState) : Prop where
  registry : s'.server.registry = s.server.registry
  udp : s'.server.udpServices = s.server.udpServices

variable {clientId : String} {tx : Channel} {s₀ s s' : RelayState}

theorem SameServices.trans {t u : RelayState} (h : SameServices s t) (h' : SameServices t u) :
    SameServices s u :=
  ⟨h'.registry.trans h.registry, h'.udp.trans h.udp⟩

theorem foreign_iff (s : RelayState) (clientId name : String) :
    s.foreign clientId name = true ↔ ∃ entry,
      s.server.registry.servicesByName.lookup name = some entry ∧ entry.clientId ≠ clientId := by
  simp [foreign, Option.any_eq_true]

theorem Isolated.refl (clientId : String) (tx : Channel) (s : RelayState) :
    Isolated clientId tx s s where
  health _ _ _ _ := rfl
  datagrams := ⟨[], by simp, by simp⟩
  pending _ _ h _ := h

theorem Isolated.of_eq (h : Isolated clientId tx s₀ s) (hh : s'.healthy = s.healthy)
    (hd : s'.sent = s.sent) (hp : s'.pendingStatic = s.pendingStatic) :
    Isolated clientId tx s₀ s' where
  health n entry he hc := by
    rw [isHealthy, hh]
    exact h.health n entry he hc
  datagrams := hd ▸ h.datagrams
  pending := hp ▸ h.pending

theorem cancel_same (s : RelayState) (id : String) (tx : Channel) :
    SameServices s (s.cancelStaticResponseForControl id tx) ∧
      (s.cancelStaticResponseForControl id tx).healthy = s.healthy ∧
      (s.cancelStaticResponseForControl id tx).sent = s.sent := by
  unfold cancelStaticResponseForControl
  split <;> exact ⟨⟨rfl, rfl⟩, rfl, rfl⟩

theorem cancel_keeps {id id' : String} {response : PendingStaticResponse}
    (h : s.pendingStatic.lookup id' = some response) (ho : response.owner ≠ tx) :
    (s.cancelStaticResponseForControl id tx).pendingStatic.lookup id' = some response := by
  unfold cancelStaticResponseForControl
  split
  · next hany =>
    refine (AList.lookup_erase_ne ?_).trans h
    rintro rfl
    simp [h, ho] at hany
  · exact h

theorem deliver_same (s : RelayState) (tx : Channel) (id : String) (data : List UInt8)
    (eof : Bool) :
    SameServices s (s.deliverStaticResponse tx id data eof).1 ∧
      (s.deliverStaticResponse tx id data eof).1.healthy = s.healthy ∧
      (s.deliverStaticResponse tx id data eof).1.sent = s.sent := by
  unfold deliverStaticResponse
  split
  · exact cancel_same s id tx
  · split
    · exact ⟨⟨rfl, rfl⟩, rfl, rfl⟩
    · split
      · dsimp only
        split
        · obtain ⟨⟨hr, hu⟩, hh, hs⟩ := cancel_same { s with
            pendingStatic := s.pendingStatic.insert id _ } id tx
          exact ⟨⟨hr, hu⟩, hh, hs⟩
        · exact ⟨⟨rfl, rfl⟩, rfl, rfl⟩
      · exact cancel_same s id tx

-- Only the static path compares the owner before it touches what the id names.
theorem deliver_keeps {id id' : String} {data : List UInt8} {eof : Bool}
    {response : PendingStaticResponse} (h : s.pendingStatic.lookup id' = some response)
    (ho : response.owner ≠ tx) :
    (s.deliverStaticResponse tx id data eof).1.pendingStatic.lookup id' = some response := by
  unfold deliverStaticResponse
  split
  · exact cancel_keeps h ho
  · split
    · exact h
    · next found hf =>
      obtain ⟨hfound, howner⟩ := Option.filter_eq_some_iff.mp hf
      split
      · next filled _ =>
        have hne : id' ≠ id := by
          rintro rfl
          rw [h] at hfound
          cases hfound
          exact ho (of_decide_eq_true howner)
        have hins : (s.pendingStatic.insert id filled).lookup id' = some response :=
          (AList.lookup_insert_ne hne).trans h
        dsimp only
        split
        · exact cancel_keeps hins ho
        · exact hins
      · exact cancel_keeps h ho

theorem Isolated.deliver (h : Isolated clientId tx s₀ s) (id : String) (data : List UInt8)
    (eof : Bool) : Isolated clientId tx s₀ (s.deliverStaticResponse tx id data eof).1 := by
  obtain ⟨-, hh, hs⟩ := deliver_same s tx id data eof
  refine ⟨fun n entry he hc => ?_, hs ▸ h.datagrams, fun id' response hp ho => ?_⟩
  · rw [isHealthy, hh]
    exact h.health n entry he hc
  · exact deliver_keeps (h.pending id' response hp ho) ho

theorem isHealthy_reportHealth (s : RelayState) (name n : String) (healthy : Bool) :
    (s.reportHealth name healthy).isHealthy n =
      if n = name ∧ name ∈ s.server.registry.servicesByName then healthy else s.isHealthy n := by
  unfold reportHealth
  split
  · next hm =>
    simp only [isHealthy, AList.lookup_insert_eq]
    by_cases hn : n = name
    · simp [hn, hm]
    · simp [hn]
  · next hm => simp [hm]

theorem report_isolated_iff (hs : SameServices s₀ s) (h : Isolated clientId tx s₀ s)
    (name : String) (healthy : Bool) :
    Isolated clientId tx s₀ (s.reportHealth name healthy) ↔
      (s.foreign clientId name = true → s.isHealthy name = healthy) := by
  constructor
  · intro h' hf
    obtain ⟨entry, he, hc⟩ := (foreign_iff s clientId name).mp hf
    have he₀ := hs.registry ▸ he
    have hnew := h'.health name entry he₀ hc
    rw [isHealthy_reportHealth, if_pos ⟨rfl, AList.mem_of_lookup he⟩] at hnew
    rw [h.health name entry he₀ hc, hnew]
  · intro hcond
    have hsent : (s.reportHealth name healthy).sent = s.sent ∧
        (s.reportHealth name healthy).pendingStatic = s.pendingStatic := by
      unfold reportHealth
      split <;> exact ⟨rfl, rfl⟩
    refine ⟨fun n entry he hc => ?_, hsent.1 ▸ h.datagrams, hsent.2 ▸ h.pending⟩
    rw [isHealthy_reportHealth]
    split
    · next hn =>
      obtain ⟨rfl, -⟩ := hn
      rw [← h.health n entry he hc]
      exact (hcond ((foreign_iff s clientId n).mpr ⟨entry, hs.registry ▸ he, hc⟩)).symm
    · exact h.health n entry he hc

theorem forward_isolated_iff (hs : SameServices s₀ s) (h : Isolated clientId tx s₀ s)
    (name addr : String) (data : List UInt8) :
    Isolated clientId tx s₀ (s.forwardResponse name addr data) ↔
      (s.foreign clientId name = true → IpAddr.parseSocket addr = none ∨
        name ∉ s.server.udpServices) := by
  unfold forwardResponse
  cases ha : IpAddr.parseSocket addr with
  | none => exact iff_of_true h (fun _ => Or.inl rfl)
  | some dest =>
    dsimp only
    split
    · next hm =>
      obtain ⟨new, hnew, hown⟩ := h.datagrams
      constructor
      · intro h' hf
        obtain ⟨entry, he, hc⟩ := (foreign_iff s clientId name).mp hf
        obtain ⟨new', hnew', hown'⟩ := h'.datagrams
        dsimp only at hnew'
        rw [hnew, List.append_assoc] at hnew'
        have htail := List.append_cancel_left hnew'
        have hd : (⟨name, dest, data⟩ : Datagram) ∈ new' := by
          rw [← htail]
          simp
        exact absurd (hown' _ hd entry (hs.registry ▸ he)) hc
      · intro hcond
        refine ⟨h.health, ⟨new ++ [⟨name, dest, data⟩], ?_, fun d hd entry he => ?_⟩, h.pending⟩
        · dsimp only
          rw [hnew, List.append_assoc]
        · rcases List.mem_append.mp hd with hd | hd
          · exact hown d hd entry he
          · rw [List.mem_singleton.mp hd] at he
            by_contra hc
            rcases hcond ((foreign_iff s clientId name).mpr ⟨entry, hs.registry ▸ he, hc⟩) with
              hp | hp
            · cases hp
            · exact hp hm
    · next hm => exact iff_of_true h (fun _ => Or.inr hm)

theorem handleMessage_same (s : RelayState) (tx : Channel) (msg : Message) (order : MapOrder) :
    SameServices s (s.handleMessage tx msg order) := by
  have hforward (name addr : String) (data : List UInt8) :
      SameServices s (s.forwardResponse name addr data) := by
    unfold forwardResponse
    split
    · exact ⟨rfl, rfl⟩
    · split <;> exact ⟨rfl, rfl⟩
  unfold handleMessage
  split
  · exact ⟨rfl, rfl⟩
  · exact ⟨rfl, rfl⟩
  · split
    · unfold reportHealth
      split <;> exact ⟨rfl, rfl⟩
    · exact ⟨rfl, rfl⟩
  · split
    · exact (deliver_same s tx _ _ _).1
    · exact ⟨rfl, rfl⟩
  · split
    · split
      · exact hforward _ _ _
      · exact ⟨rfl, rfl⟩
    · exact ⟨rfl, rfl⟩
  · exact ⟨rfl, rfl⟩

theorem message_isolated_iff (hs : SameServices s₀ s) (h : Isolated clientId tx s₀ s)
    (input : ControlInput) :
    Isolated clientId tx s₀ (s.handleMessage tx input.msg input.order) ↔
      s.confined clientId input = true := by
  unfold handleMessage
  split
  · next hty => exact iff_of_true h (by simp [confined, hty])
  · next hty => exact iff_of_true (h.of_eq rfl rfl rfl) (by simp [confined, hty])
  · next hty =>
    split
    · next name healthy hn hh =>
      rw [report_isolated_iff hs h]
      simp [confined, hty, hn, hh, imp_iff_not_or]
    · next hmissing =>
      refine iff_of_true h ?_
      simp only [confined, hty]
  · next hty =>
    refine iff_of_true ?_ (by simp [confined, hty])
    split
    · exact h.deliver _ _ _
    · exact h
  · next hty =>
    split
    · next rport addr data hr ha hd =>
      cases hg : getServiceNameByPort (input.order.visit s.entries) rport with
      | none => exact iff_of_true h (by simp [confined, hty, hr, ha, hd, hg])
      | some name =>
        dsimp only
        rw [forward_isolated_iff hs h]
        simp [confined, hty, hr, ha, hd, hg, imp_iff_not_or, or_assoc]
    · next hmissing =>
      refine iff_of_true h ?_
      simp only [confined, hty]
  · next hpong hping hhealth hstatic hudp =>
    refine iff_of_true h ?_
    unfold confined
    split
    · next hty => exact absurd hty hhealth
    · next hty => exact absurd hty hudp
    · rfl

theorem sessions_isolated_iff (s : RelayState) (clientId : String) (tx : Channel)
    (inputs : List ControlInput) :
    Machine.Always (step tx) (Isolated clientId tx s) s inputs ↔
      Machine.Along (step tx) (fun s input => s.confined clientId input = true) s inputs := by
  have hnext (t : RelayState) (input : ControlInput) (hs : SameServices s t) :
      SameServices s (t.handleMessage tx input.msg input.order) :=
    hs.trans (handleMessage_same t tx input.msg input.order)
  constructor
  · refine Machine.along_of_always (I := SameServices s) ?_ ?_ ?_ ⟨rfl, rfl⟩
    · rintro t input u hs - - hu
      cases hu
      exact hnext t input hs
    · rintro t input u hs h hu h'
      cases hu
      exact (message_isolated_iff hs h input).mp h'
    · intro t input hs hu
      cases hu
  · refine Machine.always_of_along (I := fun t => SameServices s t ∧ Isolated clientId tx s t)
      ?_ (fun t ht => ht.2) ⟨⟨rfl, rfl⟩, Isolated.refl clientId tx s⟩
    rintro t input u ⟨hs, h⟩ hc hu
    cases hu
    exact ⟨hnext t input hs, (message_isolated_iff hs h input).mpr hc⟩

def dnsAndStranger : List ServerEvent :=
  [.hello "alice" [{ name := "dns", ty := some "udp", remotePort := 60080 }], .expose 0 (.ok ()),
    .ready 0 true, .hello "bob" [], .ready 1 true]

def strangerHealth : ControlInput where
  msg := { ty := "health", serviceName := some "dns", healthy := some false }
  order := .identity

def strangerDatagram : ControlInput where
  msg :=
    { ty := "udp_response"
      remotePort := some 60080
      address := some "192.0.2.7:53"
      data := some [1, 2, 3] }
  order := .identity

theorem stranger_reaches_dns :
    ∃ server, Machine.run ServerState.step ServerState.defaultServer.run dnsAndStranger =
        some server ∧
      (server.sessions.lookup 1).map (fun session => (session.clientId, session.isReady)) =
        some ("bob", true) ∧
      (server.registry.servicesByName.lookup "dns").map ServiceEntry.clientId = some "alice" ∧
      ((fresh server).handleMessage 1 strangerHealth.msg .identity).isHealthy "dns" = false ∧
      ((fresh server).handleMessage 1 strangerDatagram.msg .identity).sent.map Datagram.service =
        ["dns"] ∧
      ¬Machine.Always (step 1) (Isolated "bob" 1 (fresh server)) (fresh server)
        [strangerHealth] ∧
      ¬Machine.Always (step 1) (Isolated "bob" 1 (fresh server)) (fresh server)
        [strangerDatagram] := by
  have hrun : (Machine.run ServerState.step ServerState.defaultServer.run dnsAndStranger).map
      (fun server =>
        ((server.sessions.lookup 1).map (fun session => (session.clientId, session.isReady)),
          (server.registry.servicesByName.lookup "dns").map ServiceEntry.clientId,
          ((fresh server).handleMessage 1 strangerHealth.msg .identity).isHealthy "dns",
          ((fresh server).handleMessage 1 strangerDatagram.msg .identity).sent.map
            Datagram.service)) =
      some (some ("bob", true), some "alice", false, ["dns"]) := by decide +kernel
  obtain ⟨server, hs, hlook⟩ := Option.map_eq_some_iff.mp hrun
  simp only [Prod.mk.injEq] at hlook
  obtain ⟨hbob, halice, hhealth, hsent⟩ := hlook
  obtain ⟨dns, hdns, hclient⟩ := Option.map_eq_some_iff.mp halice
  have hne : dns.clientId ≠ "bob" := by
    rw [hclient]
    decide
  refine ⟨server, hs, hbob, halice, hhealth, hsent, fun h => ?_, fun h => ?_⟩
  · have : ((fresh server).handleMessage 1 strangerHealth.msg .identity).isHealthy "dns" = true :=
      (h.2 _ rfl).health "dns" dns hdns hne
    rw [hhealth] at this
    cases this
  · obtain ⟨new, hnew, hown⟩ := (h.2 _ rfl).datagrams
    obtain ⟨d, rest, hd⟩ : ∃ d rest, new = d :: rest := by
      cases new with
      | nil =>
        have hnone : ((fresh server).handleMessage 1 strangerDatagram.msg .identity).sent = [] :=
          hnew
        rw [hnone] at hsent
        cases hsent
      | cons d rest => exact ⟨d, rest, rfl⟩
    have hservice : d.service = "dns" := by
      have hall : ((fresh server).handleMessage 1 strangerDatagram.msg .identity).sent =
          d :: rest := hnew.trans (congrArg _ hd)
      rw [hall] at hsent
      exact (List.cons.inj hsent).1
    exact hne (hown d (by simp [hd]) dns (hservice ▸ hdns))

end Cross233.Server.RelayState
