import Cross233.Relay.StaticPaths
import Cross233.Server.StaticResponses

namespace Cross233.Relay

open Cross233.Protocol Cross233.Client Cross233.Server

-- The session passes on the messages of the response in order, a send finds room in the queue, and
-- neither the public side nor the session gives up.
def unhindered (tx : Channel) (id : String) (chunks : List StaticResponseChunk) (s : StaticState) :
    StaticEvent → Bool
  | .insert i owner => s.insertsFresh (.insert i owner)
  | .deliverStaticResponse c i data eof =>
    decide (c = tx → i = id → s.passedTo tx id ++ [⟨data, eof⟩] <+: chunks)
  | .proceed c =>
    match s.deliveries.lookup c with
    | some (.sending i _) =>
      decide (i = id → (s.exchanges.lookup i).all
        (fun x => x.response.queue.length < staticResponseQueueCapacity) = true)
    | _ => true
  | .cancelStaticResponse i => i ≠ id
  | .hangUp i => i ≠ id
  | .cancelStaticResponsesForControl c => c ≠ tx
  | _ => true

-- Of the chunks of a response only the last says that it ends.
theorem Closes.eq_of_prefix {chunks part : List StaticResponseChunk} (h : Closes chunks)
    {chunk : StaticResponseChunk} (hpart : part ++ [chunk] <+: chunks)
    (heof : chunk.eof = true) : part ++ [chunk] = chunks := by
  induction h generalizing part with
  | last =>
    cases part with
    | nil =>
      obtain ⟨rfl, -⟩ := List.cons_prefix_cons.mp hpart
      rfl
    | cons first part =>
      have hlen := hpart.length_le
      simp at hlen
  | more hopen _ ih =>
    cases part with
    | nil =>
      obtain ⟨rfl, -⟩ := List.cons_prefix_cons.mp hpart
      cases heof.symm.trans hopen
    | cons first part =>
      obtain ⟨rfl, hrest⟩ := List.cons_prefix_cons.mp hpart
      exact congrArg (first :: ·) (ih hrest)

structure Conveying (tx : Channel) (id : String) (chunks : List StaticResponseChunk)
    (s : StaticState) (x : StaticExchange) : Prop where
  exchange : s.exchanges.lookup id = some x
  owner : x.response.owner = tx
  receiving : x.response.receiving = true
  accounted : s.passedTo tx id = x.accepted ++ s.inFlight tx id
  passed : s.passedTo tx id <+: chunks
  entry : (s.pendingStatic.lookup id = some tx ∧
    s.deliveries.lookup tx ≠ some (.cancelling id)) ∨ x.accepted = chunks

namespace Conveying

open StaticState (passedTo_append inFlight_of_lookup inFlight_of_none inFlight_congr
  dropEntry_kept send_kept trySend_accepted Relaying)

variable {tx : Channel} {id : String} {chunks : List StaticResponseChunk} {s s' : StaticState}
  {x x' : StaticExchange}

theorem congr (h : Conveying tx id chunks s x) (hexchange : s'.exchanges.lookup id = some x')
    (howner : x'.response.owner = x.response.owner)
    (hreceiving : x'.response.receiving = x.response.receiving)
    (haccepted : x'.accepted = x.accepted)
    (hpending : s'.pendingStatic.lookup id = s.pendingStatic.lookup id)
    (hpassed : s'.passed = s.passed) (hflight : s'.inFlight tx id = s.inFlight tx id)
    (hcancelling : s'.deliveries.lookup tx = some (.cancelling id) →
      s.deliveries.lookup tx = some (.cancelling id)) : Conveying tx id chunks s' x' := by
  have hpassedTo : s'.passedTo tx id = s.passedTo tx id := by
    rw [StaticState.passedTo, hpassed, ← StaticState.passedTo]
  refine ⟨hexchange, howner.trans h.owner, hreceiving.trans h.receiving, ?_, ?_, ?_⟩
  · rw [hpassedTo, haccepted, hflight]
    exact h.accounted
  · rw [hpassedTo]
    exact h.passed
  · rcases h.entry with ⟨hentry, hcancel⟩ | hall
    · exact .inl ⟨hpending.trans hentry, fun hc => hcancel (hcancelling hc)⟩
    · exact .inr (haccepted.trans hall)

-- While a chunk is on its way the response is not complete, so its entry is in place.
theorem awaited (h : Conveying tx id chunks s x) {chunk : StaticResponseChunk}
    (hflight : s.inFlight tx id = [chunk]) :
    s.pendingStatic.lookup id = some tx ∧
      s.deliveries.lookup tx ≠ some (.cancelling id) := by
  rcases h.entry with hentry | hall
  · exact hentry
  · have hlen := h.passed.length_le
    rw [h.accounted, hflight, hall, List.length_append, List.length_singleton] at hlen
    omega

theorem proceed_kept {c : Channel} {d : Delivery} (h : s.proceed c d = some s') :
    s'.passed = s.passed ∧
      (∀ c', c' ≠ c → s'.deliveries.lookup c' = s.deliveries.lookup c') ∧
      (∀ d', s'.deliveries.lookup c = some d' → d'.id = d.id) ∧
      ∀ i, i ≠ d.id → s'.exchanges.lookup i = s.exchanges.lookup i ∧
        s'.pendingStatic.lookup i = s.pendingStatic.lookup i := by
  have hbusy (d' : Delivery) (hid : d'.id = d.id) (d'' : Delivery)
      (hl : (s.deliveries.insert c d').lookup c = some d'') : d''.id = d.id := by
    rw [AList.lookup_insert] at hl
    cases hl
    exact hid
  have hidle (deliveries : HashMap Channel Delivery) (d'' : Delivery)
      (hl : (deliveries.erase c).lookup c = some d'') : d''.id = d.id := by
    rw [AList.lookup_erase] at hl
    cases hl
  cases d with
  | looking i chunk =>
    cases h
    unfold StaticState.look
    split
    · split
      · exact ⟨rfl, fun c' hc => AList.lookup_insert_ne hc, hbusy _ rfl, fun _ _ => ⟨rfl, rfl⟩⟩
      · exact ⟨rfl, fun c' hc => AList.lookup_erase_ne hc, hidle _, fun _ _ => ⟨rfl, rfl⟩⟩
    · exact ⟨rfl, fun c' hc => AList.lookup_erase_ne hc, hidle _, fun _ _ => ⟨rfl, rfl⟩⟩
  | sending i chunk =>
    obtain ⟨y, -, h⟩ := Option.bind_eq_some_iff.mp h
    cases h
    unfold StaticState.send
    split
    · dsimp only
      split
      · exact ⟨rfl, fun c' hc => AList.lookup_insert_ne hc, hbusy _ rfl,
          fun j hj => ⟨AList.lookup_insert_ne hj, rfl⟩⟩
      · exact ⟨rfl, fun c' hc => AList.lookup_erase_ne hc, hidle _,
          fun j hj => ⟨AList.lookup_insert_ne hj, rfl⟩⟩
    · exact ⟨rfl, fun c' hc => AList.lookup_insert_ne hc, hbusy _ rfl, fun _ _ => ⟨rfl, rfl⟩⟩
  | cancelling i =>
    cases h
    unfold StaticState.cancelStaticResponseForControl
    split
    · obtain ⟨hexchanges, hdeliveries, hpassed, hpending⟩ := dropEntry_kept s i
      refine ⟨hpassed, fun c' hc => ?_, hidle _, fun j hj => ⟨?_, ?_⟩⟩
      · exact (AList.lookup_erase_ne hc).trans (congrArg (AList.lookup c') hdeliveries)
      · exact congrArg (AList.lookup j) hexchanges
      · exact (hpending j).trans (if_neg hj)
    · exact ⟨rfl, fun c' hc => AList.lookup_erase_ne hc, hidle _, fun _ _ => ⟨rfl, rfl⟩⟩

theorem accepted_of_idle (h : Conveying tx id chunks s x) (hidle : tx ∉ s.deliveries) :
    s.passedTo tx id = x.accepted := by
  rw [h.accounted, inFlight_of_none (AList.lookup_eq_none.mpr hidle), List.append_nil]

theorem delivering (s : StaticState) (c : Channel) (i : String) (data : List UInt8) (eof : Bool) :
    (s.deliverStaticResponse c i data eof).deliveries.lookup c =
      some (if staticResponseChunkMax < data.length then .cancelling i
        else .looking i ⟨data, eof⟩) := AList.lookup_insert _

theorem deliver_own (h : Conveying tx id chunks s x)
    (hfits : ∀ chunk ∈ chunks, chunk.data.length ≤ staticResponseChunkMax)
    {data : List UInt8} {eof : Bool} (hidle : tx ∉ s.deliveries)
    (hnext : s.passedTo tx id ++ [⟨data, eof⟩] <+: chunks) :
    Conveying tx id chunks (s.deliverStaticResponse tx id data eof) x := by
  have haccepted := h.accepted_of_idle hidle
  have hlen : ¬staticResponseChunkMax < data.length :=
    Nat.not_lt.mpr (hfits ⟨data, eof⟩ (hnext.subset (by simp)))
  have hnew := delivering s tx id data eof
  rw [if_neg hlen] at hnew
  have hflight : (s.deliverStaticResponse tx id data eof).inFlight tx id = [⟨data, eof⟩] :=
    (inFlight_of_lookup hnew id).trans (if_pos rfl)
  have hpassed := passedTo_append s tx id (tx, id, ⟨data, eof⟩)
  rw [if_pos ⟨rfl, rfl⟩] at hpassed
  refine ⟨h.exchange, h.owner, h.receiving, ?_, ?_, ?_⟩
  · rw [hflight, ← haccepted]
    exact hpassed
  · exact hpassed ▸ hnext
  · rcases h.entry with ⟨hentry, -⟩ | hall
    · exact .inl ⟨hentry, by rw [hnew]; exact fun he => by cases he⟩
    · have hshort := hnext.length_le
      rw [haccepted, hall, List.length_append, List.length_singleton] at hshort
      omega

theorem deliver_other (h : Conveying tx id chunks s x) {i : String} {data : List UInt8}
    {eof : Bool} (hidle : tx ∉ s.deliveries) (hi : i ≠ id) :
    Conveying tx id chunks (s.deliverStaticResponse tx i data eof) x := by
  have haccepted := h.accepted_of_idle hidle
  have hnew := delivering s tx i data eof
  have hpassed := passedTo_append s tx id (tx, i, ⟨data, eof⟩)
  rw [if_neg (fun he => hi he.2), List.append_nil] at hpassed
  have hflight : (s.deliverStaticResponse tx i data eof).inFlight tx id = [] := by
    refine (inFlight_of_lookup hnew id).trans (if_neg ?_)
    split
    · exact hi
    · exact hi
  refine ⟨h.exchange, h.owner, h.receiving, ?_, hpassed ▸ h.passed, ?_⟩
  · rw [hflight, List.append_nil, ← haccepted]
    exact hpassed
  · refine h.entry.imp (fun hentry => ⟨hentry.1, ?_⟩) (fun hall => hall)
    rw [hnew]
    split
    · exact fun he => hi (by injection he with he; injection he)
    · exact fun he => by cases he

theorem deliver_foreign (h : Conveying tx id chunks s x) {c : Channel} {i : String}
    {data : List UInt8} {eof : Bool} (hc : c ≠ tx) :
    Conveying tx id chunks (s.deliverStaticResponse c i data eof) x := by
  have hpassed := passedTo_append s tx id (c, i, ⟨data, eof⟩)
  rw [if_neg (fun he => hc he.1), List.append_nil] at hpassed
  have hkept : (s.deliverStaticResponse c i data eof).deliveries.lookup tx =
      s.deliveries.lookup tx := AList.lookup_insert_ne (Ne.symm hc)
  refine ⟨h.exchange, h.owner, h.receiving, ?_, hpassed ▸ h.passed, ?_⟩
  · rw [inFlight_congr hkept, ← h.accounted]
    exact hpassed
  · rw [hkept]
    exact h.entry

theorem deliver (h : Conveying tx id chunks s x)
    (hfits : ∀ chunk ∈ chunks, chunk.data.length ≤ staticResponseChunkMax) {c : Channel}
    {i : String} {data : List UInt8} {eof : Bool} (hidle : c ∉ s.deliveries)
    (hnext : c = tx → i = id → s.passedTo tx id ++ [⟨data, eof⟩] <+: chunks) :
    Conveying tx id chunks (s.deliverStaticResponse c i data eof) x := by
  by_cases hc : c = tx
  · subst hc
    by_cases hi : i = id
    · subst hi
      exact h.deliver_own hfits hidle (hnext rfl rfl)
    · exact h.deliver_other hidle hi
  · exact h.deliver_foreign hc

theorem proceed_other (h : Conveying tx id chunks s x) {d : Delivery}
    (hd : s.deliveries.lookup tx = some d) (hother : d.id ≠ id)
    (hs : s.proceed tx d = some s') : Conveying tx id chunks s' x := by
  obtain ⟨hpassed, -, hown, hkept⟩ := proceed_kept hs
  obtain ⟨hexchange, hpending⟩ := hkept id (Ne.symm hother)
  refine h.congr (hexchange.trans h.exchange) rfl rfl rfl hpending hpassed ?_ (fun hc => ?_)
  · rw [inFlight_of_lookup hd, if_neg hother]
    cases hd' : s'.deliveries.lookup tx with
    | none => exact inFlight_of_none hd' id
    | some d' => exact (inFlight_of_lookup hd' id).trans (if_neg (hown d' hd' ▸ hother))
  · exact absurd (hown _ hc).symm hother

theorem proceed_foreign (h : Conveying tx id chunks s x) (hr : Relaying s) {c : Channel}
    {d : Delivery} (hc : c ≠ tx) (hd : s.deliveries.lookup c = some d)
    (hs : s.proceed c d = some s') : Conveying tx id chunks s' x := by
  obtain ⟨hpassed, hdeliveries, -, -⟩ := proceed_kept hs
  have htx := hdeliveries tx (Ne.symm hc)
  obtain ⟨hexchange, hpending⟩ :=
    hr.proceed_foreign hd hs h.exchange (h.owner ▸ Ne.symm hc)
  exact h.congr hexchange rfl rfl rfl hpending hpassed (inFlight_congr htx id)
    (fun hcancel => htx ▸ hcancel)

theorem look (h : Conveying tx id chunks s x) {chunk : StaticResponseChunk}
    (hd : s.deliveries.lookup tx = some (.looking id chunk)) :
    Conveying tx id chunks (s.look tx id chunk) x := by
  have hflight : s.inFlight tx id = [chunk] := (inFlight_of_lookup hd id).trans (if_pos rfl)
  have hentry := (h.awaited hflight).1
  have hlook : s.look tx id chunk = s.busy tx (.sending id chunk) := by
    simp [StaticState.look, hentry]
  have hnew : (s.busy tx (.sending id chunk)).deliveries.lookup tx = some (.sending id chunk) :=
    AList.lookup_insert _
  rw [hlook]
  refine h.congr h.exchange rfl rfl rfl rfl rfl ?_ (fun hc => by cases hnew.symm.trans hc)
  rw [hflight]
  exact (inFlight_of_lookup hnew id).trans (if_pos rfl)

theorem inFlight_cancelling {c : Channel} {i : String}
    (h : s.deliveries.lookup c = some (.cancelling i)) (j : String) : s.inFlight c j = [] := by
  rw [inFlight_of_lookup h]
  split
  · rfl
  · rfl

theorem send (h : Conveying tx id chunks s x) (hcloses : Closes chunks)
    {chunk : StaticResponseChunk} (hd : s.deliveries.lookup tx = some (.sending id chunk))
    (hroom : x.response.queue.length < staticResponseQueueCapacity) :
    ∃ x', Conveying tx id chunks (s.send tx id chunk x) x' := by
  have hflight : s.inFlight tx id = [chunk] := (inFlight_of_lookup hd id).trans (if_pos rfl)
  have hpassed : s.passedTo tx id = x.accepted ++ [chunk] := hflight ▸ h.accounted
  have hsend : RelayState.trySend x.response chunk =
      some { x.response with queue := x.response.queue ++ [chunk] } := by
    simp [RelayState.trySend, h.receiving, hroom]
  let x' : StaticExchange :=
    { x with response := { x.response with queue := x.response.queue ++ [chunk] } }
  have haccepted : x'.accepted = x.accepted ++ [chunk] := (trySend_accepted hsend).2
  have hexchange : (s.exchanges.insert id x').lookup id = some x' := AList.lookup_insert _
  refine ⟨x', ?_⟩
  unfold StaticState.send
  rw [hsend]
  dsimp only
  split
  · next heof =>
    -- The message that ends the response completes it, and the entry goes.
    have hall : x'.accepted = chunks :=
      haccepted.trans (hcloses.eq_of_prefix (hpassed ▸ h.passed) heof)
    refine ⟨hexchange, h.owner, h.receiving, ?_, h.passed, .inr hall⟩
    rw [haccepted, ← hpassed, inFlight_cancelling (AList.lookup_insert _)]
    exact (List.append_nil _).symm
  · have hidle : ((s.setExchange id x').idle tx).deliveries.lookup tx = none :=
      AList.lookup_erase _ _
    refine ⟨hexchange, h.owner, h.receiving, ?_, h.passed,
      .inl ⟨(h.awaited hflight).1, fun hc => by cases hidle.symm.trans hc⟩⟩
    rw [haccepted, ← hpassed, inFlight_of_none hidle]
    exact (List.append_nil _).symm

theorem cancelled (h : Conveying tx id chunks s x)
    (hd : s.deliveries.lookup tx = some (.cancelling id)) :
    Conveying tx id chunks ((s.cancelStaticResponseForControl id tx).idle tx) x := by
  have hall : x.accepted = chunks := h.entry.resolve_left fun hentry => hentry.2 hd
  have hpassed : s.passedTo tx id = x.accepted := by
    rw [h.accounted, inFlight_cancelling hd, List.append_nil]
  have hidle : ((s.cancelStaticResponseForControl id tx).idle tx).inFlight tx id = [] :=
    inFlight_of_none (AList.lookup_erase _ _) id
  have hkept : (s.cancelStaticResponseForControl id tx).exchanges = s.exchanges ∧
      (s.cancelStaticResponseForControl id tx).passed = s.passed := by
    unfold StaticState.cancelStaticResponseForControl
    split
    · obtain ⟨hexchanges, -, hsame, -⟩ := dropEntry_kept s id
      exact ⟨hexchanges, hsame⟩
    · exact ⟨rfl, rfl⟩
  have hsame : ((s.cancelStaticResponseForControl id tx).idle tx).passedTo tx id =
      s.passedTo tx id := by
    simp only [StaticState.passedTo, StaticState.idle, hkept.2]
  refine ⟨?_, h.owner, h.receiving, ?_, hsame ▸ h.passed, .inr hall⟩
  · exact (congrArg (AList.lookup id) hkept.1).trans h.exchange
  · rw [hsame, hidle, List.append_nil, hpassed]

theorem proceed (h : Conveying tx id chunks s x) (hr : Relaying s) (hcloses : Closes chunks)
    {c : Channel} (hok : unhindered tx id chunks s (.proceed c) = true) {d : Delivery}
    (hd : s.deliveries.lookup c = some d) (hs : s.proceed c d = some s') :
    ∃ x', Conveying tx id chunks s' x' := by
  by_cases hc : c = tx
  · subst hc
    by_cases hid : d.id = id
    · subst hid
      cases d with
      | looking i chunk =>
        cases hs
        exact ⟨x, h.look hd⟩
      | sending i chunk =>
        obtain ⟨y, hy, hs⟩ := Option.bind_eq_some_iff.mp hs
        cases hs
        cases h.exchange.symm.trans hy
        simp only [unhindered, hd, decide_eq_true_eq, hy, Option.all_some] at hok
        exact h.send hcloses hd (hok rfl)
      | cancelling i =>
        cases hs
        exact ⟨x, h.cancelled hd⟩
    · exact ⟨x, h.proceed_other hd hid hs⟩
  · exact ⟨x, h.proceed_foreign hr hc hd hs⟩

theorem receive (h : Conveying tx id chunks s x) {i : String} {y : StaticExchange}
    (hy : s.exchanges.lookup i = some y) (hs : s.receive i y = some s') :
    ∃ x', Conveying tx id chunks s' x' := by
  unfold StaticState.receive at hs
  split at hs
  · cases hs
  · next chunk queue hqueue =>
    split at hs
    · cases hs
      by_cases hi : i = id
      · subst hi
        cases h.exchange.symm.trans hy
        refine ⟨_, h.congr (AList.lookup_insert _) rfl rfl ?_ rfl rfl rfl fun hc => hc⟩
        simp [StaticExchange.accepted, hqueue]
      · refine ⟨x, h.congr ?_ rfl rfl rfl rfl rfl rfl fun hc => hc⟩
        exact (AList.lookup_insert_ne (Ne.symm hi)).trans h.exchange
    · cases hs

theorem insert (h : Conveying tx id chunks s x) {i : String} {owner : Channel}
    (hfresh : i ∉ s.exchanges) : Conveying tx id chunks (s.insert i owner) x := by
  have hi : id ≠ i := by
    rintro rfl
    exact hfresh (AList.lookup_isSome.mp (by rw [h.exchange]; rfl))
  obtain ⟨hexchanges, hdeliveries, hpassed, hpending⟩ := dropEntry_kept s i
  have hdel : (s.insert i owner).deliveries.lookup tx = s.deliveries.lookup tx :=
    congrArg (AList.lookup tx) hdeliveries
  refine h.congr ?_ rfl rfl rfl ?_ hpassed (inFlight_congr hdel id) (fun hc => hdel ▸ hc)
  · exact ((AList.lookup_insert_ne hi).trans (congrArg (AList.lookup id) hexchanges)).trans
      h.exchange
  · exact (AList.lookup_insert_ne hi).trans ((hpending id).trans (if_neg hi))

theorem step (h : Conveying tx id chunks s x) (hr : Relaying s) (hcloses : Closes chunks)
    (hfits : ∀ chunk ∈ chunks, chunk.data.length ≤ staticResponseChunkMax) {e : StaticEvent}
    (hok : unhindered tx id chunks s e = true) (hs : s.step e = some s') :
    ∃ x', Conveying tx id chunks s' x' := by
  cases e with
  | requestStaticResponse request =>
    cases hs
    unfold StaticState.requestStaticResponse
    split
    · exact ⟨x, h⟩
    split
    · exact ⟨x, h⟩
    · exact ⟨x, h.congr h.exchange rfl rfl rfl rfl rfl rfl fun hc => hc⟩
  | insert i owner =>
    simp only [StaticState.step] at hs
    split at hs
    · cases hs
    · cases hs
      simp only [unhindered, StaticState.insertsFresh, Bool.and_eq_true, decide_eq_true_eq] at hok
      exact ⟨x, h.insert hok.1⟩
  | deliverStaticResponse c i data eof =>
    simp only [StaticState.step] at hs
    split at hs
    · cases hs
    · next hidle =>
      cases hs
      exact ⟨x, h.deliver hfits hidle (of_decide_eq_true hok)⟩
  | proceed c =>
    obtain ⟨d, hd, hs⟩ := Option.bind_eq_some_iff.mp hs
    exact h.proceed hr hcloses hok hd hs
  | receive i =>
    obtain ⟨y, hy, hs⟩ := Option.bind_eq_some_iff.mp hs
    exact h.receive hy hs
  | cancelStaticResponse i =>
    cases hs
    have hi : id ≠ i := Ne.symm (of_decide_eq_true hok)
    obtain ⟨hexchanges, hdeliveries, hpassed, hpending⟩ := dropEntry_kept s i
    have hdel : (s.dropEntry i).deliveries.lookup tx = s.deliveries.lookup tx :=
      congrArg (AList.lookup tx) hdeliveries
    refine ⟨x, h.congr ?_ rfl rfl rfl ?_ hpassed (inFlight_congr hdel id) (fun hc => hdel ▸ hc)⟩
    · exact (congrArg (AList.lookup id) hexchanges).trans h.exchange
    · exact (hpending id).trans (if_neg hi)
  | hangUp i =>
    obtain ⟨y, hy, hs⟩ := Option.bind_eq_some_iff.mp hs
    cases hs
    have hi : id ≠ i := Ne.symm (of_decide_eq_true hok)
    refine ⟨x, h.congr ?_ rfl rfl rfl rfl rfl rfl fun hc => hc⟩
    exact (AList.lookup_insert_ne hi).trans h.exchange
  | cancelStaticResponsesForControl c =>
    have hc : c ≠ tx := of_decide_eq_true hok
    obtain ⟨hexchange, hpending⟩ :=
      hr.foreign _ _ _ _ _ hs rfl h.exchange (h.owner ▸ Ne.symm hc)
    simp only [StaticState.step] at hs
    split at hs
    · cases hs
    · cases hs
      exact ⟨x, h.congr hexchange rfl rfl rfl hpending rfl rfl fun hc => hc⟩

theorem start (hr : Relaying s) (hfresh : s.insertsFresh (.insert id tx) = true) :
    Conveying tx id chunks (s.insert id tx) ⟨⟨tx, [], true⟩, []⟩ := by
  simp only [StaticState.insertsFresh, Bool.and_eq_true, decide_eq_true_eq, List.all_eq_true]
    at hfresh
  obtain ⟨-, hdeliveries, hpassed, -⟩ := dropEntry_kept s id
  have hnothing : (s.insert id tx).passedTo tx id = [] := by
    have hsame : (s.insert id tx).passed = s.passed := hpassed
    rw [StaticState.passedTo, hsame, List.map_eq_nil_iff, List.filter_eq_nil_iff]
    intro p hp hpid
    simp only [Bool.and_eq_true, decide_eq_true_eq] at hpid
    exact hfresh.2 p hp hpid.2
  -- No delivery is under way for an id that no message has named.
  have hforeign (d : Delivery) (hd : (s.insert id tx).deliveries.lookup tx = some d) :
      d.id ≠ id := by
    have hold : s.deliveries.lookup tx = some d :=
      (congrArg (AList.lookup tx) hdeliveries).symm.trans hd
    obtain ⟨p, hp, hpid⟩ := hr.mentioned tx d hold
    exact hpid ▸ hfresh.2 p hp
  have hempty : (s.insert id tx).inFlight tx id = [] := by
    cases hd : (s.insert id tx).deliveries.lookup tx with
    | none => exact inFlight_of_none hd id
    | some d => exact (inFlight_of_lookup hd id).trans (if_neg (hforeign d hd))
  refine ⟨AList.lookup_insert _, rfl, rfl, ?_, ?_, .inl ⟨AList.lookup_insert _, fun hc => ?_⟩⟩
  · rw [hnothing, hempty]
    rfl
  · rw [hnothing]
    exact List.nil_prefix
  · exact hforeign _ hc rfl

theorem run (h : Conveying tx id chunks s x) (hr : Relaying s) (hcloses : Closes chunks)
    (hfits : ∀ chunk ∈ chunks, chunk.data.length ≤ staticResponseChunkMax)
    {events : List StaticEvent}
    (hok : Machine.Along StaticState.step (fun s e => unhindered tx id chunks s e = true) s events)
    (hrun : Machine.run StaticState.step s events = some s') :
    ∃ x', Conveying tx id chunks s' x' := by
  have hfresh (s : StaticState) (e : StaticEvent) (hok : unhindered tx id chunks s e = true) :
      s.insertsFresh e = true := by
    cases e with
    | insert i owner => exact hok
    | _ => rfl
  have hinv := Machine.run_invariant_along
    (I := fun s => Relaying s ∧ ∃ x, Conveying tx id chunks s x)
    (fun s e s' ⟨hr, x, h⟩ hok hs =>
      ⟨hr.step (hfresh s e hok) hs, h.step hr hcloses hfits hok hs⟩) ⟨hr, x, h⟩ hok hrun
  exact hinv.2

theorem drain (hx : s.exchanges.lookup id = some x) (hreceiving : x.response.receiving = true) :
    ∃ t y, Machine.run StaticState.step s
        (List.replicate x.response.queue.length (.receive id)) = some t ∧
      t.exchanges.lookup id = some y ∧ y.received = x.accepted := by
  obtain ⟨⟨owner, queue, receiving⟩, received⟩ := x
  induction queue generalizing s received with
  | nil => exact ⟨s, _, rfl, hx, (List.append_nil _).symm⟩
  | cons chunk queue ih =>
    have hstep : s.step (.receive id) =
        some (s.setExchange id ⟨⟨owner, queue, receiving⟩, received ++ [chunk]⟩) := by
      simp only [StaticState.step, hx, StaticState.receive, Option.bind_eq_bind, Option.bind_some]
      exact if_pos hreceiving
    have hnew : (s.setExchange id ⟨⟨owner, queue, receiving⟩, received ++ [chunk]⟩).exchanges.lookup
        id = some ⟨⟨owner, queue, receiving⟩, received ++ [chunk]⟩ := AList.lookup_insert _
    obtain ⟨t, y, hrun, hy, hreceived⟩ := ih (received ++ [chunk]) hnew hreceiving
    refine ⟨t, y, ?_, hy, ?_⟩
    · rw [List.length_cons, List.replicate_succ, Machine.run, hstep]
      exact hrun
    · rw [hreceived]
      simp [StaticExchange.accepted]

end Conveying

theorem sendStaticResponseBytes_form {requestId : String} {bytes : List UInt8} {last : Bool}
    {msg : Message} (h : msg ∈ sendStaticResponseBytes requestId bytes last) :
    ∃ data eof, msg = .newStaticResponse requestId data eof := by
  unfold sendStaticResponseBytes at h
  split at h
  · exact ⟨_, _, List.mem_singleton.mp h⟩
  · obtain ⟨index, hindex, rfl⟩ := List.mem_mapIdx.mp h
    exact ⟨_, _, rfl⟩

theorem sendStaticControlResponse_form {site : StaticSite} {requestId : String}
    {request : List UInt8} {msg : Message}
    (h : msg ∈ sendStaticControlResponse site requestId request) :
    ∃ data eof, msg = .newStaticResponse requestId data eof := by
  unfold sendStaticControlResponse at h
  split at h
  · exact sendStaticResponseBytes_form h
  · rcases List.mem_append.mp h with h | h
    · rcases List.mem_append.mp h with h | h
      · exact sendStaticResponseBytes_form h
      · obtain ⟨piece, -, rfl⟩ := List.mem_map.mp h
        exact ⟨_, _, rfl⟩
    · exact ⟨_, _, List.mem_singleton.mp h⟩

theorem static_response_lossless (site : StaticSite) (id : String) (request : List UInt8) :
    let messages := sendStaticControlResponse site id request
    let chunks := messages.map staticChunk
    let response := (site.prepareControlResponse request).content
    (∀ msg ∈ messages, ∃ data eof, msg = .newStaticResponse id data eof ∧ data.length ≤ 8192) ∧
      Carries chunks response ∧
      ∀ (tx : Channel) (before after : List StaticEvent) (s t : StaticState),
        Machine.Along StaticState.step (fun s e => s.insertsFresh e = true) .start before →
        Machine.run StaticState.step .start before = some s →
        Machine.Along StaticState.step (fun s e => unhindered tx id chunks s e = true) s
          (.insert id tx :: after) →
        Machine.run StaticState.step s (.insert id tx :: after) = some t →
        t.passedTo tx id = chunks → t.inFlight tx id = [] →
        ∃ x u y, t.exchanges.lookup id = some x ∧
          Machine.run StaticState.step t
            (List.replicate x.response.queue.length (.receive id)) = some u ∧
          u.exchanges.lookup id = some y ∧
          relayStaticControlResponse y.received = .sent response := by
  intro messages chunks response
  have hfits (msg : Message) (hmsg : msg ∈ messages) :
      (staticChunk msg).data.length ≤ staticResponseChunkMax :=
    sendStaticControlResponse_fits hmsg
  have hcarries : Carries chunks response := response_carried site id request
  refine ⟨fun msg hmsg => ?_, hcarries, ?_⟩
  · obtain ⟨data, eof, rfl⟩ := sendStaticControlResponse_form hmsg
    exact ⟨data, eof, rfl, hfits _ hmsg⟩
  intro tx before after s t hfresh hbefore hok hafter hpassed hidle
  have hr : StaticState.Relaying s :=
    Machine.run_invariant_along (fun s e s' h hf hs => h.step hf hs) StaticState.start_relaying
      hfresh hbefore
  obtain ⟨s', hs', hafter⟩ := Option.bind_eq_some_iff.mp hafter
  have hnew : s.insertsFresh (.insert id tx) = true := hok.1
  have hr' : StaticState.Relaying s' := hr.step hnew hs'
  have hinsert : s' = s.insert id tx := by
    simp only [StaticState.step] at hs'
    split at hs'
    · cases hs'
    · cases hs'
      rfl
  subst hinsert
  have hchunks : ∀ chunk ∈ chunks, chunk.data.length ≤ staticResponseChunkMax := by
    intro chunk hchunk
    obtain ⟨msg, hmsg, rfl⟩ := List.mem_map.mp hchunk
    exact hfits msg hmsg
  have hstart : Conveying tx id chunks (s.insert id tx) _ := Conveying.start hr hnew
  obtain ⟨x, hx⟩ := hstart.run hr' hcarries.closes hchunks (hok.2 _ hs') hafter
  obtain ⟨u, y, hdrain, hy, hreceived⟩ := Conveying.drain hx.exchange hx.receiving
  refine ⟨x, u, y, hx.exchange, hdrain, hy, ?_⟩
  have hall : x.accepted = chunks := by
    rw [← hpassed, hx.accounted, hidle, List.append_nil]
  rw [hreceived, hall]
  exact hcarries.relayed

def helloChunks : List StaticResponseChunk :=
  (sendStaticControlResponse helloSite "r0" getIndex).map staticChunk

def helloRequested : StaticState := StaticState.start.requestStaticResponse getIndex

def helloDelivered : List StaticEvent :=
  helloChunks.flatMap fun chunk => [
    .deliverStaticResponse 0 "r0" chunk.data chunk.eof, .proceed 0, .proceed 0]

def helloHandled : StaticState :=
  (Machine.run StaticState.step helloRequested (.insert "r0" 0 :: helloDelivered)).getD .start

theorem hello_handled :
    Machine.run StaticState.step helloRequested (.insert "r0" 0 :: helloDelivered) =
      some helloHandled := by
  have hsome : (Machine.run StaticState.step helloRequested
      (.insert "r0" 0 :: helloDelivered)).isSome = true := by
    decide +kernel
  obtain ⟨t, ht⟩ := Option.isSome_iff_exists.mp hsome
  rw [helloHandled, ht]
  rfl

theorem hello_response_lossless :
    helloChunks.length = 3 ∧
      ∃ x u y, helloHandled.exchanges.lookup "r0" = some x ∧
        Machine.run StaticState.step helloHandled
          (List.replicate x.response.queue.length (.receive "r0")) = some u ∧
        u.exchanges.lookup "r0" = some y ∧
        relayStaticControlResponse y.received =
          .sent (helloSite.prepareControlResponse getIndex).content := by
  refine ⟨by decide +kernel, ?_⟩
  exact (static_response_lossless helloSite "r0" getIndex).2.2 0
    [.requestStaticResponse getIndex] helloDelivered helloRequested helloHandled
    (by decide +kernel) rfl (by decide +kernel) hello_handled (by decide +kernel)
    (by decide +kernel)

end Cross233.Relay
