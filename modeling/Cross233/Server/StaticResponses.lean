import Cross233.Server.Messages

namespace Cross233.Server

def staticControlMaxInFlight : Nat := 4

structure StaticExchange where
  response : PendingStaticResponse
  received : List StaticResponseChunk
  deriving DecidableEq

inductive Delivery where
  | looking (id : String) (chunk : StaticResponseChunk)
  | sending (id : String) (chunk : StaticResponseChunk)
  | cancelling (id : String)
  deriving DecidableEq

-- An entry of the pending table holds a permit and a sender; the channel outlives the entry while
-- the public side keeps the receiver or a delivery keeps a clone of the sender.
structure StaticState where
  permits : Nat
  acquiring : Nat
  pendingStatic : HashMap String Channel
  exchanges : HashMap String StaticExchange
  deliveries : HashMap Channel Delivery
  passed : List (Channel × String × StaticResponseChunk)
  deriving DecidableEq

-- The public side cancels after a failed send of the request, a timeout, an empty first chunk or a
-- failed write, and drops its receiver whenever it returns.
inductive StaticEvent where
  | requestStaticResponse (request : List UInt8)
  | insert (id : String) (owner : Channel)
  | deliverStaticResponse (tx : Channel) (id : String) (data : List UInt8) (eof : Bool)
  | proceed (tx : Channel)
  | receive (id : String)
  | cancelStaticResponse (id : String)
  | hangUp (id : String)
  | cancelStaticResponsesForControl (tx : Channel)
  deriving DecidableEq

namespace Delivery

def id : Delivery → String
  | .looking id _ => id
  | .sending id _ => id
  | .cancelling id => id

def chunk : Delivery → Option StaticResponseChunk
  | .looking _ chunk => some chunk
  | .sending _ chunk => some chunk
  | .cancelling _ => none

end Delivery

def StaticExchange.accepted (x : StaticExchange) : List StaticResponseChunk :=
  x.received ++ x.response.queue

namespace StaticState

def start : StaticState := ⟨staticControlMaxInFlight, 0, ∅, ∅, ∅, []⟩

def requestStaticResponse (s : StaticState) (request : List UInt8) : StaticState :=
  if staticResponseChunkMax < request.length then s
  else if s.permits = 0 then s
  else { s with permits := s.permits - 1, acquiring := s.acquiring + 1 }

def dropEntry (s : StaticState) (id : String) : StaticState :=
  if id ∈ s.pendingStatic then
    { s with pendingStatic := s.pendingStatic.erase id, permits := s.permits + 1 }
  else s

def insert (s : StaticState) (id : String) (owner : Channel) : StaticState :=
  let s := s.dropEntry id
  { s with
    acquiring := s.acquiring - 1
    pendingStatic := s.pendingStatic.insert id owner
    exchanges := s.exchanges.insert id ⟨⟨owner, [], true⟩, []⟩ }

def deliverStaticResponse (s : StaticState) (tx : Channel) (id : String) (data : List UInt8)
    (eof : Bool) : StaticState :=
  { s with
    passed := s.passed ++ [(tx, id, ⟨data, eof⟩)]
    deliveries := s.deliveries.insert tx
      (if staticResponseChunkMax < data.length then .cancelling id else .looking id ⟨data, eof⟩) }

def setExchange (s : StaticState) (id : String) (x : StaticExchange) : StaticState :=
  { s with exchanges := s.exchanges.insert id x }

def idle (s : StaticState) (tx : Channel) : StaticState :=
  { s with deliveries := s.deliveries.erase tx }

def busy (s : StaticState) (tx : Channel) (d : Delivery) : StaticState :=
  { s with deliveries := s.deliveries.insert tx d }

def look (s : StaticState) (tx : Channel) (id : String) (chunk : StaticResponseChunk) :
    StaticState :=
  match s.pendingStatic.lookup id with
  | some owner => if owner = tx then s.busy tx (.sending id chunk) else s.idle tx
  | none => s.idle tx

def send (s : StaticState) (tx : Channel) (id : String) (chunk : StaticResponseChunk)
    (x : StaticExchange) : StaticState :=
  match RelayState.trySend x.response chunk with
  | some response =>
    let s := s.setExchange id { x with response := response }
    if chunk.eof then s.busy tx (.cancelling id) else s.idle tx
  | none => s.busy tx (.cancelling id)

def cancelStaticResponseForControl (s : StaticState) (id : String) (tx : Channel) : StaticState :=
  if s.pendingStatic.lookup id = some tx then s.dropEntry id else s

def proceed (s : StaticState) (tx : Channel) : Delivery → Option StaticState
  | .looking id chunk => some (s.look tx id chunk)
  | .sending id chunk => do
    let x ← s.exchanges.lookup id
    some (s.send tx id chunk x)
  | .cancelling id => some ((s.cancelStaticResponseForControl id tx).idle tx)

def receive (s : StaticState) (id : String) (x : StaticExchange) : Option StaticState :=
  match x.response.queue with
  | [] => none
  | chunk :: queue =>
    if x.response.receiving then
      some (s.setExchange id ⟨{ x.response with queue := queue }, x.received ++ [chunk]⟩)
    else none

def cancelStaticResponsesForControl (s : StaticState) (tx : Channel) : StaticState :=
  { s with
    pendingStatic := s.pendingStatic.retain (· ≠ tx)
    permits := s.permits + (s.pendingStatic.entries.filter (fun e => e.2 = tx)).length }

-- One session handles its messages one after the other.
def step (s : StaticState) : StaticEvent → Option StaticState
  | .requestStaticResponse request => some (s.requestStaticResponse request)
  | .insert id owner => if s.acquiring = 0 then none else some (s.insert id owner)
  | .deliverStaticResponse tx id data eof =>
    if tx ∈ s.deliveries then none else some (s.deliverStaticResponse tx id data eof)
  | .proceed tx => do
    let d ← s.deliveries.lookup tx
    s.proceed tx d
  | .receive id => do
    let x ← s.exchanges.lookup id
    s.receive id x
  | .cancelStaticResponse id => some (s.dropEntry id)
  | .hangUp id => do
    let x ← s.exchanges.lookup id
    some (s.setExchange id { x with response := { x.response with receiving := false } })
  | .cancelStaticResponsesForControl tx =>
    if tx ∈ s.deliveries then none else some (s.cancelStaticResponsesForControl tx)

def insertsFresh (s : StaticState) : StaticEvent → Bool
  | .insert id _ => id ∉ s.exchanges && s.passed.all (fun p => p.2.1 ≠ id)
  | _ => true

def passedTo (s : StaticState) (tx : Channel) (id : String) : List StaticResponseChunk :=
  (s.passed.filter (fun p => p.1 = tx && p.2.1 = id)).map (fun p => p.2.2)

structure RelaysInOrder (s : StaticState) : Prop where
  responses : ∀ id x, s.exchanges.lookup id = some x →
    x.received <+: s.passedTo x.response.owner id ∧
      ∀ chunk ∈ x.received.dropLast, chunk.eof = false
  slots : s.permits + s.acquiring + s.pendingStatic.len = staticControlMaxInFlight

def session : StaticEvent → Option Channel
  | .deliverStaticResponse tx _ _ _ => some tx
  | .proceed tx => some tx
  | .cancelStaticResponsesForControl tx => some tx
  | _ => none

def ForeignKept (s : StaticState) (e : StaticEvent) : Prop :=
  ∀ s' tx id x, s.step e = some s' → session e = some tx → s.exchanges.lookup id = some x →
    x.response.owner ≠ tx →
    s'.exchanges.lookup id = some x ∧ s'.pendingStatic.lookup id = s.pendingStatic.lookup id

def inFlight (s : StaticState) (tx : Channel) (id : String) : List StaticResponseChunk :=
  match s.deliveries.lookup tx with
  | some d => if d.id = id then d.chunk.toList else []
  | none => []

structure Undisturbed (s : StaticState) (id : String) (x : StaticExchange) : Prop where
  accounted : s.passedTo x.response.owner id = x.accepted ++ s.inFlight x.response.owner id
  unfinished : ∀ chunk ∈ x.accepted, chunk.eof = false

structure Settled (s : StaticState) (id : String) (x : StaticExchange) : Prop where
  accounted : x.accepted <+: s.passedTo x.response.owner id
  unfinished : ∀ chunk ∈ x.accepted.dropLast, chunk.eof = false

structure Relaying (s : StaticState) : Prop where
  slots : s.permits + s.acquiring + s.pendingStatic.len = staticControlMaxInFlight
  entries : ∀ id owner, s.pendingStatic.lookup id = some owner →
    ∃ x, s.exchanges.lookup id = some x ∧ x.response.owner = owner ∧
      (s.deliveries.lookup owner ≠ some (.cancelling id) → s.Undisturbed id x)
  settled : ∀ id x, s.exchanges.lookup id = some x → s.Settled id x
  sending : ∀ tx id chunk, s.deliveries.lookup tx = some (.sending id chunk) →
    ∃ x, s.exchanges.lookup id = some x ∧ x.response.owner = tx ∧ s.Undisturbed id x
  mentioned : ∀ tx d, s.deliveries.lookup tx = some d → ∃ p ∈ s.passed, p.2.1 = d.id

variable {s s' : StaticState}

theorem Undisturbed.settled {id : String} {x : StaticExchange} (h : Undisturbed s id x) :
    Settled s id x where
  accounted := by
    rw [h.accounted]
    exact List.prefix_append _ _
  unfinished chunk hc := h.unfinished chunk (List.mem_of_mem_dropLast hc)

theorem mem_dropLast_append {A : Type} {a : A} {as bs : List A} (h : a ∈ as.dropLast) :
    a ∈ (as ++ bs).dropLast := by
  cases bs with
  | nil => rwa [List.append_nil]
  | cons b bs =>
    rw [List.dropLast_append_cons]
    exact List.mem_append_left _ (List.mem_of_mem_dropLast h)

theorem Relaying.inOrder (h : Relaying s) : RelaysInOrder s where
  responses id x hl := by
    obtain ⟨hp, he⟩ := h.settled id x hl
    have haccepted : x.received <+: x.accepted := List.prefix_append _ _
    exact ⟨haccepted.trans hp, fun chunk hc => he chunk (mem_dropLast_append hc)⟩
  slots := h.slots

theorem passedTo_append (s : StaticState) (tx : Channel) (id : String)
    (p : Channel × String × StaticResponseChunk) :
    passedTo { s with passed := s.passed ++ [p] } tx id =
      s.passedTo tx id ++ if p.1 = tx ∧ p.2.1 = id then [p.2.2] else [] := by
  simp only [passedTo, List.filter_append, List.map_append]
  by_cases h : p.1 = tx ∧ p.2.1 = id
  · simp [h]
  · rw [if_neg h, List.filter_cons_of_neg (by simpa using h)]
    rfl

theorem inFlight_of_lookup {tx : Channel} {d : Delivery} (h : s.deliveries.lookup tx = some d)
    (id : String) : s.inFlight tx id = if d.id = id then d.chunk.toList else [] := by
  rw [inFlight, h]

theorem inFlight_of_none {tx : Channel} (h : s.deliveries.lookup tx = none) (id : String) :
    s.inFlight tx id = [] := by
  rw [inFlight, h]

theorem inFlight_congr {tx : Channel} (h : s'.deliveries.lookup tx = s.deliveries.lookup tx)
    (id : String) : s'.inFlight tx id = s.inFlight tx id := by
  rw [inFlight, inFlight, h]

theorem Undisturbed.congr {id : String} {x : StaticExchange} (h : Undisturbed s id x)
    (hpassed : s'.passedTo x.response.owner id = s.passedTo x.response.owner id)
    (hflight : s'.inFlight x.response.owner id = s.inFlight x.response.owner id) :
    Undisturbed s' id x where
  accounted := by rw [hpassed, hflight, h.accounted]
  unfinished := h.unfinished

theorem Undisturbed.withExchange {id : String} {x x' : StaticExchange} (h : Undisturbed s id x)
    (howner : x'.response.owner = x.response.owner) (haccepted : x'.accepted = x.accepted) :
    Undisturbed s id x' where
  accounted := by rw [howner, haccepted, h.accounted]
  unfinished := haccepted ▸ h.unfinished

theorem Relaying.requested (h : Relaying s) (request : List UInt8) :
    Relaying (s.requestStaticResponse request) := by
  unfold requestStaticResponse
  split
  · exact h
  split
  · exact h
  · next hfree =>
    refine ⟨?_, fun id owner hl => ?_, fun id x hx => ?_, fun tx id chunk hd => ?_, h.mentioned⟩
    · have hslots := h.slots
      dsimp only
      omega
    · obtain ⟨x, hx, howner, hu⟩ := h.entries id owner hl
      exact ⟨x, hx, howner, fun hc => (hu hc).congr rfl rfl⟩
    · exact ⟨(h.settled id x hx).accounted, (h.settled id x hx).unfinished⟩
    · obtain ⟨x, hx, howner, hu⟩ := h.sending tx id chunk hd
      exact ⟨x, hx, howner, hu.congr rfl rfl⟩

theorem Relaying.drop (h : Relaying s) {pendingStatic : HashMap String Channel} {permits : Nat}
    (hslots : permits + pendingStatic.len = s.permits + s.pendingStatic.len)
    (hsub : ∀ id owner, pendingStatic.lookup id = some owner →
      s.pendingStatic.lookup id = some owner) :
    Relaying { s with pendingStatic := pendingStatic, permits := permits } := by
  refine ⟨?_, fun id owner hl => ?_, fun id x hx => ?_, fun tx id chunk hd => ?_, h.mentioned⟩
  · have hold := h.slots
    dsimp only
    omega
  · obtain ⟨x, hx, howner, hu⟩ := h.entries id owner (hsub id owner hl)
    exact ⟨x, hx, howner, fun hc => (hu hc).congr rfl rfl⟩
  · exact ⟨(h.settled id x hx).accounted, (h.settled id x hx).unfinished⟩
  · obtain ⟨x, hx, howner, hu⟩ := h.sending tx id chunk hd
    exact ⟨x, hx, howner, hu.congr rfl rfl⟩

theorem Relaying.dropEntry (h : Relaying s) (id : String) : Relaying (s.dropEntry id) := by
  unfold StaticState.dropEntry
  split
  · next hm =>
    refine h.drop ?_ (fun id' owner hl => ?_)
    · have hlen := AList.len_erase_of_mem hm
      omega
    · rw [AList.lookup_erase_eq] at hl
      split at hl
      · cases hl
      · exact hl
  · exact h

theorem Relaying.closed (h : Relaying s) (tx : Channel) :
    Relaying (s.cancelStaticResponsesForControl tx) := by
  refine h.drop ?_ (fun id owner hl => ?_)
  · have hlen := AList.len_retain s.pendingStatic (fun owner => decide (owner ≠ tx))
    have hdropped : (s.pendingStatic.entries.filter (fun e => !decide (e.2 ≠ tx))).length =
        (s.pendingStatic.entries.filter (fun e => decide (e.2 = tx))).length := by
      congr 1
      refine List.filter_congr (fun e _ => ?_)
      simp
    rw [hdropped] at hlen
    omega
  · rw [AList.lookup_retain] at hl
    exact (Option.filter_eq_some_iff.mp hl).1

theorem Relaying.withExchange (h : Relaying s) {id : String} {x x' : StaticExchange}
    (hx : s.exchanges.lookup id = some x) (howner : x'.response.owner = x.response.owner)
    (haccepted : x'.accepted = x.accepted) : Relaying (s.setExchange id x') := by
  have hlook (i : String) : (s.setExchange id x').exchanges.lookup i =
      if i = id then some x' else s.exchanges.lookup i := AList.lookup_insert_eq _ _ _ _
  refine ⟨h.slots, fun i owner hl => ?_, fun i y hy => ?_, fun tx i chunk hd => ?_, h.mentioned⟩
  · obtain ⟨y, hy, hyo, hu⟩ := h.entries i owner hl
    by_cases hi : i = id
    · subst hi
      cases hx.symm.trans hy
      refine ⟨x', by rw [hlook, if_pos rfl], howner.trans hyo, fun hc => ?_⟩
      exact ((hu hc).withExchange howner haccepted).congr rfl rfl
    · exact ⟨y, by rw [hlook, if_neg hi]; exact hy, hyo, fun hc => (hu hc).congr rfl rfl⟩
  · rw [hlook] at hy
    split at hy
    · next hi =>
      subst hi
      cases hy
      obtain ⟨ha, hf⟩ := h.settled i x hx
      refine ⟨?_, haccepted ▸ hf⟩
      rw [haccepted, howner]
      exact ha
    · exact ⟨(h.settled i y hy).accounted, (h.settled i y hy).unfinished⟩
  · obtain ⟨y, hy, hyo, hu⟩ := h.sending tx i chunk hd
    by_cases hi : i = id
    · subst hi
      cases hx.symm.trans hy
      refine ⟨x', by rw [hlook, if_pos rfl], howner.trans hyo, ?_⟩
      exact (hu.withExchange howner haccepted).congr rfl rfl
    · exact ⟨y, by rw [hlook, if_neg hi]; exact hy, hyo, hu.congr rfl rfl⟩

theorem Relaying.insert (h : Relaying s) {id : String} {owner : Channel} (ha : s.acquiring ≠ 0)
    (hnew : id ∉ s.exchanges) (hunknown : ∀ p ∈ s.passed, p.2.1 ≠ id) :
    Relaying (s.insert id owner) := by
  have habsent : id ∉ s.pendingStatic := by
    intro hm
    obtain ⟨o, hl⟩ := AList.mem_iff_lookup.mp hm
    obtain ⟨x, hx, -⟩ := h.entries id o hl
    exact hnew (AList.mem_of_lookup hx)
  have hsame : s.dropEntry id = s := if_neg habsent
  have hpassed (tx : Channel) : s.passedTo tx id = [] := by
    rw [passedTo, List.map_eq_nil_iff, List.filter_eq_nil_iff]
    intro p hp
    simp [hunknown p hp]
  have hquiet (tx : Channel) (d : Delivery) (hd : s.deliveries.lookup tx = some d) : d.id ≠ id := by
    obtain ⟨p, hp, hid⟩ := h.mentioned tx d hd
    exact hid ▸ hunknown p hp
  have hlook (i : String) :
      (s.exchanges.insert id ⟨⟨owner, [], true⟩, []⟩).lookup i =
        if i = id then some ⟨⟨owner, [], true⟩, []⟩ else s.exchanges.lookup i :=
    AList.lookup_insert_eq _ _ _ _
  have hfresh : Undisturbed s id ⟨⟨owner, [], true⟩, []⟩ := by
    refine ⟨?_, fun chunk hc => by cases hc⟩
    dsimp only
    rw [hpassed owner]
    cases hd : s.deliveries.lookup owner with
    | none => rw [inFlight_of_none hd]; rfl
    | some d => rw [inFlight_of_lookup hd, if_neg (hquiet owner d hd)]; rfl
  simp only [StaticState.insert, hsame]
  refine ⟨?_, fun i o hl => ?_, fun i x hx => ?_, fun tx i chunk hd => ?_, h.mentioned⟩
  · have hold := h.slots
    dsimp only
    rw [AList.len_insert_of_notMem owner habsent]
    omega
  · rw [AList.lookup_insert_eq] at hl
    split at hl
    · next hi =>
      cases hl
      subst hi
      exact ⟨_, by rw [hlook, if_pos rfl], rfl, fun _ => hfresh.congr rfl rfl⟩
    · next hi =>
      obtain ⟨x, hx, howner, hu⟩ := h.entries i o hl
      exact ⟨x, by rw [hlook, if_neg hi]; exact hx, howner, fun hc => (hu hc).congr rfl rfl⟩
  · rw [hlook] at hx
    split at hx
    · next hi =>
      cases hx
      subst hi
      exact ⟨hfresh.settled.accounted, hfresh.settled.unfinished⟩
    · exact ⟨(h.settled i x hx).accounted, (h.settled i x hx).unfinished⟩
  · obtain ⟨x, hx, howner, hu⟩ := h.sending tx i chunk hd
    have hi : i ≠ id := hquiet tx _ hd
    exact ⟨x, by rw [hlook, if_neg hi]; exact hx, howner, hu.congr rfl rfl⟩

theorem Relaying.deliver (h : Relaying s) {tx : Channel} (hidle : tx ∉ s.deliveries)
    (id : String) (data : List UInt8) (eof : Bool) :
    Relaying (s.deliverStaticResponse tx id data eof) := by
  have hnone : s.deliveries.lookup tx = none := AList.lookup_eq_none.mpr hidle
  let d : Delivery :=
    if staticResponseChunkMax < data.length then .cancelling id else .looking id ⟨data, eof⟩
  have hid : d.id = id := by
    simp only [d]
    split <;> rfl
  have hlook (c : Channel) : (s.deliverStaticResponse tx id data eof).deliveries.lookup c =
      if c = tx then some d else s.deliveries.lookup c := AList.lookup_insert_eq _ _ _ _
  have hpassed (c : Channel) (i : String) :
      (s.deliverStaticResponse tx id data eof).passedTo c i =
        s.passedTo c i ++ if tx = c ∧ id = i then [⟨data, eof⟩] else [] :=
    passedTo_append s c i (tx, id, ⟨data, eof⟩)
  have hother (c : Channel) (hc : c ≠ tx) (i : String) (x : StaticExchange)
      (howner : x.response.owner = c) (hu : Undisturbed s i x) :
      Undisturbed (s.deliverStaticResponse tx id data eof) i x := by
    subst howner
    refine hu.congr ?_ (inFlight_congr (by rw [hlook, if_neg hc]) i)
    rw [hpassed, if_neg (fun heq => hc heq.1.symm), List.append_nil]
  refine ⟨h.slots, fun i o hl => ?_, fun i x hx => ?_, fun c i chunk hd => ?_, fun c e hd => ?_⟩
  · obtain ⟨x, hx, howner, hu⟩ := h.entries i o hl
    refine ⟨x, hx, howner, fun hc => ?_⟩
    by_cases ho : o = tx
    · subst ho
      have hold := hu (by rw [hnone]; exact fun he => by cases he)
      refine ⟨?_, hold.unfinished⟩
      rw [hlook, if_pos rfl] at hc
      subst howner
      rw [hpassed, hold.accounted, inFlight_of_none hnone, List.append_nil,
        inFlight_of_lookup (d := d) (by rw [hlook, if_pos rfl]), hid]
      by_cases hi : id = i
      · subst hi
        simp only [d] at hc ⊢
        split at hc
        · exact absurd rfl hc
        · next hsize => simp [hsize, Delivery.chunk]
      · simp [hi]
    · exact hother o ho i x howner (hu (by rwa [hlook, if_neg ho] at hc))
  · refine ⟨?_, (h.settled i x hx).unfinished⟩
    rw [hpassed]
    exact (h.settled i x hx).accounted.trans (List.prefix_append _ _)
  · rw [hlook] at hd
    split at hd
    · simp only [d, Option.some.injEq] at hd
      split at hd <;> cases hd
    · next hc =>
      obtain ⟨x, hx, howner, hu⟩ := h.sending c i chunk hd
      exact ⟨x, hx, howner, hother c hc i x howner hu⟩
  · rw [hlook] at hd
    split at hd
    · cases hd
      exact ⟨_, List.mem_append_right _ (List.mem_singleton.mpr rfl), hid.symm⟩
    · obtain ⟨p, hp, hpid⟩ := h.mentioned c e hd
      exact ⟨p, List.mem_append_left _ hp, hpid⟩

theorem Relaying.redeliver (h : Relaying s) {tx : Channel} {deliveries : HashMap Channel Delivery}
    (hother : ∀ c, c ≠ tx → deliveries.lookup c = s.deliveries.lookup c)
    (hentries : ∀ id x, s.pendingStatic.lookup id = some tx → s.exchanges.lookup id = some x →
      x.response.owner = tx → deliveries.lookup tx ≠ some (.cancelling id) →
      Undisturbed { s with deliveries := deliveries } id x)
    (hsending : ∀ id chunk, deliveries.lookup tx = some (.sending id chunk) →
      ∃ x, s.exchanges.lookup id = some x ∧ x.response.owner = tx ∧
        Undisturbed { s with deliveries := deliveries } id x)
    (hmentioned : ∀ d, deliveries.lookup tx = some d → ∃ p ∈ s.passed, p.2.1 = d.id) :
    Relaying { s with deliveries := deliveries } := by
  have hkept (c : Channel) (hc : c ≠ tx) (i : String) (x : StaticExchange)
      (howner : x.response.owner = c) (hu : Undisturbed s i x) :
      Undisturbed { s with deliveries := deliveries } i x := by
    subst howner
    exact hu.congr rfl (inFlight_congr (hother _ hc) i)
  refine ⟨h.slots, fun i o hl => ?_, fun i x hx => ?_, fun c i chunk hd => ?_, fun c d hd => ?_⟩
  · obtain ⟨x, hx, howner, hu⟩ := h.entries i o hl
    refine ⟨x, hx, howner, fun hc => ?_⟩
    by_cases ho : o = tx
    · subst ho
      exact hentries i x hl hx howner hc
    · exact hkept o ho i x howner (hu (by rwa [← hother o ho]))
  · exact ⟨(h.settled i x hx).accounted, (h.settled i x hx).unfinished⟩
  · by_cases hc : c = tx
    · subst hc
      exact hsending i chunk hd
    · obtain ⟨x, hx, howner, hu⟩ := h.sending c i chunk ((hother c hc).symm.trans hd)
      exact ⟨x, hx, howner, hkept c hc i x howner hu⟩
  · by_cases hc : c = tx
    · subst hc
      exact hmentioned d hd
    · exact h.mentioned c d ((hother c hc).symm.trans hd)

theorem Relaying.idle (h : Relaying s) {tx : Channel}
    (hentries : ∀ id x, s.pendingStatic.lookup id = some tx → s.exchanges.lookup id = some x →
      x.response.owner = tx → s.passedTo tx id = x.accepted ∧ ∀ chunk ∈ x.accepted,
        chunk.eof = false) : Relaying (s.idle tx) := by
  have hnone : (s.idle tx).deliveries.lookup tx = none := AList.lookup_erase tx s.deliveries
  refine h.redeliver (fun c hc => AList.lookup_erase_ne hc) (fun id x hl hx howner _ => ?_)
    (fun id chunk hd => ?_) (fun d hd => ?_)
  · obtain ⟨hpassed, heof⟩ := hentries id x hl hx howner
    refine ⟨?_, heof⟩
    have hflight : (s.idle tx).inFlight tx id = [] := inFlight_of_none hnone id
    rw [howner]
    exact hpassed.trans ((congrArg (x.accepted ++ ·) hflight).trans (List.append_nil _)).symm
  · cases hnone.symm.trans hd
  · cases hnone.symm.trans hd

theorem Relaying.untouched (h : Relaying s) {tx : Channel} {d : Delivery} {id : String}
    {x : StaticExchange} (hd : s.deliveries.lookup tx = some d) (hid : d.id ≠ id)
    (hl : s.pendingStatic.lookup id = some tx) (hx : s.exchanges.lookup id = some x) :
    s.passedTo tx id = x.accepted ∧ ∀ chunk ∈ x.accepted, chunk.eof = false := by
  obtain ⟨y, hy, howner, hu⟩ := h.entries id tx hl
  cases hx.symm.trans hy
  have hold := hu (by rw [hd]; rintro ⟨rfl⟩; exact hid rfl)
  refine ⟨?_, hold.unfinished⟩
  rw [← howner, hold.accounted, howner, inFlight_of_lookup hd, if_neg hid, List.append_nil]

theorem Relaying.look (h : Relaying s) {tx : Channel} {id : String} {chunk : StaticResponseChunk}
    (hd : s.deliveries.lookup tx = some (.looking id chunk)) : Relaying (s.look tx id chunk) := by
  have hidle (hgone : s.pendingStatic.lookup id ≠ some tx) : Relaying (s.idle tx) := by
    refine h.idle (fun i x hl hx _ => h.untouched hd ?_ hl hx)
    rintro rfl
    exact hgone hl
  unfold StaticState.look
  split
  · next owner hl =>
    split
    · next ho =>
      subst ho
      have hnew : (s.busy owner (.sending id chunk)).deliveries.lookup owner =
          some (.sending id chunk) := AList.lookup_insert _
      have hflight (i : String) :
          (s.busy owner (.sending id chunk)).inFlight owner i = s.inFlight owner i := by
        rw [inFlight_of_lookup hnew, inFlight_of_lookup hd]
        rfl
      have hkept (i : String) (x : StaticExchange) (hli : s.pendingStatic.lookup i = some owner)
          (hx : s.exchanges.lookup i = some x) :
          Undisturbed (s.busy owner (.sending id chunk)) i x := by
        obtain ⟨y, hy, howner, hu⟩ := h.entries i owner hli
        cases hx.symm.trans hy
        have hold := hu (by rw [hd]; exact fun he => by cases he)
        exact hold.congr rfl (howner ▸ hflight i)
      refine h.redeliver (fun c hc => AList.lookup_insert_ne hc)
        (fun i x hli hx _ _ => hkept i x hli hx) (fun i c hs => ?_) (fun d hs => ?_)
      · cases hnew.symm.trans hs
        obtain ⟨x, hx, howner, -⟩ := h.entries id owner hl
        exact ⟨x, hx, howner, hkept id x hl hx⟩
      · cases hnew.symm.trans hs
        obtain ⟨p, hp, hid⟩ := h.mentioned owner _ hd
        exact ⟨p, hp, hid⟩
    · next ho => exact hidle (fun he => ho (Option.some.inj (hl.symm.trans he)))
  · next hl => exact hidle (fun he => by cases hl.symm.trans he)

-- While a session is cancelling its request, the request's entry promises nothing more.
theorem Relaying.doomed (h : Relaying s) {tx : Channel} {id : String}
    {chunk : StaticResponseChunk} (hd : s.deliveries.lookup tx = some (.sending id chunk)) :
    Relaying (s.busy tx (.cancelling id)) := by
  have hnew : (s.busy tx (.cancelling id)).deliveries.lookup tx = some (.cancelling id) :=
    AList.lookup_insert _
  refine h.redeliver (fun c hc => AList.lookup_insert_ne hc) (fun i x hl hx howner hc => ?_)
    (fun i c hs => ?_) (fun d hs => ?_)
  · obtain ⟨y, hy, -, hu⟩ := h.entries i tx hl
    cases hx.symm.trans hy
    refine (hu (by rw [hd]; exact fun he => by cases he)).congr rfl ?_
    have hi : i ≠ id := fun he => hc (hnew.trans (by rw [he]))
    rw [howner]
    refine (inFlight_of_lookup (s := s.busy tx (.cancelling id)) hnew i).trans ?_
    simp [inFlight_of_lookup hd, Delivery.id, Ne.symm hi]
  · cases hnew.symm.trans hs
  · cases hnew.symm.trans hs
    obtain ⟨p, hp, hid⟩ := h.mentioned tx _ hd
    exact ⟨p, hp, hid⟩

theorem Relaying.accept (h : Relaying s) {tx : Channel} {id : String} {x x' : StaticExchange}
    {chunk : StaticResponseChunk} (hd : s.deliveries.lookup tx = some (.cancelling id))
    (hx : s.exchanges.lookup id = some x) (howner : x.response.owner = tx)
    (howner' : x'.response.owner = tx) (haccepted : x'.accepted = x.accepted ++ [chunk])
    (hpassed : s.passedTo tx id = x.accepted ++ [chunk])
    (heof : ∀ c ∈ x.accepted, c.eof = false) : Relaying (s.setExchange id x') := by
  have hlook (i : String) : (s.setExchange id x').exchanges.lookup i =
      if i = id then some x' else s.exchanges.lookup i := AList.lookup_insert_eq _ _ _ _
  refine ⟨h.slots, fun i o hl => ?_, fun i y hy => ?_, fun c i ch hs => ?_, h.mentioned⟩
  · obtain ⟨y, hy, hyo, hu⟩ := h.entries i o hl
    by_cases hi : i = id
    · subst hi
      cases hx.symm.trans hy
      refine ⟨x', by rw [hlook, if_pos rfl], howner'.trans (howner.symm.trans hyo), fun hc => ?_⟩
      exact absurd hd (hyo.symm.trans howner ▸ hc)
    · exact ⟨y, by rw [hlook, if_neg hi]; exact hy, hyo, fun hc => (hu hc).congr rfl rfl⟩
  · rw [hlook] at hy
    split at hy
    · next hi =>
      cases hy
      subst hi
      refine ⟨?_, ?_⟩
      · rw [haccepted, howner']
        exact hpassed ▸ List.prefix_rfl
      · rw [haccepted, List.dropLast_concat]
        exact heof
    · exact ⟨(h.settled i y hy).accounted, (h.settled i y hy).unfinished⟩
  · obtain ⟨y, hy, hyo, hu⟩ := h.sending c i ch hs
    have hi : i ≠ id := by
      rintro rfl
      cases hx.symm.trans hy
      cases (hyo.symm.trans howner ▸ hs).symm.trans hd
    exact ⟨y, by rw [hlook, if_neg hi]; exact hy, hyo, hu.congr rfl rfl⟩

theorem trySend_accepted {x : StaticExchange} {chunk : StaticResponseChunk}
    {response : PendingStaticResponse} (h : RelayState.trySend x.response chunk = some response) :
    response.owner = x.response.owner ∧
      StaticExchange.accepted { x with response := response } = x.accepted ++ [chunk] := by
  unfold RelayState.trySend at h
  split at h
  · cases h
    exact ⟨rfl, (List.append_assoc _ _ _).symm⟩
  · cases h

theorem Relaying.send (h : Relaying s) {tx : Channel} {id : String} {x : StaticExchange}
    {chunk : StaticResponseChunk} (hd : s.deliveries.lookup tx = some (.sending id chunk))
    (hx : s.exchanges.lookup id = some x) : Relaying (s.send tx id chunk x) := by
  obtain ⟨y, hy, howner, hu⟩ := h.sending tx id chunk hd
  cases hx.symm.trans hy
  have hdoomed := h.doomed hd
  have hpassed : s.passedTo tx id = x.accepted ++ [chunk] := by
    have hall := hu.accounted
    rw [howner, inFlight_of_lookup hd] at hall
    simpa [Delivery.id, Delivery.chunk] using hall
  unfold StaticState.send
  split
  · next response hsend =>
    obtain ⟨hresponse, haccepted⟩ := trySend_accepted hsend
    have hnew : Relaying ((s.busy tx (.cancelling id)).setExchange id
        { x with response := response }) :=
      hdoomed.accept (AList.lookup_insert _) hx howner (hresponse.trans howner) haccepted hpassed
        hu.unfinished
    dsimp only
    split
    · exact hnew
    · next heof =>
      have hidle : (s.setExchange id { x with response := response }).idle tx =
          ((s.busy tx (.cancelling id)).setExchange id
            { x with response := response }).idle tx := by
        simp only [StaticState.idle, busy, setExchange, AList.erase_insert_same]
      rw [hidle]
      refine hnew.idle (fun i z hl hz _ => ?_)
      dsimp only [setExchange] at hz
      rw [AList.lookup_insert_eq] at hz
      split at hz
      · next hi =>
        cases hz
        subst hi
        refine ⟨hpassed.trans haccepted.symm, fun c hc => ?_⟩
        rw [haccepted] at hc
        rcases List.mem_append.mp hc with hc | hc
        · exact hu.unfinished c hc
        · rw [List.mem_singleton.mp hc]
          exact Bool.eq_false_iff.mpr heof
      · next hi => exact h.untouched hd (Ne.symm hi) hl hz
  · exact hdoomed

theorem dropEntry_kept (s : StaticState) (id : String) :
    (s.dropEntry id).exchanges = s.exchanges ∧ (s.dropEntry id).deliveries = s.deliveries ∧
      (s.dropEntry id).passed = s.passed ∧
      ∀ i, (s.dropEntry id).pendingStatic.lookup i =
        if i = id then none else s.pendingStatic.lookup i := by
  unfold StaticState.dropEntry
  split
  · exact ⟨rfl, rfl, rfl, fun i => AList.lookup_erase_eq _ _ _⟩
  · next hm =>
    refine ⟨rfl, rfl, rfl, fun i => ?_⟩
    split
    · next hi => rw [hi, AList.lookup_eq_none.mpr hm]
    · rfl

theorem Relaying.cancelled (h : Relaying s) {tx : Channel} {id : String}
    (hd : s.deliveries.lookup tx = some (.cancelling id)) :
    Relaying ((s.cancelStaticResponseForControl id tx).idle tx) := by
  unfold cancelStaticResponseForControl
  split
  · obtain ⟨hexchanges, hdeliveries, -, hpending⟩ := dropEntry_kept s id
    refine (h.dropEntry id).idle (fun i x hl hx _ => ?_)
    refine (h.dropEntry id).untouched (hdeliveries ▸ hd) ?_ hl hx
    rintro rfl
    rw [hpending, Delivery.id, if_pos rfl] at hl
    cases hl
  · next hgone =>
    refine h.idle (fun i x hl hx _ => h.untouched hd ?_ hl hx)
    rintro rfl
    exact hgone hl

theorem Relaying.proceed (h : Relaying s) {tx : Channel} {d : Delivery}
    (hd : s.deliveries.lookup tx = some d) (hs : s.proceed tx d = some s') : Relaying s' := by
  cases d with
  | looking id chunk =>
    cases hs
    exact h.look hd
  | sending id chunk =>
    obtain ⟨x, hx, hs⟩ := Option.bind_eq_some_iff.mp hs
    cases hs
    exact h.send hd hx
  | cancelling id =>
    cases hs
    exact h.cancelled hd

theorem Relaying.receive (h : Relaying s) {id : String} {x : StaticExchange}
    (hx : s.exchanges.lookup id = some x) (hs : s.receive id x = some s') : Relaying s' := by
  unfold StaticState.receive at hs
  split at hs
  · cases hs
  · next chunk queue hq =>
    split at hs
    · cases hs
      refine h.withExchange hx rfl ?_
      simp [StaticExchange.accepted, hq]
    · cases hs

theorem Relaying.step (h : Relaying s) {e : StaticEvent} (hfresh : s.insertsFresh e = true)
    (hs : s.step e = some s') : Relaying s' := by
  cases e with
  | requestStaticResponse request =>
    cases hs
    exact h.requested request
  | insert id owner =>
    simp only [StaticState.step] at hs
    split at hs
    · cases hs
    · next ha =>
      cases hs
      simp only [insertsFresh, Bool.and_eq_true, decide_eq_true_eq, List.all_eq_true] at hfresh
      exact h.insert ha hfresh.1 hfresh.2
  | deliverStaticResponse tx id data eof =>
    simp only [StaticState.step] at hs
    split at hs
    · cases hs
    · next hidle =>
      cases hs
      exact h.deliver hidle id data eof
  | proceed tx =>
    obtain ⟨d, hd, hs⟩ := Option.bind_eq_some_iff.mp hs
    exact h.proceed hd hs
  | receive id =>
    obtain ⟨x, hx, hs⟩ := Option.bind_eq_some_iff.mp hs
    exact h.receive hx hs
  | cancelStaticResponse id =>
    cases hs
    exact h.dropEntry id
  | hangUp id =>
    obtain ⟨x, hx, hs⟩ := Option.bind_eq_some_iff.mp hs
    cases hs
    exact h.withExchange hx rfl rfl
  | cancelStaticResponsesForControl tx =>
    simp only [StaticState.step] at hs
    split at hs
    · cases hs
    · cases hs
      exact h.closed tx

theorem Relaying.entry_owner (h : Relaying s) {id : String} {x : StaticExchange} {owner : Channel}
    (hx : s.exchanges.lookup id = some x) (hl : s.pendingStatic.lookup id = some owner) :
    x.response.owner = owner := by
  obtain ⟨y, hy, howner, -⟩ := h.entries id owner hl
  cases hx.symm.trans hy
  exact howner

theorem send_kept (s : StaticState) (tx : Channel) {id i : String} (hi : i ≠ id)
    (chunk : StaticResponseChunk) (x : StaticExchange) :
    (s.send tx id chunk x).exchanges.lookup i = s.exchanges.lookup i ∧
      (s.send tx id chunk x).pendingStatic = s.pendingStatic := by
  unfold StaticState.send
  split
  · dsimp only
    split
    · exact ⟨AList.lookup_insert_ne hi, rfl⟩
    · exact ⟨AList.lookup_insert_ne hi, rfl⟩
  · exact ⟨rfl, rfl⟩

theorem Relaying.proceed_foreign (h : Relaying s) {tx : Channel} {d : Delivery} {id : String}
    {x : StaticExchange} (hd : s.deliveries.lookup tx = some d) (hs : s.proceed tx d = some s')
    (hx : s.exchanges.lookup id = some x) (howner : x.response.owner ≠ tx) :
    s'.exchanges.lookup id = some x ∧
      s'.pendingStatic.lookup id = s.pendingStatic.lookup id := by
  cases d with
  | looking i chunk =>
    cases hs
    unfold StaticState.look
    split
    · split <;> exact ⟨hx, rfl⟩
    · exact ⟨hx, rfl⟩
  | sending i chunk =>
    obtain ⟨y, hy, hs⟩ := Option.bind_eq_some_iff.mp hs
    cases hs
    obtain ⟨z, hz, hzo, -⟩ := h.sending tx i chunk hd
    have hi : id ≠ i := by
      rintro rfl
      cases hx.symm.trans hz
      exact howner hzo
    obtain ⟨hexchange, hpending⟩ := send_kept s tx hi chunk y
    exact ⟨hexchange.trans hx, by rw [hpending]⟩
  | cancelling i =>
    cases hs
    unfold cancelStaticResponseForControl
    split
    · next hl =>
      have hi : id ≠ i := by
        rintro rfl
        exact howner (h.entry_owner hx hl)
      obtain ⟨hexchanges, -, -, hpending⟩ := dropEntry_kept s i
      refine ⟨?_, (hpending id).trans (if_neg hi)⟩
      exact (congrArg (AList.lookup id) hexchanges).trans hx
    · exact ⟨hx, rfl⟩

theorem Relaying.foreign (h : Relaying s) (e : StaticEvent) : s.ForeignKept e := by
  intro s' tx id x hs hsession hx howner
  cases e with
  | requestStaticResponse | insert | receive | cancelStaticResponse | hangUp => cases hsession
  | deliverStaticResponse c i data eof =>
    cases hsession
    simp only [StaticState.step] at hs
    split at hs
    · cases hs
    · cases hs
      exact ⟨hx, rfl⟩
  | proceed c =>
    cases hsession
    obtain ⟨d, hd, hs⟩ := Option.bind_eq_some_iff.mp hs
    exact h.proceed_foreign hd hs hx howner
  | cancelStaticResponsesForControl c =>
    cases hsession
    simp only [StaticState.step] at hs
    split at hs
    · cases hs
    · cases hs
      refine ⟨hx, ?_⟩
      simp only [StaticState.cancelStaticResponsesForControl, AList.lookup_retain]
      cases hl : s.pendingStatic.lookup id with
      | none => rfl
      | some owner =>
        have ho : owner ≠ tx := h.entry_owner hx hl ▸ howner
        simp [ho]

theorem start_relaying : Relaying start := by
  refine ⟨rfl, ?_, ?_, ?_, ?_⟩
  · intro id owner hl
    cases hl
  · intro id x hx
    cases hx
  · intro tx id chunk hd
    cases hd
  · intro tx d hd
    cases hd

theorem static_responses_relayed_in_order (events : List StaticEvent)
    (hfresh : Machine.Along step (fun s e => s.insertsFresh e = true) start events) :
    Machine.Always step RelaysInOrder start events ∧
      Machine.Along step ForeignKept start events := by
  refine ⟨Machine.always_of_along (I := Relaying) ?_ ?_ start_relaying hfresh,
    Machine.along_invariant (I := Relaying) ?_ ?_ start_relaying hfresh⟩
  · exact fun s e s' h hf hs => h.step hf hs
  · exact fun s h => h.inOrder
  · exact fun s e s' h hf hs => h.step hf hs
  · exact fun s e h _ => h.foreign e

def twoChunks : List StaticEvent :=
  [.requestStaticResponse [71], .insert "r0" 0, .deliverStaticResponse 1 "r0" [9] false,
    .deliverStaticResponse 0 "r0" [1] false, .proceed 1, .proceed 0, .proceed 0,
    .deliverStaticResponse 0 "r0" [2] true, .receive "r0", .proceed 0, .proceed 0, .proceed 0,
    .deliverStaticResponse 0 "r0" [3] false, .proceed 0, .receive "r0"]

theorem two_chunks_relayed :
    (Machine.Always step RelaysInOrder start twoChunks ∧
      Machine.Along step ForeignKept start twoChunks) ∧
    (Machine.run step start twoChunks).map (fun s =>
        ((s.exchanges.lookup "r0").map StaticExchange.received, s.permits, s.pendingStatic.len)) =
      some (some [⟨[1], false⟩, ⟨[2], true⟩], 4, 0) :=
  ⟨static_responses_relayed_in_order twoChunks (by decide +kernel), by decide +kernel⟩

end StaticState

end Cross233.Server
