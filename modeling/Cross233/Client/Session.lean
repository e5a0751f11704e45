import Cross233.Library.Machine
import Cross233.Library.Text
import Cross233.Protocol.Msg

namespace Cross233.Client

open Protocol

def staticControlRequestBytes : Nat := 8 * 1024

def staticControlMaxInFlight : Nat := 4

structure ClientConfig where
  services : List Service

def ClientConfig.enabledServices (config : ClientConfig) : List Service :=
  config.services.filter Service.isEnabled

def staticServiceRoots (services : List Service) : HashMap String String :=
  (services.filter (fun svc => svc.effectiveType = "static")).foldl
    (fun roots svc => roots.insert svc.name svc.localAddr) ∅

-- Health checks run for the services of the ready message, which the server wrote.
def healthCheckTargets (assigned : List Service) : List String :=
  (assigned.filter (fun svc => svc.effectiveType ≠ "static" &&
    svc.healthCheck.any (fun ty => ty ≠ ""))).map Service.localAddr

structure ClientSession where
  config : ClientConfig
  roots : HashMap String String
  healthChecks : List String
  inFlight : Nat
  live : Bool
  outbox : List Message
  connected : List String
  served : List String

inductive ClientInput where
  | message (msg : Message) (tunnelOpens : Bool)
  | healthTick (addr : String)
  | staticResponseSent

namespace ClientSession

def start (config : ClientConfig) (ready : Message) : ClientSession where
  config := config
  roots := staticServiceRoots config.enabledServices
  healthChecks := healthCheckTargets ready.services
  inFlight := 0
  live := true
  outbox := []
  connected := []
  served := []

def connect (s : ClientSession) (addr : String) : ClientSession :=
  { s with connected := s.connected ++ [addr] }

def serve (s : ClientSession) (root : String) : ClientSession :=
  { s with served := s.served ++ [root] }

-- A static service is served once the tunnel is there; otherwise the local side comes first.
def handleOpen (s : ClientSession) (svc : Service) (tunnelOpens : Bool) : ClientSession :=
  if svc.effectiveType = "static" then
    if tunnelOpens then s.serve svc.localAddr else s
  else s.connect svc.localAddr

def handleStaticRequest (s : ClientSession) (msg : Message) : ClientSession :=
  if msg.id.getD "" = "" ∨ staticControlRequestBytes < (msg.data.getD []).length then s
  else
    match s.roots.lookup (msg.serviceName.getD "") with
    | none => s
    | some root =>
      if s.inFlight < staticControlMaxInFlight then
        { s with inFlight := s.inFlight + 1 }.serve root
      else s

def isFatal (err : String) : Bool :=
  Text.contains "auth".toList err.toList || Text.contains "fatal".toList err.toList

def handleMessage (s : ClientSession) (msg : Message) (tunnelOpens : Bool) : ClientSession :=
  match msg.ty with
  | "ping" => { s with outbox := s.outbox ++ [.newPong] }
  | "pong" => s
  | "error" => if isFatal (msg.error.getD "unknown") then { s with live := false } else s
  | "open" =>
    match msg.service with
    | some svc => s.handleOpen svc tunnelOpens
    | none => s
  | "static_request" => s.handleStaticRequest msg
  | "udp_response" => s
  | "bye" => { s with live := false }
  | "close" => { s with live := false }
  | _ => s

def step (s : ClientSession) (input : ClientInput) : Option ClientSession :=
  if s.live = false then none
  else
    match input with
    | .message msg tunnelOpens => some (s.handleMessage msg tunnelOpens)
    | .healthTick addr => if addr ∈ s.healthChecks then some (s.connect addr) else none
    | .staticResponseSent => some { s with inFlight := s.inFlight - 1 }

end ClientSession

namespace ClientConfig

def ownsAddress (config : ClientConfig) (addr : String) : Bool :=
  config.enabledServices.any (fun svc => svc.effectiveType ≠ "static" && svc.localAddr = addr)

def ownsDirectory (config : ClientConfig) (dir : String) : Bool :=
  config.enabledServices.any (fun svc => svc.effectiveType = "static" && svc.localAddr = dir)

end ClientConfig

namespace ClientSession

structure ExposesOwn (s : ClientSession) : Prop where
  connected : ∀ addr ∈ s.connected, ∃ svc ∈ s.config.enabledServices,
    svc.effectiveType ≠ "static" ∧ svc.localAddr = addr
  served : ∀ dir ∈ s.served, ∃ svc ∈ s.config.enabledServices,
    svc.effectiveType = "static" ∧ svc.localAddr = dir

def opensOwn (s : ClientSession) : ClientInput → Bool
  | .message msg tunnelOpens =>
    !s.live || msg.ty ≠ "open" || msg.service.all fun svc =>
      if svc.effectiveType = "static" then !tunnelOpens || s.config.ownsDirectory svc.localAddr
      else s.config.ownsAddress svc.localAddr
  | .healthTick addr => !s.live || addr ∉ s.healthChecks || s.config.ownsAddress addr
  | .staticResponseSent => true

variable {s s' : ClientSession}

theorem ownsAddress_iff (config : ClientConfig) (addr : String) :
    config.ownsAddress addr = true ↔ ∃ svc ∈ config.enabledServices,
      svc.effectiveType ≠ "static" ∧ svc.localAddr = addr := by
  simp [ClientConfig.ownsAddress]

theorem ownsDirectory_iff (config : ClientConfig) (dir : String) :
    config.ownsDirectory dir = true ↔ ∃ svc ∈ config.enabledServices,
      svc.effectiveType = "static" ∧ svc.localAddr = dir := by
  simp [ClientConfig.ownsDirectory]

theorem connect_own_iff (h : ExposesOwn s) (addr : String) :
    ExposesOwn (s.connect addr) ↔ s.config.ownsAddress addr = true := by
  rw [ownsAddress_iff]
  constructor
  · exact fun h' => h'.connected addr (by simp [connect])
  · intro hown
    refine ⟨fun a ha => ?_, h.served⟩
    rcases List.mem_append.mp ha with ha | ha
    · exact h.connected a ha
    · rw [List.mem_singleton.mp ha]
      exact hown

theorem serve_own_iff (h : ExposesOwn s) (dir : String) :
    ExposesOwn (s.serve dir) ↔ s.config.ownsDirectory dir = true := by
  rw [ownsDirectory_iff]
  constructor
  · exact fun h' => h'.served dir (by simp [serve])
  · intro hown
    refine ⟨h.connected, fun d hd => ?_⟩
    rcases List.mem_append.mp hd with hd | hd
    · exact h.served d hd
    · rw [List.mem_singleton.mp hd]
      exact hown

theorem staticServiceRoots_own {services : List Service} {name root : String}
    (h : (staticServiceRoots services).lookup name = some root) :
    ∃ svc ∈ services, svc.effectiveType = "static" ∧ svc.localAddr = root := by
  have hfold (list : List Service) (roots : HashMap String String)
      (h : (list.foldl (fun roots svc => roots.insert svc.name svc.localAddr) roots).lookup name =
        some root) : roots.lookup name = some root ∨ ∃ svc ∈ list, svc.localAddr = root := by
    induction list generalizing roots with
    | nil => exact Or.inl h
    | cons svc list ih =>
      rcases ih (roots.insert svc.name svc.localAddr) h with hl | ⟨svc', hs, hr⟩
      · rw [AList.lookup_insert_eq] at hl
        split at hl
        · exact Or.inr ⟨svc, List.mem_cons_self, Option.some.inj hl⟩
        · exact Or.inl hl
      · exact Or.inr ⟨svc', List.mem_cons_of_mem _ hs, hr⟩
  rcases hfold _ ∅ h with hl | ⟨svc, hs, hr⟩
  · cases hl
  · obtain ⟨hs, ht⟩ := List.mem_filter.mp hs
    exact ⟨svc, hs, of_decide_eq_true ht, hr⟩

structure SameConfig (s s' : ClientSession) : Prop where
  config : s'.config = s.config
  roots : s'.roots = s.roots

theorem handleStaticRequest_same (s : ClientSession) (msg : Message) :
    SameConfig s (s.handleStaticRequest msg) := by
  unfold handleStaticRequest
  split
  · exact ⟨rfl, rfl⟩
  · split
    · exact ⟨rfl, rfl⟩
    · split <;> exact ⟨rfl, rfl⟩

theorem handleOpen_same (s : ClientSession) (svc : Service) (tunnelOpens : Bool) :
    SameConfig s (s.handleOpen svc tunnelOpens) := by
  unfold handleOpen
  split
  · split <;> exact ⟨rfl, rfl⟩
  · exact ⟨rfl, rfl⟩

theorem handleMessage_same (s : ClientSession) (msg : Message) (tunnelOpens : Bool) :
    SameConfig s (s.handleMessage msg tunnelOpens) := by
  unfold handleMessage
  split
  · exact ⟨rfl, rfl⟩
  · exact ⟨rfl, rfl⟩
  · split <;> exact ⟨rfl, rfl⟩
  · split
    · exact handleOpen_same s _ tunnelOpens
    · exact ⟨rfl, rfl⟩
  · exact handleStaticRequest_same s msg
  · exact ⟨rfl, rfl⟩
  · exact ⟨rfl, rfl⟩
  · exact ⟨rfl, rfl⟩
  · exact ⟨rfl, rfl⟩

theorem step_same {input : ClientInput} (hs : s.step input = some s') : SameConfig s s' := by
  unfold step at hs
  split at hs
  · cases hs
  · cases input with
    | message msg tunnelOpens =>
      cases hs
      exact handleMessage_same s msg tunnelOpens
    | healthTick addr =>
      dsimp only at hs
      split at hs
      · cases hs
        exact ⟨rfl, rfl⟩
      · cases hs
    | staticResponseSent =>
      cases hs
      exact ⟨rfl, rfl⟩

def OwnRoots (s : ClientSession) : Prop :=
  ∀ name root, s.roots.lookup name = some root → s.config.ownsDirectory root = true

-- The name is resolved against the client's own configuration, so no condition is needed here.
theorem ExposesOwn.staticRequest (h : ExposesOwn s) (hr : OwnRoots s) (msg : Message) :
    ExposesOwn (s.handleStaticRequest msg) := by
  unfold handleStaticRequest
  split
  · exact h
  · split
    · exact h
    · next root hl =>
      split
      · have hs : ExposesOwn { s with inFlight := s.inFlight + 1 } := ⟨h.connected, h.served⟩
        exact (serve_own_iff hs root).mpr (hr _ root hl)
      · exact h

theorem handleOpen_own_iff (h : ExposesOwn s) (svc : Service) (tunnelOpens : Bool) :
    ExposesOwn (s.handleOpen svc tunnelOpens) ↔
      (if svc.effectiveType = "static" then !tunnelOpens || s.config.ownsDirectory svc.localAddr
        else s.config.ownsAddress svc.localAddr) = true := by
  unfold handleOpen
  split
  · cases tunnelOpens with
    | false => exact iff_of_true h rfl
    | true => exact serve_own_iff h svc.localAddr
  · exact connect_own_iff h svc.localAddr

theorem message_own_iff (h : ExposesOwn s) (hr : OwnRoots s) (hlive : s.live = true)
    (msg : Message) (tunnelOpens : Bool) :
    ExposesOwn (s.handleMessage msg tunnelOpens) ↔
      s.opensOwn (.message msg tunnelOpens) = true := by
  unfold handleMessage
  split
  · next hty => exact iff_of_true ⟨h.connected, h.served⟩ (by simp [opensOwn, hty])
  · next hty => exact iff_of_true h (by simp [opensOwn, hty])
  · next hty =>
    refine iff_of_true ?_ (by simp [opensOwn, hty])
    split
    · exact ⟨h.connected, h.served⟩
    · exact h
  · next hty =>
    split
    · next svc hsvc =>
      rw [handleOpen_own_iff h]
      simp only [opensOwn, hlive, hty, hsvc, Bool.not_true, ne_eq, not_true_eq_false, decide_false,
        Bool.false_or, Option.all_some]
    · next hsvc => exact iff_of_true h (by simp [opensOwn, hsvc])
  · next hty => exact iff_of_true (h.staticRequest hr msg) (by simp [opensOwn, hty])
  · next hty => exact iff_of_true h (by simp [opensOwn, hty])
  · next hty => exact iff_of_true ⟨h.connected, h.served⟩ (by simp [opensOwn, hty])
  · next hty => exact iff_of_true ⟨h.connected, h.served⟩ (by simp [opensOwn, hty])
  · next _ _ _ hopen _ _ _ _ =>
    have hne : msg.ty ≠ "open" := hopen
    exact iff_of_true h (by simp [opensOwn, hne])

theorem step_own_iff (h : ExposesOwn s) (hr : OwnRoots s) {input : ClientInput}
    (hs : s.step input = some s') : ExposesOwn s' ↔ s.opensOwn input = true := by
  unfold step at hs
  split at hs
  · cases hs
  · next hlive =>
    cases input with
    | message msg tunnelOpens =>
      cases hs
      exact message_own_iff h hr (by simpa using hlive) msg tunnelOpens
    | healthTick addr =>
      dsimp only at hs
      split at hs
      · next hm =>
        cases hs
        rw [connect_own_iff h]
        simp [opensOwn, hm, hlive]
      · cases hs
    | staticResponseSent =>
      cases hs
      exact iff_of_true ⟨h.connected, h.served⟩ rfl

theorem opensOwn_of_blocked {input : ClientInput} (hs : s.step input = none) :
    s.opensOwn input = true := by
  unfold step at hs
  split at hs
  · next hdead =>
    cases input with
    | message | healthTick => simp [opensOwn, hdead]
    | staticResponseSent => rfl
  · cases input with
    | message | staticResponseSent => cases hs
    | healthTick addr =>
      dsimp only at hs
      split at hs
      · cases hs
      · next hm => simp [opensOwn, hm]

theorem client_exposes_own_iff (config : ClientConfig) (ready : Message)
    (inputs : List ClientInput) :
    Machine.Always step ExposesOwn (start config ready) inputs ↔
      Machine.Along step (fun s input => s.opensOwn input = true) (start config ready) inputs := by
  have hstart : ExposesOwn (start config ready) := by
    refine ⟨?_, ?_⟩
    · intro addr ha
      cases ha
    · intro dir hd
      cases hd
  have hroots : OwnRoots (start config ready) := fun name root hl =>
    (ownsDirectory_iff _ root).mpr (staticServiceRoots_own hl)
  have hkeep (s s' : ClientSession) (input : ClientInput) (hr : OwnRoots s)
      (hs : s.step input = some s') : OwnRoots s' := by
    obtain ⟨hc, hroots⟩ := step_same hs
    intro name root hl
    rw [hc]
    exact hr name root (hroots ▸ hl)
  constructor
  · refine Machine.along_of_always (I := OwnRoots) ?_ ?_ ?_ hroots
    · exact fun s input s' hr _ _ hs => hkeep s s' input hr hs
    · exact fun s input s' hr h hs h' => (step_own_iff h hr hs).mp h'
    · exact fun s input _ hs => opensOwn_of_blocked hs
  · refine Machine.always_of_along (I := fun s => OwnRoots s ∧ ExposesOwn s) ?_ (fun s hs => hs.2)
      ⟨hroots, hstart⟩
    rintro s input s' ⟨hr, h⟩ hc hs
    exact ⟨hkeep s s' input hr hs, (step_own_iff h hr hs).mpr hc⟩

def webConfig : ClientConfig := ⟨[{ name := "web", localAddr := "127.0.0.1:3000" }]⟩

def sshService : Service := { name := "web", localAddr := "127.0.0.1:22" }

def openForeign : ClientInput :=
  .message { ty := "open", id := some "t1", service := some sshService } true

theorem open_reaches_foreign_address :
    (Machine.run step (start webConfig { ty := "ready" }) [openForeign]).map
        ClientSession.connected = some ["127.0.0.1:22"] ∧
      webConfig.ownsAddress "127.0.0.1:22" = false ∧
      ¬Machine.Always step ExposesOwn (start webConfig { ty := "ready" }) [openForeign] := by
  refine ⟨by decide +kernel, by decide +kernel, fun h => ?_⟩
  have hown := (h.2 _ rfl).connected "127.0.0.1:22" (by decide +kernel)
  have hnot : webConfig.ownsAddress "127.0.0.1:22" = false := by decide +kernel
  rw [(ownsAddress_iff webConfig _).mpr hown] at hnot
  cases hnot

end ClientSession

end Cross233.Client
