import Cross233.Library.HashMap
import Cross233.Library.Machine
import Cross233.Library.Text

namespace Cross233.Server

-- What the dashboard reads of the server's configuration, which no request changes.
structure WebConfig where
  webUser : String := ""
  webPassword : String := ""
  apiToken : String := ""
  deriving DecidableEq

structure WebRequest where
  headers : List (String × List UInt8)
  query : Option String
  deriving DecidableEq

-- A value with a byte that is not visible ASCII has no text.
def headerText (value : List UInt8) : Option (List Char) :=
  if value.all (fun b => b = 9 || (32 ≤ b && b < 127)) then
    some (value.map (fun b => Char.ofNat b.toNat))
  else none

def WebRequest.header (req : WebRequest) (name : String) : Option (List Char) :=
  (req.headers.lookup name).bind headerText

def checkApiToken (req : WebRequest) (apiToken : String) : Bool :=
  if apiToken = "" then false
  else
    match (req.header "authorization").bind (Text.stripHead "Bearer ".toList) with
    | some token => token = apiToken.toList
    | none =>
      match req.query with
      | none => false
      | some query =>
        match (query.toList.splitOn '&').findSome? (Text.stripHead "token=".toList) with
        | some rest => rest = apiToken.toList
        | none => false

-- The last of several session cookies counts.
def sessionToken (req : WebRequest) : Option String :=
  (((((req.header "cookie").getD []).splitOn ';').filterMap fun part =>
    Text.stripHead "session=".toList (Text.trim part)).getLast?).map String.ofList

-- Instants are in seconds.
def sessionTtl : Nat := 24 * 3600

structure Login where
  user : String
  password : String
  token : String
  createdAt : Nat
  deriving DecidableEq

-- The login calls that were answered with a session are kept beside the table.
structure WebState where
  sessions : HashMap String Nat
  clock : Nat
  logins : List Login
  deriving DecidableEq

def randomId (bytes : Vector UInt8 16) : String := String.ofList (Text.hexEncode bytes.toList)

-- A handler for the logs drops the expired sessions.
inductive WebEvent where
  | login (user password : String) (bytes : Vector UInt8 16) (now : Nat)
  | request (req : WebRequest) (now : Nat)
  | cleanupSessions (now : Nat)

def WebEvent.now : WebEvent → Nat
  | .login _ _ _ now | .request _ now | .cleanupSessions now => now

namespace WebState

def start : WebState := ⟨∅, 0, []⟩

section Config

variable (config : WebConfig)

def login (s : WebState) (user password : String) (bytes : Vector UInt8 16) : WebState :=
  if config.webUser ≠ "" ∧ (user ≠ config.webUser ∨ password ≠ config.webPassword) then s
  else
    { s with
      sessions := s.sessions.insert (randomId bytes) s.clock
      logins := ⟨user, password, randomId bytes, s.clock⟩ :: s.logins }

def hasSession (s : WebState) (req : WebRequest) (now : Nat) : Bool :=
  ((sessionToken req).bind s.sessions.lookup).any (fun created => now - created < sessionTtl)

def authMiddleware (s : WebState) (req : WebRequest) (now : Nat) : Bool :=
  if config.apiToken ≠ "" ∧ checkApiToken req config.apiToken then true
  else if config.webUser = "" then true
  else s.hasSession req now

def cleanupSessions (s : WebState) : WebState :=
  { s with sessions := s.sessions.retain (fun created => s.clock - created < sessionTtl) }

def step (s : WebState) (e : WebEvent) : Option WebState :=
  if e.now < s.clock then none
  else
    let s := { s with clock := e.now }
    match e with
    | .login user password bytes _ => some (s.login config user password bytes)
    | .request _ _ => some s
    | .cleanupSessions _ => some s.cleanupSessions

end Config

end WebState

def CarriesToken (config : WebConfig) (req : WebRequest) : Prop :=
  config.apiToken ≠ "" ∧
    (req.header "authorization" = some ("Bearer ".toList ++ config.apiToken.toList) ∨
      ∃ query, req.query = some query ∧
        "token=".toList ++ config.apiToken.toList ∈ query.toList.splitOn '&')

def CarriesSession (req : WebRequest) (token : String) : Prop :=
  ∃ cookie, req.header "cookie" = some cookie ∧
    ∃ part ∈ cookie.splitOn ';', Text.trim part = "session=".toList ++ token.toList

def Login.Matches (config : WebConfig) (login : Login) : Prop :=
  config.webUser ≠ "" ∧ config.webPassword ≠ "" ∧ login.user = config.webUser ∧
    login.password = config.webPassword

namespace WebState

def Authorized (config : WebConfig) (s : WebState) (req : WebRequest) (now : Nat) : Prop :=
  CarriesToken config req ∨ ∃ login ∈ s.logins, login.Matches config ∧
    now - login.createdAt < sessionTtl ∧ CarriesSession req login.token

def Guarded (config : WebConfig) (s : WebState) : WebEvent → Prop
  | .request req now => s.authMiddleware config req now = true → s.Authorized config req now
  | _ => True

end WebState

def ApiClosed (config : WebConfig) : Prop :=
  ∀ events, Machine.Along (WebState.step config) (WebState.Guarded config) .start events

theorem stripHead_some {pattern text rest : List Char}
    (h : Text.stripHead pattern text = some rest) : text = pattern ++ rest := by
  unfold Text.stripHead at h
  split at h
  · next hprefix =>
    cases h
    obtain ⟨rest, rfl⟩ := List.isPrefixOf_iff_prefix.mp hprefix
    rw [List.drop_left]
  · cases h

theorem carriesToken_of_check {config : WebConfig} {req : WebRequest}
    (h : checkApiToken req config.apiToken = true) : CarriesToken config req := by
  unfold checkApiToken at h
  split at h
  · cases h
  · next hset =>
    refine ⟨hset, ?_⟩
    split at h
    · next token htoken =>
      obtain ⟨value, hvalue, hbearer⟩ := Option.bind_eq_some_iff.mp htoken
      rw [stripHead_some hbearer, of_decide_eq_true h] at hvalue
      exact .inl hvalue
    · split at h
      · cases h
      · next query hquery =>
        split at h
        · next rest hrest =>
          obtain ⟨pair, hpair, hstrip⟩ := List.exists_of_findSome?_eq_some hrest
          rw [stripHead_some hstrip, of_decide_eq_true h] at hpair
          exact .inr ⟨query, hquery, hpair⟩
        · cases h

theorem carriesSession_of_token {req : WebRequest} {token : String}
    (h : sessionToken req = some token) : CarriesSession req token := by
  obtain ⟨value, hlast, rfl⟩ := Option.map_eq_some_iff.mp h
  obtain ⟨part, hpart, hstrip⟩ := List.mem_filterMap.mp (List.mem_of_getLast? hlast)
  have htrim := stripHead_some hstrip
  cases hcookie : req.header "cookie" with
  | none =>
    rw [hcookie] at hpart
    cases List.mem_singleton.mp hpart
    exact absurd htrim (by simp [Text.trim])
  | some cookie =>
    rw [hcookie] at hpart
    refine ⟨cookie, hcookie, part, hpart, htrim.trans ?_⟩
    exact congrArg ("session=".toList ++ ·) String.toList_ofList.symm

namespace WebState

variable {config : WebConfig} {s s' : WebState}

def Earned (config : WebConfig) (s : WebState) : Prop :=
  ∀ token created, s.sessions.lookup token = some created →
    ∃ login ∈ s.logins, login.token = token ∧ login.createdAt = created ∧
      login.Matches config

theorem Earned.login (h : Earned config s) (huser : config.webUser ≠ "")
    (hpassword : config.webPassword ≠ "") (user password : String) (bytes : Vector UInt8 16) :
    Earned config (s.login config user password bytes) := by
  unfold WebState.login
  split
  · exact h
  · next hright =>
    rw [not_and, not_or, not_not, not_not] at hright
    obtain ⟨hsame, hsamePassword⟩ := hright huser
    intro token created hlook
    simp only [AList.lookup_insert_eq] at hlook
    split at hlook
    · next htoken =>
      cases hlook
      exact ⟨_, List.mem_cons_self, htoken.symm, rfl, huser, hpassword, hsame, hsamePassword⟩
    · obtain ⟨login, hmem, hlogin⟩ := h token created hlook
      exact ⟨login, List.mem_cons_of_mem _ hmem, hlogin⟩

theorem Earned.cleanupSessions (h : Earned config s) : Earned config s.cleanupSessions := by
  intro token created hlook
  simp only [WebState.cleanupSessions, AList.lookup_retain] at hlook
  exact h token created (Option.filter_eq_some_iff.mp hlook).1

theorem Earned.step (h : Earned config s) (huser : config.webUser ≠ "")
    (hpassword : config.webPassword ≠ "") {e : WebEvent} (hs : s.step config e = some s') :
    Earned config s' := by
  unfold WebState.step at hs
  split at hs
  · cases hs
  · have hclock : Earned config { s with clock := e.now } := h
    cases e with
    | login user password bytes now =>
      cases hs
      exact hclock.login huser hpassword user password bytes
    | request req now =>
      cases hs
      exact hclock
    | cleanupSessions now =>
      cases hs
      exact hclock.cleanupSessions

theorem Earned.guarded (h : Earned config s) (huser : config.webUser ≠ "") (e : WebEvent) :
    s.Guarded config e := by
  cases e with
  | login user password bytes now => trivial
  | cleanupSessions now => trivial
  | request req now =>
    intro hruns
    unfold authMiddleware at hruns
    split at hruns
    · next htoken => exact .inl (carriesToken_of_check htoken.2)
    · obtain ⟨created, hcreated, hage⟩ := (Option.any_eq_true _ _).mp hruns
      obtain ⟨token, htoken, hlook⟩ := Option.bind_eq_some_iff.mp hcreated
      obtain ⟨login, hmem, rfl, rfl, hmatches⟩ := h token created hlook
      exact .inr ⟨login, hmem, hmatches, of_decide_eq_true hage, carriesSession_of_token htoken⟩

end WebState

def plainRequest : WebRequest := ⟨[], none⟩

def sessionRequest (bytes : Vector UInt8 16) : WebRequest :=
  ⟨[("cookie", Text.utf8 ("session=" ++ randomId bytes))], none⟩

def zeroId : Vector UInt8 16 := Vector.replicate 16 0

theorem sessionToken_zeroId : sessionToken (sessionRequest zeroId) = some (randomId zeroId) := by
  decide +kernel

-- A token alone guards nothing: without a user every request passes.
theorem open_without_user {config : WebConfig} (huser : config.webUser = "") :
    ¬ApiClosed config := by
  intro h
  have hruns : WebState.start.authMiddleware config plainRequest 0 = true := by
    simp [WebState.authMiddleware, huser]
  rcases (h [.request plainRequest 0]).1 hruns with ⟨-, hbearer | ⟨query, hquery, -⟩⟩ | hlogin
  · cases hbearer
  · cases hquery
  · obtain ⟨login, hmem, -⟩ := hlogin
    cases hmem

-- An empty password is a password that anyone can give.
theorem open_without_password {config : WebConfig} (huser : config.webUser ≠ "")
    (hpassword : config.webPassword = "") : ¬ApiClosed config := by
  intro h
  have hlogin : WebState.start.step config (.login config.webUser "" zeroId 0) =
      some ⟨(∅ : HashMap String Nat).insert (randomId zeroId) 0, 0,
        [⟨config.webUser, "", randomId zeroId, 0⟩]⟩ := by
    simp [WebState.step, WebEvent.now, WebState.start, WebState.login, hpassword]
  have hguarded := ((h [.login config.webUser "" zeroId 0, .request (sessionRequest zeroId) 1]).2 _
    hlogin).1
  have hsession : WebState.hasSession ⟨(∅ : HashMap String Nat).insert (randomId zeroId) 0, 0,
      [⟨config.webUser, "", randomId zeroId, 0⟩]⟩ (sessionRequest zeroId) 1 = true := by
    rw [WebState.hasSession, sessionToken_zeroId, Option.bind_some, AList.lookup_insert]
    rfl
  have hauthorized := hguarded (by
    rw [WebState.authMiddleware, if_neg huser, hsession]
    exact ite_self _)
  rcases hauthorized with ⟨-, hbearer | ⟨query, hquery, -⟩⟩ | ⟨login, -, hmatches, -⟩
  · have hnone : (sessionRequest zeroId).header "authorization" = none := by decide +kernel
    cases hnone.symm.trans hbearer
  · cases hquery
  · exact hmatches.2.1 hpassword

theorem api_closed_iff (config : WebConfig) :
    ApiClosed config ↔ config.webUser ≠ "" ∧ config.webPassword ≠ "" := by
  constructor
  · intro h
    have huser : config.webUser ≠ "" := fun hempty => open_without_user hempty h
    exact ⟨huser, fun hempty => open_without_password huser hempty h⟩
  · rintro ⟨huser, hpassword⟩ events
    refine Machine.along_invariant (I := WebState.Earned config)
      (fun s e s' h _ hs => h.step huser hpassword hs) (fun s e h _ => h.guarded huser e) ?_
      (Machine.along_trivial _ events)
    intro token created hlook
    cases hlook

theorem api_open_with_token :
    ¬ApiClosed { apiToken := "t0ken" } ∧ ¬ApiClosed { webUser := "admin" } :=
  ⟨open_without_user rfl, open_without_password (by decide) rfl⟩

end Cross233.Server
