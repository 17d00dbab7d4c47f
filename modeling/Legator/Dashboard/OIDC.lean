import Legator.System
import Legator.Time

/-!
# The dashboard's OIDC session layer

`OIDCMiddleware` of `internal/dashboard/oidc.go` guards the dashboard. Its only
shared state is one `sync.Map` of `OIDCSession` records, which holds two kinds
of entries: `handleLogin` stores a CSRF state record under `"state:" ++ state`,
and a successful `handleCallback` stores a session under a fresh random id.
`getSession` looks the cookie value up in the same map and accepts any entry it
finds there.

A request is one step. What the outside world contributes to a request (the
clock, the string `generateState` returns, and the provider's answers to the
discovery, token and user-info calls) is an `Environment`, chosen freely at
every step. The map is a function from keys to records: the middleware only
stores, loads and deletes single keys.
-/

namespace Legator.Dashboard

open Legator.Time

/-- `OIDCConfig`. -/
structure OIDCConfig where
  issuerURL : String
  clientID : String
  clientSecret : String
  redirectURL : String
  scopes : List String
  sessionDuration : Int
  cookieName : String
  cookieSecure : Bool

/-- `OIDCUser`: the provider's user-info document. -/
structure OIDCUser where
  subject : String
  email : String
  name : String
  preferredUser : String
  groups : List String
  deriving DecidableEq, Repr

/-- The zero `OIDCUser`, which a state record carries. -/
def OIDCUser.zero : OIDCUser :=
  ⟨"", "", "", "", []⟩

/-- `OIDCSession`: a map entry, session or state record alike. -/
structure OIDCSession where
  user : OIDCUser
  expiresAt : Int
  state : String
  deriving DecidableEq, Repr

/-- `OIDCDiscovery`: the provider's well-known configuration. -/
structure OIDCDiscovery where
  authorizationEndpoint : String
  tokenEndpoint : String
  userinfoEndpoint : String
  issuer : String

/-- What one HTTP call to the provider gave: a transport error, a status other
than 200 with its body, a body that does not decode, or the decoded document. -/
inductive HttpResult (α : Type)
  | requestFailed (err : String)
  | status (code : Nat) (body : String)
  | malformed (err : String)
  | ok (value : α)

/-- The error handling shared by `discover`, `exchangeCode` and `getUserInfo`,
which differ only in the texts before their messages. -/
def HttpResult.decode {α : Type} (requestText returnedText parseText : String) :
    HttpResult α → Except String α
  | .requestFailed err => .error (requestText ++ ": " ++ err)
  | .status code body => .error (returnedText ++ " " ++ toString code ++ ": " ++ body)
  | .malformed err => .error (parseText ++ ": " ++ err)
  | .ok value => .ok value

/-- The outside world's part in one request. -/
structure Environment where
  now : Int
  random : String
  discovery : HttpResult OIDCDiscovery
  accessToken : HttpResult String
  userInfo : HttpResult OIDCUser

/-- An incoming request: its path, its query parameters and its cookies, each
in the order they were sent. -/
structure Request where
  path : String
  query : List (String × String)
  cookies : List (String × String)

/-- `r.URL.Query().Get(key)`: the first value, or `""`. -/
def Request.queryGet (r : Request) (key : String) : String :=
  (r.query.lookup key).getD ""

/-- `r.Cookie(name)`: the value of the first cookie of that name. -/
def Request.cookie (r : Request) (name : String) : Option String :=
  r.cookies.lookup name

/-- A `Set-Cookie` header. -/
structure Cookie where
  name : String
  value : String
  path : String
  maxAge : Int
  httpOnly : Bool
  secure : Bool
  sameSiteLax : Bool
  deriving DecidableEq

/-- What the middleware answers: `http.Error`, a `302 Found` redirect with an
optional cookie, a plain status and body, or a call of the wrapped handler,
with the user put into the request context when there is one. -/
inductive Response
  | error (code : Nat) (message : String)
  | found (location : String) (cookie : Option Cookie)
  | ok (code : Nat) (body : String)
  | next (user : Option OIDCUser)
  deriving DecidableEq

/-- `OIDCMiddleware`: the configuration, the shared map, and the endpoints
`discover` fills in once. -/
structure OIDCMiddleware where
  config : OIDCConfig
  sessions : String → Option OIDCSession
  authEndpoint : String
  tokenEndpoint : String
  userEndpoint : String
  discovered : Bool

namespace OIDCMiddleware

/-- `NewOIDCMiddleware`: fill in the defaults and start with an empty map. -/
def newOIDCMiddleware (config : OIDCConfig) : OIDCMiddleware :=
  let config := if config.cookieName = "" then { config with cookieName := "legator-session" }
    else config
  let config := if config.sessionDuration = 0 then { config with sessionDuration := 8 * hour }
    else config
  let config := if config.scopes = [] then { config with scopes := ["openid", "profile", "email"] }
    else config
  ⟨config, fun _ => none, "", "", "", false⟩

/-- `m.sessions.Store(key, session)`. -/
def store (m : OIDCMiddleware) (key : String) (session : OIDCSession) : OIDCMiddleware :=
  { m with sessions := fun other => if other = key then some session else m.sessions other }

/-- `m.sessions.Delete(key)`. -/
def delete (m : OIDCMiddleware) (key : String) : OIDCMiddleware :=
  { m with sessions := fun other => if other = key then none else m.sessions other }

/-- `discover`: fetch the endpoints unless they are known already. -/
def discover (m : OIDCMiddleware) (result : HttpResult OIDCDiscovery) :
    Except String OIDCMiddleware :=
  if m.discovered then .ok m
  else (result.decode "discovery request" "discovery returned" "discovery parse").map
    fun disc => { m with
      authEndpoint := disc.authorizationEndpoint
      tokenEndpoint := disc.tokenEndpoint
      userEndpoint := disc.userinfoEndpoint
      discovered := true }

/-- `exchangeCode`: the access token of the token endpoint's answer. -/
def exchangeCode (result : HttpResult String) : Except String String :=
  result.decode "token request" "token endpoint returned" "token parse"

/-- `getUserInfo`: the user-info endpoint's document. -/
def getUserInfo (result : HttpResult OIDCUser) : Except String OIDCUser :=
  result.decode "userinfo request" "userinfo returned" "userinfo parse"

/-- The provider URL `handleLogin` redirects to. -/
def authURL (m : OIDCMiddleware) (state : String) : String :=
  m.authEndpoint ++ "?client_id=" ++ m.config.clientID ++ "&redirect_uri=" ++
    m.config.redirectURL ++ "&response_type=code&scope=" ++ " ".intercalate m.config.scopes ++
    "&state=" ++ state

/-- `handleLogin`: store a state record valid for ten minutes and redirect to the
provider. -/
def handleLogin (m : OIDCMiddleware) (env : Environment) : OIDCMiddleware × Response :=
  match m.discover env.discovery with
  | .error err => (m, .error 500 ("OIDC discovery failed: " ++ err))
  | .ok m =>
      let state := env.random
      let m := m.store ("state:" ++ state) ⟨OIDCUser.zero, env.now + 10 * minute, state⟩
      (m, .found (m.authURL state) none)

/-- The session cookie `handleCallback` sets. -/
def sessionCookie (m : OIDCMiddleware) (sessionID : String) : Cookie :=
  ⟨m.config.cookieName, sessionID, "/", m.config.sessionDuration.tdiv second, true,
    m.config.cookieSecure, true⟩

/-- `handleCallback`: check the provider's error and code, consume the state
record, exchange the code, fetch the user, and store a fresh session. -/
def handleCallback (m : OIDCMiddleware) (env : Environment) (r : Request) :
    OIDCMiddleware × Response :=
  let code := r.queryGet "code"
  let state := r.queryGet "state"
  let errParam := r.queryGet "error"
  if errParam ≠ "" then
    (m, .error 403 ("OIDC error: " ++ errParam ++ " — " ++ r.queryGet "error_description"))
  else if code = "" then (m, .error 400 "Missing authorization code")
  else match m.sessions ("state:" ++ state) with
    | none => (m, .error 403 "Invalid state — possible CSRF")
    | some stateSession =>
        let m := m.delete ("state:" ++ state)
        if env.now > stateSession.expiresAt then (m, .error 403 "State expired")
        else match exchangeCode env.accessToken with
          | .error err => (m, .error 500 ("Token exchange failed: " ++ err))
          | .ok _ => match getUserInfo env.userInfo with
            | .error err => (m, .error 500 ("User info failed: " ++ err))
            | .ok user =>
                let sessionID := env.random
                let m := m.store sessionID ⟨user, env.now + m.config.sessionDuration, ""⟩
                (m, .found "/" (some (m.sessionCookie sessionID)))

/-- `handleLogout`: delete the cookie's entry, clear the cookie, and redirect to
the login route. -/
def handleLogout (m : OIDCMiddleware) (r : Request) : OIDCMiddleware × Response :=
  let m := match r.cookie m.config.cookieName with
    | some value => m.delete value
    | none => m
  (m, .found "/auth/login" (some ⟨m.config.cookieName, "", "/", -1, false, false, false⟩))

/-- `getSession`: the user of the entry the session cookie names, unless it has
expired, in which case it is deleted. -/
def getSession (m : OIDCMiddleware) (env : Environment) (r : Request) :
    OIDCMiddleware × Option OIDCUser :=
  match r.cookie m.config.cookieName with
  | none => (m, none)
  | some value =>
      match m.sessions value with
      | none => (m, none)
      | some session =>
          if env.now > session.expiresAt then (m.delete value, none)
          else (m, some session.user)

/-- `Wrap`: route the auth paths, pass static assets and the health check, and
let any other request through only with a session. -/
def wrap (m : OIDCMiddleware) (env : Environment) (r : Request) : OIDCMiddleware × Response :=
  if r.path = "/auth/callback" then m.handleCallback env r
  else if r.path = "/auth/login" then m.handleLogin env
  else if r.path = "/auth/logout" then m.handleLogout r
  else if r.path.startsWith "/static/" then (m, .next none)
  else if r.path = "/healthz" then (m, .ok 200 "ok")
  else match m.getSession env r with
    | (m, none) => m.handleLogin env
    | (m, some user) => (m, .next (some user))

end OIDCMiddleware

/-! ## Requests in sequence -/

/-- Whether a response is the redirect of a successful callback. -/
def Response.startsSession : Response → Bool
  | .found "/" (some _) => true
  | _ => false

namespace OIDCMiddleware

/-! ### What a request does to the map -/

@[simp] theorem store_sessions (m : OIDCMiddleware) (key other : String) (session : OIDCSession) :
    (m.store key session).sessions other = if other = key then some session else m.sessions other :=
  rfl

@[simp] theorem delete_sessions (m : OIDCMiddleware) (key other : String) :
    (m.delete key).sessions other = if other = key then none else m.sessions other :=
  rfl

@[simp] theorem store_config (m : OIDCMiddleware) (key : String) (session : OIDCSession) :
    (m.store key session).config = m.config :=
  rfl

@[simp] theorem delete_config (m : OIDCMiddleware) (key : String) : (m.delete key).config = m.config :=
  rfl

theorem discover_eq_ok {m m' : OIDCMiddleware} {result : HttpResult OIDCDiscovery}
    (found : m.discover result = .ok m') : m'.sessions = m.sessions ∧ m'.config = m.config := by
  unfold discover at found
  split at found
  · cases found
    exact ⟨rfl, rfl⟩
  · cases decoded : result.decode "discovery request" "discovery returned" "discovery parse" with
    | error err => rw [decoded] at found; cases found
    | ok disc => rw [decoded] at found; cases found; exact ⟨rfl, rfl⟩

/-- `handleLogin` keeps the map, apart from the state record it stores. -/
theorem handleLogin_sessions {m : OIDCMiddleware} {env : Environment} {key : String}
    {session : OIDCSession} (stored : (m.handleLogin env).1.sessions key = some session) :
    m.sessions key = some session ∨ (key = "state:" ++ env.random ∧ session.user = OIDCUser.zero) := by
  unfold handleLogin at stored
  split at stored
  · exact .inl stored
  · rename_i found _ discovered
    rw [store_sessions, (discover_eq_ok discovered).1] at stored
    split_ifs at stored with atState
    · cases stored
      exact .inr ⟨atState, rfl⟩
    · exact .inl stored

/-- `handleCallback` deletes the state record it checks and stores nothing but
the session of a successful callback, under the id `generateState` gave. -/
theorem handleCallback_sessions {m : OIDCMiddleware} {env : Environment} {r : Request} {key : String}
    {session : OIDCSession} (stored : (m.handleCallback env r).1.sessions key = some session) :
    m.sessions key = some session ∨
      ((m.handleCallback env r).2.startsSession = true ∧ key = env.random) := by
  unfold handleCallback at stored ⊢
  dsimp only at stored ⊢
  split_ifs at stored ⊢
  · exact .inl stored
  · exact .inl stored
  · split at stored
    · exact .inl stored
    · have kept : (m.delete ("state:" ++ r.queryGet "state")).sessions key = some session →
          m.sessions key = some session := by
        rw [delete_sessions]
        split_ifs
        · nofun
        · exact id
      split_ifs at stored ⊢
      · exact .inl (kept stored)
      · split at stored
        · exact .inl (kept stored)
        · split at stored
          · exact .inl (kept stored)
          · rw [store_sessions] at stored
            split_ifs at stored with atSession
            · exact .inr ⟨rfl, atSession⟩
            · exact .inl (kept stored)

theorem handleLogout_sessions {m : OIDCMiddleware} {r : Request} {key : String}
    {session : OIDCSession} (stored : (m.handleLogout r).1.sessions key = some session) :
    m.sessions key = some session := by
  unfold handleLogout at stored
  split at stored
  · rw [delete_sessions] at stored
    split_ifs at stored
    exact stored
  · exact stored

theorem getSession_sessions {m : OIDCMiddleware} {env : Environment} {r : Request} {key : String}
    {session : OIDCSession} (stored : (m.getSession env r).1.sessions key = some session) :
    m.sessions key = some session := by
  unfold getSession at stored
  split at stored
  · exact stored
  · split at stored
    · exact stored
    · split_ifs at stored
      · rw [delete_sessions] at stored
        split_ifs at stored
        exact stored
      · exact stored

theorem handleLogin_config (m : OIDCMiddleware) (env : Environment) :
    (m.handleLogin env).1.config = m.config := by
  unfold handleLogin
  split
  · rfl
  · rename_i discovered
    exact (discover_eq_ok discovered).2

theorem handleCallback_config (m : OIDCMiddleware) (env : Environment) (r : Request) :
    (m.handleCallback env r).1.config = m.config := by
  unfold handleCallback
  dsimp only
  split_ifs
  · rfl
  · rfl
  · split
    · rfl
    · split_ifs
      · rfl
      · split
        · rfl
        · split <;> rfl

theorem getSession_config (m : OIDCMiddleware) (env : Environment) (r : Request) :
    (m.getSession env r).1.config = m.config := by
  unfold getSession
  split
  · rfl
  · split
    · rfl
    · split_ifs <;> rfl

/-- A request leaves the configuration as it is. -/
theorem wrap_config (m : OIDCMiddleware) (env : Environment) (r : Request) :
    (m.wrap env r).1.config = m.config := by
  unfold wrap
  split_ifs
  · exact handleCallback_config m env r
  · exact handleLogin_config m env
  · unfold handleLogout
    split <;> rfl
  · rfl
  · rfl
  · split
    · rename_i looked
      rw [handleLogin_config, ← getSession_config m env r, looked]
    · rename_i looked
      rw [← getSession_config m env r, looked]

theorem handleLogin_not_next (m : OIDCMiddleware) (env : Environment) (user : Option OIDCUser) :
    (m.handleLogin env).2 ≠ .next user := by
  unfold handleLogin
  split <;> nofun

theorem handleCallback_not_next (m : OIDCMiddleware) (env : Environment) (r : Request)
    (user : Option OIDCUser) : (m.handleCallback env r).2 ≠ .next user := by
  unfold handleCallback
  dsimp only
  split_ifs
  · nofun
  · nofun
  · split
    · nofun
    · split_ifs
      · nofun
      · split
        · nofun
        · split <;> nofun

theorem getSession_user {m : OIDCMiddleware} {env : Environment} {r : Request}
    {user : OIDCUser} (found : (m.getSession env r).2 = some user) :
    ∃ id session, r.cookie m.config.cookieName = some id ∧ m.sessions id = some session ∧
      ¬ env.now > session.expiresAt ∧ user = session.user := by
  unfold getSession at found
  split at found
  · cases found
  · rename_i id cookie
    split at found
    · cases found
    · rename_i session stored
      split_ifs at found with expired
      cases found
      exact ⟨id, session, cookie, stored, expired, rfl⟩

/-- A request reaches the wrapped handler with a user only through a session
cookie naming an unexpired entry of the map, whose user it is. -/
theorem wrap_next {m : OIDCMiddleware} {env : Environment} {r : Request} {user : OIDCUser}
    (admitted : (m.wrap env r).2 = .next (some user)) :
    ∃ id session, r.cookie m.config.cookieName = some id ∧ m.sessions id = some session ∧
      ¬ env.now > session.expiresAt ∧ user = session.user := by
  unfold wrap at admitted
  split_ifs at admitted
  · exact absurd admitted (handleCallback_not_next m env r _)
  · exact absurd admitted (handleLogin_not_next m env _)
  · unfold handleLogout at admitted
    split at admitted <;> cases admitted
  · cases admitted
  · split at admitted
    · exact absurd admitted (handleLogin_not_next _ env _)
    · rename_i found
      cases admitted
      exact getSession_user (congrArg Prod.snd found)

/-- What one request can do to the map: keep an entry, delete it, store a
login's state record, or store the session of a successful callback. -/
theorem wrap_sessions {m : OIDCMiddleware} {env : Environment} {r : Request} {key : String}
    {session : OIDCSession} (stored : (m.wrap env r).1.sessions key = some session) :
    m.sessions key = some session ∨
      (key = "state:" ++ env.random ∧ session.user = OIDCUser.zero) ∨
      (r.path = "/auth/callback" ∧ (m.wrap env r).2.startsSession = true ∧ key = env.random) := by
  unfold wrap at stored ⊢
  split_ifs at stored ⊢ with callback
  · rcases handleCallback_sessions stored with kept | issued
    · exact .inl kept
    · exact .inr (.inr ⟨callback, issued⟩)
  · exact (handleLogin_sessions stored).imp_right .inl
  · exact .inl (handleLogout_sessions stored)
  · exact .inl stored
  · exact .inl stored
  · split at stored
    · rename_i looked
      rcases handleLogin_sessions stored with kept | state
      · exact .inl (getSession_sessions (by rw [looked]; exact kept))
      · exact .inr (.inl state)
    · rename_i looked
      exact .inl (getSession_sessions (by rw [looked]; exact stored))

/-- A request stores an entry only under its environment's fresh string or that
string's state key, so any other id that is absent stays absent. -/
theorem wrap_absent {m : OIDCMiddleware} {env : Environment} {r : Request} {id : String}
    (absent : m.sessions id = none) (fresh : id ≠ env.random)
    (notState : id ≠ "state:" ++ env.random) : (m.wrap env r).1.sessions id = none := by
  cases stored : (m.wrap env r).1.sessions id with
  | none => rfl
  | some session =>
      rcases wrap_sessions stored with kept | ⟨atState, -⟩ | ⟨-, -, atRandom⟩
      · exact absurd (absent.symm.trans kept) nofun
      · exact absurd atState notState
      · exact absurd atRandom fresh

/-- A logout deletes the entry its cookie names. -/
theorem wrap_logout_deletes {m : OIDCMiddleware} {env : Environment} {r : Request} {id : String}
    (logout : r.path = "/auth/logout") (cookie : r.cookie m.config.cookieName = some id) :
    (m.wrap env r).1.sessions id = none := by
  have notCallback : r.path ≠ "/auth/callback" := by rw [logout]; decide
  have notLogin : r.path ≠ "/auth/login" := by rw [logout]; decide
  simp only [wrap, if_neg notCallback, if_neg notLogin, if_pos logout, handleLogout, cookie,
    delete_sessions, if_pos]

end OIDCMiddleware

/-- The middleware, and every session a successful callback stored, under the id
it stored it. -/
structure AuthState where
  middleware : OIDCMiddleware
  issued : List (String × OIDCSession)

namespace AuthState

open OIDCMiddleware

/-- Serve one request. A successful callback stores its session under the
string `generateState` returned; that entry is recorded as issued. -/
def serve (d : AuthState) (env : Environment) (r : Request) : AuthState :=
  let (m, response) := d.middleware.wrap env r
  { middleware := m
    issued := if r.path = "/auth/callback" ∧ response.startsSession = true then
        d.issued ++ ((m.sessions env.random).map fun session => (env.random, session)).toList
      else d.issued }

/-- Any sequence of requests, each with its own environment, served one after
another from a freshly constructed middleware. -/
def system : System AuthState (Environment × Request) :=
  ⟨fun d => ∃ config, d = ⟨newOIDCMiddleware config, []⟩,
    fun d event => some (d.serve event.1 event.2)⟩

/-- A request reaches the wrapped handler with a user only if its session cookie
names a map entry that a successful callback stored and that has not expired. -/
def AcceptsOnlyIssuedSessions (d : AuthState) : Prop :=
  ∀ env r user, (d.middleware.wrap env r).2 = .next (some user) →
    ∃ id session, r.cookie d.middleware.config.cookieName = some id ∧
      d.middleware.sessions id = some session ∧ (id, session) ∈ d.issued ∧
      ¬ env.now > session.expiresAt ∧ user = session.user

/-! ## A state record presented as a session -/

/-- A dashboard configuration with every default left to `NewOIDCMiddleware`. -/
def exampleConfig : OIDCConfig :=
  ⟨"https://keycloak.example.com/realms/legator", "legator-dashboard", "secret",
    "https://legator.example.com/auth/callback", [], 0, "", false⟩

/-- A provider that answers discovery; the login flow needs nothing else. -/
def loginEnvironment (now : Int) (random : String) : Environment :=
  ⟨now, random, .ok ⟨"https://keycloak.example.com/auth", "https://keycloak.example.com/token",
    "https://keycloak.example.com/userinfo", "https://keycloak.example.com"⟩,
    .requestFailed "unused", .requestFailed "unused"⟩

/-- A visit to `/auth/login`; its redirect reveals the state `n1` to the client. -/
def loginRequest : Request :=
  ⟨"/auth/login", [], []⟩

/-- A request for the dashboard whose session cookie is the state record's key. -/
def stateCookieRequest : Request :=
  ⟨"/", [], [("legator-session", "state:n1")]⟩

theorem state_record_accepted_as_session :
    ¬ ∀ d, system.Reachable d → AcceptsOnlyIssuedSessions d := by
  intro safe
  obtain ⟨d, reachable, replayed⟩ := system.exists_reachable_of_replay ⟨exampleConfig, rfl⟩
    [(loginEnvironment 0 "n1", loginRequest)] (fun d => decide (d.issued = []) &&
      decide ((d.middleware.wrap (loginEnvironment second "n2") stateCookieRequest).2 =
        .next (some OIDCUser.zero))) (by decide)
  simp only [Bool.and_eq_true, decide_eq_true_eq] at replayed
  obtain ⟨id, session, -, -, issuedMem, -⟩ := safe d reachable _ _ _ replayed.2
  simp [replayed.1] at issuedMem

/-! ## What the middleware does guarantee -/

@[simp] theorem serve_middleware (d : AuthState) (env : Environment) (r : Request) :
    (d.serve env r).middleware = (d.middleware.wrap env r).1 :=
  rfl

theorem serve_issued (d : AuthState) (env : Environment) (r : Request) :
    (d.serve env r).issued =
      if r.path = "/auth/callback" ∧ (d.middleware.wrap env r).2.startsSession = true then
        d.issued ++ (((d.middleware.wrap env r).1.sessions env.random).map
          fun session => (env.random, session)).toList
      else d.issued :=
  rfl

theorem mem_serve_issued {d : AuthState} {env : Environment} {r : Request}
    {entry : String × OIDCSession} (issued : entry ∈ d.issued) : entry ∈ (d.serve env r).issued := by
  rw [serve_issued]
  split_ifs
  · exact List.mem_append_left _ issued
  · exact issued

/-- Every entry of the map is a login's state record, with the empty user, or a
session that a successful callback stored under that id. -/
def EntriesAccounted (d : AuthState) : Prop :=
  ∀ key session, d.middleware.sessions key = some session →
    (∃ state, key = "state:" ++ state ∧ session.user = OIDCUser.zero) ∨ (key, session) ∈ d.issued

theorem serve_entriesAccounted {d : AuthState} (accounted : d.EntriesAccounted)
    (env : Environment) (r : Request) : (d.serve env r).EntriesAccounted := by
  intro key session stored
  rw [serve_middleware] at stored
  rcases wrap_sessions stored with kept | ⟨atState, empty⟩ | ⟨callback, started, rfl⟩
  · exact (accounted key session kept).imp_right mem_serve_issued
  · exact .inl ⟨env.random, atState, empty⟩
  · right
    rw [serve_issued, if_pos ⟨callback, started⟩, stored]
    exact List.mem_append_right _ (List.mem_singleton_self _)

theorem entriesAccounted_of_reachable {d : AuthState} (reachable : system.Reachable d) :
    d.EntriesAccounted := by
  refine System.Reachable.invariant ?_ ?_ reachable
  · rintro _ ⟨config, rfl⟩ key session stored
    cases stored
  · rintro d event _ accounted stepped
    cases stepped
    exact serve_entriesAccounted accounted event.1 event.2

/-- What the middleware does guarantee, in every reachable state: a request
reaches the wrapped handler with a user only through a session cookie naming an
unexpired entry of the map, and that entry is a session a successful callback
stored or a login's state record, whose user is empty. -/
theorem admits_issued_or_state_record {d : AuthState} (reachable : system.Reachable d)
    {env : Environment} {r : Request} {user : OIDCUser}
    (admitted : (d.middleware.wrap env r).2 = .next (some user)) :
    ∃ id session, r.cookie d.middleware.config.cookieName = some id ∧
      d.middleware.sessions id = some session ∧ ¬ env.now > session.expiresAt ∧
      user = session.user ∧
      ((id, session) ∈ d.issued ∨ ∃ state, id = "state:" ++ state ∧ user = OIDCUser.zero) := by
  obtain ⟨id, session, cookie, stored, unexpired, rfl⟩ := wrap_next admitted
  refine ⟨id, session, cookie, stored, unexpired, rfl, ?_⟩
  rcases entriesAccounted_of_reachable reachable id session stored with state | issued
  · exact .inr state
  · exact .inl issued

/-- After one login, the state cookie is admitted, through the state record. -/
theorem state_cookie_admitted_through_record :
    let d := (⟨newOIDCMiddleware exampleConfig, []⟩ : AuthState).serve
      (loginEnvironment 0 "n1") loginRequest
    system.Reachable d ∧
      (d.middleware.wrap (loginEnvironment second "n2") stateCookieRequest).2 =
        .next (some OIDCUser.zero) ∧
      ∃ id session, stateCookieRequest.cookie d.middleware.config.cookieName = some id ∧
        d.middleware.sessions id = some session ∧
        ¬ (loginEnvironment second "n2").now > session.expiresAt ∧
        OIDCUser.zero = session.user ∧
        ((id, session) ∈ d.issued ∨ ∃ state, id = "state:" ++ state ∧ OIDCUser.zero = OIDCUser.zero) :=
  have reachable : system.Reachable (AuthState.serve ⟨newOIDCMiddleware exampleConfig, []⟩
      (loginEnvironment 0 "n1") loginRequest) :=
    .step (loginEnvironment 0 "n1", loginRequest) (.init ⟨exampleConfig, rfl⟩) rfl
  have admitted : ((AuthState.serve ⟨newOIDCMiddleware exampleConfig, []⟩
      (loginEnvironment 0 "n1") loginRequest).middleware.wrap (loginEnvironment second "n2")
      stateCookieRequest).2 = .next (some OIDCUser.zero) := by decide
  ⟨reachable, admitted, admits_issued_or_state_record reachable admitted⟩

/-! ## Logout -/

/-- Over any requests whose fresh strings never produce `id`, as a session id or
as a state key, an id absent from the map stays absent, and the configuration
stays as it is. -/
theorem replay_absent {d d' : AuthState} {id : String} {later : List (Environment × Request)}
    (absent : d.middleware.sessions id = none)
    (fresh : ∀ event ∈ later, id ≠ event.1.random ∧ id ≠ "state:" ++ event.1.random)
    (replayed : system.replay d later = some d') :
    d'.middleware.sessions id = none ∧ d'.middleware.config = d.middleware.config := by
  induction later generalizing d with
  | nil =>
      cases replayed
      exact ⟨absent, rfl⟩
  | cons event later inductionHypothesis =>
      obtain ⟨notRandom, notState⟩ := fresh event (List.mem_cons_self _ _)
      obtain ⟨stillAbsent, sameConfig⟩ := inductionHypothesis
        (wrap_absent absent notRandom notState) (fun e mem => fresh e (List.mem_cons_of_mem _ mem))
        replayed
      exact ⟨stillAbsent, sameConfig.trans (wrap_config _ _ _)⟩

/-- Logout revokes the session for good: after a logout presenting cookie `id`,
and any requests whose fresh strings never produce `id` again, a request
presenting the same cookie never reaches the wrapped handler with a user. -/
theorem logout_revokes {d d' : AuthState} {env : Environment} {r : Request} {id : String}
    (logout : r.path = "/auth/logout") (cookie : r.cookie d.middleware.config.cookieName = some id)
    {later : List (Environment × Request)}
    (fresh : ∀ event ∈ later, id ≠ event.1.random ∧ id ≠ "state:" ++ event.1.random)
    (replayed : system.replay (d.serve env r) later = some d')
    {env' : Environment} {r' : Request} (presented : r'.cookie d.middleware.config.cookieName = some id)
    (user : OIDCUser) : (d'.middleware.wrap env' r').2 ≠ .next (some user) := by
  intro admitted
  obtain ⟨absent, sameConfig⟩ := replay_absent (wrap_logout_deletes logout cookie) fresh replayed
  obtain ⟨id', session, cookie', stored, -⟩ := wrap_next admitted
  rw [sameConfig, serve_middleware, wrap_config, presented, Option.some.injEq] at cookie'
  rw [← cookie', absent] at stored
  cases stored

/-- The user the provider reports in the sign-in below. -/
def exampleUser : OIDCUser :=
  ⟨"user-1", "user-1@example.com", "User One", "user1", ["sre"]⟩

/-- A provider that answers every call, and the fresh string `s1`. -/
def callbackEnvironment : Environment :=
  { loginEnvironment 1 "s1" with accessToken := .ok "token", userInfo := .ok exampleUser }

/-- The provider's redirect back after the login that revealed state `n1`. -/
def callbackRequest : Request :=
  ⟨"/auth/callback", [("code", "c1"), ("state", "n1")], []⟩

/-- A request for the dashboard with session cookie `s1`. -/
def sessionRequest : Request :=
  ⟨"/", [], [("legator-session", "s1")]⟩

/-- A visit to `/auth/logout` with session cookie `s1`. -/
def logoutRequest : Request :=
  ⟨"/auth/logout", [], [("legator-session", "s1")]⟩

/-- A user signs in and cookie `s1` is admitted; after a logout and a later
login the same cookie is not. -/
theorem signed_out_cookie_refused :
    let d := ((⟨newOIDCMiddleware exampleConfig, []⟩ : AuthState).serve
      (loginEnvironment 0 "n1") loginRequest).serve callbackEnvironment callbackRequest
    (d.middleware.wrap (loginEnvironment 2 "n3") sessionRequest).2 = .next (some exampleUser) ∧
      (((d.serve (loginEnvironment 2 "n3") logoutRequest).serve (loginEnvironment 3 "n4")
        loginRequest).middleware.wrap (loginEnvironment 4 "n5") sessionRequest).2 ≠
          .next (some exampleUser) :=
  ⟨by decide, @logout_revokes _ _ (loginEnvironment 2 "n3") logoutRequest "s1" (by decide) (by decide)
    [(loginEnvironment 3 "n4", loginRequest)] (by decide) rfl (loginEnvironment 4 "n5") sessionRequest
    (by decide) exampleUser⟩

end AuthState

end Legator.Dashboard
