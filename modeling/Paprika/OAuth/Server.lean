import Paprika.Lib.SharedStore
import Paprika.Lib.Text

/-!
# The OAuth endpoints of the MCP servers

The authorize, consent and token endpoints, each as a program over the cache that all instances share:

* `handleAuthorize`, `redirectToConsent`, `handleAuthorizePending` — the authorize endpoint, which sends a browser on
  to the consent page, and what that page then reads;
* `handleAuthorizeConsent`, `finishConsentApprove`, `consentedScope` — the consent page's request;
* `handleToken`, `handleAuthorizationCodeGrant`, `handleRefreshTokenGrant`, `handleAtomicRefreshTokenGrant` — the token
  endpoint, with the two ways of rotating a refresh token.

A record is stored as itself, an access token is the claims that are signed, and what the authenticator, the client
registry and the entropy source answer to a request comes with the request.
-/

namespace Paprika.OAuth

open Lib.SharedStore

/-! ### Scopes and principals -/

abbrev Scope := String

def ScopeRead : Scope := "paprika:read"
def ScopeWrite : Scope := "paprika:write"
def ScopeObserve : Scope := "paprika:observe"
def ScopeInsightsWrite : Scope := "paprika:insights:write"

def isKnownScope (scope : Scope) : Bool :=
  scope == ScopeRead || scope == ScopeWrite || scope == ScopeObserve || scope == ScopeInsightsWrite

def fields (raw : String) : List String := (Lib.Text.fields raw.toList).map String.ofList

/-- The scopes of a scope claim; values that Paprika does not define are dropped. -/
def ParseScopes (raw : String) : List Scope := (fields raw).filter isKnownScope

def HasScope (granted : List Scope) (required : Scope) : Bool := granted.any (fun s => s == required)

def scopesToString (scopes : List Scope) : String := String.intercalate " " scopes

/-- Who is authenticated. -/
structure Principal where
  subject : String
  email : String
  name : String
  groups : List String
  scopes : List Scope
  deriving DecidableEq

/-- The scope of a code that is granted without a consent: within the scopes of the principal. -/
def negotiateScope (principal : Principal) (requested : String) : Option String :=
  let granted := ParseScopes (String.intercalate " " principal.scopes)
  if (Lib.Text.trimSpace requested.toList).isEmpty then some (scopesToString granted)
  else
    let requestedScopes := ParseScopes requested
    -- a word that is not a scope rejects the whole request
    if requestedScopes.length ≠ (fields requested).length then none
    else if requestedScopes.all (HasScope granted) then some (scopesToString requestedScopes)
    else none

/-! ### Servers -/

/-- An instance: its addresses, the audience of its tokens, the scopes it grants, its static client, and whether its
cache replaces an entry atomically. -/
structure Server where
  publicURL : String
  routePrefix : String
  consentPath : String
  protocolPath : String
  audience : String
  supportedScopes : List Scope
  known : ∀ sc ∈ supportedScopes, isKnownScope sc = true
  clientID : String
  redirectURIs : List String
  conditionalReplacer : Bool

/-- The instances, what each request draws at random, and the functions of the standard library on addresses and
hashes. -/
structure Deployment (σ : Type) where
  server : σ → Server
  randomToken : Nat → String
  fresh : Function.Injective randomToken
  sha256 : String → String
  parsesURL : String → Bool
  resourceMatchesTarget : String → String → Bool
  buildRedirectWithParam : String → String → String → String → Option String

/-! ### Requests -/

/-- The query of the authorize endpoint. -/
structure AuthorizeQuery where
  resource : List String
  responseType : String
  clientID : String
  redirectURI : String
  codeChallenge : String
  codeChallengeMethod : String
  scope : String
  state : String
  deriving DecidableEq

/-- The body of the consent endpoint. -/
structure ConsentRequest where
  clientID : String
  redirectURI : String
  codeChallenge : String
  codeChallengeMethod : String
  state : String
  scopes : List String
  decision : String
  deriving DecidableEq

/-- The form of the token endpoint. -/
structure TokenForm where
  resource : List String
  clientID : String
  grantType : String
  code : String
  codeVerifier : String
  redirectURI : String
  refreshToken : String
  deriving DecidableEq

/-- The endpoints; a body that cannot be read is `none`. -/
inductive Request where
  | authorize (browser : Bool) (q : AuthorizeQuery)
  | pending (rid : String)
  | consent (req : Option ConsentRequest)
  | token (form : Option TokenForm)
  deriving DecidableEq

/-- A request to an instance, with what the authenticator and the client registry answer to it (`none` is an error),
and whether there is entropy. -/
structure Arrival (σ : Type) where
  server : σ
  method : String
  request : Request
  principal : Option Principal
  dynamicClientRedirects : String → Option (List String)
  entropy : Bool

/-! ### Records and responses -/

/-- What an authorization code stands for. -/
structure AuthCodeRecord where
  audience : String
  subject : String
  email : String
  name : String
  groups : Option (List String)
  scope : String
  redirectURI : String
  codeChallenge : String
  clientID : String
  deriving DecidableEq

/-- What a refresh token stands for. -/
structure RefreshRecord where
  audience : String
  clientID : String
  subject : String
  email : String
  name : String
  groups : Option (List String)
  scope : String
  deriving DecidableEq

/-- What the consent page is to show. -/
structure PendingAuthzRecord where
  valid : Bool := false
  clientID : String := ""
  redirectURI : String := ""
  codeChallenge : String := ""
  codeChallengeMethod : String := ""
  state : String := ""
  scope : String := ""
  deriving DecidableEq

/-- What the cache holds. -/
inductive Payload where
  | authCode (rec : AuthCodeRecord)
  | refresh (rec : RefreshRecord)
  | pendingAuthz (rec : PendingAuthzRecord)
  deriving DecidableEq

/-- The claims of an access token. -/
structure SelfSignedClaims where
  subject : String
  email : String
  name : String
  issuer : String
  audience : String
  scope : String
  groups : Option (List String)
  deriving DecidableEq

structure TokenResponse where
  accessToken : SelfSignedClaims
  refreshToken : String
  tokenType : String
  scope : String
  deriving DecidableEq

inductive Response where
  | httpError (status : Nat) (text : String)
  | oauthError (status : Nat) (code description : String)
  | unauthenticated (challenge : String)
  | redirect (dest : String)
  | pending (rec : PendingAuthzRecord)
  | consent (redirectTo : String)
  | token (pair : TokenResponse)
  deriving DecidableEq

/-- A handler: a program over the cache. -/
abbrev Handler := Program String Payload Response

def authCodeKey (code : String) : String := "mcp:code:" ++ code
def refreshKey (token : String) : String := "mcp:refresh:" ++ token
def pendingAuthzKey (rid : String) : String := "mcp:pending:" ++ rid

inductive GrantError where
  | notFound
  | storage

/-- An outage must not tell a client that its grant is invalid. -/
def writeGrantError (err : GrantError) (missingDescription : String) : Response :=
  match err with
  | .notFound => .oauthError 400 "invalid_grant" missingDescription
  | .storage => .oauthError 503 "temporarily_unavailable" "authorization storage is temporarily unavailable"

def internalError : Response := .httpError 500 "internal error"

def methodNotAllowed : Response := .httpError 405 "method not allowed"

/-! ### Checks -/

def Server.writeUnauthenticated (s : Server) : Response :=
  .unauthenticated ("Bearer resource_metadata=\"" ++ s.publicURL ++ s.routePrefix ++
    "/.well-known/oauth-protected-resource\"")

variable {σ : Type}

/-- Whether the candidate is exactly one of the addresses registered for the client. -/
def Server.isRegisteredRedirect (s : Server) (a : Arrival σ) (clientID candidate : String) : Bool :=
  if candidate == "" then false
  else if clientID == s.clientID then s.redirectURIs.any (fun registered => candidate == registered)
  else
    match a.dynamicClientRedirects clientID with
    | none => false
    | some redirects => redirects.any (fun registered => candidate == registered)

/-- Whether the client may use this server; `none` is an error of the registry. -/
def Server.checkClientID (s : Server) (a : Arrival σ) (clientID : String) : Option Bool :=
  if clientID == "" then some false
  else if clientID == s.clientID then some true
  else (a.dynamicClientRedirects clientID).map (fun redirects => !redirects.isEmpty)

/-- No resource, or all of them this surface. -/
def Deployment.validResource (d : Deployment σ) (s : Server) (resources : List String) : Bool :=
  if resources.isEmpty then true
  else
    let want := s.publicURL ++ s.protocolPath
    d.parsesURL want && resources.all (fun resource => d.resourceMatchesTarget resource want)

def validatePKCE (codeChallenge codeChallengeMethod : String) : Bool :=
  !(codeChallenge == "" || codeChallengeMethod != "S256")

def errPKCE : Response := .oauthError 400 "invalid_request" "code_challenge with method S256 is required"

def errRedirect : Response := .oauthError 400 "invalid_request" "client_id or redirect_uri is not registered"

/-- The checks of the authorize endpoint for a caller that is authenticated: an error, or the redirect address and the
challenge. -/
def Deployment.validateAuthorizeRequest (d : Deployment σ) (s : Server) (a : Arrival σ) (q : AuthorizeQuery) :
    Except Response (String × String) :=
  if !d.validResource s q.resource then
    .error (.oauthError 400 "invalid_target" "resource does not identify this MCP surface")
  else if q.responseType != "code" then
    .error (.oauthError 400 "unsupported_response_type" "only response_type=code is supported")
  else if !s.isRegisteredRedirect a q.clientID q.redirectURI then .error errRedirect
  else if !validatePKCE q.codeChallenge q.codeChallengeMethod then .error errPKCE
  else .ok (q.redirectURI, q.codeChallenge)

def Server.supportsScope (s : Server) (sc : Scope) : Bool := s.supportedScopes.any (fun supported => sc == supported)

/-- The loop of `consentedScope` from the scopes granted so far. -/
def Server.consentLoop (s : Server) : List Scope → List String → Option (List Scope)
  | granted, [] => some granted
  | granted, r :: rs =>
    if !s.supportsScope r then none
    else if granted.contains r then s.consentLoop granted rs
    else s.consentLoop (granted ++ [r]) rs

/-- The scopes that the user ticked, each once. -/
def Server.consentedScope (s : Server) (requested : List String) : Option String :=
  if requested.isEmpty then none else (s.consentLoop [] requested).map scopesToString

def Deployment.pkceMatches (d : Deployment σ) (verifier challenge : String) : Bool := d.sha256 verifier == challenge

/-! ### Codes -/

/-- What is random in the `i`-th request; `none` is an error of the entropy source. -/
def Deployment.draw (d : Deployment σ) (i : Nat) (a : Arrival σ) : Option String :=
  if a.entropy then some (d.randomToken i) else none

/-- Store a record under a new code, and go on with the code, or with `none` on an error. -/
def Deployment.issueAuthCode (d : Deployment σ) (s : Server) (i : Nat) (a : Arrival σ) (rec : AuthCodeRecord)
    (next : Option String → Handler) : Handler :=
  let rec' := { rec with audience := s.audience }
  match d.draw i a with
  | none => next none
  | some code => .set (authCodeKey code) (.authCode rec') fun stored => next (if stored then some code else none)

/-- Where the client is sent with its code. -/
def Deployment.buildRedirectWithCode (d : Deployment σ) (redirectURI code state : String) : Option String :=
  d.buildRedirectWithParam redirectURI "code" code state

def Deployment.buildRedirectWithError (d : Deployment σ) (redirectURI errorCode state : String) : Option String :=
  d.buildRedirectWithParam redirectURI "error" errorCode state

def maxAuthorizeStateLen : Nat := 512
def maxAuthorizeScopeLen : Nat := 512
def maxAuthorizeChallengeLen : Nat := 128
def maxAuthorizeChallengeMethodLen : Nat := 32

/-- What is shown of a request on the consent page: all of it if it is valid, and nothing otherwise. -/
def Deployment.pendingOf (d : Deployment σ) (s : Server) (a : Arrival σ) (q : AuthorizeQuery) : PendingAuthzRecord :=
  if s.isRegisteredRedirect a q.clientID q.redirectURI && d.validResource s q.resource &&
      q.state.utf8ByteSize ≤ maxAuthorizeStateLen && q.scope.utf8ByteSize ≤ maxAuthorizeScopeLen &&
      q.codeChallenge.utf8ByteSize ≤ maxAuthorizeChallengeLen &&
      q.codeChallengeMethod.utf8ByteSize ≤ maxAuthorizeChallengeMethodLen then
    { valid := true, clientID := q.clientID, redirectURI := q.redirectURI, codeChallenge := q.codeChallenge,
      codeChallengeMethod := q.codeChallengeMethod, state := q.state, scope := q.scope }
  else {}

/-- A browser is sent to the consent page, whatever it asks for. -/
def Deployment.redirectToConsent (d : Deployment σ) (s : Server) (i : Nat) (a : Arrival σ) (q : AuthorizeQuery) :
    Handler :=
  match d.draw i a with
  | none => .done internalError
  | some rid =>
    .set (pendingAuthzKey rid) (.pendingAuthz (d.pendingOf s a q)) fun stored =>
      .done (if stored then .redirect (s.consentPath ++ "?rid=" ++ rid) else internalError)

def Principal.codeRecord (p : Principal) (scope redirectURI codeChallenge clientID : String) : AuthCodeRecord :=
  { audience := "", subject := p.subject, email := p.email, name := p.name, groups := some p.groups, scope,
    redirectURI, codeChallenge, clientID }

def Deployment.handleAuthorize (d : Deployment σ) (s : Server) (i : Nat) (a : Arrival σ) (browser : Bool)
    (q : AuthorizeQuery) : Handler :=
  if a.method != "GET" then .done methodNotAllowed
  else
    match a.principal with
    | none => if browser then d.redirectToConsent s i a q else .done s.writeUnauthenticated
    | some principal =>
      if browser then d.redirectToConsent s i a q
      else
        match d.validateAuthorizeRequest s a q with
        | .error e => .done e
        | .ok (redirectURI, codeChallenge) =>
          match negotiateScope principal q.scope with
          | none =>
            .done (.oauthError 400 "invalid_scope" "requested scope exceeds the scope granted to this principal")
          | some scope =>
            d.issueAuthCode s i a (principal.codeRecord scope redirectURI codeChallenge q.clientID) fun
              | none => .done internalError
              | some code =>
                match d.buildRedirectWithCode redirectURI code q.state with
                | none => .done internalError
                | some dest => .done (.redirect dest)

def Server.handleAuthorizePending (s : Server) (a : Arrival σ) (rid : String) : Handler :=
  let unknown : Response := .oauthError 400 "invalid_request" "unknown, expired, or invalid authorization request"
  if a.method != "GET" then .done methodNotAllowed
  else if a.principal.isNone then .done s.writeUnauthenticated
  else if rid == "" then .done unknown
  else
    .get (pendingAuthzKey rid) fun
      | some (some (.pendingAuthz rec)) => .done (if rec.valid then .pending rec else unknown)
      | _ => .done unknown

/-! ### Consent -/

def finishConsentDeny (d : Deployment σ) (req : ConsentRequest) : Handler :=
  match d.buildRedirectWithError req.redirectURI "access_denied" req.state with
  | none => .done internalError
  | some dest => .done (.consent dest)

def Deployment.finishConsentApprove (d : Deployment σ) (s : Server) (i : Nat) (a : Arrival σ) (principal : Principal)
    (req : ConsentRequest) : Handler :=
  if !validatePKCE req.codeChallenge req.codeChallengeMethod then .done errPKCE
  else
    match s.consentedScope req.scopes with
    | none => .done (.oauthError 400 "invalid_scope" "no valid scope was consented to")
    | some scope =>
      d.issueAuthCode s i a (principal.codeRecord scope req.redirectURI req.codeChallenge req.clientID) fun
        | none => .done internalError
        | some code =>
          match d.buildRedirectWithCode req.redirectURI code req.state with
          | none => .done internalError
          | some dest => .done (.consent dest)

def Deployment.handleAuthorizeConsent (d : Deployment σ) (s : Server) (i : Nat) (a : Arrival σ)
    (body : Option ConsentRequest) : Handler :=
  if a.method != "POST" then .done methodNotAllowed
  else
    match a.principal with
    | none => .done s.writeUnauthenticated
    | some principal =>
      match body with
      | none => .done (.oauthError 400 "invalid_request" "malformed JSON body")
      | some req =>
        if !s.isRegisteredRedirect a req.clientID req.redirectURI then .done errRedirect
        else if req.decision == "" || req.decision == "approve" then d.finishConsentApprove s i a principal req
        else if req.decision == "deny" then finishConsentDeny d req
        else .done (.oauthError 400 "invalid_request" "decision must be \"approve\" or \"deny\"")

/-! ### Tokens -/

/-- The pair of tokens and what the refresh token will stand for; `none` is an error of the entropy source. -/
def Deployment.prepareTokenPair (d : Deployment σ) (s : Server) (i : Nat) (a : Arrival σ)
    (clientID subject email name scope : String) (groups : Option (List String)) :
    Option (TokenResponse × RefreshRecord) :=
  let access : SelfSignedClaims :=
    { subject, email, name, issuer := s.publicURL, audience := s.audience, scope, groups }
  (d.draw i a).map fun refresh =>
    ({ accessToken := access, refreshToken := refresh, tokenType := "Bearer", scope },
      { audience := s.audience, clientID, subject, email, name, groups, scope })

def Deployment.issueTokenPair (d : Deployment σ) (s : Server) (i : Nat) (a : Arrival σ)
    (clientID subject email name scope : String) (groups : Option (List String)) : Handler :=
  match d.prepareTokenPair s i a clientID subject email name scope groups with
  | none => .done internalError
  | some (pair, payload) =>
    .set (refreshKey pair.refreshToken) (.refresh payload) fun stored =>
      .done (if stored then .token pair else internalError)

/-- Look up and delete a code in one operation. -/
def consumeAuthCode (code : String) (next : Except GrantError AuthCodeRecord → Handler) : Handler :=
  .getDel (authCodeKey code) fun
    | none => next (.error .storage)
    | some none => next (.error .notFound)
    | some (some (.authCode rec)) => next (.ok rec)
    | some (some _) => next (.error .storage)

def minCodeVerifierLength : Nat := 43
def maxCodeVerifierLength : Nat := 128

def Deployment.handleAuthorizationCodeGrant (d : Deployment σ) (s : Server) (i : Nat) (a : Arrival σ)
    (form : TokenForm) : Handler :=
  let code := form.code
  let verifier := form.codeVerifier
  if code == "" || verifier == "" then
    .done (.oauthError 400 "invalid_request" "code and code_verifier are required")
  else if verifier.utf8ByteSize < minCodeVerifierLength || verifier.utf8ByteSize > maxCodeVerifierLength then
    .done (.oauthError 400 "invalid_request" "code_verifier must be 43-128 characters")
  else
    consumeAuthCode code fun
      | .error err => .done (writeGrantError err "unknown or expired code")
      | .ok rec =>
        if rec.audience != s.audience then
          .done (.oauthError 400 "invalid_grant" "code was not issued for this MCP surface")
        else if form.clientID != rec.clientID then
          .done (.oauthError 400 "invalid_grant" "code was not issued to this client")
        else if form.redirectURI != rec.redirectURI then
          .done (.oauthError 400 "invalid_grant" "redirect_uri does not match the authorization request")
        else if !d.pkceMatches verifier rec.codeChallenge then
          .done (.oauthError 400 "invalid_grant" "code_verifier does not match")
        else d.issueTokenPair s i a rec.clientID rec.subject rec.email rec.name rec.scope rec.groups

/-- Look up and delete a refresh token in one operation. -/
def consumeRefreshToken (token : String) (next : Except GrantError RefreshRecord → Handler) : Handler :=
  .getDel (refreshKey token) fun
    | none => next (.error .storage)
    | some none => next (.error .notFound)
    | some (some (.refresh rec)) => next (.ok rec)
    | some (some _) => next (.error .storage)

/-- Whether a refresh token may not be used here by this client. -/
def RefreshRecord.misused (rec : RefreshRecord) (s : Server) (form : TokenForm) : Bool :=
  rec.audience != s.audience || rec.clientID == "" || rec.clientID != form.clientID

def errMisused : Response := .oauthError 400 "invalid_grant" "refresh token was not issued to this client"

def Deployment.handleAtomicRefreshTokenGrant (d : Deployment σ) (s : Server) (i : Nat) (a : Arrival σ)
    (form : TokenForm) (presented : String) : Handler :=
  let missing := "unknown or expired refresh_token"
  .get (refreshKey presented) fun
    | none => .done (writeGrantError .storage missing)
    | some none => .done (writeGrantError .notFound missing)
    | some (some (.refresh rec)) =>
      if rec.misused s form then .done errMisused
      else
        match d.prepareTokenPair s i a rec.clientID rec.subject rec.email rec.name rec.scope rec.groups with
        | none => .done internalError
        | some (pair, successor) =>
          .replace (refreshKey presented) (.refresh rec) (refreshKey pair.refreshToken) (.refresh successor) fun
            | none => .done (writeGrantError .storage missing)
            | some false => .done (writeGrantError .notFound missing)
            | some true => .done (.token pair)
    | some (some _) => .done (writeGrantError .storage missing)

def Deployment.handleRefreshTokenGrant (d : Deployment σ) (s : Server) (i : Nat) (a : Arrival σ) (form : TokenForm) :
    Handler :=
  let presented := form.refreshToken
  if presented == "" then .done (.oauthError 400 "invalid_request" "refresh_token is required")
  else if s.conditionalReplacer then d.handleAtomicRefreshTokenGrant s i a form presented
  else
    consumeRefreshToken presented fun
      | .error err => .done (writeGrantError err "unknown or expired refresh_token")
      | .ok rec =>
        if rec.misused s form then .done errMisused
        else d.issueTokenPair s i a rec.clientID rec.subject rec.email rec.name rec.scope rec.groups

def Deployment.handleToken (d : Deployment σ) (s : Server) (i : Nat) (a : Arrival σ) (body : Option TokenForm) :
    Handler :=
  if a.method != "POST" then .done methodNotAllowed
  else
    match body with
    | none => .done (.oauthError 400 "invalid_request" "malformed form body")
    | some form =>
      if !d.validResource s form.resource then
        .done (.oauthError 400 "invalid_target" "resource does not identify this MCP surface")
      else
        match s.checkClientID a form.clientID with
        | none => .done (writeGrantError .storage "unknown client_id")
        | some false => .done (.oauthError 400 "invalid_client" "unknown client_id")
        | some true =>
          if form.grantType == "authorization_code" then d.handleAuthorizationCodeGrant s i a form
          else if form.grantType == "refresh_token" then d.handleRefreshTokenGrant s i a form
          else .done (.oauthError 400 "unsupported_grant_type"
            "only authorization_code and refresh_token are supported")

/-! ### The system -/

/-- The handler of the `i`-th request. -/
def Deployment.serve (d : Deployment σ) (i : Nat) (a : Arrival σ) : Handler :=
  let s := d.server a.server
  match a.request with
  | .authorize browser q => d.handleAuthorize s i a browser q
  | .pending rid => s.handleAuthorizePending a rid
  | .consent body => d.handleAuthorizeConsent s i a body
  | .token body => d.handleToken s i a body

/-- The cache that the instances share, the requests and what each has got as its response so far. -/
abbrev System (σ : Type) := State (Arrival σ) String Payload Response

/-- Requests arrive, cache operations take place and entries expire, in any order. -/
def Deployment.run (d : Deployment σ) (events : List (Event (Arrival σ) String)) : System σ :=
  Lib.Run.run (step d.serve) State.init events

end Paprika.OAuth
