import Paprika.OAuth.Server

/-!
# What a request may store and answer

* `Granted` — what a consent, or an authorize request of a caller that is not a browser, grants; `Exchanges` — what a
  token request makes of the record that it presented;
* `contract` — a request stores one record, under a key of its own: a code for what it grants, or a refresh token for
  what it took in exchange; a pair of tokens is answered only then;
* **`conforms_serve`** — the handlers of all endpoints meet the contract, and **`invariant_of_run`** is what follows for
  every interleaving.
-/

namespace Paprika.OAuth

open Lib.SharedStore Deployment

variable {σ : Type} {d : Deployment σ}

/-! ### Keys -/

theorem authCodeKey_ne_refreshKey (c t : String) : authCodeKey c ≠ refreshKey t := by
  intro h
  have hlist := congrArg String.toList h
  simp [authCodeKey, refreshKey] at hlist

theorem authCodeKey_ne_pendingAuthzKey (c t : String) : authCodeKey c ≠ pendingAuthzKey t := by
  intro h
  have hlist := congrArg String.toList h
  simp [authCodeKey, pendingAuthzKey] at hlist

theorem refreshKey_ne_pendingAuthzKey (c t : String) : refreshKey c ≠ pendingAuthzKey t := by
  intro h
  have hlist := congrArg String.toList h
  simp [refreshKey, pendingAuthzKey] at hlist

theorem append_right_inj {p a b : String} (h : p ++ a = p ++ b) : a = b := by
  have hlist := congrArg String.toList h
  simpa [String.toList_inj] using hlist

/-- The keys under which the `i`-th request may store something. -/
def Deployment.Owns (d : Deployment σ) (i : Nat) (k : String) : Prop :=
  k = authCodeKey (d.randomToken i) ∨ k = refreshKey (d.randomToken i) ∨ k = pendingAuthzKey (d.randomToken i)

theorem Deployment.Owns.unique {i j : Nat} {k : String} (hi : d.Owns i k) (hj : d.Owns j k) : i = j := by
  refine d.fresh ?_
  obtain rfl | rfl | rfl := hi
  · obtain h | h | h := hj
    · exact append_right_inj h
    · exact absurd h (authCodeKey_ne_refreshKey _ _)
    · exact absurd h (authCodeKey_ne_pendingAuthzKey _ _)
  · obtain h | h | h := hj
    · exact absurd h.symm (authCodeKey_ne_refreshKey _ _)
    · exact append_right_inj h
    · exact absurd h (refreshKey_ne_pendingAuthzKey _ _)
  · obtain h | h | h := hj
    · exact absurd h.symm (authCodeKey_ne_pendingAuthzKey _ _)
    · exact absurd h.symm (refreshKey_ne_pendingAuthzKey _ _)
    · exact append_right_inj h

/-! ### What is granted -/

/-- Who grants what to which client, and how the client is to prove itself. -/
structure Grant where
  principal : Principal
  clientID : String
  redirectURI : String
  codeChallenge : String
  scope : String

def Grant.record (g : Grant) (audience : String) : AuthCodeRecord :=
  { g.principal.codeRecord g.scope g.redirectURI g.codeChallenge g.clientID with audience }

/-- What a refresh token that descends from a grant stands for. -/
def Grant.refreshRecord (g : Grant) (audience : String) : RefreshRecord :=
  { audience, clientID := g.clientID, subject := g.principal.subject, email := g.principal.email,
    name := g.principal.name, groups := some g.principal.groups, scope := g.scope }

/-- A consent `req` that was posted and approved by an authenticated principal, for an address that is registered for
the client as the request is served. -/
structure Consents (s : Server) (a : Arrival σ) (req : ConsentRequest) (g : Grant) : Prop where
  request : a.request = .consent (some req)
  method : a.method = "POST"
  principal : a.principal = some g.principal
  approved : req.decision = "" ∨ req.decision = "approve"
  clientID : req.clientID = g.clientID
  redirectURI : req.redirectURI = g.redirectURI
  codeChallenge : req.codeChallenge = g.codeChallenge
  registered : s.isRegisteredRedirect a g.clientID g.redirectURI = true
  scope : s.consentedScope req.scopes = some g.scope

/-- An authorize request of an authenticated principal that is not a browser, for an address that is registered for the
client as the request is served. -/
structure Authorizes (s : Server) (a : Arrival σ) (q : AuthorizeQuery) (g : Grant) : Prop where
  request : a.request = .authorize false q
  method : a.method = "GET"
  principal : a.principal = some g.principal
  clientID : q.clientID = g.clientID
  redirectURI : q.redirectURI = g.redirectURI
  codeChallenge : q.codeChallenge = g.codeChallenge
  registered : s.isRegisteredRedirect a g.clientID g.redirectURI = true
  scope : negotiateScope g.principal q.scope = some g.scope

/-- The two kinds of requests that grant a code. -/
def Granted (s : Server) (a : Arrival σ) (g : Grant) : Prop := (∃ req, Consents s a req g) ∨ ∃ q, Authorizes s a q g

def TokenForm.presented (form : TokenForm) : String :=
  if form.grantType = "authorization_code" then authCodeKey form.code else refreshKey form.refreshToken

/-- What a token request makes of the record it presented: the checks, and the record of the successor. -/
inductive Exchanges (d : Deployment σ) (s : Server) (form : TokenForm) : Payload → RefreshRecord → Prop where
  | code (rec : AuthCodeRecord) (kind : form.grantType = "authorization_code") (audience : rec.audience = s.audience)
      (client : form.clientID = rec.clientID) (redirect : form.redirectURI = rec.redirectURI)
      (verifier : d.sha256 form.codeVerifier = rec.codeChallenge) :
      Exchanges d s form (.authCode rec)
        { audience := s.audience, clientID := rec.clientID, subject := rec.subject, email := rec.email,
          name := rec.name, groups := rec.groups, scope := rec.scope }
  | refresh (rec : RefreshRecord) (kind : form.grantType ≠ "authorization_code") (audience : rec.audience = s.audience)
      (client : rec.clientID = form.clientID) :
      Exchanges d s form (.refresh rec)
        { audience := s.audience, clientID := rec.clientID, subject := rec.subject, email := rec.email,
          name := rec.name, groups := rec.groups, scope := rec.scope }

def Server.pair (s : Server) (token : String) (rec : RefreshRecord) : TokenResponse :=
  { accessToken :=
      { subject := rec.subject, email := rec.email, name := rec.name, issuer := s.publicURL, audience := s.audience,
        scope := rec.scope, groups := rec.groups }
    refreshToken := token
    tokenType := "Bearer"
    scope := rec.scope }

/-! ### What each request may do -/

/-- A token request took what it presented and exchanges it for `rec`. -/
def Succeeds (d : Deployment σ) (a : Arrival σ) (seen : List (Effect String Payload)) (rec : RefreshRecord) : Prop :=
  ∃ form v, a.request = .token (some form) ∧ Effect.took form.presented v ∈ seen ∧
    Exchanges d (d.server a.server) form v rec

/-- A code is stored for what the request grants, a refresh token for what the presented one stood for. -/
def MayStore (d : Deployment σ) (i : Nat) (a : Arrival σ) (seen : List (Effect String Payload)) (k : String) :
    Payload → Prop
  | .authCode rec => k = authCodeKey (d.randomToken i) ∧
      ∃ g, Granted (d.server a.server) a g ∧ rec = g.record (d.server a.server).audience
  | .refresh rec => k = refreshKey (d.randomToken i) ∧ Succeeds d a seen rec
  | .pendingAuthz _ => k = pendingAuthzKey (d.randomToken i)

/-- A pair is answered once its refresh token is stored. -/
def MayAnswer (d : Deployment σ) (i : Nat) (a : Arrival σ) (seen : List (Effect String Payload)) : Response → Prop
  | .token pair => ∃ rec, Succeeds d a seen rec ∧
      Effect.wrote (refreshKey (d.randomToken i)) (.refresh rec) ∈ seen ∧
      pair = (d.server a.server).pair (d.randomToken i) rec
  | _ => True

def contract (d : Deployment σ) (i : Nat) (a : Arrival σ) : Contract String Payload Response :=
  { owns := d.Owns i, may := MayStore d i a, post := MayAnswer d i a }

section
variable {i : Nat} {a : Arrival σ} {s : Server} {fresh : Bool} {seen : List (Effect String Payload)}

theorem Deployment.draw_eq {token : String} (h : d.draw i a = some token) : token = d.randomToken i := by
  simp only [draw] at h
  split at h
  · exact (Option.some.inj h).symm
  · cases h

theorem conforms_done {r : Response} (h : ∀ pair, r ≠ .token pair) : Conforms (contract d i a) (.done r) fresh seen := by
  show MayAnswer d i a seen r
  cases r with
  | token pair => exact absurd rfl (h pair)
  | _ => trivial

theorem conforms_writeGrantError (err : GrantError) (text : String) :
    Conforms (contract d i a) (.done (writeGrantError err text)) fresh seen := by
  refine conforms_done ?_
  intro pair
  cases err <;> simp [writeGrantError]

theorem conforms_issueAuthCode {g : Grant} {rec : AuthCodeRecord} {next : Option String → Handler}
    (hs : s = d.server a.server) (hgrant : Granted s a g)
    (hrec : rec = g.principal.codeRecord g.scope g.redirectURI g.codeChallenge g.clientID)
    (hnext : ∀ code fresh seen, Conforms (contract d i a) (next code) fresh seen) :
    Conforms (contract d i a) (d.issueAuthCode s i a rec next) true seen := by
  subst hs
  simp only [issueAuthCode]
  cases hdraw : d.draw i a with
  | none => exact hnext none true seen
  | some code =>
  have hcode := draw_eq hdraw
  subst hcode
  refine ⟨rfl, .inl rfl, ⟨rfl, g, hgrant, ?_⟩, hnext _ _ _, hnext _ _ _⟩
  rw [hrec]
  rfl

theorem conforms_redirectToConsent (q : AuthorizeQuery) :
    Conforms (contract d i a) (d.redirectToConsent s i a q) true seen := by
  simp only [redirectToConsent]
  cases hdraw : d.draw i a with
  | none => exact conforms_done (by simp [internalError])
  | some rid =>
  have hrid := draw_eq hdraw
  subst hrid
  refine ⟨rfl, .inr (.inr rfl), rfl, ?_, ?_⟩
  · exact conforms_done (by simp)
  · exact conforms_done (by simp [internalError])

variable {rec : RefreshRecord}

theorem conforms_issueTokenPair (hs : s = d.server a.server) (haud : rec.audience = s.audience)
    (h : Succeeds d a seen rec) :
    Conforms (contract d i a) (d.issueTokenPair s i a rec.clientID rec.subject rec.email rec.name rec.scope rec.groups)
      true seen := by
  subst hs
  simp only [issueTokenPair, prepareTokenPair]
  cases hdraw : d.draw i a with
  | none => exact conforms_done (by simp [internalError])
  | some token =>
  have htoken := draw_eq hdraw
  subst htoken
  have hrec : (⟨(d.server a.server).audience, rec.clientID, rec.subject, rec.email, rec.name, rec.groups,
      rec.scope⟩ : RefreshRecord) = rec := by
    rw [← haud]
  show Conforms (contract d i a) (.set _ (.refresh _) _) true seen
  rw [hrec]
  refine ⟨rfl, .inr (.inl rfl), ⟨rfl, h⟩, ?_, ?_⟩
  · obtain ⟨form, v, hform, htook, hexch⟩ := h
    exact ⟨rec, ⟨form, v, hform, List.mem_append_left _ htook, hexch⟩, by simp, rfl⟩
  · exact conforms_done (by simp [internalError])

/-- The client is sent to an address of its own, or there is an internal error. -/
theorem conforms_redirect {dest : Option String} {r : String → Response} (h : ∀ uri pair, r uri ≠ .token pair) :
    Conforms (contract d i a) (match dest with | none => .done internalError | some uri => .done (r uri)) fresh
      seen := by
  cases dest with
  | none => exact conforms_done (by simp [internalError])
  | some uri => exact conforms_done (h uri)

theorem conforms_handleAuthorize (hs : s = d.server a.server) (browser : Bool) (q : AuthorizeQuery)
    (hreq : a.request = .authorize browser q) :
    Conforms (contract d i a) (d.handleAuthorize s i a browser q) true [] := by
  unfold handleAuthorize
  by_cases hmethod : (a.method != "GET") = true
  · rw [if_pos hmethod]
    exact conforms_done (by simp [methodNotAllowed])
  rw [if_neg hmethod]
  have hget : a.method = "GET" := by simpa using hmethod
  cases hprincipal : a.principal with
  | none =>
    show Conforms (contract d i a) (if browser = true then _ else _) true []
    split_ifs
    · exact conforms_redirectToConsent q
    · exact conforms_done (by simp [Server.writeUnauthenticated])
  | some principal =>
  show Conforms (contract d i a) (if browser = true then _ else _) true []
  by_cases hbrowser : browser = true
  · rw [if_pos hbrowser]
    exact conforms_redirectToConsent q
  rw [if_neg hbrowser]
  have hapi : a.request = .authorize false q := by rw [hreq, Bool.eq_false_iff.mpr hbrowser]
  simp only [validateAuthorizeRequest]
  split_ifs with hres htype hredir hpkce
  · exact conforms_done (by simp)
  · exact conforms_done (by simp)
  · exact conforms_done (by simp [errRedirect])
  · exact conforms_done (by simp [errPKCE])
  have hreg : s.isRegisteredRedirect a q.clientID q.redirectURI = true := by simpa using hredir
  cases hscope : negotiateScope principal q.scope with
  | none => exact conforms_done (by simp)
  | some scope =>
  let g : Grant := ⟨principal, q.clientID, q.redirectURI, q.codeChallenge, scope⟩
  have hgrant : Granted s a g := .inr ⟨q, hapi, hget, hprincipal, rfl, rfl, rfl, hreg, hscope⟩
  refine conforms_issueAuthCode (g := g) hs hgrant rfl ?_
  intro code fresh seen
  cases code with
  | none => exact conforms_done (by simp [internalError])
  | some code => exact conforms_redirect (by simp)

theorem conforms_pending {unknown : Response} (hunk : unknown = .oauthError 400 "invalid_request"
    "unknown, expired, or invalid authorization request") (reply : Option (Option Payload)) :
    Conforms (contract d i a)
      (match reply with
      | some (some (.pendingAuthz rec)) => .done (if rec.valid then .pending rec else unknown)
      | _ => .done unknown) fresh seen := by
  subst hunk
  split
  · refine conforms_done ?_
    intro pair
    split_ifs <;> simp
  · exact conforms_done (by simp)

theorem conforms_handleAuthorizePending (rid : String) :
    Conforms (contract d i a) (s.handleAuthorizePending a rid) true [] := by
  simp only [Server.handleAuthorizePending]
  split_ifs
  · exact conforms_done (by simp [methodNotAllowed])
  · exact conforms_done (by simp [Server.writeUnauthenticated])
  · exact conforms_done (by simp)
  · intro reply
    exact conforms_pending rfl reply

theorem conforms_handleAuthorizeConsent (hs : s = d.server a.server) (body : Option ConsentRequest)
    (hreq : a.request = .consent body) :
    Conforms (contract d i a) (d.handleAuthorizeConsent s i a body) true [] := by
  simp only [handleAuthorizeConsent]
  split_ifs with hmethod
  · exact conforms_done (by simp [methodNotAllowed])
  have hpost : a.method = "POST" := by simpa using hmethod
  cases hprincipal : a.principal with
  | none => exact conforms_done (by simp [Server.writeUnauthenticated])
  | some principal =>
  cases body with
  | none => exact conforms_done (by simp)
  | some req =>
  simp only
  split_ifs with hredir happrove hdeny
  · exact conforms_done (by simp [errRedirect])
  · have hreg : s.isRegisteredRedirect a req.clientID req.redirectURI = true := by simpa using hredir
    have happroved : req.decision = "" ∨ req.decision = "approve" := by simpa using happrove
    simp only [finishConsentApprove]
    split_ifs with hpkce
    · exact conforms_done (by simp [errPKCE])
    cases hscope : s.consentedScope req.scopes with
    | none => exact conforms_done (by simp)
    | some scope =>
    let g : Grant := ⟨principal, req.clientID, req.redirectURI, req.codeChallenge, scope⟩
    have hgrant : Granted s a g :=
      .inl ⟨req, hreq, hpost, hprincipal, happroved, rfl, rfl, rfl, hreg, hscope⟩
    refine conforms_issueAuthCode (g := g) hs hgrant rfl ?_
    intro code fresh seen
    cases code with
    | none => exact conforms_done (by simp [internalError])
    | some code => exact conforms_redirect (by simp)
  · exact conforms_redirect (by simp)
  · exact conforms_done (by simp)

variable {form : TokenForm}

theorem conforms_handleAuthorizationCodeGrant (hs : s = d.server a.server)
    (hreq : a.request = .token (some form)) (hkind : form.grantType = "authorization_code") :
    Conforms (contract d i a) (d.handleAuthorizationCodeGrant s i a form) true [] := by
  simp only [handleAuthorizationCodeGrant]
  split_ifs
  · exact conforms_done (by simp)
  · exact conforms_done (by simp)
  have hpres : form.presented = authCodeKey form.code := by rw [TokenForm.presented, if_pos hkind]
  intro reply
  match reply with
  | none => exact conforms_writeGrantError _ _
  | some none => exact conforms_writeGrantError _ _
  | some (some (.refresh _)) => exact conforms_writeGrantError _ _
  | some (some (.pendingAuthz _)) => exact conforms_writeGrantError _ _
  | some (some (.authCode rec)) =>
    simp only
    split_ifs with haud hclient hredir hpkce
    · exact conforms_done (by simp)
    · exact conforms_done (by simp)
    · exact conforms_done (by simp)
    · exact conforms_done (by simp)
    have hexch : Exchanges d s form (.authCode rec) ⟨s.audience, rec.clientID, rec.subject, rec.email, rec.name,
        rec.groups, rec.scope⟩ := by
      refine .code rec hkind ?_ ?_ ?_ ?_
      · simpa using haud
      · simpa using hclient
      · simpa using hredir
      · simpa [pkceMatches] using hpkce
    have hsucceeds : Succeeds d a ([] ++ taken (authCodeKey form.code) (some (.authCode rec)))
        ⟨s.audience, rec.clientID, rec.subject, rec.email, rec.name, rec.groups, rec.scope⟩ := by
      refine ⟨form, .authCode rec, hreq, ?_, hs ▸ hexch⟩
      simp [hpres, taken]
    exact conforms_issueTokenPair hs rfl hsucceeds

theorem exchanges_of_not_misused (hkind : form.grantType ≠ "authorization_code")
    (h : rec.misused s form = false) : Exchanges d s form (.refresh rec) rec ∧ rec.audience = s.audience := by
  simp only [RefreshRecord.misused, Bool.or_eq_false_iff, bne_eq_false_iff_eq] at h
  obtain ⟨⟨haud, _⟩, hclient⟩ := h
  refine ⟨?_, haud⟩
  have hexch : Exchanges d s form (.refresh rec) ⟨s.audience, rec.clientID, rec.subject, rec.email, rec.name,
      rec.groups, rec.scope⟩ := .refresh rec hkind haud hclient
  rwa [← haud] at hexch

section
variable (hs : s = d.server a.server) (hreq : a.request = .token (some form))
  (hkind : form.grantType ≠ "authorization_code")
include hs hreq hkind

theorem conforms_handleAtomicRefreshTokenGrant :
    Conforms (contract d i a) (d.handleAtomicRefreshTokenGrant s i a form form.refreshToken) true [] := by
  simp only [handleAtomicRefreshTokenGrant]
  have hpres : form.presented = refreshKey form.refreshToken := by rw [TokenForm.presented, if_neg hkind]
  intro reply
  match reply with
  | none => exact conforms_writeGrantError _ _
  | some none => exact conforms_writeGrantError _ _
  | some (some (.authCode _)) => exact conforms_writeGrantError _ _
  | some (some (.pendingAuthz _)) => exact conforms_writeGrantError _ _
  | some (some (.refresh rec)) =>
    simp only
    split_ifs with hmisused
    · exact conforms_done (by simp [errMisused])
    obtain ⟨hexch, haud⟩ := exchanges_of_not_misused (d := d) hkind (Bool.eq_false_iff.mpr hmisused)
    simp only [prepareTokenPair]
    cases hdraw : d.draw i a with
    | none => exact conforms_done (by simp [internalError])
    | some token =>
    have htoken := draw_eq hdraw
    subst htoken hs
    have hrec : (⟨(d.server a.server).audience, rec.clientID, rec.subject, rec.email, rec.name, rec.groups,
        rec.scope⟩ : RefreshRecord) = rec := by
      rw [← haud]
    show Conforms (contract d i a) (.replace _ _ _ (.refresh _) _) true []
    rw [hrec]
    have hsucceeds : ∀ seen, Effect.took (refreshKey form.refreshToken) (.refresh rec) ∈ seen →
        Succeeds d a seen rec := by
      intro seen hseen
      exact ⟨form, .refresh rec, hreq, by rw [hpres]; exact hseen, hexch⟩
    refine ⟨rfl, .inr (.inl rfl), ⟨rfl, hsucceeds _ (by simp)⟩, ?_, ?_, ?_⟩
    · exact ⟨rec, hsucceeds _ (by simp), by simp, rfl⟩
    · exact conforms_writeGrantError _ _
    · exact conforms_writeGrantError _ _

theorem conforms_handleRefreshTokenGrant :
    Conforms (contract d i a) (d.handleRefreshTokenGrant s i a form) true [] := by
  simp only [handleRefreshTokenGrant]
  split_ifs
  · exact conforms_done (by simp)
  · exact conforms_handleAtomicRefreshTokenGrant hs hreq hkind
  have hpres : form.presented = refreshKey form.refreshToken := by rw [TokenForm.presented, if_neg hkind]
  intro reply
  match reply with
  | none => exact conforms_writeGrantError _ _
  | some none => exact conforms_writeGrantError _ _
  | some (some (.authCode _)) => exact conforms_writeGrantError _ _
  | some (some (.pendingAuthz _)) => exact conforms_writeGrantError _ _
  | some (some (.refresh rec)) =>
    simp only
    split_ifs with hmisused
    · exact conforms_done (by simp [errMisused])
    obtain ⟨hexch, haud⟩ := exchanges_of_not_misused (d := d) hkind (Bool.eq_false_iff.mpr hmisused)
    have hsucceeds : Succeeds d a ([] ++ taken (refreshKey form.refreshToken) (some (.refresh rec))) rec := by
      refine ⟨form, .refresh rec, hreq, ?_, hs ▸ hexch⟩
      simp [hpres, taken]
    exact conforms_issueTokenPair hs haud hsucceeds
end

theorem conforms_handleToken (hs : s = d.server a.server) (body : Option TokenForm) (hreq : a.request = .token body) :
    Conforms (contract d i a) (d.handleToken s i a body) true [] := by
  unfold handleToken
  by_cases hmethod : (a.method != "POST") = true
  · rw [if_pos hmethod]
    exact conforms_done (by simp [methodNotAllowed])
  rw [if_neg hmethod]
  cases body with
  | none => exact conforms_done (by simp)
  | some form =>
  show Conforms (contract d i a) (if (!d.validResource s form.resource) = true then _ else _) true []
  by_cases hres : (!d.validResource s form.resource) = true
  · rw [if_pos hres]
    exact conforms_done (by simp)
  rw [if_neg hres]
  match s.checkClientID a form.clientID with
  | none => exact conforms_writeGrantError _ _
  | some false => exact conforms_done (by simp)
  | some true =>
    simp only
    split_ifs with hcode hrefresh
    · exact conforms_handleAuthorizationCodeGrant hs hreq (by simpa using hcode)
    · exact conforms_handleRefreshTokenGrant hs hreq (by simpa using hcode)
    · exact conforms_done (by simp)
end

/-- **Every handler meets its contract.** -/
theorem conforms_serve (d : Deployment σ) (i : Nat) (a : Arrival σ) :
    Conforms (contract d i a) (d.serve i a) true [] := by
  simp only [serve]
  cases hreq : a.request with
  | authorize browser q => exact conforms_handleAuthorize rfl browser q hreq
  | pending rid => exact conforms_handleAuthorizePending rid
  | consent body => exact conforms_handleAuthorizeConsent rfl body hreq
  | token body => exact conforms_handleToken rfl body hreq

theorem invariant_of_run (d : Deployment σ) (events : List (Event (Arrival σ) String)) :
    Invariant (contract d) (d.run events) :=
  invariant_run (fun _ _ _ _ _ hi hj => Owns.unique hi hj) (conforms_serve d) events

end Paprika.OAuth
