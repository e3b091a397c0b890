import Paprika.OAuth.Grants

/-!
# Grants are used once and do not widen

What a request grants is carried unchanged from the code to every pair of tokens along its refresh chain, and each code
and each refresh token leads to one pair at most.

* `consentedScope_spec`, `negotiateScope_spec` — the scope of a consent is what was ticked, never empty and within what
  the server supports; the scope of an authorize request is within the principal's;
* `GrantedAt`, `Leads`, `Issued` — the grants, the exchanges and the answers of a run;
* **`origin_of_grounded`** — every stored record is that of the grant at the root of its chain, by induction along it;
* **`grants_single_use`** — the properties of every run.
-/

namespace Paprika.OAuth

open Lib.SharedStore List

variable {σ : Type} {d : Deployment σ}

/-! ### Scopes -/

theorem Server.consentLoop_spec (s : Server) {rs : List String} : ∀ {granted out : List Scope},
    s.consentLoop granted rs = some out →
      (∀ sc, sc ∈ out ↔ sc ∈ granted ∨ sc ∈ rs) ∧ (∀ sc ∈ rs, sc ∈ s.supportedScopes) ∧ (granted.Nodup → out.Nodup) := by
  induction rs with
  | nil =>
    intro granted out h
    simp only [Server.consentLoop, Option.some.injEq] at h
    subst h
    simp
  | cons r rs ih =>
    intro granted out h
    simp only [Server.consentLoop] at h
    split_ifs at h with hsupp hdup
    · obtain ⟨hmem, hall, hnd⟩ := ih h
      have hr : r ∈ s.supportedScopes := by simpa [Server.supportsScope] using hsupp
      have hgrant : r ∈ granted := by simpa using hdup
      refine ⟨?_, ?_, hnd⟩
      · intro sc
        rw [hmem sc, mem_cons]
        constructor
        · rintro (hleft | hright)
          · exact .inl hleft
          · exact .inr (.inr hright)
        · rintro (hleft | rfl | hright)
          · exact .inl hleft
          · exact .inl hgrant
          · exact .inr hright
      · intro sc hsc
        rcases mem_cons.mp hsc with rfl | hrest
        · exact hr
        · exact hall sc hrest
    · obtain ⟨hmem, hall, hnd⟩ := ih h
      have hr : r ∈ s.supportedScopes := by simpa [Server.supportsScope] using hsupp
      refine ⟨?_, ?_, ?_⟩
      · intro sc
        rw [hmem sc, mem_append, mem_singleton, mem_cons, or_assoc]
      · intro sc hsc
        rcases mem_cons.mp hsc with rfl | hrest
        · exact hr
        · exact hall sc hrest
      · intro hg
        refine hnd (nodup_append.mpr ⟨hg, by simp, ?_⟩)
        intro x hx y hy hxy
        rw [mem_singleton] at hy
        subst hy hxy
        exact hdup (by simpa using hx)

theorem scopesToString_ne_empty {scopes : List Scope} (hne : scopes ≠ []) (hknown : ∀ sc ∈ scopes, isKnownScope sc = true) :
    scopesToString scopes ≠ "" := by
  intro h
  cases scopes with
  | nil => exact hne rfl
  | cons sc rest =>
  have hempty : sc = "" := by
    cases rest with
    | nil => simpa [scopesToString] using h
    | cons sc' rest =>
      rw [scopesToString, String.intercalate_cons_cons] at h
      simp at h
  have hsc := hknown sc mem_cons_self
  rw [hempty] at hsc
  exact absurd hsc (by decide)

/-- **The scope of a consent**: what was ticked, once each, at least one scope, all of them supported. -/
theorem Server.consentedScope_spec (s : Server) {requested : List String} {scope : String}
    (h : s.consentedScope requested = some scope) :
    scope ≠ "" ∧ ∃ scopes : List Scope, scope = scopesToString scopes ∧ scopes.Nodup ∧
      (∀ sc, sc ∈ scopes ↔ sc ∈ requested) ∧ ∀ sc ∈ scopes, sc ∈ s.supportedScopes := by
  simp only [Server.consentedScope] at h
  split_ifs at h with hempty
  obtain ⟨scopes, hloop, rfl⟩ := Option.map_eq_some_iff.mp h
  obtain ⟨hmem, hall, hnd⟩ := s.consentLoop_spec hloop
  have hiff : ∀ sc, sc ∈ scopes ↔ sc ∈ requested := by
    intro sc
    rw [hmem sc]
    simp
  have hsupp : ∀ sc ∈ scopes, sc ∈ s.supportedScopes := fun sc hsc => hall sc ((hiff sc).mp hsc)
  refine ⟨?_, scopes, rfl, hnd nodup_nil, hiff, hsupp⟩
  refine scopesToString_ne_empty ?_ (fun sc hsc => s.known sc (hsupp sc hsc))
  intro hnil
  subst hnil
  refine hempty ?_
  rw [List.isEmpty_iff, List.eq_nil_iff_forall_not_mem]
  intro sc hsc
  exact absurd ((hiff sc).mpr hsc) List.not_mem_nil

/-- **The scope of an authorize request** is within the scopes of the principal. -/
theorem negotiateScope_spec {principal : Principal} {requested scope : String}
    (h : negotiateScope principal requested = some scope) :
    ∃ scopes : List Scope, scope = scopesToString scopes ∧
      ∀ sc ∈ scopes, sc ∈ ParseScopes (String.intercalate " " principal.scopes) := by
  simp only [negotiateScope] at h
  split_ifs at h with hempty hwords hheld
  · exact ⟨_, (Option.some.inj h).symm, fun sc hsc => hsc⟩
  · refine ⟨_, (Option.some.inj h).symm, ?_⟩
    intro sc hsc
    have hsc' := all_eq_true.mp hheld sc hsc
    simpa [HasScope] using hsc'

/-! ### Grants, exchanges and answers of a run -/

/-- The `j`-th request granted `g`, and a code was stored for it. -/
def GrantedAt (d : Deployment σ) (st : System σ) (j : Nat) (b : Arrival σ) (g : Grant) : Prop :=
  Started st j b ∧ Granted (d.server b.server) b g ∧
    (j, Effect.wrote (authCodeKey (d.randomToken j)) (.authCode (g.record (d.server b.server).audience))) ∈ st.effects

/-- A token request took what is stored under `k` and stored its successor under `k'`. -/
def Leads (st : System σ) (k k' : String) : Prop :=
  ∃ i a form v v', Started st i a ∧ a.request = .token (some form) ∧ form.presented = k ∧
    (i, Effect.took k v) ∈ st.effects ∧ (i, Effect.wrote k' v') ∈ st.effects

/-- What is stored under `k'` descends from what is stored under `k`, through any number of exchanges. -/
def Descends (st : System σ) : String → String → Prop := Relation.ReflTransGen (Leads st)

def Issued (st : System σ) (i : Nat) (a : Arrival σ) (form : TokenForm) (pair : TokenResponse) : Prop :=
  ∃ p, st.processes[i]? = some p ∧ p.cause = a ∧ a.request = .token (some form) ∧ p.now.result? = some (.token pair)

/-- The scope of a grant: of a consent, exactly what was ticked, not empty and supported; otherwise within the scopes
of the principal. -/
def ScopeGranted (s : Server) (b : Arrival σ) (g : Grant) : Prop :=
  (∃ req, Consents s b req g ∧ g.scope ≠ "" ∧ ∃ scopes : List Scope, g.scope = scopesToString scopes ∧ scopes.Nodup ∧
    (∀ sc, sc ∈ scopes ↔ sc ∈ req.scopes) ∧ ∀ sc ∈ scopes, sc ∈ s.supportedScopes) ∨
  ∃ q, Authorizes s b q g ∧ ∃ scopes : List Scope, g.scope = scopesToString scopes ∧
    ∀ sc ∈ scopes, sc ∈ ParseScopes (String.intercalate " " g.principal.scopes)

/-- A pair carries what was granted, for this surface and to the client that presents itself. -/
structure Carries (s : Server) (form : TokenForm) (pair : TokenResponse) (g : Grant) : Prop where
  subject : pair.accessToken.subject = g.principal.subject
  email : pair.accessToken.email = g.principal.email
  name : pair.accessToken.name = g.principal.name
  groups : pair.accessToken.groups = some g.principal.groups
  audience : pair.accessToken.audience = s.audience
  accessScope : pair.accessToken.scope = g.scope
  scope : pair.scope = g.scope
  client : form.clientID = g.clientID

variable {b : Arrival σ} {g : Grant} {s : Server}

theorem Granted.scopeGranted (h : Granted s b g) : ScopeGranted s b g := by
  rcases h with ⟨req, hreq⟩ | ⟨q, hq⟩
  · exact .inl ⟨req, hreq, s.consentedScope_spec hreq.scope⟩
  · exact .inr ⟨q, hq, negotiateScope_spec hq.scope⟩

theorem Granted.registered (h : Granted s b g) : s.isRegisteredRedirect b g.clientID g.redirectURI = true := by
  rcases h with ⟨req, hreq⟩ | ⟨q, hq⟩
  · exact hreq.registered
  · exact hq.registered

theorem Granted.not_token (h : Granted s b g) (body : Option TokenForm) : b.request ≠ .token body := by
  rcases h with ⟨req, hreq⟩ | ⟨q, hq⟩
  · simp [hreq.request]
  · simp [hq.request]

theorem started_unique {st : System σ} {i : Nat} {a : Arrival σ} (ha : Started st i a) (hb : Started st i b) :
    a = b := by
  obtain ⟨p, hp, rfl⟩ := ha
  obtain ⟨q, hq, rfl⟩ := hb
  rw [hp] at hq
  rw [Option.some.inj hq]

/-! ### Origins -/

/-- A stored code is that of a grant of its author; a stored refresh token descends from the code of a grant and
stands for the same. -/
def Origin (d : Deployment σ) (st : System σ) (i : Nat) (k : String) : Payload → Prop
  | .authCode rec => ∃ b g, GrantedAt d st i b g ∧ k = authCodeKey (d.randomToken i) ∧
      rec = g.record (d.server b.server).audience
  | .refresh rec => ∃ j b g, GrantedAt d st j b g ∧ Descends st (authCodeKey (d.randomToken j)) k ∧
      rec = g.refreshRecord (d.server b.server).audience
  | .pendingAuthz _ => True

theorem Origin.exchange {st : System σ} {i : Nat} {k k' : String} {form : TokenForm} {v : Payload}
    {rec : RefreshRecord} (h : Origin d st i k v) (hexch : Exchanges d s form v rec) (hleads : Leads st k k') :
    ∃ j b g, GrantedAt d st j b g ∧ Descends st (authCodeKey (d.randomToken j)) k' ∧
      rec = g.refreshRecord (d.server b.server).audience ∧ (d.server b.server).audience = s.audience ∧
      form.clientID = g.clientID := by
  cases hexch with
  | code r kind haud hclient hredir hverifier =>
    obtain ⟨b, g, hg, hk, hr⟩ := h
    have hsame : (d.server b.server).audience = s.audience := by
      rw [← haud, hr]
      rfl
    refine ⟨i, b, g, hg, ?_, ?_, hsame, ?_⟩
    · rw [← hk]
      exact .single hleads
    · rw [hsame, hr]
      rfl
    · rw [hclient, hr]
      rfl
  | refresh r kind haud hclient =>
    obtain ⟨j, b, g, hg, hchain, hr⟩ := h
    have hsame : (d.server b.server).audience = s.audience := by
      rw [← haud, hr]
      rfl
    refine ⟨j, b, g, hg, hchain.tail hleads, ?_, hsame, ?_⟩
    · rw [hsame, hr]
      rfl
    · rw [← hclient, hr]
      rfl

/-- **Origins**, by induction along the chain of exchanges. -/
theorem origin_of_grounded {st : System σ} {i : Nat} {k : String} {v : Payload}
    (h : Grounded (contract d) st i k v) : Origin d st i k v := by
  induction h with
  | intro i k v a ground origin wrote started grounds may _ ih =>
    cases v with
    | authCode rec =>
      obtain ⟨hk, g, hgrant, hrec⟩ : MayStore d i a ground k (.authCode rec) := may
      subst hk hrec
      exact ⟨a, g, ⟨started, hgrant, wrote⟩, rfl, rfl⟩
    | pendingAuthz rec => trivial
    | refresh rec =>
    obtain ⟨_, form, v, hform, htook, hexch⟩ : MayStore d i a ground k (.refresh rec) := may
    have hleads : Leads st form.presented k :=
      ⟨i, a, form, v, .refresh rec, started, hform, rfl, grounds _ htook, wrote⟩
    obtain ⟨j, b, g, hg, hchain, hrec, _⟩ := Origin.exchange (ih _ _ htook) hexch hleads
    exact ⟨j, b, g, hg, hchain, hrec⟩

section
variable {st : System σ} (h : Invariant (contract d) st)

include h

variable {a : Arrival σ} {form : TokenForm} {i : Nat} {k : String} {pair : TokenResponse}

/-- What a pair was issued for: it was taken, and the record of the refresh token is stored. -/
theorem succeeds_of_issued
    (hissued : Issued st i a form pair) : ∃ v rec, Started st i a ∧ (i, Effect.took form.presented v) ∈ st.effects ∧
      Exchanges d (d.server a.server) form v rec ∧
      (i, Effect.wrote (refreshKey (d.randomToken i)) (.refresh rec)) ∈ st.effects ∧
      pair = (d.server a.server).pair (d.randomToken i) rec := by
  obtain ⟨p, hp, rfl, hform, hres⟩ := hissued
  obtain ⟨rec, ⟨form', v, hform', htook, hexch⟩, hwrote, hpair⟩ :
      MayAnswer d i p.cause p.seen (.token pair) := h.result hp hres
  have hsame : form' = form := by
    rw [hform] at hform'
    exact (Option.some.inj (Request.token.inj hform')).symm
  subst hsame
  exact ⟨v, rec, ⟨p, hp, rfl⟩, h.told i p hp _ htook, hexch, h.told i p hp _ hwrote, hpair⟩

theorem origin_of_took {v : Payload} (htook : (i, Effect.took k v) ∈ st.effects) :
    ∃ j, (j, Effect.wrote k v) ∈ st.effects ∧ Origin d st j k v := by
  obtain ⟨j, hj⟩ := h.ledger.took_wrote i k v htook
  exact ⟨j, hj, origin_of_grounded (h.grounded j k v hj)⟩

theorem leads_parent_unique {k₁ k₂ : String} (h₁ : Leads st k₁ k) (h₂ : Leads st k₂ k) : k₁ = k₂ := by
  obtain ⟨i, a, form, v, w, hstart, hform, rfl, _, hwrote⟩ := h₁
  obtain ⟨j, b, form', v', w', hstarted', hform', rfl, _, hwrote'⟩ := h₂
  obtain ⟨rfl, _⟩ := h.ledger.wrote_unique i j k w w' hwrote hwrote'
  have hab := started_unique hstart hstarted'
  subst hab
  rw [hform] at hform'
  rw [Option.some.inj (Request.token.inj hform')]

/-- **One successor.** -/
theorem leads_successor_unique {k₁ k₂ : String} (h₁ : Leads st k k₁) (h₂ : Leads st k k₂) : k₁ = k₂ := by
  obtain ⟨i, _, _, v, w, _, _, _, htook, hwrote⟩ := h₁
  obtain ⟨j, _, _, v', w', _, _, _, htook', hwrote'⟩ := h₂
  obtain ⟨rfl, _⟩ := h.ledger.took_unique i j k v v' htook htook'
  exact h.wrote_once i k₁ k₂ w w' hwrote hwrote'

theorem granted_is_root {j : Nat} {b : Arrival σ} {g : Grant} (hg : GrantedAt d st j b g) (k : String) :
    ¬Leads st k (authCodeKey (d.randomToken j)) := by
  intro hleads
  obtain ⟨i, a, form, _, w, hstart, hform, _, _, hwrote⟩ := hleads
  obtain ⟨hstarted', hgrant, hcode⟩ := hg
  obtain ⟨rfl, _⟩ := h.ledger.wrote_unique i j _ _ _ hwrote hcode
  have hab := started_unique hstart hstarted'
  subst hab
  exact hgrant.not_token _ hform

/-- **One pair** for what is presented. -/
theorem issued_unique {j : Nat} {b : Arrival σ} {form' : TokenForm} {pair' : TokenResponse}
    (hi : Issued st i a form pair) (hj : Issued st j b form' pair') (hsame : form.presented = form'.presented) :
    i = j := by
  obtain ⟨v, _, _, htook, _⟩ := succeeds_of_issued h hi
  obtain ⟨v', _, _, htook', _⟩ := succeeds_of_issued h hj
  rw [hsame] at htook
  exact (h.ledger.took_unique i j _ v v' htook htook').1

/-- **Descent.**  Every pair descends from exactly one grant, and carries what was granted there. -/
theorem issued_descends (hissued : Issued st i a form pair) : ∃ j b g, GrantedAt d st j b g ∧
      Descends st (authCodeKey (d.randomToken j)) (refreshKey pair.refreshToken) ∧
      (∀ j' b' g', GrantedAt d st j' b' g' →
        Descends st (authCodeKey (d.randomToken j')) (refreshKey pair.refreshToken) → j' = j) ∧
      ScopeGranted (d.server b.server) b g ∧ (d.server b.server).audience = (d.server a.server).audience ∧
      Carries (d.server a.server) form pair g ∧
      (i, Effect.wrote (refreshKey pair.refreshToken) (.refresh (g.refreshRecord (d.server a.server).audience)))
        ∈ st.effects := by
  have hform : a.request = .token (some form) := by
    obtain ⟨_, _, _, hrequest, _⟩ := hissued
    exact hrequest
  obtain ⟨v, rec, hstart, htook, hexch, hwrote, rfl⟩ := succeeds_of_issued h hissued
  obtain ⟨l, _, horigin⟩ := origin_of_took h htook
  have hleads : Leads st form.presented (refreshKey (d.randomToken i)) :=
    ⟨i, a, form, v, .refresh rec, hstart, hform, rfl, htook, hwrote⟩
  obtain ⟨j, b, g, hg, hchain, hrec, haud, hclient⟩ := horigin.exchange hexch hleads
  subst hrec
  refine ⟨j, b, g, hg, hchain, ?_, hg.2.1.scopeGranted, haud, ?_, ?_⟩
  · intro j' b' g' hg' hchain'
    have hroot : authCodeKey (d.randomToken j') = authCodeKey (d.randomToken j) := by
      have hparent : ∀ k₁ k₂ k, Leads st k₁ k → Leads st k₂ k → k₁ = k₂ :=
        fun _ _ _ h₁ h₂ => leads_parent_unique h h₁ h₂
      exact root_unique hparent (granted_is_root h hg') (granted_is_root h hg) hchain' hchain
    exact d.fresh (append_right_inj hroot)
  · exact ⟨rfl, rfl, rfl, rfl, rfl, rfl, rfl, hclient⟩
  · rw [← haud]
    exact hwrote

/-- **Proof of possession.**  A code is exchanged by a request that presents the client, the address and a verifier
of the grant. -/
theorem issued_for_code (hissued : Issued st i a form pair) (hkind : form.grantType = "authorization_code") :
    ∃ j b g, GrantedAt d st j b g ∧ form.code = d.randomToken j ∧ form.clientID = g.clientID ∧
      form.redirectURI = g.redirectURI ∧
      (d.server b.server).isRegisteredRedirect b g.clientID g.redirectURI = true ∧
      d.sha256 form.codeVerifier = g.codeChallenge := by
  obtain ⟨v, rec, _, htook, hexch, _⟩ := succeeds_of_issued h hissued
  obtain ⟨j, _, horigin⟩ := origin_of_took h htook
  cases hexch with
  | refresh r hrefresh => exact absurd hkind hrefresh
  | code r _ _ hclient hredir hverifier =>
  obtain ⟨b, g, hg, hk, hr⟩ := horigin
  rw [TokenForm.presented, if_pos hkind] at hk
  subst hr
  exact ⟨j, b, g, hg, append_right_inj hk, hclient, hredir, hg.2.1.registered, hverifier⟩
end

/-- **Grants are used once and do not widen.** -/
theorem grants_single_use (d : Deployment σ) (events : List (Event (Arrival σ) String)) :
    (∀ i j a b form form' pair pair', Issued (d.run events) i a form pair → Issued (d.run events) j b form' pair' →
      form.presented = form'.presented → i = j) ∧
    (∀ k k₁ k₂, Leads (d.run events) k k₁ → Leads (d.run events) k k₂ → k₁ = k₂) ∧
    (∀ i a form pair, Issued (d.run events) i a form pair → ∃ j b g, GrantedAt d (d.run events) j b g ∧
      Descends (d.run events) (authCodeKey (d.randomToken j)) (refreshKey pair.refreshToken) ∧
      (∀ j' b' g', GrantedAt d (d.run events) j' b' g' →
        Descends (d.run events) (authCodeKey (d.randomToken j')) (refreshKey pair.refreshToken) → j' = j) ∧
      ScopeGranted (d.server b.server) b g ∧ (d.server b.server).audience = (d.server a.server).audience ∧
      Carries (d.server a.server) form pair g ∧
      (i, Effect.wrote (refreshKey pair.refreshToken) (.refresh (g.refreshRecord (d.server a.server).audience)))
        ∈ (d.run events).effects) ∧
    (∀ i a form pair, Issued (d.run events) i a form pair → form.grantType = "authorization_code" →
      ∃ j b g, GrantedAt d (d.run events) j b g ∧ form.code = d.randomToken j ∧ form.clientID = g.clientID ∧
        form.redirectURI = g.redirectURI ∧
        (d.server b.server).isRegisteredRedirect b g.clientID g.redirectURI = true ∧
        d.sha256 form.codeVerifier = g.codeChallenge) := by
  have h := invariant_of_run d events
  refine ⟨?_, ?_, ?_, ?_⟩
  · intro i j a b form form' pair pair' hi hj hsame
    exact issued_unique h hi hj hsame
  · intro k k₁ k₂ h₁ h₂
    exact leads_successor_unique h h₁ h₂
  · intro i a form pair hissued
    exact issued_descends h hissued
  · intro i a form pair hissued hkind
    exact issued_for_code h hissued hkind

/-! ### A run without a consent -/

section

def shopVerifier : String := "dBjftJeZ4CVP-mB92K27uhbUJU1p1r_wW1gFWFOEjXk"
def shopChallenge : String := "E9Melhoa2OwvFrEMTJguCHaoeK1t8URWbuGJSstw-cM"

def shopServer : Server :=
  { publicURL := "https://paprika.shop", routePrefix := "/mcp", consentPath := "/mcp/consent", protocolPath := "/mcp",
    audience := "paprika-mcp", supportedScopes := [ScopeRead, ScopeWrite], known := by decide, clientID := "claude",
    redirectURIs := ["https://claude.shop/callback"], conditionalReplacer := false }

/-- One instance; the random tokens are told apart by their length. -/
def shop : Deployment Unit :=
  { server := fun _ => shopServer
    randomToken := fun i => String.ofList (List.replicate (i + 1) 'x')
    fresh := Lib.Text.marks_injective
    sha256 := fun verifier => if verifier = shopVerifier then shopChallenge else verifier
    parsesURL := fun _ => true
    resourceMatchesTarget := fun resource want => resource == want
    buildRedirectWithParam := fun uri key value _ => some (uri ++ "?" ++ key ++ "=" ++ value) }

def shopArrival (method : String) (request : Request) (principal : Option Principal) : Arrival Unit :=
  ⟨(), method, request, principal, fun _ => some [], true⟩

/-- A console user, whose credential carries no scope. -/
def shopUser : Principal := ⟨"ada", "ada@shop", "Ada", ["team"], []⟩

def shopQuery : AuthorizeQuery :=
  ⟨[], "code", "claude", "https://claude.shop/callback", shopChallenge, "S256", "", ""⟩

def shopForm (code refreshToken grantType : String) : TokenForm :=
  ⟨[], "claude", grantType, code, shopVerifier, "https://claude.shop/callback", refreshToken⟩

/-- The user's tool asks for a code without a scope, and exchanges it. -/
def shopRun : List (Event (Arrival Unit) String) :=
  [.start (shopArrival "GET" (.authorize false shopQuery) (some shopUser)), .advance 0 .ok,
    .start (shopArrival "POST" (.token (some (shopForm "x" "" "authorization_code"))) none),
    .advance 1 .ok, .advance 1 .ok]

theorem pair_without_consent : ∃ i a form pair, Issued (shop.run shopRun) i a form pair ∧ pair.scope = "" ∧
    ∀ j b req, Started (shop.run shopRun) j b → b.request ≠ .consent req := by
  refine ⟨1, shopArrival "POST" (.token (some (shopForm "x" "" "authorization_code"))) none, _, _,
    ⟨_, rfl, rfl, rfl, rfl⟩, by decide, ?_⟩
  intro j b req hstarted
  obtain ⟨p, hp, rfl⟩ := hstarted
  match j, hp with
  | 0, hp =>
    rw [← Option.some.inj hp]
    show Request.authorize false shopQuery ≠ _
    simp
  | 1, hp =>
    rw [← Option.some.inj hp]
    show Request.token (some (shopForm "x" "" "authorization_code")) ≠ _
    simp
end

end Paprika.OAuth
