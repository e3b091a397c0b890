import Paprika.OAuth.Grants
import Paprika.OAuth.SessionStore

/-!
# Refresh tokens on the two caches

The token endpoint runs on a cache in memory, or on one that is kept in a Secret and can replace an entry.  The same
requests, one after another, are served on both.

* `Backend` — what an operation does on either cache, when it works; `getDel_serves` and its siblings tie the operations
  on the Secret to the store of sessions;
* `Deployment.step` — a request is served to its end, or time passes; `Deployment.Usable` — the next request with this
  token can get a pair of tokens for it;
* `codeGrant_complete`, `refreshGrant_complete_memory`, `refreshGrant_complete_secret` — what a grant answers and leaves,
  given what it finds;
* `usable_iff` — which tokens can be used.
-/

namespace Paprika.OAuth

open Lib.SharedStore Lib.Run Function Option

/-! ### The caches -/

/-- A stored record, and its expiry in nanoseconds, 0 for none. -/
structure Entry where
  payload : Payload
  expiry : Nat
  deriving DecidableEq

abbrev Items := String → Option Entry

/-- The cache in memory, and the one in a Secret, which supports `ConditionalReplacer`. -/
inductive Backend where
  | memory
  | secret
  deriving DecidableEq

namespace Backend

def conditionalReplacer : Backend → Bool
  | .memory => false
  | .secret => true

/-- In memory an entry has expired when `now` is after its expiry, in the Secret from then on. -/
def expired (b : Backend) (e : Entry) (now : Nat) : Bool :=
  e.expiry != 0 &&
    match b with
    | .memory => e.expiry < now
    | .secret => e.expiry ≤ now

def live (b : Backend) (m : Items) (now : Nat) : Items := fun k => (m k).filter fun e => !b.expired e now

def find (b : Backend) (m : Items) (now : Nat) (k : String) : Option Payload := (b.live m now k).map Entry.payload

/-- The entry is taken out; in the Secret one that has expired stays. -/
def getDel (b : Backend) (m : Items) (now : Nat) (k : String) : Items :=
  match b with
  | .memory => update m k none
  | .secret => if (b.live m now k).isSome then update m k none else m

def expiryOf (now ttl : Nat) : Nat := if 0 < ttl then now + ttl else 0

/-- An entry is stored; in the Secret this is when what has expired is removed. -/
def set (b : Backend) (m : Items) (now ttl : Nat) (k : String) (v : Payload) : Items :=
  match b with
  | .memory => update m k (some ⟨v, expiryOf now ttl⟩)
  | .secret => update (b.live m now) k (some ⟨v, expiryOf now ttl⟩)

/-- `Replace`; the cache in memory has none. -/
def replace (b : Backend) (m : Items) (now ttl : Nat) (old : String) (expected : Payload) (new : String) (v : Payload) :
    Option Bool × Items :=
  match b with
  | .memory => (none, m)
  | .secret =>
    if b.find m now old = some expected then
      -- a successor that exists already is an error
      if (m new).isSome then (none, m)
      else (some true, update (update m old none) new (some ⟨v, expiryOf now ttl⟩))
    else (some false, m)

/-- A program is run to its end at an instant, and every operation works. -/
def complete (b : Backend) (now ttl : Nat) {ρ : Type} : Program String Payload ρ → Items → ρ × Items
  | .done r, m => (r, m)
  | .get k next, m => complete b now ttl (next (some (b.find m now k))) m
  | .getDel k next, m => complete b now ttl (next (some (b.find m now k))) (b.getDel m now k)
  | .set k v next, m => complete b now ttl (next true) (b.set m now ttl k v)
  | .replace old expected new v next, m =>
    complete b now ttl (next (b.replace m now ttl old expected new v).1) (b.replace m now ttl old expected new v).2

variable {b : Backend} {now ttl : Nat} {ρ : Type} {k : String} {next : Option (Option Payload) → Program String Payload ρ} {m : Items}

theorem complete_get : b.complete now ttl (.get k next) m = b.complete now ttl (next (some (b.find m now k))) m := rfl

theorem complete_getDel :
    b.complete now ttl (.getDel k next) m = b.complete now ttl (next (some (b.find m now k))) (b.getDel m now k) := rfl

end Backend

/-! ### Histories -/

def Response.status : Response → Nat
  | .httpError status _ => status
  | .oauthError status _ _ => status
  | .unauthenticated _ => 401
  | .redirect _ => 302
  | .pending _ => 200
  | .consent _ => 200
  | .token _ => 200

/-- Time passes, or a request to the token endpoint is served. -/
inductive TokenEvent (σ : Type) where
  | wait (nanos : Nat)
  | request (a : Arrival σ) (form : Option TokenForm)

/-- The instant, what the cache holds, how many requests there were, and the statuses of their responses. -/
structure History where
  now : Nat
  items : Items
  count : Nat
  statuses : List Nat

variable {σ : Type}

/-- The instances on a cache. -/
def Deployment.on (d : Deployment σ) (b : Backend) : Deployment σ :=
  { d with server := fun srv => { d.server srv with conditionalReplacer := b.conditionalReplacer } }

/-- The next request, served. -/
def Deployment.answer (d : Deployment σ) (ttl : Nat) (b : Backend) (h : History) (a : Arrival σ) (form : Option TokenForm) :
    Response × Items :=
  b.complete h.now ttl ((d.on b).handleToken ((d.on b).server a.server) h.count a form) h.items

def Deployment.step (d : Deployment σ) (ttl : Nat) (b : Backend) (h : History) : TokenEvent σ → History
  | .wait nanos => { h with now := h.now + nanos }
  | .request a form =>
    { h with
      items := (d.answer ttl b h a form).2
      count := h.count + 1
      statuses := h.statuses ++ [(d.answer ttl b h a form).1.status] }

/-- A request with this refresh token can get a pair of tokens for it. -/
def Deployment.Usable (d : Deployment σ) (ttl : Nat) (b : Backend) (h : History) (t : String) : Prop :=
  ∃ (a : Arrival σ) (form : TokenForm), form.grantType = "refresh_token" ∧ form.refreshToken = t ∧
    (d.answer ttl b h a (some form)).1.status = 200

/-- What the cache holds when the requests begin: records under the keys of their kind, and none under a token that is
yet to be drawn. -/
structure Grants (d : Deployment σ) where
  items : Items
  codes : ∀ code e, items (authCodeKey code) = some e → ∃ rec, e.payload = .authCode rec
  tokens : ∀ t e, items (refreshKey t) = some e → ∃ rec, e.payload = .refresh rec
  unused : ∀ i, items (refreshKey (d.randomToken i)) = none

def Grants.start {d : Deployment σ} (g : Grants d) (now : Nat) : History := ⟨now, g.items, 0, []⟩

/-! ### What a grant answers and leaves -/

/-- What becomes of a grant: it is refused, or a successor is issued for it. -/
inductive Verdict where
  | refused (status : Nat)
  | issues (rec : RefreshRecord)

/-- Without entropy nothing is issued. -/
def Verdict.status (entropy : Bool) : Verdict → Nat
  | .refused status => status
  | .issues _ => if entropy then 200 else 500

def Verdict.written (entropy : Bool) : Verdict → Option RefreshRecord
  | .refused _ => none
  | .issues rec => if entropy then some rec else none

/-- The checks on a code, once it is there. -/
def Deployment.redeems (d : Deployment σ) (s : Server) (form : TokenForm) (rec : AuthCodeRecord) : Bool :=
  rec.audience == s.audience && form.clientID == rec.clientID && form.redirectURI == rec.redirectURI &&
    d.pkceMatches form.codeVerifier rec.codeChallenge

/-- The checks on a code before it is looked for. -/
def TokenForm.asksForCode (form : TokenForm) : Bool :=
  form.code != "" && form.codeVerifier != "" && minCodeVerifierLength ≤ form.codeVerifier.utf8ByteSize &&
    form.codeVerifier.utf8ByteSize ≤ maxCodeVerifierLength

def Deployment.codeVerdict (d : Deployment σ) (s : Server) (form : TokenForm) : Option Payload → Verdict
  | none => .refused 400
  | some (.authCode rec) =>
    if d.redeems s form rec then
      .issues ⟨s.audience, rec.clientID, rec.subject, rec.email, rec.name, rec.groups, rec.scope⟩
    else .refused 400
  | some _ => .refused 503

def Server.refreshVerdict (s : Server) (form : TokenForm) : Option Payload → Verdict
  | none => .refused 400
  | some (.refresh rec) =>
    if rec.misused s form then .refused 400
    else .issues ⟨s.audience, rec.clientID, rec.subject, rec.email, rec.name, rec.groups, rec.scope⟩
  | some _ => .refused 503

def Backend.store (b : Backend) (m : Items) (now ttl : Nat) (token : String) : Option RefreshRecord → Items
  | none => m
  | some rec => b.set m now ttl (refreshKey token) (.refresh rec)

/-- The Secret after a rotation, if there was one. -/
def rotated (m : Items) (now ttl : Nat) (presented token : String) : Option RefreshRecord → Items
  | none => m
  | some rec =>
    update (update m (refreshKey presented) none) (refreshKey token)
      (some ⟨.refresh rec, Backend.expiryOf now ttl⟩)

section
variable {d : Deployment σ} {b : Backend} {s : Server} {a : Arrival σ} {form : TokenForm} {m : Items} {now ttl i : Nat}

theorem issueTokenPair_complete (clientID subject email name scope : String) (groups : Option (List String)) :
    let v := Verdict.issues ⟨s.audience, clientID, subject, email, name, groups, scope⟩
    let p := b.complete now ttl (d.issueTokenPair s i a clientID subject email name scope groups) m
    p.1.status = v.status a.entropy ∧ p.2 = b.store m now ttl (d.randomToken i) (v.written a.entropy) := by
  simp only [Deployment.issueTokenPair, Deployment.prepareTokenPair, Deployment.draw]
  cases a.entropy with
  | false => exact ⟨rfl, rfl⟩
  | true => exact ⟨rfl, rfl⟩

theorem done_complete (text description : String) :
    let p := b.complete now ttl (Program.done (Response.oauthError 400 text description)) m
    p.1.status = (Verdict.refused 400).status a.entropy ∧
      p.2 = b.store m now ttl (d.randomToken i) ((Verdict.refused 400).written a.entropy) :=
  ⟨rfl, rfl⟩

theorem codeGrant_refused (h : form.asksForCode = false) :
    ∃ e, d.handleAuthorizationCodeGrant s i a form = .done e ∧ e.status = 400 := by
  unfold Deployment.handleAuthorizationCodeGrant
  simp only
  split_ifs with hempty hlen
  · exact ⟨_, rfl, rfl⟩
  · exact ⟨_, rfl, rfl⟩
  · simp only [Bool.or_eq_true, beq_iff_eq, not_or] at hempty
    simp [TokenForm.asksForCode, hempty] at h hlen
    omega

theorem codeGrant_complete (h : form.asksForCode = true) :
    let v := d.codeVerdict s form (b.find m now (authCodeKey form.code))
    let p := b.complete now ttl (d.handleAuthorizationCodeGrant s i a form) m
    p.1.status = v.status a.entropy ∧
      p.2 = b.store (b.getDel m now (authCodeKey form.code)) now ttl (d.randomToken i) (v.written a.entropy) := by
  simp only [TokenForm.asksForCode, Bool.and_eq_true, bne_iff_ne, decide_eq_true_eq] at h
  obtain ⟨⟨⟨hcode, hverifier⟩, hmin⟩, hmax⟩ := h
  simp only [Deployment.handleAuthorizationCodeGrant]
  rw [if_neg (by simp [hcode, hverifier]), if_neg (by simp; omega), consumeAuthCode, Backend.complete_getDel]
  cases hfind : b.find m now (authCodeKey form.code) with
  | none => exact ⟨rfl, rfl⟩
  | some payload =>
  cases payload with
  | refresh rec => exact ⟨rfl, rfl⟩
  | pendingAuthz rec => exact ⟨rfl, rfl⟩
  | authCode rec =>
  simp only [Deployment.codeVerdict, Deployment.redeems]
  by_cases haud : rec.audience = s.audience
  · by_cases hclient : form.clientID = rec.clientID
    · by_cases hredir : form.redirectURI = rec.redirectURI
      · by_cases hpkce : d.pkceMatches form.codeVerifier rec.codeChallenge = true
        · simpa [haud, hclient, hredir, hpkce] using issueTokenPair_complete _ _ _ _ _ _
        · simpa [haud, hclient, hredir, hpkce] using done_complete _ _
      · simpa [haud, hclient, hredir] using done_complete _ _
    · simpa [haud, hclient] using done_complete _ _
  · simpa [haud] using done_complete _ _

theorem refreshGrant_refused (h : form.refreshToken = "") :
    ∃ e, d.handleRefreshTokenGrant s i a form = .done e ∧ e.status = 400 := by
  unfold Deployment.handleRefreshTokenGrant
  simp only
  rw [if_pos (by simp [h])]
  exact ⟨_, rfl, rfl⟩

theorem refreshGrant_complete_memory (h : form.refreshToken ≠ "") (hs : s.conditionalReplacer = false) :
    let v := s.refreshVerdict form (b.find m now (refreshKey form.refreshToken))
    let p := b.complete now ttl (d.handleRefreshTokenGrant s i a form) m
    p.1.status = v.status a.entropy ∧
      p.2 = b.store (b.getDel m now (refreshKey form.refreshToken)) now ttl (d.randomToken i) (v.written a.entropy) := by
  simp only [Deployment.handleRefreshTokenGrant]
  rw [if_neg (by simpa using h), if_neg (by simp [hs]), consumeRefreshToken, Backend.complete_getDel]
  cases hfind : b.find m now (refreshKey form.refreshToken) with
  | none => exact ⟨rfl, rfl⟩
  | some payload =>
  cases payload with
  | authCode rec => exact ⟨rfl, rfl⟩
  | pendingAuthz rec => exact ⟨rfl, rfl⟩
  | refresh rec =>
  simp only [Server.refreshVerdict]
  cases rec.misused s form with
  | true => exact ⟨rfl, rfl⟩
  | false => exact issueTokenPair_complete _ _ _ _ _ _

theorem refreshGrant_complete_secret (h : form.refreshToken ≠ "") (hs : s.conditionalReplacer = true)
    (hunused : m (refreshKey (d.randomToken i)) = none) :
    let v := s.refreshVerdict form (Backend.secret.find m now (refreshKey form.refreshToken))
    let p := Backend.secret.complete now ttl (d.handleRefreshTokenGrant s i a form) m
    p.1.status = v.status a.entropy ∧
      p.2 = rotated m now ttl form.refreshToken (d.randomToken i) (v.written a.entropy) := by
  simp only [Deployment.handleRefreshTokenGrant]
  rw [if_neg (by simpa using h), if_pos hs, Deployment.handleAtomicRefreshTokenGrant, Backend.complete_get]
  cases hfind : Backend.secret.find m now (refreshKey form.refreshToken) with
  | none => exact ⟨rfl, rfl⟩
  | some payload =>
  cases payload with
  | authCode rec => exact ⟨rfl, rfl⟩
  | pendingAuthz rec => exact ⟨rfl, rfl⟩
  | refresh rec =>
  simp only [Server.refreshVerdict]
  cases rec.misused s form with
  | true => exact ⟨rfl, rfl⟩
  | false =>
  simp only [Deployment.prepareTokenPair, Deployment.draw]
  cases a.entropy with
  | false => exact ⟨rfl, rfl⟩
  | true =>
    simp only [Bool.false_eq_true, if_false, if_true, map_some, Backend.complete, Backend.replace,
      hfind, hunused, isSome_none]
    exact ⟨rfl, rfl⟩
end

/-! ### The checks before the grant -/

/-- The form of a request that gets as far as its grant, or the error that it gets before. -/
def Deployment.admits (d : Deployment σ) (s : Server) (a : Arrival σ) (body : Option TokenForm) : Except Response TokenForm :=
  if a.method != "POST" then .error methodNotAllowed
  else
    match body with
    | none => .error (.oauthError 400 "invalid_request" "malformed form body")
    | some form =>
      if !d.validResource s form.resource then
        .error (.oauthError 400 "invalid_target" "resource does not identify this MCP surface")
      else
        match s.checkClientID a form.clientID with
        | none => .error (writeGrantError .storage "unknown client_id")
        | some false => .error (.oauthError 400 "invalid_client" "unknown client_id")
        | some true =>
          if form.grantType == "authorization_code" || form.grantType == "refresh_token" then .ok form
          else .error (.oauthError 400 "unsupported_grant_type" "only authorization_code and refresh_token are supported")

section
variable {d : Deployment σ} {s : Server} {a : Arrival σ} {body : Option TokenForm} {i : Nat}

theorem admits_on (b : Backend) (srv : σ) : (d.on b).admits ((d.on b).server srv) a body = d.admits (d.server srv) a body := rfl

theorem handleToken_eq : d.handleToken s i a body =
    match d.admits s a body with
    | .error r => .done r
    | .ok form =>
      if form.grantType == "authorization_code" then d.handleAuthorizationCodeGrant s i a form
      else d.handleRefreshTokenGrant s i a form := by
  unfold Deployment.admits Deployment.handleToken
  by_cases hmethod : (a.method != "POST") = true
  · rw [if_pos hmethod, if_pos hmethod]
  rw [if_neg hmethod, if_neg hmethod]
  cases body with
  | none => rfl
  | some form =>
  simp only
  by_cases hres : (!d.validResource s form.resource) = true
  · rw [if_pos hres, if_pos hres]
  rw [if_neg hres, if_neg hres]
  cases s.checkClientID a form.clientID with
  | none => rfl
  | some known =>
  cases known with
  | false => rfl
  | true =>
  simp only
  by_cases hcode : (form.grantType == "authorization_code") = true
  · simp only [hcode, Bool.true_or, if_true]
  · by_cases hrefresh : (form.grantType == "refresh_token") = true
    · simp only [hcode, hrefresh, Bool.or_true, if_true]
    · simp only [hcode, hrefresh, Bool.or_self, Bool.false_eq_true, if_false]

theorem status_of_admits {r : Response} (h : d.admits s a body = .error r) : r.status ≠ 200 := by
  unfold Deployment.admits at h
  split at h
  · obtain rfl := Except.error.inj h
    decide
  cases body with
  | none =>
    obtain rfl := Except.error.inj h
    decide
  | some form =>
  simp only at h
  split at h
  · obtain rfl := Except.error.inj h
    decide
  split at h
  · obtain rfl := Except.error.inj h
    decide
  · obtain rfl := Except.error.inj h
    decide
  · split at h
    · cases h
    · obtain rfl := Except.error.inj h
      decide

theorem of_admits {form : TokenForm} (h : d.admits s a body = .ok form) :
    body = some form ∧ (form.grantType = "authorization_code" ∨ form.grantType = "refresh_token") := by
  unfold Deployment.admits at h
  split at h
  · cases h
  cases body with
  | none => cases h
  | some form' =>
  simp only at h
  split at h
  · cases h
  split at h
  · cases h
  · cases h
  · split_ifs at h with hgrant
    obtain rfl := Except.ok.inj h
    exact ⟨rfl, by simpa using hgrant⟩
end

/-! ### What an answer leaves -/

/-- What can be used as the token of a request: the record is for a client and a surface. -/
def Deployment.Redeemable (d : Deployment σ) (t : String) (rec : RefreshRecord) : Prop :=
  t ≠ "" ∧ rec.clientID ≠ "" ∧ ∃ srv, rec.audience = (d.server srv).audience

/-- The token is there, and has not expired for this cache. -/
def Holds (b : Backend) (h : History) (t : String) (rec : RefreshRecord) (x : Nat) : Prop :=
  h.items (refreshKey t) = some ⟨.refresh rec, x⟩ ∧ b.expired ⟨.refresh rec, x⟩ h.now = false

/-- Records are under the keys of their kind, and there are none under the tokens that are yet to be drawn. -/
structure Tidy (d : Deployment σ) (h : History) : Prop where
  codes : ∀ code e, h.items (authCodeKey code) = some e → ∃ rec, e.payload = .authCode rec
  tokens : ∀ t e, h.items (refreshKey t) = some e → ∃ rec, e.payload = .refresh rec
  unused : ∀ i, h.count ≤ i → h.items (refreshKey (d.randomToken i)) = none

section
variable {b : Backend} {m : Items} {now ttl : Nat} {k : String} {v : Payload} {e : Entry}

theorem live_eq_some : b.live m now k = some e ↔ m k = some e ∧ b.expired e now = false := by
  simp [Backend.live, filter_eq_some_iff]

theorem find_eq_some : b.find m now k = some v ↔ ∃ x, m k = some ⟨v, x⟩ ∧ b.expired ⟨v, x⟩ now = false := by
  rw [Backend.find, map_eq_some_iff]
  constructor
  · rintro ⟨e, he, rfl⟩
    exact ⟨e.expiry, live_eq_some.mp he⟩
  · rintro ⟨x, hx⟩
    exact ⟨⟨v, x⟩, live_eq_some.mpr hx, rfl⟩

theorem expired_memory (h : Backend.secret.expired e now = false) : Backend.memory.expired e now = false := by
  simp only [Backend.expired, Bool.and_eq_false_iff, decide_eq_false_iff_not] at h ⊢
  refine h.imp_right ?_
  omega

theorem expired_secret (h : Backend.memory.expired e now = false) (hset : e.expiry ≠ 0 → e.expiry ≠ now) :
    Backend.secret.expired e now = false := by
  simp only [Backend.expired, Bool.and_eq_false_iff, decide_eq_false_iff_not, bne_eq_false_iff_eq] at h ⊢
  omega

theorem getDel_some {j : String} (h : b.getDel m now k j = some e) : m j = some e := by
  cases b with
  | memory =>
    rw [Backend.getDel, update_apply] at h
    split_ifs at h
    exact h
  | secret =>
  rw [Backend.getDel] at h
  split_ifs at h
  · rw [update_apply] at h
    split_ifs at h
    exact h
  · exact h

theorem set_some {j : String} (h : b.set m now ttl k v j = some e) :
    m j = some e ∨ (j = k ∧ e = ⟨v, Backend.expiryOf now ttl⟩) := by
  cases b with
  | memory =>
    rw [Backend.set, update_apply] at h
    split_ifs at h with hj
    · exact .inr ⟨hj, (some.inj h).symm⟩
    · exact .inl h
  | secret =>
    rw [Backend.set, update_apply] at h
    split_ifs at h with hj
    · exact .inr ⟨hj, (some.inj h).symm⟩
    · exact .inl (live_eq_some.mp h).1
end

/-! ### The Secret as a store of sessions -/

section
variable {encode : Payload → List UInt8} {m : Items} {now ttl n : Nat} {k : String} {v : Payload}

/-- The entries as sessions, once the records are encoded. -/
def sessionsOf (encode : Payload → List UInt8) (m : Items) : Sessions := fun k =>
  (m k).map fun e => ⟨some (encode e.payload), e.expiry⟩

theorem expired_session (e : Entry) : Session.expired ⟨some (encode e.payload), e.expiry⟩ now =
    Backend.secret.expired e now := by
  simp [Session.expired, Backend.expired]

theorem live_sessions : (sessionsOf encode m).live (fun _ => now) = sessionsOf encode (Backend.secret.live m now) := by
  funext k
  simp only [Sessions.live, sessionsOf, Backend.live]
  cases m k with
  | none => rfl
  | some e => simp [filter_some, expired_session, apply_ite]

theorem find_sessions : ((sessionsOf encode m).live (fun _ => now) k).bind (·.value) =
    (Backend.secret.find m now k).map encode := by
  rw [live_sessions, sessionsOf, Backend.find]
  cases Backend.secret.live m now k with
  | none => rfl
  | some e => rfl

theorem put_sessions (e : Entry) : (sessionsOf encode m).put k ⟨some (encode e.payload), e.expiry⟩ =
    sessionsOf encode (update m k (some e)) := by
  funext j
  by_cases hj : j = k
  · subst hj
    simp [sessionsOf]
  · rw [Sessions.put_of_ne hj, sessionsOf, sessionsOf, update_of_ne hj]

theorem drop_sessions : (sessionsOf encode m).drop k = sessionsOf encode (update m k none) := by
  funext j
  by_cases hj : j = k
  · subst hj
    simp [sessionsOf]
  · rw [Sessions.drop_of_ne hj, sessionsOf, sessionsOf, update_of_ne hj]

theorem sessionOf_entry : sessionOf (some (encode v)) ttl now = ⟨some (encode v), Backend.expiryOf now ttl⟩ := by
  rw [sessionOf, Backend.expiryOf]
  split_ifs
  · rfl
  · omega
  · omega
  · rfl

theorem get_serves : (.get k : Operation n).serve (fun _ => now) (sessionsOf encode m) =
    some (sessionsOf encode m, .value ((Backend.secret.find m now k).map encode)) := by
  rw [← find_sessions]
  rfl

theorem getDel_serves : (.getDel k : Operation n).serve (fun _ => now) (sessionsOf encode m) =
    some (sessionsOf encode (Backend.secret.getDel m now k), .value ((Backend.secret.find m now k).map encode)) := by
  rw [← find_sessions, Operation.serve, Sessions.consume, Backend.getDel, live_sessions, drop_sessions]
  simp only [sessionsOf]
  cases Backend.secret.live m now k with
  | none => rfl
  | some e => rfl

theorem set_serves (nonce : Vector UInt8 n) : (Operation.set k (some (encode v)) ttl ⟨now, nonce⟩).serve (fun _ => now)
    (sessionsOf encode m) = some (sessionsOf encode (Backend.secret.set m now ttl k v), .done) := by
  rw [Operation.serve, live_sessions, sessionOf_entry, put_sessions ⟨v, Backend.expiryOf now ttl⟩]
  rfl

theorem replace_serves (hencode : Function.Injective encode) (nonce : Vector UInt8 n) (old new : String)
    (expected : Payload) :
    (Operation.replace old (some (encode expected)) new (some (encode v)) ttl ⟨now, nonce⟩).serve (fun _ => now)
        (sessionsOf encode m) =
      (Backend.secret.replace m now ttl old expected new v).1.map fun done =>
        (sessionsOf encode (Backend.secret.replace m now ttl old expected new v).2, .replaced done) := by
  rw [Operation.serve, Backend.replace, Backend.find, live_sessions, drop_sessions, sessionOf_entry,
    put_sessions ⟨v, Backend.expiryOf now ttl⟩]
  simp only [sessionsOf]
  cases Backend.secret.live m now old with
  | none => rfl
  | some e =>
  by_cases hsame : e.payload = expected
  · have hequal : Slice.equal (some (encode e.payload)) (some (encode expected)) = true := by
      simp [Slice.equal, hsame]
    subst hsame
    simp only [map_some, hequal, Bool.not_true, Bool.false_eq_true, if_false, if_true, isSome_map]
    by_cases hexists : (m new).isSome = true
    · rw [if_pos hexists, if_pos hexists]
      rfl
    · rw [if_neg hexists, if_neg hexists]
      rfl
  · have hequal : Slice.equal (some (encode e.payload)) (some (encode expected)) = false := by
      have hne : encode e.payload ≠ encode expected := fun h => hsame (hencode h)
      simpa [Slice.equal] using hne
    have hother : ¬(some e.payload : Option Payload) = some expected := fun h => hsame (some.inj h)
    simp only [map_some, hequal, Bool.not_false, if_true, if_neg hother]

/-- Records as they are stored, and read back. -/
structure Codec where
  encode : Payload → List UInt8
  decode : List UInt8 → Option Payload
  decode_encode : ∀ v, decode (encode v) = some v

/-- A program is run to its end on the store of sessions: each operation is served, and its answer decoded. -/
def Codec.serve (c : Codec) (now ttl : Nat) (nonce : Vector UInt8 n) {ρ : Type} :
    Program String Payload ρ → Sessions → ρ × Sessions
  | .done r, m => (r, m)
  | .get k next, m =>
    match (.get k : Operation n).serve (fun _ => now) m with
    | some (m, .value v) => c.serve now ttl nonce (next (some (v.bind c.decode))) m
    | _ => c.serve now ttl nonce (next none) m
  | .getDel k next, m =>
    match (.getDel k : Operation n).serve (fun _ => now) m with
    | some (m, .value v) => c.serve now ttl nonce (next (some (v.bind c.decode))) m
    | _ => c.serve now ttl nonce (next none) m
  | .set k v next, m =>
    match (Operation.set k (some (c.encode v)) ttl ⟨now, nonce⟩).serve (fun _ => now) m with
    | some (m, _) => c.serve now ttl nonce (next true) m
    | none => c.serve now ttl nonce (next false) m
  | .replace old expected new v next, m =>
    match (Operation.replace old (some (c.encode expected)) new (some (c.encode v)) ttl ⟨now, nonce⟩).serve
      (fun _ => now) m with
    | some (m, .replaced done) => c.serve now ttl nonce (next (some done)) m
    | _ => c.serve now ttl nonce (next none) m

end

section
variable {d : Deployment σ} {ttl : Nat} {b : Backend} {h : History} {a : Arrival σ} {body : Option TokenForm}
  {form : TokenForm}

variable (ttl) (b) (h)

theorem answer_error {r : Response} (hadmits : d.admits (d.server a.server) a body = .error r) :
    d.answer ttl b h a body = (r, h.items) := by
  rw [Deployment.answer, handleToken_eq, admits_on, hadmits]
  rfl

section
variable (hadmits : d.admits (d.server a.server) a body = .ok form)
include hadmits

theorem answer_code_refused (hkind : form.grantType = "authorization_code") (hasks : form.asksForCode = false) :
    (d.answer ttl b h a body).1.status = 400 ∧ (d.answer ttl b h a body).2 = h.items := by
  rw [Deployment.answer, handleToken_eq, admits_on, hadmits]
  simp only
  rw [if_pos (by simp [hkind])]
  obtain ⟨e, he, hstatus⟩ := codeGrant_refused hasks
  rw [he]
  exact ⟨hstatus, rfl⟩

theorem answer_code (hkind : form.grantType = "authorization_code") (hasks : form.asksForCode = true) :
    let v := d.codeVerdict (d.server a.server) form (b.find h.items h.now (authCodeKey form.code))
    (d.answer ttl b h a body).1.status = v.status a.entropy ∧
      (d.answer ttl b h a body).2 = b.store (b.getDel h.items h.now (authCodeKey form.code)) h.now ttl
        (d.randomToken h.count) (v.written a.entropy) := by
  simp only
  rw [Deployment.answer, handleToken_eq, admits_on, hadmits]
  simp only
  rw [if_pos (by simp [hkind])]
  exact codeGrant_complete hasks

theorem answer_refresh_refused (hkind : form.grantType = "refresh_token") (hempty : form.refreshToken = "") :
    (d.answer ttl b h a body).1.status = 400 ∧ (d.answer ttl b h a body).2 = h.items := by
  rw [Deployment.answer, handleToken_eq, admits_on, hadmits]
  simp only
  rw [if_neg (by simp [hkind])]
  obtain ⟨e, he, hstatus⟩ := refreshGrant_refused hempty
  rw [he]
  exact ⟨hstatus, rfl⟩

theorem answer_refresh_memory (hkind : form.grantType = "refresh_token") (hpresents : form.refreshToken ≠ "") :
    let v := (d.server a.server).refreshVerdict form (Backend.memory.find h.items h.now (refreshKey form.refreshToken))
    (d.answer ttl .memory h a body).1.status = v.status a.entropy ∧ (d.answer ttl .memory h a body).2 =
        Backend.memory.store (Backend.memory.getDel h.items h.now (refreshKey form.refreshToken)) h.now ttl
          (d.randomToken h.count) (v.written a.entropy) := by
  simp only
  rw [Deployment.answer, handleToken_eq, admits_on, hadmits]
  simp only
  rw [if_neg (by simp [hkind])]
  exact refreshGrant_complete_memory hpresents rfl
end

theorem answer_refresh_secret (htidy : Tidy d h) (hadmits : d.admits (d.server a.server) a body = .ok form)
    (hkind : form.grantType = "refresh_token") (hpresents : form.refreshToken ≠ "") :
    let v := (d.server a.server).refreshVerdict form (Backend.secret.find h.items h.now (refreshKey form.refreshToken))
    (d.answer ttl .secret h a body).1.status = v.status a.entropy ∧ (d.answer ttl .secret h a body).2 =
        rotated h.items h.now ttl form.refreshToken (d.randomToken h.count) (v.written a.entropy) := by
  simp only
  rw [Deployment.answer, handleToken_eq, admits_on, hadmits]
  simp only
  rw [if_neg (by simp [hkind])]
  exact refreshGrant_complete_secret hpresents rfl (htidy.unused _ (Nat.le_refl _))

variable {ttl} {b} {h}

section
variable {m : Items} {now : Nat} {token k : String} {v : Option RefreshRecord} {e : Entry}

theorem store_some (hk : b.store m now ttl token v k = some e) :
    m k = some e ∨ (k = refreshKey token ∧ ∃ rec, e = ⟨.refresh rec, Backend.expiryOf now ttl⟩) := by
  cases v with
  | none => exact .inl hk
  | some rec => exact (set_some hk).imp_right fun ⟨hk, he⟩ => ⟨hk, rec, he⟩

theorem rotated_some {presented : String}
    (hk : rotated m now ttl presented token v k = some e) :
    m k = some e ∨ (k = refreshKey token ∧ ∃ rec, e = ⟨.refresh rec, Backend.expiryOf now ttl⟩) := by
  cases v with
  | none => exact .inl hk
  | some rec =>
  rw [rotated, update_apply] at hk
  split_ifs at hk with hnew
  · exact .inr ⟨hnew, rec, (some.inj hk).symm⟩
  · rw [update_apply] at hk
    split_ifs at hk
    exact .inl hk
end

/-- An answer adds nothing to what is stored but a successor, under the token that was drawn for it. -/
theorem answer_some (htidy : Tidy d h) {k : String} {e : Entry} (hk : (d.answer ttl b h a body).2 k = some e) :
    h.items k = some e ∨
      (k = refreshKey (d.randomToken h.count) ∧ ∃ rec, e = ⟨.refresh rec, Backend.expiryOf h.now ttl⟩) := by
  cases hadmits : d.admits (d.server a.server) a body with
  | error r =>
    rw [answer_error _ _ _ hadmits] at hk
    exact .inl hk
  | ok form =>
  rcases (of_admits hadmits).2 with hkind | hkind
  · cases hasks : form.asksForCode with
    | false =>
      rw [(answer_code_refused _ _ _ hadmits hkind hasks).2] at hk
      exact .inl hk
    | true =>
      rw [(answer_code _ _ _ hadmits hkind hasks).2] at hk
      exact (store_some hk).imp_left getDel_some
  · by_cases hempty : form.refreshToken = ""
    · rw [(answer_refresh_refused _ _ _ hadmits hkind hempty).2] at hk
      exact .inl hk
    cases b with
    | memory =>
      rw [(answer_refresh_memory _ _ hadmits hkind hempty).2] at hk
      exact (store_some hk).imp_left getDel_some
    | secret =>
      rw [(answer_refresh_secret _ _ htidy hadmits hkind hempty).2] at hk
      exact rotated_some hk

theorem Tidy.request (htidy : Tidy d h) : Tidy d (d.step ttl b h (.request a body)) := by
  refine ⟨?_, ?_, ?_⟩
  · intro code e he
    rcases answer_some htidy he with hold | ⟨hkey, -⟩
    · exact htidy.codes code e hold
    · exact absurd hkey (authCodeKey_ne_refreshKey _ _)
  · intro t e he
    rcases answer_some htidy he with hold | ⟨-, rec, rfl⟩
    · exact htidy.tokens t e hold
    · exact ⟨rec, rfl⟩
  · intro i hi
    have hcount : h.count + 1 ≤ i := hi
    by_contra hsome
    obtain ⟨e, he⟩ := ne_none_iff_exists'.mp hsome
    rcases answer_some htidy he with hold | ⟨hkey, -⟩
    · rw [htidy.unused i (by omega)] at hold
      cases hold
    · have hsame := d.fresh (append_right_inj hkey)
      omega

theorem Tidy.step (htidy : Tidy d h) (e : TokenEvent σ) : Tidy d (d.step ttl b h e) := by
  cases e with
  | wait nanos => exact ⟨htidy.codes, htidy.tokens, htidy.unused⟩
  | request a body => exact htidy.request

theorem misused_of_not_redeemable {rec : RefreshRecord} (hpresents : form.refreshToken ≠ "")
    (h : ¬d.Redeemable form.refreshToken rec) (srv : σ) : rec.misused (d.server srv) form = true := by
  by_contra hnot
  rw [Bool.not_eq_true] at hnot
  simp only [RefreshRecord.misused, Bool.or_eq_false_iff, bne_eq_false_iff_eq, beq_eq_false_iff_ne] at hnot
  exact h ⟨hpresents, hnot.1.2, srv, hnot.1.1⟩

theorem refreshVerdict_cases (htidy : Tidy d h) (b : Backend) (hpresents : form.refreshToken ≠ "") (srv : σ) :
    (d.server srv).refreshVerdict form (b.find h.items h.now (refreshKey form.refreshToken)) = .refused 400 ∨
      ∃ rec x, Holds b h form.refreshToken rec x ∧ d.Redeemable form.refreshToken rec := by
  cases hfind : b.find h.items h.now (refreshKey form.refreshToken) with
  | none => exact .inl rfl
  | some payload =>
  obtain ⟨x, hitem, hlive⟩ := find_eq_some.mp hfind
  obtain ⟨rec, hrec⟩ := htidy.tokens _ _ hitem
  obtain rfl : payload = .refresh rec := hrec
  by_cases hredeem : d.Redeemable form.refreshToken rec
  · exact .inr ⟨rec, x, ⟨hitem, hlive⟩, hredeem⟩
  · left
    rw [Server.refreshVerdict, if_pos (misused_of_not_redeemable hpresents hredeem srv)]

theorem find_of_holds {t : String} {rec : RefreshRecord} {x : Nat} (hholds : Holds b h t rec x) :
    b.find h.items h.now (refreshKey t) = some (.refresh rec) :=
  find_eq_some.mpr ⟨x, hholds⟩

theorem answer_refresh_status (htidy : Tidy d h) (hadmits : d.admits (d.server a.server) a body = .ok form)
    (hkind : form.grantType = "refresh_token") (hpresents : form.refreshToken ≠ "") (b : Backend) :
    (d.answer ttl b h a body).1.status =
      ((d.server a.server).refreshVerdict form (b.find h.items h.now (refreshKey form.refreshToken))).status a.entropy := by
  cases b with
  | memory => exact (answer_refresh_memory _ _ hadmits hkind hpresents).1
  | secret => exact (answer_refresh_secret _ _ htidy hadmits hkind hpresents).1

/-- The request of the client that a token was issued to, at the surface that it was issued for. -/
def rightful (srv : σ) (clientID t : String) : Arrival σ × TokenForm :=
  ({ server := srv, method := "POST", request := .pending "", principal := none,
     dynamicClientRedirects := fun _ => some [""], entropy := true },
   { resource := [], clientID, grantType := "refresh_token", code := "", codeVerifier := "", redirectURI := "",
     refreshToken := t })

theorem admit_rightful {srv : σ} {clientID t : String} (hclient : clientID ≠ "") :
    d.admits (d.server srv) (rightful srv clientID t).1 (some (rightful srv clientID t).2) =
      .ok (rightful srv clientID t).2 := by
  have hknown : (d.server srv).checkClientID (rightful srv clientID t).1 clientID = some true := by
    rw [Server.checkClientID, if_neg (by simpa using hclient)]
    split_ifs
    · rfl
    · rfl
  have hmethod : ((rightful srv clientID t).1.method != "POST") = false := rfl
  have hres : d.validResource (d.server srv) (rightful srv clientID t).2.resource = true := rfl
  have hgrant : ((rightful srv clientID t).2.grantType == "authorization_code" ||
      (rightful srv clientID t).2.grantType == "refresh_token") = true := rfl
  have hform : (rightful srv clientID t).2.clientID = clientID := rfl
  simp only [Deployment.admits, hmethod, hres, hform, hknown, hgrant, Bool.false_eq_true, if_false, if_true,
    Bool.not_true]

/-- A token can be used if it is there, has not expired and was issued to a client for a surface. -/
theorem usable_iff (htidy : Tidy d h) (t : String) :
    d.Usable ttl b h t ↔ ∃ rec x, Holds b h t rec x ∧ d.Redeemable t rec := by
  constructor
  · rintro ⟨a, form, hkind, rfl, hstatus⟩
    cases hadmits : d.admits (d.server a.server) a (some form) with
    | error r =>
      rw [answer_error _ _ _ hadmits] at hstatus
      exact absurd hstatus (status_of_admits hadmits)
    | ok form' =>
    have hform : some form = some form' := (of_admits hadmits).1
    obtain rfl := some.inj hform
    by_cases hempty : form.refreshToken = ""
    · rw [(answer_refresh_refused _ _ _ hadmits hkind hempty).1] at hstatus
      cases hstatus
    · rcases refreshVerdict_cases htidy b hempty a.server with hrefused | husable
      · rw [answer_refresh_status htidy hadmits hkind hempty, hrefused] at hstatus
        cases hstatus
      · exact husable
  · rintro ⟨rec, x, hholds, hpresents, hclient, srv, haud⟩
    refine ⟨(rightful srv rec.clientID t).1, (rightful srv rec.clientID t).2, rfl, rfl, ?_⟩
    have hright : rec.misused (d.server srv) (rightful srv rec.clientID t).2 = false := by
      simp [RefreshRecord.misused, haud, hclient, rightful]
    rw [answer_refresh_status htidy (admit_rightful hclient) rfl hpresents]
    show (Server.refreshVerdict _ _ (b.find h.items h.now (refreshKey t))).status true = 200
    rw [find_of_holds hholds, Server.refreshVerdict]
    show (if rec.misused (d.server srv) (rightful srv rec.clientID t).2 then _ else _ : Verdict).status true = 200
    rw [hright]
    rfl
end

end Paprika.OAuth
