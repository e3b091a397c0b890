import Paprika.OAuth.SessionStore
import Paprika.OAuth.SingleUse

/-!
# What an authorize request reveals

A browser that asks to be authorized is sent to the consent page whatever it asks for, but only once a record of the
request is stored; the record of a request whose client and address are registered holds them, and any other is empty.

* `marshalPending` — the record as it is stored;
* `SharedCache` — the cache that it is stored in: in memory, or in the Secret, with what the API server answers to `Set`;
* `storesIn_iff` — when the Secret takes a record: by its size, and by the room in every Secret that was read;
* **`consent_alike_iff`** — when a registered and an unregistered request have the same response.
-/

namespace Paprika.OAuth

open Lib.KeyedMap Lib.OptimisticUpdates Lib.SharedStore List Option

/-! ### The record as it is stored -/

def hexDigit (n : Nat) : UInt8 := UInt8.ofNat (if n < 10 then 48 + n else 87 + n)

/-- A character in a JSON string, as `encoding/json` writes it. -/
def jsonChar (c : Char) : List UInt8 :=
  if c = '"' ∨ c = '\\' then [92, UInt8.ofNat c.toNat]
  else if c.toNat = 8 then [92, 98]
  else if c.toNat = 12 then [92, 102]
  else if c = '\n' then [92, 110]
  else if c = '\r' then [92, 114]
  else if c = '\t' then [92, 116]
  else if c.toNat < 32 ∨ c = '<' ∨ c = '>' ∨ c = '&' ∨ c.toNat = 0x2028 ∨ c.toNat = 0x2029 then
    [92, 117, hexDigit (c.toNat / 4096 % 16), hexDigit (c.toNat / 256 % 16), hexDigit (c.toNat / 16 % 16),
      hexDigit (c.toNat % 16)]
  else String.utf8EncodeChar c

def jsonString (s : String) : List UInt8 := 34 :: s.toList.flatMap jsonChar ++ [34]

/-- A field with `omitempty`. -/
def jsonField (name value : String) : List UInt8 :=
  if value = "" then [] else 44 :: jsonString name ++ 58 :: jsonString value

/-- `json.Marshal` of a `pendingAuthzRecord`. -/
def marshalPending (rec : PendingAuthzRecord) : List UInt8 :=
  123 :: jsonString "valid" ++ 58 :: bytes (if rec.valid then "true" else "false") ++
    jsonField "client_id" rec.clientID ++ jsonField "redirect_uri" rec.redirectURI ++
    jsonField "code_challenge" rec.codeChallenge ++ jsonField "code_challenge_method" rec.codeChallengeMethod ++
    jsonField "state" rec.state ++ jsonField "scope" rec.scope ++ [125]

/-! ### The cache -/

/-- How the API server answers an update. -/
inductive UpdateReply where
  | ok
  | conflict
  | failed
  deriving DecidableEq

/-- What one try of `Set` meets: the Secret that it reads, if it can, the clock, and the answer to its update. -/
structure Try where
  found : Option SecretData
  now : Clock
  update : UpdateReply

/-- Whether an operation that writes succeeds, within a number of tries. -/
def SecretCache.storesIn (c : SecretCache) (op : Operation c.nonceSize) : Nat → List Try → Bool
  | 0, _ => false
  | _, [] => false
  | n + 1, t :: ts =>
    match t.found with
    | none => false
    | some data =>
      match c.attempt op t.now data with
      | .refused => false
      | .answered _ => true
      | .write _ _ =>
        match t.update with
        | .ok => true
        | .conflict => c.storesIn op n ts
        | .failed => false

/-- The cache in memory, which takes everything, or the Secret. -/
inductive SharedCache where
  | memory
  | secret (c : SecretCache) (draw : Draw c.nonceSize) (tries : List Try)

/-- `pendingAuthzTTL` in nanoseconds. -/
def pendingAuthzTTL : Int := 600000000000

/-- Whether a record of a request is stored. -/
def SharedCache.stores (cache : SharedCache) (key : String) (rec : PendingAuthzRecord) : Bool :=
  match cache with
  | .memory => true
  | .secret c draw tries => c.storesIn (.set key (some (marshalPending rec)) pendingAuthzTTL draw) secretSteps tries

/-- The response of a handler that does nothing with the cache but store one such record. -/
def SharedCache.respond (cache : SharedCache) : Handler → Option Response
  | .done r => some r
  | .set key (.pendingAuthz rec) next => (next (cache.stores key rec)).result?
  | _ => none

variable {σ : Type}

def Deployment.consentResponse (d : Deployment σ) (cache : SharedCache) (i : Nat) (a : Arrival σ) (q : AuthorizeQuery) :
    Option Response :=
  cache.respond (d.handleAuthorize (d.server a.server) i a true q)

/-- A browser gets a response, which depends on what it asks for only in that a record of it is stored or not. -/
theorem consentResponse_eq (d : Deployment σ) (cache : SharedCache) (i : Nat) (a : Arrival σ) (q : AuthorizeQuery) :
    d.consentResponse cache i a q = some
      (if a.method != "GET" then methodNotAllowed
      else if a.entropy && cache.stores (pendingAuthzKey (d.randomToken i)) (d.pendingOf (d.server a.server) a q) then
        .redirect ((d.server a.server).consentPath ++ "?rid=" ++ d.randomToken i)
      else internalError) := by
  have hconsent : cache.respond (d.redirectToConsent (d.server a.server) i a q) = some
      (if a.entropy && cache.stores (pendingAuthzKey (d.randomToken i)) (d.pendingOf (d.server a.server) a q) then
        .redirect ((d.server a.server).consentPath ++ "?rid=" ++ d.randomToken i)
      else internalError) := by
    rw [Deployment.redirectToConsent, Deployment.draw]
    cases a.entropy with
    | false => rfl
    | true => simp only [if_true, SharedCache.respond, Program.result?, Bool.true_and]
  rw [Deployment.consentResponse, Deployment.handleAuthorize]
  by_cases hmethod : (a.method != "GET") = true
  · rw [if_pos hmethod, if_pos hmethod]
    rfl
  · rw [if_neg hmethod, if_neg hmethod]
    cases a.principal with
    | none => exact hconsent
    | some principal => exact hconsent

/-! ### When the Secret takes a record -/

namespace SecretCache

variable {c : SecretCache} {data : SecretData} {key name : String} {value : List UInt8} {draw : Draw c.nonceSize}

/-- The bytes of a record once it is sealed. -/
def sealedSize (c : SecretCache) (key : String) (value : List UInt8) : Nat :=
  9 + (c.nonceSize + ((c.marshal ⟨key, some value⟩).length + c.overhead))

/-- Whether there is room for a temporary entry of a size, in place of the one that has its name. -/
def Fits (data : SecretData) (name : String) (size : Nat) : Prop :=
  entryCount (data.erase name) + 1 ≤ secretEntryLimit ∧
    dataSize (data.erase name) + (name.utf8ByteSize + size) ≤ secretCacheLimit ∧
    temporarySize (data.erase name) + (name.utf8ByteSize + size) ≤ secretTemporaryLimit ∧
    temporaryCount (data.erase name) + 1 ≤ secretTemporaryEntries

theorem checkSecretCapacity_insert {encoded : List UInt8} (htemporary : isTemporary name = true)
    (hentry : isEntry name = true) :
    checkSecretCapacity (data.insert name encoded) = true ↔ Fits data name encoded.length := by
  have hents : (data.insert name encoded).entries = ⟨name, encoded⟩ :: (data.erase name).entries := rfl
  rw [checkSecretCapacity_iff, Fits, entryCount, dataSize, temporarySize, temporaryCount, hents]
  simp only [countP_cons_of_pos, hentry, htemporary, map_cons, sum_cons, filter_cons_of_pos, entrySize]
  rw [← entryCount, ← temporaryCount, ← dataSize, ← temporarySize]
  omega

theorem isTemporary_pending (rid : String) : isTemporary (c.secretEntryKey (pendingAuthzKey rid)) = true := by
  have hclass : secretEntryClass (pendingAuthzKey rid) = "temporary." := by
    have hpre : hasPrefix (pendingAuthzKey rid) "mcp:refresh:" = false := by
      simp only [hasPrefix, pendingAuthzKey, String.toList_append]
      rfl
    rw [secretEntryClass, hpre]
    rfl
  rw [secretEntryKey, hclass]
  exact hasPrefix_append _ _

/-- What is asked of a key and of the clock for a record of a request to be sealed, whatever the record holds. -/
def Sealable (c : SecretCache) (key : String) (draw : Draw c.nonceSize) : Prop :=
  key.utf8ByteSize ≤ secretKeyLimit ∧ 1 ≤ draw.now + pendingAuthzTTL ∧ draw.now + pendingAuthzTTL ≤ maxNanos

theorem prepareRecord_isSome (hkey : key ≠ "") :
    (c.prepareRecord key (some value) pendingAuthzTTL draw).isSome = true ↔
      c.Sealable key draw ∧ value.length ≤ secretValueLimit := by
  have hexpiry : c.expiryOf pendingAuthzTTL draw = some (draw.now + pendingAuthzTTL) := if_pos (by decide)
  rw [prepareRecord, hexpiry, sealRecord, Sealable]
  split_ifs with hlimits hrange
  · simp only [isSome_none, Bool.false_eq_true, false_iff]
    have hpos : ¬pendingAuthzTTL < 0 := by decide
    simp only [hkey, hpos, Bool.or_eq_true, decide_eq_true_eq, false_or, or_false, getD_some] at hlimits
    omega
  · simp only [map_none, isSome_none, Bool.false_eq_true, false_iff]
    simp only [Bool.or_eq_true, decide_eq_true_eq] at hrange
    omega
  · simp only [map_some, isSome_some, true_iff]
    simp only [getD_some, Bool.or_eq_true, decide_eq_true_eq, not_or, not_lt] at hlimits
    simp only [Bool.or_eq_true, decide_eq_true_eq, not_or, not_lt] at hrange
    omega

/-- The Secrets that are read until the API server takes an update, if it does. -/
def reads (c : SecretCache) : Nat → List Try → Option (List (SecretData × Clock))
  | 0, _ => none
  | _, [] => none
  | n + 1, t :: ts =>
    match t.found with
    | none => none
    | some data =>
      if c.bound data then
        match t.update with
        | .ok => some [(data, t.now)]
        | .conflict => (c.reads n ts).map ((data, t.now) :: ·)
        | .failed => none
      else none

/-- The record is no larger than a value may be, and fits into every Secret that is read. -/
def HasRoom (c : SecretCache) (key : String) (value : List UInt8) (reads : List (SecretData × Clock)) : Prop :=
  value.length ≤ secretValueLimit ∧
    ∀ r ∈ reads, Fits (sweep r.1 r.2) (c.secretEntryKey key) (c.sealedSize key value)

theorem attempt_cases (data : SecretData) (value : List UInt8) (draw : Draw c.nonceSize) (rid : String) (now : Clock) :
    (∃ next, c.attempt (.set (pendingAuthzKey rid) (some value) pendingAuthzTTL draw) now data = .write next .done ∧
      c.bound data = true ∧ c.Sealable (pendingAuthzKey rid) draw ∧ c.HasRoom (pendingAuthzKey rid) value [(data, now)]) ∨
    (c.attempt (.set (pendingAuthzKey rid) (some value) pendingAuthzTTL draw) now data = .refused ∧
      ¬(c.bound data = true ∧ c.Sealable (pendingAuthzKey rid) draw ∧
        c.HasRoom (pendingAuthzKey rid) value [(data, now)])) := by
  have hkey : pendingAuthzKey rid ≠ "" := by
    intro h
    have hlist := congrArg String.toList h
    simp [pendingAuthzKey] at hlist
  have hsome : (c.prepareRecord (pendingAuthzKey rid) (some value) pendingAuthzTTL draw).isSome = true ↔
      c.Sealable (pendingAuthzKey rid) draw ∧ value.length ≤ secretValueLimit := prepareRecord_isSome hkey
  rw [attempt]
  cases hbound : c.bound data with
  | false => exact .inr ⟨rfl, by simp⟩
  | true =>
  simp only [Bool.not_true, Bool.false_eq_true, if_false, true_and]
  cases hprep : c.prepareRecord (pendingAuthzKey rid) (some value) pendingAuthzTTL draw with
  | none =>
    rw [hprep] at hsome
    refine .inr ⟨rfl, fun h => ?_⟩
    exact absurd (hsome.mpr ⟨h.1, h.2.1⟩) (by simp)
  | some p =>
  obtain ⟨name, encoded⟩ := p
  rw [hprep] at hsome
  obtain ⟨hsealable, hsmall⟩ := hsome.mp rfl
  obtain ⟨rfl, nanos, -, -, rfl⟩ := prepareRecord_spec hprep
  have hcap : checkSecretCapacity ((sweep data now).insert (c.secretEntryKey (pendingAuthzKey rid))
      (c.stored (c.secretEntryKey (pendingAuthzKey rid)) ⟨pendingAuthzKey rid, some value⟩ nanos
        draw.nonce.toList)) = true ↔
      Fits (sweep data now) (c.secretEntryKey (pendingAuthzKey rid)) (c.sealedSize (pendingAuthzKey rid) value) := by
    rw [checkSecretCapacity_insert (isTemporary_pending rid) (isEntry_secretEntryKey _), length_stored,
      Vector.length_toList]
    rfl
  simp only [set]
  by_cases hfits : Fits (sweep data now) (c.secretEntryKey (pendingAuthzKey rid))
      (c.sealedSize (pendingAuthzKey rid) value)
  · rw [if_pos (hcap.mpr hfits)]
    exact .inl ⟨_, rfl, hsealable, hsmall, by simpa using hfits⟩
  · rw [if_neg fun h => hfits (hcap.mp h)]
    refine .inr ⟨rfl, fun h => hfits ?_⟩
    exact h.2.2 (data, now) mem_cons_self

/-- A record is stored if the API server takes an update in the end, and there was room until then. -/
theorem storesIn_iff (rid : String) (tries : List Try) (n : Nat) :
    c.storesIn (.set (pendingAuthzKey rid) (some value) pendingAuthzTTL draw) n tries = true ↔
      c.Sealable (pendingAuthzKey rid) draw ∧
        ∃ reads, c.reads n tries = some reads ∧ c.HasRoom (pendingAuthzKey rid) value reads := by
  induction n generalizing tries with
  | zero => simp [storesIn, reads]
  | succ n ih =>
    cases tries with
    | nil => simp [storesIn, reads]
    | cons t ts =>
    rw [storesIn, reads]
    cases t.found with
    | none => simp
    | some data =>
    simp only
    rcases attempt_cases data value draw rid t.now with
      ⟨next, hatt, hbound, hsealable, hroom⟩ | ⟨hatt, hrefused⟩
    · rw [hatt, if_pos hbound]
      cases t.update with
      | ok => simp [hsealable, hroom]
      | failed => simp
      | conflict =>
      simp only
      rw [ih ts]
      refine and_congr_right fun _ => ?_
      constructor
      · rintro ⟨rs, hreads, hrest⟩
        refine ⟨(data, t.now) :: rs, by rw [hreads]; rfl, hrest.1, ?_⟩
        intro r hr
        rcases mem_cons.mp hr with rfl | hr
        · exact hroom.2 _ mem_cons_self
        · exact hrest.2 r hr
      · rintro ⟨reads, hreads, hrest⟩
        obtain ⟨rs, hrs, rfl⟩ := map_eq_some_iff.mp hreads
        exact ⟨rs, hrs, hrest.1, fun r hr => hrest.2 r (mem_cons_of_mem _ hr)⟩
    · rw [hatt]
      simp only [Bool.false_eq_true, false_iff, not_and, not_exists]
      intro hsealable reads hreads hroom
      cases hbound : c.bound data with
      | false => simp [hbound] at hreads
      | true =>
      rw [hbound, if_pos rfl] at hreads
      have hfirst : (data, t.now) ∈ reads := by
        cases hupdate : t.update with
        | ok =>
          rw [hupdate] at hreads
          exact some.inj hreads ▸ mem_cons_self
        | conflict =>
          rw [hupdate] at hreads
          obtain ⟨rs, -, rfl⟩ := map_eq_some_iff.mp hreads
          exact mem_cons_self
        | failed =>
          rw [hupdate] at hreads
          cases hreads
      refine hrefused ⟨hbound, hsealable, hroom.1, ?_⟩
      intro r hr
      rw [mem_singleton.mp hr]
      exact hroom.2 _ hfirst

end SecretCache

/-! ### Two requests -/

/-- Where something is stored in a Secret, and the API server takes it in the end, both records have room until then or
neither has. -/
def Discreet (d : Deployment σ) (cache : SharedCache) (i : Nat) (a : Arrival σ) (q q' : AuthorizeQuery) : Prop :=
  match cache with
  | .memory => True
  | .secret c draw tries =>
    a.method = "GET" → a.entropy = true → c.Sealable (pendingAuthzKey (d.randomToken i)) draw →
      ∀ reads, c.reads secretSteps tries = some reads →
        (c.HasRoom (pendingAuthzKey (d.randomToken i)) (marshalPending (d.pendingOf (d.server a.server) a q)) reads ↔
          c.HasRoom (pendingAuthzKey (d.randomToken i)) (marshalPending (d.pendingOf (d.server a.server) a q')) reads)

theorem stores_iff_of_discreet {d : Deployment σ} {cache : SharedCache} {i : Nat} {a : Arrival σ} {q q' : AuthorizeQuery}
    (hmethod : a.method = "GET") (hentropy : a.entropy = true) :
    Discreet d cache i a q q' ↔
      (cache.stores (pendingAuthzKey (d.randomToken i)) (d.pendingOf (d.server a.server) a q) = true ↔
        cache.stores (pendingAuthzKey (d.randomToken i)) (d.pendingOf (d.server a.server) a q') = true) := by
  cases cache with
  | memory => simp [Discreet, SharedCache.stores]
  | secret c draw tries =>
  simp only [Discreet, SharedCache.stores, SecretCache.storesIn_iff, hmethod, hentropy, true_implies]
  by_cases hsealable : c.Sealable (pendingAuthzKey (d.randomToken i)) draw
  · cases c.reads secretSteps tries with
    | none => simp
    | some reads => simp [hsealable]
  · simp [hsealable]

/-- **Two requests of which one is registered and the other is not have the same response** exactly if both records have
room or neither has: in memory always, in the Secret if the room that is left does not lie between their sizes. -/
theorem consent_alike_iff (d : Deployment σ) (cache : SharedCache) (i : Nat) (a : Arrival σ) (q : AuthorizeQuery)
    (clientID redirectURI : String) :
    d.consentResponse cache i a q = d.consentResponse cache i a { q with clientID, redirectURI } ↔
      Discreet d cache i a q { q with clientID, redirectURI } := by
  rw [consentResponse_eq, consentResponse_eq, some.injEq]
  by_cases hmethod : a.method = "GET"
  · cases hentropy : a.entropy with
    | false =>
      refine iff_of_true (by simp) ?_
      cases cache with
      | memory => trivial
      | secret c draw tries =>
        intro _ h
        rw [hentropy] at h
        cases h
    | true =>
    rw [stores_iff_of_discreet hmethod hentropy]
    simp only [hmethod, bne_self_eq_false, Bool.false_eq_true, if_false, Bool.true_and]
    cases cache.stores (pendingAuthzKey (d.randomToken i)) (d.pendingOf (d.server a.server) a q) with
    | true =>
      cases cache.stores (pendingAuthzKey (d.randomToken i))
          (d.pendingOf (d.server a.server) a { q with clientID, redirectURI }) with
      | true => simp
      | false => simp [internalError]
    | false =>
      cases cache.stores (pendingAuthzKey (d.randomToken i))
          (d.pendingOf (d.server a.server) a { q with clientID, redirectURI }) with
      | true => simp [internalError]
      | false => simp
  · refine iff_of_true (by simp [hmethod]) ?_
    cases cache with
    | memory => trivial
    | secret c draw tries => exact fun h => absurd h hmethod

/-! ### A long address -/

section

theorem jsonChar_length (c : Char) : 1 ≤ (jsonChar c).length := by
  unfold jsonChar
  split_ifs
  · simp
  · simp
  · simp
  · simp
  · simp
  · simp
  · simp
  · rw [String.length_utf8EncodeChar]
    exact c.utf8Size_pos

theorem jsonString_length (s : String) : s.toList.length ≤ (jsonString s).length := by
  have hchars : ∀ cs : List Char, cs.length ≤ (cs.flatMap jsonChar).length := by
    intro cs
    induction cs with
    | nil => exact Nat.le_refl 0
    | cons ch cs ih =>
      have hchar := jsonChar_length ch
      rw [flatMap_cons, length_append, length_cons]
      omega
  have hbody := hchars s.toList
  rw [jsonString, length_append, length_cons]
  omega

theorem marshalPending_length (rec : PendingAuthzRecord) : rec.redirectURI.toList.length ≤ (marshalPending rec).length := by
  have hfield : rec.redirectURI.toList.length ≤ (jsonField "redirect_uri" rec.redirectURI).length := by
    rw [jsonField]
    split_ifs with hempty
    · rw [hempty]
      exact Nat.le_refl 0
    · have hvalue := jsonString_length rec.redirectURI
      simp only [length_append, length_cons]
      omega
  simp only [marshalPending, length_append]
  omega

/-- An address of 17000 characters, which a client may register. -/
def longRedirect : String := "https://eve.shop/" ++ String.ofList (List.replicate 17000 'a')

theorem longRedirect_length : longRedirect.toList.length = 17017 := by
  have hlist : longRedirect.toList = "https://eve.shop/".toList ++ replicate 17000 'a' := by
    show ("https://eve.shop/" ++ String.ofList (replicate 17000 'a')).toList = _
    rw [String.toList_append]
    exact congrArg _ String.toList_ofList
  rw [hlist, length_append, length_replicate]
  rfl

theorem longRedirect_ne_empty : longRedirect ≠ "" := by
  intro h
  have hlen := longRedirect_length
  rw [h] at hlen
  cases hlen

/-- Any caller; the address is registered for the client `paprika-eve`. -/
def anyone : Arrival Unit where
  server := ()
  method := "GET"
  request := .pending ""
  principal := none
  dynamicClientRedirects := fun id => if id = "paprika-eve" then some [longRedirect] else some []
  entropy := true

def asks (clientID : String) : AuthorizeQuery := ⟨[], "code", clientID, longRedirect, shopChallenge, "S256", "", ""⟩

/-- The Secret as it was created, and an API server that takes the first update. -/
def newSecret : SharedCache :=
  .secret SecretCache.sampleCache SecretCache.sampleDraw [⟨some SecretCache.sampleData, fun _ => 1000, .ok⟩]

/-- The request of the registered client is answered with an error, that of another client with the consent page. -/
theorem registered_is_revealed : ¬(shop.consentResponse newSecret 0 anyone (asks "paprika-eve") =
      shop.consentResponse newSecret 0 anyone { asks "paprika-eve" with clientID := "paprika-bob" }) := by
  have hregistered : shop.pendingOf (shop.server ()) anyone (asks "paprika-eve") =
      ⟨true, "paprika-eve", longRedirect, shopChallenge, "S256", "", ""⟩ := by
    have hknown : (shop.server ()).isRegisteredRedirect anyone "paprika-eve" longRedirect = true := by
      simp [Server.isRegisteredRedirect, longRedirect_ne_empty, anyone, shop, shopServer]
    have hlimits : (shop.validResource (shop.server ()) [] && decide ("".utf8ByteSize ≤ maxAuthorizeStateLen) &&
        decide ("".utf8ByteSize ≤ maxAuthorizeScopeLen) &&
        decide (shopChallenge.utf8ByteSize ≤ maxAuthorizeChallengeLen) &&
        decide ("S256".utf8ByteSize ≤ maxAuthorizeChallengeMethodLen)) = true := by decide
    refine if_pos ?_
    rw [← hlimits]
    show (_ && _ && _ && _ && _ && _) = _
    simp only [asks, hknown, Bool.true_and]
    rfl
  have hunregistered : shop.pendingOf (shop.server ()) anyone { asks "paprika-eve" with clientID := "paprika-bob" } = {} := by
    have hunknown : (shop.server ()).isRegisteredRedirect anyone "paprika-bob" longRedirect = false := by
      simp [Server.isRegisteredRedirect, longRedirect_ne_empty, anyone, shop, shopServer]
    refine if_neg ?_
    simp only [asks, hunknown, Bool.false_and]
    exact Bool.false_ne_true
  have hrefused : newSecret.stores (pendingAuthzKey (shop.randomToken 0))
      (shop.pendingOf (shop.server ()) anyone (asks "paprika-eve")) = false := by
    rw [hregistered, ← Bool.not_eq_true]
    intro h
    obtain ⟨-, reads, -, hsmall, -⟩ := (SecretCache.storesIn_iff _ _ _).mp h
    have hlong := marshalPending_length ⟨true, "paprika-eve", longRedirect, shopChallenge, "S256", "", ""⟩
    rw [secretValueLimit] at hsmall
    rw [longRedirect_length] at hlong
    omega
  have hstored : newSecret.stores (pendingAuthzKey (shop.randomToken 0))
      (shop.pendingOf (shop.server ()) anyone { asks "paprika-eve" with clientID := "paprika-bob" }) = true := by
    rw [hunregistered]
    decide
  intro h
  rw [consentResponse_eq, consentResponse_eq] at h
  have hserver : shop.server anyone.server = shop.server () := rfl
  rw [hserver, hrefused, hstored] at h
  simp [anyone, internalError] at h
end

end Paprika.OAuth
