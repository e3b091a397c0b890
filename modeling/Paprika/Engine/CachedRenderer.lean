import Mathlib.Data.List.Nodup
import Paprika.Engine.ManifestKeys
import Paprika.Lib.Run

/-!
# The caching renderer

`CachedTemplateRenderer.Render` over a cache that may fail and may lose entries at any time.

`manifest_cache_transparent_iff`: for a list of calls, every call answers as the inner renderer does, whatever the inner
renderer and the cache do, if and only if no two of them have one configuration and different parameters that write as
one text.
-/

namespace Paprika.Engine

open Lib.Run List Option

abbrev ManifestCache := List Char → Option (List UInt8)

def ManifestCache.empty : ManifestCache := fun _ => none

def ManifestCache.set (cache : ManifestCache) (key : List Char) (value : List UInt8) : ManifestCache :=
  fun k => if k = key then some value else cache k

/-- The inner renderer, a function of the spec, the namespace, the source identity and the parameters. -/
abbrev InnerRenderer := TemplateSpec → String → String → StringMap → Except String (List UInt8)

/-- A write that reports a failure may have taken effect. -/
inductive SetOutcome
  | stored | lost | storedUnreported
  deriving DecidableEq, Repr

/-- A `Render` and what the cache does around it. -/
structure RenderEvent where
  call : RenderCall
  /-- The entries that have expired or been deleted before. -/
  expired : List Char → Bool
  getFails : Bool
  set : SetOutcome

inductive RenderError
  | encode | cacheGet | cacheSet
  | render (error : String)
  deriving DecidableEq, Repr

variable (E : Encoders) (inner : InnerRenderer)

def innerRender (c : RenderCall) : Except String (List UInt8) :=
  inner c.tmpl.spec c.tmpl.ns (manifestSourceIdentity c.tmpl) c.params

/-- The cache when the call reads it. -/
def ManifestCache.expire (cache : ManifestCache) (e : RenderEvent) : ManifestCache :=
  fun k => if e.expired k then none else cache k

/-- A miss: render, then store. -/
def renderMiss (cache : ManifestCache) (e : RenderEvent) (key : List Char) :
    Except RenderError (List UInt8) × ManifestCache :=
  match innerRender inner e.call with
  | .error error => (.error (.render error), cache)
  | .ok rendered =>
    match e.set with
    | .stored => (.ok rendered, cache.set key rendered)
    | .lost => (.error .cacheSet, cache)
    | .storedUnreported => (.error .cacheSet, cache.set key rendered)

/-- `Render` with the cache as it reads it. -/
def renderCached (cache : ManifestCache) (e : RenderEvent) : Except RenderError (List UInt8) × ManifestCache :=
  match renderKey E e.call with
  | none => (.error .encode, cache)
  | some key =>
    if e.getFails then (.error .cacheGet, cache)
    else
      match cache key with
      | some (byte :: bytes) => (.ok (byte :: bytes), cache)
      | _ => renderMiss inner cache e key

def render (cache : ManifestCache) (e : RenderEvent) : Except RenderError (List UInt8) × ManifestCache :=
  renderCached E inner (cache.expire e) e

def expected (c : RenderCall) : Except RenderError (List UInt8) :=
  match innerRender inner c with
  | .ok rendered => .ok rendered
  | .error error => .error (.render error)

def Answers (e : RenderEvent) (answer : Except RenderError (List UInt8)) : Prop :=
  answer = expected inner e.call ∨ (e.getFails = true ∧ answer = .error .cacheGet) ∨
    (e.set ≠ .stored ∧ answer = .error .cacheSet)

def renderStep (cache : ManifestCache) (e : RenderEvent) : ManifestCache := (render E inner cache e).2

/-- Whatever the inner renderer and the cache do, every one of the calls answers as the inner renderer does. -/
def Transparent (calls : List RenderCall) : Prop :=
  ∀ (inner : InnerRenderer) (events : List RenderEvent), events.map (·.call) = calls →
    Guarded (renderStep E inner) (fun cache e => Answers inner e (render E inner cache e).1) ManifestCache.empty events

/-- No two calls have one configuration and different parameters that write as one text. -/
def Unambiguous (calls : List RenderCall) : Prop :=
  ∀ c ∈ calls, ∀ d ∈ calls, SameConfiguration c d → ¬ Ambiguous c.params d.params

/-! ### What is stored is what was rendered -/

variable {E inner} {calls : List RenderCall} {cache : ManifestCache} {e : RenderEvent} {key : List Char}
  {value : List UInt8}

def Rendered (E : Encoders) (inner : InnerRenderer) (calls : List RenderCall) (cache : ManifestCache) : Prop :=
  ∀ key value, cache key = some value → ∃ c ∈ calls, renderKey E c = some key ∧ innerRender inner c = .ok value

section
variable (h : Rendered E inner calls cache)
include h

theorem rendered_expire : Rendered E inner calls (cache.expire e) := by
  intro key value hentry
  unfold ManifestCache.expire at hentry
  split at hentry
  · cases hentry
  · exact h key value hentry

theorem rendered_set (hmem : e.call ∈ calls) (hkey : renderKey E e.call = some key)
    (hvalue : innerRender inner e.call = .ok value) : Rendered E inner calls (cache.set key value) := by
  intro k v hentry
  unfold ManifestCache.set at hentry
  split at hentry
  · rename_i hk
    subst hk
    cases hentry
    exact ⟨e.call, hmem, hkey, hvalue⟩
  · exact h k v hentry

theorem rendered_miss (hmem : e.call ∈ calls)
    (hkey : renderKey E e.call = some key) : Rendered E inner calls (renderMiss inner cache e key).2 := by
  unfold renderMiss
  cases hinner : innerRender inner e.call with
  | error error => exact h
  | ok rendered =>
  cases e.set with
  | stored => exact rendered_set h hmem hkey hinner
  | lost => exact h
  | storedUnreported => exact rendered_set h hmem hkey hinner

theorem rendered_render (hmem : e.call ∈ calls) : Rendered E inner calls (render E inner cache e).2 := by
  have hexp : Rendered E inner calls (cache.expire e) := rendered_expire h
  unfold render renderCached
  cases hkey : renderKey E e.call with
  | none => exact hexp
  | some key =>
  dsimp only
  by_cases hget : e.getFails = true
  · rw [if_pos hget]
    exact hexp
  · rw [if_neg hget]
    split
    · exact hexp
    · exact rendered_miss hexp hmem hkey
end

theorem answers_miss (cache : ManifestCache) (e : RenderEvent) (key : List Char) :
    Answers inner e (renderMiss inner cache e key).1 := by
  unfold Answers expected renderMiss
  cases hinner : innerRender inner e.call with
  | error error => exact .inl rfl
  | ok rendered =>
  cases hset : e.set with
  | stored => exact .inl rfl
  | lost => exact .inr (.inr ⟨by decide, rfl⟩)
  | storedUnreported => exact .inr (.inr ⟨by decide, rfl⟩)

/-- Where equal keys mean equal arguments, a call answers as the inner renderer does. -/
theorem answers_render (hE : Faithful E calls []) (hunambiguous : Unambiguous calls)
    (h : Rendered E inner calls cache) (hmem : e.call ∈ calls) : Answers inner e (render E inner cache e).1 := by
  obtain ⟨key, hkey⟩ : ∃ key, renderKey E e.call = some key := by
    obtain ⟨x, hx⟩ := isSome_iff_exists.mp (hE.encodes _ hmem)
    rw [renderKey, manifestRenderIdentity, hx]
    exact ⟨_, rfl⟩
  unfold render renderCached
  rw [hkey]
  dsimp only
  by_cases hget : e.getFails = true
  · rw [if_pos hget]
    exact .inr (.inl ⟨hget, rfl⟩)
  rw [if_neg hget]
  split
  · rename_i byte bytes hentry
    obtain ⟨c, hc, hckey, hvalue⟩ := rendered_expire h key _ hentry
    obtain ⟨hsame, hwrote⟩ := (renderKey_eq_iff hE hc hmem).mp (hckey.trans hkey.symm)
    have hparams : c.params = e.call.params := not_not.mp (fun hne => hunambiguous c hc _ hmem hsame ⟨hne, hwrote⟩)
    refine .inl ?_
    have harguments : innerRender inner e.call = innerRender inner c := by
      unfold innerRender
      rw [← hsame.1, ← hsame.2.1, ← hsame.2.2, ← hparams]
    rw [expected, harguments, hvalue]
  · exact answers_miss _ e key

theorem transparent_of_unambiguous (hE : Faithful E calls []) (h : Unambiguous calls) : Transparent E calls := by
  intro inner events hevents
  have hmem : ∀ e ∈ events, e.call ∈ calls := fun e he => hevents ▸ mem_map_of_mem he
  refine guarded_of_invariant (motive := Rendered E inner calls) ?_ ?_ ?_ hmem
  · exact fun cache e hc he => rendered_render hc he
  · exact fun cache e hc he => answers_render hE h hc he
  · exact fun _ _ hentry => by cases hentry

/-! ### An ambiguous pair is mixed up -/

/-- A call over a cache that neither fails nor loses anything. -/
def quiet (c : RenderCall) : RenderEvent := { call := c, expired := fun _ => false, getFails := false, set := .stored }

/-- A call over a cache that has lost everything. -/
def afresh (c : RenderCall) : RenderEvent := { call := c, expired := fun _ => true, getFails := false, set := .stored }

variable {bytes : List UInt8} {c : RenderCall}

theorem render_quiet_hit {byte : UInt8} (hkey : renderKey E c = some key)
    (hentry : cache key = some (byte :: bytes)) :
    (render E inner cache (quiet c)).1 = .ok (byte :: bytes) ∧ (render E inner cache (quiet c)).2 = cache := by
  have hsame : cache.expire (quiet c) = cache := rfl
  unfold render renderCached
  rw [hsame, show (quiet c).call = c from rfl, hkey]
  dsimp only
  rw [if_neg (show ¬ (quiet c).getFails = true from Bool.false_ne_true), hentry]
  exact ⟨rfl, rfl⟩

theorem renderStep_quiet {byte : UInt8}
    (hentry : cache key = some (byte :: bytes)) :
    renderStep E inner cache (quiet c) key = some (byte :: bytes) := by
  cases hk : renderKey E c with
  | none =>
    unfold renderStep render renderCached
    rw [show (quiet c).call = c from rfl, hk]
    exact hentry
  | some k =>
  by_cases hsame : k = key
  · subst hsame
    rw [renderStep, (render_quiet_hit hk hentry).2]
    exact hentry
  have hset : ∀ v, (cache.set k v) key = some (byte :: bytes) := by
    intro v
    rw [ManifestCache.set, if_neg (Ne.symm hsame)]
    exact hentry
  unfold renderStep render renderCached
  rw [show cache.expire (quiet c) = cache from rfl, show (quiet c).call = c from rfl, hk]
  dsimp only
  rw [if_neg (show ¬ (quiet c).getFails = true from Bool.false_ne_true)]
  split
  · exact hentry
  unfold renderMiss
  rw [show (quiet c).call = c from rfl]
  cases innerRender inner c with
  | error error => exact hentry
  | ok rendered => exact hset rendered

theorem renderStep_afresh (hkey : renderKey E c = some key) (hvalue : innerRender inner c = .ok value) :
    renderStep E inner cache (afresh c) key = some value := by
  unfold renderStep render renderCached renderMiss
  rw [show (afresh c).call = c from rfl, hkey, hvalue]
  dsimp only
  rw [if_neg (show ¬ (afresh c).getFails = true from Bool.false_ne_true)]
  show (ManifestCache.set _ key value) key = some value
  rw [ManifestCache.set, if_pos rfl]

/-- Renders the parameters `m` to one text and all others to another. -/
def tellingApart (m : StringMap) : InnerRenderer := fun _ _ _ params => .ok (if params = m then [1] else [2])

/-- A later call with an ambiguous map is answered with what the earlier one rendered. -/
theorem not_transparent {pre mid post : List RenderCall} {d : RenderCall}
    (hE : Faithful E (pre ++ c :: (mid ++ d :: post)) []) (hsame : SameConfiguration c d)
    (hambiguous : Ambiguous c.params d.params) : ¬ Transparent E (pre ++ c :: (mid ++ d :: post)) := by
  intro h
  have hc : c ∈ pre ++ c :: (mid ++ d :: post) := by simp
  have hd : d ∈ pre ++ c :: (mid ++ d :: post) := by simp
  have hguard := h (tellingApart c.params)
    (pre.map quiet ++ afresh c :: (mid.map quiet ++ quiet d :: post.map quiet))
    (by simp [quiet, afresh, Function.comp_def])
  have hafter := (guarded_append.mp ((guarded_append.mp hguard).2.2)).2.1
  dsimp only at hafter
  obtain ⟨x, hx⟩ := isSome_iff_exists.mp (hE.encodes c hc)
  obtain ⟨key, hkey⟩ : ∃ key, renderKey E c = some key := by
    rw [renderKey, manifestRenderIdentity, hx]
    exact ⟨_, rfl⟩
  have hdkey : renderKey E d = some key := ((renderKey_eq_iff hE hc hd).mpr ⟨hsame, hambiguous.2⟩).symm.trans hkey
  have hstored : ∀ cache, renderStep E (tellingApart c.params) cache (afresh c) key = some [1] := fun cache =>
    renderStep_afresh hkey (by rw [innerRender, tellingApart, if_pos rfl])
  have hquiet : ∀ e ∈ mid.map quiet, ∃ b, e = quiet b := by
    intro e he
    obtain ⟨b, -, rfl⟩ := mem_map.mp he
    exact ⟨b, rfl⟩
  have hkeeps : ∀ cache e, cache key = some [1] → (∃ b, e = quiet b) →
      renderStep E (tellingApart c.params) cache e key = some [1] := by
    intro cache e hentry he
    obtain ⟨b, rfl⟩ := he
    exact renderStep_quiet hentry
  have hkept := run_invariant_on (renderStep E (tellingApart c.params)) hkeeps (mid.map quiet) _
    (hstored (run (renderStep E (tellingApart c.params)) ManifestCache.empty (pre.map quiet))) hquiet
  rw [(render_quiet_hit hdkey hkept).1] at hafter
  have hexpected : expected (tellingApart c.params) d = .ok [2] := by
    rw [expected, innerRender, tellingApart, if_neg (Ne.symm hambiguous.1)]
  rcases hafter with hanswer | ⟨hget, -⟩ | ⟨hset, -⟩
  · rw [show (quiet d).call = d from rfl, hexpected] at hanswer
    exact absurd hanswer (by decide)
  · exact absurd hget Bool.false_ne_true
  · exact hset rfl

/-- **The manifest cache.**  Every call answers as the inner renderer does, for every inner renderer and whatever the
cache does, exactly when no two calls have one configuration and different parameters that write as one text. -/
theorem manifest_cache_transparent_iff (hE : Faithful E calls []) : Transparent E calls ↔ Unambiguous calls := by
  constructor
  · intro h c hc d hd hsame hambiguous
    have hne : c ≠ d := fun heq => hambiguous.1 (by rw [heq])
    obtain ⟨pre, rest, rfl⟩ := append_of_mem hc
    rcases mem_append.mp hd with hbefore | hafter
    · obtain ⟨pre', mid, rfl⟩ := append_of_mem hbefore
      rw [append_assoc, cons_append] at hE h
      exact not_transparent hE ⟨hsame.1.symm, hsame.2.1.symm, hsame.2.2.symm⟩
        ⟨Ne.symm hambiguous.1, hambiguous.2.symm⟩ h
    · rcases mem_cons.mp hafter with heq | hrest
      · exact hne heq.symm
      · obtain ⟨mid, post, rfl⟩ := append_of_mem hrest
        exact not_transparent hE hsame hambiguous h
  · exact transparent_of_unambiguous hE

/-! ### One ambiguous pair -/

def shopTemplate : Template where
  name := "shop"
  ns := "shop"
  spec := {
    type := .git
    chart := { repo := "", name := "", version := "", path := "" }
    git := some {
      repoURL := "https://git.example.com/shop.git", revision := "main", path := "chart", secretRef := "",
      shallow := none, depth := 0, fetchAllRefs := false, fetchTTL := "" }
    s3 := none
    oci := none
    kustomize := none
    repoRef := ""
    ns := ""
    valuesFile := "" }
  sourceHash := ""
  sourceRevision := ""

def shopJSON : List Char :=
  "\x7b\"spec\":\x7b\"type\":\"git\",\"chart\":\x7b\x7d,\"git\":\x7b\"repoUrl\":\"https://git.".toList ++
    "example.com/shop.git\",\"revision\":\"main\",\"path\":\"chart\"\x7d\x7d,\"namespace\":\"shop\"\x7d".toList

/-- The digests of the texts below. -/
def shopEncoders : Encoders where
  sha256Hex s :=
    if s = "git|https://git.example.com/shop.git//chart".toList then
      "340330e1a8706f3dcdf14937e95218162410a326b5b6b44e3b44eafc29589110".toList
    else if s = "a=1,b=2".toList then
      "06beefe2b477ff1d0fe92dfa45128217630672abff564dc7746f106833d3fc7a".toList
    else if s = shopJSON then
      "5c838bfa3cf92319fb157a4149d968126d78359fc16a6c8fb828794811f2b8f5".toList
    else if s = "main:render-config-v1-5c838bfa3cf92319fb157a4149d968126d78359fc16a6c8fb828794811f2b8f5".toList then
      "bd6977ce51e9a0fef1736adadd835f36f78c5f025a91f9432a9a01adc3d1ea2f".toList
    else List.replicate 64 '0'
  marshal spec ns := if spec = shopTemplate.spec ∧ ns = "shop" then some shopJSON else none

/-- One value with a comma, and two values. -/
def commaCall : RenderCall :=
  { tmpl := shopTemplate, params := { entries := [("a", "1,b=2")], sorted := by decide } }

def plainCall : RenderCall :=
  { tmpl := shopTemplate, params := { entries := [("a", "1"), ("b", "2")], sorted := by decide } }

theorem shop_calls {c : RenderCall} (hc : c ∈ [commaCall, plainCall]) :
    c.tmpl = shopTemplate ∧ hashedTexts shopEncoders c = hashedTexts shopEncoders plainCall := by
  have hwrites : mapHash commaCall.params = mapHash plainCall.params := by decide
  rcases mem_pair.mp hc with rfl | rfl
  · refine ⟨rfl, ?_⟩
    show [_, mapHash _] ++ _ ++ _ = [_, mapHash _] ++ _ ++ _
    rw [hwrites]
    rfl
  · exact ⟨rfl, rfl⟩

theorem shop_hashes : ((hashedTexts shopEncoders plainCall ++ [(manifestSourceIdentity plainCall.tmpl).toList]).map
    (hashKey shopEncoders)).Nodup := by decide +kernel

theorem shopEncoders_faithful : Faithful shopEncoders [commaCall, plainCall] [] where
  length s := by
    unfold shopEncoders
    dsimp only
    split
    · decide
    split
    · decide
    split
    · decide
    · split
      · decide
      · exact length_replicate
  collisionFree := by
    have htexts : ∀ s ∈ [commaCall, plainCall].flatMap (hashedTexts shopEncoders) ++ [], s ∈
        hashedTexts shopEncoders plainCall ++ [(manifestSourceIdentity plainCall.tmpl).toList] := by
      intro s hs
      obtain ⟨c, hc, hs⟩ := mem_flatMap.mp (append_nil _ ▸ hs)
      exact mem_append_left _ ((shop_calls hc).2 ▸ hs)
    exact fun s hs t ht => List.inj_on_of_nodup_map shop_hashes (htexts s hs) (htexts t ht)
  encodes c hc := by
    unfold shopEncoders
    dsimp only
    rw [(shop_calls hc).1, if_pos ⟨rfl, rfl⟩]
    rfl
  injective c hc d hd _ := by
    rw [(shop_calls hc).1, (shop_calls hd).1]
    exact ⟨rfl, rfl⟩

theorem manifest_cache_mixed_up : ¬ Transparent shopEncoders [commaCall, plainCall] := by
  show ¬ Transparent shopEncoders ([] ++ commaCall :: ([] ++ plainCall :: []))
  exact not_transparent shopEncoders_faithful (by decide) (by decide)

theorem manifest_cache_shop : Faithful shopEncoders [commaCall, plainCall] [] ∧
      (Transparent shopEncoders [commaCall, plainCall] ↔ Unambiguous [commaCall, plainCall]) :=
  ⟨shopEncoders_faithful, manifest_cache_transparent_iff shopEncoders_faithful⟩

end Paprika.Engine
