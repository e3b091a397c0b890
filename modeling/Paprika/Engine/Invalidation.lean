import Paprika.Engine.CachedRenderer

/-!
# Invalidation of the manifest cache

`Invalidator.Invalidate` deletes by prefixes that it makes from the source type, the URL and the bare revision, while
the renderer stores under a digest of the revision with the render configuration.

`invalidation_reaches_iff`: an invalidation reaches the entry of a render and spares those of other revisions exactly
when the render's source identity is empty and so are those of all entries of its source.
-/

namespace Paprika.Engine

open List

variable (E : Encoders)

def ManifestCache.deleteByPrefix (cache : ManifestCache) ( keyPrefix : List Char) : ManifestCache :=
  fun k => if keyPrefix.isPrefixOf k then none else cache k

/-- Whether the two deletions of an invalidation go through. -/
structure DeleteOutcome where
  sourceDeleted : Bool
  manifestDeleted : Bool
  deriving DecidableEq, Repr

def invalidatedPrefix (sourceType : SourceType) (sourceURL revision : String) : List Char :=
  if revision = "" then manifestSourcePrefix E sourceType sourceURL
  else manifestSourcePrefix E sourceType sourceURL ++ ':' :: hashKey E revision.toList

/-- `Invalidate`; a failed deletion ends it, and may have deleted nothing. -/
def invalidate (cache : ManifestCache) (o : DeleteOutcome) (sourceType : SourceType) (sourceURL revision : String) :
    Except String ManifestCache :=
  if o.sourceDeleted then
    if o.manifestDeleted then
      .ok ((cache.deleteByPrefix (sourceSourcePrefix E sourceType sourceURL)).deleteByPrefix
        (invalidatedPrefix E sourceType sourceURL revision))
    else .error "delete manifest cache entries by prefix"
  else .error "delete source cache entries by prefix"

/-- The keys of an invalidation that goes through. -/
def Removes (sourceType : SourceType) (sourceURL revision : String) (key : List Char) : Prop :=
  ∀ (cache : ManifestCache) (after : ManifestCache),
    invalidate E cache { sourceDeleted := true, manifestDeleted := true } sourceType sourceURL revision = .ok after →
    after key = none

/-- The entry of `key` survives, where there is one. -/
def Spares (sourceType : SourceType) (sourceURL revision : String) (key : List Char) : Prop :=
  ∀ (cache : ManifestCache) (after : ManifestCache),
    invalidate E cache { sourceDeleted := true, manifestDeleted := true } sourceType sourceURL revision = .ok after →
    after key = cache key

/-- What an invalidation owes to the entry of `c` among those of `calls`. -/
structure Reaches (calls : List RenderCall) (c : RenderCall) : Prop where
  revision : ∀ key, renderKey E c = some key →
    Removes E c.tmpl.spec.type (manifestSourceURL c.tmpl.spec) (manifestSourceIdentity c.tmpl) key
  all : ∀ key, renderKey E c = some key → Removes E c.tmpl.spec.type (manifestSourceURL c.tmpl.spec) "" key
  others : ∀ d ∈ calls, ∀ key, renderKey E d = some key →
    manifestSourceIdentity d.tmpl ≠ manifestSourceIdentity c.tmpl ∨
      manifestSourceURL d.tmpl.spec ≠ manifestSourceURL c.tmpl.spec →
    Spares E c.tmpl.spec.type (manifestSourceURL c.tmpl.spec) (manifestSourceIdentity c.tmpl) key

def SameSource (c d : RenderCall) : Prop :=
  d.tmpl.spec.type = c.tmpl.spec.type ∧ manifestSourceURL d.tmpl.spec = manifestSourceURL c.tmpl.spec

instance (c d : RenderCall) : Decidable (SameSource c d) := inferInstanceAs (Decidable (_ ∧ _))

/-! ### Prefixes of keys -/

variable {E} {calls : List RenderCall} {more : List (List Char)} {t t' : SourceType} {u u' : String}
  {r r' : List Char} {m : StringMap} {cache : ManifestCache} {key : List Char} {c d : RenderCall}

theorem sourceText_inj (h : sourceText t u = sourceText t' u') : t = t' ∧ u = u' := by
  have hbar : ∀ t : SourceType, '|' ∉ t.text.toList := by
    intro t
    cases t <;> decide
  obtain ⟨htext, hurl⟩ := Lib.Text.append_cons_inj (hbar t) (hbar t') h
  refine ⟨?_, String.toList_inj.mp hurl⟩
  cases t <;> cases t' <;> first | rfl | exact absurd htext (by decide)

theorem manifestSourcePrefix_prefix_iff (hE : Faithful E calls more) :
    manifestSourcePrefix E t u <+: manifestKey E t' u' r m ↔
      hashKey E (sourceText t u) = hashKey E (sourceText t' u') := by
  have hlen := fun s s' : List Char => (hE.hashKey_length s).trans (hE.hashKey_length s').symm
  constructor
  · rintro ⟨rest, h⟩
    unfold manifestKey manifestSourcePrefix at h
    rw [append_assoc, append_assoc] at h
    have hcolon := (List.cons.inj (append_cancel_left h)).2
    exact (append_inj hcolon (hlen (sourceText t u) (sourceText t' u'))).1
  · intro h
    unfold manifestKey manifestSourcePrefix
    rw [h]
    exact prefix_append _ _

theorem revisionPrefix_prefix_iff (hE : Faithful E calls more) :
    (manifestSourcePrefix E t u ++ ':' :: hashKey E r) <+: manifestKey E t' u' r' m ↔
      hashKey E (sourceText t u) = hashKey E (sourceText t' u') ∧ hashKey E r = hashKey E r' := by
  have hlen := fun s s' : List Char => (hE.hashKey_length s).trans (hE.hashKey_length s').symm
  constructor
  · rintro ⟨rest, h⟩
    unfold manifestKey manifestSourcePrefix at h
    rw [append_assoc, append_assoc, append_assoc] at h
    have hcolon := (List.cons.inj (append_cancel_left h)).2
    obtain ⟨hsrc, hrest⟩ := append_inj hcolon (hlen (sourceText t u) (sourceText t' u'))
    exact ⟨hsrc, (append_inj (List.cons.inj hrest).2 (hlen r r')).1⟩
  · intro h
    unfold manifestKey manifestSourcePrefix
    rw [h.1, h.2]
    exact ⟨':' :: hashKey E (mapHash m), by simp⟩

theorem not_sourceSourcePrefix_prefix : ¬ sourceSourcePrefix E t u <+: manifestKey E t' u' r m := by
  rintro ⟨rest, h⟩
  unfold sourceSourcePrefix manifestKey manifestSourcePrefix at h
  simp at h

variable {revision : String}

theorem invalidate_manifestKey {after : ManifestCache}
    (h : invalidate E cache { sourceDeleted := true, manifestDeleted := true } t u revision = .ok after) :
    after (manifestKey E t' u' r m) =
      if invalidatedPrefix E t u revision <+: manifestKey E t' u' r m then none
      else cache (manifestKey E t' u' r m) := by
  unfold invalidate at h
  cases h
  unfold ManifestCache.deleteByPrefix
  have hsrc : (sourceSourcePrefix E t u).isPrefixOf (manifestKey E t' u' r m) = false := by
    rw [Bool.eq_false_iff]
    exact fun hp => not_sourceSourcePrefix_prefix ( isPrefixOf_iff_prefix.mp hp)
  by_cases hp : invalidatedPrefix E t u revision <+: manifestKey E t' u' r m
  · rw [if_pos hp, if_pos ( isPrefixOf_iff_prefix.mpr hp)]
  · rw [if_neg hp, if_neg (fun h => hp ( isPrefixOf_iff_prefix.mp h)), hsrc]
    rfl

theorem renderKey_eq_some (hkey : renderKey E c = some key) : ∃ x, E.marshal c.tmpl.spec c.tmpl.ns = some x ∧
      key = manifestKey E c.tmpl.spec.type (manifestSourceURL c.tmpl.spec)
        ((manifestSourceIdentity c.tmpl).toList ++ (renderConfigMark ++ E.sha256Hex x)) c.params := by
  unfold renderKey manifestRenderIdentity at hkey
  cases hx : E.marshal c.tmpl.spec c.tmpl.ns with
  | none => rw [hx] at hkey; cases hkey
  | some x =>
    rw [hx] at hkey
    exact ⟨x, rfl, (Option.some.inj hkey).symm⟩

theorem removes_iff (hkey : renderKey E d = some key) :
    Removes E t u revision key ↔ invalidatedPrefix E t u revision <+: key := by
  obtain ⟨x, -, rfl⟩ := renderKey_eq_some hkey
  constructor
  · intro h
    by_contra hp
    have hafter := h (fun _ => some []) _ rfl
    rw [invalidate_manifestKey rfl, if_neg hp] at hafter
    cases hafter
  · intro hp cache after h
    rw [invalidate_manifestKey h, if_pos hp]

theorem spares_of_not_prefix (hkey : renderKey E d = some key)
    (hp : ¬ invalidatedPrefix E t u revision <+: key) : Spares E t u revision key := by
  obtain ⟨x, -, rfl⟩ := renderKey_eq_some hkey
  intro cache after h
  rw [invalidate_manifestKey h, if_neg hp]

theorem sourcePrefix_prefix_iff (hE : Faithful E calls more) (hc : c ∈ calls) (hd : d ∈ calls)
    (hkey : renderKey E d = some key) :
    invalidatedPrefix E c.tmpl.spec.type (manifestSourceURL c.tmpl.spec) "" <+: key ↔ SameSource c d := by
  obtain ⟨x, -, rfl⟩ := renderKey_eq_some hkey
  rw [invalidatedPrefix, if_pos rfl, manifestSourcePrefix_prefix_iff hE]
  constructor
  · intro h
    have htext := hE.collisionFree _ (mem_texts hc (by simp [hashedTexts])) _ (mem_texts hd (by simp [hashedTexts])) h
    obtain ⟨htype, hurl⟩ := sourceText_inj htext
    exact ⟨htype.symm, hurl.symm⟩
  · rintro ⟨htype, hurl⟩
    rw [htype, hurl]

/-- The prefix of a revision is on no key that a render stores: there the revision comes with its configuration. -/
theorem not_revisionPrefix_prefix (hE : Faithful E calls [revision.toList]) (hd : d ∈ calls)
    (hrev : revision ≠ "") (hkey : renderKey E d = some key)
    (hident : manifestSourceIdentity d.tmpl = revision) : ¬ invalidatedPrefix E t u revision <+: key := by
  obtain ⟨x, hx, rfl⟩ := renderKey_eq_some hkey
  rw [invalidatedPrefix, if_neg hrev, revisionPrefix_prefix_iff hE, hident]
  intro h
  have hbare : revision.toList ∈ calls.flatMap (hashedTexts E) ++ [revision.toList] := by simp
  have hmem : revision.toList ++ (renderConfigMark ++ E.sha256Hex x) ∈ hashedTexts E d := by
    simp [hashedTexts, manifestRenderIdentity, hx, hident]
  have htext := hE.collisionFree _ hbare _ (mem_texts hd hmem) h.2
  exact append_ne_nil_of_left_ne_nil (by decide) _ (self_eq_append_right.mp htext)

/-- **Invalidation** is exact when the source identity of the render is empty, and so are those of all entries of its source. -/
theorem invalidation_reaches_iff
    (hE : Faithful E calls [(manifestSourceIdentity c.tmpl).toList]) (hc : c ∈ calls) :
    Reaches E calls c ↔
      manifestSourceIdentity c.tmpl = "" ∧ ∀ d ∈ calls, SameSource c d → manifestSourceIdentity d.tmpl = "" := by
  have hkeys : ∀ d ∈ calls, ∃ key, renderKey E d = some key := by
    intro d hd
    obtain ⟨x, hx⟩ := Option.isSome_iff_exists.mp (hE.encodes d hd)
    rw [renderKey, manifestRenderIdentity, hx]
    exact ⟨_, rfl⟩
  constructor
  · intro h
    obtain ⟨key, hkey⟩ := hkeys c hc
    have hempty : manifestSourceIdentity c.tmpl = "" := by
      by_contra hne
      exact not_revisionPrefix_prefix hE hc hne hkey rfl ((removes_iff hkey).mp (h.revision key hkey))
    refine ⟨hempty, ?_⟩
    intro d hd hsame
    by_contra hne
    obtain ⟨dkey, hdkey⟩ := hkeys d hd
    have hspares := h.others d hd dkey hdkey (.inl (by rw [hempty]; exact hne))
    rw [hempty] at hspares
    have hremoves := (removes_iff hdkey).mpr ((sourcePrefix_prefix_iff hE hc hd hdkey).mpr hsame)
    have hsome := hspares (fun _ => some []) _ rfl
    rw [hremoves _ _ rfl] at hsome
    cases hsome
  · rintro ⟨hempty, hothers⟩
    have hown : ∀ key, renderKey E c = some key →
        Removes E c.tmpl.spec.type (manifestSourceURL c.tmpl.spec) "" key := fun key hkey =>
      (removes_iff hkey).mpr ((sourcePrefix_prefix_iff hE hc hc hkey).mpr ⟨rfl, rfl⟩)
    refine { revision := ?_, all := hown, others := ?_ }
    · rw [hempty]
      exact hown
    intro d hd key hkey hdifferent
    rw [hempty] at hdifferent ⊢
    refine spares_of_not_prefix hkey (fun hp => ?_)
    have hsame := (sourcePrefix_prefix_iff hE hc hd hkey).mp hp
    rcases hdifferent with hidentity | hurl
    · exact hidentity (hothers d hd hsame)
    · exact hurl hsame.2

/-! ### One revision -/

theorem shopEncoders_faithful_main :
    Faithful shopEncoders [plainCall] [(manifestSourceIdentity plainCall.tmpl).toList] where
  length := shopEncoders_faithful.length
  collisionFree := fun _ hs _ ht => List.inj_on_of_nodup_map shop_hashes hs ht
  encodes c hc := shopEncoders_faithful.encodes c (mem_cons_of_mem _ hc)
  injective c hc d hd := shopEncoders_faithful.injective c (mem_cons_of_mem _ hc) d (mem_cons_of_mem _ hd)

theorem invalidation_shop : Faithful shopEncoders [plainCall] [(manifestSourceIdentity plainCall.tmpl).toList] ∧
      (Reaches shopEncoders [plainCall] plainCall ↔ manifestSourceIdentity plainCall.tmpl = "" ∧
          ∀ d ∈ [plainCall], SameSource plainCall d → manifestSourceIdentity d.tmpl = "") :=
  ⟨shopEncoders_faithful_main, invalidation_reaches_iff shopEncoders_faithful_main mem_cons_self⟩

/-- The entry of revision `main` stays when `main` is invalidated. -/
theorem invalidation_misses_main : ¬ Reaches shopEncoders [plainCall] plainCall := by
  intro h
  obtain ⟨key, hkey⟩ : ∃ key, renderKey shopEncoders plainCall = some key :=
    Option.isSome_iff_exists.mp (by decide)
  exact not_revisionPrefix_prefix shopEncoders_faithful_main mem_cons_self (by decide) hkey rfl
    ((removes_iff hkey).mp (h.revision key hkey))

end Paprika.Engine
