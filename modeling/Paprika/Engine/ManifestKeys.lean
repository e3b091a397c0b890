import Paprika.Engine.Templates
import Paprika.Lib.Text

/-!
# Keys of the manifest cache

The key of a rendered manifest, made in `internal/cache` from the pieces that `cached_renderer.go` hands to it.  SHA-256
and the JSON encoder are parameters; what is relied on of them is `Faithful`.

* `manifestKey_eq_iff` — two keys are equal when type and URL, the render identity and the texts of the parameters are;
* **`renderKey_eq_iff`** — so the keys of two renders are equal when their configurations are and their parameters
  write as one text, which different maps may do.
-/

namespace Paprika.Engine

open Lib.Text List Option

/-- What the keys are made with. -/
structure Encoders where
  sha256Hex : List Char → List Char
  /-- `json.Marshal` of the spec and the namespace. -/
  marshal : TemplateSpec → String → Option (List Char)

variable (E : Encoders)

/-! ### `internal/cache` -/

def hashKey (s : List Char) : List Char := (E.sha256Hex s).take 32

/-- `mapHash`: the entries in key order. -/
def mapHash (m : StringMap) : List Char :=
  if m.entries.length = 0 then []
  else [','].intercalate (m.entries.map (fun e => e.1.toList ++ '=' :: e.2.toList))

def sourceText (sourceType : SourceType) (sourceURL : String) : List Char :=
  sourceType.text.toList ++ '|' :: sourceURL.toList

def manifestSourcePrefix (sourceType : SourceType) (sourceURL : String) : List Char :=
  "manifest".toList ++ ':' :: hashKey E (sourceText sourceType sourceURL)

def sourceSourcePrefix (sourceType : SourceType) (sourceURL : String) : List Char :=
  "source".toList ++ ':' :: hashKey E (sourceText sourceType sourceURL)

def manifestKey (sourceType : SourceType) (sourceURL : String) (revision : List Char) (params : StringMap) :
    List Char :=
  manifestSourcePrefix E sourceType sourceURL ++ ':' :: (hashKey E revision ++ ':' :: hashKey E (mapHash params))

/-! ### `cached_renderer.go` -/

def manifestHelmSourceURL (spec : TemplateSpec) : String :=
  if spec.chart.path ≠ "" then spec.chart.path
  else spec.chart.repo ++ "/" ++ spec.chart.name ++ "@" ++ spec.chart.version

def manifestGitSourceURL (spec : TemplateSpec) : String :=
  match spec.git with
  | none => ""
  | some git => git.repoURL ++ "//" ++ git.path

def manifestS3SourceURL (spec : TemplateSpec) : String :=
  match spec.s3 with
  | none => ""
  | some s3 => "s3://" ++ s3.bucket ++ "/" ++ s3.key

def manifestOCISourceURL (spec : TemplateSpec) : String :=
  match spec.oci with
  | none => ""
  | some oci => oci.url

def manifestKustomizeSourceURL (spec : TemplateSpec) : String :=
  match spec.kustomize with
  | none => ""
  | some kustomize => if kustomize.inputFromPrevious then "kustomize:input-from-previous" else kustomize.path

def manifestSourceURL (spec : TemplateSpec) : String :=
  match spec.type with
  | .helm => manifestHelmSourceURL spec
  | .git => manifestGitSourceURL spec
  | .s3 => manifestS3SourceURL spec
  | .oci => manifestOCISourceURL spec
  | .kustomize => manifestKustomizeSourceURL spec

def manifestSpecRevision (spec : TemplateSpec) : String :=
  match spec.type with
  | .git => (spec.git.map (·.revision)).getD ""
  | .oci => (spec.oci.map (·.tag)).getD ""
  | _ => ""

def manifestSourceIdentity (tmpl : Template) : String :=
  if tmpl.sourceHash ≠ "" then tmpl.sourceHash
  else if tmpl.sourceRevision ≠ "" then tmpl.sourceRevision
  else manifestSpecRevision tmpl.spec

def renderConfigMark : List Char := ":render-config-v1-".toList

/-- `manifestRenderIdentity`; `none` where the configuration cannot be encoded. -/
def manifestRenderIdentity (tmpl : Template) : Option (List Char) :=
  (E.marshal tmpl.spec tmpl.ns).map (fun encoded =>
    (manifestSourceIdentity tmpl).toList ++ (renderConfigMark ++ E.sha256Hex encoded))

/-- The arguments of a `Render`. -/
structure RenderCall where
  tmpl : Template
  params : StringMap
  deriving DecidableEq

/-- The key that a `Render` reads and writes. -/
def renderKey (c : RenderCall) : Option (List Char) :=
  (manifestRenderIdentity E c.tmpl).map (fun identity =>
    manifestKey E c.tmpl.spec.type (manifestSourceURL c.tmpl.spec) identity c.params)

/-! ### What is relied on -/

def hashedTexts (c : RenderCall) : List (List Char) :=
  [sourceText c.tmpl.spec.type (manifestSourceURL c.tmpl.spec), mapHash c.params] ++
    (E.marshal c.tmpl.spec c.tmpl.ns).toList ++ (manifestRenderIdentity E c.tmpl).toList

/-- SHA-256 writes 64 digits and has no collision, in the 32 that are used, among the texts of these calls and `more`;
the encoder encodes their configurations and tells them apart. -/
structure Faithful (calls : List RenderCall) (more : List (List Char)) : Prop where
  length : ∀ s, (E.sha256Hex s).length = 64
  collisionFree : ∀ s ∈ calls.flatMap (hashedTexts E) ++ more, ∀ t ∈ calls.flatMap (hashedTexts E) ++ more,
    hashKey E s = hashKey E t → s = t
  encodes : ∀ c ∈ calls, (E.marshal c.tmpl.spec c.tmpl.ns).isSome
  injective : ∀ c ∈ calls, ∀ d ∈ calls, E.marshal c.tmpl.spec c.tmpl.ns = E.marshal d.tmpl.spec d.tmpl.ns →
    c.tmpl.spec = d.tmpl.spec ∧ c.tmpl.ns = d.tmpl.ns

/-! ### Texts of parameters -/

/-- Entries as they are written: `key=value`, with commas between. -/
def written : List (String × String) → List Char
  | [] => []
  | [e] => e.1.toList ++ '=' :: e.2.toList
  | e :: f :: rest => e.1.toList ++ '=' :: (e.2.toList ++ ',' :: written (f :: rest))

/-- Different maps that write as one text. -/
def Ambiguous (m m' : StringMap) : Prop := m ≠ m' ∧ written m.entries = written m'.entries

instance (m m' : StringMap) : Decidable (Ambiguous m m') := inferInstanceAs (Decidable (_ ∧ _))

theorem mapHash_eq (m : StringMap) : mapHash m = written m.entries := by
  have hjoin : ∀ es : List (String × String), es ≠ [] →
      [','].intercalate (es.map (fun e => e.1.toList ++ '=' :: e.2.toList)) = written es := by
    intro es
    induction es with
    | nil => intro h; exact absurd rfl h
    | cons e rest ih =>
      intro _
      cases rest with
      | nil => simp [written, List.intercalate]
      | cons f rest =>
      have hrest := ih (cons_ne_nil f rest)
      rw [map_cons] at hrest ⊢
      rw [map_cons, intercalate_cons_cons, hrest]
      simp [written]
  unfold mapHash
  by_cases hempty : m.entries = []
  · rw [hempty]
    rfl
  · rw [if_neg (fun h => hempty (length_eq_zero_iff.mp h)), hjoin m.entries hempty]

/-! ### Equal keys -/

variable {E} {calls : List RenderCall} {more : List (List Char)}

/-- Two calls with everything equal but the parameters. -/
def SameConfiguration (c d : RenderCall) : Prop :=
  c.tmpl.spec = d.tmpl.spec ∧ c.tmpl.ns = d.tmpl.ns ∧ manifestSourceIdentity c.tmpl = manifestSourceIdentity d.tmpl

instance (c d : RenderCall) : Decidable (SameConfiguration c d) := inferInstanceAs (Decidable (_ ∧ _))

namespace Faithful

theorem hashKey_length (hE : Faithful E calls more) (s : List Char) : (hashKey E s).length = 32 := by
  rw [hashKey, length_take, hE.length s]
  rfl

theorem digest_inj (hE : Faithful E calls more) {s t : List Char} (hs : s ∈ calls.flatMap (hashedTexts E) ++ more)
    (ht : t ∈ calls.flatMap (hashedTexts E) ++ more) (h : E.sha256Hex s = E.sha256Hex t) : s = t :=
  hE.collisionFree s hs t ht (by rw [hashKey, hashKey, h])

end Faithful

theorem mem_texts {c : RenderCall} (hc : c ∈ calls) {s : List Char} (hs : s ∈ hashedTexts E c) :
    s ∈ calls.flatMap (hashedTexts E) ++ more :=
  mem_append_left _ (mem_flatMap.mpr ⟨c, hc, hs⟩)

theorem manifestKey_eq_iff (hE : Faithful E calls more) {t t' : SourceType} {u u' : String} {r r' : List Char}
    {m m' : StringMap} :
    manifestKey E t u r m = manifestKey E t' u' r' m' ↔
      hashKey E (sourceText t u) = hashKey E (sourceText t' u') ∧ hashKey E r = hashKey E r' ∧
        hashKey E (mapHash m) = hashKey E (mapHash m') := by
  have hlen := fun s s' : List Char => (hE.hashKey_length s).trans (hE.hashKey_length s').symm
  constructor
  · intro h
    unfold manifestKey manifestSourcePrefix at h
    rw [append_assoc, append_assoc] at h
    have hcolon := (List.cons.inj (append_cancel_left h)).2
    obtain ⟨hsrc, hrest⟩ := append_inj hcolon (hlen (sourceText t u) (sourceText t' u'))
    obtain ⟨hrev, hparams⟩ := append_inj (List.cons.inj hrest).2 (hlen r r')
    exact ⟨hsrc, hrev, (List.cons.inj hparams).2⟩
  · intro h
    unfold manifestKey manifestSourcePrefix
    rw [h.1, h.2.1, h.2.2]

theorem manifestRenderIdentity_inj (hE : Faithful E calls more) {c d : RenderCall} (hc : c ∈ calls) (hd : d ∈ calls)
    (h : manifestRenderIdentity E c.tmpl = manifestRenderIdentity E d.tmpl) : SameConfiguration c d := by
  obtain ⟨x, hx⟩ := isSome_iff_exists.mp (hE.encodes c hc)
  obtain ⟨y, hy⟩ := isSome_iff_exists.mp (hE.encodes d hd)
  unfold manifestRenderIdentity at h
  rw [hx, hy, map_some, map_some, Option.some.injEq] at h
  have htails : (renderConfigMark ++ E.sha256Hex x).length = (renderConfigMark ++ E.sha256Hex y).length := by
    rw [length_append, length_append, hE.length x, hE.length y]
  obtain ⟨hident, hdigest⟩ := append_inj' h htails
  have hxy : x = y := by
    refine hE.digest_inj (mem_texts hc ?_) (mem_texts hd ?_) (append_cancel_left hdigest)
    · simp [hashedTexts, hx]
    · simp [hashedTexts, hy]
  obtain ⟨hspec, hns⟩ := hE.injective c hc d hd (by rw [hx, hy, hxy])
  exact ⟨hspec, hns, String.toList_inj.mp hident⟩

/-- **Equal keys.**  Two renders share a key when their configurations agree and their parameters write alike. -/
theorem renderKey_eq_iff (hE : Faithful E calls more) {c d : RenderCall} (hc : c ∈ calls) (hd : d ∈ calls) :
    renderKey E c = renderKey E d ↔ SameConfiguration c d ∧ written c.params.entries = written d.params.entries := by
  obtain ⟨x, hx⟩ := isSome_iff_exists.mp (hE.encodes c hc)
  obtain ⟨y, hy⟩ := isSome_iff_exists.mp (hE.encodes d hd)
  obtain ⟨i, hi⟩ : ∃ i, manifestRenderIdentity E c.tmpl = some i := ⟨_, by rw [manifestRenderIdentity, hx]; rfl⟩
  obtain ⟨j, hj⟩ : ∃ j, manifestRenderIdentity E d.tmpl = some j := ⟨_, by rw [manifestRenderIdentity, hy]; rfl⟩
  rw [renderKey, renderKey, hi, hj, map_some, map_some, Option.some.injEq, manifestKey_eq_iff hE,
    ← mapHash_eq, ← mapHash_eq]
  constructor
  · rintro ⟨-, hident, hparams⟩
    refine ⟨manifestRenderIdentity_inj hE hc hd ?_, ?_⟩
    · rw [hi, hj]
      exact congrArg some (hE.collisionFree i (mem_texts hc (by simp [hashedTexts, hi])) j
        (mem_texts hd (by simp [hashedTexts, hj])) hident)
    · exact hE.collisionFree _ (mem_texts hc (by simp [hashedTexts])) _ (mem_texts hd (by simp [hashedTexts])) hparams
  rintro ⟨⟨hspec, hns, hsrc⟩, hparams⟩
  have hij : some i = some j := by
    rw [← hi, ← hj, manifestRenderIdentity, manifestRenderIdentity, hspec, hns, hsrc]
  rw [hspec, some.inj hij, hparams]
  exact ⟨rfl, rfl, rfl⟩

end Paprika.Engine
