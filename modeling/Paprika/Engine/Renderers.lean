import Paprika.Engine.Templates
import Paprika.Lib.Text

/-!
# Rendering a list of templates

`RenderAll` of the three renderers.  `HelmSDKRenderer` hands the output of each template to the next and returns the
last; `CachedTemplateRenderer` and `RepoServerRenderer` render each template by itself and join the outputs.  What
renders one chart or builds one kustomization is given.

`renderers_agree_iff`: they agree on a list, whatever the given functions do, exactly when it has at most one template,
or when it always fails (one of its templates can never be rendered, or the first one wants a previous output).
-/

namespace Paprika.Engine

open Lib.Text List

abbrev Manifests := List Char

/-- Rendering of one template: charts, plain kustomizations by their path, and overlays over a path or an earlier
output. -/
structure Rendering where
  renderHelm : Template → StringMap → Except String Manifests
  runKustomizeBuild : String → Except String Manifests
  renderWithOverlay : KustomizeSourceSpec → String → Option Manifests → Except String Manifests

variable (R : Rendering)

def kustomizeHasTransformations (kust : KustomizeSourceSpec) : Bool :=
  decide (kust.namePrefix ≠ "") || decide (kust.nameSuffix ≠ "") || decide (kust.ns ≠ "") ||
    decide (kust.images.length > 0) || decide (kust.commonLabels.entries.length > 0) ||
    decide (kust.commonAnnotations.entries.length > 0)

def resolveKustomizePath (kust : KustomizeSourceSpec) : Except String String :=
  if kust.path ≠ "" then .ok kust.path else .error "kustomize path or git/s3/oci source is required"

/-- `renderKustomize`; the previous output may be empty. -/
def renderKustomize (tmpl : Template) (previousOutput : Manifests) : Except String Manifests :=
  match tmpl.spec.kustomize with
  | none => .error "kustomize spec is required for type=kustomize"
  | some kust =>
    if kust.inputFromPrevious then
      if previousOutput.length = 0 then
        .error "kustomize inputFromPrevious requested but no previous render output available"
      else R.renderWithOverlay kust "" (some previousOutput)
    else
      match resolveKustomizePath kust with
      | .error e => .error ("resolve kustomize path: " ++ e)
      | .ok path =>
        if kustomizeHasTransformations kust then R.renderWithOverlay kust path none
        else R.runKustomizeBuild path

/-- One template, with the output before it. -/
def renderTemplate (tmpl : Template) (params : StringMap) (previous : Manifests) : Except String Manifests :=
  match tmpl.spec.type with
  | .kustomize => renderKustomize R tmpl previous
  | _ => R.renderHelm tmpl params

/-- `HelmSDKRenderer.Render`. -/
def helmSDKRender (tmpl : Template) (params : StringMap) : Except String Manifests := renderTemplate R tmpl params []

/-- The loop of `HelmSDKRenderer.RenderAll`. -/
def helmSDKRenderFrom (params : StringMap) (i : Nat) (previous : Manifests) : List Template → Except String Manifests
  | [] => .ok previous
  | tmpl :: rest =>
    match renderTemplate R tmpl params previous with
    | .error e => .error s!"template {i} ({tmpl.name}) render failed: {e}"
    | .ok rendered => helmSDKRenderFrom params (i + 1) rendered rest

/-- `HelmSDKRenderer.RenderAll`. -/
def helmSDKRenderAll (templates : List Template) (params : StringMap) : Except String Manifests :=
  helmSDKRenderFrom R params 0 [] templates

/-- A loop that renders each template by itself and joins the outputs. -/
def renderEach (render : Template → Except String Manifests) (wrap : Template → String → String) (result : Manifests) :
    List Template → Except String Manifests
  | [] => .ok result
  | tmpl :: rest =>
    match render tmpl with
    | .error e => .error (wrap tmpl e)
    | .ok rendered => renderEach render wrap (result ++ rendered) rest

/-- `CachedTemplateRenderer.Render`, over a cache that is transparent. -/
def cachedRender (tmpl : Template) (params : StringMap) : Except String Manifests :=
  match helmSDKRender R tmpl params with
  | .error e => .error ("render template: " ++ e)
  | .ok rendered => .ok rendered

/-- `CachedTemplateRenderer.RenderAll`. -/
def cachedRenderAll (templates : List Template) (params : StringMap) : Except String Manifests :=
  renderEach (fun tmpl => cachedRender R tmpl params) (fun _ e => "render all templates: " ++ e) [] templates

/-- How a call of the repo server ends. -/
inductive ServerCall
  | answered | unreachable | timedOut
  deriving DecidableEq, Repr

/-- The repo server in front of a caching renderer. -/
structure RepoServer where
  enabled : Bool
  noFallbackOnTimeout : Bool
  call : Template → ServerCall

/-- The client's call: the server renders with a caching renderer of its own. -/
def clientRender (S : RepoServer) (tmpl : Template) (params : StringMap) : Except ServerCall Manifests :=
  match S.call tmpl with
  | .answered =>
    match cachedRender R tmpl params with
    | .ok manifests => .ok manifests
    | .error _ => .error .answered
  | outcome => .error outcome

/-- The caching renderer behind the repo server. -/
def localRender (tmpl : Template) (params : StringMap) : Except String Manifests :=
  match cachedRender R tmpl params with
  | .ok manifests => .ok manifests
  | .error e => .error ("local render: " ++ e)

/-- `RepoServerRenderer.Render`. -/
def repoServerRender (S : RepoServer) (tmpl : Template) (params : StringMap) : Except String Manifests :=
  if S.enabled then
    match clientRender R S tmpl params with
    | .ok manifests => .ok manifests
    | .error outcome =>
      if S.noFallbackOnTimeout ∧ outcome = .timedOut then
        .error s!"repo server call timed out: render {tmpl.ns}/{tmpl.name}; the repo server is still working on it, retry later"
      else localRender R tmpl params
  else localRender R tmpl params

/-- `RepoServerRenderer.RenderAll`. -/
def repoServerRenderAll (S : RepoServer) (templates : List Template) (params : StringMap) : Except String Manifests :=
  renderEach (fun tmpl => repoServerRender R S tmpl params)
    (fun tmpl e => s!"render template {tmpl.ns}/{tmpl.name}: {e}") [] templates

def splitYAMLDocuments (manifests : Manifests) : List Manifests :=
  ((split "\n---\n".toList manifests).map trimSpace).filter (fun doc => !doc.isEmpty)

/-! ## What agreement means -/

/-- Both succeed with the same documents, or both fail. -/
def SameDocuments : Except String Manifests → Except String Manifests → Prop
  | .ok a, .ok b => splitYAMLDocuments a = splitYAMLDocuments b
  | .error _, .error _ => True
  | _, _ => False

/-- The repo server answers, or leaves the work to the local renderer. -/
def RepoServer.FallsBack (S : RepoServer) : Prop := S.noFallbackOnTimeout = true → ∀ tmpl, S.call tmpl ≠ .timedOut

def RenderersAgree (templates : List Template) (params : StringMap) : Prop :=
  ∀ (R : Rendering) (S : RepoServer), S.FallsBack →
    SameDocuments (helmSDKRenderAll R templates params) (cachedRenderAll R templates params) ∧
      SameDocuments (helmSDKRenderAll R templates params) (repoServerRenderAll R S templates params)

/-- A kustomize template without a spec, or with neither a path nor a previous output to build from. -/
def Unrenderable (tmpl : Template) : Prop :=
  tmpl.spec.type = .kustomize ∧ ∀ kust ∈ tmpl.spec.kustomize, kust.inputFromPrevious = false ∧ kust.path = ""

def Layered (tmpl : Template) : Prop :=
  tmpl.spec.type = .kustomize ∧ ∃ kust ∈ tmpl.spec.kustomize, kust.inputFromPrevious = true

instance (tmpl : Template) : Decidable (Unrenderable tmpl) := inferInstanceAs (Decidable (_ ∧ _))

/-- The list is too short for the renderers to differ, or always fails. -/
def NothingToJoin (templates : List Template) : Prop :=
  templates.length ≤ 1 ∨ (∃ tmpl ∈ templates, Unrenderable tmpl) ∨ (∃ tmpl ∈ templates.head?, Layered tmpl)

/-! ### One template -/

variable {R} {tmpl : Template} {params : StringMap} {templates : List Template}

theorem toOption_cachedRender : (cachedRender R tmpl params).toOption = (helmSDKRender R tmpl params).toOption := by
  unfold cachedRender
  cases helmSDKRender R tmpl params <;> rfl

theorem toOption_localRender : (localRender R tmpl params).toOption = (helmSDKRender R tmpl params).toOption := by
  rw [← toOption_cachedRender, localRender]
  cases cachedRender R tmpl params <;> rfl

theorem toOption_repoServerRender {S : RepoServer} (hS : S.FallsBack) :
    (repoServerRender R S tmpl params).toOption = (helmSDKRender R tmpl params).toOption := by
  have hlocal : (localRender R tmpl params).toOption = (helmSDKRender R tmpl params).toOption := toOption_localRender
  have hcached : (cachedRender R tmpl params).toOption = (helmSDKRender R tmpl params).toOption := toOption_cachedRender
  unfold repoServerRender
  by_cases henabled : S.enabled = true
  · rw [if_pos henabled]
    unfold clientRender
    cases hcall : S.call tmpl with
    | answered =>
      cases hrender : cachedRender R tmpl params with
      | ok manifests =>
        rw [hrender] at hcached
        exact hcached
      | error e =>
        dsimp only
        rw [if_neg (fun h => by cases h.2)]
        exact hlocal
    | unreachable =>
      dsimp only
      rw [if_neg (fun h => by cases h.2)]
      exact hlocal
    | timedOut =>
      dsimp only
      rw [if_neg (fun h => hS h.1 tmpl hcall)]
      exact hlocal
  · rw [if_neg henabled]
    exact hlocal

theorem renderTemplate_unrenderable (h : Unrenderable tmpl) (previous : Manifests) :
    ∃ e, renderTemplate R tmpl params previous = .error e := by
  obtain ⟨htype, hspec⟩ := h
  unfold renderTemplate
  rw [htype]
  dsimp only
  unfold renderKustomize
  cases hkust : tmpl.spec.kustomize with
  | none => exact ⟨_, rfl⟩
  | some kust =>
  obtain ⟨hinput, hpath⟩ := hspec kust (by rw [hkust]; rfl)
  dsimp only
  rw [hinput, if_neg Bool.false_ne_true, resolveKustomizePath, if_neg (fun hne => hne hpath)]
  exact ⟨_, rfl⟩

theorem renderTemplate_layered (h : Layered tmpl) : ∃ e, renderTemplate R tmpl params [] = .error e := by
  obtain ⟨htype, kust, hkust, hinput⟩ := h
  unfold renderTemplate
  rw [htype]
  dsimp only
  unfold renderKustomize
  rw [Option.mem_def.mp hkust]
  dsimp only
  rw [if_pos hinput, if_pos length_nil]
  exact ⟨_, rfl⟩

/-! ### The loops -/

variable {wrap : Template → String → String}

theorem toOption_renderEach {render render' : Template → Except String Manifests}
    {wrap' : Template → String → String}
    (h : ∀ tmpl, (render tmpl).toOption = (render' tmpl).toOption) (result : Manifests) :
    (renderEach render wrap result templates).toOption = (renderEach render' wrap' result templates).toOption := by
  induction templates generalizing result with
  | nil => rfl
  | cons tmpl rest ih =>
    have htmpl := h tmpl
    unfold renderEach
    cases hr : render tmpl with
    | error e =>
      cases hr' : render' tmpl with
      | error e' => rfl
      | ok b => rw [hr, hr'] at htmpl; cases htmpl
    | ok a =>
    cases hr' : render' tmpl with
    | error e' => rw [hr, hr'] at htmpl; cases htmpl
    | ok b =>
      rw [hr, hr'] at htmpl
      cases htmpl
      exact ih (result ++ a)

theorem renderEach_error {render : Template → Except String Manifests}
    (h : ∃ tmpl ∈ templates, ∃ e, render tmpl = .error e) (result : Manifests) :
    ∃ e, renderEach render wrap result templates = .error e := by
  induction templates generalizing result with
  | nil =>
    obtain ⟨tmpl, hmem, -⟩ := h
    cases hmem
  | cons tmpl rest ih =>
    unfold renderEach
    cases hr : render tmpl with
    | error e => exact ⟨_, rfl⟩
    | ok rendered =>
    obtain ⟨bad, hmem, e, he⟩ := h
    rcases mem_cons.mp hmem with rfl | hrest
    · rw [hr] at he
      cases he
    · exact ih ⟨bad, hrest, e, he⟩ (result ++ rendered)

theorem helmSDKRenderFrom_unrenderable (h : ∃ tmpl ∈ templates, Unrenderable tmpl) (i : Nat) (previous : Manifests) :
    ∃ e, helmSDKRenderFrom R params i previous templates = .error e := by
  induction templates generalizing i previous with
  | nil =>
    obtain ⟨tmpl, hmem, -⟩ := h
    cases hmem
  | cons tmpl rest ih =>
    unfold helmSDKRenderFrom
    cases hr : renderTemplate R tmpl params previous with
    | error e => exact ⟨_, rfl⟩
    | ok rendered =>
    obtain ⟨bad, hmem, hbad⟩ := h
    rcases mem_cons.mp hmem with rfl | hrest
    · obtain ⟨e, he⟩ : ∃ e, renderTemplate R bad params previous = .error e :=
        renderTemplate_unrenderable hbad previous
      rw [hr] at he
      cases he
    · exact ih ⟨bad, hrest, hbad⟩ (i + 1) rendered

theorem sameDocuments_congr {a b b' : Except String Manifests} (h : b.toOption = b'.toOption) :
    SameDocuments a b ↔ SameDocuments a b' := by
  cases b with
  | error e =>
    cases b' with
    | error e' => cases a <;> rfl
    | ok m => cases h
  | ok m =>
  cases b' with
  | error e => cases h
  | ok m' =>
    cases h
    rfl

theorem sameDocuments_of_errors {a b : Except String Manifests} (ha : ∃ e, a = .error e) (hb : ∃ e, b = .error e) :
    SameDocuments a b := by
  obtain ⟨e, rfl⟩ := ha
  obtain ⟨e', rfl⟩ := hb
  trivial

/-- Joining without a cache in between. -/
def joinedRender (R : Rendering) (templates : List Template) (params : StringMap) : Except String Manifests :=
  renderEach (fun tmpl => helmSDKRender R tmpl params) (fun _ e => e) [] templates

theorem renderersAgree_iff_joined : RenderersAgree templates params ↔
      ∀ R, SameDocuments (helmSDKRenderAll R templates params) (joinedRender R templates params) := by
  have hcached : ∀ R, (cachedRenderAll R templates params).toOption = (joinedRender R templates params).toOption :=
    fun R => toOption_renderEach (fun tmpl => toOption_cachedRender) []
  constructor
  · intro h R
    have hagree := h R { enabled := false, noFallbackOnTimeout := false, call := fun _ => .unreachable }
      (fun hfalse => by cases hfalse)
    exact (sameDocuments_congr (hcached R)).mp hagree.1
  · intro h R S hS
    have hserver : (repoServerRenderAll R S templates params).toOption = (joinedRender R templates params).toOption :=
      toOption_renderEach (fun tmpl => toOption_repoServerRender hS) []
    exact ⟨(sameDocuments_congr (hcached R)).mpr (h R), (sameDocuments_congr hserver).mpr (h R)⟩

/-! ### Lists on which they agree -/

theorem sameDocuments_refl (a : Except String Manifests) : SameDocuments a a := by
  cases a with
  | error e => trivial
  | ok m => exact Eq.refl (splitYAMLDocuments m)

theorem helmSDKRenderAll_singleton : helmSDKRenderAll R [tmpl] params =
      match renderTemplate R tmpl params [] with
      | .error e => .error s!"template {0} ({tmpl.name}) render failed: {e}"
      | .ok rendered => .ok rendered := rfl

theorem joinedRender_singleton : joinedRender R [tmpl] params = renderTemplate R tmpl params [] := by
  unfold joinedRender renderEach helmSDKRender
  cases renderTemplate R tmpl params [] with
  | error e => rfl
  | ok rendered => rfl

theorem sameDocuments_of_nothingToJoin (h : NothingToJoin templates) :
    SameDocuments (helmSDKRenderAll R templates params) (joinedRender R templates params) := by
  rcases h with hshort | hbad | hfirst
  · cases templates with
    | nil => exact sameDocuments_refl (.ok [])
    | cons tmpl rest =>
    have hrest : rest = [] := length_eq_zero_iff.mp (Nat.le_zero.mp (Nat.le_of_succ_le_succ hshort))
    subst hrest
    rw [helmSDKRenderAll_singleton, joinedRender_singleton]
    cases renderTemplate R tmpl params [] with
    | error e => trivial
    | ok rendered => exact sameDocuments_refl (.ok rendered)
  · refine sameDocuments_of_errors (helmSDKRenderFrom_unrenderable hbad 0 []) (renderEach_error ?_ [])
    obtain ⟨tmpl, hmem, htmpl⟩ := hbad
    exact ⟨tmpl, hmem, renderTemplate_unrenderable htmpl []⟩
  · obtain ⟨tmpl, hhead, hlayered⟩ := hfirst
    cases templates with
    | nil => cases hhead
    | cons first rest =>
    have hfirst : first = tmpl := Option.some.inj (Option.mem_def.mp hhead)
    subst hfirst
    obtain ⟨e, he⟩ : ∃ e, renderTemplate R first params [] = .error e := renderTemplate_layered hlayered
    refine sameDocuments_of_errors ?_ (renderEach_error ⟨first, mem_cons_self, e, he⟩ [])
    unfold helmSDKRenderAll helmSDKRenderFrom
    rw [he]
    exact ⟨_, rfl⟩

/-! ### Lists on which they differ -/

def letter : Rendering where
  renderHelm _ _ := .ok ['a']
  runKustomizeBuild _ := .ok ['a']
  renderWithOverlay _ _ _ := .ok ['a']

theorem renderTemplate_letter (hok : ¬ Unrenderable tmpl) {previous : Manifests}
    (hprev : previous ≠ [] ∨ ¬ Layered tmpl) :
    renderTemplate letter tmpl params previous = .ok ['a'] := by
  unfold renderTemplate
  split
  · rename_i htype
    unfold renderKustomize
    cases hkust : tmpl.spec.kustomize with
    | none =>
      refine absurd ⟨htype, ?_⟩ hok
      intro kust hmem
      rw [hkust] at hmem
      cases hmem
    | some kust =>
    dsimp only
    by_cases hinput : kust.inputFromPrevious = true
    · rw [if_pos hinput]
      rcases hprev with hne | hlayered
      · rw [if_neg (fun h => hne (length_eq_zero_iff.mp h))]
        rfl
      · exact absurd ⟨htype, kust, hkust, hinput⟩ hlayered
    rw [if_neg hinput]
    have hpath : kust.path ≠ "" := by
      intro hpath
      refine hok ⟨htype, ?_⟩
      intro kust' hmem
      rw [hkust] at hmem
      cases hmem
      exact ⟨Bool.eq_false_iff.mpr hinput, hpath⟩
    rw [resolveKustomizePath, if_pos hpath]
    dsimp only
    split <;> rfl
  · rfl

theorem helmSDKRenderFrom_letter (hok : ∀ tmpl ∈ templates, ¬ Unrenderable tmpl) (i : Nat) :
    helmSDKRenderFrom letter params i ['a'] templates = .ok ['a'] := by
  induction templates generalizing i with
  | nil => rfl
  | cons tmpl rest ih =>
    unfold helmSDKRenderFrom
    rw [renderTemplate_letter (hok tmpl mem_cons_self) (.inl (cons_ne_nil _ _))]
    exact ih (fun t ht => hok t (mem_cons_of_mem tmpl ht)) (i + 1)

theorem joined_letter (hok : ∀ tmpl ∈ templates, ¬ Unrenderable tmpl) {result joined : Manifests}
    (h : renderEach (fun tmpl => helmSDKRender letter tmpl params) wrap result templates = .ok joined) :
    joined = result ++ List.replicate templates.length 'a' := by
  induction templates generalizing result with
  | nil =>
    cases h
    exact (append_nil _).symm
  | cons tmpl rest ih =>
    unfold renderEach at h
    by_cases hlayered : Layered tmpl
    · obtain ⟨e, he⟩ : ∃ e, renderTemplate letter tmpl params [] = .error e := renderTemplate_layered hlayered
      rw [helmSDKRender, he] at h
      cases h
    · rw [helmSDKRender, renderTemplate_letter (hok tmpl mem_cons_self) (.inr hlayered)] at h
      rw [ih (fun t ht => hok t (mem_cons_of_mem tmpl ht)) h, append_assoc]
      rfl

theorem splitYAMLDocuments_letters (n : Nat) :
    splitYAMLDocuments (List.replicate (n + 1) 'a') = [List.replicate (n + 1) 'a'] := by
  have hnewline : '\n' ∉ List.replicate (n + 1) 'a' := by
    intro h
    exact absurd (eq_of_mem_replicate h) (by decide)
  have htrim : trimSpace (List.replicate (n + 1) 'a') = List.replicate (n + 1) 'a' := by
    refine trimSpace_eq_self ?_
    intro c hc
    rw [eq_of_mem_replicate hc]
    decide
  have hsplit : split "\n---\n".toList (List.replicate (n + 1) 'a') = [List.replicate (n + 1) 'a'] :=
    split_of_not_mem hnewline
  rw [splitYAMLDocuments, hsplit, map_cons, map_nil, htrim]
  rfl

theorem not_sameDocuments_letter (hlen : 2 ≤ templates.length) (hok : ∀ tmpl ∈ templates, ¬ Unrenderable tmpl)
    (hfirst : ∀ tmpl ∈ templates.head?, ¬ Layered tmpl) :
    ¬ SameDocuments (helmSDKRenderAll letter templates params) (joinedRender letter templates params) := by
  have hhelm : helmSDKRenderAll letter templates params = .ok ['a'] := by
    cases templates with
    | nil => cases hlen
    | cons tmpl rest =>
      unfold helmSDKRenderAll helmSDKRenderFrom
      rw [renderTemplate_letter (hok tmpl mem_cons_self) (.inr (hfirst tmpl rfl))]
      exact helmSDKRenderFrom_letter (fun t ht => hok t (mem_cons_of_mem tmpl ht)) 1
  rw [hhelm]
  cases hjoined : joinedRender letter templates params with
  | error e => exact id
  | ok joined =>
  intro hsame
  have hletters := joined_letter hok hjoined
  obtain ⟨n, hn⟩ : ∃ n, templates.length = n + 1 := ⟨templates.length - 1, by omega⟩
  rw [nil_append, hn] at hletters
  have hdocs : splitYAMLDocuments ['a'] = splitYAMLDocuments joined := hsame
  rw [hletters, splitYAMLDocuments_letters, show ['a'] = List.replicate (0 + 1) 'a' from rfl,
    splitYAMLDocuments_letters] at hdocs
  have hlengths := congrArg List.length (List.cons.inj hdocs).1
  rw [length_replicate, length_replicate] at hlengths
  omega

/-- **Agreement of the renderers.**  They agree on a list of templates, whatever renders one template and however the
repo server falls back, exactly when there is nothing to join or to hand on. -/
theorem renderers_agree_iff (templates : List Template) (params : StringMap) :
    RenderersAgree templates params ↔ NothingToJoin templates := by
  rw [renderersAgree_iff_joined]
  constructor
  · intro h
    by_contra hnot
    unfold NothingToJoin at hnot
    push Not at hnot
    obtain ⟨hlength, hok, hfirst⟩ := hnot
    exact not_sameDocuments_letter (by omega) hok hfirst (h letter)
  · exact fun h R => sameDocuments_of_nothingToJoin h

def chartTemplate (name : String) : Template where
  name := name
  ns := "shop"
  spec := {
    type := .helm
    chart := { repo := "https://charts.example.com", name := name, version := "1.0.0", path := "" }
    git := none
    s3 := none
    oci := none
    kustomize := none
    repoRef := ""
    ns := ""
    valuesFile := "" }
  sourceHash := ""
  sourceRevision := ""

/-- Of two charts, one renderer deploys the second and the others both. -/
theorem renderers_disagree_on_two_charts :
    ¬ RenderersAgree [chartTemplate "web", chartTemplate "db"] StringMap.empty := by
  rw [renderersAgree_iff_joined]
  intro h
  refine not_sameDocuments_letter (by decide) (by decide) ?_ (h letter)
  intro tmpl hhead hlayered
  cases hhead
  exact absurd hlayered.1 (by decide)

end Paprika.Engine
