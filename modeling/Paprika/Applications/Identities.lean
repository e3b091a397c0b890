import Mathlib.Data.List.Chain
import Paprika.Applications.ReleaseFlow
import Paprika.Engine.Templates
import Paprika.Lib.Entries

/-!
# Identities of releases and of generated Applications

`releaseIdentity` of `application_controller.go` and `paramHash` of `applicationset_controller.go` join texts with `=` and
line breaks before they hash them, and digits of the hash end a name.

* `paramText` — what `paramHash` hashes, `identityFields` — what `releaseIdentity` joins;
* `releaseIdentity_inj`, `paramText_inj` — where no value has a line break and no key a `=`, the text tells the content;
* **`identities_sound_iff`** — which parameters share a text with others, and which names are valid.
-/

namespace Paprika.Applications

open Lib.Entries
open Engine (StringMap)
open List

/-! ### Generated Applications -/

/-- The bytes that `paramHash` hashes. -/
def paramText (params : StringMap) : String := params.entries.foldl (fun s e => s ++ e.1 ++ "=" ++ e.2 ++ "\n") ""

def paramHash (sha256Hex : String → String) (params : StringMap) : String := sha256Hex (paramText params)

/-- `applicationNameFromParams`, for a name of ASCII. -/
def applicationNameFromParams (sha256Hex : String → String) (setName : String) (params : StringMap) : String :=
  let suffix := (paramHash sha256Hex params).toList.take 8
  let name := setName.toList ++ '-' :: suffix
  let name := if 63 < name.length then setName.toList.take (max (63 - 1 - suffix.length) 1) ++ '-' :: suffix else name
  (String.ofList name).toLower

/-! ### Texts as entries -/

/-- An entry as it is written. -/
def chars (front : String) (e : String × String) : List Char × List Char := (front.toList ++ e.1.toList, e.2.toList)

variable {e : String × String}

theorem chars_inj {front : String} {f : String × String} (h : chars front e = chars front f) : e = f := by
  obtain ⟨hkey, hvalue⟩ := Prod.mk.inj h
  exact Prod.ext (String.toList_inj.mp (append_cancel_left hkey)) (String.toList_inj.mp hvalue)

theorem toList_foldl {f : String → String × String → String} {c : String × String → List Char}
    (h : ∀ s e, (f s e).toList = s.toList ++ c e) (es : List (String × String)) (s : String) :
    (es.foldl f s).toList = s.toList ++ es.flatMap c := by
  induction es generalizing s with
  | nil => simp
  | cons e es ih => rw [foldl_cons, ih, h, flatMap_cons, append_assoc]

theorem written_map_chars (front : String) (es : List (String × String)) : written '=' '\n' (es.map (chars front)) =
      es.flatMap fun e => front.toList ++ e.1.toList ++ '=' :: (e.2.toList ++ ['\n']) := by
  rw [written, flatMap_map]
  rfl

theorem toList_paramText (params : StringMap) :
    (paramText params).toList = written '=' '\n' (params.entries.map (chars "")) := by
  rw [written_map_chars, paramText, toList_foldl (c := fun e => "".toList ++ e.1.toList ++ '=' :: (e.2.toList ++ ['\n']))]
  · rfl
  · intro s e
    simp

/-! ### Parameters -/

/-- No entry at all, or one, with a `=` neither in its key nor in its value. -/
def Single (params : StringMap) : Prop :=
  params.entries = [] ∨ ∃ e, params.entries = [e] ∧ '=' ∉ e.1.toList ∧ '=' ∉ e.2.toList

/-- No `=` in a key and no line break in a value. -/
def PlainEntries (es : List (String × String)) : Prop := ∀ e ∈ es, '=' ∉ e.1.toList ∧ '\n' ∉ e.2.toList

variable {p q : StringMap}

theorem entries_inj (h : p.entries = q.entries) : p = q := by
  cases p
  cases q
  obtain rfl : _ = _ := h
  rfl

theorem PlainEntries.chars {es : List (String × String)} (h : PlainEntries es) {front : String} (hfront : '=' ∉ front.toList) :
    ∀ e ∈ es.map (chars front), Plain '=' '\n' e := by
  intro e he
  obtain ⟨f, hf, rfl⟩ := mem_map.mp he
  exact ⟨not_mem_append hfront (h f hf).1, (h f hf).2⟩

theorem paramText_inj (hp : PlainEntries p.entries) (hq : PlainEntries q.entries)
    (h : paramText p = paramText q) : p = q := by
  have hfront : '=' ∉ "".toList := not_mem_nil
  have hwrote := congrArg String.toList h
  rw [toList_paramText, toList_paramText] at hwrote
  have hents := written_inj (hp.chars hfront) (hq.chars hfront) hwrote
  exact entries_inj (map_injective_iff.mpr (fun _ _ => chars_inj) hents)

theorem count_le_one_iff (params : StringMap) : (paramText params).toList.count '=' ≤ 1 ↔ Single params := by
  have hlen : (params.entries.map (chars "")).length ≤ (written '=' '\n' (params.entries.map (chars ""))).count '=' :=
    length_le_count _
  rw [length_map] at hlen
  rw [toList_paramText]
  constructor
  · intro hcount
    match hents : params.entries, hlen with
    | [], _ => exact .inl hents
    | [e], _ =>
      rw [hents, map_singleton, written_cons, count_append, count_cons_self, count_append] at hcount
      refine .inr ⟨e, hents, ?_, ?_⟩
      · exact count_eq_zero.mp (show (chars "" e).1.count '=' = 0 by omega)
      · exact count_eq_zero.mp (show (chars "" e).2.count '=' = 0 by omega)
    | e :: f :: es, hlen =>
      rw [hents] at hcount
      simp only [length_cons] at hlen
      omega
  · rintro (hents | ⟨e, hents, hkey, hvalue⟩)
    · rw [hents]
      exact Nat.zero_le _
    · have hkey' : (chars "" e).1.count '=' = 0 := count_eq_zero.mpr hkey
      have hvalue' : (chars "" e).2.count '=' = 0 := count_eq_zero.mpr hvalue
      rw [hents, map_singleton, written_cons, count_append, count_cons_self, count_append, hkey',
        hvalue']
      simp [written]

/-- **Which parameters have a text of their own.** -/
theorem paramText_determines_iff (p : StringMap) : (∀ q, paramText q = paramText p → q = p) ↔ Single p := by
  rw [← count_le_one_iff]
  constructor
  · intro h
    by_contra hcount
    rw [toList_paramText] at hcount
    obtain ⟨f, hf, hother⟩ := written_as_one (by decide) (Nat.succ_le_of_lt (Nat.not_le.mp hcount))
    let q : StringMap := { entries := [(String.ofList f.1, String.ofList f.2)], sorted := pairwise_singleton _ _ }
    have hq : q.entries.map (chars "") = [f] := by simp [q, chars]
    have hsame : q = p := by
      refine h q (String.toList_inj.mp ?_)
      rw [toList_paramText, toList_paramText, hq, hf]
    exact hother (by rw [← hq, hsame])
  · intro hcount q hq
    rw [toList_paramText] at hcount
    have hwrote := congrArg String.toList hq
    rw [toList_paramText, toList_paramText] at hwrote
    have hents := eq_of_count_le_one hcount hwrote
    exact entries_inj (map_injective_iff.mpr (fun _ _ => chars_inj) hents)

/-! ### Releases -/

/-- The promotion sources that the identity of a release names. -/
def promotionUIDs (x : ReleaseFlow) : String × String :=
  match x.candidate with
  | some candidate =>
    if promotionTriggered x.app then (candidate.sourceApplicationUID, candidate.sourceReleaseUID) else ("", "")
  | none => ("", "")

def effectiveParameters (x : ReleaseFlow) (targetStage : PromotionStage) : List (String × String) :=
  releaseParameters x.app (identityStage x targetStage) (stableApplicationReleaseName x.settings.name)

/-- The fields before the parameters; one without a value is not written. -/
def sourceFields (x : ReleaseFlow) (targetStage : PromotionStage) : List (String × String) :=
  [("sourceHash", x.app.status.sourceHash), ("sourceRevision", x.app.status.sourceRevision),
    ("promotionApplicationUID", (promotionUIDs x).1), ("promotionReleaseUID", (promotionUIDs x).2),
    ("stage", (identityStage x targetStage).name)]

def sourceKeys : List String :=
  ["sourceHash", "sourceRevision", "promotionApplicationUID", "promotionReleaseUID", "stage"]

def identityFields (x : ReleaseFlow) (targetStage : PromotionStage) : List (List Char × List Char) :=
  ((sourceFields x targetStage).filter fun e => e.2 ≠ "").map (chars "") ++
    ((effectiveParameters x targetStage).insertionSort fun a b => a.1 ≤ b.1).map (chars "param:")

theorem written_filter (es : List (String × String)) :
    written '=' '\n' ((es.filter fun e => e.2 ≠ "").map (chars "")) = es.flatMap fun e => (identityField e.1 e.2).toList := by
  induction es with
  | nil => rfl
  | cons e es ih =>
    rw [flatMap_cons, ← ih, identityField]
    by_cases h : e.2 = ""
    · rw [filter_cons_of_neg (by simpa using h), if_pos h]
      rfl
    · rw [filter_cons_of_pos (by simpa using h), if_neg h, map_cons, written_cons]
      simp [chars]

theorem toList_releaseParametersIdentity (params : List (String × String)) : (releaseParametersIdentity params).toList =
    written '=' '\n' ((params.insertionSort fun a b => a.1 ≤ b.1).map (chars "param:")) := by
  rw [written_map_chars, releaseParametersIdentity,
    toList_foldl (c := fun e => "param:".toList ++ e.1.toList ++ '=' :: (e.2.toList ++ ['\n']))]
  · rfl
  · intro s e
    simp

variable {targetStage : PromotionStage}

theorem releaseIdentity_eq {x : ReleaseFlow}
    (hinput : hasReleaseIdentityInput x (identityStage x targetStage) = true) : releaseIdentity x targetStage =
      identityField "sourceHash" x.app.status.sourceHash ++ identityField "sourceRevision" x.app.status.sourceRevision ++
        (identityField "promotionApplicationUID" (promotionUIDs x).1 ++
          identityField "promotionReleaseUID" (promotionUIDs x).2) ++
        identityField "stage" (identityStage x targetStage).name ++
        releaseParametersIdentity (effectiveParameters x targetStage) := by
  rw [releaseIdentity, if_pos hinput, promotionUIDs]
  cases x.candidate with
  | none => rfl
  | some candidate =>
  dsimp only
  split_ifs
  · rfl
  · rfl

theorem toList_releaseIdentity {x : ReleaseFlow}
    (hinput : hasReleaseIdentityInput x (identityStage x targetStage) = true) :
    (releaseIdentity x targetStage).toList = written '=' '\n' (identityFields x targetStage) := by
  rw [releaseIdentity_eq hinput, identityFields, written_append, written_filter, sourceFields]
  simp only [String.toList_append, toList_releaseParametersIdentity, flatMap_cons, flatMap_nil, append_assoc,
    nil_append]

/-- What an identity stands for. -/
structure SameContent (x : ReleaseFlow) (a : PromotionStage) (y : ReleaseFlow) (b : PromotionStage) : Prop where
  sourceHash : x.app.status.sourceHash = y.app.status.sourceHash
  sourceRevision : x.app.status.sourceRevision = y.app.status.sourceRevision
  promotion : promotionUIDs x = promotionUIDs y
  stage : a.name = b.name
  parameters : ∀ e, e ∈ effectiveParameters x a ↔ e ∈ effectiveParameters y b

/-- There is something to hash, of the stage itself; no value has a line break, and no key of a parameter a `=`. -/
structure PlainIdentity (x : ReleaseFlow) (targetStage : PromotionStage) : Prop where
  input : hasReleaseIdentityInput x (identityStage x targetStage) = true
  own : identityStage x targetStage = targetStage
  values : ∀ e ∈ sourceFields x targetStage, '\n' ∉ e.2.toList
  parameters : PlainEntries (effectiveParameters x targetStage)

section
variable {x y : ReleaseFlow} {a b : PromotionStage}

theorem mem_sourceFields_key (he : e ∈ sourceFields x a) : e.1 ∈ sourceKeys := List.mem_map_of_mem (f := Prod.fst) he

theorem front_ne {k : String} (hk : k ∈ sourceKeys) (s : List Char) :
    k.toList ≠ "param:".toList ++ s ∧ '=' ∉ k.toList := by
  simp only [sourceKeys, mem_cons, not_mem_nil, or_false] at hk
  rcases hk with rfl | rfl | rfl | rfl | rfl <;> exact ⟨by simp, by decide⟩

theorem chars_mem_source (he : e.1 ∈ sourceKeys) :
    chars "" e ∈ identityFields x a ↔ e ∈ sourceFields x a ∧ e.2 ≠ "" := by
  rw [identityFields, mem_append]
  constructor
  · rintro (h | h)
    · obtain ⟨f, hf, heq⟩ := mem_map.mp h
      obtain rfl := chars_inj heq
      simpa using mem_filter.mp hf
    · obtain ⟨f, -, heq⟩ := mem_map.mp h
      exact absurd (Prod.mk.inj heq).1.symm (front_ne he f.1.toList).1
  · rintro ⟨h, hne⟩
    exact .inl (mem_map_of_mem (mem_filter.mpr ⟨h, by simpa using hne⟩))

theorem chars_mem_parameters : chars "param:" e ∈ identityFields x a ↔ e ∈ effectiveParameters x a := by
  rw [identityFields, mem_append]
  constructor
  · rintro (h | h)
    · obtain ⟨f, hf, heq⟩ := mem_map.mp h
      have hkey := mem_sourceFields_key (mem_filter.mp hf).1
      exact absurd (Prod.mk.inj heq).1 (front_ne hkey e.1.toList).1
    · obtain ⟨f, hf, heq⟩ := mem_map.mp h
      rw [← chars_inj heq]
      exact (mem_insertionSort _).mp hf
  · intro h
    exact .inr (mem_map_of_mem ((mem_insertionSort _).mpr h))

/-- A field has the same value on both sides, if only because it is not there. -/
theorem field_eq {k u v : String} (hk : k ∈ sourceKeys) (hu : ∀ w, (k, w) ∈ sourceFields x a ↔ w = u)
    (hv : ∀ w, (k, w) ∈ sourceFields y b ↔ w = v) (h : identityFields x a = identityFields y b) : u = v := by
  by_cases hempty : u = ""
  · by_contra hne
    have hmem : chars "" (k, v) ∈ identityFields y b :=
      (chars_mem_source hk).mpr ⟨(hv v).mpr rfl, fun hv => hne (hempty.trans hv.symm)⟩
    rw [← h] at hmem
    exact hne ((hu v).mp ((chars_mem_source hk).mp hmem).1).symm
  · have hmem : chars "" (k, u) ∈ identityFields x a := (chars_mem_source hk).mpr ⟨(hu u).mpr rfl, hempty⟩
    rw [h] at hmem
    exact (hv u).mp ((chars_mem_source hk).mp hmem).1

theorem PlainIdentity.fields (h : PlainIdentity x a) : ∀ e ∈ identityFields x a, Plain '=' '\n' e := by
  intro e he
  rcases mem_append.mp he with hsrc | hparameter
  · obtain ⟨f, hf, rfl⟩ := mem_map.mp hsrc
    have hmem := (mem_filter.mp hf).1
    exact ⟨(front_ne (mem_sourceFields_key hmem) []).2, h.values f hmem⟩
  · refine PlainEntries.chars ?_ (by decide) e hparameter
    intro f hf
    exact h.parameters f ((mem_insertionSort _).mp hf)

/-- **The identity of a release tells its content.** -/
theorem releaseIdentity_inj (hx : PlainIdentity x a) (hy : PlainIdentity y b)
    (h : releaseIdentity x a = releaseIdentity y b) : SameContent x a y b := by
  have hwrote := congrArg String.toList h
  rw [toList_releaseIdentity hx.input, toList_releaseIdentity hy.input] at hwrote
  have hfields := written_inj hx.fields hy.fields hwrote
  have hstage : (identityStage x a).name = (identityStage y b).name :=
    field_eq (k := "stage") (by decide) (by simp [sourceFields]) (by simp [sourceFields]) hfields
  rw [hx.own, hy.own] at hstage
  refine ⟨?_, ?_, Prod.ext ?_ ?_, hstage, ?_⟩
  · exact field_eq (k := "sourceHash") (by decide) (by simp [sourceFields]) (by simp [sourceFields]) hfields
  · exact field_eq (k := "sourceRevision") (by decide) (by simp [sourceFields]) (by simp [sourceFields]) hfields
  · exact field_eq (k := "promotionApplicationUID") (by decide) (by simp [sourceFields]) (by simp [sourceFields]) hfields
  · exact field_eq (k := "promotionReleaseUID") (by decide) (by simp [sourceFields]) (by simp [sourceFields]) hfields
  · intro e
    rw [← chars_mem_parameters, ← chars_mem_parameters, hfields]
end

/-! ### Names -/

def isNameChar (c : Char) : Bool := c.isLower || c.isDigit

/-- A DNS subdomain, of any length: labels of small letters, digits and dashes, with dots between them, and neither a dash nor
nothing at the ends of a label. -/
structure Subdomain (s : List Char) : Prop where
  chars : ∀ c ∈ s, isNameChar c = true ∨ c = '-' ∨ c = '.'
  labels : s.IsChain fun c d => (c = '.' → isNameChar d = true) ∧ (d = '.' → isNameChar c = true)
  first : ∃ c ∈ s.head?, isNameChar c = true
  last : ∃ c ∈ s.getLast?, isNameChar c = true

theorem isChain_of_nameChars {s : List Char} (h : ∀ c ∈ s, isNameChar c = true) :
    s.IsChain fun c d => (c = '.' → isNameChar d = true) ∧ (d = '.' → isNameChar c = true) := by
  refine List.Pairwise.isChain (pairwise_of_forall_mem_list ?_)
  intro c hc d hd
  exact ⟨fun _ => h d hd, fun _ => h c hc⟩

/-- **A name that is cut** and goes on with a dash and digits is valid unless it is cut behind a dot. -/
theorem subdomain_cut_iff {front r digits : List Char} (h : Subdomain (front ++ r)) (hfront : front ≠ [])
    (hdigits : ∀ c ∈ digits, isNameChar c = true) (hne : digits ≠ []) :
    Subdomain (front ++ '-' :: digits) ↔ front.getLast? ≠ some '.' := by
  obtain ⟨hchain, -, -⟩ := isChain_append.mp h.labels
  constructor
  · intro hname hdot
    have hpair := (isChain_append.mp hname.labels).2.2 '.' hdot '-' rfl
    exact absurd (hpair.1 rfl) (by decide)
  intro hdot
  refine ⟨?_, ?_, ?_, ?_⟩
  · intro c hc
    rcases mem_append.mp hc with hc | hc
    · exact h.chars c (mem_append_left _ hc)
    · rcases mem_cons.mp hc with rfl | hc
      · exact .inr (.inl rfl)
      · exact .inl (hdigits c hc)
  · refine isChain_append.mpr ⟨hchain, ?_, ?_⟩
    · obtain ⟨d, ds, rfl⟩ := exists_cons_of_ne_nil hne
      refine isChain_cons_cons.mpr ⟨⟨fun hc => absurd hc (by decide), ?_⟩, isChain_of_nameChars hdigits⟩
      rintro rfl
      exact absurd (hdigits '.' mem_cons_self) (by decide)
    intro c hc d hd
    obtain rfl : '-' = d := Option.some.inj hd
    refine ⟨?_, fun hd => absurd hd (by decide)⟩
    rintro rfl
    exact absurd hc hdot
  · obtain ⟨c, hc, hname⟩ := h.first
    refine ⟨c, ?_, hname⟩
    rw [List.head?_append_of_ne_nil _ hfront] at hc ⊢
    exact hc
  · refine ⟨digits.getLast hne, ?_, hdigits _ (getLast_mem hne)⟩
    rw [List.getLast?_append_of_ne_nil _ (cons_ne_nil _ _), List.getLast?_cons_of_ne_nil hne,
      List.getLast?_eq_some_getLast hne]
    rfl

theorem Subdomain.getLast?_ne {s : List Char} (h : Subdomain s) : s.getLast? ≠ some '.' := by
  obtain ⟨c, hc, hname⟩ := h.last
  rw [Option.mem_def.mp hc]
  rintro ⟨⟩
  exact absurd hname (by decide)

theorem Subdomain.append_word {s word : List Char} (h : Subdomain s) (hword : ∀ c ∈ word, isNameChar c = true) (hne : word ≠ []) :
    Subdomain (s ++ '-' :: word) := by
  refine (subdomain_cut_iff (r := []) (by rwa [append_nil]) ?_ hword hne).mpr h.getLast?_ne
  obtain ⟨c, hc, -⟩ := h.first
  rintro rfl
  cases hc

/-- Hexadecimal digits, so many of them. -/
structure Digits (n : Nat) (digest : String → String) : Prop where
  length : ∀ s, (digest s).toList.length = n
  digits : ∀ s, ∀ c ∈ (digest s).toList, isNameChar c = true

theorem toLower_eq {s : List Char} (h : ∀ c ∈ s, isNameChar c = true ∨ c = '-' ∨ c = '.') :
    (String.ofList s).toLower = String.ofList s := by
  have hsame : ∀ c ∈ s, c.toLower = c := by
    intro c hc
    rcases h c hc with hname | rfl | rfl
    · have hupper : ¬(c.val ≥ 'A'.val ∧ c.val ≤ 'Z'.val) := by
        change (_ && _ || _) = true at hname
        simp only [Bool.or_eq_true, Char.isDigit, Bool.and_eq_true, decide_eq_true_eq, ge_iff_le, UInt32.le_iff_toNat_le] at hname ⊢
        rintro ⟨hlow, hhigh⟩
        rcases hname with ⟨h, -⟩ | ⟨-, h⟩
        · exact absurd (Nat.le_trans h hhigh) (by decide)
        · exact absurd (Nat.le_trans hlow h) (by decide)
      exact dif_neg hupper
    · rfl
    · rfl
  refine String.toList_inj.mp (String.toList_map.trans ?_)
  rw [String.toList_ofList]
  exact (map_congr_left hsame).trans (map_id s)

section
variable {sha256Hex digest : String → String} {setName : String}

section
variable (hd : Digits 64 sha256Hex)
include hd

theorem applicationNameFromParams_eq (params : StringMap) : applicationNameFromParams sha256Hex setName params =
      (String.ofList (setName.toList.take 54 ++ '-' :: (paramHash sha256Hex params).toList.take 8)).toLower := by
  have hlen : ((paramHash sha256Hex params).toList.take 8).length = 8 := by
    rw [length_take, paramHash, hd.length]
    rfl
  simp only [applicationNameFromParams, length_append, length_cons, hlen]
  split_ifs with h
  · rfl
  · rw [take_of_length_le (l := setName.toList) (by omega)]

theorem length_applicationName (params : StringMap) :
    (applicationNameFromParams sha256Hex setName params).length ≤ 63 := by
  rw [applicationNameFromParams_eq hd]
  refine (String.length_map ..).trans_le ?_
  rw [String.length_ofList, length_append, length_cons, length_take, length_take]
  omega

theorem toList_applicationName (hset : Subdomain setName.toList) (params : StringMap) :
    (applicationNameFromParams sha256Hex setName params).toList =
      setName.toList.take 54 ++ '-' :: (paramHash sha256Hex params).toList.take 8 := by
  rw [applicationNameFromParams_eq hd, toLower_eq, String.toList_ofList]
  intro c hc
  rcases mem_append.mp hc with hc | hc
  · exact hset.chars c (mem_of_mem_take hc)
  · rcases mem_cons.mp hc with rfl | hc
    · exact .inr (.inl rfl)
    · exact .inl (hd.digits _ c (mem_of_mem_take hc))

theorem subdomain_applicationName_iff (hset : Subdomain setName.toList) (params : StringMap) :
    Subdomain (applicationNameFromParams sha256Hex setName params).toList ↔
      (setName.toList.take 54).getLast? ≠ some '.' := by
  rw [toList_applicationName hd hset]
  refine subdomain_cut_iff (r := setName.toList.drop 54) ?_ ?_ ?_ ?_
  · rwa [take_append_drop]
  · intro hnil
    obtain ⟨c, hc, -⟩ := hset.first
    rw [take_eq_nil_iff.mp hnil |>.resolve_left (by decide)] at hc
    cases hc
  · intro c hc
    exact hd.digits _ c (mem_of_mem_take hc)
  · intro hnil
    have hlen := congrArg List.length hnil
    rw [length_take, paramHash, hd.length] at hlen
    cases hlen
end

def nameFront (base : String) : String := if 52 < base.length then cutName 52 base else base

theorem addNameSuffix_eq {base suffix : String} (h : suffix.toList.length = 10) :
    addNameSuffix base suffix = nameFront base ++ "-" ++ suffix := by
  have hlen : suffix.length = 10 := by rw [← String.length_toList, h]
  have hne : suffix ≠ "" := by
    rintro rfl
    cases hlen
  rw [addNameSuffix, if_neg hne, hlen, if_neg (by decide), nameFront]
  show (if 52 < base.length then cutName 52 base ++ "-" ++ suffix else base ++ "-" ++ suffix) = _
  split_ifs
  · rfl
  · rfl

theorem applicationReleaseName_eq (hd : Digits 10 digest) {x : ReleaseFlow} {a : PromotionStage} (hne : releaseIdentity x a ≠ "") :
    applicationReleaseName digest x a =
      nameFront (stableApplicationReleaseName x.settings.name) ++ "-" ++ digest (releaseIdentity x a) := by
  simp only [applicationReleaseName, if_neg hne]
  exact addNameSuffix_eq (hd.length _)

theorem cutName_append (length : Nat) (name : String) : ∃ rest, (cutName length name).toList ++ rest = name.toList := by
  rw [cutName, String.toList_ofList]
  exact ( rdropWhile_prefix _ _).trans ( take_prefix _ _)

theorem nameFront_append (base : String) : ∃ rest, (nameFront base).toList ++ rest = base.toList := by
  rw [nameFront]
  split_ifs
  · exact cutName_append 52 base
  · exact ⟨[], append_nil _⟩

theorem length_cutName (n : Nat) (s : String) : (cutName n s).toList.length ≤ n := by
  rw [cutName, String.toList_ofList]
  exact ( rdropWhile_prefix _ _).length_le.trans (length_take_le _ _)

theorem length_nameFront (base : String) : (nameFront base).toList.length ≤ 52 := by
  rw [nameFront]
  split_ifs with h
  · exact length_cutName 52 base
  · rw [String.length_toList]
    exact Nat.not_lt.mp h

/-- A name that does not begin with a dash is not cut to nothing. -/
theorem head?_cutName {length : Nat} {name : String} {c : Char} (hc : name.toList.head? = some c) (hname : isNameChar c = true) :
    (cutName (length + 1) name).toList.head? = some c := by
  obtain ⟨cs, hcs⟩ := List.head?_eq_some_iff.mp hc
  have hdash : (c == '-') = false := by
    rw [beq_eq_false_iff_ne]
    rintro rfl
    exact absurd hname (by decide)
  rw [cutName, String.toList_ofList, hcs, take_succ_cons]
  obtain ⟨rest, hrest⟩ := rdropWhile_prefix (fun d => d == '-') (c :: cs.take length)
  cases hdrop : (c :: cs.take length).rdropWhile (fun d => d == '-') with
  | nil =>
    have hall := rdropWhile_eq_nil_iff.mp hdrop c mem_cons_self
    rw [hdash] at hall
    cases hall
  | cons d ds =>
    rw [hdrop] at hrest
    rw [List.head?_cons, (List.cons.inj hrest).1]

theorem subdomain_releaseName_iff (hd : Digits 10 digest) {x : ReleaseFlow} {a : PromotionStage}
    (happ : Subdomain x.settings.name.toList) (hne : releaseIdentity x a ≠ "") :
    Subdomain (applicationReleaseName digest x a).toList ↔
      (nameFront (stableApplicationReleaseName x.settings.name)).toList.getLast? ≠ some '.' := by
  have hfull : Subdomain (x.settings.name ++ "-release").toList := by
    rw [String.toList_append]
    exact happ.append_word (forall_iff_forall_mem.mp (by decide)) (by decide)
  obtain ⟨rest, hrest⟩ := cutName_append 63 (x.settings.name ++ "-release")
  obtain ⟨rest', hrest'⟩ := nameFront_append (stableApplicationReleaseName x.settings.name)
  obtain ⟨c, hc, hname⟩ := hfull.first
  have hstable : (stableApplicationReleaseName x.settings.name).toList.head? = some c := head?_cutName hc hname
  have hfront : (nameFront (stableApplicationReleaseName x.settings.name)).toList.head? = some c := by
    rw [nameFront]
    split_ifs
    · exact head?_cutName hstable hname
    · exact hstable
  rw [applicationReleaseName_eq hd hne, String.toList_append, String.toList_append, append_assoc]
  show Subdomain (_ ++ '-' :: (digest (releaseIdentity x a)).toList) ↔ _
  refine subdomain_cut_iff (r := rest' ++ rest) ?_ ?_ (hd.digits _) ?_
  · rw [← append_assoc, hrest', stableApplicationReleaseName, truncateKubernetesName, maxKubernetesNameLength, hrest]
    exact hfull
  · intro hnil
    rw [hnil] at hfront
    cases hfront
  · intro hnil
    have hlen := hd.length (releaseIdentity x a)
    rw [hnil] at hlen
    cases hlen

theorem length_releaseName (hd : Digits 10 digest) {x : ReleaseFlow} {a : PromotionStage} (hne : releaseIdentity x a ≠ "") :
    (applicationReleaseName digest x a).length ≤ 63 := by
  have hfront := length_nameFront (stableApplicationReleaseName x.settings.name)
  rw [applicationReleaseName_eq hd hne, ← String.length_toList, String.toList_append, String.toList_append, length_append,
    length_append, hd.length]
  show _ + 1 + 10 ≤ 63
  omega
end

/-! ### Shared names -/

section
variable {sha256Hex digest : String → String} {x y : ReleaseFlow} {a b : PromotionStage}

theorem releaseIdentity_ne (h : hasReleaseIdentityInput x (identityStage x a) = true) : releaseIdentity x a ≠ "" := by
  intro hempty
  have hwrote := toList_releaseIdentity h
  rw [hempty] at hwrote
  have hparams : effectiveParameters x a ≠ [] := by
    rw [effectiveParameters, releaseParameters]
    split_ifs with hname
    · intro hnil
      rw [hnil] at hname
      cases hname
    · exact cons_ne_nil _ _
  obtain ⟨e, he⟩ := exists_mem_of_ne_nil _ hparams
  cases hfields : identityFields x a with
  | nil =>
    have hmem := chars_mem_parameters.mpr he
    rw [hfields] at hmem
    cases hmem
  | cons f fs =>
    rw [hfields] at hwrote
    exact written_ne_nil f fs hwrote.symm

/-- **Releases of one name have one content**, where the digits in the name tell the two identities apart. -/
theorem sameContent_of_releaseName (hd : Digits 10 digest) (hx : PlainIdentity x a) (hy : PlainIdentity y b)
    (hname : x.settings.name = y.settings.name)
    (htell : digest (releaseIdentity x a) = digest (releaseIdentity y b) → releaseIdentity x a = releaseIdentity y b)
    (h : applicationReleaseName digest x a = applicationReleaseName digest y b) : SameContent x a y b := by
  rw [applicationReleaseName_eq hd (releaseIdentity_ne hx.input), applicationReleaseName_eq hd (releaseIdentity_ne hy.input),
    hname] at h
  have hdigits := congrArg String.toList h
  simp only [String.toList_append] at hdigits
  exact releaseIdentity_inj hx hy (htell (String.toList_inj.mp (append_cancel_left hdigits)))

/-- **Parameters of one Application are one map**, where the digits in the name tell the two texts apart. -/
theorem eq_of_applicationName (hd : Digits 64 sha256Hex) {setName : String} (hset : Subdomain setName.toList)
    (hp : PlainEntries p.entries) (hq : PlainEntries q.entries)
    (htell : (paramHash sha256Hex p).toList.take 8 = (paramHash sha256Hex q).toList.take 8 → paramText p = paramText q)
    (h : applicationNameFromParams sha256Hex setName p = applicationNameFromParams sha256Hex setName q) : p = q := by
  have hdigits := congrArg String.toList h
  rw [toList_applicationName hd hset, toList_applicationName hd hset] at hdigits
  exact paramText_inj hp hq (htell (List.cons.inj (append_cancel_left hdigits)).2)

theorem releaseIdentity_runs_together (hhash : x.app.status.sourceHash ≠ "") (hrev : x.app.status.sourceRevision ≠ "") :
    ∃ y, releaseIdentity y a = releaseIdentity x a ∧ ¬SameContent y a x a := by
  let y := x.setSource (x.app.status.sourceHash ++ "\nsourceRevision=" ++ x.app.status.sourceRevision) ""
  have hlong : y.app.status.sourceHash ≠ "" := by
    intro hempty
    have hnil := congrArg String.toList hempty
    simp [y, ReleaseFlow.setSource] at hnil
  have hinput : ∀ z : ReleaseFlow, z.app.status.sourceHash ≠ "" → hasReleaseIdentityInput z (identityStage z a) = true := by
    intro z hz
    simp [hasReleaseIdentityInput, hz]
  refine ⟨y, ?_, fun h => hrev h.sourceRevision.symm⟩
  rw [releaseIdentity_eq (hinput y hlong), releaseIdentity_eq (hinput x hhash)]
  have hfields : identityField "sourceHash" y.app.status.sourceHash ++ identityField "sourceRevision" y.app.status.sourceRevision =
      identityField "sourceHash" x.app.status.sourceHash ++ identityField "sourceRevision" x.app.status.sourceRevision := by
    rw [identityField, if_neg hlong, identityField, identityField, if_neg hhash, identityField, if_neg hrev]
    refine String.toList_inj.mp ?_
    simp [y, ReleaseFlow.setSource]
  rw [hfields]
  rfl
end

/-! ### The identities -/

/-- **Identities of releases and of generated Applications.**  Parameters have a text of their own exactly if they are
`Single`; names are valid unless they are cut behind a dot. -/
theorem identities_sound_iff (p : StringMap) : ((∀ q, paramText q = paramText p → q = p) ↔ Single p) ∧
    (∀ q : StringMap, PlainEntries p.entries → PlainEntries q.entries → paramText p = paramText q → p = q) ∧
    (∀ (x y : ReleaseFlow) (a b : PromotionStage), PlainIdentity x a → PlainIdentity y b →
      releaseIdentity x a = releaseIdentity y b → SameContent x a y b) ∧
    (∀ (x : ReleaseFlow) (a : PromotionStage), x.app.status.sourceHash ≠ "" → x.app.status.sourceRevision ≠ "" →
      ∃ y, releaseIdentity y a = releaseIdentity x a ∧ ¬SameContent y a x a) ∧
    (∀ (sha256Hex : String → String) (setName : String), Digits 64 sha256Hex → Subdomain setName.toList →
      (∀ p, (applicationNameFromParams sha256Hex setName p).length ≤ 63 ∧
        (Subdomain (applicationNameFromParams sha256Hex setName p).toList ↔ (setName.toList.take 54).getLast? ≠ some '.')) ∧
      ∀ p q, PlainEntries p.entries → PlainEntries q.entries →
        ((paramHash sha256Hex p).toList.take 8 = (paramHash sha256Hex q).toList.take 8 → paramText p = paramText q) →
        applicationNameFromParams sha256Hex setName p = applicationNameFromParams sha256Hex setName q → p = q) ∧
    ∀ digest : String → String, Digits 10 digest →
      (∀ (x : ReleaseFlow) (a : PromotionStage), Subdomain x.settings.name.toList → releaseIdentity x a ≠ "" →
        (applicationReleaseName digest x a).length ≤ 63 ∧ (Subdomain (applicationReleaseName digest x a).toList ↔
            (nameFront (stableApplicationReleaseName x.settings.name)).toList.getLast? ≠ some '.')) ∧
      ∀ (x y : ReleaseFlow) (a b : PromotionStage), PlainIdentity x a → PlainIdentity y b → x.settings.name = y.settings.name →
        (digest (releaseIdentity x a) = digest (releaseIdentity y b) → releaseIdentity x a = releaseIdentity y b) →
        applicationReleaseName digest x a = applicationReleaseName digest y b → SameContent x a y b := by
  refine ⟨paramText_determines_iff p, fun q hp hq h => paramText_inj hp hq h, fun x y a b hx hy h => releaseIdentity_inj hx hy h,
    fun x a hhash hrevision => releaseIdentity_runs_together hhash hrevision, ?_, ?_⟩
  · intro sha256Hex setName hd hset
    refine ⟨fun p => ⟨length_applicationName hd p, subdomain_applicationName_iff hd hset p⟩, ?_⟩
    intro p q hp hq htell h
    exact eq_of_applicationName hd hset hp hq htell h
  · intro digest hd
    refine ⟨fun x a happ hne => ⟨length_releaseName hd hne, subdomain_releaseName_iff hd happ hne⟩, ?_⟩
    intro x y a b hx hy hname htell h
    exact sameContent_of_releaseName hd hx hy hname htell h

def joinedValue : StringMap := { entries := [("a", "1\nb=2")], sorted := List.pairwise_singleton _ _ }

theorem two_sorted : [("a", "1"), ("b", "2")].Pairwise (fun a b => a.1 < b.1) := by decide

def twoValues : StringMap := { entries := [("a", "1"), ("b", "2")], sorted := two_sorted }

/-- One value with a line break, or two. -/
theorem values_run_together : paramText joinedValue = paramText twoValues ∧ joinedValue ≠ twoValues := by
  refine ⟨rfl, ?_⟩
  decide

end Paprika.Applications
