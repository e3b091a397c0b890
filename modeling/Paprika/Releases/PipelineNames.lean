import Paprika.Applications.Identities
import Paprika.Releases.Retention

/-!
# Names of verification pipelines

`promotionPipelineName`: the name of the Application and twelve digits of a hash of what is verified.  Retention recognises a
pipeline by the part in front of the digits, which it recovers from a name with other digits.

* `promotionIdentity_inj` — what is hashed tells the candidate and the attempt;
* **`pipeline_names_agree_iff`** — when names and prefixes agree.
-/

namespace Paprika.Releases

open Applications List

variable {s suffix : String} {n : Nat}

/-! ### Names that are cut -/

theorem rdropWhile_append_of_all {α : Type} {p : α → Bool} {a b : List α} (h : ∀ c ∈ b, p c = true) :
    (a ++ b).rdropWhile p = a.rdropWhile p := by
  rw [rdropWhile, reverse_append, dropWhile_append_of_pos fun c hc => h c (mem_reverse.mp hc)]
  rfl

theorem cutName_truncate (hn : n ≤ 63) (s : String) : cutName n (truncateKubernetesName s) = cutName n s := by
  have hcut : s.toList.take n = ((s.toList.take 63).rdropWhile (fun c => c == '-') ++
      (s.toList.take 63).rtakeWhile fun c => c == '-').take n := by
    rw [rdropWhile_append_rtakeWhile, take_take, Nat.min_eq_left hn]
  rw [cutName, cutName, hcut, take_append, rdropWhile_append_of_all]
  · rw [truncateKubernetesName, cutName, String.toList_ofList]
    rfl
  · intro c hc
    have hdash := mem_rtakeWhile_imp (mem_of_mem_take hc)
    exact hdash

/-- A name with a suffix is the name without what is too much, a dash and the suffix. -/
theorem addNameSuffix_truncate (h : suffix.length = 12) :
    addNameSuffix (truncateKubernetesName s) suffix = cutName 50 s ++ "-" ++ suffix := by
  have hne : suffix ≠ "" := by
    rintro rfl
    cases h
  rw [addNameSuffix, if_neg hne, h, if_neg (by decide)]
  show (if 50 < (truncateKubernetesName s).length then cutName 50 (truncateKubernetesName s) ++ "-" ++ suffix else _) = _
  split_ifs with hlong
  · rw [cutName_truncate (by decide)]
  have hlist : (truncateKubernetesName s).toList = (s.toList.take 63).rdropWhile (fun c => c == '-') := String.toList_ofList ..
  have hself : cutName 50 (truncateKubernetesName s) = truncateKubernetesName s := by
    rw [← String.length_toList] at hlong
    rw [cutName, take_of_length_le (Nat.not_lt.mp hlong), hlist, rdropWhile_idempotent]
    rfl
  rw [← cutName_truncate (by decide), hself]

/-- What is kept of a subdomain ends in a dot where nothing else than the dot is cut. -/
theorem getLast?_cutName (h : Subdomain s.toList) (n : Nat) :
    (cutName (n + 1) s).toList.getLast? = some '.' ↔ s.toList[n]? = some '.' := by
  have hlast : (s.toList.take (n + 1)).getLast? = some '.' ↔ s.toList[n]? = some '.' := by
    rw [getLast?_take, if_neg (Nat.succ_ne_zero n), Nat.add_sub_cancel]
    cases s.toList[n]? with
    | none => exact iff_of_false h.getLast?_ne nofun
    | some c => rfl
  rw [← hlast, cutName, String.toList_ofList]
  have hsplit := rdropWhile_append_rtakeWhile (p := fun c => c == '-') (l := s.toList.take (n + 1))
  generalize (s.toList.take (n + 1)).rdropWhile (fun c => c == '-') = front at hsplit ⊢
  cases hdashes : (s.toList.take (n + 1)).rtakeWhile (fun c => c == '-') with
  | nil => rw [← hsplit, hdashes, append_nil]
  | cons d dashes =>
  have hall : ∀ c ∈ d :: dashes, c = '-' := by
    intro c hc
    rw [← hdashes] at hc
    have hdash := mem_rtakeWhile_imp hc
    exact beq_iff_eq.mp hdash
  have hchain := h.labels.take (n + 1)
  rw [hdashes] at hsplit
  rw [← hsplit, isChain_append] at hchain
  rw [← hsplit, getLast?_append_of_ne_nil _ (cons_ne_nil _ _)]
  refine iff_of_false (fun hdot => ?_) fun hdot => absurd (hall _ (mem_of_getLast? hdot)) (by decide)
  have hname := (hchain.2.2 '.' hdot d rfl).1 rfl
  rw [hall d mem_cons_self] at hname
  exact absurd hname (by decide)

/-! ### The hash -/

/-- What a verification pipeline is created for.  No UID, JSON text or hash has a zero byte. -/
structure Verification where
  sourceApplicationUID : String
  sourceReleaseUID : String
  tests : String
  attempt : String
  configHash : String
  plain : ∀ field ∈ [sourceApplicationUID, sourceReleaseUID, tests, configHash], '\x00' ∉ field.toList

/-- One candidate and one attempt; without an attempt the hash of the configuration is not used. -/
structure SameVerification (v u : Verification) : Prop where
  sourceApplicationUID : v.sourceApplicationUID = u.sourceApplicationUID
  sourceReleaseUID : v.sourceReleaseUID = u.sourceReleaseUID
  tests : v.tests = u.tests
  attempt : v.attempt = u.attempt
  configHash : v.attempt ≠ "" → v.configHash = u.configHash

/-- The text that `promotionPipelineName` hashes. -/
def promotionIdentity (app : PruningApp) (v : Verification) : String :=
  app.uid ++ "\x00" ++ v.sourceApplicationUID ++ "\x00" ++ v.sourceReleaseUID ++ "\x00" ++ v.tests ++
    if v.attempt = "" then "" else "\x00" ++ v.attempt ++ "\x00" ++ v.configHash

variable {app : PruningApp} {v u : Verification}

theorem promotionIdentity_inj (h : promotionIdentity app v = promotionIdentity app u) : SameVerification v u := by
  have hv := v.plain
  have hu := u.plain
  simp only [forall_mem_cons] at hv hu
  have hatt : ∀ w : Verification, (if w.attempt = "" then "" else "\x00" ++ w.attempt ++ "\x00" ++ w.configHash).toList =
      if w.attempt = "" then [] else '\x00' :: (w.attempt.toList ++ '\x00' :: w.configHash.toList) := by
    intro w
    split_ifs
    · rfl
    · simp
  have hzero : "\x00".toList = ['\x00'] := rfl
  have hlist := congrArg String.toList h
  simp only [promotionIdentity, String.toList_append, append_assoc, hzero, cons_append, nil_append, hatt] at hlist
  obtain ⟨hsrc, hlist⟩ := Lib.Text.append_cons_inj hv.1 hu.1 (List.cons.inj (append_cancel_left hlist)).2
  obtain ⟨hrel, hlist⟩ := Lib.Text.append_cons_inj hv.2.1 hu.2.1 hlist
  rw [String.toList_inj] at hsrc hrel
  by_cases hnone : v.attempt = ""
  · by_cases hnone' : u.attempt = ""
    · rw [if_pos hnone, if_pos hnone', append_nil, append_nil, String.toList_inj] at hlist
      exact ⟨hsrc, hrel, hlist, hnone.trans hnone'.symm, fun h => absurd hnone h⟩
    · rw [if_pos hnone, if_neg hnone', append_nil] at hlist
      exact absurd (hlist ▸ mem_append_right _ mem_cons_self) hv.2.2.1
  by_cases hnone' : u.attempt = ""
  · rw [if_neg hnone, if_pos hnone', append_nil] at hlist
    exact absurd (hlist ▸ mem_append_right _ mem_cons_self) hu.2.2.1
  rw [if_neg hnone, if_neg hnone'] at hlist
  obtain ⟨htests, hlist⟩ := Lib.Text.append_cons_inj hv.2.2.1 hu.2.2.1 hlist
  -- An attempt may have zero bytes, the hash behind the last one has none.
  have hback := congrArg reverse hlist
  simp only [reverse_append, reverse_cons, append_assoc, singleton_append] at hback
  obtain ⟨hconfig, hsame⟩ := Lib.Text.append_cons_inj (by simpa using hv.2.2.2.1) (by simpa using hu.2.2.2.1) hback
  rw [reverse_inj, String.toList_inj] at hconfig hsame
  exact ⟨hsrc, hrel, String.toList_inj.mp htests, hsame, fun _ => hconfig⟩

/-! ### Names and prefixes -/

def promotionPipelineName (sha256Hex : String → String) (app : PruningApp) (v : Verification) : String :=
  addNameSuffix (truncateKubernetesName (app.name ++ "-promotion-tests"))
    (String.ofList ((sha256Hex (promotionIdentity app v)).toList.take 12))

def pipelineFront (app : PruningApp) : List Char := (cutName 50 (app.name ++ "-promotion-tests")).toList

theorem promotionPipelineFront_eq (app : PruningApp) : promotionPipelineFront app = pipelineFront app ++ ['-'] := by
  have hname : (cutName 50 (app.name ++ "-promotion-tests") ++ "-" ++ String.ofList (replicate 12 '0')).toList =
      pipelineFront app ++ ['-'] ++ replicate 12 '0' := by
    simp [pipelineFront]
  have hsuffix : (replicate 12 '0').isSuffixOf (pipelineFront app ++ ['-'] ++ replicate 12 '0') = true :=
    isSuffixOf_iff_suffix.mpr ⟨_, rfl⟩
  rw [promotionPipelineFront, addNameSuffix_truncate rfl]
  rw [hname, if_pos hsuffix, length_append, length_replicate, Nat.add_sub_cancel, take_left]

variable {sha256Hex : String → String}

section
variable (hd : Digits 64 sha256Hex)
include hd

theorem toList_pipelineName (app : PruningApp) (v : Verification) : (promotionPipelineName sha256Hex app v).toList =
    pipelineFront app ++ '-' :: (sha256Hex (promotionIdentity app v)).toList.take 12 := by
  have hlen : (String.ofList ((sha256Hex (promotionIdentity app v)).toList.take 12)).length = 12 := by
    rw [String.length_ofList, length_take, hd.length]
    rfl
  rw [promotionPipelineName, addNameSuffix_truncate hlen]
  simp [pipelineFront]

theorem subdomain_pipelineName_iff (happ : Subdomain app.name.toList) (v : Verification) :
    Subdomain (promotionPipelineName sha256Hex app v).toList ↔ app.name.toList[49]? ≠ some '.' := by
  have hfull : Subdomain (app.name ++ "-promotion-tests").toList := by
    have hpromo : Subdomain (app.name.toList ++ '-' :: "promotion".toList) :=
      happ.append_word (forall_iff_forall_mem.mp (by decide)) (by decide)
    have hword : Subdomain (app.name.toList ++ '-' :: "promotion".toList ++ '-' :: "tests".toList) :=
      hpromo.append_word (forall_iff_forall_mem.mp (by decide)) (by decide)
    simpa using hword
  have hdot : (app.name ++ "-promotion-tests").toList[49]? = some '.' ↔ app.name.toList[49]? = some '.' := by
    rw [String.toList_append, getElem?_append]
    split_ifs with hlong
    · rfl
    · rw [getElem?_eq_none (Nat.not_lt.mp hlong)]
      exact iff_of_false (fun h => absurd (mem_of_getElem? h) (by decide)) nofun
  obtain ⟨rest, hrest⟩ := cutName_append 50 (app.name ++ "-promotion-tests")
  rw [toList_pipelineName hd, Ne, ← hdot, ← getLast?_cutName hfull]
  refine subdomain_cut_iff (r := rest) (by rwa [pipelineFront, hrest]) ?_ ?_ ?_
  · obtain ⟨c, hc, hname⟩ := hfull.first
    have hhead : (cutName 50 (app.name ++ "-promotion-tests")).toList.head? = some c := head?_cutName hc hname
    intro hnil
    rw [pipelineFront] at hnil
    rw [hnil] at hhead
    cases hhead
  · exact fun c hc => hd.digits _ c (mem_of_mem_take hc)
  · intro hnil
    have hlen := congrArg List.length hnil
    rw [length_take, hd.length] at hlen
    cases hlen

theorem length_pipelineName (app : PruningApp) (v : Verification) : (promotionPipelineName sha256Hex app v).length ≤ 63 := by
  have hfront : (pipelineFront app).length ≤ 50 := length_cutName _ _
  rw [← String.length_toList, toList_pipelineName hd, length_append, length_cons, length_take]
  omega
end

/-- What names and prefixes of the verification pipelines of an Application should be. -/
structure NamesAgree (sha256Hex : String → String) (app : PruningApp) : Prop where
  front : ∀ v, promotionPipelineFront app <+: (promotionPipelineName sha256Hex app v).toList
  valid : ∀ v, (promotionPipelineName sha256Hex app v).length ≤ 63 ∧ Subdomain (promotionPipelineName sha256Hex app v).toList
  distinct : ∀ v u, ((sha256Hex (promotionIdentity app v)).toList.take 12 = (sha256Hex (promotionIdentity app u)).toList.take 12 →
    promotionIdentity app v = promotionIdentity app u) →
    promotionPipelineName sha256Hex app v = promotionPipelineName sha256Hex app u → SameVerification v u
  recognised : ∀ p v, p.name = promotionPipelineName sha256Hex app v → p.controller = some app.uid → p.annotated = true →
    isPromotionPipeline app p = true
  others : ∀ p, ¬promotionPipelineFront app <+: p.name.toList → isPromotionPipeline app p = false

/-- **Names and prefixes of verification pipelines.**  They agree exactly if the name of the Application has no dot where the
last character is that is kept. -/
theorem pipeline_names_agree_iff (hd : Digits 64 sha256Hex) (happ : Subdomain app.name.toList) :
    NamesAgree sha256Hex app ↔ app.name.toList[49]? ≠ some '.' := by
  have hfront : ∀ v, promotionPipelineFront app <+: (promotionPipelineName sha256Hex app v).toList := by
    intro v
    rw [toList_pipelineName hd, promotionPipelineFront_eq]
    exact ⟨_, (append_cons ..).symm⟩
  constructor
  · intro h
    obtain ⟨v⟩ : Nonempty Verification := ⟨⟨"", "", "", "", "", by decide⟩⟩
    exact (subdomain_pipelineName_iff hd happ v).mp (h.valid v).2
  intro hdot
  refine ⟨hfront, fun v => ⟨length_pipelineName hd app v, (subdomain_pipelineName_iff hd happ v).mpr hdot⟩, ?_, ?_, ?_⟩
  · intro v u htell hname
    have hdigits := congrArg String.toList hname
    rw [toList_pipelineName hd, toList_pipelineName hd] at hdigits
    exact promotionIdentity_inj (htell (List.cons.inj (append_cancel_left hdigits)).2)
  · intro p v hname hcontroller hannotated
    simpa [isPromotionPipeline, hcontroller, hannotated, hname] using hfront v
  · intro p hp
    have hno : (promotionPipelineFront app).isPrefixOf p.name.toList = false := by
      rw [Bool.eq_false_iff, Ne, isPrefixOf_iff_prefix]
      exact hp
    rw [isPromotionPipeline, hno, Bool.and_false, Bool.false_and]

/-- A hash whose digits are all zero. -/
def zeros (_ : String) : String := "0000000000000000000000000000000000000000000000000000000000000000"

theorem zeros_digits : Digits 64 zeros := by
  have hlen : (zeros "").toList.length = 64 := by decide
  have hdigits : ∀ c ∈ (zeros "").toList, isNameChar c = true := forall_iff_forall_mem.mp (by decide)
  exact ⟨fun _ => hlen, fun _ => hdigits⟩

def namedApp (name : String) : PruningApp := ⟨"", name, "", "", "", none⟩

theorem pipeline_names_agree_shop : NamesAgree zeros (namedApp "shop") ↔ "shop".toList[49]? ≠ some '.' :=
  pipeline_names_agree_iff zeros_digits ⟨forall_iff_forall_mem.mp (by decide), by decide, ⟨'s', rfl, rfl⟩, ⟨'p', rfl, rfl⟩⟩

theorem name_cut_behind_dot : Subdomain (String.ofList (replicate 49 'a' ++ ['.', 'b'])).toList ∧
    ¬NamesAgree zeros (namedApp (String.ofList (replicate 49 'a' ++ ['.', 'b']))) := by
  refine ⟨⟨forall_iff_forall_mem.mp (by decide), by decide, ⟨'a', rfl, rfl⟩, ⟨'b', rfl, rfl⟩⟩, fun h => ?_⟩
  have hlabels := (h.valid ⟨"", "", "", "", "", by decide⟩).2.labels
  exact absurd hlabels (by decide)

end Paprika.Releases
