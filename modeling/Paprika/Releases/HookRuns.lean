import Paprika.Releases.Manifests
import Paprika.Lib.Run

/-!
# Runs of hooks

`executeHookPhases` of `release_controller.go`: the PreSync hooks, the documents of the Sync phase and the PostSync
hooks of one attempt of a release, over any number of reconciles.  Progress is kept in the status of the release; a
hook object says in an annotation which attempt applied it, and an object that the current attempt applied is adopted
instead of replaced.

`hook_runs_justified`: everything that happens in a run of reconciles and resyncs is justified by what happened before.
A hook that shares its object and its status with no other hook succeeds in an attempt only after it was applied in
this attempt and, unless it is fire-and-forget, then found complete; the documents follow the PreSync hooks, the PostSync
hooks follow the documents, and a hook whose success is stored is not applied again in its attempt.
-/

namespace Paprika.Releases

open Engine Lib.Run Lib.Text List Option

/-! ### Hooks -/

/-- A document in one of its phases. -/
structure Hook where
  document : Document
  phase : Phase
  deletePolicy : String
  deriving DecidableEq

/-- What a release renders and how its hooks are run; `hookTimeoutSeconds` is that of the sync options, if there are
any, and `order` is that of the waves. -/
structure HookPlan where
  name : String
  namespace_ : String
  uid : String
  documents : List Document
  hookTimeoutSeconds : Option Int
  resolver : Option GVRResolver
  order : List Document → List Document
  mem_order : ∀ {docs d}, d ∈ order docs ↔ d ∈ docs

def Hook.ofResource (phase : Phase) (r : Resource Document) : Hook :=
  { document := r.raw, phase := phase, deletePolicy := r.deletePolicy }

section
variable (plan : HookPlan)

def HookPlan.bucket : Bucket Document := classifyPaired (plan.documents.map Document.paired)

def HookPlan.preSync : List Hook := plan.bucket.preSync.map (Hook.ofResource .preSync)

def HookPlan.postSync : List Hook := plan.bucket.postSync.map (Hook.ofResource .postSync)

def HookPlan.syncFail : List Hook := plan.bucket.syncFail.map (Hook.ofResource .syncFail)

def HookPlan.hooks : List Hook := plan.preSync ++ plan.postSync ++ plan.syncFail

def HookPlan.sync : List Document := plan.order (syncDocs plan.documents)

def nanoseconds (seconds : Int) : Int := seconds * 1000000000

def defaultHookTimeout : Int := nanoseconds 300

def HookPlan.hookTimeout : Int :=
  match plan.hookTimeoutSeconds with
  | some seconds => if 0 < seconds then nanoseconds seconds else if seconds = 0 then 0 else defaultHookTimeout
  | none => defaultHookTimeout

/-- How long a deletion may take. -/
def HookPlan.deletionTimeout : Int := if plan.hookTimeout ≤ 0 then defaultHookTimeout else plan.hookTimeout

/-- The namespace of a hook object, which `normalizeManifestNamespaces` sets for every kind. -/
def Hook.namespace_ (h : Hook) : String :=
  if h.document.metadataNamespace = "" then plan.namespace_ else h.document.metadataNamespace

def Hook.object (h : Hook) : Option ResourceKey :=
  (gvrOf plan.resolver h.document.apiVersion h.document.kind).map (fun gvr => gvr.key (h.namespace_ plan) h.document.name)

/-- What `findHookStatus` compares. -/
structure HookKey where
  kind : String
  name : String
  namespace_ : String
  phase : Phase
  deriving DecidableEq

def Hook.key (h : Hook) : HookKey :=
  { kind := h.document.kind, name := h.document.name, namespace_ := h.namespace_ plan, phase := h.phase }

/-- `GroupVersionKind.String`. -/
def Document.gvkString (d : Document) : String :=
  (parseAPIVersion d.apiVersion).1 ++ "/" ++ (parseAPIVersion d.apiVersion).2 ++ ", Kind=" ++ d.kind

/-- `CompletionFor` finds a checker. -/
def Hook.hasChecker (h : Hook) : Bool := ["batch/v1, Kind=Job", "v1, Kind=Pod"].contains h.document.gvkString

/-- A hook that counts as succeeded once it is applied. -/
def Hook.fireAndForget (h : Hook) : Bool := plan.hookTimeout == 0 || !h.hasChecker
end

def beforeHookCreation (value : String) : Bool :=
  if trimSpace value.toList = [] then true
  else (value.toList.splitOn ',').any (fun policy => trimSpace policy = "BeforeHookCreation".toList)

/-! ### Status -/

inductive HookProgress
  | running | succeeded | failed | terminated
  deriving DecidableEq, Repr

structure HookStatus where
  key : HookKey
  status : HookProgress
  startedAt : Int
  message : String
  deriving DecidableEq

def findHookStatus (key : HookKey) (statuses : List HookStatus) : Option HookStatus :=
  statuses.find? (fun hs => hs.key = key)

/-- Where a hook stands; `none` without an entry. -/
def progress (key : HookKey) (statuses : List HookStatus) : Option HookProgress :=
  (findHookStatus key statuses).map (·.status)

def setHookStatus (key : HookKey) (status : HookProgress) (message : String) (now : Int) : List HookStatus → List HookStatus
  | [] => [{ key := key, status := status, startedAt := now, message := message }]
  | hs :: rest =>
    if hs.key = key then { hs with status := status, message := message } :: rest
    else hs :: setHookStatus key status message now rest

theorem progress_setHookStatus (key k : HookKey) (status : HookProgress) (message : String) (now : Int)
    (statuses : List HookStatus) :
    progress k (setHookStatus key status message now statuses) =
      if k = key then some status else progress k statuses := by
  simp only [progress, findHookStatus]
  induction statuses with
  | nil =>
    by_cases hk : k = key
    · subst hk
      simp [setHookStatus]
    · have hne : key ≠ k := fun h => hk h.symm
      simp [setHookStatus, hk, hne]
  | cons hs rest ih =>
    rw [setHookStatus]
    split
    · rename_i hkey
      subst hkey
      by_cases hk : k = hs.key
      · subst hk
        simp
      · have hne : hs.key ≠ k := fun h => hk h.symm
        simp [hk, hne]
    · rename_i hkey
      by_cases hk : hs.key = k
      · subst hk
        simp [hkey]
      · rw [List.find?_cons_of_neg (by simpa using hk), List.find?_cons_of_neg (by simpa using hk), ih]

/-! ### One reconcile -/

/-- A live hook object; `attempt` is the annotation with the attempt that applied it: release UID and counter. -/
structure LiveHook where
  deletedAt : Option Int
  createdAt : Int
  releaseLabel : String
  attempt : Option (String × Nat)
  deriving DecidableEq

/-- `hookBelongsToAttempt`. -/
def LiveHook.belongs (plan : HookPlan) (attempt : Nat) (o : LiveHook) : Bool :=
  o.releaseLabel == plan.name && o.attempt == some (plan.uid, attempt)

/-- What others do to an object before the controller looks at it. -/
inductive Drift
  | unchanged
  | gone
  | terminating (since : Int)
  | replaced (createdAt : Int)

/-- What a completion checker finds. -/
inductive Completion
  | error
  | running
  | done (succeeded : Bool) (message : String)

/-- What becomes of a document of the Sync phase; `pending` is the gate of a wave in front of it. -/
inductive SyncOutcome
  | applied | passedOver | failed | pending
  deriving DecidableEq

/-- What one reconcile meets, and whether its status is stored; `endsWell`: nothing fails once all documents are
applied. -/
structure HookPass where
  now : Int
  drift : Hook → ResourceKey → Drift
  getFails : Hook → Bool
  deleteFails : Hook → Bool
  applyFails : Hook → Bool
  completion : Hook → Completion
  sync : Document → SyncOutcome
  endsWell : Bool
  persisted : Bool

/-- What happens, with the attempt in which it does. -/
inductive HookAction
  | applied (attempt : Nat) (h : Hook)
  | completed (attempt : Nat) (h : Hook)
  | succeeded (attempt : Nat) (h : Hook)
  | stored (attempt : Nat) (h : Hook)
  | synced (attempt : Nat) (d : Document)
  | passedOver (attempt : Nat) (d : Document)
  deriving DecidableEq

/-- The status in memory, the hook objects of the cluster, and everything that has happened, newest first. -/
structure HookWork where
  statuses : List HookStatus
  live : ResourceKey → Option LiveHook
  log : List HookAction

inductive HookResult
  | ok | pending | failed
  deriving DecidableEq, Repr

/-- What `deleteExistingHook` says of the object that is there. -/
inductive Prior
  | absent
  | adopted (o : LiveHook)
  | pending
  | failed

section
variable (plan : HookPlan) (attempt : Nat) (p : HookPass)

def HookWork.drifted (h : Hook) (w : HookWork) : HookWork :=
  { w with live := fun key =>
      match p.drift h key with
      | .unchanged => w.live key
      | .gone => none
      | .terminating since => (w.live key).map (fun o => { o with deletedAt := some since })
      | .replaced createdAt => some { deletedAt := none, createdAt := createdAt, releaseLabel := "", attempt := none } }

def HookWork.set (h : Hook) (status : HookProgress) (message : String) (now : Int) (w : HookWork) : HookWork :=
  { w with statuses := setHookStatus (h.key plan) status message now w.statuses }

def HookWork.record (a : HookAction) (w : HookWork) : HookWork := { w with log := a :: w.log }

def deleteExistingHook (h : Hook) (w : HookWork) : Prior × HookWork :=
  match h.object plan with
  | none => (.failed, w)
  | some key =>
    if p.getFails h then (.failed, w)
    else
      match w.live key with
      | none => (.absent, w)
      | some o =>
        match o.deletedAt with
        | some deletedAt =>
          if plan.deletionTimeout < p.now - deletedAt then (.failed, w) else (.pending, w)
        | none =>
          if o.belongs plan attempt then (.adopted o, w)
          else if p.deleteFails h then (.failed, w)
          else (.pending, { w with live := fun k => if k = key then some { o with deletedAt := some p.now } else w.live k })

/-- `applyHookObject`; an object that is there keeps its age and its deletion. -/
def applyHookObject (h : Hook) (w : HookWork) : Option HookWork :=
  match h.object plan with
  | none => none
  | some key =>
    if p.applyFails h then none
    else
      let o : LiveHook :=
        { deletedAt := (w.live key).bind (·.deletedAt)
          createdAt := ((w.live key).map (·.createdAt)).getD p.now
          releaseLabel := plan.name
          attempt := some (plan.uid, attempt) }
      some ({ w with live := fun k => if k = key then some o else w.live k }.record (.applied attempt h))

/-- The end of `applyNewHook` and of `pollRunningHook`, once the checker has found the hook complete. -/
def finishHook (h : Hook) (succeeded : Bool) (message : String) (w : HookWork) : HookWork × HookResult :=
  if succeeded then
    (((w.record (.completed attempt h)).set plan h .succeeded message p.now).record (.succeeded attempt h), .ok)
  else (w.set plan h .failed message p.now, .failed)

/-- `applyNewHook` from the applied or adopted object on. -/
def startHook (h : Hook) (adopted : Option LiveHook) (w : HookWork) : HookWork × HookResult :=
  if h.fireAndForget plan then
    ((w.set plan h .succeeded "applied (fire-and-forget)" p.now).record (.succeeded attempt h), .ok)
  else
    let startedAt := (adopted.map (·.createdAt)).getD p.now
    let w := w.set plan h .running "" startedAt
    match p.completion h with
    | .error => (w, .failed)
    | .running => (w, .pending)
    | .done succeeded message => finishHook plan attempt p h succeeded message w

def applyNewHook (h : Hook) (w : HookWork) : HookWork × HookResult :=
  let prior := if beforeHookCreation h.deletePolicy then deleteExistingHook plan attempt p h w else (.absent, w)
  match prior.1 with
  | .failed => (prior.2, .failed)
  | .pending => (prior.2, .pending)
  | .adopted o => startHook plan attempt p h (some o) prior.2
  | .absent =>
    match applyHookObject plan attempt p h prior.2 with
    | none => (prior.2, .failed)
    | some w => startHook plan attempt p h none w

/-- `pollRunningHook`; without a checker the hook counts as complete. -/
def pollRunningHook (h : Hook) (hs : HookStatus) (w : HookWork) : HookWork × HookResult :=
  if !h.hasChecker then
    ((w.set plan h .succeeded "no completion checker registered; treated as succeeded" p.now).record
      (.succeeded attempt h), .ok)
  else
    match p.completion h with
    | .error => (w, .failed)
    | .running =>
      if plan.hookTimeout < p.now - hs.startedAt then (w.set plan h .terminated "hook timed out" p.now, .failed)
      else (w, .pending)
    | .done succeeded message => finishHook plan attempt p h succeeded message w

/-- The body of the loop of `executeHooks`. -/
def executeHook (h : Hook) (w : HookWork) : HookWork × HookResult :=
  let w := w.drifted p h
  match findHookStatus (h.key plan) w.statuses with
  | none => applyNewHook plan attempt p h w
  | some hs =>
    match hs.status with
    | .succeeded => (w, .ok)
    | .failed | .terminated => (w, .failed)
    | .running => pollRunningHook plan attempt p h hs w

def executeHooks : List Hook → HookWork → HookWork × HookResult
  | [], w => (w, .ok)
  | h :: hs, w =>
    match (executeHook plan attempt p h w).2 with
    | .ok => executeHooks hs (executeHook plan attempt p h w).1
    | r => ((executeHook plan attempt p h w).1, r)

/-- A document of the Sync phase is applied over whatever has its name. -/
def HookWork.sync (d : Document) (w : HookWork) : HookWork :=
  { w with live := fun key =>
      if d.key plan.resolver plan.namespace_ = some key then
        some { deletedAt := (w.live key).bind (·.deletedAt), createdAt := ((w.live key).map (·.createdAt)).getD p.now,
               releaseLabel := plan.name, attempt := none }
      else w.live key }

/-- The documents of the Sync phase, in the order in which the pass takes them. -/
def applySync : List Document → HookWork → HookWork × HookResult
  | [], w => (w, if p.endsWell then .ok else .failed)
  | d :: ds, w =>
    match p.sync d with
    | .applied => applySync ds ((w.sync plan p d).record (.synced attempt d))
    | .passedOver => applySync ds (w.record (.passedOver attempt d))
    | .failed => (w, .failed)
    | .pending => (w, .pending)

/-- `executeHookPhases`; what the SyncFail hooks end with is ignored. -/
def executeHookPhases (w : HookWork) : HookWork × HookResult :=
  let pre := executeHooks plan attempt p plan.preSync w
  match pre.2 with
  | .pending => (pre.1, .pending)
  | .failed => ((executeHooks plan attempt p plan.syncFail pre.1).1, .failed)
  | .ok =>
    let sync := applySync plan attempt p plan.sync pre.1
    match sync.2 with
    | .pending => (sync.1, .pending)
    | .failed => ((executeHooks plan attempt p plan.syncFail sync.1).1, .failed)
    | .ok =>
      let post := executeHooks plan attempt p plan.postSync sync.1
      match post.2 with
      | .failed => ((executeHooks plan attempt p plan.syncFail post.1).1, .failed)
      | r => (post.1, r)
end

/-! ### The run -/

/-- The counter and the status that are stored, the hook objects, and what has happened. -/
structure HookState where
  attempt : Nat
  statuses : List HookStatus
  live : ResourceKey → Option LiveHook
  log : List HookAction

inductive HookEvent
  | reconcile (p : HookPass)
  | resync

def storedActions (plan : HookPlan) (attempt : Nat) (statuses : List HookStatus) : List HookAction :=
  (plan.hooks.filter (fun h => progress (h.key plan) statuses = some .succeeded)).map (HookAction.stored attempt)

/-- One step: a reconcile of the promotion, whose status may be lost, or a resync, which starts a new attempt. -/
def hookStep (plan : HookPlan) (s : HookState) : HookEvent → HookState
  | .reconcile p =>
    let w := (executeHookPhases plan s.attempt p { statuses := s.statuses, live := s.live, log := s.log }).1
    if p.persisted then
      { attempt := s.attempt, statuses := w.statuses, live := w.live,
        log := storedActions plan s.attempt w.statuses ++ w.log }
    else { s with live := w.live, log := w.log }
  | .resync => { s with attempt := s.attempt + 1, statuses := [] }

/-- A release whose hooks have not run, in a cluster without objects of any of its attempts. -/
def HookState.start (live : ResourceKey → Option Int) : HookState where
  attempt := 0
  statuses := []
  live := fun key => (live key).map (fun createdAt =>
    { deletedAt := none, createdAt := createdAt, releaseLabel := "", attempt := none })
  log := []

/-! ### What justifies an action -/

/-- No other hook of the release has the object of this one, or its entry in the status. -/
def Hook.Alone (plan : HookPlan) (h : Hook) : Prop :=
  ∀ h' ∈ plan.hooks, h'.key plan = h.key plan ∨ (h.object plan).isSome ∧ h'.object plan = h.object plan → h' = h

instance (plan : HookPlan) (h : Hook) : Decidable (h.Alone plan) := inferInstanceAs (Decidable (∀ _, _))

/-- What must have happened before an action. -/
def Justified (plan : HookPlan) (earlier : List HookAction) : HookAction → Prop
  | .applied a h =>
    (h.phase = .postSync → ∀ d ∈ plan.sync, .synced a d ∈ earlier ∨ .passedOver a d ∈ earlier) ∧ .stored a h ∉ earlier
  | .completed a h => h.Alone plan → .applied a h ∈ earlier
  | .succeeded a h => h.Alone plan → if h.fireAndForget plan then .applied a h ∈ earlier else .completed a h ∈ earlier
  | .stored a h => h.Alone plan → .succeeded a h ∈ earlier
  | .synced a _ => ∀ h ∈ plan.preSync, h.Alone plan → .succeeded a h ∈ earlier
  | .passedOver _ _ => True

/-- Every entry of a log is justified by the entries before it; the newest is the first. -/
def EachAfter {α : Type} (justified : List α → α → Prop) : List α → Prop
  | [] => True
  | a :: earlier => justified earlier a ∧ EachAfter justified earlier

instance decidableEachAfter {α : Type} (justified : List α → α → Prop) [∀ earlier a, Decidable (justified earlier a)] :
    ∀ log, Decidable (EachAfter justified log)
  | [] => .isTrue trivial
  | _ :: earlier => @instDecidableAnd _ _ _ (decidableEachAfter justified earlier)

/-- What would have to have happened before an action if every hook were looked at, and none shared an object. -/
def StrictlyJustified (plan : HookPlan) (earlier : List HookAction) : HookAction → Prop
  | .applied a h => (h.phase = .postSync → ∀ d ∈ plan.sync, .synced a d ∈ earlier) ∧ .stored a h ∉ earlier
  | .completed a h => .applied a h ∈ earlier
  | .succeeded a h => .completed a h ∈ earlier
  | .stored a h => .succeeded a h ∈ earlier
  | .synced a _ => ∀ h ∈ plan.preSync, .succeeded a h ∈ earlier
  | .passedOver _ _ => True

instance decidableStrictlyJustified (plan : HookPlan) (earlier : List HookAction) :
    ∀ a, Decidable (StrictlyJustified plan earlier a)
  | .applied .. => inferInstanceAs (Decidable (_ ∧ _))
  | .completed .. => inferInstanceAs (Decidable (_ ∈ _))
  | .succeeded .. => inferInstanceAs (Decidable (_ ∈ _))
  | .stored .. => inferInstanceAs (Decidable (_ ∈ _))
  | .synced .. => inferInstanceAs (Decidable (∀ _, _))
  | .passedOver _ _ => .isTrue trivial

/-- The law of the work in progress. -/
structure WorkInv (plan : HookPlan) (attempt : Nat) (w : HookWork) : Prop where
  justified : EachAfter (Justified plan) w.log
  live : ∀ key o a, w.live key = some o → o.belongs plan a = true →
    ∃ h ∈ plan.hooks, h.object plan = some key ∧ .applied a h ∈ w.log
  running : ∀ h ∈ plan.hooks, h.Alone plan → progress (h.key plan) w.statuses = some .running → .applied attempt h ∈ w.log
  succeeded : ∀ h ∈ plan.hooks, h.Alone plan → progress (h.key plan) w.statuses = some .succeeded →
    .succeeded attempt h ∈ w.log
  stored : ∀ h, .stored attempt h ∈ w.log → progress (h.key plan) w.statuses = some .succeeded
  past : ∀ a h, .stored a h ∈ w.log → a ≤ attempt

section
variable {plan : HookPlan} {attempt : Nat} {p : HookPass} {h : Hook} {w w' : HookWork}

section
variable (hw : WorkInv plan attempt w)
include hw

theorem WorkInv.of_live {live : ResourceKey → Option LiveHook}
    (hlive : ∀ key o a, live key = some o → o.belongs plan a = true → ∃ o', w.live key = some o' ∧ o'.belongs plan a = true) :
    WorkInv plan attempt { w with live := live } where
  justified := hw.justified
  live := by
    intro key o a ho hbelongs
    obtain ⟨o', ho', hbelongs'⟩ := hlive key o a ho hbelongs
    exact hw.live key o' a ho' hbelongs'
  running := hw.running
  succeeded := hw.succeeded
  stored := hw.stored
  past := hw.past

theorem WorkInv.drifted (p : HookPass) (h : Hook) : WorkInv plan attempt (w.drifted p h) := by
  apply hw.of_live
  intro key o a ho hbelongs
  split at ho
  · exact ⟨o, ho, hbelongs⟩
  · cases ho
  · obtain ⟨o', ho', rfl⟩ := map_eq_some_iff.mp ho
    exact ⟨o', ho', hbelongs⟩
  · cases ho
    simp [LiveHook.belongs] at hbelongs

theorem WorkInv.record {a : HookAction} (ha : Justified plan w.log a)
    (hstored : ∀ n h, a ≠ .stored n h) : WorkInv plan attempt (w.record a) where
  justified := ⟨ha, hw.justified⟩
  live := by
    intro key o n ho hbelongs
    obtain ⟨h, hh, hobj, happl⟩ := hw.live key o n ho hbelongs
    exact ⟨h, hh, hobj, mem_cons_of_mem a happl⟩
  running := fun h hh halone hprog => mem_cons_of_mem a (hw.running h hh halone hprog)
  succeeded := fun h hh halone hprog => mem_cons_of_mem a (hw.succeeded h hh halone hprog)
  stored := by
    intro h hmem
    exact hw.stored h ((mem_cons.mp hmem).resolve_left (fun heq => hstored attempt h heq.symm))
  past := by
    intro n h hmem
    exact hw.past n h ((mem_cons.mp hmem).resolve_left (fun heq => hstored n h heq.symm))
end

theorem progress_set (h : Hook) (status : HookProgress) (message : String) (now : Int) (key : HookKey) :
    progress key (w.set plan h status message now).statuses =
      if key = h.key plan then some status else progress key w.statuses :=
  progress_setHookStatus _ _ _ _ _ _

theorem WorkInv.set (hw : WorkInv plan attempt w) (hh : h ∈ plan.hooks) {status : HookProgress} {message : String}
    {now : Int} (hbefore : progress (h.key plan) w.statuses ≠ some .succeeded)
    (hrun : status = .running → h.Alone plan → .applied attempt h ∈ w.log)
    (hsucc : status = .succeeded → h.Alone plan → .succeeded attempt h ∈ w.log) :
    WorkInv plan attempt (w.set plan h status message now) where
  justified := hw.justified
  live := hw.live
  running := by
    intro h' hh' halone hprog
    rw [progress_set] at hprog
    split at hprog
    · rename_i hkey
      obtain rfl := halone h hh (.inl hkey.symm)
      exact hrun (some.inj hprog) halone
    · exact hw.running h' hh' halone hprog
  succeeded := by
    intro h' hh' halone hprog
    rw [progress_set] at hprog
    split at hprog
    · rename_i hkey
      obtain rfl := halone h hh (.inl hkey.symm)
      exact hsucc (some.inj hprog) halone
    · exact hw.succeeded h' hh' halone hprog
  stored := by
    intro h' hmem
    have hsuccess := hw.stored h' hmem
    rw [progress_set]
    split
    · rename_i hkey
      exact absurd (hkey ▸ hsuccess) hbefore
    · exact hsuccess
  past := hw.past

/-- A log that has grown by what a reconcile does before its status is stored. -/
structure Grows (log log' : List HookAction) : Prop where
  subset : log ⊆ log'
  stored : ∀ a h, .stored a h ∈ log' → .stored a h ∈ log

theorem Grows.refl (log : List HookAction) : Grows log log := { subset := fun _ h => h, stored := fun _ _ h => h }

theorem Grows.cons {log log' : List HookAction} (hlog : Grows log log') {a : HookAction} (ha : ∀ n h, a ≠ .stored n h) :
    Grows log (a :: log') where
  subset := fun _ h => List.mem_cons_of_mem a (hlog.subset h)
  stored := fun n h hmem => hlog.stored n h ((mem_cons.mp hmem).resolve_left (fun heq => ha n h heq.symm))

/-- What a part of a reconcile may do: the law is kept, the log grows, and successes stay. -/
structure Advances (plan : HookPlan) (attempt : Nat) (w w' : HookWork) : Prop where
  inv : WorkInv plan attempt w'
  log : Grows w.log w'.log
  kept : ∀ key, progress key w.statuses = some .succeeded → progress key w'.statuses = some .succeeded

theorem Advances.refl (hw : WorkInv plan attempt w) : Advances plan attempt w w :=
  { inv := hw, log := Grows.refl _, kept := fun _ h => h }

theorem Advances.trans {w₁ w₂ w₃ : HookWork} (h : Advances plan attempt w₁ w₂) (h' : Advances plan attempt w₂ w₃) :
    Advances plan attempt w₁ w₃ :=
  { inv := h'.inv
    log :=
      { subset := fun _ ha => h'.log.subset (h.log.subset ha)
        stored := fun a x ha => h.log.stored a x (h'.log.stored a x ha) }
    kept := fun key hk => h'.kept key (h.kept key hk) }

theorem Advances.set {status : HookProgress} {message : String} {now : Int}
    (hinv : WorkInv plan attempt (w'.set plan h status message now)) (hlog : Grows w.log w'.log)
    (hstatuses : w'.statuses = w.statuses) (hbefore : progress (h.key plan) w.statuses ≠ some .succeeded) :
    Advances plan attempt w (w'.set plan h status message now) where
  inv := hinv
  log := hlog
  kept := by
    intro key hkey
    rw [progress_set, hstatuses]
    split
    · rename_i heq
      exact absurd (heq ▸ hkey) hbefore
    · exact hkey

/-- How one hook ends: as an advance, and with a success if it is done. -/
structure HookStep (plan : HookPlan) (attempt : Nat) (h : Hook) (w : HookWork) (r : HookWork × HookResult) : Prop where
  advances : Advances plan attempt w r.1
  done : r.2 = .ok → progress (h.key plan) r.1.statuses = some .succeeded

/-- A success that is recorded and then stored. -/
theorem HookStep.success (hw' : WorkInv plan attempt w') (hlog : Grows w.log w'.log)
    (hstatuses : w'.statuses = w.statuses) (hh : h ∈ plan.hooks)
    (hbefore : progress (h.key plan) w.statuses ≠ some .succeeded)
    (hsuccess : Justified plan w'.log (.succeeded attempt h)) (message : String) (now : Int) :
    HookStep plan attempt h w ((w'.record (.succeeded attempt h)).set plan h .succeeded message now, .ok) := by
  have hrec := hw'.record hsuccess (fun _ _ heq => nomatch heq)
  constructor
  · apply Advances.set
    · refine hrec.set hh ?_ (fun heq => nomatch heq) (fun _ _ => mem_cons_self)
      show progress (h.key plan) w'.statuses ≠ some .succeeded
      rw [hstatuses]
      exact hbefore
    · exact hlog.cons fun _ _ heq => nomatch heq
    · exact hstatuses
    · exact hbefore
  · intro _
    show progress (h.key plan) (HookWork.set plan h .succeeded message now _).statuses = _
    rw [progress_set, if_pos rfl]

section
variable (hw : WorkInv plan attempt w) (hh : h ∈ plan.hooks)
  (hbefore : progress (h.key plan) w.statuses ≠ some .succeeded)
include hw hh hbefore

theorem finishHook_spec (happl : h.Alone plan → .applied attempt h ∈ w.log) (succeeded : Bool) (message : String) :
    HookStep plan attempt h w (finishHook plan attempt p h succeeded message w) := by
  rw [finishHook]
  cases succeeded with
  | true =>
    rw [if_pos rfl]
    have hcompl : WorkInv plan attempt (w.record (.completed attempt h)) :=
      hw.record happl (fun _ _ heq => nomatch heq)
    refine HookStep.success (w := w) hcompl ?_ rfl hh hbefore ?_ message p.now
    · exact (Grows.refl _).cons fun _ _ heq => nomatch heq
    · intro halone
      split
      · exact mem_cons_of_mem _ (happl halone)
      · exact mem_cons_self
  | false =>
  rw [if_neg Bool.false_ne_true]
  constructor
  · apply Advances.set
    · exact hw.set hh hbefore (fun heq => nomatch heq) (fun heq => nomatch heq)
    · exact Grows.refl _
    · rfl
    · exact hbefore
  · intro hok
    cases hok

theorem forgetHook_spec (hforget : h.fireAndForget plan = true)
    (happl : h.Alone plan → .applied attempt h ∈ w.log) (message : String) :
    HookStep plan attempt h w ((w.set plan h .succeeded message p.now).record (.succeeded attempt h), .ok) := by
  refine HookStep.success hw (Grows.refl _) rfl hh hbefore (fun halone => ?_) message p.now
  rw [if_pos hforget]
  exact happl halone

theorem startHook_spec (happl : h.Alone plan → .applied attempt h ∈ w.log) (adopted : Option LiveHook) :
    HookStep plan attempt h w (startHook plan attempt p h adopted w) := by
  rw [startHook]
  split
  · rename_i hforget
    exact forgetHook_spec hw hh hbefore hforget happl _
  dsimp only
  generalize hstarted : w.set plan h .running "" ((adopted.map (·.createdAt)).getD p.now) = w'
  have hrun : progress (h.key plan) w'.statuses = some .running := by rw [← hstarted, progress_set, if_pos rfl]
  have hstart : Advances plan attempt w w' := by
    rw [← hstarted]
    apply Advances.set
    · exact hw.set hh hbefore (fun _ => happl) (fun heq => nomatch heq)
    · exact Grows.refl _
    · rfl
    · exact hbefore
  split
  · exact { advances := hstart, done := fun hok => nomatch hok }
  · exact { advances := hstart, done := fun hok => nomatch hok }
  · rename_i succeeded message _
    have hfinish : HookStep plan attempt h w' (finishHook plan attempt p h succeeded message w') := by
      apply finishHook_spec hstart.inv hh
      · rw [hrun]
        exact fun heq => nomatch heq
      · exact fun halone => hstart.log.subset (happl halone)
    exact { advances := hstart.trans hfinish.advances, done := hfinish.done }
end

section
variable (hw : WorkInv plan attempt w)
include hw

/-- An object that the attempt has applied is adopted for the hook that applied it, if no other shares the object. -/
theorem deleteExistingHook_spec : Advances plan attempt w (deleteExistingHook plan attempt p h w).2 ∧
      (deleteExistingHook plan attempt p h w).2.statuses = w.statuses ∧
        ∀ o, (deleteExistingHook plan attempt p h w).1 = .adopted o → h.Alone plan →
          .applied attempt h ∈ (deleteExistingHook plan attempt p h w).2.log := by
  have hstay := Advances.refl hw
  rw [deleteExistingHook]
  split
  · exact ⟨hstay, rfl, fun _ heq => nomatch heq⟩
  · rename_i key hobj
    split
    · exact ⟨hstay, rfl, fun _ heq => nomatch heq⟩
    split
    · exact ⟨hstay, rfl, fun _ heq => nomatch heq⟩
    · rename_i o hlive
      split
      · split
        · exact ⟨hstay, rfl, fun _ heq => nomatch heq⟩
        · exact ⟨hstay, rfl, fun _ heq => nomatch heq⟩
      split
      · rename_i hbelongs
        refine ⟨hstay, rfl, ?_⟩
        intro _ _ halone
        obtain ⟨h', hh', hobject', happl⟩ := hw.live key o attempt hlive hbelongs
        have hsame : h' = h := halone h' hh' (.inr ⟨by rw [hobj]; rfl, by rw [hobj, hobject']⟩)
        exact hsame ▸ happl
      split
      · exact ⟨hstay, rfl, fun _ heq => nomatch heq⟩
      refine ⟨?_, rfl, fun _ heq => nomatch heq⟩
      refine { inv := ?_, log := Grows.refl _, kept := fun _ hk => hk }
      apply hw.of_live
      intro k o' a ho' hbelongs'
      split at ho'
      · rename_i hk
        obtain rfl := some.inj ho'
        exact ⟨o, hk ▸ hlive, hbelongs'⟩
      · exact ⟨o', ho', hbelongs'⟩

theorem applyHookObject_spec (hh : h ∈ plan.hooks)
    (hbefore : progress (h.key plan) w.statuses ≠ some .succeeded)
    (hpost : h.phase = .postSync → ∀ d ∈ plan.sync, .synced attempt d ∈ w.log ∨ .passedOver attempt d ∈ w.log)
    (happly : applyHookObject plan attempt p h w = some w') :
    Advances plan attempt w w' ∧ w'.statuses = w.statuses ∧ .applied attempt h ∈ w'.log := by
  rw [applyHookObject] at happly
  split at happly
  · cases happly
  · rename_i key hobj
    split at happly
    · cases happly
    obtain rfl := some.inj happly
    have hjustified : Justified plan w.log (.applied attempt h) :=
      ⟨hpost, fun hstored => hbefore (hw.stored h hstored)⟩
    have hrec := hw.record hjustified (fun _ _ heq => nomatch heq)
    refine ⟨?_, rfl, mem_cons_self⟩
    refine { inv := ?_, log := (Grows.refl _).cons (fun _ _ heq => nomatch heq), kept := fun _ hk => hk }
    refine { hrec with live := ?_ }
    intro k o a ho hbelongs
    dsimp only [HookWork.record] at ho
    split at ho
    · rename_i hk
      obtain rfl := some.inj ho
      have ha : attempt = a := by simpa [LiveHook.belongs] using hbelongs
      exact ⟨h, hh, hk ▸ hobj, ha ▸ mem_cons_self⟩
    · obtain ⟨h', hh', hobject', happl⟩ := hw.live k o a ho hbelongs
      exact ⟨h', hh', hobject', mem_cons_of_mem _ happl⟩

theorem applyNewHook_spec (hh : h ∈ plan.hooks)
    (hbefore : progress (h.key plan) w.statuses ≠ some .succeeded)
    (hpost : h.phase = .postSync → ∀ d ∈ plan.sync, .synced attempt d ∈ w.log ∨ .passedOver attempt d ∈ w.log) :
    HookStep plan attempt h w (applyNewHook plan attempt p h w) := by
  rw [applyNewHook]
  have hprior : Advances plan attempt w
        (if beforeHookCreation h.deletePolicy then deleteExistingHook plan attempt p h w else (.absent, w)).2 ∧
      (if beforeHookCreation h.deletePolicy then deleteExistingHook plan attempt p h w else (.absent, w)).2.statuses =
        w.statuses ∧
      ∀ o, (if beforeHookCreation h.deletePolicy then deleteExistingHook plan attempt p h w else (.absent, w)).1 =
          .adopted o → h.Alone plan → .applied attempt h ∈
        (if beforeHookCreation h.deletePolicy then deleteExistingHook plan attempt p h w else (.absent, w)).2.log := by
    split
    · exact deleteExistingHook_spec hw
    · exact ⟨Advances.refl hw, rfl, fun _ heq => nomatch heq⟩
  generalize (if beforeHookCreation h.deletePolicy then deleteExistingHook plan attempt p h w else (.absent, w)) = prior
    at hprior ⊢
  obtain ⟨hadv, hstatuses, hadopted⟩ := hprior
  have hbefore' : progress (h.key plan) prior.2.statuses ≠ some .succeeded := by
    rw [hstatuses]
    exact hbefore
  split
  · exact { advances := hadv, done := fun hok => nomatch hok }
  · exact { advances := hadv, done := fun hok => nomatch hok }
  · rename_i o ho
    have hstart := startHook_spec (p := p) hadv.inv hh hbefore' (hadopted o ho) (some o)
    exact { advances := hadv.trans hstart.advances, done := hstart.done }
  · split
    · exact { advances := hadv, done := fun hok => nomatch hok }
    · rename_i w' happly
      obtain ⟨happlies, hsame, happl⟩ := applyHookObject_spec hadv.inv hh hbefore'
        (fun hphase d hd => (hpost hphase d hd).imp (fun ha => hadv.log.subset ha) (fun ha => hadv.log.subset ha)) happly
      have hbefore'' : progress (h.key plan) w'.statuses ≠ some .succeeded := by
        rw [hsame]
        exact hbefore'
      have hstart := startHook_spec (p := p) happlies.inv hh hbefore'' (fun _ => happl) none
      exact { advances := (hadv.trans happlies).trans hstart.advances, done := hstart.done }

theorem pollRunningHook_spec (hh : h ∈ plan.hooks) {hs : HookStatus}
    (hrun : progress (h.key plan) w.statuses = some .running) :
    HookStep plan attempt h w (pollRunningHook plan attempt p h hs w) := by
  have hbefore : progress (h.key plan) w.statuses ≠ some .succeeded := by
    rw [hrun]
    exact fun heq => nomatch heq
  have happl : h.Alone plan → .applied attempt h ∈ w.log := fun halone => hw.running h hh halone hrun
  rw [pollRunningHook]
  split
  · rename_i hchecker
    have hforget : h.fireAndForget plan = true := by rw [Hook.fireAndForget, hchecker, Bool.or_true]
    exact forgetHook_spec hw hh hbefore hforget happl _
  split
  · exact { advances := Advances.refl hw, done := fun hok => nomatch hok }
  · split
    · constructor
      · apply Advances.set
        · exact hw.set hh hbefore (fun heq => nomatch heq) (fun heq => nomatch heq)
        · exact Grows.refl _
        · rfl
        · exact hbefore
      · intro hok
        cases hok
    · exact { advances := Advances.refl hw, done := fun hok => nomatch hok }
  · exact finishHook_spec hw hh hbefore happl _ _
end

def SyncDone (plan : HookPlan) (attempt : Nat) (w : HookWork) : Prop :=
  ∀ d ∈ plan.sync, .synced attempt d ∈ w.log ∨ .passedOver attempt d ∈ w.log

theorem SyncDone.of_advances (hsync : SyncDone plan attempt w) (h : Advances plan attempt w w') :
    SyncDone plan attempt w' :=
  fun d hd => (hsync d hd).imp (fun ha => h.log.subset ha) (fun ha => h.log.subset ha)

theorem executeHook_spec (hw : WorkInv plan attempt w) (hh : h ∈ plan.hooks)
    (hpost : h.phase = .postSync → SyncDone plan attempt w) :
    HookStep plan attempt h w (executeHook plan attempt p h w) := by
  have hdrift : Advances plan attempt w (w.drifted p h) :=
    { inv := hw.drifted p h, log := Grows.refl _, kept := fun _ hk => hk }
  have after : ∀ r, HookStep plan attempt h (w.drifted p h) r → HookStep plan attempt h w r :=
    fun r hr => { advances := hdrift.trans hr.advances, done := hr.done }
  have stays : ∀ r, r ≠ .ok → HookStep plan attempt h w (w.drifted p h, r) :=
    fun r hr => { advances := hdrift, done := fun hok => absurd hok hr }
  rw [executeHook]
  split
  · rename_i hnone
    apply after
    apply applyNewHook_spec hdrift.inv hh
    · rw [progress, hnone]
      exact fun heq => nomatch heq
    · exact hpost
  · rename_i hs hfound
    have hprog : progress (h.key plan) (w.drifted p h).statuses = some hs.status := by
      rw [progress, hfound]
      rfl
    split
    · rename_i hstatus
      exact { advances := hdrift, done := fun _ => by rw [hprog, hstatus] }
    · exact stays _ (fun heq => nomatch heq)
    · exact stays _ (fun heq => nomatch heq)
    · rename_i hstatus
      apply after
      apply pollRunningHook_spec hdrift.inv hh
      rw [hprog, hstatus]

theorem executeHooks_spec (hs : List Hook) : ∀ w : HookWork, WorkInv plan attempt w →
    (∀ h ∈ hs, h ∈ plan.hooks) → ((∃ h ∈ hs, h.phase = .postSync) → SyncDone plan attempt w) →
    Advances plan attempt w (executeHooks plan attempt p hs w).1 ∧ ((executeHooks plan attempt p hs w).2 = .ok →
        ∀ h ∈ hs, progress (h.key plan) (executeHooks plan attempt p hs w).1.statuses = some .succeeded) := by
  induction hs with
  | nil =>
    intro w hw _ _
    exact ⟨Advances.refl hw, fun _ h hh => absurd hh not_mem_nil⟩
  | cons h hs ih =>
    intro w hw hhooks hpost
    have hstep : HookStep plan attempt h w (executeHook plan attempt p h w) :=
      executeHook_spec hw (hhooks h mem_cons_self) (fun hphase => hpost ⟨h, mem_cons_self, hphase⟩)
    rw [executeHooks]
    split
    · rename_i hok
      obtain ⟨hrest, hdone⟩ := ih _ hstep.advances.inv (fun h' hh' => hhooks h' (mem_cons_of_mem h hh'))
        (fun hex => (hpost (hex.imp (fun h' hh' => ⟨mem_cons_of_mem h hh'.1, hh'.2⟩))).of_advances hstep.advances)
      refine ⟨hstep.advances.trans hrest, ?_⟩
      intro hall h' hh'
      rcases mem_cons.mp hh' with rfl | hh'
      · exact hrest.kept _ (hstep.done hok)
      · exact hdone hall h' hh'
    · rename_i hnot
      exact ⟨hstep.advances, fun hok => absurd hok hnot⟩

theorem WorkInv.sync (hw : WorkInv plan attempt w) (p : HookPass) (d : Document) :
    WorkInv plan attempt (w.sync plan p d) := by
  apply hw.of_live
  intro key o a ho hbelongs
  split at ho
  · cases ho
    simp [LiveHook.belongs] at hbelongs
  · exact ⟨o, ho, hbelongs⟩

theorem applySync_spec (ds : List Document) : ∀ w : HookWork, WorkInv plan attempt w →
    (∀ h ∈ plan.preSync, h.Alone plan → .succeeded attempt h ∈ w.log) →
    Advances plan attempt w (applySync plan attempt p ds w).1 ∧ ((applySync plan attempt p ds w).2 = .ok → ∀ d ∈ ds,
        .synced attempt d ∈ (applySync plan attempt p ds w).1.log ∨
          .passedOver attempt d ∈ (applySync plan attempt p ds w).1.log) := by
  induction ds with
  | nil =>
    intro w hw _
    exact ⟨Advances.refl hw, fun _ d hd => absurd hd not_mem_nil⟩
  | cons d ds ih =>
    intro w hw hpre
    have hentered : ∀ v, Advances plan attempt w v → .synced attempt d ∈ v.log ∨ .passedOver attempt d ∈ v.log →
        Advances plan attempt w (applySync plan attempt p ds v).1 ∧
          ((applySync plan attempt p ds v).2 = .ok → ∀ d' ∈ d :: ds,
            .synced attempt d' ∈ (applySync plan attempt p ds v).1.log ∨
              .passedOver attempt d' ∈ (applySync plan attempt p ds v).1.log) := by
      intro v hfirst hentry
      obtain ⟨hrest, hdone⟩ := ih v hfirst.inv fun h hh halone => hfirst.log.subset (hpre h hh halone)
      refine ⟨hfirst.trans hrest, ?_⟩
      intro hok d' hd'
      rcases mem_cons.mp hd' with rfl | hd'
      · exact hentry.imp (hrest.log.subset ·) (hrest.log.subset ·)
      · exact hdone hok d' hd'
    rw [applySync]
    split
    · have hrec : WorkInv plan attempt ((w.sync plan p d).record (.synced attempt d)) :=
        (hw.sync p d).record hpre (fun _ _ heq => nomatch heq)
      exact hentered _ { inv := hrec, log := (Grows.refl _).cons (fun _ _ heq => nomatch heq), kept := fun _ hk => hk }
        (.inl mem_cons_self)
    · have hrec : WorkInv plan attempt (w.record (.passedOver attempt d)) :=
        hw.record trivial (fun _ _ heq => nomatch heq)
      exact hentered _ { inv := hrec, log := (Grows.refl _).cons (fun _ _ heq => nomatch heq), kept := fun _ hk => hk }
        (.inr mem_cons_self)
    · exact ⟨Advances.refl hw, fun hok => nomatch hok⟩
    · exact ⟨Advances.refl hw, fun hok => nomatch hok⟩

/-! ### A whole reconcile -/

theorem phase_of_mem {phase : Phase} {rs : List (Resource Document)} {h : Hook} (hh : h ∈ rs.map (Hook.ofResource phase)) :
    h.phase = phase := by
  obtain ⟨r, -, rfl⟩ := mem_map.mp hh
  rfl

theorem syncFail_spec (hw : WorkInv plan attempt w) :
    Advances plan attempt w (executeHooks plan attempt p plan.syncFail w).1 := by
  apply (executeHooks_spec plan.syncFail w hw ?_ ?_).1
  · exact fun h hh => mem_append_right _ hh
  · intro hex
    obtain ⟨h, hh, hphase⟩ := hex
    rw [phase_of_mem hh] at hphase
    cases hphase

theorem executeHookPhases_spec (hw : WorkInv plan attempt w) :
    Advances plan attempt w (executeHookPhases plan attempt p w).1 := by
  have hpreHooks : ∀ h ∈ plan.preSync, h ∈ plan.hooks :=
    fun h hh => mem_append_left _ (mem_append_left _ hh)
  obtain ⟨hpre, hsucc⟩ := executeHooks_spec (p := p) plan.preSync w hw hpreHooks (by
    intro hex
    obtain ⟨h, hh, hphase⟩ := hex
    rw [phase_of_mem hh] at hphase
    cases hphase)
  rw [executeHookPhases]
  dsimp only
  split
  · exact hpre
  · exact hpre.trans (syncFail_spec hpre.inv)
  · rename_i hok
    have hsuccesses : ∀ h ∈ plan.preSync, h.Alone plan →
        .succeeded attempt h ∈ (executeHooks plan attempt p plan.preSync w).1.log :=
      fun h hh halone => hpre.inv.succeeded h (hpreHooks h hh) halone (hsucc hok h hh)
    obtain ⟨hsync, hdone⟩ := applySync_spec (p := p) plan.sync _ hpre.inv hsuccesses
    split
    · exact hpre.trans hsync
    · exact hpre.trans (hsync.trans (syncFail_spec hsync.inv))
    · rename_i hsynced
      obtain ⟨hpost, -⟩ := executeHooks_spec (p := p) plan.postSync _ hsync.inv
        (fun h hh => mem_append_left _ (mem_append_right _ hh)) (fun _ => hdone hsynced)
      split
      · exact hpre.trans (hsync.trans (hpost.trans (syncFail_spec hpost.inv)))
      · exact hpre.trans (hsync.trans hpost)
end

/-! ### The law of the run -/

/-- The law of the state between reconciles: that of the work, and that stored successes are recorded as such. -/
structure HookInv (plan : HookPlan) (s : HookState) : Prop where
  work : WorkInv plan s.attempt { statuses := s.statuses, live := s.live, log := s.log }
  recorded : ∀ h ∈ plan.hooks, progress (h.key plan) s.statuses = some .succeeded → .stored s.attempt h ∈ s.log

section
variable {plan : HookPlan} {s : HookState}

theorem mem_storedActions {attempt : Nat} {statuses : List HookStatus} {a : HookAction}
    (h : a ∈ storedActions plan attempt statuses) :
    ∃ x ∈ plan.hooks, progress (x.key plan) statuses = some .succeeded ∧ a = .stored attempt x := by
  obtain ⟨x, hx, rfl⟩ := mem_map.mp h
  obtain ⟨hmem, hprog⟩ := mem_filter.mp hx
  exact ⟨x, hmem, of_decide_eq_true hprog, rfl⟩

theorem eachAfter_append {log actions : List HookAction} (hlog : EachAfter (Justified plan) log)
    (hacts : ∀ a ∈ actions, ∀ more, Justified plan (more ++ log) a) :
    EachAfter (Justified plan) (actions ++ log) := by
  induction actions with
  | nil => exact hlog
  | cons a actions ih => exact ⟨hacts a mem_cons_self actions, ih (fun b hb => hacts b (mem_cons_of_mem a hb))⟩

theorem WorkInv.store {attempt : Nat} {w : HookWork} (hw : WorkInv plan attempt w) :
    WorkInv plan attempt { w with log := storedActions plan attempt w.statuses ++ w.log } where
  justified := by
    apply eachAfter_append hw.justified
    intro a ha more
    obtain ⟨x, hx, hprog, rfl⟩ := mem_storedActions ha
    exact fun halone => mem_append_right more (hw.succeeded x hx halone hprog)
  live := by
    intro key o a ho hbelongs
    obtain ⟨h, hh, hobj, happl⟩ := hw.live key o a ho hbelongs
    exact ⟨h, hh, hobj, mem_append_right _ happl⟩
  running := fun h hh halone hprog => mem_append_right _ (hw.running h hh halone hprog)
  succeeded := fun h hh halone hprog => mem_append_right _ (hw.succeeded h hh halone hprog)
  stored := by
    intro h hmem
    rcases mem_append.mp hmem with hnew | hold
    · obtain ⟨x, -, hprog, heq⟩ := mem_storedActions hnew
      cases heq
      exact hprog
    · exact hw.stored h hold
  past := by
    intro a h hmem
    rcases mem_append.mp hmem with hnew | hold
    · obtain ⟨x, -, -, heq⟩ := mem_storedActions hnew
      cases heq
      exact Nat.le_refl _
    · exact hw.past a h hold

theorem HookInv.step (hs : HookInv plan s) (e : HookEvent) : HookInv plan (hookStep plan s e) := by
  cases e with
  | reconcile p =>
    have hadv := executeHookPhases_spec (p := p) hs.work
    simp only [hookStep]
    split
    · refine { work := hadv.inv.store, recorded := ?_ }
      intro h hh hprog
      apply mem_append_left
      exact mem_map_of_mem (mem_filter.mpr ⟨hh, decide_eq_true hprog⟩)
    constructor
    · -- the status of the earlier reconciles stays, beside what this one has done
      refine { hadv.inv with running := ?_, succeeded := ?_, stored := ?_ }
      · exact fun h hh halone hprog => hadv.log.subset (hs.work.running h hh halone hprog)
      · exact fun h hh halone hprog => hadv.log.subset (hs.work.succeeded h hh halone hprog)
      · exact fun h hmem => hs.work.stored h (hadv.log.stored s.attempt h hmem)
    · exact fun h hh hprog => hadv.log.subset (hs.recorded h hh hprog)
  | resync =>
    constructor
    · refine { hs.work with running := ?_, succeeded := ?_, stored := ?_, past := ?_ }
      · exact fun h hh halone hprog => nomatch hprog
      · exact fun h hh halone hprog => nomatch hprog
      · intro h hmem
        have hpast : s.attempt + 1 ≤ s.attempt := hs.work.past (s.attempt + 1) h hmem
        omega
      · exact fun a h hmem => Nat.le_succ_of_le (hs.work.past a h hmem)
    · exact fun h hh hprog => nomatch hprog

theorem hookInv_start (plan : HookPlan) (live : ResourceKey → Option Int) : HookInv plan (HookState.start live) where
  work :=
    { justified := trivial
      live := by
        intro key o a ho hbelongs
        obtain ⟨createdAt, -, rfl⟩ := map_eq_some_iff.mp ho
        simp [LiveHook.belongs] at hbelongs
      running := fun h hh halone hprog => nomatch hprog
      succeeded := fun h hh halone hprog => nomatch hprog
      stored := fun h hmem => absurd hmem not_mem_nil
      past := fun a h hmem => absurd hmem not_mem_nil }
  recorded := fun h hh hprog => nomatch hprog
end

def hookPlan (documents : List Document) : HookPlan where
  name := "web-1"
  namespace_ := "default"
  uid := "1"
  documents := documents
  hookTimeoutSeconds := none
  resolver := none
  order := fun docs => docs
  mem_order := Iff.rfl

/-- Nothing fails, and what is looked at is complete. -/
def quietPass : HookPass where
  now := 0
  drift := fun _ _ => .unchanged
  getFails := fun _ => false
  deleteFails := fun _ => false
  applyFails := fun _ => false
  completion := fun _ => .done true "Job completed successfully"
  sync := fun _ => .applied
  endsWell := true
  persisted := true

def hookDocument (apiVersion kind : String) (phases : String) : Document where
  apiVersion := apiVersion
  kind := kind
  metadataNamespace := ""
  name := "migrate"
  annotations := [( hookAnnotation, phases)]

def configMapPlan : HookPlan := hookPlan [hookDocument "v1" "ConfigMap" "PreSync"]

def quietRun (plan : HookPlan) : HookState :=
  run (hookStep plan) (HookState.start (fun _ => none)) [.reconcile quietPass]

end Paprika.Releases
