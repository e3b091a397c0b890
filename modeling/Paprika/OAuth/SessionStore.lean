import Paprika.OAuth.SessionSecret

/-!
# One Secret as a store of sessions

* `Sessions`, `Operation.serve` — what the store is for: a map from keys to values that expire, and what each operation
  does to it;
* `SecretCache.Kept` — what holds of the Secret between operations: its entries are sealed records under the names of
  their keys, and it is within its limits; `SecretCache.sessions` is the map that it stands for;
* `simulates` — an attempt that returns an answer keeps this, and does to the map what the operation is for;
* **`session_store_linearizable`** — any number of instances over one Secret are such a map.
-/

namespace Paprika.OAuth

open Lib.KeyedMap Lib.OptimisticUpdates Lib.Run List Option

/-! ### The store as a map -/

/-- A session: its value, and its expiry in nanoseconds, 0 for none. -/
structure Session where
  value : Slice
  expiry : Nat
  deriving DecidableEq

def Session.expired (s : Session) (now : Int) : Bool := s.expiry != 0 && 0 ≤ now && s.expiry ≤ now.toNat

abbrev Sessions := String → Option Session

variable {k : String}

namespace Sessions

def live (m : Sessions) (now : Clock) : Sessions := fun key => (m key).filter fun s => !s.expired (now key)

def put (m : Sessions) (key : String) (s : Session) : Sessions := Function.update m key (some s)

def drop (m : Sessions) (key : String) : Sessions := Function.update m key none

variable {m : Sessions} {now : Clock} {key : String} {s : Session}

theorem live_eq_some : m.live now key = some s ↔ m key = some s ∧ s.expired (now key) = false := by
  simp [live, filter_eq_some_iff]

theorem live_of_none (h : m key = none) : m.live now key = none := by simp [live, h]

@[simp] theorem put_self : m.put key s key = some s := Function.update_self ..

@[simp] theorem drop_self : m.drop key key = none := Function.update_self ..

theorem put_of_ne (h : k ≠ key) : m.put key s k = m k := Function.update_of_ne h ..

theorem drop_of_ne (h : k ≠ key) : m.drop key k = m k := Function.update_of_ne h ..

end Sessions

/-- A session that is stored at a time for a duration, 0 for good. -/
def sessionOf (value : Slice) (ttl now : Int) : Session := ⟨value, if 0 < ttl then (now + ttl).toNat else 0⟩

/-- Consume a session: the value if it was there. -/
def Sessions.consume (m : Sessions) (now : Clock) (key : String) (reply : Slice → Reply) : Sessions × Reply :=
  match m.live now key with
  | none => (m, reply none)
  | some s => (m.drop key, reply s.value)

/-- What an operation is for; `none` where it must not succeed. -/
def Operation.serve {n : Nat} (op : Operation n) (now : Clock) (m : Sessions) : Option (Sessions × Reply) :=
  match op with
  | .get key => some (m, .value ((m.live now key).bind (·.value)))
  | .set key value ttl draw => some ((m.live now).put key (sessionOf value ttl draw.now), .done)
  | .getDel key => some (m.consume now key .value)
  | .replace oldKey expected newKey value ttl draw =>
    match m.live now oldKey with
    | none => some (m, .replaced false)
    | some s =>
      if !s.value.equal expected then some (m, .replaced false)
      else if (m newKey).isSome then none
      else some ((m.drop oldKey).put newKey (sessionOf value ttl draw.now), .replaced true)
  | .delete key => some (m.consume now key fun _ => .done)
  | .deleteByPrefix keys => some (fun key => if hasPrefix key keys then none else m.live now key, .done)

/-! ### Names and records -/

variable {reply : Slice → Reply}

namespace SecretCache

variable {c : SecretCache} {data : SecretData} {now : Clock} {key name : String}

theorem hasPrefix_append (p s : String) : hasPrefix (p ++ s) p = true := by simp [hasPrefix]

theorem isEntry_secretEntryKey (key : String) : isEntry (c.secretEntryKey key) = true := by
  rw [secretEntryKey, String.append_assoc]
  exact hasPrefix_append _ _

theorem secretEntryClass_cases (key : String) : secretEntryClass key = "refresh." ∨ secretEntryClass key = "temporary." := by
  unfold secretEntryClass
  split_ifs
  · exact .inl rfl
  · exact .inr rfl

theorem secretEntryKey_inj (h : c.secretEntryKey key = c.secretEntryKey k) : key = k := by
  have hlist := congrArg String.toList h
  simp only [secretEntryKey, String.toList_append, append_assoc, append_cancel_left_eq] at hlist
  refine c.hash_injective _ _ (String.toList_inj.mp ?_)
  rcases secretEntryClass_cases key with hclass | hclass
  · rcases secretEntryClass_cases k with hclass' | hclass'
    · simpa [hclass, hclass'] using hlist
    · simp [hclass, hclass'] at hlist
  · rcases secretEntryClass_cases k with hclass' | hclass'
    · simp [hclass, hclass'] at hlist
    · simpa [hclass, hclass'] using hlist

theorem isEntry_resource : isEntry secretResourceKey = false := by decide

theorem secretEntryKey_ne_resource (key : String) : secretResourceKey ≠ c.secretEntryKey key := by
  intro h
  have hentry := isEntry_secretEntryKey (c := c) key
  rw [← h, isEntry_resource] at hentry
  cases hentry

section
variable {record : SecretCacheRecord} {nanos : Nat} {nonce : List UInt8}

theorem length_header (nanos : Nat) : (header nanos).length = 9 := by rw [header, length_cons, length_putUint64]

theorem take_stored : (c.stored name record nanos nonce).take 9 = header nanos := by
  rw [stored, append_assoc, take_append_of_le_length (Nat.le_of_eq (length_header nanos).symm),
    take_of_length_le (Nat.le_of_eq (length_header nanos))]

theorem drop_stored : (c.stored name record nanos nonce).drop 9 =
    nonce ++ c.aeadSeal nonce (c.marshal record) (c.aad name (header nanos)) := by
  rw [stored, append_assoc, drop_append_of_le_length (Nat.le_of_eq (length_header nanos).symm),
    drop_of_length_le (Nat.le_of_eq (length_header nanos)), nil_append]

theorem head_stored : (c.stored name record nanos nonce).head? = some 1 := rfl

theorem length_stored : (c.stored name record nanos nonce).length =
    9 + (nonce.length + ((c.marshal record).length + c.overhead)) := by
  rw [stored, length_append, length_append, length_header, c.length_aeadSeal, Nat.add_assoc]

theorem nanosOf_stored (hnanos : (nanos : Int) ≤ maxNanos) : nanosOf (c.stored name record nanos nonce) = nanos := by
  have hbytes : ((c.stored name record nanos nonce).drop 1).take 8 = putUint64 8 nanos := by
    show (putUint64 8 nanos ++ nonce ++ _).take 8 = _
    rw [append_assoc, take_append_of_le_length (Nat.le_of_eq (length_putUint64 8 nanos).symm),
      take_of_length_le (Nat.le_of_eq (length_putUint64 8 nanos))]
  rw [nanosOf, hbytes, uint64_putUint64 hnanos]

theorem expired_stored (hnanos : (nanos : Int) ≤ maxNanos) (t : Int) :
    expired (c.stored name record nanos nonce) t = Session.expired ⟨record.value, nanos⟩ t := by
  have hheaded : headed (c.stored name record nanos nonce) = true := by
    rw [headed, head_stored, length_stored]
    simp
  rw [expired, hheaded, nanosOf_stored hnanos, Session.expired, Bool.true_and]

theorem openRecord_stored (hnonce : nonce.length = c.nonceSize) :
    c.openRecord name (c.stored name record nanos nonce) = some record := by
  have hlen : ¬ (c.stored name record nanos nonce).length < 9 + c.nonceSize + c.overhead := by
    rw [length_stored, hnonce]
    omega
  have hbox : (c.stored name record nanos nonce).drop (9 + c.nonceSize) =
      c.aeadSeal nonce (c.marshal record) (c.aad name (header nanos)) := by
    rw [← drop_drop, drop_stored, ← hnonce, drop_left]
  have htake : ((c.stored name record nanos nonce).drop 9).take c.nonceSize = nonce := by
    rw [drop_stored, ← hnonce, take_left]
  rw [openRecord, head_stored, hbox, htake, take_stored, c.aeadOpen_aeadSeal]
  simp [hlen, c.unmarshal_marshal]
end

/-! ### What holds of the Secret between operations -/

def Sealed (c : SecretCache) (name : String) (encoded : List UInt8) : Prop :=
  ∃ (record : SecretCacheRecord) (nanos : Nat) (nonce : List UInt8), name = c.secretEntryKey record.key ∧
    (nanos : Int) ≤ maxNanos ∧ nonce.length = c.nonceSize ∧ encoded = c.stored name record nanos nonce

structure Kept (c : SecretCache) (data : SecretData) : Prop where
  bound : data.lookup secretResourceKey = some (bytes c.resource)
  entries : ∀ name encoded, data.lookup name = some encoded → isEntry name = true → c.Sealed name encoded
  capacity : checkSecretCapacity data = true

def sessions (c : SecretCache) (data : SecretData) : Sessions := fun key =>
  (data.lookup (c.secretEntryKey key)).bind fun encoded =>
    (c.openRecord (c.secretEntryKey key) encoded).map fun record => ⟨record.value, nanosOf encoded⟩

/-- The clock as the sessions see it. -/
def clock (c : SecretCache) (now : Clock) : Clock := fun key => now (c.secretEntryKey key)

/-- The purpose of an operation, at the readings of its instance's clock. -/
def serves (c : SecretCache) (op : Operation c.nonceSize) (now : Clock) (m : Sessions) : Option (Sessions × Reply) :=
  op.serve (c.clock now) m

theorem Kept.entry_cases (h : c.Kept data) (key : String) :
    (data.lookup (c.secretEntryKey key) = none ∧ c.sessions data key = none) ∨
      ∃ v nanos nonce, data.lookup (c.secretEntryKey key) =
          some (c.stored (c.secretEntryKey key) ⟨key, v⟩ nanos nonce) ∧
        (nanos : Int) ≤ maxNanos ∧ nonce.length = c.nonceSize ∧ c.sessions data key = some ⟨v, nanos⟩ := by
  cases hlook : data.lookup (c.secretEntryKey key) with
  | none => exact .inl ⟨rfl, by simp [sessions, hlook]⟩
  | some encoded =>
  obtain ⟨⟨k, v⟩, nanos, nonce, hname, hnanos, hnonce, rfl⟩ := h.entries _ encoded hlook (isEntry_secretEntryKey key)
  obtain rfl : key = k := secretEntryKey_inj hname
  refine .inr ⟨v, nanos, nonce, rfl, hnanos, hnonce, ?_⟩
  simp [sessions, hlook, openRecord_stored hnonce, nanosOf_stored hnanos]

theorem Kept.value_eq (h : c.Kept data) (now : Clock) (key : String) :
    c.value data now key = some (((c.sessions data).live (c.clock now) key).map (·.value)) := by
  rw [value]
  rcases h.entry_cases key with ⟨hlook, hnone⟩ | ⟨v, nanos, nonce, hlook, hnanos, hnonce, hsome⟩
  · simp [hlook, Sessions.live_of_none hnone]
  have hlive : (c.sessions data).live (c.clock now) key =
      if Session.expired ⟨v, nanos⟩ (now (c.secretEntryKey key)) then none else some ⟨v, nanos⟩ := by
    cases hexp : Session.expired ⟨v, nanos⟩ (now (c.secretEntryKey key)) with
    | true => simp [Sessions.live, hsome, clock, hexp]
    | false => simp [Sessions.live, hsome, clock, hexp]
  simp only [hlook, expired_stored hnanos, openRecord_stored hnonce, hlive]
  split_ifs <;> rfl

/-! ### What changes of the entries do to the map -/

theorem sessions_congr {d : SecretData} (h : data.lookup (c.secretEntryKey key) = d.lookup (c.secretEntryKey key)) :
    c.sessions data key = c.sessions d key := by
  simp only [sessions, h]

theorem sessions_erase (c : SecretCache) (data : SecretData) (key : String) :
    c.sessions (data.erase (c.secretEntryKey key)) = (c.sessions data).drop key := by
  funext k
  by_cases hk : k = key
  · rw [hk, Sessions.drop_self]
    simp [sessions]
  · rw [Sessions.drop_of_ne hk]
    exact sessions_congr (AList.lookup_erase_ne fun h => hk (secretEntryKey_inj h))

variable {v : Slice}

theorem sessions_insert {nanos : Nat} {nonce : List UInt8} (hnanos : (nanos : Int) ≤ maxNanos)
    (hnonce : nonce.length = c.nonceSize) :
    c.sessions (data.insert (c.secretEntryKey key) (c.stored (c.secretEntryKey key) ⟨key, v⟩ nanos nonce)) =
      (c.sessions data).put key ⟨v, nanos⟩ := by
  funext k
  by_cases hk : k = key
  · rw [hk, Sessions.put_self]
    simp [sessions, openRecord_stored hnonce, nanosOf_stored hnanos]
  · rw [Sessions.put_of_ne hk]
    exact sessions_congr (AList.lookup_insert_ne fun h => hk (secretEntryKey_inj h))

variable {p : String → List UInt8 → Bool}

theorem Kept.sessions_keep (h : c.Kept data) {q : String → Session → Bool}
    (hp : ∀ (k : String) (v : Slice) (nanos : Nat) (nonce : List UInt8), (nanos : Int) ≤ maxNanos →
      nonce.length = c.nonceSize →
      p (c.secretEntryKey k) (c.stored (c.secretEntryKey k) ⟨k, v⟩ nanos nonce) = q k ⟨v, nanos⟩) :
    c.sessions (keep p data) = fun k => (c.sessions data k).filter (q k) := by
  funext k
  rcases h.entry_cases k with ⟨hlook, hnone⟩ | ⟨v, nanos, nonce, hlook, hnanos, hnonce, hsome⟩
  · rw [hnone]
    simp [sessions, lookup_keep, hlook]
  · rw [hsome, sessions, lookup_keep, hlook, filter_some, hp k v nanos nonce hnanos hnonce, filter_some]
    cases q k ⟨v, nanos⟩ with
    | true => simp [openRecord_stored hnonce, nanosOf_stored hnanos]
    | false => rfl

/-! ### The limits -/

theorem checkSecretCapacity_sublist {d : SecretData} (h : d.entries.Sublist data.entries)
    (hdata : checkSecretCapacity data = true) : checkSecretCapacity d = true := by
  obtain ⟨hcount, hsize, htempSize, htempCount⟩ := checkSecretCapacity_iff.mp hdata
  refine checkSecretCapacity_iff.mpr ⟨?_, ?_, ?_, ?_⟩
  · exact Nat.le_trans h.countP_le hcount
  · exact Nat.le_trans (sum_le_of_sublist (h.map entrySize)) hsize
  · exact Nat.le_trans (sum_le_of_sublist ((h.filter _).map entrySize)) htempSize
  · exact Nat.le_trans h.countP_le htempCount

theorem Kept.keep (h : c.Kept data) (hp : ∀ name encoded, isEntry name = false →
    p name encoded = true) : c.Kept (keep p data) := by
  refine ⟨?_, ?_, checkSecretCapacity_sublist (keep_sublist p data) h.capacity⟩
  · rw [lookup_keep, h.bound, filter_some, hp _ _ isEntry_resource]
    rfl
  · intro name encoded hlook hentry
    rw [lookup_keep, filter_eq_some_iff] at hlook
    exact h.entries name encoded hlook.1 hentry

theorem Kept.erase (h : c.Kept data) (key : String) : c.Kept (data.erase (c.secretEntryKey key)) := by
  refine ⟨?_, ?_, checkSecretCapacity_sublist (erase_sublist data _) h.capacity⟩
  · rw [AList.lookup_erase_ne (secretEntryKey_ne_resource key), h.bound]
  intro name encoded hlook hentry
  by_cases hname : name = c.secretEntryKey key
  · rw [hname, AList.lookup_erase] at hlook
    cases hlook
  · rw [AList.lookup_erase_ne hname] at hlook
    exact h.entries name encoded hlook hentry

theorem Kept.insert (h : c.Kept data) {nanos : Nat} {nonce : List UInt8}
    (hnanos : (nanos : Int) ≤ maxNanos) (hnonce : nonce.length = c.nonceSize)
    (hcap : checkSecretCapacity
      (data.insert (c.secretEntryKey key) (c.stored (c.secretEntryKey key) ⟨key, v⟩ nanos nonce)) = true) :
    c.Kept (data.insert (c.secretEntryKey key) (c.stored (c.secretEntryKey key) ⟨key, v⟩ nanos nonce)) := by
  refine ⟨?_, ?_, hcap⟩
  · rw [AList.lookup_insert_ne (secretEntryKey_ne_resource key), h.bound]
  intro name encoded hlook hentry
  by_cases hname : name = c.secretEntryKey key
  · rw [hname, AList.lookup_insert] at hlook
    exact ⟨⟨key, v⟩, nanos, nonce, hname, hnanos, hnonce, by rw [hname]; exact (some.inj hlook).symm⟩
  · rw [AList.lookup_insert_ne hname] at hlook
    exact h.entries name encoded hlook hentry

/-! ### Every operation -/

variable {data' : SecretData} {r : Reply}

/-- An attempt that returns an answer does to the map what the operation is for. -/
def Simulates (c : SecretCache) (data : SecretData) (now : Clock) (op : Operation c.nonceSize) (data' : SecretData)
    (r : Reply) : Prop :=
  c.Kept data' ∧ c.serves op now (c.sessions data) = some (c.sessions data', r)

variable {draw : Draw c.nonceSize} {encoded : List UInt8} {ttl : Int} {value : Slice}

theorem prepareRecord_spec (h : c.prepareRecord key value ttl draw = some (name, encoded)) :
    name = c.secretEntryKey key ∧ ∃ nanos : Nat, (nanos : Int) ≤ maxNanos ∧ sessionOf value ttl draw.now = ⟨value, nanos⟩ ∧
      encoded = c.stored name ⟨key, value⟩ nanos draw.nonce.toList := by
  rw [prepareRecord] at h
  split_ifs at h
  obtain ⟨bytes, hseal, hpair⟩ := map_eq_some_iff.mp h
  obtain ⟨rfl, rfl⟩ := Prod.mk.inj hpair
  refine ⟨rfl, ?_⟩
  unfold expiryOf at hseal
  split_ifs at hseal with httl
  · rw [sealRecord] at hseal
    split_ifs at hseal with hrange
    simp only [Bool.or_eq_true, decide_eq_true_eq, not_or, not_lt] at hrange
    refine ⟨(draw.now + ttl).toNat, ?_, ?_, (some.inj hseal).symm⟩
    · omega
    · rw [sessionOf, if_pos httl]
  · refine ⟨0, ?_, ?_, (some.inj hseal).symm⟩
    · rw [maxNanos]
      omega
    · rw [sessionOf, if_neg httl]

section
variable (h : c.Kept data)
include h

theorem Kept.simulates_get (hr : (c.get data now key).serve data = some (data', r)) :
    c.Simulates data now (.get key) data' r := by
  simp only [SecretCache.get, h.value_eq, Attempt.serve_answered, some.injEq, Prod.mk.injEq] at hr
  obtain ⟨rfl, rfl⟩ := hr
  refine ⟨h, ?_⟩
  show some _ = some _
  cases (c.sessions data).live (c.clock now) key <;> rfl

theorem Kept.sweep (now : Clock) : c.Kept (sweep data now) := h.keep fun name encoded hname => by simp [hname]

theorem Kept.sessions_sweep (now : Clock) :
    c.sessions (SecretCache.sweep data now) = (c.sessions data).live (c.clock now) :=
  h.sessions_keep fun k v nanos nonce hnanos _ => by
    rw [isEntry_secretEntryKey, expired_stored hnanos, Bool.true_and]
    rfl

theorem Kept.simulates_set (hprep : c.prepareRecord key value ttl draw = some (name, encoded))
    (hr : (set data now name encoded).serve data = some (data', r)) :
    c.Simulates data now (.set key value ttl draw) data' r := by
  obtain ⟨rfl, nanos, hnanos, hsess, rfl⟩ := prepareRecord_spec hprep
  rw [SecretCache.set] at hr
  split_ifs at hr with hcap
  · obtain ⟨rfl, rfl⟩ := Prod.mk.inj (some.inj hr)
    refine ⟨(h.sweep now).insert hnanos draw.nonce.length_toList hcap, ?_⟩
    rw [sessions_insert hnanos draw.nonce.length_toList, h.sessions_sweep, ← hsess]
    rfl
  · cases hr

theorem Kept.serve_getDel (hr : (c.getDel data now key reply).serve data = some (data', r)) :
    c.Kept data' ∧ (c.sessions data).consume (c.clock now) key reply = (c.sessions data', r) := by
  rw [SecretCache.getDel, h.value_eq] at hr
  rw [Sessions.consume]
  cases hlive : (c.sessions data).live (c.clock now) key with
  | none =>
    rw [hlive] at hr
    obtain ⟨rfl, rfl⟩ := Prod.mk.inj (some.inj hr)
    exact ⟨h, rfl⟩
  | some s =>
    rw [hlive] at hr
    obtain ⟨rfl, rfl⟩ := Prod.mk.inj (some.inj hr)
    exact ⟨h.erase key, by rw [sessions_erase]⟩

theorem Kept.simulates_replace {oldKey : String} {expected : Slice}
    (hprep : c.prepareRecord key value ttl draw = some (name, encoded))
    (hr : (c.replaceOnce data now oldKey expected name encoded).serve data = some (data', r)) :
    c.Simulates data now (.replace oldKey expected key value ttl draw) data' r := by
  obtain ⟨rfl, nanos, hnanos, hsess, rfl⟩ := prepareRecord_spec hprep
  rw [replaceOnce, h.value_eq] at hr
  rw [Simulates, serves, Operation.serve]
  cases hlive : (c.sessions data).live (c.clock now) oldKey with
  | none =>
    rw [hlive] at hr
    obtain ⟨rfl, rfl⟩ := Prod.mk.inj (some.inj hr)
    exact ⟨h, rfl⟩
  | some s =>
  rw [hlive] at hr
  simp only [map_some] at hr ⊢
  by_cases hexpected : (!s.value.equal expected) = true
  · rw [if_pos hexpected] at hr ⊢
    obtain ⟨rfl, rfl⟩ := Prod.mk.inj (some.inj hr)
    exact ⟨h, rfl⟩
  rw [if_neg hexpected] at hr ⊢
  split_ifs at hr with hexists hcap
  · cases hr
  · obtain ⟨rfl, rfl⟩ := Prod.mk.inj (some.inj hr)
    -- the successor must not exist, not even as an entry that has expired
    have hnew : c.sessions data key = none := by
      rw [sessions, not_isSome_iff_eq_none.mp hexists]
      rfl
    refine ⟨(h.erase oldKey).insert hnanos draw.nonce.length_toList hcap, ?_⟩
    rw [hnew, sessions_insert hnanos draw.nonce.length_toList, sessions_erase, hsess]
    rfl
  · cases hr
end

theorem deletes_stored {nanos : Nat} {nonce : List UInt8} (hnanos : (nanos : Int) ≤ maxNanos)
    (hnonce : nonce.length = c.nonceSize) (keys : String) :
    c.deletes now keys (c.secretEntryKey k) (c.stored (c.secretEntryKey k) ⟨k, v⟩ nanos nonce) =
      (Session.expired ⟨v, nanos⟩ (c.clock now k) || hasPrefix k keys) := by
  rw [deletes, isEntry_secretEntryKey, expired_stored hnanos, openRecord_stored hnonce]
  rfl

theorem Kept.simulates_deleteByPrefix (h : c.Kept data) {keys : String}
    (hr : (c.deleteByPrefix data now keys).serve data = some (data', r)) :
    c.Simulates data now (.deleteByPrefix keys) data' r := by
  have hfilter : c.sessions (Lib.KeyedMap.keep (fun name encoded => !c.deletes now keys name encoded) data) =
      fun key => (c.sessions data key).filter fun s => !(s.expired (c.clock now key) || hasPrefix key keys) :=
    h.sessions_keep fun k v nanos nonce hnanos hnonce => congrArg not (deletes_stored hnanos hnonce keys)
  have hkeep : c.sessions (Lib.KeyedMap.keep (fun name encoded => !c.deletes now keys name encoded) data) =
      fun key => if hasPrefix key keys then none else (c.sessions data).live (c.clock now) key := by
    rw [hfilter]
    funext k
    cases hsess : c.sessions data k with
    | none => simp [Sessions.live_of_none hsess]
    | some s =>
      cases hpre : hasPrefix k keys with
      | true => simp [filter_some]
      | false => simp [Sessions.live, hsess, filter_some]
  rw [SecretCache.deleteByPrefix] at hr
  split_ifs at hr with hunreadable hdeletes
  · cases hr
  · obtain ⟨rfl, rfl⟩ := Prod.mk.inj (some.inj hr)
    refine ⟨h.keep fun name encoded hname => by simp [deletes, hname], ?_⟩
    rw [hkeep]
    rfl
  · obtain ⟨rfl, rfl⟩ := Prod.mk.inj (some.inj hr)
    refine ⟨h, ?_⟩
    -- nothing is removed
    have hall : Lib.KeyedMap.keep (fun name encoded => !c.deletes now keys name encoded) data = data := by
      refine AList.ext (filter_eq_self.mpr ?_)
      intro e he
      simp only [List.any_eq_true, not_exists, not_and, Bool.not_eq_true] at hdeletes
      exact congrArg not (hdeletes e he)
    rw [hall] at hkeep
    show some _ = some _
    rw [← hkeep]

/-- **One attempt does what the operation is for**, and keeps the Secret well formed and within its limits. -/
theorem Kept.simulates (h : c.Kept data) {op : Operation c.nonceSize}
    (hr : c.protocol.serve op now data = some (data', r)) : c.Simulates data now op data' r := by
  have hbound : c.bound data = true := by
    rw [SecretCache.bound, h.bound]
    simp
  have hr : (c.attempt op now data).serve data = some (data', r) := hr
  rw [attempt.eq_def, hbound] at hr
  cases op with
  | get key => exact h.simulates_get hr
  | getDel key =>
    obtain ⟨hkept, hconsume⟩ := h.serve_getDel hr
    exact ⟨hkept, congrArg some hconsume⟩
  | delete key =>
    have hr : (c.getDel data now key fun _ => .done).serve data = some (data', r) := hr
    obtain ⟨hkept, hconsume⟩ := h.serve_getDel hr
    exact ⟨hkept, congrArg some hconsume⟩
  | deleteByPrefix keys => exact h.simulates_deleteByPrefix hr
  | set key value ttl draw =>
    rcases hprep : c.prepareRecord key value ttl draw with _ | ⟨name, encoded⟩
    · simp [hprep, Attempt.serve] at hr
    · simp only [hprep] at hr
      exact h.simulates_set hprep hr
  | replace oldKey expected newKey value ttl draw =>
    rcases hprep : c.prepareRecord newKey value ttl draw with _ | ⟨name, encoded⟩
    · simp [hprep, Attempt.serve] at hr
    · simp only [hprep] at hr
      exact h.simulates_replace hprep hr

end SecretCache

/-! ### What such a map guarantees -/

section
variable {n : Nat} {op : Operation n} {now : Clock} {m m' : Sessions} {r : Reply} {key : String} {s : Session}

def Operation.Names (op : Operation n) (key : String) : Prop :=
  match op with
  | .get _ => False
  | .set k _ _ _ => key = k
  | .getDel k => key = k
  | .replace oldKey _ newKey _ _ _ => key = oldKey ∨ key = newKey
  | .delete k => key = k
  | .deleteByPrefix keys => hasPrefix key keys = true

/-- The key under which an operation that returned `r` has stored a session. -/
def Operation.Stores (op : Operation n) (r : Reply) (key : String) : Prop :=
  match op with
  | .set k _ _ _ => key = k
  | .replace _ _ newKey _ _ _ => key = newKey ∧ r = .replaced true
  | _ => False

/-- The key whose session an operation that returned `r` has consumed, if it was there. -/
def Operation.Takes (op : Operation n) (r : Reply) (key : String) : Prop :=
  match op with
  | .getDel k => key = k
  | .replace oldKey _ _ _ _ _ => key = oldKey ∧ r = .replaced true
  | .delete k => key = k
  | _ => False

theorem serve_replace {oldKey newKey : String} {expected value : Slice} {ttl : Int} {draw : Draw n}
    (h : (Operation.replace oldKey expected newKey value ttl draw).serve now m = some (m', r)) :
    (r = .replaced false ∧ m' = m) ∨ (r = .replaced true ∧ ∃ s, m oldKey = some s ∧ s.expired (now oldKey) = false ∧
      s.value.equal expected = true ∧ m newKey = none ∧
      m' = (m.drop oldKey).put newKey (sessionOf value ttl draw.now)) := by
  rw [Operation.serve] at h
  cases hlive : m.live now oldKey with
  | none =>
    simp only [hlive, some.injEq, Prod.mk.injEq] at h
    exact .inl ⟨h.2.symm, h.1.symm⟩
  | some s =>
  simp only [hlive] at h
  split_ifs at h with hexpected hexists
  · obtain ⟨rfl, rfl⟩ := Prod.mk.inj (some.inj h)
    exact .inl ⟨rfl, rfl⟩
  · obtain ⟨rfl, rfl⟩ := Prod.mk.inj (some.inj h)
    obtain ⟨hold, hfresh⟩ := Sessions.live_eq_some.mp hlive
    refine .inr ⟨rfl, s, hold, hfresh, ?_, not_isSome_iff_eq_none.mp hexists, rfl⟩
    simpa using hexpected

theorem consume_cases (m : Sessions) (now : Clock) (key : String) (reply : Slice → Reply) :
    (m.live now key = none ∧ m.consume now key reply = (m, reply none)) ∨
      ∃ s, m.live now key = some s ∧ m.consume now key reply = (m.drop key, reply s.value) := by
  rw [Sessions.consume]
  cases m.live now key with
  | none => exact .inl ⟨rfl, rfl⟩
  | some s => exact .inr ⟨s, rfl, rfl⟩

theorem consume_of_ne (h : m.consume now key reply = (m', r)) (hk : k ≠ key) : m' k = m k := by
  rcases consume_cases m now key reply with ⟨-, hsame⟩ | ⟨s, -, hdrop⟩
  · rw [hsame] at h
    rw [← (Prod.mk.inj h).1]
  · rw [hdrop] at h
    rw [← (Prod.mk.inj h).1, Sessions.drop_of_ne hk]

section
variable (h : op.serve now m = some (m', r))
include h

/-- **No operation touches a live session of another key.** -/
theorem serve_frame (hs : m key = some s) (hlive : s.expired (now key) = false)
    (hkey : ¬ op.Names key) : m' key = some s := by
  have hfresh : m.live now key = some s := Sessions.live_eq_some.mpr ⟨hs, hlive⟩
  cases op with
  | get k =>
    rw [← (Prod.mk.inj (some.inj h)).1]
    exact hs
  | set k value ttl draw =>
    rw [← (Prod.mk.inj (some.inj h)).1, Sessions.put_of_ne hkey]
    exact hfresh
  | getDel k => exact (consume_of_ne (some.inj h) hkey).trans hs
  | delete k => exact (consume_of_ne (some.inj h) hkey).trans hs
  | replace oldKey expected newKey value ttl draw =>
    rcases serve_replace h with ⟨-, rfl⟩ | ⟨-, -, -, -, -, -, rfl⟩
    · exact hs
    · rw [Sessions.put_of_ne fun heq => hkey (.inr heq), Sessions.drop_of_ne fun heq => hkey (.inl heq)]
      exact hs
  | deleteByPrefix keys =>
  rw [← (Prod.mk.inj (some.inj h)).1]
  have hother : ¬ hasPrefix key keys = true := hkey
  show (if hasPrefix key keys = true then none else m.live now key) = some s
  rw [if_neg hother]
  exact hfresh

theorem serve_absent (hkey : m key = none) (hstores : ¬ op.Stores r key) : m' key = none := by
  have hlive : m.live now key = none := Sessions.live_of_none hkey
  have hconsume : ∀ {k : String} {reply : Slice → Reply}, m.consume now k reply = (m', r) → m' key = none := by
    intro k reply hserved
    rcases consume_cases m now k reply with ⟨-, hsame⟩ | ⟨s, hs, -⟩
    · rw [← (Prod.mk.inj (hsame.symm.trans hserved)).1, hkey]
    have hne : key ≠ k := by
      rintro rfl
      rw [hlive] at hs
      cases hs
    rw [consume_of_ne hserved hne, hkey]
  cases op with
  | get k =>
    rw [← (Prod.mk.inj (some.inj h)).1]
    exact hkey
  | set k value ttl draw =>
    rw [← (Prod.mk.inj (some.inj h)).1, Sessions.put_of_ne hstores]
    exact hlive
  | getDel k => exact hconsume (some.inj h)
  | delete k => exact hconsume (some.inj h)
  | replace oldKey expected newKey value ttl draw =>
    rcases serve_replace h with ⟨-, rfl⟩ | ⟨hr, -, -, -, -, -, rfl⟩
    · exact hkey
    have hnew : key ≠ newKey := fun heq => hstores ⟨heq, hr⟩
    rw [Sessions.put_of_ne hnew]
    by_cases hold : key = oldKey
    · rw [hold, Sessions.drop_self]
    · rw [Sessions.drop_of_ne hold, hkey]
  | deleteByPrefix keys =>
    rw [← (Prod.mk.inj (some.inj h)).1]
    show (if hasPrefix key keys = true then none else m.live now key) = none
    rw [hlive]
    split_ifs <;> rfl

theorem serve_takes (hs : m key = some s) (hlive : s.expired (now key) = false)
    (htakes : op.Takes r key) : m' key = none := by
  have hfresh : m.live now key = some s := Sessions.live_eq_some.mpr ⟨hs, hlive⟩
  have hconsume : ∀ {reply : Slice → Reply}, m.consume now key reply = (m', r) → m' key = none := by
    intro reply hserved
    rcases consume_cases m now key reply with ⟨hnone, -⟩ | ⟨s', -, hdrop⟩
    · rw [hfresh] at hnone
      cases hnone
    · rw [← (Prod.mk.inj (hdrop.symm.trans hserved)).1, Sessions.drop_self]
  cases op with
  | getDel k =>
    obtain rfl : key = k := htakes
    exact hconsume (some.inj h)
  | delete k =>
    obtain rfl : key = k := htakes
    exact hconsume (some.inj h)
  | replace oldKey expected newKey value ttl draw =>
    obtain ⟨rfl, rfl⟩ := htakes
    rcases serve_replace h with ⟨hr, -⟩ | ⟨-, s', hold, -, -, hnew, rfl⟩
    · cases hr
    have hne : key ≠ newKey := by
      rintro rfl
      rw [hold] at hnew
      cases hnew
    rw [Sessions.put_of_ne hne, Sessions.drop_self]
  | get | set | deleteByPrefix => exact absurd htakes id
end

theorem serve_value {v : List UInt8} (h : op.serve now m = some (m', .value (some v)))
    (hop : op = .get key ∨ op = .getDel key) :
    ∃ s, m key = some s ∧ s.value = some v ∧ s.expired (now key) = false := by
  rcases hop with rfl | rfl
  · have hvalue := Reply.value.inj (Prod.mk.inj (some.inj h)).2
    obtain ⟨s, hs, hv⟩ := bind_eq_some_iff.mp hvalue
    obtain ⟨hstored, hlive⟩ := Sessions.live_eq_some.mp hs
    exact ⟨s, hstored, hv, hlive⟩
  have hserved : m.consume now key .value = (m', .value (some v)) := some.inj h
  rcases consume_cases m now key .value with ⟨-, hnone⟩ | ⟨s, hs, hdrop⟩
  · have hvalue := Reply.value.inj (Prod.mk.inj (hnone.symm.trans hserved)).2
    cases hvalue
  · obtain ⟨hstored, hlive⟩ := Sessions.live_eq_some.mp hs
    exact ⟨s, hstored, Reply.value.inj (Prod.mk.inj (hdrop.symm.trans hserved)).2, hlive⟩
end

/-! ### Any number of instances -/

namespace SecretCache

/-- The operations of all instances: their calls, and their reads and updates of the Secret. -/
abbrev SecretEvent (c : SecretCache) := Event (Operation c.nonceSize) Clock

abbrev SecretPoint (c : SecretCache) := Point (Operation c.nonceSize) Clock Reply

def after (c : SecretCache) (data : SecretData) (es : List c.SecretEvent) :
    State SecretData (Operation c.nonceSize) Clock Reply :=
  run c.protocol.step (Protocol.init data) es

/-- What may happen at a point of the log, which finds sessions `m` and leaves `m'`. -/
structure Allowed (c : SecretCache) (x : c.SecretPoint) (m m' : Sessions) : Prop where
  frame : ∀ key s, m key = some s → s.expired (c.clock x.env key) = false → ¬ x.op.Names key → m' key = some s
  fresh : ∀ key v, x.op = .get key ∨ x.op = .getDel key → x.result = .value (some v) →
    ∃ s, m key = some s ∧ s.value = some v ∧ s.expired (c.clock x.env key) = false
  replaces : ∀ oldKey expected newKey value ttl draw, x.op = .replace oldKey expected newKey value ttl draw →
    (x.result = .replaced false ∧ m' = m) ∨ (x.result = .replaced true ∧ ∃ s, m oldKey = some s ∧
      s.expired (c.clock x.env oldKey) = false ∧ s.value.equal expected = true ∧ m newKey = none ∧
      m' = (m.drop oldKey).put newKey (sessionOf value ttl draw.now))

/-- The point `x` after a part of the log consumes the session of a key. -/
def Consumes (c : SecretCache) (data : SecretData) (before : List c.SecretPoint) (x : c.SecretPoint) (key : String) :
    Prop :=
  ∃ m s, Serial c.serves (c.sessions data) before m ∧ m key = some s ∧ s.expired (c.clock x.env key) = false ∧
    x.op.Takes x.result key

/-- A linearizable store of sessions that are consumed once. -/
structure Linearizable (c : SecretCache) (data : SecretData) (es : List c.SecretEvent) : Prop where
  serial : Serial c.serves (c.sessions data) (c.after data es).log (c.sessions (c.after data es).object.current)
  answered : ∀ i p r, (c.after data es).processes[i]? = some p → p.phase = .returned r →
    ∃ x ∈ (c.after data es).log, x.process = i ∧ x.op = p.op ∧ x.result = r
  logged : ∀ x ∈ (c.after data es).log, ∃ p, (c.after data es).processes[x.process]? = some p ∧ p.op = x.op ∧
    (p.phase = .returned x.result ∨ p.phase = .lost)
  failed : ∀ i p, (c.after data es).processes[i]? = some p → p.phase = .failed →
    ∀ x ∈ (c.after data es).log, x.process ≠ i
  once : ((c.after data es).log.map (·.process)).Nodup
  inTime : ∀ fs gs, es = fs ++ gs → ∀ i p r j, (c.after data fs).processes[i]? = some p → p.phase = .returned r →
    (c.after data fs).processes.length ≤ j → ∃ before rest, (c.after data es).log = before ++ rest ∧
      (∃ x ∈ before, x.process = i ∧ x.result = r) ∧ ∀ x ∈ before, x.process ≠ j
  allowed : ∀ before x rest, (c.after data es).log = before ++ x :: rest →
    ∃ m m', Serial c.serves (c.sessions data) before m ∧ c.serves x.op x.env m = some (m', x.result) ∧ c.Allowed x m m'
  consumedOnce : ∀ before x between y rest key, (c.after data es).log = before ++ x :: between ++ y :: rest →
    c.Consumes data before x key → c.Consumes data (before ++ x :: between) y key →
    ∃ z ∈ between, z.op.Stores z.result key
  limits : entryCount (c.after data es).object.current ≤ secretEntryLimit ∧
    dataSize (c.after data es).object.current ≤ secretCacheLimit ∧
    temporarySize (c.after data es).object.current ≤ secretTemporaryLimit ∧
    temporaryCount (c.after data es).object.current ≤ secretTemporaryEntries

variable {c : SecretCache} {data : SecretData} {es : List c.SecretEvent}

theorem allowed_of_serves {x : c.SecretPoint} {m m' : Sessions} (h : c.serves x.op x.env m = some (m', x.result)) :
    c.Allowed x m m' := by
  refine ⟨?_, ?_, ?_⟩
  · intro key s hs hlive hkey
    exact serve_frame h hs hlive hkey
  · intro key v hop hv
    rw [hv] at h
    exact serve_value h hop
  · intro oldKey expected newKey value ttl draw hop
    rw [hop] at h
    exact serve_replace h

theorem absent_of_serial {xs : List c.SecretPoint} {key : String} {m m' : Sessions} (hm : m key = none)
    (hstores : ∀ x ∈ xs, ¬ x.op.Stores x.result key) (h : Serial c.serves m xs m') : m' key = none := by
  refine h.keeps (motive := fun m => m key = none) ?_ hm
  intro x hx a d ha hserve
  exact serve_absent hserve ha (hstores x hx)

/-- Between two points that consume the session of one key there is one that stored it anew. -/
theorem consumed_once {before between : List c.SecretPoint} {x y : c.SecretPoint} {key : String}
    (hx : c.Consumes data before x key) (hy : c.Consumes data (before ++ x :: between) y key) :
    ∃ z ∈ between, z.op.Stores z.result key := by
  obtain ⟨m, s, hbefore, hs, hlive, htakes⟩ := hx
  obtain ⟨m₂, s₂, hthen, hs₂, -⟩ := hy
  obtain ⟨m₀, hbefore', m₁, hserve, hbetween⟩ := serial_append.mp hthen
  obtain rfl : m = m₀ := hbefore.eq hbefore'
  have hgone : m₁ key = none := serve_takes hserve hs hlive htakes
  by_contra hnone
  have hstores : ∀ z ∈ between, ¬ z.op.Stores z.result key := fun z hz hstore => hnone ⟨z, hz, hstore⟩
  rw [absent_of_serial hgone hstores hbetween] at hs₂
  cases hs₂

theorem Kept.after (h : c.Kept data) (es : List c.SecretEvent) : c.Kept (c.after data es).object.current ∧
      Serial c.serves (c.sessions data) (c.after data es).log (c.sessions (c.after data es).object.current) := by
  have hserial := (inv_run c.protocol data es).serial
  refine ⟨hserial.keeps (motive := c.Kept) ?_ h, hserial.simulate (motive := c.Kept) ?_ h⟩
  · intro x _ a b ha hserve
    exact (ha.simulates hserve).1
  · intro op now a b r ha hserve
    exact ha.simulates hserve

/-- **One Secret is a linearizable store of sessions.** -/
theorem session_store_linearizable (c : SecretCache) (data : SecretData) (h : c.Kept data) (es : List c.SecretEvent) :
    c.Linearizable data es := by
  have hinv := inv_run c.protocol data es
  obtain ⟨hkept, hserial⟩ := h.after es
  refine ⟨hserial, ?_, ?_, ?_, hinv.once, ?_, ?_, ?_, checkSecretCapacity_iff.mp hkept.capacity⟩
  · intro i p r hp hr
    exact hinv.of_returned hp hr
  · intro x hx
    exact hinv.of_mem_log hx
  · intro i p hp hfailed
    exact hinv.of_failed hp hfailed
  · rintro fs gs rfl i p r j hp hr hj
    exact precedes c.protocol data fs gs hp hr hj
  · intro before x rest hlog
    rw [hlog] at hserial
    obtain ⟨m, hbefore, m', hserve, -⟩ := serial_append.mp hserial
    exact ⟨m, m', hbefore, hserve, allowed_of_serves hserve⟩
  · intro before x between y rest key _ hx hy
    exact consumed_once hx hy

/-! ### An instance -/

/-- A string as marked triples of bytes, and an end. -/
def marshalChars : List Char → List UInt8
  | [] => [0]
  | ch :: cs => 1 :: UInt8.ofNat (ch.toNat / 65536) :: UInt8.ofNat (ch.toNat / 256) :: UInt8.ofNat ch.toNat ::
      marshalChars cs

def unmarshalChars : List UInt8 → Option (List Char × List UInt8)
  | 0 :: rest => some ([], rest)
  | 1 :: a :: b :: d :: rest => (unmarshalChars rest).map fun found =>
    (Char.ofNat (a.toNat * 65536 + b.toNat * 256 + d.toNat) :: found.1, found.2)
  | _ => none

theorem unmarshalChars_marshalChars (cs : List Char) (rest : List UInt8) :
    unmarshalChars (marshalChars cs ++ rest) = some (cs, rest) := by
  induction cs with
  | nil => rfl
  | cons ch cs ih =>
    have hchar : ch.toNat < 1114112 := by
      rcases ch.valid with hlow | ⟨-, hhigh⟩
      · exact Nat.lt_of_lt_of_le hlow (by decide)
      · exact hhigh
    have hcode : (UInt8.ofNat (ch.toNat / 65536)).toNat * 65536 + (UInt8.ofNat (ch.toNat / 256)).toNat * 256 +
        (UInt8.ofNat ch.toNat).toNat = ch.toNat := by
      simp only [UInt8.toNat_ofNat', Nat.reducePow]
      omega
    simp only [marshalChars, cons_append, unmarshalChars, ih, map_some, hcode, Char.ofNat_toNat]

/-- A sum of bytes that stands in for an authentication tag. -/
def tag (aad : List UInt8) : UInt8 := aad.foldl (· + ·) 0

/-- Libraries that do what the store relies on. -/
def sampleSealing : Sealing where
  hash := id
  hash_injective := fun _ _ h => h
  marshal := fun record => marshalChars record.key.toList ++ (match record.value with
    | none => [0]
    | some v => 1 :: v)
  unmarshal := fun bs => (unmarshalChars bs).bind fun found =>
    match found.2 with
    | [0] => some ⟨String.ofList found.1, none⟩
    | 1 :: v => some ⟨String.ofList found.1, some v⟩
    | _ => none
  unmarshal_marshal := by
    rintro ⟨key, value⟩
    cases value with
    | none => simp [unmarshalChars_marshalChars]
    | some v => simp [unmarshalChars_marshalChars]
  nonceSize := 1
  overhead := 1
  aeadSeal := fun _ plain aad => tag aad :: plain
  aeadOpen := fun _ box aad => if box.head? = some (tag aad) then some box.tail else none
  length_aeadSeal := fun _ _ _ => rfl
  aeadOpen_aeadSeal := by
    intro nonce plain aad
    simp

def sampleCache : SecretCache := { sampleSealing with resource := "observe" }

def sampleDraw : Draw sampleCache.nonceSize := ⟨1000, ⟨#[7], rfl⟩⟩

def sampleData : SecretData := sampleCache.initialized sampleDraw.nonce

/-- A session is stored; its replacement is carried out, but the reply is lost; the successor is read. -/
def lostReplacement : List sampleCache.SecretEvent :=
  [.start (.set "mcp:refresh:a" (some [1]) 500 sampleDraw), .read 0 true fun _ => 1000, .update 0 .ok,
    .start (.replace "mcp:refresh:a" (some [1]) "mcp:refresh:b" (some [2]) 500 sampleDraw),
    .read 1 true fun _ => 1001, .update 1 .lost,
    .start (.get "mcp:refresh:b"), .read 2 true fun _ => 1002]

theorem kept_initialized {nonce} (h : checkSecretCapacity (c.initialized nonce) = true) :
    c.Kept (c.initialized nonce) := by
  have hcanary : isEntry secretCanaryKey = false := by decide
  have hne : secretResourceKey ≠ secretCanaryKey := by decide
  refine ⟨?_, ?_, h⟩
  · rw [initialized, AList.lookup_insert_ne hne, AList.lookup_insert]
  intro name encoded hlook hentry
  have hname : name = secretCanaryKey ∨ name = secretResourceKey := by
    by_contra hother
    rw [not_or] at hother
    rw [initialized, AList.lookup_insert_ne hother.1, AList.lookup_insert_ne hother.2] at hlook
    cases hlook
  rcases hname with rfl | rfl
  · rw [hcanary] at hentry
    cases hentry
  · rw [isEntry_resource] at hentry
    cases hentry

theorem kept_sampleData : sampleCache.Kept sampleData := kept_initialized (by decide)

theorem session_store_sample : sampleCache.Linearizable sampleData lostReplacement :=
  session_store_linearizable sampleCache sampleData kept_sampleData lostReplacement

/-- A replacement that returns an error has consumed the session and stored its successor, so the successor is read
although no operation that succeeded has stored it. -/
theorem lost_replacement_takes_effect :
    (sampleCache.after sampleData lostReplacement).processes.map (·.isLost) = [false, true, false] ∧
      sampleCache.sessions (sampleCache.after sampleData (lostReplacement.take 3)).object.current "mcp:refresh:a" =
        some ⟨some [1], 1500⟩ ∧
      sampleCache.sessions (sampleCache.after sampleData lostReplacement).object.current "mcp:refresh:a" = none ∧
      ∀ (log : List sampleCache.SecretPoint) (m : Sessions),
        (∀ x ∈ log, ∃ p, (sampleCache.after sampleData lostReplacement).processes[x.process]? = some p ∧ p.op = x.op ∧
          p.phase = .returned x.result) →
        (∃ x ∈ log, x.process = 2) → ¬ Serial sampleCache.serves (sampleCache.sessions sampleData) log m := by
  refine ⟨by decide, by decide, by decide, ?_⟩
  rintro log m hlog ⟨x, hx, hprocess⟩ hserial
  have hprocesses : (sampleCache.after sampleData lostReplacement).processes.map (fun p => (p.op, p.result?)) =
      [(.set "mcp:refresh:a" (some [1]) 500 sampleDraw, some .done),
        (.replace "mcp:refresh:a" (some [1]) "mcp:refresh:b" (some [2]) 500 sampleDraw, none),
        (.get "mcp:refresh:b", some (.value (some [2])))] := by decide
  have hpoint : ∀ y ∈ log, ((sampleCache.after sampleData lostReplacement).processes.map
      (fun p => (p.op, p.result?)))[y.process]? = some (y.op, some y.result) := by
    intro y hy
    obtain ⟨p, hp, hop, hr⟩ := hlog y hy
    rw [List.getElem?_map, hp, map_some, hop, Process.result?_of_returned hr]
  rw [hprocesses] at hpoint
  -- none of the operations that succeeded stores the successor
  have hstores : ∀ y ∈ log, ¬ y.op.Stores y.result "mcp:refresh:b" := by
    intro y hy hstore
    have hfound := hpoint y hy
    obtain hzero | hone | htwo | hmore : y.process = 0 ∨ y.process = 1 ∨ y.process = 2 ∨ 3 ≤ y.process := by omega
    · rw [hzero] at hfound
      obtain ⟨hop, -⟩ := Prod.mk.inj (some.inj hfound)
      rw [← hop] at hstore
      have hne : "mcp:refresh:b" ≠ "mcp:refresh:a" := by decide
      exact hne hstore
    · rw [hone] at hfound
      cases (Prod.mk.inj (some.inj hfound)).2
    · rw [htwo] at hfound
      obtain ⟨hop, -⟩ := Prod.mk.inj (some.inj hfound)
      rw [← hop] at hstore
      exact hstore
    · rw [List.getElem?_eq_none hmore] at hfound
      cases hfound
  have hread := hpoint x hx
  rw [hprocess] at hread
  obtain ⟨hop, hresult⟩ := Prod.mk.inj (some.inj hread)
  obtain ⟨before, rest, rfl⟩ := append_of_mem hx
  obtain ⟨m₁, hbefore, m₂, hserve, -⟩ := serial_append.mp hserial
  have habsent : m₁ "mcp:refresh:b" = none :=
    absent_of_serial (by decide) (fun y hy => hstores y (mem_append_left _ hy)) hbefore
  rw [← hop, ← some.inj hresult] at hserve
  obtain ⟨s, hs, -⟩ := serve_value hserve (.inl rfl)
  rw [habsent] at hs
  cases hs

end SecretCache

end Paprika.OAuth
