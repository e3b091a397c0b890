import Paprika.Lib.KeyedMap
import Paprika.Lib.OptimisticUpdates

/-!
# The sessions kept in one Secret

`kubernetes_secret.go`: the session store of the OAuth server on a Secret.  Every record is one entry of the Secret, under
a hash of its key; it is encrypted and carries its expiry.  An operation reads the Secret, changes what it read and writes
it back at the resource version that it read; after a conflict it starts over.

* `Sealing` — the hash, the encoding of a record and the authenticated encryption, which the source takes from libraries;
* `SecretCache.attempt` — one attempt of every operation: the body that the source hands to `retrySecretWrite`.
-/

namespace Paprika.OAuth

open Lib.KeyedMap Lib.OptimisticUpdates

def secretResourceKey : String := "resource"
def secretCanaryKey : String := "canary"
def secretEntryPrefix : String := "entry."
def secretCacheLimit : Nat := 700 * 1024
def secretEntryLimit : Nat := 2048
def secretValueLimit : Nat := 16 * 1024
def secretKeyLimit : Nat := 2048
def secretTemporaryLimit : Nat := 128 * 1024
def secretTemporaryEntries : Nat := 256

/-- `secretCacheBackoff.Steps`. -/
def secretSteps : Nat := 10

/-- The last nanosecond of a `time.Time` that fits an `int64`. -/
def maxNanos : Int := 9223372036854775807

def hasPrefix (s p : String) : Bool := p.toList.isPrefixOf s.toList

def bytes (s : String) : List UInt8 := s.toUTF8.data.toList

/-- A byte slice of the source: `nil`, or bytes. -/
abbrev Slice := Option (List UInt8)

/-- `bytes.Equal`: `nil` and the empty slice are equal. -/
def Slice.equal (a b : Slice) : Bool := a.getD [] == b.getD []

/-- The last `k` bytes of a number, the highest first. -/
def putUint64 : Nat → Nat → List UInt8
  | 0, _ => []
  | k + 1, n => putUint64 k (n / 256) ++ [UInt8.ofNat n]

def uint64 (bs : List UInt8) : Nat := bs.foldl (fun n b => n * 256 + b.toNat) 0

theorem uint64_putUint64 {n : Nat} (h : (n : Int) ≤ maxNanos) : uint64 (putUint64 8 n) = n := by
  have hlt : n < 9223372036854775808 := by
    rw [maxNanos] at h
    omega
  simp only [putUint64, uint64, List.nil_append, List.cons_append, List.foldl_cons, List.foldl_nil, UInt8.toNat_ofNat',
    Nat.reducePow]
  omega

theorem length_putUint64 (k n : Nat) : (putUint64 k n).length = k := by
  induction k generalizing n with
  | zero => rfl
  | succ k ih => rw [putUint64, List.length_append, ih, List.length_singleton]

structure SecretCacheRecord where
  key : String
  value : Slice
  deriving DecidableEq

/-- The libraries: the hash of a key in hexadecimal, the encoding of a record, and the encryption under the key of the
cache, which authenticates additional data. -/
structure Sealing where
  hash : String → String
  hash_injective : ∀ a b, hash a = hash b → a = b
  marshal : SecretCacheRecord → List UInt8
  unmarshal : List UInt8 → Option SecretCacheRecord
  unmarshal_marshal : ∀ record, unmarshal (marshal record) = some record
  nonceSize : Nat
  overhead : Nat
  aeadSeal : List UInt8 → List UInt8 → List UInt8 → List UInt8
  aeadOpen : List UInt8 → List UInt8 → List UInt8 → Option (List UInt8)
  length_aeadSeal : ∀ nonce plain aad, (aeadSeal nonce plain aad).length = plain.length + overhead
  aeadOpen_aeadSeal : ∀ nonce plain aad, aeadOpen nonce (aeadSeal nonce plain aad) aad = some plain

/-- `secretCache`: the resource that its Secret is bound to. -/
structure SecretCache extends Sealing where
  resource : String

/-- `secret.Data`. -/
abbrev SecretData := Map String (List UInt8)

/-- What an operation gets from its clock and from the random source when it prepares a record. -/
structure Draw (nonceSize : Nat) where
  now : Int
  nonce : Vector UInt8 nonceSize
  deriving DecidableEq

inductive Operation (nonceSize : Nat) where
  | get (key : String)
  | set (key : String) (value : Slice) (ttl : Int) (draw : Draw nonceSize)
  | getDel (key : String)
  | replace (oldKey : String) (expected : Slice) (newKey : String) (value : Slice) (ttl : Int) (draw : Draw nonceSize)
  | delete (key : String)
  | deleteByPrefix (keys : String)
  deriving DecidableEq

/-- What an operation returns when it does not return an error. -/
inductive Reply where
  | value (v : Slice)
  | replaced (done : Bool)
  | done
  deriving DecidableEq

/-- The clock of an instance, as it is read when the entry of a name is looked at. -/
abbrev Clock := String → Int

def secretEntryClass (key : String) : String := if hasPrefix key "mcp:refresh:" then "refresh." else "temporary."

def isEntry (name : String) : Bool := hasPrefix name secretEntryPrefix

def isTemporary (name : String) : Bool := hasPrefix name (secretEntryPrefix ++ "temporary.")

/-! ### The size of the Secret -/

def entrySize (e : Σ _ : String, List UInt8) : Nat := e.1.utf8ByteSize + e.2.length

def entryCount (data : SecretData) : Nat := data.entries.countP (fun e => isEntry e.1)

def dataSize (data : SecretData) : Nat := (data.entries.map entrySize).sum

def temporarySize (data : SecretData) : Nat := ((data.entries.filter (fun e => isTemporary e.1)).map entrySize).sum

def temporaryCount (data : SecretData) : Nat := data.entries.countP (fun e => isTemporary e.1)

def checkSecretCapacity (data : SecretData) : Bool :=
  !(entryCount data > secretEntryLimit || dataSize data > secretCacheLimit || temporarySize data > secretTemporaryLimit
    || temporaryCount data > secretTemporaryEntries)

theorem checkSecretCapacity_iff {data : SecretData} : checkSecretCapacity data = true ↔
    entryCount data ≤ secretEntryLimit ∧ dataSize data ≤ secretCacheLimit ∧ temporarySize data ≤ secretTemporaryLimit ∧
      temporaryCount data ≤ secretTemporaryEntries := by
  simp [checkSecretCapacity, and_assoc]

namespace SecretCache

variable (c : SecretCache)

/-! ### Records -/

def secretEntryKey (key : String) : String := secretEntryPrefix ++ secretEntryClass key ++ c.hash key

/-- The version of the format, and the expiry in nanoseconds, 0 for none. -/
def header (nanos : Nat) : List UInt8 := 1 :: putUint64 8 nanos

/-- The data that is authenticated with a record: the resource, the name of the entry and the header. -/
def aad (name : String) (header : List UInt8) : List UInt8 := bytes c.resource ++ 0 :: bytes name ++ 0 :: header

def stored (name : String) (record : SecretCacheRecord) (nanos : Nat) (nonce : List UInt8) : List UInt8 :=
  header nanos ++ nonce ++ c.aeadSeal nonce (c.marshal record) (c.aad name (header nanos))

/-- `seal`; an expiry out of range is an error. -/
def sealRecord (name : String) (record : SecretCacheRecord) (expiry : Option Int) (nonce : List UInt8) :
    Option (List UInt8) :=
  match expiry with
  | none => some (c.stored name record 0 nonce)
  | some t => if t < 1 || maxNanos < t then none else some (c.stored name record t.toNat nonce)

/-- Whether bytes begin with a header. -/
def headed (encoded : List UInt8) : Bool := 9 ≤ encoded.length && encoded.head? == some 1

/-- The expiry in a header. -/
def nanosOf (encoded : List UInt8) : Nat := uint64 ((encoded.drop 1).take 8)

/-- `open`. -/
def openRecord (name : String) (encoded : List UInt8) : Option SecretCacheRecord :=
  if encoded.length < 9 + c.nonceSize + c.overhead || encoded.head? != some 1 then none
  else
    (c.aeadOpen ((encoded.drop 9).take c.nonceSize) (encoded.drop (9 + c.nonceSize))
      (c.aad name (encoded.take 9))).bind c.unmarshal

/-- `expired`: malformed data is not. -/
def expired (encoded : List UInt8) (now : Int) : Bool :=
  headed encoded && nanosOf encoded != 0 && 0 ≤ now && nanosOf encoded ≤ now.toNat

/-- `value`: an error, or the value if the key is present. -/
def value (data : SecretData) (now : Clock) (key : String) : Option (Option Slice) :=
  match data.lookup (c.secretEntryKey key) with
  | none => some none
  | some encoded =>
    if expired encoded (now (c.secretEntryKey key)) then some none
    else
      match c.openRecord (c.secretEntryKey key) encoded with
      | none => none
      | some record => if record.key = key then some (some record.value) else none

/-- The expiry of a record, `none` for the zero time. -/
def expiryOf (ttl : Int) (draw : Draw c.nonceSize) : Option Int := if 0 < ttl then some (draw.now + ttl) else none

/-- `prepareRecord`: the name and the bytes of a new entry. -/
def prepareRecord (key : String) (value : Slice) (ttl : Int) (draw : Draw c.nonceSize) : Option (String × List UInt8) :=
  if key = "" || secretKeyLimit < key.utf8ByteSize || secretValueLimit < (value.getD []).length || ttl < 0 then none
  else
    (c.sealRecord (c.secretEntryKey key) ⟨key, value⟩ (c.expiryOf ttl draw) draw.nonce.toList).map
      fun encoded => (c.secretEntryKey key, encoded)

/-! ### The operations -/

/-- `read`: the Secret must be bound to the resource. -/
def bound (data : SecretData) : Bool := (data.lookup secretResourceKey).getD [] == bytes c.resource

/-- The entries that have not expired; what is not an entry stays. -/
def sweep (data : SecretData) (now : Clock) : SecretData :=
  keep (fun name encoded => !(isEntry name && expired encoded (now name))) data

def get (data : SecretData) (now : Clock) (key : String) : Attempt SecretData Reply :=
  match c.value data now key with
  | none => .refused
  | some found => .answered (.value found.join)

def set (data : SecretData) (now : Clock) (name : String) (encoded : List UInt8) : Attempt SecretData Reply :=
  let next := (sweep data now).insert name encoded
  if checkSecretCapacity next then .write next .done else .refused

def getDel (data : SecretData) (now : Clock) (key : String) (reply : Slice → Reply) : Attempt SecretData Reply :=
  match c.value data now key with
  | none => .refused
  | some none => .answered (reply none)
  | some (some v) => .write (data.erase (c.secretEntryKey key)) (reply v)

def replaceOnce (data : SecretData) (now : Clock) (oldKey : String) (expected : Slice) (newName : String)
    (encoded : List UInt8) : Attempt SecretData Reply :=
  match c.value data now oldKey with
  | none => .refused
  | some none => .answered (.replaced false)
  | some (some previous) =>
    if !previous.equal expected then .answered (.replaced false)
    else if (data.lookup newName).isSome then .refused
    else
      let next := (data.erase (c.secretEntryKey oldKey)).insert newName encoded
      if checkSecretCapacity next then .write next (.replaced true) else .refused

/-- Whether `DeleteByPrefix` stops at an entry: it is live, and cannot be read or is not the entry of its key. -/
def unreadable (now : Clock) (name : String) (encoded : List UInt8) : Bool :=
  isEntry name && !expired encoded (now name) &&
    (match c.openRecord name encoded with
    | none => true
    | some record => c.secretEntryKey record.key != name)

/-- Whether `DeleteByPrefix` removes an entry. -/
def deletes (now : Clock) (keys : String) (name : String) (encoded : List UInt8) : Bool :=
  isEntry name && (expired encoded (now name) ||
    (c.openRecord name encoded).any fun record => hasPrefix record.key keys)

def deleteByPrefix (data : SecretData) (now : Clock) (keys : String) : Attempt SecretData Reply :=
  if data.entries.any fun e => c.unreadable now e.1 e.2 then .refused
  else if data.entries.any fun e => c.deletes now keys e.1 e.2 then
    .write (keep (fun name encoded => !c.deletes now keys name encoded) data) .done
  else .answered .done

/-- Whether an operation gets as far as the Secret. -/
def admits : Operation c.nonceSize → Bool
  | .set key value ttl draw => (c.prepareRecord key value ttl draw).isSome
  | .replace oldKey _ newKey value ttl draw => oldKey != newKey && (c.prepareRecord newKey value ttl draw).isSome
  | _ => true

def attempt (op : Operation c.nonceSize) (now : Clock) (data : SecretData) : Attempt SecretData Reply :=
  if !c.bound data then .refused
  else
    match op with
    | .get key => c.get data now key
    | .set key value ttl draw =>
      match c.prepareRecord key value ttl draw with
      | none => .refused
      | some (name, encoded) => set data now name encoded
    | .getDel key => c.getDel data now key .value
    | .replace oldKey expected newKey value ttl draw =>
      match c.prepareRecord newKey value ttl draw with
      | none => .refused
      | some (name, encoded) => c.replaceOnce data now oldKey expected name encoded
    | .delete key => c.getDel data now key fun _ => .done
    | .deleteByPrefix keys => c.deleteByPrefix data now keys

/-- The store: any number of instances over one Secret. -/
def protocol : Protocol SecretData (Operation c.nonceSize) Clock Reply := ⟨c.admits, c.attempt, secretSteps⟩

/-- The Secret as `initialize` leaves one that was created for the resource. -/
def initialized (nonce : Vector UInt8 c.nonceSize) : SecretData :=
  ((∅ : SecretData).insert secretResourceKey (bytes c.resource)).insert secretCanaryKey
    (c.stored secretCanaryKey ⟨secretCanaryKey, some (bytes "paprika-oauth-session-v1")⟩ 0 nonce.toList)

end SecretCache

end Paprika.OAuth
