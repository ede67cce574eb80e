import DataService.Lib.RemoteStore

/-! The keystore of the weather-station API: hashed keys as S3 objects, a validation
cache in each worker, and any number of calls that interleave at their awaits. -/

namespace DataService.Keystore

open RemoteStore (Outcome)

structure ApiKeyRecord where
  keyId : String
  label : String
  createdAt : Int
  lastUsedAt : Option Int
  deriving DecidableEq, Repr

/-- A name under `keys/`: the object of a hash, or any other object stored there. -/
inductive ObjectKey (κ : Type*) where
  | key (hash : κ)
  | other (name : String)
  deriving DecidableEq, Repr

/-- The bytes of an object, as far as `_decode_record` tells them apart. -/
inductive Body where
  | record (r : ApiKeyRecord)
  | malformed
  deriving DecidableEq, Repr

def encodeRecord (keyId label : String) (createdAt : Int) (lastUsedAt : Option Int) : Body :=
  .record ⟨keyId, label, createdAt, lastUsedAt⟩

def decodeRecord : Body → Option ApiKeyRecord
  | .record r => some r
  | .malformed => none

def extractHashFromObjectKey {κ : Type*} : ObjectKey κ → Option κ
  | .key hash => some hash
  | .other _ => none

def validationCacheTtlSeconds : Nat := 60

/-- Where a call of `is_valid` stands. -/
inductive ValidatePc where
  | getting
  | got (body : Option Body)
  | touching (record : ApiKeyRecord)
  | touched
  | returned (valid : Bool)
  deriving DecidableEq, Repr

/-- Where a call of `revoke` stands; `rest` holds the listed names it has not read yet. -/
inductive RevokePc (κ : Type*) where
  | listing
  | listed (keys : List (ObjectKey κ))
  | getting (key : ObjectKey κ) (rest : List (ObjectKey κ))
  | got (key : ObjectKey κ) (body : Option Body) (rest : List (ObjectKey κ))
  | deleting (key : ObjectKey κ)
  | deleted (key : ObjectKey κ)
  | returned (hit : Bool)
  deriving DecidableEq, Repr

inductive StoreError where
  | secretAlreadyInUse
  | s3
  deriving DecidableEq, Repr

/-- Where a call of `_store_new_secret` stands. -/
inductive StorePc where
  | checking
  | checked (found : Option Bool)
  | putting (record : ApiKeyRecord)
  | put (record : ApiKeyRecord) (stored : Bool)
  | returned (record : ApiKeyRecord)
  | raised (error : StoreError)
  deriving DecidableEq, Repr

/-- A call in flight. `late` is ghost: the call began after the key was revoked on its
worker, and the secret has not been issued again since. -/
inductive Call (κ : Type*) where
  | isValid (worker : Nat) (hash : κ) (now : Nat) (late : Bool) (pc : ValidatePc)
  | revoke (worker : Nat) (keyId : String) (pc : RevokePc κ)
  | store (hash : κ) (keyId label : String) (pc : StorePc)
  deriving DecidableEq, Repr

variable {κ : Type*} [DecidableEq κ]

/-- The bucket, the clock and every worker. The last two fields are ghost: the hashes
whose object was deleted and not stored again, and, for each worker, the hashes whose
`revoke` returned `True` there and whose secret was not issued again. -/
structure World (κ : Type*) [DecidableEq κ] where
  bucket : AList fun _ : ObjectKey κ => Body
  validationCache : Nat → AList fun _ : κ => Nat
  now : Nat
  calls : List (Call κ)
  deleted : List κ
  revoked : List (Nat × κ)

/-- The workers have just started over a bucket. -/
def World.boot (bucket : AList fun _ : ObjectKey κ => Body) (now : Nat) : World κ :=
  ⟨bucket, fun _ => ∅, now, [], [], []⟩

def Call.forget (hash : κ) : Call κ → Call κ
  | .isValid worker h now late pc => .isValid worker h now (late && decide (h ≠ hash)) pc
  | c => c

namespace World

def putObject (w : World κ) (hash : κ) (body : Body) : World κ :=
  { w with bucket := w.bucket.insert (.key hash) body }

def deleteObject (w : World κ) (key : ObjectKey κ) : World κ :=
  { w with
    bucket := w.bucket.erase key
    deleted := (extractHashFromObjectKey key).toList ++ w.deleted }

def setCache (w : World κ) (worker : Nat) (cache : AList fun _ : κ => Nat) : World κ :=
  { w with validationCache := Function.update w.validationCache worker cache }

/-- Ghost: the secret is issued, so an earlier revocation no longer speaks about it. -/
def issue (w : World κ) (hash : κ) : World κ :=
  { w with
    revoked := w.revoked.filter (fun p => p.2 ≠ hash)
    calls := w.calls.map (Call.forget hash) }

/-- A new secret is stored: its object is there again. -/
def putNewObject (w : World κ) (hash : κ) (body : Body) : World κ :=
  { (w.putObject hash body).issue hash with deleted := w.deleted.filter (· ≠ hash) }

def setCall (w : World κ) (i : Nat) (c : Call κ) : World κ :=
  { w with calls := w.calls.set i c }

def addCall (w : World κ) (c : Call κ) : World κ := { w with calls := w.calls ++ [c] }

/-- Whether a validation that starts now starts after a revocation. -/
def isRevoked (w : World κ) (worker : Nat) (hash : κ) : Bool := decide ((worker, hash) ∈ w.revoked)

end World

/-- `is_valid` up to its first await. -/
def isValid (w : World κ) (worker : Nat) (hash : κ) (presentedSecret : String) : ValidatePc :=
  if presentedSecret.isEmpty then .returned false
  else
    match (w.validationCache worker).lookup hash with
    | some expiry => if w.now < expiry then .returned true else .getting
    | none => .getting

/-- The record `_best_effort_touch` writes back. -/
def touchedRecord (record : ApiKeyRecord) (now : Nat) : Body :=
  encodeRecord record.keyId record.label record.createdAt (some now)

/-- The loop of `revoke` up to its next await. -/
def scanNext : List (ObjectKey κ) → RevokePc κ
  | [] => .returned false
  | key :: rest => .getting key rest

/-- `revoke` drops the cached validation of the deleted object and returns. -/
def dropCached (w : World κ) (worker : Nat) (key : ObjectKey κ) : World κ :=
  match extractHashFromObjectKey key with
  | some hash =>
    let w := w.setCache worker ((w.validationCache worker).erase hash)
    if hash ∈ w.deleted then { w with revoked := (worker, hash) :: w.revoked } else w
  | none => w

/-- The record of a new key, created at the present second. -/
def newRecord (keyId label : String) (now : Nat) : ApiKeyRecord := ⟨keyId, label, now, none⟩

/-- S3 works on the request that a call awaits. -/
def answer (w : World κ) (o : Outcome) : Call κ → Option (World κ × Call κ)
  | .isValid worker hash now late .getting =>
    let body := if o = .ok then w.bucket.lookup (.key hash) else none
    some (w, .isValid worker hash now late (.got body))
  | .isValid worker hash now late (.touching record) =>
    let w := if o.landed then w.putObject hash (touchedRecord record now) else w
    some (w, .isValid worker hash now late .touched)
  | .revoke worker keyId .listing =>
    if o = .ok then none else some (w, .revoke worker keyId (.listed []))
  | .revoke worker keyId (.getting key rest) =>
    let body := if o = .ok then w.bucket.lookup key else none
    some (w, .revoke worker keyId (.got key body rest))
  | .revoke worker keyId (.deleting key) =>
    let w := if o.landed then w.deleteObject key else w
    some (w, .revoke worker keyId (.deleted key))
  | .store hash keyId label .checking =>
    let found := if o = .ok then some (decide (.key hash ∈ w.bucket)) else none
    some (w, .store hash keyId label (.checked found))
  | .store hash keyId label (.putting record) =>
    let body := encodeRecord record.keyId record.label record.createdAt record.lastUsedAt
    let w := if o.landed then w.putNewObject hash body else w
    some (w, .store hash keyId label (.put record (decide (o = .ok))))
  | _ => none

/-- A call whose request was answered runs to its next await or to its end. -/
def resume (w : World κ) : Call κ → Option (World κ × Call κ)
  | .isValid worker hash now late (.got body) =>
    match body.bind decodeRecord with
    | none => some (w, .isValid worker hash now late (.returned false))
    | some record =>
      let expiry := now + validationCacheTtlSeconds
      some (w.setCache worker ((w.validationCache worker).insert hash expiry),
        .isValid worker hash now late (.touching record))
  | .isValid worker hash now late .touched =>
    some (w, .isValid worker hash now late (.returned true))
  | .revoke worker keyId (.listed keys) => some (w, .revoke worker keyId (scanNext keys))
  | .revoke worker keyId (.got key body rest) =>
    match body.bind decodeRecord with
    | none => some (w, .revoke worker keyId (scanNext rest))
    | some record =>
      if record.keyId = keyId then some (w, .revoke worker keyId (.deleting key))
      else some (w, .revoke worker keyId (scanNext rest))
  | .revoke worker keyId (.deleted key) =>
    some (dropCached w worker key, .revoke worker keyId (.returned true))
  | .store hash keyId label (.checked found) =>
    match found with
    | none => some (w, .store hash keyId label (.raised .s3))
    | some true => some (w, .store hash keyId label (.raised .secretAlreadyInUse))
    | some false => some (w, .store hash keyId label (.putting (newRecord keyId label w.now)))
  | .store hash keyId label (.put record stored) =>
    if stored then some (w, .store hash keyId label (.returned record))
    else some (w, .store hash keyId label (.raised .s3))
  | _ => none

inductive Action (κ : Type*) where
  | clock (now : Nat)
  | isValid (worker : Nat) (presentedSecret : String)
  | revoke (worker : Nat) (keyId : String)
  | create (secret keyId label : String)
  | addCustom (secret keyId label : String)
  | answer (i : Nat) (o : Outcome)
  | list (i : Nat) (keys : List (ObjectKey κ))
  | resume (i : Nat)
  deriving DecidableEq, Repr

/-- One step of the workers, of S3 or of the clock. -/
def keystoreStep (hashKey : String → κ) (w : World κ) : Action κ → Option (World κ)
  | .clock now => some { w with now := now }
  | .isValid worker secret =>
    let hash := hashKey secret
    some (w.addCall (.isValid worker hash w.now (w.isRevoked worker hash)
      (isValid w worker hash secret)))
  | .revoke worker keyId => some (w.addCall (.revoke worker keyId .listing))
  | .create secret keyId label =>
    let pc := .putting (newRecord keyId label w.now)
    some ((w.issue (hashKey secret)).addCall (.store (hashKey secret) keyId label pc))
  | .addCustom secret keyId label =>
    some ((w.issue (hashKey secret)).addCall (.store (hashKey secret) keyId label .checking))
  | .answer i o => (w.calls[i]?.bind (answer w o)).map fun p => p.1.setCall i p.2
  | .list i keys =>
    match w.calls[i]? with
    | some (.revoke worker keyId .listing) =>
      if keys.Perm w.bucket.keys then some (w.setCall i (.revoke worker keyId (.listed keys)))
      else none
    | _ => none
  | .resume i => (w.calls[i]?.bind (resume w)).map fun p => p.1.setCall i p.2

end DataService.Keystore
