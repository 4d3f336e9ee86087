import Llmxy.ApiKeys
import Llmxy.Billing.WindowRoll
import Llmxy.Envoy.ExtProc
import Llmxy.Lib.SerialTable

/-!
# Keys, users and their snapshots

One worker process: the requests that change keys and users, the expiry sweep, and the
decisions of the external processor, which reads keys and users through two caches of
snapshots.  A label moves one of them from one await to the next, so a read of the database
and what is done with its answer are two moves.  A flush and its commit are one.

Key hashes are unique and never come again, so the id of a key stands for its hash.  The locks
of rows are left out; without them there are more interleavings.  The echo of an invalidation
over Redis, and an entry that the size limit of a cache pushes out, are entries that are
dropped.

The caller of an endpoint has been authenticated.  The rate limit of a plan, the quota and the
routes are what the label and the request bring.

## Main definitions

* `PrincipalStore` — the rows, the caches and the clock.
* `PrincipalRequest`, `PrincipalPhase`, `DecideStage` — the requests and where they stand.
* `principalProg`, `decideProg`, `principalStep` — the machine.
-/

namespace Llmxy

/-- The committed rows, the two caches of the process, and its clock. -/
structure PrincipalStore where
  keys : SerialTable ApiKey
  users : Table User
  /-- `_apikey_cache`; `none` is `_MISSING`. -/
  keyCache : Store ℤ (Option ApiKeySnapshot)
  /-- `_user_cache`. -/
  userCache : Store ℤ (Option UserSnapshot)
  clock : ℤ

/-- `_APIKEY_TTL` and `_USER_TTL`. -/
def snapshotTtl : ℤ := 30 * sec

/-- The flush of a user that was loaded, and whose status was assigned. -/
def User.flushStatus (loaded : User) (status : UserStatus) : RowUpdate User :=
  ⟨fun row => { row with status := flushed loaded.status status row.status }, fun _ => rfl⟩

/-- These keys expire. -/
def ApiKey.expireIn (ids : List ℤ) : RowUpdate ApiKey :=
  ⟨fun row => if row.id ∈ ids then { row with status := .expired } else row,
    fun row => by dsimp only; split_ifs <;> rfl⟩

namespace PrincipalStore

/-- Nothing is cached. -/
def fresh (keys : SerialTable ApiKey) (users : Table User) : PrincipalStore :=
  ⟨keys, users, .empty, .empty, 0⟩

/-- `_apikey_cache.get`. -/
def keyCached (s : PrincipalStore) (kid : ℤ) : Option (Option ApiKeySnapshot) :=
  s.keyCache.get s.clock kid

/-- `_user_cache.get`. -/
def userCached (s : PrincipalStore) (uid : ℤ) : Option (Option UserSnapshot) :=
  s.userCache.get s.clock uid

/-- `_apikey_cache.set`. -/
def storeKey (kid : ℤ) (snap : Option ApiKeySnapshot) (s : PrincipalStore) : PrincipalStore :=
  { s with keyCache := s.keyCache.set s.clock kid snap snapshotTtl }

/-- `_user_cache.set`. -/
def storeUser (uid : ℤ) (snap : Option UserSnapshot) (s : PrincipalStore) : PrincipalStore :=
  { s with userCache := s.userCache.set s.clock uid snap snapshotTtl }

/-- `update_apikey_snapshot`. -/
def updateApikeySnapshot (row : ApiKey) (s : PrincipalStore) : PrincipalStore :=
  s.storeKey row.id (some row.snapshot)

/-- What `invalidate_apikey` does before it first waits. -/
def invalidateApikey (kid : ℤ) (s : PrincipalStore) : PrincipalStore :=
  { s with keyCache := s.keyCache.del kid }

/-- An entry for a user is dropped. -/
def dropUser (uid : ℤ) (s : PrincipalStore) : PrincipalStore :=
  { s with userCache := s.userCache.del uid }

/-- The flush of a key that was loaded as `loaded` and is now `k`, committed. -/
def saveKey (loaded k : ApiKey) (s : PrincipalStore) : PrincipalStore :=
  { s with keys := s.keys.update loaded.id ⟨loaded.flush k, fun _ => rfl⟩ }

/-- The flush of a user whose status was assigned, committed. -/
def saveUser (loaded : User) (status : UserStatus) (s : PrincipalStore) : PrincipalStore :=
  { s with users := s.users.update loaded.id (loaded.flushStatus status) }

/-- `UPDATE` of the status of these keys, committed. -/
def expireKeys (ids : List ℤ) (s : PrincipalStore) : PrincipalStore :=
  { s with keys := s.keys.updateAll (ApiKey.expireIn ids) }

/-- The keys that the expiry sweep looks for. -/
def overdue (now : ℤ) (s : PrincipalStore) : List ℤ :=
  (s.keys.rows.filter fun row => row.snapshot.needsExpire now).map ApiKey.id

/-- `db.get` of a key that belongs to the user. -/
def ownKey (uid kid : ℤ) (s : PrincipalStore) : Option ApiKey :=
  (s.keys.get? kid).filter (·.userId = uid)

end PrincipalStore

/-! ### Requests -/

/-- What the process does. -/
inductive PrincipalRequest where
  | createKey (uid : ℤ) (req : ApiKeyCreate)
  | updateKey (uid kid : ℤ) (req : ApiKeyUpdate)
  | deleteKey (uid kid : ℤ)
  | disableKey (uid kid : ℤ)
  | enableKey (uid kid : ℤ)
  /-- `_scan_once`. -/
  | scanOnce
  | disableUser (uid : ℤ)
  | enableUser (uid : ℤ)
  /-- `_decide`, for a request whose key has the hash of key `kid`, with what the services
  other than the two caches answer. -/
  | decide (kid : ℤ) (gate : Gate) (req : ClientRequest)

/-- The committed rows of the principal when a decision starts. -/
structure DecisionStart where
  kid : ℤ
  key? : Option ApiKey
  user? : Option User

/-- Where a decision stands. -/
inductive DecideStage where
  /-- The key is not cached. -/
  | keyMissed
  | keyRead (row : Option ApiKey)
  | keyFound (snap : ApiKeySnapshot)
  /-- The snapshot wants an expiry or a roll, as of this time. -/
  | enforcing (snap : ApiKeySnapshot) (now : ℤ)
  | enforceRead (snap : ApiKeySnapshot) (now : ℤ) (row : Option ApiKey)
  | enforceDecided (row : ApiKey) (d : KeyDecision)
  /-- The expiry is committed. -/
  | expired (row : ApiKey)
  /-- The roll is committed. -/
  | rolled (row : ApiKey)
  | rollRead (row : Option ApiKey)
  /-- The state of the key is enforced. -/
  | keyed (snap : ApiKeySnapshot)
  | userMissed (snap : ApiKeySnapshot)
  | userRead (snap : ApiKeySnapshot) (user : Option User)
  | userFound (snap : ApiKeySnapshot) (user : UserSnapshot)

/-- Where a request stands. -/
inductive PrincipalPhase where
  | start
  /-- `create_key` has committed. -/
  | created (kid : ℤ)
  | createdRead (row : ApiKey)
  /-- The object as it was loaded, and as it is now. -/
  | assigned (loaded row : ApiKey)
  /-- The key is committed, and will be refreshed. -/
  | saved (kid : ℤ)
  | refreshed (row : ApiKey)
  | deleting (kid : ℤ)
  /-- The sweep has selected these keys. -/
  | selected (kids : List ℤ) (now : ℤ)
  /-- Its `UPDATE` has found `ids`. -/
  | updating (kids ids : List ℤ)
  /-- These keys are to be invalidated. -/
  | invalidating (kids : List ℤ)
  | userAssigned (loaded : User) (status : UserStatus)
  | deciding (began : DecisionStart) (stage : DecideStage)
  | decided (began : DecisionStart) (d : Decision)
  /-- `_decide` raises this; `none` is an error of the database session. -/
  | raised (e : Option HttpError)
  | done

/-! ### Decisions -/

/-- The snapshot as `_decide` uses it. -/
def ApiKeySnapshot.forGate (snap : ApiKeySnapshot) : KeySnapshot where
  id := snap.id
  userId := snap.userId
  status := snap.status
  quotaCents := snap.quotaCents
  windowStartEpoch := windowStartEpochFor snap

/-- The services, with what the caches have given. -/
def Gate.withSnapshots (gate : Gate) (key : Option ApiKeySnapshot) (user : Option UserSnapshot) :
    Gate :=
  { gate with
    keySnapshot := fun _ => key.map ApiKeySnapshot.forGate
    userSnapshot := fun _ => user }

/-- The rows of key `kid` and of its user. -/
def PrincipalStore.startOf (s : PrincipalStore) (kid : ℤ) : DecisionStart where
  kid := kid
  key? := s.keys.get? kid
  user? := (s.keys.get? kid).bind fun row => s.users.get? row.userId

/-- The request presents something that may be a key. -/
def ClientRequest.presents (req : ClientRequest) : Bool :=
  ((authPlain req.headers).bind orNone).any fun plain => startsWith (str "sk-") plain

/-- What comes of a look-up in the cache of keys. -/
def keyOutcome (began : DecisionStart) (gate : Gate) (req : ClientRequest) :
    Option ApiKeySnapshot → PrincipalPhase
  | none => .decided began (decideRequest (gate.withSnapshots none none) req)
  | some snap => .deciding began (.keyFound snap)

/-- What comes of a look-up in the cache of users. -/
def userOutcome (began : DecisionStart) (gate : Gate) (req : ClientRequest) (snap : ApiKeySnapshot) :
    Option UserSnapshot → PrincipalPhase
  | none => .decided began (decideRequest (gate.withSnapshots (some snap) none) req)
  | some user => .deciding began (.userFound snap user)

/-- `_decide` from one await to the next; `rpm` is the rate limit that is read with a user. -/
def decideProg (gate : Gate) (req : ClientRequest) (wall rpm : ℤ) (began : DecisionStart)
    (s : PrincipalStore) : DecideStage → PrincipalStore × PrincipalPhase
  | .keyMissed => (s, .deciding began (.keyRead (s.keys.get? began.kid)))
  | .keyRead row =>
      let snap := row.map ApiKey.snapshot
      (s.storeKey began.kid snap, keyOutcome began gate req snap)
  | .keyFound snap =>
      if !snap.needsExpire wall && !snap.needsRoll wall then (s, .deciding began (.keyed snap))
      else (s, .deciding began (.enforcing snap wall))
  | .enforcing snap now => (s, .deciding began (.enforceRead snap now (s.keys.get? snap.id)))
  | .enforceRead snap now row =>
      match row with
      | none => (s.invalidateApikey snap.id, .raised (some ⟨401, str "api key not found"⟩))
      | some row =>
          match enforceDecision (snap.needsExpire now) (snap.needsRoll now) now row with
          | none =>
              ((s.updateApikeySnapshot row).invalidateApikey row.id,
                .deciding began (.keyed row.snapshot))
          | some d => (s, .deciding began (.enforceDecided row d))
  | .enforceDecided row d =>
      match s.keys.get? row.id with
      -- the `UPDATE` matches no row, which raises
      | none => (s, .raised none)
      | some _ =>
          (s.saveKey row (d.assign row),
            .deciding began (if d = .expire then .expired (d.assign row) else .rolled row))
  | .expired row =>
      ((s.updateApikeySnapshot row).invalidateApikey row.id,
        .raised (some ⟨401, str "api key expired"⟩))
  | .rolled row => (s, .deciding began (.rollRead (s.keys.get? row.id)))
  | .rollRead row =>
      match row with
      -- the refresh raises
      | none => (s, .raised none)
      | some row =>
          ((s.updateApikeySnapshot row).invalidateApikey row.id,
            .deciding began (.keyed row.snapshot))
  | .keyed snap =>
      if snap.status ≠ .active then
        (s, .decided began (decideRequest (gate.withSnapshots (some snap) none) req))
      else
        match s.userCached snap.userId with
        | none => (s, .deciding began (.userMissed snap))
        | some user => (s, userOutcome began gate req snap user)
  | .userMissed snap => (s, .deciding began (.userRead snap (s.users.get? snap.userId)))
  | .userRead snap user =>
      let found := user.map fun u => ⟨u.status, rpm⟩
      (s.storeUser snap.userId found, userOutcome began gate req snap found)
  | .userFound snap user =>
      (s, .decided began (decideRequest (gate.withSnapshots (some snap) (some user)) req))

/-! ### The machine -/

/-- The first move of a request. -/
def PrincipalRequest.begin (wall : ℤ) (s : PrincipalStore) :
    PrincipalRequest → PrincipalStore × PrincipalPhase
  | .createKey uid req =>
      match req.row uid wall with
      | .error _ => (s, .done)
      | .ok row =>
          ({ s with keys := s.keys.insert (fun id => { row id with id }) fun _ => rfl },
            .created s.keys.nextId)
  | .updateKey uid kid req =>
      match s.ownKey uid kid with
      | none => (s, .done)
      | some row =>
          match req.assign wall row with
          | .error _ => (s, .done)
          | .ok row' => (s, .assigned row row')
  | .deleteKey uid kid =>
      match s.ownKey uid kid with
      | none => (s, .done)
      | some row => (s, .deleting row.id)
  | .disableKey uid kid =>
      match s.ownKey uid kid with
      | none => (s, .done)
      | some row => (s, .assigned row { row with status := .disabled })
  | .enableKey uid kid =>
      match s.ownKey uid kid with
      | none => (s, .done)
      | some row =>
          if row.expiresAt.any fun t => t ≤ wall then (s, .done)
          else (s, .assigned row { row with status := .active })
  | .scanOnce =>
      if (s.overdue wall).isEmpty then (s, .done) else (s, .selected (s.overdue wall) wall)
  | .disableUser uid =>
      match s.users.get? uid with
      | none => (s, .done)
      | some user => (s, .userAssigned user .disabled)
  | .enableUser uid =>
      match s.users.get? uid with
      | none => (s, .done)
      | some user => (s, .userAssigned user .active)
  | .decide kid gate req =>
      let began := s.startOf kid
      if !req.presents then (s, .decided began (decideRequest gate req))
      else
        match s.keyCached kid with
        | none => (s, .deciding began .keyMissed)
        | some snap => (s, keyOutcome began gate req snap)

variable {n : ℕ}

/-- One move of a request. -/
def principalProg (reqs : Fin n → PrincipalRequest) (wall rpm : ℤ) (i : Fin n)
    (s : PrincipalStore) : PrincipalPhase → Option (PrincipalStore × PrincipalPhase)
  | .start => some ((reqs i).begin wall s)
  | .created kid => some (s, (s.keys.get? kid).elim .done .createdRead)
  | .createdRead row => some (s.updateApikeySnapshot row, .done)
  | .assigned loaded row =>
      match s.keys.get? loaded.id with
      -- the `UPDATE` matches no row, which raises
      | none => some (s, .done)
      | some _ => some (s.saveKey loaded row, .saved loaded.id)
  | .saved kid => some (s, (s.keys.get? kid).elim .done .refreshed)
  | .refreshed row => some ((s.updateApikeySnapshot row).invalidateApikey row.id, .done)
  | .deleting kid => some ({ s with keys := s.keys.delete kid }, .invalidating [kid])
  | .selected kids now => some (s, .updating kids (s.overdue now))
  | .updating kids ids => some (s.expireKeys ids, .invalidating kids)
  | .invalidating [] => some (s, .done)
  | .invalidating (kid :: kids) => some (s.invalidateApikey kid, .invalidating kids)
  | .userAssigned loaded status => some (s.saveUser loaded status, .done)
  | .deciding began stage =>
      match reqs i with
      | .decide _ gate req => some (decideProg gate req wall rpm began s stage)
      | _ => none
  | .decided _ _ | .raised _ | .done => none

/-- A move of a request, with the wall clock and the rate limit that it may read; time passes;
an entry is dropped from a cache. -/
inductive PrincipalLabel (n : ℕ) where
  | move (i : Fin n) (wall rpm : ℤ)
  | tick (d : ℕ)
  | dropKey (kid : ℤ)
  | dropUser (uid : ℤ)

/-- The requests on the store. -/
abbrev PrincipalNet (n : ℕ) := Net (Fin n) PrincipalStore PrincipalPhase

/-- One step of the process. -/
def principalStep (reqs : Fin n → PrincipalRequest) (s : PrincipalNet n) :
    PrincipalLabel n → Option (PrincipalNet n)
  | .move i wall rpm => Net.step (principalProg reqs wall rpm) s i
  | .tick d => some { s with shared := { s.shared with clock := s.shared.clock + d } }
  | .dropKey kid => some { s with shared := s.shared.invalidateApikey kid }
  | .dropUser uid => some { s with shared := s.shared.dropUser uid }

/-- The process has just begun. -/
def PrincipalNet.start (keys : SerialTable ApiKey) (users : Table User) : PrincipalNet n :=
  ⟨.fresh keys users, fun _ => .start⟩

end Llmxy
