import Llmxy.Db.Models

/-!
# The ORM session

A session holds the tables as its transaction sees them, the user and the API key
it has loaded, and the rows it has added.  An attribute of a loaded object knows
whether it was assigned in Python since the last flush:

* a bulk `UPDATE` is mirrored onto an unmodified attribute (`Attr.sync`);
* an attribute assigned in Python is written as an absolute value by the next
  flush (`Attr.assign`, `Sess.flush`), and every statement flushes first.

PostgreSQL checks a row when it is flushed.  A rejected row loses the whole
transaction wherever in it the flush stands, so the check is stated once, at the
commit: `Sess.commit` answers `none` when a row was rejected.

## Main definitions

* `Attr` — an integer attribute with its dirty flag.
* `Sess` — a session, `Sess.start` — with freshly loaded objects.
* `Sess.flush`, `Sess.updateUser`, `Sess.updateKey`, `Sess.updateSub` — statements.
* `Sess.commit`.
-/

namespace Llmxy

/-- An integer attribute of a loaded object. -/
structure Attr where
  /-- What Python reads. -/
  value : ℤ
  /-- Assigned since the last flush. -/
  dirty : Bool
  deriving DecidableEq

namespace Attr

/-- The attribute as the row was read. -/
def load (v : ℤ) : Attr := ⟨v, false⟩

/-- A bulk `UPDATE` is mirrored onto an unmodified attribute. -/
def sync (f : ℤ → ℤ) (a : Attr) : Attr := if a.dirty then a else load (f a.value)

/-- Assignment in Python. -/
def assign (v : ℤ) : Attr := ⟨v, true⟩

@[simp] theorem load_value (v : ℤ) : (load v).value = v := rfl
@[simp] theorem assign_value (v : ℤ) : (assign v).value = v := rfl
@[simp] theorem assign_dirty (v : ℤ) : (assign v).dirty = true := rfl
@[simp] theorem load_dirty (v : ℤ) : (load v).dirty = false := rfl
@[simp] theorem sync_load (f : ℤ → ℤ) (v : ℤ) : (load v).sync f = load (f v) := rfl

end Attr

/-- A loaded `User`. -/
structure UserObj where
  id : ℤ
  balance : Attr
  deriving DecidableEq

/-- A loaded `ApiKey`. -/
structure KeyObj where
  id : ℤ
  used : Attr
  deriving DecidableEq

/-- A session in the middle of its transaction. -/
structure Sess where
  /-- The tables as the transaction sees them. -/
  pg : Pg
  user : UserObj
  apiKey : Option KeyObj
  /-- The rows added so far. -/
  newTx : List BalanceTx
  newLogs : List UsageLog

namespace Sess

/-- A session that has just loaded a user and, if there is one, an API key. -/
def start (pg : Pg) (user : User) (apiKey : Option ApiKey) : Sess where
  pg := pg
  user := ⟨user.id, .load user.balanceCents⟩
  apiKey := apiKey.map fun k => ⟨k.id, .load k.usedCents⟩
  newTx := []
  newLogs := []

/-- `api_key.id`, if a key is loaded. -/
def keyId (s : Sess) : Option ℤ := s.apiKey.map KeyObj.id

/-- Write the modified attributes as absolute values. -/
def flush (s : Sess) : Sess :=
  let users :=
    if s.user.balance.dirty then
      s.pg.users.update s.user.id (User.setBalance fun _ => s.user.balance.value)
    else s.pg.users
  let apiKeys :=
    match s.apiKey with
    | some k =>
        if k.used.dirty then s.pg.apiKeys.update k.id (ApiKey.setUsed fun _ => k.used.value)
        else s.pg.apiKeys
    | none => s.pg.apiKeys
  { s with
    pg := { s.pg with users := users, apiKeys := apiKeys }
    user := { s.user with balance := .load s.user.balance.value }
    apiKey := s.apiKey.map fun k => { k with used := .load k.used.value } }

/-- `UPDATE users SET balance_cents = f … RETURNING balance_cents` for the loaded
user.  `none` is the exception of `scalar_one` when the row is gone. -/
def updateUser (f : ℤ → ℤ) (s : Sess) : Option (ℤ × Sess) :=
  let s := s.flush
  let users := s.pg.users.update s.user.id (User.setBalance f)
  (users.get? s.user.id).map fun row =>
    (row.balanceCents,
      { s with
        pg := { s.pg with users := users }
        user := { s.user with balance := s.user.balance.sync f } })

/-- `user.balance_cents = v`. -/
def assignBalance (v : ℤ) (s : Sess) : Sess :=
  { s with user := { s.user with balance := .assign v } }

/-- `UPDATE api_keys SET used_cents = f …` for a loaded key. -/
def updateKey (k : KeyObj) (f : ℤ → ℤ) (s : Sess) : Sess :=
  let s := s.flush
  { s with
    pg := { s.pg with apiKeys := s.pg.apiKeys.update k.id (ApiKey.setUsed f) }
    apiKey := s.apiKey.map fun k => { k with used := k.used.sync f } }

/-- `api_key.used_cents = f api_key.used_cents`. -/
def assignUsed (f : ℤ → ℤ) (s : Sess) : Sess :=
  { s with apiKey := s.apiKey.map fun k => { k with used := .assign (f k.used.value) } }

/-- `UPDATE subscriptions SET remaining_cents = f … WHERE id = sid`. -/
def updateSub (sid : ℤ) (f : ℤ → ℤ) (s : Sess) : Sess :=
  let s := s.flush
  { s with
    pg := { s.pg with
      subscriptions := s.pg.subscriptions.update sid (Subscription.setRemaining f) } }

/-- `db.add(BalanceTx(...))`. -/
def addTx (b : BalanceTx) (s : Sess) : Sess := { s with newTx := s.newTx ++ [b] }

/-- `db.add(UsageLog(...))`. -/
def addLog (l : UsageLog) (s : Sess) : Sess := { s with newLogs := s.newLogs ++ [l] }

/-- Does PostgreSQL accept every row the session has added? -/
def rowsFit (s : Sess) : Bool :=
  s.newTx.all (BalanceTx.fits s.pg) && s.newLogs.all (UsageLog.fits s.pg)

/-- `await db.commit()`.  `none` when a row was rejected and the transaction is
rolled back. -/
def commit (s : Sess) : Option Pg :=
  let s := s.flush
  if s.rowsFit then
    some { s.pg with
      balanceTx := s.pg.balanceTx ++ s.newTx
      usageLogs := s.pg.usageLogs ++ s.newLogs }
  else none

/-- Nothing is waiting to be flushed. -/
def Clean (s : Sess) : Prop :=
  s.user.balance.dirty = false ∧ ∀ k, s.apiKey = some k → k.used.dirty = false

theorem clean_start (pg : Pg) (user : User) (apiKey : Option ApiKey) :
    (start pg user apiKey).Clean := by
  refine ⟨rfl, fun k hk => ?_⟩
  obtain ⟨r, -, rfl⟩ := Option.map_eq_some_iff.mp hk
  rfl

theorem clean_flush (s : Sess) : s.flush.Clean := by
  refine ⟨rfl, fun k hk => ?_⟩
  obtain ⟨r, -, rfl⟩ := Option.map_eq_some_iff.mp hk
  rfl

/-- Flushing a clean session does nothing. -/
theorem flush_of_clean {s : Sess} (h : s.Clean) : s.flush = s := by
  obtain ⟨pg, ⟨uid, b, bd⟩, key, newTx, newLogs⟩ := s
  obtain ⟨hb, hk⟩ := h
  simp only at hb hk
  subst hb
  cases key with
  | none => rfl
  | some k =>
      obtain ⟨kid, ⟨v, d⟩⟩ := k
      have hd : d = false := hk _ rfl
      subst hd
      rfl

/-- A commit publishes the tables of a clean session. -/
theorem tables_commit {s : Sess} {after : Pg} (hs : s.Clean) (h : s.commit = some after) :
    after.users = s.pg.users ∧ after.apiKeys = s.pg.apiKeys ∧
      after.subscriptions = s.pg.subscriptions := by
  rw [commit, flush_of_clean hs] at h
  split_ifs at h
  cases h
  exact ⟨rfl, rfl, rfl⟩

/-- A commit appends the new rows of a clean session to the balance log. -/
theorem balanceTx_commit {s : Sess} {after : Pg} (hs : s.Clean) (h : s.commit = some after) :
    after.balanceTx = s.pg.balanceTx ++ s.newTx := by
  rw [commit, flush_of_clean hs] at h
  split_ifs at h
  cases h
  rfl

section
variable {s : Sess} {f : ℤ → ℤ} {v sid : ℤ} {k : KeyObj} {b : BalanceTx} {l : UsageLog}

@[simp] theorem subscriptions_flush : s.flush.pg.subscriptions = s.pg.subscriptions := rfl
@[simp] theorem models_flush : s.flush.pg.models = s.pg.models := rfl
@[simp] theorem user_id_flush : s.flush.user.id = s.user.id := rfl
@[simp] theorem user_balance_flush : s.flush.user.balance.value = s.user.balance.value := rfl
@[simp] theorem keyId_flush : s.flush.keyId = s.keyId := by
  simp [keyId, flush, Function.comp_def]
@[simp] theorem newTx_flush : s.flush.newTx = s.newTx := rfl
@[simp] theorem newLogs_flush : s.flush.newLogs = s.newLogs := rfl

@[simp] theorem subscriptions_updateSub : (s.updateSub sid f).pg.subscriptions =
    s.pg.subscriptions.update sid (Subscription.setRemaining f) := rfl
@[simp] theorem user_id_updateSub : (s.updateSub sid f).user.id = s.user.id := rfl
@[simp] theorem user_balance_updateSub :
    (s.updateSub sid f).user.balance.value = s.user.balance.value := rfl
@[simp] theorem newTx_updateSub : (s.updateSub sid f).newTx = s.newTx := rfl
@[simp] theorem newLogs_updateSub : (s.updateSub sid f).newLogs = s.newLogs := rfl

@[simp] theorem subscriptions_updateKey :
    (s.updateKey k f).pg.subscriptions = s.pg.subscriptions := rfl
@[simp] theorem user_id_updateKey : (s.updateKey k f).user.id = s.user.id := rfl
@[simp] theorem keyId_updateKey : (s.updateKey k f).keyId = s.keyId := by
  simp [keyId, updateKey, flush, Function.comp_def]
@[simp] theorem keyId_assignUsed : (s.assignUsed f).keyId = s.keyId := by
  simp [keyId, assignUsed, Function.comp_def]
@[simp] theorem newTx_updateKey : (s.updateKey k f).newTx = s.newTx := rfl
@[simp] theorem newLogs_updateKey : (s.updateKey k f).newLogs = s.newLogs := rfl

@[simp] theorem pg_assignBalance : (s.assignBalance v).pg = s.pg := rfl
@[simp] theorem pg_assignUsed : (s.assignUsed f).pg = s.pg := rfl
@[simp] theorem pg_addTx : (s.addTx b).pg = s.pg := rfl
@[simp] theorem pg_addLog : (s.addLog l).pg = s.pg := rfl
@[simp] theorem user_id_assignBalance : (s.assignBalance v).user.id = s.user.id := rfl
@[simp] theorem user_assignUsed : (s.assignUsed f).user = s.user := rfl
@[simp] theorem user_addTx : (s.addTx b).user = s.user := rfl
@[simp] theorem user_addLog : (s.addLog l).user = s.user := rfl
@[simp] theorem keyId_addTx : (s.addTx b).keyId = s.keyId := rfl
@[simp] theorem keyId_addLog : (s.addLog l).keyId = s.keyId := rfl
@[simp] theorem newTx_addTx : (s.addTx b).newTx = s.newTx ++ [b] := rfl
@[simp] theorem newLogs_addLog : (s.addLog l).newLogs = s.newLogs ++ [l] := rfl
@[simp] theorem newTx_addLog : (s.addLog l).newTx = s.newTx := rfl
@[simp] theorem newLogs_addTx : (s.addTx b).newLogs = s.newLogs := rfl

end
end Sess
end Llmxy
