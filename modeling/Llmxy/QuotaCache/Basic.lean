import Llmxy.Billing.Basic
import Llmxy.Lib.ExpiringStore
import Llmxy.Lib.Proc

/-!
# The Redis quota cache

`app.services.quota_cache` as programs that issue Redis and PostgreSQL commands.
Each key family of the schema is a constructor, so a counter never holds a set:

    wallet:{uid}          int cents          balance_cents
    subq:{sid}            int cents          subscription.remaining_cents
    usubs:{uid}           zset(score=end_at) active sub ids per user
    kused:{kid}:w{ws}     int cents          per-key used in current window
    qhydr:{uid}           lock (5s NX)       hydration mutex

Redis answers every command, so the `except` branches are not modelled.  A
pipeline is one command: `redis-py` sends it as a transaction.

## Main definitions

* `Redis`, `Write`, `World` — the cache, what a pipeline does, and the whole state.
* `Cmd`, `Cmd.Reply`, `exec` — the commands and their meaning.
* `check`, `hasQuotaFast`, `hydrateUserQuota`, `hydrateKeyUsed` — the read path.
* `applyCharge`, `applyTopup`, `applyGrant`, `applyRenew`, `applySubExpire` — the mirrors
  of what was committed.
* `applyWindowRoll`, `invalidateUserQuota`, `resyncOnStartup` — what drops keys.
-/

namespace Llmxy

/-- Microseconds in a second. -/
def sec : ℤ := 1000000

def walletTtl : ℤ := 3600 * sec
def subqTtlFallback : ℤ := 35 * 24 * 3600 * sec
def usubsTtl : ℤ := 3600 * sec
def kusedTtlSlack : ℤ := 3600 * sec
def hydrLockTtl : ℤ := 5 * sec

/-- The keys that hold an integer. -/
inductive CounterKey where
  | wallet (uid : ℤ)
  | subq (sid : ℤ)
  | kused (kid ws : ℤ)
  deriving DecidableEq

/-- The keys that are locks. -/
inductive LockKey where
  | hydr (uid : ℤ)
  | resync
  deriving DecidableEq

/-- A sorted set of subscription ids: pairs of a score and a member, in the order
of the set. -/
abbrev Zset := List (ℤ × ℤ)

/-- The cache. -/
structure Redis where
  counter : Store CounterKey ℤ
  usubs : Store ℤ Zset
  lock : Store LockKey Unit

/-- Scores ascend; members of one score are in the order of their texts. -/
def zle (a b : ℤ × ℤ) : Bool :=
  decide (a.1 < b.1) || (decide (a.1 = b.1) && !decide (showInt b.2 < showInt a.2))

/-- `ZADD` of one member. -/
def zinsert (z : Zset) (x : ℤ × ℤ) : Zset :=
  (z.filter fun y => y.2 ≠ x.2).orderedInsert (fun a b => zle a b = true) x

/-- The writes of a pipeline. -/
inductive Write where
  | set (k : CounterKey) (v ttl : ℤ)
  | del (k : CounterKey)
  | delUsubs (uid : ℤ)
  | zadd (uid : ℤ) (mapping : List (ℤ × ℤ))
  | expireUsubs (uid ttl : ℤ)
  | zrem (uid sid : ℤ)
  | decrIfExists (k : CounterKey) (n : ℤ)
  | incrBy (k : CounterKey) (n : ℤ)
  deriving DecidableEq

/-- One write at the time `now`. -/
def Redis.write (now : ℤ) (r : Redis) : Write → Redis
  | .set k v ttl => { r with counter := r.counter.set now k v ttl }
  | .del k => { r with counter := r.counter.del k }
  | .delUsubs uid => { r with usubs := r.usubs.del uid }
  | .zadd uid mapping =>
      { r with usubs := r.usubs.alterOrCreate now uid [] fun z => mapping.foldl zinsert z }
  | .expireUsubs uid ttl => { r with usubs := r.usubs.expire now uid ttl }
  | .zrem uid sid => { r with usubs := r.usubs.alter now uid (·.filter fun y => y.2 ≠ sid) }
  | .decrIfExists k n => { r with counter := r.counter.alter now k (· - n) }
  | .incrBy k n => { r with counter := r.counter.alterOrCreate now k 0 (· + n) }

/-- A pipeline. -/
def Redis.writes (now : ℤ) (r : Redis) (ws : List Write) : Redis := ws.foldl (Redis.write now) r

/-- Everything a command can see. -/
structure World where
  redis : Redis
  pg : Pg
  now : ℤ

/-- The commands the quota code issues. -/
inductive Cmd where
  /-- `GET` of a counter. -/
  | get (k : CounterKey)
  /-- `ZRANGE usubs:{uid} 0 -1`. -/
  | zrange (uid : ℤ)
  /-- `SET … EX … NX`. -/
  | setNX (l : LockKey) (ttl : ℤ)
  /-- A pipeline, or a single write. -/
  | pipe (ws : List Write)
  /-- `SCAN` and `DEL` of every quota key. -/
  | scanDel
  /-- `datetime.now(timezone.utc)`. -/
  | now
  /-- `db.get(User, uid)`. -/
  | getUser (uid : ℤ)
  /-- `db.get(ApiKey, kid)`. -/
  | getKey (kid : ℤ)
  /-- The user's subscriptions with status `active` and a period end after `now`. -/
  | selectSubs (uid now : ℤ)
  /-- A transaction that loads the user and the key, charges them and commits. -/
  | charge (uid : ℤ) (kid : Option ℤ) (cost : ℤ) (refId note : Option Str)
  /-- `log.warning("has_quota_fast: persistent miss …")`. -/
  | warnPersistentMiss
  deriving DecidableEq

/-- What each command is answered with. -/
abbrev Cmd.Reply : Cmd → Type
  | .get _ => Option ℤ
  | .zrange _ => List ℤ
  | .setNX _ _ => Bool
  | .pipe _ => Unit
  | .scanDel => Unit
  | .now => ℤ
  | .getUser _ => Option User
  | .getKey _ => Option ApiKey
  | .selectSubs _ _ => List Subscription
  | .charge _ _ _ _ _ => Option (List Share)
  | .warnPersistentMiss => Unit

/-- The meaning of the commands. -/
def exec : (c : Cmd) → World → c.Reply × World
  | .get k, w => (w.redis.counter.get w.now k, w)
  | .zrange uid, w => (((w.redis.usubs.get w.now uid).getD []).map Prod.snd, w)
  | .setNX l ttl, w =>
      let r := w.redis.lock.setNX w.now l () ttl
      (r.1, { w with redis := { w.redis with lock := r.2 } })
  | .pipe ws, w => ((), { w with redis := w.redis.writes w.now ws })
  | .scanDel, w => ((), { w with redis :=
      { counter := Store.empty
        usubs := Store.empty
        lock := fun l => match l with
          | .hydr _ => none
          | .resync => w.redis.lock .resync } })
  | .now, w => (w.now, w)
  | .getUser uid, w => (w.pg.users.get? uid, w)
  | .getKey kid, w => (w.pg.apiKeys.get? kid, w)
  | .selectSubs uid now, w => (w.pg.subscriptions.select (Subscription.isOpen uid now), w)
  | .charge uid kid cost refId note, w =>
      match chargeTxn w.pg uid kid cost refId note w.now with
      | some r => (some r.1, { w with pg := r.2 })
      | none => (none, w)
  | .warnPersistentMiss, w => ((), w)

/-- A program of the quota code. -/
abbrev QProc := Proc Cmd Cmd.Reply

/-- Issue a command. -/
def ask (c : Cmd) : QProc c.Reply := Proc.cmd c

/-! ### Hydration -/

/-- The time to live of a `subq` key. -/
def subqTtl (now periodEnd : ℤ) : ℤ :=
  min (max (60 * sec) ((periodEnd - now).tdiv sec * sec + kusedTtlSlack)) subqTtlFallback

/-- The pipeline of a hydration. -/
def hydrateWrites (user : User) (subs : List Subscription) (now : ℤ) : List Write :=
  [.set (.wallet user.id) user.balanceCents walletTtl, .delUsubs user.id] ++
    if subs.isEmpty then []
    else [.zadd user.id (subs.map fun s => (s.currentPeriodEnd, s.id)),
        .expireUsubs user.id usubsTtl] ++
      subs.map fun s => .set (.subq s.id) s.remainingCents (subqTtl now s.currentPeriodEnd)

/-- Load the wallet and the active subscriptions into Redis, at most one at a time
while the lock lasts. -/
def hydrateUserQuota (userId : ℤ) : QProc Unit := do
  let gotLock ← ask (.setNX (.hydr userId) hydrLockTtl)
  if gotLock then
    match ← ask (.getUser userId) with
    | none => pure ()
    | some user =>
        let now ← ask .now
        let subs ← ask (.selectSubs userId now)
        ask (.pipe (hydrateWrites user subs now))
  else pure ()

/-- Load the used counter of a key into Redis. -/
def hydrateKeyUsed (keyId windowStartEpoch : ℤ) : QProc Unit := do
  match ← ask (.getKey keyId) with
  | none => pure ()
  | some row => ask (.pipe [.set (.kused keyId windowStartEpoch) row.usedCents subqTtlFallback])

/-! ### The read path -/

def miss : Bool × Str := (false, str "miss")
def keyExceeded : Bool × Str := (false, str "api key quota exceeded")
def noFunds : Bool × Str := (false, str "no active subscription and insufficient balance")
def okFast : Bool × Str := (true, [])

/-- The verdict on the key's counter, `none` to go on. -/
def checkKey (keyQuotaCents : ℤ) (used : Option ℤ) : Option (Bool × Str) :=
  if 0 < keyQuotaCents then
    match used with
    | none => some miss
    | some u => if keyQuotaCents ≤ u then some keyExceeded else none
  else none

/-- The loop over the subscriptions, `none` to go on. -/
def checkSubs : List ℤ → QProc (Option (Bool × Str))
  | [] => pure none
  | sid :: rest => do
      match ← ask (.get (.subq sid)) with
      | none => pure (some miss)
      | some iv =>
          if iv < 0 then pure (some miss)
          else if 0 < iv then pure (some okFast)
          else checkSubs rest

/-- The verdict on the wallet. -/
def checkWallet (wallet : Option ℤ) : Bool × Str :=
  match wallet with
  | none => miss
  | some wv => if wv < 0 then miss else if 0 < wv then okFast else noFunds

/-- The check against the cache alone. -/
def check (userId keyId keyQuotaCents windowStartEpoch : ℤ) : QProc (Bool × Str) := do
  let used ← ask (.get (.kused keyId windowStartEpoch))
  match checkKey keyQuotaCents used with
  | some r => pure r
  | none =>
      let sids ← ask (.zrange userId)
      match ← checkSubs sids with
      | some r => pure r
      | none => return checkWallet (← ask (.get (.wallet userId)))

/-- The quota check of the hot path: on a miss it hydrates and retries once, and on
a second miss it allows. -/
def hasQuotaFast (userId keyId keyQuotaCents windowStartEpoch : ℤ) : QProc (Bool × Str) := do
  let r ← check userId keyId keyQuotaCents windowStartEpoch
  if r.1 || r.2 ≠ miss.2 then pure r
  else
    hydrateUserQuota userId
    hydrateKeyUsed keyId windowStartEpoch
    let r ← check userId keyId keyQuotaCents windowStartEpoch
    if r.2 = miss.2 then
      ask .warnPersistentMiss
      pure okFast
    else pure r

/-! ### The write path -/

/-- The mirror of one share of a charge. -/
def shareWrites (userId : ℤ) : Share → List Write
  | (.sub, sid, amount) => if amount ≤ 0 then [] else [.decrIfExists (.subq sid) amount]
  | (.wallet, _, amount) => if amount ≤ 0 then [] else [.decrIfExists (.wallet userId) amount]

/-- The pipeline that mirrors a charge. -/
def chargeWrites (userId : ℤ) (keyId : Option ℤ) (costCents windowStartEpoch : ℤ)
    (breakdown : List Share) : List Write :=
  breakdown.flatMap (shareWrites userId) ++
    match keyId with
    | some kid => [.incrBy (.kused kid windowStartEpoch) costCents]
    | none => []

/-- Mirror a committed charge into the counters. -/
def applyCharge (userId : ℤ) (keyId : Option ℤ) (costCents windowStartEpoch : ℤ)
    (breakdown : List Share) : QProc Unit :=
  if costCents ≤ 0 then pure ()
  else ask (.pipe (chargeWrites userId keyId costCents windowStartEpoch breakdown))

/-- Mirror a committed top-up. -/
def applyTopup (userId amountCents : ℤ) : QProc Unit :=
  if amountCents ≤ 0 then pure ()
  else ask (.pipe [.incrBy (.wallet userId) amountCents])

/-- The time to live, in seconds, that a granted subscription gets in the cache. -/
def grantTtl (now endAt : ℤ) : ℤ := max 60 ((endAt - now).tdiv sec + 3600)

/-- The pipeline that mirrors a granted subscription. -/
def grantWrites (userId subId remainingCents endAt now : ℤ) : List Write :=
  [.zadd userId [(endAt, subId)],
    .expireUsubs userId (max 3600 (grantTtl now endAt) * sec),
    .set (.subq subId) remainingCents (subqTtl now endAt)]

/-- Mirror a committed grant. -/
def applyGrant (userId subId remainingCents endAt : ℤ) : QProc Unit := do
  let now ← ask .now
  ask (.pipe (grantWrites userId subId remainingCents endAt now))

/-- Mirror a committed renewal. -/
def applyRenew (userId subId remainingCents endAt : ℤ) : QProc Unit :=
  applyGrant userId subId remainingCents endAt

/-- Mirror the end of a subscription. -/
def applySubExpire (userId subId : ℤ) : QProc Unit :=
  ask (.pipe [.zrem userId subId, .del (.subq subId)])

/-- Drop the counter of a key's old window. -/
def applyWindowRoll (keyId oldWindowStartEpoch : ℤ) : QProc Unit :=
  ask (.pipe [.del (.kused keyId oldWindowStartEpoch)])

/-- The pipeline of an invalidation. -/
def invalidateWrites (userId : ℤ) (sids : List ℤ) : List Write :=
  [.del (.wallet userId), .delUsubs userId] ++ sids.map fun sid => .del (.subq sid)

/-- Drop the cached funds of a user. -/
def invalidateUserQuota (userId : ℤ) : QProc Unit := do
  let sids ← ask (.zrange userId)
  ask (.pipe (invalidateWrites userId sids))

/-- Drop every quota key, once per restart cycle. -/
def resyncOnStartup : QProc Unit := do
  let got ← ask (.setNX .resync (60 * sec))
  if got then ask .scanDel else pure ()

end Llmxy
