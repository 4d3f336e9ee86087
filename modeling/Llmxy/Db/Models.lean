import Llmxy.Lib.Table
import Llmxy.Lib.Text

/-!
# Rows and the database

The rows of `app.models` that the modelled code reads or writes, with the columns
it uses, and `Pg`, the committed content of PostgreSQL.

Amounts are integer cents and instants are integer microseconds.  A status that
the source keeps in a plain string column stays a string here; the `enum.Enum`
columns are inductive types.  `Row.fits` are the checks of PostgreSQL on what is
inserted: the length of a `VARCHAR`, the range of an `INTEGER` and the rows a foreign
key names.  The range of a `BIGINT` is not checked.

## Main definitions

* `User`, `ApiKey`, `Plan`, `Subscription`, `Order`, `Model`, `BalanceTx`,
  `UsageLog` — the rows.
* `Pg` — the tables.
* `int4Fits`, `numbersFit` — the range of the `INTEGER` columns.
* `BalanceTx.fits`, `UsageLog.fits` — what PostgreSQL accepts.
-/

namespace Llmxy

/-- A text read from a `VARCHAR(n)` column. -/
abbrev Varchar (n : ℕ) := { s : Str // s.length ≤ n }

inductive UserStatus where
  | active | disabled
  deriving DecidableEq

inductive KeyStatus where
  | active | disabled | expired
  deriving DecidableEq

inductive QuotaMode where
  | untilDepleted | periodic
  deriving DecidableEq

inductive QuotaPeriod where
  | day | week | month
  deriving DecidableEq

inductive OrderStatus where
  | pending | paid | canceled | refunded
  deriving DecidableEq

/-- `PaymentChannel`. -/
inductive PaymentChannel where
  | alipay | wechat | stripe | manual
  deriving DecidableEq

/-- The text of a channel. -/
def PaymentChannel.value : PaymentChannel → Str
  | .alipay => str "alipay"
  | .wechat => str "wechat"
  | .stripe => str "stripe"
  | .manual => str "manual"

inductive BalanceTxType where
  | topup | consume | refund | grant
  deriving DecidableEq

/-- `users`. -/
structure User where
  id : ℤ
  balanceCents : ℤ
  status : UserStatus
  deriving DecidableEq

/-- `api_keys`.  A `quotaCents` of zero is unlimited; the period and its window are set
on periodic keys only. -/
structure ApiKey where
  id : ℤ
  userId : ℤ
  status : KeyStatus
  quotaCents : ℤ
  usedCents : ℤ
  quotaMode : QuotaMode
  quotaPeriod : Option QuotaPeriod
  quotaPeriodStart : Option ℤ
  quotaPeriodEnd : Option ℤ
  expiresAt : Option ℤ
  deriving DecidableEq

/-- `plans`.  `planType` is `"recurring"` or `"one_time"`; a one-time plan may limit the
purchases of one user. -/
structure Plan where
  id : ℤ
  code : Str
  planType : Str
  priceCents : ℤ
  quotaCents : ℤ
  durationDays : ℤ
  maxPurchasesPerUser : Option ℤ
  active : Bool
  deriving DecidableEq

/-- `subscriptions`.  `status` is `active`, `past_due`, `canceled` or `expired`. -/
structure Subscription where
  id : ℤ
  userId : ℤ
  planId : ℤ
  startAt : ℤ
  currentPeriodStart : ℤ
  currentPeriodEnd : ℤ
  status : Str
  remainingCents : ℤ
  cancelAtPeriodEnd : Bool
  canceledAt : Option ℤ
  lastRenewalAt : Option ℤ
  lastRenewalError : Option Str
  deriving DecidableEq

/-- `orders`. -/
structure Order where
  id : ℤ
  userId : ℤ
  planId : Option ℤ
  amountCents : ℤ
  channel : PaymentChannel
  status : OrderStatus
  providerOrderId : Option Str
  paidAt : Option ℤ
  deriving DecidableEq

/-- `models`, with the token rates in micro-cents for 1000 tokens. -/
structure Model where
  id : ℤ
  code : Varchar 128
  upstreamModel : Varchar 128
  kind : Str
  promptRate : ℤ
  completionRate : ℤ
  enabled : Bool
  deriving DecidableEq

/-- `balance_tx`. -/
structure BalanceTx where
  userId : ℤ
  type : BalanceTxType
  amountCents : ℤ
  balanceAfter : ℤ
  refId : Option Str
  note : Option Str
  deriving DecidableEq

/-- `usage_logs`, for the token modalities. -/
structure UsageLog where
  userId : ℤ
  apiKeyId : Option ℤ
  modelId : Option ℤ
  userFacingModel : Option Str
  upstreamModel : Option Str
  promptTokens : ℤ
  completionTokens : ℤ
  costCents : ℤ
  latencyMs : ℤ
  status : Str
  requestId : Option Str
  kind : Str
  resolvedLabel : Option Str
  deriving DecidableEq

instance : HasId User := ⟨User.id⟩
instance : HasId ApiKey := ⟨ApiKey.id⟩
instance : HasId Plan := ⟨Plan.id⟩
instance : HasId Subscription := ⟨Subscription.id⟩
instance : HasId Order := ⟨Order.id⟩
instance : HasId Model := ⟨Model.id⟩

/-- The committed tables. -/
structure Pg where
  users : Table User
  apiKeys : Table ApiKey
  plans : Table Plan
  subscriptions : Table Subscription
  orders : Table Order
  models : Table Model
  balanceTx : List BalanceTx
  usageLogs : List UsageLog

/-! ### Column updates -/

/-- `balance_cents := f balance_cents`. -/
def User.setBalance (f : ℤ → ℤ) : RowUpdate User :=
  ⟨fun u => { u with balanceCents := f u.balanceCents }, fun _ => rfl⟩

/-- `used_cents := f used_cents`. -/
def ApiKey.setUsed (f : ℤ → ℤ) : RowUpdate ApiKey :=
  ⟨fun k => { k with usedCents := f k.usedCents }, fun _ => rfl⟩

/-- `remaining_cents := f remaining_cents`. -/
def Subscription.setRemaining (f : ℤ → ℤ) : RowUpdate Subscription :=
  ⟨fun s => { s with remainingCents := f s.remainingCents }, fun _ => rfl⟩

/-- The columns of a loaded subscription, written back. -/
def Subscription.save (sub : Subscription) : RowUpdate Subscription :=
  ⟨fun s => { sub with id := s.id }, fun _ => rfl⟩

@[simp] theorem User.setBalance_val (f : ℤ → ℤ) (u : User) :
    (User.setBalance f).1 u = { u with balanceCents := f u.balanceCents } := rfl

@[simp] theorem ApiKey.setUsed_val (f : ℤ → ℤ) (k : ApiKey) :
    (ApiKey.setUsed f).1 k = { k with usedCents := f k.usedCents } := rfl

@[simp] theorem Subscription.setRemaining_val (f : ℤ → ℤ) (s : Subscription) :
    (Subscription.setRemaining f).1 s = { s with remainingCents := f s.remainingCents } := rfl

@[simp] theorem Subscription.save_val (sub s : Subscription) :
    sub.save.1 s = { sub with id := s.id } := rfl

@[simp] theorem User.rowId_eq (u : User) : rowId u = u.id := rfl
@[simp] theorem ApiKey.rowId_eq (k : ApiKey) : rowId k = k.id := rfl
@[simp] theorem Subscription.rowId_eq (s : Subscription) : rowId s = s.id := rfl
@[simp] theorem Order.rowId_eq (o : Order) : rowId o = o.id := rfl

/-! ### What PostgreSQL accepts -/

/-- A nullable `VARCHAR(n)`. -/
def varcharFits (n : ℕ) (v : Option Str) : Bool := v.all fun s => s.length ≤ n

/-- An `INTEGER`. -/
def int4Fits (v : ℤ) : Bool := decide (-2147483648 ≤ v) && decide (v ≤ 2147483647)

/-- The four `INTEGER` columns of `usage_logs`. -/
def numbersFit (promptTokens completionTokens costCents latencyMs : ℤ) : Bool :=
  int4Fits promptTokens && int4Fits completionTokens && int4Fits costCents && int4Fits latencyMs

/-- A nullable foreign key. -/
def Table.refers {ρ : Type} [HasId ρ] (t : Table ρ) (k : Option ℤ) : Bool :=
  k.all fun k => (t.get? k).isSome

/-- The database has the rows of the same ids. -/
structure SameIds (pg pg' : Pg) : Prop where
  users : ∀ k, pg'.users.refers k = pg.users.refers k
  apiKeys : ∀ k, pg'.apiKeys.refers k = pg.apiKeys.refers k
  models : ∀ k, pg'.models.refers k = pg.models.refers k

/-- Can the row be inserted? -/
def BalanceTx.fits (pg : Pg) (b : BalanceTx) : Bool :=
  pg.users.refers (some b.userId) && varcharFits 64 b.refId && varcharFits 256 b.note

/-- Can the row be inserted? -/
def UsageLog.fits (pg : Pg) (l : UsageLog) : Bool :=
  pg.users.refers (some l.userId) && pg.apiKeys.refers l.apiKeyId && pg.models.refers l.modelId &&
    varcharFits 128 l.userFacingModel && varcharFits 128 l.upstreamModel &&
    varcharFits 32 (some l.status) && varcharFits 64 l.requestId && varcharFits 16 (some l.kind) &&
    varcharFits 64 l.resolvedLabel &&
    numbersFit l.promptTokens l.completionTokens l.costCents l.latencyMs

theorem SameIds.refl (pg : Pg) : SameIds pg pg := ⟨fun _ => rfl, fun _ => rfl, fun _ => rfl⟩

theorem SameIds.trans {pg pg' pg'' : Pg} (h : SameIds pg pg') (h' : SameIds pg' pg'') :
    SameIds pg pg'' :=
  ⟨fun k => (h'.users k).trans (h.users k), fun k => (h'.apiKeys k).trans (h.apiKeys k),
    fun k => (h'.models k).trans (h.models k)⟩

/-- Which rows can be inserted depends on the ids alone. -/
theorem SameIds.fits_log {pg pg' : Pg} (h : SameIds pg pg') (l : UsageLog) :
    l.fits pg' = l.fits pg := by
  rw [UsageLog.fits, UsageLog.fits, h.users, h.apiKeys, h.models]

/-- An update keeps the ids of a table. -/
theorem Table.refers_update {ρ : Type} [HasId ρ] (t : Table ρ) (k : ℤ) (f : RowUpdate ρ)
    (x : Option ℤ) : (t.update k f).refers x = t.refers x := by
  cases x with
  | none => rfl
  | some x =>
      simp only [Table.refers, Option.all_some, Table.get?_update]
      split_ifs <;> simp

theorem Table.refers_of_get? {ρ : Type} [HasId ρ] {t : Table ρ} {k : ℤ} {r : ρ}
    (h : t.get? k = some r) : t.refers (some k) = true := by
  simp [Table.refers, h]

theorem varcharFits_some {n : ℕ} {s : Str} : varcharFits n (some s) = true ↔ s.length ≤ n := by
  simp [varcharFits]

end Llmxy
