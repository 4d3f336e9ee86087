import Llmxy.Db.Models
import Llmxy.Lib.Machine
import Llmxy.Lib.UniqueTable

/-!
# Registration and sign-in

A user comes to be by a registration, or by the first sign-in with an account of an OAuth provider
whose e-mail is not that of a user yet.  Such an account is linked to the user, and signs in as
that user from then on.

Every read of an endpoint is followed by an await, so what it has found may be out of date when it
inserts.  Two columns are unique: the e-mail of a user, and the identity of an account.

The profile of an OAuth sign-in is what the provider has answered, with an e-mail that it has
verified; passwords are hashed elsewhere.

## Main definitions

* `AuthUser`, `OAuthAccount`, `AuthStore` — the tables.
* `AuthRequest`, `AuthPhase`, `authStep` — `register` and `_login_or_create_oauth_user`, for many
  requests at once.
* `AuthInv` — the invariant.
* `identity_signs_in_once` — an identity is one user, whatever requests run at once.
-/

namespace Llmxy

/-- `users`, as far as signing in goes. -/
structure AuthUser where
  id : ℤ
  email : Str
  passwordHash : Str
  status : UserStatus
  oauthProvider : Option Str
  oauthUid : Option Str

/-- `OAuthProfile`. -/
structure OAuthProfile where
  provider : Str
  providerUserId : Str
  email : Str

/-- `oauth_accounts`. -/
structure OAuthAccount where
  userId : ℤ
  provider : Str
  providerUserId : Str
  email : Str

/-- The unique columns of an account. -/
def OAuthAccount.identity (account : OAuthAccount) : Str × Str :=
  (account.provider, account.providerUserId)

/-- What a profile is looked up by. -/
def OAuthProfile.identity (profile : OAuthProfile) : Str × Str :=
  (profile.provider, profile.providerUserId)

variable {n : ℕ}

/-- The tables. -/
structure AuthStore (n : ℕ) where
  users : UniqueTable (Fin n) AuthUser
  /-- The next value of the sequence of user ids. -/
  nextUserId : ℤ
  accounts : UniqueTable (Fin n) OAuthAccount
  /-- There is an active plan `free` with a quota. -/
  freePlan : Bool
  /-- The users of the subscriptions that were granted with `signup-free`. -/
  signupGrants : List ℤ

/-- A request. -/
inductive AuthRequest where
  | register (email passwordHash : Str)
  /-- With the hash of the password that nobody knows. -/
  | oauth (profile : OAuthProfile) (passwordHash : Str)
  /-- An admin disables or enables a user. -/
  | setStatus (userId : ℤ) (status : UserStatus)
  /-- An admin changes the plan `free`. -/
  | setFreePlan (offered : Bool)

/-- How far a request is. -/
inductive AuthPhase where
  | start
  /-- The account of the identity has been read. -/
  | accountRead (account : Option OAuthAccount)
  /-- The owner of the account is active. -/
  | ownerRead (account : OAuthAccount) (user : AuthUser)
  /-- There is no user of the e-mail. -/
  | emailFree
  /-- The user has been flushed. -/
  | inserted (user : AuthUser)
  /-- All that is left is to link the account, if there is one, and to commit. -/
  | ready (user : AuthUser) (grant : Bool)
  /-- A token of the user is returned.  `linked` says that the account was linked just now. -/
  | done (userId : ℤ) (linked : Bool)
  /-- It is over without a token. -/
  | ended

/-- The e-mail of a request. -/
def AuthRequest.email : AuthRequest → Str
  | .register email _ => email
  | .oauth profile _ => profile.email
  | _ => []

/-- The user that a request creates. -/
def AuthRequest.newUser (req : AuthRequest) (id : ℤ) : AuthUser where
  id := id
  email := req.email
  passwordHash := match req with
    | .register _ passwordHash | .oauth _ passwordHash => passwordHash
    | _ => []
  status := .active
  oauthProvider := none
  oauthUid := none

/-- `user.oauth_provider = …`, when the user that was read has none. -/
def AuthUser.markProvider (profile : OAuthProfile) (user row : AuthUser) : AuthUser :=
  if row.id = user.id ∧ (user.oauthProvider.getD []).isEmpty then
    { row with oauthProvider := some profile.provider, oauthUid := some profile.providerUserId }
  else row

/-- Commit, with the user that was flushed and its grant. -/
def AuthStore.commitUser (i : Fin n) (user : AuthUser) (grant : Bool) (s : AuthStore n) :
    AuthStore n :=
  { s with
    users := s.users.commit i
    signupGrants := s.signupGrants ++ if grant then [user.id] else [] }

/-- The transaction is rolled back. -/
def AuthStore.rollback (i : Fin n) (s : AuthStore n) : AuthStore n :=
  { s with users := s.users.rollback i }

/-- One await of a request. -/
def authMove (req : AuthRequest) (i : Fin n) (s : AuthStore n) :
    AuthPhase → Option (AuthStore n × AuthPhase)
  | .start =>
      match req with
      | .register email _ =>
          match s.users.find? (·.email) email with
          | some _ => some (s, .ended)
          | none => some (s, .emailFree)
      | .oauth profile _ =>
          some (s, .accountRead (s.accounts.find? OAuthAccount.identity profile.identity))
      | .setStatus userId status =>
          some ({ s with users := s.users.update fun u =>
            if u.id = userId then { u with status := status } else u }, .ended)
      | .setFreePlan offered => some ({ s with freePlan := offered }, .ended)
  | .accountRead (some account) =>
      match (s.users.find? (·.id) account.userId).filter (·.status = .active) with
      | some user => some (s, .ownerRead account user)
      | none => some (s, .ended)
  | .ownerRead account user =>
      some ({ s with accounts := s.accounts.update fun a =>
        if a.identity = account.identity then { a with email := req.email } else a },
        .done user.id false)
  | .accountRead none =>
      match s.users.find? (·.email) req.email with
      | some user => if user.status = .active then some (s, .ready user false)
          else some (s, .ended)
      | none => some (s, .emailFree)
  | .emailFree =>
      -- the id is drawn whether the insert succeeds or not
      (s.users.insert (·.email) i (req.newUser s.nextUserId)).map fun inserted =>
        match inserted with
        | some users => ({ s with users := users, nextUserId := s.nextUserId + 1 },
            .inserted (req.newUser s.nextUserId))
        | none => ({ s with nextUserId := s.nextUserId + 1 }, .ended)
  | .inserted user => some (s, .ready user s.freePlan)
  | .ready user grant =>
      match req with
      | .oauth profile _ =>
          match s.accounts.insert OAuthAccount.identity i
            ⟨user.id, profile.provider, profile.providerUserId, profile.email⟩ with
          | none => none
          | some none => some (s.rollback i, .ended)
          | some (some accounts) =>
              some ({ s.commitUser i user grant with
                users := (s.users.commit i).update (user.markProvider profile)
                accounts := accounts.commit i }, .done user.id true)
      | _ => some (s.commitUser i user grant, .done user.id false)
  | .done _ _ => none
  | .ended => none

/-- The requests of many clients. -/
abbrev AuthNet (n : ℕ) := Net (Fin n) (AuthStore n) AuthPhase

/-- One await of some request. -/
def authStep (reqs : Fin n → AuthRequest) (s : AuthNet n) (i : Fin n) : Option (AuthNet n) :=
  Net.step (fun i s l => authMove (reqs i) i s l) s i

/-- No request has started. -/
def AuthNet.start (s : AuthStore n) : AuthNet n := ⟨s, fun _ => .start⟩

/-! ### The tables -/

/-- **The tables are consistent**: the unique columns are, and what refers to a user refers to one
that has been committed. -/
structure AuthStore.Ok (s : AuthStore n) : Prop where
  emails : s.users.Distinct (·.email)
  ids : s.users.Distinct (·.id)
  rows_lt : ∀ u ∈ s.users.rows, u.id < s.nextUserId
  pending_lt : ∀ i u, s.users.pending i = some u → u.id < s.nextUserId
  identities : s.accounts.Distinct OAuthAccount.identity
  owners : ∀ a ∈ s.accounts.rows, ∃ u ∈ s.users.rows, u.id = a.userId
  grants : s.signupGrants.Nodup
  granted : ∀ id ∈ s.signupGrants, ∃ u ∈ s.users.rows, u.id = id

/-- There is a committed user of this id and e-mail. -/
def AuthStore.HasUser (s : AuthStore n) (id : ℤ) (email : Str) : Prop :=
  ∃ u ∈ s.users.rows, u.id = id ∧ u.email = email

/-- There is an account of this identity, of this user. -/
def AuthStore.HasAccount (s : AuthStore n) (identity : Str × Str) (userId : ℤ) : Prop :=
  ∃ a ∈ s.accounts.rows, a.identity = identity ∧ a.userId = userId

/-- What a request leaves of the tables: users and accounts stay, and so do the users that others
have flushed. -/
structure AuthStore.Grows (i : Fin n) (s t : AuthStore n) : Prop where
  users : ∀ u ∈ s.users.rows, ∃ u' ∈ t.users.rows, u'.id = u.id ∧ u'.email = u.email
  accounts : ∀ a ∈ s.accounts.rows,
    ∃ a' ∈ t.accounts.rows, a'.identity = a.identity ∧ a'.userId = a.userId
  pending : ∀ j, j ≠ i → t.users.pending j = s.users.pending j

section
variable {s t : AuthStore n} {i : Fin n}

theorem AuthStore.Grows.refl (s : AuthStore n) : s.Grows i s :=
  ⟨fun u hu => ⟨u, hu, rfl, rfl⟩, fun a ha => ⟨a, ha, rfl, rfl⟩, fun _ _ => rfl⟩

/-- An update that keeps ids and e-mails. -/
theorem AuthStore.Ok.updateUsers (h : s.Ok) {f : AuthUser → AuthUser} (hid : ∀ u, (f u).id = u.id)
    (hemail : ∀ u, (f u).email = u.email) :
    AuthStore.Ok { s with users := s.users.update f } ∧
      s.Grows i { s with users := s.users.update f } := by
  have hstay : ∀ u ∈ s.users.rows, ∃ u' ∈ (s.users.update f).rows,
      u'.id = u.id ∧ u'.email = u.email :=
    fun u hu => ⟨f u, List.mem_map_of_mem hu, hid u, hemail u⟩
  refine ⟨⟨h.emails.update hemail, h.ids.update hid, fun u hu => ?_, h.pending_lt, h.identities,
    fun a ha => ?_, h.grants, fun id hgrant => ?_⟩, hstay, fun a ha => ⟨a, ha, rfl, rfl⟩,
    fun _ _ => rfl⟩
  · obtain ⟨u, hold, rfl⟩ := List.mem_map.mp hu
    rw [hid]
    exact h.rows_lt u hold
  · obtain ⟨u, hu, hid⟩ := h.owners a ha
    obtain ⟨u', hu', hid', -⟩ := hstay u hu
    exact ⟨u', hu', hid'.trans hid⟩
  · obtain ⟨u, hu, hid⟩ := h.granted id hgrant
    obtain ⟨u', hu', hid', -⟩ := hstay u hu
    exact ⟨u', hu', hid'.trans hid⟩

/-- **A user that is flushed** has a new id, and an e-mail that is nobody's. -/
theorem AuthStore.Ok.insertUser (h : s.Ok) {u : AuthUser} {users : UniqueTable (Fin n) AuthUser}
    (hid : u.id = s.nextUserId)
    (hins : s.users.insert (·.email) i u = some (some users)) :
    AuthStore.Ok { s with users := users, nextUserId := s.nextUserId + 1 } ∧
      s.Grows i { s with users := users, nextUserId := s.nextUserId + 1 } ∧
      users.pending i = some u := by
  have hemails := h.emails.insert hins
  obtain ⟨-, -, rfl⟩ := UniqueTable.insert_eq_some hins
  have hids : UniqueTable.Distinct (·.id)
      { s.users with pending := Function.update s.users.pending i (some u) } := by
    refine h.ids.hold ?_ fun j u' _ hu' heq => ?_
    · rw [List.mem_map]
      rintro ⟨u', hu', heq⟩
      have hlt := h.rows_lt u' hu'
      omega
    · have hlt := h.pending_lt j u' hu'
      omega
  refine ⟨⟨hemails, hids, fun u' hu' => ?_, fun j u' hu' => ?_, h.identities, h.owners, h.grants,
    h.granted⟩, ⟨fun u hu => ⟨u, hu, rfl, rfl⟩, fun a ha => ⟨a, ha, rfl, rfl⟩, fun j hj => ?_⟩,
    Function.update_self i _ _⟩
  · have hlt := h.rows_lt u' hu'
    dsimp only
    omega
  · by_cases hj : j = i
    · subst hj
      obtain rfl : u = u' := by simpa using hu'
      dsimp only
      omega
    · have hlt := h.pending_lt j u' (by simpa [hj] using hu')
      dsimp only
      omega
  · exact Function.update_of_ne hj _ _

/-- **A commit** makes the user that was flushed a user, with its grant. -/
theorem AuthStore.Ok.commitUser (h : s.Ok) {user : AuthUser} {grant : Bool}
    (hgrant : grant = true → s.users.pending i = some user) :
    (s.commitUser i user grant).Ok ∧ s.Grows i (s.commitUser i user grant) := by
  have hstay : ∀ u ∈ s.users.rows, u ∈ (s.users.commit i).rows :=
    fun u hu => UniqueTable.mem_commit.mpr (.inl hu)
  refine ⟨⟨h.emails.commit i, h.ids.commit i, fun u hu => ?_, fun j u hu => ?_, h.identities,
    fun a ha => ?_, ?_, fun id hid => ?_⟩, fun u hu => ⟨u, hstay u hu, rfl, rfl⟩,
    fun a ha => ⟨a, ha, rfl, rfl⟩, fun j hj => Function.update_of_ne hj _ _⟩
  · obtain hu | hu := UniqueTable.mem_commit.mp hu
    · exact h.rows_lt u hu
    · exact h.pending_lt i u hu
  · exact h.pending_lt j u (UniqueTable.pending_of_ended hu).2
  · obtain ⟨u, hu, hid⟩ := h.owners a ha
    exact ⟨u, hstay u hu, hid⟩
  · cases grant with
    | false => simpa [AuthStore.commitUser] using h.grants
    | true =>
        rw [AuthStore.commitUser, if_pos rfl]
        refine List.nodup_append.mpr ⟨h.grants, List.nodup_singleton _, fun a ha b hb hab => ?_⟩
        -- the id of a user that is not committed yet
        obtain ⟨u, hu, hid⟩ := h.granted a ha
        refine h.ids.pending i user (hgrant rfl) ?_
        rw [← List.mem_singleton.mp hb, ← hab, ← hid]
        exact List.mem_map_of_mem hu
  · rw [AuthStore.commitUser, List.mem_append] at hid
    obtain hid | hid := hid
    · obtain ⟨u, hu, hid⟩ := h.granted id hid
      exact ⟨u, hstay u hu, hid⟩
    · cases grant with
      | false => exact absurd hid List.not_mem_nil
      | true =>
          rw [if_pos rfl, List.mem_singleton] at hid
          exact ⟨user, UniqueTable.mem_commit.mpr (.inr (hgrant rfl)), hid.symm⟩

theorem AuthStore.Ok.rollback (h : s.Ok) : (s.rollback i).Ok ∧ s.Grows i (s.rollback i) :=
  ⟨⟨h.emails.rollback i, h.ids.rollback i, h.rows_lt,
    fun j u hu => h.pending_lt j u (UniqueTable.pending_of_ended hu).2, h.identities, h.owners,
    h.grants, h.granted⟩, fun u hu => ⟨u, hu, rfl, rfl⟩, fun a ha => ⟨a, ha, rfl, rfl⟩,
    fun _ hj => Function.update_of_ne hj _ _⟩

/-- **An account that is linked** has an identity that is nobody's. -/
theorem AuthStore.Ok.linkAccount (h : s.Ok) {account : OAuthAccount}
    {accounts : UniqueTable (Fin n) OAuthAccount}
    (howner : ∃ u ∈ s.users.rows, u.id = account.userId)
    (hins : s.accounts.insert OAuthAccount.identity i account = some (some accounts)) :
    AuthStore.Ok { s with accounts := accounts.commit i } ∧
      s.Grows i { s with accounts := accounts.commit i } ∧
      AuthStore.HasAccount { s with accounts := accounts.commit i } account.identity
        account.userId := by
  have hidentities := (h.identities.insert hins).commit i
  obtain ⟨-, -, rfl⟩ := UniqueTable.insert_eq_some hins
  refine ⟨⟨h.emails, h.ids, h.rows_lt, h.pending_lt, hidentities, fun a ha => ?_, h.grants,
    h.granted⟩, ⟨fun u hu => ⟨u, hu, rfl, rfl⟩,
    fun a ha => ⟨a, UniqueTable.mem_commit.mpr (.inl ha), rfl, rfl⟩, fun _ _ => rfl⟩,
    account, ?_, rfl, rfl⟩
  · obtain ha | ha := UniqueTable.mem_commit.mp ha
    · exact h.owners a ha
    · obtain rfl : account = a := by simpa using ha
      exact howner
  · exact UniqueTable.mem_commit.mpr (.inr (Function.update_self i _ _))

/-- The e-mail of an account is brought up to date. -/
theorem AuthStore.Ok.updateAccounts (h : s.Ok) {f : OAuthAccount → OAuthAccount}
    (hidentity : ∀ a, (f a).identity = a.identity) (huser : ∀ a, (f a).userId = a.userId) :
    AuthStore.Ok { s with accounts := s.accounts.update f } ∧
      s.Grows i { s with accounts := s.accounts.update f } := by
  refine ⟨⟨h.emails, h.ids, h.rows_lt, h.pending_lt, h.identities.update hidentity,
    fun a ha => ?_, h.grants, h.granted⟩, fun u hu => ⟨u, hu, rfl, rfl⟩,
    fun a ha => ⟨f a, List.mem_map_of_mem ha, hidentity a, huser a⟩, fun _ _ => rfl⟩
  obtain ⟨a, hold, rfl⟩ := List.mem_map.mp ha
  rw [huser]
  exact h.owners a hold

theorem AuthStore.Grows.trans {u : AuthStore n} (h : s.Grows i t) (h' : t.Grows i u) :
    s.Grows i u := by
  refine ⟨fun r hr => ?_, fun a ha => ?_, fun j hj => (h'.pending j hj).trans (h.pending j hj)⟩
  · obtain ⟨r', hr', hid, hemail⟩ := h.users r hr
    obtain ⟨r'', hr'', hid', hemail'⟩ := h'.users r' hr'
    exact ⟨r'', hr'', hid'.trans hid, hemail'.trans hemail⟩
  · obtain ⟨a', ha', hidentity, huser⟩ := h.accounts a ha
    obtain ⟨a'', ha'', hidentity', huser'⟩ := h'.accounts a' ha'
    exact ⟨a'', ha'', hidentity'.trans hidentity, huser'.trans huser⟩

end

/-! ### What a request knows -/

/-- The identity that a request signs in with. -/
def AuthRequest.identity? : AuthRequest → Option (Str × Str)
  | .oauth profile _ => some profile.identity
  | _ => none

/-- What a request knows of the tables, whatever others do. -/
def AuthPhase.Holds (req : AuthRequest) (i : Fin n) (s : AuthStore n) : AuthPhase → Prop
  | .start | .accountRead none | .emailFree | .ended => s.users.pending i = none
  | .accountRead (some account) => s.users.pending i = none ∧
      req.identity? = some account.identity ∧ s.HasAccount account.identity account.userId
  | .ownerRead account user => s.users.pending i = none ∧ user.id = account.userId ∧
      req.identity? = some account.identity ∧ s.HasAccount account.identity account.userId
  | .inserted user => s.users.pending i = some user ∧ user.email = req.email
  | .ready user grant => s.users.pending i = some user ∧ user.email = req.email ∨
      s.users.pending i = none ∧ grant = false ∧ s.HasUser user.id req.email
  | .done userId linked => s.users.pending i = none ∧
      (∀ identity, req.identity? = some identity → s.HasAccount identity userId) ∧
      (linked = true ∨ req.identity? = none → s.HasUser userId req.email)

section
variable {s t : AuthStore n} {i j : Fin n} {req : AuthRequest} {l l' : AuthPhase}

theorem AuthStore.Grows.hasUser (h : s.Grows i t) {id : ℤ} {email : Str}
    (hs : s.HasUser id email) : t.HasUser id email := by
  obtain ⟨u, hu, rfl, rfl⟩ := hs
  exact h.users u hu

theorem AuthStore.Grows.hasAccount (h : s.Grows i t) {identity : Str × Str} {userId : ℤ}
    (hs : s.HasAccount identity userId) : t.HasAccount identity userId := by
  obtain ⟨a, ha, rfl, rfl⟩ := hs
  exact h.accounts a ha

/-- A move of another request leaves it. -/
theorem AuthPhase.Holds.mono (h : l.Holds req j s) (hgrows : s.Grows i t) (hj : j ≠ i) :
    l.Holds req j t := by
  have hpending := hgrows.pending j hj
  cases l with
  | start => exact hpending.trans h
  | emailFree => exact hpending.trans h
  | ended => exact hpending.trans h
  | inserted user => exact ⟨hpending.trans h.1, h.2⟩
  | accountRead account =>
      cases account with
      | none => exact hpending.trans h
      | some account => exact ⟨hpending.trans h.1, h.2.1, hgrows.hasAccount h.2.2⟩
  | ownerRead account user =>
      exact ⟨hpending.trans h.1, h.2.1, h.2.2.1, hgrows.hasAccount h.2.2.2⟩
  | ready user grant =>
      exact h.imp (fun h => ⟨hpending.trans h.1, h.2⟩)
        fun h => ⟨hpending.trans h.1, h.2.1, hgrows.hasUser h.2.2⟩
  | done userId linked =>
      exact ⟨hpending.trans h.1, fun identity hid => hgrows.hasAccount (h.2.1 identity hid),
        fun hlinked => hgrows.hasUser (h.2.2 hlinked)⟩

theorem authMove_start (h : s.Ok) (hl : AuthPhase.Holds req i s .start)
    (hmove : authMove req i s .start = some (t, l')) : t.Ok ∧ s.Grows i t ∧ l'.Holds req i t := by
  cases req with
  | register email passwordHash =>
      rw [authMove] at hmove
      cases hfind : s.users.find? (·.email) email with
      | some u =>
          rw [hfind] at hmove
          cases hmove
          exact ⟨h, .refl s, hl⟩
      | none =>
          rw [hfind] at hmove
          cases hmove
          exact ⟨h, .refl s, hl⟩
  | oauth profile passwordHash =>
      cases hmove
      refine ⟨h, .refl s, ?_⟩
      cases hfind : s.accounts.find? OAuthAccount.identity profile.identity with
      | none => exact hl
      | some account =>
          obtain ⟨hmem, hidentity⟩ := UniqueTable.find?_eq_some hfind
          exact ⟨hl, congrArg some hidentity.symm, account, hmem, rfl, rfl⟩
  | setStatus userId status =>
      cases hmove
      obtain ⟨hok, hgrows⟩ := h.updateUsers (i := i)
        (f := fun u => if u.id = userId then { u with status := status } else u)
        (fun u => by split_ifs <;> rfl) fun u => by split_ifs <;> rfl
      exact ⟨hok, hgrows, hl⟩
  | setFreePlan offered =>
      cases hmove
      exact ⟨⟨h.emails, h.ids, h.rows_lt, h.pending_lt, h.identities, h.owners, h.grants,
        h.granted⟩, ⟨fun u hu => ⟨u, hu, rfl, rfl⟩, fun a ha => ⟨a, ha, rfl, rfl⟩,
        fun _ _ => rfl⟩, hl⟩

theorem authMove_ready (h : s.Ok) {user : AuthUser} {grant : Bool}
    (hl : AuthPhase.Holds req i s (.ready user grant))
    (hmove : authMove req i s (.ready user grant) = some (t, l')) :
    t.Ok ∧ s.Grows i t ∧ l'.Holds req i t := by
  have hgrant : grant = true → s.users.pending i = some user := by
    rintro rfl
    obtain hl | hl := hl
    · exact hl.1
    · cases hl.2.1
  obtain ⟨hok, hgrows⟩ := h.commitUser hgrant
  -- the user is committed now, if it was not before
  have huser : (s.commitUser i user grant).HasUser user.id req.email := by
    obtain ⟨hpending, hemail⟩ | ⟨-, -, hstored⟩ := hl
    · exact ⟨user, UniqueTable.mem_commit.mpr (.inr hpending), rfl, hemail⟩
    · exact hgrows.hasUser hstored
  have hfree : (s.commitUser i user grant).users.pending i = none := Function.update_self i _ _
  cases req with
  | oauth profile passwordHash =>
      rw [authMove] at hmove
      obtain ⟨hmarked, hgrows'⟩ := hok.updateUsers (i := i) (f := user.markProvider profile)
        (fun u => by rw [AuthUser.markProvider]; split_ifs <;> rfl)
        fun u => by rw [AuthUser.markProvider]; split_ifs <;> rfl
      split at hmove
      · cases hmove
      · cases hmove
        obtain ⟨hok, hgrows⟩ := h.rollback (i := i)
        exact ⟨hok, hgrows, Function.update_self i _ _⟩
      next accounts hins =>
        cases hmove
        have howner := hgrows'.hasUser huser
        obtain ⟨hlinked, hgrows'', haccount⟩ := hmarked.linkAccount (i := i)
          (howner.imp fun u hu => ⟨hu.1, hu.2.1⟩) hins
        refine ⟨hlinked, (hgrows.trans hgrows').trans hgrows'', hfree, fun identity hid => ?_,
          fun _ => hgrows''.hasUser howner⟩
        obtain rfl := Option.some.inj hid
        exact haccount
  | register email passwordHash =>
      cases hmove
      exact ⟨hok, hgrows, hfree, (fun _ hid => by cases hid), fun _ => huser⟩
  | setStatus userId status =>
      cases hmove
      exact ⟨hok, hgrows, hfree, (fun _ hid => by cases hid), fun _ => huser⟩
  | setFreePlan offered =>
      cases hmove
      exact ⟨hok, hgrows, hfree, (fun _ hid => by cases hid), fun _ => huser⟩

/-- **One await of a request** keeps the tables consistent and leaves what others know. -/
theorem authMove_spec (h : s.Ok) (hl : l.Holds req i s)
    (hmove : authMove req i s l = some (t, l')) :
    t.Ok ∧ s.Grows i t ∧ l'.Holds req i t := by
  cases l with
  | start => exact authMove_start h hl hmove
  | ready user grant => exact authMove_ready h hl hmove
  | done userId linked => cases hmove
  | ended => cases hmove
  | inserted user =>
      cases hmove
      exact ⟨h, .refl s, .inl hl⟩
  | emailFree =>
      obtain ⟨inserted, hins, hmove⟩ := Option.map_eq_some_iff.mp hmove
      cases inserted with
      | none =>
          cases hmove
          refine ⟨⟨h.emails, h.ids, fun u hu => ?_, fun j u hu => ?_, h.identities, h.owners,
            h.grants, h.granted⟩, ⟨fun u hu => ⟨u, hu, rfl, rfl⟩,
            fun a ha => ⟨a, ha, rfl, rfl⟩, fun _ _ => rfl⟩, hl⟩
          · exact (h.rows_lt u hu).trans (Int.lt_succ _)
          · exact (h.pending_lt j u hu).trans (Int.lt_succ _)
      | some users =>
          cases hmove
          obtain ⟨hok, hgrows, hpending⟩ := h.insertUser rfl hins
          exact ⟨hok, hgrows, hpending, rfl⟩
  | ownerRead account user =>
      cases hmove
      obtain ⟨hfree, hid, hidentity, haccount⟩ := hl
      obtain ⟨hok, hgrows⟩ := h.updateAccounts (i := i)
        (f := fun a => if a.identity = account.identity then { a with email := req.email } else a)
        (fun a => by split_ifs <;> rfl) fun a => by split_ifs <;> rfl
      refine ⟨hok, hgrows, hfree, fun identity hreq => ?_, fun hlinked => ?_⟩
      · rw [hidentity] at hreq
        obtain rfl := Option.some.inj hreq
        rw [hid]
        exact hgrows.hasAccount haccount
      · obtain hlinked | hnone := hlinked
        · cases hlinked
        · rw [hnone] at hidentity
          cases hidentity
  | accountRead account =>
      cases account with
      | some account =>
          obtain ⟨hfree, hidentity, haccount⟩ := hl
          rw [authMove] at hmove
          cases howner : (s.users.find? (·.id) account.userId).filter (·.status = .active) with
          | none =>
              rw [howner] at hmove
              cases hmove
              exact ⟨h, .refl s, hfree⟩
          | some user =>
              rw [howner] at hmove
              cases hmove
              have hid := (UniqueTable.find?_eq_some (Option.filter_eq_some_iff.mp howner).1).2
              exact ⟨h, .refl s, hfree, hid, hidentity, haccount⟩
      | none =>
          rw [authMove] at hmove
          cases hfind : s.users.find? (·.email) req.email with
          | none =>
              rw [hfind] at hmove
              cases hmove
              exact ⟨h, .refl s, hl⟩
          | some user =>
              obtain ⟨hmem, hemail⟩ := UniqueTable.find?_eq_some hfind
              rw [hfind] at hmove
              dsimp only at hmove
              split_ifs at hmove
              · cases hmove
                exact ⟨h, .refl s, .inr ⟨hl, rfl, user, hmem, rfl, hemail⟩⟩
              · cases hmove
                exact ⟨h, .refl s, hl⟩

end

/-! ### Whole runs -/

section
variable {reqs : Fin n → AuthRequest} {s : AuthNet n} {as : List (Fin n)}

/-- The tables are consistent, and every request knows what it knows. -/
structure AuthInv (reqs : Fin n → AuthRequest) (s : AuthNet n) : Prop where
  ok : s.shared.Ok
  holds : ∀ i, (s.loc i).Holds (reqs i) i s.shared

theorem AuthInv.step {i : Fin n} {t : AuthNet n} (h : AuthInv reqs s)
    (hstep : authStep reqs s i = some t) : AuthInv reqs t := by
  obtain ⟨sh, l, hmove, rfl⟩ := Net.step_eq_some.mp hstep
  obtain ⟨hok, hgrows, hholds⟩ := authMove_spec h.ok (h.holds i) hmove
  refine ⟨hok, fun j => ?_⟩
  by_cases hj : j = i
  · subst hj
    simpa using hholds
  · simpa [hj] using (h.holds j).mono hgrows hj

/-- **An identity is one user.**  Requests that register and sign in run at once, and admins
disable users and change the plan.  Afterwards, as at any moment in between, no two users have one
e-mail, and no user has been granted the free plan twice; all requests that signed in with one
identity got a token of the same user; and a request that has registered, or linked its identity,
got a token of the user that has its e-mail. -/
theorem identity_signs_in_once (reqs : Fin n → AuthRequest) (store : AuthStore n)
    (as : List (Fin n)) (s : AuthNet n) (hok : store.Ok)
    (hidle : ∀ i, store.users.pending i = none)
    (hrun : run (authStep reqs) as (.start store) = some s) :
    (s.shared.users.rows.map (·.email)).Nodup ∧ s.shared.signupGrants.Nodup ∧
      (∀ i j identity uid uid' linked linked', (reqs i).identity? = some identity →
        (reqs j).identity? = some identity → s.loc i = .done uid linked →
        s.loc j = .done uid' linked' → uid = uid') ∧
      ∀ i uid linked, s.loc i = .done uid linked → linked = true ∨ (reqs i).identity? = none →
        ∃ u, s.shared.users.find? (·.email) (reqs i).email = some u ∧ u.id = uid := by
  have hstart : AuthInv reqs (.start store) := ⟨hok, hidle⟩
  have hinv : AuthInv reqs s := run_induction (fun _ _ _ h hstep => h.step hstep) hstart hrun
  refine ⟨hinv.ok.emails.rows, hinv.ok.grants, ?_, fun i uid linked hdone hlinked => ?_⟩
  · intro i j identity uid uid' linked linked' hi hj hdone hdone'
    have hholds := hinv.holds i
    have hholds' := hinv.holds j
    rw [hdone] at hholds
    rw [hdone'] at hholds'
    obtain ⟨a, ha, hidentity, rfl⟩ := hholds.2.1 identity hi
    obtain ⟨a', ha', hidentity', rfl⟩ := hholds'.2.1 identity hj
    rw [List.inj_on_of_nodup_map hinv.ok.identities.rows ha ha'
      (hidentity.trans hidentity'.symm)]
  · have hholds := hinv.holds i
    rw [hdone] at hholds
    obtain ⟨u, hu, hid, hemail⟩ := hholds.2.2 hlinked
    refine ⟨u, ?_, hid⟩
    rw [← hemail]
    exact hinv.ok.emails.find?_of_mem hu

end

/-! ### Two sign-ins at once -/

/-- No users yet. -/
def noUsers (n : ℕ) : AuthStore n := ⟨.idle [], 1, .idle [], true, []⟩

theorem ok_noUsers (n : ℕ) : (noUsers n).Ok where
  emails := UniqueTable.distinct_idle List.nodup_nil
  ids := UniqueTable.distinct_idle List.nodup_nil
  rows_lt _ h := absurd h List.not_mem_nil
  pending_lt _ _ h := by cases h
  identities := UniqueTable.distinct_idle List.nodup_nil
  owners _ h := absurd h List.not_mem_nil
  grants := List.nodup_nil
  granted _ h := absurd h List.not_mem_nil

/-- A first sign-in, sent twice, and a registration with its e-mail. -/
def firstSignIns : Fin 3 → AuthRequest :=
  ![.oauth ⟨str "github", str "7", str "a@b.c"⟩ (str "x"),
    .oauth ⟨str "github", str "7", str "a@b.c"⟩ (str "y"), .register (str "a@b.c") (str "z")]

/-- All three find the e-mail free, and one of them creates the user. -/
theorem identity_signs_in_once_two :
    ∃ s, run (authStep firstSignIns) [0, 1, 2, 0, 1, 0, 0, 0, 1, 2] (.start (noUsers 3)) = some s ∧
      s.shared.signupGrants.Nodup ∧
      ∃ u, s.shared.users.find? (·.email) (str "a@b.c") = some u ∧ u.id = 1 := by
  have hrun : run (authStep firstSignIns) [0, 1, 2, 0, 1, 0, 0, 0, 1, 2] (.start (noUsers 3)) =
      some _ := rfl
  obtain ⟨-, hgrants, -, hdone⟩ := identity_signs_in_once firstSignIns (noUsers 3) _ _
    (ok_noUsers 3) (fun _ => rfl) hrun
  exact ⟨_, hrun, hgrants, hdone 0 1 true rfl (.inl rfl)⟩

end Llmxy
