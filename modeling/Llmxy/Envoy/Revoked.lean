import Llmxy.Envoy.Principals

/-!
# Decisions about a principal that is out of use

A key that is disabled, deleted or expired is evicted by the request that did it, some awaits
after its commit; a user that is disabled is not evicted at all.  A snapshot that was read
before a commit may be stored after it.  So a decision may let a request pass whose key or
user was out of use when the decision started.

The invariant says that a cached snapshot which is active is that of an active row, but for
keys whose invalidation is under way, and that a decision under way has found nothing active
that was not active when it started.

## Main definitions

* `Orderly` — a step that does none of what goes wrong.
* `SnapshotInv` — the invariant.
* `decided_of_orderly` — no decision of an orderly run lets a principal pass that was out of
  use when it started.
-/

namespace Llmxy

/-- The key is in use. -/
def KeyActive (keys : SerialTable ApiKey) (kid : ℤ) : Prop :=
  ∃ row, keys.get? kid = some row ∧ row.status = .active

/-- The user is in use. -/
def UserActive (users : Table User) (uid : ℤ) : Prop :=
  ∃ user, users.get? uid = some user ∧ user.status = .active

/-- The key was in use when the decision started. -/
def DecisionStart.KeyWasActive (began : DecisionStart) : Prop :=
  ∃ row, began.key? = some row ∧ row.status = .active

/-- So was its user. -/
def DecisionStart.UserWasActive (began : DecisionStart) : Prop :=
  ∃ user, began.user? = some user ∧ user.status = .active

/-- The request has committed a change of the key, and will invalidate it. -/
def PrincipalPhase.Invalidates (keys : SerialTable ApiKey) (kid : ℤ) : PrincipalPhase → Prop
  -- the refresh raises when the row is gone
  | .saved k => k = kid ∧ (keys.get? kid).isSome = true
  | .refreshed row => row.id = kid
  | .invalidating kids => kid ∈ kids
  | .deciding _ (.expired row) => row.id = kid
  | _ => False

variable {n : ℕ}

/-- Some request will. -/
def PrincipalNet.Dirty (s : PrincipalNet n) (kid : ℤ) : Prop :=
  ∃ i, (s.loc i).Invalidates s.shared.keys kid

/-- The decision that is under way. -/
def PrincipalPhase.began? : PrincipalPhase → Option DecisionStart
  | .deciding began _ => some began
  | _ => none

/-- The decision of `i` is under way. -/
def PrincipalNet.Decides (s : PrincipalNet n) (i : Fin n) (began : DecisionStart) : Prop :=
  (s.loc i).began? = some began

/-- The first move of a request: no decision is under way about a key that is created, and a
decision does not start on a cached snapshot of a key that was taken out of use and is still
to be invalidated. -/
def PrincipalRequest.OrderlyBegin (s : PrincipalNet n) : PrincipalRequest → Prop
  | .createKey _ _ => ∀ i began, s.Decides i began → began.kid ≠ s.shared.keys.nextId
  | .decide kid _ _ => ∀ snap, s.shared.keyCached kid = some (some snap) → snap.status = .active →
      s.Dirty kid → KeyActive s.shared.keys kid
  | _ => True

/-- A move of a request. -/
def PrincipalPhase.Orderly (s : PrincipalNet n) (req : PrincipalRequest) : PrincipalPhase → Prop
  | .start => req.OrderlyBegin s
  -- a snapshot that is stored is still that of an active row, or will be invalidated
  | .createdRead row => row.status = .active →
      KeyActive s.shared.keys row.id ∨ s.Dirty row.id
  | .deciding began (.keyRead (some row)) => row.status = .active →
      KeyActive s.shared.keys began.kid ∨ s.Dirty began.kid
  | .deciding _ (.userRead snap (some user)) => user.status = .active →
      UserActive s.shared.users snap.userId
  -- a key or a user that is enabled has no decision under way that started before
  | .assigned loaded row => loaded.status ≠ .active → row.status = .active →
      ∀ i began, s.Decides i began → began.kid = loaded.id → began.KeyWasActive
  | .userAssigned loaded .active => loaded.status ≠ .active →
      ∀ i began, s.Decides i began → ∀ row ∈ began.key?, row.userId = loaded.id → began.UserWasActive
  -- a user that is disabled is not cached as active
  | .userAssigned loaded .disabled => loaded.status ≠ .disabled →
      ∀ user, s.shared.userCached loaded.id = some (some user) → user.status ≠ .active
  -- the sweep expires keys that it has selected
  | .updating kids ids => ids ⊆ kids
  | _ => True

/-- An orderly step. -/
def Orderly (reqs : Fin n → PrincipalRequest) (s : PrincipalNet n) : PrincipalLabel n → Prop
  | .move i _ _ => (s.loc i).Orderly s (reqs i)
  | _ => True

/-! ### The conditions can be checked -/

section
variable {keys : SerialTable ApiKey} {users : Table User} {kid uid : ℤ} {s : PrincipalNet n}

instance : Decidable (KeyActive keys kid) :=
  decidable_of_iff ((keys.get? kid).any fun row => row.status = .active) (by
    simp [KeyActive, Option.any_eq_true])

instance : Decidable (UserActive users uid) :=
  decidable_of_iff ((users.get? uid).any fun user => user.status = .active) (by
    simp [UserActive, Option.any_eq_true])

instance (began : DecisionStart) : Decidable began.KeyWasActive :=
  decidable_of_iff (began.key?.any fun row => row.status = .active) (by
    simp [DecisionStart.KeyWasActive, Option.any_eq_true])

instance (began : DecisionStart) : Decidable began.UserWasActive :=
  decidable_of_iff (began.user?.any fun user => user.status = .active) (by
    simp [DecisionStart.UserWasActive, Option.any_eq_true])

instance decidableInvalidates : (p : PrincipalPhase) → Decidable (p.Invalidates keys kid)
  | .saved k => inferInstanceAs (Decidable (k = kid ∧ (keys.get? kid).isSome = true))
  | .refreshed row => inferInstanceAs (Decidable (row.id = kid))
  | .invalidating kids => inferInstanceAs (Decidable (kid ∈ kids))
  | .deciding _ stage =>
      match stage with
      | .expired row => inferInstanceAs (Decidable (row.id = kid))
      | .keyMissed | .keyRead _ | .keyFound _ | .enforcing _ _ | .enforceRead _ _ _
      | .enforceDecided _ _ | .rolled _ | .rollRead _ | .keyed _ | .userMissed _ | .userRead _ _
      | .userFound _ _ => isFalse id
  | .start | .created _ | .createdRead _ | .assigned _ _ | .deleting _ | .selected _ _
  | .updating _ _ | .userAssigned _ _ | .decided _ _ | .raised _ | .done => isFalse id

instance : Decidable (s.Dirty kid) :=
  inferInstanceAs (Decidable (∃ i, (s.loc i).Invalidates s.shared.keys kid))

instance decidableDecides (P : DecisionStart → Prop) [DecidablePred P] :
    Decidable (∀ i began, s.Decides i began → P began) :=
  inferInstanceAs (Decidable (∀ i, ∀ began ∈ (s.loc i).began?, P began))

instance decidableOrderlyBegin : (req : PrincipalRequest) → Decidable (req.OrderlyBegin s)
  | .createKey _ _ => decidableDecides fun began => began.kid ≠ s.shared.keys.nextId
  | .decide kid _ _ =>
      decidable_of_iff (∀ snap ∈ (s.shared.keyCached kid).join, snap.status = .active →
        s.Dirty kid → KeyActive s.shared.keys kid) (by
          simp [PrincipalRequest.OrderlyBegin, Option.join_eq_some_iff])
  | .updateKey _ _ _ | .deleteKey _ _ | .disableKey _ _ | .enableKey _ _ | .scanOnce
  | .disableUser _ | .enableUser _ => isTrue trivial

instance decidableOrderlyPhase (req : PrincipalRequest) :
    (p : PrincipalPhase) → Decidable (p.Orderly s req)
  | .start => decidableOrderlyBegin req
  | .createdRead row => inferInstanceAs (Decidable (row.status = .active →
      KeyActive s.shared.keys row.id ∨ s.Dirty row.id))
  | .deciding began stage =>
      match stage with
      | .keyRead (some row) => inferInstanceAs (Decidable (row.status = .active →
          KeyActive s.shared.keys began.kid ∨ s.Dirty began.kid))
      | .userRead snap (some user) => inferInstanceAs (Decidable (user.status = .active →
          UserActive s.shared.users snap.userId))
      | .keyRead none | .userRead _ none | .keyMissed | .keyFound _ | .enforcing _ _
      | .enforceRead _ _ _ | .enforceDecided _ _ | .expired _ | .rolled _ | .rollRead _ | .keyed _
      | .userMissed _ | .userFound _ _ => isTrue trivial
  | .assigned loaded row =>
      have := decidableDecides (s := s) fun began => began.kid = loaded.id → began.KeyWasActive
      inferInstanceAs (Decidable (loaded.status ≠ .active → row.status = .active → _))
  | .userAssigned loaded .active =>
      have := decidableDecides (s := s) fun began =>
        ∀ row ∈ began.key?, row.userId = loaded.id → began.UserWasActive
      inferInstanceAs (Decidable (loaded.status ≠ .active → _))
  | .userAssigned loaded .disabled =>
      decidable_of_iff (loaded.status ≠ .disabled →
        ∀ user ∈ (s.shared.userCached loaded.id).join, user.status ≠ .active) (by
          simp [PrincipalPhase.Orderly, Option.join_eq_some_iff])
  | .updating kids ids => inferInstanceAs (Decidable (ids ⊆ kids))
  | .created _ | .saved _ | .refreshed _ | .deleting _ | .selected _ _ | .invalidating _
  | .decided _ _ | .raised _ | .done => isTrue trivial

instance decidableOrderly (reqs : Fin n → PrincipalRequest) :
    (a : PrincipalLabel n) → Decidable (Orderly reqs s a)
  | .move i _ _ => decidableOrderlyPhase (reqs i) (s.loc i)
  | .tick _ | .dropKey _ | .dropUser _ => isTrue trivial

end

/-! ### The invariant -/

/-- The key belongs to the user, if it is there. -/
def OwnedBy (keys : SerialTable ApiKey) (kid uid : ℤ) : Prop :=
  kid < keys.nextId ∧ ∀ row, keys.get? kid = some row → row.userId = uid

/-- The key was in use when the decision started, and belonged to the user. -/
def DecisionStart.Entitles (began : DecisionStart) (uid : ℤ) : Prop :=
  ∃ row, began.key? = some row ∧ row.status = .active ∧ row.userId = uid

/-- What is active while a decision is under way was active when it started. -/
structure DecisionStart.Holds (began : DecisionStart) (keys : SerialTable ApiKey)
    (users : Table User) : Prop where
  owner : ∀ row, began.key? = some row → OwnedBy keys began.kid row.userId
  key : KeyActive keys began.kid → began.KeyWasActive
  user : ∀ row, began.key? = some row → UserActive users row.userId → began.UserWasActive

/-- What a decision has found was active when it started, if it is active. -/
def DecideStage.Found (began : DecisionStart) (keys : SerialTable ApiKey) : DecideStage → Prop
  | .keyRead row => ∀ row', row = some row' → row'.id = began.kid ∧
      OwnedBy keys began.kid row'.userId ∧ (row'.status = .active → began.Entitles row'.userId)
  | .keyFound snap | .enforcing snap _ | .enforceRead snap _ none =>
      snap.id = began.kid ∧ (snap.status = .active → began.Entitles snap.userId)
  | .enforceRead _ _ (some row) =>
      row.id = began.kid ∧ (row.status = .active → began.Entitles row.userId)
  | .rollRead row => ∀ row', row = some row' → row'.status = .active → began.Entitles row'.userId
  | .enforceDecided row _ | .rolled row => row.id = began.kid
  | .keyed snap => snap.status = .active → began.Entitles snap.userId
  | .userMissed snap => began.Entitles snap.userId
  | .userRead snap user => began.Entitles snap.userId ∧
      ∀ user', user = some user' → user'.status = .active → began.UserWasActive
  | .userFound snap user =>
      began.Entitles snap.userId ∧ (user.status = .active → began.UserWasActive)
  | _ => True

/-- What a request knows. -/
def PrincipalPhase.Knows (keys : SerialTable ApiKey) (users : Table User) : PrincipalPhase → Prop
  | .createdRead row => OwnedBy keys row.id row.userId
  | .assigned loaded row => row.userId = loaded.userId
  | .deciding began stage => began.Holds keys users ∧ stage.Found began keys
  | .decided began (.allow _) => began.KeyWasActive ∧ began.UserWasActive
  | _ => True

/-- The invariant of the machine. -/
structure SnapshotInv (s : PrincipalNet n) : Prop where
  owner : ∀ kid snap, s.shared.keyCached kid = some (some snap) →
    snap.id = kid ∧ OwnedBy s.shared.keys kid snap.userId
  key : ∀ kid snap, s.shared.keyCached kid = some (some snap) → snap.status = .active →
    KeyActive s.shared.keys kid ∨ s.Dirty kid
  user : ∀ uid user, s.shared.userCached uid = some (some user) → user.status = .active →
    UserActive s.shared.users uid
  phase : ∀ i, (s.loc i).Knows s.shared.keys s.shared.users

/-! ### The caches -/

section
variable {s : PrincipalStore} {kid uid : ℤ}

theorem keyCached_storeKey {snap cached : Option ApiKeySnapshot} {kid' : ℤ}
    (h : (s.storeKey kid snap).keyCached kid' = some cached) :
    (kid' = kid ∧ cached = snap) ∨ s.keyCached kid' = some cached :=
  Store.get_set_cases h

theorem userCached_storeUser {user cached : Option UserSnapshot} {uid' : ℤ}
    (h : (s.storeUser uid user).userCached uid' = some cached) :
    (uid' = uid ∧ cached = user) ∨ s.userCached uid' = some cached :=
  Store.get_set_cases h

theorem keyCached_invalidate {kid' : ℤ} : (s.invalidateApikey kid).keyCached kid' =
    if kid' = kid then none else s.keyCached kid' := Store.get_del

theorem userCached_dropUser {uid' : ℤ} : (s.dropUser uid).userCached uid' =
    if uid' = uid then none else s.userCached uid' := Store.get_del

/-- A snapshot that is written and then invalidated is not there. -/
theorem keyCached_refresh {row : ApiKey} {kid' : ℤ} :
    ((s.updateApikeySnapshot row).invalidateApikey row.id).keyCached kid' =
      if kid' = row.id then none else s.keyCached kid' := by
  rw [keyCached_invalidate]
  split_ifs with hkid
  · rfl
  · exact Store.get_set_other hkid

end

/-! ### The rows -/

section
variable {keys keys' : SerialTable ApiKey} {users : Table User} {kid uid : ℤ}

/-- The keys that are there were there before, with their users. -/
structure KeysPersist (keys keys' : SerialTable ApiKey) : Prop where
  nextId : keys.nextId ≤ keys'.nextId
  row : ∀ kid < keys.nextId, ∀ row', keys'.get? kid = some row' →
    ∃ row, keys.get? kid = some row ∧ row'.userId = row.userId

theorem KeysPersist.refl (keys : SerialTable ApiKey) : KeysPersist keys keys :=
  ⟨le_rfl, fun _ _ row' h => ⟨row', h, rfl⟩⟩

theorem OwnedBy.persist (h : OwnedBy keys kid uid) (hkeys : KeysPersist keys keys') :
    OwnedBy keys' kid uid := by
  refine ⟨h.1.trans_le hkeys.nextId, fun row' hrow' => ?_⟩
  obtain ⟨row, hrow, huser⟩ := hkeys.row kid h.1 row' hrow'
  exact huser.trans (h.2 row hrow)

theorem ownedBy_of_get? {row : ApiKey} (h : keys.get? kid = some row) :
    OwnedBy keys kid row.userId := by
  refine ⟨SerialTable.lt_of_get? h, fun row' h' => ?_⟩
  rw [h] at h'
  rw [Option.some.inj h']

theorem id_of_get? {row : ApiKey} (h : keys.get? kid = some row) : row.id = kid :=
  (SerialTable.get?_eq_some.mp h).2

/-- What a decision finds in the table is entitled, if it is active. -/
theorem DecisionStart.Holds.entitles {began : DecisionStart} {row : ApiKey}
    (h : began.Holds keys users) (hrow : keys.get? began.kid = some row)
    (hactive : row.status = .active) : began.Entitles row.userId := by
  obtain ⟨row₀, hrow₀, hactive₀⟩ := h.key ⟨row, hrow, hactive⟩
  exact ⟨row₀, hrow₀, hactive₀, ((h.owner row₀ hrow₀).2 row hrow).symm⟩

/-- The user of an entitled snapshot was active if it is. -/
theorem DecisionStart.Holds.userWasActive {began : DecisionStart}
    (h : began.Holds keys users) (hentitles : began.Entitles uid) (hactive : UserActive users uid) :
    began.UserWasActive := by
  obtain ⟨row, hrow, -, rfl⟩ := hentitles
  exact h.user row hrow hactive

theorem DecisionStart.Entitles.keyWasActive {began : DecisionStart} (h : began.Entitles uid) :
    began.KeyWasActive := by
  obtain ⟨row, hrow, hactive, -⟩ := h
  exact ⟨row, hrow, hactive⟩

end

/-! ### Moves that commit nothing -/

section
variable {s : PrincipalNet n} {i : Fin n} {sh : PrincipalStore} {l : PrincipalPhase} {kid : ℤ}

/-- What is to be invalidated after a move. -/
theorem dirty_move (h : s.Dirty kid)
    (hi : (s.loc i).Invalidates s.shared.keys kid → l.Invalidates sh.keys kid)
    (hother : ∀ p : PrincipalPhase, p.Invalidates s.shared.keys kid → p.Invalidates sh.keys kid) :
    PrincipalNet.Dirty ⟨sh, Function.update s.loc i l⟩ kid := by
  obtain ⟨j, hj⟩ := h
  refine ⟨j, ?_⟩
  dsimp only
  by_cases hji : j = i
  · subst hji
    rw [Function.update_self]
    exact hi hj
  · rw [Function.update_of_ne hji]
    exact hother _ hj

/-- The request that moved invalidates what its phase says. -/
theorem dirty_self (h : l.Invalidates sh.keys kid) :
    PrincipalNet.Dirty ⟨sh, Function.update s.loc i l⟩ kid :=
  ⟨i, by dsimp only; rw [Function.update_self]; exact h⟩

/-- What the requests know after a move. -/
theorem knows_move (hother : ∀ j, (s.loc j).Knows sh.keys sh.users) (hi : l.Knows sh.keys sh.users)
    (j : Fin n) : (Function.update s.loc i l j).Knows sh.keys sh.users := by
  by_cases hj : j = i
  · subst hj
    rw [Function.update_self]
    exact hi
  · rw [Function.update_of_ne hj]
    exact hother j

/-- **A move that commits nothing** and adds nothing to the caches. -/
theorem SnapshotInv.quiet (h : SnapshotInv s) (hkeys : sh.keys = s.shared.keys)
    (husers : sh.users = s.shared.users)
    (hkey : ∀ kid snap, sh.keyCached kid = some (some snap) →
      s.shared.keyCached kid = some (some snap) ∧
        ((s.loc i).Invalidates s.shared.keys kid → l.Invalidates s.shared.keys kid))
    (huser : ∀ uid user, sh.userCached uid = some (some user) →
      s.shared.userCached uid = some (some user))
    (hi : l.Knows s.shared.keys s.shared.users) :
    SnapshotInv ⟨sh, Function.update s.loc i l⟩ := by
  refine ⟨fun kid snap hcached => ?_, fun kid snap hcached hactive => ?_,
    fun uid user hcached hactive => ?_, knows_move ?_ ?_⟩
  · rw [hkeys]
    exact h.owner kid snap (hkey kid snap hcached).1
  · rw [hkeys]
    obtain ⟨hcached, hi⟩ := hkey kid snap hcached
    refine (h.key kid snap hcached hactive).imp_right fun hdirty => dirty_move hdirty ?_ ?_
    · rw [hkeys]
      exact hi
    · rw [hkeys]
      exact fun _ h => h
  · rw [husers]
    exact h.user uid user (huser uid user hcached) hactive
  · rw [hkeys, husers]
    exact h.phase
  · rw [hkeys, husers]
    exact hi

/-- A move that changes nothing but the phase of a request that invalidates nothing. -/
theorem SnapshotInv.wait (h : SnapshotInv s)
    (hnone : ∀ kid, ¬(s.loc i).Invalidates s.shared.keys kid)
    (hi : l.Knows s.shared.keys s.shared.users) :
    SnapshotInv ⟨s.shared, Function.update s.loc i l⟩ :=
  h.quiet rfl rfl (fun kid _ hcached => ⟨hcached, fun hinv => absurd hinv (hnone kid)⟩)
    (fun _ _ hcached => hcached) hi

/-- A key is refreshed and then invalidated. -/
theorem SnapshotInv.refresh {row : ApiKey} (h : SnapshotInv s)
    (honly : ∀ kid, (s.loc i).Invalidates s.shared.keys kid → kid = row.id)
    (hi : l.Knows s.shared.keys s.shared.users) :
    SnapshotInv ⟨(s.shared.updateApikeySnapshot row).invalidateApikey row.id,
      Function.update s.loc i l⟩ := by
  refine h.quiet rfl rfl (fun kid snap hcached => ?_) (fun _ _ hcached => hcached) hi
  rw [keyCached_refresh] at hcached
  split_ifs at hcached with hkid
  exact ⟨hcached, fun hinv => absurd (honly kid hinv) hkid⟩

/-- A key is invalidated. -/
theorem SnapshotInv.invalidate (h : SnapshotInv s)
    (honly : ∀ kid', (s.loc i).Invalidates s.shared.keys kid' → kid' = kid ∨
      l.Invalidates s.shared.keys kid')
    (hi : l.Knows s.shared.keys s.shared.users) :
    SnapshotInv ⟨s.shared.invalidateApikey kid, Function.update s.loc i l⟩ := by
  refine h.quiet rfl rfl (fun kid' snap hcached => ?_) (fun _ _ hcached => hcached) hi
  rw [keyCached_invalidate] at hcached
  split_ifs at hcached with hkid
  exact ⟨hcached, fun hinv => (honly kid' hinv).resolve_left hkid⟩

/-- **A key that is stored** is its user's, and active only if its row is or it will be
invalidated. -/
theorem SnapshotInv.storeKey {snap : Option ApiKeySnapshot} (h : SnapshotInv s)
    (hnone : ∀ kid, ¬(s.loc i).Invalidates s.shared.keys kid)
    (hsnap : ∀ snap', snap = some snap' → snap'.id = kid ∧
      OwnedBy s.shared.keys kid snap'.userId ∧
      (snap'.status = .active → KeyActive s.shared.keys kid ∨ s.Dirty kid))
    (hi : l.Knows s.shared.keys s.shared.users) :
    SnapshotInv ⟨s.shared.storeKey kid snap, Function.update s.loc i l⟩ := by
  have hdirty : ∀ {kid}, s.Dirty kid →
      PrincipalNet.Dirty ⟨s.shared.storeKey kid snap, Function.update s.loc i l⟩ kid :=
    fun hdirty => dirty_move hdirty (fun hinv => absurd hinv (hnone _)) fun _ h => h
  refine ⟨fun kid' snap' hcached => ?_, fun kid' snap' hcached hactive => ?_,
    h.user, knows_move h.phase hi⟩
  · obtain ⟨rfl, heq⟩ | hcached := keyCached_storeKey hcached
    · obtain ⟨hid, howned, -⟩ := hsnap snap' heq.symm
      exact ⟨hid, howned⟩
    · exact h.owner kid' snap' hcached
  · obtain ⟨rfl, heq⟩ | hcached := keyCached_storeKey hcached
    · exact ((hsnap snap' heq.symm).2.2 hactive).imp_right hdirty
    · exact (h.key kid' snap' hcached hactive).imp_right
        fun hd => dirty_move hd (fun hinv => absurd hinv (hnone _)) fun _ h => h

/-- **A user that is stored** is active only if the row is. -/
theorem SnapshotInv.storeUser {uid : ℤ} {user : Option UserSnapshot} (h : SnapshotInv s)
    (hnone : ∀ kid, ¬(s.loc i).Invalidates s.shared.keys kid)
    (huser : ∀ user', user = some user' → user'.status = .active → UserActive s.shared.users uid)
    (hi : l.Knows s.shared.keys s.shared.users) :
    SnapshotInv ⟨s.shared.storeUser uid user, Function.update s.loc i l⟩ := by
  refine ⟨h.owner, fun kid snap hcached hactive => ?_, fun uid' user' hcached hactive => ?_,
    knows_move h.phase hi⟩
  · exact (h.key kid snap hcached hactive).imp_right
      fun hd => dirty_move hd (fun hinv => absurd hinv (hnone _)) fun _ h => h
  · obtain ⟨rfl, heq⟩ | hcached := userCached_storeUser hcached
    · exact huser user' heq.symm hactive
    · exact h.user uid' user' hcached hactive

end

/-! ### Commits -/

section
variable {s : PrincipalNet n} {i : Fin n} {l : PrincipalPhase} {keys' : SerialTable ApiKey}
  {users' : Table User}

/-- A request invalidates a key as long as the row is there. -/
theorem PrincipalPhase.Invalidates.congr {p : PrincipalPhase} {keys : SerialTable ApiKey} {kid : ℤ}
    (h : p.Invalidates keys kid)
    (hthere : (keys.get? kid).isSome = true → (keys'.get? kid).isSome = true) :
    p.Invalidates keys' kid := by
  unfold PrincipalPhase.Invalidates at h ⊢
  split at h
  · exact ⟨h.1, hthere h.2⟩
  all_goals exact h

theorem DecideStage.Found.persist {began : DecisionStart} {keys : SerialTable ApiKey}
    {stage : DecideStage} (h : stage.Found began keys) (hkeys : KeysPersist keys keys') :
    stage.Found began keys' := by
  unfold DecideStage.Found at h ⊢
  split at h
  · intro row hrow
    obtain ⟨hid, howned, hentitles⟩ := h row hrow
    exact ⟨hid, howned.persist hkeys, hentitles⟩
  all_goals exact h

/-- What a decision under way holds to after a commit of keys. -/
theorem DecisionStart.Holds.commitKeys {began : DecisionStart} {keys : SerialTable ApiKey}
    {users : Table User} (h : began.Holds keys users) (hkeys : KeysPersist keys keys')
    (hflight : KeyActive keys' began.kid → KeyActive keys began.kid ∨ began.KeyWasActive) :
    began.Holds keys' users :=
  ⟨fun row hrow => (h.owner row hrow).persist hkeys, fun hactive => (hflight hactive).elim h.key id,
    h.user⟩

/-- **A commit of keys**: a key that it takes out of use or deletes will be invalidated, and one
that it brings into use has no decision under way that started before. -/
theorem SnapshotInv.commitKeys (h : SnapshotInv s) (hkeys : KeysPersist s.shared.keys keys')
    (hnone : ∀ kid, ¬(s.loc i).Invalidates s.shared.keys kid)
    (hthere : ∀ kid, (s.shared.keys.get? kid).isSome = true →
      (keys'.get? kid).isSome = true ∨ l.Invalidates keys' kid)
    (hkeep : ∀ kid, KeyActive s.shared.keys kid →
      KeyActive keys' kid ∨ l.Invalidates keys' kid)
    (hflight : ∀ j began, s.Decides j began → KeyActive keys' began.kid →
      KeyActive s.shared.keys began.kid ∨ began.KeyWasActive)
    (hi : l.Knows keys' s.shared.users) :
    SnapshotInv ⟨{ s.shared with keys := keys' }, Function.update s.loc i l⟩ := by
  have hdirty : ∀ kid, s.Dirty kid → PrincipalNet.Dirty
      ⟨{ s.shared with keys := keys' }, Function.update s.loc i l⟩ kid := by
    intro kid hd
    by_cases hl : l.Invalidates keys' kid
    · exact dirty_self hl
    · exact dirty_move hd (fun hinv => absurd hinv (hnone kid))
        fun p hp => hp.congr fun hsome => (hthere kid hsome).resolve_right hl
  refine ⟨fun kid snap hcached => ?_, fun kid snap hcached hactive => ?_, h.user,
    knows_move (fun j => ?_) hi⟩
  · obtain ⟨hid, howned⟩ := h.owner kid snap hcached
    exact ⟨hid, howned.persist hkeys⟩
  · obtain hactive | hd := h.key kid snap hcached hactive
    · exact (hkeep kid hactive).imp_right dirty_self
    · exact .inr (hdirty kid hd)
  · have hj := h.phase j
    unfold PrincipalPhase.Knows at hj ⊢
    split at hj
    · exact hj.persist hkeys
    · exact hj
    · next began stage hloc =>
      exact ⟨hj.1.commitKeys hkeys (hflight j began (congrArg PrincipalPhase.began? hloc)),
        hj.2.persist hkeys⟩
    · exact hj
    · exact hj

/-- **A commit of users**: one that it takes out of use is not cached as active, and one that it
brings into use has no decision under way that started before. -/
theorem SnapshotInv.commitUsers (h : SnapshotInv s)
    (hnone : ∀ kid, ¬(s.loc i).Invalidates s.shared.keys kid)
    (hkeep : ∀ uid user, s.shared.userCached uid = some (some user) → user.status = .active →
      UserActive s.shared.users uid → UserActive users' uid)
    (hflight : ∀ j began, s.Decides j began → ∀ row, began.key? = some row →
      UserActive users' row.userId → UserActive s.shared.users row.userId ∨ began.UserWasActive)
    (hi : l.Knows s.shared.keys users') :
    SnapshotInv ⟨{ s.shared with users := users' }, Function.update s.loc i l⟩ := by
  refine ⟨h.owner, fun kid snap hcached hactive => ?_, fun uid user hcached hactive => ?_,
    knows_move (fun j => ?_) hi⟩
  · exact (h.key kid snap hcached hactive).imp_right
      fun hd => dirty_move hd (fun hinv => absurd hinv (hnone _)) fun _ h => h
  · exact hkeep uid user hcached hactive (h.user uid user hcached hactive)
  · have hj := h.phase j
    unfold PrincipalPhase.Knows at hj ⊢
    split at hj
    · exact hj
    · exact hj
    · next began stage hloc =>
      refine ⟨⟨hj.1.owner, hj.1.key, fun row hrow hactive => ?_⟩, hj.2⟩
      exact (hflight j began (congrArg PrincipalPhase.began? hloc) row hrow hactive).elim
        (hj.1.user row hrow) id
    · exact hj
    · exact hj

end

/-! ### What the commits do to the rows -/

section
variable {s : PrincipalStore} {loaded row : ApiKey} {kid : ℤ}

theorem get?_keys_saveKey : (s.saveKey loaded row).keys.get? kid =
    if kid = loaded.id then (s.keys.get? kid).map (loaded.flush row) else s.keys.get? kid :=
  SerialTable.get?_update kid

theorem persist_saveKey (huser : row.userId = loaded.userId) :
    KeysPersist s.keys (s.saveKey loaded row).keys := by
  refine ⟨le_rfl, fun kid _ row' hrow' => ?_⟩
  rw [get?_keys_saveKey] at hrow'
  split_ifs at hrow' with hkid
  · obtain ⟨cur, hcur, rfl⟩ := Option.map_eq_some_iff.mp hrow'
    refine ⟨cur, hcur, ?_⟩
    rw [ApiKey.flush, huser, flushed_same]
  · exact ⟨row', hrow', rfl⟩

theorem isSome_saveKey : ((s.saveKey loaded row).keys.get? kid).isSome =
    (s.keys.get? kid).isSome := by
  rw [get?_keys_saveKey]
  split_ifs <;> simp

/-- A row that is flushed has the status that is assigned to it, if that is another one. -/
theorem exists_flushed_status {α S : Type} [DecidableEq S] {row : Option α} {f : α → α}
    {status : α → S} {loaded assigned v : S} (hne : assigned ≠ loaded)
    (hf : ∀ cur, status (f cur) = flushed loaded assigned (status cur)) :
    (∃ r, row.map f = some r ∧ status r = v) ↔ assigned = v ∧ row.isSome = true := by
  rw [Option.isSome_iff_exists]
  constructor
  · rintro ⟨r, hr, hv⟩
    obtain ⟨cur, hcur, rfl⟩ := Option.map_eq_some_iff.mp hr
    exact ⟨((hf cur).trans (flushed_of_ne hne _)).symm.trans hv, cur, hcur⟩
  · rintro ⟨hv, cur, rfl⟩
    exact ⟨f cur, rfl, ((hf cur).trans (flushed_of_ne hne _)).trans hv⟩

/-- A flush changes whether a key is active only by the status that it assigns. -/
theorem keyActive_saveKey : KeyActive (s.saveKey loaded row).keys kid ↔
    if kid = loaded.id ∧ row.status ≠ loaded.status then
      row.status = .active ∧ (s.keys.get? kid).isSome = true
    else KeyActive s.keys kid := by
  rw [KeyActive, get?_keys_saveKey]
  by_cases hkid : kid = loaded.id
  · by_cases hstatus : row.status = loaded.status
    · simp [hkid, hstatus, KeyActive, ApiKey.flush]
    · rw [if_pos hkid, if_pos ⟨hkid, hstatus⟩]
      exact exists_flushed_status hstatus fun _ => rfl
  · simp [hkid, KeyActive]

theorem persist_insert {mk : ℤ → ApiKey} (hmk : ∀ k, rowId (mk k) = k) (keys : SerialTable ApiKey) :
    KeysPersist keys (keys.insert mk hmk) := by
  refine ⟨(Int.lt_succ _).le, fun kid hlt row' hrow' => ?_⟩
  rw [SerialTable.get?_insert, if_neg hlt.ne] at hrow'
  exact ⟨row', hrow', rfl⟩

theorem persist_delete (keys : SerialTable ApiKey) (kid : ℤ) :
    KeysPersist keys (keys.delete kid) := by
  refine ⟨le_rfl, fun kid' _ row' hrow' => ?_⟩
  rw [SerialTable.get?_delete] at hrow'
  split_ifs at hrow'
  exact ⟨row', hrow', rfl⟩

theorem persist_expireKeys (ids : List ℤ) : KeysPersist s.keys (s.expireKeys ids).keys := by
  refine ⟨le_rfl, fun kid _ row' hrow' => ?_⟩
  obtain ⟨row, hrow, rfl⟩ := Option.map_eq_some_iff.mp
    ((SerialTable.get?_updateAll kid).symm.trans hrow')
  refine ⟨row, hrow, ?_⟩
  rw [ApiKey.expireIn]
  dsimp only
  split_ifs <;> rfl

/-- Those of the list are out of use, the others stay. -/
theorem keyActive_expireKeys (ids : List ℤ) :
    KeyActive (s.expireKeys ids).keys kid ↔ KeyActive s.keys kid ∧ kid ∉ ids := by
  have hget : (s.expireKeys ids).keys.get? kid = (s.keys.get? kid).map (ApiKey.expireIn ids).1 :=
    SerialTable.get?_updateAll kid
  simp only [KeyActive, hget, Option.map_eq_some_iff]
  constructor
  · rintro ⟨_, ⟨row, hrow, rfl⟩, hactive⟩
    rw [ApiKey.expireIn] at hactive
    dsimp only at hactive
    split_ifs at hactive with hmem
    rw [id_of_get? hrow] at hmem
    exact ⟨⟨row, hrow, hactive⟩, hmem⟩
  · rintro ⟨⟨row, hrow, hactive⟩, hmem⟩
    rw [← id_of_get? hrow] at hmem
    exact ⟨_, ⟨row, hrow, rfl⟩, by simpa [ApiKey.expireIn, hmem] using hactive⟩

end

/-- **The flush of a key** is a commit of keys. -/
theorem SnapshotInv.saveKey {s : PrincipalNet n} {i : Fin n} {l : PrincipalPhase}
    {loaded row : ApiKey} (h : SnapshotInv s) (huser : row.userId = loaded.userId)
    (hnone : ∀ kid, ¬(s.loc i).Invalidates s.shared.keys kid)
    (hout : row.status ≠ loaded.status → row.status ≠ .active →
      l.Invalidates (s.shared.saveKey loaded row).keys loaded.id)
    (hin : row.status ≠ loaded.status → row.status = .active →
      ∀ j began, s.Decides j began → began.kid = loaded.id → began.KeyWasActive)
    (hi : KeysPersist s.shared.keys (s.shared.saveKey loaded row).keys →
      (∀ j began, s.Decides j began → KeyActive (s.shared.saveKey loaded row).keys began.kid →
        KeyActive s.shared.keys began.kid ∨ began.KeyWasActive) →
      l.Knows (s.shared.saveKey loaded row).keys s.shared.users) :
    SnapshotInv ⟨s.shared.saveKey loaded row, Function.update s.loc i l⟩ := by
  have hpersist : KeysPersist s.shared.keys (s.shared.saveKey loaded row).keys :=
    persist_saveKey huser
  have hflight : ∀ j began, s.Decides j began →
      KeyActive (s.shared.saveKey loaded row).keys began.kid →
      KeyActive s.shared.keys began.kid ∨ began.KeyWasActive := by
    intro j began hj hactive
    rw [keyActive_saveKey] at hactive
    split_ifs at hactive with hkid
    · exact .inr (hin hkid.2 hactive.1 j began hj hkid.1)
    · exact .inl hactive
  have hkeep : ∀ kid, KeyActive s.shared.keys kid →
      KeyActive (s.shared.saveKey loaded row).keys kid ∨
        l.Invalidates (s.shared.saveKey loaded row).keys kid := by
    intro kid hactive
    rw [keyActive_saveKey]
    split_ifs with hkid
    · obtain ⟨rfl, hstatus⟩ := hkid
      by_cases hon : row.status = .active
      · obtain ⟨cur, hcur, -⟩ := hactive
        exact .inl ⟨hon, by rw [hcur]; rfl⟩
      · exact .inr (hout hstatus hon)
    · exact .inl hactive
  exact h.commitKeys hpersist hnone (fun kid hsome => .inl (isSome_saveKey.trans hsome)) hkeep
    hflight (hi hpersist hflight)

/-! ### The gate -/

section
variable {gate : Gate} {req : ClientRequest} {key : Option ApiKeySnapshot}
  {user : Option UserSnapshot} {headers : Headers}

/-- `_decide` lets a request pass only with an active key and an active user. -/
theorem decideRequest_allow (h : decideRequest gate req = .allow headers) :
    ∃ plain key, gate.keySnapshot plain = some key ∧ key.status = .active ∧
      ∃ user, gate.userSnapshot key.userId = some user ∧ user.status = .active := by
  rw [decideRequest] at h
  split at h
  · cases h
  · next plain hplain =>
    split_ifs at h
    split at h
    · cases h
    · next key hkey =>
      split_ifs at h with hactive
      split at h
      · cases h
      · next user huser =>
        obtain ⟨huser, hstatus⟩ := Option.filter_eq_some_iff.mp huser
        exact ⟨plain, key, hkey, not_not.mp hactive, user, huser, of_decide_eq_true hstatus⟩

/-- So it does with what the caches gave. -/
theorem decideRequest_withSnapshots
    (h : decideRequest (gate.withSnapshots key user) req = .allow headers) :
    ∃ snap, key = some snap ∧ snap.status = .active ∧ ∃ u, user = some u ∧ u.status = .active := by
  obtain ⟨plain, k, hkey, hactive, u, huser, hstatus⟩ := decideRequest_allow h
  obtain ⟨snap, rfl, rfl⟩ := Option.map_eq_some_iff.mp hkey
  exact ⟨snap, rfl, hactive, u, huser, hstatus⟩

/-- A request that presents no key does not pass. -/
theorem decideRequest_not_presents (h : req.presents = false) :
    decideRequest gate req ≠ .allow headers := by
  intro hallow
  rw [decideRequest] at hallow
  rw [ClientRequest.presents] at h
  split at hallow
  · cases hallow
  · next plain hplain =>
    rw [hplain, Option.any_some] at h
    rw [h] at hallow
    cases hallow

end

/-! ### One move -/

section
variable {reqs : Fin n → PrincipalRequest} {s t : PrincipalNet n} {i : Fin n}
  {keys : SerialTable ApiKey} {users : Table User}

/-- A decision that was made, and is no pass. -/
theorem knows_decided {began : DecisionStart} {d : Decision}
    (h : ∀ headers, d = .allow headers → began.KeyWasActive ∧ began.UserWasActive) :
    (PrincipalPhase.decided began d).Knows keys users := by
  cases d with
  | deny code message => trivial
  | allow headers => exact h headers rfl

/-- What a look-up of a key leads to. -/
theorem knows_keyOutcome {began : DecisionStart} {gate : Gate} {req : ClientRequest}
    {snap : Option ApiKeySnapshot} (hbegan : began.Holds keys users)
    (hsnap : ∀ snap', snap = some snap' → snap'.id = began.kid ∧
      (snap'.status = .active → began.Entitles snap'.userId)) :
    (keyOutcome began gate req snap).Knows keys users := by
  cases snap with
  | none =>
      refine knows_decided fun headers h => ?_
      obtain ⟨snap, hnone, -⟩ := decideRequest_withSnapshots h
      cases hnone
  | some snap => exact ⟨hbegan, hsnap snap rfl⟩

/-- What a look-up of a user leads to. -/
theorem knows_userOutcome {began : DecisionStart} {gate : Gate} {req : ClientRequest}
    {snap : ApiKeySnapshot} {user : Option UserSnapshot} (hbegan : began.Holds keys users)
    (hsnap : began.Entitles snap.userId)
    (huser : ∀ user', user = some user' → user'.status = .active → began.UserWasActive) :
    (userOutcome began gate req snap user).Knows keys users := by
  cases user with
  | none =>
      refine knows_decided fun headers h => ?_
      obtain ⟨-, -, -, u, hnone, -⟩ := decideRequest_withSnapshots h
      cases hnone
  | some user => exact ⟨hbegan, hsnap, huser user rfl⟩

/-- A PATCH does not move a key to another user. -/
theorem userId_assign {req : ApiKeyUpdate} {now : ℤ} {row row' : ApiKey}
    (h : req.assign now row = .ok row') : row'.userId = row.userId := by
  rw [ApiKeyUpdate.assign] at h
  cases hmode : req.modePeriod row with
  | error e =>
      rw [hmode] at h
      cases h
  | ok p =>
      rw [hmode] at h
      cases h
      dsimp only
      split_ifs <;> rfl

/-- A decision starts with what it sees. -/
theorem holds_startOf (s : PrincipalStore) (kid : ℤ) : (s.startOf kid).Holds s.keys s.users := by
  refine ⟨fun row hrow => ownedBy_of_get? hrow, id, fun row hrow hactive => ?_⟩
  obtain ⟨user, huser, hactive⟩ := hactive
  refine ⟨user, ?_, hactive⟩
  have hkey : s.keys.get? kid = some row := hrow
  rw [PrincipalStore.startOf, hkey]
  exact huser

/-- **The first move** of a request. -/
theorem snapshotInv_begin {wall : ℤ} (h : SnapshotInv s) (hloc : s.loc i = .start)
    {req : PrincipalRequest} (horderly : req.OrderlyBegin s) :
    SnapshotInv ⟨(req.begin wall s.shared).1,
      Function.update s.loc i (req.begin wall s.shared).2⟩ := by
  have hnone : ∀ kid, ¬(s.loc i).Invalidates s.shared.keys kid := by
    intro kid
    rw [hloc]
    exact id
  cases req with
  | createKey uid req =>
      rw [PrincipalRequest.begin]
      cases hrow : req.row uid wall with
      | error e => exact h.wait hnone trivial
      | ok row =>
          have hmk : ∀ k, rowId ((fun id => { row id with id }) k : ApiKey) = k := fun _ => rfl
          have hget : ∀ kid, (s.shared.keys.insert _ hmk).get? kid =
              if kid = s.shared.keys.nextId then some { row kid with id := kid }
              else s.shared.keys.get? kid := SerialTable.get?_insert hmk
          have hold : ∀ {kid row'}, s.shared.keys.get? kid = some row' →
              (s.shared.keys.insert _ hmk).get? kid = some row' := by
            intro kid row' hrow'
            rw [hget, if_neg (SerialTable.lt_of_get? hrow').ne]
            exact hrow'
          refine h.commitKeys (persist_insert hmk _) hnone (fun kid hsome => .inl ?_)
            (fun kid hactive => .inl ?_) (fun j began hj hactive => .inl ?_) trivial
          · obtain ⟨row', hrow'⟩ := Option.isSome_iff_exists.mp hsome
            rw [hold hrow']
            rfl
          · obtain ⟨row', hrow', hstatus⟩ := hactive
            exact ⟨row', hold hrow', hstatus⟩
          · obtain ⟨row', hrow', hstatus⟩ := hactive
            rw [hget, if_neg (horderly j began hj)] at hrow'
            exact ⟨row', hrow', hstatus⟩
  | updateKey uid kid req =>
      rw [PrincipalRequest.begin]
      cases s.shared.ownKey uid kid with
      | none => exact h.wait hnone trivial
      | some row =>
          dsimp only
          cases hassign : req.assign wall row with
          | error e => exact h.wait hnone trivial
          | ok row' => exact h.wait hnone (userId_assign hassign)
  | deleteKey uid kid =>
      rw [PrincipalRequest.begin]
      cases s.shared.ownKey uid kid with
      | none => exact h.wait hnone trivial
      | some row => exact h.wait hnone trivial
  | disableKey uid kid =>
      rw [PrincipalRequest.begin]
      cases s.shared.ownKey uid kid with
      | none => exact h.wait hnone trivial
      | some row => exact h.wait hnone rfl
  | enableKey uid kid =>
      rw [PrincipalRequest.begin]
      cases s.shared.ownKey uid kid with
      | none => exact h.wait hnone trivial
      | some row =>
          dsimp only
          split_ifs
          · exact h.wait hnone trivial
          · exact h.wait hnone rfl
  | scanOnce =>
      rw [PrincipalRequest.begin]
      split_ifs
      · exact h.wait hnone trivial
      · exact h.wait hnone trivial
  | disableUser uid =>
      rw [PrincipalRequest.begin]
      cases s.shared.users.get? uid with
      | none => exact h.wait hnone trivial
      | some user => exact h.wait hnone trivial
  | enableUser uid =>
      rw [PrincipalRequest.begin]
      cases s.shared.users.get? uid with
      | none => exact h.wait hnone trivial
      | some user => exact h.wait hnone trivial
  | decide kid gate req =>
      rw [PrincipalRequest.begin]
      split_ifs with hpresents
      · refine h.wait hnone (knows_decided fun headers hallow => ?_)
        exact absurd hallow (decideRequest_not_presents (by simpa using hpresents))
      · cases hcached : s.shared.keyCached kid with
        | none => exact h.wait hnone ⟨holds_startOf s.shared kid, trivial⟩
        | some snap =>
            refine h.wait hnone (knows_keyOutcome (holds_startOf s.shared kid) ?_)
            rintro snap' rfl
            obtain ⟨hid, howned⟩ := h.owner kid snap' hcached
            refine ⟨hid, fun hactive => ?_⟩
            have hkey : KeyActive s.shared.keys kid :=
              (h.key kid snap' hcached hactive).elim id (horderly snap' hcached hactive)
            obtain ⟨row, hrow, hstatus⟩ := hkey
            exact ⟨row, hrow, hstatus, howned.2 row hrow⟩

/-- **A move of a decision.** -/
theorem snapshotInv_decide {wall rpm : ℤ} {gate : Gate} {req : ClientRequest}
    {began : DecisionStart} {stage : DecideStage} (h : SnapshotInv s)
    (hloc : s.loc i = .deciding began stage)
    {owner : PrincipalRequest} (horderly : (PrincipalPhase.deciding began stage).Orderly s owner) :
    SnapshotInv ⟨(decideProg gate req wall rpm began s.shared stage).1,
      Function.update s.loc i (decideProg gate req wall rpm began s.shared stage).2⟩ := by
  have hknows := h.phase i
  rw [hloc] at hknows
  obtain ⟨hbegan, hfound⟩ := hknows
  -- no stage but the one after an expiry has anything to invalidate
  have hnone : (∀ kid, ¬(PrincipalPhase.deciding began stage).Invalidates s.shared.keys kid) →
      ∀ kid, ¬(s.loc i).Invalidates s.shared.keys kid := by
    rw [hloc]
    exact id
  cases stage with
  | keyMissed =>
      refine h.wait (hnone fun _ => id) ⟨hbegan, fun row hrow => ?_⟩
      exact ⟨id_of_get? hrow, ownedBy_of_get? hrow, hbegan.entitles hrow⟩
  | keyRead row =>
      refine h.storeKey (hnone fun _ => id) ?_ (knows_keyOutcome hbegan ?_)
      · intro snap hsnap
        obtain ⟨row', rfl, rfl⟩ := Option.map_eq_some_iff.mp hsnap
        obtain ⟨hid, howned, -⟩ := hfound row' rfl
        exact ⟨hid, howned, horderly⟩
      · intro snap hsnap
        obtain ⟨row', rfl, rfl⟩ := Option.map_eq_some_iff.mp hsnap
        obtain ⟨hid, -, hentitles⟩ := hfound row' rfl
        exact ⟨hid, hentitles⟩
  | keyFound snap =>
      rw [decideProg]
      split_ifs
      · exact h.wait (hnone fun _ => id) ⟨hbegan, hfound.2⟩
      · exact h.wait (hnone fun _ => id) ⟨hbegan, hfound⟩
  | enforcing snap now =>
      refine h.wait (hnone fun _ => id) ⟨hbegan, ?_⟩
      cases hrow : s.shared.keys.get? snap.id with
      | none => exact hfound
      | some row =>
          refine ⟨(id_of_get? hrow).trans hfound.1, fun hactive => ?_⟩
          rw [hfound.1] at hrow
          exact hbegan.entitles hrow hactive
  | enforceRead snap now row =>
      cases row with
      | none => exact h.invalidate (fun kid hinv => absurd hinv (hnone (fun _ => id) kid)) trivial
      | some row =>
          rw [decideProg]
          cases enforceDecision (snap.needsExpire now) (snap.needsRoll now) now row with
          | none =>
              exact h.refresh (fun kid hinv => absurd hinv (hnone (fun _ => id) kid))
                ⟨hbegan, hfound.2⟩
          | some d => exact h.wait (hnone fun _ => id) ⟨hbegan, hfound.1⟩
  | enforceDecided row d =>
      rw [decideProg]
      cases hcur : s.shared.keys.get? row.id with
      | none => exact h.wait (hnone fun _ => id) trivial
      | some cur =>
          refine h.saveKey (by cases d <;> rfl) (hnone fun _ => id) ?_ ?_ ?_
          · intro hstatus _
            cases d with
            | expire => rfl
            | roll now period periodEnd => exact absurd rfl hstatus
          · intro hstatus hactive
            cases d with
            | expire => cases hactive
            | roll now period periodEnd => exact absurd rfl hstatus
          · intro hpersist hflight
            refine ⟨hbegan.commitKeys hpersist (hflight i began (congrArg PrincipalPhase.began? hloc)), ?_⟩
            split_ifs
            · trivial
            · exact hfound
  | expired row =>
      refine h.refresh (fun kid hinv => ?_) trivial
      rw [hloc] at hinv
      exact Eq.symm hinv
  | rolled row =>
      refine h.wait (hnone fun _ => id) ⟨hbegan, fun row' hrow' hactive => ?_⟩
      have hid : row.id = began.kid := hfound
      rw [hid] at hrow'
      exact hbegan.entitles hrow' hactive
  | rollRead row =>
      cases row with
      | none => exact h.wait (hnone fun _ => id) trivial
      | some row =>
          exact h.refresh (fun kid hinv => absurd hinv (hnone (fun _ => id) kid))
            ⟨hbegan, hfound row rfl⟩
  | keyed snap =>
      rw [decideProg]
      split_ifs with hactive
      · refine h.wait (hnone fun _ => id) (knows_decided fun headers hallow => ?_)
        obtain ⟨-, -, -, u, hnone, -⟩ := decideRequest_withSnapshots hallow
        cases hnone
      · have hentitles := hfound (not_not.mp hactive)
        cases hcached : s.shared.userCached snap.userId with
        | none => exact h.wait (hnone fun _ => id) ⟨hbegan, hentitles⟩
        | some user =>
            refine h.wait (hnone fun _ => id) (knows_userOutcome hbegan hentitles ?_)
            rintro user' rfl hstatus
            exact hbegan.userWasActive hentitles (h.user snap.userId user' hcached hstatus)
  | userMissed snap =>
      refine h.wait (hnone fun _ => id) ⟨hbegan, hfound, fun user huser hactive => ?_⟩
      exact hbegan.userWasActive hfound ⟨user, huser, hactive⟩
  | userRead snap user =>
      refine h.storeUser (hnone fun _ => id) ?_ (knows_userOutcome hbegan hfound.1 ?_)
      · intro user' huser' hactive
        obtain ⟨u, rfl, rfl⟩ := Option.map_eq_some_iff.mp huser'
        exact horderly hactive
      · intro user' huser' hactive
        obtain ⟨u, rfl, rfl⟩ := Option.map_eq_some_iff.mp huser'
        exact hfound.2 u rfl hactive
  | userFound snap user =>
      refine h.wait (hnone fun _ => id) (knows_decided fun headers hallow => ?_)
      obtain ⟨-, -, -, u, hu, hactive⟩ := decideRequest_withSnapshots hallow
      obtain rfl := Option.some.inj hu
      exact ⟨hfound.1.keyWasActive, hfound.2 hactive⟩

/-- The flush of a user is a commit of users. -/
theorem userActive_saveUser {sh : PrincipalStore} {loaded : User} {status : UserStatus} {uid : ℤ} :
    UserActive (sh.saveUser loaded status).users uid ↔
      if uid = loaded.id ∧ status ≠ loaded.status then
        status = .active ∧ (sh.users.get? uid).isSome = true
      else UserActive sh.users uid := by
  have hget : (sh.saveUser loaded status).users.get? uid = if uid = loaded.id then
      (sh.users.get? uid).map (loaded.flushStatus status).1 else sh.users.get? uid :=
    Table.get?_update ..
  rw [UserActive, hget]
  by_cases huid : uid = loaded.id
  · by_cases hstatus : status = loaded.status
    · simp [huid, hstatus, UserActive, User.flushStatus]
    · rw [if_pos huid, if_pos ⟨huid, hstatus⟩]
      exact exists_flushed_status hstatus fun _ => rfl
  · simp [huid, UserActive]

/-- **One move** of a request. -/
theorem snapshotInv_move {wall rpm : ℤ} {sh : PrincipalStore} {l : PrincipalPhase}
    (h : SnapshotInv s) (horderly : (s.loc i).Orderly s (reqs i))
    (hprog : principalProg reqs wall rpm i s.shared (s.loc i) = some (sh, l)) :
    SnapshotInv ⟨sh, Function.update s.loc i l⟩ := by
  have hknows := h.phase i
  have hinv : ∀ p, s.loc i = p → (∀ kid, ¬p.Invalidates s.shared.keys kid) →
      ∀ kid, ¬(s.loc i).Invalidates s.shared.keys kid := by
    rintro p rfl
    exact id
  cases hloc : s.loc i with
  | start =>
      rw [hloc] at hprog horderly
      have hnext : SnapshotInv ⟨((reqs i).begin wall s.shared).1,
          Function.update s.loc i ((reqs i).begin wall s.shared).2⟩ :=
        snapshotInv_begin h hloc horderly
      rw [Option.some.inj hprog] at hnext
      exact hnext
  | created kid =>
      rw [hloc] at hprog
      cases hprog
      refine h.wait (hinv _ hloc fun _ => id) ?_
      cases hrow : s.shared.keys.get? kid with
      | none => trivial
      | some row =>
          have howned := ownedBy_of_get? hrow
          rw [← id_of_get? hrow] at howned
          exact howned
  | createdRead row =>
      rw [hloc] at hprog hknows horderly
      cases hprog
      refine h.storeKey (hinv _ hloc fun _ => id) ?_ trivial
      intro snap hsnap
      obtain rfl := Option.some.inj hsnap
      exact ⟨rfl, hknows, horderly⟩
  | assigned loaded row =>
      rw [hloc] at hprog hknows horderly
      rw [principalProg] at hprog
      split at hprog
      · cases hprog
        exact h.wait (hinv _ hloc fun _ => id) trivial
      · next cur hcur =>
        cases hprog
        refine h.saveKey hknows (hinv _ hloc fun _ => id) ?_ ?_ fun _ _ => trivial
        · intro _ _
          refine ⟨rfl, isSome_saveKey.trans ?_⟩
          rw [hcur]
          rfl
        · intro hstatus hactive
          refine horderly (fun hwas => hstatus ?_) hactive
          rw [hactive, hwas]
  | saved kid =>
      rw [hloc] at hprog
      cases hprog
      refine h.quiet rfl rfl (fun kid' snap hcached => ⟨hcached, ?_⟩) (fun _ _ hcached => hcached) ?_
      · rw [hloc]
        rintro ⟨rfl, hthere⟩
        obtain ⟨row, hrow⟩ := Option.isSome_iff_exists.mp hthere
        rw [hrow]
        exact id_of_get? hrow
      · cases s.shared.keys.get? kid with
        | none => trivial
        | some row => trivial
  | refreshed row =>
      rw [hloc] at hprog
      cases hprog
      refine h.refresh (fun kid hkid => ?_) trivial
      rw [hloc] at hkid
      exact Eq.symm hkid
  | deleting kid =>
      rw [hloc] at hprog
      cases hprog
      have hkept : ∀ kid', kid' ≠ kid →
          (s.shared.keys.delete kid).get? kid' = s.shared.keys.get? kid' := fun kid' hne => by
        rw [SerialTable.get?_delete, if_neg hne]
      refine h.commitKeys (persist_delete _ kid) (hinv _ hloc fun _ => id) (fun kid' hsome => ?_)
        (fun kid' hactive => ?_) (fun j began _ hactive => .inl ?_) trivial
      · by_cases hkid : kid' = kid
        · exact .inr (List.mem_singleton.mpr hkid)
        · exact .inl (by rw [hkept kid' hkid]; exact hsome)
      · by_cases hkid : kid' = kid
        · exact .inr (List.mem_singleton.mpr hkid)
        · exact .inl (by rw [KeyActive, hkept kid' hkid]; exact hactive)
      · obtain ⟨row, hrow, hstatus⟩ := hactive
        rw [SerialTable.get?_delete] at hrow
        split_ifs at hrow
        exact ⟨row, hrow, hstatus⟩
  | selected kids now =>
      rw [hloc] at hprog
      cases hprog
      exact h.wait (hinv _ hloc fun _ => id) trivial
  | updating kids ids =>
      rw [hloc] at hprog horderly
      cases hprog
      refine h.commitKeys (persist_expireKeys ids) (hinv _ hloc fun _ => id) (fun kid hsome => .inl ?_)
        (fun kid hactive => ?_) (fun j began _ hactive => .inl ?_) trivial
      · obtain ⟨row, hrow⟩ := Option.isSome_iff_exists.mp hsome
        rw [SerialTable.get?_updateAll, hrow]
        rfl
      · by_cases hkid : kid ∈ ids
        · exact .inr (horderly hkid)
        · exact .inl ((keyActive_expireKeys ids).mpr ⟨hactive, hkid⟩)
      · exact ((keyActive_expireKeys ids).mp hactive).1
  | invalidating kids =>
      rw [hloc] at hprog
      cases kids with
      | nil =>
          cases hprog
          exact h.wait (hinv _ hloc fun _ => List.not_mem_nil) trivial
      | cons kid kids =>
          cases hprog
          refine h.invalidate (fun kid' hkid => ?_) trivial
          rw [hloc] at hkid
          exact List.mem_cons.mp hkid
  | userAssigned loaded status =>
      rw [hloc] at hprog horderly
      cases hprog
      refine h.commitUsers (hinv _ hloc fun _ => id) (fun uid user hcached hactive huser => ?_)
        (fun j began hj row hrow hactive => ?_) trivial
      · refine userActive_saveUser.mpr ?_
        split_ifs with huid
        · obtain ⟨rfl, hstatus⟩ := huid
          obtain ⟨cur, hcur, -⟩ := huser
          cases status with
          | active => exact ⟨rfl, by rw [hcur]; rfl⟩
          | disabled =>
              exact absurd hactive (horderly (Ne.symm hstatus) user hcached)
        · exact huser
      · have hactive := userActive_saveUser.mp hactive
        split_ifs at hactive with huid
        · obtain ⟨rfl, -⟩ := hactive
          exact .inr (horderly (Ne.symm huid.2) j began hj row hrow huid.1)
        · exact .inl hactive
  | deciding began stage =>
      rw [hloc] at hprog horderly
      rw [principalProg] at hprog
      split at hprog
      · next kid gate req hreq =>
        have hnext : SnapshotInv ⟨(decideProg gate req wall rpm began s.shared stage).1,
            Function.update s.loc i (decideProg gate req wall rpm began s.shared stage).2⟩ :=
          snapshotInv_decide h hloc horderly
        rw [Option.some.inj hprog] at hnext
        exact hnext
      · cases hprog
  | decided began d =>
      rw [hloc] at hprog
      cases hprog
  | raised e =>
      rw [hloc] at hprog
      cases hprog
  | done =>
      rw [hloc] at hprog
      cases hprog

/-! ### Every run -/

/-- Entries go, and time passes. -/
theorem SnapshotInv.forget {sh : PrincipalStore} (h : SnapshotInv s)
    (hkeys : sh.keys = s.shared.keys) (husers : sh.users = s.shared.users)
    (hkey : ∀ kid snap, sh.keyCached kid = some (some snap) →
      s.shared.keyCached kid = some (some snap))
    (huser : ∀ uid user, sh.userCached uid = some (some user) →
      s.shared.userCached uid = some (some user)) : SnapshotInv ⟨sh, s.loc⟩ := by
  refine ⟨fun kid snap hcached => ?_, fun kid snap hcached hactive => ?_,
    fun uid user hcached hactive => ?_, fun i => ?_⟩
  · rw [hkeys]
    exact h.owner kid snap (hkey kid snap hcached)
  · have hold := h.key kid snap (hkey kid snap hcached) hactive
    rw [PrincipalNet.Dirty, hkeys]
    exact hold
  · rw [husers]
    exact h.user uid user (huser uid user hcached) hactive
  · rw [hkeys, husers]
    exact h.phase i

/-- **One step** of the process keeps the invariant when it is orderly. -/
theorem snapshotInv_step {a : PrincipalLabel n} (horderly : Orderly reqs s a) (h : SnapshotInv s)
    (hstep : principalStep reqs s a = some t) : SnapshotInv t := by
  cases a with
  | move i wall rpm =>
      obtain ⟨sh, l, hprog, rfl⟩ := Net.step_eq_some.mp hstep
      exact snapshotInv_move h horderly hprog
  | tick d =>
      obtain rfl := Option.some.inj hstep
      have hle : s.shared.clock ≤ s.shared.clock + d := by omega
      exact h.forget rfl rfl (fun _ _ hcached => Store.get_le hle hcached)
        fun _ _ hcached => Store.get_le hle hcached
  | dropKey kid =>
      obtain rfl := Option.some.inj hstep
      refine h.forget rfl rfl (fun kid' snap hcached => ?_) fun _ _ hcached => hcached
      rw [keyCached_invalidate] at hcached
      split_ifs at hcached
      exact hcached
  | dropUser uid =>
      obtain rfl := Option.some.inj hstep
      refine h.forget rfl rfl (fun _ _ hcached => hcached) fun uid' user hcached => ?_
      rw [userCached_dropUser] at hcached
      split_ifs at hcached
      exact hcached

/-- **No decision lets a principal pass that was out of use when it started**, in any run of
orderly steps. -/
theorem decided_of_orderly {keys : SerialTable ApiKey} {users : Table User}
    {labels : List (PrincipalLabel n)}
    (horderly : Along (principalStep reqs) (Orderly reqs) labels (PrincipalNet.start keys users))
    (hrun : run (principalStep reqs) labels (PrincipalNet.start keys users) = some t) (i : Fin n)
    {began : DecisionStart} {headers : Headers} (hallow : t.loc i = .decided began (.allow headers)) :
    began.KeyWasActive ∧ began.UserWasActive := by
  have hstart : SnapshotInv (PrincipalNet.start keys users : PrincipalNet n) :=
    ⟨fun _ _ h => (by cases h), fun _ _ h => (by cases h), fun _ _ h => (by cases h),
      fun _ => trivial⟩
  have hinv : SnapshotInv t := run_induction_along
    (fun _ _ _ horderly h hstep => snapshotInv_step horderly h hstep) horderly hstart hrun
  have hknows := hinv.phase i
  rw [hallow] at hknows
  exact hknows

end

/-! ### A user that is disabled -/

/-- Everything but the snapshots lets requests pass. -/
def openGate : Gate where
  keySnapshot := fun _ => none
  userSnapshot := fun _ => none
  hasQuotaFast := fun _ => (true, [])
  rateLimit := fun _ _ => true
  parseBody := fun _ => none
  loadRoute := fun name => .inl (404, name)
  selectRoute := fun _ _ _ _ => none

/-- A request for the list of models, with key 1. -/
def listModels : PrincipalRequest :=
  .decide 1 openGate ⟨[(str ":path", str "/v1/models"), (str "x-api-key", str "sk-1")], [],
    ⟨str "0123456789abcdef", length_hexDigits⟩⟩

/-- Key 1, of user 1. -/
def keyOne : SerialTable ApiKey :=
  SerialTable.empty.insert (fun id => ⟨id, 1, .active, 0, 0, .untilDepleted, none, none, none, none⟩)
    fun _ => rfl

/-- Users and keys when the process begins. -/
def oneUser (n : ℕ) : PrincipalNet n := .start keyOne (.single ⟨1, 0, .active⟩)

/-- Two requests with key 1, and the user is disabled. -/
def disableBetween : Fin 3 → PrincipalRequest := ![listModels, .disableUser 1, listModels]

/-- A request moves so many times. -/
def movesOf (i : Fin 3) (times : ℕ) : List (PrincipalLabel 3) := List.replicate times (.move i 0 60)

/-- The third request passes, though its user was disabled when its decision started. -/
def PassesDisabled (s : PrincipalNet 3) : Bool :=
  match s.loc 2 with
  | .decided began (.allow _) => !decide began.UserWasActive
  | _ => false

/-- Request `i` passes. -/
def Passes (s : PrincipalNet 3) (i : Fin 3) : Bool :=
  match s.loc i with
  | .decided _ (.allow _) => true
  | _ => false

/-- The snapshot of the user that the first decision has cached is still there. -/
theorem disabled_passes :
    ∃ t began headers, run (principalStep disableBetween) (movesOf 0 8 ++ movesOf 1 2 ++ movesOf 2 4)
        (oneUser 3) = some t ∧
      t.loc 2 = .decided began (.allow headers) ∧ ¬began.UserWasActive := by
  have hpasses : (run (principalStep disableBetween) (movesOf 0 8 ++ movesOf 1 2 ++ movesOf 2 4)
      (oneUser 3)).any PassesDisabled = true := by
    decide +kernel
  obtain ⟨t, hrun, ht⟩ := (Option.any_eq_true _ _).mp hpasses
  rw [PassesDisabled] at ht
  split at ht
  · next began headers hloc => exact ⟨t, began, headers, hrun, hloc, by simpa using ht⟩
  · cases ht

/-- The user is disabled when the snapshot has expired: the first request passes, and the third
does not. -/
theorem decided_of_orderly_expired :
    ∃ t began headers, run (principalStep disableBetween)
        (movesOf 0 8 ++ [.tick 30000000] ++ movesOf 1 2 ++ movesOf 2 8) (oneUser 3) = some t ∧
      t.loc 0 = .decided began (.allow headers) ∧ Passes t 2 = false ∧
      began.KeyWasActive ∧ began.UserWasActive := by
  have hpasses : (run (principalStep disableBetween)
      (movesOf 0 8 ++ [.tick 30000000] ++ movesOf 1 2 ++ movesOf 2 8) (oneUser 3)).any
        (fun t => Passes t 0 && !Passes t 2) = true := by
    decide +kernel
  obtain ⟨t, hrun, ht⟩ := (Option.any_eq_true _ _).mp hpasses
  obtain ⟨hfirst, hthird⟩ := Bool.and_eq_true_iff.mp ht
  rw [Passes] at hfirst
  split at hfirst
  · next began headers hloc =>
    exact ⟨t, began, headers, hrun, hloc, by simpa using hthird,
      decided_of_orderly (by decide +kernel) hrun 0 hloc⟩
  · cases hfirst

end Llmxy
