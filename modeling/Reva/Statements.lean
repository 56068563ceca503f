import Reva.Manager

/-!
# What each statement selects

The `WHERE` conditions the manager builds, read back as conditions on a row, and what `query`,
`queryRow` and `exec` return. The proofs about the operations go through these lemmas and never
evaluate a condition themselves. `Row.expiredAt` is the expiry of a row as `expired` sees the
share the row is read as.
-/

namespace Reva

open Sql Manager

/-- The row's expiration is set and lies strictly before `now`. -/
def Sql.Row.expiredAt (now : Nat) (r : Row) : Bool :=
  match r.expiration with
  | some e => decide (1000000000 * e.toInt < now)
  | none => false

/-- The public share a row is read as by `ListPublicShares`, and by the lookups once the key has
matched. -/
def Sql.Row.share (r : Row) : PublicShare := convertToCS3PublicShare (DBShare.ofRow r)

/-- The user is the row's owner or its creator. -/
def Sql.Row.ownedBy (u : User) (r : Row) : Prop :=
  r.uidOwner = formatUserID u.id ∨ r.uidInitiator = formatUserID u.id

instance (u : User) (r : Row) : Decidable (r.ownedBy u) := inferInstanceAs (Decidable (_ ∨ _))

/-- What a reference selects a row by in `UpdatePublicShare` and `RevokePublicShare`: an id the
row has, or a non-empty token the row has. -/
def RefKey (r : Row) : PublicShareReference → Prop
  | .id i => toString r.id = i
  | .token tk => tk ≠ "" ∧ r.token = tk
  | .none => False

instance (r : Row) : (ref : PublicShareReference) → Decidable (RefKey r ref)
  | .id i => inferInstanceAs (Decidable (toString r.id = i))
  | .token tk => inferInstanceAs (Decidable (tk ≠ "" ∧ r.token = tk))
  | .none => inferInstanceAs (Decidable False)

/-- The row's expiration is set and lies strictly before the `datetime` `cutoff`. -/
def Sql.Row.expiresBefore (cutoff : Nat) (r : Row) : Bool :=
  match r.expiration with
  | some e => decide (e.toInt < cutoff)
  | none => false

/-- The row after `SET orphan = 1 WHERE expiration IS NOT NULL AND expiration < cutoff`. -/
def Sql.Row.orphanIfExpired (cutoff : Nat) (r : Row) : Row :=
  if r.expiresBefore cutoff then { r with orphan := true } else r

section Conversion

variable (now : Nat) (r : Row)

theorem convert_ofRow : convertToCS3PublicShare (DBShare.ofRow r) = r.share := rfl

theorem ofRow_with_token : ({ DBShare.ofRow r with token := r.token } : DBShare) = DBShare.ofRow r :=
  rfl

theorem ofRow_with_id : ({ DBShare.ofRow r with id := toString r.id } : DBShare) = DBShare.ofRow r :=
  rfl

@[simp] theorem ofRow_shareWith : (DBShare.ofRow r).shareWith = r.shareWith := rfl

theorem share_expiration :
    r.share.expiration = r.expiration.map fun e => ⟨uint64 e.toInt, 0⟩ :=
  Option.map_map _ _ _

@[simp] theorem expired_share : expired now r.share = r.expiredAt now := by
  cases h : r.expiration <;>
    simp only [expired, share_expiration, Row.expiredAt, h, Option.map, Timestamp.toInstant,
      int64_uint64_toInt, Nat.cast_zero, add_zero]

@[simp] theorem share_passwordProtected : r.share.passwordProtected = (r.shareWith != "") := rfl

@[simp] theorem share_token : r.share.token = r.token := rfl

@[simp] theorem share_signature : r.share.signature = none := rfl

theorem expiredAt_eq_false_iff :
    r.expiredAt now = false ↔ ∀ e, r.expiration = some e → now ≤ 1000000000 * e.toInt := by
  cases h : r.expiration <;> simp [Row.expiredAt, h]

end Conversion

/-! ## Conditions -/

section Conditions

variable (ps : List Value) (r : Row) (uid key : String)

@[simp] theorem notOrphan_eval : notOrphan.eval ps r = !r.orphan := by
  cases h : r.orphan <;> simp [notOrphan, Cond.eval, Row.get, Value.eq, Operand.value, h]

@[simp] theorem ownerOrInitiator_eval :
    ownerOrInitiator.eval (.str uid :: .str uid :: ps) r =
      (r.uidOwner == uid || r.uidInitiator == uid) := by
  simp [ownerOrInitiator, Cond.eval, Cond.arity, Operand.arity, Operand.value, Row.get, Value.eq]

theorem getByTokenWhere_eval :
    getByTokenWhere.eval [.int publicShareType, .str key] r = true ↔
      r.orphan = false ∧ r.shareType = publicShareType ∧ r.token = key := by
  simp [getByTokenWhere, Cond.eval, Cond.arity, Operand.arity, Operand.value, Row.get, Value.eq,
    and_assoc]

theorem getByIDWhere_eval :
    getByIDWhere.eval [.int publicShareType, .str key, .str uid, .str uid] r = true ↔
      r.orphan = false ∧ r.shareType = publicShareType ∧ toString r.id = key ∧
        (r.uidOwner = uid ∨ r.uidInitiator = uid) := by
  simp [getByIDWhere, Cond.eval, Cond.arity, Operand.arity, Operand.value, Row.get, Value.eq,
    and_assoc]

theorem getPublicShareByTokenWhere_eval :
    getPublicShareByTokenWhere.eval [.int publicShareType, .str key] r = true ↔
      r.shareType = publicShareType ∧ r.token = key := by
  simp [getPublicShareByTokenWhere, Cond.eval, Cond.arity, Operand.arity, Operand.value, Row.get,
    Value.eq]

theorem byIdOwned_eval :
    byIdOwned.eval [.str key, .str uid, .str uid] r = true ↔
      toString r.id = key ∧ (r.uidOwner = uid ∨ r.uidInitiator = uid) := by
  simp [byIdOwned, Cond.eval, Cond.arity, Operand.arity, Operand.value, Row.get, Value.eq]

theorem byTokenOwned_eval :
    byTokenOwned.eval [.str key, .str uid, .str uid] r = true ↔
      r.token = key ∧ (r.uidOwner = uid ∨ r.uidInitiator = uid) := by
  simp [byTokenOwned, Cond.eval, Cond.arity, Operand.arity, Operand.value, Row.get, Value.eq]

theorem updateSelector_eval {ref : PublicShareReference} {w : Cond}
    (h : updateSelector ref = some (w, key)) :
    w.eval [.str key, .str uid, .str uid] r = true ↔
      RefKey r ref ∧ (r.uidOwner = uid ∨ r.uidInitiator = uid) := by
  cases ref with
  | id i => cases h; exact byIdOwned_eval r uid _
  | token tk =>
    simp only [updateSelector] at h
    split at h
    · cases h; simp [byTokenOwned_eval, RefKey, *]
    · cases h
  | none => cases h

theorem revokeSelector_eval {ref : PublicShareReference} {w : Cond}
    (h : revokeSelector ref = some (w, key)) :
    w.eval [.str key, .str uid, .str uid] r = true ↔
      RefKey r ref ∧ (r.uidOwner = uid ∨ r.uidInitiator = uid) := by
  cases ref with
  | id i =>
    simp only [revokeSelector] at h
    split at h
    · cases h; exact byIdOwned_eval r uid _
    · cases h
  | token tk =>
    simp only [revokeSelector] at h
    split at h
    · cases h; simp [byTokenOwned_eval, RefKey, *]
    · cases h
  | none => cases h

@[simp] theorem cleanupWhere_eval (c : Nat) :
    cleanupWhere.eval [.time c] r = r.expiresBefore c := by
  cases h : r.expiration <;>
    simp [cleanupWhere, Cond.eval, Cond.arity, Operand.arity, Operand.value, Row.get, Value.lt,
      Row.expiresBefore, h]

end Conditions

/-! ## Queries -/

section Queries

variable {fault : Fault} {w : Cond} {ps : List Value} {t : Table}

theorem mem_of_head?_filter {p : Row → Bool} {l : List Row} {r : Row}
    (h : (l.filter p).head? = some r) : r ∈ l ∧ p r = true :=
  List.mem_filter.mp (List.mem_of_mem_head? h)

theorem queryRow_eq_ok_some {r : Row} (h : queryRow fault w ps t = .ok (some r)) :
    r ∈ t.rows ∧ w.eval ps r = true := by
  unfold queryRow query at h
  split at h
  · cases h
  · exact mem_of_head?_filter (by simpa [Except.map] using h)

theorem queryRow_eq_ok_none (h : queryRow fault w ps t = .ok none) :
    ∀ r ∈ t.rows, w.eval ps r = false := by
  unfold queryRow query at h
  split at h
  · cases h
  · intro r hr
    have hnil : t.rows.filter (w.eval ps) = [] := by simpa [Except.map] using h
    simpa using List.filter_eq_nil_iff.mp hnil r hr

theorem query_eq_ok {rows : List Row} (h : query fault w ps t = .ok rows) :
    rows = t.rows.filter (w.eval ps) := by
  unfold query at h
  split at h
  · cases h
  · cases h; rfl

theorem exec_eq_ok {s : Stmt} {res : ExecResult} {t' : Table}
    (h : exec fault s ps t = .ok (res, t')) : t.exec ps s = some (res, t') := by
  unfold exec at h
  split at h
  · cases h
  · split at h <;> cases h; assumption

end Queries

end Reva
