import Reva.Visibility

/-!
# What the writes do to the table

One spec lemma per statement that writes and per write path. `UPDATE … SET as WHERE w` rewrites
each row `w` selects by its `SET` list and leaves the others; `DELETE … WHERE w` drops the rows
`w` selects; `INSERT` appends one row under the next id, and the row of `CreatePublicShare`
rebuilds the share it returns but for the expiration, which the column keeps in whole seconds
(`createInsert_reads_back`). `Row.set` writes one column and keeps the rest. The `UPDATE` of
`cleanupExpiredShares` marks orphan every row whose expiration lies before the cutoff, whatever
its share type. `UpdatePublicShare` is its own `UPDATE`, on the rows
of the reference that the caller owns or created, followed by a `GetPublicShare` whose only write
is that sweep.
-/

namespace Reva

open Sql Manager

/-! ## Statements -/

namespace Sql

variable {fault : Fault} {ps : List Value} {t t' : Table} {res : ExecResult}

@[simp] theorem Row.set_stime (r : Row) (n : Nat) : r.set .stime (.int n) = some { r with stime := n } :=
  rfl

@[simp] theorem Row.set_orphan_int (r : Row) (n : Nat) :
    r.set .orphan (.int n) = some { r with orphan := n != 0 } := rfl

@[simp] theorem Row.set_time_int64 (r : Row) (n : Nat) :
    r.set .expiration (.time (int64 n)) =
      some { r with expiration := some (BitVec.ofInt 64 (int64 n)) } :=
  if_pos (toInt_ofInt_int64 n)

theorem Row.eq_of_set_time {r r' : Row} {t : Int} (h : r.set .expiration (.time t) = some r') :
    r' = { r with expiration := some (BitVec.ofInt 64 t) } := by
  by_cases hr : (BitVec.ofInt 64 t).toInt = t
  · exact (Option.some.inj ((if_pos hr).symm.trans h)).symm
  · exact absurd ((if_neg hr).symm.trans h) Option.noConfusion

theorem Row.get_set {r r' : Row} {c : Column} {v : Value} (h : r.set c v = some r')
    {c' : Column} (hc : c' ≠ c) : r'.get c' = r.get c' := by
  by_cases hce : c = .expiration ∧ ∃ t, v = .time t
  · obtain ⟨rfl, t, rfl⟩ := hce
    obtain rfl := Row.eq_of_set_time h
    cases c' <;> first | rfl | exact absurd rfl hc
  · cases c <;> cases v <;> first
      | (cases h <;> cases c' <;> first | rfl | exact absurd rfl hc)
      | exact absurd ⟨rfl, _, rfl⟩ hce

theorem updateRows_some {as : Assignments} {w : Cond} :
    ∀ {rows rows' : List Row}, updateRows as w ps rows = some rows' →
      List.Forall₂ (fun r r' => (w.eval (ps.drop as.arity) r = true ∧ as.apply ps r = some r') ∨
        (w.eval (ps.drop as.arity) r = false ∧ r' = r)) rows rows'
  | [], rows', h => by cases h; exact .nil
  | r :: rs, rows', h => by
    simp only [updateRows, updateRow] at h
    split at h
    · rename_i r' rs' hr hrs
      cases h
      refine .cons ?_ (updateRows_some hrs)
      cases hw : w.eval (ps.drop as.arity) r
      · simp only [hw, Bool.false_eq_true, if_false, Option.some.injEq] at hr
        exact .inr ⟨rfl, hr.symm⟩
      · simp only [hw, if_true] at hr
        exact .inl ⟨rfl, hr⟩
    · cases h

theorem exec_update_ok {as : Assignments} {w : Cond}
    (h : exec fault (.update as w) ps t = .ok (res, t')) :
    t'.nextId = t.nextId ∧ updateRows as w ps t.rows = some t'.rows := by
  obtain ⟨rows, hrows, he⟩ := Option.map_eq_some'.mp (exec_eq_ok h)
  cases he
  exact ⟨rfl, hrows⟩

theorem exec_delete_ok {w : Cond} (h : exec fault (.delete w) ps t = .ok (res, t')) :
    res.rowsAffected = t.rows.countP (w.eval ps) ∧
      t' = { t with rows := t.rows.filter fun r => !w.eval ps r } := by
  cases exec_eq_ok h
  exact ⟨rfl, rfl⟩

theorem exec_insert_ok {as : Assignments} (h : exec fault (.insert as) ps t = .ok (res, t')) :
    res.lastInsertId = t.nextId ∧ ∃ r, as.apply ps (Row.blank t.nextId) = some r ∧
      t' = ⟨t.rows ++ [r], t.nextId + 1⟩ := by
  obtain ⟨r, hr, he⟩ := Option.map_eq_some'.mp (exec_eq_ok h)
  cases he
  exact ⟨rfl, r, hr, rfl⟩

theorem exec_insert_eq (as : Assignments) (t : Table) :
    exec fault (.insert as) ps t =
      match check fault (.insert as) ps with
      | some e => .error e
      | none => match as.apply ps (Row.blank t.nextId) with
        | some r => .ok (⟨t.nextId, 1⟩, ⟨t.rows ++ [r], t.nextId + 1⟩)
        | none => .error "Incorrect value" := by
  unfold exec
  simp only [Table.exec]
  cases as.apply ps (Row.blank t.nextId) <;> rfl

theorem apply_withStime (c : Column) (v : Value) (s : Nat) (r : Row) :
    Assignments.apply [(c, .param), (.stime, .param)] (v :: .int s :: ps) r =
      (r.set c v).map fun r1 => { r1 with stime := s } := by
  cases h : r.set c v <;> simp [Assignments.apply, Operand.value, Operand.arity, h]

theorem updateRows_cleanup (c : Nat) :
    ∀ rows : List Row, updateRows [(.orphan, .lit (.int 1))] cleanupWhere [.time c] rows =
      some (rows.map (Row.orphanIfExpired c))
  | [] => rfl
  | r :: rs => by
    simp only [updateRows, updateRow, updateRows_cleanup c rs, List.map_cons, Row.orphanIfExpired]
    cases h : r.expiresBefore c <;>
      simp [h, Assignments.apply, Assignments.arity, Operand.arity, Operand.value]

theorem Row.orphanIfExpired_cases (c : Nat) (r : Row) :
    r.orphanIfExpired c = r ∨
      (r.expiresBefore c = true ∧ r.orphanIfExpired c = { r with orphan := true }) := by
  unfold Row.orphanIfExpired
  split
  · exact .inr ⟨‹_›, rfl⟩
  · exact .inl rfl

theorem Row.expiredAt_of_expiresBefore {c now : Nat} {r : Row} (h : r.expiresBefore c = true)
    (hc : c ≤ unixSeconds now) : r.expiredAt now = true := by
  unfold Row.expiresBefore at h
  unfold Row.expiredAt
  split at h
  · simp only [decide_eq_true_eq, unixSeconds] at h hc ⊢
    omega
  · cases h

end Sql

/-- The column the `UPDATE` of an update kind writes besides `stime`. -/
def UpdateType.column : UpdateType → Option Column
  | .displayName => some .shareName
  | .permissions => some .permissions
  | .expiration => some .expiration
  | .password => some .shareWith
  | .description => some .description
  | .invalid => none

theorem UpdateType.column_ne_orphan (k : UpdateType) : k.column ≠ some .orphan := by
  cases k <;> decide

/-! ## Cleanup -/

namespace Manager

variable (m : Manager)

theorem cleanupExpiredShares_eq (now : Nat) (t : Table) :
    m.cleanupExpiredShares now t =
      if m.c.enableExpiredSharesCleanup then
        match m.fault cleanupStmt [.time (cleanupCutoff now)] with
        | some e => .error e
        | none => .ok { t with rows := t.rows.map (Row.orphanIfExpired (cleanupCutoff now)) }
      else .ok t := by
  unfold cleanupExpiredShares
  cases m.c.enableExpiredSharesCleanup with
  | false => rfl
  | true =>
    have harity : [Value.time (cleanupCutoff now)].length = cleanupStmt.arity := rfl
    cases hf : m.fault cleanupStmt [.time (cleanupCutoff now)] with
    | some e => simp [exec, check, hf, Except.map, show cleanupStmt.arity = 1 from rfl]
    | none =>
      simp only [exec, check, harity, if_true, hf]
      simp [Table.exec, cleanupStmt, updateRows_cleanup, Except.map]

theorem cleanupExpiredShares_rows {now : Nat} {t t' : Table}
    (h : m.cleanupExpiredShares now t = .ok t') :
    t'.nextId = t.nextId ∧
      (t'.rows = t.rows ∨ t'.rows = t.rows.map (Row.orphanIfExpired (cleanupCutoff now))) := by
  rw [cleanupExpiredShares_eq] at h
  split at h
  · split at h
    · cases h
    · cases h; exact ⟨rfl, .inr rfl⟩
  · cases h; exact ⟨rfl, .inl rfl⟩

/-- A janitor tick, or the sweep of `ListPublicShares`: a cleanup whose failure is ignored. -/
theorem sweep_rows (now : Nat) (t : Table) :
    (m.sweep now t).nextId = t.nextId ∧ ((m.sweep now t).rows = t.rows ∨
      (m.sweep now t).rows = t.rows.map (Row.orphanIfExpired (cleanupCutoff now))) := by
  unfold sweep
  split
  · exact m.cleanupExpiredShares_rows ‹_›
  · exact ⟨rfl, .inl rfl⟩

theorem cleanupCutoff_le {now : Nat} (h : 3600 ≤ unixSeconds now % 86400) :
    cleanupCutoff now ≤ unixSeconds now := by
  simp only [cleanupCutoff]
  split <;> omega

theorem getPublicShare_table (now : Nat) (u : User) (ref : PublicShareReference) (sign : Bool)
    (t : Table) :
    (m.getPublicShare now u ref sign t).2 = t ∨
      m.cleanupExpiredShares now t = .ok (m.getPublicShare now u ref sign t).2 := by
  unfold getPublicShare
  split
  · exact .inl rfl
  · split
    · split
      · exact .inl rfl
      · exact .inr ‹_›
    · split
      · split <;> exact .inl rfl
      · exact .inl rfl

end Manager

/-! ## Create -/

/-- The expiration a read gives back for the one a create was asked for. -/
def storedExpiration : Option Timestamp → Option Timestamp
  | some e => if e.seconds ≠ 0 then some ⟨uint64 (int64 e.seconds), 0⟩ else none
  | none => none

/-- The share a read rebuilds from the row of a share a create returned. -/
def PublicShare.stored (s : PublicShare) : PublicShare :=
  { s with expiration := storedExpiration s.expiration }

@[simp] theorem PublicShare.stored_passwordProtected (s : PublicShare) :
    s.stored.passwordProtected = s.passwordProtected := rfl

theorem versioned_hash_ne_empty (h : String) : "1|" ++ h ≠ "" := fun he => by
  have hl := congrArg String.length he
  rw [String.length_append, show "1|".length = 2 from rfl, String.length_empty] at hl
  omega

namespace Manager

variable (m : Manager)

/-- The row `CreatePublicShare` inserts rebuilds the share it returns, up to the expiration, and
is a live public link of the caller under the new id and the token of the call, without a hash
when the share has no password. -/
theorem createInsert_reads_back {now : Nat} {tkn : String} {u : User} {rInfo : ResourceInfo}
    {g : Grant} {d : String} {i : Bool} {sets : Assignments} {params : List Value}
    {share : String → PublicShare}
    (h : m.createInsert now tkn u rInfo g d i = .ok (sets, params, share)) {n : Nat} {r : Row}
    (hr : Assignments.apply sets params (Row.blank n) = some r) :
    r.share = (share (toString n)).stored ∧ r.id = n ∧ r.token = tkn ∧ r.orphan = false ∧
      r.shareType = publicShareType ∧ r.uidInitiator = formatUserID u.id ∧
      ((share (toString n)).passwordProtected = false → r.shareWith = "") := by
  unfold createInsert at h
  rcases hmd : rInfo.arbitraryMetadata with _ | md <;> simp only [hmd, reduceCtorEq] at h
  by_cases hp : g.password = "" <;>
    simp only [hp, ne_eq, not_true_eq_false, not_false_eq_true, if_false, if_true] at h
  on_goal 2 =>
    rcases hh : m.generateFromPassword g.password m.c.sharePasswordHashCost with e | pw <;>
      simp only [hashPassword, hh, Except.map, reduceCtorEq] at h
  all_goals rcases he : g.expiration with _ | e <;> simp only [he] at h
  all_goals (try split at h)
  all_goals
    simp only [Except.ok.injEq, Prod.mk.injEq] at h
    obtain ⟨rfl, rfl, rfl⟩ := h
    simp only [Assignments.apply, Operand.value, Operand.arity, List.headD_cons, List.cons_append,
      List.nil_append, List.drop_succ_cons, List.drop_zero, Row.set, toInt_ofInt_int64,
      ↓reduceIte, Option.some_bind, Option.some.injEq] at hr
    subst hr
    simp_all [Row.share, convertToCS3PublicShare, DBShare.ofRow, Row.blank, PublicShare.stored,
      storedExpiration, extractUserID, formatUserID, versioned_hash_ne_empty, toInt_ofInt_int64,
      -BitVec.toInt_ofInt]

theorem createPublicShare_congr (now : Nat) (tkn : String) (u : User) (rInfo : ResourceInfo)
    (g : Grant) (d : String) (i : Bool) {t t' : Table} (h : t.nextId = t'.nextId) :
    (m.createPublicShare now tkn u rInfo g d i t).1 = (m.createPublicShare now tkn u rInfo g d i t').1 ∧
      (((m.createPublicShare now tkn u rInfo g d i t).2 = t ∧
        (m.createPublicShare now tkn u rInfo g d i t').2 = t') ∨
      ∃ r : Row, r.id = t.nextId ∧ r.token = tkn ∧
        (m.createPublicShare now tkn u rInfo g d i t).2 = ⟨t.rows ++ [r], t.nextId + 1⟩ ∧
        (m.createPublicShare now tkn u rInfo g d i t').2 = ⟨t'.rows ++ [r], t'.nextId + 1⟩) := by
  unfold createPublicShare
  rcases hc : m.createInsert now tkn u rInfo g d i with e | ⟨sets, params, share⟩
  · exact ⟨rfl, .inl ⟨rfl, rfl⟩⟩
  · simp only [exec_insert_eq, ← h]
    rcases check m.fault (.insert sets) params with _ | e
    · rcases hap : Assignments.apply sets params (Row.blank t.nextId) with _ | r
      · exact ⟨rfl, .inl ⟨rfl, rfl⟩⟩
      · obtain ⟨-, hid, htk, -⟩ := m.createInsert_reads_back hc hap
        exact ⟨rfl, .inr ⟨r, hid, htk, rfl, rfl⟩⟩
    · exact ⟨rfl, .inl ⟨rfl, rfl⟩⟩

theorem createPublicShare_eq_ok {now : Nat} {tkn : String} {u : User} {rInfo : ResourceInfo}
    {g : Grant} {d : String} {i : Bool} {t t' : Table} {s : PublicShare}
    (hc : m.createPublicShare now tkn u rInfo g d i t = (.ok s, t')) :
    ∃ sets params share r, m.createInsert now tkn u rInfo g d i = .ok (sets, params, share) ∧
      Assignments.apply sets params (Row.blank t.nextId) = some r ∧
      s = share (toString t.nextId) ∧ t' = ⟨t.rows ++ [r], t.nextId + 1⟩ := by
  unfold createPublicShare at hc
  rcases hci : m.createInsert now tkn u rInfo g d i with e | ⟨sets, params, share⟩ <;>
    simp only [hci] at hc
  · exact absurd (congrArg Prod.fst hc) nofun
  rw [exec_insert_eq] at hc
  rcases hchk : check m.fault (.insert sets) params with _ | e <;> simp only [hchk] at hc
  · rcases hap : Assignments.apply sets params (Row.blank t.nextId) with _ | r <;>
      simp only [hap] at hc
    · exact absurd (congrArg Prod.fst hc) nofun
    · exact ⟨sets, params, share, r, rfl, hap, (Except.ok.inj (congrArg Prod.fst hc)).symm,
        (congrArg Prod.snd hc).symm⟩
  · exact absurd (congrArg Prod.fst hc) nofun

/-! ## Reads -/

theorem getPublicShareByToken_table (now : Nat) (token : String) (a : PublicShareAuthentication)
    (sign : Bool) (t : Table) :
    (m.getPublicShareByToken now token a sign t).2 = t ∨
      m.cleanupExpiredShares now t = .ok (m.getPublicShareByToken now token a sign t).2 := by
  unfold getPublicShareByToken
  split
  · exact .inl rfl
  · exact .inl rfl
  · dsimp only
    split
    · split
      · exact .inl rfl
      · exact .inr ‹_›
    · split
      · split
        · exact .inl rfl
        · split
          · split <;> exact .inl rfl
          · exact .inl rfl
      · exact .inl rfl

theorem collectShares_table {now : Nat} {sign : Bool} (P : Table → Prop)
    (hsweep : ∀ t, P t → P (m.sweep now t)) :
    ∀ (rows : List Row) (t : Table), P t → P (m.collectShares now sign rows t).2
  | [], _, ht => ht
  | r :: rs, t, ht => by
    simp only [collectShares]
    split
    · exact collectShares_table P hsweep rs _ (hsweep t ht)
    · split
      · split
        · exact ht
        · exact collectShares_table P hsweep rs t ht
      · exact collectShares_table P hsweep rs t ht

theorem listPublicShares_table {now : Nat} {u : User} {fs : List ListFilter}
    {client : Except String Stat} {sign : Bool} (P : Table → Prop)
    (hsweep : ∀ t, P t → P (m.sweep now t)) {t : Table} (ht : P t) :
    P (m.listPublicShares now u fs client sign t).2 := by
  unfold listPublicShares
  split
  · exact ht
  · dsimp only
    split
    · exact ht
    · exact m.collectShares_table P hsweep _ t ht

/-! ## Update and revoke -/

theorem updateField_column {up : Update} {c : Column} {v : Value}
    (h : m.updateField up = .ok (c, v)) : up.type.column = some c := by
  obtain ⟨type, grant, _, _⟩ := up
  cases type <;> simp only [updateField] at h
  case invalid => cases h
  case permissions | expiration => split at h <;> cases h; rfl
  case password =>
    split at h
    · split at h
      · cases h; rfl
      · split at h <;> cases h; rfl
    · cases h
  all_goals cases h; rfl

/-- What the `UPDATE` of `UpdatePublicShare` does to one row: nothing, or, on a row of the
caller that the reference selects, write the column of the update and `stime`. -/
def UpdatedRow (now : Nat) (u : User) (req : UpdatePublicShareRequest) (r r' : Row) : Prop :=
  r' = r ∨ (r.ownedBy u ∧ RefKey r req.ref ∧ ∃ c v r1, m.updateField req.update = .ok (c, v) ∧
    r.set c v = some r1 ∧ r' = { r1 with stime := unixSeconds now })

theorem updatedRow_frame {now : Nat} {u : User} {req : UpdatePublicShareRequest} {r r' : Row}
    (h : m.UpdatedRow now u req r r') :
    (∀ c, c ≠ .stime → req.update.type.column ≠ some c → r'.get c = r.get c) ∧
      (r'.stime = r.stime ∨ r'.stime = unixSeconds now) := by
  rcases h with rfl | ⟨-, -, c0, v, r1, hfield, hset, rfl⟩
  · exact ⟨fun _ _ _ => rfl, .inl rfl⟩
  · refine ⟨fun c hs hk => ?_, .inr rfl⟩
    rw [Row.get_set (Row.set_stime r1 _) hs]
    exact Row.get_set hset fun hc => hk (hc ▸ m.updateField_column hfield)

/-- `UpdatePublicShare` runs its `UPDATE`, then possibly the sweep of its closing
`GetPublicShare`, which marks orphan some rows that expire before the cleanup cutoff. -/
theorem updatePublicShare_rows (now : Nat) (u : User) (req : UpdatePublicShareRequest)
    (t : Table) :
    (m.updatePublicShare now u req t).2.nextId = t.nextId ∧
      List.Forall₂ (fun r r' => ∃ r1, m.UpdatedRow now u req r r1 ∧
        (r' = r1 ∨ r1.expiresBefore (cleanupCutoff now) = true ∧ r' = { r1 with orphan := true }))
        t.rows (m.updatePublicShare now u req t).2.rows := by
  have hsame : List.Forall₂ (fun r r' => ∃ r1, m.UpdatedRow now u req r r1 ∧
      (r' = r1 ∨ r1.expiresBefore (cleanupCutoff now) = true ∧ r' = { r1 with orphan := true }))
      t.rows t.rows :=
    List.forall₂_same.mpr fun r _ => ⟨r, .inl rfl, .inl rfl⟩
  unfold updatePublicShare
  split
  · exact ⟨rfl, hsame⟩
  · rename_i c v hfield
    split
    · exact ⟨rfl, hsame⟩
    · rename_i w key hsel
      dsimp only
      split
      · exact ⟨rfl, hsame⟩
      · rename_i t1 hexec
        have hupd : List.Forall₂ (m.UpdatedRow now u req) t.rows t1.rows := by
          refine (updateRows_some (exec_update_ok hexec).2).imp ?_
          rintro r r' (⟨hw, ha⟩ | ⟨-, rfl⟩)
          · obtain ⟨hkey, hown⟩ := (updateSelector_eval r _ key hsel).mp hw
            rw [apply_withStime] at ha
            obtain ⟨r1, hr1, rfl⟩ := Option.map_eq_some'.mp ha
            exact .inr ⟨hown, hkey, c, v, r1, hfield, hr1, rfl⟩
          · exact .inl rfl
        have hid := (exec_update_ok hexec).1
        rcases m.getPublicShare_table now u req.ref false t1 with h | h
        · rw [h]
          exact ⟨hid, hupd.imp fun r r1 hr => ⟨r1, hr, .inl rfl⟩⟩
        · obtain ⟨hid', hrows | hrows⟩ := m.cleanupExpiredShares_rows h <;>
            refine ⟨hid'.trans hid, ?_⟩ <;> rw [hrows]
          · exact hupd.imp fun r r1 hr => ⟨r1, hr, .inl rfl⟩
          · refine List.forall₂_map_right_iff.mpr (hupd.imp fun r r1 hr => ⟨r1, hr, ?_⟩)
            rcases Row.orphanIfExpired_cases (cleanupCutoff now) r1 with h | ⟨hexp, h⟩ <;> rw [h]
            · exact .inl rfl
            · exact .inr ⟨hexp, rfl⟩

theorem orphan_after_update {now : Nat} {u : User} {req : UpdatePublicShareRequest}
    {r r1 r' : Row} (h1 : m.UpdatedRow now u req r r1)
    (h : r' = r1 ∨ r1.expiresBefore (cleanupCutoff now) = true ∧ r' = { r1 with orphan := true }) :
    r'.orphan = r.orphan ∨ r'.orphan = true ∧ r'.expiresBefore (cleanupCutoff now) = true := by
  have horphan : r1.orphan = r.orphan := by
    simpa [Row.get] using
      (m.updatedRow_frame h1).1 .orphan (by decide) req.update.type.column_ne_orphan
  rcases h with rfl | ⟨hexp, rfl⟩
  · exact .inl horphan
  · exact .inr ⟨rfl, hexp⟩

/-- `RevokePublicShare` drops the rows of the reference that the caller owns or created, and
nothing else. -/
theorem revokePublicShare_rows (u : User) (ref : PublicShareReference) (t : Table) :
    ∃ sel : Row → Bool, (m.revokePublicShare u ref t).2 = { t with rows := t.rows.filter (!sel ·) } ∧
      ∀ r, sel r = true → RefKey r ref ∧ r.ownedBy u := by
  have hnone : t = { t with rows := t.rows.filter fun _ => !false } := by simp
  unfold revokePublicShare
  dsimp only
  split
  · exact ⟨fun _ => false, hnone, by simp⟩
  · rename_i w key hsel
    split
    · exact ⟨fun _ => false, hnone, by simp⟩
    · rename_i res t1 hexec
      refine ⟨w.eval [.str key, .str (formatUserID u.id), .str (formatUserID u.id)], ?_,
        fun r hr => (revokeSelector_eval r _ key hsel).mp hr⟩
      rw [← (exec_delete_ok hexec).2]
      split <;> rfl

theorem revokePublicShare_eq_ok {u : User} {ref : PublicShareReference} {t : Table}
    (h : (m.revokePublicShare u ref t).1 = .ok ()) :
    ∃ w key, revokeSelector ref = some (w, key) ∧
      (m.revokePublicShare u ref t).2 = { t with rows := t.rows.filter (fun r =>
        !w.eval [.str key, .str (formatUserID u.id), .str (formatUserID u.id)] r) } ∧
      ∃ r ∈ t.rows, w.eval [.str key, .str (formatUserID u.id), .str (formatUserID u.id)] r = true := by
  unfold revokePublicShare at h ⊢
  dsimp only at h ⊢
  split at h
  · cases h
  · next w key hsel =>
    simp only [hsel]
    split at h
    · cases h
    · next res t1 hexec =>
      obtain ⟨hcount, rfl⟩ := exec_delete_ok hexec
      split at h
      · cases h
      · next hne =>
        refine ⟨w, key, rfl, by simp [hexec, hne], ?_⟩
        simpa [hcount, List.countP_eq_zero] using hne

end Manager

end Reva
