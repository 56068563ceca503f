import Reva.Run

/-!
# Cleanup against the read-time expiry check

`EnableExpiredSharesCleanup` adds janitor ticks and the sweeps of the read paths, which mark
expired rows orphan; orphaned rows are invisible to the lookups of `GetPublicShare` and to
`ListPublicShares`, which without cleanup meet the same rows and reject them as expired. A row of
the deployment with cleanup stands for the same row without, or for it marked orphan once it
expired (`RowSim`), and every call keeps that relation. So the two deployments answer alike over
every run whose instants never decrease, up to the text of a `NotFound`, as long as no call falls
in the hour after midnight, no two creates draw the same token, no update gives an expired link a
new expiration, and the store accepts the cleanup statement (`cleanup_agrees_with_expiry_check`).
-/

namespace Reva

open Sql Manager

/-! ## Two deployments -/

section Deployments

variable (m : Manager) (b : Bool)

@[simp] theorem withCleanup_fault : (m.withCleanup b).fault = m.fault := rfl

@[simp] theorem withCleanup_lookup : (m.withCleanup b).lookup = m.lookup := rfl

@[simp] theorem withCleanup_addSignature : (m.withCleanup b).addSignature = m.addSignature := rfl

@[simp] theorem withCleanup_authenticate : (m.withCleanup b).authenticate = m.authenticate := rfl

@[simp] theorem withCleanup_updateField : (m.withCleanup b).updateField = m.updateField := rfl

@[simp] theorem withCleanup_createPublicShare :
    (m.withCleanup b).createPublicShare = m.createPublicShare := rfl

@[simp] theorem withCleanup_revokePublicShare :
    (m.withCleanup b).revokePublicShare = m.revokePublicShare := rfl

@[simp] theorem cleanupExpiredShares_disabled (now : Nat) (t : Table) :
    (m.withCleanup false).cleanupExpiredShares now t = .ok t := rfl

@[simp] theorem sweep_disabled (now : Nat) (t : Table) : (m.withCleanup false).sweep now t = t :=
  rfl

theorem cleanupExpiredShares_enabled (hfault : ∀ ps, m.fault cleanupStmt ps = none) (now : Nat)
    (t : Table) : (m.withCleanup true).cleanupExpiredShares now t =
      .ok { t with rows := t.rows.map (Row.orphanIfExpired (cleanupCutoff now)) } := by
  rw [cleanupExpiredShares_eq]
  simp [withCleanup, hfault]

end Deployments

/-! ## Rows -/

/-- Two answers agree: they are equal, or both are `NotFound`, whatever their texts. -/
def Reply.Agree (a b : Reply) : Prop :=
  a = b ∨ ∃ x y, a = .share (.error (.notFound x)) ∧ b = .share (.error (.notFound y))

/-- Row `rE` of the deployment with cleanup stands for row `rD` of the one without: the same
row, or that row marked orphan once it had expired. -/
def RowSim (now : Nat) (rE rD : Row) : Prop :=
  rE = rD ∨ (rE = { rD with orphan := true } ∧ rD.expiredAt now = true)

/-- The table with cleanup stands for the table without, row by row. -/
def TableSim (now : Nat) (tE tD : Table) : Prop :=
  tE.nextId = tD.nextId ∧ List.Forall₂ (RowSim now) tE.rows tD.rows

theorem Sql.Row.expiredAt_mono {r : Row} {now now' : Nat} (h : r.expiredAt now = true)
    (hle : now ≤ now') : r.expiredAt now' = true := by
  unfold Row.expiredAt at h ⊢
  split at h
  · simp only [decide_eq_true_eq] at h ⊢; omega
  · cases h

theorem Sql.Row.set_with_orphan (r : Row) (b : Bool) {c : Column} (hc : c ≠ .orphan) (v : Value) :
    ({ r with orphan := b } : Row).set c v = (r.set c v).map fun r' => { r' with orphan := b } := by
  cases c <;> cases v <;> first | rfl | exact absurd rfl hc | (simp only [Row.set]; split <;> rfl)

theorem Sql.Row.set_expiration {r r' : Row} {c : Column} {v : Value} (h : r.set c v = some r')
    (hc : c ≠ .expiration) : r'.expiration = r.expiration := by
  have hget : r'.get .expiration = r.get .expiration := Row.get_set h (Ne.symm hc)
  simp only [Row.get] at hget
  cases h1 : r'.expiration <;> cases h2 : r.expiration <;> simp_all [BitVec.toInt_inj]

namespace RowSim

variable {now : Nat} {rE rD : Row}

theorem refl (now : Nat) (r : Row) : RowSim now r r := .inl rfl

theorem exists_orphan (h : RowSim now rE rD) : ∃ b, rE = { rD with orphan := b } := by
  rcases h with rfl | ⟨rfl, -⟩
  · exact ⟨rE.orphan, rfl⟩
  · exact ⟨true, rfl⟩

theorem mono (h : RowSim now rE rD) {now' : Nat} (hle : now ≤ now') : RowSim now' rE rD := by
  rcases h with h | ⟨h, hdead⟩
  · exact .inl h
  · exact .inr ⟨h, Row.expiredAt_mono hdead hle⟩

theorem orphanIfExpired (h : RowSim now rE rD) {c : Nat} (hc : c ≤ unixSeconds now) :
    RowSim now (rE.orphanIfExpired c) rD := by
  rcases Row.orphanIfExpired_cases c rE with hsame | ⟨hexp, hmark⟩
  · rw [hsame]; exact h
  · rw [hmark]
    rcases h with rfl | ⟨rfl, hdead⟩
    · exact .inr ⟨rfl, Row.expiredAt_of_expiresBefore hexp hc⟩
    · exact .inr ⟨rfl, hdead⟩

end RowSim

namespace TableSim

variable {now : Nat} {tE tD : Table}

theorem mono (h : TableSim now tE tD) {now' : Nat} (hle : now ≤ now') : TableSim now' tE tD :=
  ⟨h.1, h.2.imp fun _ _ hr => hr.mono hle⟩

theorem orphanIfExpired (h : TableSim now tE tD) {c : Nat} (hc : c ≤ unixSeconds now) :
    TableSim now { tE with rows := tE.rows.map (Row.orphanIfExpired c) } tD :=
  ⟨h.1, List.forall₂_map_left_iff.mpr (h.2.imp fun _ _ hr => hr.orphanIfExpired hc)⟩

theorem sweep (m : Manager) (hclock : 3600 ≤ unixSeconds now % 86400) (h : TableSim now tE tD) :
    TableSim now ((m.withCleanup true).sweep now tE) tD := by
  obtain ⟨hid, hrows | hrows⟩ := (m.withCleanup true).sweep_rows now tE
  · exact ⟨hid.trans h.1, hrows ▸ h.2⟩
  · exact ⟨hid.trans h.1, hrows ▸ (h.orphanIfExpired (cleanupCutoff_le hclock)).2⟩

end TableSim

/-! ## Lookups -/

theorem queryRow_eq (fault : Fault) (w : Cond) (ps : List Value) (t : Table) :
    queryRow fault w ps t = match check fault (.select w) ps with
      | some e => .error e
      | none => .ok (t.rows.find? (w.eval ps)) := by
  unfold queryRow query
  cases check fault (.select w) ps <;> simp [Except.map]

theorem orphan_excluded {p : Row → Bool} (horphan : ∀ r, p r = true → r.orphan = false)
    (r : Row) : p { r with orphan := true } = false :=
  Bool.eq_false_iff.mpr fun h => by simpa using horphan _ h

theorem find?_sim {now : Nat} {α : Type} {p : Row → Bool} (key : Row → α)
    (horphan : ∀ r, p r = true → r.orphan = false)
    (hkey : ∀ a b, p a = true → p b = true → key a = key b) {lE lD : List Row}
    (h : List.Forall₂ (RowSim now) lE lD) : (lD.map key).Nodup →
      lE.find? p = lD.find? p ∨
        (lE.find? p = none ∧ ∃ r, lD.find? p = some r ∧ r.expiredAt now = true) := by
  induction h with
  | nil => exact fun _ => .inl rfl
  | @cons rE rD lE lD hr _ ih =>
    intro hnd
    rw [List.map_cons, List.nodup_cons] at hnd
    rcases hr with rfl | ⟨rfl, hdead⟩
    · cases hp : p rE
      · simp only [List.find?_cons, hp]
        exact ih hnd.2
      · simp [List.find?_cons, hp]
    · cases hpD : p rD
      · simp only [List.find?_cons, orphan_excluded horphan, hpD]
        exact ih hnd.2
      · refine .inr ⟨?_, rD, by simp [List.find?_cons, hpD], hdead⟩
        simp only [List.find?_cons, orphan_excluded horphan]
        have hD : lD.find? p = none := by
          cases hf : lD.find? p with
          | none => rfl
          | some y =>
            refine absurd ?_ hnd.1
            rw [hkey _ _ hpD (List.find?_some hf)]
            exact List.mem_map_of_mem key (List.mem_of_find?_eq_some hf)
        rcases ih hnd.2 with ih | ⟨hnone, -⟩
        · rw [ih, hD]
        · exact hnone

theorem find?_rel {now : Nat} (p : Row → Bool) (hp : ∀ r b, p { r with orphan := b } = p r)
    {lE lD : List Row} (h : List.Forall₂ (RowSim now) lE lD) :
    Option.Rel (RowSim now) (lE.find? p) (lD.find? p) := by
  induction h with
  | nil => exact .none
  | @cons rE rD lE lD hr _ ih =>
    obtain ⟨b, hb⟩ := hr.exists_orphan
    have hpr : p rE = p rD := hb ▸ hp rD b
    simp only [List.find?_cons, hpr]
    cases p rD
    · exact ih
    · exact .some hr

@[simp] theorem DBShare.ofRow_with_orphan (r : Row) (b : Bool) :
    DBShare.ofRow { r with orphan := b } = DBShare.ofRow r := rfl

theorem eval_with_orphan {w : Cond} {ps : List Value} {P : Row → Prop}
    (h : ∀ r, w.eval ps r = true ↔ P r) (hP : ∀ r b, P { r with orphan := b } ↔ P r)
    (r : Row) (b : Bool) : w.eval ps { r with orphan := b } = w.eval ps r := by
  rw [Bool.eq_iff_iff, h, h, hP]

theorem filter_sim {now : Nat} (p : Row → Bool) (hp : ∀ r b, p { r with orphan := b } = p r)
    {lE lD : List Row} (h : List.Forall₂ (RowSim now) lE lD) :
    List.Forall₂ (RowSim now) (lE.filter p) (lD.filter p) := by
  induction h with
  | nil => exact .nil
  | @cons rE rD lE lD hr _ ih =>
    obtain ⟨b, hb⟩ := hr.exists_orphan
    have hpr : p rE = p rD := hb ▸ hp rD b
    simp only [List.filter_cons, hpr]
    cases p rD
    · exact ih
    · exact .cons hr ih

theorem collectShares_cons_congr {m m' : Manager} (hsig : m.addSignature = m'.addSignature)
    {now : Nat} {sign : Bool} (r : Row) {rs rs' : List Row}
    (h : ∀ t t', (m.collectShares now sign rs t).1 = (m'.collectShares now sign rs' t').1)
    (t t' : Table) :
    (m.collectShares now sign (r :: rs) t).1 = (m'.collectShares now sign (r :: rs') t').1 := by
  simp only [collectShares, hsig]
  split
  · exact h _ _
  · split
    · split <;> simp only [h t t']
    · simp only [h t t']

theorem expired_convert_ofRow {now : Nat} {r : Row} {s : DBShare}
    (hs : s.expiration = r.expiration.map BitVec.toInt) :
    expired now (convertToCS3PublicShare s) = r.expiredAt now := by
  unfold expired Row.expiredAt convertToCS3PublicShare
  rw [hs]
  cases r.expiration <;> simp [Timestamp.toInstant]

theorem UpdateType.column_ne_key (k : UpdateType) :
    k.column ≠ some .id ∧ k.column ≠ some .token := by
  cases k <;> decide

/-- Whether a call gives a new expiration to an expired link that the caller owns or created and
that the reference selects: the one write that brings back a link the cleanup may have marked
orphan. -/
def Call.revives (now : Nat) (t : Table) : Call → Bool
  | .update u req => req.update.type == .expiration &&
    t.rows.any fun r => decide (r.ownedBy u) && decide (RefKey r req.ref) && r.expiredAt now
  | _ => false

/-- No call of a run, against the table of this deployment, revives an expired link. -/
def Manager.revivesNone (m : Manager) : Table → List (Nat × Call) → Bool
  | _, [] => true
  | t, (now, c) :: cs => !c.revives now t && m.revivesNone (m.call now t c).2 cs

theorem collectShares_filter_sim {m m' : Manager} (hsig : m.addSignature = m'.addSignature)
    {now : Nat} (sign : Bool) {p : Row → Bool}
    (horphan : ∀ r, p r = true → r.orphan = false) {lE lD : List Row}
    (h : List.Forall₂ (RowSim now) lE lD) (t t' : Table) :
    (m.collectShares now sign (lE.filter p) t).1 = (m'.collectShares now sign (lD.filter p) t').1 := by
  induction h generalizing t t' with
  | nil => rfl
  | @cons rE rD lE lD hr _ ih =>
    rcases hr with rfl | ⟨rfl, hdead⟩
    · simp only [List.filter_cons]
      split
      · exact collectShares_cons_congr hsig rE ih t t'
      · exact ih t t'
    · simp only [List.filter_cons, orphan_excluded horphan, Bool.false_eq_true, ↓reduceIte]
      split
      · have hexp : expired now (convertToCS3PublicShare (DBShare.ofRow rD)) = true := by
          rw [expired_convert_ofRow rfl, hdead]
        simp only [collectShares, hexp, ↓reduceIte]
        exact ih _ _
      · exact ih t t'

namespace Manager

variable (m : Manager) {now : Nat} {tE tD : Table}

theorem lookup_sim (hwf : tD.Wf) (hsim : TableSim now tE tD) (u : User)
    (ref : PublicShareReference) :
    m.lookup tE u ref = m.lookup tD u ref ∨
      ((∃ x, m.lookup tE u ref = .error (.notFound x)) ∧
        ∃ s pw, m.lookup tD u ref = .ok (s, pw) ∧ expired now s = true) := by
  cases ref with
  | id i =>
    simp only [lookup, getByID, queryRow_eq]
    cases check m.fault (.select getByIDWhere)
      [.int publicShareType, .str i, .str (formatUserID u.id), .str (formatUserID u.id)] with
    | some e => exact .inl rfl
    | none =>
      have hsel := fun r => getByIDWhere_eval r (formatUserID u.id) i
      rcases find?_sim Row.id (fun r h => ((hsel r).mp h).1)
          (fun a b ha hb =>
            toString_nat_inj (((hsel a).mp ha).2.2.1.trans ((hsel b).mp hb).2.2.1.symm))
          hsim.2 hwf.ids_nodup with h | ⟨hE, r, hD, hdead⟩
      · exact .inl (by rw [h])
      · refine .inr ⟨⟨i, by simp [hE]⟩, convertToCS3PublicShare { DBShare.ofRow r with id := i },
          r.shareWith, by simp [hD], ?_⟩
        rw [expired_convert_ofRow rfl, hdead]
  | token tk =>
    simp only [lookup, getByToken, queryRow_eq]
    split
    · cases check m.fault (.select getByTokenWhere) [.int publicShareType, .str tk] with
      | some e => exact .inl rfl
      | none =>
        have hsel := fun r => getByTokenWhere_eval r tk
        rcases find?_sim Row.token (fun r h => ((hsel r).mp h).1)
            (fun a b ha hb => ((hsel a).mp ha).2.2.trans ((hsel b).mp hb).2.2.symm)
            hsim.2 hwf.tokens_nodup with h | ⟨hE, r, hD, hdead⟩
        · exact .inl (by rw [h])
        · refine .inr ⟨⟨tk, by simp [hE]⟩,
            convertToCS3PublicShare { DBShare.ofRow r with token := tk }, r.shareWith,
            by simp [hD], ?_⟩
          rw [expired_convert_ofRow rfl, hdead]
    · exact .inl rfl
  | none => exact .inl rfl

theorem getPublicShare_sim (hfault : ∀ ps, m.fault cleanupStmt ps = none)
    (hclock : 3600 ≤ unixSeconds now % 86400) (hwf : tD.Wf) (hsim : TableSim now tE tD)
    (u : User) (ref : PublicShareReference) (sign : Bool) :
    Reply.Agree (.share ((m.withCleanup true).getPublicShare now u ref sign tE).1)
        (.share ((m.withCleanup false).getPublicShare now u ref sign tD).1) ∧
      TableSim now ((m.withCleanup true).getPublicShare now u ref sign tE).2
        ((m.withCleanup false).getPublicShare now u ref sign tD).2 := by
  unfold getPublicShare
  simp only [withCleanup_lookup, withCleanup_addSignature, cleanupExpiredShares_enabled m hfault,
    cleanupExpiredShares_disabled]
  rcases m.lookup_sim hwf hsim u ref with h | ⟨⟨x, hE⟩, s, pw, hD, hexp⟩
  · rw [h]
    rcases m.lookup tD u ref with e | ⟨s, pw⟩
    · exact ⟨.inl rfl, hsim⟩
    · dsimp only
      split
      · exact ⟨.inl rfl, hsim.orphanIfExpired (cleanupCutoff_le hclock)⟩
      · split
        · split <;> exact ⟨.inl rfl, hsim⟩
        · exact ⟨.inl rfl, hsim⟩
  · rw [hE, hD]
    simp only [hexp, if_true]
    exact ⟨.inr ⟨_, _, rfl, rfl⟩, hsim⟩

theorem getPublicShareByToken_sim (hfault : ∀ ps, m.fault cleanupStmt ps = none)
    (hclock : 3600 ≤ unixSeconds now % 86400) (hsim : TableSim now tE tD) (tk : String)
    (a : PublicShareAuthentication) (sign : Bool) :
    ((m.withCleanup true).getPublicShareByToken now tk a sign tE).1 =
        ((m.withCleanup false).getPublicShareByToken now tk a sign tD).1 ∧
      TableSim now ((m.withCleanup true).getPublicShareByToken now tk a sign tE).2
        ((m.withCleanup false).getPublicShareByToken now tk a sign tD).2 := by
  unfold getPublicShareByToken
  simp only [withCleanup_fault, withCleanup_authenticate, withCleanup_addSignature,
    cleanupExpiredShares_enabled m hfault, cleanupExpiredShares_disabled, queryRow_eq]
  cases check m.fault (.select getPublicShareByTokenWhere) [.int publicShareType, .str tk] with
  | some e => exact ⟨rfl, hsim⟩
  | none =>
    have hsel := fun r => getPublicShareByTokenWhere_eval r tk
    have hrel := find?_rel _ (eval_with_orphan hsel fun _ _ => .rfl) hsim.2
    generalize tE.rows.find? _ = oE at hrel ⊢
    generalize tD.rows.find? _ = oD at hrel ⊢
    cases hrel with
    | none => exact ⟨rfl, hsim⟩
    | some hr =>
      obtain ⟨b, rfl⟩ := hr.exists_orphan
      simp only [DBShare.ofRow_with_orphan]
      split
      · exact ⟨rfl, hsim.orphanIfExpired (cleanupCutoff_le hclock)⟩
      · repeat' split
        all_goals exact ⟨rfl, hsim⟩

theorem updateRow_sim {col : Column} {v : Value} {s : Nat} {w : Cond} {ps : List Value}
    (hw : ∀ r b, w.eval ps { r with orphan := b } = w.eval ps r) (hcol : col ≠ .orphan)
    {rE rD : Row} (hr : RowSim now rE rD)
    (hdead : w.eval ps rD = true → rD.expiredAt now = true → col ≠ .expiration) :
    Option.Rel (RowSim now) (updateRow [(col, .param), (.stime, .param)] w (v :: .int s :: ps) rE)
      (updateRow [(col, .param), (.stime, .param)] w (v :: .int s :: ps) rD) := by
  rcases hr with rfl | ⟨rfl, hexp⟩
  · generalize updateRow _ w _ rE = o
    cases o with
    | none => exact .none
    | some r => exact .some (.refl now r)
  · simp only [updateRow, Assignments.arity, Operand.arity, Nat.reduceAdd, List.drop,
      apply_withStime]
    rw [hw]
    cases hsel : w.eval ps rD
    · exact .some (.inr ⟨rfl, hexp⟩)
    · simp only [eq_self_iff_true, if_true]
      rw [Row.set_with_orphan _ _ hcol]
      cases hset : rD.set col v with
      | none => exact .none
      | some r1 =>
        refine .some (.inr ⟨rfl, ?_⟩)
        show r1.expiredAt now = true
        rw [Row.expiredAt, Row.set_expiration hset (hdead hsel hexp)]
        exact hexp

theorem updateRows_sim {col : Column} {v : Value} {s : Nat} {w : Cond} {ps : List Value}
    (hw : ∀ r b, w.eval ps { r with orphan := b } = w.eval ps r) (hcol : col ≠ .orphan)
    {lE lD : List Row} (h : List.Forall₂ (RowSim now) lE lD) :
    (∀ r ∈ lD, w.eval ps r = true → r.expiredAt now = true → col ≠ .expiration) →
      Option.Rel (List.Forall₂ (RowSim now))
        (updateRows [(col, .param), (.stime, .param)] w (v :: .int s :: ps) lE)
        (updateRows [(col, .param), (.stime, .param)] w (v :: .int s :: ps) lD) := by
  induction h with
  | nil => exact fun _ => .some .nil
  | @cons rE rD lE lD hr _ ih =>
    intro hdead
    have hrow := updateRow_sim (v := v) (s := s) hw hcol hr (hdead rD (List.mem_cons_self _ _))
    have ih := ih fun r hr => hdead r (List.mem_cons_of_mem _ hr)
    simp only [updateRows]
    generalize updateRow _ w _ rE = oE at hrow ⊢
    generalize updateRow _ w _ rD = oD at hrow ⊢
    generalize updateRows _ w _ lE = oE' at ih ⊢
    generalize updateRows _ w _ lD = oD' at ih ⊢
    cases hrow with
    | none => exact .none
    | some hr' =>
      cases ih with
      | none => exact .none
      | some hl' => exact .some (.cons hr' hl')

theorem exec_update_sim {col : Column} {v : Value} {s : Nat} {w : Cond} {ps : List Value}
    (hw : ∀ r b, w.eval ps { r with orphan := b } = w.eval ps r) (hcol : col ≠ .orphan)
    (hsim : TableSim now tE tD)
    (hdead : ∀ r ∈ tD.rows, w.eval ps r = true → r.expiredAt now = true →
      col ≠ .expiration) :
    (∃ e, exec m.fault (.update [(col, .param), (.stime, .param)] w) (v :: .int s :: ps) tE =
        .error e ∧
      exec m.fault (.update [(col, .param), (.stime, .param)] w) (v :: .int s :: ps) tD =
        .error e) ∨
    ∃ resE resD t1E t1D,
      exec m.fault (.update [(col, .param), (.stime, .param)] w) (v :: .int s :: ps) tE =
        .ok (resE, t1E) ∧
      exec m.fault (.update [(col, .param), (.stime, .param)] w) (v :: .int s :: ps) tD =
        .ok (resD, t1D) ∧ TableSim now t1E t1D := by
  unfold exec
  cases check m.fault (.update [(col, .param), (.stime, .param)] w) (v :: .int s :: ps) with
  | some e => exact .inl ⟨e, rfl, rfl⟩
  | none =>
    have hrel := updateRows_sim (v := v) (s := s) hw hcol hsim.2 hdead
    simp only [Table.exec]
    generalize updateRows _ w _ tE.rows = oE at hrel ⊢
    generalize updateRows _ w _ tD.rows = oD at hrel ⊢
    cases hrel with
    | none => exact .inl ⟨_, rfl, rfl⟩
    | some hl => exact .inr ⟨_, _, _, _, rfl, rfl, hsim.1, hl⟩

theorem updatePublicShare_sim (hfault : ∀ ps, m.fault cleanupStmt ps = none)
    (hclock : 3600 ≤ unixSeconds now % 86400) (hwf : tD.Wf) (hsim : TableSim now tE tD)
    (u : User) (req : UpdatePublicShareRequest)
    (hrev : (Call.update u req).revives now tD = false) :
    Reply.Agree (.share ((m.withCleanup true).updatePublicShare now u req tE).1)
        (.share ((m.withCleanup false).updatePublicShare now u req tD).1) ∧
      TableSim now ((m.withCleanup true).updatePublicShare now u req tE).2
        ((m.withCleanup false).updatePublicShare now u req tD).2 := by
  unfold updatePublicShare
  simp only [withCleanup_updateField, withCleanup_fault]
  rcases hf : m.updateField req.update with e | ⟨col, v⟩
  · exact ⟨.inl rfl, hsim⟩
  · have hcolumn := m.updateField_column hf
    rcases hs : updateSelector req.ref with _ | ⟨w, key⟩
    · exact ⟨.inl rfl, hsim⟩
    · dsimp only
      have hsel := fun r => updateSelector_eval r (formatUserID u.id) key hs
      generalize [Value.str key, .str (formatUserID u.id), .str (formatUserID u.id)] = ps
        at hsel ⊢
      have hdead : ∀ r ∈ tD.rows, w.eval ps r = true → r.expiredAt now = true →
          col ≠ .expiration := by
        rintro r hr hr' hexp rfl
        have htype : req.update.type = .expiration := by
          cases h : req.update.type <;> simp_all [UpdateType.column]
        obtain ⟨hkey, hown⟩ := (hsel r).mp hr'
        simp only [Call.revives, htype, beq_self_eq_true, Bool.true_and, List.any_eq_false,
          Bool.and_eq_true, decide_eq_true_eq, not_and] at hrev
        exact hrev r hr ⟨hown, hkey⟩ hexp
      have hcol : col ≠ .orphan := fun h => req.update.type.column_ne_orphan (h ▸ hcolumn)
      rcases m.exec_update_sim (v := v) (s := unixSeconds now)
          (eval_with_orphan hsel fun _ _ => .rfl) hcol hsim hdead with
        ⟨e, hE, hD⟩ | ⟨_, _, t1E, t1D, hE, hD, hsim1⟩
      · rw [hE, hD]
        exact ⟨.inl rfl, hsim⟩
      · rw [hE, hD]
        have hkeys := req.update.type.column_ne_key
        have hwf1 : t1D.Wf := hwf.of_sameKeys (exec_setStime_sameKeys
          (fun h => hkeys.1 (h ▸ hcolumn)) (fun h => hkeys.2 (h ▸ hcolumn)) hD)
        exact m.getPublicShare_sim hfault hclock hwf1 hsim1 u req.ref false

theorem revokePublicShare_sim (hsim : TableSim now tE tD) (u : User) (ref : PublicShareReference) :
    (m.revokePublicShare u ref tE).1 = (m.revokePublicShare u ref tD).1 ∧
      TableSim now (m.revokePublicShare u ref tE).2 (m.revokePublicShare u ref tD).2 := by
  unfold revokePublicShare
  dsimp only
  rcases hs : revokeSelector ref with _ | ⟨w, key⟩
  · exact ⟨rfl, hsim⟩
  · dsimp only
    have hsel := fun r => revokeSelector_eval r (formatUserID u.id) key hs
    generalize [Value.str key, .str (formatUserID u.id), .str (formatUserID u.id)] = ps at hsel ⊢
    have hw := eval_with_orphan hsel fun _ _ => .rfl
    have hcount := (filter_sim _ hw hsim.2).length_eq
    have hfilter := filter_sim (fun r => !w.eval ps r) (fun r b => congrArg not (hw r b)) hsim.2
    unfold exec
    cases check m.fault (.delete w) ps with
    | some e => exact ⟨rfl, hsim⟩
    | none =>
      simp only [Table.exec, List.countP_eq_length_filter, hcount]
      split <;> exact ⟨rfl, hsim.1, hfilter⟩

theorem createPublicShare_sim (hsim : TableSim now tE tD) (tkn : String) (u : User)
    (rInfo : ResourceInfo) (g : Grant) (d : String) (i : Bool) :
    (m.createPublicShare now tkn u rInfo g d i tE).1 =
        (m.createPublicShare now tkn u rInfo g d i tD).1 ∧
      TableSim now (m.createPublicShare now tkn u rInfo g d i tE).2
        (m.createPublicShare now tkn u rInfo g d i tD).2 := by
  obtain ⟨hres, ⟨hE, hD⟩ | ⟨r, -, -, hE, hD⟩⟩ :=
    m.createPublicShare_congr now tkn u rInfo g d i hsim.1
  · exact ⟨hres, by rw [hE, hD]; exact hsim⟩
  · refine ⟨hres, ?_⟩
    rw [hE, hD]
    exact ⟨by simp [hsim.1], List.rel_append hsim.2 (.cons (.refl now r) .nil)⟩

theorem listPublicShares_sim (hclock : 3600 ≤ unixSeconds now % 86400) (hsim : TableSim now tE tD)
    (u : User) (fs : List ListFilter) (client : Except String Stat) (sign : Bool) :
    ((m.withCleanup true).listPublicShares now u fs client sign tE).1 =
        ((m.withCleanup false).listPublicShares now u fs client sign tD).1 ∧
      TableSim now ((m.withCleanup true).listPublicShares now u fs client sign tE).2
        ((m.withCleanup false).listPublicShares now u fs client sign tD).2 := by
  refine ⟨?_, ?_⟩
  · unfold listPublicShares
    rcases ho : uidOwnerFilters u client fs with e | owners
    · rfl
    · have hq := (listQuery_eval fs (uidOwnerFilters_ok ho).1).2
      simp only [withCleanup_fault, query]
      cases check m.fault (.select (listQuery (filterClauses fs) owners).1)
        (listQuery (filterClauses fs) owners).2 with
      | some e => rfl
      | none =>
        dsimp only
        exact collectShares_filter_sim (by rfl) sign (fun r h => ((hq r).mp h).1.1) hsim.2 tE tD
  · have hD : ((m.withCleanup false).listPublicShares now u fs client sign tD).2 = tD :=
      listPublicShares_table _ (· = tD) (fun t h => by rw [sweep_disabled]; exact h) rfl
    rw [hD]
    exact listPublicShares_table _ (TableSim now · tD) (fun t h => h.sweep m hclock) hsim

theorem agree_of_sim {α : Type} {f : α → Reply} {p q : α × Table}
    (h : p.1 = q.1 ∧ TableSim now p.2 q.2) :
    Reply.Agree (p.map f id).1 (q.map f id).1 ∧ TableSim now (p.map f id).2 (q.map f id).2 :=
  ⟨.inl (congrArg f h.1), h.2⟩

/-- One call answers alike in both deployments, up to the text of a `NotFound`, and keeps the
tables related, unless it gives an expired link a new expiration. -/
theorem call_sim (hfault : ∀ ps, m.fault cleanupStmt ps = none)
    (hclock : 3600 ≤ unixSeconds now % 86400) (hwf : tD.Wf) (hsim : TableSim now tE tD) (c : Call)
    (hrev : c.revives now tD = false) :
    Reply.Agree ((m.withCleanup true).call now tE c).1 ((m.withCleanup false).call now tD c).1 ∧
      TableSim now ((m.withCleanup true).call now tE c).2
        ((m.withCleanup false).call now tD c).2 := by
  cases c with
  | create tkn u rInfo g d i => exact agree_of_sim (m.createPublicShare_sim hsim tkn u rInfo g d i)
  | update u req => exact m.updatePublicShare_sim hfault hclock hwf hsim u req hrev
  | get u ref sign => exact m.getPublicShare_sim hfault hclock hwf hsim u ref sign
  | list u fs client sign =>
    exact agree_of_sim (m.listPublicShares_sim hclock hsim u fs client sign)
  | revoke u ref => exact agree_of_sim (m.revokePublicShare_sim hsim u ref)
  | getByToken tk a sign =>
    exact agree_of_sim (m.getPublicShareByToken_sim hfault hclock hsim tk a sign)
  | tick => exact ⟨.inl rfl, by rw [call, call, sweep_disabled]; exact hsim.sweep m hclock⟩

/-- The run lemma: from related tables, the table without cleanup well formed and holding none of
the tokens the run will draw, the two deployments answer every call alike. -/
theorem run_sim (hfault : ∀ ps, m.fault cleanupStmt ps = none) :
    ∀ (calls : List (Nat × Call)) (prev : Nat) (tE tD : Table),
      (∀ p ∈ calls, prev ≤ p.1) → calls.Pairwise (fun a b => a.1 ≤ b.1) →
      (∀ p ∈ calls, 3600 ≤ unixSeconds p.1 % 86400) →
      (calls.filterMap fun p => p.2.createToken).Nodup →
      (∀ tk ∈ calls.filterMap (fun p => p.2.createToken), tk ∉ tD.rows.map Row.token) →
      (m.withCleanup false).revivesNone tD calls = true → tD.Wf → TableSim prev tE tD →
      List.Forall₂ Reply.Agree ((m.withCleanup true).run tE calls)
        ((m.withCleanup false).run tD calls)
  | [], _, _, _, _, _, _, _, _, _, _, _ => .nil
  | (now, c) :: cs, prev, tE, tD, hprev, hmono, hclock, hnodup, hfresh, hrev, hwf, hsim => by
    simp only [revivesNone, Bool.and_eq_true, Bool.not_eq_true'] at hrev
    obtain ⟨hafter, hmono'⟩ := List.pairwise_cons.mp hmono
    obtain ⟨hagree, hsim'⟩ := m.call_sim hfault (hclock _ (List.mem_cons_self _ _)) hwf
      (hsim.mono (hprev _ (List.mem_cons_self _ _))) c hrev.1
    have hhead : ∀ tk, c.createToken = some tk →
        (tk :: cs.filterMap fun p => p.2.createToken).Nodup ∧ tk ∉ tD.rows.map Row.token :=
      fun tk hc => by
        simp only [List.filterMap_cons, hc] at hnodup hfresh
        exact ⟨hnodup, hfresh tk (List.mem_cons_self _ _)⟩
    have htail := (List.sublist_cons_self (now, c) cs).filterMap fun p => p.2.createToken
    refine .cons hagree (run_sim hfault cs now _ _ hafter hmono' (fun p hp => hclock p (.tail _ hp))
      (hnodup.sublist htail) (fun tk htk hmem => ?_) hrev.2
      ((m.withCleanup false).call_wf hwf fun tk hc => (hhead tk hc).2) hsim')
    rcases (m.withCleanup false).call_tokens hmem with h | h
    · exact hfresh tk (htail.subset htk) h
    · exact (List.nodup_cons.mp (hhead tk h).1).1 htk

end Manager

/-! ## Runs -/

/-- Over every run from an empty table whose instants never decrease, none in the hour after
midnight, whose creates draw distinct tokens and none of whose updates gives an expired link a new
expiration, on a store that accepts the cleanup statement, the deployment with cleanup answers
every call as the one without, up to the text of a `NotFound`. -/
theorem cleanup_agrees_with_expiry_check (m : Manager) (calls : List (Nat × Call))
    (hmono : calls.Pairwise fun a b => a.1 ≤ b.1)
    (hclock : ∀ p ∈ calls, 3600 ≤ unixSeconds p.1 % 86400)
    (htokens : (calls.filterMap fun p => p.2.createToken).Nodup)
    (hrevive : (m.withCleanup false).revivesNone Table.empty calls = true)
    (hfault : ∀ ps, m.fault cleanupStmt ps = none) :
    List.Forall₂ Reply.Agree ((m.withCleanup true).run Table.empty calls)
      ((m.withCleanup false).run Table.empty calls) :=
  m.run_sim hfault calls 0 _ _ (fun _ _ => Nat.zero_le _) hmono hclock htokens
    (fun _ _ h => by simp [Table.empty] at h) hrevive Table.Wf.empty ⟨rfl, .nil⟩

/-- A link created at 01:00 that expires ten seconds later, read by id after a tick, listed, read
by token and revoked. -/
def expiredLinkRun : List (Nat × Call) :=
  [(3600000000000, .create "tok" linkOwner homeFile ⟨1, "", some ⟨3610, 0⟩⟩ "" false),
    (3620000000000, .tick),
    (3630000000000, .get linkOwner (.id "1") false),
    (3640000000000, .list linkOwner [] (.ok fun _ => none) false),
    (3650000000000, .getByToken "tok" ⟨"", none⟩ false),
    (3660000000000, .revoke linkOwner (.id "1"))]

theorem expired_link_run_agrees :
    List.Forall₂ Reply.Agree (((sampleManager true).withCleanup true).run Table.empty expiredLinkRun)
      (((sampleManager true).withCleanup false).run Table.empty expiredLinkRun) :=
  cleanup_agrees_with_expiry_check (sampleManager true) expiredLinkRun (by decide) (by decide)
    (by decide) (by decide) (fun _ => rfl)

/-- The same link read by id once it expired, then given an expiration an hour later. -/
def revivalRun : List (Nat × Call) :=
  [(3600000000000, .create "tok" linkOwner homeFile ⟨1, "", some ⟨3610, 0⟩⟩ "" false),
    (3620000000000, .get linkOwner (.id "1") false),
    (3630000000000, .update linkOwner
      ⟨.id "1", ⟨.expiration, some ⟨1, "", some ⟨7200, 0⟩⟩, "", ""⟩⟩)]

/-- With cleanup, a read of an expired link by id is `NotFound` under another text once a tick has
marked the link orphan; and a link that a read marked orphan stays `NotFound` after an update
gives it a future expiration, while without cleanup the update returns it. -/
theorem cleanup_changes_answers :
    (sampleManager true).run Table.empty expiredLinkRun ≠
        (sampleManager false).run Table.empty expiredLinkRun ∧
      (sampleManager true).run Table.empty revivalRun ≠
        (sampleManager false).run Table.empty revivalRun := by
  decide

end Reva
