import Reva.Janitor

/-!
# What a run keeps over time

After its `INSERT`, no statement of the manager writes the columns that say which link a row is:
its id, type, owner and initiator, item, token, and its quicklink and internal flags
(`Row.identity`). The counter of `oc_share` only grows, and rows are appended under it. So every
row a run leaves, and every share a run answers, comes from one of two places. Either it is a row
of the starting table with the same identity, or it was created by the run under an id at or past
the starting counter (`run_descends`). The cleanup of reads and ticks changes rows in their orphan
flag only, which they set and never clear (`Table.Swept`); an update changes a row only for its
owner or creator; a revoke drops only their rows (`call_rows_trace`, `call_keeps_or_revokes`).

Four results follow:
* the ids of the links the creates of a run make strictly increase (`created_ids_increase`);
* a link revoked by its id stays removed (`revoked_link_stays_revoked`);
* a link keeps its owner, creator, resource and token over every run (`link_identity_fixed`);
* only a call of a link's owner or creator that names it removes the link or changes it in more
  than its orphan flag, which no call clears (`links_change_only_by_owner`).
-/

namespace Reva

open Sql Manager

/-- The shares a reply carries. -/
def Reply.answered : Reply → List PublicShare
  | .share (.ok s) => [s]
  | .shares (.ok ss) => ss
  | _ => []

theorem Reply.forall_answered_share {P : PublicShare → Prop} {r : Except Error PublicShare} :
    (∀ s ∈ (Reply.share r).answered, P s) ↔ ∀ s, r = .ok s → P s := by
  cases r <;> simp [Reply.answered]

/-- The id of the link a call created, for a create that succeeded. -/
def Call.createdId : Call → Reply → Option String
  | .create .., .share (.ok s) => some s.id
  | _, _ => none

/-- The columns of a row that say which link it is. -/
structure LinkIdentity where
  id : Nat
  shareType : Nat
  uidOwner : String
  uidInitiator : String
  itemType : String
  fileidPrefix : String
  itemSource : String
  fileSource : Nat
  token : String
  quicklink : Bool
  internal : Bool
  deriving DecidableEq, Repr

/-- The columns no statement of the manager writes after the `INSERT`. -/
def Sql.Row.identity (r : Row) : LinkIdentity :=
  ⟨r.id, r.shareType, r.uidOwner, r.uidInitiator, r.itemType, r.fileidPrefix, r.itemSource,
    r.fileSource, r.token, r.quicklink, r.internal⟩

/-- What a share says about its link: its id, owner, creator, resource and token. -/
structure ShareIdentity where
  id : String
  owner : UserId
  creator : UserId
  resourceId : ResourceId
  token : String
  deriving DecidableEq, Repr

def PublicShare.identity (s : PublicShare) : ShareIdentity :=
  ⟨s.id, s.owner, s.creator, s.resourceId, s.token⟩

theorem Sql.Row.share_identity_congr {r r' : Row} (h : r'.identity = r.identity) :
    r'.share.identity = r.share.identity := by
  simp only [Row.identity, LinkIdentity.mk.injEq] at h
  obtain ⟨h1, -, h3, h4, -, h6, h7, -, h9, -, -⟩ := h
  simp only [Row.share, convertToCS3PublicShare, DBShare.ofRow, PublicShare.identity, h1, h3, h4,
    h6, h7, h9]

theorem ReadsRow.identity {s : PublicShare} {r : Row} (h : ReadsRow s r) :
    s.identity = r.share.identity :=
  (congrArg PublicShare.identity h : { s with signature := none }.identity = _)

theorem Sql.Row.id_eq_of_identity {r r' : Row} (he : r'.identity = r.identity) : r'.id = r.id :=
  congrArg LinkIdentity.id he

theorem refKey_iff_of_identity {r r' : Row} (he : r'.identity = r.identity)
    (ref : PublicShareReference) : RefKey r' ref ↔ RefKey r ref := by
  have hid := Row.id_eq_of_identity he
  have htk : r'.token = r.token := congrArg LinkIdentity.token he
  cases ref <;> simp only [RefKey, hid, htk]

theorem ownedBy_iff_of_identity {r r' : Row} (he : r'.identity = r.identity) (u : User) :
    r'.ownedBy u ↔ r.ownedBy u := by
  have ho : r'.uidOwner = r.uidOwner := congrArg LinkIdentity.uidOwner he
  have hi : r'.uidInitiator = r.uidInitiator := congrArg LinkIdentity.uidInitiator he
  simp only [Row.ownedBy, ho, hi]

/-- The row with its orphan flag cleared: what the row says apart from that flag. -/
def Sql.Row.withoutOrphan (r : Row) : Row := { r with orphan := false }

@[simp] theorem Sql.Row.identity_withoutOrphan (r : Row) : r.withoutOrphan.identity = r.identity :=
  rfl

theorem Sql.Row.identity_eq_of_withoutOrphan {r r' : Row} (h : r'.withoutOrphan = r.withoutOrphan) :
    r'.identity = r.identity :=
  (congrArg Row.identity h : r'.withoutOrphan.identity = _)

theorem UpdateType.identity_set (k : UpdateType) {c : Column} (hk : k.column = some c) {v : Value}
    {r r' : Row} (h : r.set c v = some r') : r'.identity = r.identity := by
  cases k <;> cases hk <;> cases v <;> first
    | (cases h <;> rfl)
    | (obtain rfl := Row.eq_of_set_time h; rfl)

/-! ## Changes that keep every link -/

/-- A change that keeps the counter, and the identity of every row in order. -/
def Sql.Table.SameLinks (t t' : Table) : Prop :=
  t'.nextId = t.nextId ∧ t'.rows.map Row.identity = t.rows.map Row.identity

/-- A change that keeps the counter and passes every row through a function that at most marks
it orphan: what the cleanup does. -/
def Sql.Table.Swept (t t' : Table) : Prop :=
  t'.nextId = t.nextId ∧ ∃ f : Row → Row, (∀ r, f r = r ∨ f r = { r with orphan := true }) ∧
    t'.rows = t.rows.map f

/-- Ids distinct and below the counter: an id names at most one row, and none at or past the
counter. -/
structure Sql.Table.IdsWf (t : Table) : Prop where
  ids_nodup : (t.rows.map Row.id).Nodup
  ids_lt : ∀ r ∈ t.rows, r.id < t.nextId

/-- A row that comes from table `t`: a row of `t` with the same identity, or a row under an id at
or past the counter of `t`. -/
def Sql.Table.Descends (t : Table) (r' : Row) : Prop :=
  t.nextId ≤ r'.id ∨ ∃ r ∈ t.rows, r'.identity = r.identity

theorem exists_mem_of_map_eq {α : Type} {f : Row → α} {l l' : List Row} (h : l'.map f = l.map f)
    {b : Row} (hb : b ∈ l') : ∃ a ∈ l, f b = f a := by
  obtain ⟨a, ha, he⟩ := List.mem_map.mp (h ▸ List.mem_map_of_mem f hb)
  exact ⟨a, ha, he.symm⟩

theorem exists_mem_of_forall₂ {α β : Type} {R : α → β → Prop} {l : List α} {l' : List β}
    (h : List.Forall₂ R l l') {b : β} (hb : b ∈ l') : ∃ a ∈ l, R a b := by
  induction h with
  | nil => cases hb
  | cons hab _ ih =>
    rcases List.mem_cons.mp hb with rfl | hb
    · exact ⟨_, List.mem_cons_self _ _, hab⟩
    · obtain ⟨a, ha, hr⟩ := ih hb
      exact ⟨a, List.mem_cons_of_mem _ ha, hr⟩

namespace Sql.Table

variable {t t' t1 : Table} {r r' : Row}

theorem SameLinks.refl (t : Table) : t.SameLinks t := ⟨rfl, rfl⟩

theorem SameLinks.trans (h : t.SameLinks t') (h' : t'.SameLinks t1) : t.SameLinks t1 :=
  ⟨h'.1.trans h.1, h'.2.trans h.2⟩

theorem Swept.refl (t : Table) : t.Swept t := ⟨rfl, id, fun _ => .inl rfl, (List.map_id _).symm⟩

theorem Swept.trans (h : t.Swept t') (h' : t'.Swept t1) : t.Swept t1 := by
  obtain ⟨hn, f, hf, hrows⟩ := h
  obtain ⟨hn', g, hg, hrows'⟩ := h'
  refine ⟨hn'.trans hn, g ∘ f, fun r => ?_, by rw [hrows', hrows, List.map_map]⟩
  rcases hf r with h1 | h1 <;> rcases hg (f r) with h2 | h2 <;>
    rw [Function.comp_apply, h2, h1] <;> first | exact .inl rfl | exact .inr rfl

theorem Swept.of_cleanup {c : Nat} (hid : t'.nextId = t.nextId)
    (h : t'.rows = t.rows ∨ t'.rows = t.rows.map (Row.orphanIfExpired c)) : t.Swept t' := by
  rcases h with h | h
  · exact ⟨hid, id, fun _ => .inl rfl, by rw [h, List.map_id]⟩
  · refine ⟨hid, _, fun r => ?_, h⟩
    rcases Row.orphanIfExpired_cases c r with h | ⟨-, h⟩
    exacts [.inl h, .inr h]

theorem Swept.exists_mem (h : t.Swept t') (hr : r' ∈ t'.rows) :
    ∃ r ∈ t.rows, r' = r ∨ r' = { r with orphan := true } := by
  obtain ⟨-, f, hf, hrows⟩ := h
  rw [hrows] at hr
  obtain ⟨r, hr0, rfl⟩ := List.mem_map.mp hr
  exact ⟨r, hr0, hf r⟩

theorem Swept.sameLinks (h : t.Swept t') : t.SameLinks t' := by
  obtain ⟨hn, f, hf, hrows⟩ := h
  refine ⟨hn, ?_⟩
  rw [hrows, List.map_map]
  exact List.map_congr_left fun r _ => by
    rcases hf r with h | h <;> simp only [Function.comp_apply, h]
    rfl

theorem SameLinks.keeps (h : t.SameLinks t') (hr : r ∈ t.rows) :
    ∃ r' ∈ t'.rows, r'.identity = r.identity := by
  obtain ⟨r', hr', he⟩ := exists_mem_of_map_eq h.2.symm hr
  exact ⟨r', hr', he.symm⟩

theorem Descends.of_mem (hr : r ∈ t.rows) : t.Descends r := .inr ⟨r, hr, rfl⟩

theorem SameLinks.descends (h : t.SameLinks t') (hr : r' ∈ t'.rows) : t.Descends r' :=
  .inr (exists_mem_of_map_eq h.2 hr)

theorem Descends.trans (h : t1.Descends r') (h1 : ∀ r ∈ t1.rows, t.Descends r)
    (hle : t.nextId ≤ t1.nextId) : t.Descends r' := by
  rcases h with h | ⟨r1, hr1, he⟩
  · exact .inl (hle.trans h)
  · rcases h1 r1 hr1 with h | ⟨r, hr, he'⟩
    · exact .inl (h.trans (Row.id_eq_of_identity he).ge)
    · exact .inr ⟨r, hr, he.trans he'⟩

theorem Descends.id_ne {i : Nat} (hlt : i < t.nextId) (habs : i ∉ t.rows.map Row.id)
    (h : t.Descends r') : r'.id ≠ i := by
  rcases h with h | ⟨r, hr, he⟩
  · omega
  · rw [Row.id_eq_of_identity he]
    exact fun hi => habs (hi ▸ List.mem_map_of_mem _ hr)

theorem Descends.identity_eq (hwf : t.IdsWf) (hr : r ∈ t.rows) (h : t.Descends r')
    (hid : r'.id = r.id) : r'.identity = r.identity := by
  rcases h with h | ⟨r0, hr0, he⟩
  · exact absurd (hwf.ids_lt r hr) (by omega)
  · have h0 : r0 = r :=
      List.inj_on_of_nodup_map hwf.ids_nodup hr0 hr ((Row.id_eq_of_identity he).symm.trans hid)
    rw [he, h0]

end Sql.Table

/-! ## Each call -/

namespace Manager

variable (m : Manager)

/-- The table a run leaves. -/
def tableAfter : Table → List (Nat × Call) → Table
  | t, [] => t
  | t, (now, c) :: cs => tableAfter (m.call now t c).2 cs

theorem cleanupExpiredShares_swept {now : Nat} {t t' : Table}
    (h : m.cleanupExpiredShares now t = .ok t') : t.Swept t' :=
  let ⟨hid, hrows⟩ := m.cleanupExpiredShares_rows h
  .of_cleanup hid hrows

theorem sweep_swept (now : Nat) (t : Table) : t.Swept (m.sweep now t) :=
  let ⟨hid, hrows⟩ := m.sweep_rows now t
  .of_cleanup hid hrows

theorem swept_of_read {now : Nat} {t t' : Table}
    (h : t' = t ∨ m.cleanupExpiredShares now t = .ok t') : t.Swept t' := by
  rcases h with rfl | h
  · exact .refl t'
  · exact m.cleanupExpiredShares_swept h

theorem listPublicShares_swept (now : Nat) (u : User) (fs : List ListFilter)
    (client : Except String Stat) (sign : Bool) (t : Table) :
    t.Swept (m.listPublicShares now u fs client sign t).2 :=
  m.listPublicShares_table (t.Swept ·) (fun t' h => h.trans (m.sweep_swept now t')) (.refl t)

theorem updatedRow_identity {now : Nat} {u : User} {req : UpdatePublicShareRequest} {r r' : Row}
    (h : m.UpdatedRow now u req r r') : r'.identity = r.identity := by
  rcases h with rfl | ⟨-, -, c, v, r1, hfield, hset, rfl⟩
  · rfl
  · exact (req.update.type.identity_set (m.updateField_column hfield) hset : r1.identity = _)

theorem updatePublicShare_sameLinks (now : Nat) (u : User) (req : UpdatePublicShareRequest)
    (t : Table) : t.SameLinks (m.updatePublicShare now u req t).2 := by
  obtain ⟨hnext, hrows⟩ := m.updatePublicShare_rows now u req t
  refine ⟨hnext, map_eq_of_forall₂ (hrows.imp fun r r' h => ?_)⟩
  obtain ⟨r1, hr1, hr' | ⟨-, hr'⟩⟩ := h <;> rw [hr'] <;>
    exact (m.updatedRow_identity hr1 : r1.identity = _)

theorem exec_setStime_sameLinks {fault : Fault} {k : UpdateType} {c : Column} {v : Value} {s : Nat}
    {w : Cond} {ps : List Value} {t t' : Table} {res : ExecResult} (hk : k.column = some c)
    (h : exec fault (.update [(c, .param), (.stime, .param)] w) (v :: .int s :: ps) t =
      .ok (res, t')) : t.SameLinks t' := by
  obtain ⟨hnext, hrows⟩ := exec_update_ok h
  refine ⟨hnext, map_eq_of_forall₂ ((updateRows_some hrows).imp fun r r' h => ?_)⟩
  rcases h with ⟨-, ha⟩ | ⟨-, rfl⟩
  · rw [apply_withStime] at ha
    obtain ⟨r1, hr1, rfl⟩ := Option.map_eq_some'.mp ha
    exact (k.identity_set hk hr1 : r1.identity = _)
  · rfl

theorem updatePublicShare_ok_reads {now : Nat} {u : User} {req : UpdatePublicShareRequest}
    {t t' : Table} {s : PublicShare} (h : m.updatePublicShare now u req t = (.ok s, t')) :
    ∃ t'', t.SameLinks t'' ∧ ∃ r ∈ t''.rows, ReadsRow s r := by
  unfold updatePublicShare at h
  split at h
  · cases h
  next col v hfield =>
    dsimp only at h
    split at h
    · cases h
    · split at h
      · cases h
      next res t1 hexec =>
        obtain ⟨-, r, hr, hs, -⟩ := m.getPublicShare_ok h
        exact ⟨t1, exec_setStime_sameLinks (m.updateField_column hfield) hexec, r, hr, hs⟩

theorem createPublicShare_reads {now : Nat} {tkn : String} {u : User} {rInfo : ResourceInfo}
    {g : Grant} {d : String} {i : Bool} {t t' : Table} {s : PublicShare}
    (hc : m.createPublicShare now tkn u rInfo g d i t = (.ok s, t')) :
    ∃ r, s.identity = r.share.identity ∧ r.id = t.nextId ∧ t' = ⟨t.rows ++ [r], t.nextId + 1⟩ := by
  obtain ⟨sets, params, share, r, hci, hap, rfl, rfl⟩ := m.createPublicShare_eq_ok hc
  obtain ⟨hread, hid, -⟩ := m.createInsert_reads_back hci hap
  have hs : (share (toString t.nextId)).stored.identity = r.share.identity :=
    congrArg PublicShare.identity hread.symm
  exact ⟨r, hs, hid, rfl⟩

theorem call_nextId_le (now : Nat) (t : Table) (c : Call) :
    t.nextId ≤ (m.call now t c).2.nextId := by
  rcases m.call_table now t c with h | ⟨p, h⟩ | ⟨_, _, _, _, _, h⟩
  · exact h.1.ge
  · rw [h]
  · rw [h]; exact Nat.le_succ _

theorem call_createdId {now : Nat} {t : Table} {c : Call} {x : String}
    (h : c.createdId (m.call now t c).1 = some x) :
    x = toString t.nextId ∧ (m.call now t c).2.nextId = t.nextId + 1 := by
  cases c with
  | create tkn u rInfo g d i =>
    rcases hc : m.createPublicShare now tkn u rInfo g d i t with ⟨_ | s, t'⟩
    · simp [call, hc, Call.createdId] at h
    · simp only [call, hc, Prod.map_fst, Prod.map_snd, id_eq, Call.createdId,
        Option.some.injEq] at h ⊢
      obtain ⟨r, hs, hid, rfl⟩ := m.createPublicShare_reads hc
      exact ⟨h ▸ (congrArg ShareIdentity.id hs).trans (congrArg toString hid), rfl⟩
  | _ => simp [call, Call.createdId] at h

/-- Where each row of the table after a call comes from: it is the row the call appended under
the counter, or a row of the table before with the same identity, whose orphan flag stays set,
unchanged but for that flag unless the call is an update of its owner or creator that names it. -/
theorem call_rows_trace (now : Nat) (t : Table) (c : Call) :
    ∀ r' ∈ (m.call now t c).2.rows, t.nextId ≤ r'.id ∨ ∃ r ∈ t.rows, r'.identity = r.identity ∧
      (r.orphan = true → r'.orphan = true) ∧ (r'.withoutOrphan = r.withoutOrphan ∨
        ∃ u req, c = .update u req ∧ RefKey r req.ref ∧ r.ownedBy u) := by
  have hswept : ∀ {t'}, t.Swept t' → ∀ r' ∈ t'.rows, t.nextId ≤ r'.id ∨ ∃ r ∈ t.rows,
      r'.identity = r.identity ∧ (r.orphan = true → r'.orphan = true) ∧
      (r'.withoutOrphan = r.withoutOrphan ∨
        ∃ u req, c = .update u req ∧ RefKey r req.ref ∧ r.ownedBy u) := fun hs r' hr' => by
    obtain ⟨r, hr, h | h⟩ := hs.exists_mem hr' <;> rw [h]
    exacts [.inr ⟨r, hr, rfl, id, .inl rfl⟩, .inr ⟨r, hr, rfl, fun _ => rfl, .inl rfl⟩]
  cases c with
  | create tkn u rInfo g d i =>
    rcases (m.createPublicShare_congr now tkn u rInfo g d i (rfl : t.nextId = t.nextId)).2 with
      ⟨h, -⟩ | ⟨r, hid, -, h, -⟩
    · simp only [call, Prod.map_snd, id_eq, h]
      exact hswept (.refl t)
    · simp only [call, Prod.map_snd, id_eq, h]
      intro r' hr'
      rcases List.mem_append.mp hr' with hr' | hr'
      · exact .inr ⟨r', hr', rfl, id, .inl rfl⟩
      · exact .inl (by rw [List.mem_singleton.mp hr', hid])
  | update u req =>
    intro r' hr'
    obtain ⟨r, hr, r1, hup, hr1⟩ :=
      exists_mem_of_forall₂ (m.updatePublicShare_rows now u req t).2 hr'
    have h' : r'.withoutOrphan = r1.withoutOrphan := by rcases hr1 with rfl | ⟨-, rfl⟩ <;> rfl
    have horphan : r.orphan = true → r'.orphan = true := fun ho =>
      (m.orphan_after_update hup hr1).elim (fun h => h.trans ho) (·.1)
    refine .inr ⟨r, hr, (Row.identity_eq_of_withoutOrphan h').trans (m.updatedRow_identity hup),
      horphan, ?_⟩
    rcases hup with rfl | ⟨hown, hkey, -⟩
    · exact .inl h'
    · exact .inr ⟨u, req, rfl, hkey, hown⟩
  | get u ref sign => exact hswept (m.swept_of_read (m.getPublicShare_table now u ref sign t))
  | list u fs client sign => exact hswept (m.listPublicShares_swept now u fs client sign t)
  | revoke u ref =>
    obtain ⟨p, h, -⟩ := m.revokePublicShare_rows u ref t
    simp only [call, Prod.map_snd, id_eq, h]
    exact fun r hr => .inr ⟨r, (List.mem_filter.mp hr).1, rfl, id, .inl rfl⟩
  | getByToken tk a sign =>
    exact hswept (m.swept_of_read (m.getPublicShareByToken_table now tk a sign t))
  | tick => exact hswept (m.sweep_swept now t)

theorem call_rows_descend (now : Nat) (t : Table) (c : Call) :
    ∀ r ∈ (m.call now t c).2.rows, t.Descends r := fun r' hr' =>
  (m.call_rows_trace now t c r' hr').imp_right fun ⟨r, hr, he, _⟩ => ⟨r, hr, he⟩

theorem call_keeps_or_revokes (now : Nat) (t : Table) (c : Call) {r : Row} (hr : r ∈ t.rows) :
    (∃ r' ∈ (m.call now t c).2.rows, r'.identity = r.identity) ∨
      ∃ u ref, c = .revoke u ref ∧ RefKey r ref ∧ r.ownedBy u := by
  cases c with
  | create tkn u rInfo g d i =>
    refine .inl ⟨r, ?_, rfl⟩
    rcases (m.createPublicShare_congr now tkn u rInfo g d i (rfl : t.nextId = t.nextId)).2 with
      ⟨h, -⟩ | ⟨r1, -, -, h, -⟩
    · simpa only [call, Prod.map_snd, id_eq, h] using hr
    · simp only [call, Prod.map_snd, id_eq, h]
      exact List.mem_append_left _ hr
  | update u req => exact .inl ((m.updatePublicShare_sameLinks now u req t).keeps hr)
  | get u ref sign =>
    exact .inl ((m.swept_of_read (m.getPublicShare_table now u ref sign t)).sameLinks.keeps hr)
  | list u fs client sign =>
    exact .inl ((m.listPublicShares_swept now u fs client sign t).sameLinks.keeps hr)
  | revoke u ref =>
    obtain ⟨p, h, hp⟩ := m.revokePublicShare_rows u ref t
    cases hpr : p r
    · refine .inl ⟨r, ?_, rfl⟩
      simp only [call, Prod.map_snd, id_eq, h, List.mem_filter, hpr]
      exact ⟨hr, rfl⟩
    · exact .inr ⟨u, ref, rfl, hp r hpr⟩
  | getByToken tk a sign =>
    exact .inl
      ((m.swept_of_read (m.getPublicShareByToken_table now tk a sign t)).sameLinks.keeps hr)
  | tick => exact .inl ((m.sweep_swept now t).sameLinks.keeps hr)

theorem call_shares_descend (now : Nat) (t : Table) (c : Call) :
    ∀ s ∈ (m.call now t c).1.answered, ∃ r, s.identity = r.share.identity ∧ t.Descends r := by
  cases c with
  | create tkn u rInfo g d b =>
    refine Reply.forall_answered_share.mpr fun s hc => ?_
    obtain ⟨r, hs, hid, -⟩ := m.createPublicShare_reads (Prod.ext hc rfl)
    exact ⟨r, hs, .inl hid.ge⟩
  | update u req =>
    refine Reply.forall_answered_share.mpr fun s hc => ?_
    obtain ⟨t'', hsame, r, hr, hs⟩ := m.updatePublicShare_ok_reads (Prod.ext hc rfl)
    exact ⟨r, hs.identity, hsame.descends hr⟩
  | get u ref sign =>
    refine Reply.forall_answered_share.mpr fun s hc => ?_
    obtain ⟨-, r, hr, hs, -⟩ := m.getPublicShare_ok (Prod.ext hc rfl)
    exact ⟨r, hs.identity, .of_mem hr⟩
  | list u fs client sign =>
    rcases hc : m.listPublicShares now u fs client sign t with ⟨_ | ss, t'⟩ <;>
      simp only [call, hc, Prod.map_fst, Reply.answered, List.not_mem_nil, false_implies,
        implies_true]
    obtain ⟨stat, -, hss⟩ := m.listPublicShares_ok hc
    intro s hs
    obtain ⟨r, hr, hrs, -⟩ := hss s hs
    exact ⟨r, hrs.identity, .of_mem hr⟩
  | revoke u ref => simp [call, Reply.answered]
  | getByToken tk a sign =>
    refine Reply.forall_answered_share.mpr fun s hc => ?_
    obtain ⟨-, r, hr, hs, -⟩ := m.getPublicShareByToken_ok (Prod.ext hc rfl)
    exact ⟨r, hs.identity, .of_mem hr⟩
  | tick => simp [call, Reply.answered]

/-! ## Whole runs -/

theorem run_descends (t : Table) (calls : List (Nat × Call)) :
    (∀ x ∈ m.run t calls, ∀ s ∈ x.answered, ∃ r, s.identity = r.share.identity ∧ t.Descends r) ∧
      ∀ r ∈ (m.tableAfter t calls).rows, t.Descends r := by
  induction calls generalizing t with
  | nil => exact ⟨nofun, fun r hr => .of_mem hr⟩
  | cons nc calls ih =>
    obtain ⟨now, c⟩ := nc
    have hstep := m.call_rows_descend now t c
    have hle := m.call_nextId_le now t c
    obtain ⟨hrun, htab⟩ := ih (m.call now t c).2
    refine ⟨fun x hx s hs => ?_, fun r hr => (htab r hr).trans hstep hle⟩
    rcases List.mem_cons.mp hx with rfl | hx
    · exact m.call_shares_descend now t c s hs
    · obtain ⟨r, he, hd⟩ := hrun x hx s hs
      exact ⟨r, he, hd.trans hstep hle⟩

/-- Over a run, every row of the starting table keeps its identity to the end, unless some call
of the run is a revoke of its owner or creator that names it. -/
theorem run_keeps_or_revokes (t : Table) (calls : List (Nat × Call)) {r : Row} (hr : r ∈ t.rows) :
    (∃ r' ∈ (m.tableAfter t calls).rows, r'.identity = r.identity) ∨
      ∃ now u ref, (now, Call.revoke u ref) ∈ calls ∧ RefKey r ref ∧ r.ownedBy u := by
  induction calls generalizing t r with
  | nil => exact .inl ⟨r, hr, rfl⟩
  | cons nc calls ih =>
    obtain ⟨now, c⟩ := nc
    rcases m.call_keeps_or_revokes now t c hr with ⟨r1, hr1, he⟩ | ⟨u, ref, rfl, hkey, hown⟩
    · rcases ih _ hr1 with ⟨r', hr', he'⟩ | ⟨now', u, ref, hmem, hkey, hown⟩
      · exact .inl ⟨r', hr', he'.trans he⟩
      · exact .inr ⟨now', u, ref, .tail _ hmem, (refKey_iff_of_identity he ref).mp hkey,
          (ownedBy_iff_of_identity he u).mp hown⟩
    · exact .inr ⟨now, u, ref, .head _, hkey, hown⟩

/-- Over a run, every row of the table it leaves is a row a create of the run appended, or a row
of the starting table with the same identity, whose orphan flag stays set, unchanged but for that
flag unless some call of the run is an update of its owner or creator that names it. -/
theorem run_rows_trace (t : Table) (calls : List (Nat × Call)) :
    ∀ r' ∈ (m.tableAfter t calls).rows, t.nextId ≤ r'.id ∨ ∃ r ∈ t.rows, r'.identity = r.identity ∧
      (r.orphan = true → r'.orphan = true) ∧ (r'.withoutOrphan = r.withoutOrphan ∨
        ∃ now u req, (now, Call.update u req) ∈ calls ∧ RefKey r req.ref ∧ r.ownedBy u) := by
  induction calls generalizing t with
  | nil => exact fun r hr => .inr ⟨r, hr, rfl, id, .inl rfl⟩
  | cons nc calls ih =>
    obtain ⟨now, c⟩ := nc
    intro r' hr'
    rcases ih _ r' hr' with h | ⟨r1, hr1, he1, ho1, hset1⟩
    · exact .inl ((m.call_nextId_le now t c).trans h)
    rcases m.call_rows_trace now t c r1 hr1 with h | ⟨r, hr, he, ho, hset⟩
    · exact .inl (h.trans (Row.id_eq_of_identity he1).ge)
    refine .inr ⟨r, hr, he1.trans he, ho1 ∘ ho, ?_⟩
    rcases hset1 with h1 | ⟨now', u, req, hmem, hkey, hown⟩
    · rcases hset with h | ⟨u, req, rfl, hkey, hown⟩
      · exact .inl (h1.trans h)
      · exact .inr ⟨now, u, req, .head _, hkey, hown⟩
    · exact .inr ⟨now', u, req, .tail _ hmem, (refKey_iff_of_identity he req.ref).mp hkey,
        (ownedBy_iff_of_identity he u).mp hown⟩

/-- Over every run, only the owner or the creator of a link changes it. A link of the starting
table is gone from the table the run leaves only if some call of the run is a revoke of its owner
or creator naming it. From a table whose ids name one row each, a later row under its id keeps its
orphan flag once set, and differs from it in another column only if some call is an update of
its owner or creator naming it. Reads, listings, janitor ticks, creates and other users' calls at
most mark it orphan. -/
theorem links_change_only_by_owner {t : Table} (calls : List (Nat × Call)) {r : Row}
    (hr : r ∈ t.rows) :
    (r.id ∉ (m.tableAfter t calls).rows.map Row.id →
      ∃ now u ref, (now, Call.revoke u ref) ∈ calls ∧ RefKey r ref ∧ r.ownedBy u) ∧
    (t.IdsWf → ∀ r' ∈ (m.tableAfter t calls).rows, r'.id = r.id →
      (r.orphan = true → r'.orphan = true) ∧
      (r'.withoutOrphan ≠ r.withoutOrphan →
        ∃ now u req, (now, Call.update u req) ∈ calls ∧ RefKey r req.ref ∧ r.ownedBy u)) := by
  refine ⟨fun hgone => (m.run_keeps_or_revokes t calls hr).resolve_left ?_,
    fun hwf r' hr' hid => ?_⟩
  · rintro ⟨r', hr', he⟩
    exact hgone (Row.id_eq_of_identity he ▸ List.mem_map_of_mem _ hr')
  · rcases m.run_rows_trace t calls r' hr' with h | ⟨r0, hr0, he, ho, hset⟩
    · exact absurd (hwf.ids_lt r hr) (by omega)
    · obtain rfl : r0 = r :=
        List.inj_on_of_nodup_map hwf.ids_nodup hr0 hr ((Row.id_eq_of_identity he).symm.trans hid)
      exact ⟨ho, hset.resolve_left⟩

theorem nextId_le_tableAfter (t : Table) (calls : List (Nat × Call)) :
    t.nextId ≤ (m.tableAfter t calls).nextId := by
  induction calls generalizing t with
  | nil => exact le_rfl
  | cons nc calls ih => exact (m.call_nextId_le nc.1 t nc.2).trans (ih _)

/-- The links the creates of a run make get ids that strictly increase, from the counter of the
table the run starts from to below the counter it leaves: no id is handed out twice, whatever
the revokes, cleanups and failed calls between them. -/
theorem created_ids_increase (t : Table) (calls : List (Nat × Call)) :
    ∃ ns : List Nat, ns.Pairwise (· < ·) ∧
      (∀ n ∈ ns, t.nextId ≤ n ∧ n < (m.tableAfter t calls).nextId) ∧
      (calls.zip (m.run t calls)).filterMap (fun p => p.1.2.createdId p.2) = ns.map toString := by
  induction calls generalizing t with
  | nil => exact ⟨[], .nil, nofun, rfl⟩
  | cons nc calls ih =>
    obtain ⟨now, c⟩ := nc
    obtain ⟨ns, hinc, hbound, heq⟩ := ih (m.call now t c).2
    have hle := m.call_nextId_le now t c
    rcases hx : c.createdId (m.call now t c).1 with _ | x
    · refine ⟨ns, hinc, fun n hn => ⟨hle.trans (hbound n hn).1, (hbound n hn).2⟩, ?_⟩
      simp only [run, List.zip_cons_cons, List.filterMap_cons, hx, heq]
    · obtain ⟨rfl, hnext⟩ := m.call_createdId hx
      refine ⟨t.nextId :: ns, List.pairwise_cons.mpr ⟨fun n hn => ?_, hinc⟩, ?_, ?_⟩
      · have := (hbound n hn).1
        omega
      · rintro n (_ | ⟨_, hn⟩)
        · have := m.nextId_le_tableAfter (m.call now t c).2 calls
          exact ⟨le_rfl, by simp only [tableAfter]; omega⟩
        · exact ⟨hle.trans (hbound n hn).1, (hbound n hn).2⟩
      · simp only [run, List.zip_cons_cons, List.filterMap_cons, hx, heq, List.map_cons]

/-- A `RevokePublicShare` by link id that succeeds removes that link for good: no later call of
any run answers a share under the id, and no later table holds a row under it. -/
theorem revoked_link_stays_revoked {t : Table} (hwf : t.IdsWf) (u : User) {s : String}
    (hrev : (m.revokePublicShare u (.id s) t).1 = .ok ()) (calls : List (Nat × Call)) :
    (∀ x ∈ m.run (m.revokePublicShare u (.id s) t).2 calls, ∀ sh ∈ x.answered, sh.id ≠ s) ∧
      ∀ r ∈ (m.tableAfter (m.revokePublicShare u (.id s) t).2 calls).rows, toString r.id ≠ s := by
  obtain ⟨w, key, hsel, heq, r0, hr0, hev⟩ := m.revokePublicShare_eq_ok hrev
  obtain ⟨hkey, -⟩ := (revokeSelector_eval r0 _ _ hsel).mp hev
  subst hkey
  have habs : r0.id ∉ (m.revokePublicShare u (.id (toString r0.id)) t).2.rows.map Row.id := by
    rw [heq]
    intro hm
    obtain ⟨r, hr, hid⟩ := List.mem_map.mp hm
    have hrt := (List.mem_filter.mp hr).1
    have : r = r0 := List.inj_on_of_nodup_map hwf.ids_nodup hrt hr0 hid
    simp only [List.mem_filter, this, hev, Bool.not_true] at hr
    exact Bool.false_ne_true hr.2
  have hlt : r0.id < (m.revokePublicShare u (.id (toString r0.id)) t).2.nextId := by
    rw [heq]
    exact hwf.ids_lt r0 hr0
  obtain ⟨hrun, htab⟩ := m.run_descends (m.revokePublicShare u (.id (toString r0.id)) t).2 calls
  refine ⟨fun x hx sh hsh hs => ?_, fun r hr hs => (htab r hr).id_ne hlt habs (toString_nat_inj hs)⟩
  obtain ⟨r, he, hd⟩ := hrun x hx sh hsh
  exact hd.id_ne hlt habs (toString_nat_inj ((congrArg ShareIdentity.id he).symm.trans hs))

/-- Over every run from a table whose ids name one row each, a link keeps what says which link it
is: every later share under its id names its owner, creator, resource and token, and every later
row under its id keeps its type, owner, initiator, item, token and flags. -/
theorem link_identity_fixed {t : Table} (hwf : t.IdsWf) (calls : List (Nat × Call)) {r : Row}
    (hr : r ∈ t.rows) :
    (∀ x ∈ m.run t calls, ∀ s ∈ x.answered, s.id = toString r.id → s.identity = r.share.identity) ∧
      ∀ r' ∈ (m.tableAfter t calls).rows, r'.id = r.id → r'.identity = r.identity := by
  obtain ⟨hrun, htab⟩ := m.run_descends t calls
  refine ⟨fun x hx s hs hid => ?_, fun r' hr' => (htab r' hr').identity_eq hwf hr⟩
  obtain ⟨r', he, hd⟩ := hrun x hx s hs
  have hid' : r'.id = r.id := toString_nat_inj ((congrArg ShareIdentity.id he).symm.trans hid)
  exact he.trans (Row.share_identity_congr (hd.identity_eq hwf hr hid'))

end Manager

/-- After `linkOwner` revokes link 1 of `homeLinkTable`, a new create with the freed token gets
id 2, and a read of link 1 finds nothing. -/
def recreateRun : List (Nat × Call) :=
  [(0, .create "tok" linkOwner homeFile ⟨1, "", none⟩ "" false),
    (0, .get linkOwner (.id "1") false)]

theorem home_link_one_stays_revoked :
    homeLinkTable.IdsWf ∧
      ((sampleManager true).revokePublicShare linkOwner (.id "1") homeLinkTable).1 = .ok () ∧
      (∀ x ∈ (sampleManager true).run
          ((sampleManager true).revokePublicShare linkOwner (.id "1") homeLinkTable).2 recreateRun,
        ∀ sh ∈ x.answered, sh.id ≠ "1") ∧
      ∀ r ∈ ((sampleManager true).tableAfter
          ((sampleManager true).revokePublicShare linkOwner (.id "1") homeLinkTable).2
          recreateRun).rows, toString r.id ≠ "1" :=
  have hwf : homeLinkTable.IdsWf := ⟨by decide, by decide⟩
  ⟨hwf, rfl,
    (sampleManager true).revoked_link_stays_revoked hwf linkOwner (s := "1") rfl recreateRun⟩

def homeLinkRow : Row := homeLinkTable.rows.headD (Row.blank 0)

/-- A stranger updates link 1 by its token, its owner renames it, reads it and creates a second
link. -/
def homeLinkEdits : List (Nat × Call) :=
  [(0, .update stranger ⟨.token "tok", ⟨.description, none, "", "x"⟩⟩),
    (0, .update linkOwner ⟨.id "1", ⟨.displayName, none, "", "y"⟩⟩),
    (0, .get linkOwner (.id "1") false),
    (0, .create "tok2" linkOwner homeFile ⟨1, "", none⟩ "" false)]

/-- A stranger revokes link 1 by its token and updates it by its id; its owner reads it. -/
def strangerEdits : List (Nat × Call) :=
  [(0, .revoke stranger (.token "tok")),
    (0, .update stranger ⟨.id "1", ⟨.description, none, "", "x"⟩⟩),
    (0, .get linkOwner (.id "1") false)]

theorem home_link_changed_only_by_owner :
    homeLinkTable.IdsWf ∧ homeLinkRow ∈ homeLinkTable.rows ∧
      (homeLinkRow.id ∉ ((sampleManager true).tableAfter homeLinkTable strangerEdits).rows.map
          Row.id →
        ∃ now u ref, (now, Call.revoke u ref) ∈ strangerEdits ∧ RefKey homeLinkRow ref ∧
          homeLinkRow.ownedBy u) ∧
      (homeLinkTable.IdsWf →
        ∀ r' ∈ ((sampleManager true).tableAfter homeLinkTable strangerEdits).rows,
          r'.id = homeLinkRow.id → (homeLinkRow.orphan = true → r'.orphan = true) ∧
            (r'.withoutOrphan ≠ homeLinkRow.withoutOrphan →
              ∃ now u req, (now, Call.update u req) ∈ strangerEdits ∧
                RefKey homeLinkRow req.ref ∧ homeLinkRow.ownedBy u)) :=
  have hwf : homeLinkTable.IdsWf := ⟨by decide, by decide⟩
  have hr : homeLinkRow ∈ homeLinkTable.rows := by decide
  ⟨hwf, hr, (sampleManager true).links_change_only_by_owner strangerEdits hr⟩

theorem home_link_keeps_its_identity :
    homeLinkTable.IdsWf ∧ homeLinkRow ∈ homeLinkTable.rows ∧
      (∀ x ∈ (sampleManager true).run homeLinkTable homeLinkEdits, ∀ s ∈ x.answered,
        s.id = toString homeLinkRow.id → s.identity = homeLinkRow.share.identity) ∧
      ∀ r' ∈ ((sampleManager true).tableAfter homeLinkTable homeLinkEdits).rows,
        r'.id = homeLinkRow.id → r'.identity = homeLinkRow.identity :=
  have hwf : homeLinkTable.IdsWf := ⟨by decide, by decide⟩
  have hr : homeLinkRow ∈ homeLinkTable.rows := by decide
  ⟨hwf, hr, (sampleManager true).link_identity_fixed hwf homeLinkEdits hr⟩

end Reva
