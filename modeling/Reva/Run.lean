import Reva.Frames
import Mathlib.Data.List.Nodup

/-!
# Runs of the manager

A run is a list of calls, each at an instant: an operation of the public-share interface or a
tick of the janitor. `Manager.run` threads the `oc_share` table through them and collects what
each call answers. A call keeps the ids and tokens of the rows it leaves, drops rows, or appends
one under the next id with the token it drew (`call_table`); so every table a run reaches from
an empty one keeps its ids distinct and below the counter and, as long as no two creates draw
the same token, its tokens distinct (`Table.Wf`).
-/

namespace Reva

open Sql Manager

/-- A call of the public-share interface, with its arguments, or a tick of the janitor. -/
inductive Call where
  | create (tkn : String) (u : User) (rInfo : ResourceInfo) (g : Grant) (description : String)
      (internal : Bool)
  | update (u : User) (req : UpdatePublicShareRequest)
  | get (u : User) (ref : PublicShareReference) (sign : Bool)
  | list (u : User) (filters : List ListFilter) (client : Except String Stat) (sign : Bool)
  | revoke (u : User) (ref : PublicShareReference)
  | getByToken (token : String) (auth : PublicShareAuthentication) (sign : Bool)
  | tick

/-- What a call answers. -/
inductive Reply where
  | share (r : Except Error PublicShare)
  | shares (r : Except Error (List PublicShare))
  | done (r : Except Error Unit)
  | ticked
  deriving DecidableEq

/-- The token a create draws from `RandString`. -/
def Call.createToken : Call → Option String
  | .create tkn .. => some tkn
  | _ => none

namespace Manager

variable (m : Manager)

/-- One call at instant `now` on table `t`: its answer and the table after it. -/
def call (now : Nat) (t : Table) : Call → Reply × Table
  | .create tkn u rInfo g d i => (m.createPublicShare now tkn u rInfo g d i t).map .share id
  | .update u req => (m.updatePublicShare now u req t).map .share id
  | .get u ref sign => (m.getPublicShare now u ref sign t).map .share id
  | .list u fs client sign => (m.listPublicShares now u fs client sign t).map .shares id
  | .revoke u ref => (m.revokePublicShare u ref t).map .done id
  | .getByToken tk a sign => (m.getPublicShareByToken now tk a sign t).map .share id
  | .tick => (.ticked, m.sweep now t)

/-- The answers of a run from table `t`. -/
def run : Table → List (Nat × Call) → List Reply
  | _, [] => []
  | t, (now, c) :: cs => (m.call now t c).1 :: run (m.call now t c).2 cs

/-- The manager deployed with `EnableExpiredSharesCleanup` set to `b`. -/
def withCleanup (b : Bool) : Manager := { m with c := { m.c with enableExpiredSharesCleanup := b } }

end Manager

/-! ## Keys -/

/-- Ids distinct and below the auto-increment counter, tokens distinct. -/
structure Sql.Table.Wf (t : Table) : Prop where
  ids_nodup : (t.rows.map Row.id).Nodup
  ids_lt : ∀ r ∈ t.rows, r.id < t.nextId
  tokens_nodup : (t.rows.map Row.token).Nodup

/-- A change that keeps the counter, and the id and the token of every row. -/
def Sql.Table.SameKeys (t t' : Table) : Prop :=
  t'.nextId = t.nextId ∧ t'.rows.map Row.id = t.rows.map Row.id ∧
    t'.rows.map Row.token = t.rows.map Row.token

namespace Sql.Table

variable {t t' t'' : Table}

theorem Wf.empty : Table.empty.Wf := ⟨.nil, by simp [Table.empty], .nil⟩

theorem SameKeys.refl (t : Table) : t.SameKeys t := ⟨rfl, rfl, rfl⟩

theorem SameKeys.trans (h : t.SameKeys t') (h' : t'.SameKeys t'') : t.SameKeys t'' :=
  ⟨h'.1.trans h.1, h'.2.1.trans h.2.1, h'.2.2.trans h.2.2⟩

theorem Wf.of_sameKeys (hwf : t.Wf) (h : t.SameKeys t') : t'.Wf where
  ids_nodup := h.2.1 ▸ hwf.ids_nodup
  ids_lt r' hr' := by
    obtain ⟨r, hr, hid⟩ := List.mem_map.mp (h.2.1 ▸ List.mem_map_of_mem Row.id hr')
    exact h.1 ▸ hid ▸ hwf.ids_lt r hr
  tokens_nodup := h.2.2 ▸ hwf.tokens_nodup

theorem Wf.filter (hwf : t.Wf) (p : Row → Bool) : ({ t with rows := t.rows.filter p } : Table).Wf where
  ids_nodup := (hwf.ids_nodup.sublist ((List.filter_sublist _).map _))
  ids_lt r hr := hwf.ids_lt r (List.mem_of_mem_filter hr)
  tokens_nodup := (hwf.tokens_nodup.sublist ((List.filter_sublist _).map _))

theorem Wf.append (hwf : t.Wf) {r : Row} (hid : r.id = t.nextId)
    (htk : r.token ∉ t.rows.map Row.token) : (⟨t.rows ++ [r], t.nextId + 1⟩ : Table).Wf where
  ids_nodup := by
    rw [List.map_append, List.nodup_append]
    refine ⟨hwf.ids_nodup, List.nodup_singleton _, ?_⟩
    simp only [List.map_cons, List.map_nil, List.disjoint_singleton]
    intro hmem
    obtain ⟨r', hr', heq⟩ := List.mem_map.mp hmem
    exact absurd (hwf.ids_lt r' hr') (by omega)
  ids_lt r' hr' := by
    rcases List.mem_append.mp hr' with hr' | hr'
    · exact Nat.lt_succ_of_lt (hwf.ids_lt r' hr')
    · rw [List.mem_singleton.mp hr', hid]; exact Nat.lt_succ_self _
  tokens_nodup := by
    rw [List.map_append, List.nodup_append]
    exact ⟨hwf.tokens_nodup, List.nodup_singleton _, by simpa using htk⟩

end Sql.Table

theorem Sql.Row.orphanIfExpired_id (c : Nat) (r : Row) : (r.orphanIfExpired c).id = r.id := by
  unfold Row.orphanIfExpired; split <;> rfl

theorem Sql.Row.orphanIfExpired_token (c : Nat) (r : Row) :
    (r.orphanIfExpired c).token = r.token := by
  unfold Row.orphanIfExpired; split <;> rfl

theorem map_eq_of_forall₂ {α : Type} {f : Row → α} {l l' : List Row}
    (h : List.Forall₂ (fun r r' => f r' = f r) l l') : l'.map f = l.map f := by
  induction h with
  | nil => rfl
  | cons h _ ih => rw [List.map_cons, List.map_cons, h, ih]

namespace Manager

variable (m : Manager)

theorem sweep_sameKeys (now : Nat) (t : Table) : t.SameKeys (m.sweep now t) := by
  obtain ⟨hid, hrows | hrows⟩ := m.sweep_rows now t <;> refine ⟨hid, ?_, ?_⟩ <;>
    simp [hrows, Function.comp_def, Row.orphanIfExpired_id, Row.orphanIfExpired_token]

theorem cleanupExpiredShares_sameKeys {now : Nat} {t t' : Table}
    (h : m.cleanupExpiredShares now t = .ok t') : t.SameKeys t' := by
  obtain ⟨hid, hrows | hrows⟩ := m.cleanupExpiredShares_rows h <;> refine ⟨hid, ?_, ?_⟩ <;>
    simp [hrows, Function.comp_def, Row.orphanIfExpired_id, Row.orphanIfExpired_token]

theorem updatePublicShare_sameKeys (now : Nat) (u : User) (req : UpdatePublicShareRequest)
    (t : Table) : t.SameKeys (m.updatePublicShare now u req t).2 := by
  obtain ⟨hnext, hrows⟩ := m.updatePublicShare_rows now u req t
  have hkeys := hrows.imp (S := fun r r' => r'.id = r.id ∧ r'.token = r.token)
    fun r r' ⟨r1, hr1, hsweep⟩ => by
      have hget := (m.updatedRow_frame hr1).1
      have hid : r1.get .id = r.get .id :=
        hget .id (by decide) (by cases req.update.type <;> decide)
      have htk : r1.get .token = r.get .token :=
        hget .token (by decide) (by cases req.update.type <;> decide)
      simp only [Row.get, Value.int.injEq, Value.str.injEq] at hid htk
      rcases hsweep with rfl | ⟨-, rfl⟩ <;> exact ⟨hid, htk⟩
  exact ⟨hnext, map_eq_of_forall₂ (hkeys.imp fun _ _ h => h.1),
    map_eq_of_forall₂ (hkeys.imp fun _ _ h => h.2)⟩

theorem exec_setStime_sameKeys {fault : Fault} {c : Column} {v : Value} {s : Nat} {w : Cond}
    {ps : List Value} {t t' : Table} {res : ExecResult} (hid : c ≠ .id) (htk : c ≠ .token)
    (h : exec fault (.update [(c, .param), (.stime, .param)] w) (v :: .int s :: ps) t =
      .ok (res, t')) : t.SameKeys t' := by
  obtain ⟨hnext, hrows⟩ := exec_update_ok h
  have hkeys := (updateRows_some hrows).imp (S := fun r r' => r'.id = r.id ∧ r'.token = r.token)
    fun r r' h => by
      rcases h with ⟨-, ha⟩ | ⟨-, rfl⟩
      · rw [apply_withStime] at ha
        obtain ⟨r1, hr1, rfl⟩ := Option.map_eq_some'.mp ha
        have h1 : r1.get .id = r.get .id := Row.get_set hr1 (Ne.symm hid)
        have h2 : r1.get .token = r.get .token := Row.get_set hr1 (Ne.symm htk)
        simp only [Row.get, Value.int.injEq, Value.str.injEq] at h1 h2
        exact ⟨h1, h2⟩
      · exact ⟨rfl, rfl⟩
  exact ⟨hnext, map_eq_of_forall₂ (hkeys.imp fun _ _ h => h.1),
    map_eq_of_forall₂ (hkeys.imp fun _ _ h => h.2)⟩

/-- What a call does to the table: it keeps the counter and the keys of every row, drops rows,
or appends a row under the next id with the token it drew. -/
theorem call_table (now : Nat) (t : Table) (c : Call) :
    t.SameKeys (m.call now t c).2 ∨
      (∃ p : Row → Bool, (m.call now t c).2 = { t with rows := t.rows.filter p }) ∨
      ∃ tk r, c.createToken = some tk ∧ r.id = t.nextId ∧ r.token = tk ∧
        (m.call now t c).2 = ⟨t.rows ++ [r], t.nextId + 1⟩ := by
  have hread : ∀ t', (t' = t ∨ m.cleanupExpiredShares now t = .ok t') → t.SameKeys t' := by
    rintro t' (rfl | h)
    · exact .refl t'
    · exact m.cleanupExpiredShares_sameKeys h
  cases c with
  | create tkn u rInfo g d i =>
    simp only [call, Prod.map_snd, id_eq]
    rcases (m.createPublicShare_congr now tkn u rInfo g d i (rfl : t.nextId = t.nextId)).2 with
      ⟨h, -⟩ | ⟨r, hid, htk, h, -⟩
    · exact .inl (by rw [h]; exact .refl t)
    · exact .inr (.inr ⟨tkn, r, rfl, hid, htk, h⟩)
  | update u req => exact .inl (m.updatePublicShare_sameKeys now u req t)
  | get u ref sign => exact .inl (hread _ (m.getPublicShare_table now u ref sign t))
  | list u fs client sign =>
    exact .inl (m.listPublicShares_table (t.SameKeys ·)
      (fun t' h => h.trans (m.sweep_sameKeys now t')) (.refl t))
  | revoke u ref =>
    obtain ⟨p, h, -⟩ := m.revokePublicShare_rows u ref t
    exact .inr (.inl ⟨_, h⟩)
  | getByToken tk a sign => exact .inl (hread _ (m.getPublicShareByToken_table now tk a sign t))
  | tick => exact .inl (m.sweep_sameKeys now t)

theorem call_wf {now : Nat} {t : Table} {c : Call} (hwf : t.Wf)
    (hfresh : ∀ tk, c.createToken = some tk → tk ∉ t.rows.map Row.token) :
    (m.call now t c).2.Wf := by
  rcases m.call_table now t c with h | ⟨p, h⟩ | ⟨tk, r, hc, hid, htk, h⟩
  · exact hwf.of_sameKeys h
  · exact h ▸ hwf.filter p
  · exact h ▸ hwf.append hid (htk ▸ hfresh tk hc)

theorem call_tokens {now : Nat} {t : Table} {c : Call} {tk : String}
    (h : tk ∈ (m.call now t c).2.rows.map Row.token) :
    tk ∈ t.rows.map Row.token ∨ c.createToken = some tk := by
  rcases m.call_table now t c with hk | ⟨p, hk⟩ | ⟨tk', r, hc, -, htk, hk⟩
  · exact .inl (hk.2.2 ▸ h)
  · rw [hk] at h
    exact .inl ((List.filter_sublist _).map _ |>.subset h)
  · rw [hk, List.map_append, List.mem_append] at h
    rcases h with h | h
    · exact .inl h
    · simp only [List.map_cons, List.map_nil, List.mem_singleton] at h
      exact .inr (h ▸ htk ▸ hc)

end Manager

end Reva
