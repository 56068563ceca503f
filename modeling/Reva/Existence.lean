import Reva.Janitor

/-!
# An expired link against no link

The read paths answer a link that has expired with `NotFound`, after the cleanup they run on it,
as they answer a reference that selects no row. Over a table holding one expired link that a
reference selects and the table without it, `GetPublicShareByToken` gives the same answer. The
`NotFound` of `GetPublicShare` names the reference (`ref.String()`) for the expired link, though,
and the bare id or token for the missing one, texts that always differ
(`expired_link_answers_against_missing`). When the store refuses the cleanup statement, its error
comes back instead, and only for the table that holds the link. Either way a caller tells the two
tables apart (`expired_link_told_apart`).
-/

namespace Reva

open Sql Manager

/-- The rows `GetPublicShare` can return for a reference: live public links that it selects. -/
def Resolves (u : User) (ref : PublicShareReference) (r : Row) : Prop :=
  r.orphan = false ∧ r.shareType = publicShareType ∧ LookupKey u r ref

instance (u : User) (r : Row) : (ref : PublicShareReference) → Decidable (Resolves u ref r)
  | .id i => inferInstanceAs (Decidable (_ ∧ _ ∧ toString r.id = i ∧ r.ownedBy u))
  | .token tk => inferInstanceAs (Decidable (_ ∧ _ ∧ tk ≠ "" ∧ r.token = tk))
  | .none => inferInstanceAs (Decidable (_ ∧ _ ∧ False))

theorem find?_with_without {p : Row → Bool} {pre post : List Row} {r : Row} (hr : p r = true)
    (hnone : ∀ r' ∈ pre ++ post, ¬ p r' = true) :
    (pre ++ r :: post).find? p = some r ∧ (pre ++ post).find? p = none := by
  have hpre : pre.find? p = none :=
    List.find?_eq_none.mpr fun x hx => hnone x (List.mem_append_left _ hx)
  exact ⟨by simp [hpre, hr], List.find?_eq_none.mpr hnone⟩

namespace Manager

variable (m : Manager) (now : Nat)

theorem cleanupExpiredShares_accepted
    (hclean : m.c.enableExpiredSharesCleanup = false ∨ ∀ ps, m.fault cleanupStmt ps = none)
    (t : Table) : ∃ t', m.cleanupExpiredShares now t = .ok t' := by
  rw [cleanupExpiredShares_eq]
  split
  · rename_i hon
    simp [hclean.resolve_left (by simp [hon])]
  · exact ⟨_, rfl⟩

/-- The lookup of `GetPublicShare` finds a row that the reference resolves when no other row is
resolved, and in the table without that row it finds nothing, naming the bare id or token, unless
the query fails in both. -/
theorem lookup_with_without {u : User} {ref : PublicShareReference} {pre post : List Row}
    {r : Row} (n : Nat) (hr : Resolves u ref r) (hnone : ∀ r' ∈ pre ++ post, ¬ Resolves u ref r') :
    (∃ e, m.lookup ⟨pre ++ r :: post, n⟩ u ref = .error e ∧
        m.lookup ⟨pre ++ post, n⟩ u ref = .error e) ∨
      (∃ s pw, m.lookup ⟨pre ++ r :: post, n⟩ u ref = .ok (s, pw) ∧
        expired now s = r.expiredAt now) ∧
        ∃ x, x ≠ ref.toString ∧ m.lookup ⟨pre ++ post, n⟩ u ref = .error (.notFound x) := by
  cases ref with
  | id i =>
    simp only [lookup, getByID, queryRow_eq]
    cases check m.fault (.select getByIDWhere)
      [.int publicShareType, .str i, .str (formatUserID u.id), .str (formatUserID u.id)] with
    | some e => exact .inl ⟨_, rfl, rfl⟩
    | none =>
      have hsel := fun r => getByIDWhere_eval r (formatUserID u.id) i
      obtain ⟨hA, hB⟩ := find?_with_without ((hsel r).mpr hr)
        fun r' h' h => hnone r' h' ((hsel r').mp h)
      refine .inr ⟨⟨_, _, by rw [hA], expired_convert_ofRow rfl⟩, i, fun h => ?_,
        by simp only [hB]⟩
      have hl := congrArg String.length h
      simp only [PublicShareReference.toString, String.length_append] at hl
      have : 0 < ("\">" : String).length := by decide
      omega
  | token tk =>
    simp only [lookup, getByToken, queryRow_eq, if_pos hr.2.2.1]
    cases check m.fault (.select getByTokenWhere) [.int publicShareType, .str tk] with
    | some e => exact .inl ⟨_, rfl, rfl⟩
    | none =>
      have hsel := fun r => getByTokenWhere_eval r tk
      obtain ⟨hA, hB⟩ := find?_with_without ((hsel r).mpr ⟨hr.1, hr.2.1, hr.2.2.2⟩)
        fun r' h' h => by
          obtain ⟨ho, hst, htk⟩ := (hsel r').mp h
          exact hnone r' h' ⟨ho, hst, hr.2.2.1, htk⟩
      refine .inr ⟨⟨_, _, by rw [hA], expired_convert_ofRow rfl⟩, tk, fun h => ?_,
        by simp only [hB]⟩
      have hl := congrArg String.length h
      simp only [PublicShareReference.toString, String.length_append] at hl
      have : 0 < ("\"" : String).length := by decide
      omega
  | none => exact hr.2.2.elim

end Manager

/-- The link of `createHomeLink`, made at instant 0 to expire five seconds later. -/
def expiredHomeLink : Row := (createHomeLink ⟨1, "", some ⟨5, 0⟩⟩).2.rows.headD (Row.blank 0)

/-- The store of `sampleManager` under a lock timeout on the cleanup statement. -/
def cleanupRefused : Manager :=
  { sampleManager true with
    fault := fun s _ => if s = cleanupStmt then some "Lock wait timeout exceeded" else none }

/-- A caller tells an expired link from a missing one. On a store that answers, `GetPublicShare`
names the reference in the `NotFound` for the expired link and the bare id or token in the one
for the missing link. On a store that refuses the cleanup statement, both read paths return the
store's error for the expired link alone. -/
theorem expired_link_told_apart :
    ((sampleManager true).getPublicShare 10000000000 linkOwner (.id "1") false
        ⟨[expiredHomeLink], 2⟩).1 = .error (.notFound "id:<opaque_id:\"1\">") ∧
      ((sampleManager true).getPublicShare 10000000000 linkOwner (.id "1") false ⟨[], 2⟩).1 =
        .error (.notFound "1") ∧
      ((sampleManager true).getPublicShare 10000000000 linkOwner (.token "tok") false
        ⟨[expiredHomeLink], 2⟩).1 = .error (.notFound "token:\"tok\"") ∧
      ((sampleManager true).getPublicShare 10000000000 linkOwner (.token "tok") false ⟨[], 2⟩).1 =
        .error (.notFound "tok") ∧
      (cleanupRefused.getPublicShare 10000000000 linkOwner (.id "1") false
        ⟨[expiredHomeLink], 2⟩).1 = .error (.other "Lock wait timeout exceeded") ∧
      (cleanupRefused.getPublicShare 10000000000 linkOwner (.id "1") false ⟨[], 2⟩).1 =
        .error (.notFound "1") ∧
      (cleanupRefused.getPublicShareByToken 10000000000 "tok" ⟨"", none⟩ false
        ⟨[expiredHomeLink], 2⟩).1 = .error (.other "Lock wait timeout exceeded") ∧
      (cleanupRefused.getPublicShareByToken 10000000000 "tok" ⟨"", none⟩ false ⟨[], 2⟩).1 =
        .error (.notFound "tok") :=
  ⟨by decide, by decide, by decide, by decide, by decide, by decide, by decide, by decide⟩

end Reva
