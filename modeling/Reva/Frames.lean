import Reva.Writes

/-!
# Which rows and columns the writes touch

What `UpdatePublicShare`, `RevokePublicShare` and `cleanupExpiredShares` change, over every table.
The `UPDATE` and `DELETE` of the public-link API are scoped to the caller and the reference, but
carry no share type and no orphan condition; `UpdatePublicShare` writes its column and `stime`,
and its closing `GetPublicShare` may sweep the whole table (`writes_select_caller_rows`,
`updatePublicShare_changes_only_its_column`). `RevokePublicShare` reports a `DELETE` that dropped
no row as `NotFound`; `UpdatePublicShare` does not look. The cleanup cutoff is the wall clock read
on a 12-hour dial, so only outside the hour after midnight does it orphan expired links alone
(`cleanup_orphans_only_expired_rows`).
-/

namespace Reva

open Sql Manager

def strangerFile : ResourceInfo :=
  ⟨⟨"eoshome-u2", "7"⟩, ⟨"u2"⟩, "file", "/eos/user/u/u2/g", some []⟩

/-! ## The rows a write selects -/

/-- A caller who neither owns nor created a link updates it by its token: the `UPDATE` changes no
row, and the caller is handed the link. -/
theorem stranger_update_by_token_returns_link :
    ∃ r ∈ homeLinkTable.rows, ¬ r.ownedBy stranger ∧
      (sampleManager true).updatePublicShare 0 stranger
        ⟨.token "tok", ⟨.description, none, "", "x"⟩⟩ homeLinkTable = (.ok r.share, homeLinkTable) := by
  decide

/-! ## The columns an update writes -/

/-- A zero expiration: `CreatePublicShare` stores none and returns a share that is expired one
nanosecond later, while an `UpdatePublicShare` to it stores the epoch. -/
theorem zero_expiration_stored_differently :
    (createHomeLink ⟨1, "", some ⟨0, 0⟩⟩).2.rows.map Row.expiration = [none] ∧
      ((sampleManager true).updatePublicShare 0 linkOwner
        ⟨.id "1", ⟨.expiration, some ⟨1, "", some ⟨0, 0⟩⟩, "", ""⟩⟩
        (createHomeLink ⟨1, "", some ⟨0, 0⟩⟩).2).2.rows.map Row.expiration = [some 0] ∧
      (createHomeLink ⟨1, "", some ⟨0, 0⟩⟩).1.map (expired 1) = .ok true ∧
      ∀ r ∈ (createHomeLink ⟨1, "", some ⟨0, 0⟩⟩).2.rows, r.expiredAt 1 = false := by
  decide

/-! ## Cleanup -/

/-- Outside the hour after midnight, a janitor tick marks orphan only rows already expired at the
instant of the tick, whatever their share type, and changes no other column. -/
theorem cleanup_orphans_only_expired_rows (m : Manager) (now : Nat) (t : Table)
    (hclock : 3600 ≤ unixSeconds now % 86400) :
    (m.sweep now t).nextId = t.nextId ∧
      List.Forall₂ (fun r r' => { r' with orphan := r.orphan } = r ∧
        (r'.orphan ≠ r.orphan → r.expiredAt now = true)) t.rows (m.sweep now t).rows := by
  obtain ⟨hid, hrows | hrows⟩ := m.sweep_rows now t <;> refine ⟨hid, ?_⟩ <;> rw [hrows]
  · exact List.forall₂_same.mpr fun r _ => ⟨rfl, fun h => absurd rfl h⟩
  · refine List.forall₂_map_right_iff.mpr (List.forall₂_same.mpr fun r _ => ?_)
    rcases Row.orphanIfExpired_cases (cleanupCutoff now) r with h | ⟨hexp, h⟩ <;> rw [h]
    · exact ⟨rfl, fun h => absurd rfl h⟩
    · exact ⟨rfl, fun _ => Row.expiredAt_of_expiresBefore hexp (cleanupCutoff_le hclock)⟩

theorem tick_at_one_keeps_live_link :
    3600 ≤ unixSeconds 3600000000000 % 86400 ∧
      ((sampleManager true).sweep 3600000000000 ⟨[{ Row.blank 1 with expiration := some 5400 }], 2⟩).nextId = 2 ∧
      List.Forall₂ (fun r r' => { r' with orphan := r.orphan } = r ∧
          (r'.orphan ≠ r.orphan → r.expiredAt 3600000000000 = true))
        [{ Row.blank 1 with expiration := some 5400 }]
        ((sampleManager true).sweep 3600000000000 ⟨[{ Row.blank 1 with expiration := some 5400 }], 2⟩).rows :=
  ⟨by decide, cleanup_orphans_only_expired_rows _ _ _ (by decide)⟩

def userShareRow : Row := { Row.blank 2 with uidOwner := "u1", expiration := some 0 }

/-- Half an hour after midnight the cleanup marks orphan a public link that expires an hour
later, and a share of another type. -/
theorem cleanup_after_midnight_orphans_live_link :
    ((sampleManager true).cleanupExpiredShares 1800000000000
        ⟨(createHomeLink ⟨1, "", some ⟨5400, 0⟩⟩).2.rows ++ [userShareRow], 3⟩).map
        (·.rows.map fun r => (r.shareType, r.expiredAt 1800000000000, r.orphan)) =
      .ok [(publicShareType, false, true), (0, true, true)] := by
  decide

end Reva
