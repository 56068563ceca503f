import Reva.Existence

/-!
# Reads after the writes of a link

`CreatePublicShare` stores a link as one `INSERT` and returns the share it built from its
arguments; the reads rebuild a share from the row. The two agree but for the expiration, which the
`datetime` column keeps in whole seconds and drops at zero seconds, and whose `uint64` seconds go
into the column through `int64()` and come back through `uint64(t.Unix())` (`PublicShare.stored`).
A link created in a table whose ids stay below its counter reads back as that share by its id for
its creator, and by its token for anyone, as long as the link has not expired and the store
accepts the selects (`created_link_reads_back`). A link asked to expire at `2 ^ 63` seconds or
later is stored before the epoch and has expired at once (`stored_expired_of_high_seconds`). After
a `RevokePublicShare` that succeeds, the reads of the reference answer `NotFound`
(`revoked_link_not_found`).
-/

namespace Reva

open Sql Manager

theorem check_select_eq {fault : Fault} (hsel : ∀ w ps, fault (.select w) ps = none) {w : Cond}
    {ps : List Value} (h : ps.length = w.arity) : check fault (.select w) ps = none := by
  simp [check, Stmt.arity, h, hsel]

theorem find?_append_singleton {p : Row → Bool} {l : List Row} {r : Row} (hr : p r = true)
    (hnone : ∀ r' ∈ l, ¬ p r' = true) : (l ++ [r]).find? p = some r :=
  (find?_with_without hr (by simpa using hnone)).1

/-- A link `CreatePublicShare` stores in a table whose ids stay below its counter reads back as
the share the create returned, with the expiration the column keeps: by its id for its creator,
and, when its token is new to the table, by the token for anyone through `GetPublicShare` and,
when it has no password, through `GetPublicShareByToken`. This holds while the link has not
expired, as `expired` reads the seconds the column gives back, and the store accepts the selects;
a signature, asked of a protected link, is left out. -/
theorem created_link_reads_back (m : Manager) {now now' : Nat} {tkn : String} {u : User}
    {rInfo : ResourceInfo} {g : Grant} {d : String} {i : Bool} {t t' : Table} {s : PublicShare}
    (hids : ∀ r ∈ t.rows, r.id < t.nextId) (hsel : ∀ w ps, m.fault (.select w) ps = none)
    (hc : m.createPublicShare now tkn u rInfo g d i t = (.ok s, t'))
    (hlive : expired now' s.stored = false) :
    (∀ sign, s.passwordProtected = false ∨ sign = false →
      m.getPublicShare now' u (.id s.id) sign t' = (.ok s.stored, t')) ∧
    (tkn ∉ t.rows.map Row.token → tkn ≠ "" →
      ∀ v sign, s.passwordProtected = false ∨ sign = false →
        m.getPublicShare now' v (.token tkn) sign t' = (.ok s.stored, t')) ∧
    (tkn ∉ t.rows.map Row.token → s.passwordProtected = false →
      ∀ a sign, m.getPublicShareByToken now' tkn a sign t' = (.ok s.stored, t')) := by
  obtain ⟨sets, params, share, r, hci, hap, rfl, rfl⟩ := m.createPublicShare_eq_ok hc
  obtain ⟨hread, hid, htk, horph, hst, hinit, hpw⟩ := m.createInsert_reads_back hci hap
  have hkey : (share (toString t.nextId)).id = toString r.id := (congrArg PublicShare.id hread).symm
  have hsign_ok : ∀ sign, (share (toString t.nextId)).passwordProtected = false ∨ sign = false →
      ((share (toString t.nextId)).stored.passwordProtected && sign) = false := fun _ h =>
    Bool.and_eq_false_iff.mpr (by rwa [PublicShare.stored_passwordProtected])
  refine ⟨fun sign hsign => ?_, fun hnew hne v sign hsign => ?_, fun hnew hnopw a sign => ?_⟩
  · have hfind := find?_append_singleton (l := t.rows)
      ((getByIDWhere_eval r (formatUserID u.id) _).mpr ⟨horph, hst, hkey.symm, .inr hinit⟩)
      fun r' hr' h => absurd (hids r' hr') (by
        rw [← hid, toString_nat_inj (((getByIDWhere_eval _ _ _).mp h).2.2.1.trans hkey)]
        exact Nat.lt_irrefl _)
    have hchk : check m.fault (.select getByIDWhere) [.int publicShareType,
        .str (share (toString t.nextId)).id, .str (formatUserID u.id), .str (formatUserID u.id)] =
        none := check_select_eq hsel rfl
    simp only [getPublicShare, lookup, getByID, queryRow_eq, hchk, hfind]
    simp only [hkey, ofRow_with_id, convert_ofRow, hread, hlive, hsign_ok sign hsign,
      Bool.false_eq_true, ↓reduceIte]
  · have hfind := find?_append_singleton (l := t.rows)
      ((getByTokenWhere_eval r tkn).mpr ⟨horph, hst, htk⟩) fun r' hr' h => hnew (by
        rw [← ((getByTokenWhere_eval _ _).mp h).2.2]
        exact List.mem_map_of_mem _ hr')
    have hchk : check m.fault (.select getByTokenWhere) [.int publicShareType, .str tkn] = none :=
      check_select_eq hsel rfl
    simp only [getPublicShare, lookup, getByToken, queryRow_eq, hchk, hfind, ne_eq, hne,
      not_false_eq_true, ↓reduceIte]
    simp only [← htk, ofRow_with_token, convert_ofRow, hread, hlive, hsign_ok sign hsign,
      Bool.false_eq_true, ↓reduceIte]
  · have hfind := find?_append_singleton (l := t.rows)
      ((getPublicShareByTokenWhere_eval r tkn).mpr ⟨hst, htk⟩) fun r' hr' h => hnew (by
        rw [← ((getPublicShareByTokenWhere_eval _ _).mp h).2]
        exact List.mem_map_of_mem _ hr')
    have hchk : check m.fault (.select getPublicShareByTokenWhere)
        [.int publicShareType, .str tkn] = none := check_select_eq hsel rfl
    simp only [getPublicShareByToken, queryRow_eq, hchk, hfind]
    simp only [← htk, ofRow_with_token, convert_ofRow, hread, hlive, Bool.false_eq_true,
      ↓reduceIte]
    simp only [ofRow_shareWith, hpw hnopw, ne_eq, not_true_eq_false, ↓reduceIte]

/-- After `RevokePublicShare` of a reference succeeds, the reads no longer find the link: for the
same caller `GetPublicShare` of the reference answers `NotFound`, and for a token so does
`GetPublicShareByToken` for anyone, provided the tokens of the table were distinct and the store
accepts the selects. -/
theorem revoked_link_not_found (m : Manager) {u : User} {ref : PublicShareReference} {t : Table}
    (htok : (t.rows.map Row.token).Nodup) (hsel : ∀ w ps, m.fault (.select w) ps = none)
    (hrev : (m.revokePublicShare u ref t).1 = .ok ()) (now : Nat) (sign : Bool) :
    (∃ x, (m.getPublicShare now u ref sign (m.revokePublicShare u ref t).2).1 =
      .error (.notFound x)) ∧
    ∀ tk, ref = .token tk → ∀ a,
      (m.getPublicShareByToken now tk a sign (m.revokePublicShare u ref t).2).1 =
        .error (.notFound tk) := by
  obtain ⟨w, key, hw, ht', r0, hr0, hdel⟩ := m.revokePublicShare_eq_ok hrev
  rw [ht']
  have hkey := fun r => revokeSelector_eval r (formatUserID u.id) key hw
  have hleft : ∀ r ∈ t.rows.filter (fun r =>
      !w.eval [.str key, .str (formatUserID u.id), .str (formatUserID u.id)] r),
      r ∈ t.rows ∧ ¬ (RefKey r ref ∧ r.ownedBy u) := by
    intro r hr
    simp only [List.mem_filter, Bool.not_eq_true', Bool.not_eq_eq_eq_not, Bool.not_true] at hr
    exact ⟨hr.1, fun h => by simp [(hkey r).mpr h] at hr⟩
  have hnotk : ∀ tk, ref = .token tk → ∀ r ∈ t.rows.filter (fun r =>
      !w.eval [.str key, .str (formatUserID u.id), .str (formatUserID u.id)] r), r.token ≠ tk := by
    rintro tk rfl r hr rfl
    obtain ⟨⟨-, h0⟩, howned⟩ := (hkey r0).mp hdel
    obtain ⟨hmem, hno⟩ := hleft r hr
    obtain rfl := List.inj_on_of_nodup_map htok hr0 hmem h0
    exact hno ⟨(hkey r0).mp hdel |>.1, howned⟩
  generalize t.rows.filter (fun r =>
    !w.eval [.str key, .str (formatUserID u.id), .str (formatUserID u.id)] r) = rows at hleft hnotk
  refine ⟨?_, fun tk htk a => ?_⟩
  · cases ref with
    | id i =>
      have hnone : rows.find? (getByIDWhere.eval [.int publicShareType, .str i,
          .str (formatUserID u.id), .str (formatUserID u.id)]) = none :=
        List.find?_eq_none.mpr fun r hr h => (hleft r hr).2
          (((getByIDWhere_eval _ _ _).mp h).2.2)
      have hchk : check m.fault (.select getByIDWhere) [.int publicShareType, .str i,
          .str (formatUserID u.id), .str (formatUserID u.id)] = none := check_select_eq hsel rfl
      exact ⟨i, by simp only [getPublicShare, lookup, getByID, queryRow_eq, hchk, hnone]⟩
    | token tk =>
      have hne : tk ≠ "" := fun h => by simp [revokeSelector, h] at hw
      have hnone : rows.find? (getByTokenWhere.eval [.int publicShareType, .str tk]) = none :=
        List.find?_eq_none.mpr fun r hr h =>
          hnotk tk rfl r hr ((getByTokenWhere_eval _ _).mp h).2.2
      have hchk : check m.fault (.select getByTokenWhere) [.int publicShareType, .str tk] = none :=
        check_select_eq hsel rfl
      exact ⟨tk, by simp only [getPublicShare, lookup, getByToken, queryRow_eq, hchk, hnone, ne_eq,
        hne, not_false_eq_true, ↓reduceIte]⟩
    | none => simp [revokeSelector] at hw
  · have hnone : rows.find? (getPublicShareByTokenWhere.eval [.int publicShareType, .str tk]) =
        none :=
      List.find?_eq_none.mpr fun r hr h =>
        hnotk tk htk r hr ((getPublicShareByTokenWhere_eval _ _).mp h).2
    have hchk : check m.fault (.select getPublicShareByTokenWhere)
        [.int publicShareType, .str tk] = none := check_select_eq hsel rfl
    simp only [getPublicShareByToken, queryRow_eq, hchk, hnone]

theorem revoked_home_link_not_found :
    (∃ x, ((sampleManager true).getPublicShare 0 linkOwner (.token "tok") false
        ((sampleManager true).revokePublicShare linkOwner (.token "tok") homeLinkTable).2).1 =
      .error (.notFound x)) ∧
    ∀ tk, PublicShareReference.token "tok" = .token tk → ∀ a,
      ((sampleManager true).getPublicShareByToken 0 tk a false
          ((sampleManager true).revokePublicShare linkOwner (.token "tok") homeLinkTable).2).1 =
        .error (.notFound tk) :=
  revoked_link_not_found (sampleManager true) (by decide) (fun _ _ => rfl)
    (show ((sampleManager true).revokePublicShare linkOwner (.token "tok") homeLinkTable).1 =
      .ok () from rfl) 0 false

/-- The link `createHomeLink` returns for a grant expiring 5 ns past second 10. -/
def expiringHomeLink : PublicShare :=
  ⟨"1", ⟨"u1"⟩, ⟨"u1"⟩, ⟨"eoshome-u1", "42"⟩, "tok", 1, ⟨0, 0⟩, ⟨0, 0⟩, false, some ⟨10, 5⟩, "tok",
    false, "", none⟩

/-- The table after that create. -/
def expiringHomeLinkTable : Table := (createHomeLink ⟨1, "", some ⟨10, 5⟩⟩).2

theorem expiring_home_link_reads_back :
    (∀ sign, expiringHomeLink.passwordProtected = false ∨ sign = false →
      (sampleManager true).getPublicShare 10000000000 linkOwner (.id expiringHomeLink.id) sign
          expiringHomeLinkTable = (.ok expiringHomeLink.stored, expiringHomeLinkTable)) ∧
    ("tok" ∉ Table.empty.rows.map Row.token → "tok" ≠ "" →
      ∀ v sign, expiringHomeLink.passwordProtected = false ∨ sign = false →
        (sampleManager true).getPublicShare 10000000000 v (.token "tok") sign
          expiringHomeLinkTable = (.ok expiringHomeLink.stored, expiringHomeLinkTable)) ∧
    ("tok" ∉ Table.empty.rows.map Row.token → expiringHomeLink.passwordProtected = false →
      ∀ a sign, (sampleManager true).getPublicShareByToken 10000000000 "tok" a sign
        expiringHomeLinkTable = (.ok expiringHomeLink.stored, expiringHomeLinkTable)) :=
  created_link_reads_back (sampleManager true) nofun (fun _ _ => rfl)
    (show (sampleManager true).createPublicShare 0 "tok" linkOwner homeFile ⟨1, "", some ⟨10, 5⟩⟩ ""
      false Table.empty = (.ok expiringHomeLink, expiringHomeLinkTable) from rfl)
    (by decide)

/-- A link asked to expire at `2 ^ 63` seconds or later, within the `uint64` range, is stored
before the epoch: `int64()` of its seconds is negative, and the link has expired at every
instant. -/
theorem stored_expired_of_high_seconds {s : PublicShare} {e : Timestamp}
    (he : s.expiration = some e) (hlo : 2 ^ 63 ≤ e.seconds) (hhi : e.seconds < 2 ^ 64) (now : Nat) :
    expired now s.stored = true := by
  have hneg : int64 e.seconds < 0 := by
    rw [int64, BitVec.toInt_ofNat, Int.bmod_def]
    split <;> omega
  have hne : e.seconds ≠ 0 := by omega
  simp only [expired, PublicShare.stored, storedExpiration, he, hne, ne_eq, not_false_eq_true,
    ↓reduceIte, Timestamp.toInstant, int64_uint64_int64, decide_eq_true_eq]
  omega

example : expired 0 { expiringHomeLink with expiration := some ⟨2 ^ 64 - 1, 0⟩ }.stored = true := by
  decide

end Reva
