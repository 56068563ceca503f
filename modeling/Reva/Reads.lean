import Reva.Statements

/-!
# What the read paths return

One spec lemma per read path: what `lookup`, `GetPublicShare`, `GetPublicShareByToken` and the
row loop of `ListPublicShares` return when they succeed. Each names the row a share is read from,
what the path checked of that row, and when a signature was attached. A successful read leaves
the table as it was; only a read that meets an expired share sweeps.
-/

namespace Reva

open Sql Manager

/-- The share is row `r` read back, with or without a signature attached. -/
def ReadsRow (s : PublicShare) (r : Row) : Prop := { s with signature := none } = r.share

/-- What a reference selects a row by in `GetPublicShare`: an id the row has, for its owner or
creator, or a non-empty token the row has, for anyone. -/
def LookupKey (u : User) (r : Row) : PublicShareReference → Prop
  | .id i => toString r.id = i ∧ r.ownedBy u
  | .token tk => tk ≠ "" ∧ r.token = tk
  | .none => False

theorem readsRow_share (r : Row) : ReadsRow r.share r := rfl

namespace Manager

variable (m : Manager)

theorem addSignature_ok {now : Nat} {s s' : PublicShare} {pw : String}
    (h : m.addSignature now s pw = .ok s') :
    { s' with signature := none } = { s with signature := none } ∧ s'.signature ≠ none := by
  unfold addSignature at h
  cases hc : m.createSignature s.token pw ↑(now + m.signatureValidity) <;>
    simp only [hc, Except.map] at h <;> cases h
  exact ⟨rfl, by simp⟩

theorem readsRow_of_addSignature {now : Nat} {r : Row} {s : PublicShare}
    (h : m.addSignature now r.share r.shareWith = .ok s) : ReadsRow s r :=
  (m.addSignature_ok h).1

theorem lookup_ok {t : Table} {u : User} {ref : PublicShareReference} {s : PublicShare}
    {pw : String} (h : m.lookup t u ref = .ok (s, pw)) :
    ∃ r ∈ t.rows, s = r.share ∧ pw = r.shareWith ∧ r.orphan = false ∧
      r.shareType = publicShareType ∧ LookupKey u r ref := by
  cases ref with
  | id i =>
    simp only [lookup, getByID] at h
    split at h
    · cases h
    · cases h
    · rename_i r hr
      obtain ⟨hmem, heval⟩ := queryRow_eq_ok_some hr
      obtain ⟨ho, hst, rfl, hown⟩ := (getByIDWhere_eval r _ _).mp heval
      cases h
      exact ⟨r, hmem, rfl, rfl, ho, hst, rfl, hown⟩
  | token tk =>
    simp only [lookup, getByToken] at h
    split at h
    · split at h
      · cases h
      · cases h
      · rename_i htk _ r hr
        obtain ⟨hmem, heval⟩ := queryRow_eq_ok_some hr
        obtain ⟨ho, hst, rfl⟩ := (getByTokenWhere_eval r _).mp heval
        cases h
        exact ⟨r, hmem, rfl, rfl, ho, hst, htk, rfl⟩
    · cases h
  | none => cases h

/-- `GetPublicShare` returns a live public link of the table, selected by the reference, and
signs it only when asked and when the link has a password. -/
theorem getPublicShare_ok {now : Nat} {u : User} {ref : PublicShareReference} {sign : Bool}
    {t t' : Table} {s : PublicShare} (h : m.getPublicShare now u ref sign t = (.ok s, t')) :
    t' = t ∧ ∃ r ∈ t.rows, ReadsRow s r ∧ r.orphan = false ∧ r.shareType = publicShareType ∧
      r.expiredAt now = false ∧ LookupKey u r ref ∧
      (s.signature ≠ none → sign = true ∧ r.shareWith ≠ "" ∧
        m.addSignature now r.share r.shareWith = .ok s) := by
  unfold getPublicShare at h
  split at h
  · cases h
  · rename_i s0 pw hl
    obtain ⟨r, hmem, rfl, rfl, ho, hst, hkey⟩ := m.lookup_ok hl
    rw [expired_share] at h
    split at h
    · split at h <;> cases h
    · rename_i hexp
      have hlive : r.expiredAt now = false := by simpa using hexp
      split at h
      · rename_i hsign
        simp only [share_passwordProtected, Bool.and_eq_true, bne_iff_ne, ne_eq] at hsign
        split at h
        · cases h
        · rename_i s' hs
          cases h
          exact ⟨rfl, r, hmem, m.readsRow_of_addSignature hs, ho, hst, hlive, hkey,
            fun _ => ⟨hsign.2, hsign.1, hs⟩⟩
      · cases h
        exact ⟨rfl, r, hmem, readsRow_share r, ho, hst, hlive, hkey, by simp⟩

theorem getPublicShareByToken_ok {now : Nat} {tk : String} {a : PublicShareAuthentication}
    {sign : Bool} {t t' : Table} {s : PublicShare}
    (h : m.getPublicShareByToken now tk a sign t = (.ok s, t')) :
    t' = t ∧ ∃ r ∈ t.rows, ReadsRow s r ∧ r.shareType = publicShareType ∧ r.token = tk ∧
      r.expiredAt now = false ∧
      (r.shareWith ≠ "" → m.authenticate now r.share r.shareWith a = true) ∧
      (s.signature ≠ none → sign = true ∧ r.shareWith ≠ "" ∧
        m.addSignature now r.share r.shareWith = .ok s) := by
  unfold getPublicShareByToken at h
  split at h
  · cases h
  · cases h
  · rename_i r hr
    obtain ⟨hmem, heval⟩ := queryRow_eq_ok_some hr
    obtain ⟨hst, rfl⟩ := (getPublicShareByTokenWhere_eval r _).mp heval
    simp only [ofRow_with_token] at h
    simp only [convert_ofRow, ofRow_shareWith, expired_share] at h
    split at h
    · split at h <;> cases h
    · rename_i hexp
      have hlive : r.expiredAt now = false := by simpa using hexp
      split at h
      · rename_i hpw
        split at h
        · cases h
        · rename_i hauth
          have hauth' : m.authenticate now r.share r.shareWith a = true := by simpa using hauth
          split at h
          · rename_i hsign
            split at h
            · cases h
            · rename_i s' hs
              cases h
              exact ⟨rfl, r, hmem, m.readsRow_of_addSignature hs, hst, rfl, hlive,
                fun _ => hauth', fun _ => ⟨hsign, hpw, hs⟩⟩
          · cases h
            exact ⟨rfl, r, hmem, readsRow_share r, hst, rfl, hlive, fun _ => hauth', by simp⟩
      · rename_i hpw
        cases h
        exact ⟨rfl, r, hmem, readsRow_share r, hst, rfl, hlive, fun h => absurd h hpw, by simp⟩

theorem map_cons_eq_ok {ε α : Type} {x : α} {e : Except ε (List α)} {xs : List α}
    (h : e.map (x :: ·) = .ok xs) : ∃ xs', e = .ok xs' ∧ xs = x :: xs' := by
  cases e with
  | error => cases h
  | ok xs' => cases h; exact ⟨xs', rfl, rfl⟩

theorem collectShares_ok {now : Nat} {sign : Bool} :
    ∀ {rows : List Row} {t : Table} {ss : List PublicShare},
      (m.collectShares now sign rows t).1 = .ok ss →
      ∀ s ∈ ss, ∃ r ∈ rows, ReadsRow s r ∧ r.expiredAt now = false ∧
        (s.signature ≠ none → sign = true ∧ r.shareWith ≠ "" ∧
          m.addSignature now r.share r.shareWith = .ok s)
  | [], _, _, h => by cases h; simp
  | r :: rs, t, ss, h => by
    simp only [collectShares, convert_ofRow, ofRow_shareWith, expired_share] at h
    split at h
    · exact fun s hs => List.exists_mem_cons_of_exists (collectShares_ok h s hs)
    · rename_i hexp
      have hlive : r.expiredAt now = false := by simpa using hexp
      split at h
      · rename_i hsign
        simp only [share_passwordProtected, Bool.and_eq_true, bne_iff_ne, ne_eq] at hsign
        split at h
        · cases h
        · rename_i s' hs
          obtain ⟨ss', hrest, rfl⟩ := map_cons_eq_ok h
          rintro s (_ | ⟨_, hmem⟩)
          · exact ⟨r, List.mem_cons_self _ _, m.readsRow_of_addSignature hs, hlive,
              fun _ => ⟨hsign.2, hsign.1, hs⟩⟩
          · exact List.exists_mem_cons_of_exists (collectShares_ok hrest s hmem)
      · obtain ⟨ss', hrest, rfl⟩ := map_cons_eq_ok h
        rintro s (_ | ⟨_, hmem⟩)
        · exact ⟨r, List.mem_cons_self _ _, readsRow_share r, hlive, by simp⟩
        · exact List.exists_mem_cons_of_exists (collectShares_ok hrest s hmem)

end Manager

end Reva
