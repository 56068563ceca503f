import Reva.Listing

/-!
# Which links the read paths show, and to whom

Three properties of the read paths over every table and instant. `GetPublicShare` and
`ListPublicShares` only return live public links, and `GetPublicShareByToken` only links whose
expiration has not passed (`reads_return_unexpired_links`); the instant of the expiration itself
still counts as live. A signature is attached only after the token lookup authenticated the
request, or to whoever `GetPublicShare` and `ListPublicShares` resolve the link for
(`signatures_follow_lookups`), and `GetPublicShare` resolves a token for every caller. A
protected link is returned by token only to a request that carries its password or a signature
valid up to and including its expiration (`getPublicShareByToken_authenticates`).

The sample runs start from an empty table and use `sampleManager`, whose store never fails.
-/

namespace Reva

open Sql Manager

/-- A manager over a store that never fails. Its bcrypt keeps the password as the hash and its
signer joins what it signs; the runs below only compare what these return. -/
def sampleManager (enable : Bool) : Manager where
  c := ⟨11, 3600, enable⟩
  fault := noFault
  generateFromPassword p _ := .ok p
  compareHashAndPassword h p := h == p
  createSignature tk pw e := .ok (tk ++ "|" ++ pw ++ "|" ++ toString e)
  signatureValidity := 1800000000000

def linkOwner : User := ⟨⟨"u1"⟩, []⟩

def stranger : User := ⟨⟨"u2"⟩, []⟩

def homeFile : ResourceInfo := ⟨⟨"eoshome-u1", "42"⟩, ⟨"u1"⟩, "file", "/eos/user/u/u1/f", some []⟩

/-- `linkOwner` creates a link with token `tok` on `homeFile` at instant 0, in an empty table. -/
def createHomeLink (g : Grant) : Except Error PublicShare × Table :=
  (sampleManager true).createPublicShare 0 "tok" linkOwner homeFile g "" false Table.empty

/-- A table holding one link of `linkOwner` on `homeFile`, with no password and no expiration. -/
def homeLinkTable : Table := (createHomeLink ⟨1, "", none⟩).2

def projectAdminUser : User := ⟨⟨"u3"⟩, ["cernbox-project-foo-admins"]⟩

def projectResource : ResourceId := ⟨"newproject-a", "1"⟩

/-- A gateway that resolves only `projectResource`, to a path of project `foo`. -/
def projectStat : Stat := fun r => if r = projectResource then some "/eos/project/f/foo" else none

namespace Manager

variable (m : Manager)

theorem authenticate_eq_true_iff {now : Nat} {share : PublicShare} {pw : String}
    {a : PublicShareAuthentication} :
    m.authenticate now share pw a = true ↔
      (a.password ≠ "" ∧ m.checkPasswordHash a.password pw = true) ∨
      (a.password = "" ∧ ∃ sig, a.signature = some sig ∧
        now ≤ (sig.signatureExpiration.getD ⟨0, 0⟩).toInstant ∧
        m.createSignature share.token pw (sig.signatureExpiration.getD ⟨0, 0⟩).toInstant =
          .ok sig.signature) := by
  unfold authenticate
  by_cases hp : a.password = ""
  · simp only [hp, ne_eq, not_true_eq_false, if_false, false_and, false_or, true_and]
    cases a.signature with
    | none => simp
    | some sig =>
      simp only [Option.some.injEq, exists_eq_left']
      by_cases hlt : (sig.signatureExpiration.getD ⟨0, 0⟩).toInstant < now
      · simp only [hlt, if_true]
        simp only [Bool.false_eq_true, false_iff, not_and]
        intro hle; omega
      · simp only [hlt, if_false, Int.not_lt.mp hlt, true_and]
        cases m.createSignature share.token pw (sig.signatureExpiration.getD ⟨0, 0⟩).toInstant with
        | error e => simp
        | ok s => simp only [beq_iff_eq, Except.ok.injEq]; exact eq_comm
  · simp [hp]

end Manager

/-! ## Only live links are read -/

/-- Reads never return an orphaned link, nor one whose expiration lies strictly before the read:
`GetPublicShare` and `ListPublicShares` return live public links, and `GetPublicShareByToken`
public links whose expiration has not passed. -/
theorem reads_return_unexpired_links (m : Manager) (now : Nat) (t : Table) :
    (∀ u ref sign s t', m.getPublicShare now u ref sign t = (.ok s, t') →
      ∃ r ∈ t.rows, ReadsRow s r ∧ r.shareType = publicShareType ∧ r.orphan = false ∧
        r.expiredAt now = false) ∧
    (∀ u fs client sign ss t', m.listPublicShares now u fs client sign t = (.ok ss, t') →
      ∀ s ∈ ss, ∃ r ∈ t.rows, ReadsRow s r ∧ r.shareType = publicShareType ∧ r.orphan = false ∧
        r.expiredAt now = false) ∧
    (∀ tk a sign s t', m.getPublicShareByToken now tk a sign t = (.ok s, t') →
      ∃ r ∈ t.rows, ReadsRow s r ∧ r.shareType = publicShareType ∧ r.expiredAt now = false) := by
  refine ⟨fun u ref sign s t' h => ?_, fun u fs client sign ss t' h s hs => ?_,
    fun tk a sign s t' h => ?_⟩
  · obtain ⟨-, r, hr, hread, ho, hst, hlive, -⟩ := m.getPublicShare_ok h
    exact ⟨r, hr, hread, hst, ho, hlive⟩
  · obtain ⟨_, -, hall⟩ := m.listPublicShares_ok h
    obtain ⟨r, hr, hread, ⟨ho, hst, -⟩, hlive, -⟩ := hall s hs
    exact ⟨r, hr, hread, hst, ho, hlive⟩
  · obtain ⟨-, r, hr, hread, hst, -, hlive, -⟩ := m.getPublicShareByToken_ok h
    exact ⟨r, hr, hread, hst, hlive⟩

/-- A link created to expire at second 10 is still returned at that very instant. -/
theorem getPublicShare_returns_link_at_its_expiration :
    let m := sampleManager true
    let t := (m.createPublicShare 0 "tok" linkOwner homeFile ⟨1, "", some ⟨10, 0⟩⟩ "" false
      Table.empty).2
    ∃ r ∈ t.rows, r.expiration = some 10 ∧
      (m.getPublicShare 10000000000 linkOwner (.token "tok") false t).1 = .ok r.share := by
  decide

/-! ## Signatures -/

/-- A signature is attached only by `GetPublicShareByToken` to a request that authenticated
against the link's hash, by `GetPublicShare` to whoever the reference resolves the link for (its
owner or creator by id, anyone by token), and by `ListPublicShares` to the link's owner or creator
or to an admin of a project that one of its resource filters names, the link lying on a resource
of those filters. In each case signing was asked for, and the signature is `AddSignature`'s for
a protected link at the request's instant. -/
theorem signatures_follow_lookups (m : Manager) (now : Nat) (t : Table) :
    (∀ tk a sign s t', m.getPublicShareByToken now tk a sign t = (.ok s, t') →
      s.signature ≠ none → sign = true ∧ ∃ r ∈ t.rows, r.token = tk ∧ r.shareWith ≠ "" ∧
        m.authenticate now r.share r.shareWith a = true ∧
        m.addSignature now r.share r.shareWith = .ok s) ∧
    (∀ u ref sign s t', m.getPublicShare now u ref sign t = (.ok s, t') →
      s.signature ≠ none → sign = true ∧ ∃ r ∈ t.rows, LookupKey u r ref ∧ r.shareWith ≠ "" ∧
        m.addSignature now r.share r.shareWith = .ok s) ∧
    (∀ u fs client sign ss t', m.listPublicShares now u fs client sign t = (.ok ss, t') →
      ∀ s ∈ ss, s.signature ≠ none → sign = true ∧ ∃ r ∈ t.rows,
        (r.ownedBy u ∨ ∃ stat, client = .ok stat ∧ projectAdmin u stat fs = true ∧
          ∃ rid ∈ resourceFilterIds fs, resourceMatch rid r) ∧
        r.shareWith ≠ "" ∧ m.addSignature now r.share r.shareWith = .ok s) := by
  refine ⟨fun tk a sign s t' h hsig => ?_, fun u ref sign s t' h hsig => ?_,
    fun u fs client sign ss t' h s hs hsig => ?_⟩
  · obtain ⟨-, r, hr, -, -, htk, -, hauth, hsign⟩ := m.getPublicShareByToken_ok h
    obtain ⟨hs, hpw, hadd⟩ := hsign hsig
    exact ⟨hs, r, hr, htk, hpw, hauth hpw, hadd⟩
  · obtain ⟨-, r, hr, -, -, -, -, hkey, hsign⟩ := m.getPublicShare_ok h
    obtain ⟨hs, hpw, hadd⟩ := hsign hsig
    exact ⟨hs, r, hr, hkey, hpw, hadd⟩
  · obtain ⟨stat, rfl, hall⟩ := m.listPublicShares_ok h
    obtain ⟨r, hr, -, -, -, hres, -, -, hwho, hsign⟩ := hall s hs
    obtain ⟨hsigned, hpw, hadd⟩ := hsign hsig
    refine ⟨hsigned, r, hr, ?_, hpw, hadd⟩
    rcases hwho with hadmin | hown
    · obtain ⟨rid, hrid, -⟩ := (projectAdmin_iff u stat fs).mp hadmin
      rcases hres with hnil | hres
      · simp [hnil] at hrid
      · exact .inr ⟨stat, rfl, hadmin, hres⟩
    · exact .inl hown

/-- A caller who is neither owner nor creator of a protected link, and knows only its token,
obtains from `GetPublicShare` a signature that `GetPublicShareByToken` accepts. -/
theorem stranger_obtains_accepted_signature :
    let m := sampleManager true
    let t := (m.createPublicShare 0 "tok" linkOwner homeFile ⟨1, "secret", none⟩ "" false
      Table.empty).2
    (∀ r ∈ t.rows, ¬ r.ownedBy stranger) ∧
    ∃ s, (m.getPublicShare 0 stranger (.token "tok") true t).1 = .ok s ∧
      ∃ sig, s.signature = some sig ∧
        (m.getPublicShareByToken 0 "tok" ⟨"", some sig⟩ false t).1 = .ok { s with signature := none } := by
  refine ⟨by decide, _, rfl, _, rfl, ?_⟩
  decide

/-! ## Authentication by token -/

/-- `GetPublicShareByToken` returns a link with a non-empty hash `h` only to a request whose
password checks against `h`, or, with no password, whose signature is `CreateSignature` of the
token, `h` and its expiration `e`, at an instant up to and including `e`. A live link with an
empty hash, found by a store that answers, is returned whatever the request carries. -/
theorem getPublicShareByToken_authenticates (m : Manager) (now : Nat) (tk : String)
    (sign : Bool) (t : Table) :
    (∀ a s t', m.getPublicShareByToken now tk a sign t = (.ok s, t') →
      ∃ r ∈ t.rows, r.shareType = publicShareType ∧ r.token = tk ∧ ReadsRow s r ∧
        (r.shareWith ≠ "" →
          (a.password ≠ "" ∧ m.checkPasswordHash a.password r.shareWith = true) ∨
          (a.password = "" ∧ ∃ sig, a.signature = some sig ∧
            now ≤ (sig.signatureExpiration.getD ⟨0, 0⟩).toInstant ∧
            m.createSignature tk r.shareWith (sig.signatureExpiration.getD ⟨0, 0⟩).toInstant =
              .ok sig.signature))) ∧
    (∀ r, m.fault (.select getPublicShareByTokenWhere) [.int publicShareType, .str tk] = none →
      t.rows.find? (fun r => r.shareType == publicShareType && r.token == tk) = some r →
      r.shareWith = "" → r.expiredAt now = false →
      ∀ a, m.getPublicShareByToken now tk a sign t = (.ok r.share, t)) := by
  refine ⟨fun a s t' h => ?_, fun r hf hfind hpw hlive a => ?_⟩
  · obtain ⟨-, r, hr, hread, hst, htk, -, hauth, -⟩ := m.getPublicShareByToken_ok h
    refine ⟨r, hr, hst, htk, hread, fun hpw => ?_⟩
    simpa [htk] using m.authenticate_eq_true_iff.mp (hauth hpw)
  · have hsel : (getPublicShareByTokenWhere.eval [.int publicShareType, .str tk]) =
        fun r => r.shareType == publicShareType && r.token == tk := by
      funext r
      rw [Bool.eq_iff_iff, getPublicShareByTokenWhere_eval]
      simp
    have hq : queryRow m.fault getPublicShareByTokenWhere [.int publicShareType, .str tk] t =
        .ok (some r) := by
      have harity : (Stmt.select getPublicShareByTokenWhere).arity = 2 := rfl
      simp [queryRow, query, check, harity, hf, Except.map, hsel, hfind]
    have hkey := List.find?_some hfind
    simp only [Bool.and_eq_true, beq_iff_eq] at hkey
    obtain ⟨-, rfl⟩ := hkey
    unfold getPublicShareByToken
    rw [hq]
    simp only [ofRow_with_token]
    simp [convert_ofRow, hpw, hlive]

/-- A signature whose expiration is exactly the instant of the request is still accepted. -/
theorem getPublicShareByToken_accepts_signature_at_its_expiration :
    let m := sampleManager true
    let t := (m.createPublicShare 0 "tok" linkOwner homeFile ⟨1, "secret", none⟩ "" false
      Table.empty).2
    let sig : ShareSignature := ⟨"tok|1|secret|10000000000", some ⟨10, 0⟩⟩
    ∃ r ∈ t.rows, r.shareWith ≠ "" ∧
      (m.getPublicShareByToken 10000000000 "tok" ⟨"", some sig⟩ false t).1 = .ok r.share := by
  decide

/-! ## Project admins -/

/-- Every link `ListPublicShares` returns is the caller's own, or lies on a resource named by a
resource filter of a list in which some resource filter names a project resource whose admin
group the caller is in. -/
theorem listed_links_owned_or_administered (m : Manager) (now : Nat) (u : User)
    (fs : List ListFilter) (client : Except String Stat) (sign : Bool) (t : Table) :
    ∀ ss t', m.listPublicShares now u fs client sign t = (.ok ss, t') →
      ∀ s ∈ ss, ∃ r ∈ t.rows, ReadsRow s r ∧ (r.ownedBy u ∨
        (∃ rid ∈ resourceFilterIds fs, resourceMatch rid r) ∧ ∃ stat, client = .ok stat ∧
          ∃ rid ∈ resourceFilterIds fs, hasPrefix rid.storageId projectInstancesPrefix = true ∧
            ∃ path g, stat rid = some path ∧ adminGroup path = some g ∧ g ∈ u.groups) := by
  intro ss t' h s hs
  obtain ⟨stat, rfl, hall⟩ := m.listPublicShares_ok h
  obtain ⟨r, hr, hread, -, -, hres, -, -, hwho, -⟩ := hall s hs
  refine ⟨r, hr, hread, ?_⟩
  rcases hwho with hadmin | hown
  · have hproj := (projectAdmin_iff u stat fs).mp hadmin
    rcases hres with hnil | hres
    · obtain ⟨rid, hrid, -⟩ := hproj
      simp [hnil] at hrid
    · exact .inr ⟨hres, stat, rfl, hproj⟩
  · exact .inl hown

/-- The admin's listing of the failing input below, through
`listed_links_owned_or_administered`: the link on the home file is there by the admin clause. -/
theorem project_admin_listing_administered :
    (sampleManager true).listPublicShares 0 projectAdminUser
        [.resourceId projectResource, .resourceId homeFile.id] (.ok projectStat) false
        homeLinkTable = (.ok (homeLinkTable.rows.map Row.share), homeLinkTable) ∧
      ∀ s ∈ homeLinkTable.rows.map Row.share, ∃ r ∈ homeLinkTable.rows, ReadsRow s r ∧
        (r.ownedBy projectAdminUser ∨
          (∃ rid ∈ [projectResource, homeFile.id], resourceMatch rid r) ∧
          ∃ stat, (.ok projectStat : Except String Stat) = .ok stat ∧
            ∃ rid ∈ [projectResource, homeFile.id],
            hasPrefix rid.storageId projectInstancesPrefix = true ∧
            ∃ path g, stat rid = some path ∧ adminGroup path = some g ∧
              g ∈ projectAdminUser.groups) :=
  ⟨by decide, listed_links_owned_or_administered (sampleManager true) 0 projectAdminUser
    [.resourceId projectResource, .resourceId homeFile.id] (.ok projectStat) false homeLinkTable
    (homeLinkTable.rows.map Row.share) homeLinkTable (by decide)⟩

/-- An admin of project `foo` lists a project resource and someone's home file together, and
is handed the link on the home file, which the admin neither owns nor created. -/
theorem project_admin_lists_home_links :
    ∃ r ∈ homeLinkTable.rows, ¬ r.ownedBy projectAdminUser ∧
      hasPrefix r.fileidPrefix projectInstancesPrefix = false ∧
      ((sampleManager true).listPublicShares 0 projectAdminUser
        [.resourceId projectResource, .resourceId homeFile.id] (.ok projectStat) false
        homeLinkTable).1 = .ok [r.share] := by
  decide

end Reva
