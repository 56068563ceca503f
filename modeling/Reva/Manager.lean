import Reva.Link

/-!
# The SQL public-share manager

The functions of `publicshare/manager/sql`, each a state-passing function over the `oc_share`
table. An operation reads the clock once, at `now`, and takes the random token of `Create` as an
argument. The collaborators that are not among the sources (bcrypt, the signer of `publicshare`,
the store's failures) are fields of `Manager`, so every theorem holds whatever they do.
-/

namespace Reva

open Sql

def publicShareType : Nat := 3

def projectInstancesPrefix : String := "newproject"

def projectSpaceGroupsPrefix : String := "cernbox-project-"

def projectSpaceAdminGroupsSuffix : String := "-admins"

/-- `config`, the fields the manager reads. -/
structure Config where
  sharePasswordHashCost : Nat
  janitorRunInterval : Nat
  enableExpiredSharesCleanup : Bool
  deriving DecidableEq, Repr

def Config.init (c : Config) : Config where
  sharePasswordHashCost := if c.sharePasswordHashCost = 0 then 11 else c.sharePasswordHashCost
  janitorRunInterval := if c.janitorRunInterval = 0 then 3600 else c.janitorRunInterval
  enableExpiredSharesCleanup := c.enableExpiredSharesCleanup

/-- `manager`, with the collaborators that are not among the sources. -/
structure Manager where
  c : Config
  fault : Fault
  /-- `bcrypt.GenerateFromPassword`. -/
  generateFromPassword : String → Nat → Except String String
  /-- Whether `bcrypt.CompareHashAndPassword(hash, password)` succeeds. -/
  compareHashAndPassword : String → String → Bool
  /-- `publicshare.CreateSignature(token, pw, expiration)`. -/
  createSignature : String → String → Int → Except String String
  /-- How long past `now` a signature of `AddSignature` is valid, in nanoseconds. -/
  signatureValidity : Nat

namespace Manager

variable (m : Manager)

def hashPassword (password : String) (cost : Nat) : Except String String :=
  (m.generateFromPassword password cost).map ("1|" ++ ·)

def checkPasswordHash (password hash : String) : Bool :=
  m.compareHashAndPassword (trimPrefix hash "1|") password

/-- Modelled from the spec: `publicshare.AddSignature` is not among the sources. It attaches a
signature of the token and the hash that is valid for `signatureValidity` past `now`. -/
def addSignature (now : Nat) (s : PublicShare) (pw : String) : Except String PublicShare :=
  let expiration := now + m.signatureValidity
  (m.createSignature s.token pw expiration).map fun sig =>
    { s with signature := some ⟨sig, some (Timestamp.ofInstant expiration)⟩ }

def authenticate (now : Nat) (share : PublicShare) (pw : String)
    (auth : PublicShareAuthentication) : Bool :=
  if auth.password ≠ "" then m.checkPasswordHash auth.password pw
  else match auth.signature with
    | some sig =>
      let expiration := (sig.signatureExpiration.getD ⟨0, 0⟩).toInstant
      if expiration < now then false
      else match m.createSignature share.token pw expiration with
        | .ok s => sig.signature == s
        | .error _ => false
    | none => false

/-! ## Cleanup -/

/-- The `datetime` MySQL reads from `time.Now().Format("2006-01-02 03:04:05")`: the wall clock
with the hour on a 12-hour dial, so that the hour after midnight reads as noon. -/
def cleanupCutoff (now : Nat) : Nat :=
  let s := unixSeconds now
  let hour := s % 86400 / 3600
  s / 86400 * 86400 + (if hour % 12 = 0 then 12 else hour % 12) * 3600 + s % 3600

/-- `expiration IS NOT NULL AND expiration < ?` -/
def cleanupWhere : Cond := .and (.isNotNull .expiration) (.lt .expiration .param)

/-- `update oc_share set orphan = 1 where expiration IS NOT NULL AND expiration < ?` -/
def cleanupStmt : Stmt := .update [(.orphan, .lit (.int 1))] cleanupWhere

def cleanupExpiredShares (now : Nat) (t : Table) : Except String Table :=
  if !m.c.enableExpiredSharesCleanup then .ok t
  else (exec m.fault cleanupStmt [.time (cleanupCutoff now)] t).map Prod.snd

/-- `_ = m.cleanupExpiredShares()`, as a tick of `startJanitorRun` and `ListPublicShares` run it.
With cleanup disabled the janitor never starts and this changes nothing. -/
def sweep (now : Nat) (t : Table) : Table :=
  match m.cleanupExpiredShares now t with
  | .ok t' => t'
  | .error _ => t

/-! ## Lookups -/

/-- `(orphan = 0 or orphan IS NULL)` -/
def notOrphan : Cond := .paren (.or (.eq .orphan (.lit (.int 0))) (.isNull .orphan))

/-- `uid_owner=? or uid_initiator=?` -/
def ownerOrInitiator : Cond := .or (.eq .uidOwner .param) (.eq .uidInitiator .param)

def getByTokenWhere : Cond := .and (.and notOrphan (.eq .shareType .param)) (.eq .token .param)

def getByIDWhere : Cond :=
  .and (.and (.and notOrphan (.eq .shareType .param)) (.eq .id .param)) (.paren ownerOrInitiator)

def getPublicShareByTokenWhere : Cond := .and (.eq .shareType .param) (.eq .token .param)

def getByToken (t : Table) (token : String) : Except Error (PublicShare × String) :=
  match queryRow m.fault getByTokenWhere [.int publicShareType, .str token] t with
  | .error e => .error (.other e)
  | .ok none => .error (.notFound token)
  | .ok (some r) =>
    let s := { DBShare.ofRow r with token := token }
    .ok (convertToCS3PublicShare s, s.shareWith)

def getByID (t : Table) (id : String) (u : User) : Except Error (PublicShare × String) :=
  let uid := formatUserID u.id
  match queryRow m.fault getByIDWhere [.int publicShareType, .str id, .str uid, .str uid] t with
  | .error e => .error (.other e)
  | .ok none => .error (.notFound id)
  | .ok (some r) =>
    let s := { DBShare.ofRow r with id := id }
    .ok (convertToCS3PublicShare s, s.shareWith)

/-- The lookup of `GetPublicShare`: by id when the reference carries one, else by a non-empty
token. -/
def lookup (t : Table) (u : User) : PublicShareReference → Except Error (PublicShare × String)
  | .id i => m.getByID t i u
  | .token tk => if tk ≠ "" then m.getByToken t tk else .error (.notFound (PublicShareReference.token tk).toString)
  | .none => .error (.notFound PublicShareReference.none.toString)

def getPublicShare (now : Nat) (u : User) (ref : PublicShareReference) (sign : Bool)
    (t : Table) : Except Error PublicShare × Table :=
  match m.lookup t u ref with
  | .error e => (.error e, t)
  | .ok (s, pw) =>
    if expired now s then
      match m.cleanupExpiredShares now t with
      | .error e => (.error (.other e), t)
      | .ok t' => (.error (.notFound ref.toString), t')
    else if s.passwordProtected && sign then
      match m.addSignature now s pw with
      | .error e => (.error (.other e), t)
      | .ok s' => (.ok s', t)
    else (.ok s, t)

def getPublicShareByToken (now : Nat) (token : String) (auth : PublicShareAuthentication)
    (sign : Bool) (t : Table) : Except Error PublicShare × Table :=
  match queryRow m.fault getPublicShareByTokenWhere [.int publicShareType, .str token] t with
  | .error e => (.error (.other e), t)
  | .ok none => (.error (.notFound token), t)
  | .ok (some r) =>
    let s := { DBShare.ofRow r with token := token }
    let cs3Share := convertToCS3PublicShare s
    if expired now cs3Share then
      match m.cleanupExpiredShares now t with
      | .error e => (.error (.other e), t)
      | .ok t' => (.error (.notFound token), t')
    else if s.shareWith ≠ "" then
      if !m.authenticate now cs3Share s.shareWith auth then (.error (.invalidCredentials token), t)
      else if sign then
        match m.addSignature now cs3Share s.shareWith with
        | .error e => (.error (.other e), t)
        | .ok s' => (.ok s', t)
      else (.ok cs3Share, t)
    else (.ok cs3Share, t)

/-! ## Writes -/

/-- What `CreatePublicShare` computes before it runs its statement: the `INSERT` and its
parameters, and the share it returns for the id of the new row. The metadata is dereferenced, and
the password hashed, first. -/
def createInsert (now : Nat) (tkn : String) (u : User) (rInfo : ResourceInfo) (g : Grant)
    (description : String) (internal : Bool) :
    Except Error (Assignments × List Value × (String → PublicShare)) :=
  match rInfo.arbitraryMetadata with
  | none => .error .panic
  | some md =>
    let quicklink := parseBool ((md.lookup "quicklink").getD "")
    let displayName := (md.lookup "name").getD tkn
    let createdAt : Timestamp := ⟨unixSeconds now, 0⟩
    let sets : Assignments := [(.shareType, .param), (.uidOwner, .param), (.uidInitiator, .param),
      (.itemType, .param), (.fileidPrefix, .param), (.itemSource, .param), (.fileSource, .param),
      (.permissions, .param), (.stime, .param), (.token, .param), (.shareName, .param),
      (.quicklink, .param), (.description, .param), (.internal, .param)]
    let params : List Value := [.int publicShareType, .str (formatUserID rInfo.owner), .str (formatUserID u.id),
      .str rInfo.type, .str rInfo.id.storageId, .str rInfo.id.opaqueId,
      .int (parseUint rInfo.id.opaqueId), .int g.permissions, .int (unixSeconds now), .str tkn,
      .str displayName, .bool quicklink, .str description, .bool internal]
    let password : Except Error (Option String) :=
      if g.password ≠ "" then
        match m.hashPassword g.password m.c.sharePasswordHashCost with
        | .ok h => .ok (some h)
        | .error e => .error (wrap e "could not hash share password")
      else .ok none
    match password with
    | .error e => .error e
    | .ok password =>
      let (sets, params) : Assignments × List Value := match password with
        | some h => (sets ++ [(.shareWith, .param)], params ++ [.str h])
        | none => (sets, params)
      let (sets, params) : Assignments × List Value := match g.expiration with
        | some e => if e.seconds ≠ 0 then
            (sets ++ [(.expiration, .param)], params ++ [.time (int64 e.seconds)])
          else (sets, params)
        | none => (sets, params)
      .ok (sets, params, fun id =>
        { id, owner := rInfo.owner, creator := u.id, resourceId := rInfo.id, token := tkn,
          permissions := g.permissions, ctime := createdAt, mtime := createdAt,
          passwordProtected := password.isSome, expiration := g.expiration, displayName, quicklink,
          description, signature := none })

def createPublicShare (now : Nat) (tkn : String) (u : User) (rInfo : ResourceInfo) (g : Grant)
    (description : String) (internal : Bool) (t : Table) : Except Error PublicShare × Table :=
  match m.createInsert now tkn u rInfo g description internal with
  | .error e => (.error e, t)
  | .ok (sets, params, share) =>
    match exec m.fault (.insert sets) params t with
    | .error e => (.error (.other e), t)
    | .ok (res, t') => (.ok (share (toString res.lastInsertId)), t')

/-- The column and value of the field group an update names. The password is hashed before the
reference is looked at; a nil grant or expiration is dereferenced. -/
def updateField (up : Update) : Except Error (Column × Value) :=
  match up.type with
  | .displayName => .ok (.shareName, .str up.displayName)
  | .permissions => match up.grant with
    | some g => .ok (.permissions, .int g.permissions)
    | none => .error .panic
  | .expiration => match up.grant with
    | some ⟨_, _, some e⟩ => .ok (.expiration, .time (int64 e.seconds))
    | _ => .error .panic
  | .password => match up.grant with
    | some g =>
      if g.password = "" then .ok (.shareWith, .str "")
      else match m.hashPassword g.password m.c.sharePasswordHashCost with
        | .ok h => .ok (.shareWith, .str h)
        | .error e => .error (wrap e "could not hash share password")
    | none => .error .panic
  | .description => .ok (.description, .str up.description)
  | .invalid => .error (.other ("invalid update type: " ++ up.type.name))

/-- `id=? AND (uid_owner=? or uid_initiator=?)` -/
def byIdOwned : Cond := .and (.eq .id .param) (.paren ownerOrInitiator)

/-- `token=? AND (uid_owner=? or uid_initiator=?)` -/
def byTokenOwned : Cond := .and (.eq .token .param) (.paren ownerOrInitiator)

/-- The `WHERE` of `UpdatePublicShare` and its key: by id when the reference carries one, else by
a non-empty token. -/
def updateSelector : PublicShareReference → Option (Cond × String)
  | .id i => some (byIdOwned, i)
  | .token tk => if tk ≠ "" then some (byTokenOwned, tk) else none
  | .none => none

/-- The `WHERE` of `RevokePublicShare` and its key: by id only when that id is not empty. -/
def revokeSelector : PublicShareReference → Option (Cond × String)
  | .id i => if i ≠ "" then some (byIdOwned, i) else none
  | .token tk => if tk ≠ "" then some (byTokenOwned, tk) else none
  | .none => none

def updatePublicShare (now : Nat) (u : User) (req : UpdatePublicShareRequest) (t : Table) :
    Except Error PublicShare × Table :=
  match m.updateField req.update with
  | .error e => (.error e, t)
  | .ok (col, v) =>
    let uid := formatUserID u.id
    match updateSelector req.ref with
    | none => (.error (.notFound req.ref.toString), t)
    | some (w, key) =>
      match exec m.fault (.update [(col, .param), (.stime, .param)] w)
          [v, .int (unixSeconds now), .str key, .str uid, .str uid] t with
      | .error e => (.error (.other e), t)
      | .ok (_, t') => m.getPublicShare now u req.ref false t'

def revokePublicShare (u : User) (ref : PublicShareReference) (t : Table) :
    Except Error Unit × Table :=
  let uid := formatUserID u.id
  match revokeSelector ref with
  | none => (.error (.notFound ref.toString), t)
  | some (w, key) =>
    match exec m.fault (.delete w) [.str key, .str uid, .str uid] t with
    | .error e => (.error (.other e), t)
    | .ok (res, t') =>
      if res.rowsAffected = 0 then (.error (.notFound ref.toString), t') else (.ok (), t')

/-! ## Listing -/

/-- What the gateway's `Stat` answers for a resource: its path when the call succeeds with status
OK, `none` on an error or another status. -/
abbrev Stat := ResourceId → Option String

/-- `strings.SplitN(s, sep, n)` for a one-character separator and `n > 0`. -/
def splitN (s : String) (sep : Char) (n : Nat) : List String :=
  let parts := (s.toList.splitOn sep).map String.mk
  if parts.length ≤ n then parts
  else parts.take (n - 1) ++ [String.intercalate (String.singleton sep) (parts.drop (n - 1))]

/-- The admin group of the project whose resource sits at `path`, `none` when the path has fewer
than five segments. -/
def adminGroup (path : String) : Option String :=
  let parts := splitN path '/' 6
  if parts.length < 5 then none
  else some (projectSpaceGroupsPrefix ++ parts.getD 4 "" ++ projectSpaceAdminGroupsSuffix)

/-- The loop of `uidOwnerFilters`: it returns as soon as a resource filter names a project
resource whose admin group the user is in. -/
def projectAdmin (u : User) (stat : Stat) : List ListFilter → Bool
  | [] => false
  | .resourceId r :: fs =>
    if hasPrefix r.storageId projectInstancesPrefix then
      match stat r with
      | none => projectAdmin u stat fs
      | some path => match adminGroup path with
        | none => projectAdmin u stat fs
        | some g => if u.groups.contains g then true else projectAdmin u stat fs
    else projectAdmin u stat fs
  | _ :: fs => projectAdmin u stat fs

/-- `uidOwnerFilters`: the ownership clause and its parameters, or no clause for a project admin.
The client is `pool.GetGatewayServiceClient`, which may fail. -/
def uidOwnerFilters (u : User) (client : Except String Stat) (filters : List ListFilter) :
    Except String (Option Cond × List Value) :=
  let uid := formatUserID u.id
  match client with
  | .error e => .error e
  | .ok stat =>
    if projectAdmin u stat filters then .ok (none, [])
    else .ok (some ownerOrInitiator, [.str uid, .str uid])

/-- The accumulators of the filter loop of `ListPublicShares`: for each kind of filter, its
condition (`none` while its text is empty) and its parameters. -/
structure FilterClauses where
  resourceFilters : Option Cond
  ownerFilters : Option Cond
  creatorFilters : Option Cond
  resourceParams : List Value
  ownerParams : List Value
  creatorParams : List Value
  deriving DecidableEq, Repr

/-- `if len(xs) != 0 { xs += " OR " }; xs += c` -/
def orJoin : Option Cond → Cond → Cond
  | none, c => c
  | some a, c => .or a c

/-- `(fileid_prefix=? AND item_source=?)` -/
def resourceFilter : Cond := .paren (.and (.eq .fileidPrefix .param) (.eq .itemSource .param))

/-- `(uid_owner=?)` -/
def ownerFilter : Cond := .paren (.eq .uidOwner .param)

/-- `(uid_initiator=?)` -/
def creatorFilter : Cond := .paren (.eq .uidInitiator .param)

def FilterClauses.add (fc : FilterClauses) : ListFilter → FilterClauses
  | .resourceId r => { fc with
      resourceFilters := some (orJoin fc.resourceFilters resourceFilter)
      resourceParams := fc.resourceParams ++ [.str r.storageId, .str r.opaqueId] }
  | .owner o => { fc with
      ownerFilters := some (orJoin fc.ownerFilters ownerFilter)
      ownerParams := fc.ownerParams ++ [.str (formatUserID o)] }
  | .creator c => { fc with
      creatorFilters := some (orJoin fc.creatorFilters creatorFilter)
      creatorParams := fc.creatorParams ++ [.str (formatUserID c)] }

def filterClauses (filters : List ListFilter) : FilterClauses :=
  filters.foldl FilterClauses.add ⟨none, none, none, [], [], []⟩

/-- `query = fmt.Sprintf("%s AND (%s)", query, clause)` and its parameters, when the clause is not
empty. -/
def andClause (q : Cond × List Value) : Option Cond → List Value → Cond × List Value
  | none, _ => q
  | some c, ps => (.and q.1 (.paren c), q.2 ++ ps)

/-- `... WHERE (orphan = 0 or orphan IS NULL) AND (share_type=?) AND internal=false` -/
def listWhere : Cond :=
  .and (.and notOrphan (.paren (.eq .shareType .param))) (.eq .internal (.lit (.bool false)))

/-- The statement of `ListPublicShares` and its parameters. The parameters of `uidOwnerFilters`
are appended whether its clause is empty or not. -/
def listQuery (fc : FilterClauses) (owners : Option Cond × List Value) : Cond × List Value :=
  let q := andClause (andClause (andClause (listWhere, [.int publicShareType])
    fc.resourceFilters fc.resourceParams) fc.ownerFilters fc.ownerParams)
    fc.creatorFilters fc.creatorParams
  let q := (q.1, q.2 ++ owners.2)
  match owners.1 with
  | none => q
  | some c => (.and q.1 (.paren c), q.2)

/-- The row loop of `ListPublicShares`: an expired share triggers a sweep and is left out, the
others are signed when asked and collected in order. -/
def collectShares (now : Nat) (sign : Bool) : List Row → Table → Except Error (List PublicShare) × Table
  | [], t => (.ok [], t)
  | r :: rs, t =>
    let s := DBShare.ofRow r
    let cs3Share := convertToCS3PublicShare s
    if expired now cs3Share then collectShares now sign rs (m.sweep now t)
    else if cs3Share.passwordProtected && sign then
      match m.addSignature now cs3Share s.shareWith with
      | .error e => (.error (.other e), t)
      | .ok signed =>
        let rest := collectShares now sign rs t
        (rest.1.map (signed :: ·), rest.2)
    else
      let rest := collectShares now sign rs t
      (rest.1.map (cs3Share :: ·), rest.2)

def listPublicShares (now : Nat) (u : User) (filters : List ListFilter)
    (client : Except String Stat) (sign : Bool) (t : Table) :
    Except Error (List PublicShare) × Table :=
  match uidOwnerFilters u client filters with
  | .error e => (.error (.other e), t)
  | .ok owners =>
    let (w, ps) := listQuery (filterClauses filters) owners
    match query m.fault w ps t with
    | .error e => (.error (.other e), t)
    | .ok rows => m.collectShares now sign rows t

end Manager

end Reva
