import Mathlib.Data.List.Basic
import Reva.GoMap

/-!
# The OIDC auth manager

`Authenticate` asks the identity provider for the userinfo claims of an access token, fills in
missing claims from defaults, maps the external identity to a local account (`resolveUser`), and
builds the user from the claims with type assertions that are not checked first. The claims are
a `map[string]interface{}` decoded from JSON. A value is modelled by its Go dynamic type and by
what the code reads of it, and the map is passed along explicitly, since `resolveUser` writes
into the caller's map. A call ends in a user, a returned error, or a panic with the runtime's
message. The identity provider and the gateway are given by their answers.
-/

namespace Reva

namespace Oidc

/-- A value of the claims map, by its Go dynamic type and what the code reads of it. `null` is
`nil`, a missing key or a JSON `null`; a JSON number is a `float64`, kept as the value `int64(f)`
gives for it; `int` is an `int64`, as `resolveUser` writes them; a JSON array is kept by its
elements, `some s` for a string and `none` for any other value, and a JSON object by its number
of members. -/
inductive Claim where
  | null
  | bool (b : Bool)
  | float (trunc : Int)
  | int (n : Int)
  | str (s : String)
  | list (elems : List (Option String))
  | obj (size : Nat)
  deriving DecidableEq, Repr

def Claim.goType : Claim → String
  | .null => "nil"
  | .bool _ => "bool"
  | .float _ => "float64"
  | .int _ => "int64"
  | .str _ => "string"
  | .list _ => "[]interface \x7b\x7d"
  | .obj _ => "map[string]interface \x7b\x7d"

/-- `map[string]interface{}`: a missing key reads as `nil`. -/
abbrev Claims := String → Claim

def Claims.set (claims : Claims) (k : String) (v : Claim) : Claims :=
  fun k' => if k' = k then v else claims k'

@[simp] theorem Claims.set_same (claims : Claims) (k : String) (v : Claim) :
    claims.set k v k = v := by
  simp [Claims.set]

theorem Claims.set_other (claims : Claims) {k k' : String} (v : Claim) (h : k' ≠ k) :
    claims.set k v k' = claims k' := by
  simp [Claims.set, h]

inductive UserType where
  | primary
  | lightweight
  | federated
  deriving DecidableEq, Repr

structure UserId where
  opaqueId : String
  idp : String
  type : UserType
  deriving DecidableEq, Repr

structure User where
  id : UserId
  username : String
  groups : List String
  mail : String
  mailVerified : Bool
  displayName : String
  uidNumber : Int
  gidNumber : Int
  deriving DecidableEq, Repr

/-- How a call ends when it does not return its result: a returned error, by its text;
`errtypes.PermissionDenied(msg)`; `status.NewErrorFromCode(code, "oidc")`, for a response status
other than OK; the `errors.Wrapf` of the error resolving the username
(`"oidc: error resolving username for external user '%v'"`) and of the error getting the groups
(`"oidc: error getting user groups for '%+v'"`); or a run-time panic, by the runtime's message. -/
inductive Failure where
  | error (msg : String)
  | permissionDenied (msg : String)
  | status (code : Nat)
  | resolveFailed (email : Claim) (cause : Failure)
  | groupsFailed (id : UserId) (cause : String)
  | panic (msg : String)
  deriving DecidableEq, Repr

def nilDereference : String := "runtime error: invalid memory address or nil pointer dereference"

/-! ## Type assertions and strings -/

/-- `x.(T)` for the dynamic type named `type`, whose values `get` reads: the value, or the
runtime's panic. -/
def Claim.assert {α : Type} (type : String) (get : Claim → Option α) (x : Claim) :
    Except Failure α :=
  match get x with
  | some a => .ok a
  | none => .error (.panic ("interface conversion: interface \x7b\x7d is " ++ x.goType ++
      ", not " ++ type))

def Claim.getString : Claim → Option String
  | .str s => some s
  | _ => none

def Claim.getBool : Claim → Option Bool
  | .bool b => some b
  | _ => none

def Claim.getInt64 : Claim → Option Int
  | .int n => some n
  | _ => none

def Claim.asString : Claim → Except Failure String := Claim.assert "string" Claim.getString

def Claim.asBool : Claim → Except Failure Bool := Claim.assert "bool" Claim.getBool

def Claim.asInt64 : Claim → Except Failure Int := Claim.assert "int64" Claim.getInt64

/-- `v, _ := x.(float64); int64(v)`: the number, or zero for any other value. -/
def Claim.truncOrZero : Claim → Int
  | .float t => t
  | _ => 0

/-- `strings.HasPrefix(s, p)`. Strings are compared by their characters; for the ASCII patterns
of this code that is Go's byte-wise comparison. -/
def hasPrefix (s p : String) : Bool := p.data.isPrefixOf s.data

def containsChar (s : String) (c : Char) : Bool := s.data.contains c

def replaceFirst : List Char → List Char → List Char → List Char
  | [], old, new => if old = [] then new else []
  | c :: cs, old, new =>
    if old.isPrefixOf (c :: cs) then new ++ (c :: cs).drop old.length
    else c :: replaceFirst cs old new

def getUserType (upn : String) : UserType :=
  if hasPrefix upn "guest" then .lightweight
  else if containsChar upn '@' then .federated
  else .primary

/-! ## Configuration and users mapping -/

structure Config where
  issuer : String
  idClaim : String
  uidClaim : String
  gidClaim : String
  usersMapping : String
  groupClaim : String
  deriving DecidableEq, Repr

def Config.init (c : Config) : Config :=
  let c := if c.idClaim = "" then { c with idClaim := "sub" } else c
  let c := if c.groupClaim = "" then { c with groupClaim := "groups" } else c
  let c := if c.uidClaim = "" then { c with uidClaim := "uid" } else c
  if c.gidClaim = "" then { c with gidClaim := "gid" } else c

structure UserMapping where
  oidcIssuer : String
  oidcGroup : String
  username : String
  deriving DecidableEq, Repr

inductive FileError where
  | read (e : String)
  | unmarshal (e : String)

/-- The loop of `Configure` over the decoded mappings: each keyed by its group, and a group met
twice is an error. -/
def addMappings : List UserMapping → GoMap String UserMapping →
    Except String (GoMap String UserMapping)
  | [], acc => .ok acc
  | u :: us, acc =>
    match h : acc.get? u.oidcGroup with
    | some _ =>
      .error ("oidc: mapping error, group \"" ++ u.oidcGroup ++ "\" is mapped to multiple users")
    | none => addMappings us (acc.insertNew u.oidcGroup u h)

/-- `Configure` after the configuration is decoded: `c.init()`, then the users mapping from the
file `usersMapping` names, given by the mappings decoded from it or the error of reading or of
unmarshalling it. -/
def configure (c : Config) (file : Except FileError (List UserMapping)) :
    Except String (Config × GoMap String UserMapping) :=
  let c := c.init
  if c.usersMapping = "" then .ok (c, .empty)
  else
    match file with
    | .error (.read e) => .error ("oidc: error reading the users mapping file: +" ++ e)
    | .error (.unmarshal e) => .error ("oidc: error unmarshalling the users mapping file: +" ++ e)
    | .ok users => (addMappings users .empty).map fun mapping => (c, mapping)

/-! ## `resolveUser` -/

def codeOK : Nat := 1

/-- What `resolveUser` reads of the user the gateway returns; `id` is `GetId()`, its `OpaqueId`
and `Idp`, or `none` for a nil id. -/
structure GatewayUser where
  username : String
  id : Option (String × String)
  uidNumber : Int
  gidNumber : Int
  deriving DecidableEq, Repr

/-- The answers of the gateway: the error of `pool.GetGatewayServiceClient`, when it fails;
`GetUserByClaim` for the claim `username` and a value, as the error of the call or the response's
status code and user (`none` for nil); and `GetUserGroups` for a user id, as the error of the call
or the response's status code and groups. A response always carries a `Status`: the nil `Status`
whose `.Code` read would panic is not expressed. -/
structure Gateway where
  clientError : Option String
  getUserByClaim : String → Except String (Nat × Option GatewayUser)
  getUserGroups : UserId → Except String (Nat × List String)

def getUserID (c : Config) (claims : Claims) : Int × Int :=
  ((claims c.uidClaim).truncOrZero, (claims c.gidClaim).truncOrZero)

def withNumericIds (c : Config) (claims : Claims) : Claims :=
  let (uid, gid) := getUserID c claims
  if uid ≠ 0 ∧ gid ≠ 0 then (claims.set c.uidClaim (.int uid)).set c.gidClaim (.int gid)
  else claims

/-- `intersect.Simple(a, b)` of `github.com/juliangruber/go-intersect`, which is not among the
sources and is modelled from the library, for `b` a slice of strings: the elements of `a` that
equal an element of `b`, in order and with repeats. `reflect.ValueOf(a).Len()` panics unless `a`
is a slice, a map or a string, and `Index` panics on a map with members; the elements of a string
are bytes, never equal to a string. -/
def intersectSimple (a : Claim) (b : List String) : Except Failure (List String) :=
  match a with
  | .list elems => .ok (elems.filterMap fun e => e.filter fun s => s ∈ b)
  | .str _ => .ok []
  | .obj 0 => .ok []
  | .obj _ => .error (.panic "reflect: call of reflect.Value.Index on map Value")
  | .null => .error (.panic "reflect: call of reflect.Value.Len on zero Value")
  | x => .error (.panic ("reflect: call of reflect.Value.Len on " ++ x.goType ++ " Value"))

def issuerGroups (claims : Claims) (order : List (String × UserMapping)) : List String :=
  order.filterMap fun e => if claims "iss" = .str e.2.oidcIssuer then some e.2.oidcGroup else none

/-- The username `resolveUser` looks up, if any: through the users mapping when there is one,
else the subject when the uid or the gid it read first is zero. -/
def lookupValue (c : Config) (mapping : GoMap String UserMapping)
    (order : List (String × UserMapping)) (claims : Claims) (uid gid : Int) (subject : String) :
    Except Failure (Option String) :=
  if mapping.len > 0 then
    if claims c.groupClaim = .null then
      .error (.error ("no \"" ++ c.groupClaim ++ "\" claim found in userinfo to map user"))
    else
      match intersectSimple (claims c.groupClaim) (issuerGroups claims order) with
      | .error f => .error f
      | .ok intersection =>
        if intersection.length > 1 then
          .error (.permissionDenied
            "more than one user mapping entry exists for the given group claims")
        else if intersection.length = 0 then
          .error (.permissionDenied "no user mapping found for the given group claim(s)")
        else
          intersection.foldlM (fun _ g => match mapping.get? g with
            | some m => .ok (some m.username)
            | none => .error (.panic nilDereference)) none
  else if uid = 0 ∨ gid = 0 then .ok (some subject)
  else .ok none

def installUser (c : Config) (claims : Claims) (u : GatewayUser) : Except Failure Unit × Claims :=
  let claims := claims.set "preferred_username" (.str u.username)
  match u.id with
  | none => (.error (.panic nilDereference), claims)
  | some (opaqueId, idp) =>
    (.ok (), (((claims.set c.idClaim (.str opaqueId)).set "iss" (.str idp)).set c.uidClaim
      (.int u.uidNumber)).set c.gidClaim (.int u.gidNumber))

/-- `resolveUser`: its error, and the claims map as it leaves it. -/
def resolveUser (c : Config) (mapping : GoMap String UserMapping)
    (order : List (String × UserMapping)) (gw : Gateway) (claims : Claims) (subject : String) :
    Except Failure Unit × Claims :=
  let (uid, gid) := getUserID c claims
  let claims := withNumericIds c claims
  match lookupValue c mapping order claims uid gid subject with
  | .error f => (.error f, claims)
  | .ok none => (.ok (), claims)
  | .ok (some value) =>
    match gw.clientError with
    | some e => (.error (.error ("error getting user provider grpc client: " ++ e)), claims)
    | none =>
      match gw.getUserByClaim value with
      | .error e =>
        (.error (.error ("error getting user by username '" ++ value ++ "': " ++ e)), claims)
      | .ok (code, user) =>
        if code ≠ codeOK then (.error (.status code), claims)
        else
          match user with
          | none => (.error (.panic nilDereference), claims)
          | some u => installUser c claims u

/-! ## `Authenticate` -/

inductive ProviderAnswer where
  | providerError (e : String)
  | userInfoError (e : String)
  | claimsError (e : String)
  | claims (claims : Claims) (subject : String)

def Claims.setIfNil (claims : Claims) (k : String) (v : Claim) : Claims :=
  if claims k = .null then claims.set k v else claims

def fillDefaults (c : Config) (claims : Claims) : Claims :=
  let claims := claims.setIfNil "iss" (.str c.issuer)
  let claims := claims.setIfNil "email_verified" (.bool false)
  let claims := claims.setIfNil "preferred_username" (claims c.idClaim)
  let claims := claims.setIfNil "preferred_username" (claims "email")
  claims.setIfNil "name" (claims c.idClaim)

def decorateExternal (u : User) : Except Failure User :=
  let mail := replaceFirst u.mail.data "guest: ".data []
  let parts := mail.splitOn '@'
  match parts[1]? with
  | none => .error (.panic ("runtime error: index out of range [1] with length " ++
      toString parts.length))
  | some domain =>
    .ok { u with mail := String.mk mail,
                 displayName := u.displayName ++ " (" ++ String.mk domain ++ ")" }

/-- The user `Authenticate` builds from the resolved claims and the groups the gateway gives. -/
def buildUser (c : Config) (gw : Gateway) (claims : Claims) : Except Failure User := do
  let opaqueId ← (claims c.idClaim).asString
  let idp ← (claims "iss").asString
  let upn ← (claims c.idClaim).asString
  let userID : UserId := ⟨opaqueId, idp, getUserType upn⟩
  match gw.clientError with
  | some e => .error (.error ("oidc: error getting gateway grpc client: " ++ e))
  | none =>
    match gw.getUserGroups userID with
    | .error e => .error (.groupsFailed userID e)
    | .ok (code, groups) =>
      if code ≠ codeOK then .error (.status code)
      else do
        let username ← (claims "preferred_username").asString
        let mail ← (claims "email").asString
        let mailVerified ← (claims "email_verified").asBool
        let displayName ← (claims "name").asString
        let uidNumber ← (claims c.uidClaim).asInt64
        let gidNumber ← (claims c.gidClaim).asInt64
        let u : User :=
          ⟨userID, username, groups, mail, mailVerified, displayName, uidNumber, gidNumber⟩
        if userID.type = .lightweight ∨ userID.type = .federated then decorateExternal u
        else .ok u

/-- `Authenticate`, on the provider's answer; scopes are left out. -/
def authenticate (c : Config) (mapping : GoMap String UserMapping)
    (order : List (String × UserMapping)) (gw : Gateway) : ProviderAnswer → Except Failure User
  | .providerError e => .error (.error ("oidc: error creating oidc provider: +" ++ e))
  | .userInfoError e => .error (.error ("oidc: error getting userinfo: +" ++ e))
  | .claimsError e => .error (.error ("oidc: error unmarshaling userinfo claims: " ++ e))
  | .claims claims subject =>
    let claims := fillDefaults c claims
    if claims "name" = .null then
      .error (.error ("no \"name\" attribute found in userinfo: " ++
        "maybe the client did not request the oidc \"profile\"-scope"))
    else if claims "email" = .null then
      .error (.error ("no \"email\" attribute found in userinfo: " ++
        "maybe the client did not request the oidc \"email\"-scope"))
    else
      match resolveUser c mapping order gw claims subject with
      | (.error (.panic p), _) => .error (.panic p)
      | (.error e, claims) => .error (.resolveFailed (claims "email") e)
      | (.ok (), claims) => buildUser c gw claims

end Oidc

end Reva
