import Reva.Sql
import Mathlib.Data.Nat.Digits

/-!
# Public links, the requests about them, and their rows

The CS3 link types the manager takes and returns, with `DBShare` (the columns a read scans) and
`convertToCS3PublicShare`, which turns them into a `PublicShare`. Instants are nanoseconds since
the epoch and `datetime` columns hold seconds, so a stored expiration is read back with no
nanoseconds. `ParseBool` and `ParseUint` of `strconv` are written out for the texts `Create` reads.
-/

namespace Reva

open Sql

/-- `typespb.Timestamp`. -/
structure Timestamp where
  seconds : Nat
  nanos : Nat
  deriving DecidableEq, Repr

/-- Go's `int64(n)` of a `uint64`: its low 64 bits read signed. -/
def int64 (n : Nat) : Int := (BitVec.ofNat 64 n).toInt

/-- Go's `uint64(i)` of an `int64`: its 64 bits read unsigned. -/
def uint64 (i : Int) : Nat := (BitVec.ofInt 64 i).toNat

/-- `time.Unix(int64(seconds), int64(nanos))`, in nanoseconds since the epoch. -/
def Timestamp.toInstant (ts : Timestamp) : Int := 1000000000 * int64 ts.seconds + ts.nanos

/-- The split of `UnixNano` that `AddSignature` stores. -/
def Timestamp.ofInstant (t : Nat) : Timestamp := ⟨t / 1000000000, t % 1000000000⟩

/-- `Unix()` of an instant: its whole seconds. -/
def unixSeconds (now : Nat) : Nat := now / 1000000000

structure UserId where
  opaqueId : String
  deriving DecidableEq, Repr

/-- Modelled from the spec: `conversions.FormatUserID` is not among the sources. A user is
stored in `uid_owner` and `uid_initiator` as its opaque id. -/
def formatUserID (u : UserId) : String := u.opaqueId

/-- Modelled from the spec: `conversions.ExtractUserID`, the identity reference of a stored id. -/
def extractUserID (s : String) : UserId := ⟨s⟩

structure User where
  id : UserId
  groups : List String
  deriving DecidableEq, Repr

structure ResourceId where
  storageId : String
  opaqueId : String
  deriving DecidableEq, Repr

/-- `provider.ResourceInfo`. `type` is the item type `ResourceTypeToItem` gives; `none` metadata
is a nil `ArbitraryMetadata`. -/
structure ResourceInfo where
  id : ResourceId
  owner : UserId
  type : String
  path : String
  arbitraryMetadata : Option (List (String × String))
  deriving DecidableEq, Repr

/-- `link.Grant`; `permissions` is the integer `SharePermToInt` gives. -/
structure Grant where
  permissions : Nat
  password : String
  expiration : Option Timestamp
  deriving DecidableEq, Repr

structure ShareSignature where
  signature : String
  signatureExpiration : Option Timestamp
  deriving DecidableEq, Repr

structure PublicShare where
  id : String
  owner : UserId
  creator : UserId
  resourceId : ResourceId
  token : String
  permissions : Nat
  ctime : Timestamp
  mtime : Timestamp
  passwordProtected : Bool
  expiration : Option Timestamp
  displayName : String
  quicklink : Bool
  description : String
  signature : Option ShareSignature
  deriving DecidableEq, Repr

/-- `link.PublicShareAuthentication`; a nil one has an empty password and no signature. -/
structure PublicShareAuthentication where
  password : String
  signature : Option ShareSignature
  deriving DecidableEq, Repr

/-- `link.PublicShareReference`: its `Spec` is an id, a token, or unset. -/
inductive PublicShareReference where
  | id (opaqueId : String)
  | token (token : String)
  | none
  deriving DecidableEq, Repr

/-- The text of `ref.String()` that `NotFound` carries. -/
def PublicShareReference.toString : PublicShareReference → String
  | .id o => "id:<opaque_id:\"" ++ o ++ "\">"
  | .token t => "token:\"" ++ t ++ "\""
  | .none => ""

/-- `link.ListPublicSharesRequest_Filter`, its type and its term together. -/
inductive ListFilter where
  | resourceId (r : ResourceId)
  | owner (u : UserId)
  | creator (u : UserId)
  deriving DecidableEq, Repr

inductive UpdateType where
  | invalid | permissions | password | expiration | displayName | description
  deriving DecidableEq, Repr

/-- `%v` of an update type. -/
def UpdateType.name : UpdateType → String
  | .invalid => "TYPE_INVALID"
  | .permissions => "TYPE_PERMISSIONS"
  | .password => "TYPE_PASSWORD"
  | .expiration => "TYPE_EXPIRATION"
  | .displayName => "TYPE_DISPLAYNAME"
  | .description => "TYPE_DESCRIPTION"

/-- `UpdatePublicShareRequest_Update`; `grant` is `none` when nil. -/
structure Update where
  type : UpdateType
  grant : Option Grant
  displayName : String
  description : String
  deriving DecidableEq, Repr

structure UpdatePublicShareRequest where
  ref : PublicShareReference
  update : Update
  deriving DecidableEq, Repr

/-- The errors of the manager: `errtypes.NotFound` and `errtypes.InvalidCredentials`, a nil
pointer dereference, and every other error with its text. -/
inductive Error where
  | notFound (msg : String)
  | invalidCredentials (msg : String)
  | panic
  | other (msg : String)
  deriving DecidableEq, Repr

/-- `errors.Wrap`. -/
def wrap (e msg : String) : Error := .other (msg ++ ": " ++ e)

/-- Modelled from the spec: `conversions.DBShare` is not among the sources. The columns a read
scans; `expiration` is the stored `datetime` parsed back to its `Unix()` seconds. -/
structure DBShare where
  id : String
  uidOwner : String
  uidInitiator : String
  shareWith : String
  fileidPrefix : String
  itemSource : String
  itemType : String
  token : String
  expiration : Option Int
  shareName : String
  stime : Nat
  permissions : Nat
  quicklink : Bool
  description : String
  deriving DecidableEq, Repr

/-- A row scanned with every column of the `SELECT` of `ListPublicShares`. -/
def DBShare.ofRow (r : Row) : DBShare :=
  ⟨toString r.id, r.uidOwner, r.uidInitiator, r.shareWith, r.fileidPrefix, r.itemSource,
    r.itemType, r.token, r.expiration.map BitVec.toInt, r.shareName, r.stime, r.permissions,
    r.quicklink, r.description⟩

/-- Modelled from the spec: `conversions.ConvertToCS3PublicShare` is not among the sources. A
share is password protected iff its hash is non-empty, `stime` is its creation time, and the
expiration is `uint64(t.Unix())` of the stored `datetime`. -/
def convertToCS3PublicShare (s : DBShare) : PublicShare where
  id := s.id
  owner := extractUserID s.uidOwner
  creator := extractUserID s.uidInitiator
  resourceId := ⟨s.fileidPrefix, s.itemSource⟩
  token := s.token
  permissions := s.permissions
  ctime := ⟨s.stime, 0⟩
  mtime := ⟨s.stime, 0⟩
  passwordProtected := s.shareWith != ""
  expiration := s.expiration.map fun e => ⟨uint64 e, 0⟩
  displayName := s.shareName
  quicklink := s.quicklink
  description := s.description
  signature := none

/-- `expired`: the share's expiration lies strictly before `now`. -/
def expired (now : Nat) (s : PublicShare) : Bool :=
  match s.expiration with
  | some e => decide (e.toInstant < now)
  | none => false

/-- `strings.HasPrefix`. -/
def hasPrefix (s p : String) : Bool := p.toList.isPrefixOf s.toList

/-- `strings.TrimPrefix`. -/
def trimPrefix (s p : String) : String :=
  if hasPrefix s p then ⟨s.toList.drop p.length⟩ else s

/-- `strconv.ParseBool`, with `false` for a text it rejects. -/
def parseBool (s : String) : Bool := s ∈ ["1", "t", "T", "TRUE", "true", "True"]

/-- `strconv.ParseUint(s, 10, 64)`, with `0` for a text it rejects: one that is empty, has a
character other than a digit, or exceeds `math.MaxUint64`. -/
def parseUint (s : String) : Nat :=
  let n := s.toList.foldl (fun acc c => acc * 10 + (c.toNat - '0'.toNat)) 0
  if s ≠ "" ∧ s.toList.all Char.isDigit ∧ n ≤ 18446744073709551615 then n else 0

/-! ## Machine words -/

theorem toInt_mem_int64 (x : BitVec 64) :
    -(2 ^ 63 : Nat) ≤ x.toInt ∧ x.toInt < (2 ^ 63 : Nat) := by
  rw [BitVec.toInt_eq_toNat_bmod]
  have hlo := Int.le_bmod (x := x.toNat) (m := 2 ^ 64) (by decide)
  have hhi := Int.bmod_lt (x := x.toNat) (m := 2 ^ 64) (by decide)
  omega

theorem toInt_ofInt_of_mem {i : Int} (h : -(2 ^ 63 : Nat) ≤ i ∧ i < (2 ^ 63 : Nat)) :
    (BitVec.ofInt 64 i).toInt = i := by
  rw [BitVec.toInt_ofInt, Int.bmod_def]
  split <;> omega

theorem int64_mem (n : Nat) : -(2 ^ 63 : Nat) ≤ int64 n ∧ int64 n < (2 ^ 63 : Nat) :=
  toInt_mem_int64 _

theorem toInt_ofInt_int64 (n : Nat) : (BitVec.ofInt 64 (int64 n)).toInt = int64 n :=
  toInt_ofInt_of_mem (int64_mem n)

/-- A `datetime` read back through `uint64(t.Unix())` and `int64()` is the seconds it held. -/
@[simp] theorem int64_uint64_toInt (x : BitVec 64) : int64 (uint64 x.toInt) = x.toInt := by
  rw [int64, uint64, BitVec.ofNat_toNat, BitVec.setWidth_eq, toInt_ofInt_of_mem (toInt_mem_int64 x)]

theorem int64_uint64_int64 (n : Nat) : int64 (uint64 (int64 n)) = int64 n :=
  int64_uint64_toInt _

/-! ## Decimal text -/

theorem toDigitsCore_eq_append (f n : Nat) (ds : List Char) :
    Nat.toDigitsCore 10 f n ds = Nat.toDigitsCore 10 f n [] ++ ds := by
  induction f generalizing n ds with
  | zero => rfl
  | succ f ih =>
    simp only [Nat.toDigitsCore]
    split
    · rfl
    · rw [ih _ (_ :: ds), ih _ [_]]; simp

theorem digitChar_value {k : Nat} (hk : k < 10) : (Nat.digitChar k).toNat - '0'.toNat = k := by
  have h : ∀ k < 10, (Nat.digitChar k).toNat - '0'.toNat = k := by decide
  exact h k hk

theorem foldl_toDigitsCore (f n : Nat) (hn : n < f) :
    (Nat.toDigitsCore 10 f n []).foldl (fun acc c => acc * 10 + (c.toNat - '0'.toNat)) 0 = n := by
  induction f generalizing n with
  | zero => omega
  | succ f ih =>
    simp only [Nat.toDigitsCore]
    have hd := digitChar_value (Nat.mod_lt n (show 10 > 0 by decide))
    split
    · simp only [List.foldl_cons, List.foldl_nil, Nat.zero_mul, Nat.zero_add, hd]
      omega
    · rw [toDigitsCore_eq_append, List.foldl_append, ih _ (by omega)]
      simp only [List.foldl_cons, List.foldl_nil, hd]
      omega

/-- Distinct auto-increment ids have distinct decimal texts, so a text id selects one row. -/
theorem toString_nat_inj {a b : Nat} (h : toString a = toString b) : a = b := by
  have key : ∀ n : Nat,
      (toString n).toList.foldl (fun acc c => acc * 10 + (c.toNat - '0'.toNat)) 0 = n :=
    fun n => foldl_toDigitsCore (n + 1) n (Nat.lt_succ_self n)
  rw [← key a, ← key b, h]

end Reva
