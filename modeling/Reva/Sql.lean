import Mathlib.Data.List.Forall2

/-!
# The `oc_share` table and the statements run against it

Rows of `oc_share` as the public-link manager reads and writes them, the `WHERE` conditions it
builds with `?` placeholders, and what the database does with a statement and its bound
parameters. Placeholders are filled from the parameter list left to right; a `SELECT` returns the
matching rows in table order, an `UPDATE` sets its columns on every matching row, a `DELETE` drops
them and an `INSERT` appends a row under the next auto-increment id. A statement whose parameter
count differs from its placeholder count fails, as `database/sql` refuses it, and any statement
may fail in the store (`Fault`), leaving the table as it was.
-/

namespace Reva.Sql

instance instDecidableEqExcept {ε α : Type} [DecidableEq ε] [DecidableEq α] :
    DecidableEq (Except ε α)
  | .error x, .error y => if h : x = y then isTrue (h ▸ rfl) else isFalse fun e => h (by cases e; rfl)
  | .ok x, .ok y => if h : x = y then isTrue (h ▸ rfl) else isFalse fun e => h (by cases e; rfl)
  | .error _, .ok _ => isFalse fun e => by cases e
  | .ok _, .error _ => isFalse fun e => by cases e

/-- A value bound to a placeholder or held by a column; `time` is a `datetime`, in seconds since
the epoch. -/
inductive Value where
  | null
  | int (n : Nat)
  | str (s : String)
  | bool (b : Bool)
  | time (t : Int)
  deriving DecidableEq, Repr

/-- The columns of `oc_share` that the manager reads or writes. -/
inductive Column where
  | id | shareType | uidOwner | uidInitiator | itemType | fileidPrefix | itemSource | fileSource
  | permissions | stime | token | shareName | quicklink | description | internal | shareWith
  | expiration | orphan
  deriving DecidableEq, Repr

/-- A row of `oc_share`. The text columns every read coalesces hold `""` for `NULL`, and `orphan`
is `false` for `NULL` or `0`. `expiration` holds the `datetime` as the `int64` seconds `Unix()`
reads it back as, a 64-bit word read signed. -/
structure Row where
  id : Nat
  shareType : Nat
  uidOwner : String
  uidInitiator : String
  itemType : String
  fileidPrefix : String
  itemSource : String
  fileSource : Nat
  permissions : Nat
  stime : Nat
  token : String
  shareName : String
  quicklink : Bool
  description : String
  internal : Bool
  shareWith : String
  expiration : Option (BitVec 64)
  orphan : Bool
  deriving DecidableEq, Repr

/-- The row an `INSERT` starts from: every column at its default. -/
def Row.blank (id : Nat) : Row :=
  ⟨id, 0, "", "", "", "", "", 0, 0, 0, "", "", false, "", false, "", none, false⟩

def Row.get (r : Row) : Column → Value
  | .id => .int r.id
  | .shareType => .int r.shareType
  | .uidOwner => .str r.uidOwner
  | .uidInitiator => .str r.uidInitiator
  | .itemType => .str r.itemType
  | .fileidPrefix => .str r.fileidPrefix
  | .itemSource => .str r.itemSource
  | .fileSource => .int r.fileSource
  | .permissions => .int r.permissions
  | .stime => .int r.stime
  | .token => .str r.token
  | .shareName => .str r.shareName
  | .quicklink => .bool r.quicklink
  | .description => .str r.description
  | .internal => .bool r.internal
  | .shareWith => .str r.shareWith
  | .expiration => match r.expiration with
    | some t => .time t.toInt
    | none => .null
  | .orphan => .bool r.orphan

/-- Writing a value into a column; `none` when the value does not fit the column's type, or a
`datetime` the `int64` seconds of Go cannot hold. The auto-increment `id` is never written. -/
def Row.set (r : Row) : Column → Value → Option Row
  | .shareType, .int n => some { r with shareType := n }
  | .uidOwner, .str s => some { r with uidOwner := s }
  | .uidInitiator, .str s => some { r with uidInitiator := s }
  | .itemType, .str s => some { r with itemType := s }
  | .fileidPrefix, .str s => some { r with fileidPrefix := s }
  | .itemSource, .str s => some { r with itemSource := s }
  | .fileSource, .int n => some { r with fileSource := n }
  | .permissions, .int n => some { r with permissions := n }
  | .stime, .int n => some { r with stime := n }
  | .token, .str s => some { r with token := s }
  | .shareName, .str s => some { r with shareName := s }
  | .quicklink, .bool b => some { r with quicklink := b }
  | .description, .str s => some { r with description := s }
  | .internal, .bool b => some { r with internal := b }
  | .shareWith, .str s => some { r with shareWith := s }
  | .expiration, .time t =>
    if (BitVec.ofInt 64 t).toInt = t then some { r with expiration := some (BitVec.ofInt 64 t) }
    else none
  | .expiration, .null => some { r with expiration := none }
  | .orphan, .int n => some { r with orphan := n != 0 }
  | .orphan, .bool b => some { r with orphan := b }
  | _, _ => none

/-- SQL `=` once `NULL` is read as false: a `WHERE` without `NOT` selects the same rows. An
integer column compared with a text parameter matches the integer's decimal text. -/
def Value.eq : Value → Value → Bool
  | .int a, .int b => a == b
  | .str a, .str b => a == b
  | .bool a, .bool b => a == b
  | .time a, .time b => a == b
  | .bool a, .int b => (if a then 1 else 0) == b
  | .int a, .str b => toString a == b
  | _, _ => false

def Value.lt : Value → Value → Bool
  | .int a, .int b => decide (a < b)
  | .time a, .time b => decide (a < b)
  | _, _ => false

/-- The right-hand side of a comparison: a `?` placeholder or a literal of the statement text. -/
inductive Operand where
  | param
  | lit (v : Value)
  deriving DecidableEq, Repr

def Operand.arity : Operand → Nat
  | .param => 1
  | .lit _ => 0

/-- The value an operand stands for when the parameters not yet consumed are `ps`. -/
def Operand.value : Operand → List Value → Value
  | .param, ps => ps.headD .null
  | .lit v, _ => v

/-- A `WHERE` condition. `paren` is a parenthesised group of the statement text. -/
inductive Cond where
  | eq (c : Column) (o : Operand)
  | lt (c : Column) (o : Operand)
  | isNull (c : Column)
  | isNotNull (c : Column)
  | and (a b : Cond)
  | or (a b : Cond)
  | paren (a : Cond)
  deriving DecidableEq, Repr

/-- The number of `?` placeholders of a condition. -/
def Cond.arity : Cond → Nat
  | .eq _ o | .lt _ o => o.arity
  | .isNull _ | .isNotNull _ => 0
  | .and a b | .or a b => a.arity + b.arity
  | .paren a => a.arity

/-- Whether row `r` satisfies the condition, its placeholders filled from `ps` left to right. -/
def Cond.eval : Cond → List Value → Row → Bool
  | .eq c o, ps, r => (r.get c).eq (o.value ps)
  | .lt c o, ps, r => (r.get c).lt (o.value ps)
  | .isNull c, _, r => r.get c == .null
  | .isNotNull c, _, r => r.get c != .null
  | .and a b, ps, r => a.eval ps r && b.eval (ps.drop a.arity) r
  | .or a b, ps, r => a.eval ps r || b.eval (ps.drop a.arity) r
  | .paren a, ps, r => a.eval ps r

/-- The `SET` list of an `INSERT` or `UPDATE`. -/
abbrev Assignments := List (Column × Operand)

def Assignments.arity : Assignments → Nat
  | [] => 0
  | (_, o) :: as => o.arity + Assignments.arity as

/-- `SET c₁=e₁, c₂=e₂, …` on one row, parameters taken from `ps` left to right. -/
def Assignments.apply : Assignments → List Value → Row → Option Row
  | [], _, r => some r
  | (c, o) :: as, ps, r => (r.set c (o.value ps)).bind (Assignments.apply as (ps.drop o.arity))

inductive Stmt where
  | select (w : Cond)
  | insert (as : Assignments)
  | update (as : Assignments) (w : Cond)
  | delete (w : Cond)
  deriving DecidableEq, Repr

def Stmt.arity : Stmt → Nat
  | .select w | .delete w => w.arity
  | .insert as => as.arity
  | .update as w => as.arity + w.arity

structure Table where
  rows : List Row
  nextId : Nat
  deriving DecidableEq, Repr

/-- A fresh table; auto-increment ids start at 1. -/
def Table.empty : Table := ⟨[], 1⟩

/-- `SET as WHERE w` on one row, the `SET` parameters first; `none` when a value does not fit. -/
def updateRow (as : Assignments) (w : Cond) (ps : List Value) (r : Row) : Option Row :=
  if w.eval (ps.drop as.arity) r then as.apply ps r else some r

/-- `UPDATE … SET as WHERE w` over a list of rows. -/
def updateRows (as : Assignments) (w : Cond) (ps : List Value) : List Row → Option (List Row)
  | [] => some []
  | r :: rs =>
    match updateRow as w ps r, updateRows as w ps rs with
    | some r', some rs' => some (r' :: rs')
    | _, _ => none

/-- What `Exec` reports back: `LastInsertId` and `RowsAffected`. -/
structure ExecResult where
  lastInsertId : Nat
  rowsAffected : Nat
  deriving DecidableEq, Repr

/-- A statement run on a table that accepts it; `none` when a value does not fit its column. An
`UPDATE` reports the rows it changed, as MySQL does. -/
def Table.exec (t : Table) (ps : List Value) : Stmt → Option (ExecResult × Table)
  | .select _ => some (⟨0, 0⟩, t)
  | .insert as => (as.apply ps (Row.blank t.nextId)).map fun r =>
    (⟨t.nextId, 1⟩, ⟨t.rows ++ [r], t.nextId + 1⟩)
  | .update as w => (updateRows as w ps t.rows).map fun rows =>
    (⟨0, ((t.rows.zip rows).filter fun p => p.1 != p.2).length⟩, { t with rows := rows })
  | .delete w => some (⟨0, t.rows.countP (w.eval ps)⟩,
    { t with rows := t.rows.filter fun r => !w.eval ps r })

/-- The error the store gives a statement run with the given parameters, if any. -/
abbrev Fault := Stmt → List Value → Option String

/-- A store that never fails. -/
def noFault : Fault := fun _ _ => none

/-- The parameter count check of `database/sql`, then the store's own failures. -/
def check (fault : Fault) (s : Stmt) (ps : List Value) : Option String :=
  if ps.length = s.arity then fault s ps
  else some ("sql: expected " ++ toString s.arity ++ " arguments, got " ++ toString ps.length)

/-- `Prepare` and `Exec`; a failed statement leaves the table unchanged. -/
def exec (fault : Fault) (s : Stmt) (ps : List Value) (t : Table) :
    Except String (ExecResult × Table) :=
  match check fault s ps with
  | some e => .error e
  | none => match t.exec ps s with
    | some r => .ok r
    | none => .error "Incorrect value"

/-- `Query`: the rows satisfying `w`, in table order. -/
def query (fault : Fault) (w : Cond) (ps : List Value) (t : Table) : Except String (List Row) :=
  match check fault (.select w) ps with
  | some e => .error e
  | none => .ok (t.rows.filter (w.eval ps))

/-- `QueryRow`: the first row satisfying `w`; `none` is `sql.ErrNoRows`. -/
def queryRow (fault : Fault) (w : Cond) (ps : List Value) (t : Table) :
    Except String (Option Row) :=
  (query fault w ps t).map List.head?

end Reva.Sql
