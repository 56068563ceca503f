import Reva.Reads

/-!
# The statement of `ListPublicShares`

The filter loop of `ListPublicShares` grows, for each kind of filter, a condition and its
parameters in two separate accumulators, and `uidOwnerFilters` adds the ownership clause unless
the caller administers a project a resource filter names. `ClauseOf` is the invariant of one
accumulator: an `OR` over the filters of its kind read so far, with as many placeholders as
parameters. The loop keeps it (`filterClauses_reads`), so the positional parameters line up and
the statement selects exactly the rows its filters describe (`listQuery_eval`).
-/

namespace Reva

open Sql Manager

/-! ## Positional parameters -/

theorem Sql.Cond.eval_append (c : Cond) {ps : List Value} (qs : List Value) (r : Row)
    (h : c.arity ≤ ps.length) : c.eval (ps ++ qs) r = c.eval ps r := by
  induction c generalizing ps with
  | eq col o | lt col o =>
    cases o <;> cases ps <;> simp_all [Cond.eval, Cond.arity, Operand.arity, Operand.value]
  | isNull _ | isNotNull _ => rfl
  | and a b iha ihb | or a b iha ihb =>
    simp only [Cond.arity] at h
    simp only [Cond.eval, @iha ps (by omega), List.drop_append_of_le_length (show a.arity ≤ ps.length by omega),
      @ihb (ps.drop a.arity) (by simp; omega)]
  | paren a ih => exact ih h

/-- A condition and its parameters as the code keeps them in two variables: no text and no
parameters, or as many placeholders as parameters. -/
def Aligned : Option Cond → List Value → Prop
  | none, ps => ps = []
  | some c, ps => c.arity = ps.length

theorem andClause_eval (q : Cond × List Value) (hq : q.1.arity = q.2.length) (c : Option Cond)
    (ps : List Value) (hc : Aligned c ps) :
    (andClause q c ps).1.arity = (andClause q c ps).2.length ∧ ∀ r,
      (andClause q c ps).1.eval (andClause q c ps).2 r =
        (q.1.eval q.2 r && c.all fun c => c.eval ps r) := by
  cases c with
  | none => simp [andClause, hq]
  | some c =>
    simp only [Aligned] at hc
    refine ⟨by simp [andClause, Cond.arity, hq, hc], fun r => ?_⟩
    simp [andClause, Cond.eval, Cond.eval_append _ _ _ (le_of_eq hq), List.drop_left' hq.symm]

/-! ## The filter loop -/

/-- The resources, owners and creators a filter list names, each in order. -/
def resourceFilterIds (fs : List ListFilter) : List ResourceId :=
  fs.filterMap fun | .resourceId r => some r | _ => none

def ownerFilterIds (fs : List ListFilter) : List UserId :=
  fs.filterMap fun | .owner o => some o | _ => none

def creatorFilterIds (fs : List ListFilter) : List UserId :=
  fs.filterMap fun | .creator c => some c | _ => none

/-- A row passes the filters of one kind: there are none, or it matches one of them. -/
def FilterMatch {α : Type} (sem : α → Row → Prop) (xs : List α) (r : Row) : Prop :=
  xs = [] ∨ ∃ x ∈ xs, sem x r

def resourceMatch (rid : ResourceId) (r : Row) : Prop :=
  r.fileidPrefix = rid.storageId ∧ r.itemSource = rid.opaqueId

def ownerMatch (o : UserId) (r : Row) : Prop := r.uidOwner = formatUserID o

def creatorMatch (c : UserId) (r : Row) : Prop := r.uidInitiator = formatUserID c

/-- One accumulator of the filter loop after reading the filters `xs` of its kind: the `OR` of one
condition per filter, with its parameters in order, and nothing while `xs` is empty. -/
def ClauseOf {α : Type} (sem : α → Row → Prop) (xs : List α) : Option Cond → List Value → Prop
  | none, ps => xs = [] ∧ ps = []
  | some c, ps => xs ≠ [] ∧ c.arity = ps.length ∧ ∀ r, c.eval ps r = true ↔ ∃ x ∈ xs, sem x r

theorem ClauseOf.aligned {α : Type} {sem : α → Row → Prop} {xs : List α} {c : Option Cond}
    {ps : List Value} (h : ClauseOf sem xs c ps) : Aligned c ps := by
  cases c <;> simp_all [ClauseOf, Aligned]

theorem ClauseOf.all_eval {α : Type} {sem : α → Row → Prop} {xs : List α} {c : Option Cond}
    {ps : List Value} (h : ClauseOf sem xs c ps) (r : Row) :
    (c.all fun c => c.eval ps r) = true ↔ FilterMatch sem xs r := by
  cases c <;> simp_all [ClauseOf, FilterMatch]

theorem ClauseOf.orJoin {α : Type} {sem : α → Row → Prop} {xs : List α} {c : Option Cond}
    {ps : List Value} (h : ClauseOf sem xs c ps) (x : α) (new : Cond) (nps : List Value)
    (hn : new.arity = nps.length) (hsem : ∀ r, new.eval nps r = true ↔ sem x r) :
    ClauseOf sem (xs ++ [x]) (some (orJoin c new)) (ps ++ nps) := by
  cases c with
  | none =>
    obtain ⟨rfl, rfl⟩ := h
    simpa [ClauseOf, Manager.orJoin, hn] using hsem
  | some c =>
    obtain ⟨-, hc, hiff⟩ := h
    refine ⟨by simp, by simp [Manager.orJoin, Cond.arity, hc, hn], fun r => ?_⟩
    simp [Manager.orJoin, Cond.eval, Cond.eval_append _ _ _ (le_of_eq hc), List.drop_left' hc.symm,
      hiff, hsem, or_and_right, exists_or]

/-- The three accumulators after the filter loop has read `fs`. -/
def Manager.FilterClauses.Reads (fc : FilterClauses) (fs : List ListFilter) : Prop :=
  ClauseOf resourceMatch (resourceFilterIds fs) fc.resourceFilters fc.resourceParams ∧
  ClauseOf ownerMatch (ownerFilterIds fs) fc.ownerFilters fc.ownerParams ∧
  ClauseOf creatorMatch (creatorFilterIds fs) fc.creatorFilters fc.creatorParams

theorem Manager.FilterClauses.Reads.add {fc : FilterClauses} {fs : List ListFilter} (h : fc.Reads fs)
    (f : ListFilter) : (fc.add f).Reads (fs ++ [f]) := by
  obtain ⟨hr, ho, hc⟩ := h
  cases f with
  | resourceId rid =>
    refine ⟨?_, by simpa [ownerFilterIds, FilterClauses.add] using ho,
      by simpa [creatorFilterIds, FilterClauses.add] using hc⟩
    simpa [resourceFilterIds, FilterClauses.add] using hr.orJoin rid resourceFilter
      [.str rid.storageId, .str rid.opaqueId] rfl fun r => by
        simp [resourceFilter, Cond.eval, Cond.arity, Operand.arity, Operand.value, Row.get, Value.eq,
          resourceMatch]
  | owner o =>
    refine ⟨by simpa [resourceFilterIds, FilterClauses.add] using hr, ?_,
      by simpa [creatorFilterIds, FilterClauses.add] using hc⟩
    simpa [ownerFilterIds, FilterClauses.add] using ho.orJoin o ownerFilter [.str (formatUserID o)]
      rfl fun r => by simp [ownerFilter, Cond.eval, Operand.value, Row.get, Value.eq, ownerMatch]
  | creator c =>
    refine ⟨by simpa [resourceFilterIds, FilterClauses.add] using hr,
      by simpa [ownerFilterIds, FilterClauses.add] using ho, ?_⟩
    simpa [creatorFilterIds, FilterClauses.add] using hc.orJoin c creatorFilter
      [.str (formatUserID c)] rfl fun r => by
        simp [creatorFilter, Cond.eval, Operand.value, Row.get, Value.eq, creatorMatch]

theorem foldl_add_reads (fs : List ListFilter) :
    ∀ (fc : FilterClauses) (done : List ListFilter), fc.Reads done →
      (fs.foldl FilterClauses.add fc).Reads (done ++ fs) := by
  induction fs with
  | nil => simp
  | cons f fs ih =>
    intro fc done h
    simpa using ih _ _ (h.add f)

theorem filterClauses_reads (fs : List ListFilter) : (filterClauses fs).Reads fs := by
  simpa using foldl_add_reads fs ⟨none, none, none, [], [], []⟩ []
    ⟨⟨rfl, rfl⟩, ⟨rfl, rfl⟩, ⟨rfl, rfl⟩⟩

/-! ## The whole statement -/

theorem listWhere_eval (r : Row) :
    listWhere.eval [.int publicShareType] r = true ↔
      r.orphan = false ∧ r.shareType = publicShareType ∧ r.internal = false := by
  simp [listWhere, Cond.eval, Cond.arity, Operand.arity, Operand.value, Row.get, Value.eq, and_assoc]

/-- With its ownership clause aligned, the statement of `ListPublicShares` has as many
placeholders as parameters and selects exactly the live public links, not internal, that pass
every kind of filter and the ownership clause. -/
theorem listQuery_eval (fs : List ListFilter) {owners : Option Cond × List Value}
    (ho : Aligned owners.1 owners.2) :
    (listQuery (filterClauses fs) owners).1.arity = (listQuery (filterClauses fs) owners).2.length ∧
    ∀ r, (listQuery (filterClauses fs) owners).1.eval (listQuery (filterClauses fs) owners).2 r = true ↔
      (r.orphan = false ∧ r.shareType = publicShareType ∧ r.internal = false) ∧
      FilterMatch resourceMatch (resourceFilterIds fs) r ∧ FilterMatch ownerMatch (ownerFilterIds fs) r ∧
      FilterMatch creatorMatch (creatorFilterIds fs) r ∧ (owners.1.all fun c => c.eval owners.2 r) = true := by
  obtain ⟨hr, hw, hc⟩ := filterClauses_reads fs
  have h0 := andClause_eval (listWhere, [.int publicShareType]) rfl _ _ hr.aligned
  have h1 := andClause_eval _ h0.1 _ _ hw.aligned
  have h2 := andClause_eval _ h1.1 _ _ hc.aligned
  have h3 := andClause_eval _ h2.1 _ _ ho
  have heq : listQuery (filterClauses fs) owners = andClause (andClause (andClause (andClause
      (listWhere, [.int publicShareType]) (filterClauses fs).resourceFilters
      (filterClauses fs).resourceParams) (filterClauses fs).ownerFilters
      (filterClauses fs).ownerParams) (filterClauses fs).creatorFilters
      (filterClauses fs).creatorParams) owners.1 owners.2 := by
    obtain ⟨oc, ops⟩ := owners
    cases oc with
    | none =>
      obtain rfl : ops = [] := ho
      exact Prod.ext rfl (List.append_nil _)
    | some c => rfl
  rw [heq]
  refine ⟨h3.1, fun r => ?_⟩
  simp only [h3.2, h2.2, h1.2, h0.2, Bool.and_eq_true, listWhere_eval, hr.all_eval, hw.all_eval,
    hc.all_eval, and_assoc]

/-! ## The statement text -/

/-- The values written into the text of a condition, as opposed to bound to its placeholders. -/
def Sql.Cond.lits : Cond → List Value
  | .eq _ o | .lt _ o => match o with
    | .lit v => [v]
    | .param => []
  | .isNull _ | .isNotNull _ => []
  | .and a b | .or a b => a.lits ++ b.lits
  | .paren a => a.lits

/-- A condition of the code that is absent, or has no value in its text. -/
def NoLits : Option Cond → Prop
  | none => True
  | some c => c.lits = []

theorem NoLits.orJoin {a : Option Cond} (ha : NoLits a) {c : Cond} (hc : c.lits = []) :
    NoLits (some (Manager.orJoin a c)) := by
  cases a <;> simp_all [NoLits, Manager.orJoin, Cond.lits]

/-- The accumulators of the filter loop hold no value in their text. -/
def Manager.FilterClauses.NoLits (fc : FilterClauses) : Prop :=
  Reva.NoLits fc.resourceFilters ∧ Reva.NoLits fc.ownerFilters ∧ Reva.NoLits fc.creatorFilters

theorem filterClauses_noLits (fs : List ListFilter) : (filterClauses fs).NoLits := by
  suffices ∀ fc : FilterClauses, fc.NoLits → (fs.foldl FilterClauses.add fc).NoLits from
    this _ ⟨trivial, trivial, trivial⟩
  induction fs with
  | nil => exact fun _ h => h
  | cons f fs ih =>
    rintro fc ⟨hr, ho, hc⟩
    refine ih _ ?_
    cases f with
    | resourceId => exact ⟨hr.orJoin rfl, ho, hc⟩
    | owner => exact ⟨hr, ho.orJoin rfl, hc⟩
    | creator => exact ⟨hr, ho, hc.orJoin rfl⟩

theorem andClause_lits (q : Cond × List Value) {c : Option Cond} (hc : NoLits c)
    (ps : List Value) : (andClause q c ps).1.lits = q.1.lits := by
  cases c <;> simp_all [NoLits, andClause, Cond.lits]

theorem listQuery_lits (fs : List ListFilter) {owners : Option Cond × List Value}
    (ho : NoLits owners.1) : (listQuery (filterClauses fs) owners).1.lits = listWhere.lits := by
  obtain ⟨hr, hw, hc⟩ := filterClauses_noLits fs
  obtain ⟨oc, ops⟩ := owners
  cases oc <;>
    simp_all [listQuery, NoLits, Cond.lits, andClause_lits]

/-! ## Project admins -/

theorem projectAdmin_iff (u : User) (stat : Stat) (fs : List ListFilter) :
    projectAdmin u stat fs = true ↔ ∃ rid ∈ resourceFilterIds fs,
      hasPrefix rid.storageId projectInstancesPrefix = true ∧
      ∃ path g, stat rid = some path ∧ adminGroup path = some g ∧ g ∈ u.groups := by
  induction fs with
  | nil => simp [projectAdmin, resourceFilterIds]
  | cons f fs ih =>
    cases f with
    | resourceId rid =>
      rw [show resourceFilterIds (.resourceId rid :: fs) = rid :: resourceFilterIds fs from rfl]
      simp only [List.mem_cons, exists_eq_or_imp]
      rw [← ih]
      by_cases hp : hasPrefix rid.storageId projectInstancesPrefix = true
      · simp only [projectAdmin, hp, if_true, true_and]
        cases hs : stat rid with
        | none => simp [hs]
        | some path =>
          cases hg : adminGroup path with
          | none => simp [hs, hg]
          | some g => by_cases hm : g ∈ u.groups <;> simp [hs, hg, hm]
      · simp [projectAdmin, hp]
    | owner o => simpa [projectAdmin, resourceFilterIds] using ih
    | creator c => simpa [projectAdmin, resourceFilterIds] using ih

theorem uidOwnerFilters_ok {u : User} {client : Except String Stat} {fs : List ListFilter}
    {owners : Option Cond × List Value} (h : uidOwnerFilters u client fs = .ok owners) :
    Aligned owners.1 owners.2 ∧ ∃ stat, client = .ok stat ∧
      (projectAdmin u stat fs = true ∧ owners = (none, []) ∨
        projectAdmin u stat fs = false ∧
          owners = (some ownerOrInitiator, [.str (formatUserID u.id), .str (formatUserID u.id)])) := by
  unfold uidOwnerFilters at h
  cases client with
  | error e => cases h
  | ok stat =>
    cases hp : projectAdmin u stat fs <;> simp only [hp] at h <;> cases h
    · exact ⟨rfl, stat, rfl, .inr ⟨hp, rfl⟩⟩
    · exact ⟨rfl, stat, rfl, .inl ⟨hp, rfl⟩⟩

/-- For every caller, filter list and gateway answer, the statement `ListPublicShares` runs has as
many placeholders as parameters and no filter value in its text, and, its parameters bound in
order, selects exactly the live public links, not internal, that pass every kind of filter and that
the caller owns or created unless `uidOwnerFilters` escalated. -/
theorem list_statement_binds_every_filter (u : User) (stat : Stat) (fs : List ListFilter) :
    ∃ owners, uidOwnerFilters u (.ok stat) fs = .ok owners ∧
      (listQuery (filterClauses fs) owners).1.arity = (listQuery (filterClauses fs) owners).2.length ∧
      (listQuery (filterClauses fs) owners).1.lits = listWhere.lits ∧
      ∀ r, (listQuery (filterClauses fs) owners).1.eval (listQuery (filterClauses fs) owners).2 r =
          true ↔
        (r.orphan = false ∧ r.shareType = publicShareType ∧ r.internal = false) ∧
        FilterMatch resourceMatch (resourceFilterIds fs) r ∧
        FilterMatch ownerMatch (ownerFilterIds fs) r ∧
        FilterMatch creatorMatch (creatorFilterIds fs) r ∧
        (projectAdmin u stat fs = true ∨
          r.uidOwner = formatUserID u.id ∨ r.uidInitiator = formatUserID u.id) := by
  obtain ⟨owners, hof⟩ : ∃ owners, uidOwnerFilters u (.ok stat) fs = .ok owners := by
    simp only [uidOwnerFilters]; split <;> exact ⟨_, rfl⟩
  obtain ⟨hal, stat', hstat, hown⟩ := uidOwnerFilters_ok hof
  cases hstat
  have hq := listQuery_eval fs hal
  refine ⟨owners, hof, hq.1, listQuery_lits fs ?_, fun r => (hq.2 r).trans ?_⟩
  · rcases hown with ⟨-, rfl⟩ | ⟨-, rfl⟩
    exacts [trivial, rfl]
  · rcases hown with ⟨hp, rfl⟩ | ⟨hp, rfl⟩ <;> simp [hp]

/-! ## What `ListPublicShares` returns -/

namespace Manager

variable (m : Manager)

/-- Every share `ListPublicShares` returns is read from a live public link, not internal, that
passes every kind of filter, and that the caller owns or created unless `uidOwnerFilters` found the
caller to be a project admin. It is signed only when asked and when it has a password. -/
theorem listPublicShares_ok {now : Nat} {u : User} {fs : List ListFilter}
    {client : Except String Stat} {sign : Bool} {t t' : Table} {ss : List PublicShare}
    (h : m.listPublicShares now u fs client sign t = (.ok ss, t')) :
    ∃ stat, client = .ok stat ∧ ∀ s ∈ ss, ∃ r ∈ t.rows, ReadsRow s r ∧
      (r.orphan = false ∧ r.shareType = publicShareType ∧ r.internal = false) ∧
      r.expiredAt now = false ∧ FilterMatch resourceMatch (resourceFilterIds fs) r ∧
      FilterMatch ownerMatch (ownerFilterIds fs) r ∧ FilterMatch creatorMatch (creatorFilterIds fs) r ∧
      (projectAdmin u stat fs = true ∨ r.ownedBy u) ∧
      (s.signature ≠ none → sign = true ∧ r.shareWith ≠ "" ∧
        m.addSignature now r.share r.shareWith = .ok s) := by
  unfold listPublicShares at h
  split at h
  · cases h
  · rename_i owners ho
    obtain ⟨hal, stat, rfl, hown⟩ := uidOwnerFilters_ok ho
    rcases hlq : listQuery (filterClauses fs) owners with ⟨w, ps⟩
    simp only [hlq] at h
    split at h
    · cases h
    · rename_i rows hq
      have hrows := query_eq_ok hq
      refine ⟨stat, rfl, fun s hs => ?_⟩
      obtain ⟨r, hr, hread, hlive, hsig⟩ := m.collectShares_ok (congrArg Prod.fst h) s hs
      rw [hrows, List.mem_filter] at hr
      obtain ⟨hmem, heval⟩ := hr
      obtain ⟨hbase, hres, howner, hcreator, hclause⟩ :=
        ((listQuery_eval fs hal).2 r).mp (by rw [hlq]; exact heval)
      refine ⟨r, hmem, hread, hbase, hlive, hres, howner, hcreator, ?_, hsig⟩
      rcases hown with ⟨hp, rfl⟩ | ⟨-, rfl⟩
      · exact .inl hp
      · right
        simpa [Row.ownedBy] using hclause

end Manager

end Reva
