import Mathlib.Logic.Relation
import Reva.Tracing.Provider

/-!
# Goroutines calling the tracing package

Goroutines call `tracerProvider` and `Init` concurrently. A step of the model is one action on
the package's shared state. In `tracerProvider`: taking `t.mux`; the `Load` of the registry, with,
on a hit, the return and the deferred unlock; on a miss, the making of a provider, which reads
`t.exp`; and the `Store` with the unlock. In `Init` (`sync.Once.Do`): finding the once done, or
taking its mutex; and the end of its function, which writes `tr.exp` before the once is marked
done. A goroutine that finds `t.mux` or the once's mutex taken waits. An unlock is folded into the
action before it, and the end of the once's function into the marking, since nothing between them
touches what another goroutine reads.

`Init` writes `tr.exp` without `t.mux`, and `tracerProvider` reads it under `t.mux` alone, so
nothing orders a write by one goroutine and a read by another: a run with both has a data race
on a two-word interface value (`World.racy`), and the Go memory model gives such a read no single
value. In the model a read made after the write sees an exporter that the run chooses.

The model carries a log that no goroutine reads: a call is appended at the step where it takes
effect. Under every interleaving, goroutines asking for one name get one provider
(`goroutines_agree_on_providers`), since `t.mux` guards the registry. In every world reached
without the race, in particular from a package whose `Init` ran before the goroutines started,
replaying the log through the sequential model gives the results the goroutines returned and the
state of the package (`goroutines_linearizable`). A racy run can return a provider that the
sequential model does not give for the order of its log (`stale_exporter_read_not_linearizable`).
-/

namespace Reva

namespace Tracing

/-- Where a goroutine in `tracerProvider(name)` is: before `t.mux.Lock()`, holding `t.mux` before
the `Load`, after a `Load` that found nothing, holding the provider it made before the `Store`, or
returned. -/
inductive ProviderPc where
  | start
  | locked
  | missed
  | storing (tp : Provider)
  | returned (tp : Provider)
  deriving DecidableEq

/-- Where a goroutine in `Init` is; `running` is inside the once's function, holding the once's
mutex. -/
inductive InitPc where
  | start
  | running
  | returned
  deriving DecidableEq

inductive Goroutine where
  | provider (name : String) (env : ProviderEnv) (pc : ProviderPc)
  | init (env : InitEnv) (pc : InitPc)

def Goroutine.op : Goroutine → Op
  | .provider name env _ => .provider name env
  | .init env _ => .init env

def Goroutine.ofOp : Op → Goroutine
  | .provider name env => .provider name env .start
  | .init env => .init env .start

def Goroutine.started : Goroutine → Bool
  | .provider _ _ .start | .init _ .start => false
  | _ => true

def Goroutine.pendingStore : Goroutine → Option (String × Provider)
  | .provider name _ (.storing tp) => some (name, tp)
  | _ => none

def ProviderEnv.readsExp (env : ProviderEnv) : Bool :=
  match env.hostname with
  | .ok _ => !env.mergeFails
  | .error _ => false

theorem make_of_readsExp_false {env : ProviderEnv} (h : env.readsExp = false) (name : String)
    (e e' : Exporter) (built : Nat) : make env name e built = make env name e' built := by
  rcases env with ⟨_ | host, fails⟩ <;> simp_all [make, ProviderEnv.readsExp]

/-- The package and the goroutines: `mux` is the goroutine holding `t.mux`, `once` the one
running the once's function; `log` holds the calls that took effect, in that order, with their
goroutine and result; `expReaders` are the goroutines that read `t.exp` to make a provider, and
`expWriter` the one whose `Init` wrote `tr.exp`. -/
structure World where
  exp : Exporter
  reg : GoMap String Provider
  built : Nat
  mux : Option Nat
  once : Option Nat
  onceDone : Bool
  gs : List Goroutine
  log : List (Nat × Op × Result)
  expReaders : List Nat
  expWriter : Option Nat

def World.start (t : State) (calls : List Op) : World :=
  ⟨t.exp, t.reg, t.built, none, none, t.initDone, calls.map Goroutine.ofOp, [], [], none⟩

namespace World

/-- The step of goroutine `i`, or `none` when it waits or has returned. A read of `t.exp` made
after another goroutine's `Init` wrote it sees `seen`. -/
def step (w : World) (i : Nat) (seen : Exporter) : Option World :=
  match w.gs[i]? with
  | none => none
  | some (.provider name env pc) =>
    match pc with
    | .start =>
      if w.mux = none then some { w with mux := some i, gs := w.gs.set i (.provider name env .locked) }
      else none
    | .locked =>
      match w.reg.get? name with
      | some tp =>
        some { w with mux := none, gs := w.gs.set i (.provider name env (.returned tp)),
                      log := w.log ++ [(i, .provider name env, .provider tp)] }
      | none => some { w with gs := w.gs.set i (.provider name env .missed) }
    | .missed =>
      let m := make env name (if w.expWriter.isSome then seen else w.exp) w.built
      some { w with built := m.2, gs := w.gs.set i (.provider name env (.storing m.1)),
                    log := w.log ++ [(i, .provider name env, .provider m.1)],
                    expReaders := if env.readsExp then w.expReaders ++ [i] else w.expReaders }
    | .storing tp =>
      some { w with reg := w.reg.set name tp, mux := none,
                    gs := w.gs.set i (.provider name env (.returned tp)) }
    | .returned _ => none
  | some (.init env pc) =>
    match pc with
    | .start =>
      if w.onceDone then
        some { w with gs := w.gs.set i (.init env .returned), log := w.log ++ [(i, .init env, .unit)] }
      else if w.once = none then some { w with once := some i, gs := w.gs.set i (.init env .running) }
      else none
    | .running =>
      some { w with exp := (initExporter env).getD w.exp, onceDone := true, once := none,
                    gs := w.gs.set i (.init env .returned), log := w.log ++ [(i, .init env, .unit)],
                    expWriter := if (initExporter env).isSome then some i else w.expWriter }
    | .returned => none

/-- A goroutine read `t.exp` in a run where another wrote `tr.exp`: nothing orders the two. -/
def racy (w : World) : Bool := w.expWriter.isSome && !w.expReaders.isEmpty

def Step (w w' : World) : Prop := ∃ i seen, w.step i seen = some w'

/-- The worlds goroutines making `calls` reach from `t`, under any interleaving. -/
def Reachable (t : State) (calls : List Op) (w : World) : Prop :=
  Relation.ReflTransGen Step (World.start t calls) w

def pendingReg (reg : GoMap String Provider) (mux : Option Nat) (gs : List Goroutine) :
    GoMap String Provider :=
  match mux.bind fun i => gs[i]?.bind Goroutine.pendingStore with
  | some (name, tp) => reg.set name tp
  | none => reg

/-- The package state that the calls which took effect have left. -/
def abs (w : World) : State := ⟨w.exp, pendingReg w.reg w.mux w.gs, w.built, w.onceDone⟩

end World

/-! ## The invariant -/

def Goroutine.Expect (w : World) (i : Nat) : Goroutine → Prop
  | .provider name env pc => w.once ≠ some i ∧
    match pc with
    | .start => w.mux ≠ some i ∧ i ∉ w.log.map (·.1)
    | .locked => w.mux = some i ∧ i ∉ w.log.map (·.1)
    | .missed => w.mux = some i ∧ w.reg.get? name = none ∧ i ∉ w.log.map (·.1)
    | .storing tp => w.mux = some i ∧ w.reg.get? name = none ∧
        (i, .provider name env, .provider tp) ∈ w.log
    | .returned tp => w.mux ≠ some i ∧ (i, .provider name env, .provider tp) ∈ w.log
  | .init env pc => w.mux ≠ some i ∧
    match pc with
    | .start => w.once ≠ some i ∧ i ∉ w.log.map (·.1)
    | .running => w.once = some i ∧ w.onceDone = false ∧ i ∉ w.log.map (·.1)
    | .returned => w.once ≠ some i ∧ (i, .init env, .unit) ∈ w.log

namespace World

/-- The invariant of the worlds goroutines making `calls` reach from `t`. Every provider in the
log is the one the registry holds for its name; from a package whose `Init` has run, no `Init`
writes `tr.exp` again; and while the run is free of the race, the log replays through the
sequential model. -/
structure Inv (t : State) (calls : List Op) (w : World) : Prop where
  ops : w.gs.map Goroutine.op = calls
  expect : ∀ i (g : Goroutine), w.gs[i]? = some g → g.Expect w i
  mux_lt : ∀ i, w.mux = some i → i < w.gs.length
  once_lt : ∀ i, w.once = some i → i < w.gs.length
  nodup : (w.log.map (·.1)).Nodup
  calls : ∀ e ∈ w.log, calls[e.1]? = some e.2.1
  registered : ∀ k name env tp, (k, Op.provider name env, Result.provider tp) ∈ w.log →
    w.abs.reg.get? name = some tp
  initDone : t.initDone = true → w.onceDone = true ∧ w.expWriter = none
  replay : w.racy = false → seqRun t (w.log.map (·.2.1)) = (w.log.map (·.2.2), w.abs)

def Appends (w w' : World) (op : Op) (r : Result) : Prop :=
  (∀ name p, w.abs.reg.get? name = some p → w'.abs.reg.get? name = some p) ∧
  (∀ name env tp, (op, r) = (Op.provider name env, Result.provider tp) →
    w'.abs.reg.get? name = some tp) ∧
  (w'.racy = false → w.racy = false ∧ w.abs.apply op = (r, w'.abs))

end World

theorem Goroutine.Expect.frame {w w' : World} {i j : Nat} {g : Goroutine} (h : g.Expect w j)
    (hij : j ≠ i)
    (hmux : w'.mux = w.mux ∨ (w.mux = some i ∧ w'.mux = none) ∨ (w.mux = none ∧ w'.mux = some i))
    (honce : w'.once = w.once ∨ (w.once = some i ∧ w'.once = none) ∨
      (w.once = none ∧ w'.once = some i))
    (hlog : w'.log = w.log ∨ ∃ e, w'.log = w.log ++ [e] ∧ e.1 = i)
    (hreg : w'.reg = w.reg ∨ w.mux = some i) (hdone : w'.onceDone = w.onceDone ∨ w.once = some i) :
    g.Expect w' j := by
  have hm : w'.mux = some j ↔ w.mux = some j := by
    rcases hmux with h | ⟨h1, h2⟩ | ⟨h1, h2⟩
    · rw [h]
    all_goals simp [h1, h2, Ne.symm hij]
  have ho : w'.once = some j ↔ w.once = some j := by
    rcases honce with h | ⟨h1, h2⟩ | ⟨h1, h2⟩
    · rw [h]
    all_goals simp [h1, h2, Ne.symm hij]
  have hmem : ∀ e ∈ w.log, e ∈ w'.log := by
    rcases hlog with h | ⟨e, h, -⟩
    · exact fun e he => h ▸ he
    · exact fun e' he' => h ▸ List.mem_append_left _ he'
  have hfresh : j ∉ w.log.map (·.1) → j ∉ w'.log.map (·.1) := by
    rcases hlog with h | ⟨e, h, he⟩
    · exact h ▸ id
    · simp [h, he, hij]
  have hr : w.mux = some j → w'.reg = w.reg := fun hj =>
    hreg.resolve_right fun hi => hij (Option.some.inj (hj.symm.trans hi))
  have hd : w.once = some j → w'.onceDone = w.onceDone := fun hj =>
    hdone.resolve_right fun hi => hij (Option.some.inj (hj.symm.trans hi))
  rcases g with ⟨name, env, pc⟩ | ⟨env, pc⟩
  · obtain ⟨h1, h2⟩ := h
    refine ⟨fun h => h1 (ho.mp h), ?_⟩
    cases pc with
    | start => exact ⟨fun h => h2.1 (hm.mp h), hfresh h2.2⟩
    | locked => exact ⟨hm.mpr h2.1, hfresh h2.2⟩
    | missed => exact ⟨hm.mpr h2.1, (hr h2.1).symm ▸ h2.2.1, hfresh h2.2.2⟩
    | storing tp => exact ⟨hm.mpr h2.1, (hr h2.1).symm ▸ h2.2.1, hmem _ h2.2.2⟩
    | returned tp => exact ⟨fun h => h2.1 (hm.mp h), hmem _ h2.2⟩
  · obtain ⟨h1, h2⟩ := h
    refine ⟨fun h => h1 (hm.mp h), ?_⟩
    cases pc with
    | start => exact ⟨fun h => h2.1 (ho.mp h), hfresh h2.2⟩
    | running => exact ⟨ho.mpr h2.1, (hd h2.1).symm ▸ h2.2.1, hfresh h2.2.2⟩
    | returned => exact ⟨fun h => h2.1 (ho.mp h), hmem _ h2.2⟩

namespace World

variable {t : State} {calls : List Op} {w w' : World} {i : Nat} {g g' : Goroutine}

theorem map_op_set {gs : List Goroutine} (hg : gs[i]? = some g) (hop : g'.op = g.op) :
    (gs.set i g').map Goroutine.op = gs.map Goroutine.op := by
  apply List.ext_getElem?
  intro j
  rw [List.getElem?_map, List.getElem?_map, List.getElem?_set]
  split_ifs with hij hlt
  · subst hij; simp [hg, hop]
  · subst hij; exact absurd (List.getElem?_eq_some_iff.mp hg).1 hlt
  · rfl

/-! ### The pending store -/

@[simp]
theorem pendingReg_none (reg : GoMap String Provider) (gs : List Goroutine) :
    pendingReg reg none gs = reg := rfl

theorem pendingReg_some {reg : GoMap String Provider} {gs : List Goroutine} (hg : gs[i]? = some g) :
    pendingReg reg (some i) gs = match g.pendingStore with
      | some (name, tp) => reg.set name tp
      | none => reg := by
  simp [pendingReg, hg]

theorem pendingReg_set_other {reg : GoMap String Provider} {mux : Option Nat}
    {gs : List Goroutine} (hne : mux ≠ some i) (g' : Goroutine) :
    pendingReg reg mux (gs.set i g') = pendingReg reg mux gs := by
  cases mux with
  | none => rfl
  | some j => simp [pendingReg, List.getElem?_set_ne fun h : i = j => hne (by rw [h])]

/-! ### One step -/

theorem replay_of_append {op : Op} {r : Result}
    (hr : seqRun t (w.log.map (·.2.1)) = (w.log.map (·.2.2), w.abs))
    (hlog : w'.log = w.log ++ [(i, op, r)]) (happly : w.abs.apply op = (r, w'.abs)) :
    seqRun t (w'.log.map (·.2.1)) = (w'.log.map (·.2.2), w'.abs) := by
  rw [hlog, List.map_append, List.map_append, List.map_singleton, List.map_singleton,
    seqRun_append_singleton, hr]
  simp [happly]

theorem appends_of_apply {op : Op} {r : Result} (happly : w.abs.apply op = (r, w'.abs))
    (hrace : w'.racy = false → w.racy = false) : Appends w w' op r := by
  refine ⟨fun name p h => ?_, fun name env tp h => ?_, fun h => ⟨hrace h, happly⟩⟩
  · rw [← (Prod.mk.inj happly).2]
    exact apply_get?_of_get? h op
  · obtain ⟨rfl, rfl⟩ := Prod.mk.inj h
    obtain ⟨hr, hs⟩ := Prod.mk.inj happly
    simp only [State.apply, Result.provider.injEq] at hr hs
    rw [← hr, ← hs]
    exact tracerProvider_get?_self env name _

theorem Inv.transition (hw : w.Inv t calls) (hg : w.gs[i]? = some g)
    (hgs : w'.gs = w.gs.set i g') (hop : g'.op = g.op) (hexp : g'.Expect w' i)
    (hmux : w'.mux = w.mux ∨ (w.mux = some i ∧ w'.mux = none) ∨ (w.mux = none ∧ w'.mux = some i))
    (honce : w'.once = w.once ∨ (w.once = some i ∧ w'.once = none) ∨
      (w.once = none ∧ w'.once = some i))
    (hreg : w'.reg = w.reg ∨ w.mux = some i) (hdone : w'.onceDone = w.onceDone ∨ w.once = some i)
    (hinit : t.initDone = true → w.onceDone = true ∧ w.expWriter = none →
      w'.onceDone = true ∧ w'.expWriter = none)
    (hcase : (w'.log = w.log ∧ w'.abs = w.abs ∧ (w'.racy = false → w.racy = false)) ∨
      ∃ r, w'.log = w.log ++ [(i, g.op, r)] ∧ i ∉ w.log.map (·.1) ∧ Appends w w' g.op r) :
    w'.Inv t calls := by
  have hi : i < w.gs.length := (List.getElem?_eq_some_iff.mp hg).1
  have hlen : w'.gs.length = w.gs.length := by rw [hgs, List.length_set]
  have hcall : calls[i]? = some g.op := by rw [← hw.ops, List.getElem?_map, hg]; rfl
  have hlog : w'.log = w.log ∨ ∃ e, w'.log = w.log ++ [e] ∧ e.1 = i :=
    hcase.imp (·.1) fun ⟨_, h, _⟩ => ⟨_, h, rfl⟩
  refine ⟨by rw [hgs, map_op_set hg hop, hw.ops], fun j g'' hj => ?_, fun j hj => ?_,
    fun j hj => ?_, ?_, fun e he => ?_, fun k name env tp he => ?_,
    fun h => hinit h (hw.initDone h), fun hr => ?_⟩
  · rw [hgs] at hj
    by_cases hji : j = i
    · subst hji
      rw [List.getElem?_set_self hi] at hj
      exact Option.some.inj hj ▸ hexp
    · rw [List.getElem?_set_ne (Ne.symm hji)] at hj
      exact (hw.expect j g'' hj).frame hji hmux honce hlog hreg hdone
  · rw [hlen]
    rcases hmux with h | ⟨-, h⟩ | ⟨-, h⟩ <;> rw [h] at hj
    · exact hw.mux_lt j hj
    · cases hj
    · exact Option.some.inj hj ▸ hi
  · rw [hlen]
    rcases honce with h | ⟨-, h⟩ | ⟨-, h⟩ <;> rw [h] at hj
    · exact hw.once_lt j hj
    · cases hj
    · exact Option.some.inj hj ▸ hi
  · rcases hcase with ⟨h, -⟩ | ⟨r, h, hfresh, -⟩
    · exact h ▸ hw.nodup
    · rw [h, List.map_append, List.nodup_append]
      exact ⟨hw.nodup, List.nodup_singleton _, List.disjoint_singleton.mpr hfresh⟩
  · rcases hcase with ⟨h, -⟩ | ⟨r, h, -⟩
    · exact hw.calls e (h ▸ he)
    · rw [h, List.mem_append, List.mem_singleton] at he
      rcases he with he | rfl
      exacts [hw.calls e he, hcall]
  · rcases hcase with ⟨hl, ha, -⟩ | ⟨r, hl, -, hgrow, hnew, -⟩
    · exact ha ▸ hw.registered k name env tp (hl ▸ he)
    · rw [hl, List.mem_append, List.mem_singleton] at he
      rcases he with he | he
      · exact hgrow _ _ (hw.registered k name env tp he)
      · exact hnew name env tp (congrArg Prod.snd he).symm
  · rcases hcase with ⟨hl, ha, hrace⟩ | ⟨r, hl, -, -, -, happly⟩
    · rw [hl, ha]
      exact hw.replay (hrace hr)
    · exact replay_of_append (hw.replay (happly hr).1) hl (happly hr).2

theorem make_of_raceFree (env : ProviderEnv) (name : String) (seen : Exporter)
    (h : (w.expWriter.isSome &&
      !(if env.readsExp then w.expReaders ++ [i] else w.expReaders).isEmpty) = false) :
    w.racy = false ∧
      make env name (if w.expWriter.isSome then seen else w.exp) w.built =
        make env name w.exp w.built := by
  unfold racy
  cases hw : w.expWriter.isSome
  · simp
  · cases hr : env.readsExp
    · simp_all
      exact make_of_readsExp_false hr name _ _ _
    · simp_all

theorem Inv.step (hw : w.Inv t calls) {seen : Exporter} (h : w.step i seen = some w') :
    w'.Inv t calls := by
  unfold World.step at h
  split at h
  · cases h
  next name env pc hg =>
    have hi : i < w.gs.length := (List.getElem?_eq_some_iff.mp hg).1
    have hexp := hw.expect i _ hg
    simp only [Goroutine.Expect] at hexp
    obtain ⟨hno, hexp⟩ := hexp
    split at h
    · split at h
      next hfree =>
        cases h
        refine hw.transition hg rfl rfl ⟨hno, rfl, hexp.2⟩ (.inr (.inr ⟨hfree, rfl⟩)) (.inl rfl)
          (.inl rfl) (.inl rfl) (fun _ h => h) (.inl ⟨rfl, ?_, id⟩)
        simp only [abs, hfree, pendingReg_some (List.getElem?_set_self hi), pendingReg_none]
        rfl
      · cases h
    · have hhold : pendingReg w.reg (some i) w.gs = w.reg := by rw [pendingReg_some hg]; rfl
      split at h
      next tp hget =>
        cases h
        refine hw.transition hg rfl rfl ⟨hno, by simp, by simp⟩ (.inr (.inl ⟨hexp.1, rfl⟩))
          (.inl rfl) (.inl rfl) (.inl rfl) (fun _ h => h)
          (.inr ⟨_, rfl, hexp.2, appends_of_apply ?_ id⟩)
        simp only [Goroutine.op, State.apply, abs, hexp.1, hhold, pendingReg_none,
          tracerProvider_of_get? (t := ⟨w.exp, w.reg, w.built, w.onceDone⟩) hget]
      next hget =>
        cases h
        refine hw.transition hg rfl rfl ⟨hno, hexp.1, hget, hexp.2⟩ (.inl rfl) (.inl rfl)
          (.inl rfl) (.inl rfl) (fun _ h => h) (.inl ⟨rfl, ?_, id⟩)
        simp only [abs, hexp.1, hhold, pendingReg_some (List.getElem?_set_self hi),
          Goroutine.pendingStore]
    · cases h
      have hbefore : w.abs.reg = w.reg := by
        simp only [abs, hexp.1, pendingReg_some hg, Goroutine.pendingStore]
      refine hw.transition hg rfl rfl ⟨hno, hexp.1, hexp.2.1, by simp⟩ (.inl rfl) (.inl rfl)
        (.inl rfl) (.inl rfl) (fun _ h => h) (.inr ⟨_, rfl, hexp.2.2, ?_, ?_, fun hr => ?_⟩)
      · intro n p hp
        rw [hbefore] at hp
        have hn : n ≠ name := fun hn => by simp [hn, hexp.2.1] at hp
        simp only [abs, hexp.1, pendingReg_some (List.getElem?_set_self hi),
          Goroutine.pendingStore, GoMap.get?_set, if_neg hn]
        exact hp
      · intro n e tp he
        simp only [Goroutine.op, Prod.mk.injEq, Op.provider.injEq, Result.provider.injEq] at he
        obtain ⟨⟨rfl, -⟩, rfl⟩ := he
        simp [abs, hexp.1, pendingReg_some (List.getElem?_set_self hi), Goroutine.pendingStore,
          GoMap.get?_set]
      · obtain ⟨hrace, hmake⟩ := make_of_raceFree (w := w) (i := i) env name seen hr
        refine ⟨hrace, ?_⟩
        simp only [Goroutine.op, hmake, State.apply, abs, hexp.1, pendingReg_some hg,
          pendingReg_some (List.getElem?_set_self hi), Goroutine.pendingStore, tracerProvider,
          hexp.2.1]
    · cases h
      refine hw.transition hg rfl rfl ⟨hno, by simp, hexp.2.2⟩ (.inr (.inl ⟨hexp.1, rfl⟩))
        (.inl rfl) (.inr hexp.1) (.inl rfl) (fun _ h => h) (.inl ⟨rfl, ?_, id⟩)
      simp only [abs, hexp.1, pendingReg_some hg, Goroutine.pendingStore, pendingReg_none]
    · cases h
  next env pc hg =>
    have hexp := hw.expect i _ hg
    simp only [Goroutine.Expect] at hexp
    obtain ⟨hnm, hexp⟩ := hexp
    split at h
    · split at h
      next hdone =>
        cases h
        refine hw.transition hg rfl rfl ⟨hnm, hexp.1, by simp⟩ (.inl rfl) (.inl rfl) (.inl rfl)
          (.inl rfl) (fun _ h => h) (.inr ⟨_, rfl, hexp.2, appends_of_apply ?_ id⟩)
        simp only [Goroutine.op, State.apply, abs, init, hdone, if_true, pendingReg_set_other hnm]
      · split at h
        next hdone hfree =>
          cases h
          refine hw.transition hg rfl rfl ⟨hnm, rfl, by simpa using hdone, hexp.2⟩ (.inl rfl)
            (.inr (.inr ⟨hfree, rfl⟩)) (.inl rfl) (.inl rfl) (fun _ h => h)
            (.inl ⟨rfl, ?_, id⟩)
          simp only [abs, pendingReg_set_other hnm]
        · cases h
    · cases h
      refine hw.transition hg rfl rfl ⟨hnm, by simp, by simp⟩ (.inl rfl)
        (.inr (.inl ⟨hexp.1, rfl⟩)) (.inl rfl) (.inr hexp.1)
        (fun _ h => absurd (h.1.symm.trans hexp.2.1) Bool.noConfusion)
        (.inr ⟨_, rfl, hexp.2.2, appends_of_apply ?_ fun hr => ?_⟩)
      · simp only [Goroutine.op, State.apply, abs, init, hexp.2.1, Bool.false_eq_true, if_false,
          pendingReg_set_other hnm]
      · simp only [racy, Bool.and_eq_false_iff] at hr ⊢
        split at hr <;> simp_all
    · cases h

theorem Inv.start (t : State) (calls : List Op) : (World.start t calls).Inv t calls where
  ops := by
    simp only [World.start, List.map_map]
    exact List.map_id'' (fun op => by cases op <;> rfl) calls
  expect i g hg := by
    simp only [World.start, List.getElem?_map] at hg
    obtain ⟨op, -, rfl⟩ := Option.map_eq_some'.mp hg
    cases op <;> simp [Goroutine.ofOp, Goroutine.Expect, World.start]
  mux_lt _ := nofun
  once_lt _ := nofun
  nodup := List.nodup_nil
  calls _ := nofun
  registered _ _ _ _ := nofun
  initDone h := ⟨h, rfl⟩
  replay _ := rfl

def run (w : World) (seen : Exporter) : List Nat → World
  | [] => w
  | i :: sched => ((w.step i seen).getD w).run seen sched

theorem reachable_run (h : World.Reachable t calls w) (seen : Exporter) (sched : List Nat) :
    World.Reachable t calls (w.run seen sched) := by
  induction sched generalizing w with
  | nil => exact h
  | cons i sched ih =>
    cases hs : w.step i seen with
    | none => simpa [run, hs] using ih h
    | some w' => simpa [run, hs] using ih (h.tail ⟨i, seen, hs⟩)

theorem Inv.reachable (h : World.Reachable t calls w) : w.Inv t calls := by
  induction h with
  | refl => exact Inv.start t calls
  | tail _ hstep ih =>
    obtain ⟨i, seen, hi⟩ := hstep
    exact ih.step hi

theorem Inv.racy_eq_false (hw : w.Inv t calls) (h : t.initDone = true) : w.racy = false := by
  simp [racy, (hw.initDone h).2]

end World

/-- The calls that took effect, in an order the sequential model accepts. Replayed one after the
other from `t`, the log gives the results it records and the state of the package. Each entry is
the call of its goroutine; a goroutine is in it at most once, and not before it starts; and every
goroutine that returned is in it with what it returned. -/
structure World.Linearized (t : State) (calls : List Op) (w : World) : Prop where
  replay : seqRun t (w.log.map (·.2.1)) = (w.log.map (·.2.2), w.abs)
  calls : ∀ e ∈ w.log, calls[e.1]? = some e.2.1
  nodup : (w.log.map (·.1)).Nodup
  unstarted : ∀ i g, w.gs[i]? = some g → g.started = false → i ∉ w.log.map (·.1)
  provider_returned : ∀ i name env tp, w.gs[i]? = some (.provider name env (.returned tp)) →
    (i, Op.provider name env, Result.provider tp) ∈ w.log
  init_returned : ∀ i env, w.gs[i]? = some (.init env .returned) →
    (i, Op.init env, Result.unit) ∈ w.log

theorem World.Inv.linearized {t : State} {calls : List Op} {w : World} (hw : w.Inv t calls)
    (hrace : w.racy = false) : w.Linearized t calls where
  replay := hw.replay hrace
  calls := hw.calls
  nodup := hw.nodup
  unstarted i g hg hs := by
    have := hw.expect i g hg
    rcases g with ⟨name, env, pc⟩ | ⟨env, pc⟩ <;> cases pc <;>
      first | exact this.2.2 | simp [Goroutine.started] at hs
  provider_returned i name env tp hg := (hw.expect _ _ hg).2.2
  init_returned i env hg := (hw.expect _ _ hg).2.2

/-- Goroutines calling `tracerProvider` and `Init` concurrently are linearizable in every run free
of the race on `tr.exp`, and so in every run from a package whose `Init` has run: in every world
they reach so, the calls that took effect, replayed one after the other by the sequential model,
give what the goroutines returned and the state of the package. -/
theorem goroutines_linearizable (t : State) (calls : List Op) {w : World}
    (h : World.Reachable t calls w) (hrace : t.initDone = true ∨ w.racy = false) :
    w.Linearized t calls :=
  have hw := World.Inv.reachable h
  hw.linearized (hrace.elim hw.racy_eq_false id)

def providerAndInit : List Op :=
  [.provider "svc" ⟨.ok "h", false⟩, .init ⟨.ok ⟨"c", ""⟩, fun _ => .error "", false⟩]

def afterInit : State := init ⟨.ok ⟨"c", ""⟩, fun _ => .error "", false⟩ State.initial

theorem provider_after_init_linearized :
    afterInit.initDone = true ∧
      ((World.start afterInit providerAndInit).run .noop [0, 0, 1, 0, 0]).Linearized
        afterInit providerAndInit ∧
      ((World.start afterInit providerAndInit).run .noop [0, 0, 1, 0, 0]).gs[0]? =
        some (.provider "svc" ⟨.ok "h", false⟩
          (.returned (.sdk 0 (.jaeger (.collector ["c"])) "svc" "h"))) :=
  ⟨rfl, goroutines_linearizable _ _ (World.reachable_run .refl _ _) (.inl rfl), rfl⟩

def staleRead : World := (World.start State.initial providerAndInit).run .noop [0, 0, 1, 1, 0, 0]

/-- In `staleRead`, `Init` installs a Jaeger collector between the `Load` that misses and the
making of the provider, whose read of `t.exp` sees the no-op exporter that `Init` replaced: the
run is racy, and the provider the goroutine returned is not the one the sequential model gives for
the order of the log. -/
theorem stale_exporter_read_not_linearizable :
    World.Reachable State.initial providerAndInit staleRead ∧ staleRead.racy = true ∧
      staleRead.gs[0]? =
        some (.provider "svc" ⟨.ok "h", false⟩ (.returned (.sdk 0 .noop "svc" "h"))) ∧
      (seqRun State.initial (staleRead.log.map (·.2.1))).1 ≠ staleRead.log.map (·.2.2) :=
  ⟨World.reachable_run .refl _ _, rfl, rfl, by decide⟩

/-- Two goroutines that asked for one service name returned one provider, the one the registry
holds for the name, a store in progress included: under any interleaving, `t.mux` keeps a second
goroutine from making a provider of its own. -/
theorem goroutines_agree_on_providers (t : State) (calls : List Op) {w : World}
    (h : World.Reachable t calls w) {i j : Nat} {name : String} {env env' : ProviderEnv}
    {tp tp' : Provider} (hi : w.gs[i]? = some (.provider name env (.returned tp)))
    (hj : w.gs[j]? = some (.provider name env' (.returned tp'))) :
    tp = tp' ∧ w.abs.reg.get? name = some tp := by
  have hw := World.Inv.reachable h
  have h1 := hw.registered _ _ _ _ (hw.expect i _ hi).2.2
  exact ⟨Option.some.inj (h1.symm.trans (hw.registered _ _ _ _ (hw.expect j _ hj).2.2)), h1⟩

def twoCalls : List Op := [.provider "svc" ⟨.ok "h", false⟩, .provider "svc" ⟨.ok "h", false⟩]

theorem two_goroutines_share_svc_provider :
    Provider.sdk 0 .noop "svc" "h" = .sdk 0 .noop "svc" "h" ∧
      ((World.start State.initial twoCalls).run .noop [0, 0, 0, 0, 1, 1]).abs.reg.get? "svc" =
        some (.sdk 0 .noop "svc" "h") :=
  goroutines_agree_on_providers State.initial twoCalls (World.reachable_run .refl _ _)
    (i := 0) (j := 1) rfl rfl

end Tracing

end Reva
