import Reva.GoMap

/-!
# The tracer providers of the tracing package

`tracerProvider(name)` gives each service name one tracer provider. Under `t.mux` it returns the
provider stored for the name; otherwise it makes one and stores it: the no-op provider when the
host name or the merged resource cannot be had, else a new SDK provider that batches to the
exporter installed at that moment. `Init` installs the Jaeger exporter its configuration names,
once (`initOnce`).

This module is the sequential model, one call after the other (`State.apply`, `seqRun`); the
goroutines that make the calls concurrently are in `Reva.Tracing.Goroutines`. A stored provider
is never replaced (`apply_get?_of_get?`), so every call for a name returns what the registry holds
for it at the end of the run (`seqRun_results_registered`); the exporter changes at the first
`Init` only (`apply_of_initDone`).
-/

namespace Reva

namespace Tracing

inductive AgentOption where
  | host (h : String)
  | port (p : String)
  deriving DecidableEq, Repr

/-- The `jaegerExporter.EndpointOption` that `Init` builds: `WithAgentEndpoint` with
`WithAgentHost` and `WithAgentPort` options, or `WithCollectorEndpoint` with one
`WithEndpoint(url)` per url. -/
inductive Endpoint where
  | agent (opts : List AgentOption)
  | collector (urls : List String)
  deriving DecidableEq, Repr

inductive Exporter where
  | noop
  | jaeger (endpoint : Endpoint)
  deriving DecidableEq, Repr

/-- A tracer provider: `t.noop`, or one that `tracesdk.NewTracerProvider` builds. Each build is a
new object, numbered by `id`; it batches to `exp`, and its resource names the service and the
host. -/
inductive Provider where
  | noop
  | sdk (id : Nat) (exp : Exporter) (service : String) (host : String)
  deriving DecidableEq, Repr

/-- The package variable `tr`: the exporter, the registry `reg` (a `sync.Map` from service names
to providers), the number of providers built so far, and whether `initOnce` has run. -/
structure State where
  exp : Exporter
  reg : GoMap String Provider
  built : Nat
  initDone : Bool

def State.initial : State := ⟨.noop, .empty, 0, false⟩

/-! ## `tracerProvider` -/

/-- What a call of `tracerProvider` finds outside the package: `os.Hostname()`, and whether
`resource.Merge` fails. -/
structure ProviderEnv where
  hostname : Except String String
  mergeFails : Bool

/-- The provider that a call missing the registry makes, from `var tp = t.noop` to
`tracesdk.NewTracerProvider`, with the number of providers built after it. -/
def make (env : ProviderEnv) (name : String) (exp : Exporter) (built : Nat) : Provider × Nat :=
  match env.hostname with
  | .error _ => (.noop, built)
  | .ok host => if env.mergeFails then (.noop, built) else (.sdk built exp name host, built + 1)

/-- `t.tracerProvider(name)`. The stored value is always a `trace.TracerProvider`, so the type
assertion after `t.reg.Load` never fails. -/
def tracerProvider (env : ProviderEnv) (name : String) (t : State) : Provider × State :=
  match t.reg.get? name with
  | some tp => (tp, t)
  | none =>
    let m := make env name t.exp t.built
    (m.1, { t with reg := t.reg.set name m.1, built := m.2 })

/-! ## `Init` -/

structure Config where
  collector : String
  agent : String

structure InitEnv where
  config : Except String Config
  splitHostPort : String → Except String (String × String)
  exporterFails : Bool

def withAgentEndpoint (split : String → Except String (String × String)) (agent : String) :
    Except String Endpoint :=
  if agent ≠ "" then
    match split agent with
    | .error e => .error e
    | .ok (host, port) =>
      .ok (.agent ((if host ≠ "" then [.host host] else []) ++
        (if port ≠ "" then [.port port] else [])))
  else .ok (.agent [])

def withCollectorEndpoint (collector : String) : Endpoint :=
  .collector (if collector ≠ "" then [collector] else [])

/-- The function `Init` runs under `initOnce`: the exporter it installs, or `none` when it logs an
error, or finds tracing disabled, and returns. -/
def initExporter (env : InitEnv) : Option Exporter :=
  match env.config with
  | .error _ => none
  | .ok c =>
    let endpoint : Option Endpoint :=
      if c.collector ≠ "" ∧ c.agent ≠ "" then none
      else if c.agent ≠ "" then (withAgentEndpoint env.splitHostPort c.agent).toOption
      else if c.collector ≠ "" then some (withCollectorEndpoint c.collector)
      else none
    match endpoint with
    | none => none
    | some ep => if env.exporterFails then none else some (.jaeger ep)

/-- `Init(v)`: its function runs at the first call only. -/
def init (env : InitEnv) (t : State) : State :=
  if t.initDone then t else { t with exp := (initExporter env).getD t.exp, initDone := true }

/-! ## Runs -/

/-- A call into the package: `tr.tracerProvider(name)`, as `SetInterceptors`, `SetMiddleware`'s
handlers and `SpanStart` make it, or `Init(v)`. -/
inductive Op where
  | provider (name : String) (env : ProviderEnv)
  | init (env : InitEnv)

inductive Result where
  | provider (tp : Provider)
  | unit
  deriving DecidableEq, Repr

def State.apply (t : State) : Op → Result × State
  | .provider name env => (.provider (tracerProvider env name t).1, (tracerProvider env name t).2)
  | .init env => (.unit, init env t)

def seqRun (t : State) : List Op → List Result × State
  | [] => ([], t)
  | op :: ops => ((t.apply op).1 :: (seqRun (t.apply op).2 ops).1, (seqRun (t.apply op).2 ops).2)

theorem seqRun_append_singleton (t : State) (ops : List Op) (op : Op) :
    seqRun t (ops ++ [op]) =
      ((seqRun t ops).1 ++ [((seqRun t ops).2.apply op).1], ((seqRun t ops).2.apply op).2) := by
  induction ops generalizing t with
  | nil => rfl
  | cons o os ih =>
    show seqRun t (o :: (os ++ [op])) = _
    simp only [seqRun, ih, List.cons_append]

/-! ## What a call keeps -/

section Keep

variable {t : State} {env : ProviderEnv} {name k : String} {tp : Provider}

theorem tracerProvider_of_get? (h : t.reg.get? name = some tp) :
    tracerProvider env name t = (tp, t) := by
  simp [tracerProvider, h]

theorem tracerProvider_get?_self (env : ProviderEnv) (name : String) (t : State) :
    (tracerProvider env name t).2.reg.get? name = some (tracerProvider env name t).1 := by
  unfold tracerProvider
  split
  next tp h => exact h
  next => simp [GoMap.get?_set]

theorem tracerProvider_get?_of_get? (h : t.reg.get? k = some tp) :
    (tracerProvider env name t).2.reg.get? k = some tp := by
  unfold tracerProvider
  split
  next => exact h
  next hn =>
    simp only [GoMap.get?_set]
    split_ifs with hk
    · subst hk; simp [hn] at h
    · exact h

theorem apply_get?_of_get? (h : t.reg.get? k = some tp) (op : Op) :
    (t.apply op).2.reg.get? k = some tp := by
  cases op with
  | provider name env => exact tracerProvider_get?_of_get? h
  | init env => simp only [State.apply, init]; split <;> exact h

theorem seqRun_get?_of_get? (h : t.reg.get? k = some tp) (ops : List Op) :
    (seqRun t ops).2.reg.get? k = some tp := by
  induction ops generalizing t with
  | nil => exact h
  | cons op ops ih => exact ih (apply_get?_of_get? h op)

theorem apply_of_initDone (h : t.initDone = true) (op : Op) :
    (t.apply op).2.exp = t.exp ∧ (t.apply op).2.initDone = true := by
  cases op with
  | provider name env =>
    simp only [State.apply, tracerProvider]
    split <;> exact ⟨rfl, h⟩
  | init env => simp [State.apply, init, h]

end Keep

/-- Every call of a run for a name returns the provider the registry holds for the name when the
run ends. -/
theorem seqRun_results_registered (t : State) (ops : List Op) {name : String} {env : ProviderEnv}
    {tp : Provider} (h : (Op.provider name env, Result.provider tp) ∈ ops.zip (seqRun t ops).1) :
    (seqRun t ops).2.reg.get? name = some tp := by
  induction ops generalizing t with
  | nil => simp at h
  | cons op ops ih =>
    rcases List.mem_cons.mp h with h | h
    · obtain ⟨rfl, hr⟩ := Prod.mk.inj h
      have hself := tracerProvider_get?_self env name t
      simp only [State.apply, Result.provider.injEq] at hr
      rw [← hr] at hself
      exact seqRun_get?_of_get? hself ops
    · exact ih _ h

theorem seqRun_append_snd (t : State) (ops ops' : List Op) :
    (seqRun t (ops ++ ops')).2 = (seqRun (seqRun t ops).2 ops').2 := by
  induction ops generalizing t with
  | nil => rfl
  | cons op ops ih => exact ih _

/-! ## Providers made before `Init` -/

def Provider.exporter : Provider → Option Exporter
  | .noop => none
  | .sdk _ exp _ _ => some exp

def Provider.exportsToJaeger (tp : Provider) : Bool :=
  match tp.exporter with
  | some (.jaeger _) => true
  | _ => false

structure State.Quiet (t : State) : Prop where
  exp_noop : t.exp = .noop
  stored : ∀ k tp, t.reg.get? k = some tp → tp.exportsToJaeger = false

theorem State.Quiet.initial : State.initial.Quiet := ⟨rfl, by simp [State.initial]⟩

theorem tracerProvider_quiet {t : State} (hq : t.Quiet) (env : ProviderEnv) (name : String) :
    (tracerProvider env name t).1.exportsToJaeger = false ∧
      (tracerProvider env name t).2.Quiet := by
  have hmake : (make env name t.exp t.built).1.exportsToJaeger = false := by
    unfold make
    rw [hq.exp_noop]
    split
    · rfl
    · split <;> rfl
  unfold tracerProvider
  split
  next tp h => exact ⟨hq.stored name tp h, hq⟩
  next =>
    refine ⟨hmake, hq.exp_noop, fun k tp h => ?_⟩
    simp only [GoMap.get?_set] at h
    split_ifs at h
    · exact Option.some.inj h ▸ hmake
    · exact hq.stored k tp h

theorem seqRun_quiet {t : State} (hq : t.Quiet) (ops : List Op) (hops : ∀ e, Op.init e ∉ ops) :
    (seqRun t ops).2.Quiet := by
  induction ops generalizing t with
  | nil => exact hq
  | cons op ops ih =>
    cases op with
    | provider name env =>
      exact ih (tracerProvider_quiet hq env name).2 fun e he => hops e (.tail _ he)
    | init env => exact absurd (.head _) (hops env)

/-- A service whose tracer provider is first asked for before any `Init` never exports to Jaeger:
every call of the run for its name, before `Init` or after it, returns a provider whose spans
reach no Jaeger endpoint, whatever exporter `Init` installs. -/
theorem provider_before_init_never_exports (pre post : List Op) (name : String) (env : ProviderEnv)
    (hpre : ∀ e, Op.init e ∉ pre) {env' : ProviderEnv} {tp : Provider}
    (h : (Op.provider name env', Result.provider tp) ∈ (pre ++ .provider name env :: post).zip
      (seqRun State.initial (pre ++ .provider name env :: post)).1) :
    tp.exportsToJaeger = false := by
  have hq := seqRun_quiet State.Quiet.initial pre hpre
  have hfinal : (seqRun State.initial (pre ++ .provider name env :: post)).2.reg.get? name =
      some (tracerProvider env name (seqRun State.initial pre).2).1 := by
    rw [seqRun_append_snd]
    exact seqRun_get?_of_get? (tracerProvider_get?_self env name _) post
  have htp := seqRun_results_registered _ _ h
  rw [hfinal, Option.some.injEq] at htp
  exact htp ▸ (tracerProvider_quiet hq env name).1

def askBeforeInit : List Op :=
  [] ++ .provider "svc" ⟨.ok "h", false⟩ ::
    [.init ⟨.ok ⟨"c", ""⟩, fun _ => .error "", false⟩, .provider "svc" ⟨.ok "h", false⟩]

theorem svc_provider_after_init_stays_quiet :
    (Op.provider "svc" ⟨.ok "h", false⟩, Result.provider (.sdk 0 .noop "svc" "h")) ∈
        askBeforeInit.zip (seqRun State.initial askBeforeInit).1 ∧
      (Provider.sdk 0 .noop "svc" "h").exportsToJaeger = false :=
  have hmem : (Op.provider "svc" ⟨.ok "h", false⟩, Result.provider (.sdk 0 .noop "svc" "h")) ∈
      askBeforeInit.zip (seqRun State.initial askBeforeInit).1 := .tail _ (.tail _ (.head _))
  ⟨hmem, provider_before_init_never_exports [] _ "svc" _ (fun _ => List.not_mem_nil _) hmem⟩

end Tracing

end Reva
