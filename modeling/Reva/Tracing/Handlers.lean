import Reva.Middleware
import Reva.Tracing.Provider

/-!
# The handlers of `Middleware`, with their tracer providers

`SetMiddleware(name, prefix)` stores in an `HttpMiddleware` a function that wraps a handler with
`otelhttp.NewHandler(h, prefix, otelhttp.WithTracerProvider(tr.tracerProvider(name)))`.
`Middleware(h, ms)` calls it for every entry of `ms`, in the order the runtime picks, so every
entry asks the registry for the provider of its service name, and a middleware whose function was
never set is a nil function call, which panics.

`traced_handlers_loop_refines_middleware`: whatever the order and the state of the package, the
loop panics exactly when some middleware was never set; otherwise it builds the handler of each
prefix from its operation and the provider the registry holds, after the loop, for its service
name, so that the handlers of one service share a provider, and the handler it returns serves
every request as `middleware` does with that wrapper.
-/

namespace Reva

namespace Tracing

/-- An `HttpMiddleware`: the service name and the prefix that the function in its `middleware`
field closes over, from its last `SetMiddleware`, or `none` while the field is nil. -/
structure HttpMiddleware where
  service : Option (String × String)

structure Handler where
  operation : String
  tp : Provider
  deriving DecidableEq, Repr

/-- `m.Middleware(h)`: the `otelhttp.NewHandler` around `h`, by its operation and its provider,
after asking the registry for the provider of the service, its `os.Hostname()` and merge as `env`
gives them for the service; `none` for a nil function, whose call panics. -/
def HttpMiddleware.middleware (env : String → ProviderEnv) (m : HttpMiddleware) (t : State) :
    Option Handler × State :=
  match m.service with
  | none => (none, t)
  | some (name, operation) =>
    (some ⟨operation, (tracerProvider (env name) name t).1⟩, (tracerProvider (env name) name t).2)

/-- The loop `for prefix, m := range ms { handlers[prefix] = m.Middleware(h) }` of `Middleware`,
visiting the entries of `ms` in `order`: the handlers, or `none` when a call panics. -/
def buildTracedHandlers (env : String → ProviderEnv) :
    List (GoString × HttpMiddleware) → GoMap GoString Handler → State →
      Option (GoMap GoString Handler) × State
  | [], handlers, t => (some handlers, t)
  | (pre, m) :: order, handlers, t =>
    match m.middleware env t with
    | (none, t') => (none, t')
    | (some h, t') => buildTracedHandlers env order (handlers.set pre h) t'

def HttpMiddleware.handlerIn (t : State) (m : HttpMiddleware) : Option Handler :=
  m.service.map fun s => ⟨s.2, (t.reg.get? s.1).getD .noop⟩

section Loop

variable {env : String → ProviderEnv}

theorem buildTracedHandlers_get?_of_get? {order : List (GoString × HttpMiddleware)}
    {handlers : GoMap GoString Handler} {t : State} {name : String} {tp : Provider}
    (h : t.reg.get? name = some tp) :
    (buildTracedHandlers env order handlers t).2.reg.get? name = some tp := by
  induction order generalizing handlers t with
  | nil => exact h
  | cons e order ih =>
    obtain ⟨pre, ⟨_ | ⟨n, op⟩⟩⟩ := e
    · exact h
    · exact ih (tracerProvider_get?_of_get? h)

theorem buildTracedHandlers_eq_none_iff (order : List (GoString × HttpMiddleware))
    (handlers : GoMap GoString Handler) (t : State) :
    (buildTracedHandlers env order handlers t).1 = none ↔ ∃ e ∈ order, e.2.service = none := by
  induction order generalizing handlers t with
  | nil => simp [buildTracedHandlers]
  | cons e order ih =>
    obtain ⟨pre, ⟨_ | ⟨n, op⟩⟩⟩ := e
    · simp [buildTracedHandlers, HttpMiddleware.middleware]
    · simp [buildTracedHandlers, HttpMiddleware.middleware, ih]

theorem buildTracedHandlers_get? {order : List (GoString × HttpMiddleware)}
    (hnd : (order.map Prod.fst).Nodup) (hset : ∀ e ∈ order, e.2.service ≠ none)
    (handlers : GoMap GoString Handler) (t : State) (k : GoString) :
    ∃ hs, (buildTracedHandlers env order handlers t).1 = some hs ∧
      hs.get? k = ((GoMap.get? ⟨order, hnd⟩ k).bind
        (HttpMiddleware.handlerIn (buildTracedHandlers env order handlers t).2)).or
          (handlers.get? k) := by
  induction order generalizing handlers t with
  | nil => simp [buildTracedHandlers, GoMap.get?]
  | cons e order ih =>
    obtain ⟨pre, ⟨_ | ⟨n, op⟩⟩⟩ := e
    · exact absurd rfl (hset _ (List.mem_cons_self _ _))
    obtain ⟨hpre, hnd'⟩ := List.nodup_cons.mp hnd
    obtain ⟨hs, hr, hk⟩ := ih hnd' (fun e he => hset e (List.mem_cons_of_mem _ he))
      (handlers.set pre ⟨op, (tracerProvider (env n) n t).1⟩) (tracerProvider (env n) n t).2
    refine ⟨hs, hr, ?_⟩
    simp only [buildTracedHandlers, HttpMiddleware.middleware] at hr hk ⊢
    rw [hk, GoMap.get?_set, GoMap.get?_cons]
    by_cases hkp : k = pre
    · subst hkp
      have hnone : GoMap.get? ⟨order, hnd'⟩ k = none :=
        (GoMap.get?_eq_none_iff_not_mem_keys ⟨order, hnd'⟩).mpr (by simpa using hpre)
      have hreg : (buildTracedHandlers env order
          (handlers.set k ⟨op, (tracerProvider (env n) n t).1⟩)
          (tracerProvider (env n) n t).2).2.reg.get? n = some (tracerProvider (env n) n t).1 :=
        buildTracedHandlers_get?_of_get? (tracerProvider_get?_self (env n) n t)
      simp [hnone, HttpMiddleware.handlerIn, hreg]
    · simp [hkp]

end Loop

def HttpMiddleware.wrapIn (t : State) (m : HttpMiddleware) : Handler :=
  (m.handlerIn t).getD ⟨"", .noop⟩

/-- For every map of middlewares, every order the runtime visits it in and every state of the
tracing package: the loop of `Middleware` panics exactly when some middleware was never set.
Otherwise it builds, for each prefix, the handler with the middleware's operation and the
provider the registry holds after the loop for its service name, so the handlers of one service
share a provider; and the handler that `Middleware` returns serves every request as `middleware`
does with that wrapper, for every order of its second loop. -/
theorem traced_handlers_loop_refines_middleware (env : String → ProviderEnv)
    (ms : GoMap GoString HttpMiddleware) {order : List (GoString × HttpMiddleware)}
    (horder : ms.IsOrder order) (t : State) :
    ((buildTracedHandlers env order .empty t).1 = none ↔
      ∃ p m, (p, m) ∈ ms.entries ∧ m.service = none) ∧
    ((∀ p m, (p, m) ∈ ms.entries → m.service ≠ none) →
      ∃ hs, (buildTracedHandlers env order .empty t).1 = some hs ∧
        (∀ k, hs.get? k =
          (ms.get? k).bind (HttpMiddleware.handlerIn (buildTracedHandlers env order .empty t).2)) ∧
        ∀ o path, serve hs (o.map Prod.fst) path =
          middleware (HttpMiddleware.wrapIn (buildTracedHandlers env order .empty t).2) ms o path) := by
  refine ⟨(buildTracedHandlers_eq_none_iff order _ t).trans ?_, fun hset => ?_⟩
  · exact ⟨fun ⟨e, he, hn⟩ => ⟨e.1, e.2, horder.mem_iff.mp he, hn⟩,
      fun ⟨p, m, he, hn⟩ => ⟨(p, m), horder.mem_iff.mpr he, hn⟩⟩
  have hset' : ∀ e ∈ order, e.2.service ≠ none := fun e he => hset e.1 e.2 (horder.mem_iff.mp he)
  have hget := @buildTracedHandlers_get? env order horder.keys_nodup hset' GoMap.empty t
  obtain ⟨hs, hr, -⟩ := hget []
  have hk : ∀ k, hs.get? k =
      (ms.get? k).bind (HttpMiddleware.handlerIn (buildTracedHandlers env order .empty t).2) :=
    fun k => by
      obtain ⟨hs', hr', hk⟩ := hget k
      rw [hr] at hr'
      cases hr'
      have hl : GoMap.get? ⟨order, horder.keys_nodup⟩ k = ms.get? k := horder.lookup_eq k
      rwa [hl, GoMap.get?_empty, Option.or_none] at hk
  have hwrap : ∀ k, hs.get? k =
      (ms.mapVal (HttpMiddleware.wrapIn (buildTracedHandlers env order .empty t).2)).get? k :=
    fun k => by
      rw [hk, GoMap.get?_mapVal]
      cases hm : ms.get? k with
      | none => rfl
      | some m =>
        obtain ⟨s, hs⟩ := Option.ne_none_iff_exists'.mp
          (hset k m ((ms.get?_eq_some_iff).mp hm))
        simp [HttpMiddleware.wrapIn, HttpMiddleware.handlerIn, hs]
  exact ⟨hs, hr, hk, fun o path => by simp only [middleware, serve, hwrap]⟩

def ocdavPrefixes : GoMap GoString HttpMiddleware :=
  ⟨[(ascii "/remote.php", ⟨some ("ocdav", "/remote.php")⟩), (ascii "/dav", ⟨some ("ocdav", "/dav")⟩)],
    by decide⟩

def hostH : String → ProviderEnv := fun _ => ⟨.ok "h", false⟩

theorem ocdav_handlers_refine_middleware :
    ∃ hs, (buildTracedHandlers hostH ocdavPrefixes.entries.reverse .empty State.initial).1 = some hs ∧
      (∀ k, hs.get? k = (ocdavPrefixes.get? k).bind (HttpMiddleware.handlerIn
        (buildTracedHandlers hostH ocdavPrefixes.entries.reverse .empty State.initial).2)) ∧
      ∀ o path, serve hs (o.map Prod.fst) path = middleware (HttpMiddleware.wrapIn
        (buildTracedHandlers hostH ocdavPrefixes.entries.reverse .empty State.initial).2)
          ocdavPrefixes o path :=
  (traced_handlers_loop_refines_middleware hostH ocdavPrefixes (List.reverse_perm _) State.initial).2
    fun p m hm => by
      simp only [ocdavPrefixes, List.mem_cons, Prod.mk.injEq, List.mem_singleton,
        List.not_mem_nil, or_false] at hm
      rcases hm with ⟨-, rfl⟩ | ⟨-, rfl⟩ <;> simp

end Tracing

end Reva
