import Reva.GoMap
import Reva.Url

/-!
# Dispatch of the HTTP tracing middleware

`tracing.Middleware(h, ms)` wraps `h` once for every prefix of `ms` and returns a handler that
serves a request with the wrapper of its path when the path is a key, and otherwise with the
wrapper of a prefix the path lies under (`UrlHasPrefix`), or with a no-op tracer when there is
none. The selection loop keeps a prefix only when it is strictly longer than the one kept so far,
measured in bytes of the key as written, and it runs over the map in the order the runtime picks.

What the code guarantees is `middleware_serves_longest_key`: the no-op tracer exactly when no key
matches, and otherwise a matching key that is the path itself or no shorter, as written, than
any other matching key. Two keys of one length that both match are told apart by the loop order,
and a key padded with slashes counts as longer than its cleaned form
(`middleware_depends_on_order_and_spelling`). Over keys of pairwise different lengths, or keys
all written in their clean form, the order does not matter (`middleware_same_for_every_order`,
`middleware_same_for_every_order_over_clean_keys`).
-/

namespace Reva

namespace Tracing

variable {M H : Type}

/-- One turn of the selection loop:
`if utils.UrlHasPrefix(path, prefix) && len(prefix) > len(match) { match = prefix }`. -/
def selectStep (path matched pre : GoString) : GoString :=
  if urlHasPrefix path pre && decide (pre.length > matched.length) then pre else matched

/-- The selection loop `for prefix := range handlers`, with the keys visited in `order`. -/
def selectPrefix (path : GoString) (order : List GoString) : GoString :=
  order.foldl (selectStep path) []

/-- `handlerFunc` on a request for `path`: the handler of the path when it is a key, else the
handler of the selected prefix when that is a key, else the no-op handler (`none`). The loop over
`handlers` visits the keys in `order`. -/
def serve (handlers : GoMap GoString H) (order : List GoString) (path : GoString) : Option H :=
  match handlers.get? path with
  | some h => some h
  | none =>
    match handlers.get? (selectPrefix path order) with
    | some h => some h
    | none => none

def buildHandlers (wrap : M → H) (order : List (GoString × M)) : GoMap GoString H :=
  order.foldl (fun n e => n.set e.1 (wrap e.2)) GoMap.empty

/-- `Middleware(h, ms)`: the map `handlers[prefix] = m.Middleware(h)`, which the loop
`buildHandlers` builds in any order (`handlers_loop_builds_wrapped_map`), and the handler
`handlerFunc` on a request for `path`, its loop visiting the entries of `handlers` in `order`. -/
def middleware (wrap : M → H) (ms : GoMap GoString M) (order : List (GoString × H))
    (path : GoString) : Option H :=
  serve (ms.mapVal wrap) (order.map Prod.fst) path

/-! ## The selection loop -/

section Select

variable (path : GoString)

theorem selectStep_cases (matched pre : GoString) :
    selectStep path matched pre = matched ∨
      (selectStep path matched pre = pre ∧ urlHasPrefix path pre = true ∧
        matched.length < pre.length) := by
  unfold selectStep
  split
  · rename_i h
    simp only [Bool.and_eq_true, decide_eq_true_eq] at h
    exact .inr ⟨rfl, h⟩
  · exact .inl rfl

theorem le_selectStep (matched pre : GoString) (h : urlHasPrefix path pre = true) :
    pre.length ≤ (selectStep path matched pre).length := by
  unfold selectStep
  split
  · exact le_rfl
  · simp_all

theorem foldl_selectStep (l : List GoString) (acc : GoString) :
    (l.foldl (selectStep path) acc = acc ∨
      (l.foldl (selectStep path) acc ∈ l ∧ urlHasPrefix path (l.foldl (selectStep path) acc))) ∧
    acc.length ≤ (l.foldl (selectStep path) acc).length ∧
    ∀ q ∈ l, urlHasPrefix path q = true → q.length ≤ (l.foldl (selectStep path) acc).length := by
  induction l generalizing acc with
  | nil => simp
  | cons x xs ih =>
    simp only [List.foldl_cons, List.mem_cons, forall_eq_or_imp]
    obtain ⟨hsel, hle, hmax⟩ := ih (selectStep path acc x)
    generalize xs.foldl (selectStep path) (selectStep path acc x) = r at hsel hle hmax ⊢
    have hx := le_selectStep path acc x
    rcases selectStep_cases path acc x with h | ⟨h, hxm, hlt⟩ <;> rw [h] at hsel hle hx
    · exact ⟨hsel.imp_right fun h => ⟨.inr h.1, h.2⟩, hle, fun hxm => (hx hxm).trans hle, hmax⟩
    · refine ⟨.inr ?_, by omega, fun _ => hle, hmax⟩
      rcases hsel with rfl | h
      exacts [⟨.inl rfl, hxm⟩, ⟨.inr h.1, h.2⟩]

theorem selectPrefix_spec (order : List GoString) :
    (selectPrefix path order = [] ∨
      (selectPrefix path order ∈ order ∧ urlHasPrefix path (selectPrefix path order))) ∧
    ∀ q ∈ order, urlHasPrefix path q = true → q.length ≤ (selectPrefix path order).length :=
  have h := foldl_selectStep path order []
  ⟨h.1, h.2.2⟩

theorem selectPrefix_length_le {o1 o2 : List GoString} (hsub : ∀ q ∈ o1, q ∈ o2) :
    (selectPrefix path o1).length ≤ (selectPrefix path o2).length := by
  rcases (selectPrefix_spec path o1).1 with h | ⟨hm, hp⟩
  · simp [h]
  · exact (selectPrefix_spec path o2).2 _ (hsub _ hm) hp

theorem selectPrefix_eq_of_mem_iff {o1 o2 : List GoString} (hmem : ∀ q, q ∈ o1 ↔ q ∈ o2)
    (hlen : ∀ p ∈ o1, ∀ q ∈ o1, urlHasPrefix path p = true → urlHasPrefix path q = true →
      p.length = q.length → p = q) :
    selectPrefix path o1 = selectPrefix path o2 := by
  have hl : (selectPrefix path o1).length = (selectPrefix path o2).length :=
    le_antisymm (selectPrefix_length_le path fun q => (hmem q).mp)
      (selectPrefix_length_le path fun q => (hmem q).mpr)
  rcases (selectPrefix_spec path o1).1 with h1 | ⟨hm1, hp1⟩
  · rw [h1] at hl ⊢
    exact (List.eq_nil_of_length_eq_zero hl.symm).symm
  rcases (selectPrefix_spec path o2).1 with h2 | ⟨hm2, hp2⟩
  · rw [h2] at hl ⊢
    exact List.eq_nil_of_length_eq_zero hl
  exact hlen _ hm1 _ ((hmem _).mpr hm2) hp1 hp2 hl

end Select

theorem mem_keys_of_isOrder {wrap : M → H} {ms : GoMap GoString M} {order : List (GoString × H)}
    (horder : (ms.mapVal wrap).IsOrder order) (q : GoString) :
    q ∈ order.map Prod.fst ↔ ∃ m, (q, m) ∈ ms.entries := by
  simp only [List.mem_map, Prod.exists, exists_and_right, exists_eq_right]
  exact ⟨fun ⟨w, hw⟩ => (GoMap.mem_mapVal.mp (horder.mem_iff.mp hw)).imp fun _ h => h.1,
    fun ⟨m, hm⟩ => ⟨wrap m, horder.mem_iff.mpr (GoMap.mem_mapVal.mpr ⟨m, hm, rfl⟩)⟩⟩

/-! ## What `Middleware` serves -/

/-- For every map of middlewares, every order of the loop and every path: the path's own wrapper
when the path is a key; the no-op handler exactly when no key matches; and otherwise the wrapper
of a matching key that is the path or no shorter, as written, than any other matching key. -/
theorem middleware_serves_longest_key (wrap : M → H) (ms : GoMap GoString M)
    (order : List (GoString × H)) (horder : (ms.mapVal wrap).IsOrder order) (path : GoString) :
    (∀ m, (path, m) ∈ ms.entries → middleware wrap ms order path = some (wrap m)) ∧
    (middleware wrap ms order path = none ↔
      ∀ p m, (p, m) ∈ ms.entries → urlHasPrefix path p = false) ∧
    ∀ h, middleware wrap ms order path = some h →
      ∃ p m, (p, m) ∈ ms.entries ∧ h = wrap m ∧ urlHasPrefix path p = true ∧
        (p = path ∨ ∀ q m', (q, m') ∈ ms.entries → urlHasPrefix path q = true →
          q.length ≤ p.length) := by
  have hkey := mem_keys_of_isOrder horder
  obtain ⟨hsel, hmax⟩ := selectPrefix_spec path (order.map Prod.fst)
  unfold middleware serve
  simp only [GoMap.get?_mapVal]
  cases hp : ms.get? path with
  | some m0 =>
    have hm0 := (ms.get?_eq_some_iff).mp hp
    refine ⟨fun m hm => ms.eq_of_mem hm0 hm ▸ rfl,
      ⟨nofun, fun h => by simpa [urlHasPrefix_self] using h _ _ hm0⟩, ?_⟩
    rintro h ⟨⟩
    exact ⟨path, m0, hm0, rfl, urlHasPrefix_self path, .inl rfl⟩
  | none =>
    have hnot := (ms.get?_eq_none_iff).mp hp
    refine ⟨fun m hm => absurd hm (hnot m), ?_⟩
    generalize hr : selectPrefix path (order.map Prod.fst) = r at hsel hmax
    have hrmatch : urlHasPrefix path r = true := by
      rcases hsel with rfl | ⟨-, h⟩
      exacts [urlHasPrefix_nil path, h]
    cases hq : ms.get? r with
    | some m1 =>
      have hm1 := (ms.get?_eq_some_iff).mp hq
      refine ⟨⟨nofun, fun h => by simp [h _ _ hm1] at hrmatch⟩, ?_⟩
      rintro h ⟨⟩
      exact ⟨r, m1, hm1, rfl, hrmatch, .inr fun q m' hq' hqm =>
        hmax q ((hkey q).mpr ⟨m', hq'⟩) hqm⟩
    | none =>
      refine ⟨⟨fun _ p m hm => ?_, fun _ => rfl⟩, nofun⟩
      by_contra hpm
      have hle := hmax p ((hkey p).mpr ⟨m, hm⟩) (by simpa using hpm)
      have hr : r ∈ order.map Prod.fst := by
        rcases hsel with rfl | ⟨h, -⟩
        · rw [List.length_eq_zero.mp (Nat.le_zero.mp hle)] at hm
          exact (hkey []).mpr ⟨m, hm⟩
        · exact h
      obtain ⟨m', hm'⟩ := (hkey r).mp hr
      exact (ms.get?_eq_none_iff).mp hq m' hm'

def twoSpellings : GoMap GoString Nat := ⟨[(ascii "a/", 1), (ascii "/a", 2)], by decide⟩

def paddedPrefix : GoMap GoString Nat := ⟨[(ascii "/a//////", 1), (ascii "/a/b", 2)], by decide⟩

theorem two_spellings_served_by_longest_key :
    (∀ m, (ascii "/a/x", m) ∈ twoSpellings.entries →
      middleware id twoSpellings twoSpellings.entries (ascii "/a/x") = some (id m)) ∧
    (middleware id twoSpellings twoSpellings.entries (ascii "/a/x") = none ↔
      ∀ p m, (p, m) ∈ twoSpellings.entries → urlHasPrefix (ascii "/a/x") p = false) ∧
    ∀ h, middleware id twoSpellings twoSpellings.entries (ascii "/a/x") = some h →
      ∃ p m, (p, m) ∈ twoSpellings.entries ∧ h = id m ∧ urlHasPrefix (ascii "/a/x") p = true ∧
        (p = ascii "/a/x" ∨ ∀ q m', (q, m') ∈ twoSpellings.entries →
          urlHasPrefix (ascii "/a/x") q = true → q.length ≤ p.length) :=
  middleware_serves_longest_key id twoSpellings twoSpellings.entries (List.Perm.refl _)
    (ascii "/a/x")

/-- The handler for `/a/x` under the two spellings of `/a` depends on the loop order; and in either
order `/a/b/c` is served by the padded `/a//////`, although `/a/b` matches it too and cleans to a
longer prefix. -/
theorem middleware_depends_on_order_and_spelling :
    (twoSpellings.mapVal id).IsOrder [(ascii "a/", 1), (ascii "/a", 2)] ∧
      (twoSpellings.mapVal id).IsOrder [(ascii "/a", 2), (ascii "a/", 1)] ∧
      middleware id twoSpellings [(ascii "a/", 1), (ascii "/a", 2)] (ascii "/a/x") = some 1 ∧
      middleware id twoSpellings [(ascii "/a", 2), (ascii "a/", 1)] (ascii "/a/x") = some 2 ∧
      (paddedPrefix.mapVal id).IsOrder [(ascii "/a//////", 1), (ascii "/a/b", 2)] ∧
      (paddedPrefix.mapVal id).IsOrder [(ascii "/a/b", 2), (ascii "/a//////", 1)] ∧
      middleware id paddedPrefix [(ascii "/a//////", 1), (ascii "/a/b", 2)] (ascii "/a/b/c") =
        some 1 ∧
      middleware id paddedPrefix [(ascii "/a/b", 2), (ascii "/a//////", 1)] (ascii "/a/b/c") =
        some 1 ∧
      urlHasPrefix (ascii "/a/b/c") (ascii "/a/b") = true ∧
      (cleanURL (ascii "/a//////")).length < (cleanURL (ascii "/a/b")).length :=
  ⟨List.Perm.refl _, List.Perm.swap _ _ _, by decide, by decide, List.Perm.refl _,
    List.Perm.swap _ _ _, by decide, by decide, by decide, by decide⟩

section Orders

variable (wrap : M → H) (ms : GoMap GoString M) {o1 o2 : List (GoString × H)}
  (h1 : (ms.mapVal wrap).IsOrder o1) (h2 : (ms.mapVal wrap).IsOrder o2) (path : GoString)

include h1 h2 in
theorem middleware_eq_of_matching_lengths
    (hlen : ∀ p m q m', (p, m) ∈ ms.entries → (q, m') ∈ ms.entries →
      urlHasPrefix path p = true → urlHasPrefix path q = true → p.length = q.length → p = q) :
    middleware wrap ms o1 path = middleware wrap ms o2 path := by
  have hk1 := mem_keys_of_isOrder h1
  have hsame : selectPrefix path (o1.map Prod.fst) = selectPrefix path (o2.map Prod.fst) :=
    selectPrefix_eq_of_mem_iff path (fun q => (hk1 q).trans (mem_keys_of_isOrder h2 q).symm)
      fun p hp q hq => by
        obtain ⟨m, hm⟩ := (hk1 p).mp hp
        obtain ⟨m', hm'⟩ := (hk1 q).mp hq
        exact hlen p m q m' hm hm'
  simp only [middleware, serve, hsame]

include h1 h2 in
/-- When no two keys have one length, `Middleware` serves every path with the same handler for
every order of its loop. -/
theorem middleware_same_for_every_order
    (hlen : ∀ p m q m', (p, m) ∈ ms.entries → (q, m') ∈ ms.entries → p.length = q.length → p = q) :
    middleware wrap ms o1 path = middleware wrap ms o2 path :=
  middleware_eq_of_matching_lengths wrap ms h1 h2 path fun p m q m' hp hq _ _ =>
    hlen p m q m' hp hq

include h1 h2 in
/-- When every key is written in its clean form, `Middleware` serves every path with the same
handler for every order of its loop: of two keys the path lies under, one lies under the other,
so two of one length are one key. -/
theorem middleware_same_for_every_order_over_clean_keys
    (hclean : ∀ p m, (p, m) ∈ ms.entries → cleanURL p = p) :
    middleware wrap ms o1 path = middleware wrap ms o2 path := by
  refine middleware_eq_of_matching_lengths wrap ms h1 h2 path fun p m q m' hp hq hpm hqm hl => ?_
  rw [← hclean p m hp, ← hclean q m' hq] at hl ⊢
  rcases urlHasPrefix_total hpm hqm with h | h
  · exact cleanURL_eq_of_urlHasPrefix h hl.le
  · exact (cleanURL_eq_of_urlHasPrefix h hl.ge).symm

end Orders

theorem padded_prefix_served_alike_in_both_orders :
    middleware id paddedPrefix [(ascii "/a//////", 1), (ascii "/a/b", 2)] (ascii "/a/b/c") =
      middleware id paddedPrefix [(ascii "/a/b", 2), (ascii "/a//////", 1)] (ascii "/a/b/c") :=
  middleware_same_for_every_order id paddedPrefix (List.Perm.refl _) (List.Perm.swap _ _ _) _
    fun p m q m' hp hq => by
      simp only [paddedPrefix, List.mem_cons, Prod.mk.injEq, List.mem_singleton,
        List.not_mem_nil, or_false] at hp hq
      rcases hp with ⟨rfl, -⟩ | ⟨rfl, -⟩ <;> rcases hq with ⟨rfl, -⟩ | ⟨rfl, -⟩ <;> decide

def cleanKeys : GoMap GoString Nat :=
  ⟨[(ascii "/a", 1), (ascii "/b", 2), (ascii "/a/b", 3)], by decide⟩

theorem clean_keys_served_alike_in_both_orders :
    middleware id cleanKeys [(ascii "/a", 1), (ascii "/b", 2), (ascii "/a/b", 3)]
        (ascii "/a/b/c") =
      middleware id cleanKeys [(ascii "/a/b", 3), (ascii "/b", 2), (ascii "/a", 1)]
        (ascii "/a/b/c") :=
  middleware_same_for_every_order_over_clean_keys id cleanKeys (List.Perm.refl _)
    (List.reverse_perm _) _ fun p m hp => by
      simp only [cleanKeys, List.mem_cons, Prod.mk.injEq, List.mem_singleton,
        List.not_mem_nil, or_false] at hp
      rcases hp with ⟨rfl, -⟩ | ⟨rfl, -⟩ | ⟨rfl, -⟩ <;> decide

/-! ## The handlers map -/

/-- Whatever order the runtime visits `ms` in, the loop of `Middleware` builds the map
`ms.mapVal wrap`: the same entries, so the same orders for the second loop, and the same handler
for every request. -/
theorem handlers_loop_builds_wrapped_map (wrap : M → H) (ms : GoMap GoString M)
    {order : List (GoString × M)} (horder : ms.IsOrder order) :
    (buildHandlers wrap order).entries.Perm (ms.mapVal wrap).entries ∧
      ∀ o path,
        serve (buildHandlers wrap order) (o.map Prod.fst) path = middleware wrap ms o path := by
  have hget : ∀ k, (buildHandlers wrap order).get? k = (ms.mapVal wrap).get? k := fun k => by
    rw [buildHandlers, GoMap.get?_foldl_set wrap horder.keys_nodup, horder.lookup_eq,
      GoMap.get?_mapVal, GoMap.get?_empty, Option.or_none]
  exact ⟨GoMap.perm_of_get?_eq hget, fun o path => by simp only [middleware, serve, hget]⟩

theorem reversed_loop_builds_clean_handlers :
    cleanKeys.IsOrder cleanKeys.entries.reverse ∧
      (buildHandlers id cleanKeys.entries.reverse).entries.Perm (cleanKeys.mapVal id).entries :=
  ⟨List.reverse_perm _, (handlers_loop_builds_wrapped_map id cleanKeys (List.reverse_perm _)).1⟩

end Tracing

end Reva
