import Mathlib.Data.List.Nodup

/-!
# Go maps

A Go map holds each key once; `v, ok := m[k]` reads the value of a key, and `for k, v := range m`
visits every entry once, in an order the runtime picks anew on each loop. A map is its list of
entries with distinct keys, and a loop over it takes the visiting order as an argument: any list
that is a permutation of the entries (`GoMap.IsOrder`). A statement that holds for every order
holds whatever the runtime picks.
-/

namespace Reva

/-- A Go map: its entries, no key twice. -/
structure GoMap (κ ν : Type) where
  entries : List (κ × ν)
  keys_nodup : (entries.map Prod.fst).Nodup

namespace GoMap

variable {κ ν : Type}

/-- `len(m)`. -/
def len (m : GoMap κ ν) : Nat := m.entries.length

/-- `v, ok := m[k]`. -/
def get? [DecidableEq κ] (m : GoMap κ ν) (k : κ) : Option ν := m.entries.lookup k

/-- `map[K]V{}`. -/
def empty : GoMap κ ν := ⟨[], List.nodup_nil⟩

/-- The map with `f` applied to every value: the map a loop `n[k] = f(v)` over `m` builds, whatever
order it visits `m` in, since no key comes twice. -/
def mapVal {μ : Type} (f : ν → μ) (m : GoMap κ ν) : GoMap κ μ :=
  ⟨m.entries.map fun e => (e.1, f e.2), by simpa [Function.comp_def] using m.keys_nodup⟩

/-- The orders in which `for k, v := range m` may visit the map: each entry once. -/
def IsOrder (m : GoMap κ ν) (order : List (κ × ν)) : Prop := order.Perm m.entries

theorem entries_nodup (m : GoMap κ ν) : m.entries.Nodup := m.keys_nodup.of_map _

theorem IsOrder.length_eq {m : GoMap κ ν} {order : List (κ × ν)} (h : m.IsOrder order) :
    order.length = m.len := List.Perm.length_eq h

theorem IsOrder.mem_iff {m : GoMap κ ν} {order : List (κ × ν)} (h : m.IsOrder order)
    {e : κ × ν} : e ∈ order ↔ e ∈ m.entries := List.Perm.mem_iff h

theorem isOrder_entries (m : GoMap κ ν) : m.IsOrder m.entries := List.Perm.refl _

theorem get?_eq_some_iff [DecidableEq κ] (m : GoMap κ ν) {k : κ} {v : ν} :
    m.get? k = some v ↔ (k, v) ∈ m.entries := by
  obtain ⟨l, hl⟩ := m
  unfold get?
  induction l with
  | nil => simp
  | cons e es ih =>
    obtain ⟨k', v'⟩ := e
    obtain ⟨hk', hes⟩ := List.nodup_cons.mp hl
    by_cases hk : k = k'
    · subst hk
      have : (k, v) ∉ es := fun h => hk' (List.mem_map.mpr ⟨_, h, rfl⟩)
      simp [this, eq_comm]
    · rw [List.lookup_cons, beq_false_of_ne hk]
      simp [hk, ih hes]

theorem get?_cons [DecidableEq κ] {k' : κ} {v : ν} {l : List (κ × ν)}
    (h : (((k', v) :: l).map Prod.fst).Nodup) (k : κ) :
    GoMap.get? ⟨(k', v) :: l, h⟩ k = if k = k' then some v else GoMap.get? ⟨l, h.of_cons⟩ k := by
  simp only [get?, List.lookup_cons]
  by_cases hk : k = k'
  · subst hk; simp
  · rw [beq_false_of_ne hk, if_neg hk]

theorem eq_of_mem [DecidableEq κ] (m : GoMap κ ν) {k : κ} {v v' : ν} (h : (k, v) ∈ m.entries)
    (h' : (k, v') ∈ m.entries) : v = v' :=
  Option.some.inj ((m.get?_eq_some_iff.mpr h).symm.trans (m.get?_eq_some_iff.mpr h'))

theorem get?_eq_none_iff [DecidableEq κ] (m : GoMap κ ν) {k : κ} :
    m.get? k = none ↔ ∀ v, (k, v) ∉ m.entries := by
  simp only [get?, List.lookup_eq_none_iff, bne_iff_ne, ne_eq]
  exact ⟨fun h v hv => h _ hv rfl, fun h e he hke => h e.2 (hke ▸ he)⟩

theorem get?_eq_none_iff_not_mem_keys [DecidableEq κ] (m : GoMap κ ν) {k : κ} :
    m.get? k = none ↔ k ∉ m.entries.map Prod.fst := by
  simp only [get?_eq_none_iff, List.mem_map, Prod.exists, exists_and_right, exists_eq_right,
    not_exists]

/-- `m[k] = v` for a key `k` that `m` does not hold yet. -/
def insertNew [DecidableEq κ] (m : GoMap κ ν) (k : κ) (v : ν) (h : m.get? k = none) : GoMap κ ν :=
  ⟨m.entries ++ [(k, v)], by
    rw [List.map_append, List.nodup_append]
    refine ⟨m.keys_nodup, List.nodup_singleton _, List.disjoint_singleton.mpr fun hk => ?_⟩
    obtain ⟨e, he, rfl⟩ := List.mem_map.mp hk
    exact (m.get?_eq_none_iff.mp h) e.2 he⟩

/-- `m[k] = v`: the value of `k` replaced when `m` holds it, a new entry otherwise. -/
def set [DecidableEq κ] (m : GoMap κ ν) (k : κ) (v : ν) : GoMap κ ν :=
  match h : m.get? k with
  | none => m.insertNew k v h
  | some _ => ⟨m.entries.map fun e => (e.1, if e.1 = k then v else e.2), by
    simpa [Function.comp_def] using m.keys_nodup⟩

@[simp]
theorem get?_empty [DecidableEq κ] (k : κ) : (empty : GoMap κ ν).get? k = none := rfl

theorem lookup_map_keyed [DecidableEq κ] {μ : Type} (g : κ → ν → μ) (l : List (κ × ν)) (k : κ) :
    (l.map fun e => (e.1, g e.1 e.2)).lookup k = (l.lookup k).map (g k) := by
  induction l with
  | nil => rfl
  | cons e es ih =>
    obtain ⟨k', v⟩ := e
    by_cases hk : k = k'
    · subst hk; simp
    · simp only [List.map_cons, List.lookup_cons, beq_false_of_ne hk, ih]

theorem get?_mapVal [DecidableEq κ] {μ : Type} (f : ν → μ) (m : GoMap κ ν) (k : κ) :
    (m.mapVal f).get? k = (m.get? k).map f :=
  lookup_map_keyed (fun _ => f) m.entries k

theorem get?_set [DecidableEq κ] (m : GoMap κ ν) (k k' : κ) (v : ν) :
    (m.set k v).get? k' = if k' = k then some v else m.get? k' := by
  unfold set
  split
  next h =>
    simp only [get?] at h
    by_cases hk : k' = k
    · subst hk; simp [get?, insertNew, List.lookup_append, h]
    · simp only [get?, insertNew, List.lookup_append, List.lookup_cons, beq_false_of_ne hk,
        List.lookup_nil, Option.or_none, if_neg hk]
  next w h =>
    simp only [get?] at h ⊢
    rw [lookup_map_keyed (fun a b => if a = k then v else b)]
    split_ifs with hk
    · subst hk; simp [h]
    · simp [hk]

theorem get?_foldl_set [DecidableEq κ] {μ : Type} (f : ν → μ) {order : List (κ × ν)}
    (hnd : (order.map Prod.fst).Nodup) (n : GoMap κ μ) (k : κ) :
    (order.foldl (fun n e => n.set e.1 (f e.2)) n).get? k =
      ((order.lookup k).map f).or (n.get? k) := by
  induction order generalizing n with
  | nil => simp
  | cons e es ih =>
    obtain ⟨k', v⟩ := e
    obtain ⟨hk', hes⟩ := List.nodup_cons.mp hnd
    rw [List.foldl_cons, ih hes, get?_set, List.lookup_cons]
    by_cases hk : k = k'
    · subst hk
      have hnone : es.lookup k = none := (get?_eq_none_iff_not_mem_keys ⟨es, hes⟩).mpr hk'
      simp [hnone]
    · simp [beq_false_of_ne hk, hk]

theorem IsOrder.keys_nodup {m : GoMap κ ν} {order : List (κ × ν)} (h : m.IsOrder order) :
    (order.map Prod.fst).Nodup :=
  (h.map Prod.fst).nodup_iff.mpr m.keys_nodup

theorem IsOrder.lookup_eq [DecidableEq κ] {m : GoMap κ ν} {order : List (κ × ν)}
    (h : m.IsOrder order) (k : κ) : order.lookup k = m.get? k :=
  Option.ext fun _ =>
    ((get?_eq_some_iff ⟨order, h.keys_nodup⟩).trans h.mem_iff).trans m.get?_eq_some_iff.symm

theorem perm_of_get?_eq [DecidableEq κ] {m n : GoMap κ ν} (h : ∀ k, m.get? k = n.get? k) :
    m.entries.Perm n.entries :=
  (List.perm_ext_iff_of_nodup m.entries_nodup n.entries_nodup).mpr fun ⟨k, v⟩ => by
    rw [← m.get?_eq_some_iff, h, n.get?_eq_some_iff]

theorem mem_mapVal {μ : Type} {f : ν → μ} {m : GoMap κ ν} {k : κ} {w : μ} :
    (k, w) ∈ (m.mapVal f).entries ↔ ∃ v, (k, v) ∈ m.entries ∧ f v = w := by
  simp only [mapVal, List.mem_map, Prod.mk.injEq, Prod.exists]
  exact ⟨fun ⟨a, b, h, ha, hb⟩ => ha ▸ ⟨b, h, hb⟩, fun ⟨v, h, hv⟩ => ⟨k, v, h, rfl, hv⟩⟩

end GoMap

end Reva
