import Mathlib.Data.List.Basic
import Mathlib.Data.List.DropRight
import Mathlib.Data.List.Infix

/-!
# URL prefixes of the HTTP layer

`rhttp/utils` decides whether a request path lies under a prefix by comparing the `/`-separated
parts of both, after `cleanURL` has given each a leading slash and taken its trailing slashes off,
and `GetSubURL` cuts the cleaned prefix off the cleaned path. Strings are Go strings: lists of
bytes, so that `len` and slicing count bytes as Go does.

The part-wise test is a byte-wise one: the prefix's parts begin the path's parts exactly when
the cleaned path is the cleaned prefix followed by nothing or by a slash
(`urlHasPrefix_iff_slash_boundary`), and then `GetSubURL` slices in range and returns that rest.
The facts about `splitOn` behind it hold for every list and separator.
-/

namespace Reva

/-- A Go string: its bytes. -/
abbrev GoString := List UInt8

def slash : UInt8 := 47

def ascii (s : String) : GoString := s.data.map fun c => c.toNat.toUInt8

def trimRightSlash (s : GoString) : GoString := s.rdropWhile (· == slash)

/-- `cleanURL`: a leading slash put in front when missing, and trailing slashes removed; the
empty string stays empty, and `/` becomes empty. -/
def cleanURL (url : GoString) : GoString :=
  match url with
  | [] => []
  | c :: _ => trimRightSlash (if c ≠ slash then slash :: url else url)

def splitSlash (s : GoString) : List GoString := s.splitOn slash

/-- `UrlHasPrefix`. The loop compares each part of the prefix with the part of the url at its
index; the length test before it keeps that index in range. -/
def urlHasPrefix (url pre : GoString) : Bool :=
  let partsURL := splitSlash (cleanURL url)
  let partsPrefix := splitSlash (cleanURL pre)
  if partsPrefix.length > partsURL.length then false
  else (partsPrefix.zip partsURL).all fun (p, u) => p == u

/-- `GetSubURL`: `url[len(prefix):]` of the cleaned strings, or `none` where that slice is out of
range and Go panics. -/
def getSubURL (url pre : GoString) : Option GoString :=
  let url := cleanURL url
  let pre := cleanURL pre
  if pre.length ≤ url.length then some (url.drop pre.length) else none

example : cleanURL (ascii "api/v0//") = ascii "/api/v0" := by decide

example : cleanURL (ascii "///") = [] := by decide

/-! ## Splitting at a separator -/

section Split

variable {α : Type} (sep : α)

theorem intercalate_append {l₁ l₂ : List (List α)} (h₁ : l₁ ≠ []) (h₂ : l₂ ≠ []) :
    [sep].intercalate (l₁ ++ l₂) = [sep].intercalate l₁ ++ sep :: [sep].intercalate l₂ := by
  induction l₁ with
  | nil => exact absurd rfl h₁
  | cons a l ih =>
    obtain ⟨b, bs, rfl⟩ := List.exists_cons_of_ne_nil h₂
    cases l with
    | nil => simp [List.intercalate]
    | cons c l =>
      have := ih (List.cons_ne_nil c l)
      simp only [List.intercalate, List.cons_append, List.intersperse_cons_cons,
        List.flatten_cons] at this ⊢
      rw [this]
      simp

variable [DecidableEq α]

theorem splitOn_append_sep (xs ys : List α) :
    (xs ++ sep :: ys).splitOn sep = xs.splitOn sep ++ ys.splitOn sep := by
  simp only [List.splitOn]
  induction xs with
  | nil => simp [List.splitOnP_cons]
  | cons x xs ih =>
    rw [List.cons_append, List.splitOnP_cons, List.splitOnP_cons, ih]
    split
    · rfl
    · obtain ⟨h, t, e⟩ := List.exists_cons_of_ne_nil (List.splitOnP_ne_nil (· == sep) xs)
      rw [e]
      rfl

theorem splitOn_prefix_iff (p u : List α) :
    p.splitOn sep <+: u.splitOn sep ↔ ∃ s, u = p ++ s ∧ (s = [] ∨ s.head? = some sep) := by
  constructor
  · rintro ⟨rest, hrest⟩
    have hu : u = [sep].intercalate (p.splitOn sep ++ rest) := by
      rw [hrest, List.intercalate_splitOn]
    cases rest with
    | nil => exact ⟨[], by simpa [List.intercalate_splitOn] using hu, .inl rfl⟩
    | cons r rs =>
      refine ⟨sep :: [sep].intercalate (r :: rs), ?_, .inr rfl⟩
      have hp : p.splitOn sep ≠ [] := List.splitOnP_ne_nil _ p
      rw [hu, intercalate_append sep hp (List.cons_ne_nil r rs), List.intercalate_splitOn]
  · rintro ⟨s, rfl, rfl | hs⟩
    · simp
    · obtain ⟨t, rfl⟩ : ∃ t, s = sep :: t := by
        cases s with
        | nil => cases hs
        | cons c t => cases hs; exact ⟨t, rfl⟩
      rw [splitOn_append_sep]
      exact List.prefix_append _ _

end Split

theorem zip_all_eq_iff_begins {β : Type} [BEq β] [LawfulBEq β] (pp pu : List β) :
    (if pp.length > pu.length then false else (pp.zip pu).all fun (p, u) => p == u) = true ↔
      pp <+: pu := by
  induction pp generalizing pu with
  | nil => simp
  | cons p ps ih =>
    cases pu with
    | nil => simp
    | cons u us =>
      have := ih us
      simp only [List.length_cons, gt_iff_lt, Nat.add_lt_add_iff_right, List.zip_cons_cons,
        List.all_cons, List.cons_prefix_cons] at this ⊢
      split <;> simp_all

theorem urlHasPrefix_iff (url pre : GoString) :
    urlHasPrefix url pre = true ↔
      ∃ s, cleanURL url = cleanURL pre ++ s ∧ (s = [] ∨ s.head? = some slash) :=
  (zip_all_eq_iff_begins _ _).trans (splitOn_prefix_iff slash _ _)

theorem getSubURL_of_eq {url pre s : GoString} (hs : cleanURL url = cleanURL pre ++ s) :
    getSubURL url pre = some s := by
  simp [getSubURL, hs]

/-- For all strings: `UrlHasPrefix(url, prefix)` holds exactly when the cleaned url is the cleaned
prefix followed by nothing or by a slash, and `GetSubURL` then slices in range and returns that
rest. -/
theorem urlHasPrefix_iff_slash_boundary (url pre : GoString) :
    (urlHasPrefix url pre = true ↔
      ∃ s, cleanURL url = cleanURL pre ++ s ∧ (s = [] ∨ s.head? = some slash)) ∧
    ∀ s, cleanURL url = cleanURL pre ++ s → getSubURL url pre = some s :=
  ⟨urlHasPrefix_iff url pre, fun _ => getSubURL_of_eq⟩

theorem cleanURL_eq_nil_or_head (url : GoString) :
    cleanURL url = [] ∨ (cleanURL url).head? = some slash := by
  cases url with
  | nil => exact .inl rfl
  | cons c cs =>
    obtain ⟨t, ht⟩ : ∃ t, (if c ≠ slash then slash :: c :: cs else c :: cs) = slash :: t := by
      split
      · exact ⟨_, rfl⟩
      · rename_i h
        exact ⟨cs, by rw [not_not.mp h]⟩
    have hp : cleanURL (c :: cs) <+: slash :: t := by
      rw [← ht]
      exact List.rdropWhile_prefix _ _
    rcases List.prefix_cons_iff.mp hp with h | ⟨t', h, -⟩
    · exact .inl h
    · exact .inr (by rw [h]; rfl)

theorem urlHasPrefix_self (url : GoString) : urlHasPrefix url url = true :=
  (urlHasPrefix_iff url url).mpr ⟨[], by simp, .inl rfl⟩

theorem urlHasPrefix_nil (url : GoString) : urlHasPrefix url [] = true :=
  (urlHasPrefix_iff url []).mpr ⟨cleanURL url, rfl, cleanURL_eq_nil_or_head url⟩

/-! ## The order of prefixes -/

section Order

variable {u p q : GoString}

theorem boundary_append {s t : GoString} (hs : s = [] ∨ s.head? = some slash)
    (ht : t = [] ∨ t.head? = some slash) : s ++ t = [] ∨ (s ++ t).head? = some slash := by
  cases s with
  | nil => exact ht
  | cons x s => exact .inr (by simpa using hs)

theorem boundary_left {s t : GoString} (h : s ++ t = [] ∨ (s ++ t).head? = some slash) :
    s = [] ∨ s.head? = some slash := by
  cases s with
  | nil => exact .inl rfl
  | cons x s => exact .inr (by simpa using h)

theorem urlHasPrefix_trans (hup : urlHasPrefix u p = true) (hpq : urlHasPrefix p q = true) :
    urlHasPrefix u q = true := by
  obtain ⟨s, hs, hs'⟩ := (urlHasPrefix_iff u p).mp hup
  obtain ⟨t, ht, ht'⟩ := (urlHasPrefix_iff p q).mp hpq
  exact (urlHasPrefix_iff u q).mpr ⟨t ++ s, by rw [hs, ht, List.append_assoc],
    boundary_append ht' hs'⟩

theorem urlHasPrefix_total (hp : urlHasPrefix u p = true) (hq : urlHasPrefix u q = true) :
    urlHasPrefix p q = true ∨ urlHasPrefix q p = true := by
  obtain ⟨s, hs, hs'⟩ := (urlHasPrefix_iff u p).mp hp
  obtain ⟨t, ht, ht'⟩ := (urlHasPrefix_iff u q).mp hq
  rcases List.append_eq_append_iff.mp (hs.symm.trans ht) with ⟨a, hqa, rfl⟩ | ⟨a, hpa, rfl⟩
  · exact .inr ((urlHasPrefix_iff q p).mpr ⟨a, hqa, boundary_left hs'⟩)
  · exact .inl ((urlHasPrefix_iff p q).mpr ⟨a, hpa, boundary_left ht'⟩)

theorem cleanURL_eq_of_urlHasPrefix (h : urlHasPrefix u p = true)
    (hl : (cleanURL u).length ≤ (cleanURL p).length) : cleanURL u = cleanURL p := by
  obtain ⟨s, hs, -⟩ := (urlHasPrefix_iff u p).mp h
  rw [hs, List.length_append] at hl
  rw [hs, List.eq_nil_of_length_eq_zero (by omega : s.length = 0), List.append_nil]

end Order

/-- `UrlHasPrefix` is reflexive and transitive, and the prefixes a url lies under are ordered by
it: of two, one lies under the other. -/
theorem urlHasPrefix_orders_prefixes (u p q : GoString) :
    urlHasPrefix u u = true ∧
      (urlHasPrefix u p = true → urlHasPrefix p q = true → urlHasPrefix u q = true) ∧
      (urlHasPrefix u p = true → urlHasPrefix u q = true →
        urlHasPrefix p q = true ∨ urlHasPrefix q p = true) :=
  ⟨urlHasPrefix_self u, urlHasPrefix_trans, urlHasPrefix_total⟩

end Reva
