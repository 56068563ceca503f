import Reva.GoMap

/-!
# The static auth registry

The static registry maps each auth type to the address of its provider. `ListProviders` builds
its answer with `make([]*ProviderInfo, len(rules))` and then appends one `ProviderInfo` per rule,
so the list starts with as many nil pointers as there are rules and holds each rule once after
them, in the order the map loop visits them (`listProviders_prepends_nil_entries`).
`GetProvider` answers a type with its rule or a `NotFound` naming it.
-/

namespace Reva

namespace AuthRegistry

structure ProviderInfo where
  providerType : String
  address : String
  deriving DecidableEq, Repr

/-- `config.init`: a configuration without rules gets one rule, `basic`, to the gateway (the
address `sharedconf.GetGatewaySVC("")` gives). -/
def initRules (gatewaySVC : String) (rules : GoMap String String) : GoMap String String :=
  if rules.len = 0 then ⟨[("basic", gatewaySVC)], by simp⟩ else rules

/-- `reg.ListProviders`, with the map loop visiting the rules in `order`. A `none` is a nil
pointer. -/
def listProviders (rules : GoMap String String) (order : List (String × String)) :
    List (Option ProviderInfo) :=
  order.foldl (fun providers (k, v) => providers ++ [some ⟨k, v⟩])
    (List.replicate rules.len none)

/-- `reg.GetProvider`; an error is the text of its `NotFound`. -/
def getProvider (rules : GoMap String String) (authType : String) : Except String ProviderInfo :=
  match rules.get? authType with
  | some address => .ok ⟨authType, address⟩
  | none => .error ("static: auth type not found: " ++ authType)

theorem foldl_append_some {acc : List (Option ProviderInfo)} {order : List (String × String)} :
    order.foldl (fun providers (k, v) => providers ++ [some ⟨k, v⟩]) acc =
      acc ++ order.map fun e => some ⟨e.1, e.2⟩ := by
  induction order generalizing acc with
  | nil => simp
  | cons e es ih => simp [ih]

theorem listProviders_eq (rules : GoMap String String) (order : List (String × String)) :
    listProviders rules order =
      List.replicate rules.len none ++ order.map fun e => some ⟨e.1, e.2⟩ :=
  foldl_append_some

/-- For every rules map and every order of its loop, `ListProviders` returns twice as many entries
as there are rules: first as many nil pointers as rules, then one `ProviderInfo{k, v}` for each rule
`(k, v)` and nothing else. -/
theorem listProviders_prepends_nil_entries (rules : GoMap String String)
    (order : List (String × String)) (horder : rules.IsOrder order) :
    (listProviders rules order).length = 2 * rules.len ∧
      (listProviders rules order).take rules.len = List.replicate rules.len none ∧
      ((listProviders rules order).drop rules.len).Perm
        (rules.entries.map fun e => some ⟨e.1, e.2⟩) := by
  rw [listProviders_eq]
  refine ⟨by simp [horder.length_eq]; omega, by simp, ?_⟩
  rw [List.drop_left' (List.length_replicate _ _)]
  exact List.Perm.map _ horder

/-- The rules `config.init` installs when none are configured. -/
theorem default_rules_list_nil_first :
    (listProviders (initRules "localhost:19000" ⟨[], List.nodup_nil⟩)
        [("basic", "localhost:19000")]).length = 2 * 1 ∧
      (listProviders (initRules "localhost:19000" ⟨[], List.nodup_nil⟩)
        [("basic", "localhost:19000")]).take 1 = [none] ∧
      ((listProviders (initRules "localhost:19000" ⟨[], List.nodup_nil⟩)
        [("basic", "localhost:19000")]).drop 1).Perm [some ⟨"basic", "localhost:19000"⟩] :=
  listProviders_prepends_nil_entries _ _ (List.Perm.refl _)

example :
    listProviders (initRules "localhost:19000" ⟨[], List.nodup_nil⟩) [("basic", "localhost:19000")] =
      [none, some ⟨"basic", "localhost:19000"⟩] := by
  decide

/-- `GetProvider` returns the rule of an auth type when the map has one, and otherwise a `NotFound`
that names the type. -/
theorem getProvider_answers_rule (rules : GoMap String String) (authType : String) :
    (∀ info, getProvider rules authType = .ok info ↔
      info.providerType = authType ∧ (authType, info.address) ∈ rules.entries) ∧
    (∀ msg, getProvider rules authType = .error msg ↔
      msg = "static: auth type not found: " ++ authType ∧ ∀ a, (authType, a) ∉ rules.entries) := by
  unfold getProvider
  cases h : rules.get? authType with
  | none =>
    have hnone := (rules.get?_eq_none_iff).mp h
    exact ⟨fun info => by simp [hnone], fun msg => by simp [hnone, eq_comm]⟩
  | some a =>
    have hmem := (rules.get?_eq_some_iff).mp h
    refine ⟨fun ⟨t, a'⟩ => ?_, fun msg => by simp; exact fun _ => ⟨a, hmem⟩⟩
    simp only [Except.ok.injEq, ProviderInfo.mk.injEq]
    constructor
    · rintro ⟨rfl, rfl⟩
      exact ⟨rfl, hmem⟩
    · rintro ⟨rfl, ha⟩
      exact ⟨rfl, Option.some.inj (h.symm.trans ((rules.get?_eq_some_iff).mpr ha))⟩

end AuthRegistry

end Reva
