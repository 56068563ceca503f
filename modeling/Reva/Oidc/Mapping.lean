import Reva.Oidc.Model

/-!
# Which account an external identity becomes

With a users mapping configured, `resolveUser` keeps the groups of the mappings of the claims'
issuer, intersects the group claim with them, and accepts exactly one group in the intersection,
whose mapping names the local account it looks up and installs. `Configure` stores each mapping
under its group and refuses a group given twice, naming the first one met again
(`configure_loads_users_mapping`), so over a group claim without repeats the
intersection has one group exactly when one mapping applies to the claims
(`resolveUser_maps_the_applicable_mapping`). `intersect.Simple` keeps repeats of the claim,
though, and a group claim that names the one applicable group twice is refused as "more than one"
mapping (`repeated_group_claim_denied`).
-/

namespace Reva

namespace Oidc

/-! ## The users mapping `Configure` accepts -/

/-- Every mapping of the users mapping is stored under its own group. -/
def KeyedByGroup (mapping : GoMap String UserMapping) : Prop :=
  ∀ g m, (g, m) ∈ mapping.entries → m.oidcGroup = g

theorem keyedByGroup_empty : KeyedByGroup .empty := fun _ _ h => absurd h (List.not_mem_nil _)

theorem KeyedByGroup.insertNew {mapping : GoMap String UserMapping} (h : KeyedByGroup mapping)
    (u : UserMapping) (hnew : mapping.get? u.oidcGroup = none) :
    KeyedByGroup (mapping.insertNew u.oidcGroup u hnew) := by
  intro g m hm
  rcases List.mem_append.mp hm with hm | hm
  · exact h g m hm
  · cases List.mem_singleton.mp hm
    rfl

theorem addMappings_keyed {users : List UserMapping} {acc mapping : GoMap String UserMapping}
    (hacc : KeyedByGroup acc) (h : addMappings users acc = .ok mapping) : KeyedByGroup mapping := by
  induction users generalizing acc with
  | nil =>
    cases h
    exact hacc
  | cons u us ih =>
    rw [addMappings] at h
    split at h
    · cases h
    · exact ih (hacc.insertNew u _) h

theorem configure_keyed {c0 c : Config} {file : Except FileError (List UserMapping)}
    {mapping : GoMap String UserMapping} (h : configure c0 file = .ok (c, mapping)) :
    KeyedByGroup mapping := by
  dsimp only [configure] at h
  split at h
  · exact (Prod.mk.inj (Except.ok.inj h)).2 ▸ keyedByGroup_empty
  · rcases file with (e | e) | users
    · cases h
    · cases h
    · cases hm : addMappings users .empty with
      | error e => simp [hm, Except.map] at h
      | ok mapping' =>
        simp only [hm, Except.map, Except.ok.injEq, Prod.mk.injEq] at h
        exact h.2 ▸ addMappings_keyed keyedByGroup_empty hm

/-! ## What `Configure` loads -/

section Load

variable {us : List UserMapping} {acc : GoMap String UserMapping}

theorem addMappings_of_nodup
    (h : ((acc.entries ++ us.map fun u => (u.oidcGroup, u)).map Prod.fst).Nodup) :
    ∃ mapping, addMappings us acc = .ok mapping ∧
      mapping.entries = acc.entries ++ us.map fun u => (u.oidcGroup, u) := by
  induction us generalizing acc with
  | nil => exact ⟨acc, rfl, by simp⟩
  | cons u us ih =>
    have hnew : acc.get? u.oidcGroup = none := by
      rw [acc.get?_eq_none_iff_not_mem_keys]
      simp only [List.map_append, List.map_cons, List.nodup_append] at h
      exact fun hg => h.2.2 hg (List.mem_cons_self _ _)
    rw [addMappings]
    split
    · next hv => exact absurd (hv.symm.trans hnew) nofun
    · next hv =>
      have h' : (((acc.insertNew u.oidcGroup u hv).entries ++
          us.map fun u => (u.oidcGroup, u)).map Prod.fst).Nodup := by
        simpa [GoMap.insertNew] using h
      obtain ⟨mapping, hm, he⟩ := ih h'
      exact ⟨mapping, hm, by simpa [GoMap.insertNew] using he⟩

/-- The loop fails at the first mapping whose group it has stored already, and names that
group. -/
theorem addMappings_eq_error {e : String} (h : addMappings us acc = .error e) :
    ∃ pre u post, us = pre ++ u :: post ∧
      ((acc.entries ++ pre.map fun u => (u.oidcGroup, u)).map Prod.fst).Nodup ∧
      u.oidcGroup ∈ (acc.entries ++ pre.map fun u => (u.oidcGroup, u)).map Prod.fst ∧
      e = "oidc: mapping error, group \"" ++ u.oidcGroup ++ "\" is mapped to multiple users" := by
  induction us generalizing acc with
  | nil => cases h
  | cons u us ih =>
    rw [addMappings] at h
    split at h
    · next m hm =>
      cases h
      refine ⟨[], u, us, rfl, by simpa using acc.keys_nodup, ?_, rfl⟩
      simpa using List.mem_map_of_mem Prod.fst ((acc.get?_eq_some_iff).mp hm)
    · next hv =>
      obtain ⟨pre, u', post, rfl, hnd, hmem, rfl⟩ := ih h
      refine ⟨u :: pre, u', post, rfl, ?_, ?_, rfl⟩
      · simpa [GoMap.insertNew] using hnd
      · simpa [GoMap.insertNew] using hmem

theorem nodup_of_addMappings {mapping : GoMap String UserMapping}
    (h : addMappings us acc = .ok mapping) :
    ((acc.entries ++ us.map fun u => (u.oidcGroup, u)).map Prod.fst).Nodup := by
  induction us generalizing acc with
  | nil => simpa using acc.keys_nodup
  | cons u us ih =>
    rw [addMappings] at h
    split at h
    · cases h
    · simpa [GoMap.insertNew] using ih h

end Load

/-! ## The intersection -/

/-- Mapping `m` applies to the claims: its issuer is the `iss` claim and its group is one of the
groups `G`. -/
def Applies (claims : Claims) (G : List String) (m : UserMapping) : Prop :=
  claims "iss" = .str m.oidcIssuer ∧ m.oidcGroup ∈ G

section Intersection

variable {mapping : GoMap String UserMapping} (hkey : KeyedByGroup mapping)
  {order : List (String × UserMapping)} (horder : mapping.IsOrder order) (claims : Claims)

include hkey horder in
theorem mem_issuerGroups (g : String) :
    g ∈ issuerGroups claims order ↔
      ∃ m, (g, m) ∈ mapping.entries ∧ claims "iss" = .str m.oidcIssuer := by
  simp only [issuerGroups, List.mem_filterMap, Option.ite_none_right_eq_some, Option.some.injEq]
  constructor
  · rintro ⟨⟨k, m⟩, he, hiss, rfl⟩
    have hm := horder.mem_iff.mp he
    exact ⟨m, hkey k m hm ▸ hm, hiss⟩
  · rintro ⟨m, hm, hiss⟩
    exact ⟨(g, m), horder.mem_iff.mpr hm, hiss, hkey g m hm⟩

theorem intersectSimple_strings (G b : List String) :
    intersectSimple (.list (G.map some)) b = .ok (G.filter fun g => g ∈ b) := by
  simp only [intersectSimple, List.filterMap_map, Function.comp_def, Option.filter,
    Except.ok.injEq]
  induction G with
  | nil => rfl
  | cons g G ih => by_cases h : g ∈ b <;> simp_all [List.filter_cons]

include hkey horder in
theorem mem_intersection (G : List String) (g : String) :
    g ∈ G.filter (fun g => g ∈ issuerGroups claims order) ↔
      ∃ m, (g, m) ∈ mapping.entries ∧ Applies claims G m := by
  simp only [List.mem_filter, decide_eq_true_eq, mem_issuerGroups hkey horder]
  constructor
  · rintro ⟨hg, m, hm, hiss⟩
    exact ⟨m, hm, hiss, (hkey g m hm).symm ▸ hg⟩
  · rintro ⟨m, hm, hiss, hg⟩
    exact ⟨hkey g m hm ▸ hg, m, hm, hiss⟩

theorem eq_singleton_iff_of_nodup {α : Type} {l : List α} (hl : l.Nodup) (a : α) :
    l = [a] ↔ ∀ b, b ∈ l ↔ b = a :=
  ⟨by rintro rfl; simp, fun h =>
    ((List.perm_ext_iff_of_nodup hl (List.nodup_singleton a)).mpr fun b => by simp [h b]).eq_singleton⟩

include hkey horder in
theorem intersection_eq_singleton_iff {G : List String} (hnd : G.Nodup) (m : UserMapping)
    (hm : (m.oidcGroup, m) ∈ mapping.entries) :
    G.filter (fun g => g ∈ issuerGroups claims order) = [m.oidcGroup] ↔
      Applies claims G m ∧
        ∀ m', (m'.oidcGroup, m') ∈ mapping.entries → Applies claims G m' → m' = m := by
  rw [eq_singleton_iff_of_nodup (hnd.filter _)]
  simp only [mem_intersection hkey horder claims]
  constructor
  · intro h
    obtain ⟨m0, hm0, happ⟩ := (h m.oidcGroup).mpr rfl
    refine ⟨mapping.eq_of_mem hm0 hm ▸ happ, fun m' hm' happ' => ?_⟩
    have hg := (h m'.oidcGroup).mp ⟨m', hm', happ'⟩
    exact mapping.eq_of_mem (hg ▸ hm') hm
  · rintro ⟨happ, huniq⟩ g
    constructor
    · rintro ⟨m', hm', happ'⟩
      rw [← hkey g m' hm', huniq m' (hkey g m' hm' ▸ hm') happ']
    · rintro rfl
      exact ⟨m, hm, happ⟩

/-! ## The username looked up -/

variable {c : Config} (hne : 0 < mapping.len) {G : List String}
  (hG : claims c.groupClaim = .list (G.map some)) (hnd : G.Nodup)

include hkey horder hne hG hnd in
/-- When one mapping applies, `resolveUser` looks up the username it names. -/
theorem lookupValue_of_unique (m : UserMapping) (hm : (m.oidcGroup, m) ∈ mapping.entries)
    (happ : Applies claims G m)
    (huniq : ∀ m', (m'.oidcGroup, m') ∈ mapping.entries → Applies claims G m' → m' = m)
    (uid gid : Int) (subject : String) :
    lookupValue c mapping order claims uid gid subject = .ok (some m.username) := by
  have hI := (intersection_eq_singleton_iff hkey horder claims hnd m hm).mpr ⟨happ, huniq⟩
  simp [lookupValue, hne, hG, intersectSimple_strings, hI, mapping.get?_eq_some_iff.mpr hm]

include hkey horder hne hG hnd in
theorem lookupValue_of_not_unique
    (hnot : ¬ ∃! m, (m.oidcGroup, m) ∈ mapping.entries ∧ Applies claims G m)
    (uid gid : Int) (subject : String) :
    ∃ msg, lookupValue c mapping order claims uid gid subject = .error (.permissionDenied msg) := by
  have hlen : (G.filter fun g => g ∈ issuerGroups claims order).length ≠ 1 := by
    intro h1
    obtain ⟨g, hg⟩ := List.length_eq_one.mp h1
    obtain ⟨m, hm, happ⟩ :=
      (mem_intersection hkey horder claims G g).mp (hg ▸ List.mem_singleton_self g)
    obtain rfl := hkey g m hm
    exact hnot ⟨m, ⟨hm, happ⟩, fun m' h' =>
      ((intersection_eq_singleton_iff hkey horder claims hnd m hm).mp hg).2 m' h'.1 h'.2⟩
  rcases Nat.lt_or_gt_of_ne hlen with h0 | h2
  · exact ⟨"no user mapping found for the given group claim(s)",
      by simp [lookupValue, hne, hG, intersectSimple_strings, Nat.lt_one_iff.mp h0]⟩
  · exact ⟨"more than one user mapping entry exists for the given group claims",
      by simp [lookupValue, hne, hG, intersectSimple_strings, h2]⟩

end Intersection

/-- Over a users mapping that `Configure` accepted and a group claim that lists groups without
repeats: when exactly one mapping applies to the claims, `resolveUser` looks up the account it
names and installs the claims of the user the gateway returns; when none or more than one
applies, it refuses with `PermissionDenied`. The claims are those `resolveUser` reads, after it
stored numeric uid and gid claims. -/
theorem resolveUser_maps_the_applicable_mapping {c0 c : Config}
    {file : Except FileError (List UserMapping)} {mapping : GoMap String UserMapping}
    (hconf : configure c0 file = .ok (c, mapping)) (hne : 0 < mapping.len)
    (order : List (String × UserMapping)) (horder : mapping.IsOrder order) (gw : Gateway)
    (claims : Claims) (subject : String) (G : List String)
    (hG : withNumericIds c claims c.groupClaim = .list (G.map some)) (hnd : G.Nodup) :
    (∀ m, (m.oidcGroup, m) ∈ mapping.entries → Applies (withNumericIds c claims) G m →
      (∀ m', (m'.oidcGroup, m') ∈ mapping.entries → Applies (withNumericIds c claims) G m' →
        m' = m) →
      ∀ u, gw.clientError = none → gw.getUserByClaim m.username = .ok (codeOK, some u) →
        resolveUser c mapping order gw claims subject = installUser c (withNumericIds c claims) u) ∧
    ((¬ ∃! m, (m.oidcGroup, m) ∈ mapping.entries ∧ Applies (withNumericIds c claims) G m) →
      ∃ msg, (resolveUser c mapping order gw claims subject).1 = .error (.permissionDenied msg)) := by
  have hkey := configure_keyed hconf
  refine ⟨fun m hm happ huniq u hcl hu => ?_, fun hnot => ?_⟩
  · simp [resolveUser, getUserID,
      lookupValue_of_unique hkey horder _ hne hG hnd m hm happ huniq, hcl, hu]
  · obtain ⟨msg, h⟩ := lookupValue_of_not_unique hkey horder _ hne hG hnd hnot
      (claims c.uidClaim).truncOrZero (claims c.gidClaim).truncOrZero subject
    exact ⟨msg, by simp [resolveUser, getUserID, h]⟩

/-! ## A users mapping with one group -/

/-- A configuration with the default claim names and a users mapping file. -/
def mappedConfig : Config := ⟨"https://idp.example", "", "", "", "/etc/revad/users.json", ""⟩

def aliceMapping : UserMapping := ⟨"https://idp.example", "g", "alice"⟩

/-- The users mapping `Configure` builds from a file holding `aliceMapping` alone. -/
def oneMapping : GoMap String UserMapping := ⟨[("g", aliceMapping)], by decide⟩

/-- A gateway that finds every username and gives no groups. -/
def answeringGateway : Gateway where
  clientError := none
  getUserByClaim v := .ok (codeOK, some ⟨v, some (v, "https://idp.example"), 1000, 1000⟩)
  getUserGroups _ := .ok (codeOK, [])

/-- Claims of the example issuer with the groups `G`. -/
def groupClaims (G : List String) : Claims := fun k =>
  if k = "groups" then .list (G.map some)
  else if k = "iss" then .str "https://idp.example"
  else .null

theorem one_mapping_resolves_alice :
    (∀ m, (m.oidcGroup, m) ∈ oneMapping.entries →
      Applies (withNumericIds mappedConfig.init (groupClaims ["g"])) ["g"] m →
      (∀ m', (m'.oidcGroup, m') ∈ oneMapping.entries →
        Applies (withNumericIds mappedConfig.init (groupClaims ["g"])) ["g"] m' → m' = m) →
      ∀ u, answeringGateway.clientError = none →
        answeringGateway.getUserByClaim m.username = .ok (codeOK, some u) →
        resolveUser mappedConfig.init oneMapping oneMapping.entries answeringGateway
            (groupClaims ["g"]) "s" =
          installUser mappedConfig.init (withNumericIds mappedConfig.init (groupClaims ["g"])) u) ∧
    ((¬ ∃! m, (m.oidcGroup, m) ∈ oneMapping.entries ∧
        Applies (withNumericIds mappedConfig.init (groupClaims ["g"])) ["g"] m) →
      ∃ msg, (resolveUser mappedConfig.init oneMapping oneMapping.entries answeringGateway
        (groupClaims ["g"]) "s").1 = .error (.permissionDenied msg)) :=
  resolveUser_maps_the_applicable_mapping
    (show configure mappedConfig (.ok [aliceMapping]) = .ok (mappedConfig.init, oneMapping) from rfl)
    (by decide) _ (List.Perm.refl _) _ _ _ ["g"] rfl (by decide)

/-- Exactly one mapping applies to claims whose group claim names its group twice, and
`resolveUser` refuses them as matching more than one mapping. -/
theorem repeated_group_claim_denied :
    configure mappedConfig (.ok [aliceMapping]) = .ok (mappedConfig.init, oneMapping) ∧
    (∃! m, (m.oidcGroup, m) ∈ oneMapping.entries ∧
      Applies (withNumericIds mappedConfig.init (groupClaims ["g", "g"])) ["g", "g"] m) ∧
    (resolveUser mappedConfig.init oneMapping oneMapping.entries answeringGateway
        (groupClaims ["g", "g"]) "s").1 =
      .error (.permissionDenied "more than one user mapping entry exists for the given group claims") :=
  ⟨rfl, ⟨aliceMapping, ⟨List.mem_singleton_self _, rfl, by decide⟩,
    fun m' h => congrArg Prod.snd (List.mem_singleton.mp h.1)⟩, rfl⟩

/-- `Configure`, over a users mapping file it reads and decodes, accepts the mappings exactly when
no group comes twice. It then stores each under its group, in order; otherwise it fails, naming
the first group met a second time. -/
theorem configure_loads_users_mapping (c : Config) (users : List UserMapping)
    (h : c.init.usersMapping ≠ "") :
    ((users.map UserMapping.oidcGroup).Nodup →
      ∃ mapping, configure c (.ok users) = .ok (c.init, mapping) ∧
        mapping.entries = users.map fun u => (u.oidcGroup, u)) ∧
    (¬ (users.map UserMapping.oidcGroup).Nodup →
      ∃ pre u post, users = pre ++ u :: post ∧ (pre.map UserMapping.oidcGroup).Nodup ∧
        u.oidcGroup ∈ pre.map UserMapping.oidcGroup ∧
        configure c (.ok users) = .error
          ("oidc: mapping error, group \"" ++ u.oidcGroup ++ "\" is mapped to multiple users")) := by
  have hconf : configure c (.ok users) =
      (addMappings users .empty).map fun mapping => (c.init, mapping) := by
    simp [configure, h]
  have hgroups : ((GoMap.empty : GoMap String UserMapping).entries ++
      users.map fun u => (u.oidcGroup, u)).map Prod.fst = users.map UserMapping.oidcGroup := by
    simp [GoMap.empty, Function.comp_def]
  refine ⟨fun hnd => ?_, fun hdup => ?_⟩
  · obtain ⟨mapping, hm, hentries⟩ := addMappings_of_nodup (hgroups ▸ hnd)
    exact ⟨mapping, by rw [hconf, hm]; rfl, by simpa [GoMap.empty] using hentries⟩
  · cases hm : addMappings users .empty with
    | ok _ => exact absurd (hgroups ▸ nodup_of_addMappings hm) hdup
    | error e =>
      obtain ⟨pre, u, post, rfl, hnd, hmem, rfl⟩ := addMappings_eq_error hm
      exact ⟨pre, u, post, rfl, by simpa [GoMap.empty, Function.comp_def] using hnd,
        by simpa [GoMap.empty] using hmem, by rw [hconf, hm]; rfl⟩

theorem alice_mapping_loaded :
    (([aliceMapping].map UserMapping.oidcGroup).Nodup →
      ∃ mapping, configure mappedConfig (.ok [aliceMapping]) = .ok (mappedConfig.init, mapping) ∧
        mapping.entries = [aliceMapping].map fun u => (u.oidcGroup, u)) ∧
    (¬ ([aliceMapping].map UserMapping.oidcGroup).Nodup →
      ∃ pre u post, [aliceMapping] = pre ++ u :: post ∧ (pre.map UserMapping.oidcGroup).Nodup ∧
        u.oidcGroup ∈ pre.map UserMapping.oidcGroup ∧
        configure mappedConfig (.ok [aliceMapping]) = .error
          ("oidc: mapping error, group \"" ++ u.oidcGroup ++ "\" is mapped to multiple users")) :=
  configure_loads_users_mapping mappedConfig [aliceMapping] (by decide)

end Oidc

end Reva
