import Reva.Oidc.Mapping
import Reva.Url

/-!
# Panics of `Authenticate`

`Authenticate` checks only that the `name` and `email` claims are present before it asserts the
types of the claims it reads and indexes the second part of the mail split at `@`. Userinfo
claims of another type, or a guest or federated account whose mail has no `@`, make it panic
instead of returning a user or an error (`authenticate_panics_on_claims`).

It returns a user or an error whenever the claims have the types it asserts, the mail has an `@`,
the configured claim names keep apart where the manager's writes would change a type, and the
gateway's successful lookups carry a user with an id (`authenticate_never_panics_on_typed_claims`).
The proof follows the claims map through the defaults, the writes of `resolveUser` and the reads
of `buildUser`.
-/

namespace Reva

namespace Oidc

/-! ## Reads after writes -/

namespace Claims

variable {claims : Claims} {k k' : String} {v : Claim} {α : Type} {mk : α → Claim}

theorem setIfNil_other (h : k' ≠ k) : claims.setIfNil k v k' = claims k' := by
  unfold setIfNil
  split
  · exact set_other _ _ h
  · rfl

theorem setIfNil_keeps (h : ∃ a, claims k' = mk a) (hmk : ∀ a, mk a ≠ .null) :
    ∃ a, claims.setIfNil k v k' = mk a := by
  unfold setIfNil
  split
  · rename_i hk
    rw [set_other]
    · exact h
    · rintro rfl
      obtain ⟨a, ha⟩ := h
      exact hmk a (ha.symm.trans hk)
  · exact h

theorem setIfNil_fills (h : claims k = .null ∨ ∃ a, claims k = mk a) (hv : ∃ a, v = mk a) :
    ∃ a, claims.setIfNil k v k = mk a := by
  unfold setIfNil
  split
  · rwa [set_same]
  · exact h.resolve_left ‹_›

theorem set_keeps (h : ∃ a, claims k' = mk a) (hv : ∃ a, v = mk a) :
    ∃ a, claims.set k v k' = mk a := by
  by_cases hk : k' = k
  · rwa [hk, set_same]
  · rwa [set_other _ _ hk]

end Claims

@[simp] theorem Claim.asString_str (s : String) : (Claim.str s).asString = pure s := rfl

@[simp] theorem Claim.asBool_bool (b : Bool) : (Claim.bool b).asBool = pure b := rfl

@[simp] theorem Claim.asInt64_int (n : Int) : (Claim.int n).asInt64 = pure n := rfl

/-! ## Types of the claims -/

/-- The claims `buildUser` asserts to be strings or a bool. -/
def Config.userClaims (c : Config) : List String :=
  [c.idClaim, "iss", "preferred_username", "email", "email_verified", "name"]

/-- The claim names keep apart where the writes of `Authenticate` and `resolveUser` would change a
type: the uid and gid claims are none of the other claims read, the group claim is none of the
claims `Authenticate` fills in, and the id claim is neither `email` nor `email_verified`. -/
structure Config.Separate (c : Config) : Prop where
  uid : c.uidClaim ∉ c.groupClaim :: c.userClaims
  gid : c.gidClaim ∉ c.groupClaim :: c.userClaims
  group : c.groupClaim ∉ ["iss", "email_verified", "preferred_username", "name"]
  id : c.idClaim ∉ ["email", "email_verified"]

/-- The userinfo claims have the types `Authenticate` asserts where they are present, the id is a
string, and the email has an `@` once a `guest: ` prefix is taken off. -/
structure WellTyped (c : Config) (claims : Claims) : Prop where
  id : ∃ s, claims c.idClaim = .str s
  iss : claims "iss" = .null ∨ ∃ s, claims "iss" = .str s
  preferredUsername :
    claims "preferred_username" = .null ∨ ∃ s, claims "preferred_username" = .str s
  email : ∃ e, claims "email" = .str e ∧ '@' ∈ replaceFirst e.data "guest: ".data []
  emailVerified : claims "email_verified" = .null ∨ ∃ b, claims "email_verified" = .bool b
  name : claims "name" = .null ∨ ∃ s, claims "name" = .str s

/-- The claims after the defaults: every claim `buildUser` asserts but the uid and gid has its
type. -/
structure Filled (c : Config) (claims : Claims) : Prop where
  id : ∃ s, claims c.idClaim = .str s
  iss : ∃ s, claims "iss" = .str s
  preferredUsername : ∃ s, claims "preferred_username" = .str s
  email : ∃ e, claims "email" = .str e ∧ '@' ∈ replaceFirst e.data "guest: ".data []
  emailVerified : ∃ b, claims "email_verified" = .bool b
  name : ∃ s, claims "name" = .str s

/-- Every claim `buildUser` asserts has its type. -/
structure Typed (c : Config) (claims : Claims) extends Filled c claims : Prop where
  uid : ∃ n, claims c.uidClaim = .int n
  gid : ∃ n, claims c.gidClaim = .int n

section Typing

variable {c : Config} {claims claims' : Claims}

theorem Filled.congr (h : Filled c claims) (heq : ∀ k ∈ c.userClaims, claims' k = claims k) :
    Filled c claims' := by
  simp only [Config.userClaims, List.forall_mem_cons, List.forall_mem_nil] at heq
  obtain ⟨e1, e2, e3, e4, e5, e6, -⟩ := heq
  exact ⟨e1 ▸ h.id, e2 ▸ h.iss, e3 ▸ h.preferredUsername, e4 ▸ h.email, e5 ▸ h.emailVerified,
    e6 ▸ h.name⟩

theorem fillDefaults_other {k : String}
    (hk : k ∉ ["iss", "email_verified", "preferred_username", "name"]) :
    fillDefaults c claims k = claims k := by
  simp only [List.mem_cons, List.mem_singleton, not_or] at hk
  simp [fillDefaults, Claims.setIfNil_other, hk]

open Claims in
theorem fillDefaults_filled (hw : WellTyped c claims) : Filled c (fillDefaults c claims) := by
  have str : ∀ s, Claim.str s ≠ .null := nofun
  have bool : ∀ b, Claim.bool b ≠ .null := nofun
  refine ⟨?id, ?iss, ?pu, ?email, ?ev, ?name⟩
  case id =>
    iterate 5 apply setIfNil_keeps ?_ str
    exact hw.id
  case iss =>
    iterate 4 apply setIfNil_keeps ?_ str
    exact setIfNil_fills hw.iss ⟨_, rfl⟩
  case ev =>
    iterate 3 apply setIfNil_keeps ?_ bool
    apply setIfNil_fills _ ⟨_, rfl⟩
    rw [setIfNil_other (by decide)]
    exact hw.emailVerified
  case pu =>
    iterate 2 apply setIfNil_keeps ?_ str
    apply setIfNil_fills
    · rw [setIfNil_other (by decide), setIfNil_other (by decide)]
      exact hw.preferredUsername
    · iterate 2 apply setIfNil_keeps ?_ str
      exact hw.id
  case name =>
    apply setIfNil_fills
    · iterate 4 rw [setIfNil_other (by decide)]
      exact hw.name
    · iterate 4 apply setIfNil_keeps ?_ str
      exact hw.id
  case email =>
    obtain ⟨e, he, hat⟩ := hw.email
    exact ⟨e, (fillDefaults_other (by decide)).trans he, hat⟩

theorem Filled.set_outside (h : Filled c claims) {k : String} (hk : k ∉ c.userClaims) (v : Claim) :
    Filled c (claims.set k v) :=
  h.congr fun _ hk' => Claims.set_other _ _ fun he => hk (he ▸ hk')

open Claims in
theorem Filled.set_str (h : Filled c claims) {k : String} (hk : k ∉ ["email", "email_verified"])
    (s : String) : Filled c (claims.set k (.str s)) := by
  simp only [List.mem_cons, List.mem_singleton, not_or] at hk
  obtain ⟨e, he, hat⟩ := h.email
  exact ⟨set_keeps h.id ⟨_, rfl⟩, set_keeps h.iss ⟨_, rfl⟩, set_keeps h.preferredUsername ⟨_, rfl⟩,
    ⟨e, (set_other _ _ (Ne.symm hk.1)).trans he, hat⟩,
    (set_other _ _ (Ne.symm hk.2.1)).symm ▸ h.emailVerified, set_keeps h.name ⟨_, rfl⟩⟩

theorem Filled.set_ids (h : Filled c claims) (hsep : c.Separate) (uid gid : Int) :
    Typed c ((claims.set c.uidClaim (.int uid)).set c.gidClaim (.int gid)) :=
  ⟨(h.set_outside (fun hk => hsep.uid (List.mem_cons_of_mem _ hk)) _).set_outside
      (fun hk => hsep.gid (List.mem_cons_of_mem _ hk)) _,
    Claims.set_keeps ⟨_, Claims.set_same _ _ _⟩ ⟨_, rfl⟩, ⟨_, Claims.set_same _ _ _⟩⟩

theorem withNumericIds_other {k : String} (hu : k ≠ c.uidClaim) (hg : k ≠ c.gidClaim) :
    withNumericIds c claims k = claims k := by
  simp only [withNumericIds, getUserID]
  split
  · rw [Claims.set_other _ _ hg, Claims.set_other _ _ hu]
  · rfl

theorem Config.Separate.withNumericIds_eq (hsep : c.Separate) {k : String}
    (hk : k ∈ c.groupClaim :: c.userClaims) : withNumericIds c claims k = claims k :=
  withNumericIds_other (fun h => hsep.uid (h ▸ hk)) (fun h => hsep.gid (h ▸ hk))

theorem withNumericIds_filled (hsep : c.Separate) (h : Filled c claims) :
    Filled c (withNumericIds c claims) :=
  h.congr fun _ hk => hsep.withNumericIds_eq (List.mem_cons_of_mem _ hk)

theorem withNumericIds_typed (hsep : c.Separate) (h : Filled c claims)
    (hids : (getUserID c claims).1 ≠ 0 ∧ (getUserID c claims).2 ≠ 0) :
    Typed c (withNumericIds c claims) := by
  simp only [getUserID] at hids
  simp only [withNumericIds, getUserID, if_pos hids]
  exact h.set_ids hsep _ _

theorem installUser_typed (hsep : c.Separate) (h : Filled c claims) {u : GatewayUser}
    (hu : u.id ≠ none) :
    (installUser c claims u).1 = .ok () ∧ Typed c (installUser c claims u).2 := by
  obtain ⟨⟨o, i⟩, hid⟩ := Option.ne_none_iff_exists'.mp hu
  simp only [installUser, hid, true_and]
  exact (((h.set_str (by decide) _).set_str hsep.id _).set_str (by decide) _).set_ids hsep _ _

end Typing

/-! ## Where `Authenticate` cannot panic -/

/-- Every user a successful `GetUserByClaim` of the gateway returns is there and has an id. -/
def Gateway.ReturnsUsersWithIds (gw : Gateway) : Prop :=
  ∀ value user, gw.getUserByClaim value = .ok (codeOK, user) → ∃ u, user = some u ∧ u.id ≠ none

theorem mem_of_intersectSimple {a : Claim} {b I : List String} (h : intersectSimple a b = .ok I)
    {g : String} (hg : g ∈ I) : g ∈ b := by
  unfold intersectSimple at h
  split at h <;> cases h
  · simp only [List.mem_filterMap, Option.filter_eq_some, decide_eq_true_eq] at hg
    obtain ⟨_, _, -, hg⟩ := hg
    exact hg
  all_goals exact absurd hg (List.not_mem_nil g)

section Lookup

variable {c : Config} {mapping : GoMap String UserMapping} {order : List (String × UserMapping)}
  {claims : Claims} {uid gid : Int} {subject : String}

theorem lookupValue_ne_panic (hkey : KeyedByGroup mapping) (horder : mapping.IsOrder order)
    (hG : 0 < mapping.len → claims c.groupClaim = .null ∨ ∃ G, claims c.groupClaim = .list G)
    (msg : String) : lookupValue c mapping order claims uid gid subject ≠ .error (.panic msg) := by
  unfold lookupValue
  split
  case isTrue hne =>
    split
    case isTrue => simp
    case isFalse hnull =>
      obtain ⟨G, hG⟩ := (hG hne).resolve_left hnull
      cases hI : intersectSimple (claims c.groupClaim) (issuerGroups claims order) with
      | error f => rw [hG] at hI; cases hI
      | ok I =>
        simp only
        split_ifs with h1 h0
        · simp
        · simp
        · obtain ⟨g, rfl⟩ := List.length_eq_one.mp (show I.length = 1 by omega)
          obtain ⟨m, hm, -⟩ := (mem_issuerGroups hkey horder claims g).mp
            (mem_of_intersectSimple hI (List.mem_singleton_self g))
          simp [mapping.get?_eq_some_iff.mpr hm]
  case isFalse => split <;> simp

theorem lookupValue_eq_ok_none (h : lookupValue c mapping order claims uid gid subject = .ok none) :
    mapping.len = 0 ∧ uid ≠ 0 ∧ gid ≠ 0 := by
  unfold lookupValue at h
  split at h
  · split at h
    · cases h
    · split at h
      · cases h
      next I _ =>
        split_ifs at h with h1 h0
        obtain ⟨g, rfl⟩ := List.length_eq_one.mp (show I.length = 1 by omega)
        simp only [List.foldlM_cons, List.foldlM_nil] at h
        split at h <;> cases h
  · split at h
    · cases h
    · omega

end Lookup

theorem decorateExternal_ne_panic {u : User} (h : '@' ∈ replaceFirst u.mail.data "guest: ".data [])
    (msg : String) : decorateExternal u ≠ .error (.panic msg) := by
  obtain ⟨a, b, hab⟩ := List.append_of_mem h
  have hlen : 1 < ((replaceFirst u.mail.data "guest: ".data []).splitOn '@').length := by
    rw [hab, splitOn_append_sep, List.length_append]
    have ha := List.length_pos.mpr (List.splitOnP_ne_nil (· == '@') a)
    have hb := List.length_pos.mpr (List.splitOnP_ne_nil (· == '@') b)
    simp only [List.splitOn]
    omega
  simp [decorateExternal, List.getElem?_eq_getElem hlen]

/-- `resolveUser` over filled claims does not panic, and when it returns it leaves every claim
`buildUser` asserts typed. -/
theorem resolveUser_typed {c : Config} {mapping : GoMap String UserMapping}
    {order : List (String × UserMapping)} {gw : Gateway} {claims : Claims} (hsep : c.Separate)
    (hkey : KeyedByGroup mapping) (horder : mapping.IsOrder order) (hgw : gw.ReturnsUsersWithIds)
    (hG : 0 < mapping.len → claims c.groupClaim = .null ∨ ∃ G, claims c.groupClaim = .list G)
    (h : Filled c claims) (subject : String) :
    (∀ msg, (resolveUser c mapping order gw claims subject).1 ≠ .error (.panic msg)) ∧
      ((resolveUser c mapping order gw claims subject).1 = .ok () →
        Typed c (resolveUser c mapping order gw claims subject).2) := by
  have hf := withNumericIds_filled hsep h
  have hgroup : withNumericIds c claims c.groupClaim = claims c.groupClaim :=
    hsep.withNumericIds_eq (List.mem_cons_self _ _)
  rw [← hgroup] at hG
  simp only [resolveUser, getUserID]
  split
  next f hl =>
    refine ⟨fun msg hp => ?_, nofun⟩
    obtain rfl : f = .panic msg := Except.error.inj hp
    exact lookupValue_ne_panic hkey horder hG msg hl
  next hl =>
    obtain ⟨-, hids⟩ := lookupValue_eq_ok_none hl
    exact ⟨nofun, fun _ => withNumericIds_typed hsep h hids⟩
  next value _ =>
    split
    · exact ⟨nofun, nofun⟩
    · split
      · exact ⟨nofun, nofun⟩
      next code user hu =>
        by_cases hcode : code = codeOK
        · subst hcode
          obtain ⟨u, rfl, hid⟩ := hgw value user hu
          obtain ⟨hok, htyped⟩ := installUser_typed hsep hf hid
          simp only [ne_eq, not_true_eq_false, if_false, hok]
          exact ⟨nofun, fun _ => htyped⟩
        · simp only [ne_eq, hcode, not_false_eq_true, if_true]
          exact ⟨nofun, nofun⟩

/-- `buildUser` over typed claims does not panic, whatever the gateway answers. -/
theorem buildUser_ne_panic {c : Config} {claims : Claims} (h : Typed c claims) (gw : Gateway)
    (msg : String) : buildUser c gw claims ≠ .error (.panic msg) := by
  obtain ⟨⟨⟨s, hid⟩, ⟨i, hiss⟩, ⟨p, hpu⟩, ⟨e, he, hat⟩, ⟨b, hev⟩, ⟨n, hname⟩⟩, ⟨uid, huid⟩,
    ⟨gid, hgid⟩⟩ := h
  simp only [buildUser, hid, hiss, hpu, he, hev, hname, huid, hgid, Claim.asString_str,
    Claim.asBool_bool, Claim.asInt64_int, pure_bind]
  split
  · nofun
  · split
    · nofun
    · split_ifs
      · nofun
      · exact decorateExternal_ne_panic hat msg
      · nofun

/-- A configuration with the default claim names and no users mapping. -/
def plainConfig : Config := Config.init ⟨"https://idp.example", "", "", "", "", ""⟩

/-- Userinfo claims with the given `sub`, `email` and `email_verified`, the name `Alice`, and
numeric uid and gid. -/
def aliceClaims (sub email : Claim) (verified : Claim) : Claims := fun k =>
  if k = "sub" then sub
  else if k = "name" then .str "Alice"
  else if k = "email" then email
  else if k = "email_verified" then verified
  else if k = "uid" then .float 1000
  else if k = "gid" then .float 1000
  else .null

/-- With numeric uid and gid and no users mapping, nothing is looked up: `Authenticate` panics on
`email_verified` sent as the string `"true"`, on a numeric `sub`, and on a guest account whose
mail has no `@`. -/
theorem authenticate_panics_on_claims :
    authenticate plainConfig .empty [] answeringGateway
        (.claims (aliceClaims (.str "alice") (.str "alice@example.org") (.str "true")) "alice") =
      .error (.panic "interface conversion: interface \x7b\x7d is string, not bool") ∧
    authenticate plainConfig .empty [] answeringGateway
        (.claims (aliceClaims (.float 42) (.str "alice@example.org") (.bool true)) "42") =
      .error (.panic "interface conversion: interface \x7b\x7d is float64, not string") ∧
    authenticate plainConfig .empty [] answeringGateway
        (.claims (aliceClaims (.str "guest42") (.str "guest42") (.bool true)) "guest42") =
      .error (.panic "runtime error: index out of range [1] with length 1") :=
  ⟨rfl, rfl, rfl⟩

/-- Over a configuration `Configure` accepted whose claim names keep apart, and a gateway whose
successful lookups return users with ids, `Authenticate` does not panic on userinfo claims of the
types it asserts, with an `@` in the mail and, where a users mapping is configured, a group claim
that is missing or a list: it returns a user or an error. -/
theorem authenticate_never_panics_on_typed_claims {c0 c : Config}
    {file : Except FileError (List UserMapping)} {mapping : GoMap String UserMapping}
    (hconf : configure c0 file = .ok (c, mapping)) (hsep : c.Separate)
    (order : List (String × UserMapping)) (horder : mapping.IsOrder order) (gw : Gateway)
    (hgw : gw.ReturnsUsersWithIds) (claims : Claims) (subject : String) (hw : WellTyped c claims)
    (hG : 0 < mapping.len → claims c.groupClaim = .null ∨ ∃ G, claims c.groupClaim = .list G)
    (msg : String) :
    authenticate c mapping order gw (.claims claims subject) ≠ .error (.panic msg) := by
  have hgroup : fillDefaults c claims c.groupClaim = claims c.groupClaim :=
    fillDefaults_other hsep.group
  rw [← hgroup] at hG
  obtain ⟨hresolve, htyped⟩ :=
    resolveUser_typed hsep (configure_keyed hconf) horder hgw hG (fillDefaults_filled hw) subject
  simp only [authenticate]
  split_ifs
  · nofun
  · nofun
  · split
    next p _ hr => exact absurd (congrArg Prod.fst hr) (hresolve p)
    · nofun
    next claims' hr =>
      have h := htyped (congrArg Prod.fst hr)
      rw [hr] at h
      exact buildUser_ne_panic h gw msg

theorem typed_alice_claims_never_panic :
    authenticate plainConfig .empty [] answeringGateway
      (.claims (aliceClaims (.str "alice") (.str "alice@example.org") (.bool true)) "alice") ≠
        .error (.panic "interface conversion: interface \x7b\x7d is string, not bool") :=
  authenticate_never_panics_on_typed_claims
    (show configure ⟨"https://idp.example", "", "", "", "", ""⟩ (.ok []) = .ok (plainConfig, .empty)
      from rfl)
    ⟨by decide, by decide, by decide, by decide⟩ [] (List.Perm.refl _) answeringGateway
    (fun _ _ h => ⟨_, (Prod.mk.inj (Except.ok.inj h)).2.symm, nofun⟩) _ _
    ⟨⟨"alice", rfl⟩, .inl rfl, .inl rfl, ⟨"alice@example.org", rfl, by decide⟩, .inr ⟨true, rfl⟩,
      .inr ⟨"Alice", rfl⟩⟩
    (fun h => absurd h (by decide)) _

end Oidc

end Reva
