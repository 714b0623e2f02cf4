import Mathlib.Data.List.Dedup
import Mathlib.Data.List.Sort
import Mathlib.Data.String.Basic
import Spinneret.Authz.Principal

/-!
# Site filters

Lists of sites are filtered by `SiteFilter` while single sites are checked by `Can`. Both walk
over the bindings or scopes of a principal with guards of their own. They agree on the sites of a
namespace, and neither looks at a binding of another tenant.
-/

variable {ids : List String} {b : Binding} {r : Resource} {p : Principal}

namespace Spinneret.Authz

open Spinneret.Auth (Binding)

set_option autoImplicit false

/-! ## The filter -/

/-- `slices.Sort` and `slices.Compact`; in a sorted list equal sites are neighbours. -/
def sortedSites (ids : List String) : List String :=
  (ids.insertionSort fun first second => first ≤ second).dedup

/-- The loop over the bindings with the sites collected so far. -/
def userSites (tenantID namespaceID : String) (perm : Permission) :
    List Binding → List String → Bool × List String
  | [], ids => (false, sortedSites ids)
  | b :: rest, ids =>
    if b.tenantID ≠ tenantID ∨ (b.namespaceID ≠ "" ∧ b.namespaceID ≠ namespaceID) ∨
        grants b perm = false then
      userSites tenantID namespaceID perm rest ids
    else if b.siteIDs = [] then (true, [])
    else if namespaceID = "" then userSites tenantID namespaceID perm rest ids
    else userSites tenantID namespaceID perm rest (ids ++ b.siteIDs.filter fun id => id != "")

def Principal.userSiteFilter (p : Principal) (tenantID namespaceID : String) (perm : Permission) :
    Bool × List String :=
  userSites tenantID namespaceID perm p.bindings []

/-- Whether all sites are granted, and the granted sites otherwise. -/
def Principal.siteFilter (p : Principal) (tenantID namespaceID : String) (perm : Permission) :
    Bool × List String :=
  if validPermission perm = false then (false, [])
  else
    match p.kind with
    | .system => (true, [])
    | .user =>
      if p.isPlatformAdmin then (true, [])
      else if platformOnly perm || tenantID == "" then (false, [])
      else p.userSiteFilter tenantID namespaceID perm
    | .token =>
      if platformOnly perm || namespaceID == "" || !p.tokenBoundTo tenantID namespaceID then
        (false, [])
      else
        -- a scope narrowed to a site by its name is left to checks of single sites
        (p.scopes.any fun s =>
          s.grantsPermission perm && !(s.name.arg == .argSite && s.arg != ""), [])

/-! ## Sorted sites -/

theorem mem_sorted_sites {id : String} : id ∈ sortedSites ids ↔ id ∈ ids := by
  rw [sortedSites, List.mem_dedup, List.mem_insertionSort]

/-- The result depends on the set of sites only. -/
theorem sorted_sites_ext {first second : List String} (same : ∀ id, id ∈ first ↔ id ∈ second) :
    sortedSites first = sortedSites second := by
  have sorted (ids : List String) : (sortedSites ids).Pairwise (· ≤ ·) :=
    (List.pairwise_insertionSort _ ids).sublist (List.dedup_sublist _)
  have perm : (sortedSites first).Perm (sortedSites second) :=
    (List.perm_ext_iff_of_nodup (List.nodup_dedup _) (List.nodup_dedup _)).mpr fun id =>
      mem_sorted_sites.trans ((same id).trans mem_sorted_sites.symm)
  exact perm.eq_of_pairwise (fun a b _ _ above below => le_antisymm above below) (sorted _)
    (sorted _)

/-! ## Users -/

/-- The binding grants the permission in the namespace, sites aside. -/
def Reaches (tenantID namespaceID : String) (perm : Permission) (b : Binding) : Prop :=
  b.tenantID = tenantID ∧ (b.namespaceID = "" ∨ b.namespaceID = namespaceID) ∧
    grants b perm = true

/-- A site of the namespace; a site without a namespace is malformed. -/
structure SiteLevel (tenantID namespaceID : String) (r : Resource) : Prop where
  tenant : r.tenantID = tenantID
  ns : r.namespaceID = namespaceID
  named : r.namespaceID ≠ ""
  site : r.siteID ≠ ""

section Users

variable {tenantID namespaceID : String} {perm : Permission}

theorem skipped_iff (b : Binding) :
    (b.tenantID ≠ tenantID ∨ (b.namespaceID ≠ "" ∧ b.namespaceID ≠ namespaceID) ∨
      grants b perm = false) ↔ ¬ Reaches tenantID namespaceID perm b := by
  unfold Reaches
  rw [not_and_or, not_and_or, not_or, Bool.not_eq_true]

theorem user_sites_skip {rest : List Binding} (skipped : ¬ Reaches tenantID namespaceID perm b) :
    userSites tenantID namespaceID perm (b :: rest) ids =
      userSites tenantID namespaceID perm rest ids := by
  rw [userSites, if_pos ((skipped_iff b).mpr skipped)]

theorem user_sites_reaches {rest : List Binding} (reaches : Reaches tenantID namespaceID perm b) :
    userSites tenantID namespaceID perm (b :: rest) ids =
      if b.siteIDs = [] then (true, [])
      else if namespaceID = "" then userSites tenantID namespaceID perm rest ids
      else userSites tenantID namespaceID perm rest
        (ids ++ b.siteIDs.filter fun id => id != "") := by
  rw [userSites, if_neg fun skipped => (skipped_iff b).mp skipped reaches]

theorem user_sites_all {bindings : List Binding} :
    (userSites tenantID namespaceID perm bindings ids).1 = true ↔
      ∃ b ∈ bindings, Reaches tenantID namespaceID perm b ∧ b.siteIDs = [] := by
  induction bindings generalizing ids with
  | nil => simp [userSites]
  | cons b rest ih =>
    simp only [List.mem_cons, exists_eq_or_imp]
    by_cases reaches : Reaches tenantID namespaceID perm b
    · rw [user_sites_reaches reaches]
      by_cases open_ : b.siteIDs = []
      · rw [if_pos open_]
        exact iff_of_true rfl (.inl ⟨reaches, open_⟩)
      · rw [if_neg open_]
        have later : (∃ c ∈ rest, Reaches tenantID namespaceID perm c ∧ c.siteIDs = []) ↔
            (Reaches tenantID namespaceID perm b ∧ b.siteIDs = []) ∨
              ∃ c ∈ rest, Reaches tenantID namespaceID perm c ∧ c.siteIDs = [] :=
          ⟨.inr, fun either => either.resolve_left fun own => open_ own.2⟩
        rw [← later]
        split_ifs
        · exact ih
        · exact ih
    · rw [user_sites_skip reaches, ih]
      exact ⟨.inr, fun either => either.resolve_left fun own => reaches own.1⟩

/-- Without an unrestricted binding the sites of all matching bindings are listed. -/
theorem user_sites_listed {bindings : List Binding} {id : String}
    (restricted : (userSites tenantID namespaceID perm bindings ids).1 = false) :
    id ∈ (userSites tenantID namespaceID perm bindings ids).2 ↔
      id ∈ ids ∨ namespaceID ≠ "" ∧ id ≠ "" ∧
        ∃ b ∈ bindings, Reaches tenantID namespaceID perm b ∧ id ∈ b.siteIDs := by
  induction bindings generalizing ids with
  | nil => simp [userSites, mem_sorted_sites]
  | cons b rest ih =>
    simp only [List.mem_cons, exists_eq_or_imp]
    by_cases reaches : Reaches tenantID namespaceID perm b
    · rw [user_sites_reaches reaches] at restricted ⊢
      by_cases open_ : b.siteIDs = []
      · rw [if_pos open_] at restricted
        cases restricted
      · rw [if_neg open_] at restricted ⊢
        by_cases unnamed : namespaceID = ""
        · rw [if_pos unnamed] at restricted ⊢
          rw [ih restricted]
          exact or_congr_right ⟨fun own => absurd unnamed own.1, fun own => absurd unnamed own.1⟩
        · rw [if_neg unnamed] at restricted ⊢
          rw [ih restricted, List.mem_append, List.mem_filter]
          have here : (id ∈ b.siteIDs ∧ (id != "") = true) ↔
              Reaches tenantID namespaceID perm b ∧ id ∈ b.siteIDs ∧ id ≠ "" := by
            simp [reaches]
          rw [here]
          tauto
    · rw [user_sites_skip reaches] at restricted ⊢
      rw [ih restricted]
      simp only [reaches, false_and, false_or]

theorem allows_site_iff (level : SiteLevel tenantID namespaceID r) (known : tenantID ≠ "") :
    allows b perm r = true ↔
      Reaches tenantID namespaceID perm b ∧ (b.siteIDs = [] ∨ r.siteID ∈ b.siteIDs) := by
  obtain ⟨rfl, rfl, named, site⟩ := level
  unfold allows Reaches
  by_cases own : b.tenantID = r.tenantID
  · have open_ : ¬ (b.tenantID = "" ∨ b.tenantID ≠ r.tenantID) := by
      rw [own]
      simp [known]
    have inside : (b.namespaceID ≠ "" ∧ b.namespaceID ≠ r.namespaceID) ↔
        ¬ (b.namespaceID = "" ∨ b.namespaceID = r.namespaceID) := not_or.symm
    rw [if_neg open_, if_neg site]
    simp only [inside, own, true_and]
    split_ifs <;> simp_all
  · rw [if_pos (.inr own)]
    simp [own]

/-- What a user holds: everything as a platform administrator, or through a binding. -/
theorem user_can_iff (user : p.kind = .user) :
    p.can perm r = true ↔ validPermission perm = true ∧ (p.isPlatformAdmin = true ∨
      platformOnly perm = false ∧ wellFormed r = true ∧
        ∃ b ∈ p.bindings, allows b perm r = true) := by
  unfold Principal.can
  rw [user, Bool.and_eq_true]
  refine and_congr_right fun _ => ?_
  dsimp only
  by_cases admin : p.isPlatformAdmin = true
  · simp [admin]
  · rw [if_neg admin]
    split_ifs with refused
    · simp only [Bool.or_eq_true, Bool.not_eq_true'] at refused
      refine iff_of_false nofun ?_
      rintro (wrong | ⟨open_, formed, -⟩)
      · exact admin wrong
      · rcases refused with only | unformed
        · exact absurd (only.symm.trans open_) nofun
        · exact absurd (unformed.symm.trans formed) nofun
    · simp only [Bool.or_eq_true, Bool.not_eq_true', not_or, Bool.not_eq_true,
        Bool.not_eq_false] at refused
      rw [List.any_eq_true]
      exact ⟨fun held => .inr ⟨refused.1, refused.2, held⟩,
        fun held => (held.resolve_left admin).2.2⟩

theorem user_filter_eq (user : p.kind = .user) :
    p.siteFilter tenantID namespaceID perm =
      if validPermission perm = false then (false, [])
      else if p.isPlatformAdmin = true then (true, [])
      else if platformOnly perm = true ∨ tenantID = "" then (false, [])
      else userSites tenantID namespaceID perm p.bindings [] := by
  unfold Principal.siteFilter
  rw [user]
  simp only [Bool.or_eq_true, beq_iff_eq]
  rfl

/-- A user holds a permission on a site exactly when the filter has all sites or lists it. -/
theorem user_filter_iff (user : p.kind = .user) (level : SiteLevel tenantID namespaceID r) :
    p.can perm r = true ↔ (p.siteFilter tenantID namespaceID perm).1 = true ∨
      r.siteID ∈ (p.siteFilter tenantID namespaceID perm).2 := by
  have formed : wellFormed r = true ↔ tenantID ≠ "" := by
    simp [wellFormed, level.tenant, level.named]
  rw [user_can_iff user, user_filter_eq user]
  split_ifs with unknown admin refused
  · simp [unknown]
  · simp [admin, Bool.eq_true_of_not_eq_false unknown]
  · refine iff_of_false ?_ (by simp)
    rintro ⟨-, wrong | ⟨open_, known, -⟩⟩
    · exact admin wrong
    · rcases refused with only | unset
      · exact absurd (only.symm.trans open_) nofun
      · exact formed.mp known unset
  · obtain ⟨open_, known⟩ := not_or.mp refused
    have ns : namespaceID ≠ "" := level.ns ▸ level.named
    have held : (validPermission perm = true ∧ (p.isPlatformAdmin = true ∨
        platformOnly perm = false ∧ wellFormed r = true ∧
          ∃ b ∈ p.bindings, allows b perm r = true)) ↔
        ∃ b ∈ p.bindings, Reaches tenantID namespaceID perm b ∧
          (b.siteIDs = [] ∨ r.siteID ∈ b.siteIDs) := by
      rw [or_iff_right admin]
      simp only [allows_site_iff level known, formed, Bool.eq_true_of_not_eq_false unknown,
        Bool.eq_false_of_not_eq_true open_, ne_eq, known, not_false_eq_true, true_and]
    rw [held]
    cases all : (userSites tenantID namespaceID perm p.bindings []).1 with
    | true =>
      obtain ⟨b, member, reaches, unrestricted⟩ := user_sites_all.mp all
      exact iff_of_true ⟨b, member, reaches, .inl unrestricted⟩ (.inl rfl)
    | false =>
      rw [user_sites_listed all]
      constructor
      · rintro ⟨b, member, reaches, unrestricted | listed⟩
        · have open_all : (userSites tenantID namespaceID perm p.bindings []).1 = true :=
            user_sites_all.mpr ⟨b, member, reaches, unrestricted⟩
          exact absurd (open_all.symm.trans all) nofun
        · exact .inr (.inr ⟨ns, level.site, b, member, reaches, listed⟩)
      · rintro (wrong | collected | ⟨-, -, b, member, reaches, listed⟩)
        · cases wrong
        · cases collected
        · exact ⟨b, member, reaches, .inr listed⟩

-- a site without its namespace is malformed: `Can` denies it whatever the filter says
example :
    let p : Principal :=
      { kind := .user, id := "u1", bindings := [⟨"b1", "t1", "", "viewer", [], []⟩] }
    p.siteFilter "t1" "" .siteRead = (true, []) ∧
      p.can .siteRead { tenantID := "t1", siteID := "s1" } = false := by
  decide

/-- The same bindings in a tenant, in any order and number. -/
def SameBindings (tenantID : String) (p q : Principal) : Prop :=
  ∀ b : Binding, b.tenantID = tenantID → (b ∈ p.bindings ↔ b ∈ q.bindings)

theorem allows_tenant (allowed : allows b perm r = true) : b.tenantID = r.tenantID := by
  unfold allows at allowed
  split_ifs at allowed with refused
  all_goals exact not_not.mp (not_or.mp refused).2

theorem can_same_bindings {p q : Principal} (user : p.kind = .user) (other : q.kind = .user)
    (admin : p.isPlatformAdmin = q.isPlatformAdmin) (same : SameBindings tenantID p q)
    (tenant : r.tenantID = tenantID) : p.can perm r = q.can perm r := by
  have found : (∃ b ∈ p.bindings, allows b perm r = true) ↔
      ∃ b ∈ q.bindings, allows b perm r = true := by
    refine exists_congr fun b => and_congr_left fun allowed => ?_
    exact same b ((allows_tenant allowed).trans tenant)
  rw [Bool.eq_iff_iff, user_can_iff user, user_can_iff other, admin, found]

theorem user_sites_cases (bindings : List Binding) (ids : List String) :
    userSites tenantID namespaceID perm bindings ids = (true, []) ∨
      ∃ found, userSites tenantID namespaceID perm bindings ids = (false, sortedSites found) := by
  induction bindings generalizing ids with
  | nil => exact .inr ⟨ids, rfl⟩
  | cons b rest ih =>
    rw [userSites]
    split_ifs
    · exact ih ids
    · exact .inl rfl
    · exact ih ids
    · exact ih _

theorem user_sites_congr {first second : List Binding}
    (same : ∀ b : Binding, b.tenantID = tenantID → (b ∈ first ↔ b ∈ second)) :
    userSites tenantID namespaceID perm first [] =
      userSites tenantID namespaceID perm second [] := by
  have within {quality : Binding → Prop} :
      (∃ b ∈ first, Reaches tenantID namespaceID perm b ∧ quality b) ↔
        ∃ b ∈ second, Reaches tenantID namespaceID perm b ∧ quality b :=
    exists_congr fun b => and_congr_left fun reaches => same b reaches.1.1
  have all : (userSites tenantID namespaceID perm first []).1 =
      (userSites tenantID namespaceID perm second []).1 := by
    rw [Bool.eq_iff_iff, user_sites_all, user_sites_all, within]
  rcases user_sites_cases first [] with left | ⟨found, left⟩ <;>
    rcases user_sites_cases second [] with right | ⟨others, right⟩ <;>
    rw [left, right] at all
  · rw [left, right]
  · cases all
  · cases all
  · rw [left, right]
    refine congrArg _ (sorted_sites_ext fun id => ?_)
    have one := @user_sites_listed _ _ _ _ _ id (congrArg Prod.fst left)
    have two := @user_sites_listed _ _ _ _ _ id (congrArg Prod.fst right)
    rw [left, mem_sorted_sites] at one
    rw [right, mem_sorted_sites] at two
    rw [one, two, within]

theorem filter_same_bindings {p q : Principal} (user : p.kind = .user) (other : q.kind = .user)
    (admin : p.isPlatformAdmin = q.isPlatformAdmin) (same : SameBindings tenantID p q) :
    p.siteFilter tenantID namespaceID perm = q.siteFilter tenantID namespaceID perm := by
  rw [user_filter_eq user, user_filter_eq other, admin, user_sites_congr same]

end Users

/-! ## Tokens -/

/-- The permissions of the scopes that may be narrowed to a site. -/
def siteScoped (perm : Permission) : Bool :=
  scopeNames.any fun name => name.arg == .argSite && name.perms.contains perm

/-- The check of a single site by its name: a scope of the token names it. -/
def NamesSite (p : Principal) (perm : Permission) (r : Resource) : Prop :=
  p.tokenBoundTo r.tenantID r.namespaceID = true ∧
    ∃ s ∈ p.scopes, s.grantsPermission perm = true ∧ s.name.arg = .argSite ∧ s.arg ≠ "" ∧
      r.siteName = s.arg

section Tokens

variable {tenantID namespaceID : String} {perm : Permission}

theorem site_scoped_known (scoped_ : siteScoped perm = true) :
    validPermission perm = true ∧ platformOnly perm = false := by
  cases perm with
  | unknown name => simp [siteScoped, scopeNames, ScopeName.arg, ScopeName.perms] at scoped_
  | _ => revert scoped_; decide

/-- A scope that grants such a permission is narrowed by a site name or by nothing. -/
theorem site_scoped_arg (scoped_ : siteScoped perm = true) {name : ScopeName}
    (listed : perm ∈ name.perms) : name.arg = .argSite ∨ name.arg = .argNone := by
  cases name with
  | leaseAcquire | reportWrite | identityWrite => exact .inl rfl
  | proxyWrite | admin => exact .inr rfl
  | configRead | configPublish | secretRead =>
    simp only [ScopeName.perms, List.mem_cons, List.not_mem_nil, or_false] at listed
    rcases listed with rfl | rfl | rfl
    all_goals exact absurd scoped_ (by decide)

/-- On such a permission a scope holds for every site, or for the one it names. -/
theorem site_scope_allows {s : Scope} {namespaceName : String} (scoped_ : siteScoped perm = true) :
    s.allows perm r namespaceName = true ↔ s.grantsPermission perm = true ∧
      ((s.name.arg = .argSite → s.arg = "") ∨
        s.name.arg = .argSite ∧ s.arg ≠ "" ∧ r.siteName = s.arg) := by
  unfold Scope.allows
  rw [Bool.and_eq_true]
  refine and_congr_right fun granted => ?_
  rcases site_scoped_arg scoped_ (grants_listed granted) with site | bare
  · rw [site]
    by_cases plain : s.arg = ""
    · simp [plain]
    · have named : (r.siteName ≠ "" ∧ r.siteName = s.arg) ↔ r.siteName = s.arg :=
        and_iff_right_of_imp fun same => same ▸ plain
      simp [plain, named]
  · rw [bare]
    simp

theorem token_filter_sites (token : p.kind = .token) :
    (p.siteFilter tenantID namespaceID perm).2 = [] := by
  unfold Principal.siteFilter
  rw [token]
  dsimp only
  split_ifs <;> rfl

theorem token_filter_all (token : p.kind = .token) (scoped_ : siteScoped perm = true) :
    (p.siteFilter tenantID namespaceID perm).1 = true ↔
      namespaceID ≠ "" ∧ p.tokenBoundTo tenantID namespaceID = true ∧
        ∃ s ∈ p.scopes, s.grantsPermission perm = true ∧ (s.name.arg = .argSite → s.arg = "") := by
  obtain ⟨known, open_⟩ := site_scoped_known scoped_
  unfold Principal.siteFilter
  rw [if_neg (by rw [known]; nofun), token, open_]
  dsimp only
  rw [Bool.false_or]
  split_ifs with refused
  · simp only [Bool.or_eq_true, beq_iff_eq, Bool.not_eq_true'] at refused
    refine iff_of_false nofun ?_
    rintro ⟨named, bound, -⟩
    rcases refused with unnamed | unbound
    · exact named unnamed
    · exact absurd (unbound.symm.trans bound) nofun
  · simp only [Bool.or_eq_true, beq_iff_eq, Bool.not_eq_true', not_or, Bool.not_eq_false] at refused
    have narrowed (s : Scope) : (!(s.name.arg == .argSite && s.arg != "")) = true ↔
        (s.name.arg = .argSite → s.arg = "") := by
      simp [imp_iff_not_or]
    simp only [List.any_eq_true, Bool.and_eq_true, narrowed]
    exact ⟨fun found => ⟨refused.1, refused.2, found⟩, fun found => found.2.2⟩

/-- A token holds such a permission on a site exactly when the filter has all sites or one of its
scopes names the site. -/
theorem token_filter_iff (token : p.kind = .token) (scoped_ : siteScoped perm = true)
    (level : SiteLevel tenantID namespaceID r) :
    p.can perm r = true ↔
      (p.siteFilter tenantID namespaceID perm).1 = true ∨ NamesSite p perm r := by
  obtain ⟨known, open_⟩ := site_scoped_known scoped_
  obtain ⟨rfl, rfl, named, -⟩ := level
  rw [token_can_iff token, token_filter_all token scoped_, NamesSite]
  simp only [site_scope_allows scoped_]
  constructor
  · rintro ⟨-, -, -, -, bound, s, member, granted, everywhere | ⟨site, narrowed, same⟩⟩
    · exact .inl ⟨named, bound, s, member, granted, everywhere⟩
    · exact .inr ⟨bound, s, member, granted, site, narrowed, same⟩
  · have formed (bound : p.tokenBoundTo r.tenantID r.namespaceID = true) : wellFormed r = true := by
      obtain ⟨tenant, -, same, -⟩ := bound_to_iff.mp bound
      exact decide_eq_true ⟨same ▸ tenant, .inr named⟩
    rintro (⟨-, bound, s, member, granted, everywhere⟩ |
      ⟨bound, s, member, granted, site, narrowed, same⟩)
    · exact ⟨known, open_, formed bound, named, bound, s, member, granted, .inl everywhere⟩
    · exact ⟨known, open_, formed bound, named, bound, s, member, granted,
        .inr ⟨site, narrowed, same⟩⟩

end Tokens

/-! ## Agreement -/

/-- Filters agree with checks: for users on every site of the namespace, for tokens on permissions
that scopes narrow to sites, where the names of the sites decide when the filter has nothing. The
answers to two users with the same administrator flag depend on their bindings in the tenant
only. -/
theorem site_filter_agrees (p : Principal) (tenantID namespaceID : String) (perm : Permission) :
    (p.kind = .user → ∀ r, SiteLevel tenantID namespaceID r →
      (p.can perm r = true ↔ (p.siteFilter tenantID namespaceID perm).1 = true ∨
        r.siteID ∈ (p.siteFilter tenantID namespaceID perm).2)) ∧
    (p.kind = .token → siteScoped perm = true →
      (p.siteFilter tenantID namespaceID perm).2 = [] ∧
      ∀ r, SiteLevel tenantID namespaceID r →
        (p.can perm r = true ↔
          (p.siteFilter tenantID namespaceID perm).1 = true ∨ NamesSite p perm r)) ∧
    ∀ q : Principal, p.kind = .user → q.kind = .user → p.isPlatformAdmin = q.isPlatformAdmin →
      SameBindings tenantID p q →
      (∀ r : Resource, r.tenantID = tenantID → p.can perm r = q.can perm r) ∧
      p.siteFilter tenantID namespaceID perm = q.siteFilter tenantID namespaceID perm := by
  refine ⟨fun user r level => user_filter_iff user level, fun token narrow => ?_,
    fun q user other admin same => ?_⟩
  · exact ⟨token_filter_sites token, fun r level => token_filter_iff token narrow level⟩
  · exact ⟨fun r tenant => can_same_bindings user other admin same tenant,
      filter_same_bindings user other admin same⟩

/-- A viewer of one site: the filter lists it, and another binding elsewhere changes nothing. -/
theorem viewer_filter_agrees :
    let viewer : Binding := ⟨"b1", "t1", "n1", "viewer", ["s1"], []⟩
    let p : Principal := { kind := .user, id := "u1", bindings := [viewer] }
    let q : Principal :=
      { kind := .user, id := "u2", bindings := [⟨"b2", "t2", "", "owner", [], []⟩, viewer] }
    p.siteFilter "t1" "n1" .siteRead = (false, ["s1"]) ∧
      p.can .siteRead { tenantID := "t1", namespaceID := "n1", siteID := "s1" } = true ∧
      p.siteFilter "t1" "n1" .siteRead = q.siteFilter "t1" "n1" .siteRead := by
  intro viewer p q
  have agrees := site_filter_agrees p "t1" "n1" .siteRead
  have listed : p.siteFilter "t1" "n1" .siteRead = (false, ["s1"]) := by decide +kernel
  refine ⟨listed, (agrees.1 rfl _ ⟨rfl, rfl, by decide, by decide⟩).mpr (.inr ?_),
    (agrees.2.2 q rfl rfl rfl fun b tenant => ?_).2⟩
  · rw [listed]
    exact List.mem_cons_self
  · refine ⟨List.mem_cons_of_mem _, fun either => (List.mem_cons.mp either).resolve_left ?_⟩
    rintro rfl
    exact absurd tenant (by decide)

/-- A platform administrator and a user without bindings have the same bindings in every tenant
and get different answers. -/
theorem administrator_without_bindings :
    let admin : Principal := { kind := .user, id := "root", isPlatformAdmin := true }
    let user : Principal := { kind := .user, id := "u1" }
    SameBindings "t1" admin user ∧
      admin.can .siteRead { tenantID := "t1", namespaceID := "n1", siteID := "s1" } = true ∧
      user.can .siteRead { tenantID := "t1", namespaceID := "n1", siteID := "s1" } = false :=
  ⟨fun _ _ => Iff.rfl, by decide, by decide⟩

end Spinneret.Authz
