import CarbonMessaging.QueueListings

/-! Who owns a queue name. The test of `QpidAuthorizationHandler` cuts the start of the name off by
its index, behind a comparison of lengths. -/

namespace CarbonMessaging

namespace QpidAuthorizationHandler

open JavaLang

def startsWithDomain (tenantDomain routingKey : Str) : Option Bool :=
  if routingKey.length ≥ tenantDomain.length + 1 then
    (substringTo routingKey 0 (tenantDomain.length + 1)).map (· == tenantDomain ++ "/".toList)
  else some false

/-- `isOwnDomain` with its positions; `none` if one of them lies outside of the name. -/
def isOwnDomainAt (tenantDomain : Option Str) (routingKey : Str) : Option Bool :=
  match tenantDomain with
  | some tenantDomain => do
    if ← startsWithDomain tenantDomain routingKey then some true
    else if equalsIgnoreCase tenantDomain "carbon.super".toList then
      some (!contains routingKey "/".toList)
    else some false
  | none => some (!contains routingKey "/".toList)

end QpidAuthorizationHandler

namespace DomainOwnership

open JavaLang QpidAuthorizationHandler QueueListings

def Owns (domain name : Str) : Prop := isOwnDomainAt (some domain) name = some true

theorem startsWithDomain_eq (tenantDomain routingKey : Str) :
    startsWithDomain tenantDomain routingKey =
      some (startsWith routingKey (tenantDomain ++ "/".toList)) := by
  have hstop : (tenantDomain ++ "/".toList).length = tenantDomain.length + 1 :=
    List.length_append
  rw [startsWithDomain, ← Nat.cast_add_one, ← hstop]
  split
  · rename_i hlength
    rw [substringTo_start (Int.natCast_nonneg _) (Int.ofNat_le.2 hlength), Int.toNat_natCast,
      Option.map_some, Option.some_inj, Bool.eq_iff_iff, beq_iff_eq,
      startsWith_iff, List.prefix_iff_eq_take, eq_comm]
  · rename_i hlength
    rw [Option.some_inj, eq_comm, ← Bool.not_eq_true, startsWith_iff]
    exact fun hprefix => hlength hprefix.length_le

theorem isOwnDomainAt_eq (tenantDomain : Option Str) (routingKey : Str) :
    isOwnDomainAt tenantDomain routingKey = some (isOwnDomain tenantDomain routingKey) := by
  cases tenantDomain with
  | none => rfl
  | some tenantDomain =>
    rw [isOwnDomainAt, isOwnDomain, startsWithDomain_eq, Option.bind_eq_bind, Option.bind_some]
    split
    · rfl
    · split <;> rfl

theorem owns_iff {domain name : Str} : Owns domain name ↔
    startsWith name (domain ++ "/".toList) = true ∨
      equalsIgnoreCase domain SUPER_TENANT_DOMAIN_NAME = true ∧ '/' ∉ name := by
  rw [Owns, isOwnDomainAt_eq, Option.some_inj, isOwnDomain_iff]

theorem equalsIgnoreCase_iff {s t : Str} :
    equalsIgnoreCase s t = true ↔ s.map foldCase = t.map foldCase := decide_eq_true_iff

theorem owns_tenant_iff {domain name : Str}
    (hdomain : equalsIgnoreCase domain SUPER_TENANT_DOMAIN_NAME = false) :
    Owns domain name ↔ startsWith name (domain ++ "/".toList) = true := by
  simp [owns_iff, hdomain]

theorem not_owns_both {d d' name : Str} (hd : '/' ∉ d) (hd' : '/' ∉ d')
    (hdiff : equalsIgnoreCase d d' = false) : ¬(Owns d name ∧ Owns d' name) := by
  rintro ⟨h, h'⟩
  rw [Owns, isOwnDomainAt_eq, Option.some_inj] at h h'
  rw [← Bool.not_eq_true, equalsIgnoreCase_iff] at hdiff
  have hne : d ≠ d' := fun hsame => hdiff (congrArg (List.map foldCase) hsame)
  obtain ⟨-, hsuper, hsuper'⟩ := owners_super hne hd hd' h h'
  -- both are spelled like the super tenant, so like each other
  exact hdiff ((equalsIgnoreCase_iff.1 hsuper).trans (equalsIgnoreCase_iff.1 hsuper').symm)

theorem plain_owned_by_super {name : Str} (hplain : '/' ∉ name) :
    Owns SUPER_TENANT_DOMAIN_NAME name ∧
      ∀ d, equalsIgnoreCase d SUPER_TENANT_DOMAIN_NAME = false → ¬Owns d name :=
  ⟨owns_iff.2 (.inr ⟨equalsIgnoreCase_iff.2 rfl, hplain⟩), fun _ hother howns =>
    hplain (slash_mem ((owns_tenant_iff hother).1 howns))⟩

/-- A name has at most one owner among the domains that are told apart. The comparison of letter
cases in the model tells more domains apart than the one of Java does. -/
theorem at_most_one_owner (name : Str) :
    (∀ d d', '/' ∉ d → '/' ∉ d' → equalsIgnoreCase d d' = false →
      ¬(Owns d name ∧ Owns d' name)) ∧
    (∀ d, equalsIgnoreCase d SUPER_TENANT_DOMAIN_NAME = false →
      (Owns d name ↔ startsWith name (d ++ "/".toList) = true)) ∧
    ('/' ∉ name → Owns SUPER_TENANT_DOMAIN_NAME name ∧
      ∀ d, equalsIgnoreCase d SUPER_TENANT_DOMAIN_NAME = false → ¬Owns d name) ∧
    ∀ tenantDomain, isOwnDomainAt tenantDomain name ≠ none := by
  refine ⟨fun _ _ => not_owns_both, fun _ => owns_tenant_iff, plain_owned_by_super, ?_⟩
  intro tenantDomain
  rw [isOwnDomainAt_eq]
  exact Option.some_ne_none _

theorem at_most_one_owner_foo : ¬(Owns "foo".toList "foo/q".toList ∧
    Owns SUPER_TENANT_DOMAIN_NAME "foo/q".toList) :=
  (at_most_one_owner "foo/q".toList).1 _ _ (by decide) (by decide) (by decide)

end DomainOwnership

end CarbonMessaging
