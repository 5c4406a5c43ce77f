import CarbonMessaging.CarbonBasedPrincipalDatabase
import CarbonMessaging.QpidAuthorizationPlugin
import CarbonMessaging.QueueManagerServiceImpl

/-! Tenant users' names on the way to the broker and back. Three components write a name, the
broker's login and its access control read it. -/

namespace CarbonMessaging.WireUserNames

open JavaLang
open QueueManagerServiceImpl (getLoggedInUserName)

def getInternalTenantUsername (username : Str) : Str := replaceChar '@' '!' username

def getCurrentUser (context : CarbonContext) : Str :=
  if context.tenantId ≠ 0 then
    trim (context.username ++ "!".toList ++ context.tenantDomain.getD "null".toList)
  else trim context.username

/-- A tenant's id and domain. Ids that are not positive stand for the super tenant wherever the
components select a tenant. -/
structure Tenant where
  id : Int
  domain : Str
  superTenant : id ≤ 0 → domain = SUPER_TENANT_DOMAIN_NAME
  separatorFree : '!' ∉ domain ∧ '@' ∉ domain

def Tenant.context (tenant : Tenant) (username : Str) : CarbonContext :=
  ⟨tenant.id, some tenant.domain, username⟩

def wireNames (tenant : Tenant) (username : Str) : List Str :=
  [getInternalTenantUsername (username ++ '@' :: tenant.domain),
    getCurrentUser (tenant.context username), getLoggedInUserName (tenant.context username)]

/-- User and tenant domain as the login reads them. -/
def readByLogin (wireName : Str) : Str × Str :=
  ((CarbonBasedPrincipalDatabase.splitUsername wireName).1,
    (CarbonBasedPrincipalDatabase.splitUsername wireName).2.getD SUPER_TENANT_DOMAIN_NAME)

def readByPlugin (wireName : Str) : Str × Str :=
  (QpidAuthorizationPlugin.userOf wireName,
    (QpidAuthorizationPlugin.domainNameOf wireName).getD SUPER_TENANT_DOMAIN_NAME)

/-- Every way to write the name is read back by both readers. -/
def Survives (tenant : Tenant) (username : Str) : Prop :=
  ∀ wireName ∈ wireNames tenant username,
    readByLogin wireName = (username, tenant.domain) ∧
      readByPlugin wireName = (username, tenant.domain)

theorem readByPlugin_eq (wireName : Str) : readByPlugin wireName = readByLogin wireName := rfl

theorem domain_of_carriesTenantOf
    {dataHolder : CarbonBasedPrincipalDatabase.AuthenticationServiceDataHolder}
    {wireName : Str} {context : CarbonContext}
    (h : CarbonBasedPrincipalDatabase.CarriesTenantOf dataHolder wireName context) :
    context.tenantDomain = some (readByLogin wireName).2 := by
  rw [CarbonBasedPrincipalDatabase.CarriesTenantOf] at h
  split at h
  · rename_i hdomain
    rw [readByLogin, hdomain]
    exact h.1
  · rename_i hdomain
    rw [readByLogin, hdomain]
    exact h.1

theorem domain_of_tenantContext (surroundings : QpidAuthorizationPlugin.Surroundings)
    (wireName : Str) : (QpidAuthorizationPlugin.tenantContext surroundings wireName).tenantDomain =
      some (readByPlugin wireName).2 := by
  rw [QpidAuthorizationPlugin.tenantContext, readByPlugin]
  cases QpidAuthorizationPlugin.domainNameOf wireName <;> rfl

section
variable {username : Str}

theorem readByLogin_append (huser : '!' ∉ username) (domain : Str) :
    readByLogin (username ++ '!' :: domain) = (username, domain) := by
  rw [readByLogin, CarbonBasedPrincipalDatabase.splitUsername, splitFirst_append huser,
    Option.getD_some]

theorem readByLogin_of_notMem (huser : '!' ∉ username) :
    readByLogin username = (username, SUPER_TENANT_DOMAIN_NAME) := by
  rw [readByLogin, CarbonBasedPrincipalDatabase.splitUsername, splitFirst_of_notMem huser,
    Option.getD_none]

/-- `getCurrentUser` and `getLoggedInUserName` differ in the id that they take for the super
tenant's. -/
theorem readByLogin_trimmed (tenant : Tenant) (hne : username ≠ []) (huser : '!' ∉ username)
    (hblank : trim username = username) {superID : Int} (hsuper : superID ≤ 0) :
    readByLogin (if tenant.id ≠ superID then trim (username ++ "!".toList ++ tenant.domain)
      else trim username) = (username, trimEnd tenant.domain) := by
  split
  · have hname : username ++ "!".toList ++ tenant.domain = username ++ '!' :: tenant.domain := by
      simp
    rw [hname, trim_append hblank hne (by decide), readByLogin_append huser]
  · rename_i hid
    have hdomain := tenant.superTenant (by omega)
    rw [hblank, readByLogin_of_notMem huser, hdomain]
    rfl

theorem readByLogin_internal_iff (huser : '!' ∉ username) {domain : Str} (hdomain : '@' ∉ domain) :
    readByLogin (getInternalTenantUsername (username ++ '@' :: domain)) = (username, domain) ↔
      '@' ∉ username := by
  have hwire : getInternalTenantUsername (username ++ '@' :: domain) =
      replaceChar '@' '!' username ++ '!' :: domain := by
    rw [getInternalTenantUsername, replaceChar_append]
    exact congrArg (replaceChar '@' '!' username ++ '!' :: ·) (replaceChar_of_notMem hdomain)
  rw [hwire]
  constructor
  · intro hread hat
    have hinitial : upTo '!' (replaceChar '@' '!' username) = username := by
      rw [← upTo_append_cons _ _ domain]
      exact congrArg Prod.fst hread
    rw [← hinitial] at hat
    exact notMem_replaceChar (by decide) username (mem_of_mem_upTo hat)
  · intro hat
    rw [replaceChar_of_notMem hat, readByLogin_append huser]

end

/-- A name survives when it has no `@` of its own and its domain loses nothing to `trim`. -/
theorem survives_iff (tenant : Tenant) {username : Str} (hne : username ≠ [])
    (huser : '!' ∉ username) (hblank : trim username = username) :
    Survives tenant username ↔ '@' ∉ username ∧ endsBlank tenant.domain = false := by
  have hinternal := readByLogin_internal_iff huser tenant.separatorFree.2
  have hcurrent : readByLogin (getCurrentUser (tenant.context username)) =
      (username, trimEnd tenant.domain) :=
    readByLogin_trimmed tenant hne huser hblank (le_refl 0)
  have hloggedIn : readByLogin (getLoggedInUserName (tenant.context username)) =
      (username, trimEnd tenant.domain) :=
    readByLogin_trimmed tenant hne huser hblank (by decide : SUPER_TENANT_ID ≤ 0)
  simp only [Survives, wireNames, readByPlugin_eq, and_self, List.forall_mem_cons, hcurrent,
    hloggedIn, hinternal, ← trimEnd_eq_self_iff]
  simp

def exampleTenant (domain : Str) (h : '!' ∉ domain ∧ '@' ∉ domain) : Tenant :=
  ⟨1, domain, fun hid => absurd hid (by decide), h⟩

theorem survives_alice : Survives (exampleTenant "foo.com".toList (by decide)) "alice".toList :=
  (survives_iff _ (by decide) (by decide) (by decide)).2 ⟨by decide, by decide⟩

theorem email_misread : ¬Survives (exampleTenant "c".toList (by decide)) "a@b".toList ∧
    readByLogin (getInternalTenantUsername "a@b@c".toList) = ("a".toList, "b!c".toList) := by
  have hread : readByLogin (getInternalTenantUsername "a@b@c".toList) =
      ("a".toList, "b!c".toList) := by decide
  refine ⟨fun h => ?_, hread⟩
  have hwire := (h (getInternalTenantUsername "a@b@c".toList) (by decide)).1
  rw [hread] at hwire
  exact absurd hwire (by decide)

end CarbonMessaging.WireUserNames
