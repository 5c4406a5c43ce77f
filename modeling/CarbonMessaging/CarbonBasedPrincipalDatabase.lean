import CarbonMessaging.CarbonPlatform

/-! Authentication of broker users against the Carbon user stores. Every question to the realm
service, the tenant manager or a user store may raise. -/

namespace CarbonMessaging.CarbonBasedPrincipalDatabase

open JavaLang FaultyCalls

structure UserStoreManager where
  isExistingUser : Str → Bool
  authenticate : (username password : Str) → Bool

/-- A realm is what it answers for its user store manager. -/
structure AuthenticationServiceDataHolder where
  accessKey : Option Str
  realmService : Option (RealmService (Option UserStoreManager))

structure LoginState where
  context : CarbonContext
  authenticated : Bool

abbrev Login (α : Type) := Prog JavaException LoginState α

variable (dataHolder : AuthenticationServiceDataHolder)

def splitUsername (username : Str) : Str × Option Str := splitFirst '!' username

/-- `destroyCurrentContext`, then both setters on the fresh context. -/
def renewContext (tenantDomain : Str) (tenantID : Int) : Login Unit :=
  poke fun s => { s with
    context :=
      { CarbonContext.fresh with tenantDomain := some tenantDomain, tenantId := tenantID } }

def tenantIDOfUser (realmService : RealmService (Option UserStoreManager)) (username : Str) :
    Login Int :=
  match (splitUsername username).2 with
  | none => pure SUPER_TENANT_ID
  | some domainName => realmService.getTenantId domainName

def getUserRealm (username : Str) : Login (Option (Option UserStoreManager)) :=
  match dataHolder.realmService with
  | none => pure none
  | some realmService =>
    handling (do
      renewContext SUPER_TENANT_DOMAIN_NAME SUPER_TENANT_ID
      let tenantID ← tenantIDOfUser realmService username
      query fun _ => realmService.tenantUserRealm tenantID)
      fun e => if e.kind = .userStore then pure none else raise e

def accountNotFound (principal : Str) : JavaException :=
  ⟨.accountNotFound, some ("Invalid User : ".toList ++ principal)⟩

def authenticateExternal (principal password : Str) : Login Bool := do
  match ← getUserRealm dataHolder principal with
  | none => raise (accountNotFound principal)
  | some userRealm =>
    let username := (splitUsername principal).1
    let userStoreManager ← throwIfNull (← query fun _ => userRealm)
    if !(← query fun _ => userStoreManager.isExistingUser username) then
      raise (accountNotFound principal)
    else
      let userStoreManager ← throwIfNull (← query fun _ => userRealm)
      let isAuthenticated ← query fun _ => userStoreManager.authenticate username password
      match isAuthenticated, (splitUsername principal).2 with
      | true, some domainName =>
        let realmService ← throwIfNull dataHolder.realmService
        let tenantID ← realmService.getTenantId domainName
        renewContext domainName tenantID
        pure true
      | isAuthenticated, _ => pure isAuthenticated

/-- The access key stands for any principal. -/
def authenticate (principal password : Str) : Login Bool :=
  if some password = dataHolder.accessKey then pure true
  else authenticateExternal dataHolder principal password

def setPassword (principal password : Option Str) : Login Unit :=
  handling (do
    match principal with
    | none => raise ⟨.illegalArgument, some "Principal should never be null".toList⟩
    | some principal =>
      let password ← throwIfNull password
      let isAuthenticated ← authenticate dataHolder principal password
      poke fun s => { s with authenticated := isAuthenticated })
    fun e => if e.kind = .userStore ∨ e.kind = .nullPointer then pure () else raise e

/-- The context carries the tenant that the principal's name tells. -/
def CarriesTenantOf (principal : Str) (context : CarbonContext) : Prop :=
  match (splitUsername principal).2 with
  | none => context.tenantDomain = some SUPER_TENANT_DOMAIN_NAME ∧
      context.tenantId = SUPER_TENANT_ID
  | some domainName => context.tenantDomain = some domainName ∧
      ∃ realmService tenantManager, dataHolder.realmService = some realmService ∧
        realmService.tenantManager = some tenantManager ∧
        context.tenantId = tenantManager domainName

section
variable {s : LoginState}

theorem keeps_tenantIDOfUser {I : LoginState → Prop}
    (realmService : RealmService (Option UserStoreManager)) (username : Str) :
    Keeps I (tenantIDOfUser realmService username) := by
  unfold tenantIDOfUser
  split
  · exact keeps_pure _
  · exact (holds_getTenantId realmService _ fun _ _ ht => ht).mono (fun _ ht => ht)
      (fun _ _ ht => ht.2) fun _ _ ht => ht

theorem holds_getUserRealm (username : Str) :
    Holds (· = s) (getUserRealm dataHolder username)
      (fun realm t => t.authenticated = s.authenticated ∧
        (realm ≠ none → t.context = ⟨SUPER_TENANT_ID, some SUPER_TENANT_DOMAIN_NAME, []⟩))
      (fun _ t => t.authenticated = s.authenticated) := by
  unfold getUserRealm
  cases dataHolder.realmService with
  | none => exact holds_pure fun t ht => ⟨by rw [ht], by simp⟩
  | some realmService =>
    refine holds_handling (R := fun _ t => t.authenticated = s.authenticated) ?_ fun e => ?_
    · refine holds_poke_bind (holds_bind ((keeps_tenantIDOfUser realmService username).mono
        (fun _ ht => ht) (fun _ _ ht => ht) fun _ _ ht => by rw [ht]) fun tenantID => ?_)
      refine holds_query (fun _ _ ht => by rw [ht]) fun t ht => ?_
      rw [ht]
      exact ⟨rfl, fun _ => rfl⟩
    · split
      · exact holds_pure fun t ht => ⟨ht, by simp⟩
      · exact holds_raise fun _ ht => ht

theorem holds_authenticateExternal (principal password : Str) :
    Holds (· = s) (authenticateExternal dataHolder principal password)
      (fun isAuthenticated t => t.authenticated = s.authenticated ∧
        (isAuthenticated = true → CarriesTenantOf dataHolder principal t.context))
      (fun _ t => t.authenticated = s.authenticated) := by
  refine holds_bind (holds_getUserRealm dataHolder principal) fun realm => ?_
  cases realm with
  | none => exact holds_raise fun _ ht => ht.1
  | some userRealm =>
    refine holds_of_states fun t ht => ?_
    obtain ⟨hauthenticated, hcontext⟩ := ht
    have hcontext := hcontext (by simp)
    have hkept : ∀ (e : JavaException) t', t' = t → t'.authenticated = s.authenticated :=
      fun _ _ h => h ▸ hauthenticated
    refine holds_query_bind (fun _ => hauthenticated) (holds_bind (holds_throwIfNull _ hkept)
      fun userStoreManager => holds_of_fact fun _ => ?_)
    refine holds_query_bind (fun _ => hauthenticated) ?_
    split
    · exact holds_raise (hkept (accountNotFound principal))
    · refine holds_query_bind (fun _ => hauthenticated) (holds_bind (holds_throwIfNull _ hkept)
        fun userStoreManager => holds_of_fact fun _ => ?_)
      refine holds_query_bind (fun _ => hauthenticated) ?_
      split
      · rename_i domainName _ hdomain
        refine holds_bind (holds_throwIfNull _ hkept) fun realmService =>
          holds_of_fact fun hservice => ?_
        refine holds_bind (holds_getTenantId realmService domainName hkept) fun tenantID =>
          holds_of_fact fun htenant => ?_
        obtain ⟨tenantManager, hmanager, htenantID⟩ := htenant
        refine holds_poke_bind (holds_pure fun t' ht' => ?_)
        rw [ht', CarriesTenantOf, hdomain]
        exact ⟨hauthenticated, fun _ =>
          ⟨rfl, realmService, tenantManager, hservice, hmanager, htenantID⟩⟩
      · rename_i hother
        refine holds_pure fun t' ht' => ⟨hkept (accountNotFound []) t' ht', fun htrue => ?_⟩
        cases hdomain : (splitUsername principal).2 with
        | none =>
          rw [ht', CarriesTenantOf, hdomain, hcontext]
          exact ⟨rfl, rfl⟩
        | some domainName => exact absurd hdomain (hother domainName htrue)

theorem holds_authenticate (principal password : Str) :
    Holds (· = s) (authenticate dataHolder principal password)
      (fun isAuthenticated t => isAuthenticated = true →
        (some password = dataHolder.accessKey → t.context = s.context) ∧
        (some password ≠ dataHolder.accessKey → CarriesTenantOf dataHolder principal t.context))
      (fun _ t => t.authenticated = s.authenticated) := by
  unfold authenticate
  split
  · rename_i hkey
    exact holds_pure fun t ht _ => ⟨fun _ => by rw [ht], fun h => absurd hkey h⟩
  · rename_i hkey
    exact (holds_authenticateExternal dataHolder principal password).mono (fun _ ht => ht)
      (fun _ _ ht htrue => ⟨fun h => absurd h hkey, fun _ => ht.2 htrue⟩) fun _ _ ht => ht

theorem holds_setPassword (principal password : Option Str) (hs : s.authenticated = false) :
    Holds (· = s) (setPassword dataHolder principal password)
      (fun _ t => t.authenticated = true → ∃ name word, principal = some name ∧
        password = some word ∧ (some word = dataHolder.accessKey → t.context = s.context) ∧
        (some word ≠ dataHolder.accessKey → CarriesTenantOf dataHolder name t.context))
      (fun _ t => t.authenticated = false) := by
  refine holds_handling (R := fun _ t => t.authenticated = false) ?_ fun e => ?_
  · cases principal with
    | none => exact holds_raise fun t ht => ht ▸ hs
    | some name =>
      refine holds_bind (holds_throwIfNull _ fun _ t ht => ht ▸ hs) fun word =>
        holds_of_fact fun hword => ?_
      refine holds_bind ((holds_authenticate dataHolder name word).mono (fun _ ht => ht)
        (fun _ _ ht => ht) fun _ _ ht => ht.trans hs) fun isAuthenticated => ?_
      exact holds_poke fun t ht htrue => ⟨name, word, rfl, hword, ht htrue⟩
  · split
    · exact holds_pure fun t ht htrue => by simp [ht] at htrue
    · exact holds_raise fun t ht => ht

end

end CarbonMessaging.CarbonBasedPrincipalDatabase
