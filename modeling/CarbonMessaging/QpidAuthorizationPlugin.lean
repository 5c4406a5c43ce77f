import CarbonMessaging.QpidAuthorizationHandler

/-! The broker's side of access control. An operation is judged inside a tenant flow that enters
the tenant of the thread's principal; whatever is thrown there denies the operation. -/

namespace CarbonMessaging.QpidAuthorizationPlugin

open JavaLang FaultyCalls QpidAuthorizationHandler

variable {β : Type}

inductive Operation where
  | CREATE | BIND | PUBLISH | CONSUME | UNBIND | DELETE | other (name : Str)
  deriving DecidableEq

inductive ObjectType where
  | EXCHANGE | QUEUE | other (name : Str)
  deriving DecidableEq

/-- What the plugin asks besides the handlers: the principals of the thread's subject, the realm
service, the ids that the context's `getTenantId(true)` resolves domains to, and the broker's
default answer. -/
structure Surroundings where
  threadSubject : Option (List Str)
  realmService : Option (RealmService Int)
  resolveTenantId : Str → Int
  getDefault : Result

variable (surroundings : Surroundings)

def principalName : Carbon β (Option Str) :=
  match surroundings.threadSubject with
  | none => pure none
  | some [] =>
    raise ⟨.other "java.lang.ArrayIndexOutOfBoundsException".toList, some "0".toList⟩
  | some (name :: _) => pure (some name)

def domainNameOf (username : Str) : Option Str :=
  if '!' ∈ username then some (after '!' username) else none

def userOf (username : Str) : Str := upTo '!' username

def getUserRealm (username : Str) : Carbon β (Option Int) :=
  match surroundings.realmService with
  | none => pure none
  | some realmService =>
    handling (do
      let tenantID ←
        match domainNameOf username with
        | none => pure SUPER_TENANT_ID
        | some domainName => realmService.getTenantId domainName
      query fun _ => realmService.tenantUserRealm tenantID)
      fun e => if e.kind = .userStore ∨ e.kind = .nullPointer then pure none else raise e

def enterTenant (username : Str) : Carbon β Unit :=
  match domainNameOf username with
  | some tenantDomain => do
    poke fun w => { w with context := { w.context with tenantDomain := some tenantDomain } }
    let tenantId ← query fun _ => surroundings.resolveTenantId tenantDomain
    poke fun w => { w with context := { w.context with tenantId := tenantId } }
  | none =>
    poke fun w => { w with
      context := { w.context with
        tenantId := SUPER_TENANT_ID
        tenantDomain := some SUPER_TENANT_DOMAIN_NAME } }

def dispatch (operation : Operation) (objectType : ObjectType) (username : Str)
    (userRealm : Option Int) (properties : ObjectProperties) : Carbon β Result :=
  match operation, objectType with
  | .CREATE, .EXCHANGE => pure .ALLOWED
  | .CREATE, .QUEUE => handleCreateQueue username userRealm properties
  -- a creation of anything else falls through to the next case
  | .CREATE, .other _ | .BIND, _ => handleBindQueue username userRealm properties
  | .PUBLISH, _ => handlePublishToExchange username userRealm properties
  | .CONSUME, _ => handleConsumeQueue username userRealm properties
  | .UNBIND, _ => handleUnbindQueue properties
  | .DELETE, .EXCHANGE => pure .ALLOWED
  | .DELETE, .QUEUE => handleDeleteQueue username userRealm properties
  | .DELETE, .other _ | .other _, _ => pure .DENIED

def judge (operation : Operation) (objectType : ObjectType) (properties : ObjectProperties) :
    Carbon β Result := do
  match ← principalName surroundings with
  | none => pure surroundings.getDefault
  | some username =>
    let userRealm ← getUserRealm surroundings username
    enterTenant surroundings username
    dispatch operation objectType (userOf username) userRealm properties

def authorise (operation : Operation) (objectType : ObjectType) (properties : ObjectProperties) :
    Carbon β Result :=
  inTenantFlow (handling (judge surroundings operation objectType properties) fun _ =>
    pure .DENIED)

def tenantContext (username : Str) : CarbonContext :=
  match domainNameOf username with
  | some tenantDomain => ⟨surroundings.resolveTenantId tenantDomain, some tenantDomain, []⟩
  | none => ⟨SUPER_TENANT_ID, some SUPER_TENANT_DOMAIN_NAME, []⟩

/-- The plugin answers whatever fails, and the thread is back in its own context. -/
theorem authorise_returns (operation : Operation) (objectType : ObjectType)
    (properties : ObjectProperties) (site : Site JavaException (World β)) :
    ∃ result t, authorise surroundings operation objectType properties site = .ok result t ∧
      t.state.context = site.state.context := by
  rw [authorise, inTenantFlow]
  split
  · exact ⟨_, _, rfl, rfl⟩
  · rename_i hraised
    rw [handling_apply] at hraised
    split at hraised
    · cases hraised
    · cases hraised

end CarbonMessaging.QpidAuthorizationPlugin
