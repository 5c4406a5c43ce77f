import CarbonMessaging.CarbonBasedPrincipalDatabase
import CarbonMessaging.CellHistory

/-! Logins on one thread. The context a login leaves is the one the next login finds; a user
store's word renews it, the access key does not. -/

namespace CarbonMessaging.LoginContext

open JavaLang FaultyCalls CellHistory CarbonBasedPrincipalDatabase

structure LoginCall where
  dataHolder : AuthenticationServiceDataHolder
  principal : Option Str
  password : Option Str
  outcomes : List (Option JavaException)

def LoginCall.run (call : LoginCall) (context : CarbonContext) : LoginState :=
  finalAt (setPassword call.dataHolder call.principal call.password)
    ⟨⟨context, false⟩, call.outcomes⟩

def LoginCall.step (call : LoginCall) (context : CarbonContext) : CarbonContext :=
  (call.run context).context

/-- Once the call reports its principal as authenticated, the context is in the principal's
tenant. -/
def LandsInTenant (context : CarbonContext) (call : LoginCall) : Prop :=
  (call.run context).authenticated = true → ∀ name, call.principal = some name →
    CarriesTenantOf call.dataHolder name (call.run context).context

/-- A call with the access key finds the context in its principal's tenant already. -/
def KeyFitsContext (context : CarbonContext) (call : LoginCall) : Prop :=
  ∀ name word, call.principal = some name → call.password = some word →
    some word = call.dataHolder.accessKey → CarriesTenantOf call.dataHolder name context

theorem run_with_key {call : LoginCall} {name word : Str} (context : CarbonContext)
    (hname : call.principal = some name) (hword : call.password = some word)
    (hkey : some word = call.dataHolder.accessKey) : call.run context = ⟨context, true⟩ := by
  have hpure : authenticate call.dataHolder name word = pure true := if_pos hkey
  simp only [LoginCall.run, finalAt, setPassword, hname, hword, throwIfNull, handling_apply,
    bind_apply, pure_apply, hpure, poke_apply]

theorem run_authenticated (call : LoginCall) (context : CarbonContext)
    (h : (call.run context).authenticated = true) : ∃ name word, call.principal = some name ∧
      call.password = some word ∧
      (some word = call.dataHolder.accessKey → (call.run context).context = context) ∧
      (some word ≠ call.dataHolder.accessKey →
        CarriesTenantOf call.dataHolder name (call.run context).context) := by
  have hrun := @holds_setPassword call.dataHolder ⟨context, false⟩ call.principal
    call.password rfl
  refine (hrun.mono (fun _ ht => ht) (fun _ _ ht => ht) fun _ t ht htrue => ?_).finalAt rfl h
  rw [ht] at htrue
  cases htrue

/-- One login: the user stores' branch always lands, the access key's where it already is. -/
theorem landsInTenant_iff (context : CarbonContext) (call : LoginCall) :
    LandsInTenant context call ↔ KeyFitsContext context call := by
  constructor
  · intro hlands name word hname hword hkey
    have hrun := run_with_key context hname hword hkey
    have hcontext := hlands (by rw [hrun]) name hname
    rwa [hrun] at hcontext
  · intro hfits htrue name hname
    obtain ⟨name', word, hname', hword, hkey, hstore⟩ := run_authenticated call context htrue
    obtain rfl : name = name' := Option.some.inj (hname.symm.trans hname')
    by_cases h : some word = call.dataHolder.accessKey
    · rw [hkey h]
      exact hfits name word hname hword h
    · exact hstore h

/-- Over any run of logins on one thread. -/
theorem run_landsInTenant_iff (calls : List LoginCall) (context : CarbonContext) :
    (∀ p ∈ trace LoginCall.step calls context, LandsInTenant p.1 p.2) ↔
      ∀ p ∈ trace LoginCall.step calls context, KeyFitsContext p.1 p.2 :=
  forall₂_congr fun p _ => landsInTenant_iff p.1 p.2

def openServices : AuthenticationServiceDataHolder where
  accessKey := some "key".toList
  realmService := some
    ⟨some fun _ => 1, fun _ => some (some ⟨fun _ => true, fun _ _ => true⟩)⟩

def tenantLogin : LoginCall :=
  ⟨openServices, some "alice!foo.com".toList, some "secret".toList, []⟩

def internalLogin : LoginCall := ⟨openServices, some "admin".toList, some "key".toList, []⟩

theorem stale_tenant : (tenantLogin.run .fresh).authenticated = true ∧
    internalLogin.run (tenantLogin.step .fresh) = ⟨⟨1, some "foo.com".toList, []⟩, true⟩ ∧
    ¬∀ p ∈ trace LoginCall.step [tenantLogin, internalLogin] .fresh, LandsInTenant p.1 p.2 := by
  have htenant : tenantLogin.step .fresh = ⟨1, some "foo.com".toList, []⟩ := by decide
  have hinternal : internalLogin.run (tenantLogin.step .fresh) =
      ⟨⟨1, some "foo.com".toList, []⟩, true⟩ := by
    rw [htenant]
    exact run_with_key _ rfl rfl rfl
  refine ⟨by decide, hinternal, fun h => ?_⟩
  have hlands := h (tenantLogin.step .fresh, internalLogin) (by simp [trace])
  rw [LandsInTenant, hinternal] at hlands
  have hdomain := (hlands rfl "admin".toList rfl).1
  exact absurd hdomain (by decide)

end CarbonMessaging.LoginContext
