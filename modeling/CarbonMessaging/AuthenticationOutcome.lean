import CarbonMessaging.CarbonBasedPrincipalDatabase
import CarbonMessaging.FaultyReturns

/-! What a login needs to be reported as authenticated, whatever the services answer and wherever
one of them throws or answers null. -/

namespace CarbonMessaging.AuthenticationOutcome

open JavaLang FaultyCalls CarbonBasedPrincipalDatabase

variable (dataHolder : AuthenticationServiceDataHolder)

def realmTenant (realmService : RealmService (Option UserStoreManager)) (name : Str) :
    Option Int :=
  match (splitUsername name).2 with
  | none => some SUPER_TENANT_ID
  | some domainName => realmService.tenantManager.map (· domainName)

def idLookups (name : Str) : Nat :=
  match (splitUsername name).2 with
  | none => 0
  | some _ => 1

def RealmFound (name : Str) (outcomes : List (Option JavaException))
    (userRealm : Option UserStoreManager) : Prop :=
  GoesThrough (idLookups name + 1) outcomes ∧
    ∃ realmService tenantID, dataHolder.realmService = some realmService ∧
      realmTenant realmService name = some tenantID ∧
      realmService.tenantUserRealm tenantID = some userRealm

/-- The realm is found, its store has the user and takes the password, and the tenant id lookup
behind that does not throw. -/
def ChecksOut (name word : Str) (outcomes : List (Option JavaException)) : Prop :=
  ∃ store, RealmFound dataHolder name outcomes (some store) ∧
    (GoesThrough 2 (outcomes.drop (idLookups name + 1)) ∧
      store.isExistingUser (splitUsername name).1 = true) ∧
    (GoesThrough 2 (outcomes.drop (idLookups name + 3)) ∧
      store.authenticate (splitUsername name).1 word = true) ∧
    GoesThrough (idLookups name) (outcomes.drop (idLookups name + 5))

def reportsAuthenticated (principal password : Option Str) (context : CarbonContext)
    (outcomes : List (Option JavaException)) : Bool :=
  (finalAt (setPassword dataHolder principal password) ⟨⟨context, false⟩, outcomes⟩).authenticated

section
variable {s : LoginState} {outcomes : List (Option JavaException)}
  {t : Site JavaException LoginState}

theorem throwIfNull_eq_ok {σ α : Type} {a : Option α} {b : α} {site u : Site JavaException σ} :
    throwIfNull a site = .ok b u ↔ a = some b ∧ site = u := by
  cases a <;> simp [throwIfNull]

theorem renewContext_eq_ok {tenantDomain : Str} {tenantID : Int} {a : Unit} :
    renewContext tenantDomain tenantID ⟨s, outcomes⟩ = .ok a t ↔
      ⟨{ s with context := ⟨tenantID, some tenantDomain, []⟩ }, outcomes⟩ = t := poke_eq_ok

theorem getTenantId_eq_ok {σ : Type} {s : σ} {t : Site JavaException σ}
    {realmService : RealmService (Option UserStoreManager)} {domainName : Str} {tenantID : Int} :
    realmService.getTenantId domainName ⟨s, outcomes⟩ = .ok tenantID t ↔
      GoesThrough 1 outcomes ∧ realmService.tenantManager.map (· domainName) = some tenantID ∧
        ⟨s, outcomes.drop 1⟩ = t := by
  simp only [RealmService.getTenantId, bind_eq_ok, throwIfNull_eq_ok]
  constructor
  · rintro ⟨tenantManager, _, ⟨hmanager, rfl⟩, hquery⟩
    obtain ⟨hthrough, hid, ht⟩ := query_eq_ok.1 hquery
    exact ⟨hthrough, by rw [hmanager, Option.map_some, hid], ht⟩
  · rintro ⟨hthrough, hid, ht⟩
    obtain ⟨tenantManager, hmanager, hid⟩ := Option.map_eq_some_iff.1 hid
    exact ⟨tenantManager, _, ⟨hmanager, rfl⟩, query_eq_ok.2 ⟨hthrough, hid, ht⟩⟩

theorem tenantIDOfUser_eq_ok {realmService : RealmService (Option UserStoreManager)}
    {name : Str} {tenantID : Int} :
    tenantIDOfUser realmService name ⟨s, outcomes⟩ = .ok tenantID t ↔
      GoesThrough (idLookups name) outcomes ∧ realmTenant realmService name = some tenantID ∧
        ⟨s, outcomes.drop (idLookups name)⟩ = t := by
  unfold tenantIDOfUser realmTenant idLookups
  cases (splitUsername name).2 with
  | none => simp
  | some domainName => exact getTenantId_eq_ok

theorem getUserRealm_eq_ok {name : Str} {userRealm : Option UserStoreManager} :
    getUserRealm dataHolder name ⟨s, outcomes⟩ = .ok (some userRealm) t ↔
      RealmFound dataHolder name outcomes userRealm ∧
        ⟨{ s with context := ⟨SUPER_TENANT_ID, some SUPER_TENANT_DOMAIN_NAME, []⟩ },
          outcomes.drop (idLookups name + 1)⟩ = t := by
  unfold getUserRealm RealmFound
  cases dataHolder.realmService with
  | none => simp
  | some realmService =>
    have hcaught : ∀ (e : JavaException) u,
        (if e.kind = .userStore then pure none else raise e : Login _) u ≠
          .ok (some userRealm) t := by
      intro e u
      split <;> simp
    simp only [handling_eq_ok, hcaught, and_false, exists_false, or_false, bind_eq_ok]
    constructor
    · rintro ⟨_, u, hrenewed, tenantID, v, hlookup, hasked⟩
      obtain rfl := renewContext_eq_ok.1 hrenewed
      obtain ⟨hthrough, htenant, rfl⟩ := tenantIDOfUser_eq_ok.1 hlookup
      obtain ⟨hlast, hrealm, rfl⟩ := query_eq_ok.1 hasked
      rw [goesThrough_add, List.drop_drop]
      exact ⟨⟨⟨hthrough, hlast⟩, realmService, tenantID, rfl, htenant, hrealm⟩, rfl⟩
    · rintro ⟨⟨hthrough, _, tenantID, hservice, htenant, hrealm⟩, rfl⟩
      cases hservice
      rw [goesThrough_add] at hthrough
      refine ⟨(), _, renewContext_eq_ok.2 rfl, tenantID, _,
        tenantIDOfUser_eq_ok.2 ⟨hthrough.1, htenant, rfl⟩, ?_⟩
      exact query_eq_ok.2 ⟨hthrough.2, hrealm, by rw [List.drop_drop]⟩

theorem askStore_returns {α : Type} {userRealm : Option UserStoreManager}
    {ask : UserStoreManager → α} {f : α → Login Bool} {b : Bool} :
    (∃ t, (do
      let userStoreManager ← throwIfNull (← query fun _ => userRealm)
      f (← query fun _ => ask userStoreManager)) (⟨s, outcomes⟩ : Site JavaException LoginState) =
        .ok b t) ↔
      ∃ store, userRealm = some store ∧ GoesThrough 2 outcomes ∧
        ∃ t, f (ask store) ⟨s, outcomes.drop 2⟩ = .ok b t := by
  simp only [bind_eq_ok]
  constructor
  · rintro ⟨t, _, u, hrealm, store, v, hnonnull, answer, x, hanswer, hrest⟩
    obtain ⟨hfirst, rfl, rfl⟩ := query_eq_ok.1 hrealm
    obtain ⟨hstore, rfl⟩ := throwIfNull_eq_ok.1 hnonnull
    obtain ⟨hsecond, rfl, rfl⟩ := query_eq_ok.1 hanswer
    rw [List.drop_drop] at hrest
    exact ⟨store, hstore, (goesThrough_add 1 1 outcomes).2 ⟨hfirst, hsecond⟩, t, hrest⟩
  · rintro ⟨store, hstore, hthrough, t, hrest⟩
    obtain ⟨hfirst, hsecond⟩ := (goesThrough_add 1 1 outcomes).1 hthrough
    refine ⟨t, _, _, query_eq_ok.2 ⟨hfirst, rfl, rfl⟩, store, _,
      throwIfNull_eq_ok.2 ⟨hstore, rfl⟩, _, _, query_eq_ok.2 ⟨hsecond, rfl, rfl⟩, ?_⟩
    rw [List.drop_drop]
    exact hrest

end

section
variable {s : LoginState} {outcomes : List (Option JavaException)}

theorem secondLookup_eq_true {name domainName : Str}
    {realmService : RealmService (Option UserStoreManager)} {tenantID : Int}
    (hdomain : (splitUsername name).2 = some domainName)
    (hservice : dataHolder.realmService = some realmService)
    (htenant : realmTenant realmService name = some tenantID) :
    (∃ t, (do
      let realmService ← throwIfNull dataHolder.realmService
      let tenantID ← realmService.getTenantId domainName
      renewContext domainName tenantID
      pure true) ⟨s, outcomes⟩ = .ok true t) ↔ GoesThrough (idLookups name) outcomes := by
  have hid : realmService.tenantManager.map (· domainName) = some tenantID := by
    simpa only [realmTenant, hdomain] using htenant
  have hlookups : idLookups name = 1 := by simp only [idLookups, hdomain]
  simp only [bind_eq_ok, hservice, throwIfNull_eq_ok, hlookups]
  constructor
  · rintro ⟨_, _, _, ⟨hfound, rfl⟩, _, _, hlookup, -⟩
    exact (getTenantId_eq_ok.1 hlookup).1
  · intro hthrough
    exact ⟨_, _, _, ⟨rfl, rfl⟩, _, _, getTenantId_eq_ok.2 ⟨hthrough, hid, rfl⟩, (), _,
      renewContext_eq_ok.2 rfl, rfl⟩

def afterLookup (principal password : Str) (userRealm : Option UserStoreManager) (known : Bool) :
    Login Bool :=
  if !known then raise (accountNotFound principal)
  else do
    let userStoreManager ← throwIfNull (← query fun _ => userRealm)
    let isAuthenticated ← query fun _ =>
      userStoreManager.authenticate (splitUsername principal).1 password
    match isAuthenticated, (splitUsername principal).2 with
    | true, some domainName =>
      let realmService ← throwIfNull dataHolder.realmService
      let tenantID ← realmService.getTenantId domainName
      renewContext domainName tenantID
      pure true
    | isAuthenticated, _ => pure isAuthenticated

theorem authenticateExternal_eq (name word : Str) :
    authenticateExternal dataHolder name word = (do
      match ← getUserRealm dataHolder name with
      | none => raise (accountNotFound name)
      | some userRealm =>
        let userStoreManager ← throwIfNull (← query fun _ => userRealm)
        afterLookup dataHolder name word userRealm
          (← query fun _ => userStoreManager.isExistingUser (splitUsername name).1)) := by
  refine bind_congr fun realm => ?_
  cases realm <;> rfl

theorem afterLookup_eq_true {name word : Str} {store : UserStoreManager} {known : Bool}
    {realmService : RealmService (Option UserStoreManager)} {tenantID : Int}
    (hservice : dataHolder.realmService = some realmService)
    (htenant : realmTenant realmService name = some tenantID) :
    (∃ t, afterLookup dataHolder name word (some store) known ⟨s, outcomes⟩ = .ok true t) ↔
      known = true ∧
      (GoesThrough 2 outcomes ∧ store.authenticate (splitUsername name).1 word = true) ∧
      GoesThrough (idLookups name) (outcomes.drop 2) := by
  cases known with
  | false => simp [afterLookup]
  | true =>
    refine askStore_returns.trans ?_
    simp only [Option.some.injEq, exists_eq_left', true_and, and_assoc, and_congr_right_iff]
    intro _
    cases hword : store.authenticate (splitUsername name).1 word with
    | false => cases (splitUsername name).2 <;> simp
    | true =>
      cases hdomain : (splitUsername name).2 with
      | none => simp [idLookups, hdomain]
      | some domainName =>
        rw [← secondLookup_eq_true dataHolder hdomain hservice htenant, eq_self, true_and]

theorem authenticateExternal_eq_true {name word : Str} :
    (∃ t, authenticateExternal dataHolder name word ⟨s, outcomes⟩ = .ok true t) ↔
      ChecksOut dataHolder name word outcomes := by
  rw [authenticateExternal_eq]
  constructor
  · rintro ⟨t, hexternal⟩
    obtain ⟨realm, u, hrealm, hrest⟩ := bind_eq_ok.1 hexternal
    cases realm with
    | none => simp at hrest
    | some userRealm =>
      obtain ⟨hfound, rfl⟩ := (getUserRealm_eq_ok dataHolder).1 hrealm
      obtain ⟨store, rfl, hasked, hchecked⟩ := askStore_returns.1 ⟨t, hrest⟩
      obtain ⟨realmService, tenantID, hservice, htenant, -⟩ := hfound.2
      rw [afterLookup_eq_true dataHolder hservice htenant, List.drop_drop,
        List.drop_drop] at hchecked
      exact ⟨store, hfound, ⟨hasked, hchecked.1⟩, hchecked.2⟩
  · rintro ⟨store, hfound, ⟨hasked, hexists⟩, hchecked⟩
    obtain ⟨realmService, tenantID, hservice, htenant, -⟩ := hfound.2
    rw [bind_apply, (getUserRealm_eq_ok dataHolder (s := s)).2 ⟨hfound, rfl⟩]
    refine askStore_returns.2 ⟨store, rfl, hasked, ?_⟩
    rw [afterLookup_eq_true dataHolder hservice htenant, List.drop_drop, List.drop_drop]
    exact ⟨hexists, hchecked⟩

theorem setPassword_authenticates {name : Str} {password : Option Str}
    (hs : s.authenticated = false) :
    (finalAt (setPassword dataHolder (some name) password) ⟨s, outcomes⟩).authenticated = true ↔
      ∃ word t, password = some word ∧
        authenticate dataHolder name word ⟨s, outcomes⟩ = .ok true t := by
  cases password with
  | none => simp [setPassword, finalAt, throwIfNull, nullPointerException, hs]
  | some word =>
    have hkept := holds_authenticate dataHolder (s := s) name word ⟨s, outcomes⟩ rfl
    cases hresult : authenticate dataHolder name word ⟨s, outcomes⟩ with
    | ok isAuthenticated t => simp [setPassword, finalAt, throwIfNull, hresult]
    | error e t =>
      rw [hresult] at hkept
      by_cases hcaught : e.kind = .userStore ∨ e.kind = .nullPointer <;>
        simp [setPassword, finalAt, throwIfNull, hresult, hcaught, hkept, hs]

/-- What the services may throw, and the one exception the login itself throws. -/
def Expected (principal : Str) (e : JavaException) : Prop :=
  (e.kind = .userStore ∨ e.kind = .nullPointer) ∨ e = accountNotFound principal

variable {S K : JavaException → Prop}

theorem raisesWithin_throwIfNull {σ α : Type} (hnull : K nullPointerException) (a : Option α) :
    RaisesWithin S K (throwIfNull a : Prog JavaException σ α) := by
  cases a with
  | none => exact raisesWithin_raise hnull
  | some a => exact raisesWithin_pure a

theorem raisesWithin_getTenantId {σ : Type} (hS : ∀ e, S e → K e) (hnull : K nullPointerException)
    (realmService : RealmService (Option UserStoreManager)) (domainName : Str) :
    RaisesWithin S K (realmService.getTenantId domainName : Prog JavaException σ Int) :=
  raisesWithin_bind (raisesWithin_throwIfNull hnull _) fun _ => raisesWithin_query hS _

theorem raisesWithin_getUserRealm (hS : ∀ e, S e → K e) (hnull : K nullPointerException)
    (username : Str) : RaisesWithin S K (getUserRealm dataHolder username) := by
  unfold getUserRealm
  cases dataHolder.realmService with
  | none => exact raisesWithin_pure none
  | some realmService =>
    refine raisesWithin_handling (K := K) ?_ fun e he => ?_
    · refine raisesWithin_bind (raisesWithin_poke _) fun _ => raisesWithin_bind ?_ fun _ =>
        raisesWithin_query hS _
      unfold tenantIDOfUser
      cases (splitUsername username).2 with
      | none => exact raisesWithin_pure _
      | some domainName => exact raisesWithin_getTenantId hS hnull realmService domainName
    · split
      · exact raisesWithin_pure none
      · exact raisesWithin_raise he

theorem raisesWithin_afterLookup (hS : ∀ e, S e → K e) (hnull : K nullPointerException)
    (principal password : Str) (userRealm : Option UserStoreManager) :
    RaisesWithin S K (afterLookup dataHolder principal password userRealm true) := by
  refine raisesWithin_bind (raisesWithin_query hS _) fun _ => raisesWithin_bind
    (raisesWithin_throwIfNull hnull _) fun _ => raisesWithin_bind (raisesWithin_query hS _)
    fun isAuthenticated => ?_
  split
  · exact raisesWithin_bind (raisesWithin_throwIfNull hnull _) fun realmService =>
      raisesWithin_bind (raisesWithin_getTenantId hS hnull realmService _) fun _ =>
        raisesWithin_bind (raisesWithin_poke _) fun _ => raisesWithin_pure true
  · exact raisesWithin_pure _

theorem raisesWithin_authenticateExternal (hS : ∀ e, S e → K e) (hnull : K nullPointerException)
    {principal : Str} (hunknown : K (accountNotFound principal)) (password : Str) :
    RaisesWithin S K (authenticateExternal dataHolder principal password) := by
  rw [authenticateExternal_eq]
  refine raisesWithin_bind (raisesWithin_getUserRealm dataHolder hS hnull principal) fun realm => ?_
  cases realm with
  | none => exact raisesWithin_raise hunknown
  | some userRealm =>
    refine raisesWithin_bind (raisesWithin_query hS _) fun _ => raisesWithin_bind
      (raisesWithin_throwIfNull hnull _) fun _ => raisesWithin_bind (raisesWithin_query hS _)
      fun known => ?_
    cases known with
    | false => exact raisesWithin_raise hunknown
    | true => exact raisesWithin_afterLookup dataHolder hS hnull principal password userRealm

theorem raisesWithin_setPassword (principal : Str) (password : Option Str) :
    RaisesWithin (fun e => e.kind = .userStore ∨ e.kind = .nullPointer)
      (· = accountNotFound principal) (setPassword dataHolder (some principal) password) := by
  have hnull : Expected principal nullPointerException := .inl (.inr rfl)
  refine raisesWithin_handling (K := Expected principal) ?_ fun e he => ?_
  · refine raisesWithin_bind (raisesWithin_throwIfNull hnull password) fun word =>
      raisesWithin_bind ?_ fun _ => raisesWithin_poke _
    unfold authenticate
    split
    · exact raisesWithin_pure true
    · exact raisesWithin_authenticateExternal dataHolder (fun _ => .inl) hnull (.inr rfl) word
  · split
    · exact raisesWithin_pure ()
    · rename_i hother
      exact raisesWithin_raise (he.resolve_left hother)

/-- The callback ends up authenticated for the access key or a check that went through to its
end; what the services throw is swallowed or reported as an unknown account. -/
theorem setPassword_fails_closed (name : Str) (password : Option Str) (context : CarbonContext)
    (outcomes : List (Option JavaException)) :
    (reportsAuthenticated dataHolder (some name) password context outcomes = true ↔
      ∃ word, password = some word ∧
        (some word = dataHolder.accessKey ∨ ChecksOut dataHolder name word outcomes)) ∧
    ∀ e t, setPassword dataHolder (some name) password ⟨⟨context, false⟩, outcomes⟩ = .error e t →
      t.state.authenticated = false ∧
      (OutcomesWithin (fun e => e.kind = .userStore ∨ e.kind = .nullPointer) outcomes →
        e = accountNotFound name) := by
  constructor
  · rw [reportsAuthenticated, setPassword_authenticates dataHolder rfl]
    refine exists_congr fun word => ?_
    rw [exists_and_left, ← authenticateExternal_eq_true dataHolder (s := ⟨context, false⟩),
      authenticate]
    by_cases hkey : some word = dataHolder.accessKey <;> simp [hkey]
  · intro e t hfailed
    have hclosed := holds_setPassword dataHolder (some name) password (s := ⟨context, false⟩) rfl
      ⟨⟨context, false⟩, outcomes⟩ rfl
    rw [hfailed] at hclosed
    refine ⟨hclosed, fun hservices => ?_⟩
    have hraised := raisesWithin_setPassword dataHolder name password
      ⟨⟨context, false⟩, outcomes⟩ hservices
    rw [hfailed] at hraised
    exact hraised.1

end

end CarbonMessaging.AuthenticationOutcome
