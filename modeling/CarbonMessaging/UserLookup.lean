import CarbonMessaging.AuthenticationOutcome

/-! The two ways in which the broker looks a user up: by asking for the principal and by asking
for the password. -/

namespace CarbonMessaging

namespace CarbonBasedPrincipalDatabase

open JavaLang FaultyCalls

variable (dataHolder : AuthenticationServiceDataHolder)

/-- The store is asked with the name as it stands. Any exception ends in null. -/
def getUser (username : Str) : Login (Option Str) :=
  handling (do
    match ← getUserRealm dataHolder username with
    | none => pure none
    | some userRealm =>
      let userStoreManager ← throwIfNull (← query fun _ => userRealm)
      if ← query fun _ => userStoreManager.isExistingUser username then pure (some username)
      else pure none)
    fun _ => pure none

end CarbonBasedPrincipalDatabase

namespace UserLookup

open JavaLang FaultyCalls CarbonBasedPrincipalDatabase AuthenticationOutcome

variable (dataHolder : AuthenticationServiceDataHolder)

/-- The user store behind a name. There is none without a realm; a service or a realm that
answers null where an object is needed is a NullPointerException. -/
def storeOf (name : Str) : Except JavaException (Option UserStoreManager) :=
  match dataHolder.realmService with
  | none => .ok none
  | some realmService =>
    match realmTenant realmService name with
    | none => .error nullPointerException
    | some tenantID =>
      match realmService.tenantUserRealm tenantID with
      | none => .ok none
      | some none => .error nullPointerException
      | some (some userStoreManager) => .ok (some userStoreManager)

def ReturnsPrincipal (name : Str) (site : Site JavaException LoginState) : Prop :=
  ∃ user t, getUser dataHolder name site = .ok (some user) t

def RejectsUnknown (name word : Str) (site : Site JavaException LoginState) : Prop :=
  ∃ e t, setPassword dataHolder (some name) (some word) site = .error e t ∧
    e.kind = .accountNotFound

def OfOtherKind (e : JavaException) : Prop := e.kind ≠ .accountNotFound

/-- The lookups of the tenant, its realm, its user store and the user all go through. Whatever the
services throw behind them is no AccountNotFoundException. -/
def LookupsGoThrough (name : Str) (outcomes : List (Option JavaException)) : Prop :=
  GoesThrough (idLookups name + 3) outcomes ∧ OutcomesWithin OfOtherKind outcomes

section
variable {s : LoginState} {outcomes : List (Option JavaException)}

theorem tenantIDOfUser_null {realmService : RealmService (Option UserStoreManager)} {name : Str}
    (h : realmTenant realmService name = none) :
    tenantIDOfUser realmService name ⟨s, outcomes⟩ = .error nullPointerException ⟨s, outcomes⟩ := by
  unfold realmTenant at h
  unfold tenantIDOfUser
  cases hdomain : (splitUsername name).2 with
  | none => simp [hdomain] at h
  | some domainName =>
    rw [hdomain, Option.map_eq_none_iff] at h
    simp [RealmService.getTenantId, h, throwIfNull]

def inSuperTenant (s : LoginState) : LoginState :=
  { s with context := ⟨SUPER_TENANT_ID, some SUPER_TENANT_DOMAIN_NAME, []⟩ }

theorem getUserRealm_apply {realmService : RealmService (Option UserStoreManager)} {name : Str}
    (hservice : dataHolder.realmService = some realmService)
    (hthrough : GoesThrough (idLookups name + 1) outcomes) :
    getUserRealm dataHolder name ⟨s, outcomes⟩ =
      match realmTenant realmService name with
      | none => .error nullPointerException ⟨inSuperTenant s, outcomes⟩
      | some tenantID => .ok (realmService.tenantUserRealm tenantID)
          ⟨inSuperTenant s, outcomes.drop (idLookups name + 1)⟩ := by
  obtain ⟨htenants, hrealm⟩ := (goesThrough_add (idLookups name) 1 outcomes).1 hthrough
  have hrenewed : renewContext SUPER_TENANT_DOMAIN_NAME SUPER_TENANT_ID ⟨s, outcomes⟩ =
      .ok () ⟨inSuperTenant s, outcomes⟩ := renewContext_eq_ok.2 rfl
  unfold getUserRealm
  simp only [hservice, handling_apply, bind_apply, hrenewed]
  cases htenant : realmTenant realmService name with
  | none =>
    simp only [tenantIDOfUser_null htenant]
    rfl
  | some tenantID =>
    simp only [tenantIDOfUser_eq_ok.2 ⟨htenants, htenant, rfl⟩]
    rw [query_eq_ok.2 ⟨hrealm, rfl, rfl⟩, List.drop_drop]

theorem askStore_apply {β : Type} (asked : Str) (f : Bool → Login β)
    (userRealm : Option UserStoreManager) (hthrough : GoesThrough 2 outcomes) :
    ∃ n : Nat, (do
      let userStoreManager ← throwIfNull (← query fun _ => userRealm)
      f (← query fun _ => userStoreManager.isExistingUser asked)) ⟨s, outcomes⟩ =
      (match userRealm with
      | none => raise nullPointerException
      | some store => f (store.isExistingUser asked)) ⟨s, outcomes.drop n⟩ := by
  obtain ⟨hfirst, hsecond⟩ := (goesThrough_add 1 1 outcomes).1 hthrough
  simp only [bind_apply, query_eq_ok.2 ⟨hfirst, rfl, rfl⟩]
  cases userRealm with
  | none => exact ⟨1, rfl⟩
  | some store =>
    refine ⟨2, ?_⟩
    simp only [throwIfNull, pure_apply, query_eq_ok.2 ⟨hsecond, rfl, rfl⟩, List.drop_drop]

theorem lookup_apply {β : Type} {name : Str} (asked : Str) (missing : Login β)
    (f : Option UserStoreManager → Bool → Login β)
    (hthrough : GoesThrough (idLookups name + 3) outcomes) :
    ∃ u n, (do
      match ← getUserRealm dataHolder name with
      | none => missing
      | some userRealm =>
        let userStoreManager ← throwIfNull (← query fun _ => userRealm)
        f userRealm (← query fun _ => userStoreManager.isExistingUser asked)) ⟨s, outcomes⟩ =
      (match storeOf dataHolder name with
      | .ok none => missing
      | .ok (some store) => f (some store) (store.isExistingUser asked)
      | .error e => raise e) ⟨u, outcomes.drop n⟩ := by
  obtain ⟨hrealm, hstore⟩ := (goesThrough_add (idLookups name + 1) 2 outcomes).1 hthrough
  rw [bind_apply]
  cases hservice : dataHolder.realmService with
  | none =>
    refine ⟨s, 0, ?_⟩
    unfold getUserRealm
    simp only [storeOf, hservice, pure_apply, List.drop_zero]
  | some realmService =>
    rw [getUserRealm_apply dataHolder hservice hrealm]
    refine ⟨inSuperTenant s, ?_⟩
    cases htenant : realmTenant realmService name with
    | none => exact ⟨0, by simp only [storeOf, hservice, htenant, raise_apply, List.drop_zero]⟩
    | some tenantID =>
      cases hanswer : realmService.tenantUserRealm tenantID with
      | none => exact ⟨idLookups name + 1, by simp only [storeOf, hservice, htenant, hanswer]⟩
      | some userRealm =>
        obtain ⟨n, hasked⟩ := askStore_apply asked (f userRealm) userRealm
          (s := inSuperTenant s) hstore
        refine ⟨idLookups name + 1 + n, ?_⟩
        simp only [hanswer, hasked, List.drop_drop]
        cases userRealm <;> simp only [storeOf, hservice, htenant, hanswer]

theorem storeOf_error {name : Str} {e : JavaException}
    (h : storeOf dataHolder name = .error e) : e = nullPointerException := by
  unfold storeOf at h
  split at h
  · cases h
  · split at h
    · exact (Except.error.inj h).symm
    · split at h
      · cases h
      · exact (Except.error.inj h).symm
      · cases h

theorem returnsPrincipal_iff {name : Str} (h : LookupsGoThrough name outcomes) :
    ReturnsPrincipal dataHolder name ⟨s, outcomes⟩ ↔
      ∃ store, storeOf dataHolder name = .ok (some store) ∧ store.isExistingUser name = true := by
  obtain ⟨u, n, hlookup⟩ := lookup_apply dataHolder (s := s) name (pure none)
    (fun _ known => if known then pure (some name) else pure none) h.1
  rw [ReturnsPrincipal, getUser, handling_apply, hlookup]
  match hstore : storeOf dataHolder name with
  | .error e => simp
  | .ok none => simp
  | .ok (some store) => cases hknown : store.isExistingUser name <;> simp [hknown]

theorem rejectsUnknown_iff_external {name word : Str} {site : Site JavaException LoginState}
    (hkey : some word ≠ dataHolder.accessKey) : RejectsUnknown dataHolder name word site ↔
      ∃ e t, authenticateExternal dataHolder name word site = .error e t ∧
        e.kind = .accountNotFound := by
  simp only [RejectsUnknown, setPassword, throwIfNull, pure_bind, authenticate, if_neg hkey,
    handling_apply, bind_apply]
  cases authenticateExternal dataHolder name word site with
  | ok isAuthenticated t => simp
  | error e t =>
    by_cases hcaught : e.kind = .userStore ∨ e.kind = .nullPointer
    · have hother : e.kind ≠ .accountNotFound := by rcases hcaught with h | h <;> simp [h]
      simp [hcaught, hother]
    · simp [hcaught]

theorem known_not_rejected {name word : Str} {userRealm : Option UserStoreManager}
    {site : Site JavaException LoginState} (h : OutcomesWithin OfOtherKind site.outcomes)
    {e : JavaException} {t : Site JavaException LoginState}
    (hfailed : afterLookup dataHolder name word userRealm true site = .error e t) :
    e.kind ≠ .accountNotFound := by
  have hnull : OfOtherKind nullPointerException := by simp [OfOtherKind, nullPointerException]
  have hwithin := raisesWithin_afterLookup dataHolder (fun _ => id) hnull name word userRealm site h
  rw [hfailed] at hwithin
  exact hwithin.1

theorem rejectsUnknown_iff {name word : Str} (h : LookupsGoThrough name outcomes)
    (hkey : some word ≠ dataHolder.accessKey) :
    RejectsUnknown dataHolder name word ⟨s, outcomes⟩ ↔
      storeOf dataHolder name = .ok none ∨ ∃ store, storeOf dataHolder name = .ok (some store) ∧
        store.isExistingUser (splitUsername name).1 = false := by
  obtain ⟨u, n, hlookup⟩ := lookup_apply dataHolder (s := s) (splitUsername name).1
    (raise (accountNotFound name)) (afterLookup dataHolder name word) h.1
  have hexternal := (congrFun (authenticateExternal_eq dataHolder name word) ⟨s, outcomes⟩).trans
    hlookup
  rw [rejectsUnknown_iff_external dataHolder hkey, hexternal]
  match hstore : storeOf dataHolder name with
  | .error e =>
    obtain rfl := storeOf_error dataHolder hstore
    simp [nullPointerException]
  | .ok none => simp [accountNotFound]
  | .ok (some store) =>
    cases hknown : store.isExistingUser (splitUsername name).1 with
    | false => simp [hknown, afterLookup, accountNotFound]
    | true =>
      have hbehind : OutcomesWithin OfOtherKind (outcomes.drop n) :=
        fun e he => h.2 e (List.mem_of_mem_drop he)
      constructor
      · rintro ⟨e, t, hfailed, hkind⟩
        simp only [hknown] at hfailed
        exact absurd hkind (known_not_rejected dataHolder hbehind hfailed)
      · simp [hknown]

end

/-- The store behind a name is found, or known not to be there, without a null on the way; and
where it is found, it knows the full name just when it knows the part in front of the domain. -/
def AnswersAlike (name : Str) : Prop :=
  ∃ found, storeOf dataHolder name = .ok found ∧
    ∀ store, found = some store →
      store.isExistingUser name = store.isExistingUser (splitUsername name).1

theorem answersAlike_plain {name : Str} (hplain : '!' ∉ name) :
    AnswersAlike dataHolder name ↔ ∃ found, storeOf dataHolder name = .ok found := by
  rw [AnswersAlike, splitUsername, splitFirst_of_notMem hplain]
  exact exists_congr fun _ => and_iff_left fun _ _ => rfl

/-- The principal is looked up under the full name and the password under the part in front of the
domain, so they agree just where the store gives both the same answer. -/
theorem getUser_agrees_iff (name word : Str) (s s' : LoginState)
    (outcomes outcomes' : List (Option JavaException)) (h : LookupsGoThrough name outcomes)
    (h' : LookupsGoThrough name outcomes') (hkey : some word ≠ dataHolder.accessKey) :
    (ReturnsPrincipal dataHolder name ⟨s, outcomes⟩ ↔
      ¬RejectsUnknown dataHolder name word ⟨s', outcomes'⟩) ↔ AnswersAlike dataHolder name := by
  rw [returnsPrincipal_iff dataHolder h, rejectsUnknown_iff dataHolder h' hkey, AnswersAlike]
  match hstore : storeOf dataHolder name with
  | .error e => simp
  | .ok none => simp
  | .ok (some store) =>
    cases hfull : store.isExistingUser name <;>
      cases hpart : store.isExistingUser (splitUsername name).1 <;> simp [hfull, hpart]

def aliceStore : UserStoreManager where
  isExistingUser := (· == "alice".toList)
  authenticate := fun _ word => word == "secret".toList

def aliceEverywhere : AuthenticationServiceDataHolder where
  accessKey := some "key".toList
  realmService := some
    { tenantManager := some fun domainName => if domainName = "foo".toList then 1 else -1
      tenantUserRealm := fun _ => some (some aliceStore) }

theorem lookupsGoThrough_nil (name : Str) : LookupsGoThrough name [] :=
  ⟨goesThrough_nil _, fun _ h => absurd h List.not_mem_nil⟩

theorem getUser_agrees_alice :
    ReturnsPrincipal aliceEverywhere "alice".toList ⟨⟨.fresh, false⟩, []⟩ ↔
      ¬RejectsUnknown aliceEverywhere "alice".toList "secret".toList ⟨⟨.fresh, false⟩, []⟩ :=
  (getUser_agrees_iff aliceEverywhere _ _ _ _ _ _ (lookupsGoThrough_nil _)
    (lookupsGoThrough_nil _) (by decide)).2 ⟨_, rfl, fun _ h => by cases h; rfl⟩

theorem getUser_misses_tenant_user :
    reportsAuthenticated aliceEverywhere (some "alice!foo".toList) (some "secret".toList)
      .fresh [] = true ∧
    ¬(ReturnsPrincipal aliceEverywhere "alice!foo".toList ⟨⟨.fresh, false⟩, []⟩ ↔
      ¬RejectsUnknown aliceEverywhere "alice!foo".toList "secret".toList
        ⟨⟨.fresh, false⟩, []⟩) := by
  have hstore : storeOf aliceEverywhere "alice!foo".toList = .ok (some aliceStore) := rfl
  have hmissing : ¬ReturnsPrincipal aliceEverywhere "alice!foo".toList ⟨⟨.fresh, false⟩, []⟩ := by
    rw [returnsPrincipal_iff _ (lookupsGoThrough_nil _), hstore]
    rintro ⟨store, hfound, hknown⟩
    cases hfound
    exact absurd hknown (by decide)
  have haccepted : ¬RejectsUnknown aliceEverywhere "alice!foo".toList "secret".toList
      ⟨⟨.fresh, false⟩, []⟩ := by
    rw [rejectsUnknown_iff _ (lookupsGoThrough_nil _) (by decide), hstore]
    rintro (hnone | ⟨store, hfound, hunknown⟩)
    · cases hnone
    · cases hfound
      exact absurd hunknown (by decide)
  exact ⟨by decide, fun hagree => hmissing (hagree.2 haccepted)⟩

end UserLookup

end CarbonMessaging
