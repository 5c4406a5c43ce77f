import CarbonMessaging.TenantViews

/-! The operations of the broker and of the admin service cannot tell worlds apart that look the
same to their tenant, wherever a call fails. The exceptions are the operations that look into the
super tenant's registry and may end there. -/

namespace CarbonMessaging.TenantBlindness

open JavaLang FaultyCalls CommonsUtil RegistryClient QpidAuthorizationHandler TenantViews
open QpidAuthorizationPlugin

variable {β : Type} {forecast : Forecast JavaException} {tables : QueueTables β} {tenant : Int}
  {c : CarbonContext}  {now : Str} {s s' : World β}

theorem within_realm {realm : Int} (hrealm : ownerOf realm = tenant)
    (h : Within tables tenant c now s s') : s.realms realm = s'.realms realm :=
  h.1.realms realm hrealm

theorem within_context (s s' : World β) (h : Within tables tenant c now s s') :
    s.context = c ∧ s'.context = c := h.2.1

theorem within_now (s s' : World β) (h : Within tables tenant c now s s') :
    s.now = now ∧ s'.now = now := h.2.2

theorem within_self (s s' : World β) (h : Within tables tenant c now s s') :
    Within tables tenant c now s s' := h

theorem blind_throwIfNull {σ α : Type} {R : σ → σ → Prop} (a : Option α) :
    Blind forecast R (throwIfNull a : Prog JavaException σ α) := by
  cases a with
  | none => exact blind_raise _
  | some a => exact blind_pure a

theorem blind_throwIfNull_bind {σ α α' : Type} {R : σ → σ → Prop} {a : Option α}
    {f : α → Prog JavaException σ α'} (h : ∀ b, a = some b → Blind forecast R (f b)) :
    Blind forecast R (throwIfNull a >>= f) := by
  cases a with
  | none => exact fun s s' _ hahead hs => .error hahead hs
  | some b => exact h b rfl

/-- `RegistryClient.createQueue` where all counts are numbers. -/
def registering (queueName owner : Str) : Carbon β Unit :=
  translate asClientException do
    let registry ← getGovernanceSystemRegistry (← context).ownTenant
    let queueID ← orRaise (getQueueID (← context) queueName)
    let _ ← resourceExists registry queueID
    let queue ← query fun w => entryAfter (w.registries registry) w.now queueName owner queueID
    registryPut registry queueID queue

theorem createQueue_counted {w : World β} (h : AllCounted w) (queueName owner : Str)
    (outcomes : List (Option JavaException)) :
    RegistryClient.createQueue queueName owner ⟨w, outcomes⟩ =
      registering queueName owner ⟨w, outcomes⟩ := by
  unfold RegistryClient.createQueue registering
  cases hid : getQueueID w.context queueName with
  | error e =>
    rcases outcomes with _ | ⟨_ | _, _⟩ <;>
      simp [getGovernanceSystemRegistry, context, hid, query_raises]
  | ok id =>
    obtain ⟨hwritten, -⟩ :=
      writtenEntry_counted h w.context.ownTenant w.now queueName owner id
    cases hqueue : (w.registries w.context.ownTenant).lookup id with
    | none =>
      have hnew := Finmap.lookup_eq_none.1 hqueue
      simp only [writtenEntry, hqueue, Except.ok.injEq] at hwritten
      rcases outcomes with _ | ⟨_ | _, _ | ⟨_ | _, _ | ⟨_ | _, _⟩⟩⟩ <;>
        simp [getGovernanceSystemRegistry, context, hid, resourceExists, newCollection, hnew,
          hwritten, query_raises]
    | some queue =>
      have hmem := Finmap.mem_of_lookup_eq_some hqueue
      simp only [writtenEntry, hqueue] at hwritten
      rcases outcomes with _ | ⟨_ | _, _ | ⟨_ | _, _ | ⟨_ | _, _⟩⟩⟩ <;>
        simp [getGovernanceSystemRegistry, context, hid, resourceExists, registryGet, hmem, hqueue,
          hwritten, query_raises]

theorem blind_createQueue (hc : c.ownTenant = tenant) (queueName owner : Str) :
    Blind forecast (Within tables tenant c now)
      (RegistryClient.createQueue queueName owner : Carbon β Unit) := by
  refine alike_congr (y := registering queueName owner) (z := registering queueName owner)
    (fun s s' outcomes _ hs => ⟨createQueue_counted hs.1.counted.1 ..,
      createQueue_counted hs.1.counted.2 ..⟩) ?_
  refine alike_translate (alike_peek_bind within_context (alike_query_bind (fun _ _ _ => ⟨rfl, rfl⟩)
    within_self (alike_peek_bind within_context ?_)))
  refine Blind.bind_alike (blind_orRaise _) within_self fun queueID => ?_
  refine alike_bind (S := fun _ _ => Within tables tenant c now)
    (alike_query within_self within_self) fun _ _ => ?_
  refine alike_bind (S := fun queue queue' s s' =>
    ((0 < tenant → queue = queue') ∧ Counted queue ∧ Counted queue') ∧
      Within tables tenant c now s s')
    (alike_query within_self fun s s' hs => ⟨⟨fun hpos => ?_, ?_, ?_⟩, hs⟩) fun queue queue' => ?_
  · rw [hc, hs.1.registry hpos, hs.2.2.1, hs.2.2.2]
  · exact (writtenEntry_counted hs.1.counted.1 ..).2
  · exact (writtenEntry_counted hs.1.counted.2 ..).2
  refine alike_of_fact fun ⟨hsame, hcounted⟩ => ?_
  refine alike_command within_self fun s s' hs => ⟨rfl, ?_⟩
  exact ⟨hs.1.putEntry _ (fun hpos _ => hsame hpos) hcounted, hs.2⟩

def subscribing (topic subscriptionName owner : Str) : Carbon β Unit :=
  translate asClientException do
    let registry ← getGovernanceSystemRegistry (← context).ownTenant
    let tenantBasedTopicName := getTenantBasedTopicName (← context) topic
    let subscriptionID := getSubscriptionID tenantBasedTopicName subscriptionName
    let _ ← resourceExists registry subscriptionID
    let subscription ← query fun w => ((w.registries registry).lookup subscriptionID).getD ∅
    registryPut registry subscriptionID
      (subscriptionEntry (← peek World.now) subscriptionName owner subscription)

theorem createSubscription_apply (w : World β) (topic subscriptionName owner : Str)
    (outcomes : List (Option JavaException)) :
    createSubscription topic subscriptionName owner ⟨w, outcomes⟩ =
      subscribing topic subscriptionName owner ⟨w, outcomes⟩ := by
  unfold createSubscription subscribing
  cases hold : (w.registries w.context.ownTenant).lookup
      (getSubscriptionID (getTenantBasedTopicName w.context topic) subscriptionName) with
  | none =>
    have hnew := Finmap.lookup_eq_none.1 hold
    rcases outcomes with _ | ⟨_ | _, _ | ⟨_ | _, _ | ⟨_ | _, _⟩⟩⟩ <;>
      simp [getGovernanceSystemRegistry, context, resourceExists, newCollection, hnew, hold,
        query_raises]
  | some subscription =>
    have hmem := Finmap.mem_of_lookup_eq_some hold
    rcases outcomes with _ | ⟨_ | _, _ | ⟨_ | _, _ | ⟨_ | _, _⟩⟩⟩ <;>
      simp [getGovernanceSystemRegistry, context, resourceExists, registryGet, hmem, hold,
        query_raises]

theorem blind_createSubscription (hc : c.ownTenant = tenant) (topic subscriptionName owner : Str) :
    Blind forecast (Within tables tenant c now)
      (createSubscription topic subscriptionName owner : Carbon β Unit) := by
  refine alike_congr (y := subscribing topic subscriptionName owner)
    (z := subscribing topic subscriptionName owner)
    (fun s s' outcomes _ _ => ⟨createSubscription_apply .., createSubscription_apply ..⟩) ?_
  refine alike_translate (alike_peek_bind within_context (alike_query_bind (fun _ _ _ => ⟨rfl, rfl⟩)
    within_self (alike_peek_bind within_context ?_)))
  refine alike_bind (S := fun _ _ => Within tables tenant c now)
    (alike_query within_self within_self) fun _ _ => ?_
  refine alike_bind (S := fun entry entry' s s' =>
    ((0 < tenant → entry = entry') ∧ Counted entry ∧ Counted entry') ∧
      Within tables tenant c now s s')
    (alike_query within_self fun s s' hs => ⟨⟨fun hpos => ?_, ?_, ?_⟩, hs⟩) fun entry entry' => ?_
  · rw [hc, hs.1.registry hpos]
  · exact counted_lookup hs.1.counted.1 _ _
  · exact counted_lookup hs.1.counted.2 _ _
  refine alike_of_fact fun ⟨hsame, hcounted⟩ => alike_peek_bind within_now ?_
  refine alike_command within_self fun s s' hs => ⟨rfl, ?_⟩
  refine ⟨hs.1.putEntry _ (fun hpos _ => by rw [hsame hpos]) ?_, hs.2⟩
  exact ⟨counted_subscriptionEntry hcounted.1 _ _ _, counted_subscriptionEntry hcounted.2 _ _ _⟩

theorem blind_registryDelete (hpos : 0 < tenant) (path : Str) :
    Blind forecast (Within tables tenant c now) (registryDelete tenant path : Carbon β Unit) := by
  refine alike_call within_self fun s s' hs => ?_
  rw [hs.1.registry hpos]
  cases (s'.registries tenant).lookup path with
  | none => exact .inr ⟨_, s, s', rfl, rfl, hs⟩
  | some entry => exact .inl ⟨(), (), _, _, rfl, rfl, rfl, hs.1.deleteEntry _ _, hs.2⟩

/-- The super tenant's unbinding may meet a call more or less, which no failure must tell. -/
theorem blind_deleteSubscription (hc : c.ownTenant = tenant)
    (hforecast : 0 < tenant ∨ forecast = .clear) (topic subscriptionName : Str) :
    Blind forecast (Within tables tenant c now)
      (deleteSubscription topic subscriptionName : Carbon β Unit) := by
  by_cases hpos : 0 < tenant
  · refine blind_translate (alike_peek_bind within_context
      (alike_query_bind (fun _ _ _ => ⟨rfl, rfl⟩) within_self ?_))
    rw [hc]
    refine blind_bind (blind_query fun s s' hs => by rw [hs.1.registry hpos]) fun b => ?_
    split
    · exact blind_registryDelete hpos _
    · exact blind_pure ()
  · obtain rfl := hforecast.resolve_left hpos
    rintro s s' _ rfl hs
    rw [deleteSubscription_quiet, deleteSubscription_quiet]
    refine .ok rfl ⟨rfl, ?_⟩
    obtain ⟨hview, hcontext, hnow⟩ := hs
    split <;> split
    · rw [hcontext.1, hcontext.2]
      exact ⟨hview.deleteEntry _ _, hcontext, hnow⟩
    · exact ⟨hview.deleteEntry_left hpos _ _, hcontext, hnow⟩
    · exact ⟨(hview.symm.deleteEntry_left hpos _ _).symm, hcontext, hnow⟩
    · exact ⟨hview, hcontext, hnow⟩

theorem deleteQueue_counted {w : World β} (h : AllCounted w) {queueName id : Str}
    (hid : getQueueID w.context queueName = .ok id) :
    RegistryClient.deleteQueue queueName ⟨w, []⟩ = .ok () ⟨releaseEntry w id, []⟩ := by
  cases hqueue : (w.registries SUPER_TENANT_ID).lookup id with
  | none =>
    rw [deleteQueue_absent hid (Finmap.lookup_eq_none.1 hqueue)]
    simp only [releaseEntry, hqueue]
  | some queue =>
    cases hcount : liveCount queue with
    | some count => exact deleteQueue_live hid hqueue hcount
    | none =>
      have hmem := Finmap.mem_of_lookup_eq_some hqueue
      simp only [releaseEntry, hqueue, hcount]
      unfold liveCount at hcount
      split at hcount
      · rename_i from_amqp
        cases htext : queue.lookup USER_COUNT with
        | none =>
          simp [RegistryClient.deleteQueue, getGovernanceSystemRegistry, context, hid, hmem,
            registryGet_quiet hqueue, from_amqp, htext]
        | some text =>
          rw [htext] at hcount
          exact absurd hcount (h _ _ _ hqueue text htext)
      · rename_i other
        simp [RegistryClient.deleteQueue, getGovernanceSystemRegistry, context, hid, hmem,
          registryGet_quiet hqueue, other]

theorem blind_deleteQueue (queueName : Str) :
    Blind .clear (Within tables tenant c now)
      (RegistryClient.deleteQueue queueName : Carbon β Unit) := by
  rintro s s' _ rfl ⟨hview, ⟨hs, hs'⟩, hnow⟩
  cases hid : getQueueID c queueName with
  | error e =>
    have hfails {w : World β} (hw : w.context = c) : RegistryClient.deleteQueue queueName ⟨w, []⟩ =
        .error (asClientException e) ⟨w, []⟩ := by
      rw [← hw] at hid
      simp [RegistryClient.deleteQueue, getGovernanceSystemRegistry, context, hid]
    rw [hfails hs, hfails hs']
    exact .error rfl ⟨hview, ⟨hs, hs'⟩, hnow⟩
  | ok id =>
    rw [deleteQueue_counted hview.counted.1 (by rw [hs, hid]),
      deleteQueue_counted hview.counted.2 (by rw [hs', hid])]
    refine .ok rfl ⟨rfl, hview.releaseEntry id, ?_, ?_⟩
    · rw [releaseEntry_context, releaseEntry_context]
      exact ⟨hs, hs'⟩
    · rw [(releaseEntry_rest s id).2.2.1, (releaseEntry_rest s' id).2.2.1]
      exact hnow

section
variable {realm : Int} (hrealm : ownerOf realm = tenant)
include hrealm

theorem blind_isAdminUser (username : Str) :
    Blind forecast (Within tables tenant c now) (isAdminUser username realm : Carbon β Bool) := by
  refine blind_handling (blind_bind (blind_query fun s s' hs => ?_) fun _ => blind_pure _)
    fun e => ?_
  · rw [within_realm hrealm hs]
  · split
    · exact blind_pure false
    · exact blind_raise e

theorem blind_isUserAuthorized (username resourceId action : Str) :
    Blind forecast (Within tables tenant c now)
      (isUserAuthorized realm username resourceId action : Carbon β Bool) :=
  blind_query fun s s' hs => by rw [within_realm hrealm hs]

theorem blind_isAdminOrMay (username permission permission' : Str) :
    Blind forecast (Within tables tenant c now)
      (isAdminOrMay username realm permission permission' : Carbon β Bool) :=
  blind_shortOr (blind_isAdminUser hrealm _) (blind_shortOr (blind_isUserAuthorized hrealm _ _ _)
    (blind_isUserAuthorized hrealm _ _ _))

theorem blind_isOwnAdminOrMay (username : Str) (own : Bool) (resourceId permission : Str) :
    Blind forecast (Within tables tenant c now)
      (isOwnAdminOrMay username realm own resourceId permission : Carbon β Bool) :=
  blind_shortOr (blind_shortAnd (blind_isAdminUser hrealm _) (blind_pure own))
    (blind_isUserAuthorized hrealm _ _ _)

theorem blind_setCell (cell : Cell) (value : Bool) :
    Blind forecast (Within tables tenant c now)
      (command fun w => w.setCell realm cell value : Carbon β Unit) :=
  blind_command fun _ _ hs => ⟨hs.1.setCell hrealm cell value, hs.2⟩

theorem blind_authorizeRoles (queueID : Str) (actions roleNames : List Str) :
    Blind forecast (Within tables tenant c now)
      (authorizeRoles realm queueID actions roleNames : Carbon β Unit) := by
  refine blind_forEach _ fun role => ?_
  unfold authorizeExisting
  split
  · refine blind_bind (blind_query fun s s' hs => by rw [within_realm hrealm hs]) fun _ => ?_
    split
    · exact blind_forEach _ fun action => blind_setCell hrealm _ true
    · exact blind_pure ()
  · exact blind_pure ()

theorem blind_setPermission (queueID : Str) (permission : QueueRolePermission) :
    Blind forecast (Within tables tenant c now)
      (QueueManagerServiceImpl.setPermission realm queueID permission : Carbon β Unit) := by
  cases hconsume : permission.isAllowedToConsume <;>
    cases hpublish : permission.isAllowedToPublish <;>
    simp only [QueueManagerServiceImpl.setPermission, hconsume, hpublish, Bool.false_eq_true,
      ↓reduceIte] <;>
    exact blind_bind (blind_setCell hrealm _ _) fun _ => blind_setCell hrealm _ _

theorem blind_getRoleListOfUser (username : Str) :
    Blind forecast (Within tables tenant c now)
      (getRoleListOfUser realm username : Carbon β (List Str)) :=
  blind_query fun s s' hs => by rw [within_realm hrealm hs]

end

section
variable {userRealm : Option Int}
  (hrealm : ∀ realm, userRealm = some realm → ownerOf realm = tenant)
  (hc : c.ownTenant = tenant) (username : Str) (properties : ObjectProperties)
include hrealm

theorem blind_handleConsumeQueue :
    Blind forecast (Within tables tenant c now)
      (handleConsumeQueue username userRealm properties : Carbon β Result) := by
  refine blind_translate ?_
  cases userRealm with
  | none => exact blind_pure _
  | some realm =>
    refine blind_bind (blind_isAdminOrMay (hrealm realm rfl) _ _ _) fun b => ?_
    split
    · refine blind_bind (blind_throwIfNull _) fun name => alike_peek_bind within_context
        (alike_peek_bind within_context (blind_bind (blind_orRaise _) fun queueID => ?_))
      refine blind_bind (blind_isOwnAdminOrMay (hrealm realm rfl) _ _ _ _) fun _ => ?_
      split <;> exact blind_pure _
    · exact blind_pure _

theorem blind_handlePublishToExchange :
    Blind forecast (Within tables tenant c now)
      (handlePublishToExchange username userRealm properties : Carbon β Result) := by
  refine blind_translate ?_
  cases userRealm with
  | none => exact blind_pure _
  | some realm =>
    refine alike_peek_bind within_context (blind_bind (blind_throwIfNull _) fun exchange =>
      blind_bind (blind_throwIfNull _) fun key => ?_)
    split
    · refine alike_peek_bind within_context (blind_bind (blind_orRaise _) fun queueID => ?_)
      refine blind_bind (blind_isOwnAdminOrMay (hrealm realm rfl) _ _ _ _) fun _ => ?_
      split <;> exact blind_pure _
    · split
      · refine blind_bind (blind_isOwnAdminOrMay (hrealm realm rfl) _ _ _ _) fun _ => ?_
        split <;> exact blind_pure _
      · exact blind_pure _

theorem blind_handleDeleteQueue :
    Blind .clear (Within tables tenant c now)
      (handleDeleteQueue username userRealm properties : Carbon β Result) := by
  refine blind_translate (blind_throwIfNull_bind fun realm huser => ?_)
  refine blind_bind (blind_isAdminOrMay (hrealm realm huser) _ _ _) fun b => ?_
  split
  · refine blind_bind (blind_throwIfNull _) fun name => ?_
    exact blind_bind (blind_deleteQueue _) fun _ => blind_pure _
  · exact blind_pure _

include hc

theorem blind_handleCreateQueue :
    Blind forecast (Within tables tenant c now)
      (handleCreateQueue username userRealm properties : Carbon β Result) := by
  refine blind_translate ?_
  cases userRealm with
  | none => exact blind_pure _
  | some realm =>
    refine blind_bind (blind_isAdminOrMay (hrealm realm rfl) _ _ _) fun b => ?_
    split
    · refine alike_peek_bind within_context (blind_bind (blind_throwIfNull _) fun name => ?_)
      refine blind_bind (blind_createQueue hc _ _) fun _ => alike_peek_bind within_context
        (blind_bind (blind_orRaise _) fun queueID => ?_)
      split
      · refine blind_bind (blind_getRoleListOfUser (hrealm realm rfl) _) fun roleNames => ?_
        exact blind_bind (blind_authorizeRoles (hrealm realm rfl) _ _ _) fun _ =>
          blind_pure _
      · exact blind_pure _
    · exact blind_pure _

theorem blind_handleBindQueue :
    Blind forecast (Within tables tenant c now)
      (handleBindQueue username userRealm properties : Carbon β Result) := by
  refine blind_translate ?_
  cases userRealm with
  | none => exact blind_pure _
  | some realm =>
    refine alike_peek_bind within_context (blind_bind (blind_throwIfNull _) fun exchange =>
      blind_bind (blind_throwIfNull _) fun name => blind_bind (blind_throwIfNull _) fun key => ?_)
    split
    · refine alike_peek_bind within_context (blind_bind (blind_orRaise _) fun queueID => ?_)
      refine blind_bind (blind_isOwnAdminOrMay (hrealm realm rfl) _ _ _ _) fun _ => ?_
      split <;> exact blind_pure _
    · split
      · refine blind_bind (blind_isOwnAdminOrMay (hrealm realm rfl) _ _ _ _) fun _ => ?_
        split
        · exact blind_bind (blind_createSubscription hc _ _ _) fun _ => blind_pure _
        · exact blind_pure _
      · exact blind_pure _

omit hrealm in
theorem blind_handleUnbindQueue (hforecast : 0 < tenant ∨ forecast = .clear) :
    Blind forecast (Within tables tenant c now)
      (handleUnbindQueue properties : Carbon β Result) := by
  refine blind_translate (blind_bind (blind_throwIfNull _) fun exchange =>
    blind_bind (blind_throwIfNull _) fun name => blind_bind (blind_throwIfNull _) fun key => ?_)
  split
  · exact blind_bind (blind_deleteSubscription hc hforecast _ _) fun _ => blind_pure _
  · exact blind_pure _

end

/-- The realm service and the context resolve domains to the same ids, and a realm is named by its
tenant. -/
structure Coherent (surroundings : Surroundings) : Prop where
  tenantManager : ∀ realmService tenantManager, surroundings.realmService = some realmService →
    realmService.tenantManager = some tenantManager → tenantManager = surroundings.resolveTenantId
  realm : ∀ realmService id realm, surroundings.realmService = some realmService →
    realmService.tenantUserRealm id = some realm → realm = id

/-- The tenant that the plugin works for; without a principal no handler is reached. -/
def principalTenant (surroundings : Surroundings) : Int :=
  match surroundings.threadSubject with
  | some (username :: _) => (tenantContext surroundings username).ownTenant
  | _ => SUPER_TENANT_ID

section
variable {surroundings : Surroundings} (hcoherent : Coherent surroundings)

section
variable {R : World β → World β → Prop}
include hcoherent

theorem alike_getUserRealm (username : Str) :
    Alike forecast R (getUserRealm surroundings username) (getUserRealm surroundings username)
      (fun userRealm userRealm' s s' => (userRealm = userRealm' ∧ ∀ realm, userRealm = some realm →
        realm = (tenantContext surroundings username).tenantId) ∧ R s s') R := by
  unfold getUserRealm
  cases hservice : surroundings.realmService with
  | none => exact alike_pure fun s s' hs => ⟨⟨rfl, by simp⟩, hs⟩
  | some realmService =>
    have hself : ∀ s s', R s s' → R s s' := fun _ _ hs => hs
    have hfound (tenantID : Int)
        (hid : tenantID = (tenantContext surroundings username).tenantId) :
        Alike forecast R (query fun _ => realmService.tenantUserRealm tenantID)
          (query fun _ => realmService.tenantUserRealm tenantID)
          (fun userRealm userRealm' s s' => (userRealm = userRealm' ∧ ∀ realm,
            userRealm = some realm → realm = (tenantContext surroundings username).tenantId) ∧
            R s s') R := by
      refine alike_query hself fun s s' hs => ⟨⟨rfl, fun realm hrealm => ?_⟩, hs⟩
      rw [← hid]
      exact hcoherent.realm realmService tenantID realm hservice hrealm
    refine alike_handling (F := R) ?_ fun e => ?_
    · cases hdomain : domainNameOf username with
      | none => exact hfound SUPER_TENANT_ID (by simp only [tenantContext, hdomain])
      | some domainName =>
        dsimp only [RealmService.getTenantId]
        cases hmanager : realmService.tenantManager with
        | none => exact fun s s' _ hahead hs => .error hahead hs
        | some tenantManager =>
          refine alike_query_bind (a := tenantManager domainName) (fun _ _ _ => ⟨rfl, rfl⟩) hself
            (hfound _ ?_)
          simp only [tenantContext, hdomain,
            hcoherent.tenantManager realmService tenantManager hservice hmanager]
    · split
      · exact alike_pure fun s s' hs => ⟨⟨rfl, by simp⟩, hs⟩
      · exact alike_raise hself

end

theorem alike_inTenantFlow {α : Type} {x x' : Carbon β α}
    (h : Alike forecast (Within tables tenant .fresh now) x x'
      (fun a a' s s' => a = a' ∧ SameView tables tenant s s') (SameView tables tenant)) :
    Alike forecast (Within tables tenant c now) (inTenantFlow x) (inTenantFlow x')
      (fun a a' s s' => a = a' ∧ SameView tables tenant s s') (SameView tables tenant) := by
  rintro s s' outcomes hahead ⟨hview, hcontext, hnow⟩
  have h := h { s with context := .fresh } { s' with context := .fresh } outcomes hahead
    ⟨hview.inContext _ _, ⟨rfl, rfl⟩, hnow⟩
  dsimp only [inTenantFlow]
  generalize x ⟨{ s with context := .fresh }, outcomes⟩ = r at h ⊢
  generalize x' ⟨{ s' with context := .fresh }, outcomes⟩ = r' at h ⊢
  cases h with
  | ok hahead h => exact .ok hahead ⟨h.1, h.2.inContext _ _⟩
  | error hahead h => exact .error hahead (h.inContext _ _)

theorem alike_enterTenant (username : Str) :
    Alike forecast (Within tables tenant .fresh now)
      (enterTenant surroundings username : Carbon β Unit) (enterTenant surroundings username)
      (fun _ _ => Within tables tenant (tenantContext surroundings username) now)
      (SameView tables tenant) := by
  unfold enterTenant tenantContext
  cases domainNameOf username with
  | none =>
    refine alike_poke ?_
    rintro s s' ⟨hview, ⟨hs, hs'⟩, hnow⟩
    rw [hs, hs']
    exact ⟨hview.inContext _ _, ⟨rfl, rfl⟩, hnow⟩
  | some tenantDomain =>
    refine alike_bind (S := fun _ _ =>
        Within tables tenant ⟨INVALID_TENANT_ID, some tenantDomain, []⟩ now)
      (alike_poke ?_) fun _ _ => ?_
    · rintro s s' ⟨hview, ⟨hs, hs'⟩, hnow⟩
      rw [hs, hs']
      exact ⟨hview.inContext _ _, ⟨rfl, rfl⟩, hnow⟩
    refine alike_query_bind (fun _ _ _ => ⟨rfl, rfl⟩) (fun _ _ hs => hs.1) (alike_poke ?_)
    rintro s s' ⟨hview, ⟨hs, hs'⟩, hnow⟩
    rw [hs, hs']
    exact ⟨hview.inContext _ _, ⟨rfl, rfl⟩, hnow⟩

/-- Where failures may tell something of the super tenant's registry they must not happen. -/
def Foreseen (forecast : Forecast JavaException) (tenant : Int) (operation : Operation)
    (objectType : ObjectType) : Prop :=
  (operation = .DELETE → objectType = .QUEUE → forecast = .clear) ∧
    (operation = .UNBIND → 0 < tenant ∨ forecast = .clear)

theorem blind_dispatch {userRealm : Option Int}
    (hrealm : ∀ realm, userRealm = some realm → ownerOf realm = tenant) (hc : c.ownTenant = tenant)
    {operation : Operation} {objectType : ObjectType}
    (hforeseen : Foreseen forecast tenant operation objectType) (username : Str)
    (properties : ObjectProperties) :
    Blind forecast (Within tables tenant c now)
      (dispatch operation objectType username userRealm properties : Carbon β Result) := by
  unfold dispatch
  split
  · exact blind_pure _
  · exact blind_handleCreateQueue hrealm hc username properties
  · exact blind_handleBindQueue hrealm hc username properties
  · exact blind_handleBindQueue hrealm hc username properties
  · exact blind_handlePublishToExchange hrealm username properties
  · exact blind_handleConsumeQueue hrealm username properties
  · exact blind_handleUnbindQueue hc properties (hforeseen.2 rfl)
  · exact blind_pure _
  · rw [hforeseen.1 rfl rfl]
    exact blind_handleDeleteQueue hrealm username properties
  · exact blind_pure _
  · exact blind_pure _

include hcoherent

theorem alike_judge (htenant : principalTenant surroundings = tenant) {operation : Operation}
    {objectType : ObjectType} (hforeseen : Foreseen forecast tenant operation objectType)
    (properties : ObjectProperties) :
    Alike forecast (Within tables tenant .fresh now)
      (judge surroundings operation objectType properties : Carbon β Result)
      (judge surroundings operation objectType properties)
      (fun result result' s s' => result = result' ∧ SameView tables tenant s s')
      (SameView tables tenant) := by
  unfold judge principalName
  unfold principalTenant at htenant
  match hsubject : surroundings.threadSubject with
  | none => exact alike_pure fun s s' hs => ⟨rfl, hs.1⟩
  | some [] => exact fun s s' _ hahead hs => .error hahead hs.1
  | some (username :: others) =>
    rw [hsubject] at htenant
    dsimp only at htenant ⊢
    rw [pure_bind]
    refine alike_bind ((alike_getUserRealm hcoherent username).mono (fun _ _ hs => hs)
      (fun _ _ _ _ hs => hs) fun _ _ hs => hs.1) fun userRealm userRealm' => ?_
    refine alike_of_fact fun ⟨hsame, hrealm⟩ => ?_
    rw [← hsame]
    refine alike_bind (alike_enterTenant username) fun _ _ => ?_
    refine (blind_dispatch (fun realm huser => ?_) htenant hforeseen _ properties).mono
      (fun _ _ hs => hs) (fun _ _ _ _ hs => ⟨hs.1, hs.2.1⟩) fun _ _ hs => hs.1
    rw [hrealm realm huser, ← ownTenant_eq]
    exact htenant

theorem alike_authorise (htenant : principalTenant surroundings = tenant) {operation : Operation}
    {objectType : ObjectType} (hforeseen : Foreseen forecast tenant operation objectType)
    (properties : ObjectProperties) :
    Alike forecast (Within tables tenant c now)
      (authorise surroundings operation objectType properties : Carbon β Result)
      (authorise surroundings operation objectType properties)
      (fun result result' s s' => result = result' ∧ SameView tables tenant s s')
      (SameView tables tenant) := by
  refine alike_inTenantFlow (alike_handling (alike_judge hcoherent htenant hforeseen properties)
    fun _ => ?_)
  exact alike_pure fun _ _ hs => ⟨rfl, hs⟩

end

section
open QueueManagerServiceImpl

variable {beans : BrokerBeans β} (hlaws : tables.Laws beans) (hc : c.ownTenant = tenant)
  (queueName : Str)

theorem blind_invoke {α : Type} {x : EStateM JavaException β α} {queueName : Str}
    (hx : tables.Concerns queueName x) (hname : tables.owner queueName = tenant) :
    Blind forecast (Within tables tenant c now) (invoke x) := by
  rintro s s' outcomes hahead ⟨hview, hcontext, hnow⟩
  obtain ⟨hanswer, hqueues⟩ := hx.sameFor hname hview.queues
  unfold invoke
  generalize x s.broker = r at hanswer hqueues ⊢
  generalize x s'.broker = r' at hanswer hqueues ⊢
  cases r with
  | ok a b =>
    cases r' with
    | ok a' b' => exact .ok hahead ⟨Except.ok.inj hanswer, hview.withBroker hqueues, hcontext, hnow⟩
    | error e' b' => cases hanswer
  | error e b =>
    cases r' with
    | ok a' b' => cases hanswer
    | error e' b' =>
      cases hanswer
      exact .error hahead ⟨hview.withBroker hqueues, hcontext, hnow⟩

theorem ownerOf_ownTenant (context : CarbonContext) :
    ownerOf context.ownTenant = context.ownTenant := by
  rw [ownTenant_eq]
  unfold ownerOf
  split
  · rfl
  · rfl

include hlaws

theorem blind_queueExists (hname : tables.owner queueName = tenant) :
    Blind forecast (Within tables tenant c now)
      (QueueManagementBeans.queueExists beans queueName) :=
  blind_translate (blind_bind (blind_invoke (hlaws.isQueueExists _) hname) fun _ => blind_pure _)

theorem blind_adminDeleteQueue (hc : c.ownTenant = tenant) (hpos : 0 < tenant)
    (hname : tables.owner queueName = tenant) :
    Blind forecast (Within tables tenant c now)
      (QueueManagerServiceImpl.deleteQueue beans queueName) := by
  refine blind_translate (alike_peek_bind within_context
    (alike_query_bind (fun _ _ _ => ⟨rfl, rfl⟩) within_self ?_))
  refine blind_bind (blind_queueExists hlaws _ hname) fun _ => ?_
  split
  · refine blind_bind (blind_translate (blind_bind
      (blind_invoke (hlaws.removeBinding _ _) hname) fun _ =>
        blind_invoke (hlaws.deleteQueue _) hname)) fun _ => ?_
    rw [ownerOf_pos ((ownTenant_eq c).symm.trans hc) hpos]
    exact blind_registryDelete hpos _
  · exact blind_pure ()

variable (hname : tables.owner (getTenantBasedQueueName c queueName) = tenant)
include hc hname

theorem blind_adminCreateQueue :
    Blind forecast (Within tables tenant c now)
      (QueueManagerServiceImpl.createQueue beans queueName) := by
  have hrealm : ownerOf c.ownTenant = tenant := (ownerOf_ownTenant c).trans hc
  refine blind_translate (alike_peek_bind within_context (alike_peek_bind within_context
    (blind_bind (blind_queueExists hlaws _ hname) fun _ => ?_)))
  split
  · refine blind_bind (blind_createQueue hc _ _) fun _ => ?_
    refine blind_bind (blind_translate (blind_bind
      (blind_invoke (hlaws.createNewQueue _ _ _) hname) fun _ =>
        blind_invoke (hlaws.createNewBinding _ _) hname)) fun _ =>
          alike_peek_bind within_context ?_
    refine alike_query_bind (fun _ _ _ => ⟨rfl, rfl⟩) within_self
      (alike_peek_bind within_context (blind_bind (blind_orRaise _) fun queueID => ?_))
    refine alike_peek_bind within_context ?_
    exact blind_bind (blind_getRoleListOfUser hrealm _) fun roleNames =>
      blind_authorizeRoles hrealm _ _ _
  · exact blind_raise _

theorem blind_updatePermission (permissions : List QueueRolePermission) :
    Blind forecast (Within tables tenant c now) (updatePermission beans queueName permissions) := by
  have hrealm : ownerOf c.ownTenant = tenant := (ownerOf_ownTenant c).trans hc
  refine alike_peek_bind within_context (blind_bind
    (blind_queueExists hlaws _ hname) fun _ => ?_)
  split
  · refine alike_peek_bind within_context (blind_bind (blind_orRaise _) fun queueID => ?_)
    refine alike_peek_bind within_context (blind_translate (alike_peek_bind within_context ?_))
    refine alike_query_bind (fun _ _ _ => ⟨rfl, rfl⟩) within_self ?_
    refine blind_bind (blind_isUserAuthorized hrealm _ _ _) fun _ => ?_
    split
    · exact blind_bind (blind_raise _) fun _ => blind_forEach _ (blind_setPermission hrealm _)
    · exact blind_forEach _ (blind_setPermission hrealm _)
  · exact blind_raise _

theorem blind_getQueueRolePermission :
    Blind forecast (Within tables tenant c now) (getQueueRolePermission beans queueName) := by
  have hrealm : ownerOf c.ownTenant = tenant := (ownerOf_ownTenant c).trans hc
  refine alike_peek_bind within_context (blind_bind
    (blind_queueExists hlaws _ hname) fun _ => ?_)
  split
  · refine alike_peek_bind within_context (alike_peek_bind within_context
      (blind_bind (blind_orRaise _) fun queueID => ?_))
    refine blind_translate (alike_peek_bind within_context ?_)
    refine alike_query_bind (fun _ _ _ => ⟨rfl, rfl⟩) within_self ?_
    refine blind_bind (blind_query fun s s' hs => hs.1.adminRoleName) fun adminRole => ?_
    refine blind_bind (blind_query fun s s' hs => by rw [within_realm hrealm hs])
      fun roleNames => ?_
    refine blind_bind (alike_peek fun s s' hs => ⟨hs.1.anonymousRoleName, hs⟩)
      fun anonymousRole => ?_
    refine blind_mapM _ fun role => ?_
    have hread (action : Str) : Blind forecast (Within tables tenant c now)
        (isRoleAuthorized c.ownTenant role queueID action : Carbon β Bool) :=
      blind_query fun s s' hs => by rw [within_realm hrealm hs]
    exact blind_bind (hread _) fun _ => blind_bind (hread _) fun _ => blind_pure _
  · exact blind_raise _

end

end CarbonMessaging.TenantBlindness
