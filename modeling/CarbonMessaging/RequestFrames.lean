import CarbonMessaging.OperationMediation
import CarbonMessaging.TenantBlindness

/-! What the operations of the broker and of the admin service leave true, wherever a call fails,
from what their single writes leave true. -/

namespace CarbonMessaging.RequestFrames

open JavaLang FaultyCalls CommonsUtil RegistryClient QpidAuthorizationHandler
open QpidAuthorizationPlugin TenantBlindness

variable {β : Type} {I : World β → Prop}

/-- The writes of the queues' bookkeeping, and the grants in some realms. -/
structure KeptByQueues (realms : Int → Prop) (I : World β → Prop) : Prop where
  register : ∀ s queueName owner id entry, I s → getQueueID s.context queueName = .ok id →
    writtenEntry (s.registries s.context.ownTenant) s.now queueName owner id = .ok entry →
    I (s.putEntry s.context.ownTenant id entry)
  lower : ∀ s queueName id queue count, I s → getQueueID s.context queueName = .ok id →
    (s.registries SUPER_TENANT_ID).lookup id = some queue →
    I (s.putEntry SUPER_TENANT_ID id (queue.insert USER_COUNT (intToString (wrapInt count))))
  remove : ∀ s queueName id, I s → getQueueID s.context queueName = .ok id →
    I (s.deleteEntry SUPER_TENANT_ID id)
  grant : ∀ s realm cell value, realms realm → I s → I (s.setCell realm cell value)

structure KeptByTopics (I : World β → Prop) : Prop where
  subscribe : ∀ s topic subscriptionName owner, I s →
    I (s.putEntry s.context.ownTenant
      (getSubscriptionID (getTenantBasedTopicName s.context topic) subscriptionName)
      (subscriptionEntry s.now subscriptionName owner
        (((s.registries s.context.ownTenant).lookup (getSubscriptionID
          (getTenantBasedTopicName s.context topic) subscriptionName)).getD ∅)))
  unsubscribe : ∀ s topic subscriptionName, I s →
    I (s.deleteEntry s.context.ownTenant (getSubscriptionID topic subscriptionName))

theorem keeps_of_reads {α : Type} {x : Carbon β α} (h : ∀ s, Keeps (· = s) x) : Keeps I x := by
  refine holds_of_states fun s hs => (h s).mono (fun _ h => h) ?_ ?_
  · rintro _ _ rfl
    exact hs
  · rintro _ _ rfl
    exact hs

theorem holds_of_keeps {α : Type} {x : Carbon β α} {s : World β} (hs : I s) (h : Keeps I x) :
    Holds (· = s) x (fun _ => I) fun _ => I := by
  refine h.mono ?_ (fun _ _ h => h) fun _ _ h => h
  rintro _ rfl
  exact hs

theorem holds_registryGet {s : World β} (registry : Int) (path : Str) :
    Holds (· = s) (registryGet registry path : Carbon β Collection)
      (fun entry t => (s.registries registry).lookup path = some entry ∧ t = s)
      (fun _ t => t = s) := by
  refine holds_call (fun _ _ ht => ht) ?_
  rintro t rfl
  cases hentry : (t.registries registry).lookup path with
  | none => rfl
  | some entry => exact ⟨rfl, rfl⟩

theorem holds_createSubscription {w : World β} (topic subscriptionName owner : Str) :
    Holds (· = w) (createSubscription topic subscriptionName owner : Carbon β Unit)
      (fun _ s => s = w.putEntry w.context.ownTenant
        (getSubscriptionID (getTenantBasedTopicName w.context topic) subscriptionName)
        (subscriptionEntry w.now subscriptionName owner
          (((w.registries w.context.ownTenant).lookup (getSubscriptionID
            (getTenantBasedTopicName w.context topic) subscriptionName)).getD ∅)))
      (fun _ s => s = w) := by
  have h : Holds (· = w) (subscribing topic subscriptionName owner : Carbon β Unit)
      (fun _ s => s = w.putEntry w.context.ownTenant
        (getSubscriptionID (getTenantBasedTopicName w.context topic) subscriptionName)
        (subscriptionEntry w.now subscriptionName owner
          (((w.registries w.context.ownTenant).lookup (getSubscriptionID
            (getTenantBasedTopicName w.context topic) subscriptionName)).getD ∅)))
      (fun _ s => s = w) := by
    refine holds_translate (holds_peek_bind (holds_query_bind (fun _ => rfl) (holds_peek_bind
      (holds_query_bind (fun _ => rfl) (holds_query_bind (fun _ => rfl) (holds_peek_bind ?_))))))
    refine holds_command (fun _ _ hs => hs) ?_
    rintro _ rfl
    rfl
  intro site hsite
  rw [createSubscription_apply]
  exact h site hsite

theorem holds_deleteSubscription {w : World β} (topic subscriptionName : Str) :
    Holds (· = w) (deleteSubscription topic subscriptionName : Carbon β Unit)
      (fun _ s => s = if getSubscriptionID topic subscriptionName ∈
          w.registries w.context.ownTenant
        then w.deleteEntry w.context.ownTenant (getSubscriptionID topic subscriptionName) else w)
      (fun _ s => s = w) := by
  refine holds_translate (holds_peek_bind (holds_query_bind (fun _ => rfl)
    (holds_query_bind (fun _ => rfl) ?_)))
  by_cases hmem : getSubscriptionID topic subscriptionName ∈ w.registries w.context.ownTenant
  · simp only [hmem, decide_true, if_true]
    exact (holds_registryDelete _ _).mono (fun _ h => h) (fun _ _ h => h.2) fun _ _ h => h
  · simp only [hmem, decide_false, Bool.false_eq_true, if_false]
    exact holds_pure fun _ h => h

section
variable {realms : Int → Prop}

theorem keeps_createQueue (h : KeptByQueues realms I) (queueName owner : Str) :
    Keeps I (RegistryClient.createQueue queueName owner) := by
  refine holds_of_states fun s hs => (holds_createQueue queueName owner).mono (fun _ h => h) ?_ ?_
  · rintro _ _ ⟨id, entry, hid, hentry, rfl⟩
    exact h.register s queueName owner id entry hs hid hentry
  · rintro _ _ rfl
    exact hs

theorem keeps_deleteQueue (h : KeptByQueues realms I) (queueName : Str) :
    Keeps I (RegistryClient.deleteQueue queueName) := by
  refine keeps_translate (holds_of_states fun s hs => ?_)
  have hstay : ∀ t, t = s → I t := by
    rintro _ rfl
    exact hs
  refine holds_query_bind (fun _ => hs) (holds_peek_bind (holds_orRaise_bind (fun id hid => ?_)
    fun _ _ => hstay))
  refine holds_query_bind (fun _ => hs) ?_
  split
  · refine holds_bind ((holds_registryGet _ _).mono (fun _ h => h) (fun _ _ h => h) fun _ => hstay)
      fun entry => holds_of_fact fun hentry => ?_
    dsimp only
    split
    · refine holds_bind ((holds_registryGet _ _).mono (fun _ h => h) (fun _ _ h => h)
        fun _ => hstay) fun queue => holds_of_fact fun hqueue => ?_
      split
      · exact holds_pure hstay
      · split
        · exact holds_raise hstay
        · rename_i count _
          split
          · refine holds_command (fun _ => hstay) ?_
            rintro _ rfl
            exact h.lower _ queueName id queue _ hs hid hqueue
          · refine (holds_registryDelete _ _).mono (fun _ h => h) ?_ fun _ => hstay
            rintro _ _ ⟨-, rfl⟩
            exact h.remove s queueName id hs hid
    · exact holds_pure hstay
  · exact holds_pure hstay

theorem keeps_createSubscription (h : KeptByTopics I) (topic subscriptionName owner : Str) :
    Keeps I (createSubscription topic subscriptionName owner) := by
  refine holds_of_states fun s hs => (holds_createSubscription topic subscriptionName owner).mono
    (fun _ h => h) ?_ ?_
  · rintro _ _ rfl
    exact h.subscribe s topic subscriptionName owner hs
  · rintro _ _ rfl
    exact hs

theorem keeps_deleteSubscription (h : KeptByTopics I) (topic subscriptionName : Str) :
    Keeps I (deleteSubscription topic subscriptionName) := by
  refine holds_of_states fun s hs => (holds_deleteSubscription topic subscriptionName).mono
    (fun _ h => h) ?_ ?_
  · rintro _ _ rfl
    split
    · exact h.unsubscribe s topic subscriptionName hs
    · exact hs
  · rintro _ _ rfl
    exact hs

theorem keeps_setPermission (h : KeptByQueues realms I) {realm : Int} (hrealm : realms realm)
    (queueID : Str) (permission : QueueRolePermission) :
    Keeps I (QueueManagerServiceImpl.setPermission realm queueID permission) := by
  have hset (cell : Cell) (value : Bool) :
      Keeps I (command fun w => w.setCell realm cell value : Carbon β Unit) :=
    keeps_command fun s hs => h.grant s realm cell value hrealm hs
  cases hconsume : permission.isAllowedToConsume <;>
    cases hpublish : permission.isAllowedToPublish <;>
    simp only [QueueManagerServiceImpl.setPermission, hconsume, hpublish, Bool.false_eq_true,
      ↓reduceIte] <;>
    exact keeps_bind (hset _ _) fun _ => hset _ _

variable {userRealm : Option Int} (username : Str) (properties : ObjectProperties)

theorem keeps_handleCreateQueue (h : KeptByQueues realms I)
    (hrealm : ∀ realm, userRealm = some realm → realms realm) :
    Keeps I (handleCreateQueue username userRealm properties) := by
  refine keeps_translate ?_
  cases userRealm with
  | none => exact keeps_pure _
  | some realm =>
    refine keeps_bind (keeps_of_reads fun _ => RefusedRequests.keeps_isAdminOrMay _ _ _ _)
      fun b => ?_
    split
    · refine keeps_bind (keeps_peek _) fun _ => keeps_bind (keeps_throwIfNull _) fun name => ?_
      refine keeps_bind (keeps_createQueue h _ _) fun _ => ?_
      refine keeps_bind (keeps_peek _) fun _ => keeps_bind (keeps_orRaise _) fun queueID => ?_
      split
      · refine keeps_bind (keeps_query _) fun roleNames => ?_
        refine keeps_bind (keeps_authorizeRoles (fun s role action _ hs => ?_) _) fun _ =>
          keeps_pure _
        exact h.grant s realm _ true (hrealm realm rfl) hs
      · exact keeps_pure _
    · exact keeps_pure _

theorem keeps_handleBindQueue (h : KeptByTopics I) :
    Keeps I (handleBindQueue username userRealm properties) := by
  refine keeps_translate ?_
  cases userRealm with
  | none => exact keeps_pure _
  | some realm =>
    have htest (own : Bool) (id permission : Str) :
        Keeps I (isOwnAdminOrMay username realm own id permission : Carbon β Bool) :=
      keeps_of_reads fun _ => RefusedRequests.keeps_isOwnAdminOrMay _ _ _ _ _
    refine keeps_bind (keeps_peek _) fun _ => keeps_bind (keeps_throwIfNull _) fun exchange =>
      keeps_bind (keeps_throwIfNull _) fun name => keeps_bind (keeps_throwIfNull _) fun key => ?_
    split
    · refine keeps_bind (keeps_peek _) fun _ => keeps_bind (keeps_orRaise _) fun queueID => ?_
      refine keeps_bind (htest _ _ _) fun _ => ?_
      split <;> exact keeps_pure _
    · split
      · refine keeps_bind (htest _ _ _) fun _ => ?_
        split
        · exact keeps_bind (keeps_createSubscription h _ _ _) fun _ => keeps_pure _
        · exact keeps_pure _
      · exact keeps_pure _

theorem keeps_handleUnbindQueue (h : KeptByTopics I) : Keeps I (handleUnbindQueue properties) := by
  refine keeps_translate (keeps_bind (keeps_throwIfNull _) fun exchange =>
    keeps_bind (keeps_throwIfNull _) fun name => keeps_bind (keeps_throwIfNull _) fun key => ?_)
  split
  · exact keeps_bind (keeps_deleteSubscription h _ _) fun _ => keeps_pure _
  · exact keeps_pure _

theorem keeps_handleDeleteQueue (h : KeptByQueues realms I) :
    Keeps I (handleDeleteQueue username userRealm properties) := by
  refine keeps_translate (keeps_bind (keeps_throwIfNull _) fun realm => ?_)
  refine keeps_bind (keeps_of_reads fun _ => RefusedRequests.keeps_isAdminOrMay _ _ _ _)
    fun b => ?_
  split
  · refine keeps_bind (keeps_throwIfNull _) fun name => ?_
    exact keeps_bind (keeps_deleteQueue h _) fun _ => keeps_pure _
  · exact keeps_pure _

theorem keeps_dispatch (h : KeptByQueues realms I) (htopics : KeptByTopics I)
    (hrealm : ∀ realm, userRealm = some realm → realms realm) (operation : Operation)
    (objectType : ObjectType) :
    Keeps I (dispatch operation objectType username userRealm properties) := by
  unfold dispatch
  split
  · exact keeps_pure _
  · exact keeps_handleCreateQueue username properties h hrealm
  · exact keeps_handleBindQueue username properties htopics
  · exact keeps_handleBindQueue username properties htopics
  · exact keeps_of_reads fun _ => RefusedRequests.keeps_handlePublishToExchange _ _ _
  · exact keeps_of_reads fun _ => RefusedRequests.keeps_handleConsumeQueue _ _ _
  · exact keeps_handleUnbindQueue properties htopics
  · exact keeps_pure _
  · exact keeps_handleDeleteQueue username properties h
  · exact keeps_pure _
  · exact keeps_pure _

end

section
variable {surroundings : Surroundings}

theorem holds_enterTenant {J : World β → Prop}
    (hcontext : ∀ s context, J s → J { s with context := context }) (username : Str) :
    Holds (fun s => J s ∧ s.context = .fresh) (enterTenant surroundings username : Carbon β Unit)
      (fun _ s => J s ∧ s.context = tenantContext surroundings username) (fun _ => J) := by
  unfold enterTenant tenantContext
  cases domainNameOf username with
  | none =>
    refine holds_poke ?_
    rintro s ⟨hJ, hs⟩
    rw [hs]
    exact ⟨hcontext _ _ hJ, rfl⟩
  | some tenantDomain =>
    refine holds_of_states fun s ⟨hJ, hs⟩ => ?_
    refine holds_poke_bind (holds_query_bind (fun _ => hcontext s _ hJ) (holds_poke ?_))
    rintro _ rfl
    rw [hs]
    exact ⟨hcontext s _ hJ, rfl⟩

/-- The handlers' triples become the plugin's: what they throw denies, and the thread's context
does not matter. -/
theorem holds_authorise {J : World β → Prop} {Q : Result → World β → Prop}
    (hJ : ∀ s context, J s → J { s with context := context })
    (hQ : ∀ result s context, Q result s → Q result { s with context := context })
    (hdenied : ∀ s, J s → Q .DENIED s)
    (hnobody : surroundings.threadSubject = none → ∀ s, J s → Q surroundings.getDefault s)
    {operation : Operation} {objectType : ObjectType} {properties : ObjectProperties}
    (hdispatch : ∀ username others userRealm,
      surroundings.threadSubject = some (username :: others) →
      (∀ realm, userRealm = some realm →
        OperationMediation.realmOf surroundings username = some realm) →
      Holds (fun s => J s ∧ s.context = tenantContext surroundings username)
        (dispatch operation objectType (userOf username) userRealm properties) Q
        fun _ => Q .DENIED) :
    Holds J (authorise surroundings operation objectType properties) Q fun _ => Q .DENIED := by
  have hjudge : Holds (fun s => J s ∧ s.context = .fresh)
      (judge surroundings operation objectType properties) Q fun _ => Q .DENIED := by
    unfold judge principalName
    match hsubject : surroundings.threadSubject with
    | none => exact holds_pure fun s hs => hnobody hsubject s hs.1
    | some [] => exact fun site hs => hdenied _ hs.1
    | some (username :: others) =>
      dsimp only
      rw [pure_bind]
      refine holds_bind (Q := fun userRealm s => (∀ realm, userRealm = some realm →
        OperationMediation.realmOf surroundings username = some realm) ∧ J s ∧ s.context = .fresh)
        ?_ fun userRealm => holds_of_fact fun hrealm => ?_
      · refine holds_of_states fun s hs => (OperationMediation.holds_getUserRealm surroundings
          username).mono (fun _ h => h) ?_ ?_
        · rintro userRealm _ ⟨hfound, rfl⟩
          exact ⟨hfound, hs⟩
        · rintro _ _ rfl
          exact hdenied _ hs.1
      · refine holds_bind ((holds_enterTenant hJ username).mono (fun _ h => h) (fun _ _ h => h)
          fun _ => hdenied) fun _ => ?_
        exact hdispatch username others userRealm hsubject hrealm
  intro site hsite
  have h := holds_handling (f := fun _ => pure .DENIED) hjudge
    (E := fun _ => Q .DENIED) (fun _ => holds_pure fun _ hs => hs)
    ⟨{ site.state with context := .fresh }, site.outcomes⟩ ⟨hJ _ _ hsite, rfl⟩
  rw [authorise]
  dsimp only [inTenantFlow]
  generalize handling (judge surroundings operation objectType properties)
    (fun _ => pure Result.DENIED) ⟨{ site.state with context := .fresh }, site.outcomes⟩ = r at h ⊢
  cases r with
  | ok result t => exact hQ _ _ _ h
  | error e t => exact hQ _ _ _ h

end

section
open QueueManagerServiceImpl

variable {realms : Int → Prop} {beans : BrokerBeans β} (queueName : Str)

structure KeptByBeans (beans : BrokerBeans β) (queueName : Str) (I : World β → Prop) : Prop where
  isQueueExists : Keeps I (invoke (beans.isQueueExists queueName))
  createNewQueue : ∀ owner durable, Keeps I (invoke (beans.createNewQueue queueName owner durable))
  createNewBinding : ∀ bindingKey, Keeps I (invoke (beans.createNewBinding queueName bindingKey))
  removeBinding : ∀ bindingKey, Keeps I (invoke (beans.removeBinding queueName bindingKey))
  deleteQueue : Keeps I (invoke (beans.deleteQueue queueName))

theorem keptByBeans_of_broker (hbroker : ∀ s broker, I s → I { s with broker := broker }) :
    KeptByBeans beans queueName I :=
  ⟨keeps_invoke hbroker _, fun _ _ => keeps_invoke hbroker _, fun _ => keeps_invoke hbroker _,
    fun _ => keeps_invoke hbroker _, keeps_invoke hbroker _⟩

section
variable (hbeans : ∀ s, I s → KeptByBeans beans (getTenantBasedQueueName s.context queueName) I)
include hbeans

theorem keeps_adminCreateQueue (h : KeptByQueues realms I)
    (hrealm : ∀ s, I s → realms s.context.ownTenant) :
    Keeps I (QueueManagerServiceImpl.createQueue beans queueName) := by
  refine keeps_translate (holds_of_states fun s hs => holds_peek_bind (holds_peek_bind
    (holds_of_keeps hs ?_)))
  have hcalls := hbeans s hs
  refine keeps_bind (QueueManagementBeans.keeps_queueExists hcalls.isQueueExists) fun _ => ?_
  split
  · refine keeps_bind (keeps_createQueue h _ _) fun _ => keeps_bind
      (QueueManagementBeans.keeps_createQueue (hcalls.createNewQueue _ _)
        (hcalls.createNewBinding _)) fun _ => ?_
    refine holds_of_states fun s hs => holds_peek_bind (holds_query_bind (fun _ => hs)
      (holds_of_keeps hs ?_))
    refine keeps_bind (keeps_peek _) fun _ => keeps_bind (keeps_orRaise _) fun queueID =>
      keeps_bind (keeps_peek _) fun _ => keeps_bind (keeps_query _) fun roleNames => ?_
    exact keeps_authorizeRoles (fun t role action _ ht => h.grant t _ _ true (hrealm s hs) ht) _
  · exact keeps_raise _

theorem keeps_updatePermission (h : KeptByQueues realms I)
    (hrealm : ∀ s, I s → realms s.context.ownTenant) (permissions : List QueueRolePermission) :
    Keeps I (updatePermission beans queueName permissions) := by
  refine holds_of_states fun s hs => holds_peek_bind (holds_of_keeps hs ?_)
  refine keeps_bind (QueueManagementBeans.keeps_queueExists (hbeans s hs).isQueueExists)
    fun _ => ?_
  split
  · refine keeps_bind (keeps_peek _) fun _ => keeps_bind (keeps_orRaise _) fun queueID =>
      keeps_bind (keeps_peek _) fun _ => keeps_translate ?_
    refine holds_of_states fun s hs => holds_peek_bind (holds_query_bind (fun _ => hs)
      (holds_of_keeps hs ?_))
    have hset (permission : QueueRolePermission) :=
      keeps_setPermission h (hrealm s hs) queueID permission
    refine keeps_bind (keeps_query _) fun _ => ?_
    split
    · exact keeps_bind (keeps_raise _) fun _ => keeps_forEach _ fun _ _ => hset _
    · exact keeps_forEach _ fun _ _ => hset _
  · exact keeps_raise _

theorem keeps_getQueueRolePermission : Keeps I (getQueueRolePermission beans queueName) := by
  refine holds_of_states fun s hs => holds_peek_bind (holds_of_keeps hs ?_)
  refine keeps_bind (QueueManagementBeans.keeps_queueExists (hbeans s hs).isQueueExists)
    fun _ => ?_
  split
  · refine keeps_bind (keeps_peek _) fun _ => keeps_bind (keeps_peek _) fun _ =>
      keeps_bind (keeps_orRaise _) fun queueID => keeps_translate ?_
    refine keeps_bind (keeps_peek _) fun _ => keeps_bind (keeps_query _) fun realm =>
      keeps_bind (keeps_query _) fun adminRole => keeps_bind (keeps_query _) fun roleNames =>
        keeps_bind (keeps_peek _) fun anonymousRole => ?_
    refine keeps_mapM (fun role => ?_) _
    exact keeps_bind (keeps_query _) fun _ => keeps_bind (keeps_query _) fun _ => keeps_pure _
  · exact keeps_raise _

end

theorem keeps_adminDeleteQueue (hbeans : KeptByBeans beans queueName I)
    (hdelete : ∀ s t, I s → I t → I (t.deleteEntry s.context.tenantId
      (MB_QUEUE_STORAGE_PATH ++ "/".toList ++ queueName))) :
    Keeps I (QueueManagerServiceImpl.deleteQueue beans queueName) := by
  refine keeps_translate (holds_of_states fun s hs => holds_peek_bind
    (holds_query_bind (fun _ => hs) (holds_of_keeps hs ?_)))
  refine keeps_bind (QueueManagementBeans.keeps_queueExists hbeans.isQueueExists) fun _ => ?_
  split
  · refine keeps_bind (QueueManagementBeans.keeps_deleteQueue (hbeans.removeBinding _)
      hbeans.deleteQueue) fun _ => keeps_registryDelete _ _ fun t ht => ?_
    exact hdelete s t hs ht
  · exact keeps_pure _

end

end CarbonMessaging.RequestFrames
