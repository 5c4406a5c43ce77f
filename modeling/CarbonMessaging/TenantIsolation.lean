import CarbonMessaging.PermissionHistory

/-! Whether a tenant's users reach queues that the tenant does not own. Ownership is tested for
administrators only; every other right hangs on the queue id, in which an owned and a foreign
name may meet. -/

namespace CarbonMessaging.TenantIsolation

open JavaLang FaultyCalls CellHistory CommonsUtil QpidAuthorizationHandler PermissionHistory

variable {β : Type} (beans : BrokerBeans β)

def IsQueueExchange (exchange : Str) : Prop :=
  getRawExchangeName exchange = DEFAULT_EXCHANGE ∨ getRawExchangeName exchange = DIRECT_EXCHANGE

/-- Every consumption, queue binding and publication under the raw name is denied to everyone. -/
def DeniesEveryone (w : World β) (queueName : Str) : Prop :=
  ∀ username properties,
    (∀ name, properties.NAME = some name → getRawQueueName name = queueName →
      handleConsumeQueue username (some w.context.ownTenant) properties ⟨w, []⟩ =
        .ok .DENIED ⟨w, []⟩) ∧
    (∀ exchange name key, properties.NAME = some exchange → IsQueueExchange exchange →
      properties.QUEUE_NAME = some name → getRawQueueName name = queueName →
      properties.ROUTING_KEY = some key →
      handleBindQueue username (some w.context.ownTenant) properties ⟨w, []⟩ =
        .ok .DENIED ⟨w, []⟩) ∧
    (∀ exchange key, properties.NAME = some exchange → IsQueueExchange exchange →
      properties.ROUTING_KEY = some key → getRawRoutingKey key = queueName →
      handlePublishToExchange username (some w.context.ownTenant) properties ⟨w, []⟩ =
        .ok .DENIED ⟨w, []⟩)

def GrantsOn (id : Str) (p : World β × Call) : Prop :=
  ∃ cell, IsQueueRight cell ∧ cell.resourceId = id ∧
    p.2.effect beans (p.2.enter p.1) cell = some true

def NoRights (w : World β) (id : Str) : Prop :=
  ∀ cell, IsQueueRight cell → cell.resourceId = id → allowed w cell = false

theorem noRights_run {w : World β} {id : Str} (hempty : NoRights w id) (calls : List Call)
    (hcalls : ∀ p ∈ trace (Call.step beans) calls w, ¬GrantsOn beans id p) :
    NoRights (run (Call.step beans) calls w) id := by
  intro cell hright hid
  rw [← Bool.not_eq_true, set_after_run_iff (sets_step beans hright)]
  rintro (⟨before, p, later, hsplit, hgrant, -⟩ | ⟨hset, -⟩)
  · exact hcalls p (by simp [hsplit]) ⟨cell, hright, hid, hgrant⟩
  · rw [hempty cell hright hid] at hset
    cases hset

theorem context_run (calls : List Call) (w : World β) :
    ∃ user, (run (Call.step beans) calls w).context = { w.context with username := user } := by
  refine run_induction (I := fun s : World β =>
    ∃ user, s.context = { w.context with username := user }) ?_ calls ⟨w.context.username, rfl⟩
  rintro call s ⟨user, hs⟩
  refine ⟨call.user, ?_⟩
  rw [step_context, hs]

theorem userAuthorized_of_noRights {w : World β} {id : Str} (h : NoRights w id) (username : Str)
    {action : Str} (haction : action = CONSUME ∨ action = PUBLISH) :
    (w.realms w.context.ownTenant).userAuthorized username id action = false := by
  rw [UserRealm.userAuthorized, List.any_eq_false]
  intro role _
  rw [Bool.not_eq_true]
  exact h ⟨role, id, action⟩ haction rfl

theorem deniesEveryone_of_noRights {w : World β} {queueName id : Str}
    (hforeign : isOwnDomain w.context.tenantDomain queueName = false)
    (hid : getQueueID w.context queueName = .ok id) (h : NoRights w id) :
    DeniesEveryone w queueName := by
  have hdenied : ∀ username action, action = CONSUME ∨ action = PUBLISH →
      ownAdminOrMay (w.realms w.context.ownTenant) username
        (isOwnDomain w.context.tenantDomain queueName) id action = false := by
    intro username action haction
    rw [ownAdminOrMay, hforeign, Bool.and_false, Bool.false_or,
      userAuthorized_of_noRights h username haction]
  intro username properties
  refine ⟨?_, ?_, ?_⟩
  · rintro name hname rfl
    rw [handleConsumeQueue_quiet hname hid, hdenied _ _ (.inl rfl)]
    simp
  · rintro exchange name key hexchange hqueue hname rfl hkey
    rw [handleBindQueue_quiet hexchange hqueue hname hkey hid, hdenied _ _ (.inl rfl)]
    simp
  · rintro exchange key hexchange hqueue hkey rfl
    rw [handlePublishToExchange_quiet hexchange hqueue.symm hkey hid, hdenied _ _ (.inr rfl)]
    simp

/-- As long as no call grants a right on its queue id, a foreign name stays closed to every user
of the tenant. -/
theorem foreign_denied {w : World β} {domain : Str}
    (hdomain : w.context.tenantDomain = some domain)
    (hempty : ∀ cell, IsQueueRight cell → allowed w cell = false) (calls : List Call)
    {queueName id : Str} (hforeign : isOwnDomain (some domain) queueName = false)
    (hid : getQueueID w.context queueName = .ok id)
    (hcalls : ∀ p ∈ trace (Call.step beans) calls w, ¬GrantsOn beans id p) :
    DeniesEveryone (run (Call.step beans) calls w) queueName := by
  have hclosed := noRights_run beans (fun cell hright _ => hempty cell hright) calls hcalls
  obtain ⟨user, hcontext⟩ := context_run beans calls w
  refine deniesEveryone_of_noRights ?_ ?_ hclosed
  · rw [hcontext, hdomain, hforeign]
  · rw [hcontext]
    exact hid

def fooContext : CarbonContext := ⟨1, some "foo".toList, "bob".toList⟩

def createFooQ : Call :=
  ⟨"bob".toList, "0".toList, .handleCreateQueue ⟨some "foo/q".toList, none, none⟩⟩

theorem createFooQ_grants : grantedID (createFooQ.enter (adminWorld fooContext ())) "bob".toList 1
    ⟨some "foo/q".toList, none, none⟩ = some (queueResource "q".toList) := by
  decide

theorem foreign_denied_p :
    DeniesEveryone (run (Call.step fullBroker) [createFooQ] (adminWorld fooContext ()))
      "p".toList := by
  refine foreign_denied fullBroker rfl (fun _ _ => rfl) _ (by decide) rfl ?_
  intro p hp
  rw [List.mem_singleton.1 hp]
  rintro ⟨cell, -, hid, heffect⟩
  have hgranted : grantedID (createFooQ.enter (adminWorld fooContext ())) "bob".toList 1
      ⟨some "foo/q".toList, none, none⟩ = some cell.resourceId := by
    by_contra hne
    have hnone : createFooQ.effect fullBroker (createFooQ.enter (adminWorld fooContext ())) cell =
        none := if_neg fun h => hne h.1
    rw [hnone] at heffect
    cases heffect
  rw [createFooQ_grants, hid] at hgranted
  exact absurd hgranted (by decide)

theorem foreign_q_opens :
    (∀ cell, allowed (adminWorld fooContext ()) cell = false) ∧
    isOwnDomain fooContext.tenantDomain "q".toList = false ∧
    isTopicSubscriberQueue "q".toList = false ∧
    ¬DeniesEveryone (run (Call.step fullBroker) [createFooQ] (adminWorld fooContext ()))
      "q".toList := by
  refine ⟨fun _ => rfl, by decide, by decide, fun h => ?_⟩
  have hconsume := (h "bob".toList ⟨some "q".toList, none, none⟩).1 _ rfl rfl
  cases hconsume

end CarbonMessaging.TenantIsolation
