import CarbonMessaging.CreationFailures

/-! Deleting a queue right after its creation by the admin service. The creation finds the
registry entry through the queue's id, the deletion by the queue's name, so the deletion removes
the entry just when the id is the name under the queues' path. -/

namespace CarbonMessaging.CreateDeleteInverse

open JavaLang FaultyCalls CommonsUtil CreationFailures
open QueueManagerServiceImpl (MB_QUEUE_STORAGE_PATH)

variable {β : Type} {beans : BrokerBeans β}

/-- What is expected of the broker: its queues and bindings behave like finite sets. -/
structure BrokerLaws (beans : BrokerBeans β) where
  queues : β → Finset Str
  bindings : β → Finset (Str × Str)
  isQueueExists (queueName : Str) (b : β) : ∃ answer b',
    beans.isQueueExists queueName b = .ok (some answer) b' ∧
    (answer = true ↔ queueName ∈ queues b) ∧ queues b' = queues b ∧ bindings b' = bindings b
  createNewQueue {queueName owner : Str} {durable : Bool} {b b' : β}
    (h : beans.createNewQueue queueName owner durable b = .ok () b') :
    queues b' = insert queueName (queues b)
  createNewBinding {queueName bindingKey : Str} {b b' : β}
    (h : beans.createNewBinding queueName bindingKey b = .ok () b') :
    queues b' = queues b ∧ (queueName, bindingKey) ∈ bindings b'
  removeBinding {queueName bindingKey : Str} {b : β} (h : (queueName, bindingKey) ∈ bindings b) :
    ∃ b', beans.removeBinding queueName bindingKey b = .ok () b' ∧ queues b' = queues b
  deleteQueue {queueName : Str} {b : β} (h : queueName ∈ queues b) :
    ∃ b', beans.deleteQueue queueName b = .ok () b' ∧ queues b' = (queues b).erase queueName

/-- With every call going through, the deletion under the physical name returns, the broker's
queue is gone, and the registries are those of before the creation. -/
def DeletesAgain (laws : BrokerLaws beans) (queueName : Str) (w t : World β) : Prop :=
  ∃ u, QueueManagerServiceImpl.deleteQueue beans (physicalName queueName w.context) ⟨t, []⟩ =
      .ok () ⟨u, []⟩ ∧
    physicalName queueName w.context ∉ laws.queues u.broker ∧ u.registries = w.registries

/-- The deletion looks into the tenant's own registry, and the physical name is its own id. -/
def OnePath (context : CarbonContext) (queueName : Str) : Prop :=
  (context.tenantId = SUPER_TENANT_ID ∨ 0 < context.tenantId) ∧
    KeepsName context (physicalName queueName context) ∧ ';' ∉ physicalName queueName context

theorem ownTenant_eq_iff {context : CarbonContext} :
    context.ownTenant = context.tenantId ↔
      context.tenantId = SUPER_TENANT_ID ∨ 0 < context.tenantId := by
  unfold CarbonContext.ownTenant
  split
  · constructor
    · exact fun h => .inl h.symm
    · rintro (h | h)
      · exact h.symm
      · omega
  · exact iff_of_true rfl (.inr (by omega))

section
variable {queueName : Str} {w : World β} {outcomes : List (Option JavaException)}
  {t : Site JavaException (World β)}

structure Created (laws : BrokerLaws beans) (queueName : Str) (w t : World β) : Prop where
  context : t.context = w.context
  entry : ∃ id entry, getQueueID w.context (physicalName queueName w.context) = .ok id ∧
    t.registries = (w.putEntry w.context.ownTenant id entry).registries
  queue : physicalName queueName w.context ∈ laws.queues t.broker
  binding : (physicalName queueName w.context, physicalName queueName w.context) ∈
    laws.bindings t.broker

theorem created_of_createQueue (laws : BrokerLaws beans)
    (h : QueueManagerServiceImpl.createQueue beans queueName ⟨w, outcomes⟩ = .ok () t) :
    Created laws queueName w t.state := by
  rw [createQueue_eq, translate_apply] at h
  cases hresult : createSteps beans queueName ⟨w, outcomes⟩ with
  | error e u =>
    rw [hresult] at h
    cases h
  | ok a u =>
    obtain ⟨s, writes, hbound, hs⟩ := bound_of_createSteps hresult
    rw [hresult] at h
    cases h
    cases hbound with
    | mk hregistered hqueue hbinding =>
      obtain @⟨answer, b, id, entry, hasked, hid, hentry⟩ := hregistered
      obtain ⟨hqueues, hbound⟩ := laws.createNewBinding hbinding
      rw [hs]
      refine ⟨?_, ⟨id, entry, hid, ?_⟩, ?_, ?_⟩
      · rw [setCells_context]
        rfl
      · rw [setCells_registries]
        rfl
      · rw [setCells_broker, hqueues, laws.createNewQueue hqueue]
        exact Finset.mem_insert_self _ _
      · rw [setCells_broker]
        exact hbound

theorem deleteQueue_bound (laws : BrokerLaws beans) {s : World β}
    (hqueue : queueName ∈ laws.queues s.broker)
    (hbinding : (queueName, queueName) ∈ laws.bindings s.broker) :
    ∃ b, queueName ∉ laws.queues b ∧
      QueueManagerServiceImpl.deleteQueue beans queueName ⟨s, []⟩ =
        if queueResource queueName ∈ s.registries s.context.tenantId then
          .ok () ⟨{ s with broker := b }.deleteEntry s.context.tenantId
            (queueResource queueName), []⟩
        else .error ⟨.queueManager, some ("Failed to delete queue: ".toList ++ queueName ++
          " ".toList ++ (noResource (queueResource queueName)).messageText)⟩
          ⟨{ s with broker := b }, []⟩ := by
  obtain ⟨answer, b₁, hasked, hanswer, hqueues₁, hbindings₁⟩ :=
    laws.isQueueExists queueName s.broker
  have hexists : answer = true := hanswer.2 hqueue
  rw [← hbindings₁] at hbinding
  obtain ⟨b₂, hremoved, hqueues₂⟩ := laws.removeBinding hbinding
  rw [← hqueues₁, ← hqueues₂] at hqueue
  obtain ⟨b₃, hdeleted, hqueues₃⟩ := laws.deleteQueue hqueue
  refine ⟨b₃, by rw [hqueues₃]; exact Finset.notMem_erase _ _, ?_⟩
  have hpath : MB_QUEUE_STORAGE_PATH ++ "/".toList ++ queueName = queueResource queueName := rfl
  have hbroker : QueueManagementBeans.queueExists beans queueName ⟨s, []⟩ =
      .ok true ⟨{ s with broker := b₁ }, []⟩ := by
    simp [QueueManagementBeans.queueExists, invoke, hasked, hexists]
  have hgone : QueueManagementBeans.deleteQueue beans queueName ⟨{ s with broker := b₁ }, []⟩ =
      .ok () ⟨{ s with broker := b₃ }, []⟩ := by
    simp [QueueManagementBeans.deleteQueue, invoke, hremoved, hdeleted]
  simp only [QueueManagerServiceImpl.deleteQueue, context, getGovernanceSystemRegistry, hpath,
    translate_apply, bind_apply, peek_apply, query_quiet, hbroker, if_true, hgone]
  by_cases hmem : queueResource queueName ∈ s.registries s.context.tenantId
  · rw [if_pos hmem, RegistryClient.registryDelete_quiet (w := { s with broker := b₃ }) hmem]
  · rw [if_neg hmem]
    have hlookup := Finmap.lookup_eq_none.2 hmem
    simp [registryDelete, hlookup, noResource]

theorem deletesAgain_iff (laws : BrokerLaws beans)
    (hcreated : QueueManagerServiceImpl.createQueue beans queueName ⟨w, outcomes⟩ = .ok () t)
    (hnew : ∀ id, getQueueID w.context (physicalName queueName w.context) = .ok id →
      id ∉ w.registries w.context.ownTenant) :
    DeletesAgain laws queueName w t.state ↔ OnePath w.context queueName := by
  have created := created_of_createQueue laws hcreated
  obtain ⟨id, entry, hid, hregistries⟩ := created.entry
  have hfresh := hnew id hid
  have hstored : id ∈ t.state.registries w.context.ownTenant := by
    rw [hregistries, putEntry_registry]
    simp
  obtain ⟨b, hgone, hdelete⟩ := deleteQueue_bound laws created.queue created.binding
  rw [created.context] at hdelete
  constructor
  · rintro ⟨u, hdeleted, -, hrestored⟩
    rw [hdelete] at hdeleted
    split at hdeleted
    · cases hdeleted
      by_contra hpaths
      -- the entry is stored elsewhere than it was deleted
      refine hfresh ?_
      rw [← hrestored]
      by_cases htenant : w.context.ownTenant = w.context.tenantId
      · rw [← htenant, deleteEntry_registry, Finmap.mem_erase]
        refine ⟨fun hpath => hpaths ⟨ownTenant_eq_iff.1 htenant, ?_⟩, hstored⟩
        exact getQueueID_whole.1 (hpath ▸ hid)
      · rw [deleteEntry_other _ _ htenant]
        exact hstored
    · cases hdeleted
  · rintro ⟨htenant, hwhole⟩
    have hpath := getQueueID_whole.2 hwhole
    rw [hid] at hpath
    cases hpath
    rw [← ownTenant_eq_iff.2 htenant] at hdelete
    rw [if_pos hstored] at hdelete
    refine ⟨_, hdelete, hgone, ?_⟩
    refine Eq.trans ?_ (congrArg World.registries
      (putEntry_deleteEntry w w.context.ownTenant hfresh entry))
    simp only [World.deleteEntry, hregistries]

end

def listBroker : BrokerBeans (List Str × List (Str × Str)) where
  isQueueExists queueName b := .ok (some (b.1.contains queueName)) b
  createNewQueue queueName _ _ b := .ok () (queueName :: b.1, b.2)
  createNewBinding queueName bindingKey b := .ok () (b.1, (queueName, bindingKey) :: b.2)
  removeBinding queueName bindingKey b := .ok () (b.1, b.2.filter (· != (queueName, bindingKey)))
  deleteQueue queueName b := .ok () (b.1.filter (· != queueName), b.2)
  deleteAllMessagesInQueue _ b := .ok () b

def listBrokerLaws : BrokerLaws listBroker where
  queues b := b.1.toFinset
  bindings b := b.2.toFinset
  isQueueExists queueName b := ⟨_, b, rfl, by simp, rfl, rfl⟩
  createNewQueue h := by
    cases h
    simp
  createNewBinding h := by
    cases h
    simp
  removeBinding h := ⟨_, rfl, rfl⟩
  deleteQueue {queueName b} h := ⟨_, rfl, by
    ext name
    simp [and_comm]⟩

def tenantWorld (domain : Str) : World (List Str × List (Str × Str)) :=
  World.initial ⟨1, some domain, "admin".toList⟩ ([], [])

theorem deletesAgain_iff_dotted : ∃ t,
    QueueManagerServiceImpl.createQueue listBroker "q".toList ⟨tenantWorld "a.b".toList, []⟩ =
      .ok () t ∧
    (DeletesAgain listBrokerLaws "q".toList (tenantWorld "a.b".toList) t.state ↔
      OnePath (tenantWorld "a.b".toList).context "q".toList) :=
  ⟨_, rfl, @deletesAgain_iff _ _ "q".toList (tenantWorld "a.b".toList) [] _ listBrokerLaws rfl
    fun _ _ h => by cases h⟩

/-- The entry of `foo/q` is stored as `q` and sought as `foo/q`. -/
theorem undotted_not_deleted : ∃ t,
    QueueManagerServiceImpl.createQueue listBroker "q".toList ⟨tenantWorld "foo".toList, []⟩ =
      .ok () t ∧
    ¬DeletesAgain listBrokerLaws "q".toList (tenantWorld "foo".toList) t.state :=
  ⟨_, rfl, fun ⟨_, h, _⟩ => by cases h⟩

end CarbonMessaging.CreateDeleteInverse
