import CarbonMessaging.QpidAuthorizationHandler

/-! What a removal request makes of the entry that the matching creation request stored.
Creation stores names with '@' replaced; removal computes the replaced names and looks for the
raw ones. -/

namespace CarbonMessaging.RegistrationErasure

open JavaLang FaultyCalls CommonsUtil RegistryClient QpidAuthorizationHandler

variable {β : Type}

def storedQueueID (name : Str) : Str :=
  queueResource (replaceChar '@' AT_REPLACE_CHAR (getRawQueueName name))

def storedSubscriptionID (queueName routingKey : Str) : Str :=
  getSubscriptionID (replaceChar '@' AT_REPLACE_CHAR (getRawRoutingKey routingKey))
    (replaceChar '@' AT_REPLACE_CHAR (getRawQueueName queueName))

def QueueErased (w w₂ : World β) : Prop := w₂.registries = w.registries

/-- Of the registries after the binding, the removal took out the entry of the id and no
other. -/
def SubscriptionErased (w₁ w₂ : World β) (id : Str) : Prop :=
  w₂.registries = (w₁.deleteEntry SUPER_TENANT_ID id).registries

theorem semicolon_notMem_raw (name : Str) : ';' ∉ getRawQueueName name := by
  intro h
  exact notMem_upTo ';' name (mem_of_mem_after h)

theorem getQueueID_raw {context : CarbonContext} (hsuper : context.tenantId ≤ 0) (name : Str) :
    getQueueID context (getRawQueueName name) = .ok (queueResource (getRawQueueName name)) := by
  rw [getQueueID_super hsuper, upTo_of_notMem (semicolon_notMem_raw name)]

theorem getQueueID_stored {context : CarbonContext} (hsuper : context.tenantId ≤ 0)
    (name : Str) : getQueueID context (replaceChar '@' AT_REPLACE_CHAR (getRawQueueName name)) =
      .ok (storedQueueID name) := by
  have hsemicolon : ';' ∉ replaceChar '@' AT_REPLACE_CHAR (getRawQueueName name) := by
    rw [mem_replaceChar_of_ne (by decide) (by decide)]
    exact semicolon_notMem_raw name
  rw [getQueueID_super hsuper, upTo_of_notMem hsemicolon]
  rfl

theorem storedQueueID_eq_iff (name : Str) :
    storedQueueID name = queueResource (getRawQueueName name) ↔ '@' ∉ getRawQueueName name := by
  rw [storedQueueID, queueResource_injective.eq_iff, replaceChar_eq_self_iff (by decide)]

theorem storedSubscriptionID_eq_iff (queueName routingKey : Str) :
    storedSubscriptionID queueName routingKey =
      getSubscriptionID (getRawRoutingKey routingKey) (getRawQueueName queueName) ↔
    '@' ∉ getTopicID (getRawRoutingKey routingKey) ∧ '@' ∉ getRawQueueName queueName := by
  have hreplace := getSubscriptionID_replaceAt (getRawRoutingKey routingKey)
    (getRawQueueName queueName)
  rw [storedSubscriptionID, AT_REPLACE_CHAR, hreplace, replaceChar_eq_self_iff (by decide),
    mem_getSubscriptionID, not_or]

theorem registries_create_delete {w w₁ w₂ : World β} (hsuper : w.context.tenantId ≤ 0)
    {username : Str} {realm : Int} {properties : ObjectProperties} {name : Str}
    (hname : properties.NAME = some name) (hnew : storedQueueID name ∉ w.registries SUPER_TENANT_ID)
    (hcreate : handleCreateQueue username (some realm) properties ⟨w, []⟩ =
      .ok .ALLOWED ⟨w₁, []⟩)
    (hdelete : handleDeleteQueue username (some realm) properties ⟨w₁, []⟩ =
      .ok .ALLOWED ⟨w₂, []⟩) :
    w₂.registries = (releaseEntry (w.putEntry SUPER_TENANT_ID (storedQueueID name)
      (newQueueEntry w.now (replaceChar '@' AT_REPLACE_CHAR (getRawQueueName name)) username ∅))
      (queueResource (getRawQueueName name))).registries := by
  have hown := ownTenant_super hsuper
  have houtcome := handleCreateQueue_outcome username (some realm) properties w
  rw [hcreate] at houtcome
  cases houtcome with
  | granted realm' name' newID id entry hrealm hmay hname' hnew' hcreated hid hown' =>
    rw [hname] at hname'
    cases hname'
    have hnewID := getQueueID_stored hsuper name
    rw [hnew'] at hnewID
    cases hnewID
    rw [hown] at hcreated hdelete
    rw [createQueue_new hnew' (by rw [hown]; exact hnew), hown] at hcreated
    have hentry := (EStateM.Result.ok.inj hcreated).2
    have houtcome := handleDeleteQueue_outcome username (some realm) properties
      ((w.putEntry SUPER_TENANT_ID (storedQueueID name) entry).setCells realm'
        (grantWrites id [CONSUME, PUBLISH, PERMISSION_CHANGE_PERMISSION]
          (grantees (w.realms realm') ((w.realms realm').roleListOfUser username))))
    rw [hdelete] at houtcome
    cases houtcome with
    | released _ name' rawID _ _ hname' hraw =>
      rw [hname] at hname'
      cases hname'
      rw [setCells_context, putEntry_context, getQueueID_raw hsuper] at hraw
      cases hraw
      refine releaseEntry_congr ?_ _
      rw [setCells_registries, (Site.mk.inj hentry).1]

theorem queueErased_iff {w w₁ w₂ : World β} (hsuper : w.context.tenantId ≤ 0)
    {username : Str} {realm : Int} {properties : ObjectProperties} {name : Str}
    (hname : properties.NAME = some name) (hnew : storedQueueID name ∉ w.registries SUPER_TENANT_ID)
    (hcreate : handleCreateQueue username (some realm) properties ⟨w, []⟩ =
      .ok .ALLOWED ⟨w₁, []⟩)
    (hdelete : handleDeleteQueue username (some realm) properties ⟨w₁, []⟩ =
      .ok .ALLOWED ⟨w₂, []⟩) :
    QueueErased w w₂ ↔ '@' ∉ getRawQueueName name := by
  rw [QueueErased, registries_create_delete hsuper hname hnew hcreate hdelete,
    ← storedQueueID_eq_iff]
  constructor
  · intro hback
    by_contra hdiffer
    have hlookup := congrArg (Finmap.lookup (storedQueueID name))
      (congrFun hback SUPER_TENANT_ID)
    rw [releaseEntry_other_id hdiffer, putEntry_registry, Finmap.lookup_insert,
      Finmap.lookup_eq_none.2 hnew] at hlookup
    cases hlookup
  · intro hsame
    rw [← hsame, releaseEntry_new hnew]

theorem subscriptionErased_iff {w w₁ w₂ : World β} (hsuper : w.context.tenantId ≤ 0)
    (hdomain : w.context.tenantDomain = some SUPER_TENANT_DOMAIN_NAME) {username : Str}
    {realm : Int} {properties : ObjectProperties} {queueName routingKey : Str}
    (hexchange : properties.NAME = some TOPIC_EXCHANGE)
    (hname : properties.QUEUE_NAME = some queueName)
    (hkey : properties.ROUTING_KEY = some routingKey)
    (hbind : handleBindQueue username (some realm) properties ⟨w, []⟩ = .ok .ALLOWED ⟨w₁, []⟩)
    (hunbind : handleUnbindQueue properties ⟨w₁, []⟩ = .ok .ALLOWED ⟨w₂, []⟩) :
    SubscriptionErased w₁ w₂ (storedSubscriptionID queueName routingKey) ↔
      '@' ∉ getTopicID (getRawRoutingKey routingKey) ∧ '@' ∉ getRawQueueName queueName := by
  have hown := ownTenant_super hsuper
  have htopic : ∀ topic, getTenantBasedTopicName w.context topic = topic := by
    intro topic
    simp only [getTenantBasedTopicName, hdomain, ne_eq, not_true_eq_false, false_and, if_false]
  -- the entry that the binding stored
  obtain ⟨entry, hstored⟩ : ∃ entry,
      w₁ = w.putEntry SUPER_TENANT_ID (storedSubscriptionID queueName routingKey) entry := by
    rw [handleBindQueue_topic hexchange hname hkey] at hbind
    split at hbind
    · simp only [final, createSubscription_quiet, htopic, hown] at hbind
      exact ⟨_, (Site.mk.inj (EStateM.Result.ok.inj hbind).2).1.symm⟩
    · cases hbind
  have hcontext : w₁.context.ownTenant = SUPER_TENANT_ID := by rw [hstored, putEntry_context, hown]
  have hmem : storedSubscriptionID queueName routingKey ∈ w₁.registries SUPER_TENANT_ID := by
    rw [hstored, putEntry_registry]
    exact Finmap.mem_insert.2 (.inl rfl)
  rw [handleUnbindQueue_topic hexchange hname hkey] at hunbind
  simp only [final, deleteSubscription_quiet, hcontext] at hunbind
  have hw₂ := (Site.mk.inj (EStateM.Result.ok.inj hunbind).2).1
  rw [SubscriptionErased, ← storedSubscriptionID_eq_iff, ← hw₂]
  constructor
  · intro herased
    by_contra hdiffer
    have hlookup := congrArg (Finmap.lookup (storedSubscriptionID queueName routingKey))
      (congrFun herased SUPER_TENANT_ID)
    rw [deleteEntry_registry, Finmap.lookup_erase, Finmap.lookup_eq_none] at hlookup
    refine hlookup ?_
    split
    · rw [deleteEntry_registry, Finmap.mem_erase]
      exact ⟨hdiffer, hmem⟩
    · exact hmem
  · intro hsame
    rw [← hsame, if_pos hmem]

/-- Removal takes out what creation stored exactly when no '@' was replaced in the stored id. -/
theorem erased_iff {w w₁ w₂ : World β} (hsuper : w.context.tenantId ≤ 0)
    (hdomain : w.context.tenantDomain = some SUPER_TENANT_DOMAIN_NAME) (username : Str)
    (realm : Int) (properties : ObjectProperties) :
    (∀ name, properties.NAME = some name → storedQueueID name ∉ w.registries SUPER_TENANT_ID →
      handleCreateQueue username (some realm) properties ⟨w, []⟩ = .ok .ALLOWED ⟨w₁, []⟩ →
      handleDeleteQueue username (some realm) properties ⟨w₁, []⟩ = .ok .ALLOWED ⟨w₂, []⟩ →
      (QueueErased w w₂ ↔ '@' ∉ getRawQueueName name)) ∧
    (∀ queueName routingKey, properties.NAME = some TOPIC_EXCHANGE →
      properties.QUEUE_NAME = some queueName → properties.ROUTING_KEY = some routingKey →
      handleBindQueue username (some realm) properties ⟨w, []⟩ = .ok .ALLOWED ⟨w₁, []⟩ →
      handleUnbindQueue properties ⟨w₁, []⟩ = .ok .ALLOWED ⟨w₂, []⟩ →
      (SubscriptionErased w₁ w₂ (storedSubscriptionID queueName routingKey) ↔
        '@' ∉ getTopicID (getRawRoutingKey routingKey) ∧ '@' ∉ getRawQueueName queueName)) :=
  ⟨fun _ hname hnew hcreate hdelete => queueErased_iff hsuper hname hnew hcreate hdelete,
    fun _ _ hexchange hname hkey hbind hunbind =>
      subscriptionErased_iff hsuper hdomain hexchange hname hkey hbind hunbind⟩

theorem erased_iff_plain :
    (∃ w₁ w₂,
      handleCreateQueue "admin".toList (some SUPER_TENANT_ID) ⟨some "c:q.1;x".toList, none, none⟩
        ⟨adminWorld superContext (), []⟩ = .ok .ALLOWED ⟨w₁, []⟩ ∧
      handleDeleteQueue "admin".toList (some SUPER_TENANT_ID) ⟨some "c:q.1;x".toList, none, none⟩
        ⟨w₁, []⟩ = .ok .ALLOWED ⟨w₂, []⟩ ∧ QueueErased (adminWorld superContext ()) w₂) ∧
    ∃ w₁ w₂,
      handleBindQueue "admin".toList (some SUPER_TENANT_ID)
        ⟨some TOPIC_EXCHANGE, some "tmp_q".toList, some "a.b.#@".toList⟩
        ⟨adminWorld superContext (), []⟩ = .ok .ALLOWED ⟨w₁, []⟩ ∧
      handleUnbindQueue ⟨some TOPIC_EXCHANGE, some "tmp_q".toList, some "a.b.#@".toList⟩
        ⟨w₁, []⟩ = .ok .ALLOWED ⟨w₂, []⟩ ∧
      SubscriptionErased w₁ w₂ (storedSubscriptionID "tmp_q".toList "a.b.#@".toList) := by
  refine ⟨⟨_, _, rfl, rfl, ?_⟩, _, _, rfl, rfl, ?_⟩
  · exact ((erased_iff (w := adminWorld superContext ()) (by decide) rfl "admin".toList
      SUPER_TENANT_ID ⟨some "c:q.1;x".toList, none, none⟩).1 _ rfl Finmap.notMem_empty rfl
        rfl).2 (by decide)
  · exact ((erased_iff (w := adminWorld superContext ()) (by decide) rfl "admin".toList
      SUPER_TENANT_ID ⟨some TOPIC_EXCHANGE, some "tmp_q".toList, some "a.b.#@".toList⟩).2 _ _ rfl
        rfl rfl rfl rfl).2 (by decide)

theorem at_sign_stays : ∃ w₁ w₂,
    handleCreateQueue "admin".toList (some SUPER_TENANT_ID) ⟨some "a@b".toList, none, none⟩
      ⟨adminWorld superContext (), []⟩ = .ok .ALLOWED ⟨w₁, []⟩ ∧
    handleDeleteQueue "admin".toList (some SUPER_TENANT_ID) ⟨some "a@b".toList, none, none⟩
      ⟨w₁, []⟩ = .ok .ALLOWED ⟨w₂, []⟩ ∧ ¬QueueErased (adminWorld superContext ()) w₂ := by
  refine ⟨_, _, rfl, rfl, ?_⟩
  rw [@queueErased_iff Unit (adminWorld superContext ()) _ _ (by decide) "admin".toList
    SUPER_TENANT_ID ⟨some "a@b".toList, none, none⟩ "a@b".toList rfl Finmap.notMem_empty rfl rfl]
  decide

end CarbonMessaging.RegistrationErasure
