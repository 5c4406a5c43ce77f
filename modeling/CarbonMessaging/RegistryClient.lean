import CarbonMessaging.CommonsUtil

/-! Bookkeeping of queues and topic subscriptions in the governance registries. The registry
service is bound with cardinality 1..1 before the bundle starts, so the tests for a missing
service are left out. -/

namespace CarbonMessaging.RegistryClient

open JavaLang FaultyCalls CommonsUtil

variable {β : Type}

def OWNER : Str := "Owner".toList
def NAME : Str := "Name".toList
def CREATED_TIME : Str := "createdTime".toList
def UPDATED_TIME : Str := "updatedTime".toList
def CREATED_FROM : Str := "createdFrom".toList
def CREATED_FROM_AMQP : Str := "amqp".toList
def USER_COUNT : Str := "userCount".toList

def asClientException (e : JavaException) : JavaException :=
  if e.kind = .registry then .wrap .registryClient e else e

def newQueueEntry (now queueName owner : Str) (queue : Collection) : Collection :=
  (((((queue.insert OWNER owner).insert NAME queueName).insert CREATED_TIME now).insert
    UPDATED_TIME now).insert CREATED_FROM CREATED_FROM_AMQP).insert USER_COUNT "1".toList

/-- The properties after one more registration; the count is left alone when there is none. -/
def sharedQueueEntry (now : Str) (queue : Collection) : Except JavaException Collection :=
  let queue := queue.insert UPDATED_TIME now
  match queue.lookup USER_COUNT with
  | none => .ok queue
  | some userCount =>
    match parseInt userCount with
    | none => .error ⟨.numberFormat, some userCount⟩
    | some count => .ok (queue.insert USER_COUNT (intToString (wrapInt (count + 1))))

def createQueue (queueName owner : Str) : Carbon β Unit :=
  translate asClientException do
    let registry ← getGovernanceSystemRegistry (← context).ownTenant
    let queueID ← orRaise (getQueueID (← context) queueName)
    let queue ← if !(← resourceExists registry queueID) then do
        let queue ← newCollection
        pure (newQueueEntry (← peek World.now) queueName owner queue)
      else do
        let queue ← registryGet registry queueID
        orRaise (sharedQueueEntry (← peek World.now) queue)
    registryPut registry queueID queue

/-- The registry is always the one of the super tenant. -/
def deleteQueue (queueName : Str) : Carbon β Unit :=
  translate asClientException do
    let registry ← getGovernanceSystemRegistry SUPER_TENANT_ID
    let queueID ← orRaise (getQueueID (← context) queueName)
    if ← resourceExists registry queueID then
      let createdFrom := (← registryGet registry queueID).lookup CREATED_FROM
      if createdFrom = some CREATED_FROM_AMQP then
        let queue ← registryGet registry queueID
        match queue.lookup USER_COUNT with
        | none => pure ()
        | some userCount =>
          match parseInt userCount with
          | none => raise ⟨.numberFormat, some userCount⟩
          | some count =>
            if count > 1 then
              registryPut registry queueID
                (queue.insert USER_COUNT (intToString (wrapInt (count - 1))))
            else registryDelete registry queueID

def getTenantBasedTopicName (context : CarbonContext) (topicName : Str) : Str :=
  match context.tenantDomain with
  | none => topicName
  | some tenantDomain =>
    if tenantDomain ≠ SUPER_TENANT_DOMAIN_NAME ∧
        contains topicName (tenantDomain ++ "/".toList) then
      topicName.drop (tenantDomain ++ "/".toList).length
    else topicName

def subscriptionEntry (now subscriptionName owner : Str) (subscription : Collection) :
    Collection :=
  ((subscription.insert OWNER owner).insert NAME subscriptionName).insert CREATED_TIME now

def createSubscription (topic subscriptionName owner : Str) : Carbon β Unit :=
  translate asClientException do
    let registry ← getGovernanceSystemRegistry (← context).ownTenant
    let tenantBasedTopicName := getTenantBasedTopicName (← context) topic
    let subscriptionID := getSubscriptionID tenantBasedTopicName subscriptionName
    let subscription ← if !(← resourceExists registry subscriptionID) then newCollection
      else registryGet registry subscriptionID
    registryPut registry subscriptionID
      (subscriptionEntry (← peek World.now) subscriptionName owner subscription)

def deleteSubscription (topic subscriptionName : Str) : Carbon β Unit :=
  translate asClientException do
    let registry ← getGovernanceSystemRegistry (← context).ownTenant
    let subscriptionID := getSubscriptionID topic subscriptionName
    if ← resourceExists registry subscriptionID then
      registryDelete registry subscriptionID

def liveCount (queue : Collection) : Option Int :=
  if queue.lookup CREATED_FROM = some CREATED_FROM_AMQP then
    (queue.lookup USER_COUNT).bind parseInt
  else none

def loweredEntry (count : Int) (queue : Collection) : Collection :=
  queue.insert USER_COUNT (intToString (wrapInt (count - 1)))

def writtenEntry (registry : Registry) (now queueName owner id : Str) :
    Except JavaException Collection :=
  match registry.lookup id with
  | none => .ok (newQueueEntry now queueName owner ∅)
  | some queue => sharedQueueEntry now queue

def releaseEntry (w : World β) (id : Str) : World β :=
  match (w.registries SUPER_TENANT_ID).lookup id with
  | none => w
  | some queue =>
    match liveCount queue with
    | none => w
    | some count =>
      if count > 1 then w.putEntry SUPER_TENANT_ID id (loweredEntry count queue)
      else w.deleteEntry SUPER_TENANT_ID id

theorem lookup_insert (entry : Collection) (k k' v : Str) :
    (entry.insert k v).lookup k' = if k' = k then some v else entry.lookup k' := by
  by_cases h : k' = k
  · rw [h, if_pos rfl, Finmap.lookup_insert]
  · rw [if_neg h, Finmap.lookup_insert_of_ne _ h]

theorem newQueueEntry_lookup (now queueName owner : Str) (queue : Collection) :
    (newQueueEntry now queueName owner queue).lookup OWNER = some owner ∧
    (newQueueEntry now queueName owner queue).lookup NAME = some queueName ∧
    (newQueueEntry now queueName owner queue).lookup USER_COUNT = some "1".toList ∧
    liveCount (newQueueEntry now queueName owner queue) = some 1 := by
  refine ⟨?_, ?_, ?_, ?_⟩
  all_goals simp +decide only [newQueueEntry, liveCount, lookup_insert, ↓reduceIte]

theorem sharedQueueEntry_live {queue : Collection} {count : Int}
    (h : liveCount queue = some count) (upper : count < 2 ^ 31 - 1) (now : Str) :
    ∃ entry, sharedQueueEntry now queue = .ok entry ∧ liveCount entry = some (count + 1) ∧
      entry.lookup OWNER = queue.lookup OWNER ∧ entry.lookup NAME = queue.lookup NAME := by
  unfold liveCount at h
  split at h
  · rename_i from_amqp
    obtain ⟨text, htext, hparse⟩ := Option.bind_eq_some_iff.1 h
    have bounds := parseInt_bounds hparse
    have wrap : wrapInt (count + 1) = count + 1 := wrapInt_of_bounds (by omega)
    have round : parseInt (intToString (count + 1)) = some (count + 1) :=
      parseInt_intToString (by omega) (by omega)
    refine ⟨(queue.insert UPDATED_TIME now).insert USER_COUNT (intToString (count + 1)),
      ?_, ?_, ?_, ?_⟩
    · have hcount : (queue.insert UPDATED_TIME now).lookup USER_COUNT = some text := by
        rw [lookup_insert, if_neg (by decide), htext]
      simp only [sharedQueueEntry, hcount, hparse, wrap]
    · simp +decide only [liveCount, lookup_insert, from_amqp, ↓reduceIte]
      exact round
    · simp +decide only [lookup_insert, ↓reduceIte]
    · simp +decide only [lookup_insert, ↓reduceIte]
  · cases h

theorem sharedQueueEntry_cases (now : Str) (queue : Collection) :
    (∃ entry, sharedQueueEntry now queue = .ok entry ∧ entry.lookup UPDATED_TIME = some now ∧
      ∀ userCount, queue.lookup USER_COUNT = some userCount → parseInt userCount ≠ none) ∨
    ∃ e userCount, sharedQueueEntry now queue = .error e ∧
      queue.lookup USER_COUNT = some userCount ∧ parseInt userCount = none := by
  have hother : (queue.insert UPDATED_TIME now).lookup USER_COUNT = queue.lookup USER_COUNT := by
    rw [lookup_insert, if_neg (by decide)]
  cases hcount : queue.lookup USER_COUNT with
  | none =>
    refine .inl ⟨queue.insert UPDATED_TIME now, ?_, ?_, by simp⟩
    · simp only [sharedQueueEntry, hother, hcount]
    · rw [lookup_insert, if_pos rfl]
  | some userCount =>
    cases hparse : parseInt userCount with
    | none =>
      refine .inr ⟨⟨.numberFormat, some userCount⟩, userCount, ?_, rfl, hparse⟩
      simp only [sharedQueueEntry, hother, hcount, hparse]
    | some count =>
      refine .inl ⟨(queue.insert UPDATED_TIME now).insert USER_COUNT
        (intToString (wrapInt (count + 1))), ?_, ?_, by simp [hparse]⟩
      · simp only [sharedQueueEntry, hother, hcount, hparse]
      · rw [lookup_insert, if_neg (by decide), lookup_insert, if_pos rfl]

theorem loweredEntry_live {queue : Collection} {count : Int} (h : liveCount queue = some count)
    (lower : 1 < count) : liveCount (loweredEntry count queue) = some (count - 1) ∧
      (loweredEntry count queue).lookup OWNER = queue.lookup OWNER ∧
      (loweredEntry count queue).lookup NAME = queue.lookup NAME := by
  unfold liveCount at h
  split at h
  · rename_i from_amqp
    obtain ⟨text, -, hparse⟩ := Option.bind_eq_some_iff.1 h
    have bounds := parseInt_bounds hparse
    have wrap : wrapInt (count - 1) = count - 1 := wrapInt_of_bounds (by omega)
    refine ⟨?_, ?_, ?_⟩
    · simp +decide only [liveCount, loweredEntry, lookup_insert, wrap, from_amqp, ↓reduceIte]
      exact parseInt_intToString (by omega) (by omega)
    · rw [loweredEntry, lookup_insert, if_neg (by decide)]
    · rw [loweredEntry, lookup_insert, if_neg (by decide)]
  · cases h

@[simp] theorem resourceExists_quiet (tenant : Int) (path : Str) (w : World β) :
    (resourceExists tenant path : Carbon β Bool) ⟨w, []⟩ =
      .ok (decide (path ∈ w.registries tenant)) ⟨w, []⟩ := rfl

theorem registryGet_quiet {tenant : Int} {path : Str} {entry : Collection} {w : World β}
    (h : (w.registries tenant).lookup path = some entry) :
    (registryGet tenant path : Carbon β Collection) ⟨w, []⟩ = .ok entry ⟨w, []⟩ := by
  simp only [registryGet, call_quiet, h]

theorem registryDelete_quiet {tenant : Int} {path : Str} {w : World β}
    (h : path ∈ w.registries tenant) : (registryDelete tenant path : Carbon β Unit) ⟨w, []⟩ =
      .ok () ⟨w.deleteEntry tenant path, []⟩ := by
  obtain ⟨entry, hentry⟩ := Finmap.mem_iff.1 h
  simp only [registryDelete, call_quiet, hentry]

theorem asClientException_unnamed {context : CarbonContext} {queueName : Str} {e : JavaException}
    (hid : getQueueID context queueName = .error e) : asClientException e = e := by
  rcases getQueueID_error hid with h | h <;> simp [asClientException, h]

theorem createQueue_unnamed {queueName owner : Str} {w : World β} {e : JavaException}
    (hid : getQueueID w.context queueName = .error e) :
    createQueue queueName owner ⟨w, []⟩ = .error e ⟨w, []⟩ := by
  simp [createQueue, getGovernanceSystemRegistry, context, hid, asClientException_unnamed hid]

theorem createQueue_new {queueName owner id : Str} {w : World β}
    (hid : getQueueID w.context queueName = .ok id)
    (hnew : id ∉ w.registries w.context.ownTenant) :
    createQueue queueName owner ⟨w, []⟩ = .ok () ⟨w.putEntry w.context.ownTenant id
      (newQueueEntry w.now queueName owner ∅), []⟩ := by
  simp [createQueue, getGovernanceSystemRegistry, context, hid, hnew, newCollection, registryPut]

theorem createQueue_shared {queueName id : Str} {w : World β} {queue : Collection}
    (hid : getQueueID w.context queueName = .ok id)
    (hqueue : (w.registries w.context.ownTenant).lookup id = some queue) (owner : Str) :
    createQueue queueName owner ⟨w, []⟩ = match sharedQueueEntry w.now queue with
      | .ok entry => .ok () ⟨w.putEntry w.context.ownTenant id entry, []⟩
      | .error e => .error (asClientException e) ⟨w, []⟩ := by
  have hmem : id ∈ w.registries w.context.ownTenant := Finmap.mem_of_lookup_eq_some hqueue
  cases h : sharedQueueEntry w.now queue <;>
    simp [createQueue, getGovernanceSystemRegistry, context, hid, hmem,
      registryGet_quiet hqueue, h, registryPut]

theorem createQueue_written {queueName owner id : Str} {w : World β} {entry : Collection}
    (hid : getQueueID w.context queueName = .ok id)
    (hentry : writtenEntry (w.registries w.context.ownTenant) w.now queueName owner id =
      .ok entry) :
    createQueue queueName owner ⟨w, []⟩ = .ok () ⟨w.putEntry w.context.ownTenant id entry, []⟩ := by
  unfold writtenEntry at hentry
  split at hentry
  · rename_i hnew
    cases hentry
    exact createQueue_new hid (Finmap.lookup_eq_none.1 hnew)
  · rename_i queue hqueue
    rw [createQueue_shared hid hqueue, hentry]

theorem deleteQueue_unnamed {queueName : Str} {w : World β} {e : JavaException}
    (hid : getQueueID w.context queueName = .error e) :
    final (deleteQueue queueName) w = w := by
  simp [final, deleteQueue, getGovernanceSystemRegistry, context, hid]

theorem deleteQueue_absent {queueName id : Str} {w : World β}
    (hid : getQueueID w.context queueName = .ok id)
    (habsent : id ∉ w.registries SUPER_TENANT_ID) :
    deleteQueue queueName ⟨w, []⟩ = .ok () ⟨w, []⟩ := by
  simp [deleteQueue, getGovernanceSystemRegistry, context, hid, habsent]

theorem deleteQueue_live {queueName id : Str} {w : World β} {queue : Collection} {count : Int}
    (hid : getQueueID w.context queueName = .ok id)
    (hqueue : (w.registries SUPER_TENANT_ID).lookup id = some queue)
    (hcount : liveCount queue = some count) :
    deleteQueue queueName ⟨w, []⟩ = .ok () ⟨releaseEntry w id, []⟩ := by
  have hmem : id ∈ w.registries SUPER_TENANT_ID := Finmap.mem_of_lookup_eq_some hqueue
  have hlive := hcount
  unfold liveCount at hcount
  split at hcount
  · rename_i from_amqp
    obtain ⟨text, htext, hparse⟩ := Option.bind_eq_some_iff.1 hcount
    simp only [releaseEntry, hqueue, hlive]
    by_cases h : count > 1 <;>
      simp [deleteQueue, getGovernanceSystemRegistry, context, hid, hmem,
        registryGet_quiet hqueue, from_amqp, htext, hparse, h, registryPut,
        registryDelete_quiet hmem, loweredEntry]
  · cases hcount

/-- A creation fails and changes nothing, or writes one entry. -/
theorem createQueue_cases (queueName owner : Str) (w : World β) :
    (∃ e, createQueue queueName owner ⟨w, []⟩ = .error e ⟨w, []⟩) ∨
    ∃ id entry, getQueueID w.context queueName = .ok id ∧
      createQueue queueName owner ⟨w, []⟩ =
        .ok () ⟨w.putEntry w.context.ownTenant id entry, []⟩ := by
  cases hid : getQueueID w.context queueName with
  | error e => exact .inl ⟨e, createQueue_unnamed hid⟩
  | ok id =>
    cases hqueue : (w.registries w.context.ownTenant).lookup id with
    | none =>
      exact .inr ⟨id, _, rfl, createQueue_new hid (Finmap.lookup_eq_none.1 hqueue)⟩
    | some queue =>
      have h := createQueue_shared hid hqueue owner
      cases hentry : sharedQueueEntry w.now queue with
      | error e =>
        rw [hentry] at h
        exact .inl ⟨_, h⟩
      | ok entry =>
        rw [hentry] at h
        exact .inr ⟨id, entry, rfl, h⟩

/-- A deletion acts on the super tenant's entry of the id, or fails and changes nothing. -/
theorem deleteQueue_cases {queueName id : Str} {w : World β}
    (hid : getQueueID w.context queueName = .ok id) :
    deleteQueue queueName ⟨w, []⟩ = .ok () ⟨releaseEntry w id, []⟩ ∨
    ∃ e, deleteQueue queueName ⟨w, []⟩ = .error e ⟨w, []⟩ ∧ releaseEntry w id = w := by
  cases hqueue : (w.registries SUPER_TENANT_ID).lookup id with
  | none =>
    have habsent : id ∉ w.registries SUPER_TENANT_ID := Finmap.lookup_eq_none.1 hqueue
    simp [deleteQueue_absent hid habsent, releaseEntry, hqueue]
  | some queue =>
    cases hcount : liveCount queue with
    | some count => exact .inl (deleteQueue_live hid hqueue hcount)
    | none =>
      have hmem : id ∈ w.registries SUPER_TENANT_ID := Finmap.mem_of_lookup_eq_some hqueue
      simp only [releaseEntry, hqueue, hcount]
      unfold liveCount at hcount
      split at hcount
      · rename_i from_amqp
        cases htext : queue.lookup USER_COUNT with
        | none =>
          simp [deleteQueue, getGovernanceSystemRegistry, context, hid, hmem,
            registryGet_quiet hqueue, from_amqp, htext]
        | some text =>
          have hparse : parseInt text = none := by simpa [htext] using hcount
          simp [deleteQueue, getGovernanceSystemRegistry, context, hid, hmem,
            registryGet_quiet hqueue, from_amqp, htext, hparse]
      · rename_i other
        simp [deleteQueue, getGovernanceSystemRegistry, context, hid, hmem,
          registryGet_quiet hqueue, other]

theorem final_deleteQueue {queueName id : Str} {w : World β}
    (hid : getQueueID w.context queueName = .ok id) :
    final (deleteQueue queueName) w = releaseEntry w id := by
  rcases deleteQueue_cases hid with h | ⟨e, h, hidle⟩
  · simp only [final, h]
  · simp only [final, h, hidle]

theorem final_createQueue_new {w : World β} {queueName owner id : Str}
    (hid : getQueueID w.context queueName = .ok id)
    (hnew : id ∉ w.registries w.context.ownTenant) :
    final (createQueue queueName owner) w = w.putEntry w.context.ownTenant id
      (newQueueEntry w.now queueName owner ∅) := by
  simp only [final, createQueue_new hid hnew]

theorem releaseEntry_congr {w w' : World β} (h : w.registries = w'.registries) (id : Str) :
    (releaseEntry w id).registries = (releaseEntry w' id).registries := by
  unfold releaseEntry
  rw [h]
  split
  · exact h
  · split
    · exact h
    · split <;> simp only [World.putEntry, World.deleteEntry, h]

theorem releaseEntry_context (w : World β) (id : Str) :
    (releaseEntry w id).context = w.context := by
  unfold releaseEntry
  split
  · rfl
  · split
    · rfl
    · split <;> rfl

theorem releaseEntry_realms (w : World β) (id : Str) : (releaseEntry w id).realms = w.realms := by
  unfold releaseEntry
  split
  · rfl
  · split
    · rfl
    · split <;> rfl

theorem releaseEntry_other (w : World β) (id : Str) {tenant : Int}
    (h : tenant ≠ SUPER_TENANT_ID) :
    (releaseEntry w id).registries tenant = w.registries tenant := by
  unfold releaseEntry
  split
  · rfl
  · split
    · rfl
    · split
      · exact putEntry_other w _ h _ _
      · exact deleteEntry_other w _ h _

theorem releaseEntry_new {w : World β} {id : Str} (hnew : id ∉ w.registries SUPER_TENANT_ID)
    (now queueName owner : Str) :
    releaseEntry (w.putEntry SUPER_TENANT_ID id (newQueueEntry now queueName owner ∅)) id = w := by
  have hlive := (newQueueEntry_lookup now queueName owner ∅).2.2.2
  simp only [releaseEntry, putEntry_registry, Finmap.lookup_insert, hlive]
  exact putEntry_deleteEntry w _ hnew _

theorem releaseEntry_other_id {w : World β} {id id' : Str} (h : id' ≠ id) :
    ((releaseEntry w id).registries SUPER_TENANT_ID).lookup id' =
      (w.registries SUPER_TENANT_ID).lookup id' := by
  unfold releaseEntry
  split
  · rfl
  · split
    · rfl
    · split
      · rw [putEntry_registry, Finmap.lookup_insert_of_ne _ h]
      · rw [deleteEntry_registry, Finmap.lookup_erase_ne h]

theorem createSubscription_quiet (topic subscriptionName owner : Str) (w : World β) :
    createSubscription topic subscriptionName owner ⟨w, []⟩ =
      .ok () ⟨w.putEntry w.context.ownTenant
        (getSubscriptionID (getTenantBasedTopicName w.context topic) subscriptionName)
        (subscriptionEntry w.now subscriptionName owner
          (((w.registries w.context.ownTenant).lookup
            (getSubscriptionID (getTenantBasedTopicName w.context topic)
              subscriptionName)).getD ∅)), []⟩ := by
  cases hold : (w.registries w.context.ownTenant).lookup
      (getSubscriptionID (getTenantBasedTopicName w.context topic) subscriptionName) with
  | none =>
    have hnew := Finmap.lookup_eq_none.1 hold
    simp [createSubscription, getGovernanceSystemRegistry, context, hnew, newCollection,
      registryPut]
  | some entry =>
    have hmem := Finmap.mem_of_lookup_eq_some hold
    simp [createSubscription, getGovernanceSystemRegistry, context, hmem,
      registryGet_quiet hold, registryPut]

theorem deleteSubscription_quiet (topic subscriptionName : Str) (w : World β) :
    deleteSubscription topic subscriptionName ⟨w, []⟩ =
      .ok () ⟨if getSubscriptionID topic subscriptionName ∈ w.registries w.context.ownTenant
        then w.deleteEntry w.context.ownTenant (getSubscriptionID topic subscriptionName)
        else w, []⟩ := by
  by_cases h : getSubscriptionID topic subscriptionName ∈ w.registries w.context.ownTenant <;>
    simp [deleteSubscription, getGovernanceSystemRegistry, context, h, registryDelete_quiet]

section
variable {w : World β}

theorem keeps_registryGet (tenant : Int) (path : Str) :
    Keeps (· = w) (registryGet tenant path : Carbon β Collection) := by
  refine holds_call (fun _ _ hs => hs) ?_
  rintro s rfl
  cases (s.registries tenant).lookup path <;> rfl

theorem holds_registryDelete (tenant : Int) (path : Str) :
    Holds (· = w) (registryDelete tenant path : Carbon β Unit)
      (fun _ s => path ∈ w.registries tenant ∧ s = w.deleteEntry tenant path)
      (fun _ s => s = w) := by
  refine holds_call (fun _ _ hs => hs) ?_
  rintro s rfl
  cases hentry : (s.registries tenant).lookup path with
  | none => rfl
  | some entry => exact ⟨Finmap.mem_of_lookup_eq_some hentry, rfl⟩

theorem holds_registryGet_bind {α : Type} {tenant : Int} {path : Str} {entry : Collection}
    {f : Collection → Carbon β α} {R : α → World β → Prop} {E : JavaException → World β → Prop}
    (hentry : (w.registries tenant).lookup path = some entry) (hraised : ∀ e, E e w)
    (h : Holds (· = w) (f entry) R E) : Holds (· = w) (registryGet tenant path >>= f) R E := by
  refine holds_call_bind ?_ hraised h
  simp only [hentry]

theorem holds_createQueue (queueName owner : Str) :
    Holds (· = w) (RegistryClient.createQueue queueName owner)
      (fun _ s => ∃ id entry, getQueueID w.context queueName = .ok id ∧
        writtenEntry (w.registries w.context.ownTenant) w.now queueName owner id = .ok entry ∧
        s = w.putEntry w.context.ownTenant id entry)
      (fun _ s => s = w) := by
  refine holds_translate (holds_peek_bind (holds_query_bind (fun _ => rfl) (holds_peek_bind ?_)))
  refine holds_orRaise_bind (fun id hid => holds_query_bind (fun _ => rfl) ?_) fun _ _ _ hs => hs
  cases hqueue : (w.registries w.context.ownTenant).lookup id with
  | none =>
    have hnew : id ∉ w.registries w.context.ownTenant := Finmap.lookup_eq_none.1 hqueue
    simp only [hnew, decide_false, Bool.not_false, if_true]
    refine holds_query_bind (fun _ => rfl) (holds_peek_bind ?_)
    rw [pure_bind]
    refine holds_command (fun _ _ hs => hs) ?_
    rintro s rfl
    exact ⟨id, _, hid, by simp only [writtenEntry, hqueue], rfl⟩
  | some queue =>
    have hmem : id ∈ w.registries w.context.ownTenant := Finmap.mem_of_lookup_eq_some hqueue
    simp only [hmem, decide_true, Bool.not_true, Bool.false_eq_true, if_false]
    refine holds_registryGet_bind hqueue (fun _ => rfl) (holds_peek_bind ?_)
    refine holds_orRaise_bind (fun entry hentry => ?_) fun _ _ _ hs => hs
    refine holds_command (fun _ _ hs => hs) ?_
    rintro s rfl
    exact ⟨id, entry, hid, by simp only [writtenEntry, hqueue, hentry], rfl⟩

theorem keeps_createQueue {I : World β → Prop}
    (h : ∀ s tenant path entry, I s → I (s.putEntry tenant path entry)) (queueName owner : Str) :
    Keeps I (RegistryClient.createQueue queueName owner) := by
  refine holds_of_states fun s hs => ?_
  refine (holds_createQueue queueName owner).mono (fun _ h => h) ?_ ?_
  · rintro _ _ ⟨id, entry, -, -, rfl⟩
    exact h s _ _ _ hs
  · rintro _ _ rfl
    exact hs

theorem holds_deleteQueue (queueName : Str) :
    Holds (· = w) (RegistryClient.deleteQueue queueName) (fun _ _ => True) (fun _ s => s = w) := by
  refine holds_translate (holds_query_bind (fun _ => rfl) (holds_peek_bind ?_))
  refine holds_orRaise_bind (fun id _ => holds_query_bind (fun _ => rfl) ?_) fun _ _ _ hs => hs
  split
  · refine holds_bind (keeps_registryGet _ _) fun entry => ?_
    dsimp only
    split
    · refine holds_bind (keeps_registryGet _ _) fun queue => ?_
      split
      · exact holds_pure fun _ _ => trivial
      · split
        · exact holds_raise fun _ hs => hs
        · split
          · exact holds_command (fun _ _ hs => hs) fun _ _ => trivial
          · exact (holds_registryDelete _ _).mono (fun _ hs => hs) (fun _ _ _ => trivial)
              fun _ _ hs => hs
    · exact holds_pure fun _ _ => trivial
  · exact holds_pure fun _ _ => trivial

theorem holds_createSubscription (topic subscriptionName owner : Str) :
    Holds (· = w) (createSubscription topic subscriptionName owner) (fun _ _ => True)
      (fun _ s => s = w) := by
  refine holds_translate (holds_peek_bind (holds_query_bind (fun _ => rfl) (holds_peek_bind
    (holds_query_bind (fun _ => rfl) ?_))))
  split
  · refine holds_query_bind (fun _ => rfl) (holds_peek_bind ?_)
    exact holds_command (fun _ _ hs => hs) fun _ _ => trivial
  · refine holds_bind (keeps_registryGet _ _) fun _ => holds_peek_bind ?_
    exact holds_command (fun _ _ hs => hs) fun _ _ => trivial

end

end CarbonMessaging.RegistryClient
