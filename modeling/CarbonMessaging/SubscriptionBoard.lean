import CarbonMessaging.SubscriptionKeys
import CarbonMessaging.TenantNoninterference

/-! The subscriptions of a tenant as a board on which one reads who subscribed when. The registry
keeps the board that the answers to the tenant's own requests make, whatever other tenants ask in
between and whatever fails. -/

namespace CarbonMessaging.SubscriptionBoard

open JavaLang FaultyCalls CommonsUtil RegistryClient PathChildren QpidAuthorizationHandler
open QpidAuthorizationPlugin TenantBlindness RequestFrames TenantNoninterference SubscriptionKeys

structure Subscriber where
  owner : Str
  createdTime : Str

/-- Who holds a name on a topic's id. -/
abbrev Board := Str → Str → Option Subscriber

structure Change where
  topicID : Str
  name : Str
  subscriber : Option Subscriber

def Board.after (board : Board) (change : Change) : Board := fun topicID name =>
  if topicID = change.topicID ∧ name = change.name then change.subscriber else board topicID name

def Board.told (board : Board) (change : Option Change) : Board := change.elim board board.after

def Subscriber.details (name : Str) (subscriber : Subscriber) : SubscriptionDetails :=
  ⟨some name, some subscriber.owner, some subscriber.createdTime⟩

/-- One entry for each first segment of a name that is held; where the segment itself is no such
name the entry is blank. -/
def Board.Lists (board : Board) (topicID : Str) (details : List SubscriptionDetails) : Prop :=
  ∃ segments : List Str, segments.Nodup ∧
    (∀ segment, segment ∈ segments ↔
      segment ≠ [] ∧ ∃ name, board topicID name ≠ none ∧ firstSegment '/' name = segment) ∧
    details = segments.map fun segment =>
      ((board topicID segment).map (Subscriber.details segment)).getD ⟨none, none, none⟩

def Mirrors (board : Board) (registry : Registry) : Prop :=
  ∀ topicName name, (registry.lookup (getSubscriptionID topicName name)).map subscriptionDetails =
    (board (getTopicID topicName) name).map (Subscriber.details name)

variable {β : Type} {board : Board} {registry : Registry} {tenant : Int}

theorem getSubscriptionID_eq_iff {topicName topicName' name name' : Str} :
    getSubscriptionID topicName' name' = getSubscriptionID topicName name ↔
      getTopicID topicName' = getTopicID topicName ∧ name' = name := by
  constructor
  · intro h
    have hbelow : Below '/' (getSubscriptonsID topicName) (getSubscriptionID topicName' name') := by
      rw [h]
      exact below_getSubscriptonsID.2 rfl
    have htopic := below_getSubscriptonsID.1 hbelow
    rw [getSubscriptionID_congr htopic, getSubscriptionID_eq, getSubscriptionID_eq] at h
    exact ⟨htopic, by simpa using h⟩
  · rintro ⟨htopic, rfl⟩
    exact getSubscriptionID_congr htopic _

theorem getSubscriptionID_ne_queueResource (topicName name queueName : Str) :
    getSubscriptionID topicName name ≠ queueResource queueName := by
  intro h
  have htopics : TOPICS <+: getTopicID topicName := by
    unfold getTopicID
    dsimp only
    split
    · exact List.prefix_append _ _
    · exact (List.prefix_append _ _).trans (List.prefix_append _ _)
  have hsubscription : TOPICS <+: getSubscriptionID topicName name := by
    unfold getSubscriptionID
    simp only [List.append_assoc]
    exact htopics.trans (List.prefix_append _ _)
  have hqueue : JMS_QUEUES <+: queueResource queueName := by
    unfold queueResource
    rw [List.append_assoc]
    exact List.prefix_append _ _
  rw [h] at hsubscription
  have hstarts : TOPICS <+: JMS_QUEUES :=
    List.prefix_of_prefix_length_le hsubscription hqueue (by decide)
  exact absurd hstarts (by decide)

theorem getQueueID_ne {context : CarbonContext} {queueName id : Str}
    (h : getQueueID context queueName = .ok id) (topicName name : Str) :
    getSubscriptionID topicName name ≠ id := by
  obtain ⟨rest, -, rfl⟩ := getQueueID_eq_ok.1 h
  exact getSubscriptionID_ne_queueResource topicName name _

theorem mem_iff (h : Mirrors board registry) (topicName name : Str) :
    getSubscriptionID topicName name ∈ registry ↔ board (getTopicID topicName) name ≠ none := by
  have hmirror := h topicName name
  rw [← not_iff_not, not_not, ← Finmap.lookup_eq_none]
  constructor
  · intro hnone
    rw [hnone, Option.map_none, eq_comm, Option.map_eq_none_iff] at hmirror
    exact hmirror
  · intro hnone
    rw [hnone, Option.map_none, Option.map_eq_none_iff] at hmirror
    exact hmirror

theorem details_collectionAt (h : Mirrors board registry) (topicName name : Str) :
    subscriptionDetails (collectionAt registry (getSubscriptionID topicName name)) =
      ((board (getTopicID topicName) name).map (Subscriber.details name)).getD
        ⟨none, none, none⟩ := by
  rw [← h topicName name, collectionAt]
  cases registry.lookup (getSubscriptionID topicName name) with
  | none => rfl
  | some entry => rfl

theorem lists_of_mirrors (listing : ChildListing) (h : Mirrors board registry) (topicName : Str) :
    board.Lists (getTopicID topicName)
      ((listing.getChildren registry (getSubscriptonsID topicName)).map fun id =>
        subscriptionDetails (collectionAt registry id)) := by
  have hchild (child : Str) :
      child ∈ listing.getChildren registry (getSubscriptonsID topicName) ↔
        ∃ name, board (getTopicID topicName) name ≠ none ∧ firstSegment '/' name ≠ [] ∧
          child = getSubscriptionID topicName (firstSegment '/' name) := by
    rw [listing.mem_iff, mem_children_iff_firstSegment]
    refine exists_congr fun name => ?_
    rw [← getSubscriptionID_eq, ← getSubscriptionID_eq, Finmap.mem_keys, mem_iff h]
  have hdrop (name : Str) :
      (getSubscriptionID topicName name).drop ((getSubscriptonsID topicName).length + 1) =
        name := by
    simp [getSubscriptionID_eq]
  refine ⟨(listing.getChildren registry (getSubscriptonsID topicName)).map
    (List.drop ((getSubscriptonsID topicName).length + 1)), ?_, fun segment => ?_, ?_⟩
  · refine List.Nodup.map_on (fun child hmem child' hmem' hsame => ?_) (listing.nodup _ _)
    obtain ⟨name, -, -, rfl⟩ := (hchild child).1 hmem
    obtain ⟨name', -, -, rfl⟩ := (hchild child').1 hmem'
    rw [hdrop, hdrop] at hsame
    rw [hsame]
  · rw [List.mem_map]
    constructor
    · rintro ⟨child, hmem, rfl⟩
      obtain ⟨name, hheld, hne, rfl⟩ := (hchild child).1 hmem
      rw [hdrop]
      exact ⟨hne, name, hheld, rfl⟩
    · rintro ⟨hne, name, hheld, rfl⟩
      exact ⟨_, (hchild _).2 ⟨name, hheld, hne, rfl⟩, hdrop _⟩
  · rw [List.map_map]
    refine List.map_congr_left fun child hmem => ?_
    obtain ⟨name, -, -, rfl⟩ := (hchild child).1 hmem
    rw [Function.comp_apply, hdrop]
    exact details_collectionAt h topicName _

theorem erase_of_notMem {path : Str} (h : path ∉ registry) : registry.erase path = registry := by
  refine Finmap.ext_lookup fun path' => ?_
  by_cases hpath : path' = path
  · rw [hpath, Finmap.lookup_erase, Finmap.lookup_eq_none.2 h]
  · rw [Finmap.lookup_erase_ne hpath]

theorem mirrors_of_lookup {registry' : Registry} (h : Mirrors board registry)
    (hsame : ∀ topicName name, registry'.lookup (getSubscriptionID topicName name) =
      registry.lookup (getSubscriptionID topicName name)) : Mirrors board registry' := by
  intro topicName name
  rw [hsame]
  exact h topicName name

theorem mirrors_putEntry {s : World β} (h : Mirrors board (s.registries tenant)) {path : Str}
    (hpath : ∀ topicName name, getSubscriptionID topicName name ≠ path) (owner : Int)
    (entry : Collection) : Mirrors board ((s.putEntry owner path entry).registries tenant) := by
  refine mirrors_of_lookup h fun topicName name => ?_
  by_cases howner : tenant = owner
  · subst howner
    rw [putEntry_registry, Finmap.lookup_insert_of_ne _ (hpath topicName name)]
  · rw [putEntry_other _ _ howner]

theorem mirrors_deleteEntry {s : World β} (h : Mirrors board (s.registries tenant)) {path : Str}
    (hpath : ∀ topicName name, getSubscriptionID topicName name ≠ path) (owner : Int) :
    Mirrors board ((s.deleteEntry owner path).registries tenant) := by
  refine mirrors_of_lookup h fun topicName name => ?_
  by_cases howner : tenant = owner
  · subst howner
    rw [deleteEntry_registry, Finmap.lookup_erase_ne (hpath topicName name)]
  · rw [deleteEntry_other _ _ howner]

theorem keptByQueues_mirrors :
    KeptByQueues (fun _ => True) (fun s : World β => Mirrors board (s.registries tenant)) where
  register _ _ _ _ entry h hid _ := mirrors_putEntry h (getQueueID_ne hid) _ entry
  lower _ _ _ _ _ h hid _ := mirrors_putEntry h (getQueueID_ne hid) _ _
  remove _ _ _ h hid := mirrors_deleteEntry h (getQueueID_ne hid) _
  grant _ _ _ _ _ h := h

theorem mirrors_insert (h : Mirrors board registry) (topicName name : Str) {entry : Collection}
    {subscriber : Subscriber} (hentry : subscriptionDetails entry = subscriber.details name) :
    Mirrors (board.after ⟨getTopicID topicName, name, some subscriber⟩)
      (registry.insert (getSubscriptionID topicName name) entry) := by
  intro topicName' name'
  unfold Board.after
  by_cases hkey : getTopicID topicName' = getTopicID topicName ∧ name' = name
  · rw [if_pos hkey, getSubscriptionID_eq_iff.2 hkey, Finmap.lookup_insert, hkey.2]
    exact congrArg some hentry
  · rw [if_neg hkey, Finmap.lookup_insert_of_ne _ (mt getSubscriptionID_eq_iff.1 hkey)]
    exact h topicName' name'

theorem mirrors_erase (h : Mirrors board registry) (topicName name : Str) :
    Mirrors (board.after ⟨getTopicID topicName, name, none⟩)
      (registry.erase (getSubscriptionID topicName name)) := by
  intro topicName' name'
  unfold Board.after
  by_cases hkey : getTopicID topicName' = getTopicID topicName ∧ name' = name
  · rw [if_pos hkey, getSubscriptionID_eq_iff.2 hkey, Finmap.lookup_erase]
    rfl
  · rw [if_neg hkey, Finmap.lookup_erase_ne (mt getSubscriptionID_eq_iff.1 hkey)]
    exact h topicName' name'

def topicBinding (properties : ObjectProperties) : Option (Str × Str) := do
  let exchangeName ← properties.NAME
  let queueName ← properties.QUEUE_NAME
  let routingKey ← properties.ROUTING_KEY
  if getRawExchangeName exchangeName = TOPIC_EXCHANGE then
    pure (getRawRoutingKey routingKey, getRawQueueName queueName)
  else none

def bindChange (context : CarbonContext) (username now : Str) (properties : ObjectProperties) :
    Option Change :=
  (topicBinding properties).map fun binding =>
    { topicID := getTopicID (getTenantBasedTopicName context
        (replaceChar '@' AT_REPLACE_CHAR binding.1))
      name := replaceChar '@' AT_REPLACE_CHAR binding.2
      subscriber := some ⟨username, now⟩ }

/-- Neither the '@' nor the tenant's domain is taken out of the names. -/
def unbindChange (properties : ObjectProperties) : Option Change :=
  (topicBinding properties).map fun binding => ⟨getTopicID binding.1, binding.2, none⟩

def operationChange (context : CarbonContext) (username now : Str) (operation : Operation)
    (objectType : ObjectType) (properties : ObjectProperties) : Option Change :=
  match operation, objectType with
  | .CREATE, .other _ => bindChange context username now properties
  | .BIND, _ => bindChange context username now properties
  | .UNBIND, _ => unbindChange properties
  | _, _ => none

def changeIf (change : Option Change) (result : Result) : Option Change :=
  if result = .ALLOWED then change else none

theorem mirrors_denied {change : Option Change} {result : Result} (hresult : result ≠ .ALLOWED)
    (h : Mirrors board registry) : Mirrors (board.told (changeIf change result)) registry := by
  rw [changeIf, if_neg hresult]
  exact h

theorem mirrors_idle {result : Result} (h : Mirrors board registry) :
    Mirrors (board.told (changeIf none result)) registry := by
  rw [changeIf, ite_self]
  exact h

theorem holds_throwIfNull_bind {α γ σ : Type} {P : σ → Prop} {o : Option α}
    {f : α → Prog JavaException σ γ} {R : γ → σ → Prop} {E : JavaException → σ → Prop}
    (hsome : ∀ a, o = some a → Holds P (f a) R E) (hnull : ∀ e s, P s → E e s) :
    Holds P (throwIfNull o >>= f) R E := by
  cases o with
  | none => exact holds_raise fun s hs => hnull _ s hs
  | some a => exact hsome a rfl

section
variable {w : World β} (htenant : w.context.ownTenant = tenant)
  (h : Mirrors board (w.registries tenant)) (username : Str) (userRealm : Option Int)
  (properties : ObjectProperties)

include htenant h

theorem holds_handleBindQueue : Holds (· = w) (handleBindQueue username userRealm properties)
    (fun result s => Mirrors
      (board.told (changeIf (bindChange w.context username w.now properties) result))
      (s.registries tenant))
    (fun _ s => Mirrors board (s.registries tenant)) := by
  have hstay : ∀ s, s = w → Mirrors board (s.registries tenant) := by
    rintro _ rfl
    exact h
  refine holds_translate ?_
  cases userRealm with
  | none => exact holds_pure fun s hs => mirrors_denied (by decide) (hstay s hs)
  | some realm =>
    refine holds_peek_bind (holds_throwIfNull_bind (fun exchangeName hexchange =>
      holds_throwIfNull_bind (fun queueName hqueue => holds_throwIfNull_bind
        (fun routingKey hkey => ?_) fun _ => hstay) fun _ => hstay) fun _ => hstay)
    have htest (own : Bool) (id permission : Str) :
        Keeps (· = w) (isOwnAdminOrMay username realm own id permission) :=
      RefusedRequests.keeps_isOwnAdminOrMay _ _ _ _ _
    split
    · rename_i hdirect
      have hnone : bindChange w.context username w.now properties = none := by
        have hother : getRawExchangeName exchangeName ≠ TOPIC_EXCHANGE := by
          rcases hdirect with h | h
          · exact h ▸ by decide
          · exact h ▸ by decide
        simp [bindChange, topicBinding, hexchange, hqueue, hkey, hother]
      rw [hnone]
      refine holds_peek_bind (holds_orRaise_bind (fun queueID hid => ?_) fun _ _ => hstay)
      refine holds_bind ((htest _ _ _).mono (fun _ h => h) (fun _ _ h => h) fun _ => hstay)
        fun b => ?_
      split <;> exact holds_pure fun s hs => mirrors_idle (hstay s hs)
    · split
      · rename_i htopic
        have hchange : bindChange w.context username w.now properties = some
            { topicID := getTopicID (getTenantBasedTopicName w.context
                (replaceChar '@' AT_REPLACE_CHAR (getRawRoutingKey routingKey)))
              name := replaceChar '@' AT_REPLACE_CHAR (getRawQueueName queueName)
              subscriber := some ⟨username, w.now⟩ } := by
          simp [bindChange, topicBinding, hexchange, hqueue, hkey, htopic]
        refine holds_bind ((htest _ _ _).mono (fun _ h => h) (fun _ _ h => h) fun _ => hstay)
          fun b => ?_
        split
        · refine holds_bind ((RequestFrames.holds_createSubscription _ _ _).mono (fun _ h => h)
            (fun _ _ h => h) fun _ => hstay) fun _ => holds_pure ?_
          rintro _ rfl
          rw [hchange, changeIf, if_pos rfl, htenant, putEntry_registry]
          refine mirrors_insert h _ _ ?_
          simp +decide only [subscriptionDetails, subscriptionEntry, lookup_insert, ↓reduceIte,
            Subscriber.details]
        · exact holds_pure fun s hs => mirrors_denied (by decide) (hstay s hs)
      · exact holds_pure fun s hs => mirrors_denied (by decide) (hstay s hs)

theorem holds_handleUnbindQueue : Holds (· = w) (handleUnbindQueue properties : Carbon β Result)
    (fun result s => Mirrors (board.told (changeIf (unbindChange properties) result))
      (s.registries tenant))
    (fun _ s => Mirrors board (s.registries tenant)) := by
  have hstay : ∀ s, s = w → Mirrors board (s.registries tenant) := by
    rintro _ rfl
    exact h
  refine holds_translate (holds_throwIfNull_bind (fun exchangeName hexchange =>
    holds_throwIfNull_bind (fun queueName hqueue => holds_throwIfNull_bind
      (fun routingKey hkey => ?_) fun _ => hstay) fun _ => hstay) fun _ => hstay)
  split
  · rename_i htopic
    have hchange : unbindChange properties = some
        ⟨getTopicID (getRawRoutingKey routingKey), getRawQueueName queueName, none⟩ := by
      simp [unbindChange, topicBinding, hexchange, hqueue, hkey, htopic]
    refine holds_bind ((holds_deleteSubscription _ _).mono (fun _ h => h) (fun _ _ h => h)
      fun _ => hstay) fun _ => holds_pure ?_
    rintro _ rfl
    rw [hchange, changeIf, if_pos rfl, htenant]
    split
    · rw [deleteEntry_registry]
      exact mirrors_erase h _ _
    · rename_i habsent
      have herased := mirrors_erase h (getRawRoutingKey routingKey) (getRawQueueName queueName)
      rwa [erase_of_notMem habsent] at herased
  · rename_i hother
    have hnone : unbindChange properties = none := by
      simp [unbindChange, topicBinding, hexchange, hqueue, hkey, hother]
    rw [hnone]
    exact holds_pure fun s hs => mirrors_idle (hstay s hs)

theorem holds_dispatch (operation : Operation) (objectType : ObjectType) :
    Holds (· = w) (dispatch operation objectType username userRealm properties)
      (fun result s => Mirrors (board.told (changeIf
        (operationChange w.context username w.now operation objectType properties) result))
        (s.registries tenant))
      (fun _ s => Mirrors board (s.registries tenant)) := by
  have hidle {x : Carbon β Result} (hx : Keeps (fun s => Mirrors board (s.registries tenant)) x) :
      Holds (· = w) x
        (fun result s => Mirrors (board.told (changeIf none result)) (s.registries tenant))
        (fun _ s => Mirrors board (s.registries tenant)) :=
    (holds_of_keeps h hx).mono (fun _ hs => hs) (fun _ _ hs => mirrors_idle hs) fun _ _ hs => hs
  unfold dispatch
  split
  · exact hidle (keeps_pure _)
  · exact hidle (keeps_handleCreateQueue username properties
      keptByQueues_mirrors fun _ _ => trivial)
  · exact holds_handleBindQueue htenant h username userRealm properties
  · exact holds_handleBindQueue htenant h username userRealm properties
  · exact hidle (keeps_of_reads fun _ => RefusedRequests.keeps_handlePublishToExchange _ _ _)
  · exact hidle (keeps_of_reads fun _ => RefusedRequests.keeps_handleConsumeQueue _ _ _)
  · exact holds_handleUnbindQueue htenant h properties
  · exact hidle (keeps_pure _)
  · exact hidle (keeps_handleDeleteQueue username properties
      keptByQueues_mirrors)
  · exact hidle (keeps_pure _)
  · exact hidle (keeps_pure _)

end

def principalChange (surroundings : Surroundings) (now : Str) (operation : Operation)
    (objectType : ObjectType) (properties : ObjectProperties) : Option Change :=
  (surroundings.threadSubject.bind List.head?).bind fun username =>
    operationChange (tenantContext surroundings username) (userOf username) now operation
      objectType properties

def changeOf (surroundings : Surroundings) (call : Call β) (answer : Except JavaException Answer) :
    Option Change :=
  match call.request, answer with
  | .authorise operation objectType properties, .ok (.decided result) =>
    changeIf (principalChange (call.broker surroundings) call.now operation objectType properties)
      result
  | _, _ => none

def Board.replay (surroundings : Surroundings) (board : Board)
    (history : List (Call β × Except JavaException Answer)) : Board :=
  history.foldl (fun board step => board.told (changeOf surroundings step.1 step.2)) board

section
variable {surroundings : Surroundings}

theorem keeps_foreign_authorise (hforeign : principalTenant surroundings ≠ tenant)
    (operation : Operation) (objectType : ObjectType) (properties : ObjectProperties) :
    Keeps (fun s : World β => Mirrors board (s.registries tenant))
      (authorise surroundings operation objectType properties) := by
  refine holds_authorise (Q := fun _ s => Mirrors board (s.registries tenant)) (fun _ _ h => h)
    (fun _ _ _ h => h) (fun _ h => h) (fun _ _ h => h)
    fun username others userRealm hsubject hrealm => ?_
  unfold principalTenant at hforeign
  rw [hsubject] at hforeign
  have hqueues : KeptByQueues (fun _ => True) (fun s : World β =>
      Mirrors board (s.registries tenant) ∧ s.context = tenantContext surroundings username) :=
    ⟨fun _ _ _ _ entry h hid _ => ⟨mirrors_putEntry h.1 (getQueueID_ne hid) _ entry, h.2⟩,
      fun _ _ _ _ _ h hid _ => ⟨mirrors_putEntry h.1 (getQueueID_ne hid) _ _, h.2⟩,
      fun _ _ _ h hid => ⟨mirrors_deleteEntry h.1 (getQueueID_ne hid) _, h.2⟩,
      fun _ _ _ _ _ h => h⟩
  have htopics : KeptByTopics (fun s : World β =>
      Mirrors board (s.registries tenant) ∧ s.context = tenantContext surroundings username) := by
    constructor
    · rintro s topic subscriptionName owner ⟨h, hs⟩
      refine ⟨?_, hs⟩
      rw [putEntry_other _ _ (hs ▸ hforeign.symm)]
      exact h
    · rintro s topic subscriptionName ⟨h, hs⟩
      refine ⟨?_, hs⟩
      rw [deleteEntry_other _ _ (hs ▸ hforeign.symm)]
      exact h
  exact (keeps_dispatch (userOf username) properties hqueues htopics (fun _ _ => trivial)
    operation objectType).mono (fun _ h => h) (fun _ _ h => h.1) fun _ _ h => h.1

theorem holds_own_authorise (hown : principalTenant surroundings = tenant) (now : Str)
    (operation : Operation) (objectType : ObjectType) (properties : ObjectProperties) :
    Holds (fun s : World β => s.now = now ∧ Mirrors board (s.registries tenant))
      (authorise surroundings operation objectType properties)
      (fun result s => Mirrors (board.told (changeIf
        (principalChange surroundings now operation objectType properties) result))
        (s.registries tenant))
      (fun _ s => Mirrors board (s.registries tenant)) := by
  refine (holds_authorise (Q := fun result s => Mirrors (board.told (changeIf
      (principalChange surroundings now operation objectType properties) result))
      (s.registries tenant)) (fun _ _ h => h) (fun _ _ _ h => h)
    (fun _ h => mirrors_denied (by decide) h.2) (fun hsubject s h => ?_)
    fun username others userRealm hsubject hrealm => ?_).mono (fun _ h => h) (fun _ _ h => h)
      fun _ _ h => h
  · have hnone : principalChange surroundings now operation objectType properties = none := by
      rw [principalChange, hsubject]
      rfl
    rw [hnone]
    exact mirrors_idle h.2
  · have hchange : principalChange surroundings now operation objectType properties =
        operationChange (tenantContext surroundings username) (userOf username) now operation
          objectType properties := by
      rw [principalChange, hsubject]
      rfl
    rw [hchange]
    unfold principalTenant at hown
    rw [hsubject] at hown
    refine holds_of_states fun s ⟨⟨hnow, h⟩, hs⟩ => ?_
    have htenant : s.context.ownTenant = tenant := by
      rw [hs]
      exact hown
    refine (holds_dispatch htenant h (userOf username) userRealm properties operation
      objectType).mono (fun _ h => h) (fun result t ht => ?_) fun _ _ => mirrors_denied (by decide)
    rw [hs, hnow] at ht
    exact ht

theorem mirrors_authorise {w : World β} (h : Mirrors board (w.registries tenant))
    (operation : Operation) (objectType : ObjectType) (properties : ObjectProperties) :
    Holds (· = w) (authorise surroundings operation objectType properties)
      (fun result s => Mirrors
        (if principalTenant surroundings = tenant then
          board.told (changeIf
            (principalChange surroundings w.now operation objectType properties) result)
        else board) (s.registries tenant))
      (fun _ s => Mirrors board (s.registries tenant)) := by
  by_cases hown : principalTenant surroundings = tenant
  · refine (holds_own_authorise hown w.now operation objectType properties).mono ?_
      (fun result s hs => ?_) fun _ _ hs => hs
    · rintro _ rfl
      exact ⟨rfl, h⟩
    · rw [if_pos hown]
      exact hs
  · refine (keeps_foreign_authorise hown operation objectType properties).mono ?_
      (fun result s hs => ?_) fun _ _ hs => hs
    · rintro _ rfl
      exact h
    · rw [if_neg hown]
      exact hs

end

section
variable (surroundings : Surroundings) (beans : BrokerBeans β)

theorem mirrors_run (call : Call β) {w : World β} (hnow : w.now = call.now)
    (h : Mirrors board (w.registries tenant)) :
    Holds (· = w) (call.run surroundings beans)
      (fun answer s => Mirrors
        (if call.ownTenant surroundings = tenant then
          board.told (changeOf surroundings call (.ok answer)) else board) (s.registries tenant))
      (fun _ s => Mirrors board (s.registries tenant)) := by
  have hidle {α : Type} {x : Carbon β α} {f : α → Answer}
      (hnone : ∀ answer, changeOf surroundings call (.ok answer) = none)
      (hx : Keeps (fun s => Mirrors board (s.registries tenant)) x) :
      Holds (· = w) (x >>= fun a => pure (f a))
        (fun answer s => Mirrors
          (if call.ownTenant surroundings = tenant then
            board.told (changeOf surroundings call (.ok answer)) else board) (s.registries tenant))
        (fun _ s => Mirrors board (s.registries tenant)) := by
    refine holds_bind (holds_of_keeps h hx) fun a => holds_pure fun s hs => ?_
    rw [hnone, Board.told, Option.elim_none, ite_self]
    exact hs
  unfold Call.run
  cases hrequest : call.request with
  | authorise operation objectType properties =>
    have htenant : call.ownTenant surroundings = principalTenant (call.broker surroundings) := by
      simp only [Call.ownTenant, hrequest]
    refine holds_bind (mirrors_authorise h operation objectType properties) fun result =>
      holds_pure fun s hs => ?_
    simp only [htenant, changeOf, hrequest, ← hnow]
    exact hs
  | connection work =>
    exact hidle (fun _ => by simp only [changeOf, hrequest]) (holds_poke fun _ h => h)
  | createQueue queueName =>
    exact hidle (fun _ => by simp only [changeOf, hrequest]) (keeps_adminCreateQueue queueName
      (fun _ _ => keptByBeans_of_broker _ fun _ _ h => h) keptByQueues_mirrors fun _ _ => trivial)
  | deleteQueue queueName =>
    exact hidle (fun _ => by simp only [changeOf, hrequest]) (keeps_adminDeleteQueue queueName
      (keptByBeans_of_broker _ fun _ _ h => h) fun s t _ ht => mirrors_deleteEntry ht
        (fun _ _ => getSubscriptionID_ne_queueResource _ _ queueName) _)
  | updatePermission queueName permissions =>
    exact hidle (fun _ => by simp only [changeOf, hrequest]) (keeps_updatePermission queueName
      (fun _ _ => keptByBeans_of_broker _ fun _ _ h => h) keptByQueues_mirrors
      (fun _ _ => trivial) permissions)
  | getQueueRolePermission queueName =>
    exact hidle (fun _ => by simp only [changeOf, hrequest]) (keeps_getQueueRolePermission
      queueName fun _ _ => keptByBeans_of_broker _ fun _ _ h => h)

/-- One request: the answer tells what happens to the board. -/
theorem mirrors_serve (call : Call β) {w : World β} (h : Mirrors board (w.registries tenant)) :
    Mirrors (if call.ownTenant surroundings = tenant then
        board.told (changeOf surroundings call (serve surroundings beans call w).1) else board)
      ((serve surroundings beans call w).2.registries tenant) := by
  have hend := mirrors_run surroundings beans call (w := call.enter w) rfl h
    ⟨call.enter w, call.outcomes⟩ rfl
  unfold serve
  generalize call.run surroundings beans ⟨call.enter w, call.outcomes⟩ = r at hend ⊢
  cases r with
  | ok answer t => exact hend
  | error e t =>
    have hnone : changeOf surroundings call (.error e) = none := by
      unfold changeOf
      split
      · contradiction
      · rfl
    rw [hnone, Board.told, Option.elim_none, ite_self]
    exact hend

def historyOf (tenant : Int) (calls : List (Call β)) (w : World β) :
    List (Call β × Except JavaException Answer) :=
  (calls.filter (Call.ownTenant surroundings · = tenant)).zip
    (answersTo (serve surroundings beans) (Call.ownTenant surroundings) tenant calls w)

theorem mirrors_runAll (calls : List (Call β)) {w : World β}
    (h : Mirrors board (w.registries tenant)) :
    Mirrors (board.replay surroundings (historyOf surroundings beans tenant calls w))
      ((runAll (serve surroundings beans) calls w).registries tenant) := by
  induction calls generalizing board w with
  | nil => exact h
  | cons call calls ih =>
    have hstep := ih (mirrors_serve surroundings beans call h)
    by_cases hown : call.ownTenant surroundings = tenant
    · rw [if_pos hown] at hstep
      simpa only [historyOf, List.filter_cons, hown, decide_true, if_true, answersTo,
        List.zip_cons_cons, Board.replay, List.foldl_cons, runAll] using hstep
    · rw [if_neg hown] at hstep
      simpa only [historyOf, List.filter_cons, hown, decide_false, Bool.false_eq_true, if_false,
        answersTo, Board.replay, runAll, List.foldl_cons] using hstep

end

def fooSubscribes : Call Unit where
  thread := superContext
  subject := some ["eve!foo".toList]
  now := "1".toList
  outcomes := []
  request := .authorise .BIND (.other [])
    ⟨some TOPIC_EXCHANGE, some "carbon:tmp_1".toList, some "foo/t".toList⟩

end CarbonMessaging.SubscriptionBoard
