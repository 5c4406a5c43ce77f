import CarbonMessaging.QpidAuthorizationHandler

/-! What a denied or failed request leaves behind. Failures are quantified over: any call to the
registry or the user store may raise. -/

namespace CarbonMessaging.RefusedRequests

open JavaLang FaultyCalls CommonsUtil RegistryClient QpidAuthorizationHandler

variable {β : Type}

def Untouched (w w' : World β) : Prop := w'.registries = w.registries ∧ w'.realms = w.realms

/-- Wherever a call fails and whatever the clock shows, a request that is denied or that ends in
the handler's exception changes nothing. -/
def LeavesNoTrace (w : World β) (request : Carbon β Result) : Prop :=
  ∀ now outcomes, match request ⟨{ w with now := now }, outcomes⟩ with
    | .ok result t => result = .DENIED → Untouched w t.state
    | .error e t => e.kind = .authorizationHandler → Untouched w t.state

def Registers (w : World β) (username : Str) (userRealm : Option Int)
    (properties : ObjectProperties) : Prop :=
  ∃ realm name newID id, userRealm = some realm ∧ addsQueues (w.realms realm) username = true ∧
    properties.NAME = some name ∧
    getQueueID w.context (replaceChar '@' AT_REPLACE_CHAR (getRawQueueName name)) = .ok newID ∧
    getQueueID w.context (getRawQueueName name) = .ok id ∧
    ∀ queue userCount, (w.registries w.context.ownTenant).lookup newID = some queue →
      queue.lookup USER_COUNT = some userCount → parseInt userCount ≠ none

theorem leavesNoTrace_of_holds {w : World β} {request : Carbon β Result}
    (h : ∀ now, Holds (· = { w with now := now }) request
      (fun result s => result = .DENIED → s = { w with now := now })
      (fun e s => e.kind = .authorizationHandler → s = { w with now := now })) :
    LeavesNoTrace w request := by
  intro now outcomes
  have hrun := h now ⟨{ w with now := now }, outcomes⟩ rfl
  cases hresult : request ⟨{ w with now := now }, outcomes⟩ with
  | ok result t =>
    rw [hresult] at hrun
    intro hdenied
    rw [hrun hdenied]
    exact ⟨rfl, rfl⟩
  | error e t =>
    rw [hresult] at hrun
    intro hkind
    rw [hrun hkind]
    exact ⟨rfl, rfl⟩

section
variable {w : World β}

theorem holds_isAdminUser (username : Str) (realm : Int) :
    Holds (· = w) (isAdminUser username realm)
      (fun b s => (b = true → isAdmin (w.realms realm) username = true) ∧ s = w)
      (fun _ s => s = w) := by
  refine holds_handling (R := fun _ s => s = w) ?_ fun e => ?_
  · refine holds_query_bind (fun _ => rfl) (holds_pure fun s hs => ⟨fun hb => ?_, hs⟩)
    exact hb
  · split
    · exact holds_pure fun s hs => ⟨by simp, hs⟩
    · exact holds_raise fun _ hs => hs

theorem holds_isUserAuthorized (username : Str) (realm : Int) (resourceId action : Str) :
    Holds (· = w) (isUserAuthorized realm username resourceId action)
      (fun b s => b = (w.realms realm).userAuthorized username resourceId action ∧ s = w)
      (fun _ s => s = w) := by
  refine holds_query (fun _ _ hs => hs) ?_
  rintro s rfl
  exact ⟨rfl, rfl⟩

theorem holds_isAdminOrMay (username : Str) (realm : Int) (permission permission' : Str) :
    Holds (· = w) (isAdminOrMay username realm permission permission')
      (fun b s => (b = true →
        adminOrMay (w.realms realm) username permission permission' = true) ∧ s = w)
      (fun _ s => s = w) := by
  refine holds_shortOr (holds_isAdminUser username realm) ?_ ?_
  · rintro s ⟨hadmin, hs⟩
    exact ⟨fun _ => by simp [adminOrMay, hadmin rfl], hs⟩
  · refine holds_of_fact fun _ => ?_
    refine holds_shortOr (holds_isUserAuthorized username realm permission UI_EXECUTE) ?_ ?_
    · rintro s ⟨hmay, hs⟩
      exact ⟨fun _ => by simp [adminOrMay, ← hmay], hs⟩
    · refine holds_of_fact fun _ => ?_
      refine (holds_isUserAuthorized username realm permission' UI_EXECUTE).mono
        (fun _ hs => hs) ?_ fun _ _ hs => hs
      rintro b s ⟨hmay, hs⟩
      exact ⟨fun hb => by simp [adminOrMay, ← hmay, hb], hs⟩

theorem keeps_isAdminOrMay (username : Str) (realm : Int) (permission permission' : Str) :
    Keeps (· = w) (isAdminOrMay username realm permission permission') :=
  (holds_isAdminOrMay username realm permission permission').mono (fun _ hs => hs)
    (fun _ _ hs => hs.2) fun _ _ hs => hs

theorem holds_isOwnAdminOrMay (username : Str) (realm : Int) (own : Bool)
    (resourceId permission : Str) :
    Holds (· = w) (isOwnAdminOrMay username realm own resourceId permission)
      (fun b s => (b = true →
        ownAdminOrMay (w.realms realm) username own resourceId permission = true) ∧ s = w)
      (fun _ s => s = w) := by
  have hand : Holds (· = w) (shortAnd (isAdminUser username realm) (pure own))
      (fun b s => (b = true → (isAdmin (w.realms realm) username && own) = true) ∧ s = w)
      (fun _ s => s = w) := by
    refine holds_shortAnd (holds_isAdminUser username realm) ?_ ?_
    · rintro s ⟨-, hs⟩
      exact ⟨by simp, hs⟩
    · refine holds_of_fact fun hadmin => holds_pure fun s hs => ⟨fun hown => ?_, hs⟩
      rw [hadmin rfl, hown, Bool.and_self]
  refine holds_shortOr hand ?_ (holds_of_fact fun _ => ?_)
  · rintro s ⟨hown, hs⟩
    exact ⟨fun _ => by rw [ownAdminOrMay, hown rfl, Bool.true_or], hs⟩
  · refine (holds_isUserAuthorized username realm resourceId permission).mono (fun _ hs => hs) ?_
      fun _ _ hs => hs
    rintro b s ⟨hmay, hs⟩
    exact ⟨fun hb => by rw [ownAdminOrMay, ← hmay, hb, Bool.or_true], hs⟩

theorem keeps_isOwnAdminOrMay (username : Str) (realm : Int) (own : Bool)
    (resourceId permission : Str) :
    Keeps (· = w) (isOwnAdminOrMay username realm own resourceId permission) :=
  (holds_isOwnAdminOrMay username realm own resourceId permission).mono (fun _ hs => hs)
    (fun _ _ hs => hs.2) fun _ _ hs => hs

theorem keeps_handleConsumeQueue (username : Str) (userRealm : Option Int)
    (properties : ObjectProperties) :
    Keeps (· = w) (handleConsumeQueue username userRealm properties) := by
  refine keeps_translate ?_
  cases userRealm with
  | none => exact keeps_pure _
  | some realm =>
    refine keeps_bind (keeps_isAdminOrMay _ _ _ _) fun b => ?_
    split
    · refine keeps_bind (keeps_throwIfNull _) fun name => ?_
      refine keeps_bind (keeps_peek _) fun _ => keeps_bind (keeps_peek _) fun _ => ?_
      refine keeps_bind (keeps_orRaise _) fun _ =>
        keeps_bind (keeps_isOwnAdminOrMay _ _ _ _ _) fun _ => ?_
      split <;> exact keeps_pure _
    · exact keeps_pure _

theorem keeps_handlePublishToExchange (username : Str) (userRealm : Option Int)
    (properties : ObjectProperties) :
    Keeps (· = w) (handlePublishToExchange username userRealm properties) := by
  refine keeps_translate ?_
  cases userRealm with
  | none => exact keeps_pure _
  | some realm =>
    refine keeps_bind (keeps_peek _) fun _ => keeps_bind (keeps_throwIfNull _) fun _ => ?_
    refine keeps_bind (keeps_throwIfNull _) fun _ => ?_
    split
    · refine keeps_bind (keeps_peek _) fun _ => keeps_bind (keeps_orRaise _) fun _ => ?_
      refine keeps_bind (keeps_isOwnAdminOrMay _ _ _ _ _) fun _ => ?_
      split <;> exact keeps_pure _
    · split
      · refine keeps_bind (keeps_isOwnAdminOrMay _ _ _ _ _) fun _ => ?_
        split <;> exact keeps_pure _
      · exact keeps_pure _

theorem holds_handleBindQueue (username : Str) (userRealm : Option Int)
    (properties : ObjectProperties) :
    Holds (· = w) (handleBindQueue username userRealm properties)
      (fun result s => result = .DENIED ∧ s = w ∨ result = .ALLOWED ∧
        ∃ realm, userRealm = some realm ∧ AllowsBinding w username realm properties)
      (fun _ s => s = w) := by
  refine holds_translate ?_
  cases userRealm with
  | none => exact holds_pure fun _ hs => .inl ⟨rfl, hs⟩
  | some realm =>
    refine holds_peek_bind (holds_bind (holds_throwIfNull _ fun _ _ hs => hs) fun exchange =>
      holds_of_fact fun hexchange => ?_)
    refine holds_bind (holds_throwIfNull _ fun _ _ hs => hs) fun name =>
      holds_of_fact fun hname => ?_
    refine holds_bind (holds_throwIfNull _ fun _ _ hs => hs) fun key =>
      holds_of_fact fun hkey => ?_
    split
    · rename_i hdirect
      refine holds_peek_bind (holds_orRaise_bind (fun id hid => ?_) fun _ _ _ hs => hs)
      refine holds_bind (holds_isOwnAdminOrMay _ _ _ _ _) fun b => holds_of_fact fun hown => ?_
      split
      · rename_i hb
        exact holds_pure fun s hs => .inr ⟨rfl, realm, rfl, exchange, name, key, hexchange, hname,
          hkey, .inl ⟨hdirect, id, hid, hown hb⟩⟩
      · exact holds_pure fun _ hs => .inl ⟨rfl, hs⟩
    · split
      · rename_i htopic
        refine holds_bind (holds_isOwnAdminOrMay _ _ _ _ _) fun b => holds_of_fact fun hown => ?_
        split
        · rename_i hb
          refine holds_bind (holds_createSubscription _ _ _) fun _ => ?_
          exact holds_pure fun _ _ => .inr ⟨rfl, realm, rfl, exchange, name, key, hexchange, hname,
            hkey, .inr ⟨htopic, hown hb⟩⟩
        · exact holds_pure fun _ hs => .inl ⟨rfl, hs⟩
      · exact holds_pure fun _ hs => .inl ⟨rfl, hs⟩

theorem holds_handleDeleteQueue (username : Str) (userRealm : Option Int)
    (properties : ObjectProperties) :
    Holds (· = w) (handleDeleteQueue username userRealm properties)
      (fun result s => result = .DENIED → s = w) (fun _ s => s = w) := by
  refine holds_translate (holds_bind (keeps_throwIfNull _) fun realm => ?_)
  refine holds_bind (keeps_isAdminOrMay _ _ _ _) fun b => ?_
  split
  · refine holds_bind (keeps_throwIfNull _) fun _ => ?_
    refine holds_bind (holds_deleteQueue _) fun _ => ?_
    exact holds_pure fun _ _ hdenied => by cases hdenied
  · exact holds_pure fun _ hs _ => hs

theorem holds_handleCreateQueue {username : Str} {userRealm : Option Int}
    {properties : ObjectProperties} (h : ¬Registers w username userRealm properties) :
    Holds (· = w) (handleCreateQueue username userRealm properties)
      (fun result s => result = .DENIED → s = w)
      (fun e s => e.kind = .authorizationHandler → s = w) := by
  refine holds_translate ?_
  cases userRealm with
  | none => exact holds_pure fun _ hs _ => hs
  | some realm =>
    refine holds_bind ((holds_isAdminOrMay username realm _ _).mono (fun _ hs => hs)
      (fun _ _ hs => hs) fun _ _ hs _ => hs) fun b => holds_of_fact fun hmay => ?_
    split
    · rename_i hb
      refine holds_peek_bind ?_
      cases hname : properties.NAME with
      | none => exact fun site hs _ => hs
      | some name =>
        refine holds_bind (Q := fun a s => a = name ∧ s = w)
          (holds_pure fun _ hs => ⟨rfl, hs⟩) fun name' => holds_of_fact fun hname' => ?_
        rw [hname']
        refine holds_bind ((holds_createQueue _ _).mono (fun _ hs => hs)
          (fun _ _ hs => hs) fun _ _ hs _ => hs) fun _ => ?_
        rintro site ⟨newID, entry, hnewID, hentry, hsite⟩
        have hcontext : site.state.context = w.context := by rw [hsite, putEntry_context]
        cases hid : getQueueID w.context (getRawQueueName name) with
        | error e =>
          simp only [bind_apply, context, peek_apply, hcontext, hid, orRaise_error, raise_apply]
          intro hkind
          rcases getQueueID_error hid with he | he <;>
            simp [asHandlerException, he] at hkind
        | ok id =>
          refine absurd ⟨realm, name, newID, id, rfl, hmay hb, hname, hnewID, hid, ?_⟩ h
          intro queue userCount hqueue hcount hparse
          rcases sharedQueueEntry_cases w.now queue with ⟨_, -, -, hall⟩ | ⟨e, _, herror, -⟩
          · exact hall userCount hcount hparse
          · simp only [writtenEntry, hqueue, herror] at hentry
            cases hentry
    · exact holds_pure fun _ hs _ => hs

theorem mayAddQueue_through {username : Str} {realm : Int}
    (h : addsQueues (w.realms realm) username = true) :
    ∃ calls, ∀ rest, mayAddQueue username realm ⟨w, calls ++ rest⟩ = .ok true ⟨w, rest⟩ := by
  cases hadmin : isAdmin (w.realms realm) username with
  | true =>
    rw [isAdmin, decide_eq_true_eq] at hadmin
    refine ⟨[none], fun rest => ?_⟩
    simp [mayAddQueue, isAdminOrMay, shortOr, isAdminUser, getRoleListOfUser, hadmin]
  | false =>
    cases hqueue : (w.realms realm).userAuthorized username
        PERMISSION_ADMIN_MANAGE_QUEUE_ADD_QUEUE UI_EXECUTE with
    | true =>
      rw [isAdmin, decide_eq_false_iff_not] at hadmin
      refine ⟨[none, none], fun rest => ?_⟩
      simp [mayAddQueue, isAdminOrMay, shortOr, isAdminUser, getRoleListOfUser, hadmin,
        isUserAuthorized, hqueue]
    | false =>
      have htopic : (w.realms realm).userAuthorized username
          PERMISSION_ADMIN_MANAGE_TOPIC_ADD_TOPIC UI_EXECUTE = true := by
        simpa [addsQueues, adminOrMay, hadmin, hqueue] using h
      rw [isAdmin, decide_eq_false_iff_not] at hadmin
      refine ⟨[none, none, none], fun rest => ?_⟩
      simp [mayAddQueue, isAdminOrMay, shortOr, isAdminUser, getRoleListOfUser, hadmin,
        isUserAuthorized, hqueue, htopic]

theorem createQueue_through {queueName id : Str} (owner : Str)
    (hid : getQueueID w.context queueName = .ok id)
    (hcount : ∀ queue userCount, (w.registries w.context.ownTenant).lookup id = some queue →
      queue.lookup USER_COUNT = some userCount → parseInt userCount ≠ none) :
    ∃ calls entry, entry.lookup UPDATED_TIME = some w.now ∧ ∀ rest,
      RegistryClient.createQueue queueName owner ⟨w, calls ++ rest⟩ =
        .ok () ⟨w.putEntry w.context.ownTenant id entry, rest⟩ := by
  cases hqueue : (w.registries w.context.ownTenant).lookup id with
  | none =>
    have hnew : id ∉ w.registries w.context.ownTenant := Finmap.lookup_eq_none.1 hqueue
    refine ⟨[none, none, none, none], newQueueEntry w.now queueName owner ∅, ?_, fun rest => ?_⟩
    · simp +decide only [newQueueEntry, lookup_insert, ↓reduceIte]
    · simp [RegistryClient.createQueue, getGovernanceSystemRegistry, context, hid,
        resourceExists, hnew, newCollection, registryPut]
  | some queue =>
    have hmem : id ∈ w.registries w.context.ownTenant := Finmap.mem_of_lookup_eq_some hqueue
    rcases sharedQueueEntry_cases w.now queue with ⟨entry, hentry, htime, -⟩ |
      ⟨_, userCount, -, htext, hparse⟩
    · refine ⟨[none, none, none, none], entry, htime, fun rest => ?_⟩
      simp [RegistryClient.createQueue, getGovernanceSystemRegistry, context, hid,
        resourceExists, hmem, registryGet, hqueue, hentry, registryPut]
    · exact absurd hparse (hcount queue userCount hqueue htext)

theorem not_leavesNoTrace_of_registers {username : Str} {userRealm : Option Int}
    {properties : ObjectProperties} (h : Registers w username userRealm properties) :
    ¬LeavesNoTrace w (handleCreateQueue username userRealm properties) := by
  obtain ⟨realm, name, newID, id, rfl, hmay, hname, hnewID, hid, hcount⟩ := h
  intro htrace
  -- a clock reading that the stored entry does not show
  obtain ⟨now, hnow⟩ : ∃ now, ((w.registries w.context.ownTenant).lookup newID).bind
      (Finmap.lookup UPDATED_TIME) ≠ some now := by
    cases ((w.registries w.context.ownTenant).lookup newID).bind (Finmap.lookup UPDATED_TIME) with
    | none => exact ⟨[], by simp⟩
    | some time => exact ⟨' ' :: time, by simp⟩
  obtain ⟨gate, hgate⟩ := mayAddQueue_through (w := { w with now := now }) hmay
  obtain ⟨calls, entry, htime, hcreate⟩ :=
    createQueue_through (w := { w with now := now }) username hnewID hcount
  have hwritten : ¬Untouched w
      (({ w with now := now } : World β).putEntry w.context.ownTenant newID entry) := by
    rintro ⟨hsame, -⟩
    have hlookup := congrArg (Finmap.lookup newID) (congrFun hsame w.context.ownTenant)
    rw [putEntry_registry, Finmap.lookup_insert] at hlookup
    rw [← hlookup, Option.bind_some] at hnow
    exact hnow htime
  cases hown : (isOwnDomain w.context.tenantDomain (getRawQueueName name) ||
      isTopicSubscriberQueue (getRawQueueName name)) with
  | false =>
    have hrun := htrace now (gate ++ (calls ++ []))
    simp only [handleCreateQueue, translate_apply, bind_apply, hgate, hname, throwIfNull, context,
      peek_apply, pure_apply, if_true, hcreate, putEntry_context, hid, orRaise_ok, hown,
      Bool.false_eq_true, if_false] at hrun
    exact hwritten (hrun trivial)
  | true =>
    have hrun := htrace now (gate ++ (calls ++ [some ⟨.userStore, none⟩]))
    simp only [handleCreateQueue, translate_apply, bind_apply, hgate, hname, throwIfNull, context,
      peek_apply, pure_apply, if_true, hcreate, putEntry_context, hid, orRaise_ok, hown,
      getRoleListOfUser, query, call_raises] at hrun
    exact hwritten (hrun rfl)

end

inductive Handler where
  | handleCreateQueue | handleConsumeQueue | handleBindQueue | handlePublishToExchange
  | handleDeleteQueue
  deriving DecidableEq

def Handler.run (username : Str) (userRealm : Option Int) (properties : ObjectProperties) :
    Handler → Carbon β Result
  | handleCreateQueue => QpidAuthorizationHandler.handleCreateQueue username userRealm properties
  | handleConsumeQueue => QpidAuthorizationHandler.handleConsumeQueue username userRealm properties
  | handleBindQueue => QpidAuthorizationHandler.handleBindQueue username userRealm properties
  | handlePublishToExchange =>
    QpidAuthorizationHandler.handlePublishToExchange username userRealm properties
  | handleDeleteQueue => QpidAuthorizationHandler.handleDeleteQueue username userRealm properties

/-- Only a creation that gets as far as its registration can be refused or fail with a trace. -/
theorem leavesNoTrace_iff (w : World β) (username : Str) (userRealm : Option Int)
    (properties : ObjectProperties) (handler : Handler) :
    LeavesNoTrace w (handler.run username userRealm properties) ↔
      ¬(handler = .handleCreateQueue ∧ Registers w username userRealm properties) := by
  cases handler with
  | handleCreateQueue =>
    simp only [true_and]
    constructor
    · intro htrace hregisters
      exact not_leavesNoTrace_of_registers hregisters htrace
    · intro hregisters
      refine leavesNoTrace_of_holds fun now => holds_handleCreateQueue ?_
      exact hregisters
  | handleConsumeQueue =>
    refine iff_of_true (leavesNoTrace_of_holds fun now => ?_) (by simp)
    exact (keeps_handleConsumeQueue username userRealm properties).mono (fun _ hs => hs)
      (fun _ _ hs _ => hs) fun _ _ hs _ => hs
  | handleBindQueue =>
    refine iff_of_true (leavesNoTrace_of_holds fun now => ?_) (by simp)
    refine (holds_handleBindQueue username userRealm properties).mono (fun _ hs => hs) ?_
      fun _ _ hs _ => hs
    rintro result s (⟨-, hs⟩ | ⟨hallowed, -⟩) hdenied
    · exact hs
    · rw [hallowed] at hdenied
      cases hdenied
  | handlePublishToExchange =>
    refine iff_of_true (leavesNoTrace_of_holds fun now => ?_) (by simp)
    exact (keeps_handlePublishToExchange username userRealm properties).mono (fun _ hs => hs)
      (fun _ _ hs _ => hs) fun _ _ hs _ => hs
  | handleDeleteQueue =>
    refine iff_of_true (leavesNoTrace_of_holds fun now => ?_) (by simp)
    exact (holds_handleDeleteQueue username userRealm properties).mono (fun _ hs => hs)
      (fun _ _ hs => hs) fun _ _ hs _ => hs

theorem denied_creation_registers : ¬LeavesNoTrace (adminWorld superContext ())
    (Handler.handleCreateQueue.run "admin".toList (some SUPER_TENANT_ID)
      ⟨some "foo/q".toList, none, none⟩) := by
  intro htrace
  have hsame := (htrace "0".toList [] rfl).1
  have hlookup := congrArg (Finmap.lookup (queueResource "foo/q".toList))
    (congrFun hsame SUPER_TENANT_ID)
  cases hlookup

end CarbonMessaging.RefusedRequests
