import CarbonMessaging.RegistryClient

/-! Access control of the broker. A realm argument is the tenant whose realm it is, or nothing
for Java's null. Only the properties that the handlers read are kept. -/

namespace CarbonMessaging.QpidAuthorizationHandler

open JavaLang FaultyCalls CellWrites CommonsUtil

variable {β : Type}

inductive Result where
  | ABSTAIN | ALLOWED | DEFER | DENIED
  deriving DecidableEq

structure ObjectProperties where
  NAME : Option Str
  QUEUE_NAME : Option Str
  ROUTING_KEY : Option Str

def DEFAULT_EXCHANGE : Str := "default".toList
def DIRECT_EXCHANGE : Str := "amq.direct".toList
def TOPIC_EXCHANGE : Str := "amq.topic".toList
def PERMISSION_CHANGE_PERMISSION : Str := "changePermission".toList
def ADMIN_ROLE : Str := "admin".toList
def AT_REPLACE_CHAR : Char := '_'
def UI_EXECUTE : Str := "ui.execute".toList
def ROLE_EVERY_ONE : Str := "everyone".toList
def PERMISSION_ADMIN_MANAGE_QUEUE_ADD_QUEUE : Str :=
  "/permission/admin/manage/queue/addQueue".toList
def PERMISSION_ADMIN_MANAGE_QUEUE_BROWSE_QUEUE : Str :=
  "/permission/admin/manage/queue/browseQueue".toList
def PERMISSION_ADMIN_MANAGE_QUEUE_DELETE_QUEUE : Str :=
  "/permission/admin/manage/queue/deleteQueue".toList
def PERMISSION_ADMIN_MANAGE_TOPIC_ADD_TOPIC : Str :=
  "/permission/admin/manage/topic/addTopic".toList
def PERMISSION_ADMIN_MANAGE_TOPIC_DELETE_TOPIC : Str :=
  "/permission/admin/manage/topic/deleteTopic".toList
def PERMISSION_ADMIN_MANAGE_DLC_BROWSE_DLC : Str :=
  "/permission/admin/manage/dlc/browseDlc".toList

/-- `TreeNode.Permission`, in lower case. -/
def CONSUME : Str := "consume".toList
def PUBLISH : Str := "publish".toList
def SUBSCRIBE : Str := "subscribe".toList

def asHandlerException (caught : List ExceptionClass) (e : JavaException) : JavaException :=
  if e.kind ∈ caught then .wrap .authorizationHandler e else e

def getRawQueueName (queueName : Str) : Str := after ':' (upTo ';' queueName)

def getRawRoutingKey (routingKey : Str) : Str := after ':' routingKey

def getRawExchangeName (exchangeName : Str) : Str :=
  if exchangeName = "<<default>>".toList then DEFAULT_EXCHANGE else exchangeName

def isOwnDomain (tenantDomain : Option Str) (routingKey : Str) : Bool :=
  match tenantDomain with
  | some tenantDomain =>
    if startsWith routingKey (tenantDomain ++ "/".toList) then true
    else if equalsIgnoreCase tenantDomain "carbon.super".toList then
      !contains routingKey "/".toList
    else false
  | none => !contains routingKey "/".toList

def isTopicSubscriberQueue (queueName : Str) : Bool := startsWith queueName "tmp_".toList

/-- A failing user store makes nobody an admin. -/
def isAdminUser (username : Str) (realm : Int) : Carbon β Bool :=
  handling (do
    let userRoles ← getRoleListOfUser realm username
    pure (decide (ADMIN_ROLE ∈ userRoles)))
    fun e => if e.kind = .userStore then pure false else raise e

def isAdminOrMay (username : Str) (realm : Int) (permission permission' : Str) : Carbon β Bool :=
  shortOr (isAdminUser username realm)
    (shortOr (isUserAuthorized realm username permission UI_EXECUTE)
      (isUserAuthorized realm username permission' UI_EXECUTE))

def isOwnAdminOrMay (username : Str) (realm : Int) (own : Bool) (resourceId permission : Str) :
    Carbon β Bool :=
  shortOr (shortAnd (isAdminUser username realm) (pure own))
    (isUserAuthorized realm username resourceId permission)

def mayAddQueue (username : Str) (realm : Int) : Carbon β Bool :=
  isAdminOrMay username realm PERMISSION_ADMIN_MANAGE_QUEUE_ADD_QUEUE
    PERMISSION_ADMIN_MANAGE_TOPIC_ADD_TOPIC

def mayBrowseQueue (username : Str) (realm : Int) : Carbon β Bool :=
  isAdminOrMay username realm PERMISSION_ADMIN_MANAGE_QUEUE_BROWSE_QUEUE
    PERMISSION_ADMIN_MANAGE_DLC_BROWSE_DLC

def mayDeleteQueue (username : Str) (realm : Int) : Carbon β Bool :=
  isAdminOrMay username realm PERMISSION_ADMIN_MANAGE_QUEUE_DELETE_QUEUE
    PERMISSION_ADMIN_MANAGE_TOPIC_DELETE_TOPIC

def authorizeExisting (realm : Int) (queueID : Str) (actions : List Str) (role : Str) :
    Carbon β Unit := do
  if !equalsIgnoreCase role ROLE_EVERY_ONE then
    if ← isExistingRole realm role then
      forEach (authorizeRole realm role queueID) actions

def authorizeRoles (realm : Int) (queueID : Str) (actions roleNames : List Str) :
    Carbon β Unit :=
  forEach (authorizeExisting realm queueID actions) roleNames

def handleCreateQueue (username : Str) (userRealm : Option Int) (properties : ObjectProperties) :
    Carbon β Result :=
  translate (asHandlerException [.registryClient, .userStore]) do
    match userRealm with
    | none => pure .DENIED
    | some realm =>
      if ← mayAddQueue username realm then
        let tenantDomain := (← context).tenantDomain
        let queueName := getRawQueueName (← throwIfNull properties.NAME)
        RegistryClient.createQueue (replaceChar '@' AT_REPLACE_CHAR queueName) username
        let queueID ← orRaise (getQueueID (← context) queueName)
        if isOwnDomain tenantDomain queueName || isTopicSubscriberQueue queueName then
          let roleNames ← getRoleListOfUser realm username
          authorizeRoles realm queueID [CONSUME, PUBLISH, PERMISSION_CHANGE_PERMISSION] roleNames
          pure .ALLOWED
        else pure .DENIED
      else pure .DENIED

def handleConsumeQueue (username : Str) (userRealm : Option Int)
    (properties : ObjectProperties) : Carbon β Result :=
  translate (asHandlerException [.userStore]) do
    match userRealm with
    | none => pure .DENIED
    | some realm =>
      if ← mayBrowseQueue username realm then
        let queueName := getRawQueueName (← throwIfNull properties.NAME)
        let tenantDomain := (← context).tenantDomain
        let queueID ← orRaise (getQueueID (← context) queueName)
        if ← isOwnAdminOrMay username realm (isOwnDomain tenantDomain queueName) queueID
            CONSUME then pure .ALLOWED
        else pure .DENIED
      else pure .DENIED

def handleBindQueue (username : Str) (userRealm : Option Int) (properties : ObjectProperties) :
    Carbon β Result :=
  translate (asHandlerException [.userStore, .registryClient]) do
    match userRealm with
    | none => pure .DENIED
    | some realm =>
      let tenantDomain := (← context).tenantDomain
      let exchangeName := getRawExchangeName (← throwIfNull properties.NAME)
      let queueName := getRawQueueName (← throwIfNull properties.QUEUE_NAME)
      let routingKey := getRawRoutingKey (← throwIfNull properties.ROUTING_KEY)
      if exchangeName = DEFAULT_EXCHANGE ∨ exchangeName = DIRECT_EXCHANGE then
        let queueID ← orRaise (getQueueID (← context) queueName)
        if ← isOwnAdminOrMay username realm (isOwnDomain tenantDomain queueName) queueID
            CONSUME then pure .ALLOWED
        else pure .DENIED
      else if exchangeName = TOPIC_EXCHANGE then
        let topicID := getTopicID routingKey
        let newRoutingKey := replaceChar '@' AT_REPLACE_CHAR routingKey
        let newQName := replaceChar '@' AT_REPLACE_CHAR queueName
        if ← isOwnAdminOrMay username realm
            (isOwnDomain tenantDomain queueName || isTopicSubscriberQueue queueName) topicID
            SUBSCRIBE then
          RegistryClient.createSubscription newRoutingKey newQName username
          pure .ALLOWED
        else pure .DENIED
      else pure .DENIED

def handlePublishToExchange (username : Str) (userRealm : Option Int)
    (properties : ObjectProperties) : Carbon β Result :=
  translate (asHandlerException [.userStore]) do
    match userRealm with
    | none => pure .DENIED
    | some realm =>
      let tenantDomain := (← context).tenantDomain
      let exchangeName := getRawExchangeName (← throwIfNull properties.NAME)
      let routingKey := getRawRoutingKey (← throwIfNull properties.ROUTING_KEY)
      if exchangeName = DIRECT_EXCHANGE ∨ exchangeName = DEFAULT_EXCHANGE then
        let queueID ← orRaise (getQueueID (← context) routingKey)
        if ← isOwnAdminOrMay username realm (isOwnDomain tenantDomain routingKey) queueID
            PUBLISH then pure .ALLOWED
        else pure .DENIED
      else if exchangeName = TOPIC_EXCHANGE then
        let permissionID := getTopicID routingKey
        if ← isOwnAdminOrMay username realm true permissionID PUBLISH then pure .ALLOWED
        else pure .DENIED
      else pure .DENIED

/-- The replaced names are computed in the source as well, and not used there either. -/
def handleUnbindQueue (properties : ObjectProperties) : Carbon β Result :=
  translate (asHandlerException [.registryClient]) do
    let exchangeName := getRawExchangeName (← throwIfNull properties.NAME)
    let queueName := getRawQueueName (← throwIfNull properties.QUEUE_NAME)
    let routingKey := getRawRoutingKey (← throwIfNull properties.ROUTING_KEY)
    if exchangeName = TOPIC_EXCHANGE then
      RegistryClient.deleteSubscription routingKey queueName
    pure .ALLOWED

/-- The one handler that does not test for a missing realm. -/
def handleDeleteQueue (username : Str) (userRealm : Option Int) (properties : ObjectProperties) :
    Carbon β Result :=
  translate (asHandlerException [.registryClient, .userStore]) do
    let realm ← throwIfNull userRealm
    if ← mayDeleteQueue username realm then
      let queueName := getRawQueueName (← throwIfNull properties.NAME)
      RegistryClient.deleteQueue queueName
      pure .ALLOWED
    else pure .DENIED

def isAdmin (realm : UserRealm) (username : Str) : Bool :=
  decide (ADMIN_ROLE ∈ realm.roleListOfUser username)

def adminOrMay (realm : UserRealm) (username permission permission' : Str) : Bool :=
  isAdmin realm username || (realm.userAuthorized username permission UI_EXECUTE ||
    realm.userAuthorized username permission' UI_EXECUTE)

def addsQueues (realm : UserRealm) (username : Str) : Bool :=
  adminOrMay realm username PERMISSION_ADMIN_MANAGE_QUEUE_ADD_QUEUE
    PERMISSION_ADMIN_MANAGE_TOPIC_ADD_TOPIC

def browsesQueues (realm : UserRealm) (username : Str) : Bool :=
  adminOrMay realm username PERMISSION_ADMIN_MANAGE_QUEUE_BROWSE_QUEUE
    PERMISSION_ADMIN_MANAGE_DLC_BROWSE_DLC

def deletesQueues (realm : UserRealm) (username : Str) : Bool :=
  adminOrMay realm username PERMISSION_ADMIN_MANAGE_QUEUE_DELETE_QUEUE
    PERMISSION_ADMIN_MANAGE_TOPIC_DELETE_TOPIC

def ownAdminOrMay (realm : UserRealm) (username : Str) (own : Bool)
    (resourceId permission : Str) : Bool :=
  isAdmin realm username && own || realm.userAuthorized username resourceId permission

def grantees (realm : UserRealm) (roleNames : List Str) : List Str :=
  roleNames.filter fun role => !equalsIgnoreCase role ROLE_EVERY_ONE && realm.existingRole role

def grantWrites (queueID : Str) (actions roles : List Str) : List (Cell × Bool) :=
  roles.flatMap fun role => actions.map fun action => (⟨role, queueID, action⟩, true)

@[simp] theorem isAdminUser_quiet (username : Str) (realm : Int) (w : World β) :
    isAdminUser username realm ⟨w, []⟩ = .ok (isAdmin (w.realms realm) username) ⟨w, []⟩ := rfl

@[simp] theorem isUserAuthorized_quiet (realm : Int) (username resourceId action : Str)
    (w : World β) : isUserAuthorized realm username resourceId action ⟨w, []⟩ =
      .ok ((w.realms realm).userAuthorized username resourceId action) ⟨w, []⟩ := rfl

@[simp] theorem isAdminOrMay_quiet (username : Str) (realm : Int) (permission permission' : Str)
    (w : World β) : isAdminOrMay username realm permission permission' ⟨w, []⟩ =
      .ok (adminOrMay (w.realms realm) username permission permission') ⟨w, []⟩ := by
  simp only [isAdminOrMay, shortOr_quiet (isAdminUser_quiet ..),
    shortOr_quiet (isUserAuthorized_quiet ..), isUserAuthorized_quiet, adminOrMay]
  cases isAdmin (w.realms realm) username <;>
    cases (w.realms realm).userAuthorized username permission UI_EXECUTE <;> rfl

@[simp] theorem mayAddQueue_quiet (username : Str) (realm : Int) (w : World β) :
    mayAddQueue username realm ⟨w, []⟩ = .ok (addsQueues (w.realms realm) username) ⟨w, []⟩ :=
  isAdminOrMay_quiet username realm _ _ w

@[simp] theorem mayBrowseQueue_quiet (username : Str) (realm : Int) (w : World β) :
    mayBrowseQueue username realm ⟨w, []⟩ =
      .ok (browsesQueues (w.realms realm) username) ⟨w, []⟩ :=
  isAdminOrMay_quiet username realm _ _ w

@[simp] theorem mayDeleteQueue_quiet (username : Str) (realm : Int) (w : World β) :
    mayDeleteQueue username realm ⟨w, []⟩ =
      .ok (deletesQueues (w.realms realm) username) ⟨w, []⟩ :=
  isAdminOrMay_quiet username realm _ _ w

@[simp] theorem isOwnAdminOrMay_quiet (username : Str) (realm : Int) (own : Bool)
    (resourceId permission : Str) (w : World β) :
    isOwnAdminOrMay username realm own resourceId permission ⟨w, []⟩ =
      .ok (ownAdminOrMay (w.realms realm) username own resourceId permission) ⟨w, []⟩ := by
  have hand : shortAnd (isAdminUser username realm) (pure own) ⟨w, []⟩ =
      .ok (isAdmin (w.realms realm) username && own) ⟨w, []⟩ := by
    rw [shortAnd_quiet (isAdminUser_quiet ..)]
    cases isAdmin (w.realms realm) username <;> rfl
  rw [isOwnAdminOrMay, shortOr_quiet hand, isUserAuthorized_quiet, ownAdminOrMay]
  cases (isAdmin (w.realms realm) username && own) <;> rfl

theorem lastWrite_grantWrites (queueID : Str) (actions roles : List Str) (cell : Cell) :
    lastWrite cell (grantWrites queueID actions roles) =
      if cell.resourceId = queueID ∧ cell.action ∈ actions ∧ cell.role ∈ roles then some true
      else none := by
  have hrole : ∀ role, lastWrite cell (actions.map fun action =>
      ((⟨role, queueID, action⟩ : Cell), true)) =
      if role = cell.role ∧ cell.resourceId = queueID ∧ cell.action ∈ actions then some true
      else none := by
    intro role
    rw [lastWrite, lastSome_of_const true (fun write hwrite => by
      obtain ⟨action, -, rfl⟩ := List.mem_map.1 hwrite
      rfl)]
    refine if_congr ?_ rfl rfl
    constructor
    · rintro ⟨write, hwrite, rfl⟩
      obtain ⟨action, haction, rfl⟩ := List.mem_map.1 hwrite
      exact ⟨rfl, rfl, haction⟩
    · rintro ⟨rfl, rfl, haction⟩
      exact ⟨_, List.mem_map.2 ⟨cell.action, haction, rfl⟩, rfl⟩
  rw [grantWrites, lastWrite_flatMap, lastSome_congr fun role _ => hrole role, lastSome_const]
  refine if_congr ?_ rfl rfl
  constructor
  · rintro ⟨role, hmem, rfl, hid, haction⟩
    exact ⟨hid, haction, hmem⟩
  · rintro ⟨hid, haction, hmem⟩
    exact ⟨cell.role, hmem, rfl, hid, haction⟩

theorem authorizeActions_quiet (realm : Int) (role queueID : Str) (actions : List Str)
    (w : World β) : forEach (authorizeRole realm role queueID) actions ⟨w, []⟩ =
      .ok () ⟨w.setCells realm (actions.map fun action => (⟨role, queueID, action⟩, true)),
        []⟩ := by
  have h := forEach_quiet (f := (authorizeRole realm role queueID : Str → Carbon β Unit))
    (fun _ _ => rfl) actions w
  rw [h, World.setCells, List.foldl_map]

theorem authorizeRoles_quiet (realm : Int) (queueID : Str) (actions roleNames : List Str)
    (w : World β) : authorizeRoles realm queueID actions roleNames ⟨w, []⟩ =
      .ok () ⟨w.setCells realm
        (grantWrites queueID actions (grantees (w.realms realm) roleNames)), []⟩ := by
  induction roleNames generalizing w with
  | nil => rfl
  | cons role roleNames ih =>
    unfold authorizeRoles at ih ⊢
    rw [forEach, bind_apply]
    cases heveryone : equalsIgnoreCase role ROLE_EVERY_ONE with
    | true =>
      have hskip : authorizeExisting realm queueID actions role ⟨w, []⟩ = .ok () ⟨w, []⟩ := by
        simp [authorizeExisting, heveryone]
      simp only [hskip, ih]
      simp [grantees, heveryone]
    | false =>
      cases hexists : (w.realms realm).existingRole role with
      | false =>
        have hskip : authorizeExisting realm queueID actions role ⟨w, []⟩ =
            .ok () ⟨w, []⟩ := by
          simp [authorizeExisting, heveryone, isExistingRole, hexists]
        simp only [hskip, ih]
        simp [grantees, hexists]
      | true =>
        have hgrant : authorizeExisting realm queueID actions role ⟨w, []⟩ =
            .ok () ⟨w.setCells realm
              (actions.map fun action => (⟨role, queueID, action⟩, true)), []⟩ := by
          simp [authorizeExisting, heveryone, isExistingRole, hexists, authorizeActions_quiet]
        simp only [hgrant, ih, setCells_append]
        simp [grantees, grantWrites, heveryone, hexists]

section
variable {username : Str} {realm : Int} {properties : ObjectProperties} {w : World β}

theorem handleConsumeQueue_quiet {name id : Str} (hname : properties.NAME = some name)
    (hid : getQueueID w.context (getRawQueueName name) = .ok id) :
    handleConsumeQueue username (some realm) properties ⟨w, []⟩ =
      .ok (if browsesQueues (w.realms realm) username ∧ ownAdminOrMay (w.realms realm) username
          (isOwnDomain w.context.tenantDomain (getRawQueueName name)) id CONSUME
        then .ALLOWED else .DENIED) ⟨w, []⟩ := by
  cases hmay : browsesQueues (w.realms realm) username <;>
    cases hown : ownAdminOrMay (w.realms realm) username
      (isOwnDomain w.context.tenantDomain (getRawQueueName name)) id CONSUME <;>
    simp [handleConsumeQueue, hname, throwIfNull, context, hid, hmay, hown]

theorem handleBindQueue_quiet {exchange name key id : Str}
    (hexchange : properties.NAME = some exchange)
    (hqueue : getRawExchangeName exchange = DEFAULT_EXCHANGE ∨
      getRawExchangeName exchange = DIRECT_EXCHANGE)
    (hname : properties.QUEUE_NAME = some name) (hkey : properties.ROUTING_KEY = some key)
    (hid : getQueueID w.context (getRawQueueName name) = .ok id) :
    handleBindQueue username (some realm) properties ⟨w, []⟩ =
      .ok (if ownAdminOrMay (w.realms realm) username
          (isOwnDomain w.context.tenantDomain (getRawQueueName name)) id CONSUME
        then .ALLOWED else .DENIED) ⟨w, []⟩ := by
  cases hown : ownAdminOrMay (w.realms realm) username
      (isOwnDomain w.context.tenantDomain (getRawQueueName name)) id CONSUME <;>
    simp [handleBindQueue, hexchange, hqueue, hname, hkey, throwIfNull, context, hid, hown]

theorem handlePublishToExchange_quiet {exchange key id : Str}
    (hexchange : properties.NAME = some exchange)
    (hqueue : getRawExchangeName exchange = DIRECT_EXCHANGE ∨
      getRawExchangeName exchange = DEFAULT_EXCHANGE)
    (hkey : properties.ROUTING_KEY = some key)
    (hid : getQueueID w.context (getRawRoutingKey key) = .ok id) :
    handlePublishToExchange username (some realm) properties ⟨w, []⟩ =
      .ok (if ownAdminOrMay (w.realms realm) username
          (isOwnDomain w.context.tenantDomain (getRawRoutingKey key)) id PUBLISH
        then .ALLOWED else .DENIED) ⟨w, []⟩ := by
  cases hown : ownAdminOrMay (w.realms realm) username
      (isOwnDomain w.context.tenantDomain (getRawRoutingKey key)) id PUBLISH <;>
    simp [handlePublishToExchange, hexchange, hqueue, hkey, throwIfNull, context, hid, hown]

theorem publishTo_allowed_iff {exchange : Str}
    (hqueue : getRawExchangeName exchange = DIRECT_EXCHANGE ∨
      getRawExchangeName exchange = DEFAULT_EXCHANGE) (queue : Option Str) (key : Str) :
    handlePublishToExchange username (some realm) ⟨some exchange, queue, some key⟩ ⟨w, []⟩ =
        .ok .ALLOWED ⟨w, []⟩ ↔
      ∃ id, getQueueID w.context (getRawRoutingKey key) = .ok id ∧
        ownAdminOrMay (w.realms realm) username
          (isOwnDomain w.context.tenantDomain (getRawRoutingKey key)) id PUBLISH = true := by
  cases hid : getQueueID w.context (getRawRoutingKey key) with
  | error e =>
    simp [handlePublishToExchange, hqueue, throwIfNull, context, hid]
  | ok id =>
    rw [handlePublishToExchange_quiet rfl hqueue rfl hid]
    cases hown : ownAdminOrMay (w.realms realm) username
      (isOwnDomain w.context.tenantDomain (getRawRoutingKey key)) id PUBLISH <;> simp [hown]

theorem bindTo_allowed_iff {exchange : Str}
    (hqueue : getRawExchangeName exchange = DEFAULT_EXCHANGE ∨
      getRawExchangeName exchange = DIRECT_EXCHANGE) (name key : Str) :
    handleBindQueue username (some realm) ⟨some exchange, some name, some key⟩ ⟨w, []⟩ =
        .ok .ALLOWED ⟨w, []⟩ ↔
      ∃ id, getQueueID w.context (getRawQueueName name) = .ok id ∧
        ownAdminOrMay (w.realms realm) username
          (isOwnDomain w.context.tenantDomain (getRawQueueName name)) id CONSUME = true := by
  cases hid : getQueueID w.context (getRawQueueName name) with
  | error e =>
    simp [handleBindQueue, hqueue, throwIfNull, context, hid]
  | ok id =>
    rw [handleBindQueue_quiet rfl hqueue rfl rfl hid]
    cases hown : ownAdminOrMay (w.realms realm) username
      (isOwnDomain w.context.tenantDomain (getRawQueueName name)) id CONSUME <;> simp [hown]

theorem publish_allowed_iff (queue : Option Str) (key : Str) :
    handlePublishToExchange username (some realm) ⟨some DIRECT_EXCHANGE, queue, some key⟩
        ⟨w, []⟩ = .ok .ALLOWED ⟨w, []⟩ ↔
      ∃ id, getQueueID w.context (getRawRoutingKey key) = .ok id ∧
        ownAdminOrMay (w.realms realm) username
          (isOwnDomain w.context.tenantDomain (getRawRoutingKey key)) id PUBLISH = true :=
  publishTo_allowed_iff (.inl (by decide)) queue key

theorem bind_allowed_iff (name key : Str) :
    handleBindQueue username (some realm) ⟨some DIRECT_EXCHANGE, some name, some key⟩
        ⟨w, []⟩ = .ok .ALLOWED ⟨w, []⟩ ↔
      ∃ id, getQueueID w.context (getRawQueueName name) = .ok id ∧
        ownAdminOrMay (w.realms realm) username
          (isOwnDomain w.context.tenantDomain (getRawQueueName name)) id CONSUME = true :=
  bindTo_allowed_iff (.inr (by decide)) name key

theorem handleCreateQueue_refused (hmay : addsQueues (w.realms realm) username = false) :
    handleCreateQueue username (some realm) properties ⟨w, []⟩ = .ok .DENIED ⟨w, []⟩ := by
  simp [handleCreateQueue, hmay]

theorem handleBindQueue_topic {name key : Str} (hexchange : properties.NAME = some TOPIC_EXCHANGE)
    (hname : properties.QUEUE_NAME = some name) (hkey : properties.ROUTING_KEY = some key) :
    handleBindQueue username (some realm) properties ⟨w, []⟩ =
      if ownAdminOrMay (w.realms realm) username
          (isOwnDomain w.context.tenantDomain (getRawQueueName name) ||
            isTopicSubscriberQueue (getRawQueueName name))
          (getTopicID (getRawRoutingKey key)) SUBSCRIBE then
        .ok .ALLOWED ⟨final (RegistryClient.createSubscription
          (replaceChar '@' AT_REPLACE_CHAR (getRawRoutingKey key))
          (replaceChar '@' AT_REPLACE_CHAR (getRawQueueName name)) username) w, []⟩
      else .ok .DENIED ⟨w, []⟩ := by
  have hraw : getRawExchangeName TOPIC_EXCHANGE = TOPIC_EXCHANGE := by decide
  have hother : ¬(TOPIC_EXCHANGE = DEFAULT_EXCHANGE ∨ TOPIC_EXCHANGE = DIRECT_EXCHANGE) := by
    decide
  cases hown : ownAdminOrMay (w.realms realm) username
      (isOwnDomain w.context.tenantDomain (getRawQueueName name) ||
        isTopicSubscriberQueue (getRawQueueName name))
      (getTopicID (getRawRoutingKey key)) SUBSCRIBE <;>
    simp [handleBindQueue, hexchange, hraw, hother, hname, hkey, throwIfNull, context, hown,
      final, RegistryClient.createSubscription_quiet]

def AllowsBinding (w : World β) (username : Str) (realm : Int) (properties : ObjectProperties) :
    Prop :=
  ∃ exchange name key, properties.NAME = some exchange ∧ properties.QUEUE_NAME = some name ∧
    properties.ROUTING_KEY = some key ∧
    ((getRawExchangeName exchange = DEFAULT_EXCHANGE ∨
        getRawExchangeName exchange = DIRECT_EXCHANGE) ∧
      (∃ id, getQueueID w.context (getRawQueueName name) = .ok id ∧
        ownAdminOrMay (w.realms realm) username
          (isOwnDomain w.context.tenantDomain (getRawQueueName name)) id CONSUME = true) ∨
      getRawExchangeName exchange = TOPIC_EXCHANGE ∧
        ownAdminOrMay (w.realms realm) username
          (isOwnDomain w.context.tenantDomain (getRawQueueName name) ||
            isTopicSubscriberQueue (getRawQueueName name))
          (getTopicID (getRawRoutingKey key)) SUBSCRIBE = true)

theorem getRawExchangeName_eq_topic {exchange : Str} :
    getRawExchangeName exchange = TOPIC_EXCHANGE ↔ exchange = TOPIC_EXCHANGE := by
  unfold getRawExchangeName
  split
  · rename_i hdefault
    rw [hdefault]
    decide
  · rfl

theorem handleBindQueue_allowed (h : AllowsBinding w username realm properties) :
    ∃ t, handleBindQueue username (some realm) properties ⟨w, []⟩ = .ok .ALLOWED t := by
  obtain ⟨exchange, name, key, hexchange, hname, hkey,
    ⟨hdirect, id, hid, hown⟩ | ⟨htopic, hown⟩⟩ := h
  · rw [handleBindQueue_quiet hexchange hdirect hname hkey hid, if_pos hown]
    exact ⟨_, rfl⟩
  · rw [getRawExchangeName_eq_topic] at htopic
    rw [handleBindQueue_topic (hexchange.trans (congrArg some htopic)) hname hkey, if_pos hown]
    exact ⟨_, rfl⟩

theorem handleUnbindQueue_topic {name key : Str}
    (hexchange : properties.NAME = some TOPIC_EXCHANGE)
    (hname : properties.QUEUE_NAME = some name) (hkey : properties.ROUTING_KEY = some key) :
    handleUnbindQueue properties ⟨w, []⟩ = .ok .ALLOWED
      ⟨final (RegistryClient.deleteSubscription (getRawRoutingKey key)
        (getRawQueueName name)) w, []⟩ := by
  have hraw : getRawExchangeName TOPIC_EXCHANGE = TOPIC_EXCHANGE := by decide
  simp [handleUnbindQueue, hexchange, hraw, hname, hkey, throwIfNull, final,
    RegistryClient.deleteSubscription_quiet]

end

/-- All that a create request can do: nothing, a registration alone, or a registration
followed by the grants. -/
inductive CreateOutcome (username : Str) (userRealm : Option Int) (properties : ObjectProperties)
    (w : World β) : EStateM.Result JavaException (Site JavaException (World β)) Result → Prop where
  | refused : CreateOutcome username userRealm properties w (.ok .DENIED ⟨w, []⟩)
  | failed (e : JavaException) : CreateOutcome username userRealm properties w (.error e ⟨w, []⟩)
  | foreign (id : Str) (entry : Collection) : CreateOutcome username userRealm properties w
      (.ok .DENIED ⟨w.putEntry w.context.ownTenant id entry, []⟩)
  | unnamed (e : JavaException) (id : Str) (entry : Collection) :
      CreateOutcome username userRealm properties w
        (.error e ⟨w.putEntry w.context.ownTenant id entry, []⟩)
  | granted (realm : Int) (name newID id : Str) (entry : Collection)
      (hrealm : userRealm = some realm) (hmay : addsQueues (w.realms realm) username = true)
      (hname : properties.NAME = some name)
      (hnew : getQueueID w.context (replaceChar '@' AT_REPLACE_CHAR (getRawQueueName name)) =
        .ok newID)
      (hcreated : RegistryClient.createQueue
        (replaceChar '@' AT_REPLACE_CHAR (getRawQueueName name)) username ⟨w, []⟩ =
          .ok () ⟨w.putEntry w.context.ownTenant newID entry, []⟩)
      (hid : getQueueID w.context (getRawQueueName name) = .ok id)
      (hown : (isOwnDomain w.context.tenantDomain (getRawQueueName name) ||
        isTopicSubscriberQueue (getRawQueueName name)) = true) :
      CreateOutcome username userRealm properties w (.ok .ALLOWED
        ⟨(w.putEntry w.context.ownTenant newID entry).setCells realm
          (grantWrites id [CONSUME, PUBLISH, PERMISSION_CHANGE_PERMISSION]
            (grantees (w.realms realm) ((w.realms realm).roleListOfUser username))), []⟩)

theorem handleCreateQueue_registered {username : Str} {realm : Int} {properties : ObjectProperties}
    {w : World β} {name newID id : Str} {entry : Collection}
    (hmay : addsQueues (w.realms realm) username = true) (hname : properties.NAME = some name)
    (hcreated : RegistryClient.createQueue
      (replaceChar '@' AT_REPLACE_CHAR (getRawQueueName name)) username ⟨w, []⟩ =
        .ok () ⟨w.putEntry w.context.ownTenant newID entry, []⟩)
    (hid : getQueueID w.context (getRawQueueName name) = .ok id) :
    handleCreateQueue username (some realm) properties ⟨w, []⟩ =
      if isOwnDomain w.context.tenantDomain (getRawQueueName name) ||
          isTopicSubscriberQueue (getRawQueueName name) then
        .ok .ALLOWED ⟨(w.putEntry w.context.ownTenant newID entry).setCells realm
          (grantWrites id [CONSUME, PUBLISH, PERMISSION_CHANGE_PERMISSION]
            (grantees (w.realms realm) ((w.realms realm).roleListOfUser username))), []⟩
      else .ok .DENIED ⟨w.putEntry w.context.ownTenant newID entry, []⟩ := by
  cases hown : (isOwnDomain w.context.tenantDomain (getRawQueueName name) ||
      isTopicSubscriberQueue (getRawQueueName name)) <;>
    simp only [handleCreateQueue, translate_apply, bind_apply, mayAddQueue_quiet, hmay, hname,
      throwIfNull, context, peek_apply, pure_apply, if_true, hcreated,
      putEntry_context, hid, orRaise_ok, hown, getRoleListOfUser, query_quiet, putEntry_realms,
      authorizeRoles_quiet, Bool.false_eq_true, if_false]

theorem handleCreateQueue_outcome (username : Str) (userRealm : Option Int)
    (properties : ObjectProperties) (w : World β) : CreateOutcome username userRealm properties w
      (handleCreateQueue username userRealm properties ⟨w, []⟩) := by
  cases userRealm with
  | none => exact .refused
  | some realm =>
    cases hmay : addsQueues (w.realms realm) username with
    | false =>
      rw [handleCreateQueue_refused hmay]
      exact .refused
    | true =>
      cases hname : properties.NAME with
      | none =>
        simp only [handleCreateQueue, translate_apply, bind_apply, mayAddQueue_quiet, hmay, hname,
          throwIfNull, context, peek_apply, raise_apply, if_true]
        exact .failed _
      | some name =>
        rcases RegistryClient.createQueue_cases
          (replaceChar '@' AT_REPLACE_CHAR (getRawQueueName name)) username w with
          ⟨e, hfailed⟩ | ⟨newID, entry, hnew, hcreated⟩
        · simp only [handleCreateQueue, translate_apply, bind_apply, mayAddQueue_quiet, hmay, hname,
            throwIfNull, context, peek_apply, pure_apply, if_true, hfailed]
          exact .failed _
        · cases hid : getQueueID w.context (getRawQueueName name) with
          | error e =>
            simp only [handleCreateQueue, translate_apply, bind_apply, mayAddQueue_quiet, hmay,
              hname, throwIfNull, context, peek_apply, pure_apply,
              if_true, hcreated, putEntry_context, hid, orRaise_error, raise_apply]
            exact .unnamed _ newID entry
          | ok id =>
            rw [handleCreateQueue_registered hmay hname hcreated hid]
            split
            · rename_i hown
              exact .granted realm name newID id entry rfl hmay hname hnew hcreated hid hown
            · exact .foreign newID entry

def grantedID (w : World β) (username : Str) (realm : Int) (properties : ObjectProperties) :
    Option Str :=
  match properties.NAME with
  | none => none
  | some name =>
    match RegistryClient.createQueue (replaceChar '@' AT_REPLACE_CHAR (getRawQueueName name))
        username ⟨w, []⟩, getQueueID w.context (getRawQueueName name) with
    | .ok _ _, .ok id =>
      if addsQueues (w.realms realm) username ∧
          (isOwnDomain w.context.tenantDomain (getRawQueueName name) ||
            isTopicSubscriberQueue (getRawQueueName name)) then some id
      else none
    | _, _ => none

theorem handleCreateQueue_granted {username : Str} {realm : Int} {properties : ObjectProperties}
    {w : World β} {id : Str} (h : grantedID w username realm properties = some id) :
    ∃ newID entry, handleCreateQueue username (some realm) properties ⟨w, []⟩ = .ok .ALLOWED
      ⟨(w.putEntry w.context.ownTenant newID entry).setCells realm
        (grantWrites id [CONSUME, PUBLISH, PERMISSION_CHANGE_PERMISSION]
          (grantees (w.realms realm) ((w.realms realm).roleListOfUser username))), []⟩ := by
  unfold grantedID at h
  cases hname : properties.NAME with
  | none =>
    rw [hname] at h
    cases h
  | some name =>
    simp only [hname] at h
    rcases RegistryClient.createQueue_cases
      (replaceChar '@' AT_REPLACE_CHAR (getRawQueueName name)) username w with
      ⟨e, hfailed⟩ | ⟨newID, entry, -, hcreated⟩
    · simp only [hfailed] at h
      cases h
    · simp only [hcreated] at h
      cases hid : getQueueID w.context (getRawQueueName name) with
      | error e =>
        rw [hid] at h
        cases h
      | ok id' =>
        simp only [hid] at h
        split at h
        · rename_i hguard
          cases h
          refine ⟨newID, entry, ?_⟩
          rw [handleCreateQueue_registered hguard.1 hname hcreated hid, if_pos hguard.2]
        · cases h

theorem handleCreateQueue_ungranted {username : Str} {realm : Int}
    {properties : ObjectProperties} {w : World β}
    (h : grantedID w username realm properties = none) :
    (final (handleCreateQueue username (some realm) properties) w).realms = w.realms ∧
      (final (handleCreateQueue username (some realm) properties) w).context = w.context := by
  have houtcome := handleCreateQueue_outcome username (some realm) properties w
  unfold final
  cases hresult : handleCreateQueue username (some realm) properties ⟨w, []⟩ with
  | error e t =>
    rw [hresult] at houtcome
    cases houtcome <;> exact ⟨rfl, rfl⟩
  | ok result t =>
    rw [hresult] at houtcome
    cases houtcome with
    | refused => exact ⟨rfl, rfl⟩
    | «foreign» id entry => exact ⟨rfl, rfl⟩
    | granted realm' name newID id entry hrealm hmay hname hnew hcreated hid hown =>
      cases hrealm
      simp only [grantedID, hname, hcreated, hid, hmay, hown, true_and, if_true] at h
      cases h

inductive DeleteOutcome (userRealm : Option Int) (username : Str) (properties : ObjectProperties)
    (w : World β) : EStateM.Result JavaException (Site JavaException (World β)) Result → Prop where
  | refused : DeleteOutcome userRealm username properties w (.ok .DENIED ⟨w, []⟩)
  | failed (e : JavaException) : DeleteOutcome userRealm username properties w (.error e ⟨w, []⟩)
  | released (realm : Int) (name id : Str) (hrealm : userRealm = some realm)
      (hmay : deletesQueues (w.realms realm) username = true)
      (hname : properties.NAME = some name)
      (hid : getQueueID w.context (getRawQueueName name) = .ok id) :
      DeleteOutcome userRealm username properties w
        (.ok .ALLOWED ⟨RegistryClient.releaseEntry w id, []⟩)

theorem handleDeleteQueue_named {username : Str} {realm : Int} {properties : ObjectProperties}
    {w : World β} {name : Str} (hmay : deletesQueues (w.realms realm) username = true)
    (hname : properties.NAME = some name) :
    handleDeleteQueue username (some realm) properties ⟨w, []⟩ =
      translate (asHandlerException [.registryClient, .userStore])
        (RegistryClient.deleteQueue (getRawQueueName name) >>= fun _ => pure .ALLOWED)
        ⟨w, []⟩ := by
  simp only [handleDeleteQueue, throwIfNull, translate_apply, bind_apply, mayDeleteQueue_quiet,
    hmay, pure_apply, hname, if_true]

theorem handleDeleteQueue_outcome (username : Str) (userRealm : Option Int)
    (properties : ObjectProperties) (w : World β) : DeleteOutcome userRealm username properties w
      (handleDeleteQueue username userRealm properties ⟨w, []⟩) := by
  cases userRealm with
  | none => exact .failed _
  | some realm =>
    cases hmay : deletesQueues (w.realms realm) username with
    | false =>
      simp only [handleDeleteQueue, throwIfNull, translate_apply, bind_apply, mayDeleteQueue_quiet,
        hmay, pure_apply, Bool.false_eq_true, if_false]
      exact .refused
    | true =>
      cases hname : properties.NAME with
      | none =>
        simp only [handleDeleteQueue, throwIfNull, translate_apply, bind_apply,
          mayDeleteQueue_quiet, hmay, pure_apply, hname, raise_apply, if_true]
        exact .failed _
      | some name =>
        rw [handleDeleteQueue_named hmay hname]
        cases hid : getQueueID w.context (getRawQueueName name) with
        | error e =>
          have hfailed : RegistryClient.deleteQueue (getRawQueueName name) ⟨w, []⟩ =
              .error (RegistryClient.asClientException e) ⟨w, []⟩ := by
            simp [RegistryClient.deleteQueue, getGovernanceSystemRegistry, context, hid]
          simp only [translate_apply, bind_apply, hfailed]
          exact .failed _
        | ok id =>
          rcases RegistryClient.deleteQueue_cases hid with hdone | ⟨e, hfailed, -⟩
          · simp only [translate_apply, bind_apply, hdone, pure_apply]
            exact .released realm name id rfl hmay hname hid
          · simp only [translate_apply, bind_apply, hfailed]
            exact .failed _

theorem keeps_authorizeRoles {I : World β → Prop} {realm : Int} {queueID : Str}
    {actions : List Str} (h : ∀ s role, ∀ action ∈ actions, I s →
      I (s.setCell realm ⟨role, queueID, action⟩ true)) (roleNames : List Str) :
    Keeps I (authorizeRoles realm queueID actions roleNames) := by
  refine keeps_forEach _ fun role _ => ?_
  unfold authorizeExisting
  split
  · refine keeps_bind (keeps_query _) fun _ => ?_
    split
    · exact keeps_forEach _ fun action haction => keeps_command fun s => h s role action haction
    · exact keeps_pure _
  · exact keeps_pure _

def adminWorld (context : CarbonContext) (broker : β) : World β :=
  { World.initial context broker with
    realms := fun _ => ⟨fun _ => [ADMIN_ROLE], fun _ => true, [ADMIN_ROLE], fun _ => false⟩ }

def superContext : CarbonContext :=
  ⟨SUPER_TENANT_ID, some SUPER_TENANT_DOMAIN_NAME, "admin".toList⟩

end CarbonMessaging.QpidAuthorizationHandler
