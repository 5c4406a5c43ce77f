import CarbonMessaging.QpidAuthorizationHandler
import CarbonMessaging.QueueManagementBeans

/-! The queue operations of the admin service. -/

namespace CarbonMessaging

open JavaLang FaultyCalls CellWrites CommonsUtil

/-- `Utils.getTenantBasedQueueName` -/
def getTenantBasedQueueName (context : CarbonContext) (queueName : Str) : Str :=
  match context.tenantDomain with
  | none => queueName
  | some tenantDomain =>
    if !contains queueName tenantDomain ∧ tenantDomain ≠ SUPER_TENANT_DOMAIN_NAME then
      tenantDomain ++ "/".toList ++ queueName
    else queueName

section
variable {context : CarbonContext} {domain queueName : Str}
  (hdomain : context.tenantDomain = some domain)
include hdomain

theorem tenantBasedQueueName_kept (h : contains queueName domain = true) :
    getTenantBasedQueueName context queueName = queueName := by
  simp [getTenantBasedQueueName, hdomain, h]

theorem tenantBasedQueueName_prefixed (hother : domain ≠ SUPER_TENANT_DOMAIN_NAME)
    (h : contains queueName domain = false) :
    getTenantBasedQueueName context queueName = domain ++ "/".toList ++ queueName := by
  simp [getTenantBasedQueueName, hdomain, h, hother]

end

structure QueueRolePermission where
  roleName : Str
  isAllowedToConsume : Bool
  isAllowedToPublish : Bool
  deriving DecidableEq

namespace QueueManagerServiceImpl

open QpidAuthorizationHandler (CONSUME PUBLISH authorizeExisting authorizeRoles grantees
  grantWrites)

variable {β : Type} (beans : BrokerBeans β)

def PERMISSION_CHANGE_PERMISSION : Str := "changePermission".toList
def MB_QUEUE_STORAGE_PATH : Str := "event/queues/jms".toList

def getLoggedInUserName (context : CarbonContext) : Str :=
  if context.tenantId ≠ SUPER_TENANT_ID then
    trim (context.username ++ "!".toList ++ context.tenantDomain.getD "null".toList)
  else trim context.username

/-- The text tests dereference the message of whatever was caught. -/
def asCreateQueueException (queueName : Str) (e : JavaException) : JavaException :=
  match e.message with
  | none => nullPointerException
  | some message =>
    if contains message "illegal characters".toList then
      ⟨.queueManager, some ("Error in creating the queue:".toList ++ queueName ++
        " contains one or more invalid characters! ".toList)⟩
    else if contains message "already exists".toList then
      ⟨.queueManager, some ("Queue with the name: ".toList ++ queueName ++
        " already exists!".toList)⟩
    else
      ⟨.queueManager, some ("Error in creating the queue: ".toList ++ queueName ++
        "! ".toList)⟩

def createQueue (queueName : Str) : Carbon β Unit :=
  translate (asCreateQueueException queueName) do
    let tenantBasedQueueName := getTenantBasedQueueName (← context) queueName
    let userName := getLoggedInUserName (← context)
    if !(← QueueManagementBeans.queueExists beans tenantBasedQueueName) then
      RegistryClient.createQueue tenantBasedQueueName userName
      QueueManagementBeans.createQueue beans tenantBasedQueueName userName
      let userRealm ← getTenantUserRealm (← context).ownTenant
      let queueID ← orRaise (getQueueID (← context) queueName)
      let roleNames ← getRoleListOfUser userRealm (← context).username
      authorizeRoles userRealm queueID [PERMISSION_CHANGE_PERMISSION] roleNames
    else
      raise ⟨.queueManager, some ("Queue with the name: ".toList ++ queueName ++
        " already exists!".toList)⟩

def deleteQueue (queueName : Str) : Carbon β Unit :=
  translate (fun e =>
      if e.kind = .registry then
        ⟨.queueManager, some ("Failed to delete queue: ".toList ++ queueName ++ " ".toList ++
          e.messageText)⟩
      else e) do
    let userRegistry ← getGovernanceSystemRegistry (← context).tenantId
    let resourcePath := MB_QUEUE_STORAGE_PATH ++ "/".toList ++ queueName
    if ← QueueManagementBeans.queueExists beans queueName then
      QueueManagementBeans.deleteQueue beans queueName
      registryDelete userRegistry resourcePath

def purgeMessagesOfQueue (queueName : Str) : Carbon β Unit :=
  translate (fun e => ⟨.other "java.lang.Exception".toList,
      some ("Failed to purge Queue :".toList ++ queueName ++ e.toString)⟩) do
    QueueManagementBeans.purgeMessagesFromQueue beans queueName

def notAlreadyExists (queueName : Str) : JavaException :=
  ⟨.queueManager, some ("Queue with the name: ".toList ++ queueName ++
    " not already exists!".toList)⟩

def canNotChange (loggedInUser queueName : Str) : JavaException :=
  ⟨.queueManager, some (" User ".toList ++ loggedInUser ++ " can not change".toList ++
    " the permissions of ".toList ++ queueName)⟩

def unable (action : Str) (e : JavaException) : JavaException :=
  if e.kind = .userStore then ⟨.queueManager, some (action ++ e.messageText)⟩ else e

def setPermission (realm : Int) (queueID : Str) (permission : QueueRolePermission) :
    Carbon β Unit := do
  if permission.isAllowedToConsume then authorizeRole realm permission.roleName queueID CONSUME
  else denyRole realm permission.roleName queueID CONSUME
  if permission.isAllowedToPublish then authorizeRole realm permission.roleName queueID PUBLISH
  else denyRole realm permission.roleName queueID PUBLISH

def updatePermission (queueName : Str) (queueRolePermissions : List QueueRolePermission) :
    Carbon β Unit := do
  let tenantBasedQueueName := getTenantBasedQueueName (← context) queueName
  if ← QueueManagementBeans.queueExists beans tenantBasedQueueName then
    let queueID ← orRaise (getQueueID (← context) queueName)
    let loggedInUser := (← context).username
    translate (unable "Unable to update permission of the queue ".toList) do
      let userRealm ← getTenantUserRealm (← context).ownTenant
      if !(← isUserAuthorized userRealm loggedInUser queueID PERMISSION_CHANGE_PERMISSION) then
        raise (canNotChange loggedInUser queueName)
      forEach (setPermission userRealm queueID) queueRolePermissions
  else raise (notAlreadyExists queueName)

/-- How `getQueueRolePermission` rewrites the name; `updatePermission` does not. -/
def withoutTenantPath (context : CarbonContext) (queueName : Str) : Str :=
  if context.tenantId ≤ 0 then queueName
  else removeAll (context.tenantDomain.getD "null".toList ++ "/".toList) queueName

def readPermission (realm : Int) (queueID role : Str) : Carbon β QueueRolePermission := do
  let consume ← isRoleAuthorized realm role queueID CONSUME
  let publish ← isRoleAuthorized realm role queueID PUBLISH
  pure ⟨role, consume, publish⟩

def getQueueRolePermission (queueName : Str) : Carbon β (List QueueRolePermission) := do
  let tenantBasedQueueName := getTenantBasedQueueName (← context) queueName
  if ← QueueManagementBeans.queueExists beans tenantBasedQueueName then
    let queueName := withoutTenantPath (← context) queueName
    let queueID ← orRaise (getQueueID (← context) queueName)
    translate (unable "Unable to retrieve permission of the queue ".toList) do
      let userRealm ← getTenantUserRealm (← context).ownTenant
      let adminRole ← query World.adminRoleName
      let roleNames ← getRoleNames userRealm
      let anonymousRole ← peek World.anonymousRoleName
      (roleNames.filter fun role => role ≠ adminRole ∧ role ≠ anonymousRole).mapM
        (readPermission userRealm queueID)
  else raise (notAlreadyExists queueName)

def permissionWrites (queueID : Str) (permissions : List QueueRolePermission) :
    List (Cell × Bool) :=
  permissions.flatMap fun permission =>
    [(⟨permission.roleName, queueID, CONSUME⟩, permission.isAllowedToConsume),
      (⟨permission.roleName, queueID, PUBLISH⟩, permission.isAllowedToPublish)]

def lastEntry (role : Str) (permissions : List QueueRolePermission) :
    Option QueueRolePermission :=
  lastSome (fun permission => if permission.roleName = role then some permission else none)
    permissions

/-- The id whose permissions `updatePermission` changes, once the broker knows the queue and the
caller may change them. -/
def changeableID (w : World β) (queueName : Str) : Option Str :=
  match beans.isQueueExists (getTenantBasedQueueName w.context queueName) w.broker,
      getQueueID w.context queueName with
  | .ok (some true) _, .ok queueID =>
    if (w.realms w.context.ownTenant).userAuthorized w.context.username queueID
        PERMISSION_CHANGE_PERMISSION then some queueID
    else none
  | _, _ => none

def reportedRoles (w : World β) : List Str :=
  (w.realms w.context.ownTenant).roleNames.filter fun role =>
    role ≠ w.adminRoleName ∧ role ≠ w.anonymousRoleName

def permissionOf (realm : UserRealm) (queueID role : Str) : QueueRolePermission :=
  ⟨role, realm.allowed ⟨role, queueID, CONSUME⟩, realm.allowed ⟨role, queueID, PUBLISH⟩⟩

theorem lastWrite_permissionWrites_consume (queueID role : Str)
    (permissions : List QueueRolePermission) :
    lastWrite ⟨role, queueID, CONSUME⟩ (permissionWrites queueID permissions) =
      (lastEntry role permissions).map QueueRolePermission.isAllowedToConsume := by
  rw [permissionWrites, lastWrite_flatMap, lastEntry, lastSome_map]
  refine lastSome_congr fun permission _ => ?_
  have hother : PUBLISH ≠ CONSUME := by decide
  by_cases hrole : permission.roleName = role <;> simp [lastWrite, lastSome, hrole, hother]

theorem lastWrite_permissionWrites_publish (queueID role : Str)
    (permissions : List QueueRolePermission) :
    lastWrite ⟨role, queueID, PUBLISH⟩ (permissionWrites queueID permissions) =
      (lastEntry role permissions).map QueueRolePermission.isAllowedToPublish := by
  rw [permissionWrites, lastWrite_flatMap, lastEntry, lastSome_map]
  refine lastSome_congr fun permission _ => ?_
  have hother : CONSUME ≠ PUBLISH := by decide
  by_cases hrole : permission.roleName = role <;> simp [lastWrite, lastSome, hrole, hother]

theorem lastWrite_permissionWrites_other {queueID : Str} {cell : Cell}
    (h : cell.resourceId ≠ queueID) (permissions : List QueueRolePermission) :
    lastWrite cell (permissionWrites queueID permissions) = none := by
  rw [permissionWrites, lastWrite_flatMap, lastSome_eq_none_iff]
  intro permission _
  have hcell : ∀ action, (⟨permission.roleName, queueID, action⟩ : Cell) ≠ cell := by
    rintro action rfl
    exact h rfl
  simp [lastWrite, lastSome, hcell]

theorem setPermission_quiet (realm : Int) (queueID : Str) (permission : QueueRolePermission)
    (w : World β) : setPermission realm queueID permission ⟨w, []⟩ =
      .ok () ⟨w.setCells realm
        [(⟨permission.roleName, queueID, CONSUME⟩, permission.isAllowedToConsume),
          (⟨permission.roleName, queueID, PUBLISH⟩, permission.isAllowedToPublish)], []⟩ := by
  cases hconsume : permission.isAllowedToConsume <;>
    cases hpublish : permission.isAllowedToPublish <;>
    simp [setPermission, hconsume, hpublish, authorizeRole, denyRole, World.setCells]

theorem setPermissions_quiet (realm : Int) (queueID : Str)
    (permissions : List QueueRolePermission) (w : World β) :
    forEach (setPermission realm queueID) permissions ⟨w, []⟩ =
      .ok () ⟨w.setCells realm (permissionWrites queueID permissions), []⟩ := by
  rw [forEach_quiet (setPermission_quiet realm queueID), foldl_setCells]
  rfl

theorem queueExists_quiet (queueName : Str) (w : World β) :
    QueueManagementBeans.queueExists beans queueName ⟨w, []⟩ =
      match beans.isQueueExists queueName w.broker with
      | .ok result b => .ok (result.getD false) ⟨{ w with broker := b }, []⟩
      | .error e b => .error (if e.kind = .jmx then .wrap .queueManager e else e)
          ⟨{ w with broker := b }, []⟩ := by
  cases h : beans.isQueueExists queueName w.broker <;>
    simp [QueueManagementBeans.queueExists, invoke, h]

theorem updatePermission_cases (queueName : Str) (permissions : List QueueRolePermission)
    (w : World β) :
    (∃ queueID b, changeableID beans w queueName = some queueID ∧
      updatePermission beans queueName permissions ⟨w, []⟩ =
        .ok () ⟨({ w with broker := b } : World β).setCells w.context.ownTenant
          (permissionWrites queueID permissions), []⟩) ∨
    (∃ e b, changeableID beans w queueName = none ∧
      updatePermission beans queueName permissions ⟨w, []⟩ =
        .error e ⟨{ w with broker := b }, []⟩) := by
  cases hexists : beans.isQueueExists (getTenantBasedQueueName w.context queueName)
      w.broker with
  | error e b =>
    refine .inr ⟨if e.kind = .jmx then .wrap .queueManager e else e, b, ?_, ?_⟩
    · simp only [changeableID, hexists]
    · simp [updatePermission, context, queueExists_quiet, hexists]
  | ok result b =>
    by_cases htrue : result = some true
    · subst htrue
      cases hid : getQueueID w.context queueName with
      | error e =>
        refine .inr ⟨e, b, ?_, ?_⟩
        · simp only [changeableID, hexists, hid]
        · simp [updatePermission, context, queueExists_quiet, hexists, hid]
      | ok queueID =>
        cases hmay : (w.realms w.context.ownTenant).userAuthorized w.context.username queueID
            PERMISSION_CHANGE_PERMISSION with
        | false =>
          refine .inr ⟨canNotChange w.context.username queueName, b, ?_, ?_⟩
          · simp [changeableID, hexists, hid, hmay]
          · simp [updatePermission, context, queueExists_quiet, hexists, hid, hmay,
              getTenantUserRealm, unable, canNotChange]
        | true =>
          refine .inl ⟨queueID, b, ?_, ?_⟩
          · simp [changeableID, hexists, hid, hmay]
          · simp [updatePermission, context, queueExists_quiet, hexists, hid, hmay,
              getTenantUserRealm, setPermissions_quiet]
    · have hfalse : result.getD false = false := by
        rcases result with _ | _ | _
        · rfl
        · rfl
        · exact absurd rfl htrue
      refine .inr ⟨notAlreadyExists queueName, b, ?_, ?_⟩
      · unfold changeableID
        split
        · rename_i hsome _
          rw [hexists] at hsome
          cases hsome
          exact absurd rfl htrue
        · rfl
      · simp [updatePermission, context, queueExists_quiet, hexists, hfalse]

theorem readPermissions_quiet (realm : Int) (queueID : Str) (roles : List Str) (w : World β) :
    roles.mapM (readPermission realm queueID) ⟨w, []⟩ =
      .ok (roles.map (permissionOf (w.realms realm) queueID)) ⟨w, []⟩ := by
  induction roles with
  | nil => rfl
  | cons role roles ih =>
    have hread : readPermission realm queueID role ⟨w, []⟩ =
        .ok (permissionOf (w.realms realm) queueID role) ⟨w, []⟩ := rfl
    simp only [List.mapM_cons, bind_apply, hread, ih, pure_apply, List.map_cons]

theorem getQueueRolePermission_cases (queueName : Str) (w : World β) :
    (∃ queueID b, getQueueID w.context (withoutTenantPath w.context queueName) = .ok queueID ∧
      getQueueRolePermission beans queueName ⟨w, []⟩ =
        .ok ((reportedRoles w).map (permissionOf (w.realms w.context.ownTenant) queueID))
          ⟨{ w with broker := b }, []⟩) ∨
    (∃ e b, getQueueRolePermission beans queueName ⟨w, []⟩ =
      .error e ⟨{ w with broker := b }, []⟩) := by
  cases hexists : beans.isQueueExists (getTenantBasedQueueName w.context queueName)
      w.broker with
  | error e b =>
    refine .inr ⟨if e.kind = .jmx then .wrap .queueManager e else e, b, ?_⟩
    simp [getQueueRolePermission, context, queueExists_quiet, hexists]
  | ok result b =>
    cases hresult : result.getD false with
    | false =>
      refine .inr ⟨notAlreadyExists queueName, b, ?_⟩
      simp [getQueueRolePermission, context, queueExists_quiet, hexists, hresult]
    | true =>
      cases hid : getQueueID w.context (withoutTenantPath w.context queueName) with
      | error e =>
        refine .inr ⟨e, b, ?_⟩
        simp [getQueueRolePermission, context, queueExists_quiet, hexists, hresult, hid]
      | ok queueID =>
        refine .inl ⟨queueID, b, rfl, ?_⟩
        simp only [getQueueRolePermission, context, queueExists_quiet, hexists, hresult, hid,
          getTenantUserRealm, getRoleNames, bind_apply, peek_apply, if_true, orRaise_ok,
          pure_apply, translate_apply, query_quiet, readPermissions_quiet]
        rfl

end QueueManagerServiceImpl

end CarbonMessaging
