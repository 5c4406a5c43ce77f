import CarbonMessaging.PermissionAgreement
import CarbonMessaging.PermissionHistory

/-! What `updatePermission` leaves alone: a call that the broker and the caller's rights allow
writes the consume and publish cells of the named roles on one resource, again and in any order
to the same effect, and a refused call writes nothing. -/

namespace CarbonMessaging.PermissionUpdates

open JavaLang FaultyCalls CellWrites CommonsUtil QpidAuthorizationHandler
open QueueManagerServiceImpl hiding PERMISSION_CHANGE_PERMISSION
open PermissionHistory (allowed IsQueueRight)

variable {β : Type} {beans : BrokerBeans β} {w : World β} {queueName queueID : Str}

def Unchanged (w w' : World β) : Prop := w' = { w with broker := w'.broker }

/-- Only consume and publish cells of named roles on one resource differ, in the tenant's own
realm, and there every named role has what its last entry says. -/
structure ChangesOnly (w w' : World β) (queueID : Str)
    (permissions : List QueueRolePermission) : Prop where
  frame : w' = { w with
    broker := w'.broker
    realms := Function.update w.realms w.context.ownTenant
      { w.realms w.context.ownTenant with allowed := allowed w' } }
  cells : ∀ cell, allowed w' cell ≠ allowed w cell →
    cell.resourceId = queueID ∧ IsQueueRight cell ∧
      ∃ permission ∈ permissions, permission.roleName = cell.role
  written : ∀ role entry, lastEntry role permissions = some entry →
    permissionOf (w'.realms w.context.ownTenant) queueID role = entry

def DistinctRoles (permissions : List QueueRolePermission) : Prop :=
  (permissions.map QueueRolePermission.roleName).Nodup

theorem allowed_setCells (b : β) (writes : List (Cell × Bool)) (cell : Cell) :
    allowed (({ w with broker := b } : World β).setCells w.context.ownTenant writes) cell =
      (lastWrite cell writes).getD (allowed w cell) := by
  rw [allowed, setCells_context]
  exact setCells_allowed _ _ writes cell

theorem lastWrite_permissionWrites_some {cell : Cell} {value : Bool}
    {permissions : List QueueRolePermission}
    (h : lastWrite cell (permissionWrites queueID permissions) = some value) :
    cell.resourceId = queueID ∧ IsQueueRight cell ∧
      ∃ permission ∈ permissions, permission.roleName = cell.role := by
  obtain ⟨before, write, later, hwrites, hwrite, -⟩ := lastSome_eq_some_iff.1 h
  have hmem : write ∈ permissionWrites queueID permissions := by simp [hwrites]
  obtain ⟨permission, hpermission, hwrite'⟩ := List.mem_flatMap.1 hmem
  have hcell : write.1 = cell := by
    by_contra hne
    rw [if_neg hne] at hwrite
    cases hwrite
  subst hcell
  rcases List.mem_pair.1 hwrite' with rfl | rfl
  · exact ⟨rfl, .inl rfl, permission, hpermission, rfl⟩
  · exact ⟨rfl, .inr rfl, permission, hpermission, rfl⟩

theorem changesOnly_setCells (b : β) (queueID : Str) (permissions : List QueueRolePermission) :
    ChangesOnly w (({ w with broker := b } : World β).setCells w.context.ownTenant
      (permissionWrites queueID permissions)) queueID permissions where
  frame := by
    have hallowed : allowed (({ w with broker := b } : World β).setCells w.context.ownTenant
        (permissionWrites queueID permissions)) =
        applyWrites (w.realms w.context.ownTenant).allowed
          (permissionWrites queueID permissions) := by
      funext cell
      rw [allowed_setCells, applyWrites_apply]
      rfl
    rw [hallowed, setCells_eq]
  cells cell hne := by
    rw [allowed_setCells] at hne
    cases hlast : lastWrite cell (permissionWrites queueID permissions) with
    | none =>
      rw [hlast] at hne
      exact absurd rfl hne
    | some value => exact lastWrite_permissionWrites_some hlast
  written role entry hentry := by
    obtain rfl := PermissionAgreement.lastEntry_roleName hentry
    rw [permissionOf, setCells_allowed, setCells_allowed, lastWrite_permissionWrites_consume,
      lastWrite_permissionWrites_publish, hentry]
    rfl

theorem setCells_again {w' : World β} {tenant : Int} {writes : List (Cell × Bool)}
    (hw' : w' = w.setCells tenant writes) (b : β) :
    ({ w' with broker := b } : World β).setCells tenant writes = { w' with broker := b } := by
  rw [setCells_eq, hw', setCells_eq]
  simp [applyWrites_idem]

theorem lastWrite_permissionWrites_perm {permissions permissions' : List QueueRolePermission}
    (hperm : permissions.Perm permissions') (hdistinct : DistinctRoles permissions)
    (queueID : Str) (cell : Cell) :
    lastWrite cell (permissionWrites queueID permissions) =
      lastWrite cell (permissionWrites queueID permissions') := by
  rw [permissionWrites, permissionWrites, lastWrite_flatMap, lastWrite_flatMap]
  refine lastSome_perm hperm ((List.pairwise_map.1 hdistinct).imp fun {p q} hroles => ?_)
  have hunnamed : ∀ permission : QueueRolePermission, permission.roleName ≠ cell.role →
      lastWrite cell [((⟨permission.roleName, queueID, CONSUME⟩ : Cell),
          permission.isAllowedToConsume),
        (⟨permission.roleName, queueID, PUBLISH⟩, permission.isAllowedToPublish)] = none := by
    intro permission hrole
    have hcell : ∀ action, (⟨permission.roleName, queueID, action⟩ : Cell) ≠ cell := by
      rintro action rfl
      exact hrole rfl
    simp [lastWrite, lastSome, hcell]
  by_cases hp : p.roleName = cell.role
  · exact .inr (hunnamed q fun hq => hroles (hp.trans hq.symm))
  · exact .inl (hunnamed p hp)

theorem setCells_perm {permissions permissions' : List QueueRolePermission}
    (hperm : permissions.Perm permissions') (hdistinct : DistinctRoles permissions)
    (tenant : Int) (queueID : Str) (w : World β) :
    w.setCells tenant (permissionWrites queueID permissions') =
      w.setCells tenant (permissionWrites queueID permissions) := by
  have hwrites : applyWrites (w.realms tenant).allowed (permissionWrites queueID permissions') =
      applyWrites (w.realms tenant).allowed (permissionWrites queueID permissions) := by
    funext cell
    rw [applyWrites_apply, applyWrites_apply,
      lastWrite_permissionWrites_perm hperm hdistinct queueID cell]
  rw [setCells_eq, setCells_eq, hwrites]

def HasQueue (beans : BrokerBeans β) (w : World β) (queueName : Str) : Prop :=
  ∃ b, beans.isQueueExists (getTenantBasedQueueName w.context queueName) w.broker =
    .ok (some true) b

def MayChange (w : World β) (queueID : Str) : Prop :=
  (w.realms w.context.ownTenant).userAuthorized w.context.username queueID
    QueueManagerServiceImpl.PERMISSION_CHANGE_PERMISSION = true

theorem updatePermission_allowed (hid : getQueueID w.context queueName = .ok queueID)
    (hqueue : HasQueue beans w queueName) (hmay : MayChange w queueID) :
    ∃ b, ∀ permissions, updatePermission beans queueName permissions ⟨w, []⟩ =
      .ok () ⟨({ w with broker := b } : World β).setCells w.context.ownTenant
        (permissionWrites queueID permissions), []⟩ := by
  obtain ⟨b, hexists⟩ := hqueue
  rw [MayChange] at hmay
  refine ⟨b, fun permissions => ?_⟩
  simp [updatePermission, context, queueExists_quiet, hexists, hid, hmay, getTenantUserRealm,
    setPermissions_quiet]

/-- A refusal comes before the first write; unless the broker itself raised something other than
a JMX exception, it is a QueueManagerException. -/
theorem updatePermission_refused (hid : getQueueID w.context queueName = .ok queueID)
    (hrefused : ¬(HasQueue beans w queueName ∧ MayChange w queueID)) :
    ∃ e b, (∀ permissions, updatePermission beans queueName permissions ⟨w, []⟩ =
        .error e ⟨{ w with broker := b }, []⟩) ∧
      ((∀ failure b, beans.isQueueExists (getTenantBasedQueueName w.context queueName) w.broker =
        .error failure b → failure.kind = .jmx) → e.kind = .queueManager) := by
  cases hexists : beans.isQueueExists (getTenantBasedQueueName w.context queueName)
      w.broker with
  | error e b =>
    refine ⟨if e.kind = .jmx then .wrap .queueManager e else e, b, fun permissions => ?_,
      fun hjmx => ?_⟩
    · simp [updatePermission, context, queueExists_quiet, hexists]
    · rw [if_pos (hjmx e b rfl)]
      rfl
  | ok answer b =>
    by_cases htrue : answer = some true
    · subst htrue
      have hmay : (w.realms w.context.ownTenant).userAuthorized w.context.username queueID
          QueueManagerServiceImpl.PERMISSION_CHANGE_PERMISSION = false :=
        Bool.eq_false_iff.2 fun hmay => hrefused ⟨⟨b, hexists⟩, hmay⟩
      refine ⟨canNotChange w.context.username queueName, b, fun permissions => ?_, fun _ => rfl⟩
      simp [updatePermission, context, queueExists_quiet, hexists, hid, hmay, getTenantUserRealm,
        unable, canNotChange]
    · have hfalse : answer.getD false = false := by
        rcases answer with _ | _ | _
        · rfl
        · rfl
        · exact absurd rfl htrue
      refine ⟨notAlreadyExists queueName, b, fun permissions => ?_, fun _ => rfl⟩
      simp [updatePermission, context, queueExists_quiet, hexists, hfalse]

theorem updatePermission_again (hid : getQueueID w.context queueName = .ok queueID)
    (hmay : MayChange w queueID) (b : β) (permissions : List QueueRolePermission)
    {w' : World β} (hw' : w' = ({ w with broker := b } : World β).setCells w.context.ownTenant
      (permissionWrites queueID permissions)) :
    Unchanged w' (final (updatePermission beans queueName permissions) w') ∧
      (HasQueue beans w' queueName →
        ∃ w'', updatePermission beans queueName permissions ⟨w', []⟩ = .ok () ⟨w'', []⟩) := by
  have hcontext : w'.context = w.context := by rw [hw', setCells_context]
  have hid' : getQueueID w'.context queueName = .ok queueID := by rw [hcontext]; exact hid
  have hchange : ∀ role, (w'.realms w.context.ownTenant).allowed
      ⟨role, queueID, QueueManagerServiceImpl.PERMISSION_CHANGE_PERMISSION⟩ =
      (w.realms w.context.ownTenant).allowed
        ⟨role, queueID, QueueManagerServiceImpl.PERMISSION_CHANGE_PERMISSION⟩ := by
    intro role
    have hcells := (changesOnly_setCells (w := w) b queueID permissions).cells
      ⟨role, queueID, QueueManagerServiceImpl.PERMISSION_CHANGE_PERMISSION⟩
    rw [← hw'] at hcells
    by_contra hne
    refine PermissionHistory.not_isQueueRight_change rfl (hcells ?_).2.1
    rw [allowed, hcontext]
    exact hne
  have hmay' : MayChange w' queueID := by
    rw [MayChange, UserRealm.userAuthorized, hcontext, funext hchange, hw',
      setCells_roleListOfUser]
    exact hmay
  by_cases hqueue : HasQueue beans w' queueName
  · obtain ⟨b', hresult⟩ := updatePermission_allowed hid' hqueue hmay'
    refine ⟨?_, fun _ => ⟨_, hresult permissions⟩⟩
    have hagain : w' = ({ w with broker := b } : World β).setCells w'.context.ownTenant
        (permissionWrites queueID permissions) := by rw [hcontext]; exact hw'
    rw [final, hresult, setCells_again hagain]
    rfl
  · obtain ⟨e, b', hresult, -⟩ := updatePermission_refused hid' fun h => hqueue h.1
    refine ⟨?_, fun h => absurd h hqueue⟩
    rw [final, hresult]
    rfl

/-- Permission updates are confined, idempotent and order-free. -/
theorem updatePermission_confined (beans : BrokerBeans β) (w : World β) (queueName queueID : Str)
    (hid : getQueueID w.context queueName = .ok queueID)
    (permissions : List QueueRolePermission) :
    (HasQueue beans w queueName → MayChange w queueID →
      ∃ w', updatePermission beans queueName permissions ⟨w, []⟩ = .ok () ⟨w', []⟩ ∧
        ChangesOnly w w' queueID permissions ∧
        Unchanged w' (final (updatePermission beans queueName permissions) w') ∧
        (HasQueue beans w' queueName →
          ∃ w'', updatePermission beans queueName permissions ⟨w', []⟩ = .ok () ⟨w'', []⟩)) ∧
    (DistinctRoles permissions → ∀ permissions', permissions.Perm permissions' →
      updatePermission beans queueName permissions' ⟨w, []⟩ =
        updatePermission beans queueName permissions ⟨w, []⟩) ∧
    (¬(HasQueue beans w queueName ∧ MayChange w queueID) →
      ∃ e w', updatePermission beans queueName permissions ⟨w, []⟩ = .error e ⟨w', []⟩ ∧
        Unchanged w w' ∧
        ((∀ failure b, beans.isQueueExists (getTenantBasedQueueName w.context queueName)
          w.broker = .error failure b → failure.kind = .jmx) → e.kind = .queueManager)) := by
  refine ⟨fun hqueue hmay => ?_, fun hdistinct permissions' hperm => ?_, fun hrefused => ?_⟩
  · obtain ⟨b, hresult⟩ := updatePermission_allowed hid hqueue hmay
    exact ⟨_, hresult permissions, changesOnly_setCells b queueID permissions,
      updatePermission_again hid hmay b permissions rfl⟩
  · by_cases hallowed : HasQueue beans w queueName ∧ MayChange w queueID
    · obtain ⟨b, hresult⟩ := updatePermission_allowed hid hallowed.1 hallowed.2
      rw [hresult, hresult, setCells_perm hperm hdistinct]
    · obtain ⟨e, b, hresult, -⟩ := updatePermission_refused hid hallowed
      rw [hresult, hresult]
  · obtain ⟨e, b, hresult, hkind⟩ := updatePermission_refused hid hrefused
    exact ⟨e, _, hresult permissions, rfl, hkind⟩

theorem updatePermission_confined_plain : ∃ w',
    updatePermission fullBroker "q".toList [PermissionAgreement.allowAll]
      ⟨PermissionAgreement.roleWorld "foo".toList, []⟩ = .ok () ⟨w', []⟩ ∧
    ChangesOnly (PermissionAgreement.roleWorld "foo".toList) w' (queueResource "q".toList)
      [PermissionAgreement.allowAll] := by
  obtain ⟨w', hresult, honly, -⟩ := (updatePermission_confined fullBroker
    (PermissionAgreement.roleWorld "foo".toList) "q".toList (queueResource "q".toList) rfl
    [PermissionAgreement.allowAll]).1 ⟨(), rfl⟩ rfl
  exact ⟨w', hresult, honly⟩

end CarbonMessaging.PermissionUpdates
