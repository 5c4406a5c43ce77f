import CarbonMessaging.CellHistory
import CarbonMessaging.QueueManagerServiceImpl

/-! Runs of requests that may change who consumes and publishes: the broker's creations and
deletions and the admin service's operations, by any users at any time, from one tenant. -/

namespace CarbonMessaging.PermissionHistory

open JavaLang FaultyCalls CellWrites CellHistory CommonsUtil QpidAuthorizationHandler
open QueueManagerServiceImpl (changeableID permissionWrites lastEntry)

variable {β : Type} (beans : BrokerBeans β)

inductive Request where
  | handleCreateQueue (properties : ObjectProperties)
  | handleDeleteQueue (properties : ObjectProperties)
  | createQueue (queueName : Str)
  | updatePermission (queueName : Str) (queueRolePermissions : List QueueRolePermission)
  | deleteQueue (queueName : Str)

structure Call where
  user : Str
  now : Str
  request : Request

def Call.enter (call : Call) (w : World β) : World β :=
  { w with
    context := { w.context with username := call.user }
    now := call.now }

def Call.run (call : Call) (w : World β) : World β :=
  match call.request with
  | .handleCreateQueue properties =>
    final (QpidAuthorizationHandler.handleCreateQueue call.user (some w.context.ownTenant)
      properties) w
  | .handleDeleteQueue properties =>
    final (QpidAuthorizationHandler.handleDeleteQueue call.user (some w.context.ownTenant)
      properties) w
  | .createQueue queueName => final (QueueManagerServiceImpl.createQueue beans queueName) w
  | .updatePermission queueName queueRolePermissions =>
    final (QueueManagerServiceImpl.updatePermission beans queueName queueRolePermissions) w
  | .deleteQueue queueName => final (QueueManagerServiceImpl.deleteQueue beans queueName) w

def Call.step (call : Call) (w : World β) : World β := call.run beans (call.enter w)

def allowed (w : World β) (cell : Cell) : Bool := (w.realms w.context.ownTenant).allowed cell

/-- What a request, entered in the given world, sets a right to consume or to publish to. -/
def Call.effect (call : Call) (w : World β) (cell : Cell) : Option Bool :=
  match call.request with
  | .handleCreateQueue properties =>
    if grantedID w call.user w.context.ownTenant properties = some cell.resourceId ∧
        (grantees (w.realms w.context.ownTenant)
          ((w.realms w.context.ownTenant).roleListOfUser call.user)).contains cell.role then
      some true
    else none
  | .updatePermission queueName queueRolePermissions =>
    if changeableID beans w queueName = some cell.resourceId then
      (lastEntry cell.role queueRolePermissions).map fun entry =>
        if cell.action = CONSUME then entry.isAllowedToConsume else entry.isAllowedToPublish
    else none
  | _ => none

def IsQueueRight (cell : Cell) : Prop := cell.action = CONSUME ∨ cell.action = PUBLISH

def SameRights (w w' : World β) : Prop :=
  w'.context = w.context ∧ ∀ tenant cell, IsQueueRight cell →
    (w'.realms tenant).allowed cell = (w.realms tenant).allowed cell

theorem sameRights_refl (w : World β) : SameRights w w := ⟨rfl, fun _ _ _ => rfl⟩

section
variable {w : World β}

theorem not_isQueueRight_change {cell : Cell}
    (h : cell.action = QueueManagerServiceImpl.PERMISSION_CHANGE_PERMISSION) :
    ¬IsQueueRight cell := by
  rw [IsQueueRight, h]
  decide

theorem sameRights_putEntry {s : World β} (h : SameRights w s) (tenant : Int) (path : Str)
    (entry : Collection) : SameRights w (s.putEntry tenant path entry) := h

theorem sameRights_deleteEntry {s : World β} (h : SameRights w s) (tenant : Int) (path : Str) :
    SameRights w (s.deleteEntry tenant path) := h

theorem sameRights_setCell {s : World β} (h : SameRights w s) (tenant : Int) {cell : Cell}
    (hcell : ¬IsQueueRight cell) (value : Bool) : SameRights w (s.setCell tenant cell value) := by
  refine ⟨h.1, fun tenant' cell' hright => ?_⟩
  have hne : cell' ≠ cell := fun heq => hcell (heq ▸ hright)
  rw [← h.2 tenant' cell' hright, World.setCell]
  by_cases htenant : tenant' = tenant
  · rw [htenant]
    simp only [Function.update_self, UserRealm.setCell, Function.update_of_ne hne]
  · simp only [Function.update_of_ne htenant]

theorem keeps_createQueue (queueName : Str) :
    Keeps (SameRights w) (QueueManagerServiceImpl.createQueue beans queueName) := by
  have hregister : ∀ name owner, Keeps (SameRights w) (RegistryClient.createQueue name owner) :=
    RegistryClient.keeps_createQueue fun _ tenant path entry hs =>
      sameRights_putEntry hs tenant path entry
  have hgrant : ∀ realm queueID roleNames, Keeps (SameRights w) (authorizeRoles realm queueID
      [QueueManagerServiceImpl.PERMISSION_CHANGE_PERMISSION] roleNames) := by
    intro realm queueID
    refine keeps_authorizeRoles fun s role action haction hs => sameRights_setCell hs realm ?_ true
    exact not_isQueueRight_change (List.mem_singleton.1 haction)
  refine keeps_translate (keeps_bind (keeps_peek _) fun _ => keeps_bind (keeps_peek _) fun _ => ?_)
  refine keeps_bind (QueueManagementBeans.keeps_queueExists (keeps_invoke (fun _ _ hs => hs) _))
    fun _ => ?_
  split
  · refine keeps_bind (hregister _ _) fun _ => ?_
    refine keeps_bind (QueueManagementBeans.keeps_createQueue (keeps_invoke (fun _ _ hs => hs) _)
      (keeps_invoke (fun _ _ hs => hs) _)) fun _ => ?_
    refine keeps_bind (keeps_peek _) fun _ => keeps_bind (keeps_query _) fun _ => ?_
    refine keeps_bind (keeps_peek _) fun _ => keeps_bind (keeps_orRaise _) fun _ => ?_
    refine keeps_bind (keeps_peek _) fun _ => keeps_bind (keeps_query _) fun _ => ?_
    exact hgrant _ _ _
  · exact keeps_raise _

theorem keeps_deleteQueue (queueName : Str) :
    Keeps (SameRights w) (QueueManagerServiceImpl.deleteQueue beans queueName) := by
  refine keeps_translate (keeps_bind (keeps_peek _) fun _ => keeps_bind (keeps_query _) fun _ => ?_)
  refine keeps_bind (QueueManagementBeans.keeps_queueExists (keeps_invoke (fun _ _ hs => hs) _))
    fun _ => ?_
  split
  · refine keeps_bind (QueueManagementBeans.keeps_deleteQueue (keeps_invoke (fun _ _ hs => hs) _)
      (keeps_invoke (fun _ _ hs => hs) _)) fun _ => ?_
    exact keeps_registryDelete _ _ fun s hs => sameRights_deleteEntry hs _ _
  · exact keeps_pure _

end

theorem final_handleDeleteQueue (username : Str) (realm : Int) (properties : ObjectProperties)
    (w : World β) :
    (final (handleDeleteQueue username (some realm) properties) w).realms = w.realms ∧
      (final (handleDeleteQueue username (some realm) properties) w).context = w.context := by
  have houtcome := handleDeleteQueue_outcome username (some realm) properties w
  unfold final
  cases hresult : handleDeleteQueue username (some realm) properties ⟨w, []⟩ with
  | error e t =>
    rw [hresult] at houtcome
    cases houtcome
    exact ⟨rfl, rfl⟩
  | ok result t =>
    rw [hresult] at houtcome
    cases houtcome with
    | refused => exact ⟨rfl, rfl⟩
    | released _ _ id =>
      exact ⟨RegistryClient.releaseEntry_realms w id, RegistryClient.releaseEntry_context w id⟩

theorem run_context (call : Call) (w : World β) : (call.run beans w).context = w.context := by
  obtain ⟨user, now, request⟩ := call
  cases request with
  | handleCreateQueue properties =>
    cases hgranted : grantedID w user w.context.ownTenant properties with
    | none => exact (handleCreateQueue_ungranted hgranted).2
    | some id =>
      obtain ⟨newID, entry, hresult⟩ := handleCreateQueue_granted hgranted
      simp only [Call.run, final, hresult, setCells_context, putEntry_context]
  | handleDeleteQueue properties => exact (final_handleDeleteQueue _ _ _ _).2
  | createQueue queueName =>
    exact ((keeps_createQueue beans queueName).final (sameRights_refl w)).1
  | deleteQueue queueName =>
    exact ((keeps_deleteQueue beans queueName).final (sameRights_refl w)).1
  | updatePermission queueName permissions =>
    rcases QueueManagerServiceImpl.updatePermission_cases beans queueName permissions w with
      ⟨queueID, b, -, hresult⟩ | ⟨e, b, -, hresult⟩
    · simp only [Call.run, final, hresult, setCells_context]
    · simp only [Call.run, final, hresult]

theorem lastWrite_permissionWrites {cell : Cell} (hright : IsQueueRight cell) (queueID : Str)
    (permissions : List QueueRolePermission) :
    lastWrite cell (permissionWrites queueID permissions) =
      if queueID = cell.resourceId then
        (lastEntry cell.role permissions).map fun entry =>
          if cell.action = CONSUME then entry.isAllowedToConsume else entry.isAllowedToPublish
      else none := by
  obtain ⟨role, resourceId, action⟩ := cell
  by_cases hid : queueID = resourceId
  · rw [if_pos hid, hid]
    have hother : PUBLISH ≠ CONSUME := by decide
    rcases hright with h | h <;> change action = _ at h <;> subst h
    · simp only [if_true, QueueManagerServiceImpl.lastWrite_permissionWrites_consume]
    · simp only [hother, if_false, QueueManagerServiceImpl.lastWrite_permissionWrites_publish]
  · rw [if_neg hid]
    exact QueueManagerServiceImpl.lastWrite_permissionWrites_other (Ne.symm hid) permissions

/-- A call sets the rights that its effect tells and leaves all others alone. -/
theorem run_allowed {cell : Cell} (hright : IsQueueRight cell) (call : Call) (w : World β) :
    ((call.run beans w).realms w.context.ownTenant).allowed cell =
      (call.effect beans w cell).getD (allowed w cell) := by
  obtain ⟨user, now, request⟩ := call
  cases request with
  | handleCreateQueue properties =>
    have haction : cell.action ∈ [CONSUME, PUBLISH, PERMISSION_CHANGE_PERMISSION] := by
      rcases hright with h | h <;> simp [h]
    simp only [Call.run, Call.effect]
    cases hgranted : grantedID w user w.context.ownTenant properties with
    | none =>
      rw [(handleCreateQueue_ungranted hgranted).1, if_neg (by simp)]
      rfl
    | some id =>
      obtain ⟨newID, entry, hresult⟩ := handleCreateQueue_granted hgranted
      rw [final, hresult]
      simp only [setCells_allowed, putEntry_realms, lastWrite_grantWrites, haction, true_and,
        Option.some.injEq, List.contains_iff_mem, @eq_comm Str cell.resourceId]
      rfl
  | handleDeleteQueue properties =>
    simp only [Call.run, Call.effect, (final_handleDeleteQueue _ _ _ _).1]
    rfl
  | createQueue queueName =>
    exact ((keeps_createQueue beans queueName).final (sameRights_refl w)).2 _ cell hright
  | deleteQueue queueName =>
    exact ((keeps_deleteQueue beans queueName).final (sameRights_refl w)).2 _ cell hright
  | updatePermission queueName permissions =>
    simp only [Call.run, Call.effect]
    rcases QueueManagerServiceImpl.updatePermission_cases beans queueName permissions w with
      ⟨queueID, b, hid, hresult⟩ | ⟨e, b, hid, hresult⟩
    · rw [final, hresult, hid]
      simp only [setCells_allowed, lastWrite_permissionWrites hright, Option.some.injEq]
      rfl
    · rw [final, hresult, hid, if_neg (by simp)]
      rfl

theorem step_context (call : Call) (w : World β) :
    (call.step beans w).context = { w.context with username := call.user } :=
  run_context beans call (call.enter w)

theorem sets_step {cell : Cell} (hright : IsQueueRight cell) :
    Sets (fun call w => Call.step beans call w) (allowed (β := β))
      (fun w call => call.effect beans (call.enter w)) cell := by
  intro call w
  have hown : (call.step beans w).context.ownTenant = w.context.ownTenant := by
    rw [step_context]
    rfl
  rw [allowed, hown]
  exact run_allowed beans hright call (call.enter w)

end CarbonMessaging.PermissionHistory
