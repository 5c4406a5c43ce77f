import CarbonMessaging.PermissionUpdates
import CarbonMessaging.QuietRuns
import CarbonMessaging.RolePermissionForm

/-! The table of a queue's permissions, opened and saved as it is: the way from the stored rights
through the admin service, the page, the script and the form value back to the stored rights. -/

namespace CarbonMessaging.SavedTable

open JavaLang FaultyCalls CellWrites UriComponent
open QpidAuthorizationHandler (CONSUME PUBLISH)
open QueueManagerServiceImpl (changeableID permissionOf permissionWrites reportedRoles lastEntry
  setPermission readPermission withoutTenantPath)
open PermissionUpdates (Unchanged)

variable {β : Type}

-- `AndesAdminService`

namespace AndesAdminService

def toDTO (permission : QueueRolePermission) : RolePermissionForm.QueueRolePermission :=
  ⟨permission.roleName, permission.isAllowedToConsume, permission.isAllowedToPublish⟩

def fromDTO (permission : RolePermissionForm.QueueRolePermission) : QueueRolePermission :=
  ⟨permission.roleName, permission.allowedToConsume, permission.allowedToPublish⟩

def BROKER_MANAGER_ADMIN_EXCEPTION : ExceptionClass :=
  .other "org.wso2.carbon.andes.admin.internal.Exception.BrokerManagerAdminException".toList

def asAdminException (message : Str) (e : JavaException) : JavaException :=
  if e.kind = .queueManager then
    ⟨BROKER_MANAGER_ADMIN_EXCEPTION, some (message ++ e.messageText)⟩
  else e

def getQueueRolePermission (beans : BrokerBeans β) (queueName : Str) :
    Carbon β (List RolePermissionForm.QueueRolePermission) :=
  translate (asAdminException "Unable to retrieve queue permission. ".toList) do
    let permissions ← QueueManagerServiceImpl.getQueueRolePermission beans queueName
    pure (permissions.map toDTO)

def updatePermission (beans : BrokerBeans β) (queueName : Str)
    (permissions : List RolePermissionForm.QueueRolePermission) : Carbon β Unit :=
  translate (asAdminException "Unable to update permission of the queue. ".toList)
    (if permissions = [] then pure ()
    else QueueManagerServiceImpl.updatePermission beans queueName (permissions.map fromDTO))

end AndesAdminService

/-- `queue_manage.jsp` shows the table, `updatePermissions` posts it without a change, and
`update_queue_role_permissions_ajaxprocessor.jsp` stores it and reads it again; the declared
exception of the update is caught for its message. -/
def saveUnedited (beans : BrokerBeans β) (decode : Str → Option Str) (queueName : Str) :
    Carbon β Unit := do
  let rows ← AndesAdminService.getQueueRolePermission beans queueName
  let permissions ← orRaise (RolePermissionForm.updateQueueRolePermissionsPage decode
    (RolePermissionForm.updatePermissions rows))
  handling (AndesAdminService.updatePermission beans queueName permissions) fun e =>
    if e.kind = AndesAdminService.BROKER_MANAGER_ADMIN_EXCEPTION then pure () else raise e
  let _ ← AndesAdminService.getQueueRolePermission beans queueName
  pure ()

variable {beans : BrokerBeans β} {decode : Str → Option Str} {w s : World β} {queueName : Str}

theorem unchanged_refl (w : World β) : Unchanged w w := rfl

theorem unchanged_broker (h : Unchanged w s) (b : β) : Unchanged w { s with broker := b } := by
  unfold Unchanged at h ⊢
  rw [h]

theorem keeps_invoke {α : Type} (x : EStateM JavaException β α) :
    Keeps (Unchanged w) (invoke x) := by
  intro site hsite
  rw [invoke]
  cases x site.state.broker with
  | ok a b => exact unchanged_broker hsite b
  | error e b => exact unchanged_broker hsite b

theorem keeps_readPermission (realm : Int) (queueID role : Str) :
    Keeps (Unchanged w) (readPermission realm queueID role : Carbon β QueueRolePermission) :=
  keeps_bind (keeps_query _) fun _ => keeps_bind (keeps_query _) fun _ => keeps_pure _

theorem keeps_queueExists (queueName : Str) :
    Keeps (Unchanged w) (QueueManagementBeans.queueExists beans queueName) :=
  QueueManagementBeans.keeps_queueExists (keeps_invoke _)

theorem keeps_getQueueRolePermission (beans : BrokerBeans β) (queueName : Str) :
    Keeps (Unchanged w) (QueueManagerServiceImpl.getQueueRolePermission beans queueName) := by
  refine keeps_bind (keeps_peek _) fun context =>
    keeps_bind (keeps_queueExists _) fun known => ?_
  cases known with
  | false => exact keeps_raise _
  | true =>
    refine keeps_bind (keeps_peek _) fun context => keeps_bind (keeps_peek _) fun context =>
      keeps_bind (keeps_orRaise _) fun queueID => keeps_translate ?_
    refine keeps_bind (keeps_peek _) fun context => keeps_bind (keeps_query _) fun realm =>
      keeps_bind (keeps_query _) fun adminRole => keeps_bind (keeps_query _) fun roleNames =>
        keeps_bind (keeps_peek _) fun anonymousRole => ?_
    exact keeps_mapM (keeps_readPermission _ _) _

theorem keeps_adminGet (beans : BrokerBeans β) (queueName : Str) :
    Keeps (Unchanged w) (AndesAdminService.getQueueRolePermission beans queueName) :=
  keeps_translate (keeps_bind (keeps_getQueueRolePermission beans queueName) fun _ => keeps_pure _)

theorem returnsQuietly_invoke {α : Type} (x : EStateM JavaException β α) :
    ReturnsQuietly (invoke x) := by
  intro site a t h
  rw [invoke] at h ⊢
  cases hx : x site.state.broker with
  | ok b u =>
    simp only [hx] at h ⊢
    cases h
    rfl
  | error e u =>
    simp only [hx] at h
    cases h

theorem returnsQuietly_queueExists (queueName : Str) :
    ReturnsQuietly (QueueManagementBeans.queueExists beans queueName) :=
  returnsQuietly_translate
    (returnsQuietly_bind (returnsQuietly_invoke _) fun _ => returnsQuietly_pure _)

theorem returnsQuietly_readPermission (realm : Int) (queueID role : Str) :
    ReturnsQuietly (readPermission realm queueID role : Carbon β QueueRolePermission) :=
  returnsQuietly_bind (returnsQuietly_query _) fun _ =>
    returnsQuietly_bind (returnsQuietly_query _) fun _ => returnsQuietly_pure _

theorem returnsQuietly_getQueueRolePermission (queueName : Str) :
    ReturnsQuietly (QueueManagerServiceImpl.getQueueRolePermission beans queueName) := by
  refine returnsQuietly_bind (returnsQuietly_peek _) fun context =>
    returnsQuietly_bind (returnsQuietly_queueExists _) fun known => ?_
  cases known with
  | false => exact returnsQuietly_raise _
  | true =>
    refine returnsQuietly_bind (returnsQuietly_peek _) fun context =>
      returnsQuietly_bind (returnsQuietly_peek _) fun context =>
        returnsQuietly_bind (returnsQuietly_orRaise _) fun queueID => returnsQuietly_translate ?_
    refine returnsQuietly_bind (returnsQuietly_peek _) fun context =>
      returnsQuietly_bind (returnsQuietly_query _) fun realm =>
        returnsQuietly_bind (returnsQuietly_query _) fun adminRole =>
          returnsQuietly_bind (returnsQuietly_query _) fun roleNames =>
            returnsQuietly_bind (returnsQuietly_peek _) fun anonymousRole => ?_
    exact returnsQuietly_mapM (returnsQuietly_readPermission _ _) _

theorem setCell_same {tenant : Int} {cell : Cell} {value : Bool}
    (h : (w.realms tenant).allowed cell = value) : w.setCell tenant cell value = w := by
  have hrealm : (w.realms tenant).setCell cell value = w.realms tenant := by
    rw [UserRealm.setCell, ← h, Function.update_eq_self]
  rw [World.setCell, hrealm, Function.update_eq_self]

theorem holds_writeSame {tenant : Int} {cell : Cell} {value : Bool}
    (h : (w.realms tenant).allowed cell = value) :
    Keeps (Unchanged w)
      (command fun s : World β => s.setCell tenant cell value : Carbon β Unit) := by
  refine keeps_command fun s hs => ?_
  have hsame : (s.realms tenant).allowed cell = value := by
    unfold Unchanged at hs
    rw [hs]
    exact h
  rw [setCell_same hsame]
  exact hs

theorem keeps_setPermission {realm : Int} {queueID : Str} {permission : QueueRolePermission}
    (h : permissionOf (w.realms realm) queueID permission.roleName = permission) :
    Keeps (Unchanged w) (setPermission (β := β) realm queueID permission) := by
  have hconsume := congrArg QueueRolePermission.isAllowedToConsume h
  have hpublish := congrArg QueueRolePermission.isAllowedToPublish h
  have hwrite : ∀ action value, (w.realms realm).allowed ⟨permission.roleName, queueID, action⟩ =
      value → Keeps (Unchanged w) (command fun s : World β =>
        s.setCell realm ⟨permission.roleName, queueID, action⟩ value : Carbon β Unit) :=
    fun action value hvalue => holds_writeSame hvalue
  cases hmayConsume : permission.isAllowedToConsume <;>
    cases hmayPublish : permission.isAllowedToPublish <;>
    simp only [setPermission, hmayConsume, hmayPublish, Bool.false_eq_true, ↓reduceIte] <;>
    exact keeps_bind (hwrite CONSUME _ (hconsume.trans hmayConsume)) fun _ =>
      hwrite PUBLISH _ (hpublish.trans hmayPublish)

theorem holds_exists {ε σ α γ : Type} {P : γ → σ → Prop} {x : Prog ε σ α} {Q : α → σ → Prop}
    {E : ε → σ → Prop} (h : ∀ c, Holds (P c) x Q E) : Holds (fun s => ∃ c, P c s) x Q E := by
  rintro site ⟨c, hc⟩
  exact h c site hc

theorem holds_queueExists (queueName : Str) :
    Holds (· = w) (QueueManagementBeans.queueExists beans queueName)
      (fun known s => ∃ p : Option Bool × β,
        (beans.isQueueExists queueName w.broker = .ok p.1 p.2 ∧ known = p.1.getD false) ∧
          s = { w with broker := p.2 })
      (fun _ s => Unchanged w s) := by
  rintro site rfl
  simp only [QueueManagementBeans.queueExists, translate_apply, bind_apply, invoke]
  cases hexists : beans.isQueueExists queueName site.state.broker with
  | ok answer b => exact ⟨(answer, b), ⟨rfl, rfl⟩, rfl⟩
  | error e b => exact unchanged_broker (unchanged_refl _) b

/-- The permissions are the ones stored under the id that the update writes. -/
def StoredAlready (beans : BrokerBeans β) (w : World β) (queueName : Str)
    (permissions : List QueueRolePermission) : Prop :=
  ∀ queueID, changeableID beans w queueName = some queueID → ∀ permission ∈ permissions,
    permissionOf (w.realms w.context.ownTenant) queueID permission.roleName = permission

theorem keeps_forSamePermissions {realm : Int} {queueID : Str}
    {permissions : List QueueRolePermission}
    (h : ∀ permission ∈ permissions,
      permissionOf (w.realms realm) queueID permission.roleName = permission) :
    Keeps (Unchanged w) (forEach (setPermission realm queueID) permissions) :=
  keeps_forEach permissions fun permission hmem => keeps_setPermission (h permission hmem)

theorem holds_updatePermission {permissions : List QueueRolePermission}
    (h : StoredAlready beans w queueName permissions) :
    Holds (· = w) (QueueManagerServiceImpl.updatePermission beans queueName permissions)
      (fun _ => Unchanged w) (fun _ => Unchanged w) := by
  refine holds_peek_bind (holds_bind (holds_queueExists _) fun known => ?_)
  refine holds_exists fun answered => holds_of_fact fun hanswered => ?_
  obtain ⟨answer, b⟩ := answered
  obtain ⟨hexists, hknown⟩ := hanswered
  have hbroker : Unchanged w { w with broker := b } := unchanged_broker (unchanged_refl w) b
  cases known with
  | false =>
    refine holds_raise fun s hs => ?_
    rw [hs]
    exact hbroker
  | true =>
    have hanswer : answer = some true := by
      rcases answer with _ | _ | _
      · cases hknown
      · cases hknown
      · rfl
    subst hanswer
    refine holds_peek_bind (holds_orRaise_bind (fun queueID hid => ?_) fun e _ s hs => ?_)
    · refine holds_peek_bind (holds_translate (holds_peek_bind ?_))
      refine holds_query_bind (fun e => hbroker) (holds_query_bind (fun e => hbroker) ?_)
      cases hmay : (w.realms w.context.ownTenant).userAuthorized w.context.username queueID
          QueueManagerServiceImpl.PERMISSION_CHANGE_PERMISSION with
      | false =>
        have hrefused : Holds (· = ({ w with broker := b } : World β))
            (raise (QueueManagerServiceImpl.canNotChange w.context.username queueName) >>=
              fun _ : Unit => forEach (setPermission w.context.ownTenant queueID) permissions)
            (fun _ => Unchanged w) (fun _ => Unchanged w) := by
          intro site hsite
          change Unchanged w site.state
          rw [hsite]
          exact hbroker
        simp only [Bool.not_false, ↓reduceIte]
        exact hrefused
      | true =>
        have hid' : changeableID beans w queueName = some queueID := by
          simp [changeableID, hexists, hid, hmay]
        have hwrites : Holds (· = ({ w with broker := b } : World β))
            (forEach (setPermission w.context.ownTenant queueID) permissions)
            (fun _ => Unchanged w) (fun _ => Unchanged w) :=
          (keeps_forSamePermissions (h queueID hid')).mono
            (fun s hs => hs ▸ hbroker) (fun _ _ hs => hs) (fun _ _ hs => hs)
        simp only [Bool.not_true, Bool.false_eq_true, ↓reduceIte]
        exact hwrites
    · rw [hs]
      exact hbroker

def IsShownWhole (role : Str) : Prop :=
  RolePermissionForm.IsRoleName role ∧ ',' ∉ role ∧ '\u00a0' ∉ role

theorem page_toDTO (hdecode : IsFormDecoding decode) {report : List QueueRolePermission}
    (hroles : ∀ permission ∈ report, IsShownWhole permission.roleName) :
    RolePermissionForm.updateQueueRolePermissionsPage decode
      (RolePermissionForm.updatePermissions (report.map AndesAdminService.toDTO)) =
      .ok (report.map AndesAdminService.toDTO) := by
  have hrows : ∀ row ∈ report.map AndesAdminService.toDTO, IsShownWhole row.roleName := by
    intro row hrow
    obtain ⟨permission, hmem, rfl⟩ := List.mem_map.1 hrow
    exact hroles permission hmem
  rw [RolePermissionForm.updatePermissions]
  exact (RolePermissionForm.page_eq_ok_iff hdecode fun row hrow => (hrows row hrow).1).2
    fun row hrow => (hrows row hrow).2

theorem map_fromDTO (report : List QueueRolePermission) :
    (report.map AndesAdminService.toDTO).map AndesAdminService.fromDTO = report := by
  rw [List.map_map]
  exact List.map_id report

theorem holds_adminUpdate {report : List QueueRolePermission}
    (h : StoredAlready beans w queueName report) :
    Holds (· = w) (AndesAdminService.updatePermission beans queueName
        (report.map AndesAdminService.toDTO))
      (fun _ => Unchanged w) (fun _ => Unchanged w) := by
  refine holds_translate ?_
  split_ifs
  · exact holds_pure fun s hs => hs ▸ unchanged_refl w
  · rw [map_fromDTO]
    exact holds_updatePermission h

theorem unchanged_trans {u : World β} (h : Unchanged w s) (h' : Unchanged s u) :
    Unchanged w u := by
  unfold Unchanged at h h' ⊢
  rw [h', h]

def Reports (beans : BrokerBeans β) (w : World β) (queueName : Str)
    (report : List QueueRolePermission) (w₁ : World β) : Prop :=
  QueueManagerServiceImpl.getQueueRolePermission beans queueName ⟨w, []⟩ = .ok report ⟨w₁, []⟩

theorem holds_adminGet (queueName : Str) :
    Holds (· = w) (AndesAdminService.getQueueRolePermission beans queueName)
      (fun rows s => ∃ report, rows = report.map AndesAdminService.toDTO ∧
        Reports beans w queueName report s)
      (fun _ => Unchanged w) := by
  rintro site rfl
  rw [AndesAdminService.getQueueRolePermission, translate_apply, bind_apply]
  cases hget : QueueManagerServiceImpl.getQueueRolePermission beans queueName site with
  | ok report t => exact ⟨report, rfl, returnsQuietly_getQueueRolePermission queueName _ _ _ hget⟩
  | error e t =>
    have hkept := keeps_getQueueRolePermission beans queueName site (unchanged_refl site.state)
    rw [hget] at hkept
    exact hkept

theorem holds_saveUnedited (hdecode : IsFormDecoding decode)
    (hroles : ∀ role ∈ reportedRoles w, IsShownWhole role)
    (hstored : ∀ report w₁, Reports beans w queueName report w₁ →
      StoredAlready beans w₁ queueName report) :
    Holds (· = w) (saveUnedited beans decode queueName)
      (fun _ => Unchanged w) (fun _ => Unchanged w) := by
  refine holds_bind (holds_adminGet queueName) fun rows => ?_
  refine holds_exists fun report => holds_of_fact fun hrows => ?_
  refine holds_of_states fun w₁ hreport => ?_
  subst hrows
  obtain ⟨readID, b, -, hreported, hw₁⟩ := PermissionAgreement.getQueueRolePermission_ok hreport
  have hunchanged : Unchanged w w₁ := hw₁ ▸ unchanged_broker (unchanged_refl w) b
  have hnames : ∀ permission ∈ report, IsShownWhole permission.roleName := by
    intro permission hmem
    rw [hreported] at hmem
    obtain ⟨role, hrole, rfl⟩ := List.mem_map.1 hmem
    exact hroles role hrole
  rw [page_toDTO hdecode hnames]
  have hupdate := holds_adminUpdate (hstored report w₁ hreport)
  have hcaught : Holds (· = w₁) (handling (AndesAdminService.updatePermission beans queueName
      (report.map AndesAdminService.toDTO)) fun e =>
        if e.kind = AndesAdminService.BROKER_MANAGER_ADMIN_EXCEPTION then pure () else raise e)
      (fun _ => Unchanged w₁) (fun _ => Unchanged w₁) := by
    refine holds_handling hupdate fun e => ?_
    split_ifs
    · exact holds_pure fun s hs => hs
    · exact holds_raise fun s hs => hs
  have hrest := holds_bind hcaught fun _ =>
    holds_bind (keeps_adminGet beans queueName) fun _ => keeps_pure ()
  exact hrest.mono (fun s hs => hs) (fun _ s hs => unchanged_trans hunchanged hs)
    (fun _ s hs => unchanged_trans hunchanged hs)

theorem lastEntry_report {report : List QueueRolePermission} {f : Str → QueueRolePermission}
    (hreport : ∀ entry ∈ report, entry = f entry.roleName) {permission : QueueRolePermission}
    (hmem : permission ∈ report) : lastEntry permission.roleName report = some permission := by
  cases hlast : lastEntry permission.roleName report with
  | none =>
    have hnone := lastSome_eq_none_iff.1 hlast permission hmem
    rw [if_pos rfl] at hnone
    cases hnone
  | some entry =>
    have hrole : entry.roleName = permission.roleName :=
      PermissionAgreement.lastEntry_roleName hlast
    obtain ⟨before, found, later, hsplit, hfound, -⟩ := lastSome_eq_some_iff.1 hlast
    have hentry : found = entry := by
      split_ifs at hfound
      exact Option.some.inj hfound
    subst hentry
    have hfoundMem : found ∈ report := by
      rw [hsplit]
      exact List.mem_append_right before List.mem_cons_self
    rw [hreport found hfoundMem, hreport permission hmem, hrole]

theorem adminUpdate_quiet {report : List QueueRolePermission} {queueID : Str}
    (hne : report ≠ []) (hid : changeableID beans w queueName = some queueID) :
    ∃ b, AndesAdminService.updatePermission beans queueName
        (report.map AndesAdminService.toDTO) ⟨w, []⟩ =
      .ok () ⟨({ w with broker := b } : World β).setCells w.context.ownTenant
        (permissionWrites queueID report), []⟩ := by
  have hrows : report.map AndesAdminService.toDTO ≠ [] := by
    rw [Ne, List.map_eq_nil_iff]
    exact hne
  rw [AndesAdminService.updatePermission, if_neg hrows, map_fromDTO, translate_apply]
  rcases QueueManagerServiceImpl.updatePermission_cases beans queueName report w with
    ⟨queueID', b, hid', hresult⟩ | ⟨e, b, hid', hresult⟩
  · rw [hid] at hid'
    cases hid'
    exact ⟨b, by rw [hresult]⟩
  · rw [hid] at hid'
    cases hid'

theorem saveUnedited_written (hdecode : IsFormDecoding decode)
    (hroles : ∀ role ∈ reportedRoles w, IsShownWhole role) {report : List QueueRolePermission}
    {w₁ : World β} (hreport : Reports beans w queueName report w₁) {queueID : Str}
    (hid : changeableID beans w₁ queueName = some queueID) {permission : QueueRolePermission}
    (hmem : permission ∈ report) :
    permissionOf ((final (saveUnedited beans decode queueName) w).realms w.context.ownTenant)
      queueID permission.roleName = permission := by
  obtain ⟨readID, b, -, hreported, hw₁⟩ := PermissionAgreement.getQueueRolePermission_ok hreport
  have hentries : ∀ entry ∈ report,
      entry = permissionOf (w.realms w.context.ownTenant) readID entry.roleName := by
    intro entry hentry
    rw [hreported] at hentry
    obtain ⟨role, -, rfl⟩ := List.mem_map.1 hentry
    rfl
  have hnames : ∀ entry ∈ report, IsShownWhole entry.roleName := by
    intro entry hentry
    rw [hreported] at hentry
    obtain ⟨role, hrole, rfl⟩ := List.mem_map.1 hentry
    exact hroles role hrole
  have hget : AndesAdminService.getQueueRolePermission beans queueName ⟨w, []⟩ =
      .ok (report.map AndesAdminService.toDTO) ⟨w₁, []⟩ := by
    rw [AndesAdminService.getQueueRolePermission, translate_apply, bind_apply, hreport]
    rfl
  obtain ⟨b', hupdate⟩ := adminUpdate_quiet (List.ne_nil_of_mem hmem) hid
  let stored := ({ w₁ with broker := b' } : World β).setCells w₁.context.ownTenant
    (permissionWrites queueID report)
  have hfinal : final (saveUnedited beans decode queueName) w =
      final (AndesAdminService.getQueueRolePermission beans queueName >>= fun _ => pure ())
        stored := by
    simp only [final, saveUnedited, bind_apply, hget, page_toDTO hdecode hnames, orRaise_ok,
      pure_apply, handling_apply, hupdate, stored]
  have hkept : Unchanged stored (final (saveUnedited beans decode queueName) w) := by
    rw [hfinal]
    exact (keeps_bind (keeps_adminGet beans queueName) fun _ => keeps_pure ()).final
      (unchanged_refl stored)
  unfold Unchanged at hkept
  rw [hkept]
  have hcontext : w₁.context = w.context := by rw [hw₁]
  rw [← hcontext]
  exact (PermissionUpdates.changesOnly_setCells b' queueID report).written permission.roleName
    permission (lastEntry_report hentries hmem)

/-- Opening a queue's table and saving it as it is leaves the world alone, at whatever call it
fails, exactly when every entry reported is the one stored under the id that the save writes. -/
theorem saveUnedited_unchanged_iff (hdecode : IsFormDecoding decode)
    (hroles : ∀ role ∈ reportedRoles w, IsShownWhole role) :
    (∀ outcomes, Unchanged w (finalAt (saveUnedited beans decode queueName) ⟨w, outcomes⟩)) ↔
      ∀ report w₁, Reports beans w queueName report w₁ →
        StoredAlready beans w₁ queueName report := by
  constructor
  · intro h report w₁ hreport queueID hid permission hmem
    obtain ⟨readID, b, -, -, hw₁⟩ := PermissionAgreement.getQueueRolePermission_ok hreport
    have hwritten := saveUnedited_written hdecode hroles hreport hid hmem
    have hfinal : Unchanged w (final (saveUnedited beans decode queueName) w) := h []
    unfold Unchanged at hfinal
    rw [hfinal] at hwritten
    rw [hw₁]
    exact hwritten
  · intro h outcomes
    exact (holds_saveUnedited hdecode hroles h).finalAt rfl

theorem getQueueID_of_changeable {queueID : Str}
    (h : changeableID beans w queueName = some queueID) :
    CommonsUtil.getQueueID w.context queueName = .ok queueID := by
  unfold changeableID at h
  split at h
  · split_ifs at h
    cases h
    assumption
  · cases h

theorem storedAlready_of_sameID
    (hsame : CommonsUtil.getQueueID w.context (withoutTenantPath w.context queueName) =
      CommonsUtil.getQueueID w.context queueName) {report : List QueueRolePermission}
    {w₁ : World β} (hreport : Reports beans w queueName report w₁) :
    StoredAlready beans w₁ queueName report := by
  intro queueID hid permission hmem
  obtain ⟨readID, b, hread, hreported, hw₁⟩ := PermissionAgreement.getQueueRolePermission_ok hreport
  have hwritten := getQueueID_of_changeable hid
  rw [hw₁] at hwritten ⊢
  have hboth : readID = queueID := Except.ok.inj (hread.symm.trans (hsame.trans hwritten))
  rw [hreported] at hmem
  obtain ⟨role, -, rfl⟩ := List.mem_map.1 hmem
  rw [hboth]
  rfl

theorem saveUnedited_unchanged_foo :
    Unchanged (PermissionAgreement.roleWorld "foo".toList)
      (finalAt (saveUnedited fullBroker formDecode "q".toList)
        ⟨PermissionAgreement.roleWorld "foo".toList, [none, none, some ⟨.userStore, none⟩]⟩) := by
  refine (saveUnedited_unchanged_iff formDecode_isFormDecoding ?_).2 (fun report w₁ hreport =>
    storedAlready_of_sameID rfl hreport) _
  intro role hrole
  have hr : role = "r".toList := List.mem_singleton.1 (List.mem_filter.1 hrole).1
  subst hr
  refine ⟨⟨by decide, ?_, ?_, by decide, by decide, by decide⟩, by decide, by decide⟩
  · rintro c ⟨⟩
    decide
  · rintro c ⟨⟩
    decide

end CarbonMessaging.SavedTable
