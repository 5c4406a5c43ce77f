import CarbonMessaging.QueueManagerServiceImpl

/-! Whether the permissions that the admin service writes are the ones the broker enforces and
the ones the admin service reads back. The writer takes the queue id of the name as typed, the
broker that of the physical name, the reader that of the name without the tenant's path. -/

namespace CarbonMessaging.PermissionAgreement

open JavaLang FaultyCalls CellWrites CommonsUtil QpidAuthorizationHandler
open QueueManagerServiceImpl hiding PERMISSION_CHANGE_PERMISSION

variable {β : Type} {beans : BrokerBeans β} {w w' : World β} {queueName : Str}
  {permissions : List QueueRolePermission}

/-- The right a role has through a name; a name without id gives none. -/
def rightThrough (w : World β) (role name action : Str) : Bool :=
  match getQueueID w.context name with
  | .ok queueID => (w.realms w.context.ownTenant).allowed ⟨role, queueID, action⟩
  | .error _ => false

/-- Writing under `queueName` settles what the broker finds under `name`, or it finds the same
already. -/
def Settles (w : World β) (queueName role name action : Str) (flag : Bool) : Prop :=
  getQueueID w.context name = getQueueID w.context queueName ∨
    rightThrough w role name action = flag

/-- On the direct exchange the broker allows the user of the physical name exactly what the entry
does. -/
def Enforces (w : World β) (username physical : Str) (entry : QueueRolePermission) : Prop :=
  (∀ queue, handlePublishToExchange username (some w.context.ownTenant)
      ⟨some DIRECT_EXCHANGE, queue, some physical⟩ ⟨w, []⟩ = .ok .ALLOWED ⟨w, []⟩ ↔
    entry.isAllowedToPublish = true) ∧
  (handleBindQueue username (some w.context.ownTenant)
      ⟨some DIRECT_EXCHANGE, some physical, some physical⟩ ⟨w, []⟩ = .ok .ALLOWED ⟨w, []⟩ ↔
    entry.isAllowedToConsume = true)

def ReadsBack (before after permissions : List QueueRolePermission) : Prop :=
  after = before.map fun permission =>
    (lastEntry permission.roleName permissions).getD permission

instance (before after permissions : List QueueRolePermission) :
    Decidable (ReadsBack before after permissions) := inferInstanceAs (Decidable (_ = _))

theorem updatePermission_ok
    (h : updatePermission beans queueName permissions ⟨w, []⟩ = .ok () ⟨w', []⟩) :
    ∃ queueID b, getQueueID w.context queueName = .ok queueID ∧
      w' = ({ w with broker := b } : World β).setCells w.context.ownTenant
        (permissionWrites queueID permissions) := by
  rcases updatePermission_cases beans queueName permissions w with
    ⟨queueID, b, hid, hresult⟩ | ⟨e, b, -, hresult⟩
  · rw [hresult] at h
    have hstate := (Site.mk.inj (EStateM.Result.ok.inj h).2).1
    refine ⟨queueID, b, ?_, hstate.symm⟩
    unfold changeableID at hid
    split at hid
    · rename_i heq
      split at hid
      · cases hid
        exact heq
      · cases hid
    · cases hid
  · rw [hresult] at h
    cases h

theorem lastEntry_roleName {role : Str} {entry : QueueRolePermission}
    (h : lastEntry role permissions = some entry) : entry.roleName = role := by
  obtain ⟨before, permission, later, -, hpermission, -⟩ := lastSome_eq_some_iff.1 h
  split at hpermission
  · rename_i hrole
    cases hpermission
    exact hrole
  · cases hpermission

theorem rightThrough_updated {queueID role name action : Str} {b : β} {flag : Bool}
    (hid : getQueueID w.context queueName = .ok queueID)
    (hflag : lastWrite ⟨role, queueID, action⟩ (permissionWrites queueID permissions) = some flag) :
    rightThrough (({ w with broker := b } : World β).setCells w.context.ownTenant
        (permissionWrites queueID permissions)) role name action = flag ↔
      Settles w queueName role name action flag := by
  rw [Settles, hid, rightThrough, rightThrough, setCells_context]
  cases hname : getQueueID w.context name with
  | error e =>
    simp only [reduceCtorEq, false_or]
  | ok id =>
    simp only [setCells_allowed, Except.ok.injEq]
    by_cases hsame : id = queueID
    · simp [hsame, hflag]
    · rw [lastWrite_permissionWrites_other (by simpa using hsame)]
      simp [hsame]

theorem enforces_iff
    (hupdate : updatePermission beans queueName permissions ⟨w, []⟩ = .ok () ⟨w', []⟩)
    {role : Str} {entry : QueueRolePermission} (hentry : lastEntry role permissions = some entry)
    {username : Str}
    (hroles : (w.realms w.context.ownTenant).roleListOfUser username = [role])
    (hadmin : role ≠ ADMIN_ROLE) :
    Enforces w' username (getTenantBasedQueueName w.context queueName) entry ↔
      Settles w queueName role (getRawRoutingKey (getTenantBasedQueueName w.context queueName))
        PUBLISH entry.isAllowedToPublish ∧
      Settles w queueName role (getRawQueueName (getTenantBasedQueueName w.context queueName))
        CONSUME entry.isAllowedToConsume := by
  obtain ⟨queueID, b, hid, hstate⟩ := updatePermission_ok hupdate
  have hpublish : lastWrite ⟨role, queueID, PUBLISH⟩ (permissionWrites queueID permissions) =
      some entry.isAllowedToPublish := by
    rw [lastWrite_permissionWrites_publish, hentry, Option.map_some]
  have hconsume : lastWrite ⟨role, queueID, CONSUME⟩ (permissionWrites queueID permissions) =
      some entry.isAllowedToConsume := by
    rw [lastWrite_permissionWrites_consume, hentry, Option.map_some]
  -- the user's only role decides, under every name
  have hdecides : ∀ name action, (∃ id, getQueueID w'.context name = .ok id ∧
      ownAdminOrMay (w'.realms w'.context.ownTenant) username
        (isOwnDomain w'.context.tenantDomain name) id action = true) ↔
      rightThrough w' role name action = true := by
    intro name action
    have hroles' : (w'.realms w'.context.ownTenant).roleListOfUser username = [role] := by
      rw [hstate, setCells_roleListOfUser, setCells_context]
      exact hroles
    rw [rightThrough]
    cases hname : getQueueID w'.context name with
    | error e => simp
    | ok id =>
      simp [ownAdminOrMay, isAdmin, UserRealm.userAuthorized, hroles', Ne.symm hadmin]
  simp only [Enforces, publish_allowed_iff, bind_allowed_iff, hdecides, forall_const]
  rw [hstate, ← Bool.eq_iff_iff, ← Bool.eq_iff_iff, rightThrough_updated hid hpublish,
    rightThrough_updated hid hconsume]

section
variable {domain queueID : Str} (htenant : 0 < w.context.tenantId)
  (hdomain : w.context.tenantDomain = some domain)
include htenant hdomain

theorem prefixed_dotted (hdot : '.' ∈ domain) (hsemicolon : ';' ∉ domain ++ queueName)
    (hid : getQueueID w.context queueName = .ok queueID) :
    getQueueID w.context (domain ++ "/".toList ++ queueName) ≠ .ok queueID := by
  rw [List.mem_append, not_or] at hsemicolon
  have hother : startsWith (domain ++ "/".toList ++ queueName) (replaceChar '.' '-' domain) =
      false := by
    rw [← Bool.not_eq_true, startsWith_iff, List.append_assoc]
    rintro ⟨rest, hrest⟩
    have hsame := (List.append_inj hrest (length_replaceChar '.' '-' domain)).1
    exact (replaceChar_eq_self_iff (by decide)).1 hsame hdot
  rw [getQueueID_tenant htenant hdomain hother]
  intro hsame
  rw [← Except.ok.inj hsame] at hid
  have hlength := getQueueID_length hid
  rw [upTo_of_notMem (by simp [hsemicolon.1, hsemicolon.2])] at hlength
  simp only [List.length_append] at hlength
  have hone : "/".toList.length = 1 := by decide
  omega

theorem prefixed_dotless (hdot : '.' ∉ domain) (hcontains : contains queueName domain = false) :
    getQueueID w.context (domain ++ "/".toList ++ queueName) = getQueueID w.context queueName := by
  have hplain : startsWith queueName (replaceChar '.' '-' domain) = false := by
    rw [replaceChar_of_notMem hdot, ← Bool.not_eq_true, startsWith_iff]
    intro hstart
    have hpart : contains queueName domain = true := contains_iff.2 hstart.isInfix
    rw [hcontains] at hpart
    cases hpart
  rw [getQueueID_tenant htenant hdomain hplain, getQueueID_undashed htenant hdomain hdot]

/-- For names and domains without the broker's separators, the physical name of a tenant's queue
has the typed name's id when nothing was put in front or the domain has no dots. -/
theorem physical_sameID_iff (hsuper : domain ≠ SUPER_TENANT_DOMAIN_NAME)
    (hcolon : ':' ∉ domain ++ queueName) (hsemicolon : ';' ∉ domain ++ queueName)
    (hid : getQueueID w.context queueName = .ok queueID) :
    getQueueID w.context (getRawRoutingKey (getTenantBasedQueueName w.context queueName)) =
        .ok queueID ↔
      contains queueName domain = true ∨ '.' ∉ domain := by
  rw [List.mem_append, not_or] at hcolon
  cases hcontains : contains queueName domain with
  | true =>
    rw [tenantBasedQueueName_kept hdomain hcontains, getRawRoutingKey,
      after_of_notMem hcolon.2, hid]
    simp
  | false =>
    have hphysical : getRawRoutingKey (getTenantBasedQueueName w.context queueName) =
        domain ++ "/".toList ++ queueName := by
      rw [tenantBasedQueueName_prefixed hdomain hsuper hcontains]
      exact after_of_notMem (by simp [hcolon.1, hcolon.2])
    rw [hphysical]
    simp only [Bool.false_eq_true, false_or]
    by_cases hdot : '.' ∈ domain
    · exact iff_of_false (prefixed_dotted htenant hdomain hdot hsemicolon hid) (by simpa using hdot)
    · exact iff_of_true ((prefixed_dotless htenant hdomain hdot hcontains).trans hid) hdot

end

theorem getQueueRolePermission_ok {report : List QueueRolePermission}
    (h : getQueueRolePermission beans queueName ⟨w, []⟩ = .ok report ⟨w', []⟩) :
    ∃ queueID b, getQueueID w.context (withoutTenantPath w.context queueName) = .ok queueID ∧
      report = (reportedRoles w).map (permissionOf (w.realms w.context.ownTenant) queueID) ∧
      w' = { w with broker := b } := by
  rcases getQueueRolePermission_cases beans queueName w with
    ⟨queueID, b, hid, hresult⟩ | ⟨e, b, hresult⟩
  · rw [hresult] at h
    obtain ⟨hreport, hstate⟩ := EStateM.Result.ok.inj h
    exact ⟨queueID, b, hid, hreport.symm, (Site.mk.inj hstate).1.symm⟩
  · rw [hresult] at h
    cases h

theorem permissionOf_eq {name id : Str} (hid : getQueueID w.context name = .ok id) (role : Str) :
    permissionOf (w.realms w.context.ownTenant) id role =
      ⟨role, rightThrough w role name CONSUME, rightThrough w role name PUBLISH⟩ := by
  rw [permissionOf, rightThrough, rightThrough, hid]

theorem lastWrite_unnamed {role : Str} (h : lastEntry role permissions = none)
    (queueID id action : Str) :
    lastWrite ⟨role, id, action⟩ (permissionWrites queueID permissions) = none := by
  rw [permissionWrites, lastWrite_flatMap, lastSome_eq_none_iff]
  intro permission hpermission
  have hrole : permission.roleName ≠ role := by
    intro hrole
    have hnone := lastSome_eq_none_iff.1 h permission hpermission
    rw [if_pos hrole] at hnone
    cases hnone
  simp [lastWrite, lastSome, hrole]

theorem permissionOf_updated {queueID name readID : Str} (b : β)
    (hid : getQueueID w.context queueName = .ok queueID)
    (hread : getQueueID w.context name = .ok readID) (role : Str) :
    permissionOf ((({ w with broker := b } : World β).setCells w.context.ownTenant
        (permissionWrites queueID permissions)).realms w.context.ownTenant) readID role =
      (lastEntry role permissions).getD
        (permissionOf (w.realms w.context.ownTenant) readID role) ↔
    ∀ entry, lastEntry role permissions = some entry →
      Settles w queueName role name CONSUME entry.isAllowedToConsume ∧
        Settles w queueName role name PUBLISH entry.isAllowedToPublish := by
  cases hentry : lastEntry role permissions with
  | none =>
    refine iff_of_true ?_ (by simp)
    rw [permissionOf, setCells_allowed, setCells_allowed, lastWrite_unnamed hentry,
      lastWrite_unnamed hentry]
    rfl
  | some entry =>
    obtain ⟨roleName, consume, publish⟩ := entry
    obtain rfl : roleName = role := lastEntry_roleName hentry
    have hconsume := @rightThrough_updated _ w queueName permissions queueID roleName name CONSUME
      b consume hid (by rw [lastWrite_permissionWrites_consume, hentry, Option.map_some])
    have hpublish := @rightThrough_updated _ w queueName permissions queueID roleName name PUBLISH
      b publish hid (by rw [lastWrite_permissionWrites_publish, hentry, Option.map_some])
    have hafter := @permissionOf_eq _ (({ w with broker := b } : World β).setCells
      w.context.ownTenant (permissionWrites queueID permissions)) name readID
      (by rw [setCells_context]; exact hread) roleName
    rw [setCells_context] at hafter
    rw [hafter, Option.getD_some, QueueRolePermission.mk.injEq, hconsume, hpublish]
    simp

/-- The report shows what was written exactly when, for every reported role that the permissions
name, the writes settle what the reader finds. -/
theorem readsBack_iff {w₀ w'' : World β} {before after : List QueueRolePermission}
    (hbefore : getQueueRolePermission beans queueName ⟨w₀, []⟩ = .ok before ⟨w, []⟩)
    (hupdate : updatePermission beans queueName permissions ⟨w, []⟩ = .ok () ⟨w', []⟩)
    (hafter : getQueueRolePermission beans queueName ⟨w', []⟩ = .ok after ⟨w'', []⟩) :
    ReadsBack before after permissions ↔
      ∀ role ∈ reportedRoles w₀, ∀ entry, lastEntry role permissions = some entry →
        Settles w₀ queueName role (withoutTenantPath w₀.context queueName) CONSUME
          entry.isAllowedToConsume ∧
        Settles w₀ queueName role (withoutTenantPath w₀.context queueName) PUBLISH
          entry.isAllowedToPublish := by
  obtain ⟨readID, b₀, hread, hreport, hw⟩ := getQueueRolePermission_ok hbefore
  subst hw
  obtain ⟨queueID, b, hid, hstate⟩ := updatePermission_ok hupdate
  obtain ⟨readID', b', hread', hreport', -⟩ := getQueueRolePermission_ok hafter
  rw [hstate, setCells_context, hread] at hread'
  cases hread'
  have hroles : reportedRoles w' = reportedRoles w₀ := by
    rw [hstate, reportedRoles, setCells_context, setCells_roleNames, setCells_eq]
    rfl
  have hcontext : w'.context = w₀.context := by rw [hstate, setCells_context]
  rw [hroles, hcontext, hstate] at hreport'
  rw [ReadsBack, hreport', hreport, List.map_map, List.map_inj_left]
  exact forall₂_congr fun role _ => permissionOf_updated (w := w₀) b hid hread role

def roleWorld (domain : Str) : World Unit :=
  { World.initial ⟨1, some domain, "bob".toList⟩ () with
    realms := fun _ => ⟨fun _ => ["r".toList], fun _ => true, ["r".toList],
      fun cell => decide (cell.action = PERMISSION_CHANGE_PERMISSION)⟩ }

def allowAll : QueueRolePermission := ⟨"r".toList, true, true⟩

theorem enforces_plain : ∃ w',
    updatePermission fullBroker "q".toList [allowAll] ⟨roleWorld "foo".toList, []⟩ =
      .ok () ⟨w', []⟩ ∧
    Enforces w' "carol".toList "foo/q".toList allowAll := by
  refine ⟨_, rfl, ?_⟩
  exact (@enforces_iff Unit fullBroker (roleWorld "foo".toList) _ "q".toList [allowAll] rfl
    "r".toList allowAll rfl "carol".toList rfl (by decide)).2 ⟨.inl rfl, .inl rfl⟩

theorem dotted_not_enforced : ∃ w',
    updatePermission fullBroker "q".toList [allowAll] ⟨roleWorld "foo.com".toList, []⟩ =
      .ok () ⟨w', []⟩ ∧
    ¬Enforces w' "carol".toList "foo.com/q".toList allowAll := by
  refine ⟨_, rfl, fun h => ?_⟩
  have hpublish := (h.1 none).2 rfl
  cases hpublish

theorem readsBack_plain : ∃ before after w₀ w' w'',
    getQueueRolePermission fullBroker "q".toList ⟨roleWorld "foo".toList, []⟩ =
      .ok before ⟨w₀, []⟩ ∧
    updatePermission fullBroker "q".toList [allowAll] ⟨w₀, []⟩ = .ok () ⟨w', []⟩ ∧
    getQueueRolePermission fullBroker "q".toList ⟨w', []⟩ = .ok after ⟨w'', []⟩ ∧
    ReadsBack before after [allowAll] :=
  ⟨_, _, _, _, _, rfl, rfl, rfl, (@readsBack_iff Unit fullBroker _ _ "q".toList [allowAll]
    (roleWorld "foo".toList) _ _ _ rfl rfl rfl).2 fun _ _ _ _ => ⟨.inl rfl, .inl rfl⟩⟩

theorem dotted_not_readBack : ∃ before after w₀ w' w'',
    getQueueRolePermission fullBroker "foo.com/q".toList ⟨roleWorld "foo.com".toList, []⟩ =
      .ok before ⟨w₀, []⟩ ∧
    updatePermission fullBroker "foo.com/q".toList [allowAll] ⟨w₀, []⟩ = .ok () ⟨w', []⟩ ∧
    getQueueRolePermission fullBroker "foo.com/q".toList ⟨w', []⟩ = .ok after ⟨w'', []⟩ ∧
    ¬ReadsBack before after [allowAll] := by
  refine ⟨_, _, _, _, _, rfl, rfl, rfl, ?_⟩
  decide

end CarbonMessaging.PermissionAgreement
