import CarbonMessaging.QpidAuthorizationHandler

/-! Whether the creator of a queue can bind it and publish to it. The rights are granted on the
raw queue name, in which the ';' is cut off before the ':' is looked for; a publication is judged
by the raw routing key, in which the ';' is cut off last. -/

namespace CarbonMessaging.CreatorAccess

open JavaLang FaultyCalls CellWrites CommonsUtil QpidAuthorizationHandler

variable {β : Type}

def queueExchanges : List Str := ["amq.direct".toList, "<<default>>".toList]

/-- Publications under the name and bindings of the queue of that name are allowed. -/
structure CanUse (w : World β) (username : Str) (realm : Int) (name : Str) : Prop where
  publish : ∀ exchange ∈ queueExchanges, ∀ queue,
    handlePublishToExchange username (some realm) ⟨some exchange, queue, some name⟩ ⟨w, []⟩ =
      .ok .ALLOWED ⟨w, []⟩
  bind : ∀ exchange ∈ queueExchanges,
    handleBindQueue username (some realm) ⟨some exchange, some name, some name⟩ ⟨w, []⟩ =
      .ok .ALLOWED ⟨w, []⟩

/-- The first ':' is not in the suffix that a ';' starts, and the dashed domain is not taken off
across a ';'. -/
def CutsAlike (context : CarbonContext) (name : Str) : Prop :=
  (':' ∈ name → ':' ∈ upTo ';' name) ∧
    ∀ domain, 0 < context.tenantId → context.tenantDomain = some domain → ';' ∈ domain →
      startsWith (getRawRoutingKey name) (replaceChar '.' '-' domain) = false

section
variable {context : CarbonContext}

theorem getRawQueueName_eq {name : Str} (h : ':' ∈ name → ':' ∈ upTo ';' name) :
    getRawQueueName name = upTo ';' (getRawRoutingKey name) := by
  rw [getRawQueueName, getRawRoutingKey]
  by_cases hcolon : ':' ∈ name
  · have hbefore := h hcolon
    have hsplit := upTo_append_after hcolon
    have hplain : ';' ∉ upTo ':' name := by
      intro hsemicolon
      -- the ';' would stand before the ':' that is still there
      rw [← hsplit, upTo_append_of_mem hsemicolon] at hbefore
      exact notMem_upTo ':' name (mem_of_mem_upTo hbefore)
    have hkey : upTo ';' name = upTo ':' name ++ ':' :: upTo ';' (after ':' name) := by
      conv_lhs => rw [← hsplit]
      rw [upTo_append_of_notMem hplain]
      rfl
    rw [hkey, after_append (notMem_upTo ':' name)]
  · rw [after_of_notMem hcolon, after_of_notMem (mt mem_of_mem_upTo hcolon)]

theorem getQueueID_dashed {domain id : Str} (htenant : 0 < context.tenantId)
    (hdomain : context.tenantDomain = some domain) {rest : Str}
    (h : getQueueID context (replaceChar '.' '-' domain ++ upTo ';' rest) = .ok id) :
    getQueueID context (replaceChar '.' '-' domain ++ rest) = .ok id := by
  cases hrest : upTo ';' rest with
  | nil =>
    have hself : startsWith (replaceChar '.' '-' domain) (replaceChar '.' '-' domain) = true :=
      startsWith_iff.2 List.prefix_rfl
    have hshort : substring (replaceChar '.' '-' domain)
        ((replaceChar '.' '-' domain).length + 1) = none := if_neg (by omega)
    rw [hrest, List.append_nil, getQueueID, withoutTenantDomain, if_pos htenant, hdomain] at h
    simp only [hself, hshort, if_true] at h
    cases h
  | cons c name =>
    obtain ⟨tail, rfl⟩ : ∃ tail, rest = c :: tail := by
      obtain ⟨tail, htail⟩ := hrest ▸ upTo_isInitial ';' rest
      exact ⟨name ++ tail, htail.symm⟩
    have hne : c ≠ ';' := fun e => notMem_upTo ';' (c :: tail) (by
      rw [hrest, e]
      exact List.mem_cons_self)
    have hcons : upTo ';' (c :: tail) = c :: upTo ';' tail :=
      upTo_append_of_notMem (s := [c]) (by simpa using hne.symm) tail
    rw [hcons, getQueueID_stripped htenant hdomain,
      upTo_of_notMem (notMem_upTo ';' tail)] at h
    rw [getQueueID_stripped htenant hdomain, h]

theorem getQueueID_upTo {key id : Str}
    (hkey : ∀ domain, 0 < context.tenantId → context.tenantDomain = some domain → ';' ∈ domain →
      startsWith key (replaceChar '.' '-' domain) = false)
    (h : getQueueID context (upTo ';' key) = .ok id) : getQueueID context key = .ok id := by
  by_cases htenant : 0 < context.tenantId
  · cases hdomain : context.tenantDomain with
    | none =>
      rw [getQueueID, withoutTenantDomain, if_pos htenant, hdomain] at h
      cases h
    | some domain =>
      cases hstart : startsWith (upTo ';' key) (replaceChar '.' '-' domain) with
      | false =>
        have hother : startsWith key (replaceChar '.' '-' domain) = false := by
          by_cases hsemicolon : ';' ∈ domain
          · exact hkey domain htenant hdomain hsemicolon
          · rw [← hstart, eq_comm, startsWith_upTo_eq_iff]
            intro hdashed
            rw [mem_replaceChar_of_ne (by decide) (by decide)] at hdashed
            exact absurd hdashed hsemicolon
        rw [getQueueID_tenant htenant hdomain hstart, upTo_of_notMem (notMem_upTo ';' key)] at h
        rw [getQueueID_tenant htenant hdomain hother, h]
      | true =>
        obtain ⟨hplain, hwhole⟩ := startsWith_upTo.1 hstart
        obtain ⟨rest, rfl⟩ := startsWith_iff.1 hwhole
        rw [upTo_append_of_notMem hplain] at h
        exact getQueueID_dashed htenant hdomain h
  · rw [getQueueID_super (by omega), upTo_of_notMem (notMem_upTo ';' key)] at h
    rw [getQueueID_super (by omega), h]

theorem getQueueID_routingKey {name id : Str} (h : CutsAlike context name)
    (hid : getQueueID context (getRawQueueName name) = .ok id) :
    getQueueID context (getRawRoutingKey name) = .ok id := by
  rw [getRawQueueName_eq h.1] at hid
  exact getQueueID_upTo h.2 hid

end

section
variable {w w' : World β} {username : Str} {realm : Int} {name : Str}

theorem userAuthorized_granted (queueID : Str) (actions : List Str) {id action : Str}
    (hrole : grantees (w.realms realm) ((w.realms realm).roleListOfUser username) ≠ [])
    (haction : action ∈ actions) :
    ((w.setCells realm (grantWrites queueID actions
        (grantees (w.realms realm) ((w.realms realm).roleListOfUser username)))).realms
          realm).userAuthorized username id action = true ↔
      id = queueID ∨ (w.realms realm).userAuthorized username id action = true := by
  simp only [UserRealm.userAuthorized, setCells_roleListOfUser, setCells_allowed,
    lastWrite_grantWrites, List.any_eq_true]
  by_cases hid : id = queueID
  · obtain ⟨role, hgrantee⟩ := List.exists_mem_of_ne_nil _ hrole
    refine iff_of_true ⟨role, (List.mem_filter.1 hgrantee).1, ?_⟩ (.inl hid)
    rw [if_pos ⟨hid, haction, hgrantee⟩]
    rfl
  · simp [hid]

theorem rights_after_creation {properties : ObjectProperties}
    (hname : properties.NAME = some name)
    (hcreate : handleCreateQueue username (some realm) properties ⟨w, []⟩ =
      .ok .ALLOWED ⟨w', []⟩)
    (huser : isAdmin (w.realms realm) username = false)
    (hrole : ∃ role ∈ (w.realms realm).roleListOfUser username,
      equalsIgnoreCase role ROLE_EVERY_ONE = false ∧ (w.realms realm).existingRole role = true) :
    ∃ queueID, getQueueID w.context (getRawQueueName name) = .ok queueID ∧
      w'.context = w.context ∧ ∀ own id, ∀ action ∈ [CONSUME, PUBLISH],
        (ownAdminOrMay (w'.realms realm) username own id action = true ↔
          id = queueID ∨ (w.realms realm).userAuthorized username id action = true) := by
  have hgrantees : grantees (w.realms realm) ((w.realms realm).roleListOfUser username) ≠ [] := by
    obtain ⟨role, hmem, hother, hexists⟩ := hrole
    exact List.ne_nil_of_mem (List.mem_filter.2 ⟨hmem, by simp [hother, hexists]⟩)
  have houtcome := handleCreateQueue_outcome username (some realm) properties w
  rw [hcreate] at houtcome
  cases houtcome with
  | granted realm' name' newID queueID entry hrealm _ hname' _ _ hid _ =>
    cases hrealm
    rw [hname] at hname'
    cases hname'
    refine ⟨queueID, hid, by rw [setCells_context, putEntry_context], fun own id action h => ?_⟩
    have hgranted := @userAuthorized_granted _ (w.putEntry w.context.ownTenant newID entry)
      username realm queueID [CONSUME, PUBLISH, PERMISSION_CHANGE_PERMISSION] id action
      hgrantees (List.mem_append_left [PERMISSION_CHANGE_PERMISSION] h)
    rw [putEntry_realms] at hgranted
    rw [isAdmin] at huser
    simp only [ownAdminOrMay, isAdmin, setCells_roleListOfUser, putEntry_realms, huser,
      Bool.false_and, Bool.false_or]
    exact hgranted

theorem canUse_after_creation {properties : ObjectProperties}
    (hname : properties.NAME = some name)
    (hcreate : handleCreateQueue username (some realm) properties ⟨w, []⟩ =
      .ok .ALLOWED ⟨w', []⟩)
    (huser : isAdmin (w.realms realm) username = false)
    (hrole : ∃ role ∈ (w.realms realm).roleListOfUser username,
      equalsIgnoreCase role ROLE_EVERY_ONE = false ∧ (w.realms realm).existingRole role = true) :
    CanUse w' username realm name ↔
      ∃ id, getQueueID w.context (getRawRoutingKey name) = .ok id ∧
        (getQueueID w.context (getRawQueueName name) = .ok id ∨
          (w.realms realm).userAuthorized username id PUBLISH = true) := by
  obtain ⟨queueID, hid, hcontext, hmay⟩ := rights_after_creation hname hcreate huser hrole
  have hexchanges : ∀ exchange ∈ queueExchanges, getRawExchangeName exchange = DIRECT_EXCHANGE ∨
      getRawExchangeName exchange = DEFAULT_EXCHANGE := by
    simp only [queueExchanges, List.forall_mem_cons, List.not_mem_nil, false_implies,
      implies_true, and_true]
    exact ⟨.inl (by decide), .inr (by decide)⟩
  have hdirect : "amq.direct".toList ∈ queueExchanges := List.mem_cons_self
  refine ⟨fun h => ?_, fun ⟨id, hkey, hright⟩ => ⟨?_, ?_⟩⟩
  · obtain ⟨id, hkey, hown⟩ :=
      (publishTo_allowed_iff (hexchanges _ hdirect) none name).1 (h.publish _ hdirect none)
    rw [hcontext] at hkey
    rw [hmay _ _ _ (by simp)] at hown
    exact ⟨id, hkey, hown.imp_left fun e => hid.trans (congrArg Except.ok e.symm)⟩
  · intro exchange hexchange queue
    refine (publishTo_allowed_iff (hexchanges exchange hexchange) queue name).2
      ⟨id, hcontext.symm ▸ hkey, ?_⟩
    rw [hmay _ _ _ (by simp)]
    exact hright.imp_left fun e => Except.ok.inj (e.symm.trans hid)
  · intro exchange hexchange
    refine (bindTo_allowed_iff (hexchanges exchange hexchange).symm name name).2
      ⟨queueID, hcontext.symm ▸ hid, ?_⟩
    rw [hmay _ _ _ (by simp)]
    exact .inl rfl

/-- A name that is cut alike for both leads to the queue that was created. -/
theorem canUse_of_cutsAlike {properties : ObjectProperties} (hname : properties.NAME = some name)
    (hcreate : handleCreateQueue username (some realm) properties ⟨w, []⟩ =
      .ok .ALLOWED ⟨w', []⟩)
    (huser : isAdmin (w.realms realm) username = false)
    (hrole : ∃ role ∈ (w.realms realm).roleListOfUser username,
      equalsIgnoreCase role ROLE_EVERY_ONE = false ∧ (w.realms realm).existingRole role = true)
    (halike : CutsAlike w.context name) : CanUse w' username realm name := by
  obtain ⟨queueID, hid, -⟩ := rights_after_creation hname hcreate huser hrole
  exact (canUse_after_creation hname hcreate huser hrole).2
    ⟨queueID, getQueueID_routingKey halike hid, .inl hid⟩

/-- The creator can use the queue just when the routing key leads to it, or to a queue that the
creator could already publish to, and always when the name is cut alike for both. -/
theorem canUse_iff {properties : ObjectProperties} (hname : properties.NAME = some name)
    (hcreate : handleCreateQueue username (some realm) properties ⟨w, []⟩ =
      .ok .ALLOWED ⟨w', []⟩)
    (huser : isAdmin (w.realms realm) username = false)
    (hrole : ∃ role ∈ (w.realms realm).roleListOfUser username,
      equalsIgnoreCase role ROLE_EVERY_ONE = false ∧ (w.realms realm).existingRole role = true) :
    (CanUse w' username realm name ↔
      ∃ id, getQueueID w.context (getRawRoutingKey name) = .ok id ∧
        (getQueueID w.context (getRawQueueName name) = .ok id ∨
          (w.realms realm).userAuthorized username id PUBLISH = true)) ∧
      (CutsAlike w.context name → CanUse w' username realm name) :=
  ⟨canUse_after_creation hname hcreate huser hrole,
    canUse_of_cutsAlike hname hcreate huser hrole⟩

end

def creator : World Unit :=
  let w := World.initial ⟨SUPER_TENANT_ID, some SUPER_TENANT_DOMAIN_NAME, "bob".toList⟩ ()
  { w with
    realms := fun _ =>
      { UserRealm.empty with
        roleListOfUser := fun _ => ["r".toList]
        existingRole := fun _ => true
        allowed := fun cell =>
          decide (cell.resourceId = PERMISSION_ADMIN_MANAGE_QUEUE_ADD_QUEUE) } }

theorem canUse_iff_plain :
    ∃ w', handleCreateQueue "bob".toList (some SUPER_TENANT_ID) ⟨some "c:q;x".toList, none, none⟩
        ⟨creator, []⟩ = .ok .ALLOWED ⟨w', []⟩ ∧
      CanUse w' "bob".toList SUPER_TENANT_ID "c:q;x".toList := by
  have hgranted : grantedID creator "bob".toList SUPER_TENANT_ID
      ⟨some "c:q;x".toList, none, none⟩ = some (queueResource "q".toList) := by decide
  obtain ⟨newID, entry, hcreate⟩ := handleCreateQueue_granted hgranted
  have huse := canUse_iff rfl hcreate rfl ⟨"r".toList, List.mem_singleton_self _, by decide, rfl⟩
  refine ⟨_, hcreate, huse.2 ⟨fun _ => by decide, fun domain htenant => ?_⟩⟩
  exact absurd htenant (by decide)

/-- Bound, but not published to: the routing key is what follows the ':' in the options. -/
theorem options_hide_queue :
    ∃ w', handleCreateQueue "bob".toList (some SUPER_TENANT_ID)
        ⟨some "q;\x7bcreate:always\x7d".toList, none, none⟩ ⟨creator, []⟩ = .ok .ALLOWED ⟨w', []⟩ ∧
      ¬CanUse w' "bob".toList SUPER_TENANT_ID "q;\x7bcreate:always\x7d".toList := by
  have hgranted : grantedID creator "bob".toList SUPER_TENANT_ID
      ⟨some "q;\x7bcreate:always\x7d".toList, none, none⟩ = some (queueResource "q".toList) := by
    decide
  obtain ⟨newID, entry, hcreate⟩ := handleCreateQueue_granted hgranted
  refine ⟨_, hcreate, fun h => ?_⟩
  obtain ⟨id, hkey, hright⟩ := (canUse_after_creation rfl hcreate rfl
    ⟨"r".toList, List.mem_singleton_self _, by decide, rfl⟩).1 h
  have hid : getQueueID creator.context (getRawRoutingKey "q;\x7bcreate:always\x7d".toList) =
      .ok (queueResource "always\x7d".toList) := by decide
  rw [hid] at hkey
  cases hkey
  revert hright
  decide

end CarbonMessaging.CreatorAccess
