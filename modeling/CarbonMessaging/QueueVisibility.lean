import CarbonMessaging.AdminNotions
import CarbonMessaging.QueueListings
import CarbonMessaging.QueueManagerServiceImpl

/-! Which queues the queue manager lists to a user. The loop goes over the queues and, for each,
over the user's roles, and adds a queue that it does not hold yet. Queues are told apart as
objects, so their type is left open; only their names are read. -/

namespace CarbonMessaging

open JavaLang FaultyCalls FailingFilters CommonsUtil

variable {β Queue : Type} [DecidableEq Queue] (getQueueName : Queue → Option Str)

namespace QueueManagerServiceImpl

open QpidAuthorizationHandler (CONSUME PUBLISH UI_EXECUTE PERMISSION_ADMIN_MANAGE_DLC_BROWSE_DLC)

def mayList (userRealm : Int) (username queueID role : Str) : Carbon β Bool :=
  shortOr (isRoleAuthorized userRealm role queueID CONSUME)
    (shortOr (isRoleAuthorized userRealm role queueID PUBLISH)
      (isUserAuthorized userRealm username PERMISSION_ADMIN_MANAGE_DLC_BROWSE_DLC UI_EXECUTE))

def addForRole (userRealm : Int) (username queueID : Str) (queue : Queue)
    (filteredQueueByUser : List Queue) (role : Str) : Carbon β (List Queue) := do
  if ← mayList userRealm username queueID role then
    if queue ∈ filteredQueueByUser then pure filteredQueueByUser
    else pure (filteredQueueByUser ++ [queue])
  else pure filteredQueueByUser

def addForUser (userRealm : Int) (username : Str) (roleNames : List Str)
    (filteredQueueByUser : List Queue) (queue : Queue) : Carbon β (List Queue) := do
  let queueName ← throwIfNull (getQueueName queue)
  let queueID ← orRaise (getQueueID (← context) queueName)
  roleNames.foldlM (addForRole userRealm username queueID queue) filteredQueueByUser

/-- `allQueues` is the listing of the management bean. -/
def getAllQueues (adminUserName : Str) (allQueues : EStateM JavaException β (List Queue)) :
    Carbon β (List Queue) := do
  let allQueues ← invoke allQueues
  let queues ← orRaise (filterByDomain getQueueName (← context) allQueues)
  translate (unable "Unable to get all queues.".toList) do
    let username := (← context).username
    if ← AndesCore.isAdmin adminUserName username then pure queues
    else
      let userRealm ← getTenantUserRealm (← context).ownTenant
      let roleNames ← getRoleListOfUser userRealm username
      queues.foldlM (addForUser getQueueName userRealm username roleNames) []

end QueueManagerServiceImpl

namespace QueueVisibility

open QueueManagerServiceImpl
open QpidAuthorizationHandler (CONSUME PUBLISH UI_EXECUTE PERMISSION_ADMIN_MANAGE_DLC_BROWSE_DLC)

section
variable (realm : UserRealm) (username : Str)

def browsesDeadLetters : Bool :=
  realm.userAuthorized username PERMISSION_ADMIN_MANAGE_DLC_BROWSE_DLC UI_EXECUTE

def maySee (queueID : Str) : Bool :=
  (realm.roleListOfUser username).any fun role =>
    realm.allowed ⟨role, queueID, CONSUME⟩ || realm.allowed ⟨role, queueID, PUBLISH⟩

def visible (context : CarbonContext) (queue : Queue) : Bool :=
  browsesDeadLetters realm username ||
    match (getQueueName queue).map (getQueueID context) with
    | some (.ok queueID) => maySee realm username queueID
    | _ => false

end

variable {getQueueName} {w : World β} {userRealm : Int} {username : Str}

theorem mayList_quiet (queueID role : Str) : mayList userRealm username queueID role ⟨w, []⟩ =
    .ok ((w.realms userRealm).allowed ⟨role, queueID, CONSUME⟩ ||
      ((w.realms userRealm).allowed ⟨role, queueID, PUBLISH⟩ ||
        browsesDeadLetters (w.realms userRealm) username)) ⟨w, []⟩ := by
  have hread : ∀ action, (isRoleAuthorized userRealm role queueID action : Carbon β Bool) ⟨w, []⟩ =
      .ok ((w.realms userRealm).allowed ⟨role, queueID, action⟩) ⟨w, []⟩ := fun _ => rfl
  rw [mayList, shortOr_quiet (hread CONSUME), shortOr_quiet (hread PUBLISH),
    QpidAuthorizationHandler.isUserAuthorized_quiet, ← browsesDeadLetters]
  cases (w.realms userRealm).allowed ⟨role, queueID, CONSUME⟩ <;>
    cases (w.realms userRealm).allowed ⟨role, queueID, PUBLISH⟩ <;> rfl

theorem foldl_add {α : Type} (test : α → Bool) (queue : Queue) (roles : List α)
    (held : List Queue) :
    roles.foldl (fun held role =>
        if test role then if queue ∈ held then held else held ++ [queue] else held) held =
      if roles.any test ∧ queue ∉ held then held ++ [queue] else held := by
  induction roles generalizing held with
  | nil => simp
  | cons role roles ih =>
    rw [List.foldl_cons, ih, List.any_cons]
    by_cases hheld : queue ∈ held <;> cases test role <;> simp [hheld]

theorem foldl_keep (keep : Queue → Bool) {queues held : List Queue} (hnodup : queues.Nodup)
    (hnew : ∀ queue ∈ queues, queue ∉ held) :
    queues.foldl (fun held queue =>
        if keep queue = true ∧ queue ∉ held then held ++ [queue] else held) held =
      held ++ queues.filter keep := by
  induction queues generalizing held with
  | nil => simp
  | cons queue queues ih =>
    rw [List.nodup_cons] at hnodup
    rw [List.forall_mem_cons] at hnew
    have hlater : ∀ other ∈ queues, other ≠ queue := fun other hother e =>
      hnodup.1 (e ▸ hother)
    rw [List.foldl_cons, List.filter_cons]
    cases hkeep : keep queue with
    | false =>
      simp only [Bool.false_eq_true, false_and, if_false]
      exact ih hnodup.2 hnew.2
    | true =>
      have hadd : ∀ other ∈ queues, other ∉ held ++ [queue] := by
        intro other hother
        rw [List.mem_append, List.mem_singleton, not_or]
        exact ⟨hnew.2 other hother, hlater other hother⟩
      rw [if_pos ⟨rfl, hnew.1⟩, ih hnodup.2 hadd, if_pos rfl, List.append_assoc,
        List.singleton_append]

theorem any_or_or {α : Type} {roles : List α} (hsome : roles ≠ []) (test test' : α → Bool)
    (always : Bool) : roles.any (fun role => test role || (test' role || always)) =
      (always || roles.any fun role => test role || test' role) := by
  cases always with
  | false => simp
  | true =>
    obtain ⟨role, hrole⟩ := List.exists_mem_of_ne_nil roles hsome
    simp only [Bool.or_true, Bool.true_or, List.any_eq_true, and_true]
    exact ⟨role, hrole⟩

theorem addForUser_quiet {roleNames : List Str} {queue : Queue} {name queueID : Str}
    (hroles : (w.realms userRealm).roleListOfUser username = roleNames) (hsome : roleNames ≠ [])
    (hname : getQueueName queue = some name) (hid : getQueueID w.context name = .ok queueID)
    (held : List Queue) :
    addForUser getQueueName userRealm username roleNames held queue ⟨w, []⟩ =
      .ok (if visible getQueueName (w.realms userRealm) username w.context queue = true ∧
          queue ∉ held then held ++ [queue] else held) ⟨w, []⟩ := by
  let test : Str → Bool := fun role =>
    (w.realms userRealm).allowed ⟨role, queueID, CONSUME⟩ ||
      ((w.realms userRealm).allowed ⟨role, queueID, PUBLISH⟩ ||
        browsesDeadLetters (w.realms userRealm) username)
  have hrole : ∀ (held : List Queue), ∀ role ∈ roleNames,
      (addForRole userRealm username queueID queue held role : Carbon β _) ⟨w, []⟩ =
        .ok (if test role then if queue ∈ held then held else held ++ [queue] else held)
          ⟨w, []⟩ := by
    intro held role _
    rw [addForRole, bind_apply, mayList_quiet]
    change (if test role = true then _ else _ : Carbon β (List Queue)) ⟨w, []⟩ = _
    by_cases hheld : queue ∈ held <;> cases test role <;> simp [hheld]
  have htest : roleNames.any test =
      visible getQueueName (w.realms userRealm) username w.context queue := by
    simp only [visible, hname, hid, Option.map_some, maySee, hroles]
    exact any_or_or hsome _ _ _
  simp only [addForUser, hname, throwIfNull, bind_apply, pure_apply, context, peek_apply, hid,
    orRaise_ok]
  rw [foldlM_quiet hrole, foldl_add, htest]

omit [DecidableEq Queue] in
theorem filterByDomain_named {context : CarbonContext} {queues : List Queue}
    (hnamed : ∀ queue ∈ queues, ∃ name, getQueueName queue = some name) :
    ∃ keep, filterByDomain getQueueName context queues = .ok (queues.filter keep) := by
  cases hdomain : context.tenantDomain with
  | none => exact ⟨fun _ => false, by rw [filterByDomain, hdomain, List.filter_false]⟩
  | some domain =>
    refine ⟨fun queue => ((getQueueName queue).map (QueueListings.shown domain)).getD false, ?_⟩
    rw [QueueListings.filterByDomain_eq hdomain]
    refine filterOrFail_of_ok fun queue hqueue => ?_
    obtain ⟨name, hname⟩ := hnamed queue hqueue
    rw [Function.comp_apply, hname]
    rfl

theorem listForUser_quiet {queues : List Queue} (hdistinct : queues.Nodup)
    (hids : ∀ queue ∈ queues, ∃ name queueID, getQueueName queue = some name ∧
      getQueueID w.context name = .ok queueID)
    (hrole : (w.realms userRealm).roleListOfUser username ≠ []) :
    queues.foldlM (addForUser getQueueName userRealm username
        ((w.realms userRealm).roleListOfUser username)) [] ⟨w, []⟩ =
      .ok (queues.filter (visible getQueueName (w.realms userRealm) username w.context))
        ⟨w, []⟩ := by
  have hstep : ∀ held, ∀ queue ∈ queues,
      addForUser getQueueName userRealm username ((w.realms userRealm).roleListOfUser username)
          held queue ⟨w, []⟩ =
        .ok (if visible getQueueName (w.realms userRealm) username w.context queue = true ∧
          queue ∉ held then held ++ [queue] else held) ⟨w, []⟩ := by
    intro held queue hqueue
    obtain ⟨name, queueID, hname, hid⟩ := hids queue hqueue
    exact addForUser_quiet rfl hrole hname hid held
  rw [foldlM_quiet hstep, foldl_keep _ hdistinct fun _ _ => List.not_mem_nil, List.nil_append]

/-- A user who is no administrator is listed the visible queues of the domain, each once and in
the broker's order. -/
theorem getAllQueues_exact {adminUserName : Str}
    {allQueues : EStateM JavaException β (List Queue)} {queues : List Queue} {b : β}
    (hqueues : allQueues w.broker = .ok queues b) (hdistinct : queues.Nodup)
    (hids : ∀ queue ∈ queues, ∃ name queueID, getQueueName queue = some name ∧
      getQueueID w.context name = .ok queueID)
    (huser : AndesCore.isAdmin adminUserName w.context.username ⟨w, []⟩ = .ok false ⟨w, []⟩)
    (hrole : (w.realms w.context.ownTenant).roleListOfUser w.context.username ≠ []) :
    ∃ selected listed, filterByDomain getQueueName w.context queues = .ok selected ∧
      getAllQueues getQueueName adminUserName allQueues ⟨w, []⟩ =
        .ok listed ⟨{ w with broker := b }, []⟩ ∧
      listed = selected.filter
        (visible getQueueName (w.realms w.context.ownTenant) w.context.username w.context) ∧
      listed.Nodup ∧ listed.Sublist queues := by
  have hnamed : ∀ queue ∈ queues, ∃ name, getQueueName queue = some name := fun queue hqueue =>
    have ⟨name, _, hname, _⟩ := hids queue hqueue
    ⟨name, hname⟩
  obtain ⟨keep, hselected⟩ : ∃ keep, filterByDomain getQueueName w.context queues =
      .ok (queues.filter keep) := filterByDomain_named hnamed
  have hnodup : (queues.filter keep).Nodup := hdistinct.filter keep
  have hkept : ∀ queue ∈ queues.filter keep, ∃ name queueID, getQueueName queue = some name ∧
      getQueueID w.context name = .ok queueID := fun queue hqueue =>
    hids queue (List.mem_filter.1 hqueue).1
  have hlist : invoke allQueues ⟨w, []⟩ = .ok queues ⟨{ w with broker := b }, []⟩ := by
    rw [invoke, hqueues]
  have hother : decide (adminUserName ∈ AdminNotions.rolesOf w w.context.username) = false :=
    (EStateM.Result.ok.inj (AdminNotions.isAdmin_quiet.symm.trans huser)).1
  have huser' : AndesCore.isAdmin adminUserName w.context.username
      ⟨{ w with broker := b }, []⟩ = .ok false ⟨{ w with broker := b }, []⟩ :=
    AdminNotions.isAdmin_quiet.trans (congrArg (EStateM.Result.ok · _) hother)
  have hloop := listForUser_quiet (w := { w with broker := b }) hnodup hkept hrole
  refine ⟨_, _, hselected, ?_, rfl, hnodup.filter _,
    List.filter_sublist.trans List.filter_sublist⟩
  simp only [getAllQueues, bind_apply, hlist, context, peek_apply, translate_apply, hselected,
    orRaise_ok, pure_apply, huser', getTenantUserRealm, query_quiet, getRoleListOfUser,
    Bool.false_eq_true, if_false]
  rw [hloop]

def bobsRoles : World Unit :=
  ((AdminNotions.giveRoles (World.initial (.ofDomain "foo".toList) ()) "bob".toList
    ["r".toList, "s".toList]).setCell 1 ⟨"r".toList, queueResource "a".toList, CONSUME⟩
      true).setCell 1 ⟨"s".toList, queueResource "a".toList, CONSUME⟩ true

def bobsQueues : List Str := ["foo/a".toList, "foo/b".toList, "bar/a".toList]

theorem getAllQueues_exact_bob :
    getAllQueues some "admin".toList (.ok bobsQueues) ⟨bobsRoles, []⟩ =
      .ok ["foo/a".toList] ⟨bobsRoles, []⟩ := by
  have hids : ∀ queue ∈ bobsQueues, ∃ name queueID, some queue = some name ∧
      getQueueID bobsRoles.context name = .ok queueID := by
    intro queue hqueue
    simp only [bobsQueues, List.mem_cons, List.not_mem_nil, or_false] at hqueue
    rcases hqueue with rfl | rfl | rfl <;> exact ⟨_, _, rfl, rfl⟩
  obtain ⟨selected, listed, hselected, hrun, hlisted, -, -⟩ :=
    @getAllQueues_exact Unit Str _ some bobsRoles "admin".toList (.ok bobsQueues) bobsQueues ()
      rfl (by decide) hids rfl (by decide)
  have hdomain : filterByDomain some bobsRoles.context bobsQueues =
      .ok ["foo/a".toList, "foo/b".toList] := by decide
  rw [hdomain] at hselected
  cases hselected
  refine hrun.trans ?_
  rw [hlisted]
  rfl

end QueueVisibility

end CarbonMessaging
