import CarbonMessaging.FaultyReturns
import CarbonMessaging.QueueManagerServiceImpl

/-! What a failed admin creation leaves behind. Registry, broker and permissions are written one
after the other and nothing is taken back, so the step that failed decides what stays. -/

namespace CarbonMessaging.CreationFailures

open JavaLang FaultyCalls CommonsUtil RegistryClient
open QpidAuthorizationHandler (authorizeRoles authorizeExisting grantees grantWrites)
open QueueManagerServiceImpl (PERMISSION_CHANGE_PERMISSION getLoggedInUserName
  asCreateQueueException)

variable {β : Type} (beans : BrokerBeans β) (queueName : Str)

/-- The end of the `try` block of `createQueue`, and the whole block. -/
def grantSteps : Carbon β Unit := do
  let userRealm ← getTenantUserRealm (← context).ownTenant
  let queueID ← orRaise (getQueueID (← context) queueName)
  let roleNames ← getRoleListOfUser userRealm (← context).username
  authorizeRoles userRealm queueID [PERMISSION_CHANGE_PERMISSION] roleNames

def createSteps : Carbon β Unit := do
  let tenantBasedQueueName := getTenantBasedQueueName (← context) queueName
  let userName := getLoggedInUserName (← context)
  if !(← QueueManagementBeans.queueExists beans tenantBasedQueueName) then
    RegistryClient.createQueue tenantBasedQueueName userName
    QueueManagementBeans.createQueue beans tenantBasedQueueName userName
    grantSteps queueName
  else
    raise ⟨.queueManager, some ("Queue with the name: ".toList ++ queueName ++
      " already exists!".toList)⟩

def lookupSteps : Carbon β (Int × Str × List Str) := do
  let userRealm ← getTenantUserRealm (← context).ownTenant
  let queueID ← orRaise (getQueueID (← context) queueName)
  let roleNames ← getRoleListOfUser userRealm (← context).username
  pure (userRealm, queueID, roleNames)

theorem grantSteps_eq : (grantSteps queueName : Carbon β Unit) =
    lookupSteps queueName >>= fun found =>
      authorizeRoles found.1 found.2.1 [PERMISSION_CHANGE_PERMISSION] found.2.2 := by
  simp only [grantSteps, lookupSteps, bind_assoc, pure_bind]

theorem createQueue_eq : QueueManagerServiceImpl.createQueue beans queueName =
    translate (asCreateQueueException queueName) (createSteps beans queueName) := rfl

def physicalName (context : CarbonContext) : Str := getTenantBasedQueueName context queueName

def rolesOf (w : World β) : List Str :=
  (w.realms w.context.ownTenant).roleListOfUser w.context.username

/-- A point of a run: the world and the outcomes of the calls that are still to come. -/
abbrev At (β : Type) := Site JavaException (World β)

/-- The broker has answered the question for the queue and the entry is stored. -/
inductive Registered (w : World β) : World β → Prop where
  | mk {answer : Option Bool} {b : β} {id : Str} {entry : Collection}
      (hasked : beans.isQueueExists (physicalName queueName w.context) w.broker = .ok answer b)
      (hid : getQueueID w.context (physicalName queueName w.context) = .ok id)
      (hentry : writtenEntry (w.registries w.context.ownTenant) w.now
        (physicalName queueName w.context) (getLoggedInUserName w.context) id = .ok entry) :
      Registered w ({ w with broker := b }.putEntry w.context.ownTenant id entry)

inductive Bound (w : World β) : World β → Prop where
  | mk {s : World β} {b b' : β} (hregistered : Registered beans queueName w s)
      (hqueue : beans.createNewQueue (physicalName queueName w.context)
        (getLoggedInUserName w.context) true s.broker = .ok () b)
      (hbinding : beans.createNewBinding (physicalName queueName w.context)
        (physicalName queueName w.context) b = .ok () b') :
      Bound w { s with broker := b' }

structure Asked (start asked : At β) (exists_ : Bool) : Prop where
  run : QueueManagementBeans.queueExists beans (physicalName queueName start.state.context) start =
    .ok exists_ asked
  state : ∃ answer b, beans.isQueueExists (physicalName queueName start.state.context)
    start.state.broker = .ok answer b ∧ asked.state = { start.state with broker := b }

structure Stored (start stored : At β) : Prop where
  run : ∃ asked, Asked beans queueName start asked false ∧
    RegistryClient.createQueue (physicalName queueName start.state.context)
      (getLoggedInUserName start.state.context) asked = .ok () stored
  state : Registered beans queueName start.state stored.state

structure Built (start built : At β) : Prop where
  run : ∃ stored, Stored beans queueName start stored ∧
    QueueManagementBeans.createQueue beans (physicalName queueName start.state.context)
      (getLoggedInUserName start.state.context) stored = .ok () built
  state : Bound beans queueName start.state built.state

structure Found (start found : At β) (queueID : Str) : Prop where
  run : ∃ built, Built beans queueName start built ∧ lookupSteps queueName built =
    .ok (start.state.context.ownTenant, queueID, rolesOf start.state) found
  state : Bound beans queueName start.state found.state
  id : getQueueID start.state.context queueName = .ok queueID

/-- What is there after a failure with `cause`, by the step that failed: the question, the test of
its answer, the registration, the queue, its binding, the lookups, the grant for a role. -/
inductive LeftBehind (start : At β) (cause : JavaException) (t : At β) : Prop where
  | question {e : JavaException} {b : β}
      (hrun : QueueManagementBeans.queueExists beans (physicalName queueName start.state.context)
        start = .error cause t)
      (hasked : beans.isQueueExists (physicalName queueName start.state.context)
        start.state.broker = .error e b)
      (hstate : t.state = { start.state with broker := b })
  | existing (hasked : Asked beans queueName start t true)
      (hcause : cause = ⟨.queueManager, some ("Queue with the name: ".toList ++ queueName ++
        " already exists!".toList)⟩)
  | registration {asked : At β} (hasked : Asked beans queueName start asked false)
      (hrun : RegistryClient.createQueue (physicalName queueName start.state.context)
        (getLoggedInUserName start.state.context) asked = .error cause t)
      (hstate : t.state = asked.state)
  | queue {stored : At β} {e : JavaException} {b : β}
      (hstored : Stored beans queueName start stored)
      (hrun : QueueManagementBeans.createQueue beans (physicalName queueName start.state.context)
        (getLoggedInUserName start.state.context) stored = .error cause t)
      (hqueue : beans.createNewQueue (physicalName queueName start.state.context)
        (getLoggedInUserName start.state.context) true stored.state.broker = .error e b)
      (hstate : t.state = { stored.state with broker := b })
  | binding {stored : At β} {e : JavaException} {b b' : β}
      (hstored : Stored beans queueName start stored)
      (hrun : QueueManagementBeans.createQueue beans (physicalName queueName start.state.context)
        (getLoggedInUserName start.state.context) stored = .error cause t)
      (hqueue : beans.createNewQueue (physicalName queueName start.state.context)
        (getLoggedInUserName start.state.context) true stored.state.broker = .ok () b)
      (hbinding : beans.createNewBinding (physicalName queueName start.state.context)
        (physicalName queueName start.state.context) b = .error e b')
      (hstate : t.state = { stored.state with broker := b' })
  | lookups {built : At β} (hbuilt : Built beans queueName start built)
      (hrun : lookupSteps queueName built = .error cause t) (hstate : t.state = built.state)
  | grant {found granted : At β} {queueID role : Str} {done rest : List Str}
      (hfound : Found beans queueName start found queueID)
      (hroles : rolesOf start.state = done ++ role :: rest)
      (hdone : authorizeRoles start.state.context.ownTenant queueID [PERMISSION_CHANGE_PERMISSION]
        done found = .ok () granted)
      (hrun : authorizeExisting start.state.context.ownTenant queueID
        [PERMISSION_CHANGE_PERMISSION] role granted = .error cause t)
      (hstate : t.state = found.state.setCells start.state.context.ownTenant
        (grantWrites queueID [PERMISSION_CHANGE_PERMISSION]
          (grantees (start.state.realms start.state.context.ownTenant) done)))

section
variable {w : World β}

theorem grantWrites_concat (realm : UserRealm) (queueID action : Str) (done : List Str)
    (role : Str) : grantWrites queueID [action] (grantees realm (done ++ [role])) =
      grantWrites queueID [action] (grantees realm done) ++
        grantWrites queueID [action] (grantees realm [role]) := by
  rw [grantees, List.filter_append, grantWrites, List.flatMap_append]
  rfl

theorem grantees_setCells (realm : Int) (writes : List (Cell × Bool)) (roles : List Str) :
    grantees ((w.setCells realm writes).realms realm) roles = grantees (w.realms realm) roles := by
  simp only [grantees, setCells_existingRole]

/-- The grant for one role; one that fails changes nothing. -/
theorem holds_authorizeExisting (realm : Int) (queueID action role : Str) :
    Holds (· = w) (authorizeExisting realm queueID [action] role)
      (fun _ s =>
        s = w.setCells realm (grantWrites queueID [action] (grantees (w.realms realm) [role])))
      (fun _ s => s = w) := by
  unfold authorizeExisting
  split
  · rename_i hother
    refine holds_query_bind (fun _ => rfl) ?_
    split
    · rename_i hrole
      have hgranted : grantees (w.realms realm) [role] = [role] := by
        simp only [grantees, List.filter_singleton, hother, hrole, Bool.and_self, cond_true]
      rw [hgranted]
      refine holds_bind (Q := fun _ s => s = w.setCells realm (grantWrites queueID [action] [role]))
        (holds_command (fun _ _ hs => hs) ?_) fun _ => holds_pure fun _ hs => hs
      rintro s rfl
      rfl
    · rename_i hrole
      rw [Bool.not_eq_true] at hrole
      have hnone : grantees (w.realms realm) [role] = [] := by
        simp only [grantees, List.filter_singleton, hrole, Bool.and_false, cond_false]
      rw [hnone]
      exact holds_pure fun _ hs => hs
  · rename_i heveryone
    have hnone : grantees (w.realms realm) [role] = [] := by
      simp only [grantees, List.filter_singleton, heveryone, Bool.false_and, cond_false]
    rw [hnone]
    exact holds_pure fun _ hs => hs

theorem holds_authorizeRoles (realm : Int) (queueID action : Str) (roles : List Str) :
    Holds (· = w) (authorizeRoles realm queueID [action] roles)
      (fun _ s =>
        s = w.setCells realm (grantWrites queueID [action] (grantees (w.realms realm) roles)))
      (fun _ _ => True) := by
  refine (holds_forEach (I := fun done s => s = w.setCells realm
      (grantWrites queueID [action] (grantees (w.realms realm) done)))
    fun done role rest _ => holds_of_states fun s hs => ?_).mono (fun _ hs => hs)
      (fun _ _ hs => hs) fun _ _ hs => hs
  refine (holds_authorizeExisting realm queueID action role).mono (fun _ ht => ht)
    (fun _ t ht => ?_) fun _ _ _ => trivial
  rw [ht, hs, grantees_setCells, setCells_append, ← grantWrites_concat]

theorem holds_queueExists (queueName : Str) :
    Holds (· = w) (QueueManagementBeans.queueExists beans queueName)
      (fun exists_ s => ∃ answer b, beans.isQueueExists queueName w.broker = .ok answer b ∧
        exists_ = answer.getD false ∧ s = { w with broker := b })
      (fun _ s => ∃ e b, beans.isQueueExists queueName w.broker = .error e b ∧
        s = { w with broker := b }) := by
  refine holds_translate (holds_bind (Q := fun answer s => ∃ b,
    beans.isQueueExists queueName w.broker = .ok answer b ∧ s = { w with broker := b })
    (holds_invoke ?_ ?_) fun answer => ?_)
  · rintro w answer b rfl hasked
    exact ⟨b, hasked, rfl⟩
  · rintro w e b rfl hasked
    exact ⟨e, b, hasked, rfl⟩
  · refine holds_pure ?_
    rintro s ⟨b, hasked, hs⟩
    exact ⟨answer, b, hasked, rfl, hs⟩

theorem holds_brokerQueue (queueName userName : Str) :
    Holds (· = w) (QueueManagementBeans.createQueue beans queueName userName)
      (fun _ s => ∃ b b', beans.createNewQueue queueName userName true w.broker = .ok () b ∧
        beans.createNewBinding queueName queueName b = .ok () b' ∧ s = { w with broker := b' })
      (fun _ s => (∃ e b, beans.createNewQueue queueName userName true w.broker = .error e b ∧
          s = { w with broker := b }) ∨
        ∃ b e b', beans.createNewQueue queueName userName true w.broker = .ok () b ∧
          beans.createNewBinding queueName queueName b = .error e b' ∧
          s = { w with broker := b' }) := by
  refine holds_translate (holds_bind (Q := fun _ s => ∃ b,
    beans.createNewQueue queueName userName true w.broker = .ok () b ∧ s = { w with broker := b })
    (holds_invoke ?_ ?_) fun _ => holds_invoke ?_ ?_)
  · rintro w _ b rfl hqueue
    exact ⟨b, hqueue, rfl⟩
  · rintro w e b rfl hqueue
    exact .inl ⟨e, b, hqueue, rfl⟩
  · rintro _ _ b' ⟨b, hqueue, rfl⟩ hbinding
    exact ⟨b, b', hqueue, hbinding, rfl⟩
  · rintro _ e b' ⟨b, hqueue, rfl⟩ hbinding
    exact .inr ⟨b, e, b', hqueue, hbinding, rfl⟩

theorem bound_same {s : World β} (h : Bound beans queueName w s) :
    s.context = w.context ∧ s.realms = w.realms := by
  cases h with
  | mk hregistered hqueue hbinding =>
    cases hregistered
    exact ⟨rfl, rfl⟩

theorem holds_lookupSteps : Holds (· = w) (lookupSteps queueName)
    (fun found s => s = w ∧ found.1 = w.context.ownTenant ∧
      getQueueID w.context queueName = .ok found.2.1 ∧ found.2.2 = rolesOf w)
    (fun _ s => s = w) := by
  refine holds_peek_bind (holds_query_bind (fun _ => rfl) (holds_peek_bind
    (holds_orRaise_bind (fun queueID hid => ?_) fun _ _ _ hs => hs)))
  refine holds_peek_bind (holds_query_bind (fun _ => rfl) (holds_pure ?_))
  rintro s rfl
  exact ⟨rfl, rfl, hid, rfl⟩

variable {beans queueName} {start t : At β} {cause : JavaException}

theorem createSteps_apply : createSteps beans queueName start =
    (QueueManagementBeans.queueExists beans (physicalName queueName start.state.context) >>=
      fun exists_ => if !exists_ then
        RegistryClient.createQueue (physicalName queueName start.state.context)
          (getLoggedInUserName start.state.context) >>= fun _ =>
        QueueManagementBeans.createQueue beans (physicalName queueName start.state.context)
          (getLoggedInUserName start.state.context) >>= fun _ => grantSteps queueName
      else raise ⟨.queueManager, some ("Queue with the name: ".toList ++ queueName ++
        " already exists!".toList)⟩) start := rfl

theorem asked_of_ok {exists_ : Bool} (h : QueueManagementBeans.queueExists beans
    (physicalName queueName start.state.context) start = .ok exists_ t) :
    Asked beans queueName start t exists_ := by
  have hstate := holds_queueExists beans (physicalName queueName start.state.context) start rfl
  rw [h] at hstate
  obtain ⟨answer, b, hasked, -, hs⟩ := hstate
  exact ⟨h, answer, b, hasked, hs⟩

theorem stored_of_ok {asked : At β} (hasked : Asked beans queueName start asked false)
    (h : RegistryClient.createQueue (physicalName queueName start.state.context)
      (getLoggedInUserName start.state.context) asked = .ok () t) :
    Stored beans queueName start t := by
  obtain ⟨answer, b, hbroker, hs⟩ := hasked.state
  have hstate := holds_createQueue (physicalName queueName start.state.context)
    (getLoggedInUserName start.state.context) asked hs
  rw [h] at hstate
  obtain ⟨id, entry, hid, hentry, ht⟩ := hstate
  refine ⟨⟨asked, hasked, h⟩, ?_⟩
  rw [ht]
  exact .mk hbroker hid hentry

theorem built_of_ok {stored : At β} (hstored : Stored beans queueName start stored)
    (h : QueueManagementBeans.createQueue beans (physicalName queueName start.state.context)
      (getLoggedInUserName start.state.context) stored = .ok () t) :
    Built beans queueName start t := by
  have hstate := holds_brokerQueue beans (physicalName queueName start.state.context)
    (getLoggedInUserName start.state.context) stored rfl
  rw [h] at hstate
  obtain ⟨b, b', hqueue, hbinding, ht⟩ := hstate
  refine ⟨⟨stored, hstored, h⟩, ?_⟩
  rw [ht]
  exact .mk hstored.state hqueue hbinding

theorem bound_of_createSteps (h : createSteps beans queueName start = .ok () t) :
    ∃ s writes, Bound beans queueName start.state s ∧
      t.state = s.setCells start.state.context.ownTenant writes := by
  rw [createSteps_apply] at h
  obtain ⟨exists_, asked, hexists, h⟩ := bind_eq_ok.1 h
  cases exists_ with
  | true => cases h
  | false =>
    obtain ⟨_, stored, hregistered, h⟩ := bind_eq_ok.1 h
    obtain ⟨_, built, hcreated, h⟩ := bind_eq_ok.1 h
    have hbuilt := built_of_ok (stored_of_ok (asked_of_ok hexists) hregistered) hcreated
    rw [grantSteps_eq] at h
    obtain ⟨⟨realm, queueID, roles⟩, found, hfound, hgrants⟩ := bind_eq_ok.1 h
    have hlookups := holds_lookupSteps queueName built rfl
    rw [hfound] at hlookups
    obtain ⟨hs, hrealm, -, -⟩ := hlookups
    have hgranted := holds_authorizeRoles realm queueID PERMISSION_CHANGE_PERMISSION roles found rfl
    have hcontext := (bound_same beans queueName hbuilt.state).1
    rw [hgrants] at hgranted
    dsimp only at hgranted hrealm
    rw [hs, hrealm, hcontext] at hgranted
    exact ⟨built.state, _, hbuilt.state, hgranted⟩

theorem leftBehind_registration {asked : At β} (hasked : Asked beans queueName start asked false)
    (h : RegistryClient.createQueue (physicalName queueName start.state.context)
      (getLoggedInUserName start.state.context) asked = .error cause t) :
    LeftBehind beans queueName start cause t := by
  have hstate := holds_createQueue (physicalName queueName start.state.context)
    (getLoggedInUserName start.state.context) asked rfl
  rw [h] at hstate
  exact .registration hasked h hstate

theorem leftBehind_broker {stored : At β} (hstored : Stored beans queueName start stored)
    (h : QueueManagementBeans.createQueue beans (physicalName queueName start.state.context)
      (getLoggedInUserName start.state.context) stored = .error cause t) :
    LeftBehind beans queueName start cause t := by
  have hstate := holds_brokerQueue beans (physicalName queueName start.state.context)
    (getLoggedInUserName start.state.context) stored rfl
  rw [h] at hstate
  obtain ⟨e, b, hqueue, ht⟩ | ⟨b, e, b', hqueue, hbinding, ht⟩ := hstate
  · exact .queue hstored h hqueue ht
  · exact .binding hstored h hqueue hbinding ht

theorem leftBehind_grantSteps {built : At β} (hbuilt : Built beans queueName start built)
    (h : grantSteps queueName built = .error cause t) :
    LeftBehind beans queueName start cause t := by
  obtain ⟨hcontext, hrealms⟩ := bound_same beans queueName hbuilt.state
  have hlookups := holds_lookupSteps queueName built rfl
  rw [grantSteps_eq] at h
  obtain hfails | ⟨⟨realm, queueID, roles⟩, found, hrun, hgrants⟩ := bind_eq_error.1 h
  · rw [hfails] at hlookups
    exact .lookups hbuilt hfails hlookups
  · rw [hrun] at hlookups
    obtain ⟨hs, hrealm, hid, hroles⟩ := hlookups
    dsimp only at hrealm hid hroles
    rw [hcontext] at hrealm hid
    rw [rolesOf, hrealms, hcontext] at hroles
    subst hrealm hroles
    have hfound : Found beans queueName start found queueID :=
      ⟨⟨built, hbuilt, hrun⟩, hs ▸ hbuilt.state, hid⟩
    obtain ⟨done, role, rest, granted, hsplit, hdone, hfails⟩ := forEach_eq_error hgrants
    have hbefore := holds_authorizeRoles start.state.context.ownTenant queueID
      PERMISSION_CHANGE_PERMISSION done found rfl
    have hafter := holds_authorizeExisting start.state.context.ownTenant queueID
      PERMISSION_CHANGE_PERMISSION role granted rfl
    rw [authorizeRoles, hdone] at hbefore
    rw [hfails] at hafter
    refine .grant hfound hsplit hdone hfails ?_
    rw [hafter, hbefore, hs, hrealms]

theorem leftBehind_of_error (h : createSteps beans queueName start = .error cause t) :
    LeftBehind beans queueName start cause t := by
  rw [createSteps_apply] at h
  obtain hfails | ⟨exists_, asked, hexists, h⟩ := bind_eq_error.1 h
  · have hstate := holds_queueExists beans (physicalName queueName start.state.context) start rfl
    rw [hfails] at hstate
    obtain ⟨e, b, hquestion, ht⟩ := hstate
    exact .question hfails hquestion ht
  have hasked := asked_of_ok hexists
  cases exists_ with
  | true =>
    cases h
    exact .existing hasked rfl
  | false =>
    obtain hfails | ⟨_, stored, hregistered, h⟩ := bind_eq_error.1 h
    · exact leftBehind_registration hasked hfails
    have hstored := stored_of_ok hasked hregistered
    obtain hfails | ⟨_, built, hcreated, h⟩ := bind_eq_error.1 h
    · exact leftBehind_broker hstored hfails
    exact leftBehind_grantSteps (built_of_ok hstored hcreated) h

end

/-- Nothing but a normal return and a QueueManagerException without a change, as far as the
registry, the broker and the permissions go. -/
def Atomic (w : World β) : Prop :=
  ∀ outcomes e t, QueueManagerServiceImpl.createQueue beans queueName ⟨w, outcomes⟩ = .error e t →
    e.kind = .queueManager ∧ t.state.registries = w.registries ∧ t.state.broker = w.broker ∧
      t.state.realms = w.realms

/-- A failed creation has caught an exception, and its message, where it has one, is reported as a
QueueManagerException; the writes of the steps before the one that failed stay. -/
theorem createQueue_leaves {start t : At β} {e : JavaException}
    (h : QueueManagerServiceImpl.createQueue beans queueName start = .error e t) :
    ∃ cause, LeftBehind beans queueName start cause t ∧ e = asCreateQueueException queueName cause ∧
      (cause.message ≠ none → e.kind = .queueManager) := by
  rw [createQueue_eq, translate_apply] at h
  cases hresult : createSteps beans queueName start with
  | ok a u =>
    rw [hresult] at h
    cases h
  | error cause u =>
    rw [hresult] at h
    cases h
    refine ⟨cause, leftBehind_of_error hresult, rfl, fun hmessage => ?_⟩
    obtain ⟨message, hmessage⟩ := Option.ne_none_iff_exists'.1 hmessage
    unfold asCreateQueueException
    rw [hmessage]
    dsimp only
    split
    · rfl
    · split <;> rfl

def failingBroker : BrokerBeans Unit where
  isQueueExists _ := pure (some false)
  createNewQueue _ _ _ := throw ⟨.jmx, some "disk full".toList⟩
  createNewBinding _ _ := pure ()
  removeBinding _ _ := pure ()
  deleteQueue _ := pure ()
  deleteAllMessagesInQueue _ := pure ()

theorem createQueue_leaves_failing : ∃ cause e t,
    QueueManagerServiceImpl.createQueue failingBroker "q".toList
      ⟨World.initial QpidAuthorizationHandler.superContext (), []⟩ = .error e t ∧
    LeftBehind failingBroker "q".toList
      ⟨World.initial QpidAuthorizationHandler.superContext (), []⟩ cause t ∧
    e.kind = .queueManager := by
  obtain ⟨cause, hleft, -, -⟩ := @createQueue_leaves Unit failingBroker "q".toList
    ⟨World.initial QpidAuthorizationHandler.superContext (), []⟩ _ _ rfl
  exact ⟨cause, _, _, rfl, hleft, rfl⟩

/-- The broker refuses the queue, and its registry entry stays. -/
theorem failed_creation_registers : ¬Atomic failingBroker "q".toList
    (World.initial QpidAuthorizationHandler.superContext ()) := by
  intro hatomic
  obtain ⟨-, hregistries, -⟩ := hatomic [] _ _ rfl
  have hlookup := congrArg (Finmap.lookup (queueResource "q".toList))
    (congrFun hregistries SUPER_TENANT_ID)
  cases hlookup

end CarbonMessaging.CreationFailures
