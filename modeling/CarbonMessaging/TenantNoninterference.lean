import CarbonMessaging.CreateDeleteInverse
import CarbonMessaging.RequestFrames

/-! Requests of many tenants on one platform, in any order and with any failures: the broker's
operations by whoever is connected and the admin service's by whoever is logged in. What the
requests of one tenant are answered never depends on the others'. -/

namespace CarbonMessaging.TenantNoninterference

open JavaLang FaultyCalls CommonsUtil RegistryClient QpidAuthorizationHandler TenantViews
open QpidAuthorizationPlugin TenantBlindness RequestFrames

variable {β : Type} {tables : QueueTables β} {tenant : Int} {c : CarbonContext} {w s : World β}

theorem written_own (hc : c.ownTenant = tenant) (hs : s.context = c) :
    0 < s.context.ownTenant → s.context.ownTenant = tenant := fun _ => by rw [hs, hc]

theorem keptByQueues_confinedIn (hc : c.ownTenant = tenant) :
    KeptByQueues (ownerOf · = tenant) (ConfinedIn tables tenant c w) where
  register s queueName owner id entry hs _ hentry := by
    obtain ⟨hwritten, hcounted⟩ := writtenEntry_counted hs.1.counted s.context.ownTenant s.now
      queueName owner id
    rw [hentry, Except.ok.injEq] at hwritten
    exact ⟨hs.1.putEntry (written_own hc hs.2) id (hwritten ▸ hcounted), hs.2⟩
  lower s _ id queue count hs _ hqueue := by
    refine ⟨hs.1.putEntry (fun hpos => absurd hpos (by decide)) id ?_, hs.2⟩
    exact counted_insert (hs.1.counted _ _ _ hqueue) fun _ => parseInt_wrapInt _
  remove s _ id hs _ := ⟨hs.1.deleteEntry (fun hpos => absurd hpos (by decide)) id, hs.2⟩
  grant s realm cell value hrealm hs := ⟨hs.1.setCell hrealm cell value, hs.2⟩

theorem keptByTopics_confinedIn (hc : c.ownTenant = tenant) :
    KeptByTopics (ConfinedIn tables tenant c w) where
  subscribe s topic subscriptionName owner hs := by
    refine ⟨hs.1.putEntry (written_own hc hs.2) _ ?_, hs.2⟩
    exact counted_subscriptionEntry (counted_lookup hs.1.counted _ _) _ _ _
  unsubscribe s topic subscriptionName hs :=
    ⟨hs.1.deleteEntry (written_own hc hs.2) _, hs.2⟩

theorem realmOf_tenant {surroundings : Surroundings} (hcoherent : Coherent surroundings)
    {username : Str} {realm : Int}
    (h : OperationMediation.realmOf surroundings username = some realm) :
    ownerOf realm = (tenantContext surroundings username).ownTenant := by
  unfold OperationMediation.realmOf at h
  obtain ⟨realmService, hservice, h⟩ := Option.bind_eq_some_iff.1 h
  obtain ⟨tenantID, hid, h⟩ := Option.bind_eq_some_iff.1 h
  rw [ownTenant_eq, hcoherent.realm realmService tenantID realm hservice h]
  unfold OperationMediation.tenantIdOf at hid
  unfold tenantContext
  cases hdomain : domainNameOf username with
  | none =>
    rw [hdomain] at hid
    cases hid
    rfl
  | some domainName =>
    rw [hdomain] at hid
    obtain ⟨tenantManager, hmanager, rfl⟩ := Option.map_eq_some_iff.1 hid
    rw [hcoherent.tenantManager realmService tenantManager hservice hmanager]

theorem keeps_authorise {surroundings : Surroundings} (hcoherent : Coherent surroundings)
    (htenant : principalTenant surroundings = tenant) (operation : Operation)
    (objectType : ObjectType) (properties : ObjectProperties) :
    Keeps (Confined tables tenant w)
      (authorise surroundings operation objectType properties : Carbon β Result) := by
  refine holds_authorise (Q := fun _ => Confined tables tenant w)
    (fun s context hs => hs.inContext context) (fun _ s context hs => hs.inContext context)
    (fun _ hs => hs) (fun _ _ hs => hs)
    fun username others userRealm hsubject hrealm => ?_
  unfold principalTenant at htenant
  rw [hsubject] at htenant
  refine (keeps_dispatch _ properties (keptByQueues_confinedIn htenant)
    (keptByTopics_confinedIn htenant) (fun realm huser => ?_) operation objectType).mono
      (fun _ hs => hs) (fun _ _ hs => hs.1) fun _ _ hs => hs.1
  rw [realmOf_tenant hcoherent (hrealm realm huser)]
  exact htenant

section
open QueueManagerServiceImpl

variable {beans : BrokerBeans β} (hlaws : tables.Laws beans)

theorem keeps_ownInvoke {α : Type} {x : EStateM JavaException β α} {queueName : Str}
    (hx : tables.Concerns queueName x) (hname : tables.owner queueName = tenant) :
    Keeps (ConfinedIn tables tenant c w) (invoke x) := by
  have hends {s : World β} {b : β} (hs : ConfinedIn tables tenant c w s)
      (hb : (ended (x s.broker)).2 = b) :
      ConfinedIn tables tenant c w { s with broker := b } := by
    subst hb
    exact ⟨hs.1.withBroker (hx.onlyFor hname s.broker), hs.2⟩
  refine holds_invoke (fun s a b hs hok => ?_) fun s e b hs herror => ?_
  · exact hends hs (by rw [hok]; rfl)
  · exact hends hs (by rw [herror]; rfl)

include hlaws in
theorem keptByBeans_confinedIn {queueName : Str} (hname : tables.owner queueName = tenant) :
    KeptByBeans beans queueName (ConfinedIn tables tenant c w) where
  isQueueExists := keeps_ownInvoke (hlaws.isQueueExists _) hname
  createNewQueue _ _ := keeps_ownInvoke (hlaws.createNewQueue _ _ _) hname
  createNewBinding _ := keeps_ownInvoke (hlaws.createNewBinding _ _) hname
  removeBinding _ := keeps_ownInvoke (hlaws.removeBinding _ _) hname
  deleteQueue := keeps_ownInvoke (hlaws.deleteQueue _) hname

theorem ownRealm (hc : c.ownTenant = tenant) (s : World β)
    (hs : ConfinedIn tables tenant c w s) : ownerOf s.context.ownTenant = tenant := by
  rw [hs.2, ownerOf_ownTenant, hc]

include hlaws in
theorem keeps_deleteQueue (hc : c.ownTenant = tenant) {queueName : Str}
    (hname : tables.owner queueName = tenant) :
    Keeps (ConfinedIn tables tenant c w)
      (QueueManagerServiceImpl.deleteQueue beans queueName) := by
  refine keeps_adminDeleteQueue queueName (keptByBeans_confinedIn hlaws hname) fun s t hs ht =>
    ⟨ht.1.deleteEntry (fun hpos => ?_) _, ht.2⟩
  rw [hs.2] at hpos ⊢
  rw [← hc, ownTenant_eq, ownerOf, if_neg (not_le.2 hpos)]

end

/-- What comes from a tenant: an operation that the plugin is to judge, the broker's own work for a
connection, or a call of the admin service. -/
inductive Request (β : Type) where
  | authorise (operation : Operation) (objectType : ObjectType) (properties : ObjectProperties)
  | connection (work : β → β)
  | createQueue (queueName : Str)
  | deleteQueue (queueName : Str)
  | updatePermission (queueName : Str) (queueRolePermissions : List QueueRolePermission)
  | getQueueRolePermission (queueName : Str)

/-- A request with everything its thread brings along: who is logged in there or connected, the
time, and which calls will fail. -/
structure Call (β : Type) where
  thread : CarbonContext
  subject : Option (List Str)
  now : Str
  outcomes : List (Option JavaException)
  request : Request β

inductive Answer where
  | decided (result : Result)
  | done
  | permissions (queueRolePermissions : List QueueRolePermission)

section
variable (surroundings : Surroundings) (beans : BrokerBeans β)

def Call.broker (call : Call β) : Surroundings :=
  { surroundings with threadSubject := call.subject }

def Call.run (call : Call β) : Carbon β Answer :=
  match call.request with
  | .authorise operation objectType properties => do
    pure (.decided (← authorise (call.broker surroundings) operation objectType properties))
  | .connection work => do
    poke fun w => { w with broker := work w.broker }
    pure .done
  | .createQueue queueName => do
    QueueManagerServiceImpl.createQueue beans queueName
    pure .done
  | .deleteQueue queueName => do
    QueueManagerServiceImpl.deleteQueue beans queueName
    pure .done
  | .updatePermission queueName queueRolePermissions => do
    QueueManagerServiceImpl.updatePermission beans queueName queueRolePermissions
    pure .done
  | .getQueueRolePermission queueName => do
    pure (.permissions (← QueueManagerServiceImpl.getQueueRolePermission beans queueName))

def Call.enter (call : Call β) (w : World β) : World β :=
  { w with context := call.thread, now := call.now }

def serve (call : Call β) (w : World β) : Except JavaException Answer × World β :=
  match call.run surroundings beans ⟨call.enter w, call.outcomes⟩ with
  | .ok answer t => (.ok answer, t.state)
  | .error e t => (.error e, t.state)

/-- The broker works for its principal's tenant, the admin service for the thread's. -/
def Call.ownTenant (call : Call β) : Int :=
  match call.request with
  | .authorise .. | .connection _ => principalTenant (call.broker surroundings)
  | _ => call.thread.ownTenant

/-- The broker is asked about queues of the request's own tenant only. -/
def Call.NamesOwn (tables : QueueTables β) (call : Call β) : Prop :=
  match call.request with
  | .authorise .. => True
  | .connection work =>
    (∀ b, tables.OnlyFor (call.ownTenant surroundings) b (work b)) ∧
      ∀ b b', tables.SameFor (call.ownTenant surroundings) b b' →
        tables.SameFor (call.ownTenant surroundings) (work b) (work b')
  | .createQueue queueName | .updatePermission queueName _ | .getQueueRolePermission queueName =>
    tables.owner (getTenantBasedQueueName call.thread queueName) =
      call.ownTenant surroundings
  | .deleteQueue queueName => tables.owner queueName = call.ownTenant surroundings

/-- The answer tells nothing of the super tenant's registry: a deletion of a queue meets no
failure, nor does the super tenant's unbinding, and the super tenant does not ask the admin
service for a deletion. -/
def Call.Sheltered (call : Call β) : Prop :=
  match call.request with
  | .authorise operation objectType _ =>
    (operation = .DELETE → objectType = .QUEUE → call.outcomes = []) ∧
      (operation = .UNBIND → 0 < call.ownTenant surroundings ∨ call.outcomes = [])
  | .deleteQueue _ => 0 < call.ownTenant surroundings
  | _ => True

end

section
variable {surroundings : Surroundings} {beans : BrokerBeans β} (hcoherent : Coherent surroundings)
  (hlaws : tables.Laws beans) {call : Call β} (hnames : call.NamesOwn surroundings tables)
  {w w' : World β}

include hcoherent

theorem coherent_broker (call : Call β) : Coherent (call.broker surroundings) :=
  ⟨hcoherent.tenantManager, hcoherent.realm⟩

include hlaws hnames

theorem holds_run : Holds (ConfinedIn tables (call.ownTenant surroundings) call.thread w)
    (call.run surroundings beans) (fun _ => Confined tables (call.ownTenant surroundings) w)
    (fun _ => Confined tables (call.ownTenant surroundings) w) := by
  obtain ⟨thread, subject, now, outcomes, request⟩ := call
  have hdone {α : Type} {x : Carbon β α} {f : α → Answer} {t : Int}
      (h : Keeps (ConfinedIn tables t thread w) x) :
      Holds (ConfinedIn tables t thread w) (x >>= fun a => pure (f a))
        (fun _ => Confined tables t w) (fun _ => Confined tables t w) :=
    (keeps_bind h fun _ => keeps_pure _).mono (fun _ hs => hs) (fun _ _ hs => hs.1)
      fun _ _ hs => hs.1
  cases request with
  | authorise operation objectType properties =>
    refine holds_bind (Q := fun _ => Confined tables _ w) ?_ fun _ => holds_pure fun _ hs => hs
    exact (keeps_authorise (coherent_broker hcoherent _) rfl operation objectType properties).mono
      (fun _ hs => hs.1) (fun _ _ hs => hs) fun _ _ hs => hs
  | connection work =>
    refine hdone (holds_poke fun s hs => ?_)
    exact ⟨hs.1.withBroker (hnames.1 s.broker), hs.2⟩
  | createQueue queueName =>
    exact hdone (keeps_adminCreateQueue queueName
      (fun s hs => keptByBeans_confinedIn hlaws (by rw [hs.2]; exact hnames))
      (keptByQueues_confinedIn rfl) (ownRealm rfl))
  | deleteQueue queueName => exact hdone (keeps_deleteQueue hlaws rfl hnames)
  | updatePermission queueName permissions =>
    exact hdone (keeps_updatePermission queueName
      (fun s hs => keptByBeans_confinedIn hlaws (by rw [hs.2]; exact hnames))
      (keptByQueues_confinedIn rfl) (ownRealm rfl) permissions)
  | getQueueRolePermission queueName =>
    exact hdone (keeps_getQueueRolePermission queueName
      fun s hs => keptByBeans_confinedIn hlaws (by rw [hs.2]; exact hnames))

theorem serve_confined (hw : AllCounted w) :
    Confined tables (call.ownTenant surroundings) w (serve surroundings beans call w).2 := by
  have hrun : Holds (ConfinedIn tables (call.ownTenant surroundings) call.thread w)
      (call.run surroundings beans) (fun _ => Confined tables (call.ownTenant surroundings) w)
      (fun _ => Confined tables (call.ownTenant surroundings) w) :=
    holds_run hcoherent hlaws hnames
  have h := hrun ⟨call.enter w, call.outcomes⟩
    ⟨((confined_refl hw).inContext call.thread).atTime call.now, rfl⟩
  unfold serve
  generalize call.run surroundings beans ⟨call.enter w, call.outcomes⟩ = r at h ⊢
  cases r with
  | ok answer t => exact h
  | error e t => exact h

theorem alike_run (hsheltered : call.Sheltered surroundings) {forecast : Forecast JavaException}
    (hforecast : call.outcomes = [] → forecast = .clear) :
    Alike forecast (Within tables (call.ownTenant surroundings) call.thread call.now)
      (call.run surroundings beans) (call.run surroundings beans)
      (fun answer answer' s s' =>
        answer = answer' ∧ SameView tables (call.ownTenant surroundings) s s')
      (SameView tables (call.ownTenant surroundings)) := by
  obtain ⟨thread, subject, now, outcomes, request⟩ := call
  have hdone {α : Type} {x : Carbon β α} {f : α → Answer} {t : Int}
      (h : Blind forecast (Within tables t thread now) x) :
      Alike forecast (Within tables t thread now) (x >>= fun a => pure (f a))
        (x >>= fun a => pure (f a)) (fun answer answer' s s' => answer = answer' ∧
          SameView tables t s s') (SameView tables t) :=
    (blind_bind h fun _ => blind_pure _).mono (fun _ _ hs => hs)
      (fun _ _ _ _ hs => ⟨hs.1, hs.2.1⟩) fun _ _ hs => hs.1
  cases request with
  | authorise operation objectType properties =>
    obtain ⟨hdelete, hunbind⟩ := hsheltered
    have hforeseen : Foreseen forecast _ operation objectType :=
      ⟨fun hoperation htype => hforecast (hdelete hoperation htype),
        fun hoperation => (hunbind hoperation).imp id hforecast⟩
    refine alike_bind
      (alike_authorise (coherent_broker hcoherent _) rfl hforeseen properties)
      fun result result' => ?_
    refine alike_of_fact fun hsame => alike_pure fun s s' hs => ⟨?_, hs⟩
    rw [hsame]
  | connection work =>
    refine hdone (alike_poke fun s s' hs => ⟨rfl, ?_, hs.2⟩)
    exact hs.1.withBroker (hnames.2 _ _ hs.1.queues)
  | createQueue queueName => exact hdone (blind_adminCreateQueue hlaws rfl queueName hnames)
  | deleteQueue queueName =>
    exact hdone (blind_adminDeleteQueue hlaws queueName rfl hsheltered hnames)
  | updatePermission queueName permissions =>
    exact hdone (blind_updatePermission hlaws rfl queueName hnames permissions)
  | getQueueRolePermission queueName =>
    exact hdone (blind_getQueueRolePermission hlaws rfl queueName hnames)

theorem serve_alike (hsheltered : call.Sheltered surroundings)
    (h : SameView tables (call.ownTenant surroundings) w w') :
    (serve surroundings beans call w).1 = (serve surroundings beans call w').1 ∧
      SameView tables (call.ownTenant surroundings) (serve surroundings beans call w).2
        (serve surroundings beans call w').2 := by
  obtain ⟨forecast, hallows, hforecast⟩ : ∃ forecast : Forecast JavaException,
      forecast.allows call.outcomes ∧ (call.outcomes = [] → forecast = .clear) := by
    by_cases houtcomes : call.outcomes = []
    · exact ⟨.clear, houtcomes, fun _ => rfl⟩
    · exact ⟨.any, trivial, fun hnone => absurd hnone houtcomes⟩
  have hends := alike_run hcoherent hlaws hnames hsheltered hforecast (call.enter w)
    (call.enter w') call.outcomes hallows
    ⟨(h.inContext call.thread call.thread).atTime call.now, ⟨rfl, rfl⟩, rfl, rfl⟩
  unfold serve
  generalize call.run surroundings beans ⟨call.enter w, call.outcomes⟩ = r at hends ⊢
  generalize call.run surroundings beans ⟨call.enter w', call.outcomes⟩ = r' at hends ⊢
  cases hends with
  | ok _ h => exact ⟨congrArg Except.ok h.1, h.2⟩
  | error _ h => exact ⟨rfl, h⟩

end

def twoTenantsId (domain : Str) : Int := if domain = "foo".toList then 1 else 2

def twoTenants : Surroundings where
  threadSubject := none
  realmService := some ⟨some twoTenantsId, some⟩
  resolveTenantId := twoTenantsId
  getDefault := .DENIED

def listTables : QueueTables (List Str × List (Str × Str)) where
  Entry := Bool × List (Str × Str)
  entry b queueName := (b.1.contains queueName, b.2.filter fun binding => binding.1 = queueName)
  owner queueName :=
    if "foo/".toList <+: queueName then 1
    else if "bar/".toList <+: queueName then 2
    else SUPER_TENANT_ID

theorem listTables_entry_iff {b b' : List Str × List (Str × Str)} {queueName : Str} :
    listTables.entry b queueName = listTables.entry b' queueName ↔
      (queueName ∈ b.1 ↔ queueName ∈ b'.1) ∧
        b.2.filter (·.1 = queueName) = b'.2.filter (·.1 = queueName) := by
  simp [listTables]

open CreateDeleteInverse in
theorem listTables_laws : listTables.Laws listBroker where
  isQueueExists queueName := by
    refine ⟨fun b b' h => ⟨?_, h⟩, fun _ _ _ => rfl⟩
    simp [ended, listBroker, (listTables_entry_iff.1 h).1]
  createNewQueue queueName owner durable := by
    refine ⟨fun b b' h => ⟨rfl, ?_⟩, fun b other hother => ?_⟩
    · exact listTables_entry_iff.2 ⟨by simp [ended, listBroker], (listTables_entry_iff.1 h).2⟩
    · exact listTables_entry_iff.2 ⟨by simp [ended, listBroker, hother], rfl⟩
  createNewBinding queueName bindingKey := by
    refine ⟨fun b b' h => ⟨rfl, ?_⟩, fun b other hother => ?_⟩
    · obtain ⟨hqueue, hbindings⟩ := listTables_entry_iff.1 h
      exact listTables_entry_iff.2 ⟨hqueue, by simp [ended, listBroker, hbindings]⟩
    · exact listTables_entry_iff.2 ⟨Iff.rfl, by simp [ended, listBroker, Ne.symm hother]⟩
  removeBinding queueName bindingKey := by
    refine ⟨fun b b' h => ⟨rfl, ?_⟩, fun b other hother => ?_⟩
    · obtain ⟨hqueue, hbindings⟩ := listTables_entry_iff.1 h
      have hcomm (l : List (Str × Str)) :
          (l.filter (· != (queueName, bindingKey))).filter (·.1 = queueName) =
            (l.filter (·.1 = queueName)).filter (· != (queueName, bindingKey)) := by
        simp only [List.filter_filter, Bool.and_comm]
      refine listTables_entry_iff.2 ⟨hqueue, ?_⟩
      exact (hcomm b.2).trans (hbindings ▸ (hcomm b'.2).symm)
    · refine listTables_entry_iff.2 ⟨Iff.rfl, ?_⟩
      change (b.2.filter (· != (queueName, bindingKey))).filter (·.1 = other) = _
      rw [List.filter_filter]
      refine List.filter_congr fun binding _ => ?_
      by_cases hname : binding.1 = other
      · have hne : binding ≠ (queueName, bindingKey) := by
          rintro rfl
          exact hother hname.symm
        simp [hname, hne]
      · simp [hname]
  deleteQueue queueName := by
    refine ⟨fun b b' h => ⟨rfl, ?_⟩, fun b other hother => ?_⟩
    · exact listTables_entry_iff.2 ⟨by simp [ended, listBroker], (listTables_entry_iff.1 h).2⟩
    · exact listTables_entry_iff.2 ⟨by simp [ended, listBroker, hother], rfl⟩

def barCreates : Call β where
  thread := superContext
  subject := some ["bob!bar".toList]
  now := "0".toList
  outcomes := [none, some ⟨.userStore, none⟩]
  request := .authorise .CREATE .QUEUE ⟨some "bar/q".toList, none, none⟩

def adminCall (tenantId : Int) (tenantDomain : String) (request : Request β) : Call β where
  thread := ⟨tenantId, some tenantDomain.toList, "admin".toList⟩
  subject := none
  now := "1".toList
  outcomes := []
  request := request

/-- Both tenants have a queue `q`, and bar's is deleted before foo asks for its permissions. -/
def twoQueues : List (Call (List Str × List (Str × Str))) :=
  [adminCall 2 "bar" (.createQueue "q".toList), barCreates,
    adminCall 1 "foo" (.createQueue "q".toList), adminCall 2 "bar" (.deleteQueue "bar/q".toList),
    adminCall 1 "foo" (.getQueueRolePermission "q".toList)]

end CarbonMessaging.TenantNoninterference
