import CarbonMessaging.CreationFailures

/-! Which queues the admin service lets a tenant touch. The names that reach the broker are
recorded, so that a name can be seen to reach it whatever the broker does with it. -/

namespace CarbonMessaging.AdminConfinement

open JavaLang FaultyCalls CommonsUtil RegistryClient CreationFailures
open QpidAuthorizationHandler (isOwnDomain)

variable {β : Type} (beans : BrokerBeans β)

inductive BrokerCall where
  | createNewQueue (queueName : Str)
  | createNewBinding (queueName : Str)
  | removeBinding (queueName : Str)
  | deleteQueue (queueName : Str)
  | deleteAllMessagesInQueue (queueName : Str)
  deriving DecidableEq

def BrokerCall.queueName : BrokerCall → Str
  | createNewQueue queueName | createNewBinding queueName | removeBinding queueName
  | deleteQueue queueName | deleteAllMessagesInQueue queueName => queueName

/-- A call's own effect, with the calls made with it put before the earlier ones. -/
def recorded {α : Type} (calls : List BrokerCall) (x : EStateM JavaException β α) :
    EStateM JavaException (β × List BrokerCall) α := fun s =>
  match x s.1 with
  | .ok a b => .ok a (b, calls ++ s.2)
  | .error e b => .error e (b, calls ++ s.2)

section
variable {α : Type} {calls : List BrokerCall} {x : EStateM JavaException β α}
  {s s' : β × List BrokerCall}

theorem recorded_eq_ok {a : α} : recorded calls x s = .ok a s' ↔
    ∃ b, x s.1 = .ok a b ∧ (b, calls ++ s.2) = s' := by
  unfold recorded
  cases x s.1 <;> simp

theorem recorded_eq_error {e : JavaException} : recorded calls x s = .error e s' ↔
    ∃ b, x s.1 = .error e b ∧ (b, calls ++ s.2) = s' := by
  unfold recorded
  cases x s.1 <;> simp

end

def recording : BrokerBeans (β × List BrokerCall) where
  isQueueExists queueName := recorded [] (beans.isQueueExists queueName)
  createNewQueue queueName owner durable :=
    recorded [.createNewQueue queueName] (beans.createNewQueue queueName owner durable)
  createNewBinding queueName bindingKey :=
    recorded [.createNewBinding queueName] (beans.createNewBinding queueName bindingKey)
  removeBinding queueName bindingKey :=
    recorded [.removeBinding queueName] (beans.removeBinding queueName bindingKey)
  deleteQueue queueName := recorded [.deleteQueue queueName] (beans.deleteQueue queueName)
  deleteAllMessagesInQueue queueName :=
    recorded [.deleteAllMessagesInQueue queueName] (beans.deleteAllMessagesInQueue queueName)

def watched (w : World β) : World (β × List BrokerCall) :=
  { context := w.context
    registries := w.registries
    realms := w.realms
    broker := (w.broker, [])
    adminRoleName := w.adminRoleName
    anonymousRoleName := w.anonymousRoleName
    now := w.now }

def asked (w : World β) (b : β) : World (β × List BrokerCall) :=
  { watched w with broker := (b, []) }

inductive AdminOperation where
  | createQueue | deleteQueue | purgeMessagesOfQueue
  deriving DecidableEq

def AdminOperation.run (queueName : Str) : AdminOperation → Carbon β Unit
  | createQueue => QueueManagerServiceImpl.createQueue beans queueName
  | deleteQueue => QueueManagerServiceImpl.deleteQueue beans queueName
  | purgeMessagesOfQueue => QueueManagerServiceImpl.purgeMessagesOfQueue beans queueName

def AdminOperation.physicalName (context : CarbonContext) (queueName : Str) :
    AdminOperation → Str
  | createQueue => getTenantBasedQueueName context queueName
  | deleteQueue | purgeMessagesOfQueue => queueName

def Owned (context : CarbonContext) (queueName : Str) : Prop :=
  isOwnDomain context.tenantDomain queueName = true

def NothingChanged (w : World β) (s : World (β × List BrokerCall)) : Prop :=
  s.broker.2 = [] ∧ s.registries = w.registries ∧ s.realms = w.realms

def leaves (operation : AdminOperation) (queueName : Str) (w : World β)
    (outcomes : List (Option JavaException)) : World (β × List BrokerCall) :=
  finalAt (operation.run (recording beans) queueName) ⟨watched w, outcomes⟩

/-- Wherever a service call fails: only owned names reach the broker, and on a name that is not
owned nothing is changed. -/
def Confined (operation : AdminOperation) (queueName : Str) (w : World β) : Prop :=
  ∀ outcomes,
    (∀ call ∈ (leaves beans operation queueName w outcomes).broker.2,
      Owned w.context call.queueName) ∧
    (¬Owned w.context (operation.physicalName w.context queueName) →
      NothingChanged w (leaves beans operation queueName w outcomes))

def Creatable (queueName : Str) (w : World β) : Prop :=
  (∃ answer b, beans.isQueueExists queueName w.broker = .ok answer b ∧ answer.getD false = false) ∧
    ∃ id entry, getQueueID w.context queueName = .ok id ∧
      writtenEntry (w.registries w.context.ownTenant) w.now queueName
        (QueueManagerServiceImpl.getLoggedInUserName w.context) id = .ok entry

def Present (queueName : Str) (w : World β) : Prop :=
  ∃ b, beans.isQueueExists queueName w.broker = .ok (some true) b

def PassesTests (w : World β) (queueName : Str) : AdminOperation → Prop
  | .createQueue => Creatable beans queueName w
  | .deleteQueue => Present beans queueName w
  | .purgeMessagesOfQueue => True

/-- Untouched by other stores, and kept by the record of one more call on the name. -/
structure OfRecord (queueName : Str) (I : World (β × List BrokerCall) → Prop) : Prop where
  frame (s s' : World (β × List BrokerCall)) (h : s'.broker.2 = s.broker.2) (hs : I s) : I s'
  call {s s' : World (β × List BrokerCall)} {calls : List BrokerCall}
    (hname : ∀ call ∈ calls, call.queueName = queueName)
    (h : s'.broker.2 = calls ++ s.broker.2) (hs : I s) : I s'

section
variable {beans} {queueName : Str} {I : World (β × List BrokerCall) → Prop}
  (hI : OfRecord queueName I)

include hI

theorem keeps_recorded {α : Type} {calls : List BrokerCall}
    (hname : ∀ call ∈ calls, call.queueName = queueName) (x : EStateM JavaException β α) :
    Keeps I (invoke (recorded calls x)) := by
  refine holds_invoke (fun w a b hw hrun => ?_) fun w e b hw hrun => ?_
  · obtain ⟨b', -, rfl⟩ := recorded_eq_ok.1 hrun
    exact hI.call hname rfl hw
  · obtain ⟨b', -, rfl⟩ := recorded_eq_error.1 hrun
    exact hI.call hname rfl hw

theorem keeps_asked (queueName' : Str) :
    Keeps I (QueueManagementBeans.queueExists (recording beans) queueName') :=
  QueueManagementBeans.keeps_queueExists (keeps_recorded hI (by simp) _)

theorem keeps_grantSteps (queueName' : Str) : Keeps I (grantSteps queueName') := by
  refine keeps_bind (keeps_peek _) fun _ => keeps_bind (keeps_query _) fun _ => ?_
  refine keeps_bind (keeps_peek _) fun _ => keeps_bind (keeps_orRaise _) fun _ => ?_
  refine keeps_bind (keeps_peek _) fun _ => keeps_bind (keeps_query _) fun _ => ?_
  exact QpidAuthorizationHandler.keeps_authorizeRoles (fun s _ _ _ hs => hI.frame s _ rfl hs) _

theorem keeps_creation (owner : Str) : Keeps I
    (QueueManagementBeans.createQueue (recording beans) queueName owner) :=
  QueueManagementBeans.keeps_createQueue
    (keeps_recorded hI (by simp [BrokerCall.queueName]) _)
    (keeps_recorded hI (by simp [BrokerCall.queueName]) _)

theorem keeps_deletion : Keeps I
    (QueueManagementBeans.deleteQueue (recording beans) queueName) :=
  QueueManagementBeans.keeps_deleteQueue
    (keeps_recorded hI (by simp [BrokerCall.queueName]) _)
    (keeps_recorded hI (by simp [BrokerCall.queueName]) _)

end

theorem ofRecord_only (queueName : Str) : OfRecord (β := β) queueName fun s =>
    ∀ call ∈ s.broker.2, call.queueName = queueName where
  frame s s' h hs := by rwa [h]
  call hname h hs := by
    rw [h]
    intro call hcall
    rcases List.mem_append.1 hcall with hcall | hcall
    · exact hname call hcall
    · exact hs call hcall

theorem ofRecord_some (queueName : Str) : OfRecord (β := β) queueName fun s =>
    ∃ call ∈ s.broker.2, call.queueName = queueName where
  frame s s' h hs := by rwa [h]
  call _ h hs := by
    obtain ⟨call, hcall, hname⟩ := hs
    rw [h]
    exact ⟨call, List.mem_append_right _ hcall, hname⟩

section
variable {beans} {queueName : Str} {w : World β}

theorem holds_run {I : World (β × List BrokerCall) → Prop} (operation : AdminOperation)
    (hI : OfRecord (operation.physicalName w.context queueName) I) (hw : I (watched w)) :
    Holds (· = watched w) (operation.run (recording beans) queueName) (fun _ => I)
      (fun _ => I) := by
  have hstart : ∀ {x : Carbon (β × List BrokerCall) Unit}, Keeps I x →
      Holds (· = watched w) x (fun _ => I) (fun _ => I) := fun h =>
    h.mono (fun _ hs => hs ▸ hw) (fun _ _ hs => hs) fun _ _ hs => hs
  cases operation with
  | createQueue =>
    refine holds_translate (holds_peek_bind (holds_peek_bind (hstart ?_)))
    refine keeps_bind (keeps_asked hI _) fun exists_ => ?_
    split
    · refine keeps_bind (keeps_createQueue (fun s _ _ _ hs => hI.frame s _ rfl hs) _ _) fun _ => ?_
      exact keeps_bind (keeps_creation hI _) fun _ => keeps_grantSteps hI _
    · exact keeps_raise _
  | deleteQueue =>
    refine holds_translate (holds_peek_bind (hstart (keeps_bind (keeps_query _) fun _ => ?_)))
    refine keeps_bind (keeps_asked hI _) fun exists_ => ?_
    split
    · exact keeps_bind (keeps_deletion hI) fun _ =>
        keeps_registryDelete _ _ fun s hs => hI.frame s _ rfl hs
    · exact keeps_pure _
  | purgeMessagesOfQueue =>
    exact holds_translate (holds_translate (hstart
      (keeps_recorded hI (by simp [BrokerCall.queueName, AdminOperation.physicalName]) _)))

theorem holds_asked (queueName' : Str) :
    Holds (· = watched w) (QueueManagementBeans.queueExists (recording beans) queueName')
      (fun exists_ s => ∃ answer b, beans.isQueueExists queueName' w.broker = .ok answer b ∧
        exists_ = answer.getD false ∧ s = asked w b)
      (fun _ s => NothingChanged w s) := by
  refine (holds_queueExists (recording beans) queueName').mono (fun _ hs => hs) ?_ ?_
  · rintro exists_ _ ⟨answer, b, hasked, hexists, rfl⟩
    obtain ⟨b', hanswer, rfl⟩ := recorded_eq_ok.1 hasked
    exact ⟨answer, b', hanswer, hexists, rfl⟩
  · rintro _ _ ⟨e, b, hasked, rfl⟩
    obtain ⟨b', -, rfl⟩ := recorded_eq_error.1 hasked
    exact ⟨rfl, rfl, rfl⟩

theorem holds_refused {operation : AdminOperation}
    (h : ¬PassesTests beans w (operation.physicalName w.context queueName) operation) :
    Holds (· = watched w) (operation.run (recording beans) queueName)
      (fun _ s => NothingChanged w s) (fun _ s => NothingChanged w s) := by
  cases operation with
  | createQueue =>
    refine holds_translate (holds_peek_bind (holds_peek_bind
      (holds_bind (holds_asked _) fun exists_ => holds_of_states fun s hs => ?_)))
    obtain ⟨answer, b, hasked, rfl, rfl⟩ := hs
    split
    · rename_i hnone
      refine holds_bind (Q := fun _ _ => False)
        ((holds_createQueue _ _).mono (fun _ hs => hs) ?_ ?_)
        fun _ => fun _ hs => hs.elim
      · rintro _ _ ⟨id, entry, hid, hentry, -⟩
        exact h ⟨⟨answer, b, hasked, by simpa using hnone⟩, id, entry, hid, hentry⟩
      · rintro _ _ rfl
        exact ⟨rfl, rfl, rfl⟩
    · refine holds_raise ?_
      rintro _ rfl
      exact ⟨rfl, rfl, rfl⟩
  | deleteQueue =>
    refine holds_translate (holds_peek_bind (holds_query_bind (fun _ => ⟨rfl, rfl, rfl⟩)
      (holds_bind (holds_asked _) fun exists_ => holds_of_states fun s hs => ?_)))
    obtain ⟨answer, b, hasked, rfl, rfl⟩ := hs
    split
    · rename_i hsome
      refine absurd ⟨b, ?_⟩ h
      cases answer with
      | none => cases hsome
      | some answer =>
        cases hsome
        exact hasked
    · refine holds_pure ?_
      rintro _ rfl
      exact ⟨rfl, rfl, rfl⟩
  | purgeMessagesOfQueue => exact absurd trivial h

theorem holds_recorded {α : Type} (call : BrokerCall) (x : EStateM JavaException β α) :
    Holds (fun _ => True) (invoke (recorded [call] x))
      (fun _ s => ∃ call' ∈ s.broker.2, call'.queueName = call.queueName)
      (fun _ s => ∃ call' ∈ s.broker.2, call'.queueName = call.queueName) := by
  refine holds_invoke (fun w a b _ hrun => ?_) fun w e b _ hrun => ?_
  · obtain ⟨b', -, rfl⟩ := recorded_eq_ok.1 hrun
    exact ⟨call, by simp, rfl⟩
  · obtain ⟨b', -, rfl⟩ := recorded_eq_error.1 hrun
    exact ⟨call, by simp, rfl⟩

theorem queueExists_quiet {queueName' : Str} {answer : Option Bool} {b : β}
    (hasked : beans.isQueueExists queueName' w.broker = .ok answer b) :
    QueueManagementBeans.queueExists (recording beans) queueName' ⟨watched w, []⟩ =
      .ok (answer.getD false) ⟨asked w b, []⟩ := by
  simp [QueueManagementBeans.queueExists, invoke, recording, recorded, watched, asked, hasked]

theorem reached {operation : AdminOperation}
    (h : PassesTests beans w (operation.physicalName w.context queueName) operation) :
    ∃ call ∈ (leaves beans operation queueName w []).broker.2,
      call.queueName = operation.physicalName w.context queueName := by
  have hI := ofRecord_some (β := β) (operation.physicalName w.context queueName)
  cases operation with
  | createQueue =>
    obtain ⟨⟨answer, b, hasked, hnone⟩, id, entry, hid, hentry⟩ := h
    have hexists : QueueManagementBeans.queueExists (recording beans)
        (getTenantBasedQueueName (watched w).context queueName) ⟨watched w, []⟩ =
          .ok false ⟨asked w b, []⟩ := hnone ▸ queueExists_quiet hasked
    have hregistered : RegistryClient.createQueue
        (getTenantBasedQueueName (watched w).context queueName)
        (QueueManagerServiceImpl.getLoggedInUserName (watched w).context)
        ⟨asked w b, []⟩ = .ok () _ := createQueue_written hid hentry
    rw [leaves, AdminOperation.run, createQueue_eq, finalAt_translate, createSteps,
      finalAt_bind (context_apply _)]
    dsimp only
    rw [finalAt_bind (context_apply _)]
    dsimp only
    rw [finalAt_bind hexists, Bool.not_false, if_pos rfl, finalAt_bind hregistered]
    exact Holds.finalAt (holds_bind (holds_translate (holds_bind
      (holds_recorded (.createNewQueue (getTenantBasedQueueName w.context queueName)) _) fun _ =>
        keeps_recorded hI (by simp [BrokerCall.queueName, AdminOperation.physicalName, watched])
          _)) fun _ => keeps_grantSteps hI queueName) trivial
  | deleteQueue =>
    obtain ⟨b, hasked⟩ := h
    have hexists : QueueManagementBeans.queueExists (recording beans) queueName ⟨watched w, []⟩ =
        .ok true ⟨asked w b, []⟩ := queueExists_quiet hasked
    rw [leaves, AdminOperation.run, QueueManagerServiceImpl.deleteQueue, finalAt_translate,
      finalAt_bind (context_apply _)]
    rw [getGovernanceSystemRegistry, finalAt_bind (query_quiet _ _)]
    dsimp only
    rw [finalAt_bind hexists]
    refine Holds.finalAt (holds_bind (holds_translate (holds_bind
      (holds_recorded (.removeBinding queueName) _) fun _ =>
        keeps_recorded hI (by simp [BrokerCall.queueName, AdminOperation.physicalName]) _)) fun _ =>
          keeps_registryDelete _ _ fun s hs => hI.frame s _ rfl hs) trivial
  | purgeMessagesOfQueue =>
    exact (holds_translate (holds_translate (holds_recorded (.deleteAllMessagesInQueue queueName)
      _))).finalAt trivial

end

/-- Nothing but the operation's own tests stands before the broker: a name has to be owned, or to
fail them. -/
theorem confined_iff (operation : AdminOperation) (queueName : Str) (w : World β) :
    Confined beans operation queueName w ↔
      Owned w.context (operation.physicalName w.context queueName) ∨
        ¬PassesTests beans w (operation.physicalName w.context queueName) operation := by
  constructor
  · intro hconfined
    by_contra! hforeign
    obtain ⟨hforeign, hpasses⟩ := hforeign
    obtain ⟨call, hcall, hname⟩ := reached hpasses
    exact hforeign (hname ▸ (hconfined []).1 call hcall)
  · intro h outcomes
    have honly : ∀ call ∈ (leaves beans operation queueName w outcomes).broker.2,
        call.queueName = operation.physicalName w.context queueName :=
      Holds.finalAt (holds_run operation (ofRecord_only _) fun _ hcall => by cases hcall) rfl
    rcases h with howned | hrefused
    · exact ⟨fun call hcall => (honly call hcall).symm ▸ howned, fun h => absurd howned h⟩
    · have hnothing : NothingChanged w (leaves beans operation queueName w outcomes) :=
        Holds.finalAt (holds_refused hrefused) rfl
      refine ⟨fun call hcall => ?_, fun _ => hnothing⟩
      rw [hnothing.1] at hcall
      cases hcall

def fooWorld : World Unit := World.initial ⟨1, some "foo".toList, "admin".toList⟩ ()

theorem foreign_queues_reached :
    ¬Confined failingBroker .createQueue "bar/foo".toList fooWorld ∧
    ¬Confined fullBroker .deleteQueue "bar/q".toList fooWorld ∧
    ¬Confined fullBroker .purgeMessagesOfQueue "bar/q".toList fooWorld := by
  refine ⟨fun h => ?_, fun h => ?_, fun h => ?_⟩
  · exact absurd ((h []).1 (.createNewQueue "bar/foo".toList) (by decide)) Bool.false_ne_true
  · exact absurd ((h []).1 (.deleteQueue "bar/q".toList) (by decide)) Bool.false_ne_true
  · exact absurd ((h []).1 (.deleteAllMessagesInQueue "bar/q".toList) (by decide))
      Bool.false_ne_true

end CarbonMessaging.AdminConfinement
