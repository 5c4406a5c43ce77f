import CarbonMessaging.RolePermissionForm

/-! What the console tells the user about a call to the backend: the admin service wraps the
exception of the queue manager, a page catches the fault of the stub, and the script looks for the
word `Error` in what the page printed. -/

namespace CarbonMessaging.ConsoleOutcome

open JavaLang

-- `AndesAdminService`. Of an exception that a method throws, the stub gets to know whether it is
-- the declared one.

inductive Fault where
  | brokerManagerAdminException (errorMessage : Str)
  | other
  deriving DecidableEq

def withQueueManager (message : Str) (queueManager : Except JavaException Unit) :
    Except Fault Unit :=
  match queueManager with
  | .ok _ => .ok ()
  | .error e =>
    if e.kind = .queueManager then
      .error (.brokerManagerAdminException (message ++ e.messageText))
    else .error .other

namespace AndesAdminService

/-- Without permissions the queue manager is not called. -/
def updatePermission (permissions : List RolePermissionForm.QueueRolePermission)
    (queueManager : Except JavaException Unit) : Except Fault Unit :=
  if permissions ≠ [] then
    withQueueManager "Unable to update permission of the queue. ".toList queueManager
  else .ok ()

def deleteMessagesFromDeadLetterQueue : Except JavaException Unit → Except Fault Unit :=
  withQueueManager "Error in deleting message from queue. ".toList

def restoreMessagesFromDeadLetterQueue : Except JavaException Unit → Except Fault Unit :=
  withQueueManager "Error in restoring message from dead letter queue. ".toList

def restoreMessagesFromDeadLetterQueueWithDifferentDestination :
    Except JavaException Unit → Except Fault Unit :=
  withQueueManager "Error in restoring message from dead letter queue. ".toList

end AndesAdminService

-- The pages, from their call of the stub on: the text that a page prints, `none` when it does not
-- complete.

/-- `update_queue_role_permissions_ajaxprocessor.jsp`. The permissions are read again before the
message is printed, and outside the `try`. -/
def update_queue_role_permissions (updatePermission getQueueRolePermission : Except Fault Unit) :
    Option Str :=
  let message :=
    match updatePermission with
    | .ok _ => some []
    | .error (.brokerManagerAdminException errorMessage) => some errorMessage
    | .error .other => none
  message.bind fun message =>
    match getQueueRolePermission with
    | .ok _ => some (List.replicate 5 '\n' ++ message ++ ['\n'])
    | .error _ => none

/-- The pages for dead-letter messages. Whatever the call throws is caught and left in the session,
and the page completes. -/
def deadLetterPage (lineBreaks : Nat) (call : Except Fault Unit) : Option Str :=
  match call with
  | .ok _ | .error _ => some (List.replicate lineBreaks '\n')

def dlc_message_delete : Except Fault Unit → Option Str := deadLetterPage 6

def dlc_message_restore : Except Fault Unit → Option Str := deadLetterPage 6

def dlc_message_reroute : Except Fault Unit → Option Str := deadLetterPage 5

-- `treecontrol.js`

inductive Dialog where
  | info (message : Str)
  | error (message : Str)
  | alert
  deriving DecidableEq

def permissionCallback (message : Str) : Option Str → Option Dialog
  | some responseText =>
    if contains responseText "Error".toList then some (.error responseText)
    else some (.info message)
  | none => some .alert

def addPermissionsCallback : Option Str → Option Dialog :=
  permissionCallback "Queue added successfully".toList

def updatePermissionsCallback : Option Str → Option Dialog :=
  permissionCallback "Updated permissions successfully".toList

/-- The settings of the dead-letter functions. jQuery knows no option `failure`, so what stands
under it is never run. -/
def deadLetterCallback (message : Str) : Option Str → Option Dialog
  | some _ => some (.info message)
  | none => none

def doDeleteDLCCallback : Option Str → Option Dialog :=
  deadLetterCallback "Successfully deleted.".toList

def deRestoreMessagesCallback : Option Str → Option Dialog :=
  deadLetterCallback "Successfully restored.".toList

def doReRouteMessagesCallback : Option Str → Option Dialog :=
  deadLetterCallback "Successfully rerouted.".toList

inductive Action where
  | updatePermissions (permissions : List RolePermissionForm.QueueRolePermission)
  | addPermissions (permissions : List RolePermissionForm.QueueRolePermission)
  | deleteDLC | restore | reRoute

def backendCall (queueManager : Except JavaException Unit) : Action → Except Fault Unit
  | .updatePermissions permissions | .addPermissions permissions =>
    AndesAdminService.updatePermission permissions queueManager
  | .deleteDLC => AndesAdminService.deleteMessagesFromDeadLetterQueue queueManager
  | .restore => AndesAdminService.restoreMessagesFromDeadLetterQueue queueManager
  | .reRoute =>
    AndesAdminService.restoreMessagesFromDeadLetterQueueWithDifferentDestination queueManager

def dialog (queueManager : Except JavaException Unit)
    (getQueueRolePermission : Except Fault Unit) (action : Action) : Option Dialog :=
  let call := backendCall queueManager action
  match action with
  | .updatePermissions _ =>
    updatePermissionsCallback (update_queue_role_permissions call getQueueRolePermission)
  | .addPermissions _ =>
    addPermissionsCallback (update_queue_role_permissions call getQueueRolePermission)
  | .deleteDLC => doDeleteDLCCallback (dlc_message_delete call)
  | .restore => deRestoreMessagesCallback (dlc_message_restore call)
  | .reRoute => doReRouteMessagesCallback (dlc_message_reroute call)

def IsSuccess (dialog : Option Dialog) : Prop := ∃ message, dialog = some (.info message)

/-- Success is reported exactly for a call that returned. -/
def Truthful (queueManager : Except JavaException Unit)
    (getQueueRolePermission : Except Fault Unit) (action : Action) : Prop :=
  IsSuccess (dialog queueManager getQueueRolePermission action) ↔
    backendCall queueManager action = .ok ()

/-- The permissions can be read again after a call that returned, and the exception of one that did
not has the word `Error` in its message, or is no `QueueManagerException`, or the permissions cannot
be read again. No call for dead-letter messages throws. -/
def Reported (queueManager : Except JavaException Unit)
    (getQueueRolePermission : Except Fault Unit) : Action → Prop
  | .updatePermissions permissions | .addPermissions permissions =>
    (permissions = [] ∨ queueManager = .ok () → getQueueRolePermission = .ok ()) ∧
      ∀ e, permissions ≠ [] → queueManager = .error e → e.kind = .queueManager →
        getQueueRolePermission = .ok () → contains e.messageText "Error".toList = true
  | .deleteDLC | .restore | .reRoute => queueManager = .ok ()

variable {queueManager : Except JavaException Unit} {getQueueRolePermission : Except Fault Unit}

theorem infix_append_iff {c : Char} {part before s : Str} (h : c ∉ before) :
    c :: part <:+: before ++ s ↔ c :: part <:+: s := by
  induction before with
  | nil => rw [List.nil_append]
  | cons d before ih =>
    rw [List.mem_cons, not_or] at h
    rw [List.cons_append, List.infix_cons_iff, ih h.2, List.cons_prefix_cons]
    exact or_iff_right fun hprefix => h.1 hprefix.1

theorem contains_append_iff {before s : Str} (h : 'E' ∉ before) :
    contains (before ++ s) "Error".toList = contains s "Error".toList := by
  rw [contains, contains, decide_eq_decide]
  exact infix_append_iff h

theorem contains_printed (s : Str) : contains (List.replicate 5 '\n' ++ s ++ ['\n'])
    "Error".toList = contains s "Error".toList := by
  have hlast : ¬"Error".toList <:+ s ++ ['\n'] := by
    intro hsuffix
    have hsame := hsuffix.getLast (by decide)
    rw [List.getLast_concat] at hsame
    revert hsame
    decide
  rw [List.append_assoc, contains_append_iff (by decide), contains, contains, decide_eq_decide,
    List.infix_concat_iff]
  exact or_iff_right hlast

theorem isSuccess_info (message : Str) : IsSuccess (some (.info message)) := ⟨message, rfl⟩

theorem not_isSuccess_error (message : Str) : ¬IsSuccess (some (.error message)) := by
  rintro ⟨_, h⟩
  cases h

theorem not_isSuccess_alert : ¬IsSuccess (some .alert) := by
  rintro ⟨_, h⟩
  cases h

theorem isSuccess_printed_iff (message errorMessage : Str) :
    IsSuccess (permissionCallback message
      (some (List.replicate 5 '\n' ++ errorMessage ++ ['\n']))) ↔
        contains errorMessage "Error".toList = false := by
  rw [permissionCallback, contains_printed]
  cases contains errorMessage "Error".toList with
  | true => exact iff_of_false (not_isSuccess_error _) (by decide)
  | false => exact iff_of_true (isSuccess_info _) rfl

theorem isSuccess_returned_iff (message : Str) :
    IsSuccess (permissionCallback message
      (update_queue_role_permissions (.ok ()) getQueueRolePermission)) ↔
        getQueueRolePermission = .ok () := by
  cases getQueueRolePermission with
  | ok _ => exact iff_of_true ((isSuccess_printed_iff message []).2 (by decide)) rfl
  | error fault => exact iff_of_false not_isSuccess_alert (by simp)

theorem isSuccess_fault_iff (message errorMessage : Str) :
    IsSuccess (permissionCallback message (update_queue_role_permissions
      (.error (.brokerManagerAdminException errorMessage)) getQueueRolePermission)) ↔
        getQueueRolePermission = .ok () ∧ contains errorMessage "Error".toList = false := by
  cases getQueueRolePermission with
  | ok _ =>
    exact (isSuccess_printed_iff message errorMessage).trans (and_iff_right rfl).symm
  | error fault => exact iff_of_false not_isSuccess_alert (by simp)

theorem not_isSuccess_other (message : Str) :
    ¬IsSuccess (permissionCallback message
      (update_queue_role_permissions (.error .other) getQueueRolePermission)) :=
  not_isSuccess_alert

theorem withQueueManager_fault (message : Str) {e : JavaException} (h : e.kind = .queueManager) :
    withQueueManager message (.error e) =
      .error (.brokerManagerAdminException (message ++ e.messageText)) := if_pos h

theorem withQueueManager_other (message : Str) {e : JavaException} (h : e.kind ≠ .queueManager) :
    withQueueManager message (.error e) = .error .other := if_neg h

theorem permission_truthful_iff (message : Str)
    (permissions : List RolePermissionForm.QueueRolePermission) :
    (IsSuccess (permissionCallback message (update_queue_role_permissions
        (AndesAdminService.updatePermission permissions queueManager) getQueueRolePermission)) ↔
      AndesAdminService.updatePermission permissions queueManager = .ok ()) ↔
      Reported queueManager getQueueRolePermission (.updatePermissions permissions) := by
  rw [Reported, AndesAdminService.updatePermission]
  by_cases hnone : permissions = []
  · rw [if_neg (not_not.2 hnone), isSuccess_returned_iff]
    simp [hnone]
  · rw [if_pos hnone]
    cases queueManager with
    | ok _ =>
      change (IsSuccess (permissionCallback message
        (update_queue_role_permissions (.ok ()) getQueueRolePermission)) ↔ _) ↔ _
      rw [isSuccess_returned_iff]
      simp [withQueueManager]
    | error e =>
      by_cases hkind : e.kind = .queueManager
      · have hword : contains ("Unable to update permission of the queue. ".toList ++ e.messageText)
            "Error".toList = contains e.messageText "Error".toList :=
          contains_append_iff (by decide)
        rw [withQueueManager_fault _ hkind, isSuccess_fault_iff, hword]
        simp [hnone, hkind]
      · rw [withQueueManager_other _ hkind]
        simp [hnone, hkind, not_isSuccess_other]

theorem truthful_updatePermissions_iff (permissions : List RolePermissionForm.QueueRolePermission) :
    Truthful queueManager getQueueRolePermission (.updatePermissions permissions) ↔
      Reported queueManager getQueueRolePermission (.updatePermissions permissions) :=
  permission_truthful_iff _ permissions

theorem withQueueManager_eq_ok_iff (message : Str) :
    withQueueManager message queueManager = .ok () ↔ queueManager = .ok () := by
  cases queueManager with
  | ok _ => simp [withQueueManager]
  | error e => rw [withQueueManager]; split <;> simp

theorem isSuccess_deadLetter (message : Str) (lineBreaks : Nat) (call : Except Fault Unit) :
    IsSuccess (deadLetterCallback message (deadLetterPage lineBreaks call)) := by
  cases call <;> exact isSuccess_info message

/-- The console tells the truth just when the outcome of the backend is one that it reports. -/
theorem truthful_iff (queueManager : Except JavaException Unit)
    (getQueueRolePermission : Except Fault Unit) (action : Action) :
    Truthful queueManager getQueueRolePermission action ↔
      Reported queueManager getQueueRolePermission action := by
  cases action with
  | updatePermissions permissions => exact truthful_updatePermissions_iff permissions
  | addPermissions permissions => exact permission_truthful_iff _ permissions
  | deleteDLC | restore | reRoute =>
    exact (iff_true_left (isSuccess_deadLetter _ _ _)).trans (withQueueManager_eq_ok_iff _)

def notAlreadyExists : JavaException :=
  ⟨.queueManager, some "Queue with the name: orders not already exists!".toList⟩

theorem not_truthful_notAlreadyExists :
    ¬Truthful (.error notAlreadyExists) (.ok ())
      (.updatePermissions [⟨"admin".toList, true, true⟩]) ∧
    ¬Truthful (.error notAlreadyExists) (.ok ()) .deleteDLC := by
  refine ⟨fun h => ?_, fun h => ?_⟩
  · have hreported := (truthful_updatePermissions_iff _).1 h
    have hword : contains notAlreadyExists.messageText "Error".toList = true :=
      hreported.2 _ (List.cons_ne_nil _ _) rfl rfl rfl
    revert hword
    decide +kernel
  · have hcall : backendCall (.error notAlreadyExists) .deleteDLC = .ok () := h.1 ⟨_, rfl⟩
    cases hcall

end CarbonMessaging.ConsoleOutcome
