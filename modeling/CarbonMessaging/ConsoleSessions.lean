import CarbonMessaging.ConditionalRuns
import CarbonMessaging.ConsoleOutcome

/-! The pages for the permissions of a queue in any number of tabs. The pages of one browser keep
the queue that they are about in the session they share, and an update posts the table of
permissions without the queue's name. The session's `queueRolePermission`, which no page reads, is
left out. -/

namespace CarbonMessaging.ConsoleSessions

open JavaLang UriComponent RolePermissionForm ConditionalRuns

def isValidQueueName (queueName : Str) : Bool :=
  queueName.all fun c => !"~!@#;%^*()+={}|<>\"',".toList.contains c

/-- What `showManageQueueWindow` posts, without any encoding. -/
def showManageQueueBody (queueName : Str) : Str :=
  "queueName=".toList ++ queueName ++ "&type=input".toList

def addQueueBody (queue : Str) : Str := "queue=".toList ++ queue ++ "&type=input".toList

inductive Page where
  | showManageQueueWindow (queueName : Str)
  | queue_manage
  | queue_add

inductive Form where
  | manage (queue : Option Str)
  | add (typed : Str)

/-- The statement that a tab's request executes next, from the click on a queue through
`load_queue_details_from_bEnd`, `queue_manage`, `add_queue_to_backend` and
`update_queue_role_permissions`, or the form that waits for the user. -/
inductive Phase where
  | link
  | removeQueue | setQueue | getLoaded
  | testQueue | readQueue
  | getShown (queue : Option Str)
  | manageForm (queue : Option Str)
  | addForm
  | createQueue (typed : Str)
  | removeCreated (typed : Str)
  | getCreated (message typed : Str)
  | setCreated (message typed : Str)
  | readTarget (form : Form) (rows : List RolePermissionForm.QueueRolePermission)
  | readRows (form : Form) (queue : Option Str) (rows : List RolePermissionForm.QueueRolePermission)
  | updatePermission (form : Form) (queue : Option Str)
      (permissions : List RolePermissionForm.QueueRolePermission)
  | getUpdated (form : Form)
  | closed

/-- A call that reached the backend, with the tab it came from, the text of its form, and the name
that the server has read. -/
inductive Call (ι : Type) where
  | createQueue (tab : ι) (typed : Str) (queue : Option Str) (returned : Bool)
  | updatePermission (tab : ι) (form : Form) (queue : Option Str)
      (permissions : List RolePermissionForm.QueueRolePermission)

/-- A statement goes through, its call ends with a `QueueManagerException`, or it throws anything
else; the user sets the boxes of the table, presses the form's button, or leaves the page. -/
inductive Action where
  | next
  | fault (detail : Str)
  | raise
  | edit (rows : List RolePermissionForm.QueueRolePermission)
  | press (typed : Str)
  | leave
  deriving DecidableEq

structure State (ι : Type) where
  queue : Option Str
  phase : ι → Phase
  table : ι → List RolePermissionForm.QueueRolePermission
  calls : List (Call ι)

variable {ι : Type} [DecidableEq ι]

def State.enter (s : State ι) (tab : ι) (phase : Phase) : State ι :=
  { s with phase := Function.update s.phase tab phase }

def State.setAttribute (s : State ι) (queue : Option Str) : State ι := { s with queue := queue }

def State.log (s : State ι) (call : Call ι) : State ι := { s with calls := call :: s.calls }

section
variable (decode : Str → Option Str) (page : ι → Page)

def nameOfQueue : Page → Option Str
  | .showManageQueueWindow queueName =>
    getParameter decode (showManageQueueBody queueName) "queueName".toList
  | .queue_manage | .queue_add => none

def addedQueue (typed : Str) : Option Str := getParameter decode (addQueueBody typed) "queue".toList

def Form.queue : Form → Option Str
  | .manage queue => queue
  | .add typed => addedQueue decode typed

def Form.phase : Form → Phase
  | .manage queue => .manageForm queue
  | .add _ => .addForm

def getHtmlString (message : Str) : Str :=
  message.flatMap fun c =>
    if c = '<' then "&lt;".toList else if c = '>' then "&gt;".toList else [c]

def creationMessage (detail : Str) : Str :=
  getHtmlString ("Error in creating the queue. ".toList ++ detail)

/-- The callback of `addQueueToBackEnd`, for what the page printed; `addPermissions` posts the
table as it is then. -/
def addQueueCallback (message typed : Str)
    (rows : List RolePermissionForm.QueueRolePermission) : Phase :=
  if contains (List.replicate 4 '\n' ++ message) "Error".toList then .addForm
  else .readTarget (.add typed) rows

def State.next (s : State ι) (tab : ι) : Option (State ι) :=
  match s.phase tab with
  | .link => some (s.enter tab .removeQueue)
  | .removeQueue => some ((s.setAttribute none).enter tab .setQueue)
  | .setQueue => some ((s.setAttribute (nameOfQueue decode (page tab))).enter tab .getLoaded)
  | .getLoaded => some (s.enter tab .testQueue)
  | .testQueue => some (s.enter tab (if s.queue = none then .closed else .readQueue))
  | .readQueue => some (s.enter tab (.getShown s.queue))
  | .getShown queue => some (s.enter tab (.manageForm queue))
  | .createQueue typed =>
    some ((s.log (.createQueue tab typed (addedQueue decode typed) true)).enter tab
      (.removeCreated typed))
  | .removeCreated typed =>
    some ((s.setAttribute none).enter tab (.getCreated "Queue added successfully".toList typed))
  | .getCreated message typed => some (s.enter tab (.setCreated message typed))
  | .setCreated message typed =>
    some ((s.setAttribute (addedQueue decode typed)).enter tab
      (addQueueCallback message typed (s.table tab)))
  | .readTarget form rows => some (s.enter tab (.readRows form s.queue rows))
  | .readRows form queue rows =>
    match updateQueueRolePermissionsPage decode (permissionsBody rows) with
    | .ok permissions => some (s.enter tab (.updatePermission form queue permissions))
    | .error _ => some (s.enter tab form.phase)
  | .updatePermission form queue permissions =>
    some ((s.log (.updatePermission tab form queue permissions)).enter tab (.getUpdated form))
  | .getUpdated _ => some (s.enter tab .closed)
  | .manageForm _ | .addForm | .closed => none

/-- The stub's declared exception. The page of an update catches it and goes on. -/
def State.fault (s : State ι) (tab : ι) (detail : Str) : Option (State ι) :=
  match s.phase tab with
  | .createQueue typed =>
    some ((s.log (.createQueue tab typed (addedQueue decode typed) false)).enter tab
      (.getCreated (creationMessage detail) typed))
  | .updatePermission form queue permissions =>
    some ((s.log (.updatePermission tab form queue permissions)).enter tab (.getUpdated form))
  | .getLoaded | .getShown _ => some (s.enter tab .closed)
  | .getCreated _ _ => some (s.enter tab .addForm)
  | .getUpdated form => some (s.enter tab form.phase)
  | _ => none

/-- Any other exception fails the request: the user stays with the page that sent it. -/
def State.raise (s : State ι) (tab : ι) : Option (State ι) :=
  match s.phase tab with
  | .link | .removeQueue | .setQueue | .getLoaded | .testQueue | .readQueue | .getShown _ =>
    some (s.enter tab .closed)
  | .createQueue typed =>
    some ((s.log (.createQueue tab typed (addedQueue decode typed) false)).enter tab .addForm)
  | .removeCreated _ | .getCreated _ _ | .setCreated _ _ => some (s.enter tab .addForm)
  | .readTarget form _ | .readRows form _ _ | .getUpdated form => some (s.enter tab form.phase)
  | .updatePermission form queue permissions =>
    some ((s.log (.updatePermission tab form queue permissions)).enter tab form.phase)
  | .manageForm _ | .addForm | .closed => none

/-- `updatePermissions` or `addQueue`; an empty or invalid name is answered by a dialog. -/
def State.press (s : State ι) (tab : ι) (typed : Str) : Option (State ι) :=
  match s.phase tab with
  | .manageForm queue => some (s.enter tab (.readTarget (.manage queue) (s.table tab)))
  | .addForm =>
    if typed ≠ [] ∧ isValidQueueName typed then some (s.enter tab (.createQueue typed))
    else some s
  | _ => none

def State.leave (s : State ι) (tab : ι) : Option (State ι) :=
  match s.phase tab with
  | .manageForm _ | .addForm => some (s.enter tab .closed)
  | _ => none

def step (s : State ι) (turn : ι × Action) : Option (State ι) :=
  match turn.2 with
  | .next => s.next decode page turn.1
  | .fault detail => s.fault decode turn.1 detail
  | .raise => s.raise decode turn.1
  | .edit rows => some { s with table := Function.update s.table turn.1 rows }
  | .press typed => s.press turn.1 typed
  | .leave => s.leave turn.1

def start : State ι where
  queue := none
  phase tab :=
    match page tab with
    | .showManageQueueWindow _ => .link
    | .queue_manage => .testQueue
    | .queue_add => .addForm
  table _ := []
  calls := []

end

section
variable (decode : Str → Option Str) (page : ι → Page)

def Form.kept : Form → Option (Option Str)
  | .manage queue => some queue
  | .add _ => none

/-- What a tab expects the session to hold: the queue that was clicked once it has been written,
then the one that the form shows, or the one that was added until the update reads its target. -/
def held (pg : Page) : Phase → Option (Option Str)
  | .getLoaded => some (nameOfQueue decode pg)
  | .testQueue | .readQueue =>
    match pg with
    | .showManageQueueWindow _ => some (nameOfQueue decode pg)
    | .queue_manage | .queue_add => none
  | .getShown queue | .manageForm queue => some queue
  | .readTarget form _ => some (form.queue decode)
  | .readRows form _ _ | .updatePermission form _ _ | .getUpdated form => form.kept
  | _ => none

def writes (pg : Page) : Phase → Option (Option Str)
  | .removeQueue | .removeCreated _ => some none
  | .setQueue => some (nameOfQueue decode pg)
  | .setCreated _ typed => some (addedQueue decode typed)
  | _ => none

/-- A tab writes only where no other tab holds something else. -/
def Harmless (s : State ι) (turn : ι × Action) : Prop :=
  ∀ value ∈ writes decode (page turn.1) (s.phase turn.1), turn.2 = .next →
    ∀ other, other ≠ turn.1 → held decode (page other) (s.phase other) = none ∨
      held decode (page other) (s.phase other) = some value

instance [Fintype ι] (s : State ι) (turn : ι × Action) :
    Decidable (Harmless decode page s turn) :=
  inferInstanceAs (Decidable (∀ value ∈ writes decode (page turn.1) (s.phase turn.1),
    turn.2 = .next → ∀ other, other ≠ turn.1 → held decode (page other) (s.phase other) = none ∨
      held decode (page other) (s.phase other) = some value))

def Phase.form? : Phase → Option Form
  | .getShown queue | .manageForm queue => some (.manage queue)
  | .readTarget form _ | .readRows form _ _ | .updatePermission form _ _ | .getUpdated form =>
    some form
  | _ => none

def Named (pg : Page) (form : Form) : Prop :=
  ∀ queue queueName, form = .manage queue → pg = .showManageQueueWindow queueName →
    queue = nameOfQueue decode pg

def Phase.target? : Phase → Option (Form × Option Str)
  | .readRows form queue _ | .updatePermission form queue _ => some (form, queue)
  | _ => none

structure Good (pg : Page) (queue : Option Str) (phase : Phase) : Prop where
  held : ∀ value, held decode pg phase = some value → queue = value
  named : ∀ form, phase.form? = some form → Named decode pg form
  target : ∀ form queue, phase.target? = some (form, queue) → queue = form.queue decode

/-- Every update went to the queue that its form was about. -/
def WellAimed (calls : List (Call ι)) : Prop :=
  ∀ tab form queue permissions, Call.updatePermission tab form queue permissions ∈ calls →
    queue = form.queue decode ∧ Named decode (page tab) form

end

variable {decode : Str → Option Str} {page : ι → Page} {s t : State ι} {tab : ι}

@[simp] theorem enter_phase (s : State ι) (tab : ι) (phase : Phase) :
    (s.enter tab phase).phase tab = phase := Function.update_self ..

@[simp] theorem enter_queue (s : State ι) (tab : ι) (phase : Phase) :
    (s.enter tab phase).queue = s.queue := rfl

@[simp] theorem enter_calls (s : State ι) (tab : ι) (phase : Phase) :
    (s.enter tab phase).calls = s.calls := rfl

theorem enter_other (s : State ι) {tab other : ι} (h : other ≠ tab) (phase : Phase) :
    (s.enter tab phase).phase other = s.phase other := Function.update_of_ne h ..

/-- All that a step can do: move its own tab, write what the phase writes, log one call. -/
structure Moves (decode : Str → Option Str) (pg : Page) (s t : State ι) (tab : ι)
    (action : Action) : Prop where
  others : ∀ other, other ≠ tab → t.phase other = s.phase other
  queue : t.queue = s.queue ∨
    action = .next ∧ writes decode pg (s.phase tab) = some t.queue
  calls : t.calls = s.calls ∨
    (∃ typed returned, s.phase tab = .createQueue typed ∧
      t.calls = .createQueue tab typed (addedQueue decode typed) returned :: s.calls) ∨
    ∃ form queue permissions, s.phase tab = .updatePermission form queue permissions ∧
      t.calls = .updatePermission tab form queue permissions :: s.calls
  good : Good decode pg s.queue (s.phase tab) → Good decode pg t.queue (t.phase tab)

theorem moves_enter {pg : Page} {action : Action} {phase : Phase}
    (hgood : Good decode pg s.queue (s.phase tab) → Good decode pg s.queue phase) :
    Moves decode pg s (s.enter tab phase) tab action where
  others _ hne := enter_other s hne phase
  queue := .inl rfl
  calls := .inl rfl
  good h := by
    rw [enter_phase]
    exact hgood h

theorem moves_write {pg : Page} {value : Option Str} {phase : Phase}
    (hwrites : writes decode pg (s.phase tab) = some value)
    (hgood : Good decode pg s.queue (s.phase tab) → Good decode pg value phase) :
    Moves decode pg s ((s.setAttribute value).enter tab phase) tab .next where
  others _ hne := enter_other _ hne phase
  queue := .inr ⟨rfl, hwrites⟩
  calls := .inl rfl
  good h := by
    rw [enter_phase]
    exact hgood h

theorem moves_create {pg : Page} {action : Action} {phase : Phase} {typed : Str} {returned : Bool}
    (hphase : s.phase tab = .createQueue typed) (hgood : Good decode pg s.queue phase) :
    Moves decode pg s ((s.log (.createQueue tab typed (addedQueue decode typed) returned)).enter tab
      phase) tab action where
  others _ hne := enter_other _ hne phase
  queue := .inl rfl
  calls := .inr (.inl ⟨typed, returned, hphase, rfl⟩)
  good _ := by
    rw [enter_phase]
    exact hgood

theorem moves_update {pg : Page} {action : Action} {phase : Phase} {form : Form}
    {queue : Option Str} {permissions : List RolePermissionForm.QueueRolePermission}
    (hphase : s.phase tab = .updatePermission form queue permissions)
    (hgood : Good decode pg s.queue (s.phase tab) → Good decode pg s.queue phase) :
    Moves decode pg s ((s.log (.updatePermission tab form queue permissions)).enter tab phase) tab
      action where
  others _ hne := enter_other _ hne phase
  queue := .inl rfl
  calls := .inr (.inr ⟨form, queue, permissions, hphase, rfl⟩)
  good h := by
    rw [enter_phase]
    exact hgood h

theorem good_waiting {pg : Page} {phase : Phase} {queue : Option Str}
    (hheld : ∀ value, held decode pg phase = some value → queue = value)
    (hform : phase.form? = none) (htarget : phase.target? = none) :
    Good decode pg queue phase where
  held := hheld
  named form h := by
    rw [hform] at h
    cases h
  target form queue h := by
    rw [htarget] at h
    cases h

theorem good_idle {pg : Page} {phase : Phase} (hheld : held decode pg phase = none)
    (hform : phase.form? = none) (htarget : phase.target? = none) (queue : Option Str) :
    Good decode pg queue phase := by
  refine good_waiting (fun value h => ?_) hform htarget
  rw [hheld] at h
  cases h

theorem good_form {pg : Page} {phase : Phase} {form : Form} {queue : Option Str}
    (hheld : ∀ value, held decode pg phase = some value → queue = value)
    (hform : phase.form? = some form) (hnamed : Named decode pg form)
    (htarget : phase.target? = none) : Good decode pg queue phase where
  held := hheld
  named form' h := by
    rw [hform] at h
    cases h
    exact hnamed
  target form queue h := by
    rw [htarget] at h
    cases h

theorem good_formPhase {pg : Page} {form : Form} {queue : Option Str}
    (hkept : ∀ value, form.kept = some value → queue = value) (hnamed : Named decode pg form) :
    Good decode pg queue form.phase := by
  cases form with
  | manage queue => exact good_form hkept rfl hnamed rfl
  | add typed => exact good_idle rfl rfl rfl _

theorem named_add (pg : Page) (typed : Str) : Named decode pg (.add typed) := by
  intro queue queueName h
  cases h

theorem good_testQueue {pg : Page} {queue : Option Str} (h : Good decode pg queue .getLoaded) :
    Good decode pg queue .testQueue := by
  refine good_waiting (fun value hvalue => h.held value ?_) rfl rfl
  cases pg with
  | showManageQueueWindow queueName => exact hvalue
  | queue_manage | queue_add => cases hvalue

theorem good_getShown {pg : Page} {queue : Option Str} (h : Good decode pg queue .readQueue) :
    Good decode pg queue (.getShown queue) := by
  refine good_form (fun value hvalue => Option.some.inj hvalue) rfl ?_ rfl
  rintro shown queueName hform rfl
  cases hform
  exact h.held _ rfl

theorem good_readRows {pg : Page} {queue : Option Str} {form : Form}
    {rows : List RolePermissionForm.QueueRolePermission}
    (h : Good decode pg queue (.readTarget form rows)) :
    Good decode pg queue (.readRows form queue rows) := by
  have hqueue : queue = form.queue decode := h.held _ rfl
  refine ⟨fun value hvalue => ?_, fun _ hform => ?_, fun _ _ htarget => ?_⟩
  · cases form with
    | manage shown => exact hqueue.trans (Option.some.inj hvalue)
    | add typed => cases hvalue
  · cases hform
    exact h.named _ rfl
  · cases htarget
    exact hqueue

theorem moves_next (h : s.next decode page tab = some t) :
    Moves decode (page tab) s t tab .next := by
  rw [State.next] at h
  cases hphase : s.phase tab with
  | link | getCreated message typed | getUpdated form =>
    rw [hphase] at h; cases h
    exact moves_enter fun _ => good_idle rfl rfl rfl _
  | removeQueue | removeCreated typed =>
    rw [hphase] at h; cases h
    exact moves_write (by rw [hphase]; rfl) fun _ => good_idle rfl rfl rfl _
  | setQueue =>
    rw [hphase] at h; cases h
    refine moves_write (by rw [hphase]; rfl) fun _ => ?_
    exact good_waiting (fun value hvalue => Option.some.inj hvalue) rfl rfl
  | getLoaded =>
    rw [hphase] at h; cases h
    exact moves_enter fun hgood => good_testQueue (hphase ▸ hgood)
  | testQueue =>
    rw [hphase] at h; cases h
    refine moves_enter fun hgood => ?_
    rw [hphase] at hgood
    split_ifs
    · exact good_idle rfl rfl rfl _
    · exact good_waiting hgood.held rfl rfl
  | readQueue =>
    rw [hphase] at h; cases h
    exact moves_enter fun hgood => good_getShown (hphase ▸ hgood)
  | getShown queue =>
    rw [hphase] at h; cases h
    refine moves_enter fun hgood => ?_
    rw [hphase] at hgood
    exact good_form hgood.held rfl (hgood.named _ rfl) rfl
  | createQueue typed =>
    rw [hphase] at h; cases h
    exact moves_create hphase (good_idle rfl rfl rfl _)
  | setCreated message typed =>
    rw [hphase] at h; cases h
    refine moves_write (by rw [hphase]; rfl) fun _ => ?_
    rw [addQueueCallback]
    split_ifs
    · exact good_idle rfl rfl rfl _
    · exact good_form (fun value hvalue => Option.some.inj hvalue) rfl (named_add _ _) rfl
  | readTarget form rows =>
    rw [hphase] at h; cases h
    exact moves_enter fun hgood => good_readRows (hphase ▸ hgood)
  | readRows form queue rows =>
    rw [hphase] at h
    cases hrows : updateQueueRolePermissionsPage decode (permissionsBody rows) with
    | ok permissions =>
      simp only [hrows] at h; cases h
      refine moves_enter fun hgood => ?_
      rw [hphase] at hgood
      refine ⟨hgood.held, hgood.named, fun _ _ htarget => ?_⟩
      cases htarget
      exact hgood.target _ _ rfl
    | error e =>
      simp only [hrows] at h; cases h
      refine moves_enter fun hgood => ?_
      rw [hphase] at hgood
      exact good_formPhase hgood.held (hgood.named _ rfl)
  | updatePermission form queue permissions =>
    rw [hphase] at h; cases h
    refine moves_update hphase fun hgood => ?_
    rw [hphase] at hgood
    exact good_form hgood.held rfl (hgood.named _ rfl) rfl
  | manageForm queue | addForm | closed => rw [hphase] at h; cases h

theorem moves_back {action : Action} {form : Form}
    (hform : (s.phase tab).form? = some form)
    (hkept : ∀ value, form.kept = some value →
      held decode (page tab) (s.phase tab) = some value) :
    Moves decode (page tab) s (s.enter tab form.phase) tab action :=
  moves_enter fun hgood =>
    good_formPhase (fun value hvalue => hgood.held value (hkept value hvalue))
      (hgood.named form hform)

theorem moves_fault {detail : Str} (h : s.fault decode tab detail = some t) :
    Moves decode (page tab) s t tab (.fault detail) := by
  rw [State.fault] at h
  cases hphase : s.phase tab with
  | createQueue typed =>
    rw [hphase] at h; cases h
    exact moves_create hphase (good_idle rfl rfl rfl _)
  | updatePermission form queue permissions =>
    rw [hphase] at h; cases h
    refine moves_update hphase fun hgood => ?_
    rw [hphase] at hgood
    exact good_form hgood.held rfl (hgood.named _ rfl) rfl
  | getLoaded | getShown queue | getCreated message typed =>
    rw [hphase] at h; cases h
    exact moves_enter fun _ => good_idle rfl rfl rfl _
  | getUpdated form =>
    rw [hphase] at h; cases h
    exact moves_back (by rw [hphase]; rfl) fun value hvalue => by rw [hphase]; exact hvalue
  | _ => rw [hphase] at h; cases h

theorem moves_raise (h : s.raise decode tab = some t) : Moves decode (page tab) s t tab .raise := by
  rw [State.raise] at h
  cases hphase : s.phase tab with
  | createQueue typed =>
    rw [hphase] at h; cases h
    exact moves_create hphase (good_idle rfl rfl rfl _)
  | updatePermission form queue permissions =>
    rw [hphase] at h; cases h
    refine moves_update hphase fun hgood => ?_
    rw [hphase] at hgood
    exact good_formPhase hgood.held (hgood.named _ rfl)
  | readTarget form rows =>
    rw [hphase] at h; cases h
    refine moves_back (by rw [hphase]; rfl) fun value hvalue => ?_
    rw [hphase]
    cases form with
    | manage queue => exact hvalue
    | add typed => cases hvalue
  | readRows form queue rows | getUpdated form =>
    rw [hphase] at h; cases h
    exact moves_back (by rw [hphase]; rfl) fun value hvalue => by rw [hphase]; exact hvalue
  | manageForm queue | addForm | closed => rw [hphase] at h; cases h
  | _ =>
    rw [hphase] at h; cases h
    exact moves_enter fun _ => good_idle rfl rfl rfl _

omit [DecidableEq ι] in
theorem moves_still {pg : Page} {action : Action} (hphase : t.phase = s.phase)
    (hqueue : t.queue = s.queue) (hcalls : t.calls = s.calls) :
    Moves decode pg s t tab action where
  others other _ := congrFun hphase other
  queue := .inl hqueue
  calls := .inl hcalls
  good h := by
    rw [hphase, hqueue]
    exact h

theorem moves_press {typed : Str} (h : s.press tab typed = some t) :
    Moves decode (page tab) s t tab (.press typed) := by
  rw [State.press] at h
  cases hphase : s.phase tab with
  | manageForm queue =>
    rw [hphase] at h; cases h
    refine moves_enter fun hgood => ?_
    rw [hphase] at hgood
    exact good_form hgood.held rfl (hgood.named _ rfl) rfl
  | addForm =>
    simp only [hphase] at h
    split_ifs at h
    · cases h
      exact moves_enter fun _ => good_idle rfl rfl rfl _
    · cases h
      exact moves_still rfl rfl rfl
  | _ => rw [hphase] at h; cases h

theorem moves_leave (h : s.leave tab = some t) : Moves decode (page tab) s t tab .leave := by
  rw [State.leave] at h
  cases hphase : s.phase tab with
  | manageForm queue | addForm =>
    rw [hphase] at h; cases h
    exact moves_enter fun _ => good_idle rfl rfl rfl _
  | _ => rw [hphase] at h; cases h

theorem moves_of_step {turn : ι × Action} (h : step decode page s turn = some t) :
    Moves decode (page turn.1) s t turn.1 turn.2 := by
  obtain ⟨tab, action⟩ := turn
  cases action with
  | next => exact moves_next h
  | fault detail => exact moves_fault h
  | raise => exact moves_raise h
  | edit rows => cases h; exact moves_still rfl rfl rfl
  | press typed => exact moves_press h
  | leave => exact moves_leave h

structure Inv (decode : Str → Option Str) (page : ι → Page) (s : State ι) : Prop where
  good : ∀ tab, Good decode (page tab) s.queue (s.phase tab)
  aimed : WellAimed decode page s.calls

omit [DecidableEq ι] in
theorem inv_start (decode : Str → Option Str) (page : ι → Page) : Inv decode page (start page) where
  good tab := by
    rw [start]
    cases hpage : page tab with
    | showManageQueueWindow queueName => simp only [hpage]; exact good_idle rfl rfl rfl _
    | queue_manage => simp only [hpage]; exact good_idle rfl rfl rfl _
    | queue_add => simp only [hpage]; exact good_idle rfl rfl rfl _
  aimed := by
    intro tab form queue permissions hmem
    cases hmem

theorem inv_step {turn : ι × Action} (hinv : Inv decode page s)
    (hharmless : Harmless decode page s turn) (h : step decode page s turn = some t) :
    Inv decode page t := by
  have hmoves := moves_of_step h
  refine ⟨fun other => ?_, fun tab form queue permissions hmem => ?_⟩
  · by_cases hother : other = turn.1
    · subst hother
      exact hmoves.good (hinv.good turn.1)
    · have hgood := hinv.good other
      rw [hmoves.others other hother]
      refine ⟨fun value hvalue => ?_, hgood.named, hgood.target⟩
      rcases hmoves.queue with hsame | ⟨hnext, hwrites⟩
      · exact hsame.trans (hgood.held value hvalue)
      · rcases hharmless t.queue hwrites hnext other hother with hnone | hsome
        · rw [hnone] at hvalue
          cases hvalue
        · rw [hsome] at hvalue
          exact Option.some.inj hvalue
  · rcases hmoves.calls with hsame | ⟨typed, returned, -, hcalls⟩ |
      ⟨form', queue', permissions', hphase, hcalls⟩
    · rw [hsame] at hmem
      exact hinv.aimed tab form queue permissions hmem
    · rw [hcalls, List.mem_cons] at hmem
      rcases hmem with hcall | hmem
      · cases hcall
      · exact hinv.aimed tab form queue permissions hmem
    · rw [hcalls, List.mem_cons] at hmem
      rcases hmem with hcall | hmem
      · cases hcall
        have hgood := hinv.good turn.1
        rw [hphase] at hgood
        exact ⟨hgood.target _ _ rfl, hgood.named _ rfl⟩
      · exact hinv.aimed tab form queue permissions hmem

theorem inv_of_reached (h : Reached (step decode page) (Harmless decode page) (start page) s) :
    Inv decode page s :=
  h.invariant (inv_start decode page) fun _ _ _ => inv_step

/-- A name that the script accepts, of ASCII characters and without the separator of a form. -/
def IsPlain (queueName : Str) : Prop :=
  isValidQueueName queueName = true ∧ '&' ∉ queueName ∧ ∀ c ∈ queueName, c.toNat < 128

theorem decode_plain (hdecode : IsFormDecoding decode) {queueName : Str}
    (h : IsPlain queueName) : decode queueName = some queueName := by
  obtain ⟨hvalid, -, hascii⟩ := h
  have hallowed := List.all_eq_true.1 hvalid
  refine decode_literal hdecode fun c hc => ⟨hascii c hc, ?_, ?_⟩
  · rintro rfl
    exact absurd (hallowed _ hc) (by decide)
  · rintro rfl
    exact absurd (hallowed _ hc) (by decide)

theorem getParameter_plain (hdecode : IsFormDecoding decode) (key : Str) {queueName : Str}
    (hequals : '=' ∉ key) (hkey : '&' ∉ key) (h : IsPlain queueName) :
    getParameter decode (key ++ '=' :: queueName ++ "&type=input".toList) key =
      some queueName := by
  have hseparator : '&' ∉ key ++ '=' :: queueName := by
    rw [List.mem_append, List.mem_cons]
    rintro (hmem | hmem | hmem)
    · exact hkey hmem
    · exact absurd hmem (by decide)
    · exact h.2.1 hmem
  have hbody : key ++ '=' :: queueName ++ "&type=input".toList =
      (key ++ '=' :: queueName) ++ '&' :: "type=input".toList := rfl
  rw [getParameter, parameterValue, hbody, List.splitOn_append_cons_self_of_not_mem hseparator,
    List.findSome?_cons, splitFirst_append hequals]
  simp only [↓reduceIte, Option.bind_some]
  exact decode_plain hdecode h

theorem nameOfQueue_plain (hdecode : IsFormDecoding decode) {queueName : Str}
    (h : IsPlain queueName) :
    nameOfQueue decode (.showManageQueueWindow queueName) = some queueName :=
  getParameter_plain hdecode "queueName".toList (by decide) (by decide) h

theorem addedQueue_plain (hdecode : IsFormDecoding decode) {typed : Str} (h : IsPlain typed) :
    addedQueue decode typed = some typed :=
  getParameter_plain hdecode "queue".toList (by decide) (by decide) h

def twoTabs : Bool → Page
  | false => .showManageQueueWindow ['a']
  | true => .queue_add

def clerkConsumes : List RolePermissionForm.QueueRolePermission := [⟨"clerk".toList, true, false⟩]

def oneAfterTheOther : List (Bool × Action) :=
  List.replicate 7 (false, .next) ++ [(false, .edit clerkConsumes), (false, .press [])] ++
    List.replicate 4 (false, .next) ++ [(true, .edit clerkConsumes), (true, .press ['b'])] ++
    List.replicate 7 (true, .next)

theorem oneAfterTheOther_reaches : ∃ s,
    Reached (step formDecode twoTabs) (Harmless formDecode twoTabs) (start twoTabs) s ∧
      Call.updatePermission true (.add ['b']) (some ['b']) clerkConsumes ∈ s.calls ∧
      Call.updatePermission false (.manage (some ['a'])) (some ['a']) clerkConsumes ∈ s.calls :=
  have hrun : ∃ s, run (step formDecode twoTabs) oneAfterTheOther (start twoTabs) = some s ∧
      Call.updatePermission true (.add ['b']) (some ['b']) clerkConsumes ∈ s.calls ∧
      Call.updatePermission false (.manage (some ['a'])) (some ['a']) clerkConsumes ∈ s.calls :=
    ⟨_, rfl, .head _, .tail _ (.tail _ (.head _))⟩
  let ⟨s, hs, hcalls⟩ := hrun
  ⟨s, reached_of_run hs (by decide), hcalls⟩

theorem run_cons_of_step {turn : ι × Action} {turns : List (ι × Action)}
    (h : step decode page s turn = some t) :
    run (step decode page) (turn :: turns) s = run (step decode page) turns t := by
  rw [run, h]
  rfl

theorem update_run (page : ι → Page) {shown : Option Str} (hshown : s.phase tab = .manageForm shown)
    {permissions : List RolePermissionForm.QueueRolePermission}
    (hrows : updateQueueRolePermissionsPage decode (permissionsBody (s.table tab)) =
      .ok permissions) :
    ∃ t, run (step decode page) [(tab, .press []), (tab, .next), (tab, .next), (tab, .next)] s =
        some t ∧
      Call.updatePermission tab (.manage shown) s.queue permissions ∈ t.calls := by
  let pressed := s.enter tab (.readTarget (.manage shown) (s.table tab))
  let aimed := pressed.enter tab (.readRows (.manage shown) s.queue (s.table tab))
  let decoded := aimed.enter tab (.updatePermission (.manage shown) s.queue permissions)
  let called := (decoded.log (.updatePermission tab (.manage shown) s.queue permissions)).enter tab
    (.getUpdated (.manage shown))
  have hpress : step decode page s (tab, .press []) = some pressed := by
    simp only [step, State.press, hshown, pressed]
  have hread : step decode page pressed (tab, .next) = some aimed := by
    simp only [step, State.next, pressed, enter_phase, enter_queue, aimed]
  have hdecode : step decode page aimed (tab, .next) = some decoded := by
    simp only [step, State.next, aimed, enter_phase, hrows, decoded]
  have hcall : step decode page decoded (tab, .next) = some called := by
    simp only [step, State.next, decoded, enter_phase, called]
  refine ⟨called, ?_, List.mem_cons_self⟩
  rw [run_cons_of_step hpress, run_cons_of_step hread, run_cons_of_step hdecode,
    run_cons_of_step hcall]
  rfl

theorem next_of_writes {value : Option Str}
    (hwrites : writes decode (page tab) (s.phase tab) = some value) :
    ∃ t, s.next decode page tab = some t ∧ t.queue = value ∧ t.table = s.table ∧
      ∀ other, other ≠ tab → t.phase other = s.phase other := by
  rw [State.next]
  cases hphase : s.phase tab with
  | removeQueue | setQueue | removeCreated typed | setCreated message typed =>
    rw [hphase] at hwrites
    cases hwrites
    exact ⟨_, rfl, rfl, rfl, fun other hother => enter_other _ hother _⟩
  | _ =>
    rw [hphase] at hwrites
    cases hwrites

/-- Another tab's write of a queue sends this tab's next update to a queue it does not show. -/
theorem misdirected_of_harmful {other : ι} (hne : tab ≠ other) {shown : Option Str} {value : Str}
    (hshown : s.phase tab = .manageForm shown)
    (hwrites : writes decode (page other) (s.phase other) = some (some value))
    (hvalue : some value ≠ shown)
    {permissions : List RolePermissionForm.QueueRolePermission} (hsome : permissions ≠ [])
    (hrows : updateQueueRolePermissionsPage decode (permissionsBody (s.table tab)) =
      .ok permissions) :
    ∃ t queue, run (step decode page)
        [(other, .next), (tab, .press []), (tab, .next), (tab, .next), (tab, .next)] s = some t ∧
      Call.updatePermission tab (.manage shown) (some queue) permissions ∈ t.calls ∧
      some queue ≠ shown ∧ permissions ≠ [] := by
  obtain ⟨u, hnext, hqueue, htable, hothers⟩ := next_of_writes hwrites
  have hshown' : u.phase tab = .manageForm shown := (hothers tab hne).trans hshown
  obtain ⟨t, hrun, hcall⟩ := update_run page hshown' (by rw [htable]; exact hrows)
  refine ⟨t, value, ?_, by rwa [hqueue] at hcall, hvalue, hsome⟩
  rw [run]
  exact Option.bind_eq_some_iff.2 ⟨u, hnext, hrun⟩

theorem misdirected_of_harmful_twoTabs : ∃ (s t : State Bool) (queue : Str),
    run (step formDecode twoTabs)
        [(true, .next), (false, .press []), (false, .next), (false, .next), (false, .next)] s =
        some t ∧
      Call.updatePermission false (.manage (some ['a'])) (some queue) clerkConsumes ∈ t.calls ∧
      some queue ≠ some ['a'] ∧ clerkConsumes ≠ [] := by
  have hs : ∃ s, run (step formDecode twoTabs)
      (List.replicate 7 (false, .next) ++ [(false, .edit clerkConsumes), (true, .press ['b'])] ++
        List.replicate 3 (true, .next)) (start twoTabs) = some s ∧
        s.phase false = .manageForm (some ['a']) ∧
        s.phase true = .setCreated "Queue added successfully".toList ['b'] ∧
        s.table false = clerkConsumes :=
    ⟨_, rfl, rfl, rfl, rfl⟩
  obtain ⟨s, -, hshown, hset, htable⟩ := hs
  have hwrites : writes formDecode (twoTabs true) (s.phase true) = some (some ['b']) := by
    rw [hset]
    rfl
  have hrows : updateQueueRolePermissionsPage formDecode (permissionsBody (s.table false)) =
      .ok clerkConsumes := by
    rw [htable]
    rfl
  exact ⟨s, misdirected_of_harmful (by decide) hshown hwrites (by decide) (by decide) hrows⟩

end CarbonMessaging.ConsoleSessions
