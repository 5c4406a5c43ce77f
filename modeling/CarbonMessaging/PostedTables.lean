import CarbonMessaging.ConsoleSessions

/-! The order of the calls that a tab makes for a new queue, in any run of the tabs: the page that
adds a queue answers a failed creation with the word `Error`, and the script then posts nothing. -/

namespace CarbonMessaging.PostedTables

open JavaLang UriComponent RolePermissionForm ConditionalRuns ConsoleSessions

variable {ι : Type} [DecidableEq ι] {decode : Str → Option Str} {page : ι → Page}
  {s t : State ι} {tab : ι}

/-- The queue whose creation has returned, in the phases that lead to the post of its table. -/
def created? : Phase → Option Str
  | .removeCreated typed | .readTarget (.add typed) _ | .readRows (.add typed) _ _
  | .updatePermission (.add typed) _ _ => some typed
  | _ => none

def printed? : Phase → Option (Str × Str)
  | .getCreated message typed | .setCreated message typed => some (message, typed)
  | _ => none

/-- The page of the tab prints `Error`, or its creation has returned. -/
structure Follows (decode : Str → Option Str) (tab : ι) (calls : List (Call ι)) (phase : Phase) :
    Prop where
  created : ∀ typed, created? phase = some typed →
    Call.createQueue tab typed (addedQueue decode typed) true ∈ calls
  printed : ∀ message typed, printed? phase = some (message, typed) →
    Call.createQueue tab typed (addedQueue decode typed) true ∈ calls ∨
      contains (List.replicate 4 '\n' ++ message) "Error".toList = true

theorem contains_creationMessage (detail : Str) :
    contains (List.replicate 4 '\n' ++ creationMessage detail) "Error".toList = true := by
  have hhead : getHtmlString "Error in creating the queue. ".toList =
      "Error".toList ++ " in creating the queue. ".toList := by decide
  rw [ConsoleOutcome.contains_append_iff (by decide), contains_iff, creationMessage, getHtmlString,
    List.flatMap_append, ← getHtmlString, hhead, List.append_assoc]
  exact (List.prefix_append _ _).isInfix

omit [DecidableEq ι] in
theorem follows_of_created {calls : List (Call ι)} {phase : Phase} {typed : Str}
    (hcreated : created? phase = some typed) (hprinted : printed? phase = none)
    (hcalls : Call.createQueue tab typed (addedQueue decode typed) true ∈ calls) :
    Follows decode tab calls phase where
  created typed' h := by
    rw [hcreated] at h
    cases h
    exact hcalls
  printed message typed' h := by
    rw [hprinted] at h
    cases h

omit [DecidableEq ι] in
theorem follows_of_printed {calls : List (Call ι)} {phase : Phase} {message typed : Str}
    (hcreated : created? phase = none) (hprinted : printed? phase = some (message, typed))
    (hcalls : Call.createQueue tab typed (addedQueue decode typed) true ∈ calls ∨
      contains (List.replicate 4 '\n' ++ message) "Error".toList = true) :
    Follows decode tab calls phase where
  created typed' h := by
    rw [hcreated] at h
    cases h
  printed message' typed' h := by
    rw [hprinted] at h
    cases h
    exact hcalls

omit [DecidableEq ι] in
theorem follows_of_none {calls : List (Call ι)} {phase : Phase} (hcreated : created? phase = none)
    (hprinted : printed? phase = none) : Follows decode tab calls phase where
  created typed h := by
    rw [hcreated] at h
    cases h
  printed message typed h := by
    rw [hprinted] at h
    cases h

omit [DecidableEq ι] in
theorem Follows.mono {calls calls' : List (Call ι)} {phase : Phase}
    (h : Follows decode tab calls phase)
    (hcalls : ∀ call ∈ calls, call ∈ calls') : Follows decode tab calls' phase where
  created typed hcreated := hcalls _ (h.created typed hcreated)
  printed message typed hprinted := (h.printed message typed hprinted).imp_left (hcalls _)

omit [DecidableEq ι] in
theorem follows_formPhase (calls : List (Call ι)) (form : Form) :
    Follows decode tab calls form.phase := by
  cases form <;> exact follows_of_none rfl rfl

theorem follows_next (h : s.next decode page tab = some t)
    (hfollows : Follows decode tab s.calls (s.phase tab)) :
    Follows decode tab t.calls (t.phase tab) := by
  rw [State.next] at h
  cases hphase : s.phase tab with
  | createQueue typed =>
    rw [hphase] at h; cases h
    rw [enter_phase]
    exact follows_of_created rfl rfl List.mem_cons_self
  | removeCreated typed =>
    rw [hphase] at h hfollows; cases h
    rw [enter_phase]
    exact follows_of_printed rfl rfl (.inl (hfollows.created typed rfl))
  | getCreated message typed =>
    rw [hphase] at h hfollows; cases h
    rw [enter_phase]
    exact follows_of_printed rfl rfl (hfollows.printed message typed rfl)
  | setCreated message typed =>
    rw [hphase] at h hfollows; cases h
    rw [enter_phase, addQueueCallback]
    split_ifs with herror
    · exact follows_of_none rfl rfl
    · exact follows_of_created rfl rfl
        ((hfollows.printed message typed rfl).resolve_right herror)
  | readTarget form rows =>
    rw [hphase] at h hfollows; cases h
    rw [enter_phase]
    cases form with
    | manage queue => exact follows_of_none rfl rfl
    | add typed => exact follows_of_created rfl rfl (hfollows.created typed rfl)
  | readRows form queue rows =>
    rw [hphase] at h hfollows
    cases hrows : updateQueueRolePermissionsPage decode (permissionsBody rows) with
    | ok permissions =>
      simp only [hrows] at h; cases h
      rw [enter_phase]
      cases form with
      | manage queue => exact follows_of_none rfl rfl
      | add typed => exact follows_of_created rfl rfl (hfollows.created typed rfl)
    | error e =>
      simp only [hrows] at h; cases h
      rw [enter_phase]
      exact follows_formPhase _ form
  | testQueue =>
    rw [hphase] at h; cases h
    rw [enter_phase]
    split_ifs <;> exact follows_of_none rfl rfl
  | manageForm queue | addForm | closed => rw [hphase] at h; cases h
  | _ =>
    rw [hphase] at h; cases h
    rw [enter_phase]
    exact follows_of_none rfl rfl

theorem follows_step {turn : ι × Action} (h : step decode page s turn = some t)
    (hfollows : Follows decode turn.1 s.calls (s.phase turn.1)) :
    Follows decode turn.1 t.calls (t.phase turn.1) := by
  obtain ⟨tab, action⟩ := turn
  cases action with
  | next => exact follows_next h hfollows
  | fault detail =>
    change s.fault decode tab detail = some t at h
    rw [State.fault] at h
    split at h <;> cases h
    · rw [enter_phase]
      exact follows_of_printed rfl rfl (.inr (contains_creationMessage detail))
    all_goals rw [enter_phase]
    case h_6 => exact follows_formPhase _ _
    all_goals exact follows_of_none rfl rfl
  | raise =>
    change s.raise decode tab = some t at h
    rw [State.raise] at h
    split at h <;> cases h
    all_goals rw [enter_phase]
    all_goals first | exact follows_of_none rfl rfl | exact follows_formPhase _ _
  | edit rows => cases h; exact hfollows
  | press typed =>
    change s.press tab typed = some t at h
    rw [State.press] at h
    split at h
    · cases h
      rw [enter_phase]
      exact follows_of_none rfl rfl
    · split_ifs at h
      · cases h
        rw [enter_phase]
        exact follows_of_none rfl rfl
      · cases h
        exact hfollows
    · cases h
  | leave =>
    change s.leave tab = some t at h
    rw [State.leave] at h
    split at h <;> cases h <;> rw [enter_phase] <;> exact follows_of_none rfl rfl

structure Ordered (decode : Str → Option Str) (s : State ι) : Prop where
  follows : ∀ tab, Follows decode tab s.calls (s.phase tab)
  calls : ∀ tab typed queue permissions earlier,
    Call.updatePermission tab (.add typed) queue permissions :: earlier <:+ s.calls →
      Call.createQueue tab typed (addedQueue decode typed) true ∈ earlier

omit [DecidableEq ι] in
theorem ordered_start (decode : Str → Option Str) (page : ι → Page) :
    Ordered decode (start page) where
  follows tab := by
    rw [start]
    cases hpage : page tab <;> simp only [hpage] <;> exact follows_of_none rfl rfl
  calls tab typed queue permissions earlier hsuffix := by
    cases List.suffix_nil.1 hsuffix

theorem calls_grow {turn : ι × Action} (h : step decode page s turn = some t) :
    ∀ call ∈ s.calls, call ∈ t.calls := by
  intro call hcall
  rcases (moves_of_step h).calls with hsame | ⟨_, _, -, hcalls⟩ | ⟨_, _, _, -, hcalls⟩
  · rwa [hsame]
  · rw [hcalls]
    exact List.mem_cons_of_mem _ hcall
  · rw [hcalls]
    exact List.mem_cons_of_mem _ hcall

theorem ordered_step {turn : ι × Action} (hordered : Ordered decode s)
    (h : step decode page s turn = some t) : Ordered decode t := by
  have hmoves := moves_of_step h
  refine ⟨fun other => ?_, fun tab typed queue permissions earlier hsuffix => ?_⟩
  · by_cases hother : other = turn.1
    · subst hother
      exact follows_step h (hordered.follows turn.1)
    · rw [hmoves.others other hother]
      exact (hordered.follows other).mono (calls_grow h)
  · rcases hmoves.calls with hsame | ⟨typed', returned, -, hcalls⟩ |
      ⟨form', queue', permissions', hphase, hcalls⟩
    · rw [hsame] at hsuffix
      exact hordered.calls tab typed queue permissions earlier hsuffix
    · rw [hcalls, List.suffix_cons_iff] at hsuffix
      rcases hsuffix with hcall | hsuffix
      · cases hcall
      · exact hordered.calls tab typed queue permissions earlier hsuffix
    · rw [hcalls, List.suffix_cons_iff] at hsuffix
      rcases hsuffix with hcall | hsuffix
      · cases hcall
        refine (hordered.follows turn.1).created typed ?_
        rw [hphase]
        rfl
      · exact hordered.calls tab typed queue permissions earlier hsuffix

/-- In every run, whatever the other tabs do to the session, the table of a new queue is posted
only after this tab's own call created the queue under the name that the server has read. -/
theorem created_before_posted (hdecode : IsFormDecoding decode)
    (h : Reached (step decode page) (fun _ _ => True) (start page) s) {typed : Str}
    {queue : Option Str} {permissions : List RolePermissionForm.QueueRolePermission}
    {earlier : List (Call ι)}
    (hsuffix : Call.updatePermission tab (.add typed) queue permissions :: earlier <:+ s.calls) :
    Call.createQueue tab typed (addedQueue decode typed) true ∈ earlier ∧
      (IsPlain typed → Call.createQueue tab typed (some typed) true ∈ earlier) := by
  have hinv : Ordered decode s := h.invariant (ordered_start decode page)
    fun _ _ _ hordered _ => ordered_step hordered
  have hcreated := hinv.calls tab typed queue permissions earlier hsuffix
  refine ⟨hcreated, fun hplain => ?_⟩
  rwa [addedQueue_plain hdecode hplain] at hcreated

theorem created_before_posted_twoTabs : ∃ s : State Bool, ∃ earlier,
    Call.updatePermission true (.add ['b']) (some ['b']) clerkConsumes :: earlier = s.calls ∧
      Call.createQueue true ['b'] (some ['b']) true ∈ earlier := by
  have hs : ∃ s, run (step formDecode twoTabs) oneAfterTheOther (start twoTabs) = some s ∧
      ∃ earlier, Call.updatePermission true (.add ['b']) (some ['b']) clerkConsumes :: earlier =
        s.calls :=
    ⟨_, rfl, _, rfl⟩
  obtain ⟨s, hrun, earlier, hcalls⟩ := hs
  have hreached : Reached (step formDecode twoTabs) (fun _ _ => True) (start twoTabs) s :=
    reached_of_run hrun (by decide)
  have hsuffix : Call.updatePermission true (.add ['b']) (some ['b']) clerkConsumes :: earlier <:+
      s.calls := by
    rw [hcalls]
  exact ⟨s, earlier, hcalls, (created_before_posted formDecode_isFormDecoding hreached
    hsuffix).2 ⟨by decide, by decide, by simp⟩⟩

end CarbonMessaging.PostedTables
