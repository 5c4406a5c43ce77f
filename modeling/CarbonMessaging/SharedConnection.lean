import CarbonMessaging.ConditionalRuns

/-! `browseQueue` and `sendMessage` of the one `QueueManagerServiceImpl`. A call keeps its
connection, session and browser or sender in fields of the service, where another call may replace
them before it comes to close them. -/

namespace CarbonMessaging.SharedConnection

open ConditionalRuns

inductive Operation where
  | browseQueue | sendMessage
  deriving DecidableEq

/-- The statement that a call executes next. The first one stands for all of `getQueue` up to the
new connection, `inUse` for what is done with the open browser or sender. -/
inductive Phase where
  | createConnection | lookupQueue | createSession | createClient | start | inUse
  | closeConnection | closeSession | closeClient
  | done
  deriving DecidableEq

/-- How a statement ends. `again` is a use after which another one follows. -/
inductive Outcome where
  | returns | raises | again
  deriving DecidableEq

/-- The fields of the service, and of each call its phase, the connection it opened, the one it
created its session from and the one it closed. A session, browser or sender is written as the
connection that it belongs to. -/
structure State (ι : Type) where
  queueConnection : Option Nat
  queueSession : Option Nat
  queueBrowser : Option Nat
  queueSender : Option Nat
  connections : Nat
  phase : ι → Phase
  opened : ι → Option Nat
  session : ι → Option Nat
  closed : ι → Option Nat

variable {ι : Type} [DecidableEq ι]

def State.enter (s : State ι) (call : ι) (phase : Phase) : State ι :=
  { s with phase := Function.update s.phase call phase }

def State.createConnection (s : State ι) (call : ι) : State ι :=
  { s with
    queueConnection := some s.connections
    connections := s.connections + 1
    opened := Function.update s.opened call (some s.connections) }

def State.createSession (s : State ι) (call : ι) (connection : Nat) : State ι :=
  { s with
    queueSession := some connection
    session := Function.update s.session call (some connection) }

def State.createClient (s : State ι) (session : Nat) : Operation → State ι
  | .browseQueue => { s with queueBrowser := some session }
  | .sendMessage => { s with queueSender := some session }

/-- The client marks the connection closed before anything can go wrong. -/
def State.closeConnection (s : State ι) (call : ι) (connection : Nat) : State ι :=
  { s with closed := Function.update s.closed call (some connection) }

/-- An exception inside `try` leads to `finally`, one inside `finally` out of the call. -/
def Phase.raised : Phase → Phase
  | .createConnection | .lookupQueue | .createSession | .createClient | .start | .inUse =>
    .closeConnection
  | .closeConnection | .closeSession | .closeClient | .done => .done

def State.raise (s : State ι) (call : ι) : State ι := s.enter call (s.phase call).raised

def State.proceed (s : State ι) (call : ι) (operation : Operation) : State ι :=
  match s.phase call with
  | .createConnection => (s.createConnection call).enter call .lookupQueue
  | .lookupQueue => s.enter call .createSession
  | .createSession =>
    match s.queueConnection with
    | some connection => (s.createSession call connection).enter call .createClient
    | none => s.raise call
  | .createClient =>
    match s.queueSession with
    | some session => (s.createClient session operation).enter call .start
    | none => s.raise call
  | .start => if s.queueConnection.isSome then s.enter call .inUse else s.raise call
  | .inUse => s.enter call .closeConnection
  | .closeConnection =>
    match s.queueConnection with
    | some connection => (s.closeConnection call connection).enter call .closeSession
    | none => s.raise call
  | .closeSession => if s.queueSession.isSome then s.enter call .closeClient else s.raise call
  | .closeClient | .done => s.enter call .done

/-- A connection whose `close` raises is marked closed all the same. -/
def State.fail (s : State ι) (call : ι) : State ι :=
  match s.phase call, s.queueConnection with
  | .closeConnection, some connection => (s.closeConnection call connection).raise call
  | _, _ => s.raise call

def step (operation : ι → Operation) (s : State ι) (turn : ι × Outcome) : Option (State ι) :=
  if s.phase turn.1 = .done then none
  else
    match turn.2 with
    | .returns => some (s.proceed turn.1 (operation turn.1))
    | .raises => some (s.fail turn.1)
    | .again => if s.phase turn.1 = .inUse then some s else none

def start : State ι where
  queueConnection := none
  queueSession := none
  queueBrowser := none
  queueSender := none
  connections := 0
  phase _ := .createConnection
  opened _ := none
  session _ := none
  closed _ := none

/-- Every call creates its session from the connection it opened and closes this one, and when no
call is under way every connection has been closed. -/
structure Uncrossed (s : State ι) : Prop where
  session : ∀ call, ∀ connection ∈ s.session call, s.opened call = some connection
  closed : ∀ call, ∀ connection ∈ s.closed call, s.opened call = some connection
  finished : ∀ call, s.phase call = .done → s.closed call = s.opened call
  released : (∀ call, s.phase call = .createConnection ∨ s.phase call = .done) →
    ∀ call, ∀ connection ∈ s.opened call, ∃ closer, s.closed closer = some connection

/-- The call is behind the statement that opens its connection, and has not closed one yet. -/
def Phase.midway : Phase → Bool
  | .lookupQueue | .createSession | .createClient | .start | .inUse | .closeConnection => true
  | .createConnection | .closeSession | .closeClient | .done => false

/-- A call opens its connection only while no other call is midway, and comes to `finally` with a
connection of its own or with none in the field. -/
def Alone (s : State ι) (turn : ι × Outcome) : Prop :=
  (s.phase turn.1 = .createConnection → turn.2 = .returns →
    ∀ other, other ≠ turn.1 → (s.phase other).midway = false) ∧
  (s.phase turn.1 = .closeConnection → s.opened turn.1 = none → s.queueConnection = none)

def PhaseOk (opened closed : Option Nat) : Phase → Prop
  | .createConnection => opened = none ∧ closed = none
  | .lookupQueue | .createSession | .createClient | .start | .inUse =>
    opened ≠ none ∧ closed = none
  | .closeConnection => closed = none
  | .closeSession | .closeClient | .done => closed = opened

structure Inv (s : State ι) : Prop where
  phase : ∀ call, PhaseOk (s.opened call) (s.closed call) (s.phase call)
  session : ∀ call, ∀ connection ∈ s.session call, s.opened call = some connection
  closed : ∀ call, ∀ connection ∈ s.closed call, s.opened call = some connection
  holder : ∀ call, ∀ connection ∈ s.opened call, s.closed call = none →
    s.queueConnection = some connection

variable {operation : ι → Operation} {s t : State ι} {call : ι}

@[simp] theorem enter_phase_self (phase : Phase) : (s.enter call phase).phase call = phase :=
  Function.update_self ..

theorem enter_phase_of_ne {other : ι} (h : other ≠ call) (phase : Phase) :
    (s.enter call phase).phase other = s.phase other := Function.update_of_ne h ..

theorem inv_enter (h : Inv s) {phase : Phase}
    (hphase : PhaseOk (s.opened call) (s.closed call) phase) : Inv (s.enter call phase) where
  phase other := by
    by_cases hother : other = call
    · subst hother
      rw [enter_phase_self]
      exact hphase
    · rw [enter_phase_of_ne hother]
      exact h.phase other
  session := h.session
  closed := h.closed
  holder := h.holder

omit [DecidableEq ι] in
theorem Inv.own (h : Inv s) (hopened : s.opened call ≠ none) (hclosed : s.closed call = none) :
    s.opened call = s.queueConnection := by
  obtain ⟨connection, hconnection⟩ := Option.ne_none_iff_exists'.1 hopened
  rw [hconnection, h.holder call connection hconnection hclosed]

theorem inv_raise (h : Inv s) (hnull : s.phase call = .closeConnection → s.queueConnection = none) :
    Inv (s.raise call) := by
  refine inv_enter h ?_
  have hphase := h.phase call
  cases hcase : s.phase call with
  | closeConnection =>
    rw [hcase] at hphase
    have hopened : s.opened call = none := by
      by_contra hne
      exact hne ((h.own hne hphase).trans (hnull hcase))
    exact hphase.trans hopened.symm
  | createConnection | lookupQueue | createSession | createClient | start | inUse =>
    rw [hcase] at hphase
    exact hphase.2
  | closeSession | closeClient | done =>
    rw [hcase] at hphase
    exact hphase

omit [DecidableEq ι] in
theorem Inv.settled (h : Inv s) (hphase : (s.phase call).midway = false) :
    s.closed call = s.opened call := by
  have hok := h.phase call
  cases hcase : s.phase call with
  | createConnection =>
    rw [hcase] at hok
    exact hok.2.trans hok.1.symm
  | closeSession | closeClient | done =>
    rw [hcase] at hok
    exact hok
  | lookupQueue | createSession | createClient | start | inUse | closeConnection =>
    rw [hcase] at hphase
    cases hphase

theorem inv_createConnection (h : Inv s) (hphase : s.phase call = .createConnection)
    (halone : ∀ other, other ≠ call → (s.phase other).midway = false) :
    Inv ((s.createConnection call).enter call .lookupQueue) := by
  have hready := h.phase call
  rw [hphase] at hready
  have hself : (s.createConnection call).opened call = some s.connections :=
    Function.update_self ..
  have hothers : ∀ other, other ≠ call →
      (s.createConnection call).opened other = s.opened other :=
    fun other hother => Function.update_of_ne hother ..
  have hnone : ∀ connection, s.opened call ≠ some connection := by
    intro connection heq
    rw [hready.1] at heq
    cases heq
  refine ⟨?_, ?_, ?_, ?_⟩
  · intro other
    by_cases hother : other = call
    · subst hother
      rw [enter_phase_self]
      refine ⟨?_, hready.2⟩
      change (s.createConnection other).opened other ≠ none
      rw [hself]
      exact Option.some_ne_none _
    · rw [enter_phase_of_ne hother]
      change PhaseOk ((s.createConnection call).opened other) _ _
      rw [hothers other hother]
      exact h.phase other
  · intro other connection hconnection
    have hopened := h.session other connection hconnection
    have hother : other ≠ call := fun heq => hnone connection (heq ▸ hopened)
    exact (hothers other hother).trans hopened
  · intro other connection hconnection
    have hopened := h.closed other connection hconnection
    have hother : other ≠ call := fun heq => hnone connection (heq ▸ hopened)
    exact (hothers other hother).trans hopened
  · intro other connection hconnection hclosed
    by_cases hother : other = call
    · subst hother
      exact hself.symm.trans hconnection
    · -- The other calls have closed what they opened.
      have hopened : s.opened other = some connection :=
        (hothers other hother).symm.trans hconnection
      have hnull : s.closed other = none := hclosed
      rw [h.settled (halone other hother), hopened] at hnull
      cases hnull

theorem inv_createSession (h : Inv s) (hphase : s.phase call = .createSession) {connection : Nat}
    (hfield : s.queueConnection = some connection) :
    Inv ((s.createSession call connection).enter call .createClient) := by
  have hready := h.phase call
  rw [hphase] at hready
  have hown : s.opened call = some connection := (h.own hready.1 hready.2).trans hfield
  have hinv : Inv (s.createSession call connection) := by
    refine ⟨h.phase, ?_, h.closed, h.holder⟩
    intro other c hc
    by_cases hother : other = call
    · subst hother
      have hself : (s.createSession other connection).session other = some connection :=
        Function.update_self ..
      exact hown.trans (hself.symm.trans hc)
    · have hsame : (s.createSession call connection).session other = s.session other :=
        Function.update_of_ne hother ..
      exact h.session other c (hsame.symm.trans hc)
  exact inv_enter hinv hready

omit [DecidableEq ι] in
theorem inv_createClient (h : Inv s) (session : Nat) (operation : Operation) :
    Inv (s.createClient session operation) := by
  cases operation <;> exact ⟨h.phase, h.session, h.closed, h.holder⟩

theorem inv_closeConnection (h : Inv s) (hphase : s.phase call = .closeConnection)
    {connection : Nat} (hfield : s.queueConnection = some connection)
    (halone : s.opened call = none → s.queueConnection = none) {phase : Phase}
    (hafter : PhaseOk (some connection) (some connection) phase) :
    Inv ((s.closeConnection call connection).enter call phase) := by
  have hready : s.closed call = none := by
    have := h.phase call
    rwa [hphase] at this
  have hopened : s.opened call ≠ none := by
    intro hnone
    rw [halone hnone] at hfield
    cases hfield
  have hown : s.opened call = some connection := (h.own hopened hready).trans hfield
  have hself : (s.closeConnection call connection).closed call = some connection :=
    Function.update_self ..
  have hothers : ∀ other, other ≠ call →
      (s.closeConnection call connection).closed other = s.closed other :=
    fun other hother => Function.update_of_ne hother ..
  refine ⟨?_, h.session, ?_, ?_⟩
  · intro other
    by_cases hother : other = call
    · subst hother
      rw [enter_phase_self]
      change PhaseOk (s.opened other) ((s.closeConnection other connection).closed other) _
      rw [hself, hown]
      exact hafter
    · rw [enter_phase_of_ne hother]
      change PhaseOk _ ((s.closeConnection call connection).closed other) _
      rw [hothers other hother]
      exact h.phase other
  · intro other c hc
    by_cases hother : other = call
    · subst hother
      exact hown.trans (hself.symm.trans hc)
    · exact h.closed other c ((hothers other hother).symm.trans hc)
  · intro other c hc hclosed
    by_cases hother : other = call
    · subst hother
      cases hself.symm.trans hclosed
    · exact h.holder other c hc ((hothers other hother).symm.trans hclosed)

theorem inv_proceed (h : Inv s) (halone : Alone s (call, .returns)) (operation : Operation) :
    Inv (s.proceed call operation) := by
  have hphase := h.phase call
  rw [State.proceed]
  cases hcase : s.phase call with
  | createConnection => exact inv_createConnection h hcase (halone.1 hcase rfl)
  | lookupQueue =>
    rw [hcase] at hphase
    exact inv_enter h hphase
  | createSession =>
    cases hfield : s.queueConnection with
    | none => exact inv_raise h fun _ => hfield
    | some connection => exact inv_createSession h hcase hfield
  | createClient =>
    rw [hcase] at hphase
    cases hfield : s.queueSession with
    | none => exact inv_raise h fun hclose => absurd (hcase.symm.trans hclose) (by decide)
    | some session =>
      refine inv_enter (inv_createClient h session operation) ?_
      cases operation <;> exact hphase
  | start =>
    rw [hcase] at hphase
    dsimp only
    split
    · exact inv_enter h hphase
    · exact inv_raise h fun hclose => absurd (hcase.symm.trans hclose) (by decide)
  | inUse =>
    rw [hcase] at hphase
    exact inv_enter h hphase.2
  | closeConnection =>
    cases hfield : s.queueConnection with
    | none => exact inv_raise h fun _ => hfield
    | some connection => exact inv_closeConnection h hcase hfield (halone.2 hcase) rfl
  | closeSession =>
    rw [hcase] at hphase
    dsimp only
    split
    · exact inv_enter h hphase
    · exact inv_raise h fun hclose => absurd (hcase.symm.trans hclose) (by decide)
  | closeClient | done =>
    rw [hcase] at hphase
    exact inv_enter h hphase

theorem inv_fail (h : Inv s) (halone : Alone s (call, .raises)) : Inv (s.fail call) := by
  rw [State.fail]
  split
  · rename_i connection hcase hfield
    rw [State.raise]
    have hraised : ((s.closeConnection call connection).phase call).raised = .done := by
      change (s.phase call).raised = .done
      rw [hcase]
      rfl
    rw [hraised]
    exact inv_closeConnection h hcase hfield (halone.2 hcase) rfl
  · rename_i hother
    refine inv_raise h fun hclose => ?_
    cases hfield : s.queueConnection with
    | none => rfl
    | some connection => exact absurd hfield (hother connection hclose)

theorem inv_step (h : Inv s) {turn : ι × Outcome} (halone : Alone s turn)
    (hstep : step operation s turn = some t) : Inv t := by
  obtain ⟨call, outcome⟩ := turn
  rw [step] at hstep
  split at hstep
  · cases hstep
  · cases outcome with
    | returns =>
      cases hstep
      exact inv_proceed h halone _
    | raises =>
      cases hstep
      exact inv_fail h halone
    | again =>
      dsimp only at hstep
      split at hstep
      · cases hstep
        exact h
      · cases hstep

omit [DecidableEq ι] in
theorem inv_start : Inv (start : State ι) where
  phase _ := ⟨rfl, rfl⟩
  session _ _ hnone := absurd hnone (Option.not_mem_none _)
  closed _ _ hnone := absurd hnone (Option.not_mem_none _)
  holder _ _ hnone := absurd hnone (Option.not_mem_none _)

omit [DecidableEq ι] in
theorem uncrossed_of_inv (h : Inv s) : Uncrossed s where
  session := h.session
  closed := h.closed
  finished call hdone := by
    have hphase := h.phase call
    rw [hdone] at hphase
    exact hphase
  released hall call connection hopened := by
    have hphase := h.phase call
    rcases hall call with hready | hdone
    · rw [hready] at hphase
      rw [hphase.1] at hopened
      cases hopened
    · rw [hdone] at hphase
      exact ⟨call, hphase.trans hopened⟩

/-- Calls that are alone with their connection do not cross. -/
theorem uncrossed_of_alone (h : Reached (step operation) Alone start s) : Uncrossed s :=
  uncrossed_of_inv (h.invariant inv_start fun _ _ _ hinv halone hstep =>
    inv_step hinv halone hstep)

instance [Fintype ι] (s : State ι) (turn : ι × Outcome) : Decidable (Alone s turn) :=
  inferInstanceAs (Decidable (_ ∧ _))

def browses : Fin 2 → Operation := fun _ => .browseQueue

def whole (call : Fin 2) : List (Fin 2 × Outcome) := List.replicate 9 (call, .returns)

/-- Two calls open their connections before either creates its session. The connection that is left
in the field serves both; when the first call has closed it, the second one fails and closes it
again. -/
def crossed : List (Fin 2 × Outcome) :=
  [(0, .returns), (1, .returns)] ++ List.replicate 8 (0, .returns) ++
    [(1, .returns), (1, .raises), (1, .returns), (1, .returns), (1, .returns)]

theorem uncrossed_whole : ∃ s, run (step browses) (whole 0 ++ whole 1) start = some s ∧
    (∀ call, s.phase call = .done) ∧ Uncrossed s := by
  have hrun : (run (step browses) (whole 0 ++ whole 1) start).map
      (fun s => (s.phase 0, s.phase 1)) = some (.done, .done) := by decide
  obtain ⟨s, hs, hdone⟩ := Option.map_eq_some_iff.1 hrun
  refine ⟨s, hs, ?_, uncrossed_of_alone (reached_of_run hs (by decide))⟩
  exact Fin.forall_fin_two.2 (Prod.mk.inj hdone)

theorem not_uncrossed_crossed : ∃ s, Reached (step browses) (fun _ _ => True) start s ∧
    (∀ call, s.phase call = .done) ∧ ¬Uncrossed s := by
  have hrun : (run (step browses) crossed start).map
      (fun s => ((s.phase 0, s.phase 1), s.opened 0, s.closed 0, s.closed 1)) =
      some ((.done, .done), some 0, some 1, some 1) := by decide
  obtain ⟨s, hs, hseen⟩ := Option.map_eq_some_iff.1 hrun
  obtain ⟨hdone, hrest⟩ := Prod.mk.inj hseen
  obtain ⟨hopened, hclosed⟩ := Prod.mk.inj hrest
  have hall : ∀ call, s.phase call = .done := Fin.forall_fin_two.2 (Prod.mk.inj hdone)
  refine ⟨s, reached_of_run hs (by decide), hall, fun huncrossed => ?_⟩
  obtain ⟨closer, hcloser⟩ := huncrossed.released (fun call => .inr (hall call)) 0 0 hopened
  have hone : ∀ call, s.closed call = some 1 := Fin.forall_fin_two.2 (Prod.mk.inj hclosed)
  cases (hone closer).symm.trans hcloser

end CarbonMessaging.SharedConnection
