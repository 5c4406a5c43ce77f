import CarbonMessaging.InterleavedUpdates
import CarbonMessaging.RegistryClient

/-! Several nodes register and release one queue, each call cut into its registry requests and
the requests of different calls in any order. No request carries a version or holds a lock, so
two calls that read the same user count write back one of the two changes only. -/

namespace CarbonMessaging.ConcurrentSharing

open JavaLang FaultyCalls CommonsUtil RegistryClient InterleavedUpdates
open scoped BigOperators

inductive Call where
  | createQueue (queueName owner : Str)
  | deleteQueue (queueName : Str)

structure Client where
  context : CarbonContext
  call : Call

/-- The registry request that a call sends next, or how the call ended. -/
inductive Position where
  | resourceExists | newCollection | get | getAgain | put (queue : Collection) | delete
  | finished (result : Except JavaException Unit)

def createQueueStep (queueName owner id now : Str) (registry : Registry) :
    Position → Position × Registry
  | .resourceExists => (if id ∈ registry then .get else .newCollection, registry)
  | .newCollection => (.put (newQueueEntry now queueName owner ∅), registry)
  | .get =>
    match registry.lookup id with
    | none => (.finished (.error (asClientException (noResource id))), registry)
    | some queue =>
      match sharedQueueEntry now queue with
      | .ok queue => (.put queue, registry)
      | .error e => (.finished (.error (asClientException e)), registry)
  | .put queue => (.finished (.ok ()), registry.insert id queue)
  | position => (position, registry)

def deleteQueueStep (id : Str) (registry : Registry) : Position → Position × Registry
  | .resourceExists => (if id ∈ registry then .get else .finished (.ok ()), registry)
  | .get =>
    match registry.lookup id with
    | none => (.finished (.error (asClientException (noResource id))), registry)
    | some queue =>
      (if queue.lookup CREATED_FROM = some CREATED_FROM_AMQP then .getAgain
        else .finished (.ok ()), registry)
  | .getAgain =>
    match registry.lookup id with
    | none => (.finished (.error (asClientException (noResource id))), registry)
    | some queue =>
      match queue.lookup USER_COUNT with
      | none => (.finished (.ok ()), registry)
      | some userCount =>
        match parseInt userCount with
        | none => (.finished (.error ⟨.numberFormat, some userCount⟩), registry)
        | some count =>
          (if count > 1 then .put (loweredEntry count queue) else .delete, registry)
  | .put queue => (.finished (.ok ()), registry.insert id queue)
  | .delete =>
    match registry.lookup id with
    | none => (.finished (.error (asClientException (noResource id))), registry)
    | some _ => (.finished (.ok ()), registry.erase id)
  | position => (position, registry)

@[simp] def Call.queueName : Call → Str
  | createQueue queueName _ => queueName
  | deleteQueue queueName => queueName

@[simp] def Call.step (id now : Str) : Call → Registry → Position → Position × Registry
  | createQueue queueName owner => createQueueStep queueName owner id now
  | deleteQueue _ => deleteQueueStep id

/-- Releases always go to the super tenant's registry. -/
@[simp] def Client.tenant (client : Client) : Int :=
  match client.call with
  | .createQueue _ _ => client.context.ownTenant
  | .deleteQueue _ => SUPER_TENANT_ID

@[simp] def Client.queueID (client : Client) : Except JavaException Str :=
  getQueueID client.context client.call.queueName

def Client.step (client : Client) (now : Str) (position : Position)
    (registries : Int → Registry) : Position × (Int → Registry) :=
  match client.queueID with
  | .error e => (.finished (.error e), registries)
  | .ok id =>
    let answer := client.call.step id now (registries client.tenant) position
    (answer.1, Function.update registries client.tenant answer.2)

variable {β : Type}

@[simp] def Client.steps (client : Client) (now : Str) : Nat → Position × (Int → Registry) →
    Position × (Int → Registry)
  | 0, state => state
  | n + 1, state => client.steps now n (client.step now state.1 state.2)

def Call.program : Call → Carbon β Unit
  | createQueue queueName owner => RegistryClient.createQueue queueName owner
  | deleteQueue queueName => RegistryClient.deleteQueue queueName

def ending (w : World β) (state : Position × (Int → Registry)) :
    Option (EStateM.Result JavaException (Site JavaException (World β)) Unit) :=
  match state.1 with
  | .finished (.ok ()) => some (.ok () ⟨{ w with registries := state.2 }, []⟩)
  | .finished (.error e) => some (.error e ⟨{ w with registries := state.2 }, []⟩)
  | _ => none

theorem createQueue_alone (queueName owner : Str) (w : World β) :
    ending w (Client.steps ⟨w.context, .createQueue queueName owner⟩ w.now 4
      (.resourceExists, w.registries)) =
        some (RegistryClient.createQueue queueName owner ⟨w, []⟩) := by
  cases hid : getQueueID w.context queueName with
  | error e =>
    rw [createQueue_unnamed hid]
    simp [Client.step, hid, ending]
  | ok id =>
    cases hqueue : (w.registries w.context.ownTenant).lookup id with
    | none =>
      have hnew := Finmap.lookup_eq_none.1 hqueue
      rw [createQueue_new hid hnew]
      simp [Client.step, hid, createQueueStep, hnew, ending, World.putEntry]
    | some queue =>
      have hmem := Finmap.mem_of_lookup_eq_some hqueue
      rw [createQueue_shared hid hqueue]
      cases hentry : sharedQueueEntry w.now queue <;>
        simp [Client.step, hid, createQueueStep, hmem, hqueue, hentry, ending, World.putEntry]

theorem deleteQueue_alone (queueName : Str) (w : World β) :
    ending w (Client.steps ⟨w.context, .deleteQueue queueName⟩ w.now 4
      (.resourceExists, w.registries)) = some (RegistryClient.deleteQueue queueName ⟨w, []⟩) := by
  cases hid : getQueueID w.context queueName with
  | error e =>
    simp [Client.step, hid, ending, RegistryClient.deleteQueue, getGovernanceSystemRegistry,
      context, asClientException_unnamed hid]
  | ok id =>
    cases hqueue : (w.registries SUPER_TENANT_ID).lookup id with
    | none =>
      have habsent := Finmap.lookup_eq_none.1 hqueue
      rw [deleteQueue_absent hid habsent]
      simp [Client.step, hid, deleteQueueStep, habsent, ending]
    | some queue =>
      have hmem := Finmap.mem_of_lookup_eq_some hqueue
      have hread := registryGet_quiet hqueue
      by_cases hfrom : queue.lookup CREATED_FROM = some CREATED_FROM_AMQP
      · cases htext : queue.lookup USER_COUNT with
        | none =>
          simp [Client.step, hid, deleteQueueStep, hmem, hqueue, hfrom, htext, ending,
            RegistryClient.deleteQueue, getGovernanceSystemRegistry, context, hread]
        | some userCount =>
          cases hparse : parseInt userCount with
          | none =>
            simp [Client.step, hid, deleteQueueStep, hmem, hqueue, hfrom, htext, hparse, ending,
              RegistryClient.deleteQueue, getGovernanceSystemRegistry, context, hread,
              asClientException]
          | some count =>
            have hlive : liveCount queue = some count := by simp [liveCount, hfrom, htext, hparse]
            rw [deleteQueue_live hid hqueue hlive]
            by_cases hmany : count > 1 <;>
              simp [Client.step, hid, deleteQueueStep, hmem, hqueue, hfrom, htext, hparse, hmany,
                ending, releaseEntry, hlive, World.putEntry, World.deleteEntry]
      · simp [Client.step, hid, deleteQueueStep, hmem, hqueue, hfrom, ending,
          RegistryClient.deleteQueue, getGovernanceSystemRegistry, context, hread]

theorem alone (call : Call) (w : World β) :
    ending w (Client.steps ⟨w.context, call⟩ w.now 4 (.resourceExists, w.registries)) =
      some (call.program ⟨w, []⟩) := by
  cases call with
  | createQueue queueName owner => exact createQueue_alone queueName owner w
  | deleteQueue queueName => exact deleteQueue_alone queueName w

variable {ι : Type}

structure Cluster (ι : Type) where
  positions : ι → Position
  registries : Int → Registry

def Cluster.advance [DecidableEq ι] (clients : ι → Client) (cluster : Cluster ι)
    (turn : ι × Str) : Cluster ι :=
  let answer := (clients turn.1).step turn.2 (cluster.positions turn.1) cluster.registries
  ⟨Function.update cluster.positions turn.1 answer.1, answer.2⟩

def Cluster.run [DecidableEq ι] (clients : ι → Client) (registries : Int → Registry)
    (schedule : List (ι × Str)) : Cluster ι :=
  schedule.foldl (Cluster.advance clients) ⟨fun _ => .resourceExists, registries⟩

def Shares (id : Str) (client : Client) : Prop :=
  client.queueID = .ok id ∧ client.tenant = SUPER_TENANT_ID

def Call.increment : Call → ℤ
  | createQueue _ _ => 1
  | deleteQueue _ => -1

def Position.Pending : Position → Prop
  | put _ => True
  | _ => False

instance : DecidablePred Position.Pending
  | .put _ => isTrue trivial
  | .resourceExists | .newCollection | .get | .getAgain | .delete | .finished _ =>
    isFalse fun h => h

/-- No call reads the count while another is about to write it back. -/
def NoOverlap [DecidableEq ι] (clients : ι → Client) (registries : Int → Registry)
    (schedule : List (ι × Str)) : Prop :=
  ∀ initial, initial <+: schedule → ∀ i j,
    ((Cluster.run clients registries initial).positions i).Pending →
    ((Cluster.run clients registries initial).positions j).Pending → i = j

inductive Matches (δ : ℤ) : Position → Phase → Prop where
  | resourceExists : Matches δ .resourceExists .waiting
  | get : Matches δ .get .waiting
  | getAgain : Matches δ .getAgain .waiting
  | put {queue : Collection} {held : ℤ} (h : liveCount queue = some (held + δ)) :
      Matches δ (.put queue) (.holding held)
  | finished : Matches δ (.finished (.ok ())) .done

inductive Effect (call : Call) (id : Str) (registry : Registry) (value : ℤ) (phase : Phase) :
    Position × Registry → Prop where
  | idle {position : Position} (h : Matches call.increment position phase) :
      Effect call id registry value phase (position, registry)
  | reads {position : Position} (hphase : phase = .waiting)
      (h : Matches call.increment position (.holding value)) :
      Effect call id registry value phase (position, registry)
  | writes {held : ℤ} {queue : Collection} (hphase : phase = .holding held)
      (h : liveCount queue = some (held + call.increment)) :
      Effect call id registry value phase (.finished (.ok ()), registry.insert id queue)

theorem step_effect {call : Call} {id : Str} {registry : Registry} {queue : Collection}
    {value : ℤ} {position : Position} {phase : Phase} (now : Str)
    (hqueue : registry.lookup id = some queue) (hlive : liveCount queue = some value)
    (hmatches : Matches call.increment position phase)
    (hlower : phase = .waiting → call.increment = -1 → 1 < value)
    (hupper : phase = .waiting → call.increment = 1 → value < 2 ^ 31 - 1) :
    Effect call id registry value phase (call.step id now registry position) := by
  have hmem : id ∈ registry := Finmap.mem_of_lookup_eq_some hqueue
  cases call with
  | createQueue queueName owner =>
    cases hmatches with
    | resourceExists =>
      simp only [Call.step, createQueueStep, if_pos hmem]
      exact .idle .get
    | get =>
      obtain ⟨entry, hentry, hraised, -⟩ := sharedQueueEntry_live hlive (hupper rfl rfl) now
      simp only [Call.step, createQueueStep, hqueue, hentry]
      exact .reads rfl (.put hraised)
    | getAgain => exact .idle .getAgain
    | put h => exact .writes rfl h
    | finished => exact .idle .finished
  | deleteQueue queueName =>
    cases hmatches with
    | resourceExists =>
      simp only [Call.step, deleteQueueStep, if_pos hmem]
      exact .idle .get
    | get =>
      have hfrom : queue.lookup CREATED_FROM = some CREATED_FROM_AMQP := by
        by_contra hother
        rw [liveCount, if_neg hother] at hlive
        cases hlive
      simp only [Call.step, deleteQueueStep, hqueue, if_pos hfrom]
      exact .idle .getAgain
    | getAgain =>
      have hmany := hlower rfl rfl
      have hlowered := (loweredEntry_live hlive hmany).1
      unfold liveCount at hlive
      split at hlive
      · obtain ⟨text, htext, hparse⟩ := Option.bind_eq_some_iff.1 hlive
        simp only [Call.step, deleteQueueStep, hqueue, htext, hparse, if_pos hmany]
        exact .reads rfl (.put hlowered)
      · cases hlive
    | put h => exact .writes rfl h
    | finished => exact .idle .finished

section
variable [DecidableEq ι]

def increments (clients : ι → Client) (i : ι) : ℤ := (clients i).call.increment

/-- The stored count is the shared number, and every call stands in its phase. -/
structure Represents (clients : ι → Client) (id : Str) (cluster : Cluster ι) (s : State ι) :
    Prop where
  count : ∃ queue, (cluster.registries SUPER_TENANT_ID).lookup id = some queue ∧
    liveCount queue = some s.value
  phases : ∀ i, Matches (increments clients i) (cluster.positions i) (s.phases i)

variable {clients : ι → Client} {id : Str} {cluster : Cluster ι} {s : State ι}

theorem advance_eq {client : Client} (h : Shares id client) (now : Str) (position : Position)
    (registries : Int → Registry) : client.step now position registries =
      ((client.call.step id now (registries SUPER_TENANT_ID) position).1,
        Function.update registries SUPER_TENANT_ID
          (client.call.step id now (registries SUPER_TENANT_ID) position).2) := by
  rw [Client.step, h.1, h.2]

theorem matches_update {δ : ι → ℤ} {positions : ι → Position} {phases : ι → Phase}
    (h : ∀ j, Matches (δ j) (positions j) (phases j)) {i : ι} {position : Position} {phase : Phase}
    (hi : Matches (δ i) position phase) (j : ι) :
    Matches (δ j) (Function.update positions i position j) (Function.update phases i phase j) := by
  by_cases hji : j = i
  · subst hji
    rwa [Function.update_self, Function.update_self]
  · rw [Function.update_of_ne hji, Function.update_of_ne hji]
    exact h j

theorem represents_advance (h : Represents clients id cluster s) (turn : ι × Str)
    (hshares : Shares id (clients turn.1))
    (hlower : s.phases turn.1 = .waiting → increments clients turn.1 = -1 → 1 < s.value)
    (hupper : s.phases turn.1 = .waiting → increments clients turn.1 = 1 → s.value < 2 ^ 31 - 1) :
    Represents clients id (cluster.advance clients turn) s ∨
      Represents clients id (cluster.advance clients turn)
        (step (increments clients) s turn.1) := by
  obtain ⟨queue, hqueue, hlive⟩ := h.count
  have heffect := step_effect turn.2 hqueue hlive (h.phases turn.1) hlower hupper
  rw [Cluster.advance, advance_eq hshares]
  generalize (clients turn.1).call.step id turn.2 (cluster.registries SUPER_TENANT_ID)
    (cluster.positions turn.1) = answer at heffect
  cases heffect with
  | idle hmatches =>
    refine .inl ⟨⟨queue, by simpa using hqueue, hlive⟩, fun j => ?_⟩
    rw [← Function.update_eq_self turn.1 s.phases]
    exact matches_update h.phases hmatches j
  | reads hphase hmatches =>
    rw [step_waiting hphase]
    exact .inr ⟨⟨queue, by simpa using hqueue, hlive⟩, matches_update h.phases hmatches⟩
  | writes hphase hcount =>
    rw [step_holding hphase]
    exact .inr ⟨⟨_, by simp, hcount⟩, matches_update h.phases .finished⟩

omit [DecidableEq ι] in
theorem oneHolder_of_pending (h : Represents clients id cluster s)
    (hpending : ∀ i j, (cluster.positions i).Pending → (cluster.positions j).Pending → i = j) :
    OneHolder s.phases := by
  have hholds : ∀ i v, s.phases i = .holding v → (cluster.positions i).Pending := by
    intro i v hv
    have hmatches := h.phases i
    rw [hv] at hmatches
    generalize cluster.positions i = position at hmatches ⊢
    cases hmatches
    trivial
  exact fun i j v v' hi hj => hpending i j (hholds i v hi) (hholds j v' hj)

end

section
variable [Fintype ι]

def Call.creates : Call → Bool
  | createQueue _ _ => true
  | deleteQueue _ => false

def creations (clients : ι → Client) : Nat :=
  (Finset.univ.filter fun i => (clients i).call.creates = true).card

def deletions (clients : ι → Client) : Nat :=
  (Finset.univ.filter fun i => (clients i).call.creates = false).card

theorem sum_gain (clients : ι → Client) :
    ∑ i, gain (increments clients) i = creations clients := by
  rw [creations, Finset.card_filter, Nat.cast_sum]
  refine Finset.sum_congr rfl fun i _ => ?_
  unfold gain increments
  cases (clients i).call <;> rfl

theorem sum_loss (clients : ι → Client) :
    ∑ i, loss (increments clients) i = deletions clients := by
  rw [deletions, Finset.card_filter, Nat.cast_sum]
  refine Finset.sum_congr rfl fun i _ => ?_
  unfold loss increments
  cases (clients i).call <;> rfl

theorem sum_increments (clients : ι → Client) :
    ∑ i, increments clients i = creations clients - deletions clients := by
  rw [← sum_gain, ← sum_loss, ← Finset.sum_sub_distrib]
  refine Finset.sum_congr rfl fun i _ => ?_
  unfold gain loss increments
  cases (clients i).call <;> rfl

variable [DecidableEq ι] {clients : ι → Client} {id : Str}

theorem waiting_bounds {c : ℤ} {s : State ι} (h : Within (increments clients) c s)
    (hlower : deletions clients < c) (hupper : c + creations clients < 2 ^ 31) (i : ι)
    (hwaiting : s.phases i = .waiting) :
    (increments clients i = -1 → 1 < s.value) ∧
      (increments clients i = 1 → s.value < 2 ^ 31 - 1) := by
  have hi : s.phases i ≠ .done := by simp [hwaiting]
  have hloss := total_add_le (loss_nonneg (increments clients)) hi
  have hgain := total_add_le (gain_nonneg (increments clients)) hi
  rw [sum_loss] at hloss
  rw [sum_gain] at hgain
  obtain ⟨hvalue, hvalue'⟩ := h.value
  constructor
  · intro hdelete
    rw [loss, hdelete] at hloss
    omega
  · intro hcreate
    rw [gain, hcreate] at hgain
    omega

/-- Every interleaving of the requests is one of the readings and writings of the count. -/
theorem run_simulates (hshares : ∀ i, Shares id (clients i)) {registries : Int → Registry}
    {queue : Collection} {c : ℤ} (hqueue : (registries SUPER_TENANT_ID).lookup id = some queue)
    (hlive : liveCount queue = some c) (hlower : deletions clients < c)
    (hupper : c + creations clients < 2 ^ 31) (schedule : List (ι × Str)) :
    ∃ moves, Represents clients id (Cluster.run clients registries schedule)
        (run (increments clients) c moves) ∧
      (NoOverlap clients registries schedule → Exclusive (increments clients) c moves) := by
  induction schedule using List.reverseRecOn with
  | nil =>
    refine ⟨[], ⟨⟨queue, hqueue, hlive⟩, fun i => .resourceExists⟩, fun _ initial hinitial => ?_⟩
    rw [List.prefix_nil.1 hinitial]
    intro i j v v' hi
    cases hi
  | append_singleton schedule turn ih =>
    obtain ⟨moves, hrepresents, hexclusive⟩ := ih
    have hbounds := waiting_bounds (run_within (increments clients) c moves) hlower hupper turn.1
    have hrun : Cluster.run clients registries (schedule ++ [turn]) =
        (Cluster.run clients registries schedule).advance clients turn := by
      rw [Cluster.run, List.foldl_append, List.foldl_cons, List.foldl_nil, Cluster.run]
    have hbefore : NoOverlap clients registries (schedule ++ [turn]) →
        NoOverlap clients registries schedule := fun h initial hinitial =>
      h initial (hinitial.trans (List.prefix_append _ _))
    rcases represents_advance hrepresents turn (hshares turn.1) (fun h => (hbounds h).1)
      (fun h => (hbounds h).2) with hstays | hmoves
    · exact ⟨moves, hrun ▸ hstays, fun h => hexclusive (hbefore h)⟩
    · refine ⟨moves ++ [turn.1], ?_, fun h => ?_⟩
      · rw [hrun, run_append_single]
        exact hmoves
      · have hpending := h _ List.prefix_rfl
        rw [hrun] at hpending
        exact exclusive_append_single (hexclusive (hbefore h))
          (oneHolder_of_pending hmoves hpending)

end

def Cluster.Finished (cluster : Cluster ι) : Prop :=
  ∀ i, ∃ result, cluster.positions i = .finished result

/-- However the requests of the calls interleave, each call leaves its mark on the count. -/
def NoLostUpdate [Fintype ι] [DecidableEq ι] (clients : ι → Client) (id : Str)
    (registries : Int → Registry) (c : ℤ) : Prop :=
  ∀ schedule, (Cluster.run clients registries schedule).Finished →
    ∃ entry, ((Cluster.run clients registries schedule).registries SUPER_TENANT_ID).lookup id =
        some entry ∧
      liveCount entry = some (c + creations clients - deletions clients)

/-- Once all calls are finished the entry is there with a count between what the deletions and
what the creations alone would leave, and with the sum of both when no call read the count while
another was about to write it back. -/
theorem count_of_interleaving [Fintype ι] [DecidableEq ι] {clients : ι → Client} {id : Str}
    (hshares : ∀ i, Shares id (clients i)) {registries : Int → Registry} {queue : Collection}
    {c : ℤ} (hqueue : (registries SUPER_TENANT_ID).lookup id = some queue)
    (hlive : liveCount queue = some c) (hlower : deletions clients < c)
    (hupper : c + creations clients < 2 ^ 31) (schedule : List (ι × Str))
    (hfinished : (Cluster.run clients registries schedule).Finished) :
    (∀ i, (Cluster.run clients registries schedule).positions i = .finished (.ok ())) ∧
    ∃ entry count,
      ((Cluster.run clients registries schedule).registries SUPER_TENANT_ID).lookup id =
        some entry ∧ liveCount entry = some count ∧
      c - deletions clients ≤ count ∧ count ≤ c + creations clients ∧
      (NoOverlap clients registries schedule →
        count = c + creations clients - deletions clients) := by
  obtain ⟨moves, hrepresents, hexclusive⟩ :=
    run_simulates hshares hqueue hlive hlower hupper schedule
  have hended : ∀ i, (Cluster.run clients registries schedule).positions i = .finished (.ok ()) ∧
      (run (increments clients) c moves).phases i = .done := by
    intro i
    obtain ⟨result, hresult⟩ := hfinished i
    have hmatches := hrepresents.phases i
    rw [hresult] at hmatches ⊢
    generalize (run (increments clients) c moves).phases i = phase at hmatches ⊢
    cases hmatches
    exact ⟨rfl, rfl⟩
  have hdone := fun i => (hended i).2
  obtain ⟨entry, hentry, hcount⟩ := hrepresents.count
  obtain ⟨hvalue, hvalue'⟩ := (run_within (increments clients) c moves).value
  rw [total_of_done hdone, sum_loss] at hvalue
  rw [total_of_done hdone, sum_gain] at hvalue'
  refine ⟨fun i => (hended i).1, entry, _, hentry, hcount, hvalue, hvalue', fun h => ?_⟩
  rw [(run_exact (hexclusive h)).value, total_of_done hdone, sum_increments, add_sub_assoc]

def sharer : Client := ⟨⟨SUPER_TENANT_ID, some SUPER_TENANT_DOMAIN_NAME, []⟩,
  .createQueue "q".toList "owner".toList⟩

def registered (userCount : Str) : Int → Registry := fun _ =>
  (∅ : Registry).insert (queueResource "q".toList)
    ((newQueueEntry "0".toList "q".toList "owner".toList ∅).insert USER_COUNT userCount)

def releaser : Client := ⟨sharer.context, .deleteQueue "q".toList⟩

def sharing : Bool → Client
  | false => sharer
  | true => releaser

def alternating : List (Bool × Str) :=
  [(false, []), (true, []), (true, []), (false, []), (false, []), (true, []), (true, [])]

def overlapping : List (Bool × Str) :=
  [(true, []), (false, []), (true, []), (true, []), (false, []), (true, []), (false, [])]

theorem noOverlap_alternating : NoOverlap sharing (registered "2".toList) alternating := by
  have hinits : ∀ initial ∈ alternating.inits, ∀ i j,
      ((Cluster.run sharing (registered "2".toList) initial).positions i).Pending →
      ((Cluster.run sharing (registered "2".toList) initial).positions j).Pending → i = j := by
    decide
  exact fun initial hinitial => hinits initial ((List.mem_inits _ _).2 hinitial)

theorem count_of_interleaving_two :
    (∃ entry, ((Cluster.run sharing (registered "2".toList) alternating).registries
        SUPER_TENANT_ID).lookup (queueResource "q".toList) = some entry ∧
      liveCount entry = some 2) ∧
    ∃ entry count, ((Cluster.run sharing (registered "2".toList) overlapping).registries
        SUPER_TENANT_ID).lookup (queueResource "q".toList) = some entry ∧
      liveCount entry = some count ∧ 1 ≤ count ∧ count ≤ 3 := by
  have hshares : ∀ i, Shares (queueResource "q".toList) (sharing i) := by
    intro i
    cases i <;> exact ⟨rfl, rfl⟩
  constructor
  · obtain ⟨-, entry, count, hentry, hcount, -, -, hexact⟩ :=
      @count_of_interleaving Bool _ _ sharing (queueResource "q".toList) hshares
        (registered "2".toList) _ 2 rfl (by decide) (by decide) (by decide) alternating
        fun i => ⟨.ok (), by cases i <;> rfl⟩
    rw [hexact noOverlap_alternating] at hcount
    exact ⟨entry, hentry, hcount⟩
  · obtain ⟨-, entry, count, hentry, hcount, hlower, hupper, -⟩ :=
      @count_of_interleaving Bool _ _ sharing (queueResource "q".toList) hshares
        (registered "2".toList) _ 2 rfl (by decide) (by decide) (by decide) overlapping
        fun i => ⟨.ok (), by cases i <;> rfl⟩
    exact ⟨entry, count, hentry, hcount, hlower, hupper⟩

theorem creation_lost :
    ¬NoLostUpdate (fun _ : Fin 2 => sharer) (queueResource "q".toList) (registered "1".toList) 1 ∧
    ¬NoLostUpdate (fun _ : Fin 1 => sharer) (queueResource "q".toList)
      (registered "2147483647".toList) 2147483647 := by
  constructor
  · intro h
    obtain ⟨entry, hentry, hcount⟩ := h
      [(0, []), (0, []), (1, []), (1, []), (0, []), (1, [])]
      fun i => ⟨.ok (), by fin_cases i <;> rfl⟩
    cases hentry
    exact absurd hcount (by decide)
  · intro h
    obtain ⟨entry, hentry, hcount⟩ := h [(0, []), (0, []), (0, [])]
      fun i => ⟨.ok (), by fin_cases i; rfl⟩
    cases hentry
    exact absurd hcount (by decide)

end CarbonMessaging.ConcurrentSharing
