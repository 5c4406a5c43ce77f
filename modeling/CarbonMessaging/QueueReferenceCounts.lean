import CarbonMessaging.RegistryClient
import CarbonMessaging.ReferenceLedger

/-! The user count of shared queues over whole runs in the super tenant. The registry is shown
to simulate a reference ledger, from which the counts and the owners follow. -/

namespace CarbonMessaging.QueueReferenceCounts

open JavaLang FaultyCalls CommonsUtil RegistryClient ReferenceLedger

variable {β : Type}

inductive QueueCall where
  | createQueue (now queueName owner : Str)
  | deleteQueue (queueName : Str)

def QueueCall.step (w : World β) : QueueCall → World β
  | .createQueue now queueName owner =>
    final (RegistryClient.createQueue queueName owner) { w with now := now }
  | .deleteQueue queueName => final (RegistryClient.deleteQueue queueName) w

def QueueCall.isCreation : QueueCall → Bool
  | .createQueue .. => true
  | .deleteQueue _ => false

def runCalls (calls : List QueueCall) (w : World β) : World β := calls.foldl QueueCall.step w

/-- Each creation on the id raises the counter, each deletion lowers it, never below zero. -/
def userCount (context : CarbonContext) (id : Str) (calls : List QueueCall) : Nat :=
  calls.foldl (fun n call => match call with
    | .createQueue _ queueName _ => if getQueueID context queueName = .ok id then n + 1 else n
    | .deleteQueue queueName => if getQueueID context queueName = .ok id then n - 1 else n) 0

def QueueCall.op : QueueCall → Op Str (Str × Str)
  | .createQueue _ queueName owner =>
    .acquire (queueResource (upTo ';' queueName)) (queueName, owner)
  | .deleteQueue queueName => .release (queueResource (upTo ';' queueName))

def Represents (entry : Option Collection) (holding : Option (Holding (Str × Str))) : Prop :=
  match entry, holding with
  | none, none => True
  | some entry, some h => liveCount entry = some (h.count : Int) ∧
      entry.lookup NAME = some h.founder.1 ∧ entry.lookup OWNER = some h.founder.2
  | _, _ => False

def Simulates (w : World β) (ledger : Ledger Str (Str × Str)) : Prop :=
  ∀ name, Represents ((w.registries SUPER_TENANT_ID).lookup (queueResource name))
    (ledger (queueResource name))

theorem represents_cases {entry : Option Collection} {holding : Option (Holding (Str × Str))}
    (h : Represents entry holding) :
    (entry = none ∧ holding = none) ∨ ∃ queue held, entry = some queue ∧ holding = some held ∧
      liveCount queue = some (held.count : Int) ∧ queue.lookup NAME = some held.founder.1 ∧
      queue.lookup OWNER = some held.founder.2 := by
  cases entry with
  | none =>
    cases holding with
    | none => exact .inl ⟨rfl, rfl⟩
    | some held => exact h.elim
  | some queue =>
    cases holding with
    | none => exact h.elim
    | some held => exact .inr ⟨queue, held, rfl, rfl, h⟩

theorem userCount_eq_uses {context : CarbonContext} (hsuper : context.tenantId ≤ 0) (id : Str)
    (calls : List QueueCall) : userCount context id calls = uses id (calls.map QueueCall.op) := by
  rw [userCount, uses, List.foldl_map]
  congr 1
  funext n call
  cases call <;> simp [QueueCall.op, getQueueID_super hsuper]

theorem step_context (w : World β) (call : QueueCall) (hsuper : w.context.tenantId ≤ 0) :
    (call.step w).context = w.context := by
  cases call with
  | createQueue now queueName owner =>
    have hid := getQueueID_super hsuper queueName
    by_cases hnew : queueResource (upTo ';' queueName) ∈ w.registries w.context.ownTenant
    · obtain ⟨queue, hqueue⟩ := Finmap.mem_iff.1 hnew
      have h := createQueue_shared (w := { w with now := now }) hid hqueue owner
      cases hentry : sharedQueueEntry now queue <;>
        simp only [QueueCall.step, final, h, hentry, putEntry_context]
    · rw [QueueCall.step, final_createQueue_new (w := { w with now := now }) hid hnew,
        putEntry_context]
  | deleteQueue queueName =>
    rw [QueueCall.step, final_deleteQueue (getQueueID_super hsuper queueName),
      releaseEntry_context]

theorem simulates_createQueue {w : World β} {ledger : Ledger Str (Str × Str)}
    (hsuper : w.context.tenantId ≤ 0) (hsim : Simulates w ledger) (now queueName owner : Str)
    (hbound : count ledger (queueResource (upTo ';' queueName)) < 2 ^ 31 - 1) :
    Simulates ((QueueCall.createQueue now queueName owner).step w)
      (apply ledger (QueueCall.createQueue now queueName owner).op) := by
  have hid := getQueueID_super hsuper queueName
  have hown := ownTenant_super hsuper
  intro name
  -- what the call writes, and that it represents the ledger's new holding
  obtain ⟨entry, hstep, hentry⟩ : ∃ entry,
      (QueueCall.createQueue now queueName owner).step w =
        { w with now := now }.putEntry SUPER_TENANT_ID (queueResource (upTo ';' queueName)) entry ∧
      Represents (some entry) (some (((ledger (queueResource (upTo ';' queueName))).map
        Holding.share).getD (.found (queueName, owner)))) := by
    rcases represents_cases (hsim (upTo ';' queueName)) with
      ⟨hqueue, hheld⟩ | ⟨queue, held, hqueue, hheld, hcount, hname, howner⟩
    · have hnew := Finmap.lookup_eq_none.1 hqueue
      rw [← hown] at hnew
      refine ⟨newQueueEntry now queueName owner ∅, ?_, ?_⟩
      · rw [QueueCall.step, final_createQueue_new (w := { w with now := now }) hid hnew]
        simp only [hown]
      · obtain ⟨howner, hname, -, hcount⟩ := newQueueEntry_lookup now queueName owner ∅
        rw [hheld]
        exact ⟨hcount, hname, howner⟩
    · have hupper : (held.count : Int) < 2 ^ 31 - 1 := by
        simp only [count, hheld, Option.map_some, Option.getD_some] at hbound
        omega
      obtain ⟨entry, hshared, hmore, howner', hname'⟩ := sharedQueueEntry_live hcount hupper now
      rw [hheld]
      refine ⟨entry, ?_, ?_, ?_, ?_⟩
      · rw [← hown] at hqueue ⊢
        have h := createQueue_shared (w := { w with now := now }) hid hqueue owner
        simp only [QueueCall.step, final, h, hshared]
      · simpa [Holding.share] using hmore
      · simpa [Holding.share, hname] using hname'
      · simpa [Holding.share, howner] using howner'
  rw [hstep, putEntry_registry, QueueCall.op, apply]
  by_cases hk : queueResource name = queueResource (upTo ';' queueName)
  · rw [hk, Finmap.lookup_insert, Function.update_self]
    exact hentry
  · rw [Finmap.lookup_insert_of_ne _ hk, Function.update_of_ne hk]
    exact hsim name

theorem simulates_deleteQueue {w : World β} {ledger : Ledger Str (Str × Str)}
    (hsuper : w.context.tenantId ≤ 0) (hsim : Simulates w ledger) (queueName : Str) :
    Simulates ((QueueCall.deleteQueue queueName).step w)
      (apply ledger (QueueCall.deleteQueue queueName).op) := by
  intro name
  rw [QueueCall.step, final_deleteQueue (getQueueID_super hsuper queueName), QueueCall.op, apply]
  by_cases hk : queueResource name = queueResource (upTo ';' queueName)
  · rw [hk, Function.update_self]
    unfold releaseEntry
    rcases represents_cases (hsim (upTo ';' queueName)) with
      ⟨hqueue, hheld⟩ | ⟨queue, held, hqueue, hheld, hcount, hname, howner⟩
    · simp [hqueue, hheld, Represents]
    · simp only [hqueue, hheld, hcount]
      by_cases many : 1 < held.count
      · have hmany : (held.count : Int) > 1 := by omega
        obtain ⟨hless, howner', hname'⟩ := loweredEntry_live hcount hmany
        rw [if_pos hmany, putEntry_registry, Finmap.lookup_insert, Option.bind_some,
          Holding.leave, dif_pos many]
        refine ⟨?_, by rw [hname', hname], by rw [howner', howner]⟩
        have hsub : ((held.count - 1 : Nat) : Int) = held.count - 1 := by omega
        rw [hless, hsub]
      · have hlast : ¬(held.count : Int) > 1 := by omega
        rw [if_neg hlast, deleteEntry_registry, Finmap.lookup_erase, Option.bind_some,
          Holding.leave, dif_neg many]
        trivial
  · rw [Function.update_of_ne hk, releaseEntry_other_id hk]
    exact hsim name

theorem uses_le_creations (id : Str) (calls : List QueueCall) :
    uses id (calls.map QueueCall.op) ≤ calls.countP QueueCall.isCreation := by
  induction calls using List.reverseRecOn with
  | nil => simp [uses]
  | append_singleton calls call ih =>
    rw [List.map_append, List.countP_append]
    cases call with
    | createQueue now queueName owner =>
      rw [List.map_singleton, QueueCall.op, uses_acquire]
      simp only [List.countP_singleton, QueueCall.isCreation]
      split <;> simp only [if_true] <;> omega
    | deleteQueue queueName =>
      rw [List.map_singleton, QueueCall.op, uses_release]
      simp only [List.countP_singleton, QueueCall.isCreation]
      split <;> omega

theorem run_simulates {w : World β} (hsuper : w.context.tenantId ≤ 0)
    (hempty : ∀ name, queueResource name ∉ w.registries SUPER_TENANT_ID)
    (calls : List QueueCall) (hbound : calls.countP QueueCall.isCreation < 2 ^ 31 - 1) :
    (runCalls calls w).context = w.context ∧
      Simulates (runCalls calls w) (run (calls.map QueueCall.op)) := by
  induction calls using List.reverseRecOn with
  | nil =>
    refine ⟨rfl, fun name => ?_⟩
    have hnone := Finmap.lookup_eq_none.2 (hempty name)
    simp only [runCalls, List.foldl_nil, hnone]
    trivial
  | append_singleton calls call ih =>
    rw [List.countP_append] at hbound
    obtain ⟨hcontext, hsim⟩ := ih (by omega)
    have hstep : runCalls (calls ++ [call]) w = call.step (runCalls calls w) := by
      rw [runCalls, List.foldl_append]
      rfl
    rw [hstep, List.map_append, List.map_singleton, run_append]
    rw [← hcontext] at hsuper
    refine ⟨(step_context _ _ hsuper).trans hcontext, ?_⟩
    cases call with
    | createQueue now queueName owner =>
      refine simulates_createQueue hsuper hsim now queueName owner ?_
      have hle := uses_le_creations (queueResource (upTo ';' queueName)) calls
      rw [count_run]
      omega
    | deleteQueue queueName => exact simulates_deleteQueue hsuper hsim queueName

/-- The entry was founded by the creation that last took the counter from zero to one. -/
def FoundedIn (context : CarbonContext) (id : Str) (calls : List QueueCall)
    (entry : Collection) : Prop :=
  ∃ earlier now queueName owner later,
    calls = earlier ++ .createQueue now queueName owner :: later ∧
    getQueueID context queueName = .ok id ∧ userCount context id earlier = 0 ∧
    (∀ mid, mid <+: later →
      0 < userCount context id (earlier ++ .createQueue now queueName owner :: mid)) ∧
    entry.lookup NAME = some queueName ∧ entry.lookup OWNER = some owner

theorem foundedIn_of_founder {context : CarbonContext} (hsuper : context.tenantId ≤ 0)
    {id : Str} {calls : List QueueCall} {h : Holding (Str × Str)} {entry : Collection}
    (hold : run (calls.map QueueCall.op) id = some h)
    (hname : entry.lookup NAME = some h.founder.1)
    (howner : entry.lookup OWNER = some h.founder.2) : FoundedIn context id calls entry := by
  obtain ⟨before, later, hsplit, hzero, hkept⟩ := run_founder hold
  obtain ⟨earlier, rest, rfl, rfl, hrest⟩ := List.map_eq_append_iff.1 hsplit
  obtain ⟨call, later, rfl, hcall, rfl⟩ := List.map_eq_cons_iff.1 hrest
  cases call with
  | deleteQueue queueName => cases hcall
  | createQueue now queueName owner =>
    rw [QueueCall.op, Op.acquire.injEq] at hcall
    obtain ⟨rfl, hfounder⟩ := hcall
    rw [← hfounder] at hname howner
    refine ⟨earlier, now, queueName, owner, later, rfl, getQueueID_super hsuper queueName, ?_,
      fun mid hmid => ?_, hname, howner⟩
    · rw [userCount_eq_uses hsuper, hzero]
    · have hpos := hkept _ (hmid.map QueueCall.op)
      rw [← hfounder] at hpos
      simpa [userCount_eq_uses hsuper, QueueCall.op] using hpos

/-- The entry of the id exists while its counter is positive, and shows the counter, and the
name and owner of its founding creation. -/
def EntryShowsCounter (w : World β) (id : Str) (calls : List QueueCall) : Prop :=
  (id ∈ (runCalls calls w).registries SUPER_TENANT_ID ↔ 0 < userCount w.context id calls) ∧
  ∀ entry, ((runCalls calls w).registries SUPER_TENANT_ID).lookup id = some entry →
    (entry.lookup USER_COUNT).bind parseInt = some (userCount w.context id calls : Int) ∧
    FoundedIn w.context id calls entry

theorem entryShowsCounter {w : World β} (hsuper : w.context.tenantId ≤ 0)
    (hempty : ∀ name, queueResource name ∉ w.registries SUPER_TENANT_ID)
    {calls : List QueueCall} (hbound : calls.countP QueueCall.isCreation < 2 ^ 31 - 1)
    {before : List QueueCall} (hbefore : before <+: calls) {queueName id : Str}
    (hid : getQueueID w.context queueName = .ok id) : EntryShowsCounter w id before := by
  rw [getQueueID_super hsuper] at hid
  cases hid
  have hcreations : before.countP QueueCall.isCreation < 2 ^ 31 - 1 :=
    Nat.lt_of_le_of_lt (hbefore.sublist.countP_le) hbound
  have hsim := (run_simulates hsuper hempty before hcreations).2 (upTo ';' queueName)
  have hcount := count_run (queueResource (upTo ';' queueName)) (before.map QueueCall.op)
  rw [← userCount_eq_uses hsuper] at hcount
  rw [EntryShowsCounter, ← hcount, count_pos_iff, ← Finmap.lookup_isSome]
  rcases represents_cases hsim with
    ⟨hlookup, hheld⟩ | ⟨entry, held, hlookup, hheld, hlive, hname, howner⟩
  · simp [hlookup, hheld]
  · rw [hlookup]
    refine ⟨by simp [hheld], fun entry' hentry => ?_⟩
    cases hentry
    refine ⟨?_, foundedIn_of_founder hsuper hheld hname howner⟩
    unfold liveCount at hlive
    split at hlive
    · rw [hlive, count, hheld]
      rfl
    · cases hlive

theorem entryShowsCounter_shared : EntryShowsCounter
    (World.initial ⟨SUPER_TENANT_ID, some SUPER_TENANT_DOMAIN_NAME, "admin".toList⟩ ())
    (queueResource "q".toList)
    [.createQueue "1".toList "q".toList "alice".toList,
      .createQueue "2".toList "q;x".toList "bob".toList, .deleteQueue "q".toList] :=
  entryShowsCounter (by decide) (fun _ => Finmap.notMem_empty) (by decide) List.prefix_rfl
    (getQueueID_super (by decide) "q".toList)

end CarbonMessaging.QueueReferenceCounts
