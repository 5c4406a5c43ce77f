import CarbonMessaging.QpidAuthorizationPlugin
import CarbonMessaging.QueueManagerServiceImpl
import CarbonMessaging.TwoRuns

/-! What one tenant's requests can tell of the platform: its own realm and, unless it is the super
tenant, its own registry. Deletions of queues go to the super tenant's registry whoever asks, so
that registry belongs to nobody's view. -/

namespace CarbonMessaging.TenantViews

open JavaLang FaultyCalls CellWrites CommonsUtil RegistryClient QpidAuthorizationHandler

variable {β : Type}

/-- The tenant that an id stands for, as in `CarbonContext.ownTenant`. -/
def ownerOf (tenantId : Int) : Int := if tenantId ≤ 0 then SUPER_TENANT_ID else tenantId

def Counted (entry : Collection) : Prop :=
  ∀ userCount, entry.lookup USER_COUNT = some userCount → parseInt userCount ≠ none

def AllCounted (w : World β) : Prop :=
  ∀ tenant path entry, (w.registries tenant).lookup path = some entry → Counted entry

/-- What a broker knows of the queues with a name, and the tenant that a name belongs to. -/
structure QueueTables (β : Type) where
  Entry : Type
  entry : β → Str → Entry
  owner : Str → Int

def QueueTables.SameFor (tables : QueueTables β) (tenant : Int) (b b' : β) : Prop :=
  ∀ queueName, tables.owner queueName = tenant →
    tables.entry b queueName = tables.entry b' queueName

def QueueTables.OnlyFor (tables : QueueTables β) (tenant : Int) (b b' : β) : Prop :=
  ∀ queueName, tables.owner queueName ≠ tenant →
    tables.entry b' queueName = tables.entry b queueName

def ended {α : Type} : EStateM.Result JavaException β α → Except JavaException α × β
  | .ok a b => (.ok a, b)
  | .error e b => (.error e, b)

/-- A call about one name: it ends by what the broker knows of that name, and leaves what the broker
knows of others. -/
structure QueueTables.Concerns {α : Type} (tables : QueueTables β) (queueName : Str)
    (x : EStateM JavaException β α) : Prop where
  alike : ∀ b b', tables.entry b queueName = tables.entry b' queueName →
    (ended (x b)).1 = (ended (x b')).1 ∧
      tables.entry (ended (x b)).2 queueName = tables.entry (ended (x b')).2 queueName
  others : ∀ b other, other ≠ queueName →
    tables.entry (ended (x b)).2 other = tables.entry b other

/-- What is expected of the broker that all tenants share: a queue is known by its name. -/
structure QueueTables.Laws (tables : QueueTables β) (beans : BrokerBeans β) : Prop where
  isQueueExists : ∀ queueName, tables.Concerns queueName (beans.isQueueExists queueName)
  createNewQueue : ∀ queueName owner durable,
    tables.Concerns queueName (beans.createNewQueue queueName owner durable)
  createNewBinding : ∀ queueName bindingKey,
    tables.Concerns queueName (beans.createNewBinding queueName bindingKey)
  removeBinding : ∀ queueName bindingKey,
    tables.Concerns queueName (beans.removeBinding queueName bindingKey)
  deleteQueue : ∀ queueName, tables.Concerns queueName (beans.deleteQueue queueName)

section
variable {α : Type} {tables : QueueTables β} {tenant : Int} {queueName : Str}
  {x : EStateM JavaException β α}

theorem QueueTables.Concerns.sameFor (hx : tables.Concerns queueName x)
    (hname : tables.owner queueName = tenant) {b b' : β} (h : tables.SameFor tenant b b') :
    (ended (x b)).1 = (ended (x b')).1 ∧
      tables.SameFor tenant (ended (x b)).2 (ended (x b')).2 := by
  obtain ⟨hanswer, hentry⟩ := hx.alike b b' (h queueName hname)
  refine ⟨hanswer, fun other hother => ?_⟩
  by_cases hsame : other = queueName
  · rw [hsame]
    exact hentry
  · rw [hx.others b other hsame, hx.others b' other hsame]
    exact h other hother

theorem QueueTables.Concerns.onlyFor (hx : tables.Concerns queueName x)
    (hname : tables.owner queueName = tenant) (b : β) :
    tables.OnlyFor tenant b (ended (x b)).2 := by
  intro other hother
  refine hx.others b other ?_
  rintro rfl
  exact hother hname

end

structure SameView (tables : QueueTables β) (tenant : Int) (w w' : World β) : Prop where
  realms : ∀ id, ownerOf id = tenant → w.realms id = w'.realms id
  registry : 0 < tenant → w.registries tenant = w'.registries tenant
  adminRoleName : w.adminRoleName = w'.adminRoleName
  anonymousRoleName : w.anonymousRoleName = w'.anonymousRoleName
  counted : AllCounted w ∧ AllCounted w'
  queues : tables.SameFor tenant w.broker w'.broker

def Within (tables : QueueTables β) (tenant : Int) (context : CarbonContext) (now : Str)
    (w w' : World β) : Prop :=
  SameView tables tenant w w' ∧ (w.context = context ∧ w'.context = context) ∧
    w.now = now ∧ w'.now = now

structure Confined (tables : QueueTables β) (tenant : Int) (w w' : World β) : Prop where
  realms : ∀ id, ownerOf id ≠ tenant → w'.realms id = w.realms id
  registries : ∀ id, 0 < id → id ≠ tenant → w'.registries id = w.registries id
  adminRoleName : w'.adminRoleName = w.adminRoleName
  anonymousRoleName : w'.anonymousRoleName = w.anonymousRoleName
  counted : AllCounted w'
  queues : tables.OnlyFor tenant w.broker w'.broker

def ConfinedIn (tables : QueueTables β) (tenant : Int) (context : CarbonContext) (w w' : World β) :
    Prop :=
  Confined tables tenant w w' ∧ w'.context = context

theorem ownTenant_eq (context : CarbonContext) :
    context.ownTenant = ownerOf context.tenantId := rfl

theorem ownerOf_pos {tenant id : Int} (h : ownerOf id = tenant) (hpos : 0 < tenant) :
    id = tenant := by
  unfold ownerOf at h
  split at h
  · rw [← h, SUPER_TENANT_ID] at hpos
    omega
  · exact h

theorem counted_empty : Counted ∅ := by
  intro userCount h
  rw [Finmap.lookup_empty] at h
  cases h

theorem counted_insert {entry : Collection} (h : Counted entry) {k v : Str}
    (hk : k = USER_COUNT → parseInt v ≠ none) : Counted (entry.insert k v) := by
  intro userCount hcount
  rw [lookup_insert] at hcount
  split at hcount
  · rename_i hkey
    cases hcount
    exact hk hkey.symm
  · exact h userCount hcount

theorem counted_newQueueEntry (now queueName owner : Str) :
    Counted (newQueueEntry now queueName owner ∅) := by
  have hother {entry : Collection} {k v : Str} (hk : k ≠ USER_COUNT) (h : Counted entry) :
      Counted (entry.insert k v) := counted_insert h fun heq => absurd heq hk
  refine counted_insert ?_ fun _ => by decide
  refine hother (by decide) (hother (by decide) (hother (by decide) (hother (by decide) ?_)))
  exact hother (by decide) counted_empty

theorem parseInt_wrapInt (n : Int) : parseInt (intToString (wrapInt n)) ≠ none := by
  rw [parseInt_intToString (wrapInt_bounds n).1 (wrapInt_bounds n).2]
  exact Option.some_ne_none _

theorem sharedQueueEntry_counted {queue : Collection} (h : Counted queue) (now : Str) :
    ∃ entry, sharedQueueEntry now queue = .ok entry ∧ Counted entry := by
  have htouched : Counted (queue.insert UPDATED_TIME now) :=
    counted_insert h fun heq => absurd heq (by decide)
  unfold sharedQueueEntry
  dsimp only
  split
  · exact ⟨_, rfl, htouched⟩
  · rename_i userCount hcount
    split
    · rename_i hparse
      exact absurd hparse (htouched userCount hcount)
    · exact ⟨_, rfl, counted_insert htouched fun _ => parseInt_wrapInt _⟩

theorem counted_subscriptionEntry {subscription : Collection} (h : Counted subscription)
    (now subscriptionName owner : Str) :
    Counted (subscriptionEntry now subscriptionName owner subscription) := by
  have hother {entry : Collection} {k v : Str} (hk : k ≠ USER_COUNT) (h : Counted entry) :
      Counted (entry.insert k v) := counted_insert h fun heq => absurd heq hk
  exact hother (by decide) (hother (by decide) (hother (by decide) h))

def entryAfter (registry : Registry) (now queueName owner id : Str) : Collection :=
  match writtenEntry registry now queueName owner id with
  | .ok entry => entry
  | .error _ => ∅

theorem writtenEntry_counted {w : World β} (h : AllCounted w) (tenant : Int)
    (now queueName owner id : Str) :
    writtenEntry (w.registries tenant) now queueName owner id =
      .ok (entryAfter (w.registries tenant) now queueName owner id) ∧
    Counted (entryAfter (w.registries tenant) now queueName owner id) := by
  unfold entryAfter writtenEntry
  cases hqueue : (w.registries tenant).lookup id with
  | none => exact ⟨rfl, counted_newQueueEntry now queueName owner⟩
  | some queue =>
    obtain ⟨entry, hentry, hcounted⟩ := sharedQueueEntry_counted (h tenant id queue hqueue) now
    dsimp only
    rw [hentry]
    exact ⟨rfl, hcounted⟩

theorem counted_lookup {w : World β} (h : AllCounted w) (tenant : Int) (id : Str) :
    Counted (((w.registries tenant).lookup id).getD ∅) := by
  cases hentry : (w.registries tenant).lookup id with
  | none => exact counted_empty
  | some entry => exact h tenant id entry hentry

section
variable {w : World β}

theorem allCounted_putEntry (h : AllCounted w) (tenant : Int) (path : Str) {entry : Collection}
    (hentry : Counted entry) : AllCounted (w.putEntry tenant path entry) := by
  intro tenant' path' entry' hlookup
  by_cases htenant : tenant' = tenant
  · subst htenant
    rw [putEntry_registry] at hlookup
    by_cases hpath : path' = path
    · subst hpath
      rw [Finmap.lookup_insert] at hlookup
      cases hlookup
      exact hentry
    · rw [Finmap.lookup_insert_of_ne _ hpath] at hlookup
      exact h tenant' path' entry' hlookup
  · rw [putEntry_other _ _ htenant] at hlookup
    exact h tenant' path' entry' hlookup

theorem allCounted_deleteEntry (h : AllCounted w) (tenant : Int) (path : Str) :
    AllCounted (w.deleteEntry tenant path) := by
  intro tenant' path' entry' hlookup
  by_cases htenant : tenant' = tenant
  · subst htenant
    rw [deleteEntry_registry] at hlookup
    by_cases hpath : path' = path
    · subst hpath
      rw [Finmap.lookup_erase] at hlookup
      cases hlookup
    · rw [Finmap.lookup_erase_ne hpath] at hlookup
      exact h tenant' path' entry' hlookup
  · rw [deleteEntry_other _ _ htenant] at hlookup
    exact h tenant' path' entry' hlookup

theorem allCounted_releaseEntry (h : AllCounted w) (id : Str) : AllCounted (releaseEntry w id) := by
  unfold releaseEntry
  split
  · exact h
  · rename_i queue hqueue
    split
    · exact h
    · split
      · refine allCounted_putEntry h _ _ (counted_insert (h _ _ _ hqueue) fun _ => ?_)
        exact parseInt_wrapInt _
      · exact allCounted_deleteEntry h _ _

end

theorem releaseEntry_rest (w : World β) (id : Str) :
    (releaseEntry w id).adminRoleName = w.adminRoleName ∧
      (releaseEntry w id).anonymousRoleName = w.anonymousRoleName ∧
      (releaseEntry w id).now = w.now ∧ (releaseEntry w id).broker = w.broker := by
  unfold releaseEntry
  split
  · exact ⟨rfl, rfl, rfl, rfl⟩
  · split
    · exact ⟨rfl, rfl, rfl, rfl⟩
    · split <;> exact ⟨rfl, rfl, rfl, rfl⟩

section
variable {tables : QueueTables β} {tenant : Int} {context : CarbonContext} {now : Str}
  {w s s' : World β}

theorem SameView.putEntry (h : SameView tables tenant s s') {written : Int} (path : Str)
    {entry entry' : Collection} (hsame : 0 < tenant → written = tenant → entry = entry')
    (hcounted : Counted entry ∧ Counted entry') :
    SameView tables tenant (s.putEntry written path entry) (s'.putEntry written path entry') where
  realms := h.realms
  registry hpos := by
    by_cases htenant : tenant = written
    · rw [htenant, putEntry_registry, putEntry_registry, ← htenant, h.registry hpos,
        hsame hpos htenant.symm]
    · rw [putEntry_other _ _ htenant, putEntry_other _ _ htenant, h.registry hpos]
  adminRoleName := h.adminRoleName
  anonymousRoleName := h.anonymousRoleName
  counted := ⟨allCounted_putEntry h.counted.1 _ _ hcounted.1,
    allCounted_putEntry h.counted.2 _ _ hcounted.2⟩
  queues := h.queues

theorem SameView.deleteEntry (h : SameView tables tenant s s') (written : Int) (path : Str) :
    SameView tables tenant (s.deleteEntry written path) (s'.deleteEntry written path) where
  realms := h.realms
  registry hpos := by
    by_cases htenant : tenant = written
    · rw [htenant, deleteEntry_registry, deleteEntry_registry, ← htenant, h.registry hpos]
    · rw [deleteEntry_other _ _ htenant, deleteEntry_other _ _ htenant, h.registry hpos]
  adminRoleName := h.adminRoleName
  anonymousRoleName := h.anonymousRoleName
  counted := ⟨allCounted_deleteEntry h.counted.1 _ _, allCounted_deleteEntry h.counted.2 _ _⟩
  queues := h.queues

theorem SameView.symm (h : SameView tables tenant s s') : SameView tables tenant s' s :=
  ⟨fun id hid => (h.realms id hid).symm, fun hpos => (h.registry hpos).symm,
    h.adminRoleName.symm, h.anonymousRoleName.symm, h.counted.symm,
    fun queueName hname => (h.queues queueName hname).symm⟩

theorem SameView.deleteEntry_left (h : SameView tables tenant s s') (hpos : ¬0 < tenant)
    (written : Int) (path : Str) : SameView tables tenant (s.deleteEntry written path) s' where
  realms := h.realms
  registry htenant := absurd htenant hpos
  adminRoleName := h.adminRoleName
  anonymousRoleName := h.anonymousRoleName
  counted := ⟨allCounted_deleteEntry h.counted.1 _ _, h.counted.2⟩
  queues := h.queues

theorem SameView.releaseEntry (h : SameView tables tenant s s') (id : Str) :
    SameView tables tenant (releaseEntry s id) (releaseEntry s' id) where
  realms := by
    rw [releaseEntry_realms, releaseEntry_realms]
    exact h.realms
  registry hpos := by
    have hne : tenant ≠ SUPER_TENANT_ID := by
      rw [SUPER_TENANT_ID]
      omega
    rw [releaseEntry_other _ _ hne, releaseEntry_other _ _ hne, h.registry hpos]
  adminRoleName := by
    rw [(releaseEntry_rest s id).1, (releaseEntry_rest s' id).1]
    exact h.adminRoleName
  anonymousRoleName := by
    rw [(releaseEntry_rest s id).2.1, (releaseEntry_rest s' id).2.1]
    exact h.anonymousRoleName
  counted := ⟨allCounted_releaseEntry h.counted.1 _, allCounted_releaseEntry h.counted.2 _⟩
  queues := by
    rw [(releaseEntry_rest s id).2.2.2, (releaseEntry_rest s' id).2.2.2]
    exact h.queues

theorem SameView.setCell (h : SameView tables tenant s s') {realm : Int}
    (hrealm : ownerOf realm = tenant) (cell : Cell) (value : Bool) :
    SameView tables tenant (s.setCell realm cell value) (s'.setCell realm cell value) where
  realms id hid := by
    by_cases heq : id = realm
    · subst heq
      simp only [World.setCell, Function.update_self, h.realms id hid]
    · simp only [World.setCell, Function.update_of_ne heq, h.realms id hid]
  registry := h.registry
  adminRoleName := h.adminRoleName
  anonymousRoleName := h.anonymousRoleName
  counted := h.counted
  queues := h.queues

theorem SameView.inContext (h : SameView tables tenant s s') (context context' : CarbonContext) :
    SameView tables tenant { s with context := context } { s' with context := context' } where
  realms := h.realms
  registry := h.registry
  adminRoleName := h.adminRoleName
  anonymousRoleName := h.anonymousRoleName
  counted := h.counted
  queues := h.queues

theorem SameView.withBroker (h : SameView tables tenant s s') {b b' : β}
    (hqueues : tables.SameFor tenant b b') :
    SameView tables tenant { s with broker := b } { s' with broker := b' } where
  realms := h.realms
  registry := h.registry
  adminRoleName := h.adminRoleName
  anonymousRoleName := h.anonymousRoleName
  counted := h.counted
  queues := hqueues

theorem SameView.atTime (h : SameView tables tenant s s') (now : Str) :
    SameView tables tenant { s with now := now } { s' with now := now } where
  realms := h.realms
  registry := h.registry
  adminRoleName := h.adminRoleName
  anonymousRoleName := h.anonymousRoleName
  counted := h.counted
  queues := h.queues

/-- What another tenant's requests do cannot be seen. -/
theorem SameView.of_confined {other : Int} (h : SameView tables tenant w s')
    (hother : other ≠ tenant) (hconfined : Confined tables other w s) :
    SameView tables tenant s s' where
  realms id hid := (hconfined.realms id (by rw [hid]; exact hother.symm)).trans (h.realms id hid)
  registry hpos := (hconfined.registries tenant hpos hother.symm).trans (h.registry hpos)
  adminRoleName := hconfined.adminRoleName.trans h.adminRoleName
  anonymousRoleName := hconfined.anonymousRoleName.trans h.anonymousRoleName
  counted := ⟨hconfined.counted, h.counted.2⟩
  queues queueName hname :=
    (hconfined.queues queueName (by rw [hname]; exact hother.symm)).trans (h.queues queueName hname)

theorem confined_refl (h : AllCounted w) : Confined tables tenant w w :=
  ⟨fun _ _ => rfl, fun _ _ _ => rfl, rfl, rfl, h, fun _ _ => rfl⟩

theorem Confined.putEntry (h : Confined tables tenant w s) {written : Int}
    (hwritten : 0 < written → written = tenant) (path : Str) {entry : Collection}
    (hcounted : Counted entry) : Confined tables tenant w (s.putEntry written path entry) where
  realms := h.realms
  registries id hpos hid := by
    have hne : id ≠ written := by
      rintro rfl
      exact hid (hwritten hpos)
    rw [putEntry_other _ _ hne, h.registries id hpos hid]
  adminRoleName := h.adminRoleName
  anonymousRoleName := h.anonymousRoleName
  counted := allCounted_putEntry h.counted _ _ hcounted
  queues := h.queues

theorem Confined.deleteEntry (h : Confined tables tenant w s) {written : Int}
    (hwritten : 0 < written → written = tenant) (path : Str) :
    Confined tables tenant w (s.deleteEntry written path) where
  realms := h.realms
  registries id hpos hid := by
    have hne : id ≠ written := by
      rintro rfl
      exact hid (hwritten hpos)
    rw [deleteEntry_other _ _ hne, h.registries id hpos hid]
  adminRoleName := h.adminRoleName
  anonymousRoleName := h.anonymousRoleName
  counted := allCounted_deleteEntry h.counted _ _
  queues := h.queues

theorem Confined.setCell (h : Confined tables tenant w s) {realm : Int}
    (hrealm : ownerOf realm = tenant) (cell : Cell) (value : Bool) :
    Confined tables tenant w (s.setCell realm cell value) where
  realms id hid := by
    have hne : id ≠ realm := by
      rintro rfl
      exact hid hrealm
    rw [← h.realms id hid, World.setCell]
    exact Function.update_of_ne hne _ _
  registries := h.registries
  adminRoleName := h.adminRoleName
  anonymousRoleName := h.anonymousRoleName
  counted := h.counted
  queues := h.queues

theorem Confined.withBroker (h : Confined tables tenant w s) {b : β}
    (hqueues : tables.OnlyFor tenant s.broker b) :
    Confined tables tenant w { s with broker := b } where
  realms := h.realms
  registries := h.registries
  adminRoleName := h.adminRoleName
  anonymousRoleName := h.anonymousRoleName
  counted := h.counted
  queues queueName hname := (hqueues queueName hname).trans (h.queues queueName hname)

theorem Confined.atTime (h : Confined tables tenant w s) (now : Str) :
    Confined tables tenant w { s with now := now } where
  realms := h.realms
  registries := h.registries
  adminRoleName := h.adminRoleName
  anonymousRoleName := h.anonymousRoleName
  counted := h.counted
  queues := h.queues

theorem Confined.inContext (h : Confined tables tenant w s) (context : CarbonContext) :
    Confined tables tenant w { s with context := context } where
  realms := h.realms
  registries := h.registries
  adminRoleName := h.adminRoleName
  anonymousRoleName := h.anonymousRoleName
  counted := h.counted
  queues := h.queues

end

end CarbonMessaging.TenantViews
