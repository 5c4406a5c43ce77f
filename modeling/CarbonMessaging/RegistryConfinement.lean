import CarbonMessaging.RegistryClient

/-! Which registry the queue bookkeeping touches. Creation follows the thread's tenant, deletion
always goes to the super tenant. -/

namespace CarbonMessaging.RegistryConfinement

open JavaLang FaultyCalls CommonsUtil RegistryClient

variable {β : Type}

/-- Deletion leaves the registries of other tenants alone, and undoes a creation. -/
def StaysInTenant (w : World β) (queueName owner : Str) : Prop :=
  (∀ tenant, tenant ≠ w.context.ownTenant →
    (final (deleteQueue queueName) w).registries tenant = w.registries tenant) ∧
  ((∀ id, getQueueID w.context queueName = .ok id →
      id ∉ w.registries w.context.ownTenant) →
    (final (deleteQueue queueName) (final (createQueue queueName owner) w)).registries =
      w.registries)

def HasLiveEntry (w : World β) (id : Str) : Prop :=
  ∃ queue, (w.registries SUPER_TENANT_ID).lookup id = some queue ∧ liveCount queue ≠ none

theorem releaseEntry_idle {w : World β} {id : Str} (h : ¬HasLiveEntry w id) :
    releaseEntry w id = w := by
  unfold releaseEntry
  split
  · rfl
  · rename_i queue hqueue
    split
    · rfl
    · rename_i count hcount
      exact absurd ⟨queue, hqueue, by simp [hcount]⟩ h

theorem releaseEntry_changes {w : World β} {id : Str} (h : HasLiveEntry w id) :
    (releaseEntry w id).registries SUPER_TENANT_ID ≠ w.registries SUPER_TENANT_ID := by
  obtain ⟨queue, hqueue, hlive⟩ := h
  obtain ⟨count, hcount⟩ := Option.ne_none_iff_exists'.1 hlive
  intro heq
  have hlookup := congrArg (Finmap.lookup id) heq
  rw [hqueue] at hlookup
  simp only [releaseEntry, hqueue, hcount] at hlookup
  by_cases many : count > 1
  · rw [if_pos many, putEntry_registry, Finmap.lookup_insert] at hlookup
    have hsame : loweredEntry count queue = queue := Option.some.inj hlookup
    have hlower := (loweredEntry_live hcount many).1
    rw [hsame, hcount, Option.some.injEq] at hlower
    omega
  · rw [if_neg many, deleteEntry_registry, Finmap.lookup_erase] at hlookup
    cases hlookup

theorem delete_create_tenant {w : World β} {queueName owner id : Str}
    (htenant : ¬w.context.tenantId ≤ 0) (hid : getQueueID w.context queueName = .ok id)
    (hnew : id ∉ w.registries w.context.ownTenant) :
    (final (deleteQueue queueName) (final (createQueue queueName owner) w)).registries ≠
      w.registries := by
  intro heq
  have hown := congrFun heq w.context.ownTenant
  rw [final_createQueue_new hid hnew, final_deleteQueue (by rw [putEntry_context, hid]),
    releaseEntry_other _ _ (ownTenant_ne_super htenant), putEntry_registry] at hown
  exact hnew (hown ▸ Finmap.mem_insert.2 (.inl rfl))

/-- Creating and deleting stays inside the caller's tenant exactly for the super tenant, and
for another tenant when its own registry already has the entry and the super tenant has no
live entry of the same id (or when there is no id). -/
theorem staysInTenant_iff (w : World β) (queueName owner : Str) :
    StaysInTenant w queueName owner ↔ w.context.tenantId ≤ 0 ∨
      ∀ id, getQueueID w.context queueName = .ok id →
        id ∈ w.registries w.context.ownTenant ∧ ¬HasLiveEntry w id := by
  by_cases hsuper : w.context.tenantId ≤ 0
  · refine iff_of_true ⟨?_, ?_⟩ (.inl hsuper)
    · intro tenant htenant
      rw [ownTenant_super hsuper] at htenant
      rw [final_deleteQueue (getQueueID_super hsuper queueName), releaseEntry_other _ _ htenant]
    · intro hnew
      have hid := getQueueID_super hsuper queueName
      have habsent := hnew _ hid
      rw [final_createQueue_new hid habsent, final_deleteQueue (by rw [putEntry_context, hid])]
      rw [ownTenant_super hsuper] at habsent ⊢
      rw [releaseEntry_new habsent]
  · rw [or_iff_right hsuper]
    cases hid : getQueueID w.context queueName with
    | error e =>
      refine iff_of_true ⟨?_, ?_⟩ (by simp)
      · intro tenant _
        rw [deleteQueue_unnamed hid]
      · intro _
        have hcreate : final (createQueue queueName owner) w = w := by
          simp only [final, createQueue_unnamed hid]
        rw [hcreate, deleteQueue_unnamed hid]
    | ok id =>
      constructor
      · rintro ⟨hothers, hundo⟩ id' hid'
        cases hid'
        constructor
        · by_contra hnew
          refine delete_create_tenant hsuper hid hnew (hundo fun id' hid' => ?_)
          rw [hid] at hid'
          cases hid'
          exact hnew
        · intro hlive
          have hsame := hothers SUPER_TENANT_ID (ownTenant_ne_super hsuper).symm
          rw [final_deleteQueue hid] at hsame
          exact releaseEntry_changes hlive hsame
      · intro h
        obtain ⟨hown, hidle⟩ := h id rfl
        constructor
        · intro tenant _
          rw [final_deleteQueue hid, releaseEntry_idle hidle]
        · intro hnew
          exact absurd hown (hnew id hid)

theorem tenant_entry_stays : ¬StaysInTenant
    (World.initial ⟨1, some "foo".toList, "bob".toList⟩ ()) "q".toList "bob".toList := by
  intro h
  have hnew : ∀ id, id ∉ (World.initial ⟨1, some "foo".toList, "bob".toList⟩ ()).registries
      (CarbonContext.ownTenant ⟨1, some "foo".toList, "bob".toList⟩) :=
    fun _ => Finmap.notMem_empty
  exact delete_create_tenant (by decide) rfl (hnew (queueResource "q".toList))
    (h.2 fun id _ => hnew id)

end CarbonMessaging.RegistryConfinement
