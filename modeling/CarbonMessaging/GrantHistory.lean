import CarbonMessaging.PermissionHistory

/-! Where a right to consume or to publish comes from. No operation clears the rights of a queue
that is removed, so a right lasts until the admin service denies it. -/

namespace CarbonMessaging.GrantHistory

open JavaLang FaultyCalls CellHistory CommonsUtil QpidAuthorizationHandler PermissionHistory
open QueueManagerServiceImpl (changeableID lastEntry)

variable {β : Type} (beans : BrokerBeans β)

/-- A creation by a user with the role, or an update whose last entry for the role allows. -/
def Grants (cell : Cell) (p : World β × Call) : Prop :=
  p.2.effect beans (p.2.enter p.1) cell = some true

def Denies (cell : Cell) (p : World β × Call) : Prop :=
  ∃ queueName permissions entry, p.2.request = .updatePermission queueName permissions ∧
    changeableID beans (p.2.enter p.1) queueName = some cell.resourceId ∧
    lastEntry cell.role permissions = some entry ∧
    (if cell.action = CONSUME then entry.isAllowedToConsume else entry.isAllowedToPublish) = false

def Removes (id : Str) (p : World β × Call) : Prop :=
  id ∈ p.1.registries p.1.context.ownTenant ∧
    id ∉ (p.2.step beans p.1).registries p.1.context.ownTenant

/-- Every right was granted by a call after the last removal of the queue's entry. -/
def NoStalePrivilege (w : World β) (calls : List Call) : Prop :=
  ∀ cell, IsQueueRight cell → allowed (run (Call.step beans) calls w) cell = true →
    ∃ before p later, trace (Call.step beans) calls w = before ++ p :: later ∧
      Grants beans cell p ∧ ∀ q ∈ later, ¬Removes beans cell.resourceId q

theorem effect_eq_false_iff (call : Call) (w : World β) (cell : Cell) :
    call.effect beans (call.enter w) cell = some false ↔ Denies beans cell (w, call) := by
  obtain ⟨user, now, request⟩ := call
  constructor
  · intro h
    cases request with
    | handleCreateQueue properties =>
      simp only [Call.effect] at h
      split at h <;> cases h
    | handleDeleteQueue properties => cases h
    | createQueue queueName => cases h
    | deleteQueue queueName => cases h
    | updatePermission queueName permissions =>
      simp only [Call.effect] at h
      split at h
      · rename_i hid
        obtain ⟨entry, hentry, hfalse⟩ := Option.map_eq_some_iff.1 h
        exact ⟨queueName, permissions, entry, rfl, hid, hentry, hfalse⟩
      · cases h
  · rintro ⟨queueName, permissions, entry, hrequest, hid, hentry, hfalse⟩
    cases hrequest
    simp only [Call.effect, hid, if_true, hentry, Option.map_some, hfalse]

/-- A role holds a right after a run exactly when some call granted it, or it held the right to
begin with, and no later update denied it, whatever was removed in between. -/
theorem holds_right_iff (w : World β) (calls : List Call) {cell : Cell}
    (hright : IsQueueRight cell) :
    allowed (run (Call.step beans) calls w) cell = true ↔
      (∃ before p later, trace (Call.step beans) calls w = before ++ p :: later ∧
        Grants beans cell p ∧ ∀ q ∈ later, ¬Denies beans cell q) ∨
      (allowed w cell = true ∧ ∀ q ∈ trace (Call.step beans) calls w, ¬Denies beans cell q) := by
  rw [set_after_run_iff (sets_step beans hright)]
  simp only [ne_eq, effect_eq_false_iff]
  rfl

def ownRoles : World Unit :=
  { adminWorld superContext () with
    realms := fun _ => ⟨fun user => [ADMIN_ROLE, user], fun _ => true, [], fun _ => false⟩ }

def createQ (user : Str) : Call :=
  ⟨user, "0".toList, .handleCreateQueue ⟨some "q".toList, none, none⟩⟩

def deleteQ (user : Str) : Call :=
  ⟨user, "0".toList, .handleDeleteQueue ⟨some "q".toList, none, none⟩⟩

def aliceConsumes : Cell := ⟨"alice".toList, queueResource "q".toList, CONSUME⟩

theorem holds_right_recreated :
    (∃ before p later, trace (Call.step fullBroker)
        [createQ "alice".toList, deleteQ "alice".toList, createQ "bob".toList] ownRoles =
          before ++ p :: later ∧
      Grants fullBroker aliceConsumes p ∧ ∀ q ∈ later, ¬Denies fullBroker aliceConsumes q) ∨
    (allowed ownRoles aliceConsumes = true ∧ ∀ q ∈ trace (Call.step fullBroker)
      [createQ "alice".toList, deleteQ "alice".toList, createQ "bob".toList] ownRoles,
        ¬Denies fullBroker aliceConsumes q) :=
  (holds_right_iff fullBroker ownRoles _ (.inl rfl)).1 (by decide)

/-- Alice's right outlives her queue and is there when the queue is Bob's. -/
theorem stale_right : ¬NoStalePrivilege fullBroker ownRoles
    [createQ "alice".toList, deleteQ "alice".toList, createQ "bob".toList] := by
  intro h
  obtain ⟨before, p, later, hsplit, hgrant, hkept⟩ := h aliceConsumes (.inl rfl) (by decide)
  rcases before with _ | ⟨first, _ | ⟨second, _ | ⟨third, before⟩⟩⟩
  · obtain ⟨-, hlater⟩ := List.cons.inj hsplit
    rw [← hlater] at hkept
    exact hkept _ List.mem_cons_self ⟨by decide, by decide⟩
  · obtain ⟨-, hrest⟩ := List.cons.inj hsplit
    obtain ⟨hp, -⟩ := List.cons.inj hrest
    rw [← hp] at hgrant
    cases hgrant
  · obtain ⟨-, hrest⟩ := List.cons.inj hsplit
    obtain ⟨-, hrest⟩ := List.cons.inj hrest
    obtain ⟨hp, -⟩ := List.cons.inj hrest
    rw [← hp] at hgrant
    cases hgrant
  · have hlength := congrArg List.length hsplit
    simp [trace] at hlength

end CarbonMessaging.GrantHistory
