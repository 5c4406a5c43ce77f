import CarbonMessaging.PathChildren
import CarbonMessaging.RegistryClient
import Mathlib

/-! The listings of the registry client. They read a registry as a tree of collections: putting
an entry creates the missing collections above its path, and these have no properties. -/

namespace CarbonMessaging

open JavaLang FaultyCalls PathChildren

variable {β : Type}

def HasResource (registry : Registry) (path : Str) : Prop := InTree '/' registry.keys path

instance (registry : Registry) (path : Str) : Decidable (HasResource registry path) :=
  inferInstanceAs (Decidable (InTree '/' registry.keys path))

def collectionAt (registry : Registry) (path : Str) : Collection :=
  (registry.lookup path).getD ∅

/-- `Collection.getChildren`: the direct children, in an order of the registry's own. -/
structure ChildListing where
  getChildren : Registry → Str → List Str
  nodup : ∀ registry path, (getChildren registry path).Nodup
  mem_iff : ∀ registry path child,
    child ∈ getChildren registry path ↔ child ∈ children '/' registry.keys path

def ChildListing.sorted : ChildListing where
  getChildren registry path := (children '/' registry.keys path).sort
  nodup _ _ := Finset.sort_nodup _ _
  mem_iff _ _ _ := Finset.mem_sort _

def collectionExists (registry : Int) (path : Str) : Carbon β Bool :=
  query fun w => decide (HasResource (w.registries registry) path)

def collectionGet (registry : Int) (path : Str) : Carbon β Collection :=
  call fun w =>
    if HasResource (w.registries registry) path then
      (.ok (collectionAt (w.registries registry) path), w)
    else (.error (noResource path), w)

section
variable {listing : ChildListing} {registry : Registry} {path key : Str}

theorem keys_insert (registry : Registry) (key : Str) (entry : Collection) :
    (registry.insert key entry).keys = insert key registry.keys := by
  ext path
  rw [Finmap.mem_keys, Finmap.mem_insert, Finset.mem_insert, Finmap.mem_keys]

theorem notMem_of_no_resource (h : ¬HasResource registry path) : path ∉ registry :=
  fun hmem => h (inTree_of_mem (Finmap.mem_keys.2 hmem))

theorem collectionAt_insert_self (registry : Registry) (key : Str) (entry : Collection) :
    collectionAt (registry.insert key entry) key = entry := by
  rw [collectionAt, Finmap.lookup_insert, Option.getD_some]

theorem collectionAt_insert_of_ne (h : path ≠ key) (entry : Collection) :
    collectionAt (registry.insert key entry) path = collectionAt registry path := by
  rw [collectionAt, Finmap.lookup_insert_of_ne _ h, collectionAt]

theorem hasResource_of_child {child : Str} (h : child ∈ listing.getChildren registry path) :
    HasResource registry child :=
  (mem_children.1 ((listing.mem_iff _ _ _).1 h)).1

theorem getChildren_insert_child (hchild : childToward '/' path key = some key)
    (hnew : ¬HasResource registry key) (entry : Collection) :
    (listing.getChildren (registry.insert key entry) path).Perm
      (key :: listing.getChildren registry path) := by
  have hfresh : key ∉ listing.getChildren registry path := fun h => hnew (hasResource_of_child h)
  refine (List.perm_ext_iff_of_nodup (listing.nodup _ _)
    (List.nodup_cons.2 ⟨hfresh, listing.nodup _ _⟩)).2 fun child => ?_
  rw [listing.mem_iff, keys_insert, children_insert, hchild, Option.elim_some, Finset.mem_insert,
    List.mem_cons, listing.mem_iff]

theorem getChildren_insert_other (hchild : childToward '/' path key = none)
    (entry : Collection) : (listing.getChildren (registry.insert key entry) path).Perm
      (listing.getChildren registry path) := by
  refine (List.perm_ext_iff_of_nodup (listing.nodup _ _) (listing.nodup _ _)).2 fun child => ?_
  rw [listing.mem_iff, keys_insert, children_insert, hchild, Option.elim_none, listing.mem_iff]

end

namespace RegistryClient

open CommonsUtil

variable (listing : ChildListing)

structure QueueDetails where
  name : Option Str
  owner : Option Str
  createdTime : Option Str
  deriving DecidableEq

structure SubscriptionDetails where
  name : Option Str
  owner : Option Str
  createdTime : Option Str
  deriving DecidableEq

def queueDetails (queue : Collection) : QueueDetails :=
  ⟨queue.lookup NAME, queue.lookup OWNER, queue.lookup CREATED_TIME⟩

def subscriptionDetails (subscription : Collection) : SubscriptionDetails :=
  ⟨subscription.lookup NAME, subscription.lookup OWNER, subscription.lookup CREATED_TIME⟩

def detailsBelow {δ : Type} (details : Collection → δ) (registry : Int) (path : Str) :
    Carbon β (List δ) := do
  if ← collectionExists registry path then
    let _ ← collectionGet registry path
    let ids ← query fun w => listing.getChildren (w.registries registry) path
    collect (fun id => do pure (details (← collectionGet registry id))) ids
  else pure []

def getQueues : Carbon β (List QueueDetails) :=
  translate asClientException do
    let registry ← getGovernanceSystemRegistry (← context).ownTenant
    detailsBelow listing queueDetails registry getQueuesID

def getSubscriptions (topic : Str) : Carbon β (List SubscriptionDetails) :=
  translate asClientException do
    let registry ← getGovernanceSystemRegistry (← context).ownTenant
    detailsBelow listing subscriptionDetails registry (getSubscriptonsID topic)

variable {listing}

theorem collectionGet_quiet {tenant : Int} {path : Str} {w : World β}
    (h : HasResource (w.registries tenant) path) :
    (collectionGet tenant path : Carbon β Collection) ⟨w, []⟩ =
      .ok (collectionAt (w.registries tenant) path) ⟨w, []⟩ := by
  simp only [collectionGet, call_quiet, if_pos h]

theorem detailsBelow_quiet {δ : Type} (details : Collection → δ) (tenant : Int) (path : Str)
    (w : World β) :
    (detailsBelow listing details tenant path : Carbon β (List δ)) ⟨w, []⟩ =
      .ok ((listing.getChildren (w.registries tenant) path).map fun child =>
        details (collectionAt (w.registries tenant) child)) ⟨w, []⟩ := by
  by_cases h : HasResource (w.registries tenant) path
  · have hreads : ∀ child ∈ listing.getChildren (w.registries tenant) path,
        (do pure (details (← collectionGet tenant child)) : Carbon β δ) ⟨w, []⟩ =
          .ok (details (collectionAt (w.registries tenant) child)) ⟨w, []⟩ := by
      intro child hchild
      simp only [bind_apply, collectionGet_quiet (hasResource_of_child hchild), pure_apply]
    simp only [detailsBelow, collectionExists, bind_apply, query_quiet, h, decide_true, if_true,
      collectionGet_quiet h, collect_quiet hreads]
  · have hnone : listing.getChildren (w.registries tenant) path = [] := by
      refine List.eq_nil_iff_forall_not_mem.2 fun child hchild => h ?_
      obtain ⟨⟨key, hkey, habove⟩, segment, -, -, rfl⟩ :=
        mem_children.1 ((listing.mem_iff _ _ _).1 hchild)
      exact ⟨key, hkey, .inr (below_of_atOrBelow (below_child segment) habove)⟩
    simp [detailsBelow, collectionExists, h, hnone]

theorem getQueues_quiet (w : World β) :
    (getQueues listing : Carbon β (List QueueDetails)) ⟨w, []⟩ =
      .ok ((listing.getChildren (w.registries w.context.ownTenant) getQueuesID).map fun id =>
        queueDetails (collectionAt (w.registries w.context.ownTenant) id)) ⟨w, []⟩ := by
  simp [getQueues, getGovernanceSystemRegistry, context, detailsBelow_quiet]

theorem getSubscriptions_quiet (topic : Str) (w : World β) :
    (getSubscriptions listing topic : Carbon β (List SubscriptionDetails)) ⟨w, []⟩ =
      .ok ((listing.getChildren (w.registries w.context.ownTenant)
        (getSubscriptonsID topic)).map fun id =>
          subscriptionDetails (collectionAt (w.registries w.context.ownTenant) id)) ⟨w, []⟩ := by
  simp [getSubscriptions, getGovernanceSystemRegistry, context, detailsBelow_quiet]

end RegistryClient

end CarbonMessaging
