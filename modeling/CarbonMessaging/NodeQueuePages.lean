import CarbonMessaging.FilteredLists
import CarbonMessaging.SinglePrecision

/-! The pages of a node's queues. The view counts the queues of the cluster and asks for as many
pages of the node's global queues, which are another list. An index past the int range is past
every list as well, so positions are plain integers. -/

namespace CarbonMessaging

open JavaLang SinglePrecision FilteredLists

namespace AndesClusterMgt.ClusterManagerService

def getNumberOfQueues (beans : ClusterManagementBeans) (context : CarbonContext) :
    Except JavaException Nat :=
  asAdminException "Cannot get the queue manager " do
    let queuesOfCluster ← beans.queuesOfCluster
    let queueObjectList := queuesOfCluster.map fun destinationQueue =>
      { queueName := some destinationQueue, messageCount := 0, subscriberCount := 0 }
    let queuesSpecificToTenant ← filterCounted context queueObjectList
    pure queuesSpecificToTenant.length

end AndesClusterMgt.ClusterManagerService

namespace NodeQueuePages

open AndesClusterMgt ClusterManagerService

def queueCountPerPage : Nat := 20

structure QueueList where
  numberOfPages : Nat
  globalQueueList : List (Option CountedQueue)
  destinationQueueList : List (Option CountedQueue)

def numberOfPages (beans : ClusterManagementBeans) (context : CarbonContext) :
    Except JavaException Nat := do
  let totalQueueCount ← getNumberOfQueues beans context
  pure (pageCount totalQueueCount queueCountPerPage)

def queueList (beans : ClusterManagementBeans) (context : CarbonContext) (requestedHostName : Str)
    (pageNumber : Int) : Except JavaException QueueList := do
  let numberOfPages ← numberOfPages beans context
  let globalQueueList ← getAllGlobalQueuesForNode beans context requestedHostName
    (pageNumber * queueCountPerPage) queueCountPerPage
  let destinationQueueList ← getAllDestinationQueuesDetailForNode beans context requestedHostName
    (pageNumber * queueCountPerPage) queueCountPerPage
  pure ⟨numberOfPages, globalQueueList, destinationQueueList⟩

structure Answers (beans : ClusterManagementBeans) (context : CarbonContext) (hostName : Str)
    (globals destinations : List CountedQueue) : Prop where
  globals : ∃ all, beans.getGlobalQueuesRunningInNode hostName = .ok all ∧
    filterCounted context all = .ok globals
  destinations : ∃ names own, beans.queuesOfCluster = .ok names ∧
    filterCounted context (names.map fun name => ⟨⟨some name⟩, 0, 0⟩) = .ok own ∧
    own.mapM (countQueue beans hostName) = .ok destinations

/-- Every page with a number below the count opens, and they show both lists completely. -/
structure EveryPageOpens (beans : ClusterManagementBeans) (context : CarbonContext)
    (hostName : Str) (globals destinations : List CountedQueue) (pages : Nat) : Prop where
  opens : ∀ p < pages, ∃ globalQueueList destinationQueueList,
    queueList beans context hostName p = .ok ⟨pages, globalQueueList, destinationQueueList⟩
  globals : ∃ slots, concatPages (getAllGlobalQueuesForNode beans context hostName)
    queueCountPerPage pages = .ok slots ∧
      slots.map (Option.map copiedOfGlobalQueue) = globals.map (some ∘ copiedOfGlobalQueue)
  destinations : ∃ slots, concatPages (getAllDestinationQueuesDetailForNode beans context hostName)
    queueCountPerPage pages = .ok slots ∧ slots = destinations.map some

variable {beans : ClusterManagementBeans} {context : CarbonContext} {hostName : Str}
  {globals destinations : List CountedQueue}

theorem numberOfPages_eq (h : Answers beans context hostName globals destinations) :
    numberOfPages beans context = .ok (pageCount destinations.length queueCountPerPage) := by
  obtain ⟨names, own, hnames, hown, hcounted⟩ := h.destinations
  rw [← (FailingFilters.forall₂_of_mapM hcounted).length_eq]
  simp only [numberOfPages, getNumberOfQueues, hnames, hown, bind, Except.bind]
  rfl

section
variable {α β γ : Type} {copy : α → β} {xs : List α} {message : String}
  {page : Int → Int → Except JavaException (List (Option β))} {size : Nat}

theorem pages_show_iff
    (hpage : ∀ start max, page start max = asAdminException message (pageOf copy xs start max))
    (hsize : 0 < size) (shown : β → γ) (pages : Nat) :
    (∃ slots, concatPages page size pages = .ok slots ∧
        slots.map (Option.map shown) = xs.map (some ∘ shown ∘ copy)) ↔
      Spans pages size xs.length := by
  have hshows := @concatPages_shows_iff (Option β) (Option γ) page size
    (xs.map (some ∘ copy)) (Option.map shown) (fun start hstart => by
      rw [hpage, asAdminException_page message (by simpa using hstart) hsize, List.map_take,
        List.map_drop])
    (fun start hstart => ⟨_, by
      rw [hpage, pageOf_beyond (by simpa using hstart)]
      rfl⟩) pages
  rw [List.length_map, List.map_map] at hshows
  exact hshows

end

theorem global_page (h : Answers beans context hostName globals destinations) (start max : Int) :
    getAllGlobalQueuesForNode beans context hostName start max =
      asAdminException "Can not get the queue manager " (pageOfGlobalQueues globals start max) := by
  obtain ⟨all, hall, hglobals⟩ := h.globals
  exact getAllGlobalQueuesForNode_eq hall hglobals start max

theorem destination_page (h : Answers beans context hostName globals destinations)
    (start max : Int) : getAllDestinationQueuesDetailForNode beans context hostName start max =
      asAdminException "Can not get the queue manager "
        (pageOfDestinationQueues destinations start max) := by
  obtain ⟨names, own, hnames, hown, hcounted⟩ := h.destinations
  exact getAllDestinationQueuesDetailForNode_eq hnames hown hcounted start max

theorem everyPageOpens_spans (h : Answers beans context hostName globals destinations)
    {pages : Nat} (hpages : numberOfPages beans context = .ok pages) :
    EveryPageOpens beans context hostName globals destinations pages ↔
      Spans pages queueCountPerPage destinations.length ∧
        Spans pages queueCountPerPage globals.length := by
  have hsize : 0 < queueCountPerPage := by decide
  have hglobals := pages_show_iff (global_page h) hsize copiedOfGlobalQueue pages
  have hdestinations := pages_show_iff (destination_page h) hsize id pages
  simp only [Option.map_id, List.map_id] at hdestinations
  refine ⟨fun hopens => ⟨hdestinations.1 hopens.destinations, hglobals.1 hopens.globals⟩,
    fun ⟨hspans, hspans'⟩ => ⟨fun p hp => ?_, hglobals.2 hspans', hdestinations.2 hspans⟩⟩
  have hstart := hspans.start_le hp
  have hstart' := hspans'.start_le hp
  have hindex : (p : Int) * queueCountPerPage = (p * queueCountPerPage : Nat) := by push_cast; rfl
  simp only [queueList, hpages, global_page h, destination_page h, hindex]
  rw [pageOfGlobalQueues, pageOfDestinationQueues, asAdminException_page _ hstart' hsize,
    asAdminException_page _ hstart hsize]
  exact ⟨_, _, rfl⟩

theorem pages_eq (h : Answers beans context hostName globals destinations) {pages : Nat}
    (hpages : numberOfPages beans context = .ok pages) (hcount : destinations.length < 2 ^ 24) :
    pages = destinations.length ⌈/⌉ queueCountPerPage := by
  rw [numberOfPages_eq h, pageCount_eq hcount (by decide) (by decide)] at hpages
  exact (Except.ok.inj hpages).symm

/-- The pages that the cluster's queues make up have to span the node's global queues too, and,
from `2 ^ 24` queues on, the cluster's queues themselves. -/
theorem everyPageOpens_iff (h : Answers beans context hostName globals destinations) {pages : Nat}
    (hpages : numberOfPages beans context = .ok pages) :
    (EveryPageOpens beans context hostName globals destinations pages ↔
      Spans pages queueCountPerPage destinations.length ∧
        Spans pages queueCountPerPage globals.length) ∧
    (destinations.length < 2 ^ 24 →
      (EveryPageOpens beans context hostName globals destinations pages ↔
        Spans (destinations.length ⌈/⌉ queueCountPerPage) queueCountPerPage globals.length)) := by
  refine ⟨everyPageOpens_spans h hpages, fun hcount => ?_⟩
  rw [everyPageOpens_spans h hpages, pages_eq h hpages hcount]
  exact and_iff_right (spans_ceilDiv (by decide) destinations.length)

def idleBeans (queuesOfCluster : List Str) (globals : List CountedQueue) :
    ClusterManagementBeans where
  getGlobalQueuesRunningInNode _ := .ok globals
  queuesOfCluster := .ok queuesOfCluster
  getMessageCountOfNodeAddressedToDestinationQueue _ _ := .ok 0
  getSubscriberCountOfNodeAddressedToDestinationQueue _ _ := .ok 0
  getTopicList := .ok []
  getNodesWithZookeeperID := .ok []

def adminContext : CarbonContext :=
  ⟨SUPER_TENANT_ID, some SUPER_TENANT_DOMAIN_NAME, "admin".toList⟩

def idleQueue : CountedQueue := ⟨⟨some "q".toList⟩, 0, 0⟩

theorem filterCounted_idle (count : Nat) :
    filterCounted adminContext (List.replicate count idleQueue) =
      .ok (List.replicate count idleQueue) := by
  have hkept : filterByDomain (fun queue : CountedQueue => queue.queueName) adminContext
      (List.replicate count idleQueue) =
        .ok ((List.replicate count idleQueue).filter fun _ => true) :=
    FailingFilters.filterOrFail_of_ok fun queue hqueue => by
      rw [List.eq_of_mem_replicate hqueue]
      decide
  rwa [List.filter_true] at hkept

theorem countQueues_idle (names : List Str) (globals : List CountedQueue) (hostName : Str)
    (count : Nat) :
    (List.replicate count idleQueue).mapM (countQueue (idleBeans names globals) hostName) =
      .ok (List.replicate count idleQueue) := by
  induction count with
  | zero => rfl
  | succ count ih =>
    rw [List.replicate_succ, List.mapM_cons, ih]
    rfl

theorem idle_answers (hostName : Str) (cluster own : Nat) :
    Answers (idleBeans (List.replicate cluster "q".toList) (List.replicate own idleQueue))
      adminContext hostName (List.replicate own idleQueue)
      (List.replicate cluster idleQueue) := by
  refine ⟨⟨_, rfl, filterCounted_idle own⟩,
    ⟨_, List.replicate cluster idleQueue, rfl, ?_, ?_⟩⟩
  · rw [List.map_replicate]
    exact filterCounted_idle cluster
  · exact countQueues_idle ..

theorem everyPageOpens_iff_idle :
    EveryPageOpens (idleBeans (List.replicate 21 "q".toList) (List.replicate 25 idleQueue))
      adminContext "node".toList (List.replicate 25 idleQueue) (List.replicate 21 idleQueue) 2 := by
  have hanswers := idle_answers "node".toList 21 25
  have hpages := numberOfPages_eq hanswers
  rw [List.length_replicate, pageCount_eq (by decide) (by decide) (by decide)] at hpages
  exact ((everyPageOpens_iff hanswers hpages).2 (by decide)).2 (by decide)

theorem node_without_queues :
    ∃ pages, numberOfPages (idleBeans (List.replicate 21 "q".toList) []) adminContext = .ok pages ∧
      ¬EveryPageOpens (idleBeans (List.replicate 21 "q".toList) []) adminContext "node".toList
        [] (List.replicate 21 idleQueue) pages := by
  have hanswers := idle_answers "node".toList 21 0
  have hpages := numberOfPages_eq hanswers
  refine ⟨_, hpages, fun h => ?_⟩
  have hspans := ((everyPageOpens_spans hanswers hpages).1 h).2
  rw [List.length_replicate, pageCount_eq (by decide) (by decide) (by decide)] at hspans
  revert hspans
  decide

end NodeQueuePages

end CarbonMessaging
