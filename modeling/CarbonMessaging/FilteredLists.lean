import CarbonMessaging.PagedLists

/-! The paging functions of the console, the queue manager and the cluster manager. What the
beans of a cluster node report is a parameter; every answer may also be an exception. -/

namespace CarbonMessaging

open JavaLang FailingFilters

namespace AndesUi

structure Queue where
  queueName : Option Str
  messageCount : Int
  createdTime : Option Int
  updatedTime : Option Int
  deriving DecidableEq

structure Subscription where
  subscriptionIdentifier : Option Str
  subscribedQueueOrTopicName : Option Str
  subscriberQueueBoundExchange : Option Str
  subscriberQueueName : Option Str
  durable : Bool
  active : Bool
  numberOfMessagesRemainingForSubscriber : Int
  subscriberNodeAddress : Option Str
  deriving DecidableEq

namespace UIUtils

def getFilteredQueueList : List Queue → Int → Int → Except JavaException (List (Option Queue)) :=
  pageOf fun queueDetail =>
    { queueName := queueDetail.queueName
      messageCount := queueDetail.messageCount
      createdTime := none
      updatedTime := none }

def getFilteredSubscriptionList :
    List Subscription → Int → Int → Except JavaException (List (Option Subscription)) :=
  pageOf fun subscriptionDetail =>
    { subscriptionIdentifier := subscriptionDetail.subscriptionIdentifier
      subscribedQueueOrTopicName := subscriptionDetail.subscribedQueueOrTopicName
      subscriberQueueBoundExchange := subscriptionDetail.subscriberQueueBoundExchange
      subscriberQueueName := subscriptionDetail.subscriberQueueName
      durable := subscriptionDetail.durable
      active := subscriptionDetail.active
      numberOfMessagesRemainingForSubscriber :=
        subscriptionDetail.numberOfMessagesRemainingForSubscriber
      subscriberNodeAddress := subscriptionDetail.subscriberNodeAddress }

end UIUtils

end AndesUi

namespace AndesCore

/-- `Utils.getFilteredMsgsList`, which stands word for word in the console's `UIUtils` too. -/
def getFilteredMsgsList {Message : Type} :
    List Message → Int → Int → Except JavaException (List (Option Message)) := pageOf id

end AndesCore

namespace AndesClusterMgt

structure CountedQueue extends Queue where
  messageCount : Int
  subscriberCount : Int
  deriving DecidableEq

structure Topic where
  name : Option Str
  numberOfSubscribers : Int
  deriving DecidableEq

structure NodeDetail where
  nodeId : Option Str
  zookeeperID : Option Str
  hostName : Option Str
  ipAddress : Option Str
  messagesReceivedLastFiveMin : Int
  messagesReceivedLastHalfMin : Int
  messagesReceivedLastHour : Int
  memoryUsage : Int
  throughput : Int
  numOfGlobalQueues : Int
  numOfTopics : Int
  deriving DecidableEq

structure ClusterManagementBeans where
  getGlobalQueuesRunningInNode : Str → Except JavaException (List CountedQueue)
  queuesOfCluster : Except JavaException (List Str)
  getMessageCountOfNodeAddressedToDestinationQueue :
    Str → Option Str → Except JavaException Int
  getSubscriberCountOfNodeAddressedToDestinationQueue :
    Str → Option Str → Except JavaException Int
  getTopicList : Except JavaException (List Topic)
  getNodesWithZookeeperID : Except JavaException (List NodeDetail)

namespace ClusterManagerService

/-- The loop of `getAllGlobalQueuesForNode`, which leaves the subscribers uncounted. -/
def pageOfGlobalQueues :
    List CountedQueue → Int → Int → Except JavaException (List (Option CountedQueue)) :=
  pageOf fun queueDetail =>
    { queueName := queueDetail.queueName
      messageCount := queueDetail.messageCount
      subscriberCount := 0 }

def pageOfDestinationQueues :
    List CountedQueue → Int → Int → Except JavaException (List (Option CountedQueue)) :=
  pageOf fun queueDetail =>
    { queueName := queueDetail.queueName
      messageCount := queueDetail.messageCount
      subscriberCount := queueDetail.subscriberCount }

def pageOfTopics : List Topic → Int → Int → Except JavaException (List (Option Topic)) :=
  pageOf fun topicDetail =>
    { name := topicDetail.name
      numberOfSubscribers := topicDetail.numberOfSubscribers }

def pageOfNodes : List NodeDetail → Int → Int → Except JavaException (List (Option NodeDetail)) :=
  pageOf fun nodeDetail =>
    { nodeId := nodeDetail.nodeId
      zookeeperID := nodeDetail.zookeeperID
      hostName := nodeDetail.hostName
      ipAddress := nodeDetail.ipAddress
      messagesReceivedLastFiveMin := nodeDetail.messagesReceivedLastFiveMin
      messagesReceivedLastHalfMin := nodeDetail.messagesReceivedLastHalfMin
      messagesReceivedLastHour := nodeDetail.messagesReceivedLastHour
      memoryUsage := nodeDetail.memoryUsage
      throughput := 0
      numOfGlobalQueues := nodeDetail.numOfGlobalQueues
      numOfTopics := nodeDetail.numOfTopics }

def asAdminException {α : Type} (message : String) (x : Except JavaException α) :
    Except JavaException α :=
  x.mapError fun _ => ⟨.other "ClusterMgtAdminException".toList, some message.toList⟩

def filterCounted (context : CarbonContext) :
    List CountedQueue → Except JavaException (List CountedQueue) :=
  filterByDomain (fun queue => queue.queueName) context

def getAllGlobalQueuesForNode (beans : ClusterManagementBeans) (context : CarbonContext)
    (hostName : Str) (startingIndex maxQueueCount : Int) :
    Except JavaException (List (Option CountedQueue)) :=
  asAdminException "Can not get the queue manager " do
    let allGlobalQueuesRunningInNode ← beans.getGlobalQueuesRunningInNode hostName
    let resultList ← filterCounted context allGlobalQueuesRunningInNode
    pageOfGlobalQueues resultList startingIndex maxQueueCount

def countQueue (beans : ClusterManagementBeans) (hostName : Str) (aQueue : CountedQueue) :
    Except JavaException CountedQueue := do
  let messageCount ←
    beans.getMessageCountOfNodeAddressedToDestinationQueue hostName aQueue.queueName
  let subscriberCount ←
    beans.getSubscriberCountOfNodeAddressedToDestinationQueue hostName aQueue.queueName
  pure { aQueue with messageCount, subscriberCount }

def getAllDestinationQueuesDetailForNode (beans : ClusterManagementBeans)
    (context : CarbonContext) (hostName : Str) (startingIndex maxQueueCount : Int) :
    Except JavaException (List (Option CountedQueue)) :=
  asAdminException "Can not get the queue manager " do
    let queuesOfCluster ← beans.queuesOfCluster
    let queueObjectList := queuesOfCluster.map fun destinationQueue =>
      { queueName := some destinationQueue, messageCount := 0, subscriberCount := 0 }
    let queuesSpecificToTenant ← filterCounted context queueObjectList
    let counted ← queuesSpecificToTenant.mapM (countQueue beans hostName)
    pageOfDestinationQueues counted startingIndex maxQueueCount

def getAllTopicsForNode (beans : ClusterManagementBeans) (startingIndex maxTopicCount : Int) :
    Except JavaException (List (Option Topic)) :=
  asAdminException "Can not access MBean information for topics " do
    pageOfTopics (← beans.getTopicList) startingIndex maxTopicCount

def getAllNodeDetail (beans : ClusterManagementBeans) (startingIndex maxNodesCount : Int) :
    Except JavaException (List (Option NodeDetail)) :=
  asAdminException "Can not access MBean information for nodes" do
    pageOfNodes (← beans.getNodesWithZookeeperID) startingIndex maxNodesCount

theorem asAdminException_page {α β : Type} (message : String) {copy : α → β} {xs : List α}
    {start max : Nat} (hstart : start ≤ xs.length) (hmax : 0 < max) :
    asAdminException message (pageOf copy xs start max) =
      .ok (((xs.drop start).take max).map (some ∘ copy)) := by
  rw [pageOf_eq hstart hmax]
  rfl

variable {beans : ClusterManagementBeans} {context : CarbonContext} {hostName : Str}

theorem getAllGlobalQueuesForNode_eq {all xs : List CountedQueue}
    (hall : beans.getGlobalQueuesRunningInNode hostName = .ok all)
    (hxs : filterCounted context all = .ok xs) (start max : Int) :
    getAllGlobalQueuesForNode beans context hostName start max =
      asAdminException "Can not get the queue manager " (pageOfGlobalQueues xs start max) := by
  simp only [getAllGlobalQueuesForNode, hall, hxs, bind, Except.bind]

theorem getAllDestinationQueuesDetailForNode_eq {names : List Str} {all xs : List CountedQueue}
    (hnames : beans.queuesOfCluster = .ok names)
    (hall : filterCounted context
      (names.map fun name => ⟨⟨some name⟩, 0, 0⟩) = .ok all)
    (hxs : all.mapM (countQueue beans hostName) = .ok xs) (start max : Int) :
    getAllDestinationQueuesDetailForNode beans context hostName start max =
      asAdminException "Can not get the queue manager "
        (pageOfDestinationQueues xs start max) := by
  simp only [getAllDestinationQueuesDetailForNode, hnames, hall, hxs, bind, Except.bind]

theorem getAllTopicsForNode_eq {xs : List Topic} (hxs : beans.getTopicList = .ok xs)
    (start max : Int) : getAllTopicsForNode beans start max =
      asAdminException "Can not access MBean information for topics "
        (pageOfTopics xs start max) := by
  simp only [getAllTopicsForNode, hxs, bind, Except.bind]

theorem getAllNodeDetail_eq {xs : List NodeDetail} (hxs : beans.getNodesWithZookeeperID = .ok xs)
    (start max : Int) : getAllNodeDetail beans start max =
      asAdminException "Can not access MBean information for nodes"
        (pageOfNodes xs start max) := by
  simp only [getAllNodeDetail, hxs, bind, Except.bind]

end ClusterManagerService

end AndesClusterMgt

namespace FilteredLists

open AndesClusterMgt ClusterManagerService

def copiedOfQueue (queue : AndesUi.Queue) := (queue.queueName, queue.messageCount)

def copiedOfGlobalQueue (queue : CountedQueue) := (queue.queueName, queue.messageCount)

def copiedOfNode (node : NodeDetail) :=
  ((node.nodeId, node.zookeeperID, node.hostName, node.ipAddress),
    (node.messagesReceivedLastFiveMin, node.messagesReceivedLastHalfMin,
      node.messagesReceivedLastHour, node.memoryUsage),
    (node.numOfGlobalQueues, node.numOfTopics))

theorem paging_lossless :
    Lossless copiedOfQueue copiedOfQueue AndesUi.UIUtils.getFilteredQueueList ∧
    Lossless id id AndesUi.UIUtils.getFilteredSubscriptionList ∧
    (∀ Message : Type, Lossless id id (@AndesCore.getFilteredMsgsList Message)) ∧
    Lossless copiedOfGlobalQueue copiedOfGlobalQueue pageOfGlobalQueues ∧
    Lossless id id pageOfDestinationQueues ∧
    Lossless id id pageOfTopics ∧
    Lossless copiedOfNode copiedOfNode pageOfNodes := by
  refine ⟨?_, ?_, fun Message => ?_, ?_, ?_, ?_, ?_⟩
  all_goals exact pageOf_lossless fun _ => rfl

end FilteredLists

end CarbonMessaging
