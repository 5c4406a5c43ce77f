import CarbonMessaging.CarbonPlatform
import CarbonMessaging.FailingFilters

/-! Listings cut down to the tenant domain of the caller. Two bundles filter queues, each with a
queue type of its own; of both types only the name is read. -/

namespace CarbonMessaging

open JavaLang FailingFilters

def nonNull {α : Type} : Option α → Except JavaException α
  | some a => .ok a
  | none => .error nullPointerException

def arrayIndexOutOfBoundsException : JavaException :=
  ⟨.other "java.lang.ArrayIndexOutOfBoundsException".toList, none⟩

def arrayGet {α : Type} (array : List α) (index : Nat) : Except JavaException α :=
  match array[index]? with
  | some a => .ok a
  | none => .error arrayIndexOutOfBoundsException

theorem arrayGet_eq_ok {α : Type} {array : List α} {index : Nat} {a : α} :
    arrayGet array index = .ok a ↔ array[index]? = some a := by
  rw [arrayGet]
  cases array[index]? <;> simp

def filterByDomain {α : Type} (getQueueName : α → Option Str) (context : CarbonContext)
    (fullList : List α) : Except JavaException (List α) :=
  match context.tenantDomain with
  | none => .ok []
  | some domainName =>
    if domainName ≠ SUPER_TENANT_DOMAIN_NAME then
      filterOrFail ((fun queueName => do pure (startsWith (← nonNull queueName) domainName)) ∘
        getQueueName) fullList
    else
      filterOrFail ((fun queueName => do pure !(contains (← nonNull queueName) "/".toList)) ∘
        getQueueName) fullList

namespace AndesClusterMgt

/-- `org.wso2.carbon.andes.cluster.mgt.Queue` -/
structure Queue where
  queueName : Option Str
  deriving DecidableEq

def filterDomainSpecificQueues : CarbonContext → List Queue → Except JavaException (List Queue) :=
  filterByDomain Queue.queueName

end AndesClusterMgt

namespace AndesCore

def DIRECT_EXCHANGE : Str := "amq.direct".toList
def TOPIC_EXCHANGE : Str := "amq.topic".toList

/-- `org.wso2.carbon.andes.core.types.Queue` -/
structure Queue where
  queueName : Option Str
  deriving DecidableEq

def filterDomainSpecificQueues : CarbonContext → List Queue → Except JavaException (List Queue) :=
  filterByDomain Queue.queueName

structure Subscription where
  subscribedQueueOrTopicName : Option Str
  subscriberQueueBoundExchange : Option Str
  subscriberQueueName : Option Str
  isDurable : Bool
  deriving DecidableEq

/-- The test of the loop for one tenant. The bound exchange is read in every case, since its
comparison stands in both the durable and the temporary tests. -/
def isOfTenant (domainName : Str) (subscription : Subscription) : Except JavaException Bool := do
  let exchange ← nonNull subscription.subscriberQueueBoundExchange
  if !subscription.isDurable && exchange == "amq.direct".toList then
    pure (startsWith (← nonNull subscription.subscribedQueueOrTopicName)
      (domainName ++ "/".toList))
  else if !subscription.isDurable && exchange == "amq.topic".toList then
    pure (startsWith (← nonNull subscription.subscribedQueueOrTopicName)
      (domainName ++ "/".toList))
  else if subscription.isDurable && exchange == "amq.direct".toList then
    pure (startsWith (← nonNull subscription.subscriberQueueName) (domainName ++ "/".toList))
  else if subscription.isDurable && exchange == "amq.topic".toList then
    let durableTopicQueueName ← nonNull subscription.subscriberQueueName
    let subscriptionID ← arrayGet (split ':' durableTopicQueueName) 1
    pure (startsWith subscriptionID (domainName ++ "/".toList))
  else pure false

def isOfSuperTenant (subscription : Subscription) : Except JavaException Bool := do
  let name ← nonNull (if subscription.isDurable then subscription.subscriberQueueName
    else subscription.subscribedQueueOrTopicName)
  pure !(contains name "/".toList)

def filterDomainSpecificSubscribers (context : CarbonContext)
    (allSubscriptions : List Subscription) : Except JavaException (List Subscription) :=
  match context.tenantDomain with
  | none => .ok []
  | some domainName =>
    if domainName ≠ SUPER_TENANT_DOMAIN_NAME then
      filterOrFail (isOfTenant domainName) allSubscriptions
    else filterOrFail isOfSuperTenant allSubscriptions

namespace SubscriptionManagerServiceImpl

def getAllSubscriptions (context : CarbonContext) (brokerSubscriptions : List Subscription) :
    Except JavaException (List Subscription) :=
  filterDomainSpecificSubscribers context brokerSubscriptions

def classify (exchange : Str) (durable : Bool) (context : CarbonContext)
    (brokerSubscriptions : List Subscription) : Except JavaException (List Subscription) := do
  filterOrFail (fun sub => do
    pure ((← nonNull sub.subscriberQueueBoundExchange) == exchange && sub.isDurable == durable))
    (← getAllSubscriptions context brokerSubscriptions)

def getAllDurableQueueSubscriptions : CarbonContext → List Subscription →
    Except JavaException (List Subscription) := classify DIRECT_EXCHANGE true

def getAllLocalTempQueueSubscriptions : CarbonContext → List Subscription →
    Except JavaException (List Subscription) := classify DIRECT_EXCHANGE false

def getAllDurableTopicSubscriptions : CarbonContext → List Subscription →
    Except JavaException (List Subscription) := classify TOPIC_EXCHANGE true

def getAllLocalTempTopicSubscriptions : CarbonContext → List Subscription →
    Except JavaException (List Subscription) := classify TOPIC_EXCHANGE false

end SubscriptionManagerServiceImpl

end AndesCore

end CarbonMessaging
