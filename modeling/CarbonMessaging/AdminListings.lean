import CarbonMessaging.StableSorting
import CarbonMessaging.SubscriptionRecords

/-! The listings of the admin service, sorted by the number of messages. The comparators subtract
the counts as ints, so the difference of two counts that are far apart has the wrong sign. The
library's sort is a parameter that may be relied on where a comparator orders the list. -/

namespace CarbonMessaging

open JavaLang FailingFilters StableSorting

/-- `org.wso2.carbon.andes.core.types.Queue`; the times are what the getters answer, which is the
time of the call. -/
structure AndesCore.Types.Queue where
  queueName : Option Str
  messageCount : Int
  createdTime : Int
  updatedTime : Int
  deriving DecidableEq

abbrev CollectionsSort (δ : Type) := (δ → δ → Int) → List δ → Except JavaException (List δ)

def reverseOrder {δ : Type} (compare : δ → δ → Int) (a b : δ) : Int := compare b a

namespace AndesAdmin

structure Queue where
  queueName : Option Str
  messageCount : Int
  createdTime : Int
  updatedTime : Int
  deriving DecidableEq

structure Subscription where
  subscriptionIdentifier : Option Str
  subscribedQueueOrTopicName : Option Str
  subscriberQueueBoundExchange : Option Str
  subscriberQueueName : Option Str
  durable : Bool
  active : Bool
  numberOfMessagesRemainingForSubscriber : Int
  subscriberNodeAddress : Option Str
  deriving DecidableEq

/-- `compare` of a comparator that subtracts one count from the other -/
def subtracting {δ : Type} (count : δ → Int) (a b : δ) : Int := wrapInt (count a - count b)

def CustomQueueComparator : Queue → Queue → Int := subtracting Queue.messageCount

def CustomSubscriptionComparator : Subscription → Subscription → Int :=
  subtracting Subscription.numberOfMessagesRemainingForSubscriber

def adminException (text : Str) (failure : ExceptionClass) (e : JavaException) : JavaException :=
  if e.kind = failure then
    ⟨.other "org.wso2.carbon.andes.admin.internal.Exception.BrokerManagerAdminException".toList,
      some text⟩
  else e

/-- The body that the listings share: what the backend answers is copied, sorted and put into an
array of its size. -/
def sortedListing {ρ δ : Type} (copy : ρ → δ) (comparator : δ → δ → Int) (sort : CollectionsSort δ)
    (text : Str) (failure : ExceptionClass) (backend : Except JavaException (List ρ)) :
    Except JavaException (List δ) :=
  Except.mapError (adminException text failure) do
    sort (reverseOrder comparator) ((← backend).map copy)

def queueDTO (queue : AndesCore.Types.Queue) : Queue where
  queueName := queue.queueName
  messageCount := queue.messageCount
  createdTime := queue.createdTime
  updatedTime := queue.updatedTime

def subscriptionDTO (sub : AndesCore.Types.Subscription) : Subscription where
  subscriptionIdentifier := sub.subscriptionIdentifier
  subscribedQueueOrTopicName := sub.subscribedQueueOrTopicName
  subscriberQueueBoundExchange := sub.subscriberQueueBoundExchange
  subscriberQueueName := sub.subscriberQueueName
  durable := sub.isDurable
  active := sub.isActive
  numberOfMessagesRemainingForSubscriber := sub.numberOfMessagesRemainingForSubscriber
  subscriberNodeAddress := sub.subscriberNodeAddress

structure SubscriptionManagerService where
  getAllSubscriptions : Except JavaException (List AndesCore.Types.Subscription)
  getAllDurableQueueSubscriptions : Except JavaException (List AndesCore.Types.Subscription)
  getAllLocalTempQueueSubscriptions : Except JavaException (List AndesCore.Types.Subscription)
  getAllDurableTopicSubscriptions : Except JavaException (List AndesCore.Types.Subscription)
  getAllLocalTempTopicSubscriptions : Except JavaException (List AndesCore.Types.Subscription)

namespace AndesAdminService

def getAllQueues (sort : CollectionsSort Queue)
    (queues : Except JavaException (List AndesCore.Types.Queue)) :
    Except JavaException (List Queue) :=
  sortedListing queueDTO CustomQueueComparator sort
    "Problem in getting queues from back end".toList .queueManager queues

def subscriptionListing (sort : CollectionsSort Subscription) :
    Except JavaException (List AndesCore.Types.Subscription) →
    Except JavaException (List Subscription) :=
  sortedListing subscriptionDTO CustomSubscriptionComparator sort
    "Problem in getting subscriptions from back end".toList
    (.other "org.wso2.carbon.andes.core.SubscriptionManagerException".toList)

section
variable (sort : CollectionsSort Subscription) (service : SubscriptionManagerService)

def getAllSubscriptions : Except JavaException (List Subscription) :=
  subscriptionListing sort service.getAllSubscriptions

def getAllDurableQueueSubscriptions : Except JavaException (List Subscription) :=
  subscriptionListing sort service.getAllDurableQueueSubscriptions

def getAllLocalTempQueueSubscriptions : Except JavaException (List Subscription) :=
  subscriptionListing sort service.getAllLocalTempQueueSubscriptions

def getAllDurableTopicSubscriptions : Except JavaException (List Subscription) :=
  subscriptionListing sort service.getAllDurableTopicSubscriptions

def getAllLocalTempTopicSubscriptions : Except JavaException (List Subscription) :=
  subscriptionListing sort service.getAllLocalTempTopicSubscriptions

end

end AndesAdminService

end AndesAdmin

namespace AdminListings

open AndesAdmin AndesAdmin.AndesAdminService

section
variable {ρ δ : Type}

/-- The array is a permutation of the backend's list, `original` telling what an element is a
copy of, with large counts first and equal counts in the backend's order. -/
structure Listed (original : δ → ρ) (count : ρ → Int) (backend : List ρ) (dto : List δ) :
    Prop where
  perm : (dto.map original).Perm backend
  sorted : (dto.map original).Pairwise fun a b => count b ≤ count a
  stable : ∀ n, ((dto.map original).filter fun a => count a = n) =
    backend.filter fun a => count a = n

def IntCounts (count : ρ → Int) (backend : List ρ) : Prop :=
  ∀ a ∈ backend, -2 ^ 31 ≤ count a ∧ count a < 2 ^ 31

def CloseCounts (count : ρ → Int) (backend : List ρ) : Prop :=
  ∀ a ∈ backend, ∀ b ∈ backend, count a - count b < 2 ^ 31

variable {copy : ρ → δ} {original : δ → ρ} {count : ρ → Int} {backend : List ρ}

theorem descendsBy_of_close (hclose : CloseCounts count backend)
    (horiginal : ∀ a, original (copy a) = a) :
    DescendsBy (reverseOrder (subtracting (count ∘ original))) (count ∘ original)
      (backend.map copy) := by
  intro x hx y hy
  obtain ⟨a, ha, rfl⟩ := List.mem_map.1 hx
  obtain ⟨b, hb, rfl⟩ := List.mem_map.1 hy
  have hab := hclose a ha b hb
  have hba := hclose b hb a ha
  have hwrap : wrapInt (count b - count a) = count b - count a :=
    wrapInt_of_bounds (by omega)
  simp only [reverseOrder, subtracting, Function.comp_apply, horiginal, hwrap]
  omega

theorem wrapInt_far {a b : Int} (ha : -2 ^ 31 ≤ a ∧ a < 2 ^ 31) (hb : -2 ^ 31 ≤ b ∧ b < 2 ^ 31)
    (hfar : 2 ^ 31 ≤ a - b) :
    wrapInt (a - b) < 0 ∧ (0 < wrapInt (b - a) ∨ wrapInt (b - a) < 0) := by
  rw [wrapInt, wrapInt, Int.bmod_def, Int.bmod_def]
  split <;> split <;> omega

section
variable (horiginal : ∀ a, original (copy a) = a)
include horiginal

theorem listed_of_isStableSort (hclose : CloseCounts count backend) {dto : List δ}
    (hsorted : IsStableSort (reverseOrder (subtracting (count ∘ original))) (backend.map copy)
      dto) : Listed original count backend dto := by
  have hdescends := descendsBy_of_close hclose horiginal
  have hback : (backend.map copy).map original = backend := by simp [horiginal, Function.comp_def]
  refine ⟨?_, List.pairwise_map.2 (hsorted.pairwise_key hdescends), fun n => ?_⟩
  · have hperm := hsorted.perm.map original
    rwa [hback] at hperm
  · have hkept := congrArg (List.map original) (hsorted.filter_key hdescends n)
    rw [List.filter_map]
    conv_rhs => rw [← hback, List.filter_map]
    exact hkept

theorem not_listed_of_far (hint : IntCounts count backend) {a b : ρ} (ha : a ∈ backend)
    (hb : b ∈ backend) (hfar : 2 ^ 31 ≤ count a - count b)
    (horder : TotalPreorderOn (reverseOrder (subtracting (count ∘ original)))
      (backend.map copy)) {dto : List δ}
    (hsorted : IsStableSort (reverseOrder (subtracting (count ∘ original))) (backend.map copy)
      dto) : ¬Listed original count backend dto := by
  intro hlisted
  have hmem : ∀ {x}, x ∈ backend → copy x ∈ dto := fun hx =>
    hsorted.perm.symm.subset (List.mem_map_of_mem hx)
  obtain ⟨hwrong, hother⟩ := wrapInt_far (hint a ha) (hint b hb) hfar
  have hopposite := horder.opposite (copy a) (List.mem_map_of_mem ha) (copy b)
    (List.mem_map_of_mem hb)
  simp only [reverseOrder, subtracting, Function.comp_apply, horiginal] at hopposite
  -- one of the two comes first, and the sort and the listing disagree about which one
  have hne : copy a ≠ copy b := by
    intro hsame
    have hcopied := congrArg original hsame
    rw [horiginal, horiginal] at hcopied
    rw [hcopied] at hfar
    omega
  have hfirst := pairwise_or (hsorted.pairwise.and (List.pairwise_map.1 hlisted.sorted))
    (hmem ha) (hmem hb) hne
  simp only [reverseOrder, subtracting, Function.comp_apply, horiginal] at hfirst
  omega

end

theorem sortedListing_ok_iff {comparator : δ → δ → Int} {sort : CollectionsSort δ} {text : Str}
    {failure : ExceptionClass} {dto : List δ} :
    sortedListing copy comparator sort text failure (.ok backend) = .ok dto ↔
      sort (reverseOrder comparator) (backend.map copy) = .ok dto := by
  exact mapError_eq_ok

theorem sortedListing_listed_iff (horiginal : ∀ a, original (copy a) = a)
    (hint : IntCounts count backend) (text : Str) (failure : ExceptionClass) :
    (∀ sort, SortsStably sort →
      ∃ dto, sortedListing copy (subtracting (count ∘ original)) sort text failure
        (.ok backend) = .ok dto ∧ Listed original count backend dto) ↔
      CloseCounts count backend := by
  simp only [sortedListing_ok_iff]
  constructor
  · intro hlisted
    by_contra hclose
    simp only [CloseCounts, not_forall, not_lt] at hclose
    obtain ⟨a, ha, b, hb, hfar⟩ := hclose
    obtain ⟨dto, hresult, hdto⟩ :=
      hlisted _ (sortsStably_strictSort ⟨.illegalArgument, none⟩)
    obtain ⟨horder, hsorted⟩ := strictSort_ok hresult
    exact not_listed_of_far horiginal hint ha hb hfar horder hsorted hdto
  · intro hclose sort hsort
    obtain ⟨dto, hresult, hsorted⟩ :=
      hsort _ _ (descendsBy_of_close hclose horiginal).totalPreorderOn
    exact ⟨dto, hresult, listed_of_isStableSort horiginal hclose hsorted⟩

end

def queueOf (queue : Queue) : AndesCore.Types.Queue where
  queueName := queue.queueName
  messageCount := queue.messageCount
  createdTime := queue.createdTime
  updatedTime := queue.updatedTime

def subscriptionOf (subscription : Subscription) : AndesCore.Types.Subscription where
  subscriptionIdentifier := subscription.subscriptionIdentifier
  subscribedQueueOrTopicName := subscription.subscribedQueueOrTopicName
  subscriberQueueBoundExchange := subscription.subscriberQueueBoundExchange
  subscriberQueueName := subscription.subscriberQueueName
  isDurable := subscription.durable
  isActive := subscription.active
  numberOfMessagesRemainingForSubscriber := subscription.numberOfMessagesRemainingForSubscriber
  subscriberNodeAddress := subscription.subscriberNodeAddress

theorem queueOf_queueDTO (queue : AndesCore.Types.Queue) : queueOf (queueDTO queue) = queue := rfl

theorem subscriptionOf_subscriptionDTO (subscription : AndesCore.Types.Subscription) :
    subscriptionOf (subscriptionDTO subscription) = subscription := rfl

inductive SubscriptionListing where
  | all | durableQueue | localTempQueue | durableTopic | localTempTopic

namespace SubscriptionListing

def backend (service : SubscriptionManagerService) :
    SubscriptionListing → Except JavaException (List AndesCore.Types.Subscription)
  | all => service.getAllSubscriptions
  | durableQueue => service.getAllDurableQueueSubscriptions
  | localTempQueue => service.getAllLocalTempQueueSubscriptions
  | durableTopic => service.getAllDurableTopicSubscriptions
  | localTempTopic => service.getAllLocalTempTopicSubscriptions

def answer (sort : CollectionsSort Subscription) (service : SubscriptionManagerService) :
    SubscriptionListing → Except JavaException (List Subscription)
  | all => getAllSubscriptions sort service
  | durableQueue => getAllDurableQueueSubscriptions sort service
  | localTempQueue => getAllLocalTempQueueSubscriptions sort service
  | durableTopic => getAllDurableTopicSubscriptions sort service
  | localTempTopic => getAllLocalTempTopicSubscriptions sort service

theorem answer_eq (sort : CollectionsSort Subscription) (service : SubscriptionManagerService)
    (listing : SubscriptionListing) :
    listing.answer sort service = subscriptionListing sort (listing.backend service) := by
  cases listing <;> rfl

end SubscriptionListing

abbrev remaining : AndesCore.Types.Subscription → Int :=
  AndesCore.Types.Subscription.numberOfMessagesRemainingForSubscriber

abbrev messageCount : AndesCore.Types.Queue → Int := AndesCore.Types.Queue.messageCount

/-- The listings are complete and sorted, whatever stable sort the library has, when no two of the
listed counts are `2 ^ 31` or more apart. -/
theorem listings_iff (queues : List AndesCore.Types.Queue) (hqueues : IntCounts messageCount queues)
    (service : SubscriptionManagerService) (listing : SubscriptionListing)
    (subscriptions : List AndesCore.Types.Subscription)
    (hservice : listing.backend service = .ok subscriptions)
    (hsubscriptions : IntCounts remaining subscriptions) :
    ((∀ sort, SortsStably sort → ∃ dto, getAllQueues sort (.ok queues) = .ok dto ∧
        Listed queueOf messageCount queues dto) ↔ CloseCounts messageCount queues) ∧
    ((∀ sort, SortsStably sort → ∃ dto, listing.answer sort service = .ok dto ∧
        Listed subscriptionOf remaining subscriptions dto) ↔
      CloseCounts remaining subscriptions) := by
  refine ⟨@sortedListing_listed_iff _ _ queueDTO queueOf messageCount queues queueOf_queueDTO
    hqueues _ _, ?_⟩
  simp only [SubscriptionListing.answer_eq, hservice]
  exact @sortedListing_listed_iff _ _ subscriptionDTO subscriptionOf remaining subscriptions
    subscriptionOf_subscriptionDTO hsubscriptions _ _

def subscriptionWith (count : Int) : AndesCore.Types.Subscription :=
  ⟨none, none, none, none, false, true, count, none⟩

def serviceWith (counts : List Int) : SubscriptionManagerService where
  getAllSubscriptions := .ok (counts.map subscriptionWith)
  getAllDurableQueueSubscriptions := .ok []
  getAllLocalTempQueueSubscriptions := .ok []
  getAllDurableTopicSubscriptions := .ok []
  getAllLocalTempTopicSubscriptions := .ok []

theorem listings_close : CloseCounts remaining ([3, 5].map subscriptionWith) ∧
    ∀ sort, SortsStably sort → ∃ dto, getAllSubscriptions sort (serviceWith [3, 5]) = .ok dto ∧
      Listed subscriptionOf remaining ([3, 5].map subscriptionWith) dto := by
  have hclose : CloseCounts remaining ([3, 5].map subscriptionWith) := by
    simp [CloseCounts, remaining, subscriptionWith]
  refine ⟨hclose, ?_⟩
  exact (listings_iff [] (by simp [IntCounts]) (serviceWith [3, 5]) .all
    ([3, 5].map subscriptionWith) rfl (by simp [IntCounts, remaining, subscriptionWith])).2.2 hclose

theorem far_not_listed : ¬∃ sort, SortsStably sort ∧
    ∃ dto, getAllSubscriptions sort (serviceWith [2147483647, -2]) = .ok dto ∧
      Listed subscriptionOf remaining ([2147483647, -2].map subscriptionWith) dto := by
  rintro ⟨sort, hsort, dto, hresult, hlisted⟩
  have horder : TotalPreorderOn (reverseOrder CustomSubscriptionComparator)
      (([2147483647, -2].map subscriptionWith).map subscriptionDTO) :=
    ⟨by decide, by decide⟩
  obtain ⟨sorted, hsame, hsorted⟩ := hsort _ _ horder
  have hdto := hsame.symm.trans (sortedListing_ok_iff.1 hresult)
  cases hdto
  refine @not_listed_of_far _ _ subscriptionDTO subscriptionOf remaining
    ([2147483647, -2].map subscriptionWith) subscriptionOf_subscriptionDTO ?_
    (subscriptionWith 2147483647) (subscriptionWith (-2)) (by simp) (by simp) ?_ horder dto
    hsorted hlisted
  · simp [IntCounts, remaining, subscriptionWith]
  · simp [remaining, subscriptionWith]

end AdminListings

end CarbonMessaging
