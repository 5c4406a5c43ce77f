import CarbonMessaging.DomainFilters

/-! The records by which the broker reports its subscriptions, eight fields between bars. The
reader takes the fields by their positions, and splitting drops empty fields at the end. -/

namespace CarbonMessaging

open JavaLang FailingFilters

namespace AndesCore

structure Types.Subscription where
  subscriptionIdentifier : Option Str
  subscribedQueueOrTopicName : Option Str
  subscriberQueueBoundExchange : Option Str
  subscriberQueueName : Option Str
  isDurable : Bool
  isActive : Bool
  numberOfMessagesRemainingForSubscriber : Int
  subscriberNodeAddress : Option Str
  deriving DecidableEq

def parseBoolean (s : Str) : Bool := equalsIgnoreCase s "true".toList

def parseIntOrFail (s : Str) : Except JavaException Int :=
  match parseInt s with
  | some n => .ok n
  | none => .error ⟨.numberFormat, some s⟩

def parseStringToASubscription (subscriptionInfo : Str) :
    Except JavaException Types.Subscription := do
  let subInfo := split '|' subscriptionInfo
  let subscriptionIdentifier ← arrayGet subInfo 0
  let subscribedQueueOrTopicName ← arrayGet subInfo 1
  let subscriberQueueBoundExchange ← arrayGet subInfo 2
  let subscriberQueueName ← arrayGet subInfo 3
  let isDurable ← arrayGet subInfo 4
  let isActive ← arrayGet subInfo 5
  let numberOfMessagesRemainingForSubscriber ← parseIntOrFail (← arrayGet subInfo 6)
  let subscriberNodeAddress ← arrayGet subInfo 7
  pure ⟨some subscriptionIdentifier, some subscribedQueueOrTopicName,
    some subscriberQueueBoundExchange, some subscriberQueueName, parseBoolean isDurable,
    parseBoolean isActive, numberOfMessagesRemainingForSubscriber, some subscriberNodeAddress⟩

/-- `SubscriptionManagementBeans.getAllSubscriptions`, of what reading the broker's attribute
gives. -/
def SubscriptionManagementBeans.getAllSubscriptions
    (result : Except JavaException (Option (List Str))) :
    Except JavaException (List Types.Subscription) :=
  let asSubscriptionManagerException (e : JavaException) : JavaException :=
    if e.kind = .jmx then
      ⟨.other "org.wso2.carbon.andes.core.SubscriptionManagerException".toList,
        some "Cannot access mBean operations to get subscription list".toList⟩
    else e
  Except.mapError asSubscriptionManagerException do
    match ← result with
    | some subscriptionInformationList =>
      subscriptionInformationList.mapM parseStringToASubscription
    | none => pure []

end AndesCore

namespace SubscriptionRecords

open AndesCore

/-- What the broker can report of a subscription. -/
structure Record where
  subscriptionIdentifier : Str
  subscribedQueueOrTopicName : Str
  subscriberQueueBoundExchange : Str
  subscriberQueueName : Str
  isDurable : Bool
  isActive : Bool
  numberOfMessagesRemainingForSubscriber : Int
  subscriberNodeAddress : Str
  no_bar : ∀ field ∈ [subscriptionIdentifier, subscribedQueueOrTopicName,
    subscriberQueueBoundExchange, subscriberQueueName, subscriberNodeAddress], '|' ∉ field
  count_bounds : -2 ^ 31 ≤ numberOfMessagesRemainingForSubscriber ∧
    numberOfMessagesRemainingForSubscriber < 2 ^ 31

def booleanToString (b : Bool) : Str := if b then "true".toList else "false".toList

def Record.leading (record : Record) : List Str :=
  [record.subscriptionIdentifier, record.subscribedQueueOrTopicName,
    record.subscriberQueueBoundExchange, record.subscriberQueueName,
    booleanToString record.isDurable, booleanToString record.isActive,
    intToString record.numberOfMessagesRemainingForSubscriber]

def Record.encode (record : Record) : Str :=
  "|".toList.intercalate (record.leading ++ [record.subscriberNodeAddress])

def Record.subscription (record : Record) : Types.Subscription where
  subscriptionIdentifier := record.subscriptionIdentifier
  subscribedQueueOrTopicName := record.subscribedQueueOrTopicName
  subscriberQueueBoundExchange := record.subscriberQueueBoundExchange
  subscriberQueueName := record.subscriberQueueName
  isDurable := record.isDurable
  isActive := record.isActive
  numberOfMessagesRemainingForSubscriber := record.numberOfMessagesRemainingForSubscriber
  subscriberNodeAddress := record.subscriberNodeAddress

variable (record : Record)

theorem bar_notMem_intToString (n : Int) : '|' ∉ intToString n := by
  have hdigits : ∀ m, '|' ∉ Nat.toDigits 10 m := fun m h =>
    absurd (Nat.isDigit_of_mem_toDigits (b := 10) (by decide) (by decide) h) (by decide)
  cases n with
  | ofNat m => exact hdigits m
  | negSucc m =>
    rw [intToString, List.mem_cons, not_or]
    exact ⟨by decide, hdigits (m + 1)⟩

theorem intToString_ne_nil (n : Int) : intToString n ≠ [] := by
  cases n with
  | ofNat m => exact Nat.toDigits_ne_nil
  | negSucc m => exact List.cons_ne_nil _ _

@[simp] theorem parseBoolean_booleanToString (b : Bool) :
    parseBoolean (booleanToString b) = b := by
  cases b <;> decide

theorem bar_notMem_booleanToString (b : Bool) : '|' ∉ booleanToString b := by
  cases b <;> decide

theorem no_bar_fields : ∀ field ∈ record.leading ++ [record.subscriberNodeAddress],
    '|' ∉ field := by
  have hno := record.no_bar
  simp only [List.forall_mem_cons] at hno
  obtain ⟨hid, hname, hexchange, hqueue, haddress, -⟩ := hno
  simp only [Record.leading, List.cons_append, List.nil_append, List.forall_mem_cons]
  exact ⟨hid, hname, hexchange, hqueue, bar_notMem_booleanToString _,
    bar_notMem_booleanToString _, bar_notMem_intToString _, haddress, fun _ h => nomatch h⟩

theorem split_encode : split '|' record.encode =
    if record.subscriberNodeAddress = [] then record.leading
    else record.leading ++ [record.subscriberNodeAddress] := by
  have hmem : '|' ∈ record.encode := by
    simp [Record.encode, Record.leading, List.intercalate_cons_cons]
  have hparts : record.encode.splitOn '|' =
      record.leading ++ [record.subscriberNodeAddress] :=
    List.splitOn_intercalate '|' (no_bar_fields record) (by simp)
  rw [split, if_pos hmem, hparts]
  split
  · rename_i hempty
    rw [hempty, List.rdropWhile_concat_pos _ _ _ rfl]
    have hlast := intToString_ne_nil record.numberOfMessagesRemainingForSubscriber
    exact List.rdropWhile_concat_neg _ [_, _, _, _, _, _] _ (by simpa using hlast)
  · rename_i haddress
    exact List.rdropWhile_concat_neg _ _ _ (by simpa using haddress)

theorem parse_encode : parseStringToASubscription record.encode =
    if record.subscriberNodeAddress = [] then .error arrayIndexOutOfBoundsException
    else .ok record.subscription := by
  have hcount := parseInt_intToString record.count_bounds.1 record.count_bounds.2
  rw [parseStringToASubscription, split_encode]
  split <;>
    simp [Record.leading, arrayGet, parseIntOrFail, hcount, bind, Except.bind, pure, Except.pure,
      Record.subscription]

theorem mapM_parse (records : List Record) :
    (records.map Record.encode).mapM parseStringToASubscription =
      if ∀ record ∈ records, record.subscriberNodeAddress ≠ [] then
        .ok (records.map Record.subscription)
      else .error arrayIndexOutOfBoundsException := by
  induction records with
  | nil => rfl
  | cons record records ih =>
    rw [List.map_cons, List.mapM_cons, parse_encode, ih]
    simp only [List.forall_mem_cons]
    by_cases haddress : record.subscriberNodeAddress = []
    · have hsome : ¬(record.subscriberNodeAddress ≠ [] ∧
          ∀ record ∈ records, record.subscriberNodeAddress ≠ []) := fun h => h.1 haddress
      rw [if_pos haddress, if_neg hsome]
      rfl
    · rw [if_neg haddress]
      by_cases hrest : ∀ record ∈ records, record.subscriberNodeAddress ≠ []
      · rw [if_pos hrest, if_pos ⟨haddress, hrest⟩]
        rfl
      · rw [if_neg hrest, if_neg fun h => hrest h.2]
        rfl

theorem getAllSubscriptions_encode (records : List Record) :
    SubscriptionManagementBeans.getAllSubscriptions (.ok (some (records.map Record.encode))) =
      if ∀ record ∈ records, record.subscriberNodeAddress ≠ [] then
        .ok (records.map Record.subscription)
      else .error arrayIndexOutOfBoundsException := by
  rw [SubscriptionManagementBeans.getAllSubscriptions]
  simp only [bind, Except.bind, mapM_parse]
  split <;> rfl

/-- A record is read back as it was, and all records of a report are listed, where no node
address is empty. -/
theorem decoded_iff (record : Record) (records : List Record) :
    (parseStringToASubscription record.encode = .ok record.subscription ↔
      record.subscriberNodeAddress ≠ []) ∧
    (SubscriptionManagementBeans.getAllSubscriptions
        (.ok (some (records.map Record.encode))) = .ok (records.map Record.subscription) ↔
      ∀ record ∈ records, record.subscriberNodeAddress ≠ []) := by
  refine ⟨?_, ?_⟩
  · rw [parse_encode]
    by_cases haddress : record.subscriberNodeAddress = [] <;> simp [haddress]
  · rw [getAllSubscriptions_encode]
    by_cases haddress : ∀ record ∈ records, record.subscriberNodeAddress ≠ []
    · exact iff_of_true (if_pos haddress) haddress
    · rw [if_neg haddress]
      exact iff_of_false (by simp) haddress

def emptyRecord : Record where
  subscriptionIdentifier := []
  subscribedQueueOrTopicName := []
  subscriberQueueBoundExchange := []
  subscriberQueueName := []
  isDurable := false
  isActive := true
  numberOfMessagesRemainingForSubscriber := 0
  subscriberNodeAddress := []
  no_bar := by simp
  count_bounds := by decide

theorem emptyRecord_not_decoded :
    parseStringToASubscription emptyRecord.encode = .error arrayIndexOutOfBoundsException ∧
    SubscriptionManagementBeans.getAllSubscriptions (.ok (some [emptyRecord.encode])) =
      .error arrayIndexOutOfBoundsException :=
  ⟨parse_encode emptyRecord, getAllSubscriptions_encode [emptyRecord]⟩

end SubscriptionRecords

end CarbonMessaging
