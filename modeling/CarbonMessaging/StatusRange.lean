import CarbonMessaging.JavaLang
import Mathlib.Data.List.Forall2

/-! The times of the messages that the statistics service answers for a range of time. They are
rounded down to whole seconds before they are compared with the bounds of the range. -/

namespace CarbonMessaging

open JavaLang

namespace MessageCounterService

/-- `org.wso2.andes.server.stats.MessageStatus`; a time of `0` is one that has not come yet. -/
structure MessageStatus where
  messageId : Int
  queueName : Option Str
  publishedTime : Int
  deliveredTime : Int
  acknowledgedTime : Int
  deriving DecidableEq

/-- A JSON object of the answer; putting a null leaves the key out. -/
structure StatusObject where
  messageId : Int
  queue_name : Option Str
  published : Int
  delivered : Int
  acknowledged : Int
  deriving DecidableEq

def wholeSecond (t : Int) : Int := t.tdiv 1000 * 1000

def inScope (minDate maxDate date : Int) : Int :=
  if date ≤ minDate ∨ date ≥ maxDate then 0 else date

def statusObject (minDate maxDate : Int) (compareAllStatuses : Bool)
    (currentEntry : MessageStatus) : StatusObject :=
  let publishedDate := wholeSecond currentEntry.publishedTime
  let deliveredDate := wholeSecond currentEntry.deliveredTime
  let acknowledgedDate := wholeSecond currentEntry.acknowledgedTime
  if compareAllStatuses then
    ⟨currentEntry.messageId, currentEntry.queueName, inScope minDate maxDate publishedDate,
      inScope minDate maxDate deliveredDate, inScope minDate maxDate acknowledgedDate⟩
  else
    ⟨currentEntry.messageId, currentEntry.queueName, publishedDate, deliveredDate,
      acknowledgedDate⟩

/-- `MessageCounter.getOnGoingMessageStatus`: the set of the messages in the order in which it is
iterated, for a queue or for all. -/
abbrev OnGoingMessageStatus :=
  (queueName : Option Str) → (minDate maxDate minMessageId limit : Int) →
    (compareAllStatuses : Bool) → List MessageStatus

def getMessageStatuses (getOnGoingMessageStatus : OnGoingMessageStatus) (queueName : Option Str)
    (minDate maxDate minMessageId limit : Int) (compareAllStatuses : Bool) : List StatusObject :=
  let queueToRequest := if queueName = some "All".toList then none else queueName
  (getOnGoingMessageStatus queueToRequest minDate maxDate minMessageId limit
    compareAllStatuses).map (statusObject minDate maxDate compareAllStatuses)

end MessageCounterService

namespace StatusRange

open MessageCounterService

/-- The time that is to be reported: the start of the event's second if it counts. -/
def expected (minDate maxDate : Int) (compareAllStatuses : Bool) (t : Int) : Int :=
  if compareAllStatuses = true ∧ ¬(minDate < t ∧ t < maxDate) then 0 else t - t % 1000

structure Reports (minDate maxDate : Int) (compareAllStatuses : Bool) (status : MessageStatus)
    (object : StatusObject) : Prop where
  messageId : object.messageId = status.messageId
  queue_name : object.queue_name = status.queueName
  published : object.published = expected minDate maxDate compareAllStatuses status.publishedTime
  delivered : object.delivered = expected minDate maxDate compareAllStatuses status.deliveredTime
  acknowledged :
    object.acknowledged = expected minDate maxDate compareAllStatuses status.acknowledgedTime

def times (status : MessageStatus) : List Int :=
  [status.publishedTime, status.deliveredTime, status.acknowledgedTime]

/-- After the first second, an event and the start of its second are in the range together. -/
def Aligned (minDate maxDate t : Int) : Prop :=
  1000 ≤ t → (minDate < t ∧ t < maxDate ↔ minDate < t - t % 1000 ∧ t - t % 1000 < maxDate)

variable {minDate maxDate t : Int} {status : MessageStatus}

theorem wholeSecond_eq (h : 0 ≤ t) : wholeSecond t = t - t % 1000 := by
  rw [wholeSecond, Int.tdiv_eq_ediv_of_nonneg h]
  omega

theorem inScope_eq_iff (h : 0 ≤ t) :
    inScope minDate maxDate (wholeSecond t) = expected minDate maxDate true t ↔
      Aligned minDate maxDate t := by
  rw [wholeSecond_eq h, inScope, Aligned]
  by_cases hin : minDate < t ∧ t < maxDate
  · have hexpected : expected minDate maxDate true t = t - t % 1000 := if_neg fun hout => hout.2 hin
    rw [hexpected]
    split <;> omega
  · have hexpected : expected minDate maxDate true t = 0 := if_pos ⟨rfl, hin⟩
    rw [hexpected]
    split <;> omega

theorem statusObject_iff (h : ∀ t ∈ times status, 0 ≤ t) (compareAllStatuses : Bool) :
    Reports minDate maxDate compareAllStatuses status
        (statusObject minDate maxDate compareAllStatuses status) ↔
      (compareAllStatuses = true → ∀ t ∈ times status, Aligned minDate maxDate t) := by
  simp only [times, List.forall_mem_cons] at h ⊢
  obtain ⟨hpublished, hdelivered, hacknowledged, -⟩ := h
  cases compareAllStatuses with
  | false =>
    refine iff_of_true ⟨rfl, rfl, ?_, ?_, ?_⟩ fun hfalse => nomatch hfalse
    all_goals
      rw [expected, if_neg (by simp)]
      exact wholeSecond_eq ‹_›
  | true =>
    rw [← inScope_eq_iff hpublished, ← inScope_eq_iff hdelivered, ← inScope_eq_iff hacknowledged]
    exact ⟨fun hreports _ => ⟨hreports.published, hreports.delivered, hreports.acknowledged,
      fun _ hnone => nomatch hnone⟩,
      fun hall => ⟨rfl, rfl, (hall rfl).1, (hall rfl).2.1, (hall rfl).2.2.1⟩⟩

/-- Every message is reported once and with its own times when, as far as all times are compared,
no event is in the range without the start of its second or the start without the event. -/
theorem statuses_iff (getOnGoingMessageStatus : OnGoingMessageStatus)
    (hnonneg : ∀ queue min max id limit all,
      ∀ status ∈ getOnGoingMessageStatus queue min max id limit all,
        ∀ t ∈ times status, 0 ≤ t)
    (queueName : Option Str) (minDate maxDate minMessageId limit : Int)
    (compareAllStatuses : Bool) :
    let messages := getOnGoingMessageStatus
      (if queueName = some "All".toList then none else queueName) minDate maxDate minMessageId
      limit compareAllStatuses
    List.Forall₂ (Reports minDate maxDate compareAllStatuses) messages
        (getMessageStatuses getOnGoingMessageStatus queueName minDate maxDate minMessageId limit
          compareAllStatuses) ↔
      (compareAllStatuses = true →
        ∀ status ∈ messages, ∀ t ∈ times status, Aligned minDate maxDate t) := by
  intro messages
  rw [getMessageStatuses, List.forall₂_map_right_iff, List.forall₂_same]
  have hall : ∀ status ∈ messages, _ := fun status hstatus =>
    @statusObject_iff minDate maxDate status
      (hnonneg _ _ _ _ _ _ status hstatus) compareAllStatuses
  constructor
  · exact fun hreports hcompare status hstatus =>
      (hall status hstatus).1 (hreports status hstatus) hcompare
  · exact fun haligned status hstatus =>
      (hall status hstatus).2 fun hcompare => haligned hcompare status hstatus

def oneMessage (publishedTime : Int) : OnGoingMessageStatus :=
  fun _ _ _ _ _ _ => [⟨1, none, publishedTime, 0, 0⟩]

theorem statuses_aligned :
    List.Forall₂ (Reports 1500 5000 true) (oneMessage 2700 none 1500 5000 0 100 true)
      (getMessageStatuses (oneMessage 2700) none 1500 5000 0 100 true) := by
  refine (statuses_iff (oneMessage 2700) ?_ none 1500 5000 0 100 true).2 fun _ => ?_
  · simp [oneMessage, times]
  · simp [oneMessage, times, Aligned]

theorem not_reported :
    ¬List.Forall₂ (Reports 1500 5000 true) (oneMessage 1700 none 1500 5000 0 100 true)
      (getMessageStatuses (oneMessage 1700) none 1500 5000 0 100 true) := by
  intro h
  have hpublished := (List.forall₂_cons.1 h).1.published
  revert hpublished
  decide

end StatusRange

end CarbonMessaging
