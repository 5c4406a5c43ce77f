import CarbonMessaging.MessageRatePage

/-! One chain of requests, answered one at a time by a service that holds fixed records. The chain
draws all records of every status just when each status fits into one response and JavaScript
holds every number of the records; a full response hands the chain over to a request that stores
nothing in `currentOutput`. -/

namespace CarbonMessaging.ChartCompleteness

open JavaLang JavaScriptNumbers MessageRatePage

structure StatusChange where
  messageId : Int
  time : Int
  deriving DecidableEq

/-- `MessageCounterService.getMessageStatusChangeTimes` writes the time under the status's name, cut
to whole seconds by `time / 1000 * 1000`; the times here are what it has written. -/
def StatusChange.object (change : StatusChange) : MessageStatus → ChartRecord
  | .published => ⟨change.messageId, some change.time, none, none⟩
  | .delivered => ⟨change.messageId, none, some change.time, none⟩
  | .acknowledged => ⟨change.messageId, none, none, some change.time⟩

/-- The records of each status, and whatever the request for all statuses is answered with. -/
structure StatisticsService where
  changes : MessageStatus → List StatusChange
  messageStatuses : (minMessageId : Int) → (limit : Nat) → List ChartRecord

/-- The first `limit` records above an id, in ascending order. -/
def StatisticsService.statusChangeTimes (service : StatisticsService) (status : MessageStatus)
    (minMessageId : Int) (limit : Nat) : List StatusChange :=
  (((service.changes status).filter fun change => minMessageId < change.messageId).mergeSort
    fun a b => a.messageId ≤ b.messageId).take limit

def StatisticsService.answer (service : StatisticsService) (request : Request) :
    List ChartRecord :=
  match request.callback with
  | .prepareChartData _ => service.messageStatuses request.minMessageId request.limit
  | .prepareChartDataByStatus _ status =>
    (service.statusChangeTimes status request.minMessageId request.limit).map
      (StatusChange.object · status)

variable (service : StatisticsService) (dataLimit : Nat) (queue : Str)

def exchange (page : Page) : Page :=
  match page.outstanding with
  | [] => page
  | request :: rest =>
    { page with outstanding := rest }.success dataLimit
      ((service.answer request).map ChartRecord.parsed) request.callback

def chain : (answers : Nat) → Page
  | 0 => Page.opened dataLimit queue
  | answers + 1 => exchange service dataLimit (chain answers)

/-- The chain ends with a chart of every record of every status, each exactly once. -/
def Complete : Prop :=
  ∃ answers output, (chain service dataLimit queue answers).outstanding = [] ∧
    (chain service dataLimit queue answers).chart = some output ∧
      ∀ status, ∃ results, output status = some results ∧
        results.Perm ((service.changes status).map (StatusChange.object · status))

theorem deliver_zero {page : Page} {request : Request} {rest : List Request}
    (h : page.outstanding = request :: rest) :
    page.deliver dataLimit 0 (service.answer request) = some (exchange service dataLimit page) := by
  simp [Page.deliver, exchange, h]

variable {service dataLimit queue} {page : Page} {status : MessageStatus}

def StatisticsService.sorted (service : StatisticsService) (status : MessageStatus) :
    List StatusChange :=
  (service.changes status).mergeSort fun a b => a.messageId ≤ b.messageId

def StatisticsService.stored (service : StatisticsService) (status : MessageStatus) :
    List ChartRecord :=
  ((service.sorted status).map (StatusChange.object · status)).map ChartRecord.parsed

def StatisticsService.Positive (service : StatisticsService) : Prop :=
  ∀ status, ∀ change ∈ service.changes status, 0 < change.messageId

theorem statusChangeTimes_zero (hpositive : service.Positive) (limit : Nat) :
    service.statusChangeTimes status 0 limit = (service.sorted status).take limit := by
  have hall : (service.changes status).filter (fun change => 0 < change.messageId) =
      service.changes status := by
    rw [List.filter_eq_self]
    intro change hchange
    exact decide_eq_true (hpositive status change hchange)
  rw [StatisticsService.statusChangeTimes, hall, StatisticsService.sorted]

theorem length_sorted (status : MessageStatus) :
    (service.sorted status).length = (service.changes status).length := List.length_mergeSort _

def asking (dataLimit : Nat) (page : Page) (status : MessageStatus) : Page :=
  { page with outstanding := [] }.prepareChartDataByStatus dataLimit [] 0 status

theorem exchange_asking (page : Page) : exchange service dataLimit (asking dataLimit page status) =
    { page with outstanding := [] }.success dataLimit
      (((service.statusChangeTimes status 0 dataLimit).map (StatusChange.object · status)).map
        ChartRecord.parsed) (.prepareChartDataByStatus [] status) := rfl

theorem exchange_fitting (hpositive : service.Positive)
    (hfits : (service.changes status).length < dataLimit) (page : Page) :
    exchange service dataLimit (asking dataLimit page status) =
      { page with outstanding := [] }.lastRetrieved dataLimit status (service.stored status) := by
  rw [← length_sorted] at hfits
  rw [exchange_asking, statusChangeTimes_zero hpositive, List.take_of_length_le hfits.le,
    Page.success, List.length_map, List.length_map, if_pos hfits, List.nil_append]
  rfl

structure Missing (status : MessageStatus) (page : Page) : Prop where
  currentOutput : page.currentOutput status = none
  outstanding : ∀ request ∈ page.outstanding,
    ∃ results, request.callback = .prepareChartData results
  chart : ∀ output, page.chart = some output → output status = none

theorem missing_prepareChartData (h : Missing status page) (results : List ChartRecord)
    (minMessageId : Int) :
    Missing status (page.prepareChartData dataLimit results minMessageId) where
  currentOutput := h.currentOutput
  outstanding request hrequest := by
    rcases List.mem_append.1 hrequest with hrequest | hrequest
    · exact h.outstanding request hrequest
    · rw [List.mem_singleton.1 hrequest]
      exact ⟨results, rfl⟩
  chart := h.chart

theorem missing_success (h : Missing status page) (results output : List ChartRecord) :
    Missing status (page.success dataLimit output (.prepareChartData results)) := by
  rw [Page.success]
  split
  · exact ⟨h.currentOutput, h.outstanding, fun _ hchart => Option.some.inj hchart ▸ h.currentOutput⟩
  · split
    · exact missing_prepareChartData h _ _
    · exact h

theorem missing_exchange (h : Missing status page) :
    Missing status (exchange service dataLimit page) := by
  rw [exchange]
  split
  · exact h
  · rename_i request rest hrest
    obtain ⟨results, hcallback⟩ := h.outstanding request (by simp [hrest])
    rw [hcallback]
    have hmissing : Missing status { page with outstanding := rest } :=
      ⟨h.currentOutput, fun later hlater => h.outstanding later (by simp [hrest, hlater]), h.chart⟩
    exact missing_success hmissing _ _

theorem exchange_filling (hpositive : service.Positive)
    (hfills : dataLimit ≤ (service.changes status).length)
    (houtput : page.currentOutput status = none) (hchart : page.chart = none) :
    Missing status (exchange service dataLimit (asking dataLimit page status)) := by
  have hmissing : Missing status { page with outstanding := [] } :=
    ⟨houtput, fun _ h => absurd h List.not_mem_nil, fun _ h => by
      rw [hchart] at h
      cases h⟩
  have hfull : ¬((service.sorted status).take dataLimit).length < dataLimit := by
    rw [List.length_take, length_sorted]
    omega
  rw [exchange_asking, statusChangeTimes_zero hpositive, Page.success, List.length_map,
    List.length_map, if_neg hfull]
  split
  · exact missing_prepareChartData hmissing _ _
  · exact hmissing

theorem chain_ended {answers : Nat} (h : (chain service dataLimit queue answers).outstanding = [])
    (more : Nat) :
    chain service dataLimit queue (answers + more) = chain service dataLimit queue answers := by
  induction more with
  | zero => rfl
  | succ more ih => rw [← Nat.add_assoc, chain, ih, exchange, h]

theorem missing_chain {answers : Nat} (h : Missing status (chain service dataLimit queue answers))
    (more : Nat) : Missing status (chain service dataLimit queue (answers + more)) := by
  induction more with
  | zero => exact h
  | succ more ih => exact missing_exchange ih

theorem not_complete_of_missing {answers : Nat}
    (h : Missing status (chain service dataLimit queue answers)) :
    ¬Complete service dataLimit queue := by
  rintro ⟨ended, output, houtstanding, hchart, hall⟩
  obtain ⟨results, hresults, -⟩ := hall status
  have hlater := missing_chain h ended
  rw [Nat.add_comm, chain_ended houtstanding] at hlater
  have hnone := hlater.chart output hchart
  rw [hresults] at hnone
  cases hnone

/-- The page while the chain runs: the records of some statuses are stored, nothing is drawn. -/
def gathering (queue : Str) (output : Output) : Page := ⟨queue, output, [], none⟩

def noOutput : Output := fun _ => none

def publishedOutput (service : StatisticsService) : Output :=
  Function.update noOutput .published (some (service.stored .published))

def deliveredOutput (service : StatisticsService) : Output :=
  Function.update (publishedOutput service) .delivered (some (service.stored .delivered))

def fullOutput (service : StatisticsService) : Output :=
  Function.update (deliveredOutput service) .acknowledged (some (service.stored .acknowledged))

theorem fullOutput_apply (status : MessageStatus) :
    fullOutput service status = some (service.stored status) := by
  cases status <;> simp [fullOutput, deliveredOutput, publishedOutput]

theorem chain_zero : chain service dataLimit queue 0 =
    asking dataLimit (gathering queue noOutput) .published := rfl

theorem chain_one (hpositive : service.Positive)
    (hpublished : (service.changes .published).length < dataLimit) :
    chain service dataLimit queue 1 =
      asking dataLimit (gathering queue (publishedOutput service)) .delivered := by
  rw [chain, chain_zero, exchange_fitting hpositive hpublished]
  rfl

theorem chain_two (hpositive : service.Positive)
    (hpublished : (service.changes .published).length < dataLimit)
    (hdelivered : (service.changes .delivered).length < dataLimit) :
    chain service dataLimit queue 2 =
      asking dataLimit (gathering queue (deliveredOutput service)) .acknowledged := by
  rw [chain, chain_one hpositive hpublished, exchange_fitting hpositive hdelivered]
  rfl

theorem chain_three (hpositive : service.Positive)
    (hfits : ∀ status, (service.changes status).length < dataLimit) :
    chain service dataLimit queue 3 =
      { gathering queue (fullOutput service) with chart := some (fullOutput service) } := by
  rw [chain, chain_two hpositive (hfits _) (hfits _), exchange_fitting hpositive (hfits _)]
  rfl

theorem fits_of_complete (hpositive : service.Positive) (h : Complete service dataLimit queue) :
    ∀ status, (service.changes status).length < dataLimit := by
  have hpublished : (service.changes .published).length < dataLimit := by
    by_contra hfills
    refine not_complete_of_missing (?_ : Missing .published (chain service dataLimit queue 1)) h
    rw [chain, chain_zero]
    exact exchange_filling hpositive (by omega) rfl rfl
  have hdelivered : (service.changes .delivered).length < dataLimit := by
    by_contra hfills
    refine not_complete_of_missing (?_ : Missing .delivered (chain service dataLimit queue 2)) h
    rw [chain, chain_one hpositive hpublished]
    exact exchange_filling hpositive (by omega) rfl rfl
  have hacknowledged : (service.changes .acknowledged).length < dataLimit := by
    by_contra hfills
    refine not_complete_of_missing
      (?_ : Missing .acknowledged (chain service dataLimit queue 3)) h
    rw [chain, chain_two hpositive hpublished hdelivered]
    exact exchange_filling hpositive (by omega) rfl rfl
  intro status
  cases status with
  | published => exact hpublished
  | delivered => exact hdelivered
  | acknowledged => exact hacknowledged

theorem complete_iff_stored (hpositive : service.Positive)
    (hfits : ∀ status, (service.changes status).length < dataLimit) :
    Complete service dataLimit queue ↔ ∀ status,
      (service.stored status).Perm
        ((service.changes status).map (StatusChange.object · status)) := by
  have hthree := @chain_three service dataLimit queue hpositive hfits
  have hended : (chain service dataLimit queue 3).outstanding = [] := by rw [hthree]; rfl
  constructor
  · rintro ⟨answers, output, houtstanding, hchart, hall⟩ status
    obtain ⟨results, hresults, hperm⟩ := hall status
    rw [← chain_ended houtstanding 3, Nat.add_comm, chain_ended hended, hthree] at hchart
    rw [← Option.some.inj hchart, fullOutput_apply] at hresults
    rwa [Option.some.inj hresults]
  · intro hperm
    refine ⟨3, fullOutput service, hended, by rw [hthree], fun status => ?_⟩
    exact ⟨service.stored status, fullOutput_apply status, hperm status⟩

def StatusChange.rounded (change : StatusChange) : StatusChange :=
  ⟨roundInt change.messageId, roundInt change.time⟩

theorem parsed_object (change : StatusChange) (status : MessageStatus) :
    (change.object status).parsed = change.rounded.object status := by
  cases status <;> rfl

theorem object_injective (status : MessageStatus) :
    Function.Injective (StatusChange.object · status) := by
  rintro ⟨id, time⟩ ⟨id', time'⟩ h
  cases status <;> simpa [StatusChange.object] using h

theorem rounded_rounded (change : StatusChange) : change.rounded.rounded = change.rounded := by
  simp only [StatusChange.rounded, roundInt_roundInt]

theorem stored_perm_iff (status : MessageStatus) :
    (service.stored status).Perm ((service.changes status).map (StatusChange.object · status)) ↔
      ∀ change ∈ service.changes status, change.rounded = change := by
  have hsorted : (service.sorted status).Perm (service.changes status) := List.mergeSort_perm _ _
  have hstored : service.stored status =
      ((service.sorted status).map StatusChange.rounded).map (StatusChange.object · status) := by
    rw [StatisticsService.stored, List.map_map, List.map_map]
    exact List.map_congr_left fun change _ => parsed_object change status
  rw [hstored, List.map_perm_map_iff (object_injective status)]
  constructor
  · intro hperm change hchange
    obtain ⟨other, -, rfl⟩ := List.mem_map.1 (hperm.mem_iff.2 hchange)
    exact rounded_rounded other
  · intro hexact
    have hsame : (service.sorted status).map StatusChange.rounded =
        (service.sorted status).map id :=
      List.map_congr_left fun change hchange => hexact change (hsorted.mem_iff.1 hchange)
    rw [hsame, List.map_id]
    exact hsorted

/-- The chart is complete just when every status has fewer records than a response can hold and
every id and time of a record is a number that JavaScript has. -/
theorem complete_iff (hpositive : service.Positive) : Complete service dataLimit queue ↔
    (∀ status, (service.changes status).length < dataLimit) ∧
      ∀ status, ∀ change ∈ service.changes status,
        roundInt change.messageId = change.messageId ∧ roundInt change.time = change.time := by
  have hexact : ∀ change : StatusChange, change.rounded = change ↔
      roundInt change.messageId = change.messageId ∧ roundInt change.time = change.time := by
    rintro ⟨id, time⟩
    simp [StatusChange.rounded]
  constructor
  · intro h
    have hfits := fits_of_complete hpositive h
    refine ⟨hfits, fun status change hchange => (hexact change).1 ?_⟩
    have hperm := (complete_iff_stored hpositive hfits).1 h status
    exact (stored_perm_iff status).1 hperm change hchange
  · rintro ⟨hfits, hnumbers⟩
    refine (complete_iff_stored hpositive hfits).2 fun status => (stored_perm_iff status).2 ?_
    exact fun change hchange => (hexact change).2 (hnumbers status change hchange)

def StatisticsService.of (changes : MessageStatus → List StatusChange) : StatisticsService :=
  ⟨changes, fun _ _ => []⟩

def oneMessage : StatisticsService := .of fun status =>
  match status with
  | .published => [⟨7, 1000⟩]
  | .delivered => [⟨7, 2000⟩]
  | .acknowledged => [⟨7, 4000⟩]

theorem positive_oneMessage : oneMessage.Positive := by
  intro status
  cases status <;> decide

theorem complete_oneMessage : Complete oneMessage 10000 "orders".toList :=
  (complete_iff positive_oneMessage).2
    ⟨fun status => by cases status <;> decide, fun status => by cases status <;> decide⟩

def published (count : Nat) : StatisticsService := .of fun status =>
  match status with
  | .published => (List.range count).map fun i : Nat => ⟨(i : Int) + 1, 1000⟩
  | _ => []

theorem positive_published (count : Nat) : (published count).Positive := by
  intro status change hchange
  cases status with
  | published =>
    obtain ⟨i, -, rfl⟩ := List.mem_map.1 hchange
    dsimp only
    omega
  | delivered => exact absurd hchange List.not_mem_nil
  | acknowledged => exact absurd hchange List.not_mem_nil

theorem length_published (count : Nat) : ((published count).changes .published).length = count := by
  simp [published, StatisticsService.of]

def largeId : StatisticsService := .of fun status =>
  match status with
  | .published => [⟨2 ^ 53 + 1, 1000⟩]
  | _ => []

theorem not_complete_tenThousand :
    ((published 10000).Positive ∧ ¬Complete (published 10000) 10000 "orders".toList) ∧
      (largeId.Positive ∧ ¬Complete largeId 10000 "orders".toList) := by
  have hlarge : largeId.Positive := by
    intro status
    cases status <;> decide
  refine ⟨⟨positive_published 10000, fun h => ?_⟩, ⟨hlarge, fun h => ?_⟩⟩
  · have hfew := fits_of_complete (positive_published 10000) h .published
    rw [length_published] at hfew
    omega
  · have hfits := fits_of_complete hlarge h
    have hperm := (complete_iff_stored hlarge hfits).1 h .published
    have hsame := (stored_perm_iff _).1 hperm ⟨2 ^ 53 + 1, 1000⟩ (by decide)
    exact absurd hsame (by decide)

end CarbonMessaging.ChartCompleteness
