import CarbonMessaging.ConditionalRuns
import CarbonMessaging.MessageRatePage

/-! Changes of the queue selection while requests are outstanding. Every chain of requests writes
the same `currentOutput`, and each of its later requests asks for the queue selected by then. A
place of `currentOutput` is right in the end when a request that still has to pass it asks for the
selected queue. -/

namespace CarbonMessaging.ChartSelection

open JavaLang MessageRatePage ConditionalRuns

inductive Action where
  | select (queue : Str)
  | deliver (index : Nat) (response : List ChartRecord)
  deriving DecidableEq

variable (dataLimit : Nat)

def step (page : Page) : Action → Option Page
  | .select queue => some ({ page with selectedQueue := queue }.loadGraphData dataLimit)
  | .deliver index response => page.deliver dataLimit index response

def status? (request : Request) : Option MessageStatus :=
  match request.callback with
  | .prepareChartData _ => none
  | .prepareChartDataByStatus _ status => some status

def rank : MessageStatus → Nat
  | .published => 0
  | .delivered => 1
  | .acknowledged => 2

/-- Responses are shorter than `dataLimit` and hold what the service may have for the queue and the
status asked for. -/
def Answered (serves : Str → MessageStatus → List ChartRecord → Prop) (page : Page) :
    Action → Prop
  | .select _ => True
  | .deliver index response => ∀ request ∈ page.outstanding[index]?, response.length < dataLimit ∧
      ∀ status ∈ status? request, serves request.selectedQueue status response

def Repairs (page : Page) (status : MessageStatus) (request : Request) : Prop :=
  request.selectedQueue = page.selectedQueue ∧
    ∃ other ∈ status? request, rank other ≤ rank status

/-- A response for a queue that is not selected any more comes only while a request for the
selected queue will still write the same place. -/
def Harmless (page : Page) : Action → Prop
  | .select _ => True
  | .deliver index _ => ∀ request ∈ page.outstanding[index]?, ∀ status ∈ status? request,
      request.selectedQueue = page.selectedQueue ∨
        ∃ other ∈ page.outstanding, Repairs page status other

/-- When nothing is outstanding, the chart was drawn from records of the selected queue. -/
def ShowsSelection (serves : Str → MessageStatus → List ChartRecord → Prop) (page : Page) : Prop :=
  page.outstanding = [] → ∃ output, page.chart = some output ∧
    ∀ status, ∃ response, output status = some (response.map ChartRecord.parsed) ∧
      serves page.selectedQueue status response

def following : MessageStatus → Option MessageStatus
  | .published => some .delivered
  | .delivered => some .acknowledged
  | .acknowledged => none

theorem following_of_lt {status later : MessageStatus} (h : rank status < rank later) :
    ∃ next, following status = some next ∧ rank next ≤ rank later := by
  cases status <;> cases later <;> simp_all [following, rank]

theorem eq_of_rank_eq {status other : MessageStatus} (h : rank status = rank other) :
    status = other := by
  cases status <;> cases other <;> simp_all [rank]

variable {dataLimit}

def requestFor (dataLimit : Nat) (page : Page) (status : MessageStatus) : Request :=
  ⟨page.selectedQueue, 0, dataLimit, .prepareChartDataByStatus [] status⟩

theorem lastRetrieved_outstanding (page : Page) (status : MessageStatus)
    (results : List ChartRecord) :
    (page.lastRetrieved dataLimit status results).outstanding =
      page.outstanding ++ (following status).toList.map (requestFor dataLimit page) := by
  cases status
  · rfl
  · rfl
  · exact (List.append_nil _).symm

@[simp] theorem lastRetrieved_selectedQueue (page : Page) (status : MessageStatus)
    (results : List ChartRecord) :
    (page.lastRetrieved dataLimit status results).selectedQueue = page.selectedQueue := by
  cases status <;> rfl

@[simp] theorem lastRetrieved_currentOutput (page : Page) (status : MessageStatus)
    (results : List ChartRecord) :
    (page.lastRetrieved dataLimit status results).currentOutput =
      Function.update page.currentOutput status (some results) := by
  cases status <;> rfl

theorem lastRetrieved_chart {page : Page} {status : MessageStatus} {results : List ChartRecord}
    (h : (page.lastRetrieved dataLimit status results).outstanding = []) :
    (page.lastRetrieved dataLimit status results).chart =
      some (page.lastRetrieved dataLimit status results).currentOutput := by
  rw [lastRetrieved_outstanding] at h
  cases status
  · simp [following] at h
  · simp [following] at h
  · rfl

theorem mem_or_eq_of_getElem? {α : Type} {l : List α} {index : Nat} {a b : α}
    (ha : l[index]? = some a) (hb : b ∈ l) : b = a ∨ b ∈ l.eraseIdx index := by
  obtain ⟨j, hj⟩ := List.mem_iff_getElem?.1 hb
  by_cases hindex : j = index
  · rw [hindex, ha] at hj
    exact .inl (Option.some.inj hj).symm
  · exact .inr (List.mem_eraseIdx_iff_getElem?.2 ⟨j, hindex, hj⟩)

variable {serves : Str → MessageStatus → List ChartRecord → Prop} {page page' : Page}

structure Inv (serves : Str → MessageStatus → List ChartRecord → Prop) (page : Page) : Prop where
  requests : ∀ request ∈ page.outstanding,
    ∃ status, request.callback = .prepareChartDataByStatus [] status
  places : ∀ status, (∃ request ∈ page.outstanding, Repairs page status request) ∨
    ∃ response, page.currentOutput status = some (response.map ChartRecord.parsed) ∧
      serves page.selectedQueue status response
  drawn : page.outstanding = [] → page.chart = some page.currentOutput

theorem inv_loadGraphData
    (h : ∀ request ∈ page.outstanding,
      ∃ status, request.callback = .prepareChartDataByStatus [] status) :
    Inv serves (page.loadGraphData dataLimit) where
  requests request hrequest := by
    rcases List.mem_append.1 hrequest with hrequest | hrequest
    · exact h request hrequest
    · rw [List.mem_singleton.1 hrequest]
      exact ⟨.published, rfl⟩
  places status := by
    refine .inl ⟨requestFor dataLimit page .published, ?_, rfl, .published, rfl, Nat.zero_le _⟩
    exact List.mem_append_right _ List.mem_cons_self
  drawn hnone := absurd hnone (List.append_ne_nil_of_right_ne_nil _ (List.cons_ne_nil _ _))

theorem deliver_eq {index : Nat} {request : Request} {status : MessageStatus}
    {response : List ChartRecord} (hrequest : page.outstanding[index]? = some request)
    (hcallback : request.callback = .prepareChartDataByStatus [] status)
    (hshort : response.length < dataLimit) :
    page.deliver dataLimit index response =
      some ({ page with outstanding := page.outstanding.eraseIdx index }.lastRetrieved dataLimit
        status (response.map ChartRecord.parsed)) := by
  rw [Page.deliver, hrequest, Option.map_some, hcallback, Page.success, List.length_map,
    if_pos hshort, List.nil_append]

theorem inv_deliver (h : Inv serves page) {index : Nat} {request : Request}
    {status : MessageStatus} {response : List ChartRecord}
    (hrequest : page.outstanding[index]? = some request)
    (hcallback : request.callback = .prepareChartDataByStatus [] status)
    (hserves : serves request.selectedQueue status response)
    (hharmless : request.selectedQueue = page.selectedQueue ∨
      ∃ other ∈ page.outstanding, Repairs page status other) :
    Inv serves ({ page with outstanding := page.outstanding.eraseIdx index }.lastRetrieved
      dataLimit status (response.map ChartRecord.parsed)) := by
  have hstatus : status? request = some status := by rw [status?, hcallback]
  -- A request that stays outstanding still repairs what it repaired.
  have hkept : ∀ place, ∀ other ∈ page.outstanding, other ≠ request → Repairs page place other →
      ∃ other ∈ page.outstanding.eraseIdx index ++
        (following status).toList.map (requestFor dataLimit page), Repairs page place other := by
    intro place other hother hne hrepairs
    have hrest := (mem_or_eq_of_getElem? hrequest hother).resolve_left hne
    exact ⟨other, List.mem_append_left _ hrest, hrepairs⟩
  have hstored : request.selectedQueue = page.selectedQueue →
      serves page.selectedQueue status response := fun hsame => hsame ▸ hserves
  refine ⟨?_, fun place => ?_, lastRetrieved_chart⟩
  · rw [lastRetrieved_outstanding]
    intro other hother
    rcases List.mem_append.1 hother with hother | hother
    · exact h.requests other (List.mem_of_mem_eraseIdx hother)
    · obtain ⟨next, -, rfl⟩ := List.mem_map.1 hother
      exact ⟨next, rfl⟩
  · rw [lastRetrieved_outstanding, lastRetrieved_currentOutput, lastRetrieved_selectedQueue]
    simp only [Repairs, lastRetrieved_selectedQueue]
    by_cases hplace : place = status
    · subst hplace
      rw [Function.update_self]
      rcases hharmless with hsame | ⟨other, hother, hrepairs⟩
      · exact .inr ⟨response, rfl, hstored hsame⟩
      · by_cases hself : other = request
        · exact .inr ⟨response, rfl, hstored (hself ▸ hrepairs.1)⟩
        · exact .inl (hkept place other hother hself hrepairs)
    · rw [Function.update_of_ne hplace]
      rcases h.places place with ⟨other, hother, hrepairs⟩ | hright
      · by_cases hself : other = request
        · -- The next request of this chain takes over from the one that was answered.
          obtain ⟨hsame, earlier, hearlier, hrank⟩ := hself ▸ hrepairs
          cases hstatus.symm.trans hearlier
          have hlt : rank status < rank place :=
            lt_of_le_of_ne hrank fun heq => hplace (eq_of_rank_eq heq).symm
          obtain ⟨next, hnext, hnextrank⟩ := following_of_lt hlt
          refine .inl ⟨requestFor dataLimit page next, ?_, rfl, next, rfl, hnextrank⟩
          exact List.mem_append_right _ (List.mem_map.2 ⟨next, Option.mem_toList.2 hnext, rfl⟩)
        · exact .inl (hkept place other hother hself hrepairs)
      · exact .inr hright

theorem inv_step (h : Inv serves page) {action : Action}
    (hallowed : Answered dataLimit serves page action ∧ Harmless page action)
    (hstep : step dataLimit page action = some page') : Inv serves page' := by
  cases action with
  | select queue =>
    cases hstep
    exact inv_loadGraphData h.requests
  | deliver index response =>
    cases hrequest : page.outstanding[index]? with
    | none =>
      rw [step, Page.deliver, hrequest] at hstep
      cases hstep
    | some request =>
      obtain ⟨status, hcallback⟩ := h.requests request (List.mem_of_getElem? hrequest)
      have hstatus : status ∈ status? request := by rw [status?, hcallback]; rfl
      obtain ⟨hshort, hserves⟩ := hallowed.1 request hrequest
      rw [step, deliver_eq hrequest hcallback hshort] at hstep
      cases hstep
      exact inv_deliver h hrequest hcallback (hserves status hstatus)
        (hallowed.2 request hrequest status hstatus)

theorem showsSelection_of_inv (h : Inv serves page) : ShowsSelection serves page := by
  intro hnone
  refine ⟨page.currentOutput, h.drawn hnone, fun status => (h.places status).resolve_left ?_⟩
  rintro ⟨request, hrequest, -⟩
  rw [hnone] at hrequest
  cases hrequest

/-- In a run all of whose responses are harmless, the chart shows the selected queue whenever no
request is outstanding. -/
theorem showsSelection_of_harmless {queue : Str}
    (h : Reached (step dataLimit)
      (fun page action => Answered dataLimit serves page action ∧ Harmless page action)
      (Page.opened dataLimit queue) page) : ShowsSelection serves page := by
  refine showsSelection_of_inv (h.invariant ?_ ?_)
  · exact inv_loadGraphData fun _ hrequest => absurd hrequest List.not_mem_nil
  · intro page action page' hinv hallowed hstep
    exact inv_step hinv hallowed hstep

def published (queue : Str) : List ChartRecord := [⟨queue.length, some 1000, none, none⟩]

def oneEach (queue : Str) (status : MessageStatus) (response : List ChartRecord) : Prop :=
  response = if status = .published then published queue else []

instance (queue : Str) (status : MessageStatus) (response : List ChartRecord) :
    Decidable (oneEach queue status response) := inferInstanceAs (Decidable (_ = _))

instance (page : Page) : ∀ action, Decidable (Answered 10000 oneEach page action)
  | .select _ => isTrue trivial
  | .deliver index response => inferInstanceAs (Decidable (∀ request ∈ page.outstanding[index]?,
      response.length < 10000 ∧
        ∀ status ∈ status? request, oneEach request.selectedQueue status response))

instance (page : Page) (status : MessageStatus) (request : Request) :
    Decidable (Repairs page status request) := inferInstanceAs (Decidable (_ ∧ _))

instance (page : Page) : ∀ action, Decidable (Harmless page action)
  | .select _ => isTrue trivial
  | .deliver index _ => inferInstanceAs (Decidable (∀ request ∈ page.outstanding[index]?,
      ∀ status ∈ status? request, request.selectedQueue = page.selectedQueue ∨
        ∃ other ∈ page.outstanding, Repairs page status other))

def inOrder : List Action :=
  [.select "bb".toList, .deliver 0 (published "a".toList), .deliver 0 (published "bb".toList),
    .deliver 0 [], .deliver 0 [], .deliver 0 [], .deliver 0 []]

def overtaken : List Action :=
  [.select "bb".toList, .deliver 1 (published "bb".toList), .deliver 0 (published "a".toList),
    .deliver 0 [], .deliver 0 [], .deliver 0 [], .deliver 0 []]

theorem showsSelection_inOrder : ∃ page, run (step 10000) inOrder (Page.opened 10000 "a".toList) =
    some page ∧ page.outstanding = [] ∧ ShowsSelection oneEach page := by
  have hrun : (run (step 10000) inOrder (Page.opened 10000 "a".toList)).map Page.outstanding =
      some [] := by decide
  obtain ⟨page, hpage, hnone⟩ := Option.map_eq_some_iff.1 hrun
  exact ⟨page, hpage, hnone, showsSelection_of_harmless (reached_of_run hpage (by decide))⟩

theorem not_showsSelection_overtaken : ∃ page,
    Reached (step 10000) (Answered 10000 oneEach) (Page.opened 10000 "a".toList) page ∧
      ¬ShowsSelection oneEach page := by
  have hrun : (run (step 10000) overtaken (Page.opened 10000 "a".toList)).map
      (fun page => (page.outstanding, page.selectedQueue,
        page.chart.map fun output => output .published)) =
      some ([], "bb".toList, some (some (published "a".toList))) := by decide
  obtain ⟨page, hpage, hseen⟩ := Option.map_eq_some_iff.1 hrun
  refine ⟨page, reached_of_run hpage (by decide), fun hshows => ?_⟩
  have hnone : page.outstanding = [] := congrArg Prod.fst hseen
  have hqueue : page.selectedQueue = "bb".toList := congrArg (fun seen => seen.2.1) hseen
  have hdrawn : page.chart.map (fun output => output .published) =
      some (some (published "a".toList)) := congrArg (fun seen => seen.2.2) hseen
  obtain ⟨output, hchart, hright⟩ := hshows hnone
  obtain ⟨response, hresponse, hserves⟩ := hright .published
  rw [hchart, Option.map_some, hresponse, Option.some_inj, Option.some_inj] at hdrawn
  -- The response for `bb` starts with the message of number 2, the one drawn with number 1.
  rw [hqueue, oneEach, if_pos rfl] at hserves
  rw [hserves] at hdrawn
  revert hdrawn
  decide

end CarbonMessaging.ChartSelection
