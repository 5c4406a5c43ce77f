import CarbonMessaging.CountLabel

/-! The controls of the message-status page. Every request carries what they say at the moment it is
sent, and the server counts a duration back from the moment of the request. A choice in one of the
two lists loads the table anew, but `Custom` only shows the form for a range of time, and from then
on the controls may ask for something else than the table shows. -/

namespace CarbonMessaging.StatusFilter

open JavaLang JavaScriptNumbers ConditionalRuns
open MessageStatusPage hiding Action step step_next step_prev
open StatusPaging (Printed ShowsCurrentPage)
open CountLabel (Label LabelledPage countLabelValue LabelDescribes Phase)

inductive Duration where
  | lastMinute | last10Minute | lastHour | last5Hours | lastDay | lastWeek | all | custom
  deriving DecidableEq

inductive CalendarField where
  | MINUTE | HOUR_OF_DAY | DAY_OF_YEAR | WEEK_OF_YEAR | YEAR
  deriving DecidableEq

/-- `minDate` and `maxDate`: the time of the request with `calendar.add(field, amount)` and without,
or two times that were given. -/
inductive TimeRange where
  | untilNow (field : CalendarField) (amount : Int)
  | between (minDate maxDate : Int)
  deriving DecidableEq

/-- The branches in which the ajax processors call `calendar.add`. -/
def Duration.range : Duration → TimeRange
  | .lastMinute => .untilNow .MINUTE (-1)
  | .last10Minute => .untilNow .MINUTE (-10)
  | .lastHour => .untilNow .HOUR_OF_DAY (-1)
  | .last5Hours => .untilNow .HOUR_OF_DAY (-5)
  | .lastDay => .untilNow .DAY_OF_YEAR (-1)
  | .lastWeek => .untilNow .WEEK_OF_YEAR (-1)
  | .all => .untilNow .YEAR (-1)
  | .custom => .untilNow .YEAR (-1)

/-- What a request says besides the page. A time is `none` where it is undefined or not a number;
the value of an option is one that a form body carries as it is. -/
structure Filter where
  selectedQueue : Str
  selectedDuration : Duration
  filteredByTime : Bool
  startTimeMillis : Option Int
  endTimeMillis : Option Int
  deriving DecidableEq

abbrev Query := Str × TimeRange

/-- What a request asks for. There is nothing where `Long.parseLong` fails on one of the times. -/
def Filter.query (filter : Filter) : Option Query :=
  if filter.filteredByTime then do
    let minDate ← filter.startTimeMillis
    let maxDate ← filter.endTimeMillis
    some (filter.selectedQueue, .between minDate maxDate)
  else some (filter.selectedQueue, filter.selectedDuration.range)

/-- The server's calendar, and what the statistics service has at a time for a queue between two
dates. -/
structure Server where
  add : CalendarField → (amount time : Int) → Int
  statuses : (now : Int) → (selectedQueue : Str) → (minDate maxDate : Int) → MessageStore

variable (server : Server) (now : Int)

def TimeRange.dates : TimeRange → Int × Int
  | .untilNow field amount => (server.add field amount now, now)
  | .between minDate maxDate => (minDate, maxDate)

def Server.messages (query : Query) : MessageStore :=
  server.statuses now query.1 (query.2.dates server now).1 (query.2.dates server now).2

def Filter.messages (filter : Filter) : Option MessageStore :=
  filter.query.map (server.messages now)

def Server.Prints : Prop := ∀ now query, Printed (server.messages now query)

def load_message_statuses (filter : Filter) (minMessageId : Option Nat) : Option (List Message) :=
  (filter.messages server now).bind fun store => store.load_message_statuses minMessageId pageLimit

def load_message_statuses_count (filter : Filter) : Option Nat :=
  (filter.messages server now).map CountLabel.load_message_statuses_count

structure FilteredPage where
  page : Page
  asked : List Filter
  counts : List Filter
  countLabel : Option Label
  filter : Filter
  timeFilter : Bool

def FilteredPage.send (page : FilteredPage) (next : Page) : FilteredPage :=
  { page with page := next, asked := page.asked ++ [page.filter] }

def FilteredPage.statusInitializeAndLoad (page : FilteredPage) : FilteredPage :=
  page.send page.page.statusInitializeAndLoad

def FilteredPage.nextPage (page : FilteredPage) : FilteredPage :=
  page.send (page.page.nextPage true)

def FilteredPage.prevPage (page : FilteredPage) : FilteredPage := page.send page.page.prevPage

def FilteredPage.loadMessagesWithDirectFiltering (page : FilteredPage) : FilteredPage :=
  if page.filter.selectedDuration = .custom then { page with timeFilter := true }
  else
    { page with
      filter := { page.filter with filteredByTime := false }
      timeFilter := false }.statusInitializeAndLoad

/-- The two times are those of the form, read as times of UTC. -/
def FilteredPage.loadMessagesForRange (page : FilteredPage) (startTime endTime : Option Int)
    (timezoneOffset : Int) : FilteredPage :=
  let tz := timezoneOffset * 60 * 1000
  { page with
    filter :=
      { page.filter with
        startTimeMillis := startTime.map (· + tz)
        endTimeMillis := endTime.map (· + tz)
        filteredByTime := true } }.statusInitializeAndLoad

def FilteredPage.loadMessageStatusCount (page : FilteredPage) : FilteredPage :=
  { page with counts := page.counts ++ [page.filter] }

/-- The callback of a request for messages. Only `loadTable` asks for the count. -/
def FilteredPage.answered (page : FilteredPage) (index : Nat) (answer : Option (List Message)) :
    FilteredPage :=
  let page := { page with
    page := { page.page with outstanding := page.page.outstanding.eraseIdx index }.callback answer
    asked := page.asked.eraseIdx index }
  if answer.isSome then page.loadMessageStatusCount else page

def FilteredPage.deliver (page : FilteredPage) (index : Nat) : Option FilteredPage :=
  (page.asked[index]?).bind fun filter =>
    (page.page.outstanding[index]?).map fun minMessageId =>
      page.answered index (load_message_statuses server now filter minMessageId)

def FilteredPage.count (page : FilteredPage) (index : Nat) : Option FilteredPage :=
  (page.counts[index]?).map fun filter =>
    { page with
      counts := page.counts.eraseIdx index
      countLabel := ((load_message_statuses_count server now filter).map
        (countLabelValue page.page)).or page.countLabel }

inductive Action where
  | selectQueue (queue : Str)
  | selectDuration (duration : Duration)
  | filter (startTime endTime : Option Int) (timezoneOffset : Int)
  | next | prev
  | deliver (index : Nat) (now : Int)
  | count (index : Nat) (now : Int)
  deriving DecidableEq

def FilteredPage.step (page : FilteredPage) : Action → Option FilteredPage
  | .selectQueue queue =>
    some { page with
      filter := { page.filter with
        selectedQueue := queue } }.loadMessagesWithDirectFiltering
  | .selectDuration duration =>
    some { page with
      filter := { page.filter with
        selectedDuration := duration } }.loadMessagesWithDirectFiltering
  | .filter startTime endTime timezoneOffset =>
    if page.timeFilter then some (page.loadMessagesForRange startTime endTime timezoneOffset)
    else none
  | .next => if page.page.nextDisabled then none else some page.nextPage
  | .prev => if page.page.prevDisabled then none else some page.prevPage
  | .deliver index now => page.deliver server now index
  | .count index now => page.count server now index

def FilteredPage.loads (page : FilteredPage) : Action → Bool
  | .selectQueue _ => page.filter.selectedDuration ≠ .custom
  | .selectDuration duration => duration ≠ .custom
  | .filter .. => true
  | _ => false

/-- The page, what its controls said when the table was last loaded anew, and when that request was
answered. No function of the page reads the last two. -/
structure Session where
  page : FilteredPage
  loaded : Filter
  answeredAt : Option Int

def Session.messages (session : Session) : Option MessageStore :=
  session.answeredAt.bind fun time => session.loaded.messages server time

def FilteredPage.onload (page : FilteredPage) : Session :=
  ⟨page.loadMessagesWithDirectFiltering, page.loadMessagesWithDirectFiltering.filter, none⟩

def Action.answers : Action → Option Int
  | .deliver _ now => some now
  | _ => none

def step (session : Session) (action : Action) : Option Session :=
  (session.page.step server action).map fun page =>
    if session.page.loads action then ⟨page, page.filter, none⟩
    else ⟨page, session.loaded, session.answeredAt.or action.answers⟩

def FilteredPage.Idle (page : FilteredPage) : Prop :=
  page.page.outstanding = [] ∧ page.counts = []

/-- The request is answered from the messages that the table was loaded from, or is the one that
loads it. -/
def Session.Unchanged (session : Session) (filter : Filter) : Prop :=
  session.answeredAt = none ∨ filter.messages server now = session.messages server

/-- The controls are used only after all earlier responses were processed, `Filter` with both times,
and all that is answered about one table is answered from the same messages. -/
def Allowed (session : Session) : Action → Prop
  | .selectQueue _ => session.page.Idle
  | .selectDuration _ => session.page.Idle
  | .filter startTime endTime _ =>
    session.page.Idle ∧ startTime.isSome = true ∧ endTime.isSome = true
  | .next => session.page.Idle
  | .prev => session.page.Idle
  | .deliver index now =>
    ∀ filter ∈ session.page.asked[index]?, session.Unchanged server now filter
  | .count index now =>
    ∀ filter ∈ session.page.counts[index]?, session.Unchanged server now filter

def FilteredPage.labelled (page : FilteredPage) : LabelledPage :=
  ⟨page.page, page.counts.length, page.countLabel⟩

/-- The table is the current page of the messages of the store, and where it has a row, the label
says which of them it shows. -/
structure Shows (store : MessageStore) (page : FilteredPage) : Prop where
  table : ShowsCurrentPage store page.page
  countLabel : page.countLabel = some (countLabelValue page.page store.messages.length)
  described : page.page.table ≠ [] → LabelDescribes store page.labelled

structure Vacant (page : Page) : Prop where
  outstanding : page.outstanding = []
  currentPage : page.currentPage = 1
  prevDisabled : page.prevDisabled = true
  nextDisabled : page.nextDisabled = true
  table : page.table = []

inductive Empty (page : LabelledPage) : Prop
  | waiting (houtstanding : page.page.outstanding = [some 0])
    (hcurrent : page.page.currentPage = 1) (hcounting : page.counting = 0)
  | counting (h : Vacant page.page) (hcounting : page.counting = 1)
  | settled (h : Vacant page.page) (hcounting : page.counting = 0)
    (hlabel : page.countLabel = some .noMessages)

structure Tracks (store : MessageStore) (page : LabelledPage) : Prop where
  empty : store.messages = [] → Empty page
  phase : store.messages ≠ [] → ∃ n, Phase store page n

variable {server now} {store : MessageStore}

theorem pageBehind_of_empty (hnone : store.messages = []) (n : Nat) : store.pageBehind n = [] := by
  rw [MessageStore.pageBehind, hnone, List.drop_nil, List.take_nil]

theorem vacant_received (hnone : store.messages = []) {page : Page}
    (houtstanding : page.outstanding = [some 0]) (hcurrent : page.currentPage = 1) :
    Vacant (page.received store 0 0) where
  outstanding := by
    rw [received_outstanding, houtstanding]
    rfl
  currentPage := (received_currentPage ..).trans hcurrent
  prevDisabled := received_prevDisabled hcurrent ..
  nextDisabled := by
    rw [received_nextDisabled, pageBehind_of_empty hnone]
    rfl
  table := by
    change loadTable ((store.pageBehind 0).map Message.parsed) = []
    rw [pageBehind_of_empty hnone]
    rfl

theorem Empty.vacant_of_idle {page : LabelledPage} (h : Empty page) (hidle : CountLabel.Idle page) :
    Vacant page.page ∧ page.countLabel = some .noMessages := by
  cases h with
  | waiting houtstanding _ _ =>
    exact absurd (houtstanding.symm.trans hidle.1) (List.cons_ne_nil _ _)
  | counting _ hcounting => exact absurd (hcounting.symm.trans hidle.2) Nat.one_ne_zero
  | settled h _ hlabel => exact ⟨h, hlabel⟩

theorem empty_step (hnone : store.messages = []) {page page' : LabelledPage} (h : Empty page)
    {action : CountLabel.Action} (hwaits : CountLabel.Waits page action)
    (hstep : CountLabel.step store page action = some page') : Empty page' := by
  cases action with
  | count =>
    rw [CountLabel.step] at hstep
    split at hstep
    · cases hstep
    · rename_i hsome
      obtain rfl := Option.some.inj hstep
      cases h with
      | waiting _ _ hcounting => exact absurd hcounting hsome
      | settled _ hcounting _ => exact absurd hcounting hsome
      | counting h hcounting =>
        refine .settled h (by dsimp only; rw [hcounting]) ?_
        dsimp only
        rw [countLabelValue, CountLabel.load_message_statuses_count, hnone]
        rfl
  | page action =>
    obtain ⟨next, hnext, rfl⟩ := Option.map_eq_some_iff.1 hstep
    cases action with
    | next =>
      have hvacant := (h.vacant_of_idle hwaits).1
      have henabled := (MessageStatusPage.step_next hnext).1
      exact absurd (hvacant.nextDisabled.symm.trans henabled) (by decide)
    | prev =>
      have hvacant := (h.vacant_of_idle hwaits).1
      have henabled := (MessageStatusPage.step_prev hnext).1
      exact absurd (hvacant.prevDisabled.symm.trans henabled) (by decide)
    | deliver index =>
      obtain ⟨request, hrequest, -⟩ := Option.map_eq_some_iff.1 hnext
      have hsome : page.page.outstanding ≠ [] := by
        intro hnil
        rw [hnil] at hrequest
        cases hrequest
      cases h with
      | counting h _ => exact absurd h.outstanding hsome
      | settled h _ _ => exact absurd h.outstanding hsome
      | waiting houtstanding hcurrent hcounting =>
        obtain rfl := index_of_single houtstanding hrequest
        have hfirst : page.page.outstanding[0]? = some (some 0) := by
          rw [houtstanding]
          rfl
        have hzero : concatenated 0 = store.boundary 0 := concatenated_of_safe (Nat.zero_le _)
        obtain rfl := Option.some.inj ((deliver_printed hzero hfirst).symm.trans hnext)
        refine .counting (vacant_received hnone houtstanding hcurrent) ?_
        dsimp only
        rw [hcounting, CountLabel.countRequests_deliver hzero hfirst]

theorem tracks_step (hprinted : Printed store) {page page' : LabelledPage} (h : Tracks store page)
    {action : CountLabel.Action} (hwaits : CountLabel.Waits page action)
    (hstep : CountLabel.step store page action = some page') : Tracks store page' where
  empty hnone := empty_step hnone (h.empty hnone) hwaits hstep
  phase hne := by
    obtain ⟨n, hphase⟩ := h.phase hne
    exact CountLabel.phase_step hprinted hphase hwaits hstep

theorem tracks_load {page : LabelledPage} (hidle : CountLabel.Idle page) :
    Tracks store page.load where
  empty _ := .waiting (load_outstanding hidle.1) rfl hidle.2
  phase hne := ⟨0, .waiting (CountLabel.waiting_load page.page hidle.1 hne) hidle.2⟩

theorem FilteredPage.Idle.labelled {page : FilteredPage} (h : page.Idle) :
    CountLabel.Idle page.labelled := ⟨h.1, List.length_eq_zero_iff.2 h.2⟩

theorem shows_of_tracks (hprinted : Printed store) {page : FilteredPage}
    (h : Tracks store page.labelled) (hidle : page.Idle) : Shows store page := by
  by_cases hnone : store.messages = []
  · obtain ⟨hvacant, hlabel⟩ := (h.empty hnone).vacant_of_idle hidle.labelled
    refine ⟨⟨0, hvacant.currentPage, ?_, ?_⟩, ?_, fun hrow => absurd hvacant.table hrow⟩
    · rw [pageBehind_of_empty hnone]
      exact hvacant.table
    · rw [pageBehind_of_empty hnone]
      exact congrArg (List.map Row.messageId) hvacant.table
    · rw [countLabelValue, hnone]
      exact hlabel
  · obtain ⟨n, hphase⟩ := h.phase hnone
    have hsettled := hphase.settled_of_idle hidle.labelled
    have htable := hsettled.loaded.table
    have hids : ∀ m ∈ store.pageBehind n, concatenated (round m.messageId) = m.messageId :=
      fun m hm => hprinted m (mem_of_mem_pageBehind hm)
    refine ⟨⟨n, hsettled.loaded.currentPage, htable, ?_⟩, hsettled.countLabel, fun hrow => ?_⟩
    · rw [← List.map_congr_left hids, ← StatusPaging.rows_messageId]
      exact congrArg (List.map Row.messageId) htable
    · refine (CountLabel.labelDescribes_iff hsettled hnone).2 ⟨fun hnil => hrow ?_, hids⟩
      rw [hnil] at htable
      exact htable

variable {page page' : FilteredPage}

theorem step_next (h : page.step server .next = some page') :
    page.page.nextDisabled = false ∧ page' = page.nextPage := by
  rw [FilteredPage.step] at h
  split at h
  · cases h
  · exact ⟨Bool.eq_false_of_not_eq_true ‹_›, (Option.some.inj h).symm⟩

theorem step_prev (h : page.step server .prev = some page') :
    page.page.prevDisabled = false ∧ page' = page.prevPage := by
  rw [FilteredPage.step] at h
  split at h
  · cases h
  · exact ⟨Bool.eq_false_of_not_eq_true ‹_›, (Option.some.inj h).symm⟩

theorem labelled_nextPage (h : page.page.nextDisabled = false) :
    CountLabel.step store page.labelled (.page .next) = some page.nextPage.labelled := by
  rw [CountLabel.step, MessageStatusPage.step]
  change Option.map _ (if page.page.nextDisabled then _ else _) = _
  rw [h]
  rfl

theorem labelled_prevPage (h : page.page.prevDisabled = false) :
    CountLabel.step store page.labelled (.page .prev) = some page.prevPage.labelled := by
  rw [CountLabel.step, MessageStatusPage.step]
  change Option.map _ (if page.page.prevDisabled then _ else _) = _
  rw [h]
  rfl

theorem answered_labelled (page : FilteredPage) (index : Nat) (answer : Option (List Message)) :
    (page.answered index answer).labelled =
      ⟨{ page.page with outstanding := page.page.outstanding.eraseIdx index }.callback answer,
        page.counts.length + if answer.isSome then 1 else 0, page.countLabel⟩ := by
  cases answer with
  | none => rfl
  | some output =>
    change LabelledPage.mk _ (page.counts ++ [page.filter]).length _ = _
    rw [List.length_append]
    rfl

theorem answered_frame (page : FilteredPage) (index : Nat) (answer : Option (List Message)) :
    (page.answered index answer).filter = page.filter ∧
      (page.answered index answer).timeFilter = page.timeFilter ∧
      (page.answered index answer).asked = page.asked.eraseIdx index := by
  cases answer <;> exact ⟨rfl, rfl, rfl⟩

theorem countRequests_eq {page : Page} {index : Nat} {minMessageId : Option Nat}
    (h : page.outstanding[index]? = some minMessageId) :
    CountLabel.countRequests store page (.deliver index) =
      if (store.load_message_statuses minMessageId pageLimit).isSome then 1 else 0 := by
  rw [CountLabel.countRequests, h, Option.bind_some]
  cases store.load_message_statuses minMessageId pageLimit <;> rfl

theorem exists_answered {index : Nat} (h : page.deliver server now index = some page') :
    ∃ answer, page' = page.answered index answer := by
  obtain ⟨filter, -, hrest⟩ := Option.bind_eq_some_iff.1 h
  obtain ⟨minMessageId, -, rfl⟩ := Option.map_eq_some_iff.1 hrest
  exact ⟨_, rfl⟩

theorem labelled_deliver {index : Nat}
    (hmessages : ∀ filter ∈ page.asked[index]?, filter.messages server now = some store)
    (h : page.deliver server now index = some page') :
    CountLabel.step store page.labelled (.page (.deliver index)) = some page'.labelled := by
  obtain ⟨filter, hfilter, hrest⟩ := Option.bind_eq_some_iff.1 h
  obtain ⟨minMessageId, hmin, rfl⟩ := Option.map_eq_some_iff.1 hrest
  rw [answered_labelled, load_message_statuses, hmessages filter hfilter, Option.bind_some,
    CountLabel.step]
  change (page.page.deliver store index).map _ = _
  rw [Page.deliver, hmin, Option.map_some, Option.map_some]
  change some (LabelledPage.mk _ (_ + CountLabel.countRequests _ page.page _) _) = _
  rw [countRequests_eq hmin]
  rfl

theorem labelled_count {index : Nat}
    (hmessages : ∀ filter ∈ page.counts[index]?, filter.messages server now = some store)
    (h : page.count server now index = some page') :
    CountLabel.step store page.labelled .count = some page'.labelled := by
  obtain ⟨filter, hfilter, rfl⟩ := Option.map_eq_some_iff.1 h
  obtain ⟨hindex, -⟩ := List.getElem?_eq_some_iff.1 hfilter
  have hsome : page.labelled.counting ≠ 0 := Nat.ne_zero_of_lt hindex
  rw [CountLabel.step, if_neg hsome, load_message_statuses_count, hmessages filter hfilter]
  change some (LabelledPage.mk _ (page.counts.length - 1) _) =
    some (LabelledPage.mk _ (page.counts.eraseIdx index).length _)
  rw [List.length_eraseIdx_of_lt hindex]
  rfl

/-- The page is one of the messages that its load was or will be answered with. Until then nothing
else is awaited. -/
structure Follows (server : Server) (session : Session) : Prop where
  loaded : session.loaded.query ≠ none
  paired : session.page.asked.length = session.page.page.outstanding.length
  waiting : session.answeredAt = none →
    session.page.asked = [session.loaded] ∧ session.page.counts = []
  tracks : ∀ store, (∀ time ∈ session.answeredAt,
    session.loaded.messages server time = some store) → Tracks store session.page.labelled

structure Selected (session : Session) : Prop where
  form : session.page.timeFilter = true → session.page.filter.selectedDuration = .custom
  loaded : session.page.filter.selectedDuration ≠ .custom →
    session.loaded = session.page.filter ∧ session.page.filter.filteredByTime = false

variable {session session' : Session}

theorem query_of_duration {filter : Filter} (h : filter.filteredByTime = false) :
    filter.query = some (filter.selectedQueue, filter.selectedDuration.range) := by
  rw [Filter.query, h]
  rfl

theorem Follows.asked_of_idle (h : Follows server session) (hidle : session.page.Idle) :
    session.page.asked = [] := by
  rw [← List.length_eq_zero_iff, h.paired, hidle.1]
  rfl

theorem Follows.answered_of_idle (h : Follows server session) (hidle : session.page.Idle) :
    ∃ time, session.answeredAt = some time := by
  cases hanswered : session.answeredAt with
  | some time => exact ⟨time, rfl⟩
  | none =>
    have hasked := (h.waiting hanswered).1
    rw [h.asked_of_idle hidle] at hasked
    cases hasked

theorem Follows.tracks_messages (h : Follows server session)
    (hstore : session.messages server = some store) : Tracks store session.page.labelled := by
  refine h.tracks store fun time htime => ?_
  rwa [Session.messages, htime, Option.bind_some] at hstore

theorem follows_load (hidle : page.Idle) (hasked : page.asked = [])
    (hquery : page.filter.query ≠ none) :
    Follows server ⟨page.statusInitializeAndLoad, page.filter, none⟩ where
  loaded := hquery
  paired := by
    have hsent := load_outstanding hidle.1
    change (page.asked ++ [page.filter]).length =
      page.page.statusInitializeAndLoad.outstanding.length
    rw [hsent, hasked]
    rfl
  waiting _ := by
    refine ⟨?_, hidle.2⟩
    change page.asked ++ [page.filter] = [page.filter]
    rw [hasked, List.nil_append]
  tracks _ _ := tracks_load hidle.labelled

def direct (session : Session) (page : FilteredPage) : Session :=
  if decide (page.filter.selectedDuration ≠ .custom) then
    ⟨page.loadMessagesWithDirectFiltering, page.loadMessagesWithDirectFiltering.filter, none⟩
  else ⟨page.loadMessagesWithDirectFiltering, session.loaded, session.answeredAt.or none⟩

theorem follows_direct (session : Session) (page : FilteredPage) (hidle : page.Idle)
    (hasked : page.asked = []) (h : page.filter.selectedDuration = .custom →
      Follows server ⟨page, session.loaded, session.answeredAt⟩) :
    Follows server (direct session page) := by
  rw [direct, FilteredPage.loadMessagesWithDirectFiltering]
  by_cases hcustom : page.filter.selectedDuration = .custom
  · rw [if_pos hcustom, if_neg (by simp [hcustom]), Option.or_none]
    exact ⟨(h hcustom).loaded, (h hcustom).paired, (h hcustom).waiting, (h hcustom).tracks⟩
  · rw [if_neg hcustom, if_pos (decide_eq_true hcustom)]
    refine follows_load hidle hasked ?_
    rw [query_of_duration rfl]
    exact Option.some_ne_none _

theorem follows_send (hprints : server.Prints) (h : Follows server session)
    (hidle : session.page.Idle)
    {next : Page} (hsent : next.outstanding.length = 1) {action : CountLabel.Action}
    (hwaits : CountLabel.Waits session.page.labelled action)
    (hstep : ∀ store, CountLabel.step store session.page.labelled action =
      some (session.page.send next).labelled) :
    Follows server ⟨session.page.send next, session.loaded, session.answeredAt⟩ where
  loaded := h.loaded
  paired := by
    change (session.page.asked ++ [session.page.filter]).length = next.outstanding.length
    rw [h.asked_of_idle hidle, hsent]
    rfl
  waiting hnone := by
    obtain ⟨time, htime⟩ := h.answered_of_idle hidle
    cases htime.symm.trans hnone
  tracks store hstore := by
    obtain ⟨time, htime⟩ := h.answered_of_idle hidle
    obtain ⟨query, -, rfl⟩ := Option.map_eq_some_iff.1 (hstore time htime)
    exact tracks_step (hprints _ _) (h.tracks _ hstore) hwaits (hstep _)

theorem callback_outstanding (page : Page) (answer : Option (List Message)) :
    (page.callback answer).outstanding = page.outstanding := by
  cases answer with
  | none => rfl
  | some output => exact setEnder_outstanding _ _

theorem printed_of_messages (hprints : server.Prints) {filter : Filter}
    (h : filter.messages server now = some store) : Printed store := by
  obtain ⟨query, -, rfl⟩ := Option.map_eq_some_iff.1 h
  exact hprints now query

theorem follows_deliver (hprints : server.Prints) (h : Follows server session) {index : Nat}
    (hallowed : ∀ filter ∈ session.page.asked[index]?, session.Unchanged server now filter)
    (hdeliver : session.page.deliver server now index = some page') :
    Follows server ⟨page', session.loaded, session.answeredAt.or (some now)⟩ := by
  obtain ⟨filter, hfilter, -⟩ := Option.bind_eq_some_iff.1 hdeliver
  obtain ⟨answer, hanswer⟩ := exists_answered hdeliver
  refine ⟨h.loaded, ?_, fun hnone => ?_, fun store hstore => ?_⟩
  · have hpage := congrArg LabelledPage.page (answered_labelled session.page index answer)
    change (session.page.answered index answer).page = _ at hpage
    change page'.asked.length = page'.page.outstanding.length
    rw [hanswer, (answered_frame session.page index answer).2.2, hpage, callback_outstanding,
      List.length_eraseIdx, List.length_eraseIdx, h.paired]
  · cases hanswered : session.answeredAt <;> simp [hanswered] at hnone
  · have hmessages : filter.messages server now = some store ∧
        Tracks store session.page.labelled := by
      cases hanswered : session.answeredAt with
      | none =>
        -- the answer to the load, which is the only request there is
        have hloads : filter = session.loaded := by
          have hmem := List.mem_of_getElem? hfilter
          rw [(h.waiting hanswered).1] at hmem
          exact List.mem_singleton.1 hmem
        rw [hloads]
        refine ⟨hstore now (by rw [hanswered]; rfl), h.tracks store fun time htime => ?_⟩
        rw [hanswered] at htime
        cases htime
      | some time =>
        have hload := hstore time (by rw [hanswered]; rfl)
        refine ⟨?_, h.tracks store fun time' htime' => ?_⟩
        · rcases hallowed filter hfilter with hnone | hsame
          · cases hnone.symm.trans hanswered
          · rw [hsame, Session.messages, hanswered]
            exact hload
        · rw [hanswered] at htime'
          cases htime'
          exact hload
    refine tracks_step (printed_of_messages hprints hmessages.1) hmessages.2
      (show CountLabel.Waits session.page.labelled (.page (.deliver index)) from trivial)
      (labelled_deliver (fun filter' hfilter' => ?_) hdeliver)
    cases hfilter.symm.trans hfilter'
    exact hmessages.1

theorem follows_count (hprints : server.Prints) (h : Follows server session) {index : Nat}
    (hallowed : ∀ filter ∈ session.page.counts[index]?, session.Unchanged server now filter)
    (hcount : session.page.count server now index = some page') :
    Follows server ⟨page', session.loaded, session.answeredAt⟩ := by
  obtain ⟨filter, hfilter, hpage⟩ := Option.map_eq_some_iff.1 hcount
  obtain ⟨time, htime⟩ : ∃ time, session.answeredAt = some time := by
    cases hanswered : session.answeredAt with
    | some time => exact ⟨time, rfl⟩
    | none =>
      rw [(h.waiting hanswered).2] at hfilter
      cases hfilter
  refine ⟨h.loaded, ?_, fun hnone => ?_, fun store hstore => ?_⟩
  · rw [← hpage]
    exact h.paired
  · cases htime.symm.trans hnone
  · have hload := hstore time htime
    refine tracks_step (printed_of_messages hprints hload) (h.tracks store hstore)
      (show CountLabel.Waits session.page.labelled .count from trivial)
      (labelled_count (fun filter' hfilter' => ?_) hcount)
    rcases hallowed filter' hfilter' with hnone | hsame
    · cases htime.symm.trans hnone
    · rw [hsame, Session.messages, htime]
      exact hload

theorem follows_step (hprints : server.Prints) (h : Follows server session) {action : Action}
    (hallowed : Allowed server session action)
    (hstep : step server session action = some session') : Follows server session' := by
  obtain ⟨page', hpage, rfl⟩ := Option.map_eq_some_iff.1 hstep
  cases action with
  | selectQueue queue =>
    obtain rfl := Option.some.inj hpage
    exact follows_direct session
      { session.page with filter := { session.page.filter with selectedQueue := queue } } hallowed
      (h.asked_of_idle hallowed) fun _ => ⟨h.loaded, h.paired, h.waiting, h.tracks⟩
  | selectDuration duration =>
    obtain rfl := Option.some.inj hpage
    exact follows_direct session
      { session.page with filter := { session.page.filter with selectedDuration := duration } }
      hallowed (h.asked_of_idle hallowed) fun _ => ⟨h.loaded, h.paired, h.waiting, h.tracks⟩
  | filter startTime endTime timezoneOffset =>
    obtain ⟨hidle, hstart, hend⟩ := hallowed
    obtain ⟨start, rfl⟩ := Option.isSome_iff_exists.1 hstart
    obtain ⟨finish, rfl⟩ := Option.isSome_iff_exists.1 hend
    rw [FilteredPage.step] at hpage
    split at hpage
    · obtain rfl := Option.some.inj hpage
      exact follows_load hidle (h.asked_of_idle hidle) (Option.some_ne_none _)
    · cases hpage
  | next =>
    obtain ⟨henabled, rfl⟩ := step_next hpage
    have hidle : session.page.Idle := hallowed
    have hwaits : CountLabel.Waits session.page.labelled (.page .next) := hidle.labelled
    have hsent : (session.page.page.nextPage true).outstanding.length = 1 := by
      change (session.page.page.outstanding ++ [_]).length = 1
      rw [hidle.1]
      rfl
    change Follows server ⟨session.page.nextPage, session.loaded, session.answeredAt.or none⟩
    rw [Option.or_none]
    exact follows_send hprints h hidle hsent hwaits fun _ => labelled_nextPage henabled
  | prev =>
    obtain ⟨henabled, rfl⟩ := step_prev hpage
    have hidle : session.page.Idle := hallowed
    have hwaits : CountLabel.Waits session.page.labelled (.page .prev) := hidle.labelled
    have hsent : session.page.page.prevPage.outstanding.length = 1 := by
      change (session.page.page.outstanding ++ [_]).length = 1
      rw [hidle.1]
      rfl
    change Follows server ⟨session.page.prevPage, session.loaded, session.answeredAt.or none⟩
    rw [Option.or_none]
    exact follows_send hprints h hidle hsent hwaits fun _ => labelled_prevPage henabled
  | deliver index now => exact follows_deliver hprints h hallowed hpage
  | count index now =>
    change Follows server ⟨page', session.loaded, session.answeredAt.or none⟩
    rw [Option.or_none]
    exact follows_count hprints h hallowed hpage

theorem follows_reached (hprints : server.Prints) {start : FilteredPage} (hstart : start.Idle)
    (hasked : start.asked = []) (hduration : start.filter.selectedDuration ≠ .custom)
    (h : Reached (step server) (Allowed server) start.onload session) :
    Follows server session := by
  refine h.invariant (I := Follows server) ?_ fun _ _ _ hs hallowed hstep =>
    follows_step hprints hs hallowed hstep
  have hload : Follows server (direct ⟨start, start.filter, none⟩ start) :=
    follows_direct _ start hstart hasked fun hcustom => absurd hcustom hduration
  rwa [direct, if_pos (decide_eq_true hduration)] at hload

theorem selected_direct (session : Session) (page : FilteredPage) :
    Selected (direct session page) := by
  rw [direct, FilteredPage.loadMessagesWithDirectFiltering]
  by_cases hcustom : page.filter.selectedDuration = .custom
  · rw [if_pos hcustom, if_neg (by simp [hcustom])]
    exact ⟨fun _ => hcustom, fun hother => absurd hcustom hother⟩
  · rw [if_neg hcustom, if_pos (decide_eq_true hcustom)]
    exact ⟨nofun, fun _ => ⟨rfl, rfl⟩⟩

theorem selected_step (h : Selected session) {action : Action}
    (hstep : step server session action = some session') : Selected session' := by
  obtain ⟨page', hpage, rfl⟩ := Option.map_eq_some_iff.1 hstep
  cases action with
  | selectQueue queue =>
    obtain rfl := Option.some.inj hpage
    exact selected_direct session
      { session.page with filter := { session.page.filter with selectedQueue := queue } }
  | selectDuration duration =>
    obtain rfl := Option.some.inj hpage
    exact selected_direct session
      { session.page with filter := { session.page.filter with selectedDuration := duration } }
  | filter startTime endTime timezoneOffset =>
    rw [FilteredPage.step] at hpage
    split at hpage
    · rename_i hshown
      obtain rfl := Option.some.inj hpage
      have hcustom := h.form hshown
      exact ⟨fun _ => hcustom, fun hother => absurd hcustom hother⟩
    · cases hpage
  | next =>
    obtain ⟨-, rfl⟩ := step_next hpage
    exact ⟨h.form, h.loaded⟩
  | prev =>
    obtain ⟨-, rfl⟩ := step_prev hpage
    exact ⟨h.form, h.loaded⟩
  | deliver index now =>
    obtain ⟨answer, rfl⟩ := exists_answered hpage
    obtain ⟨hfilter, hform, -⟩ := answered_frame session.page index answer
    refine ⟨fun hshown => ?_, fun hother => ?_⟩
    · change (session.page.answered index answer).filter.selectedDuration = _
      rw [hfilter]
      exact h.form (hform.symm.trans hshown)
    · change (session.page.answered index answer).filter.selectedDuration ≠ _ at hother
      change session.loaded = (session.page.answered index answer).filter ∧
        (session.page.answered index answer).filter.filteredByTime = false
      rw [hfilter] at hother ⊢
      exact h.loaded hother
  | count index now =>
    obtain ⟨filter, -, rfl⟩ := Option.map_eq_some_iff.1 hpage
    exact ⟨h.form, h.loaded⟩

instance (page : FilteredPage) : Decidable page.Idle :=
  inferInstanceAs (Decidable (page.page.outstanding = [] ∧ page.counts = []))

instance : DecidableEq MessageStore := fun store other =>
  decidable_of_iff (store.messages = other.messages)
    ⟨by cases store; cases other; rintro rfl; rfl, congrArg MessageStore.messages⟩

instance (session : Session) (filter : Filter) : Decidable (session.Unchanged server now filter) :=
  inferInstanceAs (Decidable (_ ∨ _))

instance decidableAllowed (session : Session) :
    ∀ action, Decidable (Allowed server session action)
  | .selectQueue _ | .selectDuration _ | .next | .prev =>
    inferInstanceAs (Decidable session.page.Idle)
  | .filter startTime endTime _ =>
    inferInstanceAs (Decidable (session.page.Idle ∧
      startTime.isSome = true ∧ endTime.isSome = true))
  | .deliver index now =>
    inferInstanceAs (Decidable (∀ filter ∈ session.page.asked[index]?,
      session.Unchanged server now filter))
  | .count index now =>
    inferInstanceAs (Decidable (∀ filter ∈ session.page.counts[index]?,
      session.Unchanged server now filter))

def CalendarField.millis : CalendarField → Int
  | .MINUTE => 60000
  | .HOUR_OF_DAY => 3600000
  | .DAY_OF_YEAR => 86400000
  | .WEEK_OF_YEAR => 604800000
  | .YEAR => 31536000000

/-- A service that recorded 101 messages half a second apart, the last 51 of them for one queue. -/
def everyHalfSecond : Server where
  add field amount time := time + amount * field.millis
  statuses _ selectedQueue minDate maxDate :=
    { messages := OverlappingPages.numbered.messages.filter fun m =>
        (selectedQueue = "All".toList ∨ 50 < m.messageId) ∧
          minDate ≤ 500 * m.messageId ∧ 500 * m.messageId ≤ maxDate
      ascending := OverlappingPages.numbered.ascending.filter _
      positive m hm := OverlappingPages.numbered.positive m (List.mem_of_mem_filter hm)
      long m hm := OverlappingPages.numbered.long m (List.mem_of_mem_filter hm) }

def opened : FilteredPage :=
  ⟨OverlappingPages.fresh, [], [], none, ⟨"All".toList, .lastMinute, false, none, none⟩, false⟩

theorem everyHalfSecond_prints : everyHalfSecond.Prints := by
  intro now query m hm
  obtain ⟨messageId, hmem, rfl⟩ := List.mem_map.1 (List.mem_of_mem_filter hm)
  have hsafe : messageId ≤ MAX_SAFE_INTEGER := (List.mem_range'_1.1 hmem).2.le.trans (by decide)
  rw [round_of_safe hsafe, concatenated_of_safe hsafe]

def filtering : List Action :=
  [.deliver 0 50500, .count 0 50600, .selectDuration .custom,
    .filter (some (-3600000)) (some (-3500000)) 60, .deliver 0 60000, .count 0 60500, .next,
    .deliver 0 90000, .count 0 95000]

def filtered : Session :=
  (run (step everyHalfSecond) filtering opened.onload).getD opened.onload

theorem filtered_reached :
    Reached (step everyHalfSecond) (Allowed everyHalfSecond) opened.onload filtered :=
  reached_of_run (rfl : run (step everyHalfSecond) filtering opened.onload = some filtered)
    (by decide)

end CarbonMessaging.StatusFilter
