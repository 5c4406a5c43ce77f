import CarbonMessaging.ConditionalRuns
import CarbonMessaging.MessageRatePage

/-! The message-status page: the part of `stats.js` that pages through the messages of a queue. The
ids of the last messages of the pages stand in the sparse array `pageEnder`, which the callback of
a response writes under the page number of that moment. -/

namespace CarbonMessaging.MessageStatusPage

open JavaLang JavaScriptNumbers
open MessageRatePage (MessageStatus)

def LONG_MAX_VALUE : Nat := 2 ^ 63 - 1

def pageLimit : Nat := 100

structure Message where
  messageId : Nat
  queue_name : Str
  published : Option Int
  delivered : Option Int
  acknowledged : Option Int
  deriving DecidableEq

def Message.parsed (m : Message) : Message :=
  ⟨round m.messageId, m.queue_name, m.published.map roundInt, m.delivered.map roundInt,
    m.acknowledged.map roundInt⟩

/-- A row of the table. `Not Delivered` and `Not Acknowledged` are times of `none`. -/
structure Row where
  messageId : Nat
  queue_name : Str
  messageStatus : MessageStatus
  backgroundColor : Str
  publishedTime : Option Int
  deliverTime : Option Int
  acknowledgedTime : Option Int
  deriving DecidableEq

def Message.row (obj : Message) : Row :=
  let deliveredTime := obj.delivered.filter (0 < ·)
  let acknowledgedTime := obj.acknowledged.filter (0 < ·)
  let messageStatus : MessageStatus :=
    if acknowledgedTime.isSome then .acknowledged
    else if deliveredTime.isSome then .delivered
    else .published
  let backgroundColor :=
    match messageStatus with
    | .published => "#5fb503"
    | .delivered => "#FFA500"
    | .acknowledged => "#00FFFF"
  ⟨concatenated obj.messageId, obj.queue_name, messageStatus, backgroundColor.toList,
    obj.published, deliveredTime, acknowledgedTime⟩

@[simp] theorem parsed_messageId (m : Message) : m.parsed.messageId = round m.messageId := rfl

@[simp] theorem row_messageId (m : Message) : m.row.messageId = concatenated m.messageId := rfl

/-- From the last object to the first, each one becomes the first row. -/
def loadTable (onGoingMessageStatus : List Message) : List Row :=
  onGoingMessageStatus.foldr (fun obj rows => obj.row :: rows) []

/-- The variables of the page, its two buttons and its table. A request is its `minMessageId`,
which is undefined where `pageEnder` was read at an index that was never written. -/
structure Page where
  currentPage : Int
  currentPageCount : Nat
  pageEnder : Int → Option Nat
  prevDisabled : Bool
  nextDisabled : Bool
  outstanding : List (Option Nat)
  table : List Row

def Page.initialisePaging (page : Page) : Page :=
  { page with
    currentPage := 1
    currentPageCount := 0
    pageEnder := Function.update (Function.update (fun _ => none) 0 (some 0)) 1 (some 0)
    prevDisabled := true }

def Page.loadMessagesForPage (page : Page) (minMessageId : Option Nat) : Page :=
  { page with outstanding := page.outstanding ++ [minMessageId] }

def Page.nextPage (page : Page) (isMovingToNextPage : Bool) : Page :=
  let page := { page with prevDisabled := false }.loadMessagesForPage
    (page.pageEnder page.currentPage)
  if isMovingToNextPage then { page with currentPage := page.currentPage + 1 } else page

def Page.prevPage (page : Page) : Page :=
  let page := { page with nextDisabled := false }.loadMessagesForPage
    (page.pageEnder (page.currentPage - 2))
  { page with currentPage := page.currentPage - 1 }

def Page.statusInitializeAndLoad (page : Page) : Page := page.initialisePaging.nextPage false

def Page.setEnder (page : Page) (output : List Message) : Page :=
  match output.getLast? with
  | some last =>
    { page with
      pageEnder := Function.update page.pageEnder page.currentPage (some last.messageId)
      currentPageCount := output.length }
  | none => page

def Page.success (page : Page) (output : List Message) : Page :=
  { page.setEnder output with
    prevDisabled := page.prevDisabled || page.currentPage == 1
    nextDisabled := output.length < pageLimit
    table := loadTable output }

/-- The messages of the statistics service for the queue and the time range that are selected. The
ids are positive `Long`s. -/
structure MessageStore where
  messages : List Message
  ascending : messages.Pairwise fun a b => a.messageId < b.messageId
  positive : ∀ m ∈ messages, 0 < m.messageId
  long : ∀ m ∈ messages, m.messageId ≤ LONG_MAX_VALUE

/-- `load_message_statuses_ajaxprocessor.jsp`. It does not complete when `Long.parseLong` fails on
the text of `minMessageId`. -/
def MessageStore.load_message_statuses (store : MessageStore) (minMessageId : Option Nat)
    (limit : Nat) : Option (List Message) :=
  minMessageId.bind fun x =>
    if concatenated x ≤ LONG_MAX_VALUE then
      some ((store.messages.filter fun m => concatenated x < m.messageId).take limit)
    else none

/-- The failure callback only shows an alert. -/
def Page.callback (page : Page) : Option (List Message) → Page
  | some output => page.success (output.map Message.parsed)
  | none => page

def Page.deliver (store : MessageStore) (page : Page) (index : Nat) : Option Page :=
  (page.outstanding[index]?).map fun minMessageId =>
    { page with outstanding := page.outstanding.eraseIdx index }.callback
      (store.load_message_statuses minMessageId pageLimit)

inductive Action where
  | next | prev
  | deliver (index : Nat)
  deriving DecidableEq

def step (store : MessageStore) (page : Page) : Action → Option Page
  | .next => if page.nextDisabled then none else some (page.nextPage true)
  | .prev => if page.prevDisabled then none else some page.prevPage
  | .deliver index => page.deliver store index

def MessageStore.pageBehind (store : MessageStore) (n : Nat) : List Message :=
  (store.messages.drop (pageLimit * n)).take pageLimit

/-- The last id of the first `n` pages, 0 for no page. -/
def MessageStore.boundary (store : MessageStore) (n : Nat) : Nat :=
  ((store.messages.take (pageLimit * n)).getLast?.map Message.messageId).getD 0

/-- JavaScript holds and prints the last id of every page as it is. -/
def MessageStore.Exact (store : MessageStore) : Prop :=
  ∀ n, ∀ last ∈ (store.pageBehind n).getLast?,
    round last.messageId = last.messageId ∧ concatenated last.messageId = last.messageId

variable {store : MessageStore}

@[simp] theorem boundary_zero : store.boundary 0 = 0 := rfl

theorem take_succ_pages (n : Nat) : store.messages.take (pageLimit * (n + 1)) =
    store.messages.take (pageLimit * n) ++ store.pageBehind n := by
  rw [Nat.mul_succ, List.take_add]
  rfl

theorem boundary_succ {n : Nat} {last : Message} (h : last ∈ (store.pageBehind n).getLast?) :
    store.boundary (n + 1) = last.messageId := by
  rw [MessageStore.boundary, take_succ_pages, List.getLast?_append, Option.mem_def.1 h]
  rfl

theorem le_boundary {n : Nat} {m : Message} (h : m ∈ store.messages.take (pageLimit * n)) :
    m.messageId ≤ store.boundary n := by
  rw [MessageStore.boundary]
  cases hlast : (store.messages.take (pageLimit * n)).getLast? with
  | none =>
    rw [List.getLast?_eq_none_iff.1 hlast] at h
    cases h
  | some last =>
    obtain ⟨before, hbefore⟩ := List.getLast?_eq_some_iff.1 hlast
    have hfirst := store.ascending.take (i := pageLimit * n)
    rw [hbefore] at h hfirst
    rcases List.mem_append.1 h with hm | hm
    · exact ((List.pairwise_append.1 hfirst).2.2 m hm last List.mem_cons_self).le
    · rw [List.mem_singleton.1 hm]
      exact le_rfl

theorem boundary_lt {n : Nat} {m : Message} (h : m ∈ store.messages.drop (pageLimit * n)) :
    store.boundary n < m.messageId := by
  rw [MessageStore.boundary]
  cases hlast : (store.messages.take (pageLimit * n)).getLast? with
  | none => exact store.positive m (List.mem_of_mem_drop h)
  | some last =>
    have hsplit := store.ascending
    rw [← List.take_append_drop (pageLimit * n) store.messages, List.pairwise_append] at hsplit
    exact hsplit.2.2 last (List.mem_of_getLast? hlast) m h

theorem boundary_succ_of_nil {n : Nat} (h : store.pageBehind n = []) :
    store.boundary (n + 1) = store.boundary n := by
  rw [MessageStore.boundary, take_succ_pages, h, List.append_nil, MessageStore.boundary]

theorem filter_boundary (n : Nat) :
    (store.messages.filter fun m => store.boundary n < m.messageId) =
      store.messages.drop (pageLimit * n) := by
  have hlow : ((store.messages.take (pageLimit * n)).filter
      fun m => store.boundary n < m.messageId) = [] :=
    List.filter_eq_nil_iff.2 fun m hm hlt =>
      Nat.not_lt.2 (le_boundary hm) (of_decide_eq_true hlt)
  have hhigh : ((store.messages.drop (pageLimit * n)).filter
      fun m => store.boundary n < m.messageId) = store.messages.drop (pageLimit * n) :=
    List.filter_eq_self.2 fun m hm => decide_eq_true (boundary_lt hm)
  calc (store.messages.filter fun m => store.boundary n < m.messageId)
      = ((store.messages.take (pageLimit * n) ++ store.messages.drop (pageLimit * n)).filter
          fun m => store.boundary n < m.messageId) := by rw [List.take_append_drop]
    _ = store.messages.drop (pageLimit * n) := by
      rw [List.filter_append, hlow, hhigh, List.nil_append]

theorem boundary_cases (n : Nat) : store.boundary n = 0 ∨
    ∃ k, ∃ last ∈ (store.pageBehind k).getLast?, store.boundary n = last.messageId := by
  induction n with
  | zero => exact .inl rfl
  | succ n ih =>
    cases hlast : (store.pageBehind n).getLast? with
    | none =>
      rw [boundary_succ_of_nil (List.getLast?_eq_none_iff.1 hlast)]
      exact ih
    | some last => exact .inr ⟨n, last, hlast, boundary_succ hlast⟩

theorem concatenated_boundary (hexact : store.Exact) (n : Nat) :
    concatenated (store.boundary n) = store.boundary n := by
  rcases boundary_cases n with hzero | ⟨k, last, hlast, heq⟩
  · rw [hzero]
    exact concatenated_of_safe (Nat.zero_le _)
  · rw [heq]
    exact (hexact k last hlast).2

theorem mem_of_mem_pageBehind {n : Nat} {m : Message} (h : m ∈ store.pageBehind n) :
    m ∈ store.messages := List.mem_of_mem_drop (List.mem_of_mem_take h)

theorem boundary_long (n : Nat) : store.boundary n ≤ LONG_MAX_VALUE := by
  rcases boundary_cases n with hzero | ⟨k, last, hlast, heq⟩
  · rw [hzero]
    exact Nat.zero_le _
  · rw [heq]
    exact store.long last (mem_of_mem_pageBehind (List.mem_of_getLast? hlast))

theorem load_message_statuses_printed {n x : Nat} (h : concatenated x = store.boundary n) :
    store.load_message_statuses (some x) pageLimit = some (store.pageBehind n) := by
  rw [MessageStore.load_message_statuses, Option.bind_some, h, if_pos (boundary_long n),
    filter_boundary, MessageStore.pageBehind]

theorem pageBehind_eq_of_boundary_eq {n k : Nat} (h : store.boundary n = store.boundary k) :
    store.pageBehind n = store.pageBehind k := by
  rw [MessageStore.pageBehind, MessageStore.pageBehind, ← filter_boundary, ← filter_boundary, h]

theorem loadTable_eq (output : List Message) : loadTable output = output.map Message.row := by
  induction output with
  | nil => rfl
  | cons obj output ih =>
    rw [List.map_cons, ← ih]
    rfl

theorem load_outstanding {page : Page} (h : page.outstanding = []) :
    page.statusInitializeAndLoad.outstanding = [some 0] := by
  change page.outstanding ++ [some 0] = _
  rw [h, List.nil_append]

theorem index_of_single {page : Page} {request request' : Option Nat} {index : Nat}
    (h : page.outstanding = [request]) (hrequest : page.outstanding[index]? = some request') :
    index = 0 := by
  rw [h] at hrequest
  obtain ⟨hindex, -⟩ := List.getElem?_eq_some_iff.1 hrequest
  simpa using hindex

theorem step_next {page page' : Page} (h : step store page .next = some page') :
    page.nextDisabled = false ∧ page' = page.nextPage true := by
  rw [step] at h
  split at h
  · cases h
  · exact ⟨Bool.eq_false_of_not_eq_true ‹_›, (Option.some.inj h).symm⟩

theorem step_prev {page page' : Page} (h : step store page .prev = some page') :
    page.prevDisabled = false ∧ page' = page.prevPage := by
  rw [step] at h
  split at h
  · cases h
  · exact ⟨Bool.eq_false_of_not_eq_true ‹_›, (Option.some.inj h).symm⟩

@[simp] theorem setEnder_currentPage (page : Page) (output : List Message) :
    (page.setEnder output).currentPage = page.currentPage := by
  rw [Page.setEnder]
  split <;> rfl

@[simp] theorem setEnder_outstanding (page : Page) (output : List Message) :
    (page.setEnder output).outstanding = page.outstanding := by
  rw [Page.setEnder]
  split <;> rfl

theorem setEnder_of_last {page : Page} {n : Nat} {last : Message}
    (h : last ∈ (store.pageBehind n).getLast?) :
    (page.setEnder ((store.pageBehind n).map Message.parsed)).pageEnder =
      Function.update page.pageEnder page.currentPage (some (round last.messageId)) := by
  rw [Page.setEnder, List.getLast?_map, Option.mem_def.1 h]
  rfl

theorem setEnder_of_nil {page : Page} {n : Nat} (h : store.pageBehind n = []) :
    (page.setEnder ((store.pageBehind n).map Message.parsed)).pageEnder = page.pageEnder := by
  rw [h]
  rfl

def Page.received (store : MessageStore) (page : Page) (index n : Nat) : Page :=
  { page with outstanding := page.outstanding.eraseIdx index }.success
    ((store.pageBehind n).map Message.parsed)

theorem deliver_printed {page : Page} {index n x : Nat} (h : concatenated x = store.boundary n)
    (hrequest : page.outstanding[index]? = some (some x)) :
    page.deliver store index = some (page.received store index n) := by
  rw [Page.deliver, hrequest, Option.map_some, load_message_statuses_printed h]
  rfl

@[simp] theorem received_currentPage (page : Page) (index n : Nat) :
    (page.received store index n).currentPage = page.currentPage := setEnder_currentPage _ _

@[simp] theorem received_outstanding (page : Page) (index n : Nat) :
    (page.received store index n).outstanding = page.outstanding.eraseIdx index :=
  setEnder_outstanding _ _

theorem received_prevDisabled {page : Page} (h : page.currentPage = 1) (index n : Nat) :
    (page.received store index n).prevDisabled = true := by
  change (page.prevDisabled || page.currentPage == 1) = true
  rw [h]
  exact Bool.or_true _

theorem received_nextDisabled (page : Page) (index n : Nat) :
    (page.received store index n).nextDisabled =
      decide ((store.pageBehind n).length < pageLimit) := by
  change decide (List.length _ < pageLimit) = _
  rw [List.length_map]

theorem received_pageEnder_of_ne (page : Page) (index n : Nat) {j : Int}
    (h : j ≠ page.currentPage) :
    (page.received store index n).pageEnder j = page.pageEnder j := by
  rw [Page.received, Page.success]
  cases hlast : (store.pageBehind n).getLast? with
  | none =>
    dsimp only
    rw [setEnder_of_nil (List.getLast?_eq_none_iff.1 hlast)]
  | some last =>
    dsimp only
    rw [setEnder_of_last hlast]
    exact Function.update_of_ne h _ _

theorem received_pageEnder_of_last {page : Page} {index n : Nat} {last : Message}
    (h : last ∈ (store.pageBehind n).getLast?) :
    (page.received store index n).pageEnder page.currentPage = some (round last.messageId) := by
  rw [Page.received, Page.success]
  dsimp only
  rw [setEnder_of_last h]
  exact Function.update_self _ _ _

theorem received_pageEnder_of_nil {page : Page} {index n : Nat} (h : store.pageBehind n = []) :
    (page.received store index n).pageEnder = page.pageEnder := setEnder_of_nil h

theorem received_currentPageCount (page : Page) (index n : Nat) :
    (page.received store index n).currentPageCount =
      if store.pageBehind n = [] then page.currentPageCount else (store.pageBehind n).length := by
  rw [Page.received, Page.success]
  by_cases h : store.pageBehind n = []
  · rw [if_pos h, h]
    rfl
  · have hlast := List.getLast?_eq_some_getLast h
    rw [if_neg h, Page.setEnder, List.getLast?_map, hlast]
    exact List.length_map _

end CarbonMessaging.MessageStatusPage
