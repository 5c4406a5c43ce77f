import CarbonMessaging.StatusPaging

/-! The label above the table of the message-status page. It is written when the answer to a second
request arrives, from the number of the page, the size of the last response that had messages and
the count of all messages. -/

namespace CarbonMessaging.CountLabel

open JavaScriptNumbers ConditionalRuns
open MessageStatusPage hiding Action step
open StatusPaging (Printed)

inductive Label where
  | noMessages
  | showing (first last : Int) (output : Nat)
  deriving DecidableEq

/-- The page with its label and the number of count requests that are outstanding. -/
structure LabelledPage where
  page : Page
  counting : Nat
  countLabel : Option Label

def LabelledPage.load (page : LabelledPage) : LabelledPage :=
  { page with page := page.page.statusInitializeAndLoad }

def countLabelValue (page : Page) (output : Nat) : Label :=
  let currentPageStart := (page.currentPage - 1) * 100
  if output = 0 then .noMessages
  else .showing (currentPageStart + 1) (currentPageStart + page.currentPageCount) output

def load_message_statuses_count (store : MessageStore) : Nat := store.messages.length

/-- A page of messages that arrives is put into the table, and `loadTable` asks for the count. -/
def countRequests (store : MessageStore) (page : Page) : MessageStatusPage.Action → Nat
  | .deliver index =>
    match (page.outstanding[index]?).bind (store.load_message_statuses · pageLimit) with
    | some _ => 1
    | none => 0
  | _ => 0

/-- A click or the answer to a request for a page, or the answer to a count request. -/
inductive Action where
  | page (action : MessageStatusPage.Action)
  | count
  deriving DecidableEq

def step (store : MessageStore) (page : LabelledPage) : Action → Option LabelledPage
  | .page action =>
    (MessageStatusPage.step store page.page action).map fun next =>
      { page with page := next, counting := page.counting + countRequests store page.page action }
  | .count =>
    if page.counting = 0 then none
    else some { page with
      counting := page.counting - 1
      countLabel := some (countLabelValue page.page (load_message_statuses_count store)) }

variable (store : MessageStore)

def Idle (page : LabelledPage) : Prop := page.page.outstanding = [] ∧ page.counting = 0

/-- A button is clicked only after all earlier responses were processed. -/
def Waits (page : LabelledPage) : Action → Prop
  | .page .next => Idle page
  | .page .prev => Idle page
  | _ => True

def fromTo (first last : Int) : List Message :=
  (store.messages.drop (first - 1).toNat).take (last - (first - 1)).toNat

/-- A label with the right total names the rows of the table. -/
def LabelDescribes (page : LabelledPage) : Prop :=
  ∀ first last, page.countLabel = some (.showing first last store.messages.length) →
    1 ≤ first ∧ first ≤ last ∧ last ≤ store.messages.length ∧
      page.page.table = loadTable ((fromTo store first last).map Message.parsed) ∧
      page.page.table.map Row.messageId = (fromTo store first last).map Message.messageId

/-- The label is right after every sequence of clicks. -/
def LabelRight : Prop :=
  ∀ start later : LabelledPage, Idle start →
    Reached (step store) Waits start.load later → Idle later → LabelDescribes store later

structure Visited (page : Page) (n : Nat) : Prop where
  currentPage : page.currentPage = n + 1
  enders : ∀ j : Nat, j ≤ n → page.pageEnder j = some (round (store.boundary j))
  fits : pageLimit * n ≤ store.messages.length

/-- Its messages were requested. Without any, the size of a full page stays. -/
structure Waiting (page : Page) (n : Nat) : Prop extends Visited store page n where
  outstanding : page.outstanding = [some (round (store.boundary n))]
  currentPageCount : store.pageBehind n = [] → page.currentPageCount = pageLimit

structure Loaded (page : Page) (n : Nat) : Prop extends Visited store page n where
  outstanding : page.outstanding = []
  table : page.table = loadTable ((store.pageBehind n).map Message.parsed)
  ender : store.pageBehind n ≠ [] →
    page.pageEnder (n + 1) = some (round (store.boundary (n + 1)))
  currentPageCount : page.currentPageCount =
    if store.pageBehind n = [] then pageLimit else (store.pageBehind n).length
  prevDisabled : n = 0 → page.prevDisabled = true
  nextDisabled : page.nextDisabled = decide ((store.pageBehind n).length < pageLimit)

structure Settled (page : LabelledPage) (n : Nat) : Prop where
  loaded : Loaded store page.page n
  counting : page.counting = 0
  countLabel : page.countLabel = some (countLabelValue page.page store.messages.length)

inductive Phase (page : LabelledPage) (n : Nat) : Prop
  | waiting (h : Waiting store page.page n) (hcounting : page.counting = 0)
  | counting (h : Loaded store page.page n) (hcounting : page.counting = 1)
  | settled (h : Settled store page n)

variable {store} {page : Page} {n : Nat}

theorem length_pageBehind (n : Nat) :
    (store.pageBehind n).length = min pageLimit (store.messages.length - pageLimit * n) := by
  rw [MessageStore.pageBehind, List.length_take, List.length_drop]

theorem pageBehind_eq_nil_iff (n : Nat) :
    store.pageBehind n = [] ↔ store.messages.length ≤ pageLimit * n := by
  rw [← List.length_eq_zero_iff, length_pageBehind, pageLimit]
  omega

theorem full_iff (n : Nat) :
    ¬(store.pageBehind n).length < pageLimit ↔ pageLimit * (n + 1) ≤ store.messages.length := by
  rw [length_pageBehind, pageLimit]
  omega

theorem waiting_load (start : Page) (h : start.outstanding = []) (hne : store.messages ≠ []) :
    Waiting store start.statusInitializeAndLoad 0 where
  currentPage := rfl
  enders j hj := by
    rw [Nat.le_zero.1 hj]
    rfl
  fits := Nat.zero_le _
  outstanding := load_outstanding h
  currentPageCount hnil := by
    rw [pageBehind_eq_nil_iff, Nat.mul_zero, Nat.le_zero, List.length_eq_zero_iff] at hnil
    exact absurd hnil hne

theorem waiting_next (h : Loaded store page n) (henabled : page.nextDisabled = false) :
    Waiting store (page.nextPage true) (n + 1) := by
  have hfull := of_decide_eq_false (h.nextDisabled.symm.trans henabled)
  have hfits := (full_iff n).1 hfull
  have hne : store.pageBehind n ≠ [] := by
    intro hnil
    rw [hnil] at hfull
    exact hfull (by decide)
  have hender := h.ender hne
  refine ⟨⟨?_, fun j hj => ?_, hfits⟩, ?_, fun _ => ?_⟩
  · change page.currentPage + 1 = _
    rw [h.currentPage, Nat.cast_succ]
  · rcases Nat.le_succ_iff.1 hj with hle | rfl
    · exact h.enders j hle
    · exact hender
  · change page.outstanding ++ [page.pageEnder page.currentPage] = _
    rw [h.outstanding, h.currentPage, hender, List.nil_append]
  · -- the page before was full
    change page.currentPageCount = _
    rw [h.currentPageCount, if_neg hne, length_pageBehind]
    rw [length_pageBehind] at hfull
    omega

theorem waiting_prev (h : Loaded store page (n + 1)) : Waiting store page.prevPage n := by
  refine ⟨⟨?_, fun j hj => h.enders j (Nat.le_succ_of_le hj), ?_⟩, ?_, fun hnil => ?_⟩
  · change page.currentPage - 1 = _
    rw [h.currentPage, Nat.cast_succ, Int.add_sub_cancel]
  · exact (Nat.mul_le_mul_left _ (Nat.le_succ n)).trans h.fits
  · change page.outstanding ++ [page.pageEnder (page.currentPage - 2)] = _
    rw [h.outstanding, OverlappingPages.previous_index h.currentPage, h.enders n (Nat.le_succ n),
      List.nil_append]
  · have hfits := h.fits
    rw [pageBehind_eq_nil_iff] at hnil
    rw [pageLimit] at hfits hnil
    omega

theorem loaded_received (h : Waiting store page n) : Loaded store (page.received store 0 n) n where
  currentPage := (received_currentPage ..).trans h.currentPage
  enders j hj := by
    rw [received_pageEnder_of_ne _ _ _ (by rw [h.currentPage]; omega)]
    exact h.enders j hj
  fits := h.fits
  outstanding := by
    rw [received_outstanding, h.outstanding]
    rfl
  table := rfl
  ender hne := by
    have hlast : (store.pageBehind n).getLast hne ∈ (store.pageBehind n).getLast? :=
      List.getLast?_eq_some_getLast hne
    rw [← h.currentPage, received_pageEnder_of_last hlast, boundary_succ hlast]
  currentPageCount := by
    rw [received_currentPageCount]
    split
    · exact h.currentPageCount ‹_›
    · rfl
  prevDisabled hzero := received_prevDisabled (by rw [h.currentPage, hzero]; rfl) ..
  nextDisabled := received_nextDisabled ..

theorem concatenated_round_boundary (h : Printed store) (n : Nat) :
    concatenated (round (store.boundary n)) = store.boundary n := by
  rcases boundary_cases n with hzero | ⟨k, last, hlast, heq⟩
  · rw [hzero]
    rfl
  · rw [heq]
    exact h last (mem_of_mem_pageBehind (List.mem_of_getLast? hlast))

theorem countRequests_deliver {index x : Nat} (h : concatenated x = store.boundary n)
    (hrequest : page.outstanding[index]? = some (some x)) :
    countRequests store page (.deliver index) = 1 := by
  rw [countRequests, hrequest, Option.bind_some, load_message_statuses_printed h]

theorem Phase.settled_of_idle {page : LabelledPage} (h : Phase store page n) (hidle : Idle page) :
    Settled store page n := by
  cases h with
  | waiting h _ => exact absurd (h.outstanding.symm.trans hidle.1) (List.cons_ne_nil _ _)
  | counting _ hcounting => exact absurd (hcounting.symm.trans hidle.2) Nat.one_ne_zero
  | settled h => exact h

theorem step_deliver {page : LabelledPage} (h : Waiting store page.page n)
    (hcounting : page.counting = 0)
    (hboundary : concatenated (round (store.boundary n)) = store.boundary n) :
    step store page (.page (.deliver 0)) =
      some ⟨page.page.received store 0 n, 1, page.countLabel⟩ := by
  have hfirst : page.page.outstanding[0]? = some (some (round (store.boundary n))) := by
    rw [h.outstanding]
    rfl
  rw [step, MessageStatusPage.step, deliver_printed hboundary hfirst, Option.map_some,
    countRequests_deliver hboundary hfirst, hcounting]

theorem phase_step (hprinted : Printed store) {page page' : LabelledPage}
    (h : Phase store page n) {action : Action} (hwaits : Waits page action)
    (hstep : step store page action = some page') : ∃ k, Phase store page' k := by
  cases action with
  | count =>
    rw [step] at hstep
    split at hstep
    · cases hstep
    · obtain rfl := Option.some.inj hstep
      rename_i hsome
      cases h with
      | waiting _ hcounting => exact absurd hcounting hsome
      | settled h => exact absurd h.counting hsome
      | counting h hcounting =>
        exact ⟨n, .settled ⟨h, by dsimp only; rw [hcounting], rfl⟩⟩
  | page action =>
    obtain ⟨next, hnext, hpage⟩ := Option.map_eq_some_iff.1 hstep
    cases action with
    | next =>
      have hidle : Idle page := hwaits
      obtain ⟨henabled, rfl⟩ := step_next hnext
      rw [← hpage]
      exact ⟨n + 1, .waiting (waiting_next (h.settled_of_idle hidle).loaded henabled) hidle.2⟩
    | prev =>
      have hidle : Idle page := hwaits
      have hloaded := (h.settled_of_idle hidle).loaded
      obtain ⟨henabled, rfl⟩ := step_prev hnext
      rw [← hpage]
      cases n with
      | zero =>
        rw [hloaded.prevDisabled rfl] at henabled
        cases henabled
      | succ n => exact ⟨n, .waiting (waiting_prev hloaded) hidle.2⟩
    | deliver index =>
      obtain ⟨request, hrequest, -⟩ := Option.map_eq_some_iff.1 hnext
      have hsome : page.page.outstanding ≠ [] := by
        intro hnil
        rw [hnil] at hrequest
        cases hrequest
      cases h with
      | counting h _ => exact absurd h.outstanding hsome
      | settled h => exact absurd h.loaded.outstanding hsome
      | waiting h hcounting =>
        obtain rfl := index_of_single h.outstanding hrequest
        rw [step_deliver h hcounting (concatenated_round_boundary hprinted n)] at hstep
        rw [← Option.some.inj hstep]
        exact ⟨n, .counting (loaded_received h) rfl⟩

theorem phase_reached (hprinted : Printed store) (hne : store.messages ≠ [])
    {start later : LabelledPage} (hidle : Idle start)
    (h : Reached (step store) Waits start.load later) : ∃ n, Phase store later n := by
  refine h.invariant (I := fun page => ∃ n, Phase store page n) ?_ ?_
  · exact ⟨0, .waiting (waiting_load start.page hidle.1 hne) hidle.2⟩
  · rintro page action page' ⟨n, hphase⟩ hwaits hstep
    exact phase_step hprinted hphase hwaits hstep

theorem countLabelValue_eq (h : Loaded store page n) (hne : store.messages ≠ []) :
    countLabelValue page store.messages.length =
      .showing (n * 100 + 1) (n * 100 + page.currentPageCount) store.messages.length := by
  have hlength : store.messages.length ≠ 0 := fun hzero => hne (List.length_eq_zero_iff.1 hzero)
  rw [countLabelValue, if_neg hlength, h.currentPage, Int.add_sub_cancel]

theorem fromTo_pageBehind (n : Nat) :
    fromTo store (n * 100 + 1) (n * 100 + (store.pageBehind n).length) = store.pageBehind n := by
  have hfirst : ((n * 100 + 1 - 1 : Int)).toNat = pageLimit * n := by
    rw [pageLimit]
    omega
  have hcount : (n * 100 + (store.pageBehind n).length - (n * 100 + 1 - 1) : Int).toNat =
      (store.pageBehind n).length := by omega
  rw [fromTo, hfirst, hcount]
  exact (List.prefix_iff_eq_take.1 (List.take_prefix _ _)).symm

/-- The label is wrong on a page without messages, and where an id is printed otherwise. -/
theorem labelDescribes_iff {page : LabelledPage} (h : Settled store page n)
    (hne : store.messages ≠ []) : LabelDescribes store page ↔ store.pageBehind n ≠ [] ∧
      ∀ m ∈ store.pageBehind n, concatenated (round m.messageId) = m.messageId := by
  have hlabel := h.countLabel
  rw [countLabelValue_eq h.loaded hne] at hlabel
  have hfits := h.loaded.fits
  have hcount := h.loaded.currentPageCount
  have hids : page.page.table.map Row.messageId =
      (store.pageBehind n).map fun m => concatenated (round m.messageId) := by
    rw [h.loaded.table, StatusPaging.rows_messageId]
  constructor
  · intro hdescribes
    obtain ⟨-, -, hlast, -, hrows⟩ := hdescribes _ _ hlabel
    have hmessages : store.pageBehind n ≠ [] := by
      intro hnil
      rw [if_pos hnil] at hcount
      rw [pageBehind_eq_nil_iff] at hnil
      rw [hcount] at hlast
      simp only [pageLimit] at hnil hlast
      omega
    rw [hcount, if_neg hmessages, fromTo_pageBehind, hids] at hrows
    exact ⟨hmessages, List.map_inj_left.1 hrows⟩
  · rintro ⟨hmessages, hprinted⟩ first last hshown
    rw [hlabel, Option.some_inj, Label.showing.injEq] at hshown
    obtain ⟨rfl, rfl, -⟩ := hshown
    have hlength := @length_pageBehind store n
    have hpos := List.length_pos_iff.2 hmessages
    rw [hcount, if_neg hmessages, fromTo_pageBehind]
    refine ⟨by omega, by omega, ?_, h.loaded.table, ?_⟩
    · rw [pageLimit] at hfits hlength
      omega
    · rw [hids]
      exact List.map_congr_left hprinted

theorem labelRight (hprinted : Printed store) (hne : store.messages ≠ [])
    (hrest : ¬pageLimit ∣ store.messages.length) : LabelRight store := by
  intro start later hidle hreached hlater
  obtain ⟨n, hphase⟩ := phase_reached hprinted hne hidle hreached
  have hsettled := hphase.settled_of_idle hlater
  refine (labelDescribes_iff hsettled hne).2 ⟨fun hnil => ?_, fun m hm => ?_⟩
  · -- only a list of full pages is followed by a page without messages
    refine hrest ⟨n, le_antisymm ?_ hsettled.loaded.fits⟩
    exact (pageBehind_eq_nil_iff n).1 hnil
  · exact hprinted m (mem_of_mem_pageBehind hm)

theorem settled_of_waiting {start page : LabelledPage}
    (hreached : Reached (step store) Waits start page) (h : Waiting store page.page n)
    (hcounting : page.counting = 0)
    (hboundary : concatenated (round (store.boundary n)) = store.boundary n) :
    ∃ later, Reached (step store) Waits start later ∧ Settled store later n := by
  have hreceived := hreached.next (show Waits page (.page (.deliver 0)) from trivial)
    (step_deliver h hcounting hboundary)
  exact ⟨_, hreceived.next (show Waits _ .count from trivial) rfl, loaded_received h, rfl, rfl⟩

theorem settled_reached (hright : LabelRight store) (hne : store.messages ≠ [])
    (start : LabelledPage) (hidle : Idle start) (n : Nat)
    (hfits : pageLimit * n ≤ store.messages.length) :
    ∃ page, Reached (step store) Waits start.load page ∧ Settled store page n := by
  induction n with
  | zero =>
    refine settled_of_waiting .refl (waiting_load start.page hidle.1 hne) hidle.2 ?_
    rw [boundary_zero]
    decide
  | succ n ih =>
    obtain ⟨page, hreached, hsettled⟩ :=
      ih ((Nat.mul_le_mul_left _ (Nat.le_succ n)).trans hfits)
    have hnow : Idle page := ⟨hsettled.loaded.outstanding, hsettled.counting⟩
    obtain ⟨hmessages, hids⟩ :=
      (labelDescribes_iff hsettled hne).1 (hright start page hidle hreached hnow)
    have henabled : page.page.nextDisabled = false := by
      rw [hsettled.loaded.nextDisabled]
      exact decide_eq_false ((full_iff n).2 hfits)
    have hnext : step store page (.page .next) =
        some ⟨page.page.nextPage true, 0, page.countLabel⟩ := by
      rw [step, MessageStatusPage.step, henabled, if_neg Bool.false_ne_true, Option.map_some,
        hsettled.counting]
      rfl
    have hlast : (store.pageBehind n).getLast hmessages ∈ (store.pageBehind n).getLast? :=
      List.getLast?_eq_some_getLast hmessages
    refine settled_of_waiting (hreached.next (i := .page .next) hnow hnext)
      (waiting_next hsettled.loaded henabled) rfl ?_
    rw [boundary_succ hlast]
    exact hids _ (List.getLast_mem hmessages)

/-- The label is right after all clicks when JavaScript prints every id as it is and the last page
is not full. -/
theorem labelRight_iff (hne : store.messages ≠ []) :
    LabelRight store ↔ Printed store ∧ ¬pageLimit ∣ store.messages.length := by
  constructor
  · intro hright
    have hstart : Idle ⟨OverlappingPages.fresh, 0, none⟩ := ⟨rfl, rfl⟩
    have hpages : ∀ n, pageLimit * n ≤ store.messages.length → store.pageBehind n ≠ [] ∧
        ∀ m ∈ store.pageBehind n, concatenated (round m.messageId) = m.messageId := by
      intro n hfits
      obtain ⟨page, hreached, hsettled⟩ := settled_reached hright hne _ hstart n hfits
      exact (labelDescribes_iff hsettled hne).1
        (hright _ page hstart hreached ⟨hsettled.loaded.outstanding, hsettled.counting⟩)
    constructor
    · intro m hm
      obtain ⟨n, hn⟩ := StatusPaging.mem_pageBehind hm
      have hfits : pageLimit * n ≤ store.messages.length := by
        by_contra hshort
        rw [(pageBehind_eq_nil_iff n).2 (Nat.le_of_not_le hshort)] at hn
        cases hn
      exact (hpages n hfits).2 m hn
    · rintro ⟨n, hn⟩
      exact (hpages n hn.ge).1 ((pageBehind_eq_nil_iff n).2 hn.le)
  · rintro ⟨hprinted, hrest⟩
    exact labelRight hprinted hne hrest

theorem labelRight_iff_numbered : LabelRight OverlappingPages.numbered ↔
    Printed OverlappingPages.numbered ∧ ¬pageLimit ∣ OverlappingPages.numbered.messages.length :=
  labelRight_iff (by decide)

def hundred : MessageStore where
  messages := OverlappingPages.numbered.messages.take 100
  ascending := OverlappingPages.numbered.ascending.take
  positive m hm := OverlappingPages.numbered.positive m (List.mem_of_mem_take hm)
  long m hm := OverlappingPages.numbered.long m (List.mem_of_mem_take hm)

/-- The page behind the hundred messages is said to show 101 to 200 of 100. -/
theorem not_labelRight_hundred : ¬LabelRight hundred := by
  intro hright
  have hfits : pageLimit * 1 ≤ hundred.messages.length := by decide
  obtain ⟨page, hreached, hsettled⟩ := settled_reached hright (by decide)
    ⟨OverlappingPages.fresh, 0, none⟩ ⟨rfl, rfl⟩ 1 hfits
  refine ((labelDescribes_iff hsettled (by decide)).1 (hright _ page ⟨rfl, rfl⟩ hreached
    ⟨hsettled.loaded.outstanding, hsettled.counting⟩)).1 ?_
  exact (pageBehind_eq_nil_iff 1).2 (by decide)

end CarbonMessaging.CountLabel
