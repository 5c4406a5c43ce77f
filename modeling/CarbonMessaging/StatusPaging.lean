import CarbonMessaging.OverlappingPages

/-! Paging one response at a time. Between two steps the page is settled: its table, its entry and
its buttons are those of the messages behind the pages before. -/

namespace CarbonMessaging.StatusPaging

open JavaScriptNumbers MessageStatusPage OverlappingPages ConditionalRuns

variable (store : MessageStore)

/-- A button is clicked only after the previous response was processed. -/
def Waits (page : Page) : Action → Prop
  | .next => page.outstanding = []
  | .prev => page.outstanding = []
  | .deliver _ => True

def ShowsCurrentPage (page : Page) : Prop :=
  ∃ n : Nat, page.currentPage = n + 1 ∧
    page.table = loadTable ((store.pageBehind n).map Message.parsed) ∧
    page.table.map Row.messageId = (store.pageBehind n).map Message.messageId

/-- After every step the table shows the current page, and the entry of every page that was visited
is the id of its last message. -/
def PagesRight : Prop :=
  ∀ start earlier later : Page, start.outstanding = [] →
    Reached (step store) Waits start.statusInitializeAndLoad earlier →
    Reached (step store) Waits earlier later →
    earlier.outstanding = [] → later.outstanding = [] →
    ShowsCurrentPage store later ∧
      ∀ n : Nat, earlier.currentPage = n + 1 → EnderRight store later n

def Printed : Prop := ∀ m ∈ store.messages, concatenated (round m.messageId) = m.messageId

structure Settled (page : Page) (n : Nat) : Prop where
  outstanding : page.outstanding = []
  table : page.table = loadTable ((store.pageBehind n).map Message.parsed)
  ender : EnderRight store page n
  prevDisabled : n = 0 → page.prevDisabled = true
  nextDisabled : page.nextDisabled = decide ((store.pageBehind n).length < pageLimit)

structure Paging (page : Page) (n : Nat) : Prop where
  inv : Inv store page n
  phase : Settled store page n ∨ page.outstanding = [some (store.boundary n)]

variable {store} {page page' : Page} {n : Nat}

theorem Paging.settled (h : Paging store page n) (hnone : page.outstanding = []) :
    Settled store page n := by
  refine h.phase.resolve_right fun hwaiting => ?_
  rw [hnone] at hwaiting
  cases hwaiting

theorem getLast?_of_full (h : ¬(store.pageBehind n).length < pageLimit) :
    ∃ last, last ∈ (store.pageBehind n).getLast? := by
  cases hlast : (store.pageBehind n).getLast? with
  | none =>
    rw [List.getLast?_eq_none_iff.1 hlast] at h
    exact absurd (by decide) h
  | some last => exact ⟨last, rfl⟩

theorem settled_received (hexact : store.Exact) {index : Nat} (hinv : Inv store page n)
    (h : page.outstanding.eraseIdx index = []) : Settled store (page.received store index n) n where
  outstanding := (received_outstanding ..).trans h
  table := rfl
  ender last hlast := by
    rw [← hinv.currentPage, received_pageEnder_of_last hlast, (hexact n last hlast).1]
  prevDisabled hzero := received_prevDisabled (by rw [hinv.currentPage, hzero]; rfl) ..
  nextDisabled := received_nextDisabled ..

theorem enderRight_received (hexact : store.Exact) {index j : Nat} (hinv : Inv store page n)
    (h : EnderRight store page j) : EnderRight store (page.received store index n) j := by
  intro last hlast
  by_cases hj : j = n
  · subst hj
    rw [← hinv.currentPage, received_pageEnder_of_last hlast, (hexact j last hlast).1]
  · rw [received_pageEnder_of_ne _ _ _ (by rw [hinv.currentPage]; omega)]
    exact h last hlast

theorem paging_step (hexact : store.Exact) (h : Paging store page n) {action : Action}
    (hwaits : Waits page action) (hstep : step store page action = some page') :
    (∃ k, Paging store page' k) ∧ ∀ j, EnderRight store page j → EnderRight store page' j := by
  cases action with
  | next =>
    have hidle : page.outstanding = [] := hwaits
    have hsettled := h.settled hidle
    obtain ⟨henabled, rfl⟩ := step_next hstep
    obtain ⟨last, hlast⟩ := getLast?_of_full (of_decide_eq_false
      (hsettled.nextDisabled.symm.trans henabled))
    have hsent : page.pageEnder page.currentPage = some (store.boundary (n + 1)) := by
      rw [h.inv.currentPage, boundary_succ hlast]
      exact hsettled.ender last hlast
    refine ⟨⟨n + 1, inv_next h.inv hsent, .inr ?_⟩, fun _ hj => hj⟩
    change page.outstanding ++ [page.pageEnder page.currentPage] = _
    rw [hidle, hsent, List.nil_append]
  | prev =>
    have hidle : page.outstanding = [] := hwaits
    have hsettled := h.settled hidle
    obtain ⟨henabled, rfl⟩ := step_prev hstep
    have hne : n ≠ 0 := fun hzero => by
      rw [hsettled.prevDisabled hzero] at henabled
      cases henabled
    obtain ⟨m, rfl⟩ := Nat.exists_eq_succ_of_ne_zero hne
    refine ⟨⟨m, inv_prev h.inv, .inr ?_⟩, fun _ hj => hj⟩
    change page.outstanding ++ [page.pageEnder (page.currentPage - 2)] = _
    rw [hidle, prevPage_sends h.inv, List.nil_append]
  | deliver index =>
    obtain ⟨request, hrequest, -⟩ := Option.map_eq_some_iff.1 hstep
    rcases h.phase with hsettled | hwaiting
    · rw [hsettled.outstanding] at hrequest
      cases hrequest
    · obtain rfl := index_of_single hwaiting hrequest
      have hfirst : page.outstanding[0]? = some (some (store.boundary n)) := by
        rw [hwaiting]
        rfl
      have hinv : Inv store page' n := by
        refine inv_deliver hexact h.inv ?_ hstep
        intro request hrequest
        rw [hfirst, Option.mem_some] at hrequest
        rw [h.inv.before_eq]
        exact .inl hrequest.symm
      have hreceived := deliver_printed (concatenated_boundary hexact n) hfirst
      rw [step, hreceived] at hstep
      cases hstep
      have hnone : page.outstanding.eraseIdx 0 = [] := by
        rw [hwaiting]
        rfl
      exact ⟨⟨n, hinv, .inl (settled_received hexact h.inv hnone)⟩,
        fun j hj => enderRight_received hexact h.inv hj⟩

theorem paging_start (start : Page) (h : start.outstanding = []) :
    Paging store start.statusInitializeAndLoad 0 := by
  refine ⟨inv_statusInitializeAndLoad start h, .inr ?_⟩
  rw [load_outstanding h, boundary_zero]

theorem paging_reached (hexact : store.Exact) {earlier later : Page}
    (hearlier : ∃ k, Paging store earlier k)
    (h : Reached (step store) Waits earlier later) :
    (∃ k, Paging store later k) ∧
      ∀ j, EnderRight store earlier j → EnderRight store later j := by
  induction h with
  | refl => exact ⟨hearlier, fun _ hj => hj⟩
  | next _ hwaits hstep ih =>
    obtain ⟨⟨k, hk⟩, hkept⟩ := ih
    obtain ⟨hnext, hkeeps⟩ := paging_step hexact hk hwaits hstep
    exact ⟨hnext, fun j hj => hkeeps j (hkept j hj)⟩

theorem rows_messageId (output : List Message) :
    (loadTable (output.map Message.parsed)).map Row.messageId =
      output.map fun m => concatenated (round m.messageId) := by
  rw [loadTable_eq, List.map_map, List.map_map]
  refine List.map_congr_left fun m _ => ?_
  rw [Function.comp_apply, Function.comp_apply, row_messageId, parsed_messageId]

theorem pagesRight (hexact : store.Exact) (hprinted : Printed store) : PagesRight store := by
  intro start earlier later hstart hearlier hlater hidle hidle'
  obtain ⟨⟨k, hk⟩, -⟩ := paging_reached hexact ⟨0, paging_start start hstart⟩ hearlier
  obtain ⟨⟨m, hm⟩, hkept⟩ := paging_reached hexact ⟨k, hk⟩ hlater
  refine ⟨⟨m, hm.inv.currentPage, (hm.settled hidle').table, ?_⟩, ?_⟩
  · rw [(hm.settled hidle').table, rows_messageId]
    exact List.map_congr_left fun message hmem => hprinted message (mem_of_mem_pageBehind hmem)
  · intro n hn
    rw [behind_inj hn hk.inv.currentPage]
    exact hkept k (hk.settled hidle).ender

theorem mem_pageBehind {m : Message} (h : m ∈ store.messages) : ∃ n, m ∈ store.pageBehind n := by
  obtain ⟨i, hi⟩ := List.mem_iff_getElem?.1 h
  have hplace : pageLimit * (i / pageLimit) + i % pageLimit = i := Nat.div_add_mod _ _
  refine ⟨i / pageLimit, List.mem_iff_getElem?.2 ⟨i % pageLimit, ?_⟩⟩
  rw [MessageStore.pageBehind, List.getElem?_take_of_lt (Nat.mod_lt _ (by decide)),
    List.getElem?_drop, hplace, hi]

theorem full_of_next {m : Message} (h : m ∈ store.pageBehind (n + 1)) :
    (store.pageBehind n).length = pageLimit := by
  have hlong : pageLimit * (n + 1) < store.messages.length := by
    by_contra hshort
    rw [MessageStore.pageBehind, List.drop_eq_nil_of_le (Nat.le_of_not_lt hshort)] at h
    cases h
  rw [MessageStore.pageBehind, List.length_take, List.length_drop]
  rw [Nat.mul_succ] at hlong
  omega

theorem received_exact (hright : PagesRight store) {start : Page} (hstart : start.outstanding = [])
    (hreached : Reached (step store) Waits start.statusInitializeAndLoad page)
    (hcurrent : page.currentPage = n + 1)
    (hwaiting : page.outstanding = [some (store.boundary n)])
    (hconcatenated : concatenated (store.boundary n) = store.boundary n) :
    Reached (step store) Waits start.statusInitializeAndLoad (page.received store 0 n) ∧
      (page.received store 0 n).outstanding = [] ∧
      (∀ m ∈ store.pageBehind n, concatenated (round m.messageId) = m.messageId) ∧
      ∀ last ∈ (store.pageBehind n).getLast?, round last.messageId = last.messageId := by
  have hfirst : page.outstanding[0]? = some (some (store.boundary n)) := by
    rw [hwaiting]
    rfl
  have hdeliver : step store page (.deliver 0) = some (page.received store 0 n) :=
    deliver_printed hconcatenated hfirst
  have hnext := hreached.next (show Waits page (.deliver 0) from trivial) hdeliver
  have hidle : (page.received store 0 n).outstanding = [] := by
    rw [received_outstanding, hwaiting]
    rfl
  have hcurrent' : (page.received store 0 n).currentPage = n + 1 :=
    (received_currentPage ..).trans hcurrent
  obtain ⟨⟨k, hk, -, hids⟩, hender⟩ := hright start _ _ hstart hnext .refl hidle hidle
  refine ⟨hnext, hidle, ?_, ?_⟩
  · rw [behind_inj hk hcurrent'] at hids
    change (loadTable ((store.pageBehind n).map Message.parsed)).map Row.messageId = _ at hids
    rw [rows_messageId] at hids
    exact List.map_inj_left.1 hids
  · intro last hlast
    have hentry := hender n hcurrent' last hlast
    rw [← hcurrent, received_pageEnder_of_last hlast] at hentry
    exact Option.some.inj hentry

theorem waiting_reached (hright : PagesRight store) {start : Page} (hstart : start.outstanding = [])
    (n : Nat) {m : Message} (hm : m ∈ store.pageBehind n) :
    ∃ page, Reached (step store) Waits start.statusInitializeAndLoad page ∧
      page.currentPage = n + 1 ∧ page.outstanding = [some (store.boundary n)] ∧
      concatenated (store.boundary n) = store.boundary n := by
  induction n generalizing m with
  | zero =>
    refine ⟨_, .refl, rfl, ?_, concatenated_of_safe (Nat.zero_le _)⟩
    rw [load_outstanding hstart, boundary_zero]
  | succ n ih =>
    have hfull := full_of_next hm
    obtain ⟨last, hlast⟩ := getLast?_of_full hfull.ge.not_gt
    have hmem := List.mem_of_getLast? hlast
    obtain ⟨page, hreached, hcurrent, hwaiting, hconcatenated⟩ := ih hmem
    obtain ⟨hnext, hidle, hids, henders⟩ :=
      received_exact hright hstart hreached hcurrent hwaiting hconcatenated
    have hender : (page.received store 0 n).pageEnder (page.received store 0 n).currentPage =
        some (store.boundary (n + 1)) := by
      rw [received_currentPage, received_pageEnder_of_last hlast, henders last hlast,
        boundary_succ hlast]
    have henabled : (page.received store 0 n).nextDisabled = false := by
      rw [received_nextDisabled, hfull]
      rfl
    have hclick : step store (page.received store 0 n) .next =
        some ((page.received store 0 n).nextPage true) := by
      rw [step, henabled, if_neg Bool.false_ne_true]
    refine ⟨_, hnext.next (i := .next) hidle hclick, ?_, ?_, ?_⟩
    · change (page.received store 0 n).currentPage + 1 = _
      rw [received_currentPage, hcurrent, Nat.cast_succ]
    · change (page.received store 0 n).outstanding ++
        [(page.received store 0 n).pageEnder (page.received store 0 n).currentPage] = _
      rw [hidle, hender, List.nil_append]
    · rw [boundary_succ hlast, ← henders last hlast, hids last hmem, henders last hlast]

theorem exact_of_pagesRight (hright : PagesRight store) (n : Nat) {m : Message}
    (hm : m ∈ store.pageBehind n) :
    (∀ m ∈ store.pageBehind n, concatenated (round m.messageId) = m.messageId) ∧
      ∀ last ∈ (store.pageBehind n).getLast?, round last.messageId = last.messageId := by
  obtain ⟨page, hreached, hcurrent, hwaiting, hconcatenated⟩ :=
    waiting_reached hright (rfl : fresh.outstanding = []) n hm
  exact (received_exact hright rfl hreached hcurrent hwaiting hconcatenated).2.2

theorem printed_of_pagesRight (hright : PagesRight store) : Printed store := by
  intro m hm
  obtain ⟨n, hn⟩ := mem_pageBehind hm
  exact (exact_of_pagesRight hright n hn).1 m hn

/-- Paging shows the right pages just when JavaScript prints every id as it is and holds the last
id of every page exactly. -/
theorem pagesRight_iff : PagesRight store ↔ Printed store ∧
    ∀ n, ∀ last ∈ (store.pageBehind n).getLast?, round last.messageId = last.messageId := by
  constructor
  · intro hright
    refine ⟨printed_of_pagesRight hright, fun n last hlast => ?_⟩
    exact (exact_of_pagesRight hright n (List.mem_of_getLast? hlast)).2 last hlast
  · rintro ⟨hprinted, hheld⟩
    refine pagesRight (fun n last hlast => ⟨hheld n last hlast, ?_⟩) hprinted
    have hmem := mem_of_mem_pageBehind (List.mem_of_getLast? hlast)
    calc concatenated last.messageId
        = concatenated (round last.messageId) := by rw [hheld n last hlast]
      _ = last.messageId := hprinted last hmem

def unsafeId : MessageStore where
  messages := [⟨9007199254740993, [], none, none, none⟩]
  ascending := List.pairwise_singleton _ _
  positive := by decide
  long := by decide

theorem not_pagesRight_unsafeId : ¬PagesRight unsafeId := by
  intro hright
  have hprinted := printed_of_pagesRight hright _ List.mem_cons_self
  revert hprinted
  decide

end CarbonMessaging.StatusPaging
