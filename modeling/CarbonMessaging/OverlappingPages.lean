import CarbonMessaging.MessageStatusPage

/-! Clicks while requests are outstanding. The callback of a response writes the entry of the page
that is current when the response arrives. The entry is right in the end when a request for this
page is still to be answered or the last write of the entry came from one. -/

namespace CarbonMessaging.OverlappingPages

open JavaScriptNumbers MessageStatusPage ConditionalRuns

variable (store : MessageStore)

/-- 0 or the id of a message that ends a page. -/
def IsBoundary (minMessageId : Nat) : Prop :=
  minMessageId = 0 ∨ ∃ n, ∃ last ∈ (store.pageBehind n).getLast?, minMessageId = last.messageId

/-- Every request carries a boundary. When nothing is outstanding, the entry of the current page is
the id of its last message. -/
structure Sound (page : Page) : Prop where
  requests : ∀ request ∈ page.outstanding, ∃ x, request = some x ∧
    IsBoundary store (concatenated x)
  ender : page.outstanding = [] → ∀ n : Nat, page.currentPage = n + 1 →
    ∀ last ∈ (store.pageBehind n).getLast?, page.pageEnder page.currentPage = some last.messageId

def before (page : Page) : Nat := (page.currentPage - 1).toNat

/-- `Next` is clicked on a page with messages that no request is outstanding for, unless its entry
is right by then; `Prev` is not clicked on the first page; a response is for the current page, or
has no messages, or comes while another request for the current page is outstanding. -/
def Harmless (page : Page) : Action → Prop
  | .next => store.pageBehind (before page) ≠ [] ∧
      (some (store.boundary (before page)) ∉ page.outstanding ∨
        page.pageEnder page.currentPage = some (store.boundary (before page + 1)))
  | .prev => 2 ≤ page.currentPage
  | .deliver index => ∀ request ∈ page.outstanding[index]?,
      request = some (store.boundary (before page)) ∨
        store.load_message_statuses request pageLimit = some [] ∨
        some (store.boundary (before page)) ∈ page.outstanding.eraseIdx index

def EnderRight (page : Page) (n : Nat) : Prop :=
  ∀ last ∈ (store.pageBehind n).getLast?, page.pageEnder (n + 1) = some last.messageId

structure Inv (page : Page) (n : Nat) : Prop where
  currentPage : page.currentPage = n + 1
  boundaries : ∀ j : Nat, j ≤ n → page.pageEnder j = some (store.boundary j)
  requests : ∀ request ∈ page.outstanding, ∃ k, request = some (store.boundary k)
  ender : EnderRight store page n ∨ some (store.boundary n) ∈ page.outstanding

variable {store} {page page' : Page} {n : Nat}

theorem Inv.before_eq (h : Inv store page n) : before page = n := by
  rw [before, h.currentPage, Int.add_sub_cancel, Int.toNat_natCast]

theorem behind_inj {current : Int} {m n : Nat} (hm : current = m + 1) (hn : current = n + 1) :
    m = n := by omega

theorem previous_index {current : Int} (h : current = (n + 1 : Nat) + 1) : current - 2 = n := by
  omega

theorem inv_statusInitializeAndLoad (page : Page) (h : page.outstanding = []) :
    Inv store page.statusInitializeAndLoad 0 where
  currentPage := rfl
  boundaries j hj := by
    rw [Nat.le_zero.1 hj]
    rfl
  requests request hrequest := by
    rw [load_outstanding h, List.mem_singleton] at hrequest
    exact ⟨0, hrequest⟩
  ender := .inr (List.mem_append_right _ (List.mem_singleton.2 rfl))

theorem Inv.sent (h : Inv store page n) (hmessages : store.pageBehind n ≠ [])
    (hnone : some (store.boundary n) ∉ page.outstanding) :
    page.pageEnder page.currentPage = some (store.boundary (n + 1)) := by
  cases hlast : (store.pageBehind n).getLast? with
  | none => exact absurd (List.getLast?_eq_none_iff.1 hlast) hmessages
  | some last =>
    rw [h.currentPage, boundary_succ hlast]
    exact h.ender.resolve_right hnone last hlast

theorem inv_next (h : Inv store page n)
    (hsent : page.pageEnder page.currentPage = some (store.boundary (n + 1))) :
    Inv store (page.nextPage true) (n + 1) := by
  refine ⟨?_, ?_, ?_, .inr ?_⟩
  · change page.currentPage + 1 = _
    rw [h.currentPage, Nat.cast_succ]
  · intro j hj
    rcases Nat.le_succ_iff.1 hj with hle | rfl
    · exact h.boundaries j hle
    · rw [h.currentPage] at hsent
      exact hsent
  · intro request hrequest
    rcases List.mem_append.1 hrequest with hold | hnew
    · exact h.requests request hold
    · exact ⟨n + 1, (List.mem_singleton.1 hnew).trans hsent⟩
  · exact List.mem_append_right _ (List.mem_singleton.2 hsent.symm)

theorem prevPage_sends (h : Inv store page (n + 1)) :
    page.pageEnder (page.currentPage - 2) = some (store.boundary n) := by
  rw [previous_index h.currentPage]
  exact h.boundaries n (Nat.le_succ n)

theorem inv_prev (h : Inv store page (n + 1)) : Inv store page.prevPage n := by
  have hsent := prevPage_sends h
  refine ⟨?_, fun j hj => h.boundaries j (Nat.le_succ_of_le hj), ?_, .inr ?_⟩
  · change page.currentPage - 1 = _
    rw [h.currentPage, Nat.cast_succ, Int.add_sub_cancel]
  · intro request hrequest
    rcases List.mem_append.1 hrequest with hold | hnew
    · exact h.requests request hold
    · exact ⟨n, (List.mem_singleton.1 hnew).trans hsent⟩
  · exact List.mem_append_right _ (List.mem_singleton.2 hsent.symm)

theorem inv_deliver (hexact : store.Exact) (h : Inv store page n) {index : Nat}
    (hharmless : Harmless store page (.deliver index))
    (hstep : page.deliver store index = some page') : Inv store page' n := by
  obtain ⟨request, hrequest, -⟩ := Option.map_eq_some_iff.1 hstep
  obtain ⟨k, rfl⟩ := h.requests request (List.mem_of_getElem? hrequest)
  rw [deliver_printed (concatenated_boundary hexact k) hrequest] at hstep
  cases hstep
  have hlater := hharmless _ hrequest
  rw [h.before_eq, load_message_statuses_printed (concatenated_boundary hexact k),
    Option.some_inj, Option.some_inj] at hlater
  refine ⟨(received_currentPage ..).trans h.currentPage, ?_, ?_, ?_⟩
  · intro j hj
    rw [received_pageEnder_of_ne _ _ _ (by rw [h.currentPage]; omega)]
    exact h.boundaries j hj
  · intro request hrequest
    rw [received_outstanding] at hrequest
    exact h.requests request (List.mem_of_mem_eraseIdx hrequest)
  · rw [received_outstanding]
    by_cases hsame : store.boundary k = store.boundary n
    · -- The response is for the current page.
      have hpage := pageBehind_eq_of_boundary_eq hsame
      left
      intro last hlast
      rw [← hpage] at hlast
      rw [← h.currentPage, received_pageEnder_of_last hlast, (hexact k last hlast).1]
    rcases hlater with hsame' | hnil | hother
    · exact absurd hsame' hsame
    · rcases h.ender with hender | hwaiting
      · left
        intro last hlast
        rw [received_pageEnder_of_nil hnil]
        exact hender last hlast
      · -- The request for the current page is not the one that was answered.
        right
        obtain ⟨j, hj⟩ := List.mem_iff_getElem?.1 hwaiting
        refine List.mem_eraseIdx_iff_getElem?.2 ⟨j, ?_, hj⟩
        rintro rfl
        rw [hrequest, Option.some_inj, Option.some_inj] at hj
        exact hsame hj
    · exact .inr hother

theorem inv_step (hexact : store.Exact) (h : ∃ n, Inv store page n) {action : Action}
    (hharmless : Harmless store page action) (hstep : step store page action = some page') :
    ∃ n, Inv store page' n := by
  obtain ⟨n, hinv⟩ := h
  cases action with
  | next =>
    obtain ⟨hmessages, hready⟩ := hharmless
    rw [hinv.before_eq] at hmessages hready
    obtain ⟨-, rfl⟩ := step_next hstep
    exact ⟨n + 1, inv_next hinv (hready.elim (hinv.sent hmessages) id)⟩
  | prev =>
    have hpos : 2 ≤ page.currentPage := hharmless
    rw [hinv.currentPage] at hpos
    obtain ⟨m, rfl⟩ := Nat.exists_eq_succ_of_ne_zero (n := n) (by omega)
    obtain ⟨-, rfl⟩ := step_prev hstep
    exact ⟨m, inv_prev hinv⟩
  | deliver index => exact ⟨n, inv_deliver hexact hinv hharmless hstep⟩

theorem sound_of_inv (hexact : store.Exact) (h : ∃ n, Inv store page n) : Sound store page := by
  obtain ⟨n, hinv⟩ := h
  refine ⟨?_, ?_⟩
  · intro request hrequest
    obtain ⟨k, rfl⟩ := hinv.requests request hrequest
    refine ⟨store.boundary k, rfl, ?_⟩
    rw [concatenated_boundary hexact]
    exact boundary_cases k
  · intro hnone m hm
    rw [hm, behind_inj hm hinv.currentPage]
    refine hinv.ender.resolve_right ?_
    rw [hnone]
    exact List.not_mem_nil

/-- In a run of harmless steps every request carries a boundary, and the entry of the current page
is right whenever nothing is outstanding. -/
theorem sound_of_harmless (hexact : store.Exact) {start : Page} (hstart : start.outstanding = [])
    (h : Reached (step store) (Harmless store) start.statusInitializeAndLoad page) :
    Sound store page := by
  refine sound_of_inv hexact (h.invariant (I := fun page => ∃ n, Inv store page n) ?_ ?_)
  · exact ⟨0, inv_statusInitializeAndLoad start hstart⟩
  · intro page action page' hinv hharmless hstep
    exact inv_step hexact hinv hharmless hstep

instance (page : Page) : ∀ action, Decidable (Harmless store page action)
  | .next => inferInstanceAs (Decidable (store.pageBehind (before page) ≠ [] ∧
      (some (store.boundary (before page)) ∉ page.outstanding ∨
        page.pageEnder page.currentPage = some (store.boundary (before page + 1)))))
  | .prev => inferInstanceAs (Decidable (2 ≤ page.currentPage))
  | .deliver index => inferInstanceAs (Decidable (∀ request ∈ page.outstanding[index]?,
      request = some (store.boundary (before page)) ∨
        store.load_message_statuses request pageLimit = some [] ∨
        some (store.boundary (before page)) ∈ page.outstanding.eraseIdx index))

def numbered : MessageStore where
  messages := (List.range' 1 101).map fun messageId => ⟨messageId, [], none, none, none⟩
  ascending := by
    rw [List.pairwise_map]
    exact List.pairwise_lt_range'
  positive := by
    intro m hm
    obtain ⟨messageId, hmem, rfl⟩ := List.mem_map.1 hm
    exact (List.mem_range'_1.1 hmem).1
  long := by
    intro m hm
    obtain ⟨messageId, hmem, rfl⟩ := List.mem_map.1 hm
    exact (List.mem_range'_1.1 hmem).2.le.trans (by decide)

theorem exact_of_safe (h : ∀ m ∈ store.messages, m.messageId ≤ MAX_SAFE_INTEGER) :
    store.Exact := by
  intro n last hlast
  have hsafe := h last (mem_of_mem_pageBehind (List.mem_of_getLast? hlast))
  exact ⟨round_of_safe hsafe, concatenated_of_safe hsafe⟩

theorem numbered_exact : numbered.Exact := by
  refine exact_of_safe fun m hm => ?_
  obtain ⟨messageId, hmem, rfl⟩ := List.mem_map.1 hm
  exact (List.mem_range'_1.1 hmem).2.le.trans (by decide)

def fresh : Page := ⟨1, 0, Function.update (Function.update (fun _ => none) 0 (some 0)) 1 (some 0),
  true, false, [], []⟩

def backAtOnce : List Action := [.deliver 0, .next, .prev, .deliver 0, .deliver 0]

theorem sound_backAtOnce : ∃ page,
    run (step numbered) backAtOnce fresh.statusInitializeAndLoad = some page ∧
      page.outstanding = [] ∧ Sound numbered page := by
  have hrun : (run (step numbered) backAtOnce fresh.statusInitializeAndLoad).map
      Page.outstanding = some [] := by decide +kernel
  obtain ⟨page, hpage, hnone⟩ := Option.map_eq_some_iff.1 hrun
  exact ⟨page, hpage, hnone, sound_of_harmless numbered_exact rfl
    (reached_of_run hpage (by decide +kernel))⟩

theorem not_sound_prev : ∃ page,
    Reached (step numbered) (fun _ _ => True) fresh.statusInitializeAndLoad page ∧
      ¬Sound numbered page := by
  refine ⟨_, Reached.refl.next trivial (rfl : step numbered _ .prev = some _), fun hsound => ?_⟩
  obtain ⟨x, hx, -⟩ := hsound.requests none (List.mem_cons_of_mem _ List.mem_cons_self)
  cases hx

end CarbonMessaging.OverlappingPages
