import CarbonMessaging.StatusFilter

/-! A click on `Next` or `Prev` that is answered from other messages than the table was loaded from,
because the controls or the clock have changed. The ids in `pageEnder` are those of messages that
were loaded, and the request asks for other messages above one of them. -/

namespace CarbonMessaging.ChangedControls

open JavaLang JavaScriptNumbers ConditionalRuns StatusFilter
open MessageStatusPage hiding Action step step_next step_prev
open StatusPaging (Printed ShowsCurrentPage)
open CountLabel (LabelledPage)

section
variable {α : Type} {l : List α}

theorem filter_above_eq_drop {f : α → Nat} (h : l.Pairwise fun a b => f a < f b) (bound : Nat) :
    (l.filter fun a => bound < f a) = l.drop (l.countP fun a => f a ≤ bound) := by
  induction l with
  | nil => rfl
  | cons a l ih =>
    obtain ⟨hfirst, hrest⟩ := List.pairwise_cons.1 h
    by_cases ha : f a ≤ bound
    · rw [List.filter_cons_of_neg (by simpa using ha), List.countP_cons_of_pos (by simpa using ha),
        List.drop_succ_cons]
      exact ih hrest
    · have hall : ∀ b ∈ a :: l, bound < f b := by
        intro b hb
        rcases List.mem_cons.1 hb with rfl | hb
        · omega
        · exact (Nat.lt_of_not_le ha).trans (hfirst b hb)
      have hnone : (a :: l).countP (fun a => f a ≤ bound) = 0 :=
        List.countP_eq_zero.2 fun b hb => by simpa using hall b hb
      rw [hnone, List.drop_zero]
      exact List.filter_eq_self.2 fun b hb => decide_eq_true (hall b hb)

theorem window_eq_iff (h : l.Nodup) {limit : Nat} (hlimit : 0 < limit) (i j : Nat) :
    (l.drop i).take limit = (l.drop j).take limit ↔
      i = j ∨ (l.length ≤ i ∧ l.length ≤ j) := by
  constructor
  · intro heq
    have hfirst := congrArg (fun window => window[0]?) heq
    simp only [List.getElem?_take_of_lt hlimit, List.getElem?_drop, Nat.add_zero] at hfirst
    by_cases hi : i < l.length
    · exact .inl ((List.getElem?_inj hi h).1 hfirst)
    · rw [List.getElem?_eq_none (Nat.le_of_not_lt hi)] at hfirst
      exact .inr ⟨Nat.le_of_not_lt hi, List.getElem?_eq_none_iff.1 hfirst.symm⟩
  · rintro (rfl | ⟨hi, hj⟩)
    · rfl
    · rw [List.drop_eq_nil_of_le hi, List.drop_eq_nil_of_le hj]

end

def upTo (store : MessageStore) (id : Nat) : Nat :=
  store.messages.countP fun m => m.messageId ≤ id

def above (store : MessageStore) (id : Nat) : List Message :=
  (store.messages.filter fun m => id < m.messageId).take pageLimit

/-- They are a page of the store when this many messages, or all, have ids up to there. -/
def Fits (store : MessageStore) (id n : Nat) : Prop :=
  upTo store id = pageLimit * n ∨
    (store.messages.length ≤ upTo store id ∧ store.messages.length ≤ pageLimit * n)

instance (store : MessageStore) (id n : Nat) : Decidable (Fits store id n) :=
  inferInstanceAs (Decidable (_ ∨ _))

theorem above_eq_iff (store : MessageStore) (id n : Nat) :
    above store id = store.pageBehind n ↔ Fits store id n := by
  have hnodup : store.messages.Nodup :=
    store.ascending.imp fun hlt heq => Nat.ne_of_lt hlt (congrArg Message.messageId heq)
  rw [above, filter_above_eq_drop store.ascending, MessageStore.pageBehind,
    window_eq_iff hnodup (by decide)]
  rfl

theorem above_ids_iff (store : MessageStore) (id n : Nat) :
    (above store id).map Message.messageId = (store.pageBehind n).map Message.messageId ↔
      Fits store id n := by
  have hnodup : (store.messages.map Message.messageId).Nodup :=
    (List.pairwise_map.2 store.ascending).imp fun hlt => Nat.ne_of_lt hlt
  rw [above, filter_above_eq_drop store.ascending, MessageStore.pageBehind, List.map_take,
    List.map_take, List.map_drop, List.map_drop, window_eq_iff hnodup (by decide), List.length_map]
  rfl

variable {store other : MessageStore} {server : Server} {now : Int} {session : Session}

theorem waiting_click (h : Follows server session) (hidle : session.page.Idle)
    (hstore : session.messages server = some store) {action : Action}
    (haction : action = .next ∨ action = .prev) {clicked : FilteredPage}
    (hclick : session.page.step server action = some clicked) :
    ∃ k : Nat, clicked.page.currentPage = k + 1 ∧
      clicked.page.outstanding = [some (round (store.boundary k))] ∧
      clicked.asked = [session.page.filter] := by
  have hasked := h.asked_of_idle hidle
  have hmore : session.page.asked ++ [session.page.filter] = [session.page.filter] := by
    rw [hasked, List.nil_append]
  have htracks := h.tracks_messages hstore
  have hne : store.messages ≠ [] := by
    intro hnone
    have hvacant := ((htracks.empty hnone).vacant_of_idle hidle.labelled).1
    rcases haction with rfl | rfl
    · exact absurd (hvacant.nextDisabled.symm.trans (step_next hclick).1) (by decide)
    · exact absurd (hvacant.prevDisabled.symm.trans (step_prev hclick).1) (by decide)
  obtain ⟨n, hphase⟩ := htracks.phase hne
  have hloaded := (hphase.settled_of_idle hidle.labelled).loaded
  rcases haction with rfl | rfl
  · obtain ⟨henabled, rfl⟩ := step_next hclick
    have hwaiting := CountLabel.waiting_next hloaded henabled
    exact ⟨n + 1, hwaiting.currentPage, hwaiting.outstanding, hmore⟩
  · obtain ⟨henabled, rfl⟩ := step_prev hclick
    cases n with
    | zero => exact absurd ((hloaded.prevDisabled rfl).symm.trans henabled) (by decide)
    | succ n =>
      have hwaiting := CountLabel.waiting_prev hloaded
      exact ⟨n, hwaiting.currentPage, hwaiting.outstanding, hmore⟩

theorem load_message_statuses_above {filter : Filter} {k : Nat} (hprinted : Printed store)
    (hother : filter.messages server now = some other) :
    load_message_statuses server now filter (some (round (store.boundary k))) =
      some (above other (store.boundary k)) := by
  rw [load_message_statuses, hother, Option.bind_some, MessageStore.load_message_statuses,
    Option.bind_some, CountLabel.concatenated_round_boundary hprinted, if_pos (boundary_long k)]
  rfl

theorem showsCurrentPage_above_iff (hprinted : Printed store) {page : Page} {k id : Nat}
    (hcurrent : page.currentPage = k + 1) :
    ShowsCurrentPage store (page.callback (some (above store id))) ↔ Fits store id k := by
  have hkept : (page.callback (some (above store id))).currentPage = k + 1 :=
    (setEnder_currentPage ..).trans hcurrent
  have htable : (page.callback (some (above store id))).table =
    loadTable ((above store id).map Message.parsed) := rfl
  have hids : (above store id).map (fun m => concatenated (round m.messageId)) =
      (above store id).map Message.messageId :=
    List.map_congr_left fun m hm => hprinted m (List.mem_of_mem_filter (List.mem_of_mem_take hm))
  rw [ShowsCurrentPage, htable, StatusPaging.rows_messageId, hids]
  constructor
  · rintro ⟨n, hn, -, hrows⟩
    rw [OverlappingPages.behind_inj hn hkept] at hrows
    exact (above_ids_iff store id k).1 hrows
  · intro hfits
    refine ⟨k, hkept, ?_, (above_ids_iff store id k).2 hfits⟩
    rw [(above_eq_iff store id k).2 hfits]

/-- In a session that kept to the rules so far, `Next` or `Prev` is clicked and answered from other
messages. The answer shows their page just when as many of them have ids up to the last one in front
of that page among the messages that were loaded. -/
theorem changed_page_iff (hprints : server.Prints) (start : FilteredPage) (hstart : start.Idle)
    (hasked : start.asked = []) (hduration : start.filter.selectedDuration ≠ .custom)
    (session clicked later : Session)
    (h : Reached (step server) (Allowed server) start.onload session) (hidle : session.page.Idle)
    (store other : MessageStore) (hstore : session.messages server = some store)
    (hother : session.page.filter.messages server now = some other) (action : Action)
    (haction : action = .next ∨ action = .prev)
    (hclick : step server session action = some clicked)
    (hanswer : step server clicked (.deliver 0 now) = some later) (k : Nat)
    (hk : clicked.page.page.currentPage = k + 1) :
    ShowsCurrentPage other later.page.page ↔ Fits other (store.boundary k) k := by
  have hfollows := follows_reached hprints hstart hasked hduration h
  obtain ⟨clickedPage, hpage, rfl⟩ := Option.map_eq_some_iff.1 hclick
  rw [if_neg (by rcases haction with rfl | rfl <;> exact Bool.false_ne_true)] at hanswer hk
  obtain ⟨n, hcurrent, houtstanding, hcontrols⟩ :=
    waiting_click hfollows hidle hstore haction hpage
  obtain rfl := OverlappingPages.behind_inj hcurrent hk
  obtain ⟨laterPage, hlater, rfl⟩ := Option.map_eq_some_iff.1 hanswer
  obtain ⟨filter, hfilter, hrest⟩ := Option.bind_eq_some_iff.1 hlater
  obtain ⟨minMessageId, hmin, rfl⟩ := Option.map_eq_some_iff.1 hrest
  dsimp only at hfilter hmin
  rw [hcontrols, List.getElem?_cons_zero, Option.some_inj] at hfilter
  rw [houtstanding, List.getElem?_cons_zero, Option.some_inj] at hmin
  subst hfilter hmin
  obtain ⟨time, -, hload⟩ := Option.bind_eq_some_iff.1 hstore
  rw [load_message_statuses_above (printed_of_messages hprints hload) hother]
  have hanswered := congrArg LabelledPage.page (answered_labelled clickedPage 0
    (some (above other (store.boundary n))))
  change (clickedPage.answered 0 _).page = _ at hanswered
  change ShowsCurrentPage _ (clickedPage.answered 0 _).page ↔ _
  rw [hanswered]
  exact showsCurrentPage_above_iff (printed_of_messages hprints hother) hcurrent

def loading : List Action := [.deliver 0 50500, .count 0 50600]

def loadedPage : Session := (run (step everyHalfSecond) loading opened.onload).getD opened.onload

def clickedNext : Session := (step everyHalfSecond loadedPage .next).getD loadedPage

def answeredLater : Session :=
  (step everyHalfSecond clickedNext (.deliver 0 70000)).getD clickedNext

theorem loadedPage_reached :
    Reached (step everyHalfSecond) (Allowed everyHalfSecond) opened.onload loadedPage :=
  reached_of_run (rfl : run (step everyHalfSecond) loading opened.onload = some loadedPage)
    (by decide)

/-- Twenty seconds later 82 messages are in the last minute and fill no second page, but the
last one is shown as one. -/
theorem changed_page_lastMinute : ∃ other,
    loadedPage.page.filter.messages everyHalfSecond 70000 = some other ∧
      ¬ShowsCurrentPage other answeredLater.page.page := by
  refine ⟨_, rfl, fun hshows => ?_⟩
  exact absurd ((changed_page_iff everyHalfSecond_prints opened ⟨rfl, rfl⟩ rfl (by decide)
    loadedPage clickedNext answeredLater loadedPage_reached (by decide) _ _ rfl rfl .next
    (.inl rfl) rfl rfl 1 rfl).1 hshows) (by decide)

end CarbonMessaging.ChangedControls
