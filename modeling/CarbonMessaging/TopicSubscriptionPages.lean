import CarbonMessaging.FilteredLists
import CarbonMessaging.SinglePrecision

/-! The topic subscriptions in the console. The view splits the durable ones in two and shows three
tables, with one variable for the page count: each table that is there overwrites it, and all
paginators read it after the last. -/

namespace CarbonMessaging.TopicSubscriptionPages

open JavaLang SinglePrecision AndesUi AndesUi.UIUtils

def subscriptionCountPerPage : Nat := 20

/-- The active and the inactive ones; both tables are missing when there is nothing to split. -/
def splitDurable (durableTopicSubscriptionList : Option (List Subscription)) :
    Option (List Subscription) × Option (List Subscription) :=
  match durableTopicSubscriptionList with
  | none | some [] => (none, none)
  | some subs => (some (subs.filter (·.active)), some (subs.filter (!·.active)))

def countPages (table : Option (List Subscription)) (numberOfPages : Nat) : Nat :=
  match table with
  | none => numberOfPages
  | some subscriptions => pageCount subscriptions.length subscriptionCountPerPage

def filteredTable (table : Option (List Subscription)) (pageNumber : Int) :
    Except JavaException (Option (List (Option Subscription))) :=
  match table with
  | none => pure none
  | some subscriptions => do
    let filtered ← getFilteredSubscriptionList subscriptions
      (pageNumber * subscriptionCountPerPage) subscriptionCountPerPage
    pure (some filtered)

/-- A table of the view, where it is there: the rows of the page, and the numbers that its
paginator is given. -/
structure Shown where
  rows : Option (List (Option Subscription))
  pageNumber : Int
  numberOfPages : Nat

/-- `topic_subscriptions_list.jsp`; the three paginators get the page number of the first table. -/
def topicSubscriptionsList (normalTopicSubscriptionList durableTopicSubscriptionList :
    Option (List Subscription))
    (normalTopicPageNumber activeDurableTopicPageNumber inactiveDurableTopicPageNumber : Int) :
    Except JavaException (List Shown) := do
  let (active, inactive) := splitDurable durableTopicSubscriptionList
  let numberOfPages := countPages normalTopicSubscriptionList 1
  let normalRows ← filteredTable normalTopicSubscriptionList normalTopicPageNumber
  let numberOfPages := countPages active numberOfPages
  let activeRows ← filteredTable active activeDurableTopicPageNumber
  let numberOfPages := countPages inactive numberOfPages
  let inactiveRows ← filteredTable inactive inactiveDurableTopicPageNumber
  pure ([normalRows, activeRows, inactiveRows].map fun rows =>
    ⟨rows, normalTopicPageNumber, numberOfPages⟩)

def tables (normal durable : Option (List Subscription)) : List (Option (List Subscription)) :=
  [normal, (splitDurable durable).1, (splitDurable durable).2]

/-- The paginator of a table has as many pages as the table fills, and every subscription is on
one of them. -/
structure Reaches (subscriptions : List Subscription) (pages : Nat) : Prop where
  count : pages = subscriptions.length ⌈/⌉ subscriptionCountPerPage
  reached : ∀ subscription ∈ subscriptions, ∃ q < pages, ∃ slots,
    getFilteredSubscriptionList subscriptions (q * subscriptionCountPerPage)
      subscriptionCountPerPage = .ok slots ∧ some subscription ∈ slots

def AllReachable (normal durable : Option (List Subscription)) (view : List Shown) : Prop :=
  ∀ entry ∈ (tables normal durable).zip view, ∀ subscriptions, entry.1 = some subscriptions →
    Reaches subscriptions entry.2.numberOfPages

def decidingTable (normal durable : Option (List Subscription)) : Option (List Subscription) :=
  (splitDurable durable).2.or normal

/-- All tables fill as many pages as the deciding one, and its count survives the rounding. -/
def SamePages (normal durable : Option (List Subscription)) : Prop :=
  ∀ deciding, decidingTable normal durable = some deciding →
    pageCount deciding.length subscriptionCountPerPage =
        deciding.length ⌈/⌉ subscriptionCountPerPage ∧
      ∀ subscriptions, some subscriptions ∈ tables normal durable →
        subscriptions.length ⌈/⌉ subscriptionCountPerPage =
          deciding.length ⌈/⌉ subscriptionCountPerPage

theorem splitDurable_eq (durable : Option (List Subscription)) :
    splitDurable durable = (none, none) ∨
      ∃ active inactive, splitDurable durable = (some active, some inactive) := by
  unfold splitDurable
  split
  · exact .inl rfl
  · exact .inl rfl
  · exact .inr ⟨_, _, rfl⟩

theorem reaches_iff {subscriptions : List Subscription} {pages : Nat} :
    Reaches subscriptions pages ↔ pages = subscriptions.length ⌈/⌉ subscriptionCountPerPage := by
  refine ⟨fun h => h.count, fun h => ⟨h, fun subscription hmem => ?_⟩⟩
  have hsize : 0 < subscriptionCountPerPage := by decide
  obtain ⟨i, hi, rfl⟩ := List.getElem_of_mem hmem
  have hstart : i / subscriptionCountPerPage * subscriptionCountPerPage ≤ subscriptions.length :=
    (Nat.div_mul_le_self ..).trans hi.le
  have hpage := @pageOf_eq Subscription Subscription id _ _ _ hstart hsize
  push_cast at hpage
  exact ⟨i / subscriptionCountPerPage, h ▸ div_lt_ceilDiv hi hsize, _, hpage,
    List.mem_map.2 ⟨_, getElem_mem_page hi hsize, rfl⟩⟩

theorem filteredTable_first (table : Option (List Subscription)) :
    ∃ rows, filteredTable table 0 = .ok rows := by
  cases table with
  | none => exact ⟨none, rfl⟩
  | some subscriptions =>
    have hpage := @pageOf_eq Subscription Subscription id 0 subscriptionCountPerPage subscriptions
      (Nat.zero_le _) (by decide)
    exact ⟨_, congrArg (Except.map some) hpage⟩

theorem first_pages_open (normal durable : Option (List Subscription)) :
    ∃ view, topicSubscriptionsList normal durable 0 0 0 = .ok view := by
  obtain ⟨rows, hnormal⟩ := filteredTable_first normal
  obtain ⟨rows', hactive⟩ := filteredTable_first (splitDurable durable).1
  obtain ⟨rows'', hinactive⟩ := filteredTable_first (splitDurable durable).2
  simp only [topicSubscriptionsList, hnormal, hactive, hinactive]
  exact ⟨_, rfl⟩

section
variable {normal durable : Option (List Subscription)} {view : List Shown}

/-- All paginators of an opened view have the last table's count. -/
theorem view_eq {n a i : Int} (hview : topicSubscriptionsList normal durable n a i = .ok view) :
    ∃ rows rows' rows'' pages, view = [⟨rows, n, pages⟩, ⟨rows', n, pages⟩, ⟨rows'', n, pages⟩] ∧
      ∀ deciding, decidingTable normal durable = some deciding →
        pages = pageCount deciding.length subscriptionCountPerPage := by
  rw [topicSubscriptionsList] at hview
  obtain ⟨rows, -, hview⟩ := FailingFilters.ok_of_bind hview
  obtain ⟨rows', -, hview⟩ := FailingFilters.ok_of_bind hview
  obtain ⟨rows'', -, hview⟩ := FailingFilters.ok_of_bind hview
  cases hview
  refine ⟨rows, rows', rows'', countPages (splitDurable durable).2
    (countPages (splitDurable durable).1 (countPages normal 1)), rfl, fun deciding hdeciding => ?_⟩
  rcases splitDurable_eq durable with hsplit | ⟨active, inactive, hsplit⟩
  · rw [decidingTable, hsplit, Option.none_or] at hdeciding
    rw [hsplit, hdeciding]
    rfl
  · rw [decidingTable, hsplit, Option.some_or] at hdeciding
    cases hdeciding
    rw [hsplit]
    rfl

theorem decidingTable_mem {deciding : List Subscription}
    (h : decidingTable normal durable = some deciding) : some deciding ∈ tables normal durable := by
  rcases splitDurable_eq durable with hsplit | ⟨active, inactive, hsplit⟩
  · rw [decidingTable, hsplit, Option.none_or] at h
    simp [tables, h]
  · rw [decidingTable, hsplit, Option.some_or] at h
    simp [tables, hsplit, h]

theorem decidingTable_of_mem {subscriptions : List Subscription}
    (h : some subscriptions ∈ tables normal durable) :
    ∃ deciding, decidingTable normal durable = some deciding := by
  rcases splitDurable_eq durable with hsplit | ⟨active, inactive, hsplit⟩
  · refine ⟨subscriptions, ?_⟩
    rw [decidingTable, hsplit, Option.none_or]
    simpa [tables, hsplit, eq_comm] using h
  · exact ⟨inactive, by rw [decidingTable, hsplit, Option.some_or]⟩

theorem allReachable_iff {n a i : Int}
    (hview : topicSubscriptionsList normal durable n a i = .ok view) :
    AllReachable normal durable view ↔ SamePages normal durable := by
  obtain ⟨rows, rows', rows'', pages, rfl, hpages⟩ := view_eq hview
  have hall : AllReachable normal durable
      [⟨rows, n, pages⟩, ⟨rows', n, pages⟩, ⟨rows'', n, pages⟩] ↔
        ∀ subscriptions, some subscriptions ∈ tables normal durable →
          pages = subscriptions.length ⌈/⌉ subscriptionCountPerPage := by
    refine ⟨fun h subscriptions hmem => ?_, fun h ⟨table, shown⟩ hentry subscriptions hsome => ?_⟩
    · simp only [tables, List.mem_cons, List.not_mem_nil, or_false] at hmem
      rcases hmem with hnormal | hactive | hinactive
      · exact (h (normal, ⟨rows, n, pages⟩) (by simp [tables]) subscriptions hnormal.symm).count
      · exact (h (_, ⟨rows', n, pages⟩) (by simp [tables]) subscriptions hactive.symm).count
      · exact (h (_, ⟨rows'', n, pages⟩) (by simp [tables]) subscriptions hinactive.symm).count
    · obtain ⟨htable, hshown⟩ := List.of_mem_zip hentry
      have hcount : shown.numberOfPages = pages := by
        simp only [List.mem_cons, List.not_mem_nil, or_false] at hshown
        rcases hshown with rfl | rfl | rfl <;> rfl
      exact reaches_iff.2 (hcount.trans (h subscriptions (hsome ▸ htable)))
  rw [hall, SamePages]
  refine ⟨fun h deciding hdeciding => ?_, fun h subscriptions hmem => ?_⟩
  · have hdecides := h deciding (decidingTable_mem hdeciding)
    rw [hpages deciding hdeciding] at h hdecides
    exact ⟨hdecides, fun subscriptions hmem => (h subscriptions hmem).symm.trans hdecides⟩
  · obtain ⟨deciding, hdeciding⟩ := decidingTable_of_mem hmem
    obtain ⟨hcount, hsame⟩ := h deciding hdeciding
    rw [hpages deciding hdeciding, hcount, hsame subscriptions hmem]

end

def temporary : Subscription := ⟨none, none, none, none, false, true, 0, none⟩

def durableSubscription (active : Bool) : Subscription :=
  ⟨none, none, none, none, true, active, 0, none⟩

theorem pageCount_one : pageCount 1 subscriptionCountPerPage = 1 ⌈/⌉ subscriptionCountPerPage :=
  pageCount_eq (by decide) (by decide) (by decide)

theorem allReachable_iff_one : ∃ view,
    topicSubscriptionsList (some [temporary])
        (some [durableSubscription true, durableSubscription false]) 0 0 0 = .ok view ∧
      AllReachable (some [temporary])
        (some [durableSubscription true, durableSubscription false]) view := by
  obtain ⟨view, hview⟩ := first_pages_open (some [temporary])
    (some [durableSubscription true, durableSubscription false])
  refine ⟨view, hview, (allReachable_iff hview).2 fun deciding hdeciding => ?_⟩
  cases Option.some.inj hdeciding
  refine ⟨pageCount_one, fun subscriptions hmem => ?_⟩
  have hlength : subscriptions.length = 1 := by
    simp only [tables, splitDurable, List.mem_cons, List.not_mem_nil, or_false,
      Option.some.injEq] at hmem
    rcases hmem with rfl | rfl | rfl <;> rfl
  rw [hlength]
  rfl

theorem second_page_unreached : ∃ view,
    topicSubscriptionsList (some (List.replicate 21 temporary))
        (some [durableSubscription false]) 0 0 0 = .ok view ∧
      ¬AllReachable (some (List.replicate 21 temporary)) (some [durableSubscription false])
        view := by
  refine ⟨_, rfl, fun h => ?_⟩
  have hfirst := (h _ List.mem_cons_self _ rfl).count
  exact absurd (hfirst.symm.trans pageCount_one) (by decide)

end CarbonMessaging.TopicSubscriptionPages
