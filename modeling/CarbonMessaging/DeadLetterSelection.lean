import CarbonMessaging.RerouteDialog
import Mathlib.Data.Fintype.BigOperators

/-! The boxes of `dlc_messages_list.jsp`: from the user's clicks to the message ids that the
broker's bean is invoked with. Abstractly the clicks move a set of messages about. -/

namespace CarbonMessaging.DeadLetterSelection

open JavaLang UriComponent RolePermissionForm

structure Page (n : Nat) where
  selectAllCheckBox : Bool
  checked : Fin n → Bool

inductive Click (n : Nat) where
  | selectAllCheckBox
  | checkbox (i : Fin n)

variable {n : Nat}

def opened : Page n := ⟨false, fun _ => false⟩

def toggleCheck (source : Bool) (page : Page n) : Page n := { page with checked := fun _ => source }

/-- `$("input[@type=checkbox]:checked").size()`, where the header's box counts too. -/
def checkedBoxesCount (page : Page n) : Nat :=
  (List.finRange n).countP page.checked + if page.selectAllCheckBox then 1 else 0

/-- `understood` says whether the page's jQuery still takes `[@type=checkbox]`; one that does not
throws there. -/
def checkSelectAll (understood source : Bool) (page : Page n) : Page n :=
  let page := if page.selectAllCheckBox then { page with selectAllCheckBox := source } else page
  let totalCheckboxCount := n + 1 - 1
  if understood ∧ totalCheckboxCount = checkedBoxesCount page then
    { page with selectAllCheckBox := true }
  else page

/-- The browser sets the box that is clicked before it runs the handler. -/
def click (understood : Bool) (page : Page n) : Click n → Page n
  | .selectAllCheckBox =>
    let source := !page.selectAllCheckBox
    toggleCheck source { page with selectAllCheckBox := source }
  | .checkbox i =>
    let source := !page.checked i
    checkSelectAll understood source { page with checked := Function.update page.checked i source }

def afterClicks (understood : Bool) (clicks : List (Click n)) : Page n :=
  clicks.foldl (click understood) opened

def checkedIDs (ids : Fin n → Str) (page : Page n) : List Str :=
  ((List.finRange n).filter page.checked).map ids

def getCheckedValues (ids : Fin n → Str) (page : Page n) : Str :=
  [','].intercalate (checkedIDs ids page)

-- `treecontrol.js`, the three pages and what they hand to the bean.

inductive Request where
  | doDeleteDLC (nameOfQueue : Str)
  | deRestoreMessages (nameOfQueue : Str)
  | doReRouteMessages (selectedQueue : Str)

inductive BeanCall where
  | deleteMessagesFromDeadLetterQueue (messageIDs : List Str)
  | restoreMessagesFromDeadLetterQueue (messageIDs : List Str)
  | restoreMessagesFromDeadLetterQueueWithDifferentDestination (messageIDs : List Str)
      (destination : Option Str)
  deriving DecidableEq

/-- The query of the address, without any encoding; a browser sends it up to a `#`. -/
def requestQuery (key value checkedValues : Str) : Str :=
  upTo '#' (key ++ '=' :: value ++ "&msgList=".toList ++ checkedValues)

def idArray (decode : Str → Option Str) (query : Str) : Except JavaException (List Str) :=
  match getParameter decode query "msgList".toList with
  | none => .error nullPointerException
  | some idList => .ok (split ',' idList)

def deadLetterPage (decode : Str → Option Str) (checkedValues : Str) :
    Request → Except JavaException BeanCall
  | .doDeleteDLC nameOfQueue =>
    (idArray decode (requestQuery "nameOfQueue".toList nameOfQueue checkedValues)).map
      .deleteMessagesFromDeadLetterQueue
  | .deRestoreMessages nameOfQueue =>
    (idArray decode (requestQuery "nameOfQueue".toList nameOfQueue checkedValues)).map
      .restoreMessagesFromDeadLetterQueue
  | .doReRouteMessages selectedQueue =>
    let query := requestQuery "newQueueName".toList selectedQueue checkedValues
    (idArray decode query).map fun messageIDs =>
      .restoreMessagesFromDeadLetterQueueWithDifferentDestination messageIDs
        (getParameter decode query "newQueueName".toList)

def send (decode : Str → Option Str) (ids : Fin n → Str) (page : Page n) (request : Request) :
    Option (Except JavaException BeanCall) :=
  let checkedValues := getCheckedValues ids page
  if checkedValues = [] then none else some (deadLetterPage decode checkedValues request)

/-- A click on a message's box puts it in or out; the header's box clears a full selection and
fills any other. -/
def select (selection : Finset (Fin n)) : Click n → Finset (Fin n)
  | .selectAllCheckBox => if selection = Finset.univ then ∅ else Finset.univ
  | .checkbox i => symmDiff selection {i}

def Page.selection (page : Page n) : Finset (Fin n) := Finset.univ.filter (page.checked · = true)

def Page.HeaderTells (page : Page n) : Prop :=
  page.selectAllCheckBox = true ↔ page.selection = Finset.univ

@[simp] theorem mem_selection {page : Page n} {i : Fin n} :
    i ∈ page.selection ↔ page.checked i = true := by
  simp [Page.selection]

theorem checkedBoxesCount_eq (page : Page n) :
    checkedBoxesCount page = page.selection.card + if page.selectAllCheckBox then 1 else 0 := by
  have hcard : (List.finRange n).countP page.checked = page.selection.card := by
    rw [List.countP_eq_length_filter,
      ← List.toFinset_card_of_nodup ((List.nodup_finRange n).filter page.checked)]
    congr 1
    ext i
    simp
  rw [checkedBoxesCount, hcard]

theorem selection_checkbox (page : Page n) (i : Fin n) (header : Bool) :
    Page.selection ⟨header, Function.update page.checked i (!page.checked i)⟩ =
      symmDiff page.selection {i} := by
  ext j
  rw [mem_selection, Finset.mem_symmDiff, mem_selection, Finset.mem_singleton]
  by_cases hj : j = i
  · subst hj
    simp
  · simp [hj]

theorem checkSelectAll_selection (understood source : Bool) (page : Page n) :
    (checkSelectAll understood source page).selection = page.selection := by
  rw [checkSelectAll]
  split_ifs <;> rfl

theorem click_checkbox_selection (understood : Bool) (page : Page n) (i : Fin n) :
    (click understood page (.checkbox i)).selection = select page.selection (.checkbox i) := by
  rw [click, checkSelectAll_selection]
  exact selection_checkbox page i page.selectAllCheckBox

theorem selection_toggleCheck (source : Bool) (page : Page n) :
    (toggleCheck source page).selection = if source then Finset.univ else ∅ := by
  ext i
  rw [mem_selection, toggleCheck]
  cases source <;> simp

def Page.HeaderSound (page : Page n) : Prop :=
  page.selectAllCheckBox = true → page.selection = Finset.univ

theorem card_eq_iff (selection : Finset (Fin n)) :
    n = selection.card ↔ selection = Finset.univ := by
  rw [← Finset.card_eq_iff_eq_univ, Fintype.card_fin, eq_comm]

theorem checkSelectAll_header {understood source : Bool} {page : Page n}
    (hsource : page.selectAllCheckBox = true → source = false) :
    (checkSelectAll understood source page).selectAllCheckBox =
      (understood && decide (page.selection = Finset.univ)) := by
  obtain ⟨header, checked⟩ := page
  have hcount : ∀ header', checkedBoxesCount (⟨header', checked⟩ : Page n) =
      (Page.selection ⟨header, checked⟩).card + if header' then 1 else 0 := by
    intro header'
    exact checkedBoxesCount_eq _
  have hoff : (if header then (⟨source, checked⟩ : Page n) else ⟨header, checked⟩) =
      ⟨false, checked⟩ := by
    cases header with
    | false => rfl
    | true => rw [if_pos rfl, hsource rfl]
  rw [checkSelectAll]
  simp only [hoff, hcount, Bool.false_eq_true, ↓reduceIte, Nat.add_zero, Nat.add_sub_cancel,
    card_eq_iff]
  by_cases hall : understood = true ∧ (Page.selection ⟨header, checked⟩) = Finset.univ
  · rw [if_pos hall]
    simp [hall.1, hall.2]
  · rw [if_neg hall]
    cases understood <;> simp_all

theorem click_checkbox_header (understood : Bool) {page : Page n} (h : page.HeaderSound)
    (i : Fin n) : (click understood page (.checkbox i)).selectAllCheckBox =
      (understood && decide ((click understood page (.checkbox i)).selection = Finset.univ)) := by
  have hsource : page.selectAllCheckBox = true → (!page.checked i) = false := by
    intro hall
    have hi : i ∈ page.selection := by
      rw [h hall]
      exact Finset.mem_univ i
    rw [mem_selection.1 hi]
    rfl
  rw [click, checkSelectAll_selection]
  exact checkSelectAll_header hsource

theorem headerSound_click {understood : Bool} {page : Page n} (h : page.HeaderSound)
    (c : Click n) : (click understood page c).HeaderSound := by
  intro hheader
  cases c with
  | selectAllCheckBox =>
    rw [click, selection_toggleCheck]
    exact if_pos hheader
  | checkbox i =>
    rw [click_checkbox_header understood h, Bool.and_eq_true, decide_eq_true_iff] at hheader
    exact hheader.2

theorem headerSound_afterClicks (understood : Bool) (clicks : List (Click n)) :
    (afterClicks understood clicks).HeaderSound := by
  have hrun : ∀ (clicks : List (Click n)) (page : Page n), page.HeaderSound →
      (clicks.foldl (click understood) page).HeaderSound := by
    intro clicks
    induction clicks with
    | nil => exact fun page h => h
    | cons c clicks ih => exact fun page h => ih _ (headerSound_click h c)
  exact hrun clicks opened fun hheader => absurd hheader Bool.false_ne_true

theorem click_refines (hn : 0 < n) {page : Page n} (h : page.HeaderTells) (c : Click n) :
    (click true page c).selection = select page.selection c ∧ (click true page c).HeaderTells := by
  cases c with
  | selectAllCheckBox =>
    have hne : (Finset.univ : Finset (Fin n)) ≠ ∅ := by
      intro hnone
      exact Finset.notMem_empty (⟨0, hn⟩ : Fin n) (hnone ▸ Finset.mem_univ _)
    rw [Page.HeaderTells, click, selection_toggleCheck, select]
    cases hheader : page.selectAllCheckBox with
    | true =>
      have hall := h.1 hheader
      exact ⟨(if_pos hall).symm, by simp [toggleCheck, hne.symm]⟩
    | false =>
      have hpart : page.selection ≠ Finset.univ := by
        intro hall
        have := h.2 hall
        rw [hheader] at this
        cases this
      exact ⟨(if_neg hpart).symm, by simp [toggleCheck]⟩
  | checkbox i =>
    refine ⟨click_checkbox_selection true page i, ?_⟩
    rw [Page.HeaderTells, click_checkbox_header true fun hheader => h.1 hheader,
      Bool.true_and, decide_eq_true_iff]

theorem headerTells_opened (hn : 0 < n) : (opened : Page n).HeaderTells := by
  refine iff_of_false (by simp [opened]) fun hall => ?_
  have hmem : (⟨0, hn⟩ : Fin n) ∈ (opened : Page n).selection := by
    rw [hall]
    exact Finset.mem_univ _
  rw [mem_selection] at hmem
  cases hmem

theorem afterClicks_refines (hn : 0 < n) (clicks : List (Click n)) :
    (afterClicks true clicks).selection = clicks.foldl select ∅ ∧
      (afterClicks true clicks).HeaderTells := by
  have hrun : ∀ (clicks : List (Click n)) (page : Page n), page.HeaderTells →
      (clicks.foldl (click true) page).selection = clicks.foldl select page.selection ∧
        (clicks.foldl (click true) page).HeaderTells := by
    intro clicks
    induction clicks with
    | nil => exact fun page h => ⟨rfl, h⟩
    | cons c clicks ih =>
      intro page h
      obtain ⟨hselection, htells⟩ := click_refines hn h c
      rw [List.foldl_cons, List.foldl_cons, ← hselection]
      exact ih _ htells
  have hnone : (opened : Page n).selection = ∅ := by
    ext i
    simp [opened]
  rw [← hnone]
  exact hrun clicks opened (headerTells_opened hn)

/-- A text that stands for itself in the query of an address. -/
def IsPlainText (s : Str) : Prop :=
  ∀ c ∈ s, c.toNat < 128 ∧ c ≠ '%' ∧ c ≠ '+' ∧ c ≠ '&' ∧ c ≠ '#'

def IsPlainID (id : Str) : Prop := id ≠ [] ∧ ',' ∉ id ∧ IsPlainText id

theorem decode_plainText {decode : Str → Option Str} (hdecode : IsFormDecoding decode) {s : Str}
    (h : IsPlainText s) : decode s = some s :=
  decode_literal hdecode fun c hc => ⟨(h c hc).1, (h c hc).2.1, (h c hc).2.2.1⟩

theorem split_intercalate {c : Char} {parts : List Str} (hne : parts ≠ [])
    (h : ∀ part ∈ parts, part ≠ [] ∧ c ∉ part) : split c ([c].intercalate parts) = parts := by
  have hparts : ([c].intercalate parts).splitOn c = parts :=
    List.splitOn_intercalate c (fun part hpart => (h part hpart).2) hne
  rw [split]
  split_ifs with hmem
  · rw [hparts, List.rdropWhile_eq_self_iff]
    intro hlast hempty
    exact (h _ (List.getLast_mem hlast)).1 (List.isEmpty_iff.1 hempty)
  · exact (List.splitOn_eq_singleton hmem).symm.trans hparts

theorem intercalate_ne_nil {c : Char} {parts : List Str} (hne : parts ≠ [])
    (h : ∀ part ∈ parts, part ≠ []) : [c].intercalate parts ≠ [] := by
  cases parts with
  | nil => exact absurd rfl hne
  | cons part parts =>
    by_cases hlast : parts = []
    · rw [hlast, List.intercalate_singleton]
      exact h part List.mem_cons_self
    · rw [List.intercalate_cons_of_ne_nil hlast]
      simp

theorem isPlainText_msgList : IsPlainText "msgList".toList := by
  simp [IsPlainText]

theorem isPlainText_intercalate {ids : List Str} (hids : ∀ id ∈ ids, IsPlainID id) :
    IsPlainText ([','].intercalate ids) := by
  intro c hc
  obtain rfl | ⟨id, hid, hc⟩ := RerouteDialog.mem_intercalate_single hc
  · decide
  · exact (hids id hid).2.2 c hc

theorem notMem_pair {key value : Str} {c : Char} (hkey : c ∉ key) (hvalue : c ∉ value)
    (hc : c ≠ '=') : c ∉ key ++ '=' :: value := by
  simp [hkey, hvalue, hc]

section
variable {decode : Str → Option Str} {key value : Str} {ids : List Str}

theorem splitOn_requestQuery (hkey : IsPlainText key) (hvalue : IsPlainText value)
    (hids : ∀ id ∈ ids, IsPlainID id) :
    (requestQuery key value ([','].intercalate ids)).splitOn '&' =
      [key ++ '=' :: value, "msgList".toList ++ '=' :: [','].intercalate ids] := by
  have hlist := isPlainText_intercalate hids
  have habsent : ∀ {s : Str}, IsPlainText s → '&' ∉ s ∧ '#' ∉ s := fun h =>
    ⟨fun hc => (h _ hc).2.2.2.1 rfl, fun hc => (h _ hc).2.2.2.2 rfl⟩
  have hquery : key ++ '=' :: value ++ "&msgList=".toList ++ [','].intercalate ids =
      (key ++ '=' :: value) ++ '&' :: ("msgList".toList ++ '=' :: [','].intercalate ids) := by
    simp
  have hfirst := notMem_pair (habsent hkey).1 (habsent hvalue).1 (by decide)
  have hsecond := notMem_pair (habsent isPlainText_msgList).1 (habsent hlist).1 (by decide)
  have hfragment : '#' ∉ (key ++ '=' :: value) ++
      '&' :: ("msgList".toList ++ '=' :: [','].intercalate ids) := by
    rw [List.mem_append, List.mem_cons, not_or, not_or]
    exact ⟨notMem_pair (habsent hkey).2 (habsent hvalue).2 (by decide), by decide,
      notMem_pair (habsent isPlainText_msgList).2 (habsent hlist).2 (by decide)⟩
  rw [requestQuery, hquery, upTo_of_notMem hfragment,
    List.splitOn_append_cons_self_of_not_mem hfirst, List.splitOn_eq_singleton hsecond]

variable (hdecode : IsFormDecoding decode) (hkey : IsPlainText key) (hequals : '=' ∉ key)
  (hvalue : IsPlainText value) (hids : ∀ id ∈ ids, IsPlainID id)
include hdecode hkey hequals hvalue hids

theorem getParameter_msgList (hother : key ≠ "msgList".toList) :
    getParameter decode (requestQuery key value ([','].intercalate ids)) "msgList".toList =
      some ([','].intercalate ids) := by
  rw [getParameter, parameterValue, splitOn_requestQuery hkey hvalue hids, List.findSome?_cons,
    splitFirst_append hequals, List.findSome?_cons, splitFirst_append (by decide)]
  simp only [hother, ↓reduceIte, Option.bind_some]
  exact decode_plainText hdecode (isPlainText_intercalate hids)

theorem getParameter_key :
    getParameter decode (requestQuery key value ([','].intercalate ids)) key = some value := by
  rw [getParameter, parameterValue, splitOn_requestQuery hkey hvalue hids, List.findSome?_cons,
    splitFirst_append hequals]
  simp only [↓reduceIte, Option.bind_some]
  exact decode_plainText hdecode hvalue

theorem idArray_requestQuery (hother : key ≠ "msgList".toList) (hne : ids ≠ []) :
    idArray decode (requestQuery key value ([','].intercalate ids)) = .ok ids := by
  rw [idArray, getParameter_msgList hdecode hkey hequals hvalue hids hother]
  have hparts : ∀ id ∈ ids, id ≠ [] ∧ ',' ∉ id := fun id hid => ⟨(hids id hid).1, (hids id hid).2.1⟩
  exact congrArg Except.ok (split_intercalate hne hparts)

end

def idsOf (ids : Fin n → Str) (selection : Finset (Fin n)) : List Str :=
  ((List.finRange n).filter fun i => decide (i ∈ selection)).map ids

def Request.call (messageIDs : List Str) : Request → BeanCall
  | .doDeleteDLC _ => .deleteMessagesFromDeadLetterQueue messageIDs
  | .deRestoreMessages _ => .restoreMessagesFromDeadLetterQueue messageIDs
  | .doReRouteMessages selectedQueue =>
    .restoreMessagesFromDeadLetterQueueWithDifferentDestination messageIDs (some selectedQueue)

def Request.queue : Request → Str
  | .doDeleteDLC queue | .deRestoreMessages queue | .doReRouteMessages queue => queue

theorem checkedIDs_eq (ids : Fin n → Str) (page : Page n) :
    checkedIDs ids page = idsOf ids page.selection := by
  simp [checkedIDs, idsOf]

theorem idsOf_eq_nil_iff {ids : Fin n → Str} {selection : Finset (Fin n)} :
    idsOf ids selection = [] ↔ selection = ∅ := by
  simp [idsOf, Finset.eq_empty_iff_forall_notMem]

theorem mem_idsOf {ids : Fin n → Str} {selection : Finset (Fin n)} {id : Str} :
    id ∈ idsOf ids selection ↔ ∃ i ∈ selection, ids i = id := by
  simp [idsOf]

theorem deadLetterPage_eq {decode : Str → Option Str} (hdecode : IsFormDecoding decode)
    {request : Request} (hqueue : IsPlainText request.queue) {messageIDs : List Str}
    (hids : ∀ id ∈ messageIDs, IsPlainID id) (hne : messageIDs ≠ []) :
    deadLetterPage decode ([','].intercalate messageIDs) request =
      .ok (request.call messageIDs) := by
  have hname : IsPlainText "nameOfQueue".toList := by simp [IsPlainText]
  have hnew : IsPlainText "newQueueName".toList := by simp [IsPlainText]
  cases request with
  | doDeleteDLC queue | deRestoreMessages queue =>
    have hplain : IsPlainText queue := hqueue
    rw [deadLetterPage, idArray_requestQuery hdecode hname (by decide) hplain hids (by decide) hne]
    rfl
  | doReRouteMessages queue =>
    have hplain : IsPlainText queue := hqueue
    simp only [deadLetterPage, getParameter_key hdecode hnew (by decide) hplain hids,
      idArray_requestQuery hdecode hnew (by decide) hplain hids (by decide) hne]
    rfl

theorem selection_afterClicks (clicks : List (Click n)) :
    (afterClicks true clicks).selection = clicks.foldl select ∅ := by
  cases n with
  | zero => exact Subsingleton.elim _ _
  | succ n => exact (afterClicks_refines n.succ_pos clicks).1

end CarbonMessaging.DeadLetterSelection
