import CarbonMessaging.FilteredLists

/-! Page requests that the list does not reach. An array is sized by what is left of the list, in
every copy of the loop, and a list that ends before the page leaves less than nothing. -/

namespace CarbonMessaging.PageRequests

open JavaLang FilteredLists AndesClusterMgt.ClusterManagerService

section
variable {α β γ : Type} {copy : α → β} {shown : α → γ} {shown' : β → γ}

/-- The request returns the elements from `start` on, at most `max` of them, without a gap. -/
def Returns (shown : α → γ) (shown' : β → γ)
    (page : List α → Int → Int → Except JavaException (List (Option β))) (xs : List α)
    (start max : Int) : Prop :=
  ∃ slots, page xs start max = .ok slots ∧
    slots.map (Option.map shown') = ((xs.drop start.toNat).take max.toNat).map (some ∘ shown)

theorem returns_iff (hcopy : ∀ a, shown' (copy a) = shown a) {start max : Int} (hstart : 0 ≤ start)
    (hmax : 1 ≤ max) (xs : List α) :
    Returns shown shown' (pageOf copy) xs start max ↔ start ≤ xs.length := by
  lift start to Nat using hstart
  lift max to Nat using by omega
  rcases Nat.lt_or_ge xs.length start with hbeyond | hinside
  · refine iff_of_false (fun ⟨slots, hpage, _⟩ => ?_) (by omega)
    rw [pageOf_beyond hbeyond] at hpage
    cases hpage
  · refine iff_of_true ⟨_, pageOf_eq hinside (by omega), ?_⟩ (by omega)
    rw [List.map_map, Int.toNat_natCast, Int.toNat_natCast]
    exact List.map_congr_left fun a _ => congrArg some (hcopy a)

end

/-- The seven functions serve a request just when it starts within the list or at its end. -/
theorem pageRequest_iff {start max : Int} (hstart : 0 ≤ start) (hmax : 1 ≤ max) :
    (∀ xs, Returns copiedOfQueue copiedOfQueue AndesUi.UIUtils.getFilteredQueueList xs start max ↔
      start ≤ xs.length) ∧
    (∀ xs, Returns id id AndesUi.UIUtils.getFilteredSubscriptionList xs start max ↔
      start ≤ xs.length) ∧
    (∀ (Message : Type) (xs : List Message),
      Returns id id AndesCore.getFilteredMsgsList xs start max ↔ start ≤ xs.length) ∧
    (∀ xs, Returns copiedOfGlobalQueue copiedOfGlobalQueue pageOfGlobalQueues xs start max ↔
      start ≤ xs.length) ∧
    (∀ xs, Returns id id pageOfDestinationQueues xs start max ↔ start ≤ xs.length) ∧
    (∀ xs, Returns id id pageOfTopics xs start max ↔ start ≤ xs.length) ∧
    (∀ xs, Returns copiedOfNode copiedOfNode pageOfNodes xs start max ↔ start ≤ xs.length) := by
  refine ⟨?_, ?_, fun Message => ?_, ?_, ?_, ?_, ?_⟩
  all_goals exact returns_iff (fun _ => rfl) hstart hmax

theorem pageRequest_iff_last : Returns id id AndesCore.getFilteredMsgsList [1, 2, 3] 2 20 :=
  ((@pageRequest_iff 2 20 (by decide) (by decide)).2.2.1 Nat [1, 2, 3]).2
    (by decide)

theorem emptied_page_fails :
    ¬Returns id id (@AndesCore.getFilteredMsgsList Nat) [] 20 20 := by
  rintro ⟨slots, hpage, -⟩
  cases hpage

end CarbonMessaging.PageRequests
