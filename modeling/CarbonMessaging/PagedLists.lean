import CarbonMessaging.DomainFilters
import Mathlib.Algebra.Order.Floor.Div

/-! Pages cut out of a list. Seven functions of three bundles size an array first and fill it in
a loop with two counters and an early end; they differ in what they copy. The positions of a page
are never negative, so `size() - startingIndex` stays an int. -/

namespace CarbonMessaging

open JavaLang FailingFilters

def negativeArraySizeException : JavaException :=
  ⟨.other "java.lang.NegativeArraySizeException".toList, none⟩

section
variable {α β : Type}

def newArray (β : Type) (size : Int) : Except JavaException (List (Option β)) :=
  if size < 0 then .error negativeArraySizeException else .ok (List.replicate size.toNat none)

def arraySet (array : List (Option β)) (index : Nat) (value : β) :
    Except JavaException (List (Option β)) :=
  if index < array.length then .ok (array.set index (some value))
  else .error arrayIndexOutOfBoundsException

/-- The loop over the whole list; `break` ends it once the page is full. -/
def fillPage (copy : α → β) (startingIndex maxCount : Int) :
    List α → (index detailsIndex : Nat) → List (Option β) → Except JavaException (List (Option β))
  | [], _, _, array => .ok array
  | detail :: rest, index, detailsIndex, array =>
    if startingIndex = index ∨ startingIndex < index then do
      let array ← arraySet array detailsIndex (copy detail)
      if (detailsIndex + 1 : Nat) = maxCount then pure array
      else fillPage copy startingIndex maxCount rest (index + 1) (detailsIndex + 1) array
    else fillPage copy startingIndex maxCount rest (index + 1) detailsIndex array

def pageOf (copy : α → β) (resultList : List α) (startingIndex maxCount : Int) :
    Except JavaException (List (Option β)) := do
  let resultSetSize :=
    if resultList.length - startingIndex < maxCount then resultList.length - startingIndex
    else maxCount
  fillPage copy startingIndex maxCount resultList 0 0 (← newArray β resultSetSize)

variable {copy : α → β} {start max : Nat}

theorem arraySet_next (done : List (Option β)) (free : Nat) (value : β) :
    arraySet (done ++ List.replicate (free + 1) none) done.length value =
      .ok ((done ++ [some value]) ++ List.replicate free none) := by
  rw [arraySet, if_pos (by simp), List.set_append_right _ _ le_rfl, Nat.sub_self,
    List.replicate_succ, List.set_cons_zero, List.append_assoc, List.singleton_append]

theorem fillPage_skip (xs : List α) {index : Nat} (h : index ≤ start) (array : List (Option β)) :
    fillPage copy start max xs index 0 array =
      fillPage copy start max (xs.drop (start - index)) start 0 array := by
  induction xs generalizing index with
  | nil => simp [fillPage]
  | cons x xs ih =>
    rcases h.eq_or_lt with rfl | hlt
    · rw [Nat.sub_self, List.drop_zero]
    · have hbefore : ¬((start : Int) = index ∨ (start : Int) < index) := by omega
      have hdrop : start - index = (start - (index + 1)) + 1 := by omega
      rw [fillPage, if_neg hbefore, ih hlt, hdrop, List.drop_succ_cons]

/-- The loop inside the page: as many free slots are left as elements will be copied. -/
theorem fillPage_fill (xs : List α) {index : Nat} (h : start ≤ index) {done : List (Option β)}
    (hdone : done.length < max) :
    fillPage copy start max xs index done.length
        (done ++ List.replicate (min xs.length (max - done.length)) none) =
      .ok (done ++ (xs.take (max - done.length)).map (some ∘ copy)) := by
  induction xs generalizing index done with
  | nil => simp [fillPage]
  | cons x xs ih =>
    have hinside : (start : Int) = index ∨ (start : Int) < index := by omega
    have hfree : min (x :: xs).length (max - done.length) =
        min xs.length (max - (done.length + 1)) + 1 := by
      rw [List.length_cons]
      omega
    have htake : max - done.length = (max - (done.length + 1)) + 1 := by omega
    rw [fillPage, if_pos hinside, hfree, arraySet_next, htake, List.take_succ_cons, List.map_cons]
    by_cases hfull : done.length + 1 = max
    · simp [hfull, bind, Except.bind, pure, Except.pure]
    · have hlength : (done ++ [some (copy x)]).length = done.length + 1 := by simp
      have hnext := @ih (index + 1) (by omega) (done ++ [some (copy x)]) (by omega)
      rw [hlength] at hnext
      have hmore : ¬((done.length + 1 : Nat) : Int) = max := by omega
      simp only [bind, Except.bind, if_neg hmore]
      rw [hnext, List.append_assoc, List.singleton_append]
      rfl

theorem pageOf_eq {xs : List α} (hstart : start ≤ xs.length) (hmax : 0 < max) :
    pageOf copy xs start max = .ok (((xs.drop start).take max).map (some ∘ copy)) := by
  have hsize : (if (xs.length : Int) - start < max then (xs.length : Int) - start else max) =
      (min (xs.drop start).length max : Nat) := by
    rw [List.length_drop]
    split <;> omega
  have hfill := @fillPage_fill _ _ copy start max (xs.drop start) start le_rfl [] hmax
  have hnonneg : ¬((min (xs.drop start).length max : Nat) : Int) < 0 := by omega
  simp only [pageOf, hsize, newArray, if_neg hnonneg, Int.toNat_natCast, bind, Except.bind]
  rw [fillPage_skip xs (Nat.zero_le start), Nat.sub_zero]
  simpa using hfill

theorem pageOf_beyond {xs : List α} (hstart : xs.length < start) :
    pageOf copy xs start max = .error negativeArraySizeException := by
  have hshort : (xs.length : Int) - start < max := by omega
  have hnegative : (xs.length : Int) - start < 0 := by omega
  simp only [pageOf, if_pos hshort, newArray, if_pos hnegative]
  rfl

theorem pageOf_nonpos {xs : List α} (hstart : start < xs.length) {max : Int} (hmax : max ≤ 0) :
    ∃ e, pageOf copy xs start max = .error e := by
  have hsize : ¬(xs.length : Int) - start < max := by omega
  rcases hmax.lt_or_eq with hnegative | rfl
  · refine ⟨negativeArraySizeException, ?_⟩
    simp only [pageOf, if_neg hsize, newArray, if_pos hnegative]
    rfl
  · obtain ⟨x, rest, hrest⟩ := List.exists_cons_of_length_pos
      (by rw [List.length_drop]; omega : 0 < (xs.drop start).length)
    have hskip := @fillPage_skip _ β copy start 0 xs 0 (Nat.zero_le _) []
    rw [Nat.sub_zero, hrest] at hskip
    refine ⟨arrayIndexOutOfBoundsException, ?_⟩
    simp only [pageOf, if_neg hsize, newArray]
    exact hskip.trans (by simp [fillPage, arraySet, bind, Except.bind])

def concatPages (page : Int → Int → Except JavaException (List β)) (size : Nat) :
    (pages : Nat) → Except JavaException (List β)
  | 0 => .ok []
  | pages + 1 => do
    let before ← concatPages page size pages
    let last ← page (pages * size : Nat) size
    pure (before ++ last)

theorem concatPages_eq {page : Int → Int → Except JavaException (List β)} {size : Nat}
    {xs : List β} {pages : Nat}
    (h : ∀ p < pages, page (p * size : Nat) size = .ok ((xs.drop (p * size)).take size)) :
    concatPages page size pages = .ok (xs.take (pages * size)) := by
  induction pages with
  | zero => simp [concatPages]
  | succ pages ih =>
    have hbefore := ih fun p hp => h p (by omega)
    rw [concatPages, hbefore, h pages (by omega), Nat.succ_mul, List.take_add]
    rfl

theorem getElem_mem_page {xs : List α} {i size : Nat} (hi : i < xs.length) (hsize : 0 < size) :
    xs[i] ∈ (xs.drop (i / size * size)).take size := by
  have hstart : i / size * size ≤ i := Nat.div_mul_le_self i size
  have hsplit := Nat.div_add_mod' i size
  have hmod := Nat.mod_lt i hsize
  have hrest : i - i / size * size < size := by omega
  refine List.mem_iff_getElem?.2 ⟨i - i / size * size, ?_⟩
  rw [List.getElem?_take_of_lt hrest, List.getElem?_drop, Nat.add_sub_cancel' hstart,
    List.getElem?_eq_getElem hi]

theorem div_lt_ceilDiv {i count size : Nat} (hi : i < count) (hsize : 0 < size) :
    i / size < count ⌈/⌉ size := by
  by_contra hfew
  rw [not_lt, ceilDiv_le_iff_le_mul hsize, mul_comm] at hfew
  have hstart := Nat.div_mul_le_self i size
  omega

/-- The last page starts within the list, and the pages reach its end. -/
def Spans (pages size count : Nat) : Prop := (pages - 1) * size ≤ count ∧ count ≤ pages * size

instance (pages size count : Nat) : Decidable (Spans pages size count) :=
  inferInstanceAs (Decidable (_ ∧ _))

theorem Spans.start_le {pages size count : Nat} (h : Spans pages size count) {p : Nat}
    (hp : p < pages) : p * size ≤ count :=
  (Nat.mul_le_mul_right size (by omega)).trans h.1

theorem spans_ceilDiv {size : Nat} (hsize : 0 < size) (count : Nat) :
    Spans (count ⌈/⌉ size) size count := by
  refine ⟨?_, ?_⟩
  · by_contra hbeyond
    have hfew : count ⌈/⌉ size ≤ count ⌈/⌉ size - 1 := by
      rw [ceilDiv_le_iff_le_mul hsize, mul_comm]
      omega
    have hnone : count ⌈/⌉ size - 1 = 0 := by omega
    rw [hnone, Nat.zero_mul] at hbeyond
    omega
  · rw [mul_comm]
    exact le_smul_ceilDiv hsize

/-- Pages that are refused behind the list show it just when they span it. -/
theorem concatPages_shows_iff {γ : Type} {page : Int → Int → Except JavaException (List β)}
    {size : Nat} {ys : List β} {shown : β → γ}
    (hwithin : ∀ start : Nat, start ≤ ys.length → page start size = .ok ((ys.drop start).take size))
    (hbeyond : ∀ start : Nat, ys.length < start → ∃ e, page start size = .error e) (pages : Nat) :
    (∃ slots, concatPages page size pages = .ok slots ∧ slots.map shown = ys.map shown) ↔
      Spans pages size ys.length := by
  refine ⟨fun ⟨slots, hslots, hshown⟩ => ?_, fun h => ?_⟩
  · have hstart : (pages - 1) * size ≤ ys.length := by
      by_contra hlast
      obtain ⟨e, he⟩ := hbeyond _ (Nat.lt_of_not_le hlast)
      cases pages with
      | zero => simp at hlast
      | succ pages =>
        rw [Nat.add_sub_cancel] at he
        rw [concatPages] at hslots
        obtain ⟨before, -, hrest⟩ := ok_of_bind hslots
        obtain ⟨last, hlast, -⟩ := ok_of_bind hrest
        rw [he] at hlast
        cases hlast
    have hpages : ∀ p < pages, page (p * size : Nat) size = .ok ((ys.drop (p * size)).take size) :=
      fun p hp => hwithin _ ((Nat.mul_le_mul_right size (by omega)).trans hstart)
    rw [concatPages_eq hpages] at hslots
    have hlength := congrArg List.length hshown
    rw [← Except.ok.inj hslots, List.length_map, List.length_map, List.length_take] at hlength
    exact ⟨hstart, by omega⟩
  · refine ⟨_, concatPages_eq fun p hp => hwithin _ (h.start_le hp), ?_⟩
    rw [List.take_of_length_le h.2]

/-- All pages together show the list: every element once, in order, and no empty slot. `shown`
is what of an element is compared. -/
def Lossless {γ : Type} (shown : α → γ) (shown' : β → γ)
    (page : List α → Int → Int → Except JavaException (List (Option β))) : Prop :=
  ∀ (xs : List α) (size : Nat), 1 ≤ size → ∃ slots,
    concatPages (page xs) size (xs.length ⌈/⌉ size) = .ok slots ∧
      slots.map (Option.map shown') = xs.map (some ∘ shown)

theorem pageOf_lossless {γ : Type} {shown : α → γ} {shown' : β → γ}
    (h : ∀ a, shown' (copy a) = shown a) : Lossless shown shown' (pageOf copy) := by
  intro xs size hsize
  have hall := spans_ceilDiv hsize (xs.map (some ∘ copy)).length
  obtain ⟨slots, hslots, hshown⟩ := (concatPages_shows_iff
    (fun start hstart => by
      rw [pageOf_eq (by simpa using hstart) hsize, List.map_take, List.map_drop])
    (fun start hstart => ⟨_, pageOf_beyond (by simpa using hstart)⟩) _).2 hall
  rw [List.length_map] at hslots
  refine ⟨slots, hslots, hshown.trans ?_⟩
  rw [List.map_map]
  exact List.map_congr_left fun a _ => congrArg some (h a)

end

end CarbonMessaging
