import Mathlib.Data.Finset.Option
import Mathlib.Data.List.Infix
import Mathlib.Data.List.TakeWhile

/-! Paths with a separator, and the tree that a set of paths spans: what lies above a path of
the set is in the tree too, whether the set holds it or not. -/

namespace CarbonMessaging.PathChildren

variable {α : Type} {sep : α} {keys : Finset (List α)} {p q c segment : List α}

def Below (sep : α) (p q : List α) : Prop := p ++ [sep] <+: q

def AtOrBelow (sep : α) (p q : List α) : Prop := q = p ∨ Below sep p q

def InTree (sep : α) (keys : Finset (List α)) (p : List α) : Prop :=
  ∃ key ∈ keys, AtOrBelow sep p key

section
variable [DecidableEq α]

instance : DecidableRel (Below sep) := fun p q => inferInstanceAs (Decidable (p ++ [sep] <+: q))

instance : DecidableRel (AtOrBelow sep) :=
  fun p q => inferInstanceAs (Decidable (q = p ∨ Below sep p q))

instance : Decidable (InTree sep keys p) :=
  inferInstanceAs (Decidable (∃ key ∈ keys, AtOrBelow sep p key))

def firstSegment (sep : α) (path : List α) : List α := path.takeWhile (· ≠ sep)

/-- The path right below `p` that leads to `q`. An empty segment names nothing. -/
def childToward (sep : α) (p q : List α) : Option (List α) :=
  if Below sep p q ∧ firstSegment sep (q.drop (p.length + 1)) ≠ [] then
    some (p ++ sep :: firstSegment sep (q.drop (p.length + 1)))
  else none

def children (sep : α) (keys : Finset (List α)) (p : List α) : Finset (List α) :=
  Finset.eraseNone (keys.image (childToward sep p))

end

theorem below_iff : Below sep p q ↔ ∃ rest, q = p ++ sep :: rest := by
  constructor
  · rintro ⟨rest, rfl⟩
    exact ⟨rest, by simp⟩
  · rintro ⟨rest, rfl⟩
    exact ⟨rest, by simp⟩

theorem below_child (segment : List α) : Below sep p (p ++ sep :: segment) :=
  below_iff.2 ⟨segment, rfl⟩

theorem below_of_atOrBelow (h : Below sep p q) (h' : AtOrBelow sep q c) : Below sep p c := by
  rcases h' with rfl | h'
  · exact h
  · exact List.IsPrefix.trans h ((List.prefix_append q [sep]).trans h')

theorem eq_of_atOrBelow_child {rest : List α} (hplain : sep ∉ rest)
    (h : AtOrBelow sep (p ++ sep :: segment) (p ++ sep :: rest)) : rest = segment := by
  rcases h with h | h
  · simpa using h
  · obtain ⟨more, hmore⟩ := below_iff.1 h
    have hrest : rest = segment ++ sep :: more := by simpa using hmore
    exact absurd (hrest ▸ by simp) hplain

theorem inTree_of_mem (h : p ∈ keys) : InTree sep keys p := ⟨p, h, .inl rfl⟩

section
variable [DecidableEq α]

theorem firstSegment_of_notMem (h : sep ∉ segment) : firstSegment sep segment = segment :=
  List.takeWhile_eq_self_iff.2 fun x hx => by
    have hother : x ≠ sep := fun e => h (e ▸ hx)
    simpa using hother

theorem firstSegment_append (h : sep ∉ segment) (rest : List α) :
    firstSegment sep (segment ++ sep :: rest) = segment := by
  induction segment with
  | nil => simp [firstSegment]
  | cons x segment ih =>
    have hx : x ≠ sep := fun e => h (by simp [e])
    have htail : sep ∉ segment := fun e => h (by simp [e])
    rw [firstSegment, List.cons_append, List.takeWhile_cons_of_pos (by simpa using hx)]
    exact congrArg (x :: ·) (ih htail)

theorem notMem_firstSegment (path : List α) : sep ∉ firstSegment sep path := fun h => by
  simpa using List.mem_takeWhile_imp h

theorem atOrBelow_firstSegment (path : List α) :
    AtOrBelow sep (p ++ sep :: firstSegment sep path) (p ++ sep :: path) := by
  by_cases h : sep ∈ path
  · obtain ⟨segment, rest, rfl, hplain⟩ := List.eq_append_cons_of_mem h
    rw [firstSegment_append hplain]
    exact .inr (below_iff.2 ⟨rest, by simp⟩)
  · rw [firstSegment_of_notMem h]
    exact .inl rfl

theorem childToward_eq_some_iff : childToward sep p q = some c ↔
    ∃ segment, segment ≠ [] ∧ sep ∉ segment ∧ c = p ++ sep :: segment ∧
      AtOrBelow sep c q := by
  have hdrop : ∀ rest, (p ++ sep :: rest).drop (p.length + 1) = rest := fun rest => by simp
  unfold childToward
  constructor
  · intro h
    split at h
    · rename_i hbelow
      obtain ⟨rest, rfl⟩ := below_iff.1 hbelow.1
      rw [hdrop] at h hbelow
      cases h
      exact ⟨_, hbelow.2, notMem_firstSegment rest, rfl, atOrBelow_firstSegment rest⟩
    · cases h
  · rintro ⟨segment, hne, hplain, rfl, h⟩
    have hsegment : firstSegment sep (q.drop (p.length + 1)) = segment := by
      rcases h with rfl | h
      · rw [hdrop, firstSegment_of_notMem hplain]
      · obtain ⟨rest, rfl⟩ := below_iff.1 h
        rw [List.append_assoc, List.cons_append, hdrop, firstSegment_append hplain]
    rw [hsegment, if_pos ⟨below_of_atOrBelow (below_child segment) h, hne⟩]

theorem mem_children : c ∈ children sep keys p ↔
    InTree sep keys c ∧ ∃ segment, segment ≠ [] ∧ sep ∉ segment ∧ c = p ++ sep :: segment := by
  rw [children, Finset.mem_eraseNone, Finset.mem_image]
  simp only [childToward_eq_some_iff]
  constructor
  · rintro ⟨key, hkey, segment, hne, hplain, rfl, h⟩
    exact ⟨⟨key, hkey, h⟩, segment, hne, hplain, rfl⟩
  · rintro ⟨⟨key, hkey, h⟩, segment, hne, hplain, rfl⟩
    exact ⟨key, hkey, segment, hne, hplain, rfl, h⟩

/-- The children stand for the first segments of what lies below. -/
theorem mem_children_iff_firstSegment : c ∈ children sep keys p ↔
    ∃ rest, p ++ sep :: rest ∈ keys ∧ firstSegment sep rest ≠ [] ∧
      c = p ++ sep :: firstSegment sep rest := by
  have hdrop : ∀ rest, (p ++ sep :: rest).drop (p.length + 1) = rest := fun rest => by simp
  rw [children, Finset.mem_eraseNone, Finset.mem_image]
  constructor
  · rintro ⟨key, hkey, h⟩
    unfold childToward at h
    split at h
    · rename_i hbelow
      obtain ⟨rest, rfl⟩ := below_iff.1 hbelow.1
      rw [hdrop] at h hbelow
      cases h
      exact ⟨rest, hkey, hbelow.2, rfl⟩
    · cases h
  · rintro ⟨rest, hkey, hne, rfl⟩
    refine ⟨_, hkey, ?_⟩
    rw [childToward, hdrop, if_pos ⟨below_child rest, hne⟩]

theorem childToward_child (hne : segment ≠ []) (hplain : sep ∉ segment) :
    childToward sep p (p ++ sep :: segment) = some (p ++ sep :: segment) :=
  childToward_eq_some_iff.2 ⟨segment, hne, hplain, rfl, .inl rfl⟩

theorem childToward_of_not_below (h : ¬Below sep p q) : childToward sep p q = none :=
  if_neg fun hbelow => h hbelow.1

theorem childToward_empty : childToward sep p (p ++ [sep]) = none :=
  if_neg fun h => h.2 (by simp [firstSegment])

theorem children_insert (key : List α) : children sep (insert key keys) p =
    (childToward sep p key).elim (children sep keys p) (insert · (children sep keys p)) := by
  ext c
  rw [children, Finset.mem_eraseNone, Finset.image_insert, Finset.mem_insert]
  cases childToward sep p key with
  | none => simp [children]
  | some child => simp [children]

end

end CarbonMessaging.PathChildren
