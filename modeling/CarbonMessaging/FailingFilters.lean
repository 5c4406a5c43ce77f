import Mathlib.Data.List.Basic

/-! A list filtered by a test that may fail: the first failing test ends the run with its
failure, so one element decides about the whole result. -/

namespace CarbonMessaging.FailingFilters

variable {ε α β : Type} {test : α → Except ε Bool}

def filterOrFail (test : α → Except ε Bool) : List α → Except ε (List α)
  | [] => .ok []
  | a :: l =>
    match test a with
    | .error e => .error e
    | .ok keep =>
      match filterOrFail test l with
      | .error e => .error e
      | .ok kept => .ok (if keep then a :: kept else kept)

theorem ok_of_bind {x : Except ε α} {f : α → Except ε β} {b : β} (h : x >>= f = .ok b) :
    ∃ a, x = .ok a ∧ f a = .ok b := by
  cases x with
  | error e => cases h
  | ok a => exact ⟨a, rfl, h⟩

theorem mapError_eq_ok {ε' : Type} {f : ε → ε'} {x : Except ε α} {a : α} :
    x.mapError f = .ok a ↔ x = .ok a := by
  cases x <;> simp [Except.mapError]

theorem forall₂_of_mapM {f : α → Except ε β} {l : List α} {l' : List β}
    (h : l.mapM f = .ok l') : List.Forall₂ (fun a b => f a = .ok b) l l' := by
  induction l generalizing l' with
  | nil =>
    cases h
    exact .nil
  | cons a l ih =>
    rw [List.mapM_cons] at h
    obtain ⟨b, hb, h⟩ := ok_of_bind h
    obtain ⟨bs, hbs, h⟩ := ok_of_bind h
    cases h
    exact .cons hb (ih hbs)

theorem filterOrFail_of_ok {keep : α → Bool} {l : List α}
    (h : ∀ a ∈ l, test a = .ok (keep a)) : filterOrFail test l = .ok (l.filter keep) := by
  induction l with
  | nil => rfl
  | cons a l ih =>
    have hhead := h a (by simp)
    have htail := ih fun b hb => h b (by simp [hb])
    rw [filterOrFail, hhead, htail, List.filter_cons]

theorem of_filterOrFail {l kept : List α} (h : filterOrFail test l = .ok kept) :
    ∃ keep : α → Bool, (∀ a ∈ l, test a = .ok (keep a)) ∧ kept = l.filter keep := by
  refine ⟨fun a => (test a).toOption.getD false, ?_⟩
  induction l generalizing kept with
  | nil =>
    cases h
    simp
  | cons a l ih =>
    rw [filterOrFail] at h
    cases hhead : test a with
    | error e =>
      rw [hhead] at h
      cases h
    | ok keep =>
      rw [hhead] at h
      cases htail : filterOrFail test l with
      | error e =>
        rw [htail] at h
        cases h
      | ok rest =>
        rw [htail] at h
        cases h
        obtain ⟨hall, hrest⟩ := ih htail
        have hkeep : (test a).toOption.getD false = keep := by rw [hhead]; rfl
        refine ⟨?_, ?_⟩
        · intro b hb
          rcases List.mem_cons.1 hb with rfl | hb
          · exact hhead.trans (congrArg Except.ok hkeep.symm)
          · exact hall b hb
        · rw [List.filter_cons, hkeep, hrest]

theorem mem_of_filterOrFail {l kept : List α} (h : filterOrFail test l = .ok kept) {a : α} :
    a ∈ kept ↔ a ∈ l ∧ test a = .ok true := by
  obtain ⟨keep, hall, rfl⟩ := of_filterOrFail h
  rw [List.mem_filter]
  refine and_congr_right fun ha => ?_
  rw [hall a ha, Except.ok.injEq]

theorem filterOrFail_comp (f : β → α) (l : List β) :
    (filterOrFail (test ∘ f) l).map (List.map f) = filterOrFail test (l.map f) := by
  induction l with
  | nil => rfl
  | cons b l ih =>
    rw [filterOrFail, List.map_cons, filterOrFail, ← ih, Function.comp_apply]
    cases test (f b) with
    | error e => rfl
    | ok keep =>
      cases filterOrFail (test ∘ f) l with
      | error e => rfl
      | ok kept => cases keep <;> rfl

/-- Where the test says nothing but `keep`, the elements to keep come out just when no test
fails and none of them is turned down. -/
theorem filterOrFail_eq_filter_iff {keep : α → Bool} {l : List α}
    (h : ∀ a ∈ l, keep a = false → test a ≠ .ok true) :
    filterOrFail test l = .ok (l.filter keep) ↔ ∀ a ∈ l, test a = .ok (keep a) := by
  constructor
  · intro hrun a ha
    obtain ⟨kept, hall, hsame⟩ := of_filterOrFail hrun
    rw [hall a ha, Except.ok.injEq]
    cases hkeep : keep a with
    | false =>
      refine Bool.not_eq_true _ ▸ fun hkept => ?_
      exact h a ha hkeep (hkept ▸ hall a ha)
    | true =>
      have hmem : a ∈ l.filter keep := List.mem_filter.2 ⟨ha, hkeep⟩
      exact (List.mem_filter.1 (hsame ▸ hmem)).2
  · exact filterOrFail_of_ok

/-- Lists that differ only in elements to be dropped give the same result, without failure,
just when every element of both is tested right. -/
theorem filterOrFail_confined_iff {keep : α → Bool} {l l' : List α}
    (h : ∀ a ∈ l ++ l', keep a = false → test a ≠ .ok true)
    (hsame : l.filter keep = l'.filter keep) :
    (filterOrFail test l = .ok (l.filter keep) ∧ filterOrFail test l' = .ok (l.filter keep)) ↔
      ∀ a ∈ l ++ l', test a = .ok (keep a) := by
  have hl : filterOrFail test l = .ok (l.filter keep) ↔ ∀ a ∈ l, test a = .ok (keep a) :=
    filterOrFail_eq_filter_iff fun a ha => h a (List.mem_append_left _ ha)
  have hl' : filterOrFail test l' = .ok (l'.filter keep) ↔ ∀ a ∈ l', test a = .ok (keep a) :=
    filterOrFail_eq_filter_iff fun a ha => h a (List.mem_append_right _ ha)
  rw [hl, hsame, hl', List.forall_mem_append]

end CarbonMessaging.FailingFilters
