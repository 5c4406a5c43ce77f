import Mathlib.Algebra.BigOperators.Group.Finset.Basic
import Mathlib.Algebra.Order.BigOperators.Group.Finset
import Mathlib.Data.Fintype.Basic
import Mathlib.Tactic

/-! Clients that read a shared number and write it back, each with its own increment added, in
any interleaving. An increment that is written back late overwrites what was written since the
reading, so the number stays between what the losses and what the gains alone would make of it;
it is the sum of all increments when no client reads while another holds a reading. -/

namespace CarbonMessaging.InterleavedUpdates

open scoped BigOperators

variable {ι : Type}

inductive Phase where
  | waiting | holding (value : ℤ) | done
  deriving DecidableEq

structure State (ι : Type) where
  value : ℤ
  phases : ι → Phase

def start (c : ℤ) : State ι := ⟨c, fun _ => .waiting⟩

section
variable [DecidableEq ι]

def read (s : State ι) (i : ι) : State ι :=
  { s with phases := Function.update s.phases i (.holding s.value) }

def write (δ : ι → ℤ) (s : State ι) (i : ι) (held : ℤ) : State ι :=
  ⟨held + δ i, Function.update s.phases i .done⟩

def step (δ : ι → ℤ) (s : State ι) (i : ι) : State ι :=
  match s.phases i with
  | .waiting => read s i
  | .holding held => write δ s i held
  | .done => s

variable {δ : ι → ℤ} {s : State ι} {i j : ι} {v : ℤ}

theorem step_waiting (h : s.phases i = .waiting) : step δ s i = read s i := by
  rw [step, h]

theorem step_holding {held : ℤ} (h : s.phases i = .holding held) :
    step δ s i = write δ s i held := by
  rw [step, h]

theorem step_done (h : s.phases i = .done) : step δ s i = s := by
  rw [step, h]

@[simp] theorem read_phases : (read s i).phases = Function.update s.phases i (.holding s.value) :=
  rfl

@[simp] theorem write_phases (held : ℤ) :
    (write δ s i held).phases = Function.update s.phases i .done := rfl

theorem held_of_read (h : (read s i).phases j = .holding v) :
    v = s.value ∨ s.phases j = .holding v := by
  by_cases hji : j = i
  · rw [hji, read_phases, Function.update_self] at h
    exact .inl (Phase.holding.inj h).symm
  · rw [read_phases, Function.update_of_ne hji] at h
    exact .inr h

theorem held_of_write {held : ℤ} (h : (write δ s i held).phases j = .holding v) :
    j ≠ i ∧ s.phases j = .holding v := by
  by_cases hji : j = i
  · rw [hji, write_phases, Function.update_self] at h
    cases h
  · rw [write_phases, Function.update_of_ne hji] at h
    exact ⟨hji, h⟩

def run (δ : ι → ℤ) (c : ℤ) (schedule : List ι) : State ι := schedule.foldl (step δ) (start c)

theorem run_append_single (δ : ι → ℤ) (c : ℤ) (schedule : List ι) (i : ι) :
    run δ c (schedule ++ [i]) = step δ (run δ c schedule) i := by
  rw [run, List.foldl_append, List.foldl_cons, List.foldl_nil, run]

end

def OneHolder (phases : ι → Phase) : Prop :=
  ∀ i j v v', phases i = .holding v → phases j = .holding v' → i = j

def Exclusive [DecidableEq ι] (δ : ι → ℤ) (c : ℤ) (schedule : List ι) : Prop :=
  ∀ initial, initial <+: schedule → OneHolder (run δ c initial).phases

theorem exclusive_append_single [DecidableEq ι] {δ : ι → ℤ} {c : ℤ} {schedule : List ι} {i : ι}
    (h : Exclusive δ c schedule) (hlast : OneHolder (step δ (run δ c schedule) i).phases) :
    Exclusive δ c (schedule ++ [i]) := by
  intro initial hinitial
  rcases List.prefix_concat_iff.1 hinitial with rfl | hinitial
  · rwa [run_append_single]
  · exact h initial hinitial

section
variable [Fintype ι]

def total (f : ι → ℤ) (phases : ι → Phase) : ℤ :=
  ∑ i, if phases i = .done then f i else 0

variable {f : ι → ℤ} {phases : ι → Phase} {i : ι}

theorem total_start (f : ι → ℤ) : total f (fun _ => .waiting) = 0 := by
  simp [total]

theorem total_of_done (h : ∀ i, phases i = .done) : total f phases = ∑ i, f i := by
  simp only [total, h, if_true]

variable [DecidableEq ι]

theorem total_update (hi : phases i ≠ .done) (phase : Phase) :
    total f (Function.update phases i phase) =
      total f phases + if phase = .done then f i else 0 := by
  have hothers : ∑ j ∈ Finset.univ.erase i,
      (if Function.update phases i phase j = .done then f j else 0) =
        ∑ j ∈ Finset.univ.erase i, if phases j = .done then f j else 0 := by
    refine Finset.sum_congr rfl fun j hj => ?_
    rw [Function.update_of_ne (Finset.ne_of_mem_erase hj)]
  rw [total, total, ← Finset.add_sum_erase _ _ (Finset.mem_univ i), hothers,
    ← Finset.add_sum_erase _ _ (Finset.mem_univ i), Function.update_self, if_neg hi, zero_add,
    add_comm]

theorem total_add_le (hf : ∀ j, 0 ≤ f j) (hi : phases i ≠ .done) :
    total f phases + f i ≤ ∑ j, f j := by
  have hupdate := total_update (f := f) hi .done
  rw [if_pos rfl] at hupdate
  rw [← hupdate]
  refine Finset.sum_le_sum fun j _ => ?_
  split
  · exact le_rfl
  · exact hf j

variable (δ : ι → ℤ)

def gain (i : ι) : ℤ := max (δ i) 0

def loss (i : ι) : ℤ := max (-δ i) 0

omit [Fintype ι] [DecidableEq ι] in
theorem gain_nonneg (i : ι) : 0 ≤ gain δ i := le_max_right _ _

omit [Fintype ι] [DecidableEq ι] in
theorem loss_nonneg (i : ι) : 0 ≤ loss δ i := le_max_right _ _

/-- A number that the finished clients can have brought about. -/
def Possible (c : ℤ) (phases : ι → Phase) (v : ℤ) : Prop :=
  c - total (loss δ) phases ≤ v ∧ v ≤ c + total (gain δ) phases

structure Within (c : ℤ) (s : State ι) : Prop where
  value : Possible δ c s.phases s.value
  held : ∀ i v, s.phases i = .holding v → Possible δ c s.phases v

variable {δ} {c : ℤ} {s : State ι}

theorem possible_update (hi : phases i ≠ .done) (phase : Phase) {v : ℤ}
    (h : Possible δ c phases v) : Possible δ c (Function.update phases i phase) v := by
  obtain ⟨hlower, hupper⟩ := h
  have hloss := loss_nonneg δ i
  have hgain := gain_nonneg δ i
  rw [Possible, total_update hi, total_update hi]
  split <;> constructor <;> omega

theorem within_step (h : Within δ c s) (i : ι) : Within δ c (step δ s i) := by
  cases hphase : s.phases i with
  | waiting =>
    have hi : s.phases i ≠ .done := by simp [hphase]
    rw [step_waiting hphase]
    refine ⟨possible_update hi _ h.value, fun j v hj => possible_update hi _ ?_⟩
    rcases held_of_read hj with rfl | hj
    · exact h.value
    · exact h.held j v hj
  | holding held =>
    have hi : s.phases i ≠ .done := by simp [hphase]
    rw [step_holding hphase]
    refine ⟨?_, fun j v hj => possible_update hi _ (h.held j v (held_of_write hj).2)⟩
    obtain ⟨hlower, hupper⟩ := h.held i held hphase
    have hloss : -δ i ≤ loss δ i := le_max_left _ _
    have hgain : δ i ≤ gain δ i := le_max_left _ _
    rw [Possible, write, total_update hi, total_update hi, if_pos rfl, if_pos rfl]
    constructor <;> dsimp only <;> omega
  | done => rwa [step_done hphase]

theorem run_within (δ : ι → ℤ) (c : ℤ) (schedule : List ι) :
    Within δ c (run δ c schedule) := by
  induction schedule using List.reverseRecOn with
  | nil =>
    refine ⟨?_, fun i v hv => by cases hv⟩
    rw [Possible, run, List.foldl_nil, start, total_start, total_start]
    exact ⟨by simp, by simp⟩
  | append_singleton schedule i ih =>
    rw [run_append_single]
    exact within_step ih i

/-- The number is what the finished clients add up to, and so is every reading. -/
structure Exact (δ : ι → ℤ) (c : ℤ) (s : State ι) : Prop where
  value : s.value = c + total δ s.phases
  held : ∀ i v, s.phases i = .holding v → v = s.value

theorem exact_step (h : Exact δ c s) (hholder : OneHolder s.phases) (i : ι) :
    Exact δ c (step δ s i) := by
  cases hphase : s.phases i with
  | waiting =>
    have hi : s.phases i ≠ .done := by simp [hphase]
    rw [step_waiting hphase]
    refine ⟨?_, fun j v hj => ?_⟩
    · rw [read, total_update hi, if_neg (by simp), add_zero]
      exact h.value
    · rcases held_of_read hj with hv | hj
      · exact hv
      · exact h.held j v hj
  | holding held =>
    have hi : s.phases i ≠ .done := by simp [hphase]
    rw [step_holding hphase]
    refine ⟨?_, fun j v hj => ?_⟩
    · rw [write, total_update hi, if_pos rfl, h.held i held hphase, h.value, add_assoc]
    · obtain ⟨hji, hj⟩ := held_of_write hj
      exact absurd (hholder j i v held hj hphase) hji
  | done => rwa [step_done hphase]

theorem run_exact {schedule : List ι} (h : Exclusive δ c schedule) :
    Exact δ c (run δ c schedule) := by
  induction schedule using List.reverseRecOn with
  | nil =>
    refine ⟨?_, fun i v hv => by cases hv⟩
    rw [run, List.foldl_nil, start, total_start, add_zero]
  | append_singleton schedule i ih =>
    have hbefore : Exclusive δ c schedule := fun initial hinitial =>
      h initial (hinitial.trans (List.prefix_append _ _))
    rw [run_append_single]
    exact exact_step (ih hbefore) (h schedule (List.prefix_append _ _)) i

end

end CarbonMessaging.InterleavedUpdates
