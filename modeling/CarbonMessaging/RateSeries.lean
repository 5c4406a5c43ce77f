import CarbonMessaging.DefaultSort
import CarbonMessaging.MessageRatePage
import CarbonMessaging.RunLengths

/-! One line of the message-rate chart: the points for the times at which messages were published,
delivered or acknowledged. A point counts the events of a second, and the gap between two seconds
is filled with zeros next to both. -/

namespace CarbonMessaging.RateSeries

open JavaScriptNumbers MessageRatePage RunLengths

/-- A point of `chartData` has a value for one field. The date is undefined when it is taken from
an empty list. -/
structure Point where
  date : Option Nat
  field : MessageStatus
  value : Nat
  deriving DecidableEq

/-- Fill values between adjacent two points. The difference is not divided by 1000 here. -/
def fill (field : MessageStatus) (processingUnit currVal : Nat) : List Point :=
  let diff := round (currVal - processingUnit)
  if 1000 < diff then
    ⟨some (round (processingUnit + 1000)), field, 0⟩ ::
      if 2000 < diff then [⟨some (round (currVal - 1000)), field, 0⟩] else []
  else []

def processing (field : MessageStatus) (processingUnit processingCount : Nat) :
    List Nat → List Point
  | [] => [⟨some processingUnit, field, processingCount⟩]
  | currVal :: rate =>
    if currVal = processingUnit then processing field processingUnit (processingCount + 1) rate
    else
      ⟨some processingUnit, field, processingCount⟩ ::
        (fill field processingUnit currVal ++ processing field currVal 1 rate)

def series (field : MessageStatus) (rate : List Nat) : List Point :=
  match rate.head? with
  | none => [⟨none, field, 0⟩]
  | some processingUnit => processing field processingUnit 0 rate

/-- Times of events, whole seconds as a Java long that the page holds exactly. -/
structure EventTimes (times : List Nat) : Prop where
  positive : ∀ t ∈ times, 0 < t
  seconds : ∀ t ∈ times, 1000 ∣ t
  digits : ∀ t ∈ times, ∀ u ∈ times, (Nat.toDigits 10 t).length = (Nat.toDigits 10 u).length
  numbers : ∀ t ∈ times, round t = t
  long : ∀ t ∈ times, t < 2 ^ 63

/-- Where zeros are put after and before a time. Times are positive and whole seconds, at least
1000, where the difference of naturals is the page's own. -/
def secondAfter (t : Nat) : Nat := round (t + 1000)

def secondBefore (t : Nat) : Nat := round (t - 1000)

def Point.earlier (p q : Point) : Prop := ∃ a ∈ p.date, ∃ b ∈ q.date, a < b

/-- The points count the events of each time. `after` and `before` are the places next to a time
where zeros stand. -/
structure Histogram (after before : Nat → Nat) (status : MessageStatus) (times : List Nat)
    (points : List Point) : Prop where
  field : ∀ p ∈ points, p.field = status
  defined : ∀ p ∈ points, ∃ date, p.date = some date
  increasing : points.Pairwise Point.earlier
  counted : ∀ t ∈ times,
    points.filter (fun p => p.date = some t) = [⟨some t, status, times.count t⟩]
  total : (points.map Point.value).sum = times.length
  others : ∀ p ∈ points, (∃ t ∈ times, p.date = some t) ∨
    p.value = 0 ∧ ∃ t ∈ times, p.date = some (after t) ∨ p.date = some (before t)
  gaps : ∀ u ∈ times, ∀ v ∈ times, u + 1000 < v → (∀ w ∈ times, ¬(u < w ∧ w < v)) →
    [⟨some u, status, times.count u⟩, ⟨some (after u), status, 0⟩] <:+: points ∧
      [⟨some (before v), status, 0⟩, ⟨some v, status, times.count v⟩] <:+: points

theorem round_near {n : Nat} (h : n < 2 ^ 63) : n ≤ round n + 512 ∧ round n ≤ n + 512 := by
  have herror := @round_error n 10 h
  omega

theorem lt_round_after {u : Nat} (h : u + 1000 < 2 ^ 63) : u < round (u + 1000) := by
  have hnear := round_near h
  omega

theorem round_before_lt {v : Nat} (h : v < 2 ^ 63) (hpos : 1000 ≤ v) : round (v - 1000) < v := by
  have hnear := round_near (by omega : v - 1000 < 2 ^ 63)
  omega

theorem round_after_lt_before {u v : Nat} (hu : round u = u) (hv : round v = v)
    (hseconds : 1000 ∣ u ∧ 1000 ∣ v) (hlong : v < 2 ^ 63) (h : u + 3000 ≤ v) :
    round (u + 1000) < round (v - 1000) := by
  by_cases hgap : v = u + 3000
  · by_cases hsmall : v < 2 ^ 57
    · have hafter := (@round_error (u + 1000) 4 (by omega)).1
      have hbefore := (@round_error (v - 1000) 4 (by omega)).2
      omega
    · -- such numbers are multiples of 16, and 3000 is none
      have hlower := @dvd_of_round u 4 hu (by omega)
      have hupper := @dvd_of_round v 4 hv (by omega)
      omega
  · have hafter := round_near (by omega : u + 1000 < 2 ^ 63)
    have hbefore := round_near (by omega : v - 1000 < 2 ^ 63)
    omega

section Fill

variable {status : MessageStatus} {u v : Nat}

theorem fill_cases (hu : 1000 ∣ u) (hv : 1000 ∣ v) (h : u < v) :
    (v = u + 1000 ∧ fill status u v = []) ∨
    (v = u + 2000 ∧ fill status u v = [⟨some (round (u + 1000)), status, 0⟩]) ∨
    (u + 3000 ≤ v ∧ fill status u v =
      [⟨some (round (u + 1000)), status, 0⟩, ⟨some (round (v - 1000)), status, 0⟩]) := by
  simp only [fill, lt_round_iff (by decide : 1000 + 1 < 2 ^ 53),
    lt_round_iff (by decide : 2000 + 1 < 2 ^ 53)]
  have hgap : v = u + 1000 ∨ v = u + 2000 ∨ u + 3000 ≤ v := by omega
  rcases hgap with rfl | rfl | hgap
  · exact .inl ⟨rfl, if_neg (by omega)⟩
  · refine .inr (.inl ⟨rfl, ?_⟩)
    rw [if_pos (by omega), if_neg (by omega)]
  · refine .inr (.inr ⟨hgap, ?_⟩)
    rw [if_pos (by omega), if_pos (by omega)]

theorem mem_fill {p : Point} (hp : p ∈ fill status u v) :
    p.field = status ∧ p.value = 0 ∧
      (p.date = some (round (u + 1000)) ∨ p.date = some (round (v - 1000))) := by
  rw [fill] at hp
  split at hp
  · rcases List.mem_cons.1 hp with rfl | hp
    · exact ⟨rfl, rfl, .inl rfl⟩
    · split at hp
      · rw [List.mem_singleton.1 hp]
        exact ⟨rfl, rfl, .inr rfl⟩
      · cases hp
  · cases hp

end Fill

instance : IsTrans Point Point.earlier where
  trans p q r := by
    rintro ⟨a, ha, b, hb, hab⟩ ⟨b', hb', c, hc, hbc⟩
    rw [Option.mem_unique hb' hb] at hbc
    exact ⟨a, ha, c, hc, hab.trans hbc⟩

theorem earlier_some {a b : Nat} {field field' : MessageStatus} {value value' : Nat} :
    Point.earlier ⟨some a, field, value⟩ ⟨some b, field', value'⟩ ↔ a < b := by
  simp [Point.earlier]

theorem not_earlier_of_date {p q : Point} (h : p.date = q.date) : ¬p.earlier q := by
  rintro ⟨a, ha, b, hb, hab⟩
  rw [h] at ha
  rw [Option.mem_unique ha hb] at hab
  exact lt_irrefl _ hab

theorem pairwise_fill {status : MessageStatus} {u v m n : Nat} (hu : round u = u) (hv : round v = v)
    (hseconds : 1000 ∣ u ∧ 1000 ∣ v) (hlong : v < 2 ^ 63) (h : u < v) :
    (⟨some u, status, m⟩ :: (fill status u v ++ [⟨some v, status, n⟩])).Pairwise
      Point.earlier := by
  rw [← List.isChain_iff_pairwise]
  rcases @fill_cases status u v hseconds.1 hseconds.2 h with
    ⟨hv, hfill⟩ | ⟨hv, hfill⟩ | ⟨hgap, hfill⟩
  · rw [hfill]
    exact .cons_cons (earlier_some.2 h) (.singleton _)
  · have hafter := lt_round_after (by omega : u + 1000 < 2 ^ 63)
    have hbefore := round_before_lt hlong (by omega)
    rw [hv, show u + 2000 - 1000 = u + 1000 by omega, ← hv] at hbefore
    rw [hfill]
    exact .cons_cons (earlier_some.2 hafter)
      (.cons_cons (earlier_some.2 hbefore) (.singleton _))
  · have hafter := lt_round_after (by omega : u + 1000 < 2 ^ 63)
    have hbetween := round_after_lt_before hu hv hseconds hlong hgap
    have hbefore := round_before_lt hlong (by omega)
    rw [hfill]
    exact .cons_cons (earlier_some.2 hafter) (.cons_cons (earlier_some.2 hbetween)
      (.cons_cons (earlier_some.2 hbefore) (.singleton _)))

section Sorted

variable (status : MessageStatus)

def runPoint (run : Nat × Nat) : Point := ⟨some run.1, status, run.2⟩

def runFill (run next : Nat × Nat) : List Point := fill status run.1 next.1

theorem processing_eq (processingUnit processingCount : Nat) (rate : List Nat) :
    processing status processingUnit processingCount rate =
      interpose (runPoint status) (runFill status)
        (runLengths processingUnit processingCount rate) := by
  induction rate generalizing processingUnit processingCount with
  | nil => rfl
  | cons currVal rate ih =>
    rw [processing, runLengths]
    split
    · exact ih _ _
    · obtain ⟨n, runs, hruns⟩ := runLengths_cons currVal 1 rate
      rw [ih, hruns]
      rfl

theorem series_eq (first : Nat) (rest : List Nat) :
    series status (first :: rest) =
      interpose (runPoint status) (runFill status) (runLengths first 0 (first :: rest)) :=
  processing_eq status first 0 (first :: rest)

variable {status} {first : Nat} {rest : List Nat} (hsorted : (first :: rest).Pairwise (· ≤ ·))
include hsorted

theorem sorted_twice : (first :: first :: rest).Pairwise (· ≤ ·) := by
  refine List.pairwise_cons.2 ⟨fun t ht => ?_, hsorted⟩
  rcases List.mem_cons.1 ht with rfl | ht
  · exact le_rfl
  · exact (List.pairwise_cons.1 hsorted).1 t ht

theorem mem_runs {t n : Nat} :
    (t, n) ∈ runLengths first 0 (first :: rest) ↔
      t ∈ first :: rest ∧ n = (first :: rest).count t := by
  rw [mem_runLengths (sorted_twice hsorted), ite_self, Nat.add_zero, List.mem_cons (b := first)]
  refine and_congr_left fun _ => or_iff_right_of_imp ?_
  rintro rfl
  exact List.mem_cons_self

theorem consecutive {run next : Nat × Nat}
    (h : [run, next] <:+: runLengths first 0 (first :: rest)) :
    run.1 ∈ first :: rest ∧ next.1 ∈ first :: rest ∧ run.1 < next.1 := by
  have hmem : ∀ r ∈ [run, next], r.1 ∈ first :: rest := fun r hr =>
    ((mem_runs hsorted).1 (h.subset hr)).1
  have hpair := (pairwise_runLengths (sorted_twice hsorted) 0).sublist h.sublist
  exact ⟨hmem run (by simp), hmem next (by simp), (List.pairwise_cons.1 hpair).1 next (by simp)⟩

theorem mem_series {p : Point} (hp : p ∈ series status (first :: rest)) :
    (∃ t ∈ first :: rest, p = ⟨some t, status, (first :: rest).count t⟩) ∨
      ∃ u ∈ first :: rest, ∃ v ∈ first :: rest, u < v ∧ p ∈ fill status u v := by
  rw [series_eq, mem_interpose] at hp
  rcases hp with ⟨run, hrun, rfl⟩ | ⟨run, next, hpair, hfill⟩
  · obtain ⟨ht, hn⟩ := (mem_runs hsorted).1 hrun
    exact .inl ⟨run.1, ht, by rw [← hn, runPoint]⟩
  · obtain ⟨hu, hv, hlt⟩ := consecutive hsorted hpair
    exact .inr ⟨run.1, hu, next.1, hv, hlt, hfill⟩

theorem count_mem_series {t : Nat} (ht : t ∈ first :: rest) :
    ⟨some t, status, (first :: rest).count t⟩ ∈ series status (first :: rest) := by
  rw [series_eq, mem_interpose]
  exact .inl ⟨(t, _), (mem_runs hsorted).2 ⟨ht, rfl⟩, rfl⟩

theorem infix_series {u v : Nat} (hu : u ∈ first :: rest) (hv : v ∈ first :: rest) (huv : u < v)
    (hnone : ∀ w ∈ first :: rest, ¬(u < w ∧ w < v)) :
    (⟨some u, status, (first :: rest).count u⟩ ::
      (fill status u v ++ [⟨some v, status, (first :: rest).count v⟩])) <:+:
        series status (first :: rest) := by
  rw [series_eq]
  refine @infix_interpose _ _ (runPoint status) (runFill status) _
    (u, (first :: rest).count u) (v, (first :: rest).count v) ?_
  refine infix_of_pairwise (fun r s hrs hsr => lt_asymm hrs hsr)
    (pairwise_runLengths (sorted_twice hsorted) 0) ((mem_runs hsorted).2 ⟨hu, rfl⟩)
    ((mem_runs hsorted).2 ⟨hv, rfl⟩) huv fun r hr => ?_
  exact hnone r.1 ((mem_runs hsorted).1 hr).1

variable (htimes : EventTimes (first :: rest))
include htimes

theorem pairwise_series : (series status (first :: rest)).Pairwise Point.earlier := by
  rw [series_eq]
  refine pairwise_interpose fun run next hpair => ?_
  obtain ⟨hu, hv, hlt⟩ := consecutive hsorted hpair
  exact pairwise_fill (htimes.numbers _ hu) (htimes.numbers _ hv)
    ⟨htimes.seconds _ hu, htimes.seconds _ hv⟩ (htimes.long _ hv) hlt

theorem histogram_of_sorted :
    Histogram secondAfter secondBefore status (first :: rest)
      (series status (first :: rest)) where
  field p hp := by
    rcases mem_series hsorted hp with ⟨t, -, rfl⟩ | ⟨u, -, v, -, -, hfill⟩
    · rfl
    · exact (mem_fill hfill).1
  defined p hp := by
    rcases mem_series hsorted hp with ⟨t, -, rfl⟩ | ⟨u, -, v, -, -, hfill⟩
    · exact ⟨t, rfl⟩
    · rcases (mem_fill hfill).2.2 with hdate | hdate
      · exact ⟨_, hdate⟩
      · exact ⟨_, hdate⟩
  increasing := pairwise_series hsorted htimes
  counted t ht := by
    refine filter_eq_singleton (pairwise_series hsorted htimes) (count_mem_series hsorted ht)
      (by simp) ?_ ?_
    · exact fun p hp => not_earlier_of_date (by simpa using hp)
    · exact fun p hp => not_earlier_of_date (Eq.symm (by simpa using hp))
  total := by
    have hzero : ∀ run next, ∀ p ∈ runFill status run next, p.value = 0 := fun run next p hp =>
      (mem_fill hp).2.1
    rw [series_eq, sum_interpose hzero]
    exact (sum_runLengths first 0 (first :: rest)).trans (Nat.zero_add _)
  others p hp := by
    rcases mem_series hsorted hp with ⟨t, ht, rfl⟩ | ⟨u, hu, v, hv, -, hfill⟩
    · exact .inl ⟨t, ht, rfl⟩
    · obtain ⟨-, hvalue, hdate | hdate⟩ := mem_fill hfill
      · exact .inr ⟨hvalue, u, hu, .inl hdate⟩
      · exact .inr ⟨hvalue, v, hv, .inr hdate⟩
  gaps u hu v hv hgap hnone := by
    have hseries := @infix_series status first rest hsorted u v hu hv (by omega) hnone
    rcases @fill_cases status u v (htimes.seconds u hu) (htimes.seconds v hv) (by omega) with
      ⟨hv, -⟩ | ⟨hv, hfill⟩ | ⟨-, hfill⟩
    · omega
    · have hsame : v - 1000 = u + 1000 := by omega
      rw [hfill] at hseries
      rw [secondBefore, hsame]
      exact ⟨.trans ⟨[], [_], rfl⟩ hseries, .trans ⟨[_], [], rfl⟩ hseries⟩
    · rw [hfill] at hseries
      exact ⟨.trans ⟨[], [_, _], rfl⟩ hseries, .trans ⟨[_, _], [], rfl⟩ hseries⟩

end Sorted

section Page

variable {status : MessageStatus} {times : List Nat}

theorem EventTimes.perm {l : List Nat} (h : EventTimes times) (hperm : l.Perm times) :
    EventTimes l where
  positive t ht := h.positive t (hperm.subset ht)
  seconds t ht := h.seconds t (hperm.subset ht)
  digits t ht u hu := h.digits t (hperm.subset ht) u (hperm.subset hu)
  numbers t ht := h.numbers t (hperm.subset ht)
  long t ht := h.long t (hperm.subset ht)

theorem EventTimes.sorted (h : EventTimes times) : (defaultSort times).Pairwise (· ≤ ·) :=
  pairwise_defaultSort h.numbers
    (fun t ht => (h.long t ht).trans (by decide)) h.digits

theorem EventTimes.exists_sorted (h : EventTimes times) (hne : times ≠ []) :
    ∃ first rest, defaultSort times = first :: rest ∧ EventTimes (first :: rest) ∧
      (first :: rest).Pairwise (· ≤ ·) ∧ (first :: rest).Perm times := by
  have hperm := perm_defaultSort times
  have hevents := h.perm hperm
  have hsorted := h.sorted
  cases hlist : defaultSort times with
  | nil =>
    rw [hlist] at hperm
    exact absurd hperm.nil_eq.symm hne
  | cons first rest =>
    rw [hlist] at hperm hevents hsorted
    exact ⟨first, rest, rfl, hevents, hsorted, hperm⟩

theorem Histogram.of_perm {after before : Nat → Nat} {l : List Nat} {points : List Point}
    (h : Histogram after before status l points) (hperm : l.Perm times) :
    Histogram after before status times points where
  field := h.field
  defined := h.defined
  increasing := h.increasing
  counted t ht := by
    rw [h.counted t (hperm.symm.subset ht), hperm.count_eq]
  total := h.total.trans hperm.length_eq
  others p hp := by
    simpa only [hperm.mem_iff] using h.others p hp
  gaps := by
    simpa only [hperm.mem_iff, hperm.count_eq] using h.gaps

theorem defaultSort_of_sorted (h : EventTimes times) (hsorted : times.Pairwise (· ≤ ·)) :
    defaultSort times = times :=
  (perm_defaultSort times).eq_of_pairwise (fun _ _ _ _ => le_antisymm) h.sorted hsorted

/-- Up to `2 ^ 56` the places a second away are numbers. -/
theorem exact_iff {t : Nat} (hround : round t = t) (hsecond : 1000 ∣ t) :
    secondAfter t = t + 1000 ∧ secondBefore t = t - 1000 ↔ t < 2 ^ 56 := by
  constructor
  · rintro ⟨hafter, -⟩
    by_contra hlarge
    have htime := @dvd_of_round t 4 hround (by omega)
    have hplace := @dvd_of_round (t + 1000) 4 hafter (by omega)
    omega
  · intro hlt
    refine ⟨?_, @round_of_pow_dvd (t - 1000) 3 (by omega) (by omega)⟩
    by_cases hlast : t + 1000 < 2 ^ 56
    · exact @round_of_pow_dvd (t + 1000) 3 (by omega) (by omega)
    · have hedge : t = 72057594037927000 := by omega
      rw [hedge]
      decide

/-- The points for the times of events in any order are a histogram of them. The zeros stand at the
numbers next to a second after and a second before, and up to `2 ^ 56` right there. -/
theorem series_histogram (htimes : EventTimes times) (hne : times ≠ []) :
    Histogram secondAfter secondBefore status times (series status (defaultSort times)) ∧
      ∀ t ∈ times, secondAfter t = t + 1000 ∧ secondBefore t = t - 1000 ↔ t < 2 ^ 56 := by
  refine ⟨?_, fun t ht => exact_iff (htimes.numbers t ht) (htimes.seconds t ht)⟩
  obtain ⟨first, rest, hlist, hevents, hsorted, hperm⟩ := htimes.exists_sorted hne
  rw [hlist]
  exact (histogram_of_sorted hsorted hevents).of_perm hperm

theorem series_histogram_two_seconds :
    Histogram secondAfter secondBefore .published [1500000003000, 1500000000000, 1500000003000]
        (series .published (defaultSort [1500000003000, 1500000000000, 1500000003000])) ∧
      ∀ t ∈ [1500000003000, 1500000000000, 1500000003000],
        secondAfter t = t + 1000 ∧ secondBefore t = t - 1000 ↔ t < 2 ^ 56 :=
  series_histogram ⟨by decide, by decide, by decide +kernel, by decide, by decide⟩ (by decide)

theorem large_times : EventTimes [1125899906842624000, 1125899906842752000] :=
  ⟨by decide, by decide, by decide +kernel, by decide, by decide⟩

/-- A second after a time that is too large, the nearest number is 24 milliseconds off. -/
theorem not_one_second :
    ¬∀ times : List Nat, EventTimes times → times ≠ [] →
      Histogram (· + 1000) (· - 1000) .published times
        (series .published (defaultSort times)) := by
  intro h
  have hhistogram := h _ large_times (by decide)
  rw [defaultSort_of_sorted large_times (by decide)] at hhistogram
  have hothers := hhistogram.others ⟨some 1125899906842625024, .published, 0⟩ (by decide)
  revert hothers
  decide

end Page

end CarbonMessaging.RateSeries
