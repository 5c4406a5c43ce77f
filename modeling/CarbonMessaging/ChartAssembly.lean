import CarbonMessaging.RateSeries

/-! The chart of the message-rate page, put together from the times in `currentOutput`. The three
series are stretched to the range between the earliest published and the latest acknowledged
message by points of value zero. -/

namespace CarbonMessaging.ChartAssembly

open JavaScriptNumbers MessageRatePage RateSeries

def time (currentMessage : ChartRecord) : MessageStatus → Option Int
  | .published => currentMessage.published
  | .delivered => currentMessage.delivered
  | .acknowledged => currentMessage.acknowledged

/-- `parseInt` of a number: what is printed for it is read. -/
def parseInt (x : Int) : Int :=
  if x < 0 then -(round (concatenated x.natAbs) : Int) else round (concatenated x.natAbs)

/-- The times of one status that are pushed; a missing one is not a number. -/
def rate (currentOutput : Output) (status : MessageStatus) : List Nat :=
  ((currentOutput status).getD []).filterMap fun currentMessage =>
    (time currentMessage status).bind fun value =>
      if 0 < parseInt value then some (parseInt value).toNat else none

/-- Starts at the largest `Long` value in Java. -/
def lowerBoundary (publishRate : List Nat) : Nat :=
  publishRate.foldl
    (fun lower publishedTime => if publishedTime < lower then publishedTime else lower)
    (round 9223372036854775807)

def upperBoundary (acknowledgedRate : List Nat) : Nat :=
  acknowledgedRate.foldl
    (fun upper acknowledgedTime => if upper < acknowledgedTime then acknowledgedTime else upper) 0

/-- What is unshifted if the first point is after the lower boundary: the boundary, and then the
place before the first point in front of it. -/
def leading (field : MessageStatus) (lower : Nat) (rate : List Nat) : List Point :=
  match rate.head? with
  | none => []
  | some first =>
    if lower < first then [⟨some (secondBefore first), field, 0⟩, ⟨some lower, field, 0⟩] else []

def trailing (field : MessageStatus) (upper : Nat) (rate : List Nat) : List Point :=
  match rate.getLast? with
  | none => []
  | some last =>
    if last < upper then [⟨some (secondAfter last), field, 0⟩, ⟨some upper, field, 0⟩] else []

def chartData (rate : MessageStatus → List Nat) : List Point :=
  let lower := lowerBoundary (rate .published)
  let upper := upperBoundary (rate .acknowledged)
  let publishRate := defaultSort (rate .published)
  let deliverRate := defaultSort (rate .delivered)
  let acknowledgedRate := defaultSort (rate .acknowledged)
  let series := series .published publishRate ++ series .delivered deliverRate ++
    series .acknowledged acknowledgedRate
  leading .acknowledged lower acknowledgedRate ++
    (leading .delivered lower deliverRate ++ series) ++
    trailing .delivered upper deliverRate ++ trailing .published upper publishRate

def generateChartData (currentOutput : Output) : List Point := chartData (rate currentOutput)

def notAfter (p q : Point) : Prop := ∃ a ∈ p.date, ∃ b ∈ q.date, a ≤ b

def InRange (rate : MessageStatus → List Nat) (t : Nat) : Prop :=
  (∃ p ∈ rate .published, p ≤ t) ∧ ∃ a ∈ rate .acknowledged, t ≤ a

structure Drawable (rate : MessageStatus → List Nat) (points : List Point) : Prop where
  defined : ∀ p ∈ points, ∃ date, p.date = some date
  ordered : ∀ field, (points.filter fun p => p.field = field).Pairwise notAfter
  range : (∀ field, ∀ t ∈ rate field, InRange rate t) →
    ∀ p ∈ points, ∀ date ∈ p.date, InRange rate date
  complete : ∀ field, (series field (defaultSort (rate field))).Sublist points

/-- Messages are published, and a second after the earliest of them one has been delivered and one
has been acknowledged. -/
def Overlapping (rate : MessageStatus → List Nat) : Prop :=
  rate .published ≠ [] ∧ ∀ p ∈ rate .published,
    (∃ d ∈ rate .delivered, d ≤ p + 1000) ∧ ∃ a ∈ rate .acknowledged, a ≤ p + 1000

theorem foldl_boundary {α : Type*} [LinearOrder α] (l : List α) (b : α) :
    l.foldl (fun m t => if t < m then t else m) b ∈ b :: l ∧
      ∀ t ∈ b :: l, l.foldl (fun m t => if t < m then t else m) b ≤ t := by
  induction l generalizing b with
  | nil => simp
  | cons a l ih =>
    rw [List.foldl_cons]
    obtain ⟨hmem, hle⟩ := ih (if a < b then a else b)
    have hfirst := hle _ List.mem_cons_self
    constructor
    · rcases List.mem_cons.1 hmem with heq | hmem
      · rw [heq]
        split <;> simp
      · exact List.mem_cons_of_mem _ (List.mem_cons_of_mem _ hmem)
    · intro t ht
      simp only [List.mem_cons] at ht
      rcases ht with rfl | rfl | ht
      · refine hfirst.trans ?_
        split
        · exact le_of_lt ‹_›
        · exact le_rfl
      · refine hfirst.trans ?_
        split
        · exact le_rfl
        · exact le_of_not_gt ‹_›
      · exact hle t (List.mem_cons_of_mem _ ht)

theorem boundary_spec {α : Type*} [LinearOrder α] {l : List α} {b : α} (hne : l ≠ [])
    (hbeyond : ∀ t ∈ l, t < b) : l.foldl (fun m t => if t < m then t else m) b ∈ l ∧
      ∀ t ∈ l, l.foldl (fun m t => if t < m then t else m) b ≤ t := by
  obtain ⟨hmem, hle⟩ := foldl_boundary l b
  refine ⟨(List.mem_cons.1 hmem).resolve_left fun heq => ?_,
    fun t ht => hle t (List.mem_cons_of_mem _ ht)⟩
  obtain ⟨t, ht⟩ := List.exists_mem_of_ne_nil _ hne
  have hstart := heq ▸ hle t (List.mem_cons_of_mem _ ht)
  exact absurd (hbeyond t ht) (not_lt.2 hstart)

theorem lowerBoundary_spec {publishRate : List Nat} (h : EventTimes publishRate)
    (hne : publishRate ≠ []) : lowerBoundary publishRate ∈ publishRate ∧
      ∀ t ∈ publishRate, lowerBoundary publishRate ≤ t := by
  refine boundary_spec hne fun t ht => ?_
  have hlong := h.long t ht
  have hlargest : (round 9223372036854775807 : Nat) = 2 ^ 63 := by decide
  omega

theorem upperBoundary_spec {acknowledgedRate : List Nat} (h : EventTimes acknowledgedRate)
    (hne : acknowledgedRate ≠ []) : upperBoundary acknowledgedRate ∈ acknowledgedRate ∧
      ∀ t ∈ acknowledgedRate, t ≤ upperBoundary acknowledgedRate :=
  @boundary_spec Natᵒᵈ _ _ _ hne h.positive

instance : IsTrans Point notAfter where
  trans p q r := by
    rintro ⟨a, ha, b, hb, hab⟩ ⟨b', hb', c, hc, hbc⟩
    rw [Option.mem_unique hb' hb] at hbc
    exact ⟨a, ha, c, hc, hab.trans hbc⟩

theorem notAfter_some {a b : Nat} {field field' : MessageStatus} {value value' : Nat} :
    notAfter ⟨some a, field, value⟩ ⟨some b, field', value'⟩ ↔ a ≤ b := by
  simp [notAfter]

theorem notAfter_of_earlier {p q : Point} (h : p.earlier q) : notAfter p q := by
  obtain ⟨a, ha, b, hb, hab⟩ := h
  exact ⟨a, ha, b, hb, hab.le⟩

theorem leading_cases (status : MessageStatus) (lower : Nat) (rate : List Nat) :
    leading status lower rate = [] ∨ ∃ first, rate.head? = some first ∧ lower < first ∧
      leading status lower rate =
        [⟨some (secondBefore first), status, 0⟩, ⟨some lower, status, 0⟩] := by
  rw [leading]
  cases rate.head? with
  | none => exact .inl rfl
  | some first =>
    by_cases h : lower < first
    · exact .inr ⟨first, rfl, h, if_pos h⟩
    · exact .inl (if_neg h)

theorem trailing_cases (status : MessageStatus) (upper : Nat) (rate : List Nat) :
    trailing status upper rate = [] ∨ ∃ last, rate.getLast? = some last ∧ last < upper ∧
      trailing status upper rate =
        [⟨some (secondAfter last), status, 0⟩, ⟨some upper, status, 0⟩] := by
  rw [trailing]
  cases rate.getLast? with
  | none => exact .inl rfl
  | some last =>
    by_cases h : last < upper
    · exact .inr ⟨last, rfl, h, if_pos h⟩
    · exact .inl (if_neg h)

theorem field_of_leading {status : MessageStatus} {lower : Nat} {rate : List Nat} :
    ∀ p ∈ leading status lower rate, p.field = status := by
  rcases leading_cases status lower rate with h | ⟨first, -, -, h⟩
  · simp [h]
  · simp [h]

theorem field_of_trailing {status : MessageStatus} {upper : Nat} {rate : List Nat} :
    ∀ p ∈ trailing status upper rate, p.field = status := by
  rcases trailing_cases status upper rate with h | ⟨last, -, -, h⟩
  · simp [h]
  · simp [h]

theorem field_of_series {status : MessageStatus} {rate : List Nat} :
    ∀ p ∈ series status rate, p.field = status := by
  cases rate with
  | nil =>
    intro p hp
    rw [List.mem_singleton.1 hp]
  | cons first rest =>
    rw [series_eq]
    intro p hp
    rcases RunLengths.mem_interpose.1 hp with ⟨run, -, rfl⟩ | ⟨run, next, -, hfill⟩
    · rfl
    · exact (mem_fill hfill).1

theorem filter_field {field status : MessageStatus} {points : List Point}
    (h : ∀ p ∈ points, p.field = status) :
    points.filter (fun p => p.field = field) = if status = field then points else [] := by
  split
  · rename_i heq
    exact List.filter_eq_self.2 fun p hp => decide_eq_true ((h p hp).trans heq)
  · rename_i hne
    exact List.filter_eq_nil_iff.2 fun p hp hfield =>
      hne ((h p hp).symm.trans (of_decide_eq_true hfield))

theorem filter_chartData (rate : MessageStatus → List Nat) (field : MessageStatus) :
    (chartData rate).filter (fun p => p.field = field) =
      (if field = .published then []
        else leading field (lowerBoundary (rate .published)) (defaultSort (rate field))) ++
      series field (defaultSort (rate field)) ++
      if field = .acknowledged then []
      else trailing field (upperBoundary (rate .acknowledged)) (defaultSort (rate field)) := by
  simp only [chartData, List.filter_append, filter_field field_of_leading,
    filter_field field_of_series, filter_field field_of_trailing]
  cases field <;> simp

theorem secondBefore_le {t : Nat} (h : round t = t) : secondBefore t ≤ t := by
  have hmono := round_mono (Nat.sub_le t 1000)
  rwa [h] at hmono

theorem le_secondBefore {lower t : Nat} (hround : round lower = lower) (h : lower + 1000 ≤ t) :
    lower ≤ secondBefore t := by
  have hmono := round_mono (Nat.le_sub_of_add_le h)
  rwa [hround] at hmono

theorem le_secondAfter {t : Nat} (h : round t = t) : t ≤ secondAfter t := by
  have hmono := round_mono (Nat.le_add_right t 1000)
  rwa [h] at hmono

theorem secondAfter_le {upper t : Nat} (hround : round upper = upper) (h : t + 1000 ≤ upper) :
    secondAfter t ≤ upper := by
  have hmono := round_mono h
  rwa [hround] at hmono

theorem secondBefore_le_iff {lower first : Nat} (hround : round lower = lower)
    (hlower : 1000 ∣ lower) (hfirst : 1000 ∣ first) (hlt : lower < first) (hlong : first < 2 ^ 63) :
    secondBefore first ≤ lower ↔ first ≤ lower + 1000 := by
  constructor
  · intro h
    by_contra hlarge
    have hafter := lt_round_after (by omega : lower + 1000 < 2 ^ 63)
    have hmono := round_mono (by omega : lower + 1000 ≤ first - 1000)
    rw [secondBefore] at h
    omega
  · intro h
    have hsame : first - 1000 = lower := by omega
    rw [secondBefore, hsame, hround]

section Sorted

variable {status : MessageStatus} {first : Nat} {rest : List Nat}

theorem date_of_leading (htimes : EventTimes (first :: rest)) {lower : Nat}
    (hround : round lower = lower) (hsecond : 1000 ∣ lower) {p : Point}
    (hp : p ∈ leading status lower (first :: rest)) :
    ∃ d, p.date = some d ∧ lower ≤ d ∧ d ≤ first := by
  have hfirst := htimes.seconds first List.mem_cons_self
  rcases leading_cases status lower (first :: rest) with h | ⟨first', hhead, hlt, h⟩
  · rw [h] at hp
    cases hp
  · obtain rfl := Option.some.inj hhead
    rw [h] at hp
    simp only [List.mem_cons, List.not_mem_nil, or_false] at hp
    rcases hp with rfl | rfl
    · exact ⟨_, rfl, le_secondBefore hround (by omega),
        secondBefore_le (htimes.numbers first List.mem_cons_self)⟩
    · exact ⟨_, rfl, le_rfl, hlt.le⟩

variable (hsorted : (first :: rest).Pairwise (· ≤ ·))
include hsorted

theorem first_le {t : Nat} (ht : t ∈ first :: rest) : first ≤ t := by
  rcases List.mem_cons.1 ht with rfl | ht
  · exact le_rfl
  · exact (List.pairwise_cons.1 hsorted).1 t ht

theorem getLast?_spec {last : Nat} (hlast : (first :: rest).getLast? = some last) :
    last ∈ first :: rest ∧ ∀ t ∈ first :: rest, t ≤ last := by
  obtain ⟨front, hfront⟩ := List.getLast?_eq_some_iff.1 hlast
  rw [hfront] at hsorted ⊢
  refine ⟨by simp, fun t ht => ?_⟩
  rcases List.mem_append.1 ht with ht | ht
  · exact (List.pairwise_append.1 hsorted).2.2 t ht last (List.mem_singleton_self last)
  · exact (List.mem_singleton.1 ht).le

variable (htimes : EventTimes (first :: rest))
include htimes

theorem date_of_series {p : Point} (hp : p ∈ series status (first :: rest)) :
    ∃ d, p.date = some d ∧ (∃ u ∈ first :: rest, u ≤ d) ∧ ∃ v ∈ first :: rest, d ≤ v := by
  rcases mem_series hsorted hp with ⟨t, ht, rfl⟩ | ⟨u, hu, v, hv, hlt, hfill⟩
  · exact ⟨t, rfl, ⟨t, ht, le_rfl⟩, t, ht, le_rfl⟩
  · have hordered := @pairwise_fill status u v 0 0 (htimes.numbers u hu) (htimes.numbers v hv)
      ⟨htimes.seconds u hu, htimes.seconds v hv⟩ (htimes.long v hv) hlt
    obtain ⟨hfirst, hrest⟩ := List.pairwise_cons.1 hordered
    obtain ⟨a, ha, d, hd, had⟩ := hfirst p (List.mem_append_left _ hfill)
    obtain ⟨d', hd', b, hb, hdb⟩ :=
      (List.pairwise_append.1 hrest).2.2 p hfill _ (List.mem_singleton_self _)
    obtain rfl := Option.mem_unique hd' hd
    obtain rfl := Option.some.inj ha
    obtain rfl := Option.some.inj hb
    exact ⟨d', hd, ⟨u, hu, had.le⟩, v, hv, hdb.le⟩

theorem date_of_trailing {upper : Nat} (hround : round upper = upper) (hsecond : 1000 ∣ upper)
    {p : Point} (hp : p ∈ trailing status upper (first :: rest)) :
    ∃ d, p.date = some d ∧ (∀ t ∈ first :: rest, t ≤ d) ∧ d ≤ upper := by
  rcases trailing_cases status upper (first :: rest) with h | ⟨last, hlast, hlt, h⟩
  · rw [h] at hp
    cases hp
  · obtain ⟨hmem, hle⟩ := getLast?_spec hsorted hlast
    have hlastSecond := htimes.seconds last hmem
    rw [h] at hp
    simp only [List.mem_cons, List.not_mem_nil, or_false] at hp
    rcases hp with rfl | rfl
    · exact ⟨_, rfl, fun t ht => (hle t ht).trans (le_secondAfter (htimes.numbers last hmem)),
        secondAfter_le hround (by omega)⟩
    · exact ⟨_, rfl, fun t ht => (hle t ht).trans hlt.le, le_rfl⟩

theorem pairwise_trailing {upper : Nat} (hround : round upper = upper) (hsecond : 1000 ∣ upper) :
    (trailing status upper (first :: rest)).Pairwise notAfter := by
  rcases trailing_cases status upper (first :: rest) with h | ⟨last, hlast, hlt, h⟩
  · rw [h]
    exact .nil
  · have hlastSecond := htimes.seconds last (getLast?_spec hsorted hlast).1
    rw [h]
    exact List.pairwise_pair.2 (notAfter_some.2 (secondAfter_le hround (by omega)))

theorem pairwise_leading_iff {lower : Nat} (hround : round lower = lower) (hsecond : 1000 ∣ lower) :
    (leading status lower (first :: rest) ++ series status (first :: rest)).Pairwise notAfter ↔
      first ≤ lower + 1000 := by
  have hfirst := htimes.seconds first List.mem_cons_self
  have hlong := htimes.long first List.mem_cons_self
  have hseries : (series status (first :: rest)).Pairwise notAfter :=
    (pairwise_series hsorted htimes).imp notAfter_of_earlier
  rcases leading_cases status lower (first :: rest) with h | ⟨first', hhead, hlt, h⟩
  · have hle : ¬lower < first := by
      intro hlt
      rw [leading, List.head?_cons] at h
      simp [hlt] at h
    rw [h, List.nil_append]
    exact iff_of_true hseries (by omega)
  · obtain rfl := Option.some.inj hhead
    rw [h, List.pairwise_append, List.pairwise_pair, notAfter_some,
      secondBefore_le_iff hround hsecond hfirst hlt hlong]
    refine ⟨fun hordered => hordered.1, fun hle => ⟨hle, hseries, fun p hp q hq => ?_⟩⟩
    rw [← h] at hp
    obtain ⟨a, ha, -, ha'⟩ := date_of_leading htimes hround hsecond hp
    obtain ⟨b, hb, ⟨u, hu, hub⟩, -⟩ := date_of_series hsorted htimes hq
    exact ⟨a, ha, b, hb, ha'.trans ((first_le hsorted hu).trans hub)⟩

end Sorted

section Chart

variable {rate : MessageStatus → List Nat}

theorem complete_chartData (rate : MessageStatus → List Nat) (field : MessageStatus) :
    (series field (defaultSort (rate field))).Sublist (chartData rate) := by
  refine List.Sublist.trans ?_ (List.filter_sublist (p := fun p => decide (p.field = field)))
  rw [filter_chartData]
  exact (List.sublist_append_right _ _).trans (List.sublist_append_left _ _)

theorem ne_nil_of_defined (h : ∀ p ∈ chartData rate, ∃ date, p.date = some date)
    (field : MessageStatus) : rate field ≠ [] := by
  intro hnil
  have hpoint := (complete_chartData rate field).subset
  rw [hnil, defaultSort, List.mergeSort_nil] at hpoint
  obtain ⟨date, hdate⟩ := h ⟨none, field, 0⟩ (hpoint (List.mem_singleton_self _))
  cases hdate

variable (h : ∀ field, EventTimes (rate field))
include h

variable (hne : ∀ field, rate field ≠ [])
include hne

theorem lower_spec : lowerBoundary (rate .published) ∈ rate .published ∧
    ∀ t ∈ rate .published, lowerBoundary (rate .published) ≤ t :=
  lowerBoundary_spec (h _) (hne _)

theorem upper_spec : upperBoundary (rate .acknowledged) ∈ rate .acknowledged ∧
    ∀ t ∈ rate .acknowledged, t ≤ upperBoundary (rate .acknowledged) :=
  upperBoundary_spec (h _) (hne _)

theorem date_of_point {p : Point} (hp : p ∈ chartData rate) :
    ∃ d, p.date = some d ∧
      (lowerBoundary (rate .published) ≤ d ∨ ∃ u ∈ rate p.field, u ≤ d) ∧
      (d ≤ upperBoundary (rate .acknowledged) ∨ ∃ v ∈ rate p.field, d ≤ v) := by
  obtain ⟨first, rest, hlist, hevents, hsorted, hperm⟩ := (h p.field).exists_sorted (hne p.field)
  have hfield : p ∈ (chartData rate).filter fun q => q.field = p.field :=
    List.mem_filter.2 ⟨hp, decide_eq_true rfl⟩
  simp only [filter_chartData, hlist, List.mem_append] at hfield
  simp only [← hperm.mem_iff]
  rcases hfield with (hp | hp) | hp
  · have hlower := (lower_spec h hne).1
    split at hp
    · cases hp
    · obtain ⟨d, hd, hle, hfirst⟩ := date_of_leading hevents ((h _).numbers _ hlower)
        ((h _).seconds _ hlower) hp
      exact ⟨d, hd, .inl hle, .inr ⟨first, List.mem_cons_self, hfirst⟩⟩
  · obtain ⟨d, hd, hu, hv⟩ := date_of_series hsorted hevents hp
    exact ⟨d, hd, .inr hu, .inr hv⟩
  · have hupper := (upper_spec h hne).1
    split at hp
    · cases hp
    · obtain ⟨d, hd, hall, hle⟩ := date_of_trailing hsorted hevents ((h _).numbers _ hupper)
        ((h _).seconds _ hupper) hp
      exact ⟨d, hd, .inr ⟨first, List.mem_cons_self, hall first List.mem_cons_self⟩, .inl hle⟩

theorem range_of_point (hrange : ∀ field, ∀ t ∈ rate field, InRange rate t) {p : Point}
    (hp : p ∈ chartData rate) : ∀ date ∈ p.date, InRange rate date := by
  intro date hdate
  obtain ⟨d, hd, hlower, hupper⟩ := date_of_point h hne hp
  obtain rfl := Option.some.inj (hdate.symm.trans hd)
  constructor
  · rcases hlower with hlower | ⟨u, hu, hle⟩
    · exact ⟨_, (lower_spec h hne).1, hlower⟩
    · obtain ⟨t, ht, htu⟩ := (hrange _ u hu).1
      exact ⟨t, ht, htu.trans hle⟩
  · rcases hupper with hupper | ⟨v, hv, hle⟩
    · exact ⟨_, (upper_spec h hne).1, hupper⟩
    · obtain ⟨t, ht, hvt⟩ := (hrange _ v hv).2
      exact ⟨t, ht, hle.trans hvt⟩

theorem ordered_iff (field : MessageStatus) :
    ((chartData rate).filter fun p => p.field = field).Pairwise notAfter ↔
      ∃ t ∈ rate field, t ≤ lowerBoundary (rate .published) + 1000 := by
  obtain ⟨first, rest, hlist, hevents, hsorted, hperm⟩ := (h field).exists_sorted (hne field)
  obtain ⟨hlower, hlowest⟩ := lower_spec h hne
  have hupper := (upper_spec h hne).1
  have hearliest : (∃ t ∈ rate field, t ≤ lowerBoundary (rate .published) + 1000) ↔
      first ≤ lowerBoundary (rate .published) + 1000 := by
    constructor
    · rintro ⟨t, ht, hle⟩
      exact (first_le hsorted (hperm.mem_iff.2 ht)).trans hle
    · exact fun hle => ⟨first, hperm.mem_iff.1 List.mem_cons_self, hle⟩
  rw [hearliest, filter_chartData, hlist]
  -- what stands in front, the series included, decides
  have hfront : ((if field = .published then [] else
      leading field (lowerBoundary (rate .published)) (first :: rest)) ++
        series field (first :: rest)).Pairwise notAfter ↔
      first ≤ lowerBoundary (rate .published) + 1000 := by
    split
    · rename_i hpublished
      subst hpublished
      refine iff_of_true ((pairwise_series hsorted hevents).imp notAfter_of_earlier) ?_
      exact (first_le hsorted (hperm.mem_iff.2 hlower)).trans (Nat.le_add_right _ _)
    · exact pairwise_leading_iff hsorted hevents ((h _).numbers _ hlower) ((h _).seconds _ hlower)
  rw [List.pairwise_append, hfront]
  refine and_iff_left ⟨?_, fun p hp q hq => ?_⟩
  · split
    · exact .nil
    · exact pairwise_trailing hsorted hevents ((h _).numbers _ hupper) ((h _).seconds _ hupper)
  · have hbefore : ∃ a, p.date = some a ∧ ∃ v ∈ first :: rest, a ≤ v := by
      rcases List.mem_append.1 hp with hp | hp
      · split at hp
        · cases hp
        · obtain ⟨a, ha, -, hle⟩ := date_of_leading hevents ((h _).numbers _ hlower)
            ((h _).seconds _ hlower) hp
          exact ⟨a, ha, first, List.mem_cons_self, hle⟩
      · obtain ⟨a, ha, -, hv⟩ := date_of_series hsorted hevents hp
        exact ⟨a, ha, hv⟩
    split at hq
    · cases hq
    · obtain ⟨a, ha, v, hv, hav⟩ := hbefore
      obtain ⟨b, hb, hall, -⟩ := date_of_trailing hsorted hevents ((h _).numbers _ hupper)
        ((h _).seconds _ hupper) hq
      exact ⟨a, ha, b, hb, hav.trans (hall v hv)⟩

omit hne

theorem drawable_chartData_iff : Drawable rate (chartData rate) ↔ Overlapping rate := by
  constructor
  · intro hdrawable
    have hne := ne_nil_of_defined hdrawable.defined
    have hstart : ∀ field, ∀ p ∈ rate .published, ∃ t ∈ rate field, t ≤ p + 1000 := by
      intro field p hp
      obtain ⟨t, ht, hle⟩ := (ordered_iff h hne field).1 (hdrawable.ordered field)
      exact ⟨t, ht, hle.trans (Nat.add_le_add_right ((lower_spec h hne).2 p hp) 1000)⟩
    exact ⟨hne _, fun p hp => ⟨hstart _ p hp, hstart _ p hp⟩⟩
  · rintro ⟨hpublished, hstart⟩
    obtain ⟨p, hp⟩ := List.exists_mem_of_ne_nil _ hpublished
    obtain ⟨⟨d, hd, -⟩, a, ha, -⟩ := hstart p hp
    have hne : ∀ field, rate field ≠ [] := by
      intro field
      cases field with
      | published => exact hpublished
      | delivered => exact List.ne_nil_of_mem hd
      | acknowledged => exact List.ne_nil_of_mem ha
    have hlower := (lower_spec h hne).1
    refine ⟨fun p hp => ?_, fun field => (ordered_iff h hne field).2 ?_,
      fun hrange p hp => range_of_point h hne hrange hp, complete_chartData rate⟩
    · obtain ⟨date, hdate, -⟩ := date_of_point h hne hp
      exact ⟨date, hdate⟩
    · cases field with
      | published => exact ⟨_, hlower, Nat.le_add_right _ _⟩
      | delivered => exact (hstart _ hlower).1
      | acknowledged => exact (hstart _ hlower).2

end Chart

/-- The chart can be drawn when messages were published and the two other lines start in the next
second at the latest. -/
theorem drawable_iff (currentOutput : Output)
    (h : ∀ field, EventTimes (rate currentOutput field)) :
    Drawable (rate currentOutput) (generateChartData currentOutput) ↔
      Overlapping (rate currentOutput) :=
  drawable_chartData_iff h

def oneMessage (published handled : Int) (status : MessageStatus) : Option (List ChartRecord) :=
  match status with
  | .published => some [⟨1, some published, none, none⟩]
  | .delivered => some [⟨1, none, some handled, none⟩]
  | .acknowledged => some [⟨1, none, none, some handled⟩]

theorem drawable_one_second :
    Drawable (rate (oneMessage 1500000000000 1500000001000))
        (generateChartData (oneMessage 1500000000000 1500000001000)) ↔
      Overlapping (rate (oneMessage 1500000000000 1500000001000)) := by
  refine drawable_iff _ fun field => ?_
  cases field <;> exact ⟨by decide, by decide, by decide +kernel, by decide, by decide⟩

theorem not_drawable :
    ¬Drawable (rate (oneMessage 1500000000000 1500000002000))
      (generateChartData (oneMessage 1500000000000 1500000002000)) := by
  intro hdrawable
  have hevents : ∀ field, EventTimes (rate (oneMessage 1500000000000 1500000002000) field) := by
    intro field
    cases field <;> exact ⟨by decide, by decide, by decide +kernel, by decide, by decide⟩
  obtain ⟨d, hd, hle⟩ := ((drawable_chartData_iff hevents).1 hdrawable).2 1500000000000 (by decide)
    |>.1
  revert d
  decide

end CarbonMessaging.ChartAssembly
