import CarbonMessaging.DomainFilters

/-! What the subscriptions of other tenants do to a tenant's listing. A subscription names its
owner in a field that depends on its kind; the listing reads that field of every subscription,
and one that it cannot read ends the listing. -/

namespace CarbonMessaging.SubscriptionListings

open JavaLang FailingFilters AndesCore AndesCore.SubscriptionManagerServiceImpl

def ownerName (subscription : Subscription) : Option Str :=
  if subscription.subscriberQueueBoundExchange = some DIRECT_EXCHANGE then
    if subscription.isDurable then subscription.subscriberQueueName
    else subscription.subscribedQueueOrTopicName
  else if subscription.subscriberQueueBoundExchange = some TOPIC_EXCHANGE then
    if subscription.isDurable then
      subscription.subscriberQueueName.bind fun name => (splitFirst ':' name).2
    else subscription.subscribedQueueOrTopicName
  else none

def belongsTo (domain : Str) (subscription : Subscription) : Bool :=
  (ownerName subscription).any (startsWith · (domain ++ "/".toList))

def IsDurableTopic (subscription : Subscription) : Prop :=
  subscription.isDurable = true ∧ subscription.subscriberQueueBoundExchange = some TOPIC_EXCHANGE

/-- The bound exchange and the name that the kind asks for are there; a durable topic's queue
name has something other than colons behind its first colon. -/
structure Readable (subscription : Subscription) : Prop where
  exchange : subscription.subscriberQueueBoundExchange ≠ none
  owner : subscription.subscriberQueueBoundExchange = some DIRECT_EXCHANGE ∨
    subscription.subscriberQueueBoundExchange = some TOPIC_EXCHANGE →
      ownerName subscription ≠ none
  part : IsDurableTopic subscription → ∀ name ∈ ownerName subscription, ∃ c ∈ name, c ≠ ':'

section

variable {domain : Str} {subscription : Subscription} {b : Bool}

theorem isOfTenant_unbound (h : subscription.subscriberQueueBoundExchange = none) :
    isOfTenant domain subscription = .error nullPointerException := by
  rw [isOfTenant, h]
  rfl

theorem isOfTenant_direct (h : subscription.subscriberQueueBoundExchange = some DIRECT_EXCHANGE) :
    isOfTenant domain subscription =
      (nonNull (ownerName subscription)).map (startsWith · (domain ++ "/".toList)) := by
  obtain ⟨subscribed, exchange, subscriber, durable⟩ := subscription
  cases h
  cases durable
  · cases subscribed <;> rfl
  · cases subscriber <;> rfl

theorem isOfTenant_tempTopic (h : subscription.subscriberQueueBoundExchange = some TOPIC_EXCHANGE)
    (htemp : subscription.isDurable = false) :
    isOfTenant domain subscription =
      (nonNull (ownerName subscription)).map (startsWith · (domain ++ "/".toList)) := by
  obtain ⟨subscribed, exchange, subscriber, durable⟩ := subscription
  cases h
  cases htemp
  cases subscribed <;> rfl

theorem ownerName_durableTopic (h : IsDurableTopic subscription) {rest : Str} :
    ownerName subscription = some rest ↔ ∃ name, subscription.subscriberQueueName = some name ∧
      ':' ∈ name ∧ after ':' name = rest := by
  have hdirect : subscription.subscriberQueueBoundExchange ≠ some DIRECT_EXCHANGE :=
    h.2 ▸ by decide
  rw [ownerName, if_neg hdirect, if_pos h.2, if_pos h.1, Option.bind_eq_some_iff]
  simp [splitFirst]

theorem isOfTenant_durableTopic (h : IsDurableTopic subscription) :
    isOfTenant domain subscription = .ok b ↔
      ∃ name, ownerName subscription = some name ∧ (∃ c ∈ name, c ≠ ':') ∧
        startsWith (upTo ':' name) (domain ++ "/".toList) = b := by
  have hread : isOfTenant domain subscription = .ok b ↔
      ∃ name, subscription.subscriberQueueName = some name ∧
        ∃ part, arrayGet (split ':' name) 1 = .ok part ∧
          startsWith part (domain ++ "/".toList) = b := by
    obtain ⟨subscribed, exchange, subscriber, durable⟩ := subscription
    obtain ⟨hdurable, hexchange⟩ := h
    cases hdurable
    cases hexchange
    cases subscriber with
    | none => exact ⟨fun h => (nomatch h), fun ⟨_, h, _⟩ => (nomatch h)⟩
    | some name =>
      have hname : isOfTenant domain ⟨subscribed, some TOPIC_EXCHANGE, some name, true⟩ =
          (arrayGet (split ':' name) 1).bind fun subscriptionID =>
            .ok (startsWith subscriptionID (domain ++ "/".toList)) := rfl
      simp only [hname, Option.some.injEq, exists_eq_left']
      cases arrayGet (split ':' name) 1 <;> simp [Except.bind]
  rw [hread]
  simp only [ownerName_durableTopic h, arrayGet_eq_ok, split_second_eq_some_iff]
  constructor
  · rintro ⟨name, hname, part, ⟨hcolon, hother, rfl⟩, hstart⟩
    exact ⟨after ':' name, ⟨name, hname, hcolon, rfl⟩, hother, hstart⟩
  · rintro ⟨_, ⟨name, hname, hcolon, rfl⟩, hother, hstart⟩
    exact ⟨name, hname, _, ⟨hcolon, hother, rfl⟩, hstart⟩

theorem isOfTenant_other (hbound : subscription.subscriberQueueBoundExchange ≠ none)
    (hdirect : subscription.subscriberQueueBoundExchange ≠ some DIRECT_EXCHANGE)
    (htopic : subscription.subscriberQueueBoundExchange ≠ some TOPIC_EXCHANGE) :
    isOfTenant domain subscription = .ok false := by
  obtain ⟨subscribed, exchange, subscriber, durable⟩ := subscription
  obtain ⟨exchange, rfl⟩ := Option.ne_none_iff_exists'.1 hbound
  have hd : (exchange == "amq.direct".toList) = false :=
    beq_eq_false_iff_ne.2 fun h => hdirect (congrArg some h)
  have ht : (exchange == "amq.topic".toList) = false :=
    beq_eq_false_iff_ne.2 fun h => htopic (congrArg some h)
  rw [isOfTenant]
  change (if !durable && exchange == "amq.direct".toList then _ else _) = _
  simp only [hd, ht, Bool.and_false, Bool.false_eq_true, if_false]
  rfl

theorem isOfTenant_plain (h : ¬IsDurableTopic subscription) :
    isOfTenant domain subscription = .ok b ↔
      Readable subscription ∧ belongsTo domain subscription = b := by
  have hread : ∀ o : Option Str, (nonNull o).map (startsWith · (domain ++ "/".toList)) = .ok b ↔
      o ≠ none ∧ o.any (startsWith · (domain ++ "/".toList)) = b := by
    intro o
    cases o <;> simp [nonNull, Except.map]
  by_cases hbound : subscription.subscriberQueueBoundExchange = none
  · rw [isOfTenant_unbound hbound]
    exact ⟨fun e => (nomatch e), fun ⟨e, _⟩ => absurd hbound e.exchange⟩
  · have hreadable : Readable subscription ↔
        (subscription.subscriberQueueBoundExchange = some DIRECT_EXCHANGE ∨
          subscription.subscriberQueueBoundExchange = some TOPIC_EXCHANGE →
            ownerName subscription ≠ none) :=
      ⟨fun e => e.owner, fun e => ⟨hbound, e, fun hdurable => absurd hdurable h⟩⟩
    by_cases hdirect : subscription.subscriberQueueBoundExchange = some DIRECT_EXCHANGE
    · rw [isOfTenant_direct hdirect, hread, hreadable]
      simp [hdirect, belongsTo]
    · by_cases htopic : subscription.subscriberQueueBoundExchange = some TOPIC_EXCHANGE
      · have htemp : subscription.isDurable = false :=
          Bool.not_eq_true _ ▸ fun hdurable => h ⟨hdurable, htopic⟩
        rw [isOfTenant_tempTopic htopic htemp, hread, hreadable]
        simp [htopic, belongsTo]
      · have howner : ownerName subscription = none := by
          rw [ownerName, if_neg hdirect, if_neg htopic]
        rw [isOfTenant_other hbound hdirect htopic, hreadable]
        simp [hdirect, htopic, belongsTo, howner]

theorem readable_durableTopic (h : IsDurableTopic subscription) :
    Readable subscription ↔
      ∃ name, ownerName subscription = some name ∧ ∃ c ∈ name, c ≠ ':' := by
  constructor
  · intro hread
    obtain ⟨name, hname⟩ := Option.ne_none_iff_exists'.1 (hread.owner (.inr h.2))
    exact ⟨name, hname, hread.part h name hname⟩
  · rintro ⟨name, hname, hpart⟩
    refine ⟨by simp [h.2], fun _ => by simp [hname], ?_⟩
    intro _ same hsame
    rw [hname] at hsame
    cases hsame
    exact hpart

/-- A listing gives the right answer about a subscription just when it can read it and, for a
durable topic's, the domain has no colon at which the name would be cut. -/
theorem isOfTenant_eq_belongsTo_iff :
    isOfTenant domain subscription = .ok (belongsTo domain subscription) ↔
      Readable subscription ∧
        (':' ∈ domain → IsDurableTopic subscription → belongsTo domain subscription = false) := by
  by_cases h : IsDurableTopic subscription
  · rw [isOfTenant_durableTopic h, readable_durableTopic h]
    have hcolon : ':' ∈ domain ++ "/".toList ↔ ':' ∈ domain := by simp
    cases howner : ownerName subscription with
    | none => simp
    | some name =>
      have hbelongs : belongsTo domain subscription = startsWith name (domain ++ "/".toList) := by
        rw [belongsTo, howner, Option.any_some]
      simp only [hbelongs, Option.some.injEq, exists_eq_left', startsWith_upTo_eq_iff, hcolon, h,
        forall_const]
  · rw [isOfTenant_plain h]
    simp [h]

theorem belongsTo_of_isOfTenant (h : isOfTenant domain subscription = .ok true) :
    belongsTo domain subscription = true := by
  by_cases hkind : IsDurableTopic subscription
  · obtain ⟨name, hname, -, hstart⟩ := (isOfTenant_durableTopic hkind).1 h
    rw [belongsTo, hname, Option.any_some, (startsWith_upTo.1 hstart).2]
  · exact ((isOfTenant_plain hkind).1 h).2

end

theorem filterDomainSpecificSubscribers_tenant {context : CarbonContext} {domain : Str}
    (hdomain : context.tenantDomain = some domain) (htenant : domain ≠ SUPER_TENANT_DOMAIN_NAME)
    (subscriptions : List Subscription) :
    filterDomainSpecificSubscribers context subscriptions =
      filterOrFail (isOfTenant domain) subscriptions := by
  rw [filterDomainSpecificSubscribers, hdomain]
  exact if_pos htenant

theorem classify_listing {context : CarbonContext} {domain : Str}
    (hdomain : context.tenantDomain = some domain) (htenant : domain ≠ SUPER_TENANT_DOMAIN_NAME)
    {subscriptions listed : List Subscription}
    (h : getAllSubscriptions context subscriptions = .ok listed) (exchange : Str)
    (durable : Bool) :
    classify exchange durable context subscriptions =
      .ok (listed.filter fun sub =>
        sub.subscriberQueueBoundExchange == some exchange && sub.isDurable == durable) := by
  have htests : ∀ sub ∈ listed,
      (nonNull sub.subscriberQueueBoundExchange >>= fun bound =>
        (pure (bound == exchange && sub.isDurable == durable) : Except JavaException Bool)) =
      .ok (sub.subscriberQueueBoundExchange == some exchange && sub.isDurable == durable) := by
    intro sub hsub
    rw [getAllSubscriptions, filterDomainSpecificSubscribers_tenant hdomain htenant] at h
    have hkept := ((mem_of_filterOrFail h).1 hsub).2
    cases hbound : sub.subscriberQueueBoundExchange with
    | none =>
      rw [isOfTenant_unbound hbound] at hkept
      cases hkept
    | some bound => rfl
  rw [classify, h]
  exact filterOrFail_of_ok htests

/-- Two lists of subscriptions that differ in foreign ones only give the same listing, the
tenant's own subscriptions in order, just when every subscription of both can be read and no
durable topic's is lost to a colon in the domain. -/
theorem listing_confined_iff {context : CarbonContext} {domain : Str}
    (hdomain : context.tenantDomain = some domain) (htenant : domain ≠ SUPER_TENANT_DOMAIN_NAME)
    {subscriptions subscriptions' : List Subscription}
    (hsame : subscriptions.filter (belongsTo domain) =
      subscriptions'.filter (belongsTo domain)) :
    (filterDomainSpecificSubscribers context subscriptions =
        .ok (subscriptions.filter (belongsTo domain)) ∧
      filterDomainSpecificSubscribers context subscriptions' =
        .ok (subscriptions.filter (belongsTo domain))) ↔
      ∀ subscription ∈ subscriptions ++ subscriptions',
        Readable subscription ∧
          (':' ∈ domain → IsDurableTopic subscription →
            belongsTo domain subscription = false) := by
  have hsound : ∀ subscription ∈ subscriptions ++ subscriptions',
      belongsTo domain subscription = false → isOfTenant domain subscription ≠ .ok true := by
    intro subscription _ hforeign hkept
    rw [belongsTo_of_isOfTenant hkept] at hforeign
    cases hforeign
  rw [filterDomainSpecificSubscribers_tenant hdomain htenant,
    filterDomainSpecificSubscribers_tenant hdomain htenant, filterOrFail_confined_iff hsound hsame]
  exact forall₂_congr fun _ _ => isOfTenant_eq_belongsTo_iff

def durableTopic (subscriberQueueName : Str) : Subscription :=
  ⟨some "t".toList, some TOPIC_EXCHANGE, some subscriberQueueName, true⟩

theorem listing_confined_foo :
    filterDomainSpecificSubscribers (.ofDomain "foo".toList) [durableTopic "carbon:foo/s".toList] =
        .ok [durableTopic "carbon:foo/s".toList] ∧
      filterDomainSpecificSubscribers (.ofDomain "foo".toList)
          [durableTopic "carbon:foo/s".toList, durableTopic "carbon:s".toList] =
        .ok [durableTopic "carbon:foo/s".toList] := by
  have hread : ∀ id : Str, (∃ c ∈ id, c ≠ ':') → Readable (durableTopic ("carbon:".toList ++ id)) :=
    fun id hid => (readable_durableTopic ⟨rfl, rfl⟩).2 ⟨id, rfl, hid⟩
  refine (@listing_confined_iff (.ofDomain "foo".toList) "foo".toList rfl (by decide)
    [durableTopic "carbon:foo/s".toList]
    [durableTopic "carbon:foo/s".toList, durableTopic "carbon:s".toList] (by decide)).2 ?_
  intro subscription hmem
  refine ⟨?_, fun hcolon => absurd hcolon (by decide)⟩
  simp only [List.cons_append, List.nil_append, List.mem_cons, List.not_mem_nil, or_false] at hmem
  rcases hmem with rfl | rfl | rfl
  · exact hread "foo/s".toList ⟨'f', by decide, by decide⟩
  · exact hread "foo/s".toList ⟨'f', by decide, by decide⟩
  · exact hread "s".toList ⟨'s', by decide, by decide⟩

/-- A durable topic subscription whose queue name has no colon, whoever's it is, ends the
listing of the tenant `foo`. -/
theorem colonless_ends_listing :
    [durableTopic "carbon:foo/s".toList].filter (belongsTo "foo".toList) =
        [durableTopic "carbon:foo/s".toList, durableTopic "s".toList].filter
          (belongsTo "foo".toList) ∧
      filterDomainSpecificSubscribers (.ofDomain "foo".toList)
          [durableTopic "carbon:foo/s".toList] =
        .ok [durableTopic "carbon:foo/s".toList] ∧
      filterDomainSpecificSubscribers (.ofDomain "foo".toList)
          [durableTopic "carbon:foo/s".toList, durableTopic "s".toList] =
        .error arrayIndexOutOfBoundsException := by
  decide

end CarbonMessaging.SubscriptionListings
