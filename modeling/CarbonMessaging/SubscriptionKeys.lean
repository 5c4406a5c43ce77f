import CarbonMessaging.RegistryListings

/-! Whether a topic's subscriptions are created, listed and deleted under one key. Only the
creation takes the tenant's domain off the topic. -/

namespace CarbonMessaging.SubscriptionKeys

open JavaLang FaultyCalls CommonsUtil RegistryClient PathChildren

variable {β : Type} {listing : ChildListing}

/-- What is created on the topic is listed there beside what was listed before, and goes from
the list when it is deleted. -/
def KeptUnderOneKey (listing : ChildListing) (w : World β)
    (topic subscriptionName owner : Str) : Prop :=
  ∃ before after created deleted entry,
    getSubscriptions listing topic ⟨w, []⟩ = .ok before ⟨w, []⟩ ∧
    createSubscription topic subscriptionName owner ⟨w, []⟩ = .ok () ⟨created, []⟩ ∧
    getSubscriptions listing topic ⟨created, []⟩ = .ok after ⟨created, []⟩ ∧
    after.Perm (entry :: before) ∧ entry.name = some subscriptionName ∧
      entry.owner = some owner ∧
    deleteSubscription topic subscriptionName ⟨created, []⟩ = .ok () ⟨deleted, []⟩ ∧
    getSubscriptions listing topic ⟨deleted, []⟩ = .ok before ⟨deleted, []⟩

theorem notMem_getTopicID (topicName : Str) : '.' ∉ getTopicID topicName := by
  have hplain := notMem_replaceChar (a := '.') (b := '/') (by decide) topicName
  have hcut : ∀ c, '.' ∉ upTo c (replaceChar '.' '/' topicName) := fun c h =>
    hplain (mem_of_mem_upTo h)
  have htopics : '.' ∉ TOPICS := by decide
  have hslash : '.' ∉ TOPICS ++ "/".toList := by decide
  rw [getTopicID, List.mem_append]
  rintro (h | h)
  · split at h
    · exact htopics h
    · exact hslash h
  · split at h
    · exact hcut _ h
    · exact hcut _ h

theorem getSubscriptionID_eq (topicName subscriptionName : Str) :
    getSubscriptionID topicName subscriptionName =
      getSubscriptonsID topicName ++ '/' :: subscriptionName := by
  simp [getSubscriptionID, getSubscriptonsID]

theorem below_getSubscriptonsID {topicName topicName' subscriptionName : Str} :
    Below '/' (getSubscriptonsID topicName) (getSubscriptionID topicName' subscriptionName) ↔
      getTopicID topicName' = getTopicID topicName := by
  constructor
  · intro h
    obtain ⟨rest, hrest⟩ := below_iff.1 h
    have hparts : JMS_SUBSCRIPTIONS = "jms".toList ++ '.' :: "subscriptions".toList := by decide
    have hdot : ∀ (t : Str) (rest : Str),
        upTo '.' (getSubscriptonsID t ++ rest) = getTopicID t ++ "/".toList ++ "jms".toList := by
      intro t rest
      have hplain : '.' ∉ getTopicID t ++ "/".toList ++ "jms".toList := by
        rw [List.append_assoc, List.mem_append]
        exact not_or_intro (notMem_getTopicID t) (by decide)
      rw [getSubscriptonsID, hparts, ← List.append_assoc, List.append_assoc _ _ rest,
        List.cons_append, upTo_append_cons, upTo_of_notMem hplain]
    have hsame := congrArg (upTo '.') hrest
    rw [getSubscriptionID_eq, hdot, hdot] at hsame
    exact List.append_cancel_right (List.append_cancel_right hsame)
  · intro h
    rw [getSubscriptionID_eq, getSubscriptonsID, getSubscriptonsID, h]
    exact below_child _

theorem getSubscriptionID_congr {topicName topicName' : Str}
    (h : getTopicID topicName' = getTopicID topicName) (subscriptionName : Str) :
    getSubscriptionID topicName' subscriptionName =
      getSubscriptionID topicName subscriptionName := by
  rw [getSubscriptionID, getSubscriptionID, h]

theorem childToward_created {topicName topicName' subscriptionName : Str}
    (hplain : '/' ∉ subscriptionName) :
    childToward '/' (getSubscriptonsID topicName)
        (getSubscriptionID topicName' subscriptionName) =
      if subscriptionName ≠ [] ∧ getTopicID topicName' = getTopicID topicName then
        some (getSubscriptionID topicName subscriptionName)
      else none := by
  by_cases hkey : getTopicID topicName' = getTopicID topicName
  · rw [getSubscriptionID_congr hkey, getSubscriptionID_eq]
    by_cases hempty : subscriptionName = []
    · rw [if_neg fun h => h.1 hempty, hempty]
      exact childToward_empty
    · rw [if_pos ⟨hempty, hkey⟩]
      exact childToward_child hempty hplain
  · rw [if_neg fun h => hkey h.2]
    exact childToward_of_not_below (mt below_getSubscriptonsID.1 hkey)

section
variable {w : World β} {topic subscriptionName owner : Str}

theorem kept (hplain : '/' ∉ subscriptionName)
    (hnew : ¬HasResource (w.registries w.context.ownTenant)
      (getSubscriptionID topic subscriptionName))
    (hname : subscriptionName ≠ [])
    (hkey : getTopicID (getTenantBasedTopicName w.context topic) = getTopicID topic) :
    KeptUnderOneKey listing w topic subscriptionName owner := by
  have hid := getSubscriptionID_congr hkey subscriptionName
  have habsent := notMem_of_no_resource hnew
  have hchild : childToward '/' (getSubscriptonsID topic)
      (getSubscriptionID topic subscriptionName) =
        some (getSubscriptionID topic subscriptionName) := by
    rw [childToward_created hplain, if_pos ⟨hname, rfl⟩]
  have hcreate := createSubscription_quiet topic subscriptionName owner w
  rw [hid, Finmap.lookup_eq_none.2 habsent, Option.getD_none] at hcreate
  have hdelete := deleteSubscription_quiet topic subscriptionName
    (w.putEntry w.context.ownTenant (getSubscriptionID topic subscriptionName)
      (subscriptionEntry w.now subscriptionName owner ∅))
  rw [putEntry_context, putEntry_registry, if_pos (Finmap.mem_insert.2 (.inl rfl)),
    putEntry_deleteEntry w _ habsent] at hdelete
  refine ⟨_, _, _, _, subscriptionDetails (subscriptionEntry w.now subscriptionName owner ∅),
    getSubscriptions_quiet topic w, hcreate, getSubscriptions_quiet topic _, ?_, ?_, ?_, hdelete,
    getSubscriptions_quiet topic w⟩
  · rw [putEntry_context, putEntry_registry]
    refine ((getChildren_insert_child hchild hnew _).map _).trans ?_
    rw [List.map_cons, collectionAt_insert_self]
    refine .cons _ (List.Perm.of_eq (List.map_congr_left fun child hlisted => ?_))
    have hne : child ≠ getSubscriptionID topic subscriptionName := fun e =>
      hnew (e ▸ hasResource_of_child hlisted)
    rw [collectionAt_insert_of_ne hne]
  · simp +decide only [subscriptionDetails, subscriptionEntry, lookup_insert, ↓reduceIte]
  · simp +decide only [subscriptionDetails, subscriptionEntry, lookup_insert, ↓reduceIte]

theorem not_kept
    (hother : childToward '/' (getSubscriptonsID topic) (getSubscriptionID
      (getTenantBasedTopicName w.context topic) subscriptionName) = none) :
    ¬KeptUnderOneKey listing w topic subscriptionName owner := by
  rintro ⟨before, after, created, deleted, entry, hbefore, hcreate, hafter, hperm, -⟩
  rw [createSubscription_quiet] at hcreate
  cases hcreate
  rw [getSubscriptions_quiet] at hbefore hafter
  cases hbefore
  cases hafter
  have hlength := hperm.length_eq
  rw [putEntry_context, putEntry_registry, List.length_map, List.length_cons, List.length_map,
    (getChildren_insert_other hother _).length_eq] at hlength
  omega

end

/-- Taking the tenant's domain off the topic does not change the topic's id. -/
def SameKey (context : CarbonContext) (topic : Str) : Prop :=
  getTopicID (getTenantBasedTopicName context topic) = getTopicID topic

instance (context : CarbonContext) (topic : Str) : Decidable (SameKey context topic) :=
  inferInstanceAs (Decidable (_ = _))

def untilWildcard (topic : Str) : Str :=
  if '*' ∈ topic then upTo '*' topic else upTo '#' topic

theorem length_getTopicID (topic : Str) :
    TOPICS.length + (untilWildcard topic).length ≤ (getTopicID topic).length ∧
      (getTopicID topic).length ≤ TOPICS.length + 1 + (untilWildcard topic).length := by
  have hkept : ∀ c, c ≠ '.' → c ≠ '/' →
      (upTo c (replaceChar '.' '/' topic)).length = (upTo c topic).length := by
    intro c hdot hslash
    rw [upTo_replaceChar hdot hslash, length_replaceChar]
  have hstar : '*' ∈ replaceChar '.' '/' topic ↔ '*' ∈ topic :=
    mem_replaceChar_of_ne (by decide) (by decide)
  have hlength : (if '*' ∈ replaceChar '.' '/' topic then upTo '*' (replaceChar '.' '/' topic)
      else upTo '#' (replaceChar '.' '/' topic)).length = (untilWildcard topic).length := by
    simp only [hstar, untilWildcard]
    split
    · exact hkept _ (by decide) (by decide)
    · exact hkept _ (by decide) (by decide)
  simp only [getTopicID, List.length_append, hlength]
  split
  · omega
  · simp only [List.length_append, String.length_toList]
    have hslash : "/".length = 1 := by decide
    omega

theorem untilWildcard_drop {topic : Str} {n : Nat} (h : n ≤ (untilWildcard topic).length) :
    untilWildcard (topic.drop n) = (untilWildcard topic).drop n := by
  unfold untilWildcard at h ⊢
  by_cases hstar : '*' ∈ topic
  · rw [if_pos hstar] at h ⊢
    rw [if_pos ((mem_drop_of_le_upTo h).2 hstar), upTo_drop h]
  · rw [if_neg hstar] at h ⊢
    rw [if_neg (mt List.mem_of_mem_drop hstar), upTo_drop h]

theorem sameKey_iff {context : CarbonContext} {domain topic : Str}
    (hdomain : context.tenantDomain = some domain) (hne : domain ≠ [])
    (hlong : domain.length < (untilWildcard topic).length) :
    SameKey context topic ↔ domain = SUPER_TENANT_DOMAIN_NAME ∨
      contains topic (domain ++ "/".toList) = false := by
  rw [SameKey, getTenantBasedTopicName, hdomain]
  simp only
  split
  · rename_i hstrips
    obtain ⟨htenant, hcontains⟩ := hstrips
    have hcut : (domain ++ "/".toList).length = domain.length + 1 := by simp
    have hdrop := untilWildcard_drop (n := domain.length + 1) hlong
    have hshort := (length_getTopicID (topic.drop (domain.length + 1))).2
    have hwhole := (length_getTopicID topic).1
    have hpos := List.length_pos_iff.2 hne
    rw [hdrop, List.length_drop] at hshort
    rw [hcut]
    simp only [htenant, hcontains, Bool.true_eq_false, or_self, iff_false]
    intro hsame
    rw [hsame] at hshort
    omega
  · rename_i hkeeps
    refine iff_of_true rfl ?_
    by_cases htenant : domain = SUPER_TENANT_DOMAIN_NAME
    · exact .inl htenant
    · exact .inr (Bool.not_eq_true _ ▸ fun hcontains => hkeeps ⟨htenant, hcontains⟩)

/-- With no subscription of the name on the topic, creation, listing and deletion meet just when
the name is not empty and the topic's key survives the removal of the domain. -/
theorem keptUnderOneKey_iff {w : World β} {topic subscriptionName : Str} (owner : Str)
    (hplain : '/' ∉ subscriptionName)
    (hnew : ¬HasResource (w.registries w.context.ownTenant)
      (getSubscriptionID topic subscriptionName)) :
    KeptUnderOneKey listing w topic subscriptionName owner ↔
      subscriptionName ≠ [] ∧ SameKey w.context topic := by
  constructor
  · intro h
    refine by_contra fun hother => not_kept ?_ h
    rw [childToward_created hplain]
    exact if_neg hother
  · rintro ⟨hname, hkey⟩
    exact kept hplain hnew hname hkey

theorem keptUnderOneKey_t : KeptUnderOneKey ChildListing.sorted
    (World.initial (.ofDomain "foo".toList) ()) "t".toList "s".toList "bob".toList :=
  (keptUnderOneKey_iff "bob".toList (by decide) (fun ⟨_, h, _⟩ => by cases h)).2
    ⟨by decide, by decide⟩

theorem not_keptUnderOneKey_foo_t : ¬KeptUnderOneKey ChildListing.sorted
    (World.initial (.ofDomain "foo".toList) ()) "foo/t".toList "s".toList "bob".toList := by
  refine not_kept ?_
  rw [childToward_created (by decide)]
  exact if_neg (by decide)

end CarbonMessaging.SubscriptionKeys
