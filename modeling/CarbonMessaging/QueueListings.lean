import CarbonMessaging.DomainFilters
import CarbonMessaging.QpidAuthorizationHandler

/-! Whether the queue listings of two tenants are separate. A listing tests for the bare domain
at the start of a name, the broker's ownership test wants a slash behind it. -/

namespace CarbonMessaging.QueueListings

open JavaLang FailingFilters QpidAuthorizationHandler

def shown (domainName queueName : Str) : Bool :=
  if domainName ≠ SUPER_TENANT_DOMAIN_NAME then startsWith queueName domainName
  else !contains queueName "/".toList

section

variable {α : Type} {getQueueName : α → Option Str} {context : CarbonContext} {domainName : Str}

theorem filterOrFail_nonNull (test : Str → Bool) (fullList : List α) :
    filterOrFail ((fun name => do pure (test (← nonNull name))) ∘ getQueueName) fullList =
      filterOrFail ((fun name => (nonNull name).map test) ∘ getQueueName) fullList := by
  refine congrArg (filterOrFail · fullList) (funext fun queue => ?_)
  rw [Function.comp_apply, Function.comp_apply]
  cases getQueueName queue <;> rfl

theorem filterByDomain_eq (hdomain : context.tenantDomain = some domainName) (fullList : List α) :
    filterByDomain getQueueName context fullList =
      filterOrFail ((fun name => (nonNull name).map (shown domainName)) ∘ getQueueName)
        fullList := by
  rw [filterByDomain, hdomain]
  simp only
  split
  · rename_i hother
    have hshown : shown domainName = (startsWith · domainName) := funext fun _ => if_pos hother
    rw [hshown]
    exact filterOrFail_nonNull _ fullList
  · rename_i hsuper
    have hshown : shown domainName = (!contains · "/".toList) := funext fun _ => if_neg hsuper
    rw [hshown]
    exact filterOrFail_nonNull _ fullList

theorem mem_filterByDomain (hdomain : context.tenantDomain = some domainName)
    {fullList listed : List α}
    (h : filterByDomain getQueueName context fullList = .ok listed) {queue : α} :
    queue ∈ listed ↔
      queue ∈ fullList ∧ ∃ name, getQueueName queue = some name ∧
        shown domainName name = true := by
  rw [filterByDomain_eq hdomain] at h
  rw [mem_of_filterOrFail h, Function.comp_apply]
  refine and_congr_right fun _ => ?_
  cases getQueueName queue with
  | none => simp [nonNull, Except.map]
  | some name => simp [nonNull, Except.map]

theorem filterByDomain_ok_iff (hdomain : context.tenantDomain = some domainName)
    {fullList : List α} :
    (∃ listed, filterByDomain getQueueName context fullList = .ok listed) ↔
      ∀ queue ∈ fullList, getQueueName queue ≠ none := by
  rw [filterByDomain_eq hdomain]
  constructor
  · rintro ⟨listed, h⟩ queue hqueue hnone
    obtain ⟨keep, hall, -⟩ := of_filterOrFail h
    have htest := hall queue hqueue
    rw [Function.comp_apply, hnone] at htest
    cases htest
  · intro hnamed
    have htests : ∀ queue ∈ fullList,
        ((fun name => (nonNull name).map (shown domainName)) ∘ getQueueName) queue =
          .ok (shown domainName ((getQueueName queue).getD [])) := by
      intro queue hqueue
      obtain ⟨name, hname⟩ := Option.ne_none_iff_exists'.1 (hnamed queue hqueue)
      rw [Function.comp_apply, hname]
      rfl
    exact ⟨_, filterOrFail_of_ok htests⟩

theorem filterByDomain_names (hdomain : context.tenantDomain = some domainName)
    (fullList : List α) :
    (filterByDomain getQueueName context fullList).map (List.map getQueueName) =
      filterOrFail (fun name => (nonNull name).map (shown domainName))
        (fullList.map getQueueName) := by
  rw [filterByDomain_eq hdomain, filterOrFail_comp]

end

theorem copies_agree {context : CarbonContext} {domainName : Str}
    (hdomain : context.tenantDomain = some domainName) {queues : List AndesCore.Queue}
    {clusterQueues : List AndesClusterMgt.Queue}
    (hsame : clusterQueues.map (·.queueName) = queues.map (·.queueName)) :
    (AndesClusterMgt.filterDomainSpecificQueues context clusterQueues).map
        (List.map (·.queueName)) =
      (AndesCore.filterDomainSpecificQueues context queues).map (List.map (·.queueName)) := by
  refine (filterByDomain_names hdomain clusterQueues).trans ?_
  rw [hsame]
  exact (filterByDomain_names hdomain queues).symm

theorem slash_mem {domain name : Str} (h : startsWith name (domain ++ "/".toList) = true) :
    '/' ∈ name :=
  (startsWith_iff.1 h).subset (by simp)

theorem isOwnDomain_iff {domain name : Str} : isOwnDomain (some domain) name = true ↔
    startsWith name (domain ++ "/".toList) = true ∨
      equalsIgnoreCase domain SUPER_TENANT_DOMAIN_NAME = true ∧ '/' ∉ name := by
  have hnone : (!contains name "/".toList) = true ↔ '/' ∉ name := by
    rw [Bool.not_eq_true', ← Bool.not_eq_true, contains_slash_iff]
  rw [isOwnDomain]
  cases startsWith name (domain ++ "/".toList) with
  | true => simp
  | false =>
    change (if equalsIgnoreCase domain SUPER_TENANT_DOMAIN_NAME = true then
      !contains name "/".toList else false) = true ↔ _
    split
    · rename_i hsuper
      rw [hnone]
      simp [hsuper]
    · rename_i hsuper
      simp [hsuper]

theorem owners_super {d d' name : Str} (hdiff : d ≠ d') (hd : '/' ∉ d) (hd' : '/' ∉ d')
    (h : isOwnDomain (some d) name = true) (h' : isOwnDomain (some d') name = true) :
    '/' ∉ name ∧ equalsIgnoreCase d SUPER_TENANT_DOMAIN_NAME = true ∧
      equalsIgnoreCase d' SUPER_TENANT_DOMAIN_NAME = true := by
  rcases isOwnDomain_iff.1 h with hstart | ⟨hsuper, hplain⟩
  · rcases isOwnDomain_iff.1 h' with hstart' | ⟨-, hplain⟩
    · obtain ⟨rest, rfl⟩ := startsWith_iff.1 hstart
      obtain ⟨rest', hrest⟩ := startsWith_iff.1 hstart'
      have hsplit : upTo '/' (d' ++ '/' :: rest') = upTo '/' (d ++ '/' :: rest) := by
        simpa using congrArg (upTo '/') hrest
      rw [upTo_append_cons, upTo_append_cons, upTo_of_notMem hd, upTo_of_notMem hd'] at hsplit
      exact absurd hsplit.symm hdiff
    · exact absurd (slash_mem hstart) hplain
  · rcases isOwnDomain_iff.1 h' with hstart' | ⟨hsuper', -⟩
    · exact absurd (slash_mem hstart') hplain
    · exact ⟨hplain, hsuper, hsuper'⟩

/-- A name that starts with a tenant's domain goes on with a slash. Where the domain is the super
tenant's but for its case, a name without any slash is the tenant's too, as long as the super
tenant itself does not list it. -/
def Sharp (domain other name : Str) : Prop :=
  domain ≠ SUPER_TENANT_DOMAIN_NAME → startsWith name domain = true →
    startsWith name (domain ++ "/".toList) = true ∨
      equalsIgnoreCase domain SUPER_TENANT_DOMAIN_NAME = true ∧ '/' ∉ name ∧
        other ≠ SUPER_TENANT_DOMAIN_NAME

theorem shown_super {name : Str} : shown SUPER_TENANT_DOMAIN_NAME name = true ↔ '/' ∉ name := by
  rw [shown, if_neg (by simp), Bool.not_eq_true', ← Bool.not_eq_true, contains_slash_iff]

theorem shown_tenant {domain name : Str} (h : domain ≠ SUPER_TENANT_DOMAIN_NAME) :
    shown domain name = true ↔ startsWith name domain = true := by
  rw [shown, if_pos h]

theorem owned_of_sharp {domain other name : Str} (h : Sharp domain other name)
    (hshown : shown domain name = true) : isOwnDomain (some domain) name = true := by
  rw [isOwnDomain_iff]
  by_cases hsuper : domain = SUPER_TENANT_DOMAIN_NAME
  · subst hsuper
    exact .inr ⟨by decide, shown_super.1 hshown⟩
  · rcases h hsuper ((shown_tenant hsuper).1 hshown) with hstart | ⟨hcase, hplain, -⟩
    · exact .inl hstart
    · exact .inr ⟨hcase, hplain⟩

theorem sharp_of_owned {domain other name : Str}
    (hown : shown domain name = true → isOwnDomain (some domain) name = true)
    (hapart : ¬(shown domain name = true ∧ shown other name = true)) :
    Sharp domain other name := by
  intro hsuper hstart
  have hshown := (shown_tenant hsuper).2 hstart
  rcases isOwnDomain_iff.1 (hown hshown) with hslash | ⟨hcase, hplain⟩
  · exact .inl hslash
  · refine .inr ⟨hcase, hplain, ?_⟩
    rintro rfl
    exact hapart ⟨hshown, shown_super.2 hplain⟩

theorem length_of_super {domain : Str}
    (h : equalsIgnoreCase domain SUPER_TENANT_DOMAIN_NAME = true) :
    domain.length = SUPER_TENANT_DOMAIN_NAME.length := by
  rw [equalsIgnoreCase, decide_eq_true_eq] at h
  simpa using congrArg List.length h

theorem super_not_shown {other name : Str} (hplain : '/' ∉ name)
    (hother : other ≠ SUPER_TENANT_DOMAIN_NAME) (h : Sharp other SUPER_TENANT_DOMAIN_NAME name) :
    ¬shown other name = true := by
  intro hshown
  rcases h hother ((shown_tenant hother).1 hshown) with hstart | ⟨-, -, hne⟩
  · exact hplain (slash_mem hstart)
  · exact hne rfl

theorem apart_of_sharp {d d' name : Str} (hdiff : d ≠ d') (hd : '/' ∉ d) (hd' : '/' ∉ d')
    (h : Sharp d d' name) (h' : Sharp d' d name) :
    ¬(shown d name = true ∧ shown d' name = true) := by
  rintro ⟨hshown, hshown'⟩
  obtain ⟨hplain, hcase, hcase'⟩ :=
    owners_super hdiff hd hd' (owned_of_sharp h hshown) (owned_of_sharp h' hshown')
  by_cases hsuper : d = SUPER_TENANT_DOMAIN_NAME
  · subst hsuper
    exact super_not_shown hplain hdiff.symm h' hshown'
  · by_cases hsuper' : d' = SUPER_TENANT_DOMAIN_NAME
    · subst hsuper'
      exact super_not_shown hplain hdiff h hshown
    · have hstart := startsWith_iff.1 ((shown_tenant hsuper).1 hshown)
      have hstart' := startsWith_iff.1 ((shown_tenant hsuper').1 hshown')
      have hlength : d.length = d'.length :=
        (length_of_super hcase).trans (length_of_super hcase').symm
      have hinitial := List.prefix_of_prefix_length_le hstart hstart' hlength.le
      exact hdiff (hinitial.eq_of_length hlength)

def Owned (context : CarbonContext) (queue : AndesCore.Queue) : Prop :=
  ∃ name, queue.queueName = some name ∧ isOwnDomain context.tenantDomain name = true

/-- The listings of two tenants have no queue in common, each holds owned queues only, and the
other bundle's filter lists the same names. -/
structure SeparateListings (context context' : CarbonContext) (queues : List AndesCore.Queue) :
    Prop where
  disjoint : ∀ listed listed',
    AndesCore.filterDomainSpecificQueues context queues = .ok listed →
    AndesCore.filterDomainSpecificQueues context' queues = .ok listed' →
    ∀ queue ∈ listed, queue ∉ listed'
  owned : ∀ own ∈ [context, context'], ∀ listed,
    AndesCore.filterDomainSpecificQueues own queues = .ok listed →
    ∀ queue ∈ listed, Owned own queue
  copied : ∀ own ∈ [context, context'], ∀ clusterQueues : List AndesClusterMgt.Queue,
    clusterQueues.map (·.queueName) = queues.map (·.queueName) →
    (AndesClusterMgt.filterDomainSpecificQueues own clusterQueues).map
        (List.map (·.queueName)) =
      (AndesCore.filterDomainSpecificQueues own queues).map (List.map (·.queueName))

theorem mem_listing {context : CarbonContext} {domain : Str}
    (hdomain : context.tenantDomain = some domain) {queues listed : List AndesCore.Queue}
    (h : AndesCore.filterDomainSpecificQueues context queues = .ok listed)
    {queue : AndesCore.Queue} {name : Str} (hname : queue.queueName = some name) :
    queue ∈ listed ↔ queue ∈ queues ∧ shown domain name = true := by
  rw [mem_filterByDomain hdomain h, hname]
  simp

theorem owned_listing_iff {context : CarbonContext} {domain : Str}
    (hdomain : context.tenantDomain = some domain) {queues listed : List AndesCore.Queue}
    (h : AndesCore.filterDomainSpecificQueues context queues = .ok listed) :
    (∀ queue ∈ listed, Owned context queue) ↔
      ∀ queue ∈ queues, ∀ name, queue.queueName = some name →
        shown domain name = true → isOwnDomain (some domain) name = true := by
  constructor
  · intro howned queue hqueue name hname hshown
    obtain ⟨same, hsame, hown⟩ := howned queue ((mem_listing hdomain h hname).2 ⟨hqueue, hshown⟩)
    rw [hdomain] at hown
    exact Option.some.inj (hname.symm.trans hsame) ▸ hown
  · intro hall queue hlisted
    obtain ⟨hqueue, name, hname, hshown⟩ := (mem_filterByDomain hdomain h).1 hlisted
    exact ⟨name, hname, hdomain ▸ hall queue hqueue name hname hshown⟩

theorem nameless_fails {context : CarbonContext} {domain : Str}
    (hdomain : context.tenantDomain = some domain) {queues listed : List AndesCore.Queue}
    (h : AndesCore.filterDomainSpecificQueues context queues = .ok listed) :
    ¬∃ queue ∈ queues, queue.queueName = none := by
  rintro ⟨queue, hqueue, hnone⟩
  exact (filterByDomain_ok_iff hdomain).1 ⟨listed, h⟩ queue hqueue hnone

theorem disjoint_listing_iff {context context' : CarbonContext} {d d' : Str}
    (hcontext : context.tenantDomain = some d) (hcontext' : context'.tenantDomain = some d')
    {queues listed listed' : List AndesCore.Queue}
    (h : AndesCore.filterDomainSpecificQueues context queues = .ok listed)
    (h' : AndesCore.filterDomainSpecificQueues context' queues = .ok listed') :
    (∀ queue ∈ listed, queue ∉ listed') ↔
      ∀ queue ∈ queues, ∀ name, queue.queueName = some name →
        ¬(shown d name = true ∧ shown d' name = true) := by
  constructor
  · rintro hdisjoint queue hqueue name hname ⟨hshown, hshown'⟩
    exact hdisjoint queue ((mem_listing hcontext h hname).2 ⟨hqueue, hshown⟩)
      ((mem_listing hcontext' h' hname).2 ⟨hqueue, hshown'⟩)
  · intro hapart queue hmem hmem'
    obtain ⟨hqueue, name, hname, hshown⟩ := (mem_filterByDomain hcontext h).1 hmem
    exact hapart queue hqueue name hname ⟨hshown, ((mem_listing hcontext' h' hname).1 hmem').2⟩

theorem sharp_iff {d d' name : Str} (hdiff : d ≠ d') (hd : '/' ∉ d) (hd' : '/' ∉ d') :
    Sharp d d' name ∧ Sharp d' d name ↔
      ¬(shown d name = true ∧ shown d' name = true) ∧
        (shown d name = true → isOwnDomain (some d) name = true) ∧
        (shown d' name = true → isOwnDomain (some d') name = true) := by
  constructor
  · rintro ⟨hleft, hright⟩
    exact ⟨apart_of_sharp hdiff hd hd' hleft hright, owned_of_sharp hleft, owned_of_sharp hright⟩
  · rintro ⟨hapart, hown, hown'⟩
    exact ⟨sharp_of_owned hown hapart, sharp_of_owned hown' (mt And.symm hapart)⟩

theorem separateListings_iff {context context' : CarbonContext} {d d' : Str}
    (hcontext : context.tenantDomain = some d) (hcontext' : context'.tenantDomain = some d')
    (hdiff : d ≠ d') (hd : '/' ∉ d) (hd' : '/' ∉ d') (queues : List AndesCore.Queue) :
    SeparateListings context context' queues ↔
      (∃ queue ∈ queues, queue.queueName = none) ∨
        ∀ queue ∈ queues, ∀ name, queue.queueName = some name →
          Sharp d d' name ∧ Sharp d' d name := by
  have hcopied : ∀ own ∈ [context, context'], ∀ clusterQueues : List AndesClusterMgt.Queue,
      clusterQueues.map (·.queueName) = queues.map (·.queueName) →
      (AndesClusterMgt.filterDomainSpecificQueues own clusterQueues).map
          (List.map (·.queueName)) =
        (AndesCore.filterDomainSpecificQueues own queues).map (List.map (·.queueName)) := by
    intro own hown clusterQueues hsame
    rcases List.mem_pair.1 hown with rfl | rfl
    · exact copies_agree hcontext hsame
    · exact copies_agree hcontext' hsame
  by_cases hnameless : ∃ queue ∈ queues, queue.queueName = none
  · -- neither listing returns
    refine iff_of_true ⟨?_, ?_, hcopied⟩ (.inl hnameless)
    · intro listed listed' hlisted
      exact absurd hnameless (nameless_fails hcontext hlisted)
    · intro own hown listed hlisted
      rcases List.mem_pair.1 hown with rfl | rfl
      · exact absurd hnameless (nameless_fails hcontext hlisted)
      · exact absurd hnameless (nameless_fails hcontext' hlisted)
  · have hnamed : ∀ queue ∈ queues, queue.queueName ≠ none := fun queue hqueue hnone =>
      hnameless ⟨queue, hqueue, hnone⟩
    obtain ⟨listed, hlisted⟩ := (filterByDomain_ok_iff hcontext).2 hnamed
    obtain ⟨listed', hlisted'⟩ := (filterByDomain_ok_iff hcontext').2 hnamed
    simp only [or_iff_right hnameless, sharp_iff hdiff hd hd', imp_and, forall_and]
    rw [← disjoint_listing_iff hcontext hcontext' hlisted hlisted',
      ← owned_listing_iff hcontext hlisted, ← owned_listing_iff hcontext' hlisted']
    constructor
    · intro h
      exact ⟨h.disjoint _ _ hlisted hlisted', h.owned _ (by simp) _ hlisted,
        h.owned _ (by simp) _ hlisted'⟩
    · rintro ⟨hdisjoint, howned, howned'⟩
      refine ⟨?_, ?_, hcopied⟩
      · rintro _ _ hrun hrun'
        cases hlisted.symm.trans hrun
        cases hlisted'.symm.trans hrun'
        exact hdisjoint
      · intro own hown _ hrun
        rcases List.mem_pair.1 hown with rfl | rfl
        · cases hlisted.symm.trans hrun
          exact howned
        · cases hlisted'.symm.trans hrun
          exact howned'

theorem separateListings_foo_bar :
    SeparateListings (.ofDomain "foo".toList) (.ofDomain "bar".toList)
      [⟨some "foo/q".toList⟩, ⟨some "bar/q".toList⟩, ⟨some "q".toList⟩] := by
  refine (separateListings_iff rfl rfl (by decide) (by decide) (by decide) _).2 (.inr ?_)
  intro queue hqueue name hname
  simp only [List.mem_cons, List.not_mem_nil, or_false] at hqueue
  rcases hqueue with rfl | rfl | rfl <;> cases hname
  · exact ⟨fun _ _ => .inl (by decide), fun _ h => absurd h (by decide)⟩
  · exact ⟨fun _ h => absurd h (by decide), fun _ _ => .inl (by decide)⟩
  · exact ⟨fun _ h => absurd h (by decide), fun _ h => absurd h (by decide)⟩

theorem foobar_listed_for_foo :
    ¬SeparateListings (.ofDomain "foo".toList) (.ofDomain "foobar".toList)
      [⟨some "foobar/q".toList⟩] := by
  intro h
  exact h.disjoint [⟨some "foobar/q".toList⟩] [⟨some "foobar/q".toList⟩] (by decide) (by decide)
    _ (List.mem_singleton_self _) (List.mem_singleton_self _)

end CarbonMessaging.QueueListings
