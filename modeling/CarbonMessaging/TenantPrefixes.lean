import CarbonMessaging.QueueManagerServiceImpl

/-! How a tenant's domain is put in front of names and taken off again. The queue manager looks
for the domain anywhere in a queue's name before it puts it in front, the registry client looks
for the prefix anywhere in a topic before it takes that many characters off. -/

namespace CarbonMessaging

open JavaLang

namespace AndesClusterMgt

/-- The cluster manager's copy, which puts the domain in front of every name. -/
def getTenantBasedQueueName (context : CarbonContext) (queueName : Str) : Str :=
  match context.tenantDomain with
  | none => queueName
  | some tenantDomain =>
    if tenantDomain ≠ SUPER_TENANT_DOMAIN_NAME then tenantDomain ++ "/".toList ++ queueName
    else queueName

end AndesClusterMgt

namespace TenantPrefixes

variable {context : CarbonContext} {domain : Str}

/-- The physical name lies in the tenant's namespace, naming it again changes nothing, and a
plain name gets the prefix that the cluster manager gives it. -/
structure BelongsToTenant (context : CarbonContext) (domain queueName : Str) : Prop where
  owned : startsWith (getTenantBasedQueueName context queueName) (domain ++ "/".toList) = true
  idempotent : getTenantBasedQueueName context (getTenantBasedQueueName context queueName) =
    getTenantBasedQueueName context queueName
  plain : startsWith queueName (domain ++ "/".toList) = false →
    getTenantBasedQueueName context queueName = domain ++ "/".toList ++ queueName ∧
      AndesClusterMgt.getTenantBasedQueueName context queueName =
        getTenantBasedQueueName context queueName

section
variable (hdomain : context.tenantDomain = some domain)
  (hother : domain ≠ SUPER_TENANT_DOMAIN_NAME)
include hdomain hother

theorem clusterName_prefixed (queueName : Str) :
    AndesClusterMgt.getTenantBasedQueueName context queueName =
      domain ++ "/".toList ++ queueName := by
  simp only [AndesClusterMgt.getTenantBasedQueueName, hdomain]
  exact if_pos hother

omit hdomain hother in
theorem contains_of_startsWith {name : Str} (h : startsWith name (domain ++ "/".toList) = true) :
    contains name domain = true :=
  contains_iff.2 (((List.prefix_append _ _).trans (startsWith_iff.1 h)).isInfix)

theorem belongsToTenant_iff (queueName : Str) :
    BelongsToTenant context domain queueName ↔
      contains queueName domain = false ∨
        startsWith queueName (domain ++ "/".toList) = true := by
  cases hcontains : contains queueName domain with
  | true =>
    have hkept := tenantBasedQueueName_kept hdomain hcontains
    rw [or_iff_right (by decide)]
    refine ⟨fun h => hkept ▸ h.owned, fun h => ⟨?_, ?_, fun hplain => ?_⟩⟩
    · rw [hkept]
      exact h
    · rw [hkept, hkept]
    · rw [h] at hplain
      cases hplain
  | false =>
    have hprefixed := tenantBasedQueueName_prefixed hdomain hother hcontains
    have howned : startsWith (domain ++ "/".toList ++ queueName) (domain ++ "/".toList) = true :=
      startsWith_iff.2 (List.prefix_append _ _)
    refine iff_of_true ⟨?_, ?_, fun _ => ⟨hprefixed, ?_⟩⟩ (.inl rfl)
    · rw [hprefixed]
      exact howned
    · rw [hprefixed]
      exact tenantBasedQueueName_kept hdomain (contains_of_startsWith howned)
    · rw [clusterName_prefixed hdomain hother, hprefixed]

end

theorem belongsToTenant_iff_orders :
    BelongsToTenant (.ofDomain "foo.com".toList) "foo.com".toList "orders".toList :=
  (@belongsToTenant_iff (.ofDomain "foo.com".toList) "foo.com".toList rfl (by decide)
    "orders".toList).2 (.inl (by decide))

theorem myfoo_unprefixed : ¬BelongsToTenant (.ofDomain "foo".toList) "foo".toList
    "myfoo".toList := by
  intro h
  exact absurd h.owned (by decide)

def withoutPath (context : CarbonContext) (topicName : Str) : Str :=
  match context.tenantDomain with
  | none => topicName
  | some domain =>
    if domain ≠ SUPER_TENANT_DOMAIN_NAME ∧ startsWith topicName (domain ++ "/".toList) then
      topicName.drop (domain ++ "/".toList).length
    else topicName

/-- The removal takes the path off two topics and nothing else, so it gives back what was
prefixed and keeps topics apart that have no path. -/
structure RemovesPath (context : CarbonContext) (topicName topicName' : Str) : Prop where
  removes : ∀ topic ∈ [topicName, topicName'],
    RegistryClient.getTenantBasedTopicName context topic = withoutPath context topic
  undoes : ∀ topic ∈ [topicName, topicName'],
    RegistryClient.getTenantBasedTopicName context
      (CommonsUtil.getTenantBasedTopicName context topic) = topic
  apart : withoutPath context topicName = topicName →
    withoutPath context topicName' = topicName' →
    RegistryClient.getTenantBasedTopicName context topicName =
      RegistryClient.getTenantBasedTopicName context topicName' → topicName = topicName'

def PathAtStart (context : CarbonContext) (topicName : Str) : Prop :=
  ∀ domain, context.tenantDomain = some domain → domain ≠ SUPER_TENANT_DOMAIN_NAME →
    contains topicName (domain ++ "/".toList) = true →
    startsWith topicName (domain ++ "/".toList) = true

theorem undoes_prefix (context : CarbonContext) (topic : Str) :
    RegistryClient.getTenantBasedTopicName context
      (CommonsUtil.getTenantBasedTopicName context topic) = topic := by
  cases hdomain : context.tenantDomain with
  | none => simp [RegistryClient.getTenantBasedTopicName, CommonsUtil.getTenantBasedTopicName,
      hdomain]
  | some domain =>
    by_cases hsuper : domain = SUPER_TENANT_DOMAIN_NAME
    · simp [RegistryClient.getTenantBasedTopicName, CommonsUtil.getTenantBasedTopicName, hdomain,
        hsuper]
    · have hpath : contains (domain ++ "/".toList ++ topic) (domain ++ "/".toList) = true :=
        contains_iff.2 (List.prefix_append _ _).isInfix
      simp only [RegistryClient.getTenantBasedTopicName, CommonsUtil.getTenantBasedTopicName,
        hdomain, ne_eq, hsuper, not_false_eq_true, if_true, hpath, and_self]
      exact List.drop_left

theorem drop_eq_iff {path : Str} (hpath : path ≠ []) (topic : Str) :
    ((if contains topic path then topic.drop path.length else topic) =
        if startsWith topic path then topic.drop path.length else topic) ↔
      (contains topic path = true → startsWith topic path = true) := by
  cases hstart : startsWith topic path with
  | true => simp [contains_iff.2 (startsWith_iff.1 hstart).isInfix]
  | false =>
    cases hcontains : contains topic path with
    | false => simp
    | true =>
      have hlength := (contains_iff.1 hcontains).length_le
      have hpos := List.length_pos_of_ne_nil hpath
      refine iff_of_false (fun h => ?_) (by decide)
      have hdrop := congrArg List.length h
      simp only [if_true, Bool.false_eq_true, if_false, List.length_drop] at hdrop
      omega

theorem removes_iff (context : CarbonContext) (topic : Str) :
    RegistryClient.getTenantBasedTopicName context topic = withoutPath context topic ↔
      PathAtStart context topic := by
  cases hdomain : context.tenantDomain with
  | none => simp [RegistryClient.getTenantBasedTopicName, withoutPath, PathAtStart, hdomain]
  | some domain =>
    by_cases hsuper : domain = SUPER_TENANT_DOMAIN_NAME
    · simp [RegistryClient.getTenantBasedTopicName, withoutPath, PathAtStart, hdomain, hsuper]
    · have hpath := @drop_eq_iff (domain ++ "/".toList) (by simp) topic
      simp only [RegistryClient.getTenantBasedTopicName, withoutPath, PathAtStart, hdomain,
        ne_eq, hsuper, not_false_eq_true, true_and, Option.some.injEq, forall_eq', forall_const]
      exact hpath

theorem removesPath_iff (context : CarbonContext) (topicName topicName' : Str) :
    RemovesPath context topicName topicName' ↔
      PathAtStart context topicName ∧ PathAtStart context topicName' := by
  refine ⟨fun h => ?_, fun ⟨h, h'⟩ => ⟨?_, fun topic _ => undoes_prefix context topic, ?_⟩⟩
  · exact ⟨(removes_iff context topicName).1 (h.removes topicName (by simp)),
      (removes_iff context topicName').1 (h.removes topicName' (by simp))⟩
  · intro topic htopic
    rcases List.mem_pair.1 htopic with rfl | rfl
    · exact (removes_iff context topic).2 h
    · exact (removes_iff context topic).2 h'
  · intro hplain hplain' hsame
    rwa [(removes_iff context topicName).2 h, (removes_iff context topicName').2 h', hplain,
      hplain'] at hsame

/-- Two topics of tenant `foo` without its path end as one. -/
theorem foo_inside_removed :
    ¬RemovesPath (.ofDomain "foo".toList) "a/foo/b".toList "o/b".toList := by
  intro h
  exact absurd (h.apart (by decide) (by decide)) (by decide)

end TenantPrefixes

end CarbonMessaging
