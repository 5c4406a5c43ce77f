import CarbonMessaging.CarbonPlatform

/-! Resource ids of queues, topics and subscriptions. -/

namespace CarbonMessaging.CommonsUtil

open JavaLang FaultyCalls

def JMS_QUEUES : Str := "event/queues/jms".toList
def TOPICS : Str := "event/topics".toList
def JMS_SUBSCRIPTIONS : Str := "jms.subscriptions".toList

def queueResource (name : Str) : Str := JMS_QUEUES ++ "/".toList ++ name

/-- The dashed domain is removed with the one character after it, whatever that is. -/
def withoutTenantDomain (context : CarbonContext) (queueName : Str) :
    Except JavaException Str :=
  if context.tenantId > 0 then
    match context.tenantDomain with
    | none => .error nullPointerException
    | some tenantDomain =>
      let tenantDomain := replaceChar '.' '-' tenantDomain
      if startsWith queueName tenantDomain then
        match substring queueName (tenantDomain.length + 1) with
        | some rest => .ok rest
        | none => .error ⟨.stringIndexOutOfBounds, none⟩
      else .ok queueName
  else .ok queueName

def getQueueID (context : CarbonContext) (queueName : Str) : Except JavaException Str :=
  (withoutTenantDomain context queueName).map fun name => queueResource (upTo ';' name)

def getQueuesID : Str := JMS_QUEUES

protected def getTenantBasedTopicName (context : CarbonContext) (topicName : Str) : Str :=
  match context.tenantDomain with
  | none => topicName
  | some tenantDomain =>
    if tenantDomain ≠ SUPER_TENANT_DOMAIN_NAME then tenantDomain ++ "/".toList ++ topicName
    else topicName

def getTopicID (topicName : Str) : Str :=
  let topicName := replaceChar '.' '/' topicName
  let topicID := if startsWith topicName "/".toList then TOPICS else TOPICS ++ "/".toList
  topicID ++ (if '*' ∈ topicName then upTo '*' topicName else upTo '#' topicName)

def getSubscriptionID (topicName subscriptionName : Str) : Str :=
  getTopicID topicName ++ "/".toList ++ JMS_SUBSCRIPTIONS ++ "/".toList ++ subscriptionName

def getSubscriptonsID (topicName : Str) : Str :=
  getTopicID topicName ++ "/".toList ++ JMS_SUBSCRIPTIONS

theorem queueResource_injective : Function.Injective queueResource := by
  intro a b h
  exact List.append_cancel_left h

theorem getQueueID_eq_ok {context : CarbonContext} {queueName id : Str} :
    getQueueID context queueName = .ok id ↔
      ∃ rest, withoutTenantDomain context queueName = .ok rest ∧
        queueResource (upTo ';' rest) = id := by
  rw [getQueueID]
  cases withoutTenantDomain context queueName with
  | error e => exact iff_of_false (fun h => (nomatch h)) fun ⟨rest, h, _⟩ => (nomatch h)
  | ok rest => simp [Except.map]

theorem getQueueID_super {context : CarbonContext} (h : context.tenantId ≤ 0) (queueName : Str) :
    getQueueID context queueName = .ok (queueResource (upTo ';' queueName)) := by
  rw [getQueueID, withoutTenantDomain, if_neg (by omega)]
  rfl

theorem getQueueID_tenant {context : CarbonContext} {domain : Str} (id : 0 < context.tenantId)
    (hdomain : context.tenantDomain = some domain) {queueName : Str}
    (h : startsWith queueName (replaceChar '.' '-' domain) = false) :
    getQueueID context queueName = .ok (queueResource (upTo ';' queueName)) := by
  rw [getQueueID, withoutTenantDomain, if_pos id, hdomain]
  simp only [h]
  rfl

theorem getQueueID_stripped {context : CarbonContext} {domain : Str} (id : 0 < context.tenantId)
    (hdomain : context.tenantDomain = some domain) (c : Char) (rest : Str) :
    getQueueID context (replaceChar '.' '-' domain ++ c :: rest) =
      .ok (queueResource (upTo ';' rest)) := by
  have hstart : startsWith (replaceChar '.' '-' domain ++ c :: rest)
      (replaceChar '.' '-' domain) = true := startsWith_iff.2 (List.prefix_append _ _)
  have hrest : substring (replaceChar '.' '-' domain ++ c :: rest)
      ((replaceChar '.' '-' domain).length + 1) = some rest := by
    simp [substring, List.drop_append]
  rw [getQueueID, withoutTenantDomain, if_pos id, hdomain]
  simp only [hstart, hrest, if_true]
  rfl

theorem getQueueID_undashed {context : CarbonContext} {domain : Str} (id : 0 < context.tenantId)
    (hdomain : context.tenantDomain = some domain) (hdot : '.' ∉ domain) (queueName : Str) :
    getQueueID context (domain ++ "/".toList ++ queueName) =
      .ok (queueResource (upTo ';' queueName)) := by
  have hstripped := getQueueID_stripped id hdomain '/' queueName
  rw [replaceChar_of_notMem hdot] at hstripped
  rw [List.append_assoc]
  exact hstripped

def KeepsName (context : CarbonContext) (queueName : Str) : Prop :=
  context.tenantId ≤ 0 ∨ ∃ domain, context.tenantDomain = some domain ∧
    startsWith queueName (replaceChar '.' '-' domain) = false

theorem withoutTenantDomain_ok {context : CarbonContext} {queueName rest : Str}
    (h : withoutTenantDomain context queueName = .ok rest) :
    KeepsName context queueName ∧ rest = queueName ∨ rest.length < queueName.length := by
  unfold withoutTenantDomain at h
  split at h
  · split at h
    · cases h
    · rename_i domain hdomain
      simp only at h
      split at h
      · split at h
        · rename_i hsub
          cases h
          unfold substring at hsub
          split at hsub
          · cases hsub
            rw [List.length_drop]
            exact .inr (by omega)
          · cases hsub
        · cases h
      · rename_i hother
        cases h
        exact .inl ⟨.inr ⟨domain, hdomain, Bool.not_eq_true _ ▸ hother⟩, rfl⟩
  · cases h
    exact .inl ⟨.inl (by omega), rfl⟩

theorem withoutTenantDomain_keeps {context : CarbonContext} {queueName : Str}
    (h : KeepsName context queueName) : withoutTenantDomain context queueName = .ok queueName := by
  unfold withoutTenantDomain
  rcases h with hid | ⟨domain, hdomain, hother⟩
  · rw [if_neg (by omega)]
  · simp only [hdomain, hother, Bool.false_eq_true, if_false, ite_self]

theorem getQueueID_length {context : CarbonContext} {queueName name : Str}
    (h : getQueueID context queueName = .ok (queueResource name)) :
    name.length ≤ queueName.length := by
  obtain ⟨rest, hname, hid⟩ := getQueueID_eq_ok.1 h
  have hsame : upTo ';' rest = name := queueResource_injective hid
  have hupTo : name.length ≤ rest.length := hsame ▸ (upTo_isInitial ';' rest).length_le
  rcases withoutTenantDomain_ok hname with ⟨-, rfl⟩ | hshorter
  · exact hupTo
  · omega

/-- The id holds the whole name just when nothing is cut off at either end. -/
theorem getQueueID_whole {context : CarbonContext} {queueName : Str} :
    getQueueID context queueName = .ok (queueResource queueName) ↔
      KeepsName context queueName ∧ ';' ∉ queueName := by
  constructor
  · intro h
    obtain ⟨rest, hname, hid⟩ := getQueueID_eq_ok.1 h
    have hsame : upTo ';' rest = queueName := queueResource_injective hid
    rcases withoutTenantDomain_ok hname with ⟨hkeeps, rfl⟩ | hshorter
    · exact ⟨hkeeps, hsame ▸ notMem_upTo ';' rest⟩
    · have hupTo := (upTo_isInitial ';' rest).length_le
      rw [hsame] at hupTo
      omega
  · rintro ⟨hkeeps, hplain⟩
    rw [getQueueID, withoutTenantDomain_keeps hkeeps, Except.map, upTo_of_notMem hplain]

/-- Replacing '@' commutes with the computation of a topic's id, which looks at none of the two
characters. -/
theorem getTopicID_replaceAt (topicName : Str) :
    getTopicID (replaceChar '@' '_' topicName) = replaceChar '@' '_' (getTopicID topicName) := by
  have hdot : replaceChar '.' '/' (replaceChar '@' '_' topicName) =
      replaceChar '@' '_' (replaceChar '.' '/' topicName) :=
    replaceChar_comm (by decide) (by decide) (by decide) topicName
  have hslash : ∀ s : Str, startsWith (replaceChar '@' '_' s) "/".toList =
      startsWith s "/".toList := by
    intro s
    cases s with
    | nil => rfl
    | cons c s =>
      by_cases hc : c = '@'
      · subst hc
        rfl
      · simp [startsWith, replaceChar, hc, List.isPrefixOf]
  have hstar : ∀ s : Str, '*' ∈ replaceChar '@' '_' s ↔ '*' ∈ s := fun s =>
    mem_replaceChar_of_ne (by decide) (by decide)
  have htopics : replaceChar '@' '_' TOPICS = TOPICS := by decide
  simp only [getTopicID, hdot, hslash, hstar, replaceChar_append]
  congr 1
  · split
    · exact htopics.symm
    · rw [replaceChar_append, htopics]
      rfl
  · split
    · exact upTo_replaceChar (by decide) (by decide) _
    · exact upTo_replaceChar (by decide) (by decide) _

theorem getSubscriptionID_replaceAt (topicName subscriptionName : Str) :
    getSubscriptionID (replaceChar '@' '_' topicName) (replaceChar '@' '_' subscriptionName) =
      replaceChar '@' '_' (getSubscriptionID topicName subscriptionName) := by
  have hslash : replaceChar '@' '_' "/".toList = "/".toList := by decide
  have hsubscriptions : replaceChar '@' '_' JMS_SUBSCRIPTIONS = JMS_SUBSCRIPTIONS := by decide
  simp only [getSubscriptionID, getTopicID_replaceAt, replaceChar_append, hslash, hsubscriptions]

theorem mem_getSubscriptionID {topicName subscriptionName : Str} :
    '@' ∈ getSubscriptionID topicName subscriptionName ↔
      '@' ∈ getTopicID topicName ∨ '@' ∈ subscriptionName := by
  have hslash : '@' ∉ "/".toList := by decide
  have hsubscriptions : '@' ∉ JMS_SUBSCRIPTIONS := by decide
  simp only [getSubscriptionID, List.mem_append, hslash, hsubscriptions, or_false]

theorem getQueueID_error {context : CarbonContext} {queueName : Str} {e : JavaException}
    (h : getQueueID context queueName = .error e) :
    e.kind = .nullPointer ∨ e.kind = .stringIndexOutOfBounds := by
  have hname : withoutTenantDomain context queueName = .error e := by
    rw [getQueueID] at h
    cases hname : withoutTenantDomain context queueName with
    | error e' => rw [hname] at h; cases h; rfl
    | ok name => rw [hname] at h; cases h
  unfold withoutTenantDomain at hname
  split at hname
  · split at hname
    · cases hname
      exact .inl rfl
    · simp only at hname
      split at hname
      · split at hname
        · cases hname
        · cases hname
          exact .inr rfl
      · cases hname
  · cases hname

end CarbonMessaging.CommonsUtil
