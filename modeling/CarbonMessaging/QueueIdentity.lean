import CarbonMessaging.CommonsUtil

/-! Whether a queue's id tells it from other queues. A tenant's ids lose the dashed domain with the
next character, so names that differ in that character or in the domain's dots are mixed up. -/

namespace CarbonMessaging.QueueIdentity

open JavaLang FaultyCalls CommonsUtil

/-- A name up to the first ';' and without its tenant's path. -/
def plainName (context : CarbonContext) (queueName : Str) : Str :=
  match context.tenantDomain with
  | none => upTo ';' queueName
  | some domain =>
    if 0 < context.tenantId ∧ startsWith (upTo ';' queueName) (domain ++ "/".toList) then
      (upTo ';' queueName).drop (domain ++ "/".toList).length
    else upTo ';' queueName

def HasID (context : CarbonContext) (queueName : Str) : Prop :=
  ∃ id, getQueueID context queueName = .ok id

/-- Two names have ids, and one id just when they name one queue. -/
structure ToldApart (context : CarbonContext) (queueName queueName' : Str) : Prop where
  hasID : HasID context queueName
  hasID' : HasID context queueName'
  sameID_iff : getQueueID context queueName = getQueueID context queueName' ↔
    plainName context queueName = plainName context queueName'

def Identified (context : CarbonContext) (queueName : Str) : Prop :=
  HasID context queueName ∧
    ∀ queueName', HasID context queueName' → ToldApart context queueName queueName'

/-- Names that neither start with the dashed domain nor with the tenant's path, or that start with
a path in which no dot was dashed. -/
def ReadsRight (context : CarbonContext) (queueName : Str) : Prop :=
  context.tenantId ≤ 0 ∨ ∃ domain, context.tenantDomain = some domain ∧
    (startsWith queueName (replaceChar '.' '-' domain) = false ∧
        startsWith queueName (domain ++ "/".toList) = false ∨
      '.' ∉ domain ∧ ';' ∉ domain ∧ startsWith queueName (domain ++ "/".toList) = true)

/-- Names that start with the path of a domain in which a dot was dashed, so that nothing of them
comes off. -/
def KeepsPath (context : CarbonContext) (queueName : Str) : Prop :=
  0 < context.tenantId ∧ ∃ domain, context.tenantDomain = some domain ∧
    '.' ∈ domain ∧ ';' ∉ domain ∧ startsWith queueName (domain ++ "/".toList) = true

section
variable {context : CarbonContext} {domain : Str}

theorem plainName_super (h : context.tenantId ≤ 0) (queueName : Str) :
    plainName context queueName = upTo ';' queueName := by
  unfold plainName
  split
  · rfl
  · exact if_neg fun hpath => by omega

theorem plainName_other (hdomain : context.tenantDomain = some domain) {queueName : Str}
    (h : startsWith (upTo ';' queueName) (domain ++ "/".toList) = false) :
    plainName context queueName = upTo ';' queueName := by
  simp only [plainName, hdomain, h, Bool.false_eq_true, and_false, if_false]

theorem plainName_path (id : 0 < context.tenantId) (hdomain : context.tenantDomain = some domain)
    (hsemicolon : ';' ∉ domain) (rest : Str) :
    plainName context (domain ++ "/".toList ++ rest) = upTo ';' rest := by
  have hslash : ';' ∉ domain ++ "/".toList := by simp [hsemicolon]
  have hstart : startsWith (domain ++ "/".toList ++ upTo ';' rest) (domain ++ "/".toList) =
      true := startsWith_iff.2 (List.prefix_append _ _)
  simp only [plainName, hdomain, upTo_append_of_notMem hslash, id, hstart, and_self, if_true]
  exact List.drop_left

theorem getQueueID_readsRight {queueName : Str} (h : ReadsRight context queueName) :
    getQueueID context queueName = .ok (queueResource (plainName context queueName)) := by
  rcases lt_or_ge 0 context.tenantId with hid | hsuper
  · obtain hother | ⟨domain, hdomain, ⟨hdashed, hpath⟩ | ⟨hdot, hsemicolon, hpath⟩⟩ := h
    · omega
    · have hplain : startsWith (upTo ';' queueName) (domain ++ "/".toList) = false := by
        rw [← Bool.not_eq_true, startsWith_upTo, hpath]
        exact fun h => Bool.false_ne_true h.2
      rw [getQueueID_tenant hid hdomain hdashed, plainName_other hdomain hplain]
    · obtain ⟨rest, rfl⟩ := startsWith_iff.1 hpath
      rw [plainName_path hid hdomain hsemicolon, getQueueID_undashed hid hdomain hdot]
  · rw [getQueueID_super hsuper, plainName_super hsuper]

theorem toldApart_of_readsRight {queueName queueName' : Str} (h : ReadsRight context queueName)
    (h' : ReadsRight context queueName') : ToldApart context queueName queueName' := by
  have hid := getQueueID_readsRight h
  have hid' := getQueueID_readsRight h'
  refine ⟨⟨_, hid⟩, ⟨_, hid'⟩, ?_⟩
  rw [hid, hid', Except.ok.injEq, queueResource_injective.eq_iff]

theorem getQueueID_dotted (id : 0 < context.tenantId) (hdomain : context.tenantDomain = some domain)
    (hdot : '.' ∈ domain) (hsemicolon : ';' ∉ domain) (rest : Str) :
    getQueueID context (domain ++ "/".toList ++ rest) =
      .ok (queueResource (domain ++ "/".toList ++ upTo ';' rest)) := by
  have hother : startsWith (domain ++ "/".toList ++ rest) (replaceChar '.' '-' domain) =
      false := by
    rw [← Bool.not_eq_true, startsWith_iff]
    rintro ⟨tail, htail⟩
    rw [List.append_assoc] at htail
    have hsame := (List.append_inj htail (length_replaceChar '.' '-' domain)).1
    exact (replaceChar_eq_self_iff (by decide)).1 hsame hdot
  rw [getQueueID_tenant id hdomain hother, upTo_append_of_notMem (by simp [hsemicolon])]

theorem toldApart_of_keepsPath {queueName queueName' : Str} (h : KeepsPath context queueName)
    (h' : KeepsPath context queueName') : ToldApart context queueName queueName' := by
  obtain ⟨hid, domain, hdomain, hdot, hsemicolon, hpath⟩ := h
  obtain ⟨-, domain', hdomain', -, -, hpath'⟩ := h'
  cases hdomain.symm.trans hdomain'
  obtain ⟨rest, rfl⟩ := startsWith_iff.1 hpath
  obtain ⟨rest', rfl⟩ := startsWith_iff.1 hpath'
  have hrest := getQueueID_dotted hid hdomain hdot hsemicolon rest
  have hrest' := getQueueID_dotted hid hdomain hdot hsemicolon rest'
  refine ⟨⟨_, hrest⟩, ⟨_, hrest'⟩, ?_⟩
  rw [hrest, hrest', Except.ok.injEq, queueResource_injective.eq_iff, List.append_cancel_left_eq,
    plainName_path hid hdomain hsemicolon, plainName_path hid hdomain hsemicolon]

theorem getQueueID_shared (id : 0 < context.tenantId) (hdomain : context.tenantDomain = some domain)
    {queueName : Str} (h : HasID context queueName) : ∃ name, ';' ∉ name ∧ ∀ c,
      getQueueID context (replaceChar '.' '-' domain ++ c :: name) =
        getQueueID context queueName := by
  obtain ⟨_, hqueue⟩ := h
  obtain ⟨rest, hrest, -⟩ := getQueueID_eq_ok.1 hqueue
  refine ⟨upTo ';' rest, notMem_upTo ';' rest, fun c => ?_⟩
  rw [getQueueID_stripped id hdomain, upTo_of_notMem (notMem_upTo ';' rest), eq_comm]
  exact getQueueID_eq_ok.2 ⟨rest, hrest, rfl⟩

theorem plainName_cut (hdomain : context.tenantDomain = some domain)
    (h : ';' ∈ replaceChar '.' '-' domain) (rest rest' : Str) :
    plainName context (replaceChar '.' '-' domain ++ rest) =
      plainName context (replaceChar '.' '-' domain ++ rest') := by
  simp only [plainName, hdomain, upTo_append_of_mem h]

theorem plainName_dashed (hdomain : context.tenantDomain = some domain)
    (h : ';' ∉ replaceChar '.' '-' domain) {c : Char} (hc : c ≠ ';') (hslash : c ≠ '/')
    {name : Str} (hname : ';' ∉ name) :
    plainName context (replaceChar '.' '-' domain ++ c :: name) =
      replaceChar '.' '-' domain ++ c :: name := by
  have hwhole : upTo ';' (replaceChar '.' '-' domain ++ c :: name) =
      replaceChar '.' '-' domain ++ c :: name := upTo_of_notMem (by simp [h, hname, hc.symm])
  have hother : startsWith (replaceChar '.' '-' domain ++ c :: name) (domain ++ "/".toList) =
      false := by
    rw [← Bool.not_eq_true, startsWith_iff]
    rintro ⟨rest, hrest⟩
    rw [List.append_assoc] at hrest
    have hnext := (List.append_inj hrest (length_replaceChar '.' '-' domain).symm).2
    exact hslash (List.cons.inj hnext).1.symm
  rw [plainName_other hdomain (by rw [hwhole]; exact hother), hwhole]

theorem not_identified (id : 0 < context.tenantId) (queueName : Str) :
    ¬Identified context queueName := by
  rintro ⟨hqueue, hunique⟩
  cases hdomain : context.tenantDomain with
  | none =>
    obtain ⟨_, hid⟩ := hqueue
    rw [getQueueID, withoutTenantDomain, if_pos id, hdomain] at hid
    cases hid
  | some domain =>
    obtain ⟨name, hname, hshared⟩ := getQueueID_shared id hdomain hqueue
    have hhas : ∀ c rest, HasID context (replaceChar '.' '-' domain ++ c :: rest) :=
      fun c rest => ⟨_, getQueueID_stripped id hdomain c rest⟩
    have hplain : ∀ c, plainName context queueName =
        plainName context (replaceChar '.' '-' domain ++ c :: name) := fun c =>
      (hunique _ (hhas c name)).sameID_iff.1 (hshared c).symm
    by_cases hsemicolon : ';' ∈ replaceChar '.' '-' domain
    · -- one plain name, but a character more in the id
      have hsame := plainName_cut hdomain hsemicolon ('!' :: name) ('!' :: (name ++ ['!']))
      have hids := (hunique _ (hhas '!' (name ++ ['!']))).sameID_iff.2 ((hplain '!').trans hsame)
      rw [← hshared '!', getQueueID_stripped id hdomain, getQueueID_stripped id hdomain,
        Except.ok.injEq, queueResource_injective.eq_iff, upTo_of_notMem hname,
        upTo_of_notMem (by simp [hname])] at hids
      have hlength := congrArg List.length hids
      rw [List.length_append, List.length_singleton] at hlength
      omega
    · -- one id, but two plain names
      have hboth := (hplain '!').symm.trans (hplain '?')
      rw [plainName_dashed hdomain hsemicolon (by decide) (by decide) hname,
        plainName_dashed hdomain hsemicolon (by decide) (by decide) hname,
        List.append_cancel_left_eq] at hboth
      exact absurd (List.cons.inj hboth).1 (by decide)

end

/-- No name of a tenant is identified by its id, every name of the super tenant is. Between names
that are read right, and between names that keep their path, the ids tell. -/
theorem identified_iff (context : CarbonContext) :
    (∀ queueName, Identified context queueName ↔ context.tenantId ≤ 0) ∧
    (∀ queueName queueName', ReadsRight context queueName → ReadsRight context queueName' →
      ToldApart context queueName queueName') ∧
    ∀ queueName queueName', KeepsPath context queueName → KeepsPath context queueName' →
      ToldApart context queueName queueName' := by
  refine ⟨fun queueName => ⟨fun h => ?_, fun hsuper => ?_⟩, fun _ _ => toldApart_of_readsRight,
    fun _ _ => toldApart_of_keepsPath⟩
  · by_contra hid
    exact not_identified (by omega) queueName h
  · exact ⟨⟨_, getQueueID_super hsuper queueName⟩, fun queueName' _ =>
      toldApart_of_readsRight (.inl hsuper) (.inl hsuper)⟩

theorem identified_iff_prefixed :
    ToldApart (.ofDomain "foo".toList) "foo/q;x".toList "q".toList ∧
      ToldApart (.ofDomain "foo.com".toList) "foo.com/q".toList "foo.com/p".toList :=
  ⟨(identified_iff (.ofDomain "foo".toList)).2.1 _ _
      (.inr ⟨"foo".toList, rfl, .inr ⟨by decide, by decide, by decide⟩⟩)
      (.inr ⟨"foo".toList, rfl, .inl ⟨by decide, by decide⟩⟩),
    (identified_iff (.ofDomain "foo.com".toList)).2.2 _ _
      ⟨by decide, "foo.com".toList, rfl, by decide, by decide, by decide⟩
      ⟨by decide, "foo.com".toList, rfl, by decide, by decide, by decide⟩⟩

/-- The path of a domain with a dot stays in the id, and `foo` alone has no id. -/
theorem dotted_path_stays :
    ¬ToldApart (.ofDomain "foo.com".toList) "foo.com/q".toList "q".toList ∧
    ¬ToldApart (.ofDomain "foo".toList) "foo".toList "q".toList := by
  refine ⟨fun h => ?_, fun h => ?_⟩
  · exact absurd (h.sameID_iff.2 (by decide)) (by decide)
  · obtain ⟨id, hid⟩ := h.hasID
    cases hid

end CarbonMessaging.QueueIdentity
