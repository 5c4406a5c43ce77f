import CarbonMessaging.RegistryListings

/-! Whether the registry lists every queue that was created once. Only direct children of the
queue collection are listed, so all hangs on how deep a queue's id is. -/

namespace CarbonMessaging.QueueDirectory

open JavaLang FaultyCalls CommonsUtil RegistryClient PathChildren

variable {β : Type} {listing : ChildListing}

structure Creation where
  queueName : Str
  owner : Str
  now : Str

def Creation.step (w : World β) (creation : Creation) : World β :=
  final (RegistryClient.createQueue creation.queueName creation.owner)
    { w with now := creation.now }

def runCreations (w : World β) (creations : List Creation) : World β :=
  creations.foldl Creation.step w

def IsFirst (creations : List Creation) (creation : Creation) : Prop :=
  creations.find? (·.queueName = creation.queueName) = some creation

structure TenantContext (context : CarbonContext) (domain : Str) : Prop where
  tenantDomain : context.tenantDomain = some domain
  super_iff : context.tenantId ≤ 0 ↔ domain = SUPER_TENANT_DOMAIN_NAME

def OwnedName (domain queueName : Str) : Prop :=
  ';' ∉ queueName ∧
    if domain = SUPER_TENANT_DOMAIN_NAME then '/' ∉ queueName
    else ∃ rest, queueName = domain ++ '/' :: rest ∧ '/' ∉ rest

/-- What a queue's id has of an owned name: a domain with a dot in it stays. -/
def localName (domain queueName : Str) : Str :=
  if '.' ∈ domain then queueName else queueName.drop (domain.length + 1)

/-- The one-level ids: the super tenant's, and those of tenants without a dot in the domain. -/
def Registrable (domain queueName : Str) : Prop :=
  if domain = SUPER_TENANT_DOMAIN_NAME then queueName ≠ []
  else '.' ∉ domain ∧ queueName ≠ domain ++ "/".toList

/-- One `QueueDetails` per name, with the owner of its first creation, and nothing else. -/
structure ListsOnce (creations : List Creation) (details : List QueueDetails) : Prop where
  once : (details.map (·.name)).Nodup
  all : ∀ creation ∈ creations, some creation.queueName ∈ details.map (·.name)
  only : ∀ queue ∈ details, ∃ creation, IsFirst creations creation ∧
    queue.name = some creation.queueName ∧ queue.owner = some creation.owner

theorem isFirst_append {creations : List Creation} {last creation : Creation} :
    IsFirst (creations ++ [last]) creation ↔ IsFirst creations creation ∨
      creation = last ∧ ∀ earlier ∈ creations, earlier.queueName ≠ last.queueName := by
  rw [IsFirst, IsFirst, List.find?_append]
  cases hfind : creations.find? (·.queueName = creation.queueName) with
  | some found =>
    have hmem := List.mem_of_find?_eq_some hfind
    have hname := List.find?_some hfind
    rw [decide_eq_true_eq] at hname
    refine ⟨.inl, ?_⟩
    rintro (h | ⟨rfl, hnew⟩)
    · exact h
    · exact absurd hname (hnew found hmem)
  | none =>
    rw [List.find?_eq_none] at hfind
    simp only [decide_eq_true_eq] at hfind
    rw [Option.none_or, List.find?_singleton]
    by_cases hname : last.queueName = creation.queueName
    · simp only [hname, decide_true, if_true, Option.some.injEq]
      refine ⟨fun h => .inr ⟨h.symm, hfind⟩, ?_⟩
      rintro (h | h)
      · cases h
      · exact h.1.symm
    · simp only [hname, decide_false, Bool.false_eq_true, if_false]
      refine ⟨fun h => (nomatch h), ?_⟩
      rintro (h | h)
      · cases h
      · exact absurd (congrArg Creation.queueName h.1).symm hname

theorem exists_isFirst {creations : List Creation} {creation : Creation}
    (h : creation ∈ creations) :
    ∃ first, IsFirst creations first ∧ first.queueName = creation.queueName := by
  cases hfind : creations.find? (·.queueName = creation.queueName) with
  | none =>
    rw [List.find?_eq_none] at hfind
    exact absurd (decide_eq_true rfl) (hfind creation h)
  | some first =>
    have hname := List.find?_some hfind
    rw [decide_eq_true_eq] at hname
    exact ⟨first, by rw [IsFirst, hname]; exact hfind, hname⟩

theorem mem_of_isFirst {creations : List Creation} {creation : Creation}
    (h : IsFirst creations creation) : creation ∈ creations := List.mem_of_find?_eq_some h

section
variable {context : CarbonContext} {domain queueName queueName' : Str}

theorem queueResource_eq (name : Str) : queueResource name = JMS_QUEUES ++ '/' :: name := by
  simp [queueResource]

theorem super_of_dotless (h : '.' ∉ domain) : domain ≠ SUPER_TENANT_DOMAIN_NAME := by
  rintro rfl
  exact h (by decide)

theorem owned_tenant (htenant : domain ≠ SUPER_TENANT_DOMAIN_NAME)
    (h : OwnedName domain queueName) : ∃ rest, queueName = domain ++ '/' :: rest ∧ '/' ∉ rest := by
  have hform := h.2
  rwa [if_neg htenant] at hform

theorem localName_dotless (h : '.' ∉ domain) (rest : Str) :
    localName domain (domain ++ '/' :: rest) = rest := by
  rw [localName, if_neg h]
  simp

theorem getQueueID_owned (hcontext : TenantContext context domain)
    (howned : OwnedName domain queueName) :
    getQueueID context queueName = .ok (queueResource (localName domain queueName)) := by
  by_cases hsuper : domain = SUPER_TENANT_DOMAIN_NAME
  · subst hsuper
    rw [getQueueID_super (hcontext.super_iff.2 rfl), upTo_of_notMem howned.1, localName,
      if_pos (by decide)]
  · have hid : 0 < context.tenantId := not_le.1 (mt hcontext.super_iff.1 hsuper)
    obtain ⟨rest, rfl, hplain⟩ := owned_tenant hsuper howned
    by_cases hdot : '.' ∈ domain
    · have hother : startsWith (domain ++ '/' :: rest) (replaceChar '.' '-' domain) = false := by
        refine Bool.not_eq_true _ ▸ fun hstart => ?_
        have hlength := length_replaceChar '.' '-' domain
        have hinitial := List.prefix_of_prefix_length_le (startsWith_iff.1 hstart)
          (List.prefix_append domain _) hlength.le
        have hdashed := List.IsPrefix.eq_of_length hinitial hlength
        exact (replaceChar_eq_self_iff (by decide)).1 hdashed hdot
      rw [getQueueID_tenant hid hcontext.tenantDomain hother, upTo_of_notMem howned.1, localName,
        if_pos hdot]
    · have hsemicolon : ';' ∉ rest := fun h => howned.1 (by simp [h])
      have hstripped := getQueueID_stripped hid hcontext.tenantDomain '/' rest
      rw [replaceChar_of_notMem hdot, upTo_of_notMem hsemicolon] at hstripped
      rw [hstripped, localName_dotless hdot]

theorem localName_inj (h : OwnedName domain queueName) (h' : OwnedName domain queueName')
    (hsame : localName domain queueName = localName domain queueName') :
    queueName = queueName' := by
  by_cases hdot : '.' ∈ domain
  · rw [localName, localName, if_pos hdot, if_pos hdot] at hsame
    exact hsame
  · obtain ⟨rest, rfl, -⟩ := owned_tenant (super_of_dotless hdot) h
    obtain ⟨rest', rfl, -⟩ := owned_tenant (super_of_dotless hdot) h'
    rw [localName_dotless hdot, localName_dotless hdot] at hsame
    rw [hsame]

theorem registrable_iff (h : OwnedName domain queueName) :
    Registrable domain queueName ↔
      localName domain queueName ≠ [] ∧ '/' ∉ localName domain queueName := by
  by_cases hsuper : domain = SUPER_TENANT_DOMAIN_NAME
  · have hplain := h.2
    rw [if_pos hsuper] at hplain
    have hdot : '.' ∈ domain := hsuper ▸ by decide
    rw [Registrable, if_pos hsuper, localName, if_pos hdot, and_iff_left hplain]
  · obtain ⟨rest, rfl, hplain⟩ := owned_tenant hsuper h
    rw [Registrable, if_neg hsuper]
    by_cases hdot : '.' ∈ domain
    · rw [localName, if_pos hdot]
      simp [hdot]
    · rw [localName_dotless hdot]
      simp [hdot, hplain]

end

def idOf (domain : Str) (creation : Creation) : Str :=
  queueResource (localName domain creation.queueName)

structure Registered (queue : Collection) (creation : Creation) : Prop where
  name : queue.lookup NAME = some creation.queueName
  owner : queue.lookup OWNER = some creation.owner
  counted : ∃ count, (queue.lookup USER_COUNT).bind parseInt = some count

structure Directory (domain : Str) (creations : List Creation) (registry : Registry) : Prop where
  entry : ∀ creation, IsFirst creations creation →
    ∃ queue, registry.lookup (idOf domain creation) = some queue ∧ Registered queue creation
  only : ∀ path ∈ registry, Below '/' JMS_QUEUES path →
    ∃ creation, IsFirst creations creation ∧ path = idOf domain creation

theorem registered_new (creation : Creation) :
    Registered (newQueueEntry creation.now creation.queueName creation.owner ∅) creation := by
  obtain ⟨howner, hname, hcount, -⟩ :=
    newQueueEntry_lookup creation.now creation.queueName creation.owner ∅
  exact ⟨hname, howner, 1, by rw [hcount]; rfl⟩

theorem registered_shared {queue : Collection} {creation : Creation}
    (h : Registered queue creation) (now : Str) :
    ∃ entry, sharedQueueEntry now queue = .ok entry ∧ Registered entry creation := by
  obtain ⟨count, hcount⟩ := h.counted
  obtain ⟨text, htext, hparse⟩ := Option.bind_eq_some_iff.1 hcount
  have hother : (queue.insert UPDATED_TIME now).lookup USER_COUNT = some text := by
    rw [lookup_insert, if_neg (by decide), htext]
  have hbounds := wrapInt_bounds (count + 1)
  refine ⟨(queue.insert UPDATED_TIME now).insert USER_COUNT
    (intToString (wrapInt (count + 1))), ?_, ?_, ?_, wrapInt (count + 1), ?_⟩
  · simp only [sharedQueueEntry, hother, hparse]
  · simp +decide only [lookup_insert, h.name, ↓reduceIte]
  · simp +decide only [lookup_insert, h.owner, ↓reduceIte]
  · rw [lookup_insert, if_pos rfl]
    exact parseInt_intToString hbounds.1 hbounds.2

section
variable {domain : Str} {creations : List Creation} {registry : Registry}

theorem below_idOf (domain : Str) (creation : Creation) :
    Below '/' JMS_QUEUES (idOf domain creation) := by
  rw [idOf, queueResource_eq]
  exact below_child _

theorem idOf_inj {creation creation' : Creation} (h : OwnedName domain creation.queueName)
    (h' : OwnedName domain creation'.queueName)
    (hsame : idOf domain creation = idOf domain creation') :
    creation.queueName = creation'.queueName :=
  localName_inj h h' (queueResource_injective hsame)

theorem isFirst_unique {creation creation' : Creation} (h : IsFirst creations creation)
    (h' : IsFirst creations creation') (hname : creation.queueName = creation'.queueName) :
    creation = creation' := by
  rw [IsFirst, hname] at h
  exact Option.some.inj (h.symm.trans h')

theorem writtenEntry_registered (hdirectory : Directory domain creations registry)
    {last : Creation}
    (howned : ∀ creation ∈ creations ++ [last], OwnedName domain creation.queueName) :
    ∃ entry, writtenEntry registry last.now last.queueName last.owner (idOf domain last) =
        .ok entry ∧
      ∀ creation, IsFirst (creations ++ [last]) creation →
        creation.queueName = last.queueName → Registered entry creation := by
  have hlast := howned last (by simp)
  cases hstored : registry.lookup (idOf domain last) with
  | none =>
    refine ⟨newQueueEntry last.now last.queueName last.owner ∅,
      by simp only [writtenEntry, hstored], fun creation hfirst hname => ?_⟩
    rcases isFirst_append.1 hfirst with hfirst | ⟨rfl, -⟩
    · obtain ⟨queue, hqueue, -⟩ := hdirectory.entry creation hfirst
      rw [idOf, hname] at hqueue
      exact absurd (hstored.symm.trans hqueue) (by simp)
    · exact registered_new creation
  | some queue =>
    obtain ⟨first, hfirst, hid⟩ := hdirectory.only _ (Finmap.mem_of_lookup_eq_some hstored)
      (below_idOf domain last)
    have hmem := mem_of_isFirst hfirst
    have hname : first.queueName = last.queueName :=
      (idOf_inj hlast (howned first (by simp [hmem])) hid).symm
    obtain ⟨queue', hqueue', hregistered⟩ := hdirectory.entry first hfirst
    rw [← hid, hstored] at hqueue'
    cases hqueue'
    obtain ⟨entry, hentry, hkept⟩ := registered_shared hregistered last.now
    refine ⟨entry, by simp only [writtenEntry, hstored, hentry], fun creation hcreation hsame => ?_⟩
    rcases isFirst_append.1 hcreation with hcreation | ⟨rfl, hnew⟩
    · rw [isFirst_unique hcreation hfirst (hsame.trans hname.symm)]
      exact hkept
    · exact absurd hname (hnew first hmem)

theorem directory_insert (hdirectory : Directory domain creations registry) {last : Creation}
    (howned : ∀ creation ∈ creations ++ [last], OwnedName domain creation.queueName)
    {entry : Collection} (hentry : ∀ creation, IsFirst (creations ++ [last]) creation →
      creation.queueName = last.queueName → Registered entry creation) :
    Directory domain (creations ++ [last]) (registry.insert (idOf domain last) entry) := by
  refine ⟨fun creation hfirst => ?_, fun path hpath hbelow => ?_⟩
  · by_cases hname : creation.queueName = last.queueName
    · refine ⟨entry, ?_, hentry creation hfirst hname⟩
      rw [idOf, hname]
      exact Finmap.lookup_insert _
    · rcases isFirst_append.1 hfirst with hearlier | ⟨rfl, -⟩
      · obtain ⟨queue, hqueue, hregistered⟩ := hdirectory.entry creation hearlier
        have hne : idOf domain creation ≠ idOf domain last := fun hid =>
          hname (idOf_inj (howned creation (mem_of_isFirst hfirst)) (howned last (by simp)) hid)
        exact ⟨queue, by rw [Finmap.lookup_insert_of_ne _ hne, hqueue], hregistered⟩
      · exact absurd rfl hname
  · rcases Finmap.mem_insert.1 hpath with rfl | hpath
    · obtain ⟨first, hfirst, hname⟩ :=
        exists_isFirst (show last ∈ creations ++ [last] by simp)
      exact ⟨first, hfirst, by rw [idOf, idOf, hname]⟩
    · obtain ⟨first, hfirst, hid⟩ := hdirectory.only path hpath hbelow
      exact ⟨first, isFirst_append.2 (.inl hfirst), hid⟩

end

section
variable {w : World β} {domain : Str}

theorem step_directory (hcontext : TenantContext w.context domain) {creations : List Creation}
    {last : Creation}
    (howned : ∀ creation ∈ creations ++ [last], OwnedName domain creation.queueName)
    (hdirectory : Directory domain creations (w.registries w.context.ownTenant)) :
    (last.step w).context = w.context ∧
      Directory domain (creations ++ [last])
        ((last.step w).registries w.context.ownTenant) := by
  have hid := getQueueID_owned hcontext (howned last (by simp))
  obtain ⟨entry, hwritten, hentry⟩ := writtenEntry_registered hdirectory howned
  have hrun := createQueue_written (w := { w with now := last.now }) hid hwritten
  rw [Creation.step, final, hrun]
  refine ⟨rfl, ?_⟩
  rw [putEntry_registry]
  exact directory_insert hdirectory howned hentry

theorem run_directory (hcontext : TenantContext w.context domain)
    (hempty : ∀ path ∈ w.registries w.context.ownTenant, ¬Below '/' JMS_QUEUES path)
    {creations : List Creation}
    (howned : ∀ creation ∈ creations, OwnedName domain creation.queueName) :
    (runCreations w creations).context = w.context ∧
      Directory domain creations
        ((runCreations w creations).registries w.context.ownTenant) := by
  induction creations using List.reverseRecOn with
  | nil =>
    refine ⟨rfl, fun creation hfirst => ?_, fun path hpath hbelow => ?_⟩
    · cases hfirst
    · exact absurd hbelow (hempty path hpath)
  | append_singleton creations last ih =>
    obtain ⟨hsame, hdirectory⟩ := ih fun creation hmem => howned creation (by simp [hmem])
    have hstep := step_directory (w := runCreations w creations) (hsame ▸ hcontext) howned
      (hsame ▸ hdirectory)
    rw [runCreations, List.foldl_append]
    exact ⟨hstep.1.trans hsame, hsame ▸ hstep.2⟩

end

section
variable {domain : Str} {creations : List Creation} {registry : Registry}

theorem collectionAt_listed (hdirectory : Directory domain creations registry) {path name : Str}
    (hbelow : Below '/' JMS_QUEUES path)
    (hname : (collectionAt registry path).lookup NAME = some name) :
    ∃ creation, IsFirst creations creation ∧ path = idOf domain creation ∧
      creation.queueName = name := by
  cases hstored : registry.lookup path with
  | none =>
    rw [collectionAt, hstored] at hname
    cases hname
  | some queue =>
    obtain ⟨creation, hfirst, rfl⟩ :=
      hdirectory.only path (Finmap.mem_of_lookup_eq_some hstored) hbelow
    obtain ⟨queue', hqueue', hregistered⟩ := hdirectory.entry creation hfirst
    rw [hstored] at hqueue'
    cases hqueue'
    rw [collectionAt, hstored, Option.getD_some, hregistered.name] at hname
    exact ⟨creation, hfirst, rfl, Option.some.inj hname⟩

theorem below_of_listed {path : Str} (h : path ∈ listing.getChildren registry getQueuesID) :
    Below '/' JMS_QUEUES path := by
  obtain ⟨-, segment, -, -, rfl⟩ := mem_children.1 ((listing.mem_iff _ _ _).1 h)
  exact below_child segment

theorem registrable_of_listsOnce (hdirectory : Directory domain creations registry)
    (howned : ∀ creation ∈ creations, OwnedName domain creation.queueName)
    (h : ListsOnce creations ((listing.getChildren registry getQueuesID).map fun id =>
      queueDetails (collectionAt registry id))) :
    ∀ creation ∈ creations, Registrable domain creation.queueName := by
  intro creation hmem
  have hlisted := h.all creation hmem
  rw [List.map_map, List.mem_map] at hlisted
  obtain ⟨path, hpath, hname⟩ := hlisted
  obtain ⟨first, -, hid, hsame⟩ :=
    collectionAt_listed hdirectory (below_of_listed hpath) hname
  obtain ⟨-, segment, hne, hplain, hsegment⟩ :=
    mem_children.1 ((listing.mem_iff _ _ _).1 hpath)
  rw [hid, idOf, hsame, queueResource_eq, getQueuesID] at hsegment
  have hlocal : localName domain creation.queueName = segment := by simpa using hsegment
  exact (registrable_iff (howned creation hmem)).2 ⟨hlocal ▸ hne, hlocal ▸ hplain⟩

theorem listed_iff (hdirectory : Directory domain creations registry)
    (howned : ∀ creation ∈ creations, OwnedName domain creation.queueName)
    (hregistrable : ∀ creation ∈ creations, Registrable domain creation.queueName) {path : Str} :
    path ∈ listing.getChildren registry getQueuesID ↔
      ∃ creation, IsFirst creations creation ∧ path = idOf domain creation := by
  rw [listing.mem_iff, mem_children]
  constructor
  · rintro ⟨⟨key, hkey, habove⟩, segment, -, -, rfl⟩
    obtain ⟨creation, hfirst, rfl⟩ := hdirectory.only key (Finmap.mem_keys.1 hkey)
      (below_of_atOrBelow (below_child segment) habove)
    have hmem := mem_of_isFirst hfirst
    have hplain := ((registrable_iff (howned creation hmem)).1 (hregistrable creation hmem)).2
    rw [idOf, queueResource_eq] at habove
    refine ⟨creation, hfirst, ?_⟩
    rw [idOf, queueResource_eq, eq_of_atOrBelow_child hplain habove]
    rfl
  · rintro ⟨creation, hfirst, rfl⟩
    have hmem := mem_of_isFirst hfirst
    obtain ⟨hne, hplain⟩ := (registrable_iff (howned creation hmem)).1 (hregistrable creation hmem)
    obtain ⟨queue, hqueue, -⟩ := hdirectory.entry creation hfirst
    refine ⟨inTree_of_mem (Finmap.mem_keys.2 (Finmap.mem_of_lookup_eq_some hqueue)),
      localName domain creation.queueName, hne, hplain, ?_⟩
    rw [idOf, queueResource_eq]
    rfl

theorem queueDetails_idOf (hdirectory : Directory domain creations registry)
    {creation : Creation} (hfirst : IsFirst creations creation) :
    (queueDetails (collectionAt registry (idOf domain creation))).name =
        some creation.queueName ∧
      (queueDetails (collectionAt registry (idOf domain creation))).owner =
        some creation.owner := by
  obtain ⟨queue, hqueue, hregistered⟩ := hdirectory.entry creation hfirst
  rw [collectionAt, hqueue]
  exact ⟨hregistered.name, hregistered.owner⟩

theorem listsOnce_of_registrable (hdirectory : Directory domain creations registry)
    (howned : ∀ creation ∈ creations, OwnedName domain creation.queueName)
    (hregistrable : ∀ creation ∈ creations, Registrable domain creation.queueName) :
    ListsOnce creations ((listing.getChildren registry getQueuesID).map fun id =>
      queueDetails (collectionAt registry id)) := by
  have hlisted := @listed_iff listing domain creations registry hdirectory howned hregistrable
  refine ⟨?_, fun creation hmem => ?_, fun queue hqueue => ?_⟩
  · rw [List.map_map]
    refine (listing.nodup _ _).map_on fun path hpath path' hpath' hsame => ?_
    obtain ⟨creation, hfirst, rfl⟩ := hlisted.1 hpath
    obtain ⟨creation', hfirst', rfl⟩ := hlisted.1 hpath'
    have hname : some creation.queueName = some creation'.queueName :=
      (queueDetails_idOf hdirectory hfirst).1.symm.trans
        (hsame.trans (queueDetails_idOf hdirectory hfirst').1)
    rw [isFirst_unique hfirst hfirst' (Option.some.inj hname)]
  · obtain ⟨first, hfirst, hname⟩ := exists_isFirst hmem
    refine List.mem_map.2 ⟨_, List.mem_map_of_mem (hlisted.2 ⟨first, hfirst, rfl⟩), ?_⟩
    rw [(queueDetails_idOf hdirectory hfirst).1, hname]
  · obtain ⟨path, hpath, rfl⟩ := List.mem_map.1 hqueue
    obtain ⟨creation, hfirst, rfl⟩ := hlisted.1 hpath
    exact ⟨creation, hfirst, queueDetails_idOf hdirectory hfirst⟩

end

def ListedOnce (listing : ChildListing) (w : World β) (creations : List Creation) : Prop :=
  ∃ details t, getQueues listing ⟨runCreations w creations, []⟩ = .ok details t ∧
    ListsOnce creations details

section
variable {w : World β} {domain : Str} {creations : List Creation}

theorem registrable_of_listedOnce (hcontext : TenantContext w.context domain)
    (hempty : ∀ path ∈ w.registries w.context.ownTenant, ¬Below '/' JMS_QUEUES path)
    (howned : ∀ creation ∈ creations, OwnedName domain creation.queueName)
    (h : ListedOnce listing w creations) :
    ∀ creation ∈ creations, Registrable domain creation.queueName := by
  obtain ⟨hsame, hdirectory⟩ := run_directory hcontext hempty howned
  obtain ⟨details, t, hrun, honce⟩ := h
  rw [getQueues_quiet, hsame] at hrun
  cases hrun
  exact registrable_of_listsOnce hdirectory howned honce

/-- After any creations of owned queues in a registry without queues, each name is listed once
with its first owner just when every id is one level deep. -/
theorem listedOnce_iff (listing : ChildListing) (hcontext : TenantContext w.context domain)
    (hempty : ∀ path ∈ w.registries w.context.ownTenant, ¬Below '/' JMS_QUEUES path)
    (howned : ∀ creation ∈ creations, OwnedName domain creation.queueName) :
    ListedOnce listing w creations ↔
      ∀ creation ∈ creations, Registrable domain creation.queueName := by
  refine ⟨registrable_of_listedOnce hcontext hempty howned, fun hregistrable => ?_⟩
  obtain ⟨hsame, hdirectory⟩ := run_directory hcontext hempty howned
  refine ⟨_, _, getQueues_quiet _, ?_⟩
  rw [hsame]
  exact listsOnce_of_registrable hdirectory howned hregistrable

end

theorem tenantContext_ofDomain {domain : Str} (h : domain ≠ SUPER_TENANT_DOMAIN_NAME) :
    TenantContext (.ofDomain domain) domain :=
  ⟨rfl, iff_of_false (show ¬(1 : Int) ≤ 0 by decide) h⟩

theorem initial_empty (context : CarbonContext) : ∀ path ∈
    (World.initial context ()).registries context.ownTenant, ¬Below '/' JMS_QUEUES path :=
  fun _ hpath => (Finmap.notMem_empty hpath).elim

theorem ownedName_of_tenant {domain rest : Str} (h : domain ≠ SUPER_TENANT_DOMAIN_NAME)
    (hplain : '/' ∉ rest) (hsemicolon : ';' ∉ domain ++ '/' :: rest) :
    OwnedName domain (domain ++ '/' :: rest) :=
  ⟨hsemicolon, by rw [if_neg h]; exact ⟨rest, rfl, hplain⟩⟩

theorem listedOnce_foo_q : ListedOnce .sorted (World.initial (.ofDomain "foo".toList) ())
    [⟨"foo/q".toList, "bob".toList, "1".toList⟩, ⟨"foo/q".toList, "ann".toList, "2".toList⟩] := by
  have howned : OwnedName "foo".toList "foo/q".toList :=
    @ownedName_of_tenant "foo".toList "q".toList (by decide) (by decide) (by decide)
  have hregistrable : Registrable "foo".toList "foo/q".toList := by
    rw [Registrable, if_neg (by decide)]
    decide
  refine (listedOnce_iff .sorted (tenantContext_ofDomain (by decide)) (initial_empty _) ?_).2 ?_
  · exact List.forall_mem_cons.2 ⟨howned, List.forall_mem_singleton.2 howned⟩
  · exact List.forall_mem_cons.2 ⟨hregistrable, List.forall_mem_singleton.2 hregistrable⟩

theorem not_listedOnce_foo_com : ¬ListedOnce .sorted
    (World.initial (.ofDomain "foo.com".toList) ())
    [⟨"foo.com/q".toList, "bob".toList, "1".toList⟩] := by
  intro h
  have howned : OwnedName "foo.com".toList "foo.com/q".toList :=
    @ownedName_of_tenant "foo.com".toList "q".toList (by decide) (by decide) (by decide)
  have hregistrable := registrable_of_listedOnce (tenantContext_ofDomain (by decide))
    (initial_empty _) (List.forall_mem_singleton.2 howned) h _ (List.mem_singleton_self _)
  rw [Registrable, if_neg (by decide)] at hregistrable
  exact absurd hregistrable (by decide)

end CarbonMessaging.QueueDirectory
