import CarbonMessaging.CellWrites
import CarbonMessaging.FaultyTriples
import Mathlib.Data.Finmap

/-! What the components ask of the Carbon platform and of the broker's management beans: thread
context, governance registries, user realms. A registry is a store keyed by resource path and a
realm's permissions are one cell per role, resource and action. The broker itself is not part of
the repository; it stays an arbitrary state `β` with arbitrary operations. -/

namespace CarbonMessaging

open JavaLang FaultyCalls CellWrites

inductive ExceptionClass where
  | nullPointer | stringIndexOutOfBounds | numberFormat | illegalArgument | runtime
  | registry | registryClient | userStore | authorizationHandler | queueManager
  | accountNotFound | jmx | other (name : Str)
  deriving DecidableEq

structure JavaException where
  kind : ExceptionClass
  message : Option Str
  deriving DecidableEq

def ExceptionClass.className : ExceptionClass → Str
  | nullPointer => "java.lang.NullPointerException".toList
  | stringIndexOutOfBounds => "java.lang.StringIndexOutOfBoundsException".toList
  | numberFormat => "java.lang.NumberFormatException".toList
  | illegalArgument => "java.lang.IllegalArgumentException".toList
  | runtime => "java.lang.RuntimeException".toList
  | registry => "org.wso2.carbon.registry.core.exceptions.RegistryException".toList
  | registryClient => "org.wso2.carbon.andes.commons.registry.RegistryClientException".toList
  | userStore => "org.wso2.carbon.user.api.UserStoreException".toList
  | authorizationHandler =>
    "org.wso2.carbon.andes.authorization.andes.QpidAuthorizationHandlerException".toList
  | queueManager => "org.wso2.carbon.andes.core.QueueManagerException".toList
  | accountNotFound => "javax.security.auth.login.AccountNotFoundException".toList
  | jmx => "javax.management.JMException".toList
  | other name => name

def JavaException.toString (e : JavaException) : Str :=
  match e.message with
  | none => e.kind.className
  | some message => e.kind.className ++ ": ".toList ++ message

/-- What string concatenation makes of `getMessage()`. -/
def JavaException.messageText (e : JavaException) : Str := e.message.getD "null".toList

def JavaException.wrap (kind : ExceptionClass) (cause : JavaException) : JavaException :=
  ⟨kind, some cause.toString⟩

def nullPointerException : JavaException := ⟨.nullPointer, none⟩

def SUPER_TENANT_ID : Int := -1234
def INVALID_TENANT_ID : Int := -1
def SUPER_TENANT_DOMAIN_NAME : Str := "carbon.super".toList

/-- The thread-local Carbon context; an empty `username` stands for nobody logged in. -/
structure CarbonContext where
  tenantId : Int
  tenantDomain : Option Str
  username : Str
  deriving DecidableEq

/-- The context after `destroyCurrentContext`, or at the start of a tenant flow. -/
def CarbonContext.fresh : CarbonContext := ⟨INVALID_TENANT_ID, none, []⟩

def CarbonContext.ofDomain (domain : Str) : CarbonContext := ⟨1, some domain, "bob".toList⟩

/-- The tenant whose registry and realm a context selects wherever the code writes
`getTenantId() <= 0 ? SUPER_TENANT_ID : getTenantId()`. -/
def CarbonContext.ownTenant (context : CarbonContext) : Int :=
  if context.tenantId ≤ 0 then SUPER_TENANT_ID else context.tenantId

theorem ownTenant_super {context : CarbonContext} (h : context.tenantId ≤ 0) :
    context.ownTenant = SUPER_TENANT_ID := if_pos h

theorem ownTenant_ne_super {context : CarbonContext} (h : ¬context.tenantId ≤ 0) :
    context.ownTenant ≠ SUPER_TENANT_ID := by
  rw [CarbonContext.ownTenant, if_neg h, SUPER_TENANT_ID]
  omega

abbrev Collection := Finmap fun _ : Str => Str

abbrev Registry := Finmap fun _ : Str => Collection

structure Cell where
  role : Str
  resourceId : Str
  action : Str
  deriving DecidableEq

structure UserRealm where
  roleListOfUser : Str → List Str
  existingRole : Str → Bool
  roleNames : List Str
  allowed : Cell → Bool

def UserRealm.userAuthorized (realm : UserRealm) (username resourceId action : Str) : Bool :=
  (realm.roleListOfUser username).any fun role => realm.allowed ⟨role, resourceId, action⟩

def UserRealm.setCell (realm : UserRealm) (cell : Cell) (value : Bool) : UserRealm :=
  { realm with allowed := Function.update realm.allowed cell value }

/-- `adminRoleName` is the bootstrap realm's, `anonymousRoleName` is
`CarbonConstants.REGISTRY_ANONNYMOUS_ROLE_NAME` and `now` is what the clock shows. -/
structure World (β : Type) where
  context : CarbonContext
  registries : Int → Registry
  realms : Int → UserRealm
  broker : β
  adminRoleName : Str
  anonymousRoleName : Str
  now : Str

abbrev Carbon (β α : Type) := Prog JavaException (World β) α

variable {β : Type}

def UserRealm.empty : UserRealm := ⟨fun _ => [], fun _ => false, [], fun _ => false⟩

def World.initial (context : CarbonContext) (broker : β) : World β where
  context := context
  registries _ := ∅
  realms _ := UserRealm.empty
  broker := broker
  adminRoleName := "admin".toList
  anonymousRoleName := "wso2.anonymous.role".toList
  now := "0".toList

def World.putEntry (w : World β) (tenant : Int) (path : Str) (entry : Collection) : World β :=
  { w with
    registries := Function.update w.registries tenant
      ((w.registries tenant).insert path entry) }

def World.deleteEntry (w : World β) (tenant : Int) (path : Str) : World β :=
  { w with
    registries := Function.update w.registries tenant
      ((w.registries tenant).erase path) }

def World.setCell (w : World β) (tenant : Int) (cell : Cell) (value : Bool) : World β :=
  { w with realms := Function.update w.realms tenant ((w.realms tenant).setCell cell value) }

def World.setCells (w : World β) (tenant : Int) (writes : List (Cell × Bool)) : World β :=
  writes.foldl (fun w write => w.setCell tenant write.1 write.2) w

def throwIfNull {σ α : Type} : Option α → Prog JavaException σ α
  | some a => pure a
  | none => raise nullPointerException

def context : Carbon β CarbonContext := peek World.context

theorem context_apply (site : Site JavaException (World β)) :
    context site = .ok site.state.context site := rfl

def getGovernanceSystemRegistry (tenant : Int) : Carbon β Int := query fun _ => tenant

def newCollection : Carbon β Collection := query fun _ => ∅

def resourceExists (registry : Int) (path : Str) : Carbon β Bool :=
  query fun w => decide (path ∈ w.registries registry)

def noResource (path : Str) : JavaException :=
  ⟨.registry, some ("Resource does not exist at path ".toList ++ path)⟩

def registryGet (registry : Int) (path : Str) : Carbon β Collection :=
  call fun w =>
    match (w.registries registry).lookup path with
    | some entry => (.ok entry, w)
    | none => (.error (noResource path), w)

def registryPut (registry : Int) (path : Str) (entry : Collection) : Carbon β Unit :=
  command fun w => w.putEntry registry path entry

def registryDelete (registry : Int) (path : Str) : Carbon β Unit :=
  call fun w =>
    match (w.registries registry).lookup path with
    | some _ => (.ok (), w.deleteEntry registry path)
    | none => (.error (noResource path), w)

def getTenantUserRealm (tenant : Int) : Carbon β Int := query fun _ => tenant

def getRoleListOfUser (realm : Int) (username : Str) : Carbon β (List Str) :=
  query fun w => (w.realms realm).roleListOfUser username

def isExistingRole (realm : Int) (role : Str) : Carbon β Bool :=
  query fun w => (w.realms realm).existingRole role

def getRoleNames (realm : Int) : Carbon β (List Str) :=
  query fun w => (w.realms realm).roleNames

def isUserAuthorized (realm : Int) (username resourceId action : Str) : Carbon β Bool :=
  query fun w => (w.realms realm).userAuthorized username resourceId action

def isRoleAuthorized (realm : Int) (role resourceId action : Str) : Carbon β Bool :=
  query fun w => (w.realms realm).allowed ⟨role, resourceId, action⟩

def authorizeRole (realm : Int) (role resourceId action : Str) : Carbon β Unit :=
  command fun w => w.setCell realm ⟨role, resourceId, action⟩ true

def denyRole (realm : Int) (role resourceId action : Str) : Carbon β Unit :=
  command fun w => w.setCell realm ⟨role, resourceId, action⟩ false

/-- What the realm service answers, where it has a tenant manager and a realm to answer with;
`ρ` is what is looked at of a realm. -/
structure RealmService (ρ : Type) where
  tenantManager : Option (Str → Int)
  tenantUserRealm : Int → Option ρ

def RealmService.getTenantId {ρ σ : Type} (realmService : RealmService ρ) (domainName : Str) :
    Prog JavaException σ Int := do
  let tenantManager ← throwIfNull realmService.tenantManager
  query fun _ => tenantManager domainName

def inTenantFlow {α : Type} (x : Carbon β α) : Carbon β α := fun site =>
  match x ⟨{ site.state with context := .fresh }, site.outcomes⟩ with
  | .ok a t => .ok a ⟨{ t.state with context := site.state.context }, t.outcomes⟩
  | .error e t => .error e ⟨{ t.state with context := site.state.context }, t.outcomes⟩

/-- The operations invoked by name on the broker's MBeans; `isQueueExists` may answer null. -/
structure BrokerBeans (β : Type) where
  isQueueExists : Str → EStateM JavaException β (Option Bool)
  createNewQueue : (queueName owner : Str) → (durable : Bool) → EStateM JavaException β Unit
  createNewBinding : (queueName bindingKey : Str) → EStateM JavaException β Unit
  removeBinding : (queueName bindingKey : Str) → EStateM JavaException β Unit
  deleteQueue : Str → EStateM JavaException β Unit
  deleteAllMessagesInQueue : Str → EStateM JavaException β Unit

def invoke {α : Type} (x : EStateM JavaException β α) : Carbon β α := fun site =>
  match x site.state.broker with
  | .ok a b => .ok a ⟨{ site.state with broker := b }, site.outcomes⟩
  | .error e b => .error e ⟨{ site.state with broker := b }, site.outcomes⟩

def fullBroker : BrokerBeans Unit where
  isQueueExists _ := pure (some true)
  createNewQueue _ _ _ := pure ()
  createNewBinding _ _ := pure ()
  removeBinding _ _ := pure ()
  deleteQueue _ := pure ()
  deleteAllMessagesInQueue _ := pure ()

section
variable (w : World β) (tenant : Int)

@[simp] theorem putEntry_realms (path : Str) (entry : Collection) :
    (w.putEntry tenant path entry).realms = w.realms := rfl

@[simp] theorem putEntry_context (path : Str) (entry : Collection) :
    (w.putEntry tenant path entry).context = w.context := rfl

@[simp] theorem deleteEntry_realms (path : Str) :
    (w.deleteEntry tenant path).realms = w.realms := rfl

@[simp] theorem deleteEntry_context (path : Str) :
    (w.deleteEntry tenant path).context = w.context := rfl

@[simp] theorem putEntry_registry (path : Str) (entry : Collection) :
    (w.putEntry tenant path entry).registries tenant =
      (w.registries tenant).insert path entry := Function.update_self ..

@[simp] theorem deleteEntry_registry (path : Str) :
    (w.deleteEntry tenant path).registries tenant = (w.registries tenant).erase path :=
  Function.update_self ..

theorem putEntry_other {tenant' : Int} (h : tenant' ≠ tenant) (path : Str)
    (entry : Collection) : (w.putEntry tenant path entry).registries tenant' =
      w.registries tenant' := Function.update_of_ne h ..

theorem deleteEntry_other {tenant' : Int} (h : tenant' ≠ tenant) (path : Str) :
    (w.deleteEntry tenant path).registries tenant' = w.registries tenant' :=
  Function.update_of_ne h ..

theorem putEntry_deleteEntry {path : Str} (h : path ∉ w.registries tenant)
    (entry : Collection) : (w.putEntry tenant path entry).deleteEntry tenant path = w := by
  have herase : ((w.registries tenant).insert path entry).erase path = w.registries tenant := by
    refine Finmap.ext_lookup fun k => ?_
    by_cases hk : k = path
    · rw [hk, Finmap.lookup_erase, Finmap.lookup_eq_none.2 h]
    · rw [Finmap.lookup_erase_ne hk, Finmap.lookup_insert_of_ne _ hk]
  simp only [World.deleteEntry, World.putEntry, Function.update_self, herase,
    Function.update_idem, Function.update_eq_self]

theorem setCells_eq (writes : List (Cell × Bool)) :
    w.setCells tenant writes = { w with
      realms := Function.update w.realms tenant
        { w.realms tenant with allowed := applyWrites (w.realms tenant).allowed writes } } := by
  induction writes generalizing w with
  | nil => simp [World.setCells, applyWrites]
  | cons write writes ih =>
    rw [World.setCells, List.foldl_cons]
    change (w.setCell tenant write.1 write.2).setCells tenant writes = _
    rw [ih]
    simp [World.setCell, UserRealm.setCell, applyWrites]

@[simp] theorem setCells_registries (writes : List (Cell × Bool)) :
    (w.setCells tenant writes).registries = w.registries := by rw [setCells_eq]

@[simp] theorem setCells_context (writes : List (Cell × Bool)) :
    (w.setCells tenant writes).context = w.context := by rw [setCells_eq]

@[simp] theorem setCells_broker (writes : List (Cell × Bool)) :
    (w.setCells tenant writes).broker = w.broker := by rw [setCells_eq]

@[simp] theorem setCells_roleListOfUser (writes : List (Cell × Bool)) (tenant' : Int) :
    ((w.setCells tenant writes).realms tenant').roleListOfUser =
      (w.realms tenant').roleListOfUser := by
  rw [setCells_eq]
  by_cases h : tenant' = tenant
  · subst h; simp
  · simp [Function.update_of_ne h]

@[simp] theorem setCells_existingRole (writes : List (Cell × Bool)) (tenant' : Int) :
    ((w.setCells tenant writes).realms tenant').existingRole =
      (w.realms tenant').existingRole := by
  rw [setCells_eq]
  by_cases h : tenant' = tenant
  · subst h; simp
  · simp [Function.update_of_ne h]

@[simp] theorem setCells_roleNames (writes : List (Cell × Bool)) (tenant' : Int) :
    ((w.setCells tenant writes).realms tenant').roleNames = (w.realms tenant').roleNames := by
  rw [setCells_eq]
  by_cases h : tenant' = tenant
  · subst h; simp
  · simp [Function.update_of_ne h]

theorem setCells_append (writes writes' : List (Cell × Bool)) :
    (w.setCells tenant writes).setCells tenant writes' =
      w.setCells tenant (writes ++ writes') := List.foldl_append.symm

theorem foldl_setCells {α : Type} (writes : α → List (Cell × Bool)) (l : List α) :
    l.foldl (fun w a => w.setCells tenant (writes a)) w = w.setCells tenant (l.flatMap writes) := by
  induction l generalizing w with
  | nil => rfl
  | cons a l ih => rw [List.foldl_cons, ih, setCells_append, List.flatMap_cons]

@[simp] theorem setCells_allowed (writes : List (Cell × Bool)) (cell : Cell) :
    ((w.setCells tenant writes).realms tenant).allowed cell =
      (lastWrite cell writes).getD ((w.realms tenant).allowed cell) := by
  rw [setCells_eq]
  simp [applyWrites_apply]

end

section
variable {α : Type} {I : World β → Prop}

theorem holds_throwIfNull {σ : Type} {P : σ → Prop} {E : JavaException → σ → Prop}
    (a : Option α) (h : ∀ e s, P s → E e s) :
    Holds P (throwIfNull a) (fun b s => a = some b ∧ P s) E := by
  cases a with
  | none => exact holds_raise (h _)
  | some a => exact holds_pure fun _ hs => ⟨rfl, hs⟩

theorem keeps_throwIfNull {σ : Type} {I : σ → Prop} (a : Option α) :
    Keeps I (throwIfNull a : Prog JavaException σ α) := by
  cases a with
  | none => exact keeps_raise _
  | some a => exact keeps_pure a

theorem holds_getTenantId {ρ σ : Type} {P : σ → Prop} {E : JavaException → σ → Prop}
    (realmService : RealmService ρ) (domainName : Str) (h : ∀ e s, P s → E e s) :
    Holds P (realmService.getTenantId domainName)
      (fun tenantID s => (∃ tenantManager, realmService.tenantManager = some tenantManager ∧
        tenantID = tenantManager domainName) ∧ P s) E := by
  refine holds_bind (holds_throwIfNull _ h) fun tenantManager => holds_of_fact fun hmanager => ?_
  exact holds_query h fun s hs => ⟨⟨tenantManager, hmanager, rfl⟩, hs⟩

theorem keeps_registryDelete (tenant : Int) (path : Str)
    (h : ∀ w, I w → I (w.deleteEntry tenant path)) : Keeps I (registryDelete tenant path) := by
  refine holds_call (fun _ _ hs => hs) fun w hw => ?_
  cases (w.registries tenant).lookup path with
  | none => exact hw
  | some entry => exact h w hw

theorem holds_invoke {P : World β → Prop} {Q : α → World β → Prop}
    {E : JavaException → World β → Prop} {x : EStateM JavaException β α}
    (hok : ∀ w a b, P w → x w.broker = .ok a b → Q a { w with broker := b })
    (herror : ∀ w e b, P w → x w.broker = .error e b → E e { w with broker := b }) :
    Holds P (invoke x) Q E := by
  intro site hs
  unfold invoke
  cases hx : x site.state.broker with
  | ok a b => exact hok _ a b hs hx
  | error e b => exact herror _ e b hs hx

theorem keeps_invoke (h : ∀ w b, I w → I { w with broker := b })
    (x : EStateM JavaException β α) : Keeps I (invoke x) :=
  holds_invoke (fun w _ b hs _ => h w b hs) fun w _ b hs _ => h w b hs

end

end CarbonMessaging
