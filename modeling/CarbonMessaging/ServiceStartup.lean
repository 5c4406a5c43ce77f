import CarbonMessaging.BrokerService
import CarbonMessaging.ConditionalRuns

/-! `QpidServiceComponent`: how the broker is started, its service published and announced. The
component is activated and deactivated any number of times. In between, and between the statements
of an activation, references are bound, the files change and the published service is called. A
component whose activation throws is given up by its container, without being deactivated. -/

namespace CarbonMessaging.ServiceStartup

open JavaLang BrokerPorts BrokerService ConditionalRuns

/-- `QpidServiceDataHolder`; of the services it matters whether they are there. -/
structure DataHolder where
  accessKey : Option Str
  carbonConfiguration : Bool
  cassandraServerService : Bool
  eventBundleNotificationService : Bool

/-- The options `-p`, `-s`, `-o` and `-q`. -/
structure Arguments where
  port : Str
  sslPort : Str
  cassandraConnectionPort : Int
  mqttPort : Str
  deriving DecidableEq

structure QpidServerDetails where
  accessKey : Option Str
  clientID : Str
  virtualHostName : Str
  hostName : Str
  port : Str
  sslOnly : Bool
  deriving DecidableEq

inductive Effect where
  | startServer (id : Nat)
  | main (id : Nat) (args : Arguments)
  | connected (id : Nat) (port : Int)
  | registerService (id : Nat)
  | notifyStart (id : Nat) (details : QpidServerDetails)
  | unregister (id : Nat)
  | removeRegistry

/-- The statement that an activation comes to; `pending` is an error that the `finally` clause is
run under. -/
inductive Stage where
  | externalRequired
  | startServer
  | isCassandraStarted (count : Nat)
  | main
  | removeShutdownHook
  | isBrokerRunning
  | choosePort
  | connect (port : Int)
  | registerService (pending : Bool)
  | notifyStart (pending : Bool)

/-- The component: not active, in an activation of the service that it has made, or active with
the registration that it keeps. -/
inductive Phase where
  | inactive
  | activating (id : Nat) (stage : Stage)
  | active (qpidService : Option Nat)

structure State where
  holder : DataHolder
  files : Files
  isClusteringEnabled : Bool
  phase : Phase
  services : Nat → Option QpidService
  created : Nat
  registered : List Nat
  effects : List Effect

inductive Outcome where
  | success
  | failure
  | exception
  | error
  deriving DecidableEq

inductive Binding where
  | setAccessKey (accessKey : Option Str)
  | unsetAccessKey
  | setServerConfiguration
  | unsetServerConfiguration
  | setEventBundleNotificationService
  | setCassandraServerService
  | setConfigurationContextService (clusteringAgent : Bool)

inductive Event where
  | bind (binding : Binding)
  | edit (files : Files)
  | call (id : Nat) (getter : Getter)
  | activate (localHostname : Option Str)
  | next (outcome : Outcome)
  | deactivate

def State.enter (s : State) (id : Nat) (stage : Stage) : State :=
  { s with phase := .activating id stage }

def State.giveUp (s : State) : State := { s with phase := .inactive, isClusteringEnabled := false }

def State.record (s : State) (effect : Effect) : State := { s with effects := effect :: s.effects }

def State.store (s : State) (id : Nat) (service : QpidService) : State :=
  { s with services := Function.update s.services id (some service) }

def State.bind (s : State) : Binding → State
  | .setAccessKey accessKey => { s with holder := { s.holder with accessKey } }
  | .unsetAccessKey => { s with holder := { s.holder with accessKey := none } }
  | .setServerConfiguration => { s with holder := { s.holder with carbonConfiguration := true } }
  | .unsetServerConfiguration => { s with holder := { s.holder with carbonConfiguration := false } }
  | .setEventBundleNotificationService =>
    { s with holder := { s.holder with eventBundleNotificationService := true } }
  | .setCassandraServerService =>
    { s with holder := { s.holder with cassandraServerService := true } }
  | .setConfigurationContextService clusteringAgent =>
    { s with isClusteringEnabled := clusteringAgent }

def State.activate (s : State) (localHostname : Option Str) : State :=
  if s.registered ≠ [] then { s with phase := .active none }
  else if s.holder.carbonConfiguration then
    let qpidServiceImpl := QpidService.new s.holder.accessKey localHostname s.files
    { (s.store s.created (qpidServiceImpl.setClusterEnabled s.isClusteringEnabled)).enter s.created
        .externalRequired with created := s.created + 1 }
  else s.giveUp

def CASSANDRA_THRIFT_PORT : Int := 9160

def isPort (port : Int) : Prop := 0 ≤ port ∧ port ≤ 65535

instance (port : Int) : Decidable (isPort port) := inferInstanceAs (Decidable (_ ∧ _))

def cassandraListenPort (files : Files) : Int :=
  wrapInt (CASSANDRA_THRIFT_PORT + QpidServiceImpl.readPortOffset files.toConfiguration)

def brokerPort (service : QpidService) (sslOnly : Bool) : Str :=
  if sslOnly then service.sslPort else service.port

def arguments (service : QpidService) (cassandraConnectionPort : Int) : Arguments :=
  ⟨service.port, service.sslPort, cassandraConnectionPort, service.mqttPort⟩

def qpidServerDetails (service : QpidService) (sslOnly : Bool) : QpidServerDetails :=
  ⟨service.accessKey, CARBON_CLIENT_ID, CARBON_VIRTUAL_HOST_NAME, service.hostname,
    brokerPort service sslOnly, sslOnly⟩

def State.advance (s : State) (id : Nat) (service : QpidService) (outcome : Outcome) :
    Stage → Option State
  | .externalRequired =>
    if s.holder.cassandraServerService then
      let required := service.isExternalCassandraServerRequired s.files
      some ((s.store id required.2).enter id (if required.1 then .main else .startServer))
    else some s.giveUp
  | .startServer =>
    match outcome with
    | .success => some ((s.record (.startServer id)).enter id (.isCassandraStarted 0))
    | .failure => none
    | .exception | .error => some (s.record (.startServer id)).giveUp
  | .isCassandraStarted count =>
    if isPort (cassandraListenPort s.files) then
      match outcome with
      | .success => some (s.enter id .main)
      -- ten waits of half a minute, and the broker is started all the same
      | .failure =>
        some (s.enter id (if 10 < count + 1 then .main else .isCassandraStarted (count + 1)))
      | .exception | .error => some s.giveUp
    else some s.giveUp
  | .main =>
    let cassandraConnectionPort := service.getCassandraConnectionPort s.files
    let s := s.store id cassandraConnectionPort.2
    match cassandraConnectionPort.1 with
    | .error _ => some (s.enter id (.registerService false))
    | .ok port =>
      let s := s.record (.main id (arguments service port))
      match outcome with
      | .success => some (s.enter id .removeShutdownHook)
      | .failure => none
      | .exception => some (s.enter id (.registerService false))
      | .error => some (s.enter id (.registerService true))
  | .removeShutdownHook =>
    match outcome with
    | .success => some (s.enter id .isBrokerRunning)
    | .failure => none
    | .exception => some (s.enter id (.registerService false))
    | .error => some (s.enter id (.registerService true))
  | .isBrokerRunning =>
    match outcome with
    | .success => some (s.enter id .choosePort)
    | .failure => some s
    | .exception => some (s.enter id (.registerService false))
    | .error => some (s.enter id (.registerService true))
  | .choosePort =>
    let sslOnly := service.getIfSSLOnly s.files
    let s := s.store id sslOnly.2
    match sslOnly.1 with
    | .error _ => some (s.enter id (.registerService false))
    | .ok sslOnly =>
      match parseInt (brokerPort service sslOnly) with
      | none => some (s.enter id (.registerService false))
      | some port => some (s.enter id (.connect port))
  | .connect port =>
    match outcome with
    | .success =>
      if isPort port then some ((s.record (.connected id port)).enter id (.registerService false))
      else some (s.enter id (.registerService false))
    | .failure => some s
    | .exception => some (s.enter id (.registerService false))
    | .error => some (s.enter id (.registerService true))
  | .registerService pending =>
    match outcome with
    | .success =>
      some ({ s.record (.registerService id) with registered := id :: s.registered }.enter id
        (.notifyStart pending))
    | .failure => none
    | .exception | .error => some s.giveUp
  | .notifyStart pending =>
    let sslOnly := service.getIfSSLOnly s.files
    let s := s.store id sslOnly.2
    match sslOnly.1 with
    | .error _ => some s.giveUp
    | .ok sslOnly =>
      if s.holder.eventBundleNotificationService then
        let s := s.record (.notifyStart id (qpidServerDetails service sslOnly))
        match outcome with
        | .success => some (if pending then s.giveUp else { s with phase := .active (some id) })
        | .failure => none
        | .exception | .error => some s.giveUp
      else some s.giveUp

/-- The registration is taken back where the component still has it, and the broker is shut down. -/
def State.deactivate (s : State) (qpidService : Option Nat) : State :=
  let s :=
    match qpidService with
    | some id =>
      if id ∈ s.registered then
        { s.record (.unregister id) with registered := s.registered.erase id }
      else s
    | none => s
  (s.record .removeRegistry).giveUp

def step (s : State) : Event → Option State
  | .bind binding => some (s.bind binding)
  | .edit files => some { s with files }
  | .call id getter =>
    if id ∈ s.registered then
      (s.services id).map fun service => s.store id (getter.call service s.files).2
    else none
  | .activate localHostname =>
    match s.phase with
    | .inactive => some (s.activate localHostname)
    | _ => none
  | .next outcome =>
    match s.phase with
    | .activating id stage =>
      (s.services id).bind fun service => s.advance id service outcome stage
    | _ => none
  | .deactivate =>
    match s.phase with
    | .active qpidService => some (s.deactivate qpidService)
    | _ => none

def start (holder : DataHolder) (files : Files) : State where
  holder := holder
  files := files
  isClusteringEnabled := false
  phase := .inactive
  services := fun _ => none
  created := 0
  registered := []
  effects := []

def ChosenPort (services : Nat → Option QpidService) (id : Nat) (port : Int) : Prop :=
  ∃ service sslOnly, services id = some service ∧ service.sslOnly = some sslOnly ∧
    parseInt (brokerPort service sslOnly) = some port

/-- The broker is given the service's ports, and the port that is tried is the one of its mode. A
service is registered once, and announced once and behind that, with its own details. -/
def Justified (services : Nat → Option QpidService) : Effect → List Effect → Prop
  | .main id args, _ =>
    ∃ service, services id = some service ∧ args = arguments service args.cassandraConnectionPort
  | .connected id port, _ => ChosenPort services id port
  | .registerService id, earlier => .registerService id ∉ earlier
  | .notifyStart id details, earlier =>
    (∃ service, services id = some service ∧ service.sslOnly = some details.sslOnly ∧
      details = qpidServerDetails service details.sslOnly) ∧
    .registerService id ∈ earlier ∧ ∀ others, .notifyStart id others ∉ earlier
  | .startServer _, _ | .unregister _, _ | .removeRegistry, _ => True

def Sound (services : Nat → Option QpidService) : List Effect → Prop
  | [] => True
  | effect :: earlier => Justified services effect earlier ∧ Sound services earlier

def Effect.id : Effect → Option Nat
  | .startServer id | .main id _ | .connected id _ | .registerService id | .notifyStart id _
  | .unregister id => some id
  | .removeRegistry => none

def LaterAll (services services' : Nat → Option QpidService) : Prop :=
  ∀ id service, services id = some service →
    ∃ later, services' id = some later ∧ Later service later

variable {s t : State} {id : Nat} {service : QpidService}
  {services services' : Nat → Option QpidService}

theorem laterAll_update (h : services id = some service) {later : QpidService}
    (hlater : Later service later) :
    LaterAll services (Function.update services id (some later)) := by
  intro other earlier hearlier
  by_cases hother : other = id
  · subst hother
    rw [h] at hearlier
    cases hearlier
    exact ⟨later, Function.update_self .., hlater⟩
  · exact ⟨earlier, by rw [Function.update_of_ne hother, hearlier], Later.refl _⟩

theorem laterAll_new (h : services id = none) :
    LaterAll services (Function.update services id (some service)) := by
  intro other earlier hearlier
  have hother : other ≠ id := by
    rintro rfl
    cases h.symm.trans hearlier
  exact ⟨earlier, by rw [Function.update_of_ne hother, hearlier], Later.refl _⟩

theorem brokerPort_later {later : QpidService} (h : Later service later) (sslOnly : Bool) :
    brokerPort later sslOnly = brokerPort service sslOnly := by
  rw [brokerPort, brokerPort, h.port, h.sslPort]

theorem arguments_later {later : QpidService} (h : Later service later) (port : Int) :
    arguments later port = arguments service port := by
  rw [arguments, arguments, h.port, h.sslPort, h.mqttPort]

theorem qpidServerDetails_later {later : QpidService} (h : Later service later) (sslOnly : Bool) :
    qpidServerDetails later sslOnly = qpidServerDetails service sslOnly := by
  rw [qpidServerDetails, qpidServerDetails, h.accessKey, h.hostname, brokerPort_later h]

theorem ChosenPort.mono {port : Int} (h : ChosenPort services id port)
    (hlater : LaterAll services services') : ChosenPort services' id port := by
  obtain ⟨service, sslOnly, hservice, hset, hport⟩ := h
  obtain ⟨later, hnew, hl⟩ := hlater id service hservice
  exact ⟨later, sslOnly, hnew, hl.sslOnly _ hset, by rw [brokerPort_later hl, hport]⟩

theorem Justified.mono {effect : Effect} {earlier : List Effect}
    (h : Justified services effect earlier) (hlater : LaterAll services services') :
    Justified services' effect earlier := by
  cases effect with
  | main id args =>
    obtain ⟨service, hservice, hargs⟩ := h
    obtain ⟨later, hnew, hl⟩ := hlater id service hservice
    exact ⟨later, hnew, by rw [arguments_later hl, ← hargs]⟩
  | connected id port => exact ChosenPort.mono h hlater
  | notifyStart id details =>
    obtain ⟨⟨service, hservice, hset, hdetails⟩, horder⟩ := h
    obtain ⟨later, hnew, hl⟩ := hlater id service hservice
    exact ⟨⟨later, hnew, hl.sslOnly _ hset, by rw [qpidServerDetails_later hl, ← hdetails]⟩, horder⟩
  | _ => exact h

theorem Sound.mono {effects : List Effect} (h : Sound services effects)
    (hlater : LaterAll services services') : Sound services' effects := by
  induction effects with
  | nil => trivial
  | cons effect earlier ih => exact ⟨h.1.mono hlater, ih h.2⟩

variable {effects : List Effect} {registered : List Nat} {created : Nat}

structure Orderly (services : Nat → Option QpidService) (effects : List Effect) (created : Nat) :
    Prop where
  sound : Sound services effects
  made : ∀ effect ∈ effects, ∀ id, effect.id = some id → id < created
  unmade : ∀ id, created ≤ id → services id = none

structure Unpublished (effects : List Effect) (registered : List Nat) (id : Nat) : Prop where
  not_registered : .registerService id ∉ effects
  not_announced : ∀ details, .notifyStart id details ∉ effects
  none_registered : registered = []

structure Published (effects : List Effect) (registered : List Nat) (id : Nat) : Prop where
  is_registered : .registerService id ∈ effects
  not_announced : ∀ details, .notifyStart id details ∉ effects
  one_registered : registered = [id]

def InPhase (services : Nat → Option QpidService) (effects : List Effect)
    (registered : List Nat) : Phase → Prop
  | .inactive => registered.length ≤ 1
  | .activating id (.connect port) =>
    Unpublished effects registered id ∧ ChosenPort services id port
  | .activating id (.notifyStart _) => Published effects registered id
  | .activating id _ => Unpublished effects registered id
  | .active (some id) => registered = [id] ∧ .registerService id ∈ effects
  | .active none => registered.length ≤ 1

def Inv (s : State) : Prop :=
  Orderly s.services s.effects s.created ∧ InPhase s.services s.effects s.registered s.phase

theorem Orderly.update (h : Orderly services effects created)
    (hservice : services id = some service) {later : QpidService} (hlater : Later service later) :
    Orderly (Function.update services id (some later)) effects created where
  sound := h.sound.mono (laterAll_update hservice hlater)
  made := h.made
  unmade other hother := by
    have hne : other ≠ id := by
      rintro rfl
      cases (h.unmade _ hother).symm.trans hservice
    rw [Function.update_of_ne hne, h.unmade other hother]

theorem Orderly.made_of_some (h : Orderly services effects created)
    (hservice : services id = some service) : id < created := by
  by_contra hcreated
  cases (h.unmade id (Nat.le_of_not_lt hcreated)).symm.trans hservice

theorem Orderly.record (h : Orderly services effects created)
    (hservice : services id = some service) (effect : Effect) (hid : effect.id = some id)
    (heffect : Justified services effect effects) :
    Orderly services (effect :: effects) created where
  sound := ⟨heffect, h.sound⟩
  made := by
    refine List.forall_mem_cons.2 ⟨fun other hother => ?_, h.made⟩
    cases hid.symm.trans hother
    exact h.made_of_some hservice
  unmade := h.unmade

theorem Unpublished.record (h : Unpublished effects registered id) (effect : Effect)
    (hregister : effect ≠ .registerService id)
    (hnotify : ∀ details, effect ≠ .notifyStart id details) :
    Unpublished (effect :: effects) registered id where
  not_registered := List.not_mem_cons_of_ne_of_not_mem hregister.symm h.not_registered
  not_announced details :=
    List.not_mem_cons_of_ne_of_not_mem (hnotify details).symm (h.not_announced details)
  none_registered := h.none_registered

theorem Unpublished.giveUp (h : Unpublished effects registered id) : registered.length ≤ 1 := by
  rw [h.none_registered]
  exact Nat.zero_le 1

theorem Published.giveUp (h : Published effects registered id) : registered.length ≤ 1 := by
  rw [h.one_registered]
  exact le_rfl

section
variable {outcome : Outcome} (h : Orderly s.services s.effects s.created)
  (hservice : s.services id = some service)
include h hservice

theorem inv_externalRequired (hphase : Unpublished s.effects s.registered id)
    (hnext : s.advance id service outcome .externalRequired = some t) : Inv t := by
  rw [State.advance] at hnext
  split at hnext <;> cases hnext
  · refine ⟨h.update hservice (later_isExternalCassandraServerRequired service s.files), ?_⟩
    rw [State.enter]
    split <;> exact hphase
  · exact ⟨h, hphase.giveUp⟩

theorem inv_startServer (hphase : Unpublished s.effects s.registered id)
    (hnext : s.advance id service outcome .startServer = some t) : Inv t := by
  have hrecord := h.record hservice (.startServer id) rfl trivial
  have hunpublished := hphase.record (.startServer id) Effect.noConfusion
    fun _ => Effect.noConfusion
  cases outcome with
  | success =>
    cases hnext
    exact ⟨hrecord, hunpublished⟩
  | failure => cases hnext
  | exception | error =>
    cases hnext
    exact ⟨hrecord, hphase.giveUp⟩

omit hservice in
theorem inv_isCassandraStarted (hphase : Unpublished s.effects s.registered id) {count : Nat}
    (hnext : s.advance id service outcome (.isCassandraStarted count) = some t) : Inv t := by
  dsimp only [State.advance] at hnext
  split at hnext
  · cases outcome with
    | success =>
      cases hnext
      exact ⟨h, hphase⟩
    | failure =>
      cases hnext
      refine ⟨h, ?_⟩
      rw [State.enter]
      split <;> exact hphase
    | exception | error =>
      cases hnext
      exact ⟨h, hphase.giveUp⟩
  · cases hnext
    exact ⟨h, hphase.giveUp⟩

theorem inv_main (hphase : Unpublished s.effects s.registered id)
    (hnext : s.advance id service outcome .main = some t) : Inv t := by
  have hlater := later_getCassandraConnectionPort service s.files
  have hstore := h.update hservice hlater
  rw [State.advance] at hnext
  cases hport : (service.getCassandraConnectionPort s.files).1 with
  | error e =>
    rw [hport] at hnext
    cases hnext
    exact ⟨hstore, hphase⟩
  | ok port =>
    rw [hport] at hnext
    have hrecord := hstore.record (Function.update_self ..) (.main id (arguments service port)) rfl
      ⟨_, Function.update_self .., (arguments_later hlater _).symm⟩
    have hunpublished := hphase.record (.main id (arguments service port)) Effect.noConfusion
      fun _ => Effect.noConfusion
    cases outcome <;> cases hnext <;> exact ⟨hrecord, hunpublished⟩

theorem inv_choosePort (hphase : Unpublished s.effects s.registered id)
    (hnext : s.advance id service outcome .choosePort = some t) : Inv t := by
  have hlater := later_getIfSSLOnly service s.files
  have hstore := h.update hservice hlater
  rw [State.advance] at hnext
  cases hmode : (service.getIfSSLOnly s.files).1 with
  | error e =>
    rw [hmode] at hnext
    cases hnext
    exact ⟨hstore, hphase⟩
  | ok sslOnly =>
    rw [hmode] at hnext
    cases hport : parseInt (brokerPort service sslOnly) with
    | none =>
      simp only [hport, Option.some.injEq] at hnext
      subst hnext
      exact ⟨hstore, hphase⟩
    | some port =>
      simp only [hport, Option.some.injEq] at hnext
      subst hnext
      refine ⟨hstore, hphase, _, sslOnly, Function.update_self .., ?_, ?_⟩
      · exact sslOnly_of_getIfSSLOnly hmode
      · rw [brokerPort_later hlater, hport]

theorem inv_connect {port : Int} (hphase : Unpublished s.effects s.registered id)
    (hport : ChosenPort s.services id port)
    (hnext : s.advance id service outcome (.connect port) = some t)
    (hwait : s.phase = .activating id (.connect port)) : Inv t := by
  cases outcome with
  | success =>
    dsimp only [State.advance] at hnext
    split at hnext <;> cases hnext
    · exact ⟨h.record hservice (.connected id port) rfl hport,
        hphase.record (.connected id port) Effect.noConfusion fun _ => Effect.noConfusion⟩
    · exact ⟨h, hphase⟩
  | failure =>
    cases hnext
    refine ⟨h, ?_⟩
    rw [hwait]
    exact ⟨hphase, hport⟩
  | exception | error =>
    cases hnext
    exact ⟨h, hphase⟩

theorem inv_registerService {pending : Bool} (hphase : Unpublished s.effects s.registered id)
    (hnext : s.advance id service outcome (.registerService pending) = some t) : Inv t := by
  cases outcome with
  | success =>
    cases hnext
    refine ⟨h.record hservice (.registerService id) rfl hphase.not_registered, ?_⟩
    have hannounced : ∀ details, .notifyStart id details ∉ .registerService id :: s.effects :=
      fun details =>
        List.not_mem_cons_of_ne_of_not_mem Effect.noConfusion (hphase.not_announced details)
    exact ⟨List.mem_cons_self, hannounced, congrArg (id :: ·) hphase.none_registered⟩
  | failure => cases hnext
  | exception | error =>
    cases hnext
    exact ⟨h, hphase.giveUp⟩

theorem inv_notifyStart {pending : Bool} (hphase : Published s.effects s.registered id)
    (hnext : s.advance id service outcome (.notifyStart pending) = some t) : Inv t := by
  have hlater := later_getIfSSLOnly service s.files
  have hstore := h.update hservice hlater
  dsimp only [State.advance] at hnext
  cases hmode : (service.getIfSSLOnly s.files).1 with
  | error e =>
    rw [hmode] at hnext
    cases hnext
    exact ⟨hstore, hphase.giveUp⟩
  | ok sslOnly =>
    rw [hmode] at hnext
    have hrecord := hstore.record (Function.update_self ..)
      (.notifyStart id (qpidServerDetails service sslOnly)) rfl
      ⟨⟨_, Function.update_self .., sslOnly_of_getIfSSLOnly hmode,
        (qpidServerDetails_later hlater _).symm⟩, hphase.is_registered, hphase.not_announced⟩
    dsimp only at hnext
    split at hnext
    · cases outcome with
      | success =>
        cases hnext
        cases pending with
        | false =>
          exact ⟨hrecord, hphase.one_registered, List.mem_cons_of_mem _ hphase.is_registered⟩
        | true => exact ⟨hrecord, hphase.giveUp⟩
      | failure => cases hnext
      | exception | error =>
        cases hnext
        exact ⟨hrecord, hphase.giveUp⟩
    · cases hnext
      exact ⟨hstore, hphase.giveUp⟩

end

theorem inv_advance {stage : Stage} {outcome : Outcome} (h : Inv s)
    (hphase : s.phase = .activating id stage) (hservice : s.services id = some service)
    (hnext : s.advance id service outcome stage = some t) : Inv t := by
  obtain ⟨horderly, hin⟩ := h
  have hkeep := hin
  rw [hphase] at hin
  cases stage with
  | externalRequired => exact inv_externalRequired horderly hservice hin hnext
  | startServer => exact inv_startServer horderly hservice hin hnext
  | isCassandraStarted count => exact inv_isCassandraStarted horderly hin hnext
  | main => exact inv_main horderly hservice hin hnext
  | removeShutdownHook => cases outcome <;> cases hnext <;> exact ⟨horderly, hin⟩
  | isBrokerRunning =>
    cases outcome with
    | failure =>
      cases hnext
      exact ⟨horderly, hkeep⟩
    | _ =>
      cases hnext
      exact ⟨horderly, hin⟩
  | choosePort => exact inv_choosePort horderly hservice hin hnext
  | connect port => exact inv_connect horderly hservice hin.1 hin.2 hnext hphase
  | registerService pending => exact inv_registerService horderly hservice hin hnext
  | notifyStart pending => exact inv_notifyStart horderly hservice hin hnext

theorem InPhase.update {phase : Phase} (h : InPhase services effects registered phase)
    (hlater : LaterAll services services') : InPhase services' effects registered phase := by
  cases phase with
  | activating id stage =>
    cases stage with
    | connect port => exact ⟨h.1, h.2.mono hlater⟩
    | _ => exact h
  | active qpidService => cases qpidService <;> exact h
  | inactive => exact h

theorem Orderly.create (h : Orderly services effects created) (service : QpidService) :
    Orderly (Function.update services created (some service)) effects (created + 1) where
  sound := h.sound.mono (laterAll_new (h.unmade created le_rfl))
  made effect heffect id hid := Nat.lt_succ_of_lt (h.made effect heffect id hid)
  unmade id hid := by
    rw [Function.update_of_ne (Nat.ne_of_gt hid), h.unmade id (Nat.le_of_succ_le hid)]

theorem inv_activate (h : Inv s) (hphase : s.phase = .inactive) (localHostname : Option Str) :
    Inv (s.activate localHostname) := by
  obtain ⟨horderly, hin⟩ := h
  rw [hphase] at hin
  rw [State.activate]
  split_ifs with hregistered hconfig
  · exact ⟨horderly, hin⟩
  · refine ⟨horderly.create _, ?_, ?_, not_not.1 hregistered⟩
    · exact fun hmem => Nat.lt_irrefl _ (horderly.made _ hmem s.created rfl)
    · exact fun details hmem => Nat.lt_irrefl _ (horderly.made _ hmem s.created rfl)
  · exact ⟨horderly, hin⟩

theorem Orderly.cons (h : Orderly services effects created) {effect : Effect}
    (heffect : Justified services effect effects)
    (hmade : ∀ id, effect.id = some id → id < created) :
    Orderly services (effect :: effects) created where
  sound := ⟨heffect, h.sound⟩
  made := List.forall_mem_cons.2 ⟨hmade, h.made⟩
  unmade := h.unmade

theorem inv_deactivate (h : Inv s) {qpidService : Option Nat}
    (hphase : s.phase = .active qpidService) : Inv (s.deactivate qpidService) := by
  obtain ⟨horderly, hin⟩ := h
  rw [hphase] at hin
  cases qpidService with
  | none => exact ⟨horderly.cons trivial (fun _ hid => by cases hid), hin⟩
  | some id =>
    obtain ⟨hone, hmem⟩ := hin
    have hid : id ∈ s.registered := by
      rw [hone]
      exact List.mem_singleton_self id
    have hrecord : Orderly s.services (.unregister id :: s.effects) s.created := by
      refine horderly.cons trivial fun other hother => ?_
      cases hother
      exact horderly.made _ hmem id rfl
    rw [State.deactivate]
    simp only [hid, ↓reduceIte]
    refine ⟨hrecord.cons trivial (fun _ hid => by cases hid), ?_⟩
    show (s.registered.erase id).length ≤ 1
    rw [hone, List.erase_cons_head]
    exact Nat.zero_le 1

theorem inv_step (h : Inv s) {event : Event} (hstep : step s event = some t) : Inv t := by
  cases event with
  | bind binding =>
    cases hstep
    cases binding <;> exact h
  | edit files =>
    cases hstep
    exact h
  | call id getter =>
    rw [step] at hstep
    split at hstep
    · obtain ⟨service, hservice, rfl⟩ := Option.map_eq_some_iff.1 hstep
      have hlater := later_call getter service s.files
      exact ⟨h.1.update hservice hlater, h.2.update (laterAll_update hservice hlater)⟩
    · cases hstep
  | activate localHostname =>
    rw [step] at hstep
    split at hstep
    · rename_i hphase
      cases hstep
      exact inv_activate h hphase localHostname
    · cases hstep
  | next outcome =>
    rw [step] at hstep
    split at hstep
    · rename_i id stage hphase
      obtain ⟨service, hservice, hnext⟩ := Option.bind_eq_some_iff.1 hstep
      exact inv_advance h hphase hservice hnext
    · cases hstep
  | deactivate =>
    rw [step] at hstep
    split at hstep
    · rename_i qpidService hphase
      cases hstep
      exact inv_deactivate h hphase
    · cases hstep

theorem inv_start (holder : DataHolder) (files : Files) : Inv (start holder files) where
  left := ⟨trivial, fun _ h => absurd h List.not_mem_nil, fun _ _ => rfl⟩
  right := Nat.zero_le 1

abbrev Reaches (s t : State) : Prop := Reached step (fun _ _ => True) s t

theorem inv_reached {holder : DataHolder} {files : Files} (h : Reaches (start holder files) s) :
    Inv s :=
  h.invariant (inv_start holder files) fun _ _ _ hs _ hstep => inv_step hs hstep

theorem Sound.of_append {later earlier : List Effect} (h : Sound services (later ++ earlier)) :
    Sound services earlier := by
  induction later with
  | nil => exact h
  | cons effect later ih => exact ih h.2

theorem Sound.justified {effect : Effect} (h : Sound services effects)
    (heffect : effect ∈ effects) :
    ∃ later earlier, effects = later ++ effect :: earlier ∧ Justified services effect earlier := by
  obtain ⟨later, earlier, rfl⟩ := List.append_of_mem heffect
  exact ⟨later, earlier, rfl, h.of_append.1⟩

/-- Every announcement is of a service that the same activation has registered before, is made
once, and tells what the service itself answers from then on, however the files change. The port is
the one of its mode among those that the broker was started with, and where the activation came to
connect to the broker, it is the port that it connected to. -/
theorem notifyStart_details {holder : DataHolder} {files : Files}
    (h : Reaches (start holder files) s) {details : QpidServerDetails} {later earlier : List Effect}
    (heffects : s.effects = later ++ .notifyStart id details :: earlier) :
    (∃ service, s.services id = some service ∧
      details = qpidServerDetails service details.sslOnly ∧
      ∀ files, (service.getIfSSLOnly files).1 = .ok details.sslOnly) ∧
    .registerService id ∈ earlier ∧
    (∀ others, .notifyStart id others ∉ earlier ∧ .notifyStart id others ∉ later) ∧
    (∀ args, .main id args ∈ s.effects →
      details.port = if details.sslOnly then args.sslPort else args.port) ∧
    ∀ port, .connected id port ∈ s.effects → parseInt details.port = some port := by
  have hsound := (inv_reached h).1.sound
  obtain ⟨⟨service, hservice, hset, hdetails⟩, hregistered, honce⟩ :
      Justified s.services (.notifyStart id details) earlier := by
    rw [heffects] at hsound
    exact hsound.of_append.1
  have hport : details.port = brokerPort service details.sslOnly := by
    rw [hdetails]
    rfl
  refine ⟨⟨service, hservice, hdetails, fun files => ?_⟩, hregistered,
    fun others => ⟨honce others, ?_⟩, fun args hargs => ?_, fun port hconnected => ?_⟩
  · simp [QpidService.getIfSSLOnly, hset]
  · intro hlater
    obtain ⟨last, middle, rfl⟩ := List.append_of_mem hlater
    rw [heffects, List.append_assoc] at hsound
    obtain ⟨-, -, hfirst⟩ := hsound.of_append.1
    exact hfirst details (List.mem_append_right _ List.mem_cons_self)
  · obtain ⟨-, -, -, started, hstarted, hequal⟩ := hsound.justified hargs
    cases hservice.symm.trans hstarted
    rw [hport, hequal]
    rfl
  · obtain ⟨-, -, -, chosen, sslOnly, hchosen, hmode, hnumber⟩ := hsound.justified hconnected
    cases hservice.symm.trans hchosen
    cases hset.symm.trans hmode
    rw [hport, hnumber]

theorem reaches_of_run {events : List Event} (h : run step events s = some t) : Reaches s t := by
  have hall : ∀ (events : List Event) (s : State), AllAllowed step (fun _ _ => True) events s := by
    intro events
    induction events with
    | nil => exact fun _ => trivial
    | cons event events ih => exact fun s => ⟨trivial, fun t _ => ih t⟩
  exact reached_of_run h (hall events s)

def plainFiles : Files where
  portOffset := none
  offset := none
  brokerPort := none
  brokerSSLPort := none
  port := none
  sslport := none
  sslOnly := some "false".toList
  sslStores := none
  externalCassandraServerRequired := none
  externalZookeeperServerRequired := none
  zooKeeperConnection := none
  connectionString := none

def emptyHolder : DataHolder := ⟨none, false, false, false⟩

def plainEvents : List Event :=
  [.bind .setServerConfiguration, .bind .setCassandraServerService,
    .bind .setEventBundleNotificationService, .activate none] ++ List.replicate 9 (.next .success)

theorem notifyStart_details_plain : ∃ s details earlier,
    run step (plainEvents ++ [.next .success]) (start emptyHolder plainFiles) = some s ∧
      s.effects = [] ++ .notifyStart 0 details :: earlier ∧
      .connected 0 5672 ∈ s.effects ∧ parseInt details.port = some 5672 := by
  obtain ⟨s, details, args, hrun, heffects⟩ : ∃ s details args,
      run step (plainEvents ++ [.next .success]) (start emptyHolder plainFiles) = some s ∧
      s.effects = [] ++ .notifyStart 0 details ::
        [.registerService 0, .connected 0 5672, .main 0 args, .startServer 0] :=
    ⟨_, _, _, rfl, rfl⟩
  have hconnected : .connected 0 5672 ∈ s.effects := by
    simp [heffects]
  obtain ⟨-, -, -, -, hport⟩ := notifyStart_details (reaches_of_run hrun) heffects
  exact ⟨s, details, _, hrun, heffects, hconnected, hport 5672 hconnected⟩

/-- The service is registered, and the component does not know of it. -/
def LeftBehind (s : State) (id : Nat) : Prop :=
  s.registered = [id] ∧ (s.phase = .inactive ∨ s.phase = .active none)

theorem leftBehind_step (h : LeftBehind s id) {event : Event} (hstep : step s event = some t) :
    LeftBehind t id ∧ ∃ n, t.effects = List.replicate n .removeRegistry ++ s.effects := by
  obtain ⟨hregistered, hphase⟩ := h
  cases event with
  | bind binding =>
    cases hstep
    cases binding <;> exact ⟨⟨hregistered, hphase⟩, 0, rfl⟩
  | edit files =>
    cases hstep
    exact ⟨⟨hregistered, hphase⟩, 0, rfl⟩
  | call other getter =>
    rw [step] at hstep
    split at hstep
    · obtain ⟨service, -, rfl⟩ := Option.map_eq_some_iff.1 hstep
      exact ⟨⟨hregistered, hphase⟩, 0, rfl⟩
    · cases hstep
  | activate localHostname =>
    rw [step] at hstep
    split at hstep
    · cases hstep
      have hne : s.registered ≠ [] := by
        rw [hregistered]
        exact List.cons_ne_nil _ _
      rw [State.activate, if_pos hne]
      exact ⟨⟨hregistered, .inr rfl⟩, 0, rfl⟩
    · cases hstep
  | next outcome => rcases hphase with hphase | hphase <;> simp [step, hphase] at hstep
  | deactivate =>
    rcases hphase with hphase | hphase
    · simp [step, hphase] at hstep
    · simp only [step, hphase, Option.some.injEq] at hstep
      subst hstep
      exact ⟨⟨hregistered, .inl rfl⟩, 1, rfl⟩

theorem leftBehind_reached (h : LeftBehind s id) (hrun : Reaches s t) :
    LeftBehind t id ∧ ∃ n, t.effects = List.replicate n .removeRegistry ++ s.effects := by
  induction hrun with
  | refl => exact ⟨h, 0, rfl⟩
  | next _ _ hstep ih =>
    obtain ⟨hleft, m, hm⟩ := ih
    obtain ⟨hleft', n, hn⟩ := leftBehind_step hleft hstep
    refine ⟨hleft', n + m, ?_⟩
    rw [hn, hm, ← List.append_assoc, List.replicate_append_replicate]

theorem active_step (hphase : s.phase = .active (some id)) (hregistered : s.registered = [id])
    {event : Event} (hevent : event ≠ .deactivate) (hstep : step s event = some t) :
    t.phase = .active (some id) ∧ t.registered = [id] := by
  cases event with
  | bind binding =>
    cases hstep
    cases binding <;> exact ⟨hphase, hregistered⟩
  | edit files =>
    cases hstep
    exact ⟨hphase, hregistered⟩
  | call other getter =>
    rw [step] at hstep
    split at hstep
    · obtain ⟨service, -, rfl⟩ := Option.map_eq_some_iff.1 hstep
      exact ⟨hphase, hregistered⟩
    · cases hstep
  | activate localHostname => simp [step, hphase] at hstep
  | next outcome => simp [step, hphase] at hstep
  | deactivate => exact absurd rfl hevent

theorem active_reached (hphase : s.phase = .active (some id)) (hregistered : s.registered = [id])
    (hrun : Reached step (fun _ event => event ≠ .deactivate) s t) :
    t.phase = .active (some id) ∧ t.registered = [id] :=
  hrun.invariant (I := fun t => t.phase = .active (some id) ∧ t.registered = [id])
    ⟨hphase, hregistered⟩ fun _ _ _ h hevent hstep => active_step h.1 h.2 hevent hstep

theorem deactivate_takes_back (hphase : s.phase = .active (some id))
    (hregistered : s.registered = [id]) :
    ∃ t, step s .deactivate = some t ∧ t.registered = [] ∧
      t.effects = .removeRegistry :: .unregister id :: s.effects := by
  refine ⟨s.deactivate (some id), by rw [step, hphase], ?_⟩
  simp [State.deactivate, State.record, State.giveUp, hregistered]

/-- The announcement comes to its end, and with it the activation. -/
def EndsNormally (s : State) (service : QpidService) (pending : Bool) (outcome : Outcome) : Prop :=
  (∃ sslOnly, (service.getIfSSLOnly s.files).1 = .ok sslOnly) ∧
    s.holder.eventBundleNotificationService = true ∧ outcome = .success ∧ pending = false

theorem phase_of_endsNormally {pending : Bool} {outcome : Outcome}
    (hends : EndsNormally s service pending outcome)
    (hnext : s.advance id service outcome (.notifyStart pending) = some t) :
    t.phase = .active (some id) := by
  obtain ⟨⟨sslOnly, hmode⟩, hbound, rfl, rfl⟩ := hends
  simp only [State.advance, hmode, State.store, hbound, ↓reduceIte, Bool.false_eq_true,
    Option.some.injEq] at hnext
  rw [← hnext]

theorem phase_of_not_endsNormally {pending : Bool} {outcome : Outcome}
    (hends : ¬EndsNormally s service pending outcome)
    (hnext : s.advance id service outcome (.notifyStart pending) = some t) :
    t.phase = .inactive ∧ t.registered = s.registered := by
  dsimp only [State.advance] at hnext
  cases hmode : (service.getIfSSLOnly s.files).1 with
  | error e =>
    rw [hmode] at hnext
    cases hnext
    exact ⟨rfl, rfl⟩
  | ok sslOnly =>
    rw [hmode] at hnext
    dsimp only at hnext
    split at hnext
    · rename_i hbound
      cases outcome with
      | success =>
        cases hnext
        cases pending with
        | false => exact absurd ⟨⟨sslOnly, hmode⟩, hbound, rfl, rfl⟩ hends
        | true => exact ⟨rfl, rfl⟩
      | failure => cases hnext
      | exception | error =>
        cases hnext
        exact ⟨rfl, rfl⟩
    · cases hnext
      exact ⟨rfl, rfl⟩

/-- The last statement of an activation decides what becomes of the service that it has registered.
If the activation ends normally, the service stays registered until the component is deactivated,
and the deactivation takes it back. If not, the service stays registered in every later run, in
which no other one is ever started, registered or announced. -/
theorem registered_after_notifyStart {holder : DataHolder} {files : Files}
    (h : Reaches (start holder files) s) {pending : Bool} {outcome : Outcome}
    (hphase : s.phase = .activating id (.notifyStart pending))
    (hservice : s.services id = some service) (hstep : step s (.next outcome) = some t) :
    (EndsNormally s service pending outcome →
      ∀ u, Reached step (fun _ event => event ≠ .deactivate) t u →
        u.registered = [id] ∧ ∃ v, step u .deactivate = some v ∧ v.registered = [] ∧
          v.effects = .removeRegistry :: .unregister id :: u.effects) ∧
    (¬EndsNormally s service pending outcome → ∀ u, Reaches t u →
      u.registered = [id] ∧ ∃ n, u.effects = List.replicate n .removeRegistry ++ t.effects) := by
  have hnext : s.advance id service outcome (.notifyStart pending) = some t := by
    simpa only [step, hphase, hservice, Option.bind_some] using hstep
  constructor
  · intro hends u hrun
    have hactive := phase_of_endsNormally hends hnext
    have hone : t.registered = [id] := by
      have hin := (inv_step (inv_reached h) hstep).2
      rw [hactive] at hin
      exact hin.1
    obtain ⟨hactive', hone'⟩ := active_reached hactive hone hrun
    exact ⟨hone', deactivate_takes_back hactive' hone'⟩
  · intro hends u hrun
    have hone : s.registered = [id] := by
      have hin := (inv_reached h).2
      rw [hphase] at hin
      exact hin.one_registered
    obtain ⟨hinactive, hkept⟩ := phase_of_not_endsNormally hends hnext
    obtain ⟨hleft, heffects⟩ := leftBehind_reached ⟨hkept.trans hone, .inl hinactive⟩ hrun
    exact ⟨hleft.1, heffects⟩

theorem registered_after_notifyStart_plain : ∃ s t₁ t₂,
    run step plainEvents (start emptyHolder plainFiles) = some s ∧
      step s (.next .exception) = some t₁ ∧ (∀ u, Reaches t₁ u → u.registered = [0]) ∧
      step s (.next .success) = some t₂ ∧
      ∃ u v, step t₂ (.edit { plainFiles with sslOnly := some "true".toList }) = some u ∧
        step u .deactivate = some v ∧ v.registered = [] := by
  obtain ⟨s, service, t₁, t₂, u, hrun, hphase, hservice, hfails, hpasses, hedit, hends⟩ :
      ∃ s service t₁ t₂ u, run step plainEvents (start emptyHolder plainFiles) = some s ∧
        s.phase = .activating 0 (.notifyStart false) ∧ s.services 0 = some service ∧
        step s (.next .exception) = some t₁ ∧ step s (.next .success) = some t₂ ∧
        step t₂ (.edit { plainFiles with sslOnly := some "true".toList }) = some u ∧
        EndsNormally s service false .success :=
    ⟨_, _, _, _, _, rfl, rfl, rfl, rfl, rfl, rfl, ⟨_, rfl⟩, rfl, rfl, rfl⟩
  have hthrows : ¬EndsNormally s service false .exception := by
    rintro ⟨-, -, houtcome, -⟩
    cases houtcome
  obtain ⟨-, hbehind⟩ :=
    registered_after_notifyStart (reaches_of_run hrun) hphase hservice hfails
  obtain ⟨htaken, -⟩ :=
    registered_after_notifyStart (reaches_of_run hrun) hphase hservice hpasses
  obtain ⟨-, v, hdeactivate, hnone, -⟩ :=
    htaken hends u (.next .refl Event.noConfusion hedit)
  exact ⟨s, t₁, t₂, hrun, hfails, fun u hreached => (hbehind hthrows u hreached).1, hpasses, u, v,
    hedit, hdeactivate, hnone⟩

end CarbonMessaging.ServiceStartup
