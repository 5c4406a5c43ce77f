import CarbonMessaging.BrokerPorts

/-! `QpidServiceImpl` as an object. Its constructor reads the ports; the other settings are read
when they are first asked for, and kept. Between two calls the files may change. -/

namespace CarbonMessaging.BrokerService

open JavaLang BrokerPorts

/-- The configuration at one moment: besides what the ports come from, the texts of the elements
below `clustering` and the connection string of the virtual host; what is absent, with its file or
within it, is `none`. -/
structure Files extends Configuration where
  externalCassandraServerRequired : Option Str
  externalZookeeperServerRequired : Option Str
  zooKeeperConnection : Option Str
  connectionString : Option Str

structure QpidService where
  accessKey : Option Str
  hostname : Str
  port : Str
  sslPort : Str
  mqttPort : Str
  portOffset : Int
  clusterEnabled : Option Bool
  cassandraConnection : Option Str
  zkConnection : Option Str
  externalCassandraRequired : Option Bool
  externalZookeeperRequired : Option Bool
  sslOnly : Option Bool

def CARBON_CLIENT_ID : Str := "carbon".toList
def CARBON_VIRTUAL_HOST_NAME : Str := "carbon".toList
def CARBON_DEFAULT_HOSTNAME : Str := "localhost".toList
def CARBON_DEFAULT_MQTT_PORT : Str := "1883".toList

def readMQTTPortFromConfig (config : Configuration) : Str :=
  QpidServiceImpl.portFromConfig (QpidServiceImpl.readPortOffset config) none none
    CARBON_DEFAULT_MQTT_PORT

/-- The constructor; `localHostname` is `none` where `NetworkUtils` throws. -/
def QpidService.new (accessKey localHostname : Option Str) (files : Files) : QpidService where
  accessKey := accessKey
  hostname := localHostname.getD CARBON_DEFAULT_HOSTNAME
  port := QpidServiceImpl.getPort files.toConfiguration
  sslPort := QpidServiceImpl.getSSLPort files.toConfiguration
  mqttPort := readMQTTPortFromConfig files.toConfiguration
  portOffset := QpidServiceImpl.readPortOffset files.toConfiguration
  clusterEnabled := none
  cassandraConnection := none
  zkConnection := none
  externalCassandraRequired := none
  externalZookeeperRequired := none
  sslOnly := none

def QpidService.setClusterEnabled (service : QpidService) (isClusterEnabled : Bool) : QpidService :=
  { service with clusterEnabled := some isClusterEnabled }

/-- A file that cannot be read leaves the status unset, and the call ends in unboxing null. -/
def QpidService.getIfSSLOnly (service : QpidService) (files : Files) :
    Except JavaException Bool × QpidService :=
  let sslOnly := service.sslOnly.or
    (files.sslOnly.map fun text => equalsIgnoreCase text "true".toList)
  (match sslOnly with
    | some sslOnly => .ok sslOnly
    | none => .error nullPointerException,
    { service with sslOnly })

/-- `"true".equals(required)`, which is kept even of a file that cannot be read. -/
def isRequired (required : Option Str) : Bool := required = some "true".toList

def QpidService.isExternalCassandraServerRequired (service : QpidService) (files : Files) :
    Bool × QpidService :=
  let required :=
    service.externalCassandraRequired.getD (isRequired files.externalCassandraServerRequired)
  (required, { service with externalCassandraRequired := some required })

def QpidService.isExternalZookeeperServerRequired (service : QpidService) (files : Files) :
    Bool × QpidService :=
  let required :=
    service.externalZookeeperRequired.getD (isRequired files.externalZookeeperServerRequired)
  (required, { service with externalZookeeperRequired := some required })

def QpidService.getCassandraConnectionString (service : QpidService) (files : Files) :
    Str × QpidService :=
  let cassandraConnection := service.cassandraConnection.or files.connectionString
  ((cassandraConnection.map trim).getD [], { service with cassandraConnection })

def QpidService.getZookeeperConnectionString (service : QpidService) (files : Files) :
    Str × QpidService :=
  let zkConnection := service.zkConnection.or files.zooKeeperConnection
  ((zkConnection.map trim).getD [], { service with zkConnection })

def lastIndexOf (c : Char) (s : Str) : Int :=
  match s.reverse.findIdx? (· = c) with
  | some i => (s.length : Int) - 1 - i
  | none => -1

def numberFormatException (s : Str) : JavaException :=
  ⟨.numberFormat, some ("For input string: ".toList ++ Char.ofNat 34 :: s ++ [Char.ofNat 34])⟩

def portOf (connStr : Str) : Except JavaException Int :=
  let index := lastIndexOf ':' connStr
  if 0 < index then
    match parseInt (connStr.drop (index + 1).toNat) with
    | some port => .ok port
    | none => .error (numberFormatException (connStr.drop (index + 1).toNat))
  else .error
    ⟨.runtime, some "The Cassandra connection string does not contain the port".toList⟩

def QpidService.getCassandraConnectionPortFromConfig (service : QpidService) (files : Files) :
    Except JavaException Int × QpidService :=
  let connStr := service.getCassandraConnectionString files
  (portOf connStr.1, connStr.2)

def QpidService.getCassandraConnectionPort (service : QpidService) (files : Files) :
    Except JavaException Int × QpidService :=
  let required := service.isExternalCassandraServerRequired files
  if !required.1 then (.ok (wrapInt (9042 + required.2.portOffset)), required.2)
  else required.2.getCassandraConnectionPortFromConfig files

inductive Getter where
  | getIfSSLOnly
  | isExternalCassandraServerRequired
  | isExternalZookeeperServerRequired
  | getCassandraConnectionString
  | getZookeeperConnectionString
  | getCassandraConnectionPort
  deriving DecidableEq

inductive Answer where
  | status (value : Bool)
  | text (value : Str)
  | number (value : Int)
  | throws (e : JavaException)
  deriving DecidableEq

def answerOf {α : Type} (answer : α → Answer) : Except JavaException α → Answer
  | .ok a => answer a
  | .error e => .throws e

def Getter.call (getter : Getter) (service : QpidService) (files : Files) :
    Answer × QpidService :=
  match getter with
  | .getIfSSLOnly => (service.getIfSSLOnly files).map (answerOf .status) id
  | .isExternalCassandraServerRequired =>
    (service.isExternalCassandraServerRequired files).map .status id
  | .isExternalZookeeperServerRequired =>
    (service.isExternalZookeeperServerRequired files).map .status id
  | .getCassandraConnectionString => (service.getCassandraConnectionString files).map .text id
  | .getZookeeperConnectionString => (service.getZookeeperConnectionString files).map .text id
  | .getCassandraConnectionPort =>
    (service.getCassandraConnectionPort files).map (answerOf .number) id

/-- The answers to a list of calls, each with the files as it finds them. -/
def answers : List (Files × Getter) → QpidService → List (Getter × Answer)
  | [], _ => []
  | (files, getter) :: calls, service =>
    (getter, (getter.call service files).1) :: answers calls (getter.call service files).2

def Kept {α : Type} (earlier later : Option α) : Prop := ∀ a, earlier = some a → later = some a

theorem kept_refl {α : Type} (a : Option α) : Kept a a := fun _ h => h

theorem kept_or {α : Type} (earlier reading : Option α) : Kept earlier (earlier.or reading) := by
  intro a h
  rw [h, Option.some_or]

theorem kept_getD {α : Type} (earlier : Option α) (reading : α) :
    Kept earlier (some (earlier.getD reading)) := by
  intro a h
  rw [h, Option.getD_some]

structure Later (earlier later : QpidService) : Prop where
  accessKey : later.accessKey = earlier.accessKey
  hostname : later.hostname = earlier.hostname
  port : later.port = earlier.port
  sslPort : later.sslPort = earlier.sslPort
  mqttPort : later.mqttPort = earlier.mqttPort
  portOffset : later.portOffset = earlier.portOffset
  clusterEnabled : Kept earlier.clusterEnabled later.clusterEnabled
  cassandraConnection : Kept earlier.cassandraConnection later.cassandraConnection
  zkConnection : Kept earlier.zkConnection later.zkConnection
  externalCassandraRequired :
    Kept earlier.externalCassandraRequired later.externalCassandraRequired
  externalZookeeperRequired :
    Kept earlier.externalZookeeperRequired later.externalZookeeperRequired
  sslOnly : Kept earlier.sslOnly later.sslOnly

variable {earlier later service : QpidService} {files : Files} {getter : Getter}

theorem Later.refl (service : QpidService) : Later service service :=
  ⟨rfl, rfl, rfl, rfl, rfl, rfl, kept_refl _, kept_refl _, kept_refl _, kept_refl _, kept_refl _,
    kept_refl _⟩

theorem Later.trans {last : QpidService} (h : Later earlier later) (h' : Later later last) :
    Later earlier last where
  accessKey := h'.accessKey.trans h.accessKey
  hostname := h'.hostname.trans h.hostname
  port := h'.port.trans h.port
  sslPort := h'.sslPort.trans h.sslPort
  mqttPort := h'.mqttPort.trans h.mqttPort
  portOffset := h'.portOffset.trans h.portOffset
  clusterEnabled a ha := h'.clusterEnabled a (h.clusterEnabled a ha)
  cassandraConnection a ha := h'.cassandraConnection a (h.cassandraConnection a ha)
  zkConnection a ha := h'.zkConnection a (h.zkConnection a ha)
  externalCassandraRequired a ha :=
    h'.externalCassandraRequired a (h.externalCassandraRequired a ha)
  externalZookeeperRequired a ha :=
    h'.externalZookeeperRequired a (h.externalZookeeperRequired a ha)
  sslOnly a ha := h'.sslOnly a (h.sslOnly a ha)

theorem later_getIfSSLOnly (service : QpidService) (files : Files) :
    Later service (service.getIfSSLOnly files).2 :=
  { Later.refl service with sslOnly := kept_or _ _ }

theorem later_isExternalCassandraServerRequired (service : QpidService) (files : Files) :
    Later service (service.isExternalCassandraServerRequired files).2 :=
  { Later.refl service with externalCassandraRequired := kept_getD _ _ }

theorem later_getCassandraConnectionString (service : QpidService) (files : Files) :
    Later service (service.getCassandraConnectionString files).2 :=
  { Later.refl service with cassandraConnection := kept_or _ _ }

theorem later_getCassandraConnectionPort (service : QpidService) (files : Files) :
    Later service (service.getCassandraConnectionPort files).2 := by
  have hrequired := later_isExternalCassandraServerRequired service files
  rw [QpidService.getCassandraConnectionPort]
  split_ifs
  · exact hrequired
  · exact hrequired.trans (later_getCassandraConnectionString _ files)

theorem sslOnly_of_getIfSSLOnly {sslOnly : Bool}
    (h : (service.getIfSSLOnly files).1 = .ok sslOnly) :
    (service.getIfSSLOnly files).2.sslOnly = some sslOnly := by
  simp only [QpidService.getIfSSLOnly] at h ⊢
  split at h
  · rename_i hset
    cases h
    exact hset
  · cases h

theorem later_call (getter : Getter) (service : QpidService) (files : Files) :
    Later service (getter.call service files).2 := by
  cases getter with
  | getIfSSLOnly => exact later_getIfSSLOnly service files
  | isExternalCassandraServerRequired =>
    exact later_isExternalCassandraServerRequired service files
  | isExternalZookeeperServerRequired =>
    exact { Later.refl service with externalZookeeperRequired := kept_getD _ _ }
  | getCassandraConnectionString => exact later_getCassandraConnectionString service files
  | getZookeeperConnectionString =>
    exact { Later.refl service with zkConnection := kept_or _ _ }
  | getCassandraConnectionPort => exact later_getCassandraConnectionPort service files

/-- An answer that was read somewhere: no exception, and not the text for an unread string. -/
def Answer.IsReading (answer : Answer) : Prop := (∀ e, answer ≠ .throws e) ∧ answer ≠ .text []

def Getter.Settled (getter : Getter) (service : QpidService) : Prop :=
  match getter with
  | .getIfSSLOnly => service.sslOnly.isSome
  | .isExternalCassandraServerRequired => service.externalCassandraRequired.isSome
  | .isExternalZookeeperServerRequired => service.externalZookeeperRequired.isSome
  | .getCassandraConnectionString => service.cassandraConnection.isSome
  | .getZookeeperConnectionString => service.zkConnection.isSome
  | .getCassandraConnectionPort => service.externalCassandraRequired = some false ∨
    service.externalCassandraRequired = some true ∧ service.cassandraConnection.isSome

theorem Getter.Settled.mono (h : getter.Settled earlier) (hlater : Later earlier later) :
    getter.Settled later := by
  have hkept : ∀ {α : Type} {a b : Option α}, Kept a b → a.isSome → b.isSome := by
    intro α a b hab ha
    obtain ⟨x, rfl⟩ := Option.isSome_iff_exists.1 ha
    rw [hab x rfl]
    rfl
  cases getter with
  | getIfSSLOnly => exact hkept hlater.sslOnly h
  | isExternalCassandraServerRequired => exact hkept hlater.externalCassandraRequired h
  | isExternalZookeeperServerRequired => exact hkept hlater.externalZookeeperRequired h
  | getCassandraConnectionString => exact hkept hlater.cassandraConnection h
  | getZookeeperConnectionString => exact hkept hlater.zkConnection h
  | getCassandraConnectionPort =>
    cases h with
    | inl hinternal => exact .inl (hlater.externalCassandraRequired _ hinternal)
    | inr hexternal =>
      exact .inr ⟨hlater.externalCassandraRequired _ hexternal.1,
        hkept hlater.cassandraConnection hexternal.2⟩

theorem Getter.Settled.call_eq (h : getter.Settled earlier) (hlater : Later earlier later)
    (files files' : Files) : (getter.call later files').1 = (getter.call earlier files).1 := by
  cases getter with
  | getIfSSLOnly =>
    obtain ⟨sslOnly, hset⟩ := Option.isSome_iff_exists.1 h
    simp [Getter.call, QpidService.getIfSSLOnly, hset, hlater.sslOnly _ hset]
  | isExternalCassandraServerRequired =>
    obtain ⟨required, hset⟩ := Option.isSome_iff_exists.1 h
    simp [Getter.call, QpidService.isExternalCassandraServerRequired, hset,
      hlater.externalCassandraRequired _ hset]
  | isExternalZookeeperServerRequired =>
    obtain ⟨required, hset⟩ := Option.isSome_iff_exists.1 h
    simp [Getter.call, QpidService.isExternalZookeeperServerRequired, hset,
      hlater.externalZookeeperRequired _ hset]
  | getCassandraConnectionString =>
    obtain ⟨connection, hset⟩ := Option.isSome_iff_exists.1 h
    simp [Getter.call, QpidService.getCassandraConnectionString, hset,
      hlater.cassandraConnection _ hset]
  | getZookeeperConnectionString =>
    obtain ⟨connection, hset⟩ := Option.isSome_iff_exists.1 h
    simp [Getter.call, QpidService.getZookeeperConnectionString, hset,
      hlater.zkConnection _ hset]
  | getCassandraConnectionPort =>
    cases h with
    | inl hinternal =>
      simp [Getter.call, QpidService.getCassandraConnectionPort,
        QpidService.isExternalCassandraServerRequired, hinternal,
        hlater.externalCassandraRequired _ hinternal, hlater.portOffset]
    | inr hexternal =>
      obtain ⟨connection, hset⟩ := Option.isSome_iff_exists.1 hexternal.2
      simp [Getter.call, QpidService.getCassandraConnectionPort,
        QpidService.isExternalCassandraServerRequired,
        QpidService.getCassandraConnectionPortFromConfig,
        QpidService.getCassandraConnectionString, hexternal.1, hset,
        hlater.externalCassandraRequired _ hexternal.1, hlater.cassandraConnection _ hset]

/-- A reading sets the fields that it came from, and the same call reads them off again. -/
theorem settled_of_reading (h : (getter.call service files).1.IsReading) :
    getter.Settled (getter.call service files).2 ∧
      (getter.call (getter.call service files).2 files).1 = (getter.call service files).1 := by
  cases getter with
  | getIfSSLOnly =>
    cases hset : service.sslOnly.or
        (files.sslOnly.map fun text => equalsIgnoreCase text "true".toList) with
    | some sslOnly =>
      refine ⟨Option.isSome_iff_exists.2 ⟨sslOnly, hset⟩, ?_⟩
      simp only [Getter.call, QpidService.getIfSSLOnly, hset]
      rfl
    | none =>
      refine absurd ?_ (h.1 nullPointerException)
      simp only [Getter.call, QpidService.getIfSSLOnly, hset]
      rfl
  | isExternalCassandraServerRequired | isExternalZookeeperServerRequired => exact ⟨rfl, rfl⟩
  | getCassandraConnectionString =>
    cases hset : service.cassandraConnection.or files.connectionString with
    | some connection =>
      simp [Getter.Settled, Getter.call, QpidService.getCassandraConnectionString, hset]
    | none =>
      refine absurd ?_ h.2
      simp [Getter.call, QpidService.getCassandraConnectionString, hset]
  | getZookeeperConnectionString =>
    cases hset : service.zkConnection.or files.zooKeeperConnection with
    | some connection =>
      simp [Getter.Settled, Getter.call, QpidService.getZookeeperConnectionString, hset]
    | none =>
      refine absurd ?_ h.2
      simp [Getter.call, QpidService.getZookeeperConnectionString, hset]
  | getCassandraConnectionPort =>
    cases hrequired : service.externalCassandraRequired.getD
        (isRequired files.externalCassandraServerRequired) with
    | false =>
      simp [Getter.Settled, Getter.call, QpidService.getCassandraConnectionPort,
        QpidService.isExternalCassandraServerRequired, hrequired]
    | true =>
      cases hset : service.cassandraConnection.or files.connectionString with
      | some connection =>
        simp [Getter.Settled, Getter.call, QpidService.getCassandraConnectionPort,
          QpidService.isExternalCassandraServerRequired,
          QpidService.getCassandraConnectionPortFromConfig,
          QpidService.getCassandraConnectionString, hrequired, hset]
      | none =>
        refine absurd ?_ (h.1 ⟨.runtime,
          some "The Cassandra connection string does not contain the port".toList⟩)
        simp only [Getter.call, QpidService.getCassandraConnectionPort,
          QpidService.isExternalCassandraServerRequired,
          QpidService.getCassandraConnectionPortFromConfig,
          QpidService.getCassandraConnectionString, hrequired, hset]
        rfl

theorem answers_settled {calls : List (Files × Getter)} (h : getter.Settled service)
    {answer : Answer} (hanswer : (getter, answer) ∈ answers calls service) (files : Files) :
    answer = (getter.call service files).1 := by
  induction calls generalizing service with
  | nil => cases hanswer
  | cons call calls ih =>
    have hlater := later_call call.2 service call.1
    cases hanswer with
    | head => exact h.call_eq (Later.refl _) files call.1
    | tail _ hrest => exact (ih (h.mono hlater) hrest).trans (h.call_eq hlater files files)

/-- Whatever is called in whatever order, and however the files change in between: once a getter
has given a reading it never answers anything else. -/
theorem answers_pairwise (service : QpidService) (calls : List (Files × Getter)) :
    (answers calls service).Pairwise fun earlier later =>
      later.1 = earlier.1 → earlier.2.IsReading → later.2 = earlier.2 := by
  induction calls generalizing service with
  | nil => exact .nil
  | cons call calls ih =>
    refine .cons ?_ (ih _)
    rintro ⟨getter, answer⟩ hanswer rfl hreading
    obtain ⟨hsettled, hagain⟩ := settled_of_reading hreading
    exact (answers_settled hsettled hanswer call.1).trans hagain

end CarbonMessaging.BrokerService
