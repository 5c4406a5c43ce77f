import CarbonMessaging.CarbonPlatform

/-! The port of the broker, computed three times: by `QpidServiceImpl` for the broker itself, and
for the connection URLs by the `Utils` of the andes core and the `UIUtils` of the console. Only the
first one reads the configured ports, and the second one does not know of the system property. -/

namespace CarbonMessaging.BrokerPorts

open JavaLang

structure SslStores where
  keystorePath : Str
  keystorePassword : Str
  truststorePath : Str
  truststorePassword : Str

/-- The system property `portOffset`, the values of `carbon.xml` and the elements of
`andes-config.xml` below `connector`; what is absent is `none`. -/
structure Configuration where
  portOffset : Option Str
  offset : Option Str
  brokerPort : Option Str
  brokerSSLPort : Option Str
  port : Option Str
  sslport : Option Str
  sslOnly : Option Str
  sslStores : Option SslStores

def readOffset (portOffset : Option Str) : Int :=
  match portOffset with
  | some text => (parseInt (trim text)).getD 0
  | none => 0

namespace QpidServiceImpl

def CARBON_DEFAULT_PORT : Str := "5672".toList
def CARBON_DEFAULT_SSL_PORT : Str := "8672".toList

def readPortOffset (config : Configuration) : Int := readOffset (config.portOffset.or config.offset)

def trimmed (setting : Option Str) : Str := (setting.map trim).getD []

/-- The port of `carbon.xml` overrides the one of `andes-config.xml`. -/
def configuredPort (carbonPort qpidPort : Option Str) (defaultPort : Str) : Str :=
  if trimmed carbonPort ≠ [] then trimmed carbonPort
  else if trimmed qpidPort ≠ [] then trimmed qpidPort
  else defaultPort

/-- A port that is no number gives way to the default, without the offset. -/
def portFromConfig (portOffset : Int) (carbonPort qpidPort : Option Str) (defaultPort : Str) :
    Str :=
  match parseInt (configuredPort carbonPort qpidPort defaultPort) with
  | some port => intToString (wrapInt (port + portOffset))
  | none => defaultPort

def readPortFromConfig (config : Configuration) : Str :=
  portFromConfig (readPortOffset config) config.brokerPort config.port CARBON_DEFAULT_PORT

def readSSLPortFromConfig (config : Configuration) : Str :=
  portFromConfig (readPortOffset config) config.brokerSSLPort config.sslport
    CARBON_DEFAULT_SSL_PORT

def getPort (config : Configuration) : Str := readPortFromConfig config

def getSSLPort (config : Configuration) : Str := readSSLPortFromConfig config

end QpidServiceImpl

structure TCPConnectionURL where
  userName : Str
  accessKey : Str
  port : Str
  ssl : Option SslStores

def TCPConnectionURL.text (url : TCPConnectionURL) : Str :=
  "amqp://".toList ++ url.userName ++ ":".toList ++ url.accessKey ++
    "@carbon/carbon?brokerlist='tcp://localhost:".toList ++ url.port ++
      match url.ssl with
      | some stores =>
        "?ssl='true'&trust_store='".toList ++ stores.truststorePath ++
          "'&trust_store_password='".toList ++ stores.truststorePassword ++
          "'&key_store='".toList ++ stores.keystorePath ++
          "'&key_store_password='".toList ++ stores.keystorePassword ++ "''".toList
      | none => "'".toList

def isSSLOnly (config : Configuration) : Except JavaException Bool :=
  match config.sslOnly with
  | some text => .ok (equalsIgnoreCase text "true".toList)
  | none => .error nullPointerException

def connectionURL (portOffset : Int) (config : Configuration) (userName accessKey : Str) :
    Except JavaException TCPConnectionURL :=
  let port := intToString (wrapInt (5672 + portOffset))
  let sslPort := intToString (wrapInt (8672 + portOffset))
  match config.sslStores with
  | some stores =>
    (isSSLOnly config).map fun sslOnly =>
      if sslOnly then ⟨userName, accessKey, sslPort, some stores⟩
      else ⟨userName, accessKey, port, none⟩
  | none => .error nullPointerException

namespace Utils

def getPortOffset (config : Configuration) : Int := readOffset config.offset

def getTCPConnectionURL (config : Configuration) :
    Str → Str → Except JavaException TCPConnectionURL :=
  connectionURL (getPortOffset config) config

end Utils

namespace UIUtils

def getPortOffset (config : Configuration) : Int :=
  readOffset (config.portOffset.or config.offset)

def getTCPConnectionURL (config : Configuration) :
    Str → Str → Except JavaException TCPConnectionURL :=
  connectionURL (getPortOffset config) config

end UIUtils

def brokerPort (config : Configuration) (sslOnly : Bool) : Str :=
  if sslOnly then QpidServiceImpl.getSSLPort config else QpidServiceImpl.getPort config

/-- Every URL that either function builds has the broker's port. -/
def Reachable (config : Configuration) : Prop :=
  ∀ userName accessKey, ∀ sslOnly, isSSLOnly config = .ok sslOnly → ∀ url,
    (Utils.getTCPConnectionURL config userName accessKey = .ok url →
      url.port = brokerPort config sslOnly) ∧
    (UIUtils.getTCPConnectionURL config userName accessKey = .ok url →
      url.port = brokerPort config sslOnly)

def configured (config : Configuration) (sslOnly : Bool) : Str :=
  if sslOnly then QpidServiceImpl.configuredPort config.brokerSSLPort config.sslport
    QpidServiceImpl.CARBON_DEFAULT_SSL_PORT
  else QpidServiceImpl.configuredPort config.brokerPort config.port
    QpidServiceImpl.CARBON_DEFAULT_PORT

def defaultPort (sslOnly : Bool) : Int := if sslOnly then 8672 else 5672

/-- The system property changes nothing. The configured port is the default one, or it is no number
and the offset is 0. -/
structure Plain (config : Configuration) (sslOnly : Bool) : Prop where
  offset : ∀ text ∈ config.portOffset, readOffset (some text) = readOffset config.offset
  port : ∀ port ∈ parseInt (configured config sslOnly), port = defaultPort sslOnly
  unreadable : parseInt (configured config sslOnly) = none →
    readOffset (config.portOffset.or config.offset) = 0

theorem readOffset_bounds (portOffset : Option Str) :
    -2 ^ 31 ≤ readOffset portOffset ∧ readOffset portOffset < 2 ^ 31 := by
  cases portOffset with
  | none => decide
  | some text =>
    rw [readOffset]
    cases hparse : parseInt (trim text) with
    | none => decide
    | some n => exact parseInt_bounds hparse

def offsetPort (port portOffset : Int) : Str := intToString (wrapInt (port + portOffset))

theorem offsetPort_inj_left {portOffset m n : Int} (hm : -2 ^ 31 ≤ m ∧ m < 2 ^ 31)
    (hn : -2 ^ 31 ≤ n ∧ n < 2 ^ 31) :
    offsetPort m portOffset = offsetPort n portOffset ↔ m = n := by
  rw [offsetPort, offsetPort, intToString_inj (wrapInt_bounds _) (wrapInt_bounds _),
    wrapInt_add_inj hm hn]

theorem offsetPort_inj_right {port m n : Int} (hm : -2 ^ 31 ≤ m ∧ m < 2 ^ 31)
    (hn : -2 ^ 31 ≤ n ∧ n < 2 ^ 31) : offsetPort port m = offsetPort port n ↔ m = n := by
  rw [offsetPort, offsetPort, Int.add_comm port, Int.add_comm port,
    intToString_inj (wrapInt_bounds _) (wrapInt_bounds _), wrapInt_add_inj hm hn]

theorem defaultPort_bounds (sslOnly : Bool) :
    -2 ^ 31 ≤ defaultPort sslOnly ∧ defaultPort sslOnly < 2 ^ 31 := by
  cases sslOnly <;> decide

variable {config : Configuration} {sslOnly : Bool}

theorem offsetPort_zero :
    offsetPort (defaultPort sslOnly) 0 = intToString (defaultPort sslOnly) := by
  rw [offsetPort, Int.add_zero, wrapInt_of_bounds (defaultPort_bounds sslOnly)]

theorem brokerPort_eq (config : Configuration) (sslOnly : Bool) : brokerPort config sslOnly =
    match parseInt (configured config sslOnly) with
    | some port => offsetPort port (readOffset (config.portOffset.or config.offset))
    | none => intToString (defaultPort sslOnly) := by
  cases sslOnly <;> rfl

theorem offsetPort_eq_brokerPort_iff :
    offsetPort (defaultPort sslOnly) (readOffset (config.portOffset.or config.offset)) =
      brokerPort config sslOnly ↔
      (∀ port ∈ parseInt (configured config sslOnly), port = defaultPort sslOnly) ∧
        (parseInt (configured config sslOnly) = none →
          readOffset (config.portOffset.or config.offset) = 0) := by
  rw [brokerPort_eq]
  cases hparse : parseInt (configured config sslOnly) with
  | some port =>
    rw [offsetPort_inj_left (defaultPort_bounds sslOnly) (parseInt_bounds hparse)]
    simp [eq_comm]
  | none =>
    rw [← offsetPort_zero, offsetPort_inj_right (readOffset_bounds _) (by decide)]
    simp

theorem connectionURL_port (portOffset : Int) (userName accessKey : Str) {stores : SslStores}
    (hmode : isSSLOnly config = .ok sslOnly) (hstores : config.sslStores = some stores) :
    ∃ url, connectionURL portOffset config userName accessKey = .ok url ∧
      url.port = offsetPort (defaultPort sslOnly) portOffset := by
  rw [connectionURL, hstores, hmode]
  cases sslOnly <;> exact ⟨_, rfl, rfl⟩

theorem connectionURL_of_none (portOffset : Int) (userName accessKey : Str)
    (hstores : config.sslStores = none) :
    connectionURL portOffset config userName accessKey = .error nullPointerException := by
  rw [connectionURL, hstores]

theorem coreOffset_iff :
    readOffset config.offset = readOffset (config.portOffset.or config.offset) ↔
      ∀ text ∈ config.portOffset, readOffset (some text) = readOffset config.offset := by
  cases config.portOffset with
  | none => simp
  | some text => simp [eq_comm]

/-- The URLs have the broker's port just when no URL is built or the settings are plain. -/
theorem reachable_iff (config : Configuration) : Reachable config ↔
    ∀ sslOnly, isSSLOnly config = .ok sslOnly → config.sslStores ≠ none → Plain config sslOnly := by
  constructor
  · intro h sslOnly hmode hbuilt
    obtain ⟨stores, hstores⟩ := Option.ne_none_iff_exists'.1 hbuilt
    obtain ⟨core, hcore, hcoreport⟩ :=
      connectionURL_port (Utils.getPortOffset config) [] [] hmode hstores
    obtain ⟨ui, hui, huiport⟩ :=
      connectionURL_port (UIUtils.getPortOffset config) [] [] hmode hstores
    have hsame := (h [] [] sslOnly hmode ui).2 hui
    have hother := (h [] [] sslOnly hmode core).1 hcore
    have hplain := offsetPort_eq_brokerPort_iff.1 (huiport.symm.trans hsame)
    have hoffsets := hcoreport.symm.trans (hother.trans (hsame.symm.trans huiport))
    rw [Utils.getPortOffset, UIUtils.getPortOffset,
      offsetPort_inj_right (readOffset_bounds _) (readOffset_bounds _)] at hoffsets
    exact ⟨coreOffset_iff.1 hoffsets, hplain.1, hplain.2⟩
  · intro h userName accessKey sslOnly hmode url
    cases hstores : config.sslStores with
    | none =>
      refine ⟨fun hcore => ?_, fun hui => ?_⟩
      · cases (connectionURL_of_none _ _ _ hstores).symm.trans hcore
      · cases (connectionURL_of_none _ _ _ hstores).symm.trans hui
    | some stores =>
      have hplain := h sslOnly hmode (by rw [hstores]; exact Option.some_ne_none _)
      have hbroker := offsetPort_eq_brokerPort_iff.2 ⟨hplain.port, hplain.unreadable⟩
      refine ⟨fun hcore => ?_, fun hui => ?_⟩
      · obtain ⟨built, hbuilt, hport⟩ :=
          connectionURL_port (Utils.getPortOffset config) userName accessKey hmode hstores
        cases hbuilt.symm.trans hcore
        rw [hport, Utils.getPortOffset, coreOffset_iff.2 hplain.offset, hbroker]
      · obtain ⟨built, hbuilt, hport⟩ :=
          connectionURL_port (UIUtils.getPortOffset config) userName accessKey hmode hstores
        cases hbuilt.symm.trans hui
        rw [hport, UIUtils.getPortOffset, hbroker]

def ownPort : Configuration where
  portOffset := none
  offset := some "0".toList
  brokerPort := some "5673".toList
  brokerSSLPort := none
  port := some "5672".toList
  sslport := some "8672".toList
  sslOnly := some "false".toList
  sslStores := some ⟨[], [], [], []⟩

theorem not_reachable_ownPort : ¬Reachable ownPort := by
  intro h
  have hport := (h [] [] false (by decide) ⟨[], [], "5672".toList, none⟩).1 rfl
  revert hport
  decide

end CarbonMessaging.BrokerPorts
