import CarbonMessaging.AdminListings
import CarbonMessaging.FilteredLists
import CarbonMessaging.MessageContent

/-! Browsing a queue. The queue manager reads the fields of the messages of a page, the admin
service copies them one by one into what it returns. -/

namespace CarbonMessaging

open JavaLang FailingFilters MessageContent

/-- What the header accessors of a JMS message answer; of the destination its text is read. -/
structure JmsHeaders where
  jmsMessageID : Option Text
  jmsCorrelationID : Option Text
  jmsType : Option Text
  jmsRedelivered : Bool
  jmsDeliveryMode : Int
  jmsPriority : Int
  jmsTimestamp : Int
  jmsExpiration : Int
  jmsDestination : Option Text

structure JmsMessage where
  body : MessageContent.Message
  properties : Except JavaException (Option (List (Text × Except JavaException (Option Text))))
  headers : Except JavaException JmsHeaders

/-- The fields of both classes `Message`, of the queue manager's and of the admin service's. -/
structure BrowsedMessage where
  msgProperties : Option Text
  contentType : Option Text
  messageContent : Option (Text × Text)
  jmsMessageId : Option Text
  jmsCorrelationId : Option Text
  jmsType : Option Text
  jmsReDelivered : Option Bool
  jmsDeliveredMode : Option Int
  jmsPriority : Option Int
  jmsTimeStamp : Option Int
  jmsExpiration : Option Int
  dlcMsgDestination : Option Text
  deriving DecidableEq

def BrowsedMessage.new : BrowsedMessage :=
  ⟨none, none, none, none, none, none, none, none, none, none, none, none⟩

namespace AndesCore

/-- The loop over the property names; a null reads as `null` in the concatenation. -/
def appendProperties : List (Text × Except JavaException (Option Text)) → (sb : Text) →
    Except JavaException Text
  | [], sb => .ok sb
  | (propName, getStringProperty) :: rest, sb => do
    let value ← getStringProperty
    appendProperties rest
      (sb ++ propName ++ units " = ".toList ++ value.getD (units "null".toList) ++
        units ", ".toList)

def getMsgProperties (queueMessage : JmsMessage) : Except JavaException Text := do
  match ← queueMessage.properties with
  | some propertiesEnu => appendProperties propertiesEnu []
  | none => pure []

def getMsgContentType (queueMessage : JmsMessage) : Text :=
  match queueMessage.body with
  | .text _ => units "Text".toList
  | .object => units "Object".toList
  | .map _ => units "Map".toList
  | .stream _ _ => units "Stream".toList
  | .bytes _ => units "Byte".toList
  | .other => []

/-- The parts of a string between the occurrences of a separator, taken from the left. `skip`
units of the occurrence found last are still to be dropped. -/
def partsFrom (separator : Text) : (skip : Nat) → (part : Text) → Text → List Text
  | _, part, [] => [part]
  | skip + 1, part, _ :: s => partsFrom separator skip part s
  | 0, part, u :: s =>
    if separator.isPrefixOf (u :: s) then part :: partsFrom separator (separator.length - 1) [] s
    else partsFrom separator 0 (part ++ [u]) s

def splitAt (separator s : Text) : List Text :=
  (partsFrom separator 0 [] s).rdropWhile List.isEmpty

def ROUTING_KEY : Text := units "routingkey=".toList

def dlcMsgDestination (destination : Option Text) : Except JavaException (Option Text) :=
  match destination with
  | none => .ok none
  | some destination =>
    if ROUTING_KEY <:+: destination then
      let word := splitAt ROUTING_KEY destination
      if word.length > 0 then (arrayGet word 1).map some else .ok none
    else .ok none

variable (escapeHtml : Text → Text)

def readMessage (queueMessage : JmsMessage) : Except JavaException BrowsedMessage := do
  let msgProperties ← getMsgProperties queueMessage
  let messageContent ← Utils.getMessageContentAsString escapeHtml queueMessage.body
  let headers ← queueMessage.headers
  let dlcMsgDestination ← dlcMsgDestination headers.jmsDestination
  pure {
    msgProperties := msgProperties
    contentType := getMsgContentType queueMessage
    messageContent := messageContent
    jmsMessageId := headers.jmsMessageID
    jmsCorrelationId := headers.jmsCorrelationID
    jmsType := headers.jmsType
    jmsReDelivered := headers.jmsRedelivered
    jmsDeliveredMode := headers.jmsDeliveryMode
    jmsPriority := headers.jmsPriority
    jmsTimeStamp := headers.jmsTimestamp
    jmsExpiration := headers.jmsExpiration
    dlcMsgDestination := dlcMsgDestination }

/-- What the broker's client does: connecting, browsing and listing the messages, and closing. -/
structure QueueBrowser where
  list : Except JavaException (List JmsMessage)
  close : Except JavaException Unit
  messageBatchSizeForBrowserSubscriptions : Int

/-- The exceptions with `catch` clauses of their own. -/
def browsingFailures : List Str :=
  ["javax.naming.NamingException".toList, "javax.jms.JMSException".toList,
    "java.io.FileNotFoundException".toList, "javax.xml.stream.XMLStreamException".toList]

def unableToBrowse (e : JavaException) : JavaException :=
  if browsingFailures.any fun failure => e.kind = .other failure then
    ⟨.queueManager, some ("Unable to browsing queue. ".toList ++ e.messageText)⟩
  else e

def QueueManagerServiceImpl.browseQueue (browser : QueueBrowser) (startingIndex maxMsgCount : Int) :
    Except JavaException (List BrowsedMessage) :=
  let messageList := Except.mapError unableToBrowse do
    let msgArrayList ← browser.list
    if startingIndex < browser.messageBatchSizeForBrowserSubscriptions then
      let filteredMsgArray ← getFilteredMsgsList msgArrayList startingIndex maxMsgCount
      (filteredMsgArray.filterMap id).mapM (readMessage escapeHtml)
    else .error ⟨.queueManager, some ("Please increase the ".toList ++
      "messageBatchSizeForBrowserSubscriptions in andes-config.xml".toList)⟩
  match browser.close with
  | .ok () => messageList
  | .error _ => .error ⟨.queueManager, some "Unable to browsing queue.".toList⟩

end AndesCore

namespace AndesAdmin

def messageDTO (message : BrowsedMessage) : BrowsedMessage :=
  let dto := BrowsedMessage.new
  let dto := { dto with msgProperties := message.msgProperties }
  let dto := { dto with contentType := message.contentType }
  let dto := { dto with messageContent := message.messageContent }
  let dto := { dto with jmsMessageId := message.jmsMessageId }
  let dto := { dto with jmsCorrelationId := message.jmsCorrelationId }
  let dto := { dto with jmsType := message.jmsType }
  let dto := { dto with jmsReDelivered := message.jmsReDelivered }
  let dto := { dto with jmsDeliveredMode := message.jmsDeliveredMode }
  let dto := { dto with msgProperties := message.msgProperties }
  let dto := { dto with jmsTimeStamp := message.jmsTimeStamp }
  let dto := { dto with jmsExpiration := message.jmsExpiration }
  { dto with dlcMsgDestination := message.dlcMsgDestination }

def AndesAdminService.browseQueue (messages : Except JavaException (List BrowsedMessage)) :
    Except JavaException (List BrowsedMessage) :=
  Except.mapError (fun e =>
    adminException ("Unable to browse queue. ".toList ++ e.messageText) .queueManager e) do
    pure ((← messages).map messageDTO)

end AndesAdmin

namespace BrowsedMessages

open AndesCore AndesAdmin

variable {escapeHtml : Text → Text} {browser : QueueBrowser} {messages : List JmsMessage}
  {start maxMsgCount : Int}

def page (messages : List JmsMessage) (start maxMsgCount : Int) : List JmsMessage :=
  (messages.drop start.toNat).take maxMsgCount.toNat

def browse (escapeHtml : Text → Text) (browser : QueueBrowser) (start maxMsgCount : Int) :
    Except JavaException (List BrowsedMessage) :=
  AndesAdminService.browseQueue
    (QueueManagerServiceImpl.browseQueue escapeHtml browser start maxMsgCount)

/-- One element for each message of the page, with all fields as the queue manager read them. -/
def Unaltered (escapeHtml : Text → Text) (browser : QueueBrowser) (messages : List JmsMessage)
    (start maxMsgCount : Int) : Prop :=
  ∃ dtos, browse escapeHtml browser start maxMsgCount = .ok dtos ∧
    List.Forall₂ (fun message dto => readMessage escapeHtml message = .ok dto)
      (page messages start maxMsgCount) dtos

theorem messageDTO_eq (message : BrowsedMessage) :
    messageDTO message = { message with jmsPriority := none } := rfl

theorem priority_of_readMessage {message : JmsMessage} {read : BrowsedMessage}
    (h : readMessage escapeHtml message = .ok read) : read.jmsPriority ≠ none := by
  obtain ⟨msgProperties, -, h⟩ := ok_of_bind h
  obtain ⟨content, -, h⟩ := ok_of_bind h
  obtain ⟨headers, -, h⟩ := ok_of_bind h
  obtain ⟨destination, -, h⟩ := ok_of_bind h
  cases h
  exact Option.some_ne_none _

theorem adminBrowse_ok_iff {answer : Except JavaException (List BrowsedMessage)}
    {dtos : List BrowsedMessage} : AndesAdminService.browseQueue answer = .ok dtos ↔
      ∃ read, answer = .ok read ∧ dtos = read.map fun m => { m with jmsPriority := none } := by
  have hcopy : messageDTO = fun m => { m with jmsPriority := none } := funext messageDTO_eq
  cases answer with
  | error e => simp [AndesAdminService.browseQueue, Except.mapError, bind, Except.bind]
  | ok read =>
    rw [AndesAdminService.browseQueue, hcopy]
    simp [Except.mapError, bind, Except.bind, pure, Except.pure, eq_comm]

/-- Whatever the queue manager answers, it has cut out a page. -/
theorem coreBrowse_page {read : List BrowsedMessage}
    (h : QueueManagerServiceImpl.browseQueue escapeHtml browser start maxMsgCount = .ok read) :
    ∃ messages filtered, browser.list = .ok messages ∧
      getFilteredMsgsList messages start maxMsgCount = .ok filtered ∧
      (filtered.filterMap id).mapM (readMessage escapeHtml) = .ok read := by
  rw [QueueManagerServiceImpl.browseQueue] at h
  split at h
  · obtain ⟨messages, hmessages, h⟩ := ok_of_bind (mapError_eq_ok.1 h)
    split at h
    · obtain ⟨filtered, hfiltered, hread⟩ := ok_of_bind h
      exact ⟨messages, filtered, hmessages, hfiltered, hread⟩
    · cases h
  · cases h

theorem browse_forall₂ (hlist : browser.list = .ok messages)
    (hstart : 0 ≤ start ∧ start < messages.length) (hmax : 0 < maxMsgCount)
    {dtos : List BrowsedMessage} (h : browse escapeHtml browser start maxMsgCount = .ok dtos) :
    List.Forall₂ (fun message dto => ∃ read, readMessage escapeHtml message = .ok read ∧
      dto = { read with jmsPriority := none }) (page messages start maxMsgCount) dtos := by
  obtain ⟨read, hread, rfl⟩ := adminBrowse_ok_iff.1 h
  obtain ⟨messages', filtered, hmessages, hfiltered, hmapM⟩ := coreBrowse_page hread
  obtain rfl := Except.ok.inj (hlist.symm.trans hmessages)
  obtain ⟨index, rfl⟩ := Int.eq_ofNat_of_zero_le hstart.1
  obtain ⟨max, rfl⟩ := Int.eq_ofNat_of_zero_le hmax.le
  have hpage := @pageOf_eq _ _ id index max messages (by omega) (by omega)
  obtain rfl := Except.ok.inj (hpage.symm.trans hfiltered)
  have hkept : ((page messages index max).map (some ∘ id)).filterMap id =
      page messages index max := by simp [List.filterMap_map]
  change (((page messages index max).map (some ∘ id)).filterMap id).mapM _ = _ at hmapM
  rw [hkept] at hmapM
  rw [List.forall₂_map_right_iff]
  exact (forall₂_of_mapM hmapM).imp fun _ _ hm => ⟨_, hm, rfl⟩

/-- No page that starts inside the queue arrives unaltered. -/
theorem not_unaltered (escapeHtml : Text → Text) (browser : QueueBrowser)
    (messages : List JmsMessage) (hlist : browser.list = .ok messages) (start maxMsgCount : Int)
    (hstart : 0 ≤ start ∧ start < messages.length) :
    ¬Unaltered escapeHtml browser messages start maxMsgCount := by
  rintro ⟨dtos, hbrowse, hpage⟩
  obtain ⟨read, hread, rfl⟩ := adminBrowse_ok_iff.1 hbrowse
  obtain ⟨index, rfl⟩ := Int.eq_ofNat_of_zero_le hstart.1
  have hindex : index < messages.length := by omega
  rcases le_or_gt maxMsgCount 0 with hmax | hmax
  · obtain ⟨messages', filtered, hmessages, hfiltered, -⟩ := coreBrowse_page hread
    obtain rfl := Except.ok.inj (hlist.symm.trans hmessages)
    obtain ⟨e, he⟩ := @pageOf_nonpos _ _ id index messages hindex maxMsgCount hmax
    rw [getFilteredMsgsList, he] at hfiltered
    cases hfiltered
  · obtain ⟨message, rest, hfirst⟩ := List.exists_cons_of_length_pos
      (by rw [page, List.length_take, List.length_drop]; omega :
        0 < (page messages index maxMsgCount).length)
    rw [hfirst] at hpage
    -- the element for the first message has no priority
    obtain ⟨dto, dtos, hdto, -, hcons⟩ := List.forall₂_cons_left_iff.1 hpage
    have hmem : dto ∈ read.map fun m => { m with jmsPriority := none } := by simp [hcons]
    obtain ⟨m, -, rfl⟩ := List.mem_map.1 hmem
    exact priority_of_readMessage hdto rfl

def plainMessage : JmsMessage where
  body := .text (.ok (some []))
  properties := .ok none
  headers := .ok ⟨none, none, none, false, 2, 4, 0, 0, none⟩

def plainBrowser : QueueBrowser := ⟨.ok [plainMessage], .ok (), 100000⟩

theorem not_unaltered_plain :
    ¬Unaltered StringEscapeUtils.escapeHtml plainBrowser [plainMessage] 0 10 :=
  not_unaltered _ plainBrowser [plainMessage] rfl 0 10 (by decide)

theorem priority_lost :
    (QueueManagerServiceImpl.browseQueue StringEscapeUtils.escapeHtml plainBrowser 0 10).map
        (List.map BrowsedMessage.jmsPriority) = .ok [some 4] ∧
      (browse StringEscapeUtils.escapeHtml plainBrowser 0 10).map
        (List.map BrowsedMessage.jmsPriority) = .ok [none] := by
  decide

end BrowsedMessages

end CarbonMessaging
