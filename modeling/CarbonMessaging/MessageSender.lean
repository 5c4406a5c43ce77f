import CarbonMessaging.BrokerPorts
import CarbonMessaging.ConsoleOutcome

/-! Sending messages from the console: the checks of `queue_message_sender.jsp`, the admin service,
and the loop of `QueueManagerServiceImpl`, any call of which may raise. -/

namespace CarbonMessaging.MessageSender

open JavaLang FaultyCalls BrokerPorts ConsoleOutcome

structure Message where
  queue : Str
  jmsType : Option Str
  jmsCorrelationID : Option Str
  text : Str
  deliveryMode : Int
  priority : Int
  expireTime : Int
  deriving DecidableEq

/-- The fields of the service, of which it matters whether they are null, and the messages that have
come to the queues. -/
structure State where
  queueConnection : Option TCPConnectionURL
  queueSession : Bool
  queueSender : Bool
  delivered : List Message

structure Order where
  nameOfQueue : Option Str
  jmsType : Option Str
  jmsCorrelationID : Option Str
  numberOfMessages : Int
  message : Option Str
  deliveryMode : Int
  priority : Int
  expireTime : Int

def unableToSend : Str := "Unable to send message. ".toList

-- `QueueManagerServiceImpl`

/-- The exceptions that are caught; one of a subclass is written as one of the class. -/
def isCaught (e : JavaException) : Bool :=
  e.kind = .other "javax.naming.NamingException".toList ||
  e.kind = .other "javax.jms.JMSException".toList ||
  e.kind = .other "java.io.FileNotFoundException".toList ||
  e.kind = .other "javax.xml.stream.XMLStreamException".toList

def queueManagerException (e : JavaException) : JavaException :=
  if isCaught e then ⟨.queueManager, some (unableToSend ++ e.messageText)⟩ else e

/-- The reading of the configuration, the naming context and its factory are calls that answer what
is known before. -/
def getQueue (config : Configuration) (nameOfQueue : Option Str) (userName accessKey : Str) :
    Prog JavaException State Str := do
  let config ← query fun _ => config
  let url ← orRaise (Utils.getTCPConnectionURL config userName accessKey)
  let name ← throwIfNull nameOfQueue
  query fun _ => ()
  command fun s => { s with queueConnection := some url }
  query fun _ => name

def textMessage (order : Order) (queue : Str) : Message where
  queue := queue
  jmsType := order.jmsType
  jmsCorrelationID := order.jmsCorrelationID
  text := order.message.getD "Type message here..".toList
  deliveryMode := order.deliveryMode
  priority := order.priority
  expireTime := order.expireTime

/-- The message comes to its queue before the client hears of it. -/
def send (message : Message) : Prog JavaException State Unit := do
  command fun s => { s with delivered := s.delivered ++ [message] }
  query fun _ => ()

def close (isSet : State → Bool) : Prog JavaException State Unit := do
  if ← peek isSet then query fun _ => () else raise nullPointerException

def closeAll : Prog JavaException State Unit :=
  translate (fun _ => ⟨.queueManager, some "Unable to send message.".toList⟩) do
    close fun s => s.queueConnection.isSome
    close State.queueSession
    close State.queueSender

def sendAll (config : Configuration) (userName accessKey : Str) (order : Order) :
    Prog JavaException State Unit := do
  let queue ← getQueue config order.nameOfQueue userName accessKey
  command fun s => { s with queueSession := true }
  command fun s => { s with queueSender := true }
  query fun _ => ()
  let message ← query fun _ => textMessage order queue
  forEach send (List.replicate order.numberOfMessages.toNat message)

def sendMessage (config : Configuration) (userName accessKey : Str) (order : Order) :
    Prog JavaException State Unit :=
  andFinally (translate queueManagerException (sendAll config userName accessKey order)) closeAll

-- `queue_message_sender.jsp`

inductive Dialog where
  | info (text : Str)
  | error (text : Str)
  deriving DecidableEq

structure Request where
  nameOfQueue : Option Str
  num_of_msgs : Option Str
  expire : Option Str
  cor_id : Option Str
  jms_type : Option Str
  msg_text : Option Str
  delivery_mode : Option Str

/-- `Long.parseLong` on ASCII digits; `none` is the NumberFormatException. -/
def parseLong : Str → Option Int
  | '-' :: s => (parseDigits s).bind fun n => if n ≤ 2 ^ 63 then some (-(n : Int)) else none
  | '+' :: s => (parseDigits s).bind fun n => if n < 2 ^ 63 then some (n : Int) else none
  | s => (parseDigits s).bind fun n => if n < 2 ^ 63 then some (n : Int) else none

def readNumber (num_of_msgs : Str) : Except Dialog Int :=
  if num_of_msgs = [] then .error (.error "Number Of Messages Cannot be Empty".toList)
  else
    match parseInt num_of_msgs with
    | some msg_count =>
      if msg_count ≤ 0 then
        .error (.error "Please Enter a Valid Number of Messages to Send".toList)
      else .ok msg_count
    | none => .error (.error "Number of Messages Input Is Not a Number".toList)

def readExpire (expire : Option Str) : Except Dialog Int :=
  if expire = none ∨ expire = some [] then .ok 0
  else
    match expire.bind parseLong with
    | some time_to_live =>
      if time_to_live < 0 then
        .error (.error "Please Enter a Valid Number of Milliseconds to Expire Message".toList)
      else .ok time_to_live
    | none => .error (.error "Milliseconds to Expire Message(s) is Not a Number".toList)

def readNumbers (num_of_msgs : Str) (expire : Option Str) : Except Dialog (Int × Int) := do
  let msg_count ← readNumber num_of_msgs
  let time_to_live ← readExpire expire
  pure (msg_count, time_to_live)

def nonempty (s : Str) : Option Str := if s = [] then none else some s

/-- `none` is the NullPointerException of a parameter that is missing. -/
def readOrder (request : Request) (numbers : Int × Int) : Option Order := do
  let cor_id ← request.cor_id
  let jms_type ← request.jms_type
  let msg_text ← request.msg_text
  pure {
    nameOfQueue := request.nameOfQueue
    jmsType := nonempty jms_type
    jmsCorrelationID := nonempty cor_id
    numberOfMessages := numbers.1
    message := some (if msg_text = [] then "Type message here..".toList else msg_text)
    deliveryMode := if request.delivery_mode = none then 1 else 2
    priority := 4
    expireTime := numbers.2 }

/-- How a page ends: with the form and perhaps a dialog, or not at all. -/
inductive Page where
  | form
  | dialog (dialog : Dialog)
  | exception
  deriving DecidableEq

def placeOrder (request : Request) : Except Page (Str × Order) :=
  match request.num_of_msgs with
  | none => .error .form
  | some num_of_msgs =>
    match readNumbers num_of_msgs request.expire with
    | .error dialog => .error (.dialog dialog)
    | .ok numbers =>
      match readOrder request numbers with
      | none => .error .exception
      | some order => .ok (num_of_msgs, order)

def successText (request : Request) (num_of_msgs : Str) : Str :=
  "Successfully Sent ".toList ++ num_of_msgs ++ " Messages To Queue ".toList ++
    request.nameOfQueue.getD "null".toList

def answer (request : Request) (num_of_msgs : Str) : Except Fault Unit → Page
  | .ok _ => .dialog (.info (successText request num_of_msgs))
  | .error (.brokerManagerAdminException errorMessage) => .dialog (.error errorMessage)
  | .error .other => .exception

/-- The page, with the admin service's wrapping of what the queue manager throws. -/
def queue_message_sender (config : Configuration) (userName accessKey : Str) (request : Request)
    (site : Site JavaException State) : Page × State :=
  match placeOrder request with
  | .error page => (page, site.state)
  | .ok (num_of_msgs, order) =>
    match sendMessage config userName accessKey order site with
    | .ok _ t => (answer request num_of_msgs (withQueueManager unableToSend (.ok ())), t.state)
    | .error e t => (answer request num_of_msgs (withQueueManager unableToSend (.error e)), t.state)

variable {config : Configuration} {userName accessKey : Str} {order : Order} {w : State}

/-- So many copies of a message have come to its queue, behind what was there. -/
def Delivered (w : State) (message : Message) (copies : Nat) (s : State) : Prop :=
  s.delivered = w.delivered ++ List.replicate copies message

def DeliveredUpTo (w : State) (message : Message) (copies : Nat) (s : State) : Prop :=
  ∃ sent ≤ copies, Delivered w message sent s

theorem Delivered.upTo {message : Message} {copies sent : Nat} {s : State}
    (h : Delivered w message sent s) (hsent : sent ≤ copies) :
    DeliveredUpTo w message copies s := ⟨sent, hsent, h⟩

theorem holds_send {message : Message} {sent copies : Nat} (hsent : sent < copies) :
    Holds (Delivered w message sent) (send message)
      (fun _ => Delivered w message (sent + 1)) fun _ => DeliveredUpTo w message copies := by
  refine holds_bind (holds_command (Q := fun _ => Delivered w message (sent + 1)) ?_ ?_) fun _ => ?_
  · exact fun _ s h => h.upTo hsent.le
  · intro s h
    rw [Delivered] at h ⊢
    rw [h, List.append_assoc, List.replicate_succ']
  · exact holds_query (fun _ s h => h.upTo hsent) fun s h => h

theorem holds_sends (message : Message) (copies : Nat) :
    Holds (Delivered w message 0) (forEach send (List.replicate copies message))
      (fun _ => Delivered w message copies) fun _ => DeliveredUpTo w message copies := by
  have hloop := holds_forEach (f := send) (l := List.replicate copies message)
    (I := fun sent => Delivered w message sent.length)
    (E := fun _ => DeliveredUpTo w message copies) fun sent next rest hsplit => ?_
  · rw [List.length_replicate] at hloop
    exact hloop
  · have hnext : next = message := by
      refine List.eq_of_mem_replicate (n := copies) ?_
      rw [hsplit]
      exact List.mem_append_right _ List.mem_cons_self
    have hlength : sent.length < copies := by
      have hlen := congrArg List.length hsplit
      rw [List.length_replicate, List.length_append, List.length_cons] at hlen
      omega
    rw [hnext, List.length_append]
    exact holds_send hlength

theorem holds_getQueue {nameOfQueue : Option Str} {message : Message} :
    Holds (Delivered w message 0) (getQueue config nameOfQueue userName accessKey)
      (fun name s => nameOfQueue = some name ∧ Delivered w message 0 s)
      fun _ => Delivered w message 0 := by
  refine holds_bind (keeps_query _) fun config => holds_bind (keeps_orRaise _) fun url =>
    holds_bind (holds_throwIfNull _ fun _ _ h => h) fun name => ?_
  refine holds_of_fact fun hname => holds_bind (keeps_query _) fun _ =>
    holds_bind (keeps_command fun s h => h) fun _ => ?_
  exact holds_query (fun _ _ h => h) fun _ h => ⟨hname, h⟩

theorem keeps_close {I : State → Prop} (isSet : State → Bool) : Keeps I (close isSet) := by
  refine keeps_bind (keeps_peek _) fun b => ?_
  split
  · exact keeps_query _
  · exact keeps_raise _

theorem keeps_closeAll {I : State → Prop} : Keeps I closeAll :=
  keeps_translate (keeps_bind (keeps_close _) fun _ => keeps_bind (keeps_close _) fun _ =>
    keeps_close _)

theorem holds_sendAll :
    Holds (· = w) (sendAll config userName accessKey order)
      (fun _ s => ∃ name, order.nameOfQueue = some name ∧
        Delivered w (textMessage order name) order.numberOfMessages.toNat s)
      (fun _ => DeliveredUpTo w (textMessage order (order.nameOfQueue.getD []))
        order.numberOfMessages.toNat) := by
  have hnone : ∀ s, Delivered w (textMessage order (order.nameOfQueue.getD [])) 0 s →
      DeliveredUpTo w (textMessage order (order.nameOfQueue.getD []))
        order.numberOfMessages.toNat s := fun s h => h.upTo (Nat.zero_le _)
  have hstart : ∀ s, s = w → Delivered w (textMessage order (order.nameOfQueue.getD [])) 0 s := by
    rintro s rfl
    exact (List.append_nil _).symm
  refine holds_bind (holds_getQueue.mono hstart (fun _ _ h => h) fun _ => hnone) fun name => ?_
  refine holds_of_fact fun hname => ?_
  have hqueue : order.nameOfQueue.getD [] = name := by
    rw [hname, Option.getD_some]
  rw [hqueue] at hnone ⊢
  -- nothing is sent before the loop
  have hcommand : ∀ f : State → State, (∀ s, (f s).delivered = s.delivered) →
      Holds (Delivered w (textMessage order name) 0) (command f : Prog JavaException State Unit)
        (fun _ => Delivered w (textMessage order name) 0)
        (fun _ => DeliveredUpTo w (textMessage order name) order.numberOfMessages.toNat) :=
    fun f hf => holds_command (fun _ => hnone) fun s h => (hf s).trans h
  refine holds_bind (hcommand _ fun _ => rfl) fun _ => holds_bind (hcommand _ fun _ => rfl)
    fun _ => ?_
  refine holds_bind (Q := fun _ => Delivered w (textMessage order name) 0)
    (holds_query (fun _ => hnone) fun _ h => h) fun _ => ?_
  refine holds_bind (Q := fun message s => message = textMessage order name ∧
    Delivered w (textMessage order name) 0 s) (holds_query (fun _ => hnone) fun _ h => ⟨rfl, h⟩)
    fun message => holds_of_fact ?_
  rintro rfl
  exact (holds_sends _ _).mono (fun _ h => h) (fun _ _ h => ⟨name, hname, h⟩) fun _ _ h => h

theorem holds_sendMessage :
    Holds (· = w) (sendMessage config userName accessKey order)
      (fun _ s => ∃ name, order.nameOfQueue = some name ∧
        Delivered w (textMessage order name) order.numberOfMessages.toNat s)
      (fun _ => DeliveredUpTo w (textMessage order (order.nameOfQueue.getD []))
        order.numberOfMessages.toNat) := by
  refine holds_andFinally (holds_translate holds_sendAll) (fun _ => ?_) fun _ =>
    keeps_closeAll
  refine keeps_closeAll.mono (fun _ h => h) (fun _ _ h => h) ?_
  rintro e s ⟨name, hname, hall⟩
  rw [hname, Option.getD_some]
  exact hall.upTo le_rfl

theorem getQueue_quiet {url : TCPConnectionURL} {name : Str}
    (hurl : Utils.getTCPConnectionURL config userName accessKey = .ok url) (w : State) :
    getQueue config (some name) userName accessKey ⟨w, []⟩ =
      .ok name ⟨{ w with queueConnection := some url }, []⟩ := by
  simp [getQueue, hurl, throwIfNull]

theorem sendAll_quiet {url : TCPConnectionURL} {name : Str}
    (hurl : Utils.getTCPConnectionURL config userName accessKey = .ok url)
    (hname : order.nameOfQueue = some name) (w : State) :
    ∃ t, sendAll config userName accessKey order ⟨w, []⟩ = .ok () ⟨t, []⟩ ∧
      t.queueConnection = some url ∧ t.queueSession = true ∧ t.queueSender = true := by
  have hsend : ∀ message (s : State), send message ⟨s, []⟩ =
      .ok () ⟨{ s with delivered := s.delivered ++ [message] }, []⟩ := by
    intro message s
    simp [send]
  have hloop : ∀ (messages : List Message) (s : State), ∃ t,
      forEach send messages ⟨s, []⟩ = .ok () ⟨t, []⟩ ∧ t.queueConnection = s.queueConnection ∧
        t.queueSession = s.queueSession ∧ t.queueSender = s.queueSender := by
    intro messages
    induction messages with
    | nil => exact fun s => ⟨s, rfl, rfl, rfl, rfl⟩
    | cons message messages ih =>
      intro s
      obtain ⟨t, hrun, hfields⟩ := ih { s with delivered := s.delivered ++ [message] }
      exact ⟨t, by simp [forEach, hsend, hrun], hfields⟩
  obtain ⟨t, hrun, hconnection, hsession, hsender⟩ := hloop
    (List.replicate order.numberOfMessages.toNat (textMessage order name))
    ⟨some url, true, true, w.delivered⟩
  refine ⟨t, ?_, hconnection, hsession, hsender⟩
  simp [sendAll, hname, getQueue_quiet hurl, hrun]

theorem sendMessage_quiet {url : TCPConnectionURL} {name : Str}
    (hurl : Utils.getTCPConnectionURL config userName accessKey = .ok url)
    (hname : order.nameOfQueue = some name) (w : State) :
    ∃ t, sendMessage config userName accessKey order ⟨w, []⟩ = .ok () t := by
  obtain ⟨t, hrun, hconnection, hsession, hsender⟩ := sendAll_quiet hurl hname w
  refine ⟨⟨t, []⟩, ?_⟩
  simp [sendMessage, andFinally, hrun, closeAll, close, hconnection, hsession, hsender]

theorem readNumber_ok {num_of_msgs : Str} {msg_count : Int}
    (h : readNumber num_of_msgs = .ok msg_count) :
    parseInt num_of_msgs = some msg_count ∧ 0 < msg_count := by
  rw [readNumber] at h
  split at h
  · cases h
  · split at h
    · rename_i n hparse
      split at h
      · cases h
      · cases h
        exact ⟨hparse, by omega⟩
    · cases h

theorem readNumbers_ok {num_of_msgs : Str} {expire : Option Str} {numbers : Int × Int}
    (h : readNumbers num_of_msgs expire = .ok numbers) :
    parseInt num_of_msgs = some numbers.1 ∧ 0 < numbers.1 := by
  cases hcount : readNumber num_of_msgs with
  | error dialog => simp [readNumbers, hcount, bind, Except.bind] at h
  | ok msg_count =>
    cases hexpire : readExpire expire with
    | error dialog => simp [readNumbers, hcount, hexpire, bind, Except.bind] at h
    | ok time_to_live =>
      simp only [readNumbers, hcount, hexpire, bind, Except.bind, pure, Except.pure,
        Except.ok.injEq] at h
      rw [← h]
      exact readNumber_ok hcount

theorem readNumbers_error {num_of_msgs : Str} {expire : Option Str} {dialog : Dialog}
    (h : readNumbers num_of_msgs expire = .error dialog) : ∃ text, dialog = .error text := by
  cases hcount : readNumber num_of_msgs with
  | error other =>
    simp only [readNumbers, hcount, bind, Except.bind, Except.error.injEq] at h
    subst h
    simp only [readNumber] at hcount
    split_ifs at hcount
    · exact ⟨_, (Except.error.inj hcount).symm⟩
    · split at hcount
      · split_ifs at hcount
        exact ⟨_, (Except.error.inj hcount).symm⟩
      · exact ⟨_, (Except.error.inj hcount).symm⟩
  | ok msg_count =>
    cases hexpire : readExpire expire with
    | error other =>
      simp only [readNumbers, hcount, hexpire, bind, Except.bind, Except.error.injEq] at h
      subst h
      simp only [readExpire] at hexpire
      split_ifs at hexpire
      split at hexpire
      · split_ifs at hexpire
        exact ⟨_, (Except.error.inj hexpire).symm⟩
      · exact ⟨_, (Except.error.inj hexpire).symm⟩
    | ok time_to_live =>
      simp [readNumbers, hcount, hexpire, bind, Except.bind, pure, Except.pure] at h

theorem placeOrder_ok {request : Request} {num_of_msgs : Str}
    (h : placeOrder request = .ok (num_of_msgs, order)) :
    order.nameOfQueue = request.nameOfQueue ∧
      parseInt num_of_msgs = some order.numberOfMessages ∧ 0 < order.numberOfMessages := by
  rw [placeOrder] at h
  split at h
  · cases h
  · split at h
    · cases h
    · rename_i numbers hnumbers
      split at h
      · cases h
      · rename_i placed horder
        cases h
        simp only [readOrder, Option.bind_eq_bind, Option.bind_eq_some_iff, Option.pure_def,
          Option.some.injEq] at horder
        obtain ⟨cor_id, -, jms_type, -, msg_text, -, rfl⟩ := horder
        exact ⟨rfl, readNumbers_ok hnumbers⟩

theorem placeOrder_error {request : Request} {page : Page} (h : placeOrder request = .error page)
    (text : Str) : page ≠ .dialog (.info text) := by
  rw [placeOrder] at h
  split at h
  · cases h
    exact Page.noConfusion
  · split at h
    · rename_i dialog hnumbers
      obtain ⟨message, rfl⟩ := readNumbers_error hnumbers
      cases h
      intro heq
      cases heq
    · split at h
      · cases h
        exact Page.noConfusion
      · cases h

theorem answer_eq_info {request : Request} {num_of_msgs text : Str} {result : Except Fault Unit}
    (h : answer request num_of_msgs result = .dialog (.info text)) :
    result = .ok () ∧ text = successText request num_of_msgs := by
  cases result with
  | ok a =>
    cases h
    exact ⟨rfl, rfl⟩
  | error fault => cases fault <;> cases h

/-- Whatever raises on the way: a request that the page does not accept sends nothing and is not
reported as a success. Of one that it accepts, what comes to the queue are copies of the message
that was entered, never more of them than asked for, and a success is reported only where there are
just as many as the dialog says; where nothing raises, it is reported. -/
theorem queue_message_sender_delivers (config : Configuration) (userName accessKey : Str)
    (request : Request) (site : Site JavaException State) :
    (∀ page, placeOrder request = .error page →
      queue_message_sender config userName accessKey request site = (page, site.state) ∧
        ∀ text, page ≠ .dialog (.info text)) ∧
    ∀ num_of_msgs order, placeOrder request = .ok (num_of_msgs, order) →
      parseInt num_of_msgs = some order.numberOfMessages ∧ 0 < order.numberOfMessages ∧
      ∃ sent ≤ order.numberOfMessages.toNat,
        Delivered site.state (textMessage order (request.nameOfQueue.getD [])) sent
          (queue_message_sender config userName accessKey request site).2 ∧
        (∀ text, (queue_message_sender config userName accessKey request site).1 =
            .dialog (.info text) →
          sent = order.numberOfMessages.toNat ∧ text = successText request num_of_msgs) ∧
        (site.outcomes = [] → request.nameOfQueue ≠ none →
          (∃ url, Utils.getTCPConnectionURL config userName accessKey = .ok url) →
          (queue_message_sender config userName accessKey request site).1 =
            .dialog (.info (successText request num_of_msgs))) := by
  refine ⟨fun page hpage => ⟨by rw [queue_message_sender, hpage], placeOrder_error hpage⟩,
    fun num_of_msgs order horder => ?_⟩
  obtain ⟨hqueue, hcount, hpositive⟩ := placeOrder_ok horder
  refine ⟨hcount, hpositive, ?_⟩
  have hholds : Holds (· = site.state) (sendMessage config userName accessKey order) _ _ :=
    holds_sendMessage
  have hsent := hholds site rfl
  rw [queue_message_sender, horder]
  cases hrun : sendMessage config userName accessKey order site with
  | ok _ t =>
    simp only [hrun] at hsent ⊢
    obtain ⟨name, hname, hall⟩ := hsent
    refine ⟨order.numberOfMessages.toNat, le_rfl, ?_, fun text htext => ?_, fun _ _ _ => rfl⟩
    · rw [← hqueue, hname]
      exact hall
    · exact ⟨rfl, (answer_eq_info htext).2⟩
  | error e t =>
    simp only [hrun] at hsent ⊢
    obtain ⟨sent, hle, hpart⟩ := hsent
    refine ⟨sent, hle, hqueue ▸ hpart, fun text htext => ?_, fun hquiet hname hurl => ?_⟩
    · have hok := (answer_eq_info htext).1
      rw [withQueueManager] at hok
      split_ifs at hok
    · obtain ⟨url, hurl⟩ := hurl
      obtain ⟨name, hname⟩ := Option.ne_none_iff_exists'.1 hname
      have hreturns :
          ∃ u, sendMessage config userName accessKey order ⟨site.state, []⟩ = .ok () u :=
        sendMessage_quiet hurl (hqueue.trans hname) site.state
      rw [← hquiet, hrun] at hreturns
      obtain ⟨u, hreturns⟩ := hreturns
      cases hreturns

end CarbonMessaging.MessageSender
