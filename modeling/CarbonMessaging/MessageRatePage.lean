import CarbonMessaging.JavaLang
import CarbonMessaging.JavaScriptNumbers

/-! The message-rate page: the part of `stats.js` that fetches the records of a chart. Each request
is answered by a callback that runs later and reads the page as it is then, above all the global
`currentOutput` and the queue that is selected. -/

namespace CarbonMessaging.MessageRatePage

open JavaLang JavaScriptNumbers

inductive MessageStatus where
  | published | delivered | acknowledged
  deriving DecidableEq

/-- An object of a response. One of `load_graph_data` has a time for one status only. -/
structure ChartRecord where
  messageId : Int
  published : Option Int
  delivered : Option Int
  acknowledged : Option Int
  deriving DecidableEq

def ChartRecord.parsed (r : ChartRecord) : ChartRecord :=
  ⟨roundInt r.messageId, r.published.map roundInt, r.delivered.map roundInt,
    r.acknowledged.map roundInt⟩

/-- The function whose callback a response runs, with what the callback remembers. -/
inductive Callback where
  | prepareChartData (onGoingMessageStatus : List ChartRecord)
  | prepareChartDataByStatus (currentResults : List ChartRecord) (messageStatus : MessageStatus)
  deriving DecidableEq

structure Request where
  selectedQueue : Str
  minMessageId : Int
  limit : Nat
  callback : Callback
  deriving DecidableEq

/-- `currentOutput`: the places 0, 1 and 2 of the array, unset or a list of records. -/
abbrev Output := MessageStatus → Option (List ChartRecord)

structure Page where
  selectedQueue : Str
  currentOutput : Output
  outstanding : List Request
  chart : Option Output

variable (dataLimit : Nat)

def Page.asyncRequest (page : Page) (minMessageId : Int) (callback : Callback) : Page :=
  let request := ⟨page.selectedQueue, minMessageId, dataLimit, callback⟩
  { page with outstanding := page.outstanding ++ [request] }

def Page.prepareChartData (page : Page) (onGoingMessageStatus : List ChartRecord)
    (minMessageId : Int) : Page :=
  page.asyncRequest dataLimit minMessageId (.prepareChartData onGoingMessageStatus)

def Page.prepareChartDataByStatus (page : Page) (currentResults : List ChartRecord)
    (minMessageId : Int) (messageStatus : MessageStatus) : Page :=
  page.asyncRequest dataLimit minMessageId (.prepareChartDataByStatus currentResults messageStatus)

def Page.loadGraphData (page : Page) : Page :=
  { page with currentOutput := fun _ => none }.prepareChartDataByStatus dataLimit [] 0 .published

/-- Only `currentOutput` is drawn, whatever the argument was. -/
def Page.generateChartData (page : Page) (_onGoingMessageStatus : List ChartRecord) : Page :=
  { page with chart := some page.currentOutput }

def Page.setOutput (page : Page) (status : MessageStatus) (results : List ChartRecord) : Page :=
  { page with currentOutput := Function.update page.currentOutput status (some results) }

def Page.lastRetrieved (page : Page) (messageStatus : MessageStatus)
    (currentResults : List ChartRecord) : Page :=
  let page := page.setOutput messageStatus currentResults
  match messageStatus with
  | .published => page.prepareChartDataByStatus dataLimit [] 0 .delivered
  | .delivered => page.prepareChartDataByStatus dataLimit [] 0 .acknowledged
  | .acknowledged => page.generateChartData []

/-- The callbacks for `output`, the parsed response. A full response always has a last record, as
`dataLimit` is positive. -/
def Page.success (page : Page) (output : List ChartRecord) : Callback → Page
  | .prepareChartData onGoingMessageStatus =>
    let onGoingMessageStatus := onGoingMessageStatus ++ output
    if output.length < dataLimit then page.generateChartData onGoingMessageStatus
    else
      match output.getLast? with
      | some last => page.prepareChartData dataLimit onGoingMessageStatus last.messageId
      | none => page
  | .prepareChartDataByStatus currentResults messageStatus =>
    let currentResults := currentResults ++ output
    if output.length < dataLimit then page.lastRetrieved dataLimit messageStatus currentResults
    else
      match output.getLast? with
      | some last => page.prepareChartData dataLimit currentResults last.messageId
      | none => page

def Page.deliver (page : Page) (index : Nat) (response : List ChartRecord) : Option Page :=
  (page.outstanding[index]?).map fun request =>
    { page with outstanding := page.outstanding.eraseIdx index }.success dataLimit
      (response.map ChartRecord.parsed) request.callback

def Page.opened (queue : Str) : Page :=
  Page.loadGraphData dataLimit ⟨queue, fun _ => none, [], none⟩

end CarbonMessaging.MessageRatePage
