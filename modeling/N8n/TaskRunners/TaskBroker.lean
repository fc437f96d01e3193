import N8n.Library.Loop
import N8n.Library.OrderedMap
import N8n.Library.Runs
import N8n.TaskRunners.MessageTypes

/-! # The task broker

`packages/cli/src/task-runners/task-broker.service.ts`.  The broker handles one
event after another: a message, a timer, a (dis)connect, or that one of its own
calls goes on after what it awaited has settled.  Such a call may go on at any
later time.  Tasks are numbered by the calls of `acceptOffer`, requests by the
calls of `taskRequested`; `pendingTaskRequests` holds these numbers, since the
same request object can be in the array twice.
-/

namespace N8n.TaskRunners

inductive RunnersMode where
  | internal
  | external
deriving DecidableEq, Repr

structure TaskRunnersConfig where
  mode : RunnersMode
  taskTimeout : Nat
deriving DecidableEq, Repr

/-- A task is stored under its id; `timeout` is set as long as the timer can fire. -/
structure Task where
  runnerId : RunnerId
  requesterId : RequesterId
  taskType : String
  timeout : Bool := false
deriving DecidableEq, Repr

structure TaskOffer where
  offerId : OfferId
  runnerId : RunnerId
  taskType : String
  /-- How long (in milliseconds) the task offer is valid for. `-1` for non-expiring offer from launcher. -/
  validFor : Int
  validUntil : Int
deriving DecidableEq, Repr

structure TaskRequest where
  requestId : RequestId
  requesterId : RequesterId
  taskType : String
  acceptInProgress : Bool := false
deriving DecidableEq, Repr

/-- How the promise settled that waits for the runner. -/
inductive RunnerOutcome where
  | accepted
  | rejected
  | deferred
  | timedOut
deriving DecidableEq, Repr

/-- How the promise settled that waits for the requester. -/
inductive RequesterOutcome (Payload : Type) where
  | settings (settings : Payload)
  | timedOut
deriving DecidableEq, Repr

/-- How far a call of `acceptOffer` has come. -/
inductive Progress (Payload : Type) where
  | waitingForRunner (outcome : Option RunnerOutcome)
  /-- The runner did not take the task. -/
  | givenUp
  | waitingForRequester (outcome : Option (RequesterOutcome Payload))
  /-- `sendTaskSettings` has found the runner. -/
  | sendingSettings (runnerId : RunnerId) (settings : Payload)
  | over
deriving DecidableEq, Repr

structure AcceptOffer (Payload : Type) where
  offer : TaskOffer
  request : Nat
  progress : Progress Payload
deriving DecidableEq, Repr

/-- The calls that go on after a send. -/
inductive Suspended where
  /-- `taskDoneHandler` or `taskErrorHandler` has sent its answer. -/
  | finalAnswer (taskId : TaskId)
  /-- `handleTaskTimeout` has told the runner to cancel the task. -/
  | taskTimeout (taskId : TaskId)
deriving DecidableEq, Repr

/-- What the broker does, as seen from outside. -/
inductive Deed (Payload : Type) where
  | toRunner (runnerId : RunnerId) (message : BrokerMessage.ToRunner Payload)
  | toRequester (requesterId : RequesterId) (message : BrokerMessage.ToRequester Payload)
  /-- A cancel of a requester has been processed; `found` says whether it removed the task. -/
  | cancel (requesterId : RequesterId) (taskId : TaskId) (found : Bool)
  /-- `runner:timed-out-during-task` -/
  | timedOutDuringTask
deriving DecidableEq, Repr

/-- The last three fields are not part of the broker: they keep what its promises are about. -/
structure TaskBroker (Payload : Type) where
  knownRunners : List RunnerId
  requesters : List RequesterId
  tasks : OrderedMap TaskId Task
  runnerAcceptRejects : List TaskId
  requesterAcceptRejects : List TaskId
  pendingTaskOffers : List TaskOffer
  pendingTaskRequests : List Nat
  requests : List TaskRequest
  acceptOffers : List (AcceptOffer Payload)
  suspended : List Suspended
  now : Nat
  log : List (Deed Payload)
  /-- The requests whose requester has been connected ever since. -/
  stillConnected : List Nat
  /-- The requests that became available again after the last time the broker matched offers and requests. -/
  availableAgain : List Nat

namespace TaskBroker

variable {Payload : Type}

def new : TaskBroker Payload :=
  { knownRunners := [], requesters := [], tasks := ∅, runnerAcceptRejects := [], requesterAcceptRejects := []
    pendingTaskOffers := [], pendingTaskRequests := [], requests := [], acceptOffers := [], suspended := [], now := 0
    log := [], stillConnected := [], availableAgain := [] }

def record (broker : TaskBroker Payload) (deed : Deed Payload) : TaskBroker Payload :=
  { broker with log := broker.log ++ [deed] }

def messageRunner (broker : TaskBroker Payload) (runnerId : RunnerId) (message : BrokerMessage.ToRunner Payload) :
    TaskBroker Payload :=
  if runnerId ∈ broker.knownRunners then broker.record (.toRunner runnerId message) else broker

def messageRequester (broker : TaskBroker Payload) (requesterId : RequesterId)
    (message : BrokerMessage.ToRequester Payload) : TaskBroker Payload :=
  if requesterId ∈ broker.requesters then broker.record (.toRequester requesterId message) else broker

def setProgress (broker : TaskBroker Payload) (taskId : TaskId) (progress : Progress Payload) : TaskBroker Payload :=
  { broker with acceptOffers := broker.acceptOffers.modify taskId fun call => { call with progress } }

def setAcceptInProgress (broker : TaskBroker Payload) (request : Nat) (acceptInProgress : Bool) : TaskBroker Payload :=
  { broker with requests := broker.requests.modify request fun object => { object with acceptInProgress } }

/-! ## Offers and requests -/

def isUnexpired (now : Nat) (offer : TaskOffer) : Bool := offer.validFor = -1 ∨ (now : Int) ≤ offer.validUntil

def expireTasks (broker : TaskBroker Payload) : TaskBroker Payload :=
  { broker with pendingTaskOffers := broker.pendingTaskOffers.filter (isUnexpired broker.now) }

/-- What `acceptOffer` does before it waits for the runner. -/
def acceptOffer (broker : TaskBroker Payload) (offer : TaskOffer) (request : Nat) : TaskBroker Payload :=
  let taskId := broker.acceptOffers.length
  let call : AcceptOffer Payload := ⟨offer, request, .waitingForRunner none⟩
  { broker with
    acceptOffers := broker.acceptOffers ++ [call]
    runnerAcceptRejects := broker.runnerAcceptRejects ++ [taskId] }.messageRunner
    offer.runnerId (.taskOfferAccept offer.offerId taskId)

def settleRequest (broker : TaskBroker Payload) (request : Nat) : TaskBroker Payload :=
  match broker.requests[request]? with
  | none => broker
  | some object =>
    if object.acceptInProgress then broker
    else match broker.pendingTaskOffers.find? fun offer => offer.taskType = object.taskType with
      | none => broker
      | some offer =>
        { broker.setAcceptInProgress request true with
          pendingTaskOffers := broker.pendingTaskOffers.eraseP fun offer => offer.taskType = object.taskType
        }.acceptOffer offer request

/-- Find matching task offers and requests, then let the runner know that an offer has been accepted -/
def settleTasks (broker : TaskBroker Payload) : TaskBroker Payload :=
  let broker := { broker.expireTasks with availableAgain := [] }
  broker.pendingTaskRequests.foldl settleRequest broker

def taskRequested (broker : TaskBroker Payload) (request : TaskRequest) : TaskBroker Payload :=
  { broker with
    requests := broker.requests ++ [request]
    pendingTaskRequests := broker.pendingTaskRequests ++ [broker.requests.length]
    stillConnected :=
      if request.requesterId ∈ broker.requesters then broker.stillConnected ++ [broker.requests.length]
      else broker.stillConnected }.settleTasks

def taskOffered (broker : TaskBroker Payload) (offer : TaskOffer) : TaskBroker Payload :=
  { broker with pendingTaskOffers := broker.pendingTaskOffers ++ [offer] }.settleTasks

/-! ## Tasks -/

/-- The task is deleted before the runner hears of it. -/
def cancelTask (broker : TaskBroker Payload) (taskId : TaskId) (reason : String) : TaskBroker Payload :=
  match broker.tasks.get? taskId with
  | none => broker
  | some task =>
    { broker with tasks := broker.tasks.erase taskId }.messageRunner task.runnerId (.taskCancel taskId reason)

/-- The task is deleted before the requester hears of it. -/
def failTask (broker : TaskBroker Payload) (taskId : TaskId) (error : TaskFailure Payload) : TaskBroker Payload :=
  match broker.tasks.get? taskId with
  | none => broker
  | some task =>
    { broker with tasks := broker.tasks.erase taskId }.messageRequester task.requesterId (.taskError taskId error)

/-- What it throws is seen by the result only. -/
def getRunnerOrFailTask (broker : TaskBroker Payload) (taskId : TaskId) : TaskBroker Payload × Option RunnerId :=
  match broker.tasks.get? taskId with
  | none => (broker, none)
  | some task =>
    if task.runnerId ∈ broker.knownRunners then (broker, some task.runnerId)
    else (broker.failTask taskId (.cannotFindRunner task.runnerId), none)

def setTimeout (broker : TaskBroker Payload) (taskId : TaskId) (timeout : Bool) : TaskBroker Payload :=
  match broker.tasks.get? taskId with
  | none => broker
  | some task => { broker with tasks := broker.tasks.set taskId { task with timeout } }

/-- `taskDoneHandler` and `taskErrorHandler` do the same with their messages.  The task is deleted when the send has
been awaited. -/
def answerTask (broker : TaskBroker Payload) (taskId : TaskId) (answer : BrokerMessage.ToRequester Payload) :
    TaskBroker Payload :=
  match broker.tasks.get? taskId with
  | none => broker
  | some task =>
    let broker := (broker.setTimeout taskId false).messageRequester task.requesterId answer
    { broker with suspended := broker.suspended ++ [.finalAnswer taskId] }

def taskDoneHandler (broker : TaskBroker Payload) (taskId : TaskId) (data : Payload) : TaskBroker Payload :=
  broker.answerTask taskId (.taskDone taskId data)

def taskErrorHandler (broker : TaskBroker Payload) (taskId : TaskId) (error : TaskFailure Payload) :
    TaskBroker Payload :=
  broker.answerTask taskId (.taskError taskId error)

/-- The timer of the task fires, unless it was cleared. -/
def handleTaskTimeout (config : TaskRunnersConfig) (broker : TaskBroker Payload) (taskId : TaskId) :
    TaskBroker Payload :=
  match broker.tasks.get? taskId with
  | none => broker
  | some task =>
    if ¬ task.timeout then broker
    else
      let broker := broker.setTimeout taskId false
      match config.mode with
      | .internal => (broker.record .timedOutDuringTask).taskErrorHandler taskId (.timeout config.taskTimeout)
      | .external =>
        let broker := broker.messageRunner task.runnerId (.taskCancel taskId "Task execution timed out")
        { broker with suspended := broker.suspended ++ [.taskTimeout taskId] }

/-- A call goes on after its send. -/
def goOn (config : TaskRunnersConfig) (broker : TaskBroker Payload) (call : Suspended) : TaskBroker Payload :=
  if call ∉ broker.suspended then broker
  else
    let broker := { broker with suspended := broker.suspended.erase call }
    match call with
    | .finalAnswer taskId => { broker with tasks := broker.tasks.erase taskId }
    | .taskTimeout taskId => broker.taskErrorHandler taskId (.timeout config.taskTimeout)

/-! ## The two hand-shakes -/

/-- A promise settles once only. -/
def settleRunner (broker : TaskBroker Payload) (taskId : TaskId) (outcome : RunnerOutcome) : TaskBroker Payload :=
  match broker.acceptOffers[taskId]? with
  | some ⟨_, _, .waitingForRunner none⟩ => broker.setProgress taskId (.waitingForRunner (some outcome))
  | _ => broker

def settleRequester (broker : TaskBroker Payload) (taskId : TaskId) (outcome : RequesterOutcome Payload) :
    TaskBroker Payload :=
  match broker.acceptOffers[taskId]? with
  | some ⟨_, _, .waitingForRequester none⟩ => broker.setProgress taskId (.waitingForRequester (some outcome))
  | _ => broker

def answerOffer (broker : TaskBroker Payload) (taskId : TaskId) (outcome : RunnerOutcome) : TaskBroker Payload :=
  if taskId ∈ broker.runnerAcceptRejects then
    { broker.settleRunner taskId outcome with runnerAcceptRejects := broker.runnerAcceptRejects.erase taskId }
  else broker

def handleRunnerAccept (broker : TaskBroker Payload) (taskId : TaskId) : TaskBroker Payload :=
  broker.answerOffer taskId .accepted

def handleRunnerReject (broker : TaskBroker Payload) (taskId : TaskId) : TaskBroker Payload :=
  broker.answerOffer taskId .rejected

def handleRunnerDeferred (broker : TaskBroker Payload) (taskId : TaskId) : TaskBroker Payload :=
  broker.answerOffer taskId .deferred

def handleRequesterAccept (broker : TaskBroker Payload) (taskId : TaskId) (settings : Payload) : TaskBroker Payload :=
  if taskId ∈ broker.requesterAcceptRejects then
    { broker.settleRequester taskId (.settings settings) with
      requesterAcceptRejects := broker.requesterAcceptRejects.erase taskId }
  else broker

/-- `acceptOffer` goes on without a task. -/
def offerNotTaken (broker : TaskBroker Payload) (taskId : TaskId) (request : Nat) : TaskBroker Payload :=
  { (broker.setAcceptInProgress request false).setProgress taskId .givenUp with
    availableAgain := broker.availableAgain ++ [request] }

/-- `acceptOffer` goes on with a task. -/
def offerTaken (broker : TaskBroker Payload) (taskId : TaskId) (offer : TaskOffer) (request : TaskRequest) :
    TaskBroker Payload :=
  let task : Task := ⟨offer.runnerId, request.requesterId, offer.taskType, false⟩
  let broker := { broker with tasks := broker.tasks.set taskId task }
  let isRequest := fun pending => (broker.requests[pending]?).map TaskRequest.requestId == some request.requestId
  if broker.pendingTaskRequests.any isRequest then
    ({ broker with
      pendingTaskRequests := broker.pendingTaskRequests.eraseP isRequest
      requesterAcceptRejects := broker.requesterAcceptRejects ++ [taskId] }.messageRequester
      request.requesterId (.taskReady request.requestId taskId)).setProgress taskId (.waitingForRequester none)
  else
    -- This shouldn't happen, and might be a race condition.
    broker.setProgress taskId .over

def runnerSettled (broker : TaskBroker Payload) (taskId : TaskId) (offer : TaskOffer) (request : Nat) :
    RunnerOutcome → TaskBroker Payload
  | .rejected | .timedOut => broker.offerNotTaken taskId request
  | .deferred =>
    let broker := broker.offerNotTaken taskId request
    -- will settle on receiving task offer from runner
    { broker with pendingTaskRequests := broker.pendingTaskRequests ++ [request] }
  | .accepted => match broker.requests[request]? with
    | none => broker
    | some object => broker.offerTaken taskId offer object

/-- `sendTaskSettings` until it has found the runner; without one the call ends with a cancel. -/
def requesterSettled (broker : TaskBroker Payload) (taskId : TaskId) : RequesterOutcome Payload → TaskBroker Payload
  | .settings settings => match broker.getRunnerOrFailTask taskId with
    | (broker, some runnerId) => broker.setProgress taskId (.sendingSettings runnerId settings)
    | (broker, none) => (broker.cancelTask taskId "Unknown reason").setProgress taskId .over
  | .timedOut => (broker.cancelTask taskId "Unknown reason").setProgress taskId .over

/-- `sendTaskSettings` once it has found the runner. -/
def sendTaskSettings (broker : TaskBroker Payload) (taskId : TaskId) (runnerId : RunnerId) (settings : Payload) :
    TaskBroker Payload :=
  let broker := broker.setProgress taskId .over
  if (broker.tasks.get? taskId).isNone then broker
  else (broker.setTimeout taskId true).messageRunner runnerId (.taskSettings taskId settings)

/-- The call of `acceptOffer` for this task goes on, if what it awaits has settled. -/
def acceptOfferGoesOn (broker : TaskBroker Payload) (taskId : TaskId) : TaskBroker Payload :=
  match broker.acceptOffers[taskId]? with
  | none => broker
  | some call => match call.progress with
    | .waitingForRunner (some outcome) => broker.runnerSettled taskId call.offer call.request outcome
    | .waitingForRequester (some outcome) => broker.requesterSettled taskId outcome
    | .sendingSettings runnerId settings => broker.sendTaskSettings taskId runnerId settings
    | .waitingForRunner none | .waitingForRequester none | .givenUp | .over => broker

/-! ## Runners and requesters -/

def registerRunner (broker : TaskBroker Payload) (runnerId : RunnerId) : TaskBroker Payload :=
  { broker with knownRunners := broker.knownRunners.insert runnerId }.messageRunner runnerId .runnerRegistered

def deregisterRunner (broker : TaskBroker Payload) (runnerId : RunnerId) (error : TaskFailure Payload) :
    TaskBroker Payload :=
  let broker := { broker with
    knownRunners := broker.knownRunners.filter (· ≠ runnerId)
    pendingTaskOffers := broker.pendingTaskOffers.filter fun offer => offer.runnerId ≠ runnerId }
  -- Fail any tasks
  (broker.tasks.entries.filter fun entry => entry.2.runnerId = runnerId).foldl
    (fun broker entry => (broker.failTask entry.1 error).handleRunnerReject entry.1) broker

def registerRequester (broker : TaskBroker Payload) (requesterId : RequesterId) : TaskBroker Payload :=
  { broker with requesters := broker.requesters.insert requesterId }

def isRequestOf (broker : TaskBroker Payload) (requesterId : RequesterId) (request : Nat) : Bool :=
  (broker.requests[request]?).map TaskRequest.requesterId == some requesterId

def deregisterRequester (broker : TaskBroker Payload) (requesterId : RequesterId) : TaskBroker Payload :=
  { broker with
    requesters := broker.requesters.filter (· ≠ requesterId)
    stillConnected := broker.stillConnected.filter fun request => ¬ broker.isRequestOf requesterId request }

/-- `handleRpcRequest`, `handleDataRequest` and `handleNodeTypesRequest` pass their messages on. -/
def passToRequester (broker : TaskBroker Payload) (taskId : TaskId) (message : BrokerMessage.ToRequester Payload) :
    TaskBroker Payload :=
  match broker.tasks.get? taskId with
  | none => broker
  | some task => broker.messageRequester task.requesterId message

def handleRpcRequest (broker : TaskBroker Payload) (taskId : TaskId) (callId name : String) (params : Payload) :
    TaskBroker Payload :=
  broker.passToRequester taskId (.rpc taskId callId name params)

def handleDataRequest (broker : TaskBroker Payload) (taskId : TaskId) (requestId : String) (requestParams : Payload) :
    TaskBroker Payload :=
  broker.passToRequester taskId (.taskDataRequest taskId requestId requestParams)

def handleNodeTypesRequest (broker : TaskBroker Payload) (taskId : TaskId) (requestId : String)
    (requestParams : Payload) : TaskBroker Payload :=
  broker.passToRequester taskId (.nodeTypesRequest taskId requestId requestParams)

/-- The handlers of the responses of a requester pass their messages on. -/
def passToRunner (broker : TaskBroker Payload) (taskId : TaskId) (message : BrokerMessage.ToRunner Payload) :
    TaskBroker Payload :=
  match broker.getRunnerOrFailTask taskId with
  | (broker, none) => broker
  | (broker, some runnerId) => broker.messageRunner runnerId message

def handleRequesterRpcResponse (broker : TaskBroker Payload) (taskId : TaskId) (callId : String)
    (status : ResponseStatus) (data : Payload) : TaskBroker Payload :=
  broker.passToRunner taskId (.rpcResponse taskId callId status data)

def handleRequesterDataResponse (broker : TaskBroker Payload) (taskId : TaskId) (requestId : String)
    (data : Payload) : TaskBroker Payload :=
  broker.passToRunner taskId (.taskDataResponse taskId requestId data)

def handleRequesterNodeTypesResponse (broker : TaskBroker Payload) (taskId : TaskId) (requestId : String)
    (nodeTypes : Payload) : TaskBroker Payload :=
  broker.passToRunner taskId (.nodeTypes taskId requestId nodeTypes)

def offerOf (broker : TaskBroker Payload) (runnerId : RunnerId) (offerId : OfferId) (taskType : String)
    (validFor : Int) : TaskOffer :=
  { offerId, runnerId, taskType, validFor
    -- sentinel value for non-expiring offer
    validUntil := if validFor = -1 then 0 else broker.now + validFor * 1000000 }

def onRunnerMessage (broker : TaskBroker Payload) (runnerId : RunnerId) (message : RunnerMessage.ToBroker Payload) :
    TaskBroker Payload :=
  if runnerId ∉ broker.knownRunners then broker
  else match message with
    | .taskAccepted taskId => broker.handleRunnerAccept taskId
    | .taskRejected taskId _ => broker.handleRunnerReject taskId
    | .taskDeferred taskId => broker.handleRunnerDeferred taskId
    | .taskOffer offerId taskType validFor => broker.taskOffered (broker.offerOf runnerId offerId taskType validFor)
    | .taskDone taskId data => broker.taskDoneHandler taskId data
    | .taskError taskId error => broker.taskErrorHandler taskId error
    | .taskDataRequest taskId requestId requestParams => broker.handleDataRequest taskId requestId requestParams
    | .nodeTypesRequest taskId requestId requestParams => broker.handleNodeTypesRequest taskId requestId requestParams
    | .rpc taskId callId name params => broker.handleRpcRequest taskId callId name params
    -- Already handled
    | .info _ _ => broker

def requesterCancels (broker : TaskBroker Payload) (requesterId : RequesterId) (taskId : TaskId) (reason : String) :
    TaskBroker Payload :=
  (broker.record (.cancel requesterId taskId (broker.tasks.has taskId))).cancelTask taskId reason

def onRequesterMessage (broker : TaskBroker Payload) (requesterId : RequesterId) :
    RequesterMessage.ToBroker Payload → TaskBroker Payload
  | .taskSettings taskId settings => broker.handleRequesterAccept taskId settings
  | .taskCancel taskId reason => broker.requesterCancels requesterId taskId reason
  | .taskRequest requestId taskType => broker.taskRequested { requestId, requesterId, taskType }
  | .taskDataResponse taskId requestId data => broker.handleRequesterDataResponse taskId requestId data
  | .nodeTypesResponse taskId requestId nodeTypes =>
    broker.handleRequesterNodeTypesResponse taskId requestId nodeTypes
  | .rpcResponse taskId callId status data => broker.handleRequesterRpcResponse taskId callId status data

/-! ## The broker as a state machine -/

inductive Event (Payload : Type) where
  | registerRunner (runnerId : RunnerId)
  | deregisterRunner (runnerId : RunnerId) (error : TaskFailure Payload)
  | registerRequester (requesterId : RequesterId)
  | deregisterRequester (requesterId : RequesterId)
  | runnerMessage (runnerId : RunnerId) (message : RunnerMessage.ToBroker Payload)
  | requesterMessage (requesterId : RequesterId) (message : RequesterMessage.ToBroker Payload)
  /-- The two seconds are over in which the runner has to accept the task. -/
  | runnerTimedOut (taskId : TaskId)
  /-- The two seconds are over in which the requester has to send its settings. -/
  | requesterTimedOut (taskId : TaskId)
  | taskTimedOut (taskId : TaskId)
  | acceptOfferGoesOn (taskId : TaskId)
  | goesOn (call : Suspended)
  | timePasses (duration : Nat)
deriving DecidableEq, Repr

def step (config : TaskRunnersConfig) (broker : TaskBroker Payload) : Event Payload → TaskBroker Payload
  | .registerRunner runnerId => broker.registerRunner runnerId
  | .deregisterRunner runnerId error => broker.deregisterRunner runnerId error
  | .registerRequester requesterId => broker.registerRequester requesterId
  | .deregisterRequester requesterId => broker.deregisterRequester requesterId
  | .runnerMessage runnerId message => broker.onRunnerMessage runnerId message
  | .requesterMessage requesterId message => broker.onRequesterMessage requesterId message
  | .runnerTimedOut taskId => broker.settleRunner taskId .timedOut
  | .requesterTimedOut taskId => broker.settleRequester taskId .timedOut
  | .taskTimedOut taskId => broker.handleTaskTimeout config taskId
  | .acceptOfferGoesOn taskId => broker.acceptOfferGoesOn taskId
  | .goesOn call => broker.goOn config call
  | .timePasses duration => { broker with now := broker.now + duration }

end TaskBroker

end N8n.TaskRunners
