import Mathlib.Data.List.Basic

/-! # The messages between the task broker, the runners and the requesters

`packages/@n8n/task-runner/src/message-types.ts`.  What a message carries along
for the other side (data, settings, parameters, errors) is of one opaque type.
The ids that `nanoid` gives are numbers, in the order in which they were given.
-/

namespace N8n.TaskRunners

abbrev TaskId := Nat

abbrev OfferId := Nat

abbrev RunnerId := String

abbrev RequesterId := String

abbrev RequestId := String

inductive TaskFailure (Payload : Type) where
  /-- What the other side sent or threw. -/
  | error (error : Payload)
  /-- `TimeoutError` and `TaskRunnerTimeoutError` -/
  | timeout (taskTimeout : Nat)
  | cannotFindRunner (runnerId : RunnerId)
  | unexpectedTaskStatus (taskId : TaskId)
deriving DecidableEq, Repr

inductive ResponseStatus where
  | success
  | error
deriving DecidableEq, Repr

namespace BrokerMessage

inductive ToRunner (Payload : Type) where
  | infoRequest
  | runnerRegistered
  | taskOfferAccept (offerId : OfferId) (taskId : TaskId)
  | taskCancel (taskId : TaskId) (reason : String)
  | taskSettings (taskId : TaskId) (settings : Payload)
  | rpcResponse (taskId : TaskId) (callId : String) (status : ResponseStatus) (data : Payload)
  | taskDataResponse (taskId : TaskId) (requestId : String) (data : Payload)
  | nodeTypes (taskId : TaskId) (requestId : String) (nodeTypes : Payload)
deriving DecidableEq, Repr

inductive ToRequester (Payload : Type) where
  | taskReady (requestId : RequestId) (taskId : TaskId)
  | taskDone (taskId : TaskId) (data : Payload)
  | taskError (taskId : TaskId) (error : TaskFailure Payload)
  | taskDataRequest (taskId : TaskId) (requestId : String) (requestParams : Payload)
  | nodeTypesRequest (taskId : TaskId) (requestId : String) (requestParams : Payload)
  | rpc (taskId : TaskId) (callId : String) (name : String) (params : Payload)
deriving DecidableEq, Repr

end BrokerMessage

namespace RequesterMessage

inductive ToBroker (Payload : Type) where
  | taskSettings (taskId : TaskId) (settings : Payload)
  | taskCancel (taskId : TaskId) (reason : String)
  | taskDataResponse (taskId : TaskId) (requestId : String) (data : Payload)
  | nodeTypesResponse (taskId : TaskId) (requestId : String) (nodeTypes : Payload)
  | rpcResponse (taskId : TaskId) (callId : String) (status : ResponseStatus) (data : Payload)
  | taskRequest (requestId : RequestId) (taskType : String)
deriving DecidableEq, Repr

end RequesterMessage

namespace RunnerMessage

inductive ToBroker (Payload : Type) where
  | info (name : String) (types : List String)
  | taskAccepted (taskId : TaskId)
  | taskRejected (taskId : TaskId) (reason : String)
  /-- Message where launcher (impersonating runner) requests broker to hold task until runner is ready. -/
  | taskDeferred (taskId : TaskId)
  | taskDone (taskId : TaskId) (data : Payload)
  | taskError (taskId : TaskId) (error : TaskFailure Payload)
  /-- `validFor` is in milliseconds; `-1` is for offers that do not expire. -/
  | taskOffer (offerId : OfferId) (taskType : String) (validFor : Int)
  | taskDataRequest (taskId : TaskId) (requestId : String) (requestParams : Payload)
  | nodeTypesRequest (taskId : TaskId) (requestId : String) (requestParams : Payload)
  | rpc (taskId : TaskId) (callId : String) (name : String) (params : Payload)
deriving DecidableEq, Repr

end RunnerMessage

end N8n.TaskRunners
