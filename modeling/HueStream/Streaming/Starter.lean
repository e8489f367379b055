import HueStream.Data.Bridge
import HueStream.Json.Node
import HueStream.Lib.FirstMatch

/-! # Starting and stopping a stream on the bridge

`StreamStarter` activates and deactivates groups by requests it waits for. An `Exchange` is a bridge
with the answers that are still to come and the requests that were made; a call that runs out of
answers waits for ever, and one that dereferences a null group ends the program. -/

namespace HueStream.Streaming

open HueStream.Data HueStream.Json HueStream.Lib

/-- `ActivationOverrideLevel`. -/
inductive ActivationOverrideLevel
  | never | sameGroup | always
deriving DecidableEq

/-- A finished HTTP request: whether it was successful, and its answer. -/
structure HttpAnswer where
  success : Bool
  response : JSONNode

/-! ### Answers -/

/-- What `CheckForErrors` takes an answer for. -/
inductive Verdict
  | ok
  /-- The request was not successful. -/
  | unreachable
  | unauthorized
  /-- `IsNotExistingOrInvalidGroup`. -/
  | missing
  | busy
  /-- Any other error. -/
  | other
deriving DecidableEq

/-- The first entry of a list of errors that has a code decides, in the second version. -/
def verdictV2 (atof : String → ℚ) (node : JSONNode) : Verdict :=
  match node.find "errors" with
  | none => .ok
  | some errors =>
    match errors.asArray.findSome? (·.find "http_error") with
    | none => .ok
    | some errorCode =>
      if errorCode.asLong atof = 401 then .unauthorized
      else if errorCode.asLong atof = 503 ∨ errorCode.asLong atof = 400 then .busy
      else .other

/-- The first entry that is an error decides, in the first version. -/
def verdictV1 (atof : String → ℚ) (node : JSONNode) : Verdict :=
  if !node.isArray then .other
  else match node.asArray.findSome? (·.find "error") with
    | none => .ok
    | some entry =>
      match entry.find "type" with
      | none => .other
      | some i =>
        if i.asLong atof = 1 then .unauthorized
        else if i.asInt atof = 3 ∨ i.asInt atof = 6 then .missing
        else if i.asLong atof = 307 then .busy
        else .other

/-- What an answer is taken for. -/
def verdict (atof : String → ℚ) (useClipV2 : Bool) (answer : HttpAnswer) : Verdict :=
  if !answer.success then .unreachable
  else if useClipV2 then verdictV2 atof answer.response
  else verdictV1 atof answer.response

end HueStream.Streaming

namespace HueStream.Data.Bridge

open HueStream.Lib HueStream.Streaming

/-- `Bridge::DeleteGroup`. -/
def deleteGroup (b : Bridge) (id : String) : Bridge :=
  { b with groups := b.groups.eraseP fun g => g.id = id }

/-- The first group of an id is changed, if there is one. -/
def modifyGroup (b : Bridge) (id : String) (f : Group → Group) : Bridge :=
  { b with groups := modifyFirst (fun g => g.id = id) f b.groups }

/-- `Active()` by another client. -/
def isOwnedByOther (b : Bridge) (g : Group) : Bool := g.active && g.owner ≠ b.appId

/-- `Bridge::GetGroupsOwnedByOtherClient`. -/
def getGroupsOwnedByOtherClient (b : Bridge) : List Group := b.groups.filter b.isOwnedByOther

/-- What `CheckForErrors` does to the bridge. -/
def judge (b : Bridge) : Verdict → Bridge
  | .ok => { b with isBusy := false }
  | .unreachable => { b with isValidIp := false }
  | .unauthorized => { b with isAuthorized := false }
  | .missing => b.deleteGroup b.selectedGroup
  | .busy => { b with isBusy := true }
  | .other => b

end HueStream.Data.Bridge

namespace HueStream.Streaming

open HueStream.Data HueStream.Json HueStream.Lib

/-- `SetActive(false)` and `SetOwner("")`. -/
def released (g : Group) : Group := { g with active := false, owner := "" }

/-- A request to activate or deactivate a group. -/
structure Request where
  url : String
  groupId : String
  activate : Bool
  data : JSONNode
  verdict : Verdict

/-- A bridge in the middle of a call. -/
structure Exchange where
  bridge : Bridge
  answers : List HttpAnswer := []
  requests : List Request := []

/-- How a call does not return. -/
inductive Failure
  /-- It dereferences a null group. -/
  | nullGroup (e : Exchange)
  /-- It waits for an answer. -/
  | waiting

/-- What does not change. -/
structure Context where
  settings : BridgeSettings := {}
  atof : String → ℚ := fun _ => 0

namespace Exchange

variable (ε : Context) (e : Exchange)

/-- `IsSupportingClipV2`. -/
def useClipV2 : Bool := e.bridge.isSupportingClipV2 ε.settings

/-- The body of a request. -/
def data (activate : Bool) : JSONNode :=
  if e.useClipV2 ε then .node [("action", .string (if activate then "start" else "stop"))]
  else .node [("stream", .node [("active", .bool activate)])]

/-- `Execute(url, activate)`, where the url is that of a group. -/
def executeUrl (url groupId : String) (activate : Bool) : Except Failure (Bool × Exchange) :=
  match e.answers with
  | [] => .error .waiting
  | answer :: answers =>
    let v := verdict ε.atof (e.useClipV2 ε) answer
    .ok (v = .ok, ⟨e.bridge.judge v, answers,
      e.requests ++ [⟨url, groupId, activate, e.data ε activate, v⟩]⟩)

/-- `Execute(activate)`. -/
def execute (activate : Bool) : Except Failure (Bool × Exchange) :=
  e.executeUrl ε (e.bridge.getSelectedGroupUrl ε.settings) e.bridge.selectedGroup activate

/-- The url of a group in `DeactivateGroup`. -/
def groupUrl (groupId : String) : String :=
  if e.useClipV2 ε then
    e.bridge.getBaseUrl ε.settings true false ++ "/entertainment_configuration/" ++ groupId
  else e.bridge.getBaseUrl ε.settings false false ++ "groups/" ++ groupId

/-- `DeactivateGroup`. -/
def deactivateGroup (groupId : String) : Except Failure (Bool × Exchange) := do
  let (ok, e) ← e.executeUrl ε (e.groupUrl ε groupId) groupId false
  if ok then return (true, { e with bridge := e.bridge.modifyGroup groupId released })
  else return (false, e)

/-- The first block of `StartStream`, for the second version: a group that another client owns is
deactivated, when the level permits. -/
def releaseOther (overrideLevel : ActivationOverrideLevel) : Except Failure Exchange :=
  if !e.useClipV2 ε then .ok e
  else match e.bridge.getGroupsOwnedByOtherClient with
    | [] => .ok e
    | g :: _ => match overrideLevel with
      | .never => .ok e
      | .always => (e.deactivateGroup ε g.id).map Prod.snd
      | .sameGroup => match e.bridge.getGroup with
        | none => .error (.nullGroup e)
        | some group =>
          if group.id = g.id then (e.deactivateGroup ε g.id).map Prod.snd else .ok e

/-- The deactivation before the second attempt. The group is the one that was first in the list, whether
or not another one of its id comes before it. -/
def releaseFirst (overrideLevel : ActivationOverrideLevel) : Except Failure Exchange :=
  match overrideLevel, e.bridge.getGroupsOwnedByOtherClient with
  | .always, g :: _ => do
    let i := e.bridge.groups.findIdx e.bridge.isOwnedByOther
    let (ok, e) ← e.deactivateGroup ε g.id
    if ok then return { e with bridge.groups := e.bridge.groups.modify i released }
    else return e
  | _, _ => .ok e

/-- The second attempt. -/
def retry (overrideLevel : ActivationOverrideLevel) : Except Failure (Bool × Exchange) := do
  let e ← e.releaseFirst ε overrideLevel
  let (_, e) ← e.execute ε false
  e.execute ε true

/-- The end of `StartStream`. -/
def finish (overrideLevel : ActivationOverrideLevel) (result : Bool) : Except Failure (Bool × Exchange) :=
  if result then
    match e.bridge.getGroup with
    | none => .error (.nullGroup e)
    | some _ =>
      let owned := fun g : Group => { g with active := true, owner := e.bridge.appId }
      .ok (true, { e with bridge := e.bridge.modifyGroup e.bridge.selectedGroup owned })
  else if e.bridge.isBusy && e.bridge.isValidGroupSelected && overrideLevel ≠ .never then
    let inactive := fun g : Group => { g with active := false }
    .ok (false, { e with bridge := e.bridge.modifyGroup e.bridge.selectedGroup inactive })
  else .ok (false, e)

/-- `StreamStarter::StartStream`. -/
def startStream (overrideLevel : ActivationOverrideLevel) : Except Failure (Bool × Exchange) := do
  let e ← e.releaseOther ε overrideLevel
  let (result, e) ← e.execute ε true
  if !result && e.bridge.isBusy && overrideLevel ≠ .never then
    let (result, e) ← e.retry ε overrideLevel
    e.finish overrideLevel result
  else e.finish overrideLevel result

/-- `StreamStarter::Stop`. -/
def stop : Except Failure Exchange := do
  let (ok, e) ← e.execute ε false
  if ok && e.bridge.isValidGroupSelected then
    return { e with bridge := e.bridge.modifyGroup e.bridge.selectedGroup released }
  else return e

end Exchange

end HueStream.Streaming
