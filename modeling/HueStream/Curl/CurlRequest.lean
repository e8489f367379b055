import Mathlib.Data.List.TakeWhile

/-! # A request of the curl client

`CurlRequest` collects what curl receives for it. The parts of an event stream are posted to its dispatcher as
they come, and the response when the request is over. Status codes, header fields and certificates of the
responses are left out, but for the status that tells a reset of the server. -/

namespace HueStream.Curl

/-- `CURLcode`, as far as `parse_error_code` tells them apart. -/
inductive CurlCode
  | ok | abortedByCallback | couldntResolveHost | couldntConnect | operationTimedout | gotNothing
  | peerFailedVerification | sslCacertBadfile | sslConnectError | other
deriving DecidableEq

/-- `HttpRequestError::ErrorCode`, those a request can end with. -/
inductive HttpErrorCode
  | success | undefined | canceled | cannotResolveHost | cannotConnect | timeout | serverReset | invalidCertificate
deriving DecidableEq

/-- `parse_error_code`. -/
def parseErrorCode (code : CurlCode) (status : ℕ) (body : String) : HttpErrorCode :=
  match code with
  | .ok => if status = 0 ∧ body = "" then .serverReset else .success
  | .abortedByCallback => .canceled
  | .couldntResolveHost => .cannotResolveHost
  | .couldntConnect => .cannotConnect
  | .operationTimedout => .timeout
  | .gotNothing => .serverReset
  | .peerFailedVerification | .sslCacertBadfile | .sslConnectError => .invalidCertificate
  | .other => .undefined

/-- What curl writes: a part of a header or of a body. -/
structure Write where
  isHeader : Bool
  chunk : String
deriving DecidableEq

/-- A call of `_callback`. -/
inductive HttpCallback
  /-- A part of an event stream. -/
  | data (body : String)
  | final (error : HttpErrorCode) (body : String)
deriving DecidableEq

/-- The curl handle in the multi handle. -/
inductive Transfer
  | detached
  | running
  /-- Curl will report the end. -/
  | finished (code : CurlCode) (status : ℕ)
deriving DecidableEq

def Transfer.isFinished : Transfer → Bool
  | .finished _ _ => true
  | _ => false

/-- How far `stop_request` has come with the request. -/
inductive StopPoint
  /-- It has not been called. -/
  | idle
  /-- It waits for `_is_complete`. -/
  | complete
  /-- It waits for `_callback_posted`. -/
  | posted
  /-- The dispatcher gets closed. -/
  | shutdown
  /-- It waits for what is in the dispatcher. -/
  | clear
  | delete
  | returned
deriving DecidableEq

/-- What a request collects of its response. -/
structure Buffers where
  expectEventStream : Bool := false
  /-- The body goes to a file. -/
  hasFile : Bool := false
  headerBuffer : String := ""
  bodyBuffer : String := ""
  doneWritingHeader : Bool := false
  /-- What curl has written. -/
  received : List Write := []
deriving DecidableEq

/-- `CurlRequest`, with what has happened to it. -/
structure CurlRequest where
  buffers : Buffers := {}
  /-- `_curl` is not null. -/
  handle : Bool := true
  /-- `_error` and `_response`. -/
  response : Option (HttpErrorCode × String) := none
  callbackPosted : Bool := false
  isComplete : Bool := false
  /-- The executor of the dispatcher is closing. -/
  closing : Bool := false
  transfer : Transfer := .detached
  stop : StopPoint := .idle
  /-- `stop_request` was called in a callback or another function of the dispatcher. -/
  isInside : Bool := false
  /-- ... and in a callback of this request. -/
  isWithin : Bool := false
  /-- How often it was handed to curl. -/
  handed : ℕ := 0
  /-- What curl has reported as its end. -/
  completion : Option (CurlCode × ℕ) := none
  /-- The calls of `_callback`. -/
  called : List HttpCallback := []
deriving DecidableEq

namespace Buffers

variable (b : Buffers)

/-- `write_callback`: the buffers after it, and the body it posts. -/
def writeCallback (w : Write) : Buffers × Option String :=
  let b :=
    if w.isHeader then { b with headerBuffer := b.headerBuffer ++ w.chunk }
    else { b with bodyBuffer := b.bodyBuffer ++ w.chunk, doneWritingHeader := true }
  if b.expectEventStream && b.doneWritingHeader then
    (if w.isHeader then { b with headerBuffer := "" } else { b with bodyBuffer := "" }, some b.bodyBuffer)
  else (b, none)

/-- `header_write_callback`, `write_callback` or `write_file_callback`. -/
def write (w : Write) : Buffers × Option String :=
  let b := { b with received := b.received ++ [w] }
  if b.hasFile && !w.isHeader then (b, none) else b.writeCallback w

/-- What is passed on of an event stream: from the first part of a body on every write. -/
def events : List String :=
  if b.expectEventStream && !b.hasFile then
    (b.received.dropWhile (·.isHeader)).map fun w => if w.isHeader then "" else w.chunk
  else []

/-- The body of the final response: what was neither passed on nor written to a file. -/
def body : String :=
  if b.expectEventStream || b.hasFile then ""
  else String.join ((b.received.filter (!·.isHeader)).map (·.chunk))

/-- The buffers hold what they should. -/
structure Fits : Prop where
  body : b.bodyBuffer = b.body
  done : b.doneWritingHeader = (!b.hasFile && b.received.any (!·.isHeader))

end Buffers

namespace CurlRequest

variable (q : CurlRequest)

/-- `send_response` up to the post: the response is there, and the handle is gone. -/
def sendResponse (code : CurlCode) (status : ℕ) : CurlRequest :=
  { q with
    response := some (parseErrorCode code status q.buffers.bodyBuffer, q.buffers.bodyBuffer)
    handle := false
    transfer := .detached }

/-- What the posted function gives to `_callback` at the end. -/
def finalCallback : HttpCallback :=
  let x := q.response.getD (.undefined, "")
  .final x.1 x.2

/-- The result of the request: what curl has reported, or that it was stopped before. -/
def IsResult (x : HttpErrorCode × String) : Prop :=
  (∃ code status, q.completion = some (code, status) ∧
    x = (parseErrorCode code status q.buffers.body, q.buffers.body)) ∨
    q.completion = none ∧ q.stop ≠ .idle ∧ x = (.canceled, q.buffers.body)

end CurlRequest

/-! ### What is passed on -/

variable {b : Buffers} {received : List Write}

theorem dropWhile_concat_of_any (w : Write) (h : received.any (!·.isHeader) = true) :
    (received ++ [w]).dropWhile (·.isHeader) = received.dropWhile (·.isHeader) ++ [w] := by
  rw [List.dropWhile_append, if_neg]
  rw [List.isEmpty_iff, List.dropWhile_eq_nil_iff]
  intro hall
  obtain ⟨x, hx, hbody⟩ := List.any_eq_true.mp h
  rw [hall x hx] at hbody
  cases hbody

theorem dropWhile_eq_nil_of_not_any (h : received.any (!·.isHeader) = false) :
    received.dropWhile (·.isHeader) = [] := by
  rw [List.dropWhile_eq_nil_iff]
  intro x hx
  simpa using List.any_eq_false.mp h x hx

theorem dropWhile_concat_of_not_any (w : Write) (h : received.any (!·.isHeader) = false) :
    (received ++ [w]).dropWhile (·.isHeader) = [w].dropWhile (·.isHeader) := by
  rw [List.dropWhile_append, dropWhile_eq_nil_of_not_any h]
  rfl

theorem Buffers.Fits.write (h : b.Fits) (w : Write) : (b.write w).1.Fits := by
  obtain ⟨hbody, hdone⟩ := h
  obtain ⟨expectEventStream, hasFile, header, body, done, received⟩ := b
  obtain ⟨isHeader, chunk⟩ := w
  simp only [Buffers.body] at hbody hdone
  subst hbody hdone
  constructor
  · cases expectEventStream <;> cases hasFile <;> cases isHeader <;> cases received.any (!·.isHeader) <;>
      simp [Buffers.write, writeCallback, Buffers.body]
  · cases expectEventStream <;> cases hasFile <;> cases isHeader <;> cases hany : received.any (!·.isHeader) <;>
      simp [Buffers.write, writeCallback, hany]

/-- **What a write posts** is the next part of the events. -/
theorem Buffers.Fits.events_write (h : b.Fits) (w : Write) :
    (b.write w).1.events = b.events ++ (b.write w).2.toList := by
  obtain ⟨hbody, hdone⟩ := h
  obtain ⟨expectEventStream, hasFile, header, body, done, received⟩ := b
  obtain ⟨isHeader, chunk⟩ := w
  simp only [Buffers.body] at hbody hdone
  subst hbody hdone
  cases hany : received.any (!·.isHeader) with
  | true =>
    have hdrop := fun w => dropWhile_concat_of_any w hany
    cases expectEventStream <;> cases hasFile <;> cases isHeader <;>
      simp [Buffers.write, writeCallback, events, hdrop]
  | false =>
    have hnil := dropWhile_eq_nil_of_not_any hany
    have hdrop := fun w => dropWhile_concat_of_not_any w hany
    cases expectEventStream <;> cases hasFile <;> cases isHeader <;>
      simp [Buffers.write, writeCallback, events, hdrop, hnil]

end HueStream.Curl
