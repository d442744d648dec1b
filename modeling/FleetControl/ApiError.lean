import FleetControl.Json.Reader
import FleetControl.Text.Blank
import FleetControl.Text.Cut

namespace FleetControl

inductive ApiError
  | status (status : Nat) (code : String) (message : String)
  | transport (reason : String)
  | decode (reason : String)
deriving DecidableEq, Repr

namespace ApiError

def message : ApiError → String
  | status s code m => s!"API request failed: {s} {code}: {m}"
  | transport reason => s!"failed to send request: {reason}"
  | decode reason => s!"failed to parse response: {reason}"

def status? : ApiError → Option Nat
  | status s _ _ => some s
  | _ => none

def shownLength : Nat := 80

def abridged (m : String) : String :=
  String.ofList ((m.toList.filter Text.isPlain).take shownLength)

def excerpt (code m : String) : String :=
  let shown := abridged m
  if shown.utf8ByteSize < m.utf8ByteSize then s!"{shown}... ({code})" else s!"{shown} ({code})"

def advice : ApiError → String
  | status s code m =>
    if s = 401 then "Authentication failed. Check your UpCloud username and password."
    else if s = 403 then "Permission denied. Check the API permissions of your account."
    else if s = 404 then "Resource not found."
    else if s = 429 then "Rate limit exceeded. Please try again later."
    else if 500 ≤ s then "UpCloud API temporarily unavailable. Please try again."
    else excerpt code m
  | transport _ => "Request failed. Check your network connection and try again."
  | decode _ => "Unexpected response from the UpCloud API."

def ofAnswer (s : Nat) (body : String) : ApiError :=
  let error : Option Json := (Json.read body).toOption.bind fun v => v.get? "error"
  let field (key : String) : Option String := error.bind fun e => (e.get? key).bind Json.text?
  .status s ((field "error_code").getD "UNKNOWN") ((field "error_message").getD "no error message")

end ApiError

def loggedBytes : Nat := 200

def curtailed? (body : String) : Except Text.BadCut String :=
  let size := body.utf8ByteSize
  if loggedBytes < size then do
    let front ← Text.before? body (← Text.lastCut? body loggedBytes)
    pure s!"{front}... [truncated, {size} bytes total]"
  else pure body

def loggable? (body : String) : Except Text.BadCut String :=
  (curtailed? body).map fun shown => String.ofList (shown.toList.filter Text.isPlain)

def loggable (body : String) : String := (loggable? body).toOption.getD ""

end FleetControl
