import Mathlib.Data.List.Basic

/-!
# SIP messages and what they say

`SipDevManager.onReceivedMessage` looks at the start line, the body and the method of the CSeq
header.  The body is XML, and `XmlToJson` is the library that makes JSON of it:
it stays a parameter, `none` where no JSON comes out.  What a message leads to is one
value of `Received`: the service message that is posted to the main thread, and the
name under which `handle` then looks for the request that was waiting.

The bodies are read into the model classes by Gson, which is a parameter as well, `none`
where it throws.
-/

namespace PetDev.Sip

inductive JsonElement where
  | null
  | bool (b : Bool)
  | number (text : String)
  | string (text : String)
  | array (elems : List JsonElement)
  | object (entries : List (String × JsonElement))

namespace JsonElement

/-- The value of a field. -/
def field (key : String) : JsonElement → Option JsonElement
  | .object entries => entries.lookup key
  | _ => none

/-- What `NormalRequestService.handleRequest` hands to Gson. -/
def toObject : JsonElement → JsonElement
  | .object entries => .object entries
  | _ => .object []

end JsonElement

structure NegotiateResponse where
  salt : Option String
  seed : Option String
  deriving DecidableEq, Repr

structure FeedNotifyData where
  userName : Option String
  devId : Option String
  feedCount : Option String
  deriving DecidableEq, Repr

/-- The libraries that read the bodies. -/
structure Libraries where
  xmlToJson : String → Option JsonElement
  /-- `fromJson(.., NegotiateResponse.class)`. -/
  negotiateResponse : JsonElement → Option NegotiateResponse
  /-- `fromJson(.., FeedNotifyData.class)`. -/
  feedNotifyData : JsonElement → Option FeedNotifyData

/-! ## Messages -/

/-- The start line: `isResponse`, `isNotify` and `isRequest` in the order they are asked. -/
inductive StartLine where
  | response (code : Int)
  | notify
  | request
  | unknown
  deriving DecidableEq, Repr

structure CSeqHeader where
  sequenceNumber : Int
  method : Option String
  deriving DecidableEq, Repr

/-- What tells one request from another: the Call-ID and the CSeq. -/
structure MessageId where
  callId : String
  cSeq : Option CSeqHeader
  deriving DecidableEq, Repr

/-- A message with a body that can be read; any other is handled like one of an unknown kind. -/
structure Message where
  startLine : StartLine
  id : MessageId
  body : Option String

/-- `none` is the `NullPointerException` without a CSeq header, or with one that has no method. -/
def Message.getMethodId (m : Message) : Option String := m.id.cSeq.bind CSeqHeader.method

/-- What `onReceivedMessage` does with a message. -/
inductive Received where
  | nothing
  | post (key : String) (json : JsonElement)
  /-- The post, and then the lookup of the request that waits for `key`. -/
  | answer (key : String) (json : JsonElement)

namespace Received

/-- The service message that is posted. -/
def posted : Received → Option (String × JsonElement)
  | .nothing => none
  | .post key json => some (key, json)
  | .answer key json => some (key, json)

def error : Received := .post "error" (.object [])

end Received

namespace SipDevManager

def handle : JsonElement → Received
  | .object ((key, value) :: _) => .answer key value
  | _ => .nothing

/-- `none` is the exception of `getMethodId`; what `JsonParser` and `handle` throw is caught here. -/
def parseMessage (xmlToJson : String → Option JsonElement) (m : Message) : Option Received :=
  match m.body with
  | none | some "" =>
    m.getMethodId.map fun method =>
      if method = "ACK" ∨ method = "BYE" then .nothing
      else .post method.toLower (.object [])
  | some body =>
    match xmlToJson body with
    | some data => some (handle data)
    | none => some .nothing

def handleMessage (xmlToJson : String → Option JsonElement) (m : Message) : Option Received :=
  match m.startLine with
  | .response code => if code = 200 then parseMessage xmlToJson m else some .error
  | .notify => parseMessage xmlToJson m
  | .request => parseMessage xmlToJson m
  | .unknown => some .error

def onReceivedMessage (xmlToJson : String → Option JsonElement) (m : Message) : Received :=
  (handleMessage xmlToJson m).getD .error

end SipDevManager

/-! ## Some messages

What `XmlToJson` makes of their bodies: a repeated element becomes an array.  Gson does not take an
array for a text. -/

def sampleXmlToJson (body : String) : Option JsonElement :=
  if body = "<login_response>ok</login_response>" then
    some (.object [("login_response", .string "ok")])
  else if body = "<negotiate_response><salt>a</salt><salt>b</salt></negotiate_response>" then
    some (.object [("negotiate_response",
      .object [("salt", .array [.string "a", .string "b"])])])
  else if body = "<feed_now_response><feed_count>1</feed_count></feed_now_response>" then
    some (.object [("feed_now_response", .object [("feed_count", .string "1")])])
  else none

def sampleText (key : String) (data : JsonElement) : Option (Option String) :=
  match data.field key with
  | some (.string text) => some (some text)
  | some (.array _) => none
  | _ => some none

def sampleLibraries : Libraries where
  xmlToJson := sampleXmlToJson
  negotiateResponse data := do
    let salt ← sampleText "salt" data
    let seed ← sampleText "seed" data
    return ⟨salt, seed⟩
  feedNotifyData data := do
    let userName ← sampleText "from" data
    let devId ← sampleText "to" data
    let feedCount ← sampleText "feed_count" data
    return ⟨userName, devId, feedCount⟩

/-- A 200 to a REGISTER. -/
def ok (callId body : String) : Message :=
  ⟨.response 200, ⟨callId, some ⟨1, some "REGISTER"⟩⟩, some body⟩

def loginOk : Message := ok "login" "<login_response>ok</login_response>"

def twoSalts : Message :=
  ok "negotiate" "<negotiate_response><salt>a</salt><salt>b</salt></negotiate_response>"

def feedOne : Message :=
  ⟨.request, ⟨"feed", some ⟨1, some "MESSAGE"⟩⟩,
    some "<feed_now_response><feed_count>1</feed_count></feed_now_response>"⟩

end PetDev.Sip
