import PetDev.Lib.Emitting
import PetDev.Sip.Message

/-!
# Which service messages a SIP message leads to

The methods of `SipDevManager` once more, with every point where they throw and both handlers:
the status code, the body (whose `Content-Length` may be no number) and the method of the CSeq.
`onReceivedMessage` posts to the error service when `handleMessage` throws; `parseMessage` has a
handler of its own, around the parser of the JSON text and `handle`, which only prints.

`XmlToJson` and Gson's `JsonParser` are parameters, with what is known of them in `Documented`.
`onReceivedMessage_eq`: this is the method that `Received` sums up, so a message never leads to
two posts.  `dispatchedOnce_iff`: it leads to the posts that it should, unless it has a body that
is no XML.  Such a message is dropped.
-/

namespace PetDev.Sip

open Emitting

/-- A message as `handleMessage` and `parseMessage` ask for it. -/
structure Incoming where
  isResponse : Bool
  /-- `getStatusLine().getCode()`, `none` when that throws. -/
  code : Option Int
  isNotify : Bool
  isRequest : Bool
  /-- `getBody()`, which may be `null`; `none` when it throws. -/
  body : Option (Option String)
  /-- `getMethodId().toString()`, `none` when that throws. -/
  methodId : Option String

/-- What is used of other libraries and of the requests that wait. -/
structure Environment where
  /-- `new XmlToJson.Builder(body).build().toString()`, which may be `null`. -/
  xmlToJson : String → Option String
  /-- `new JsonParser().parse(..)`, `none` when it throws. -/
  parse : String → Option JsonElement
  /-- Whether the lookup in `mRequestMap` and `response()` return. -/
  answers : String → Bool

/-- The key of a service message and its JSON. -/
abbrev ServiceMessage := String × JsonElement

namespace Dispatch

/-- `SipServiceManager.handleRequest`. -/
def handleRequest (key : String) (json : JsonElement) : Emitting ServiceMessage Unit :=
  emit (key, json)

def error : Emitting ServiceMessage Unit := handleRequest "error" (.object [])

def handle (env : Environment) (data : JsonElement) : Emitting ServiceMessage Unit :=
  match data with
  | .object ((key, value) :: _) =>
    (handleRequest key value).andThen fun _ =>
      if env.answers key then return_ () else throw
  | _ => return_ ()

/-- `none` is the text `null`, which the parser does not accept. -/
def parseJson (env : Environment) : Option String → Emitting ServiceMessage JsonElement
  | none => throw
  | some text => ofOption (env.parse text)

def parseMessage (env : Environment) (m : Incoming) : Emitting ServiceMessage Unit :=
  (ofOption m.body).andThen fun body =>
    match body with
    | none | some "" =>
      (ofOption m.methodId).andThen fun method =>
        if method = "ACK" ∨ method = "BYE" then return_ ()
        else handleRequest method.toLower (.object [])
    | some body =>
      ((parseJson env (env.xmlToJson body)).andThen fun data => handle env data).catching
        (return_ ())

def handleMessage (env : Environment) (m : Incoming) : Emitting ServiceMessage Unit :=
  if m.isResponse then
    (ofOption m.code).andThen fun code =>
      if code = 200 then parseMessage env m else error
  else if m.isNotify then parseMessage env m
  else if m.isRequest then parseMessage env m
  else error

def onReceivedMessage (env : Environment) (m : Incoming) : Emitting ServiceMessage Unit :=
  (handleMessage env m).catching error

end Dispatch

/-! ## No message leads to two posts -/

/-- The message as the other files have it: without a status code, or with a body that cannot be
read, it is as good as unknown. -/
def Incoming.toMessage (m : Incoming) (callId : String) : Message where
  startLine :=
    if m.body = none then .unknown
    else if m.isResponse then m.code.elim .unknown .response
    else if m.isNotify then .notify
    else if m.isRequest then .request
    else .unknown
  id := ⟨callId, m.methodId.map fun method => ⟨0, some method⟩⟩
  body := m.body.join

/-- `TextUtils.isEmpty(body)`. -/
def Incoming.Empty (m : Incoming) : Prop := m.body = some none ∨ m.body = some (some "")

theorem Incoming.exists_body {m : Incoming} (hread : m.body ≠ none) (h : ¬ m.Empty) :
    ∃ body, m.body = some (some body) ∧ body ≠ "" := by
  obtain ⟨hnull, hempty⟩ := not_or.mp h
  obtain ⟨read, hbody⟩ := Option.ne_none_iff_exists'.mp hread
  cases read with
  | none => exact absurd hbody hnull
  | some body => exact ⟨body, hbody, fun hne => hempty (hne ▸ hbody)⟩

/-- The JSON that comes out of a body. -/
def Environment.json (env : Environment) (body : String) : Option JsonElement :=
  (env.xmlToJson body).bind env.parse

namespace Dispatch

variable {env : Environment} {m : Incoming}

/-- A call that does what `r` says, `none` for an exception. -/
def ComesTo (x : Emitting ServiceMessage Unit) : Option Received → Prop
  | some r => x.emitted = r.posted.toList ∧ x.value = some ()
  | none => x = throw

theorem emitted_handle (env : Environment) (data : JsonElement) :
    (handle env data).emitted = (SipDevManager.handle data).posted.toList := by
  cases data with
  | object entries =>
    cases entries with
    | nil => rfl
    | cons entry rest =>
      show Emitting.emitted ((handleRequest entry.1 entry.2).andThen _) = _
      rw [andThen_of_some rfl]
      split <;> rfl
  | _ => rfl

/-- What `parseMessage` does with a body, whatever is thrown on the way. -/
theorem comesTo_body (env : Environment) (body : String) :
    ComesTo (((parseJson env (env.xmlToJson body)).andThen fun data => handle env data).catching
      (return_ ())) (some (match env.json body with
        | some data => SipDevManager.handle data
        | none => .nothing)) := by
  obtain ⟨⟨⟩, hvalue⟩ := exists_value_catching_return
    ((parseJson env (env.xmlToJson body)).andThen fun data => handle env data) ()
  refine ⟨?_, hvalue⟩
  rw [emitted_catching_return]
  unfold Environment.json
  cases env.xmlToJson body with
  | none => rfl
  | some text =>
    show Emitting.emitted ((ofOption (env.parse text)).andThen _) = _
    rw [Option.bind_some]
    cases hparse : env.parse text with
    | none => rfl
    | some data =>
      rw [andThen_of_some rfl]
      exact emitted_handle env data

theorem comesTo_method (method : Option String) :
    ComesTo ((ofOption method).andThen fun method =>
        if method = "ACK" ∨ method = "BYE" then return_ ()
        else handleRequest method.toLower (.object []))
      (method.map fun method =>
        if method = "ACK" ∨ method = "BYE" then .nothing
        else .post method.toLower (.object [])) := by
  cases method with
  | none => rfl
  | some method =>
    rw [andThen_of_some rfl, Option.map_some]
    split <;> exact ⟨rfl, rfl⟩

theorem parseMessage_of_unreadable (h : m.body = none) : parseMessage env m = throw := by
  unfold parseMessage
  rw [h]
  rfl

theorem parseMessage_of_empty (h : m.Empty) :
    parseMessage env m = (ofOption m.methodId).andThen fun method =>
      if method = "ACK" ∨ method = "BYE" then return_ ()
      else handleRequest method.toLower (.object []) := by
  unfold parseMessage
  rcases h with h | h
  · rw [h, andThen_of_some rfl]
    rfl
  · rw [h, andThen_of_some rfl]
    rfl

theorem parseMessage_of_body {body : String} (h : m.body = some (some body)) (hne : body ≠ "") :
    parseMessage env m =
      ((parseJson env (env.xmlToJson body)).andThen fun data => handle env data).catching
        (return_ ()) := by
  unfold parseMessage
  rw [h, andThen_of_some rfl]
  show (match some body with | none | some "" => _ | some body => _) = _
  split
  · next heq => cases heq
  · next heq => exact absurd (Option.some.inj heq) hne
  · next heq => rw [Option.some.inj heq]

theorem comesTo_parseMessage (hread : m.body ≠ none) (callId : String) :
    ComesTo (parseMessage env m) (SipDevManager.parseMessage env.json (m.toMessage callId)) := by
  have hmethod : (m.toMessage callId).getMethodId = m.methodId := by
    unfold Message.getMethodId Incoming.toMessage
    cases m.methodId <;> rfl
  by_cases hempty : m.Empty
  · rw [parseMessage_of_empty hempty]
    have hcoarse : SipDevManager.parseMessage env.json (m.toMessage callId) =
        m.methodId.map fun method =>
          if method = "ACK" ∨ method = "BYE" then .nothing
          else .post method.toLower (.object []) := by
      unfold SipDevManager.parseMessage
      rw [hmethod]
      show (match m.body.join with | none | some "" => _ | some body => _) = _
      rcases hempty with h | h
      · rw [h]
        rfl
      · rw [h]
        rfl
    rw [hcoarse]
    exact comesTo_method m.methodId
  · obtain ⟨body, hbody, hne⟩ := Incoming.exists_body hread hempty
    rw [parseMessage_of_body hbody hne]
    have hcoarse : SipDevManager.parseMessage env.json (m.toMessage callId) =
        some (match env.json body with
          | some data => SipDevManager.handle data
          | none => .nothing) := by
      unfold SipDevManager.parseMessage
      show (match m.body.join with | none | some "" => _ | some body => _) = _
      rw [hbody]
      show (match some body with | none | some "" => _ | some body => _) = _
      split
      · next heq => cases heq
      · next heq => exact absurd (Option.some.inj heq) hne
      · next heq =>
        rw [← Option.some.inj heq]
        cases env.json body <;> rfl
    rw [hcoarse]
    exact comesTo_body env body

theorem ComesTo.emitted_catching {x : Emitting ServiceMessage Unit} {r : Option Received}
    (h : ComesTo x r) : (x.catching error).emitted = (r.getD .error).posted.toList := by
  cases r with
  | none =>
    rw [show x = throw from h]
    rfl
  | some r =>
    rw [catching_of_some h.2]
    exact h.1

/-- Where the body throws, the handler of `onReceivedMessage` posts, if nothing has before it. -/
theorem emitted_of_body_none (h : m.body = none) :
    (onReceivedMessage env m).emitted = [("error", .object [])] := by
  unfold onReceivedMessage handleMessage
  rw [parseMessage_of_unreadable h]
  cases m.isResponse with
  | true =>
    cases m.code with
    | none => rfl
    | some code =>
      rw [if_pos rfl, andThen_of_some rfl]
      split <;> rfl
  | false => cases m.isNotify <;> cases m.isRequest <;> rfl

/-- **One message leads to what `Received` says**: an exception after a post does not lead to
another one. -/
theorem onReceivedMessage_eq (env : Environment) (m : Incoming) (callId : String) :
    (onReceivedMessage env m).emitted =
      (SipDevManager.onReceivedMessage env.json (m.toMessage callId)).posted.toList := by
  have hline : (m.toMessage callId).startLine =
      if m.body = none then .unknown
      else if m.isResponse then m.code.elim .unknown .response
      else if m.isNotify then .notify
      else if m.isRequest then .request
      else .unknown := rfl
  by_cases hread : m.body = none
  · rw [if_pos hread] at hline
    rw [emitted_of_body_none hread, SipDevManager.onReceivedMessage, SipDevManager.handleMessage,
      hline]
    rfl
  have hparse := (@comesTo_parseMessage env m hread callId).emitted_catching
  rw [if_neg hread] at hline
  unfold onReceivedMessage SipDevManager.onReceivedMessage handleMessage
    SipDevManager.handleMessage
  rw [hline]
  by_cases hresponse : m.isResponse
  · rw [if_pos hresponse, if_pos hresponse]
    cases m.code with
    | none => rfl
    | some code =>
      rw [andThen_of_some rfl]
      by_cases hcode : code = 200
      · simp only [hcode, Option.elim_some, if_true]
        exact hparse
      · simp only [hcode, Option.elim_some, if_false]
        rfl
  · rw [if_neg hresponse, if_neg hresponse]
    by_cases hnotify : m.isNotify
    · rw [if_pos hnotify, if_pos hnotify]
      exact hparse
    · rw [if_neg hnotify, if_neg hnotify]
      by_cases hrequest : m.isRequest
      · rw [if_pos hrequest, if_pos hrequest]
        exact hparse
      · rw [if_neg hrequest, if_neg hrequest]
        rfl

end Dispatch

/-! ## What it should lead to -/

namespace Incoming

/-- A request, or a response with code `200`. -/
def Parsed (m : Incoming) : Prop :=
  (m.isResponse = true ∧ m.code = some 200) ∨
    (m.isResponse = false ∧ (m.isNotify = true ∨ m.isRequest = true))

/-- What needs no answer. -/
def Silent (m : Incoming) : Prop :=
  m.Parsed ∧ m.Empty ∧ (m.methodId = some "ACK" ∨ m.methodId = some "BYE")

/-- There is no start line, or no method where one is needed, to tell what it is. -/
def Unclassified (m : Incoming) : Prop :=
  (m.isResponse = true ∧ m.code = none) ∨
    (m.isResponse = false ∧ m.isNotify = false ∧ m.isRequest = false) ∨
    (m.Parsed ∧ m.Empty ∧ m.methodId = none)

/-- With a start line, it is the method that is missing. -/
theorem Unclassified.of_parsed {m : Incoming} (h : m.Unclassified) (hparsed : m.Parsed) :
    m.Empty ∧ m.methodId = none := by
  rcases h with ⟨hresponse, hcode⟩ | ⟨hresponse, hnotify, hrequest⟩ | ⟨-, hempty, hmethod⟩
  · rcases hparsed with ⟨-, hok⟩ | ⟨hno, -⟩
    · cases hcode.symm.trans hok
    · cases hresponse.symm.trans hno
  · rcases hparsed with ⟨hyes, -⟩ | ⟨-, hn | hr⟩
    · cases hresponse.symm.trans hyes
    · cases hnotify.symm.trans hn
    · cases hrequest.symm.trans hr
  · exact ⟨hempty, hmethod⟩

/-- The body has to be parsed, and cannot even be read. -/
def Unreadable (m : Incoming) : Prop := m.Parsed ∧ m.body = none

/-- The body has to be parsed, and is no XML. -/
def Unparsable (isXml : String → Prop) (m : Incoming) : Prop :=
  m.Parsed ∧ ∃ body, m.body = some (some body) ∧ body ≠ "" ∧ ¬ isXml body

end Incoming

/-- What is known of `XmlToJson` and of the parser: a document becomes an object with its root, and
of anything else comes `null` or an empty object. -/
structure Environment.Documented (env : Environment) (isXml : String → Prop) : Prop where
  document : ∀ body, isXml body → ∃ text key value entries, env.xmlToJson body = some text ∧
    env.parse text = some (.object ((key, value) :: entries))
  other : ∀ body, ¬ isXml body → env.xmlToJson body = none ∨
    ∃ text, env.xmlToJson body = some text ∧ env.parse text = some (.object [])

/-- One service message, or none for what needs no answer; to the error service with what cannot
be classified, read or parsed. -/
structure DispatchedOnce (isXml : String → Prop) (m : Incoming) (posts : List ServiceMessage) :
    Prop where
  silent : m.Silent → posts = []
  once : ¬ m.Silent → posts.length = 1
  error : m.Unclassified ∨ m.Unreadable ∨ m.Unparsable isXml → posts = [("error", .object [])]

namespace Dispatch

variable {env : Environment} {isXml : String → Prop} {m : Incoming}

theorem emitted_of_parsed (h : m.Parsed) :
    (onReceivedMessage env m).emitted = ((parseMessage env m).catching error).emitted := by
  unfold onReceivedMessage handleMessage
  rcases h with ⟨hresponse, hcode⟩ | ⟨hresponse, hrequest⟩
  · rw [if_pos hresponse, hcode, andThen_of_some rfl]
    rfl
  · rw [if_neg (by simp [hresponse])]
    rcases hrequest with hnotify | hrequest
    · rw [if_pos hnotify]
    · rw [if_pos hrequest, ite_self]

theorem emitted_of_not_parsed (h : ¬ m.Parsed) :
    (onReceivedMessage env m).emitted = [("error", .object [])] := by
  unfold onReceivedMessage handleMessage
  unfold Incoming.Parsed at h
  cases hresponse : m.isResponse with
  | true =>
    cases hcode : m.code with
    | none => rfl
    | some code =>
      have hne : code ≠ 200 := fun he => h (Or.inl ⟨hresponse, he ▸ hcode⟩)
      rw [if_pos rfl, andThen_of_some rfl, if_neg hne]
      rfl
  | false =>
    have hnotify : m.isNotify ≠ true := fun hn => h (Or.inr ⟨hresponse, Or.inl hn⟩)
    have hrequest : m.isRequest ≠ true := fun hr => h (Or.inr ⟨hresponse, Or.inr hr⟩)
    rw [if_neg Bool.false_ne_true, if_neg hnotify, if_neg hrequest]
    rfl

theorem emitted_of_empty (h : m.Parsed) (hempty : m.Empty) :
    (onReceivedMessage env m).emitted =
      match m.methodId with
      | none => [("error", .object [])]
      | some method =>
        if method = "ACK" ∨ method = "BYE" then [] else [(method.toLower, .object [])] := by
  rw [emitted_of_parsed h, parseMessage_of_empty hempty,
    (comesTo_method m.methodId).emitted_catching]
  cases m.methodId with
  | none => rfl
  | some method =>
    by_cases hsilent : method = "ACK" ∨ method = "BYE"
    · simp only [Option.map_some, Option.getD_some, if_pos hsilent]
      rfl
    · simp only [Option.map_some, Option.getD_some, if_neg hsilent]
      rfl

theorem emitted_of_body (h : m.Parsed) {body : String} (hbody : m.body = some (some body))
    (hne : body ≠ "") : (onReceivedMessage env m).emitted =
      match env.json body with
      | some data => (SipDevManager.handle data).posted.toList
      | none => [] := by
  rw [emitted_of_parsed h, parseMessage_of_body hbody hne, (comesTo_body env body).emitted_catching]
  cases env.json body <;> rfl

theorem emitted_of_unparsable (henv : env.Documented isXml) (h : m.Unparsable isXml) :
    (onReceivedMessage env m).emitted = [] := by
  obtain ⟨hparsed, body, hbody, hne, hnot⟩ := h
  rw [emitted_of_body hparsed hbody hne]
  rcases henv.other body hnot with hnull | ⟨text, htext, hparse⟩
  · rw [Environment.json, hnull]
    rfl
  · rw [Environment.json, htext, Option.bind_some, hparse]
    rfl

theorem length_emitted_of_xml (henv : env.Documented isXml) (h : m.Parsed) {body : String}
    (hbody : m.body = some (some body)) (hne : body ≠ "") (hxml : isXml body) :
    (onReceivedMessage env m).emitted.length = 1 := by
  obtain ⟨text, key, value, entries, htext, hparse⟩ := henv.document body hxml
  rw [emitted_of_body h hbody hne, Environment.json, htext, Option.bind_some, hparse]
  rfl

/-- A message that goes to the error service is dispatched as it should, unless it is silent. -/
theorem dispatchedOnce_of_error (hsilent : ¬ m.Silent)
    (hposts : (onReceivedMessage env m).emitted = [("error", .object [])]) :
    DispatchedOnce isXml m (onReceivedMessage env m).emitted := by
  rw [hposts]
  exact ⟨fun hs => absurd hs hsilent, fun _ => rfl, fun _ => rfl⟩

theorem dispatchedOnce_of_empty (h : m.Parsed) (hempty : m.Empty) :
    DispatchedOnce isXml m (onReceivedMessage env m).emitted := by
  have hposts := @emitted_of_empty env m h hempty
  have hreadable : ¬ m.Unreadable := by
    rintro ⟨-, hbody⟩
    rcases hempty with he | he <;> cases hbody.symm.trans he
  have hparsable : ¬ m.Unparsable isXml := by
    rintro ⟨-, body, hbody, hne, -⟩
    rcases hempty with he | he
    · cases hbody.symm.trans he
    · exact hne (Option.some.inj (Option.some.inj (hbody.symm.trans he)))
  cases hmethod : m.methodId with
  | none =>
    rw [hmethod] at hposts
    refine dispatchedOnce_of_error ?_ hposts
    rintro ⟨-, -, hack | hbye⟩
    · cases hmethod.symm.trans hack
    · cases hmethod.symm.trans hbye
  | some method =>
    have hclassified : ¬ m.Unclassified := fun h' => by
      cases hmethod.symm.trans (h'.of_parsed h).2
    have hiff : m.Silent ↔ method = "ACK" ∨ method = "BYE" := by
      unfold Incoming.Silent
      rw [hmethod, Option.some.injEq, Option.some.injEq]
      exact ⟨fun hs => hs.2.2, fun hm => ⟨h, hempty, hm⟩⟩
    rw [hmethod] at hposts
    have herror : ¬ (m.Unclassified ∨ m.Unreadable ∨ m.Unparsable isXml) :=
      not_or.mpr ⟨hclassified, not_or.mpr ⟨hreadable, hparsable⟩⟩
    by_cases hsilent : method = "ACK" ∨ method = "BYE"
    · simp only [if_pos hsilent] at hposts
      rw [hposts]
      exact ⟨fun _ => rfl, fun hnot => absurd (hiff.mpr hsilent) hnot, fun he => absurd he herror⟩
    · simp only [if_neg hsilent] at hposts
      rw [hposts]
      exact ⟨fun hs => absurd (hiff.mp hs) hsilent, fun _ => rfl, fun he => absurd he herror⟩

end Dispatch

/-- **A message leads to the posts that it should exactly when it has no body that has to be
parsed and is no XML.** -/
theorem dispatchedOnce_iff {env : Environment} {isXml : String → Prop}
    (henv : env.Documented isXml) (m : Incoming) :
    DispatchedOnce isXml m (Dispatch.onReceivedMessage env m).emitted ↔ ¬ m.Unparsable isXml := by
  constructor
  · intro h hunparsable
    have hposts := Dispatch.emitted_of_unparsable henv hunparsable
    rw [h.error (Or.inr (Or.inr hunparsable))] at hposts
    cases hposts
  · intro hparsable
    by_cases hparsed : m.Parsed
    · by_cases hread : m.body = none
      · refine Dispatch.dispatchedOnce_of_error ?_ (Dispatch.emitted_of_body_none hread)
        rintro ⟨-, hempty | hempty, -⟩ <;> cases hread.symm.trans hempty
      · by_cases hempty : m.Empty
        · exact Dispatch.dispatchedOnce_of_empty hparsed hempty
        · obtain ⟨body, hbody, hne⟩ := Incoming.exists_body hread hempty
          have hxml : isXml body := by
            by_contra hnot
            exact hparsable ⟨hparsed, body, hbody, hne, hnot⟩
          refine ⟨fun hsilent => absurd hsilent.2.1 hempty, fun _ =>
            Dispatch.length_emitted_of_xml henv hparsed hbody hne hxml, ?_⟩
          rintro (hunclassified | hunreadable | hunparsable)
          · exact absurd (hunclassified.of_parsed hparsed).1 hempty
          · exact absurd hunreadable.2 hread
          · exact absurd hunparsable hparsable
    · exact Dispatch.dispatchedOnce_of_error (fun hsilent => hparsed hsilent.1)
        (Dispatch.emitted_of_not_parsed hparsed)

/-! ## Some messages -/

/-- `XmlToJson` and the parser, for two documents. -/
def sampleEnvironment : Environment where
  xmlToJson body := if body = "<login>1</login>" then some "\x7b\"login\":1\x7d" else none
  parse text := if text = "\x7b\"login\":1\x7d" then some (.object [("login", .number "1")])
    else none
  answers _ := true

def SampleXml (body : String) : Prop := body = "<login>1</login>"

theorem documented_sampleEnvironment : sampleEnvironment.Documented SampleXml where
  document _ hbody := ⟨_, "login", .number "1", [], if_pos hbody, rfl⟩
  other _ hbody := Or.inl (if_neg hbody)

/-- A message with a body. -/
def request (body : String) : Incoming :=
  ⟨false, none, false, true, some (some body), some "MESSAGE"⟩

theorem dispatchedOnce_iff_request :
    DispatchedOnce SampleXml (request "<login>1</login>")
        (Dispatch.onReceivedMessage sampleEnvironment (request "<login>1</login>")).emitted ↔
      ¬ (request "<login>1</login>").Unparsable SampleXml :=
  dispatchedOnce_iff documented_sampleEnvironment (request "<login>1</login>")

/-- A message whose body is no XML leads to nothing. -/
theorem not_forall_dispatchedOnce : ¬ ∀ (env : Environment) (isXml : String → Prop) (m : Incoming),
    env.Documented isXml →
      DispatchedOnce isXml m (Dispatch.onReceivedMessage env m).emitted := by
  intro h
  have hunparsable : (request "hello").Unparsable SampleXml :=
    ⟨Or.inr ⟨rfl, Or.inr rfl⟩, "hello", rfl, by decide, by unfold SampleXml; decide⟩
  have hdispatched := h sampleEnvironment SampleXml (request "hello") documented_sampleEnvironment
  have herror := hdispatched.error (Or.inr (Or.inr hunparsable))
  cases herror.symm.trans (Dispatch.emitted_of_unparsable documented_sampleEnvironment hunparsable)

end PetDev.Sip
