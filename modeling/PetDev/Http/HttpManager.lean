/-!
# From `HttpManager.addRequest` to the listener

The callback of `addRequest` turns the outcome of a call into a `ResponseDeliveryRunnable` for
the main thread: `handlerResponse` maps the status codes, and the constructor of the runnable
reads the body.  `run` hands what it got to the request, which parses the text and calls its
listener.

* `callback_eq`: every outcome posts exactly one runnable.
* `received_run_iff`: run on a new request, it leaves exactly one of `onSuccess` and
  `onError` with the listener, and one `onComplete` after it, exactly when the outcome is
  `Heard`.

Gson is a parameter: `parser` is `JsonParser.parse`, and a `ResultType` holds the conversions.
The listener does not throw.
-/

namespace PetDev.Http

/-! ## What is thrown -/

inductive Exception where
  | ioException (detailMessage : String)
  | errorTipException (detailMessage : String) (mResposeCode : Int)
  | runtimeException (detailMessage : String)
deriving DecidableEq

inductive Throwable where
  | exception (e : Exception)
  | outOfMemoryError
deriving DecidableEq

/-- What `catch (IOException e)` catches. -/
def Throwable.isIOException : Throwable → Bool
  | .exception (.ioException _) => true
  | .exception (.errorTipException _ _) => true
  | _ => false

/-! ## OkHttp -/

/-- What reading the body gives. -/
structure ResponseBody where
  string : Except Throwable String
  /-- `unpackValue().toJson()` -/
  unpackValue : Except Throwable String
  /-- What `close()` of the unpacker throws. -/
  unpackerClose : Option Throwable

/-- A response, with what OkHttp answers about its code. -/
structure Response where
  code : Int
  isSuccessful : Bool
  isRedirect : Bool
  body : Option ResponseBody
  /-- What `close()` throws. -/
  close : Option Exception

/-- OkHttp calls one of the two. -/
inductive Outcome where
  | onFailure (e : Exception)
  | onResponse (response : Response)

/-! ## The runnable -/

structure ResponseDeliveryRunnable where
  mResponse : Option Response
  mIoException : Option Exception
  mResponseString : Option String

namespace ResponseDeliveryRunnable

/-- The `try` block of the constructor: the text it has assigned, and what it throws. -/
def readBody (useMsgPack : Bool) (response : Response) : Option String × Option Throwable :=
  match response.body with
  | none => (none, some (.exception (.runtimeException "NullPointerException")))
  | some body =>
    if useMsgPack then
      match body.unpackValue with
      | .ok json => (some json, body.unpackerClose)
      | .error t => (none, some t)
    else
      match body.string with
      | .ok text => (some text, none)
      | .error t => (none, some t)

def new (useMsgPack : Bool) (response : Option Response) (exception : Option Exception) :
    Except Exception ResponseDeliveryRunnable :=
  match response with
  | none => .ok ⟨none, exception, none⟩
  | some response =>
    match readBody useMsgPack response with
    | (mResponseString, none) => .ok ⟨some response, exception, mResponseString⟩
    | (mResponseString, some .outOfMemoryError) =>
      .ok ⟨some response, some (.errorTipException "您的手机内存不够啦，正在努力回收中..." 0), mResponseString⟩
    | (mResponseString, some (.exception e)) =>
      if (Throwable.exception e).isIOException then
        .ok ⟨some response, exception, mResponseString⟩
      else .error e

end ResponseDeliveryRunnable

/-! ## The callback of `addRequest` -/

/-- What is posted stays posted when something is thrown. -/
abbrev Posting := ExceptT Exception (StateM (List ResponseDeliveryRunnable))

namespace ExecutorDelivery

def execute (command : ResponseDeliveryRunnable) : Posting Unit :=
  modify (· ++ [command])

def postResponse (useMsgPack : Bool) (response : Response) : Posting Unit := do
  execute (← liftExcept (ResponseDeliveryRunnable.new useMsgPack (some response) none))

def postError (useMsgPack : Bool) (error : Exception) : Posting Unit := do
  execute (← liftExcept (ResponseDeliveryRunnable.new useMsgPack none (some error)))

end ExecutorDelivery

namespace HttpManager

open ExecutorDelivery

/-- The text of the `ErrorTipException` for a response that is not successful. -/
def errorMessage (response : Response) : String :=
  if response.isRedirect then "当前请求被劫持"
  else
    match response.code with
    | 400 | 403 | 404 | 405 | 406 => "请求资源失效"
    | 408 | 504 => "网络超时"
    | 500 | 501 | 502 | 503 => "服务器异常"
    | _ => "网络服务繁忙"

def handlerResponse (useMsgPack : Bool) (response : Response) (async : Bool) :
    Posting Unit := do
  if response.isSuccessful then
    if async then
      postResponse useMsgPack response
  else
    if response.body.isSome then
      if let some e := response.close then throw e
    if async then
      postError useMsgPack (.errorTipException (errorMessage response) response.code)

/-- The callback that `addRequest` gives to OkHttp. -/
def callback (useMsgPack : Bool) : Outcome → Posting Unit
  | .onFailure e => postError useMsgPack e
  | .onResponse response =>
    tryCatch (handlerResponse useMsgPack response true) (postError useMsgPack)

end HttpManager

/-! ## The request -/

inductive Callback (α : Type) where
  | onSuccess (result : α)
  | onError (error : Exception)
  | onComplete

/-- The type argument of the request: for `String` the text itself is the result. -/
inductive ResultType (JsonElement α : Type) where
  | string (cast : String → α)
  | other (fromJsonNoCatch : JsonElement → Except Exception α)
      (fromJson : String → Except Exception α)

/-- A request; `mRequestListener` tells whether the listener is set, and `received` is what it
got. -/
structure BaseRequest (JsonElement α : Type) where
  useMsgPack : Bool
  /-- `none` for a class without type parameter -/
  actualType : Option (ResultType JsonElement α)
  mRequestListener : Bool
  isFinished : Bool
  received : List (Callback α)

namespace BaseRequest

variable {JsonElement α : Type}

/-- A request that has just been given its listener. -/
def new (useMsgPack : Bool) (actualType : Option (ResultType JsonElement α)) :
    BaseRequest JsonElement α :=
  ⟨useMsgPack, actualType, true, false, []⟩

def isFinish (request : BaseRequest JsonElement α) : Bool := request.isFinished

def finish (request : BaseRequest JsonElement α) : BaseRequest JsonElement α :=
  { request with mRequestListener := false, isFinished := true }

def deliverError (request : BaseRequest JsonElement α) (error : Exception) :
    BaseRequest JsonElement α :=
  if request.mRequestListener then
    { request with received := request.received ++ [.onError error, .onComplete] }
  else request

def deliverResult (request : BaseRequest JsonElement α) (response : α) :
    BaseRequest JsonElement α :=
  if request.mRequestListener then
    { request with received := request.received ++ [.onSuccess response, .onComplete] }
  else request

def getType (request : BaseRequest JsonElement α) :
    Except Exception (ResultType JsonElement α) :=
  match request.actualType with
  | none => .error (.runtimeException "Missing type parameter.")
  | some type => .ok type

def jsonParseString (request : BaseRequest JsonElement α) (result : String) :
    Except Exception α := do
  match ← request.getType with
  | .string cast => return cast result
  | .other _ fromJson => fromJson result

def jsonParse (request : BaseRequest JsonElement α) (result : Option JsonElement)
    (response : String) : Except Exception α := do
  match result with
  | none => request.jsonParseString response
  | some result =>
    match ← request.getType with
    | .string cast => return cast response
    | .other fromJsonNoCatch _ => fromJsonNoCatch result

def deliverResponse (parser : String → Except Exception (Option JsonElement))
    (request : BaseRequest JsonElement α) (parse : Option String) : BaseRequest JsonElement α :=
  match parse with
  | none => request
  | some parse =>
    if parse = "" then request
    else
      match parser parse >>= fun data => request.jsonParse data parse with
      | .ok result => request.deliverResult result
      | .error e => request.deliverError e

end BaseRequest

def ResponseDeliveryRunnable.run {JsonElement α : Type}
    (parser : String → Except Exception (Option JsonElement)) (r : ResponseDeliveryRunnable)
    (mRequest : BaseRequest JsonElement α) : BaseRequest JsonElement α :=
  if mRequest.isFinish then mRequest
  else
    match r.mIoException, r.mResponse with
    | some error, some _ =>
      ((mRequest.deliverError error).deliverResponse parser r.mResponseString).finish
    | some error, none => (mRequest.deliverError error).finish
    | none, some _ => (mRequest.deliverResponse parser r.mResponseString).finish
    | none, none => mRequest.finish

/-! ## One runnable for each outcome -/

/-- The runnable of an outcome. -/
def Outcome.runnable (useMsgPack : Bool) : Outcome → ResponseDeliveryRunnable
  | .onFailure e => ⟨none, some e, none⟩
  | .onResponse response =>
    if response.isSuccessful then
      match ResponseDeliveryRunnable.new useMsgPack (some response) none with
      | .ok r => r
      | .error e => ⟨none, some e, none⟩
    else
      match response.body, response.close with
      | some _, some e => ⟨none, some e, none⟩
      | _, _ =>
        ⟨none, some (.errorTipException (HttpManager.errorMessage response) response.code), none⟩

/-- **Every outcome posts exactly one runnable**, and throws nothing. -/
theorem callback_eq (useMsgPack : Bool) (outcome : Outcome)
    (posted : List ResponseDeliveryRunnable) :
    (HttpManager.callback useMsgPack outcome).run.run posted =
      (.ok (), posted ++ [outcome.runnable useMsgPack]) := by
  cases outcome with
  | onFailure e => rfl
  | onResponse response =>
    show (tryCatch (HttpManager.handlerResponse useMsgPack response true)
      (ExecutorDelivery.postError useMsgPack)).run.run posted = _
    simp only [Outcome.runnable, HttpManager.handlerResponse]
    cases hsuccess : response.isSuccessful with
    | true =>
      simp only [if_true, ExecutorDelivery.postResponse]
      cases hnew : ResponseDeliveryRunnable.new useMsgPack (some response) none with
      | ok r => rfl
      | error e => rfl
    | false =>
      cases hbody : response.body with
      | none => rfl
      | some body =>
        cases hclose : response.close with
        | none => rfl
        | some e => rfl

/-! ## What the listener receives -/

def Callback.isResult {α : Type} : Callback α → Bool
  | .onComplete => false
  | _ => true

/-- Exactly one of `onSuccess` and `onError`, then exactly one `onComplete`. -/
def OnceThenComplete {α : Type} (received : List (Callback α)) : Prop :=
  ∃ c : Callback α, c.isResult = true ∧ received = [c, .onComplete]

theorem OnceThenComplete.length {α : Type} {received : List (Callback α)}
    (h : OnceThenComplete received) : received.length = 2 := by
  obtain ⟨c, -, rfl⟩ := h
  rfl

/-- **The condition on a body**: what is read of it is a text that is not empty, or it throws
something else than an `IOException`. -/
def ResponseBody.Heard (useMsgPack : Bool) (body : ResponseBody) : Prop :=
  if useMsgPack then
    match body.unpackValue with
    | .error t => t.isIOException = false
    | .ok json =>
      match body.unpackerClose with
      | none => json ≠ ""
      | some (.exception e) => (Throwable.exception e).isIOException = true → json ≠ ""
      -- the text is delivered, and the error too
      | some .outOfMemoryError => json = ""
  else
    match body.string with
    | .error t => t.isIOException = false
    | .ok text => text ≠ ""

/-- The condition on an outcome; it is about successful responses only. -/
def Outcome.Heard (useMsgPack : Bool) : Outcome → Prop
  | .onFailure _ => True
  | .onResponse response =>
    response.isSuccessful = true → ∀ body ∈ response.body, body.Heard useMsgPack

namespace BaseRequest

variable {JsonElement α : Type} (parser : String → Except Exception (Option JsonElement))

theorem useMsgPack_deliverError (request : BaseRequest JsonElement α) (error : Exception) :
    (request.deliverError error).useMsgPack = request.useMsgPack := by
  unfold BaseRequest.deliverError
  split <;> rfl

theorem useMsgPack_deliverResponse (request : BaseRequest JsonElement α)
    (parse : Option String) :
    (request.deliverResponse parser parse).useMsgPack = request.useMsgPack := by
  unfold BaseRequest.deliverResponse
  split
  · rfl
  · split
    · rfl
    · split
      · unfold BaseRequest.deliverResult
        split <;> rfl
      · exact useMsgPack_deliverError request _

theorem deliverResponse_of_empty (request : BaseRequest JsonElement α) {parse : Option String}
    (h : parse.getD "" = "") : request.deliverResponse parser parse = request := by
  cases parse with
  | none => rfl
  | some parse => exact if_pos h

/-- A text that is not empty ends in one result, whatever parsing it does. -/
theorem deliverResponse_of_ne (request : BaseRequest JsonElement α) {parse : Option String}
    (hlistener : request.mRequestListener = true) (h : parse.getD "" ≠ "") :
    ∃ c : Callback α, c.isResult = true ∧ request.deliverResponse parser parse =
      { request with received := request.received ++ [c, .onComplete] } := by
  cases parse with
  | none => exact absurd rfl h
  | some parse =>
    unfold BaseRequest.deliverResponse
    simp only [if_neg (show ¬ parse = "" from h)]
    cases parser parse >>= fun data => request.jsonParse data parse with
    | ok result => exact ⟨.onSuccess result, rfl, if_pos hlistener⟩
    | error e => exact ⟨.onError e, rfl, if_pos hlistener⟩

end BaseRequest

namespace ResponseDeliveryRunnable

variable {JsonElement α : Type} (parser : String → Except Exception (Option JsonElement))

/-- There is a text to deliver. -/
def HasText (r : ResponseDeliveryRunnable) : Prop :=
  r.mResponse.isSome = true ∧ r.mResponseString.getD "" ≠ ""

/-- There is an error and no text, or a text and no error. -/
def OneOfTwo (r : ResponseDeliveryRunnable) : Prop := r.mIoException.isSome = true ↔ ¬ r.HasText

theorem isFinish_run (r : ResponseDeliveryRunnable) (mRequest : BaseRequest JsonElement α) :
    (r.run parser mRequest).isFinish = true := by
  unfold run
  split
  · next hfinish => exact hfinish
  · split <;> rfl

theorem useMsgPack_run (r : ResponseDeliveryRunnable) (mRequest : BaseRequest JsonElement α) :
    (r.run parser mRequest).useMsgPack = mRequest.useMsgPack := by
  unfold run
  split
  · rfl
  · split
    · exact (BaseRequest.useMsgPack_deliverResponse parser _ _).trans
        (mRequest.useMsgPack_deliverError _)
    · exact mRequest.useMsgPack_deliverError _
    · exact BaseRequest.useMsgPack_deliverResponse parser mRequest _
    · rfl

/-- A new request hears of an error or of a text, once each. -/
theorem once_run_iff (r : ResponseDeliveryRunnable) (useMsgPack : Bool)
    (actualType : Option (ResultType JsonElement α)) :
    OnceThenComplete (r.run parser (.new useMsgPack actualType)).received ↔ r.OneOfTwo := by
  unfold OneOfTwo
  obtain ⟨mResponse, mIoException, mResponseString⟩ := r
  have hnew : (BaseRequest.new useMsgPack actualType).mRequestListener = true := rfl
  cases mResponse with
  | none =>
    have hno : ¬ HasText ⟨none, mIoException, mResponseString⟩ := fun h => Bool.false_ne_true h.1
    cases mIoException with
    | none => exact iff_of_false (fun h => by cases h.length) (by simp [hno])
    | some error => exact iff_of_true ⟨.onError error, rfl, rfl⟩ (by simp [hno])
  | some response =>
    by_cases htext : mResponseString.getD "" = ""
    · have hno : ¬ HasText ⟨some response, mIoException, mResponseString⟩ := fun h => h.2 htext
      cases mIoException with
      | none =>
        refine iff_of_false (fun h => ?_) (by simp [hno])
        have hlength := h.length
        simp only [run, BaseRequest.deliverResponse_of_empty _ _ htext] at hlength
        cases hlength
      | some error =>
        refine iff_of_true ⟨.onError error, rfl, ?_⟩ (by simp [hno])
        simp only [run, BaseRequest.deliverResponse_of_empty _ _ htext]
        rfl
    · have hyes : HasText ⟨some response, mIoException, mResponseString⟩ := ⟨rfl, htext⟩
      cases mIoException with
      | none =>
        obtain ⟨c, hc, hdeliver⟩ :=
          (BaseRequest.new useMsgPack actualType).deliverResponse_of_ne parser hnew htext
        refine iff_of_true ⟨c, hc, ?_⟩ (by simp [hyes])
        simp only [run, hdeliver]
        rfl
      | some error =>
        -- the listener hears of both
        obtain ⟨c, -, hdeliver⟩ :=
          ((BaseRequest.new useMsgPack actualType).deliverError error).deliverResponse_of_ne
            parser hnew htext
        refine iff_of_false (fun h => ?_) (by simp [hyes])
        have hlength := h.length
        simp only [run, hdeliver] at hlength
        cases hlength

end ResponseDeliveryRunnable

theorem oneOfTwo_of_error (e : Exception) :
    ResponseDeliveryRunnable.OneOfTwo ⟨none, some e, none⟩ :=
  iff_of_true rfl fun h => Bool.false_ne_true h.1

/-- The condition on the text that is read and on what is thrown. -/
def HeardOf (text : Option String) : Option Throwable → Prop
  | none => text.getD "" ≠ ""
  | some .outOfMemoryError => text.getD "" = ""
  | some (.exception e) => (Throwable.exception e).isIOException = true → text.getD "" ≠ ""

theorem oneOfTwo_of_readBody {useMsgPack : Bool} {response : Response}
    (hsuccess : response.isSuccessful = true) {text : Option String} {thrown : Option Throwable}
    (hread : ResponseDeliveryRunnable.readBody useMsgPack response = (text, thrown)) :
    ((Outcome.onResponse response).runnable useMsgPack).OneOfTwo ↔ HeardOf text thrown := by
  unfold ResponseDeliveryRunnable.OneOfTwo ResponseDeliveryRunnable.HasText
  cases thrown with
  | none => simp [Outcome.runnable, hsuccess, ResponseDeliveryRunnable.new, hread, HeardOf]
  | some t =>
    cases t with
    | outOfMemoryError =>
      simp [Outcome.runnable, hsuccess, ResponseDeliveryRunnable.new, hread, HeardOf]
    | exception e =>
      cases hio : (Throwable.exception e).isIOException <;>
        simp [Outcome.runnable, hsuccess, ResponseDeliveryRunnable.new, hread, HeardOf, hio]

/-- The body is heard exactly when what is read of it is. -/
theorem heardOf_iff {useMsgPack : Bool} {response : Response} {body : ResponseBody}
    (hbody : response.body = some body) {text : Option String} {thrown : Option Throwable}
    (hread : ResponseDeliveryRunnable.readBody useMsgPack response = (text, thrown)) :
    HeardOf text thrown ↔ body.Heard useMsgPack := by
  cases useMsgPack with
  | false =>
    cases hstring : body.string with
    | ok s =>
      obtain ⟨rfl, rfl⟩ : some s = text ∧ none = thrown := by
        simpa [ResponseDeliveryRunnable.readBody, hbody, hstring] using hread
      simp [ResponseBody.Heard, hstring, HeardOf]
    | error t =>
      obtain ⟨rfl, rfl⟩ : none = text ∧ some t = thrown := by
        simpa [ResponseDeliveryRunnable.readBody, hbody, hstring] using hread
      cases t <;> simp [ResponseBody.Heard, hstring, HeardOf, Throwable.isIOException]
  | true =>
    cases hunpack : body.unpackValue with
    | ok json =>
      obtain ⟨rfl, rfl⟩ : some json = text ∧ body.unpackerClose = thrown := by
        simpa [ResponseDeliveryRunnable.readBody, hbody, hunpack] using hread
      cases hclose : body.unpackerClose with
      | none => simp [ResponseBody.Heard, hunpack, hclose, HeardOf]
      | some t => cases t <;> simp [ResponseBody.Heard, hunpack, hclose, HeardOf]
    | error t =>
      obtain ⟨rfl, rfl⟩ : none = text ∧ some t = thrown := by
        simpa [ResponseDeliveryRunnable.readBody, hbody, hunpack] using hread
      cases t <;> simp [ResponseBody.Heard, hunpack, HeardOf, Throwable.isIOException]

theorem oneOfTwo_iff (useMsgPack : Bool) (outcome : Outcome) :
    (outcome.runnable useMsgPack).OneOfTwo ↔ outcome.Heard useMsgPack := by
  cases outcome with
  | onFailure e => exact iff_of_true (oneOfTwo_of_error e) trivial
  | onResponse response =>
    cases hsuccess : response.isSuccessful with
    | false =>
      refine iff_of_true ?_ fun h => absurd (hsuccess.symm.trans h) Bool.false_ne_true
      simp only [Outcome.runnable, hsuccess]
      cases response.body with
      | none => exact oneOfTwo_of_error _
      | some body =>
        cases response.close with
        | none => exact oneOfTwo_of_error _
        | some e => exact oneOfTwo_of_error e
    | true =>
      cases hbody : response.body with
      | none =>
        have hread : ResponseDeliveryRunnable.readBody useMsgPack response =
            (none, some (.exception (.runtimeException "NullPointerException"))) := by
          simp only [ResponseDeliveryRunnable.readBody, hbody]
        rw [oneOfTwo_of_readBody hsuccess hread]
        exact iff_of_true nofun (by simp [Outcome.Heard, hbody])
      | some body =>
        have hheard : (Outcome.onResponse response).Heard useMsgPack ↔ body.Heard useMsgPack := by
          simp [Outcome.Heard, hsuccess, hbody]
        rw [hheard, ← heardOf_iff hbody rfl]
        exact oneOfTwo_of_readBody hsuccess rfl

/-- **A new request hears of the outcome as it should exactly when the outcome is heard.** -/
theorem received_run_iff {JsonElement α : Type}
    (parser : String → Except Exception (Option JsonElement)) (outcome : Outcome)
    (useMsgPack : Bool) (actualType : Option (ResultType JsonElement α)) :
    OnceThenComplete
        ((outcome.runnable useMsgPack).run parser (.new useMsgPack actualType)).received ↔
      outcome.Heard useMsgPack :=
  (ResponseDeliveryRunnable.once_run_iff parser _ useMsgPack actualType).trans
    (oneOfTwo_iff useMsgPack outcome)

end PetDev.Http
