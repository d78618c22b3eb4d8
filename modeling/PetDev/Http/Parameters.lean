import PetDev.Java.URLEncoder
import PetDev.Lib.Association

/-!
# The parameters of a request

`BaseRequest.getUrl()` writes the url parameters and the session behind a `?`, and
`NetRequest.encodeParameters` writes the entity parameters into the body.  The two are written
separately: one puts a `&` before every pair but the first, the other one after every pair and
cuts the last one off.

`decode_parameters`: both are read back by splitting at `&` and `=` and decoding, whatever
characters are in the keys and the values.  What is read back is the map of what was added, where
the session replaces a parameter of that name.

A `HashMap` is a `FiniteMap`, and `IterationOrder` is the order in which its entries are met.
-/

namespace PetDev.Http

open Java

/-- A value that is added: `null`, or an object with its `toString()`. -/
inductive Value where
  | null
  | object (toString : String)
  deriving DecidableEq

/-- `String.valueOf`. -/
def Value.valueOf : Value → String
  | .null => "null"
  | .object text => text

/-- The order in which a `HashMap` is iterated: some order of its entries. -/
structure IterationOrder where
  order : ∀ {V : Type}, List (String × V) → List (String × V)
  perm : ∀ {V : Type} (entries : List (String × V)), (order entries).Perm entries

/-- `map.entrySet()` in the order of an iteration. -/
def IterationOrder.entrySet (iteration : IterationOrder) {V : Type} (m : FiniteMap String V) :
    List (String × V) :=
  iteration.order m.entries

/-- `TextUtils.isEmpty`. -/
def isEmpty (text : Option String) : Bool := text.getD "" = ""

/-! ## `RequestParams` -/

/-- `RequestParams.put`, of a key and a value that are not `null`. -/
def RequestParams.put (urlParams : FiniteMap String String) (key value : String) :
    FiniteMap String String :=
  FiniteMap.put urlParams key value

/-- One turn of the loop of `getParamString`. -/
def RequestParams.appendParam (result : String) (param : String × String) : String :=
  let separated := if 0 < result.length then result ++ "&" else result
  separated ++ URLEncoder.encode param.1 ++ "=" ++ URLEncoder.encode param.2

/-- `getParamString(false)`. -/
def RequestParams.getParamString (iteration : IterationOrder)
    (urlParams : FiniteMap String String) : String :=
  (iteration.entrySet urlParams).foldl appendParam ""

/-! ## `BaseRequest` -/

/-- What `HttpConfig` answers. -/
structure HttpConfig where
  isUseHttps : Bool
  getHost : String
  getPort : Int32
  getPrefixPath : String

/-- The fields of `BaseRequest` that the url and the body are made of. -/
structure RestRequest where
  mUrlParams : FiniteMap String Value
  mEntityParams : FiniteMap String Value
  mRequestPath : String
  mUrl : Option String

namespace RestRequest

/-- `new BaseRequest()`. -/
def new : RestRequest := ⟨FiniteMap.empty, FiniteMap.empty, "", none⟩

def setRequestPath (request : RestRequest) (requestPath : String) : RestRequest :=
  { request with mRequestPath := requestPath }

def addUrlParam (request : RestRequest) (key : String) (value : Value) : RestRequest :=
  { request with mUrlParams := request.mUrlParams.put key value }

def addEntityParam (request : RestRequest) (key : String) (value : Value) : RestRequest :=
  { request with mEntityParams := request.mEntityParams.put key value }

def getPathUrl (config : HttpConfig) (request : RestRequest) : String :=
  (if config.isUseHttps then "https://" else "http://") ++ config.getHost ++
    (if config.getPort ≤ 0 then "" else ":" ++ toString config.getPort.toInt) ++
    config.getPrefixPath ++ request.mRequestPath

def urlWithQueryString (iteration : IterationOrder) (url : String)
    (params : FiniteMap String String) : String :=
  let paramString := RequestParams.getParamString iteration params
  if ¬ url.toList.contains '?' then url ++ ("?" ++ paramString) else url ++ ("&" ++ paramString)

/-- The parameters that `generateRestUrl` collects; `session` is `AccountManager.getSession()`. -/
def requestParams (iteration : IterationOrder) (session : Option String) (request : RestRequest) :
    FiniteMap String String :=
  let collected := (iteration.entrySet request.mUrlParams).foldl
    (fun params entry => RequestParams.put params entry.1 entry.2.valueOf) FiniteMap.empty
  if isEmpty session then collected
  else RequestParams.put collected "session" (session.getD "")

def generateRestUrl (iteration : IterationOrder) (config : HttpConfig) (session : Option String)
    (request : RestRequest) : String :=
  urlWithQueryString iteration (getPathUrl config request)
    (requestParams iteration session request)

/-- `getUrl()`, with the request whose `mUrl` is filled. -/
def getUrl (iteration : IterationOrder) (config : HttpConfig) (session : Option String)
    (request : RestRequest) : String × RestRequest :=
  let filled := if isEmpty request.mUrl then
      { request with mUrl := some (request.generateRestUrl iteration config session) }
    else request
  (filled.mUrl.getD "", filled)

/-- A new request with its path, to which parameters are added one after the other. -/
def withParams (path : String) (urlParams entityParams : List (String × Value)) : RestRequest :=
  let withUrlParams := urlParams.foldl (fun request param => request.addUrlParam param.1 param.2)
    (new.setRequestPath path)
  entityParams.foldl (fun request param => request.addEntityParam param.1 param.2) withUrlParams

end RestRequest

/-! ## `NetRequest` -/

/-- One turn of the loop of `encodeParameters`. -/
def NetRequest.appendEntry (encodedParams : String) (entry : String × Value) : String :=
  encodedParams ++ URLEncoder.encode entry.1 ++ "=" ++ URLEncoder.encode entry.2.valueOf ++ "&"

/-- `encodeParameters(params, "UTF-8")`, where `none` is `null`. -/
def NetRequest.encodeParameters (iteration : IterationOrder) :
    Option (FiniteMap String Value) → ByteArray
  | none => ByteArray.empty
  | some params =>
    let encodedParams := (iteration.entrySet params).foldl appendEntry ""
    if 0 < encodedParams.length then (String.ofList encodedParams.toList.dropLast).toUTF8
    else ByteArray.empty

/-! ## Reading back -/

/-- The query of a url: what is behind its first `?`. -/
def query (url : String) : String := String.ofList ((url.toList.dropWhile (· ≠ '?')).drop 1)

/-- A pair is a decoded key and a decoded value. -/
def decodePair (text : List Char) : Option (String × String) :=
  match text.splitOn '=' with
  | [key, value] =>
    (URLEncoder.decode (String.ofList key)).bind fun k =>
      (URLEncoder.decode (String.ofList value)).map fun v => (k, v)
  | _ => none

/-- The pairs of a form; a form without a character has none. -/
def decodeForm (form : String) : Option (List (String × String)) :=
  if form = "" then some [] else (form.toList.splitOn '&').mapM decodePair

/-- The form is one of the map that `f` is, with every key once. -/
def Decodes (form : String) (f : String → Option String) : Prop :=
  ∃ pairs, decodeForm form = some pairs ∧ (pairs.map Prod.fst).Nodup ∧
    ∀ key, pairs.lookup key = f key

/-! ### Joining -/

/-- A pair as both encoders write it. -/
def pairText (pair : String × String) : List Char :=
  (URLEncoder.encode pair.1).toList ++ '=' :: (URLEncoder.encode pair.2).toList

theorem pairText_ne_nil (pair : String × String) : pairText pair ≠ [] := by
  unfold pairText
  simp

theorem separator_not_mem_pairText (pair : String × String) : '&' ∉ pairText pair := by
  unfold pairText
  have hkey := (URLEncoder.separator_not_mem_encode pair.1).1
  have hvalue := (URLEncoder.separator_not_mem_encode pair.2).1
  rw [List.mem_append, List.mem_cons, not_or, not_or]
  exact ⟨hkey, by decide, hvalue⟩

theorem decodePair_pairText (pair : String × String) : decodePair (pairText pair) = some pair := by
  have hsplit : (pairText pair).splitOn '=' =
      [(URLEncoder.encode pair.1).toList, (URLEncoder.encode pair.2).toList] := by
    have hpieces : ∀ piece ∈ [(URLEncoder.encode pair.1).toList, (URLEncoder.encode pair.2).toList],
        '=' ∉ piece := by
      intro piece hpiece
      rcases List.mem_pair.mp hpiece with rfl | rfl
      · exact (URLEncoder.separator_not_mem_encode pair.1).2
      · exact (URLEncoder.separator_not_mem_encode pair.2).2
    have h := List.splitOn_intercalate '=' hpieces (by simp)
    rw [← h]
    simp [pairText, List.intercalate]
  unfold decodePair
  rw [hsplit]
  simp only [String.ofList_toList, URLEncoder.decode_encode]
  rfl

/-- A joined text has its first piece, and the others behind a separator. -/
theorem intercalate_cons (c : Char) (piece : List Char) (pieces : List (List Char)) :
    [c].intercalate (piece :: pieces) = piece ++ pieces.flatMap (c :: ·) := by
  induction pieces generalizing piece with
  | nil => simp [List.intercalate]
  | cons next pieces ih =>
    rw [List.flatMap_cons, List.cons_append, ← ih next]
    simp [List.intercalate]

/-- Pieces with a separator behind each of them are a joined text with one at its end. -/
theorem intercalate_append (c : Char) (piece : List Char) (pieces : List (List Char)) :
    [c].intercalate (piece :: pieces) ++ [c] = (piece :: pieces).flatMap (· ++ [c]) := by
  induction pieces generalizing piece with
  | nil => simp [List.intercalate]
  | cons next pieces ih =>
    rw [List.flatMap_cons, ← ih next]
    simp [List.intercalate]

/-- **A form is read back**: the pairs that are joined. -/
theorem decodeForm_intercalate (pairs : List (String × String)) :
    decodeForm (String.ofList (['&'].intercalate (pairs.map pairText))) = some pairs := by
  cases pairs with
  | nil => rfl
  | cons pair pairs =>
    have hne : String.ofList (['&'].intercalate ((pair :: pairs).map pairText)) ≠ "" := by
      intro h
      have hnil := congrArg String.toList h
      rw [String.toList_ofList, List.map_cons, intercalate_cons] at hnil
      exact pairText_ne_nil pair (List.append_eq_nil_iff.mp hnil).1
    have hpieces : ∀ piece ∈ (pair :: pairs).map pairText, '&' ∉ piece := by
      intro piece hpiece
      obtain ⟨p, -, rfl⟩ := List.mem_map.mp hpiece
      exact separator_not_mem_pairText p
    have hdecode : (decodePair ∘ pairText) = (pure : String × String → Option _) :=
      funext decodePair_pairText
    unfold decodeForm
    rw [if_neg hne, String.toList_ofList, List.splitOn_intercalate '&' hpieces (by simp),
      List.mapM_map, hdecode]
    exact (List.mapM_pure (f := fun p : String × String => p)).trans (by rw [List.map_id']; rfl)

/-! ### The two encoders -/

theorem toList_appendParam (result : String) (pair : String × String) :
    (RequestParams.appendParam result pair).toList =
      (if result = "" then [] else result.toList ++ ['&']) ++ pairText pair := by
  have hlength : 0 < result.length ↔ result ≠ "" := by
    rw [← String.length_toList, List.length_pos_iff, ne_eq, ne_eq, String.toList_eq_nil_iff]
  unfold RequestParams.appendParam pairText
  by_cases h : result = ""
  · subst h
    simp
  · simp [if_pos (hlength.mpr h), if_neg h]

/-- What has been written stays, and every further pair stands behind a `&`. -/
theorem toList_foldl_appendParam (pairs : List (String × String)) {result : String}
    (h : result ≠ "") :
    (pairs.foldl RequestParams.appendParam result).toList =
      result.toList ++ (pairs.map pairText).flatMap ('&' :: ·) := by
  induction pairs generalizing result with
  | nil => simp
  | cons pair pairs ih =>
    have htext := toList_appendParam result pair
    rw [if_neg h] at htext
    have hne : RequestParams.appendParam result pair ≠ "" := by
      intro hempty
      rw [hempty] at htext
      exact pairText_ne_nil pair (List.append_eq_nil_iff.mp htext.symm).2
    rw [List.foldl_cons, ih hne, htext, List.map_cons, List.flatMap_cons]
    simp

theorem foldl_appendParam (pairs : List (String × String)) :
    pairs.foldl RequestParams.appendParam "" =
      String.ofList (['&'].intercalate (pairs.map pairText)) := by
  cases pairs with
  | nil => rfl
  | cons pair pairs =>
    have htext := toList_appendParam "" pair
    rw [if_pos rfl, List.nil_append] at htext
    have hne : RequestParams.appendParam "" pair ≠ "" := by
      intro hempty
      rw [hempty] at htext
      exact pairText_ne_nil pair htext.symm
    apply String.toList_injective
    rw [List.foldl_cons, toList_foldl_appendParam pairs hne, htext, String.toList_ofList,
      List.map_cons, intercalate_cons]

theorem toList_foldl_appendEntry (entries : List (String × Value)) (text : String) :
    (entries.foldl NetRequest.appendEntry text).toList =
      text.toList ++ (entries.map fun e => pairText (e.1, e.2.valueOf)).flatMap (· ++ ['&']) := by
  induction entries generalizing text with
  | nil => simp
  | cons entry entries ih =>
    rw [List.foldl_cons, ih, List.map_cons, List.flatMap_cons]
    simp [NetRequest.appendEntry, pairText]

/-- `encodeParameters` writes the joined pairs. -/
theorem encodeParameters_some (iteration : IterationOrder) (params : FiniteMap String Value) :
    NetRequest.encodeParameters iteration (some params) =
      (String.ofList (['&'].intercalate
        ((iteration.entrySet params).map fun e => pairText (e.1, e.2.valueOf)))).toUTF8 := by
  have htext := toList_foldl_appendEntry (iteration.entrySet params) ""
  rw [String.toList_empty, List.nil_append] at htext
  unfold NetRequest.encodeParameters
  simp only
  cases hentries : iteration.entrySet params with
  | nil => rfl
  | cons entry entries =>
    rw [hentries, List.map_cons, ← intercalate_append] at htext
    have hlength : 0 < (List.foldl NetRequest.appendEntry "" (entry :: entries)).length := by
      rw [← String.length_toList, htext]
      simp
    rw [if_pos hlength, htext, List.dropLast_concat, List.map_cons]

/-! ### The maps -/

theorem entrySet_nodup (iteration : IterationOrder) {V : Type} (m : FiniteMap String V) :
    ((iteration.entrySet m).map Prod.fst).Nodup :=
  ((iteration.perm m.entries).map Prod.fst).nodup_iff.mpr m.distinct

theorem lookup_entrySet (iteration : IterationOrder) {V : Type} (m : FiniteMap String V)
    (key : String) : (iteration.entrySet m).lookup key = m.get key :=
  (lookup_eq_of_perm m.distinct (iteration.perm m.entries).symm key).symm

/-- The joined entries of a map are a form of that map. -/
theorem decodes_entrySet (iteration : IterationOrder) {V : Type} (m : FiniteMap String V)
    (f : V → String) :
    Decodes (String.ofList (['&'].intercalate
      ((iteration.entrySet m).map fun e => pairText (e.1, f e.2)))) fun key =>
        (m.get key).map f := by
  refine ⟨(iteration.entrySet m).map fun e => (e.1, f e.2), ?_, ?_, fun key => ?_⟩
  · have h := decodeForm_intercalate ((iteration.entrySet m).map fun e => (e.1, f e.2))
    rwa [List.map_map] at h
  · rw [List.map_map]
    exact entrySet_nodup iteration m
  · rw [lookup_map, lookup_entrySet]

namespace RestRequest

/-- The session replaces a parameter of its name. -/
theorem get_requestParams (iteration : IterationOrder) (session : Option String)
    (request : RestRequest) (key : String) :
    (request.requestParams iteration session).get key =
      if key = "session" ∧ ¬ isEmpty session then session
      else (request.mUrlParams.get key).map Value.valueOf := by
  have hcollected : ((iteration.entrySet request.mUrlParams).foldl
      (fun params entry => RequestParams.put params entry.1 entry.2.valueOf)
      FiniteMap.empty).get key = (request.mUrlParams.get key).map Value.valueOf := by
    have hreverse := lookup_eq_of_perm (entrySet_nodup iteration request.mUrlParams)
      (List.reverse_perm _).symm key
    unfold RequestParams.put
    rw [FiniteMap.get_foldl_put, ← hreverse, lookup_entrySet, FiniteMap.get_empty, Option.or_none]
  unfold requestParams
  simp only
  by_cases hsession : isEmpty session = true
  · rw [if_pos hsession, if_neg (fun h => h.2 hsession), hcollected]
  · rw [if_neg hsession]
    unfold RequestParams.put at hcollected ⊢
    rw [FiniteMap.get_put, hcollected]
    by_cases hkey : key = "session"
    · rw [if_pos hkey, if_pos ⟨hkey, hsession⟩]
      cases session with
      | none => exact absurd rfl hsession
      | some text => rfl
    · rw [if_neg hkey, if_neg (fun h => hkey h.1)]

/-- A map with entries put into it one after the other. -/
def putAll (m : FiniteMap String Value) (params : List (String × Value)) :
    FiniteMap String Value :=
  params.foldl (fun m param => m.put param.1 param.2) m

theorem get_putAll_empty (params : List (String × Value)) (key : String) :
    (putAll FiniteMap.empty params).get key = params.reverse.lookup key := by
  have h := FiniteMap.get_foldl_put id params FiniteMap.empty key
  rwa [FiniteMap.get_empty, Option.or_none, Option.map_id_fun, id] at h

theorem foldl_addUrlParam (params : List (String × Value)) (request : RestRequest) :
    params.foldl (fun request param => request.addUrlParam param.1 param.2) request =
      { request with mUrlParams := putAll request.mUrlParams params } := by
  induction params generalizing request with
  | nil => rfl
  | cons param params ih => exact ih _

theorem foldl_addEntityParam (params : List (String × Value)) (request : RestRequest) :
    params.foldl (fun request param => request.addEntityParam param.1 param.2) request =
      { request with mEntityParams := putAll request.mEntityParams params } := by
  induction params generalizing request with
  | nil => rfl
  | cons param params ih => exact ih _

theorem withParams_eq (path : String) (urlParams entityParams : List (String × Value)) :
    withParams path urlParams entityParams =
      { mUrlParams := putAll FiniteMap.empty urlParams
        mEntityParams := putAll FiniteMap.empty entityParams
        mRequestPath := path
        mUrl := none } := by
  unfold withParams
  simp only
  rw [foldl_addUrlParam, foldl_addEntityParam]
  rfl

theorem query_urlWithQueryString (iteration : IterationOrder) {url : String}
    (hurl : '?' ∉ url.toList) (params : FiniteMap String String) :
    query (urlWithQueryString iteration url params) =
      RequestParams.getParamString iteration params := by
  have hpath : ∀ c ∈ url.toList, decide (c ≠ '?') = true := by
    intro c hc
    exact decide_eq_true fun h => hurl (h ▸ hc)
  unfold urlWithQueryString query
  simp only
  rw [if_pos (by simpa using hurl), String.toList_append, String.toList_append,
    List.dropWhile_append_of_pos hpath]
  show String.ofList (RequestParams.getParamString iteration params).toList = _
  rw [String.ofList_toList]

end RestRequest

/-- **Parameters survive encoding**: the query of the url is a form of the url parameters and the
session, and the body is one of the entity parameters.  The parameters and the session are those
before the first `getUrl`, whose url is cached. -/
theorem decode_parameters (iteration : IterationOrder) (config : HttpConfig)
    (session : Option String) (path : String) (urlParams entityParams : List (String × Value))
    (hpath : '?' ∉ (RestRequest.getPathUrl config (RestRequest.new.setRequestPath path)).toList) :
    let request := RestRequest.withParams path urlParams entityParams
    Decodes (query (request.getUrl iteration config session).1) (fun key =>
        if key = "session" ∧ ¬ isEmpty session then session
        else (urlParams.reverse.lookup key).map Value.valueOf) ∧
      ∃ form, String.fromUTF8? (NetRequest.encodeParameters iteration
          (some request.mEntityParams)) = some form ∧
        Decodes form fun key => (entityParams.reverse.lookup key).map Value.valueOf := by
  intro request
  have hrequest : request = _ := RestRequest.withParams_eq path urlParams entityParams
  constructor
  · have hurl : (request.getUrl iteration config session).1 =
        RestRequest.urlWithQueryString iteration
          (RestRequest.getPathUrl config (RestRequest.new.setRequestPath path))
          (request.requestParams iteration session) := by
      rw [hrequest]
      rfl
    have h := decodes_entrySet iteration (request.requestParams iteration session) id
    rw [hurl, RestRequest.query_urlWithQueryString iteration hpath]
    unfold RequestParams.getParamString
    rw [foldl_appendParam]
    refine Eq.mp (congrArg _ (funext fun key => ?_)) h
    rw [Option.map_id_fun, id, RestRequest.get_requestParams, hrequest,
      RestRequest.get_putAll_empty]
  · have h := decodes_entrySet iteration request.mEntityParams Value.valueOf
    refine ⟨_, ?_, Eq.mp (congrArg _ (funext fun key => ?_)) h⟩
    · rw [encodeParameters_some]
      exact dif_pos (String.isValidUTF8 _)
    · rw [hrequest, RestRequest.get_putAll_empty]

/-- Keys and values with separators in them, a value that is `null`, and a session. -/
theorem decode_parameters_separators :
    '?' ∉ (RestRequest.getPathUrl ⟨false, "host", 8000, "/index.php"⟩
      (RestRequest.new.setRequestPath "/pets")).toList ∧
    ∃ pairs, decodeForm (query
        ((RestRequest.withParams "/pets" [("a&b", .object "1=2+ü%"), ("session", .null)] []).getUrl
          ⟨fun entries => entries, fun _ => List.Perm.refl _⟩
          ⟨false, "host", 8000, "/index.php"⟩ (some "s")).1) = some pairs ∧
      pairs.lookup "a&b" = some "1=2+ü%" ∧ pairs.lookup "session" = some "s" := by
  have hpath : '?' ∉ (RestRequest.getPathUrl ⟨false, "host", 8000, "/index.php"⟩
      (RestRequest.new.setRequestPath "/pets")).toList := by decide +kernel
  obtain ⟨⟨pairs, hpairs, -, hlookup⟩, -⟩ := decode_parameters
    ⟨fun entries => entries, fun _ => List.Perm.refl _⟩ ⟨false, "host", 8000, "/index.php"⟩
    (some "s") "/pets" [("a&b", .object "1=2+ü%"), ("session", .null)] [] hpath
  refine ⟨hpath, pairs, hpairs, ?_, ?_⟩
  · rw [hlookup]
    decide +kernel
  · rw [hlookup]
    decide +kernel

end PetDev.Http
