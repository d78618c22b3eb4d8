import PetDev.Lib.StepMachine
import PetDev.Store.MMKVUtil

/-!
# `AccountManager`

`AccountManager` keeps the session and the user in `MMKVUtil`, under two keys, and caches them in
three static fields: `sSession` and `sUserInfo` are filled when they are asked for and empty,
`sIsLogined` when somebody asks whether there is a session.

`answers_eq_fresh`: whatever has been called, the caches never show.  Every call answers what a
process that has just been started answers on the same store, so the account survives a restart;
and somebody is logged in exactly when the stored session is not empty.

The invariant is `Coherent`: a cache is empty, or it holds what is stored.  `sIsLogined` needs no
clause of its own, since it counts only while `sSession` is not empty.

MMKV and Gson are parameters.  Of MMKV the store layer says what is documented; here it also
stores the texts that it is given.  `toJson` and `fromJson` are those of `JsonUtil`, where `none`
is `null`.
-/

namespace PetDev.Account

open Store KeyStore

/-- The fields that are stored. -/
structure UserInfo where
  userName : Option String
  avatar : Option String
  nickName : Option String
  birth : Option String
  gender : Int32
  userId : Option String
  deriving DecidableEq

/-- `new UserInfo()`. -/
def UserInfo.new : UserInfo := ⟨none, none, none, none, 0, none⟩

/-- `TextUtils.isEmpty`. -/
def isEmpty (text : Option String) : Bool := text.getD "" = ""

/-- The static fields. -/
structure AccountManager where
  sIsLogined : Bool
  sSession : Option String
  sUserInfo : Option UserInfo

/-- A process and the store it works on. -/
structure Device (σ : Type) where
  process : AccountManager
  store : σ

namespace AccountManager

/-- The static fields of a process that has just been started. -/
def new : AccountManager := ⟨false, some "", none⟩

variable {σ : Type}

/-- A call of `MMKVUtil`. -/
def onStore {α : Type} (call : StateM σ α) : StateM (Device σ) α :=
  fun d => ((call d.store).1, { d with store := (call d.store).2 })

def modifyStatics (f : AccountManager → AccountManager) : StateM (Device σ) Unit :=
  modify fun d => { d with process := f d.process }

section

variable (mmkv : MMKV σ) (toJson : UserInfo → String)
  (fromJson : Option String → Option UserInfo)

def isLoginned : StateM (Device σ) Bool := do
  let s := (← get).process
  if !s.sIsLogined || isEmpty s.sSession then
    let session ← onStore <| MMKVUtil.getString' mmkv "wsq_pref_session"
    modifyStatics fun s => { s with sSession := session }
    modifyStatics fun s => { s with sIsLogined := session ≠ some "" }
  return (← get).process.sIsLogined

def setUserInfo (userInfo : Option UserInfo) : StateM (Device σ) Unit := do
  if let some userInfo := userInfo then
    modifyStatics fun s => { s with sUserInfo := some userInfo }
    onStore (MMKVUtil.setString mmkv "wsq_pref_user" (some (toJson userInfo)))

def getUserInfo : StateM (Device σ) UserInfo := do
  match (← get).process.sUserInfo with
  | some userInfo => return userInfo
  | none =>
    let text ← onStore <| MMKVUtil.getString' mmkv "wsq_pref_user"
    let userInfo := (fromJson text).getD UserInfo.new
    modifyStatics fun s => { s with sUserInfo := some userInfo }
    return userInfo

def setSession (session : String) : StateM (Device σ) Unit := do
  modifyStatics fun s => { s with sSession := some session }
  onStore (MMKVUtil.setString mmkv "wsq_pref_session" (some session))

def getSession : StateM (Device σ) (Option String) := do
  if isEmpty (← get).process.sSession then
    let session ← onStore <| MMKVUtil.getString' mmkv "wsq_pref_session"
    modifyStatics fun s => { s with sSession := session }
  return (← get).process.sSession

def getUserName : StateM (Device σ) (Option String) := do
  let userName := (← getUserInfo mmkv fromJson).userName
  if isEmpty userName then getSession mmkv else return userName

def clearAccountData : StateM (Device σ) Unit := do
  modifyStatics fun s => { s with sIsLogined := false }
  modifyStatics fun s => { s with sSession := some "" }
  modifyStatics fun s => { s with sUserInfo := none }
  onStore (MMKVUtil.removeData mmkv "wsq_pref_session")
  onStore (MMKVUtil.removeData mmkv "wsq_pref_user")

end

end AccountManager

/-! ## Calls -/

inductive Call where
  | isLoginned
  | setUserInfo (userInfo : Option UserInfo)
  | getUserInfo
  | getUserName
  | setSession (session : String)
  | getSession
  | clearAccountData

/-- What a call returns. -/
inductive Answer where
  | void
  | isLoginned (isLogined : Bool)
  | userInfo (userInfo : UserInfo)
  | text (text : Option String)
  deriving DecidableEq

section Runs

open AccountManager

variable {σ : Type} (mmkv : MMKV σ) (toJson : UserInfo → String)
  (fromJson : Option String → Option UserInfo)

def Call.run : Call → StateM (Device σ) Answer
  | .isLoginned => do return .isLoginned (← AccountManager.isLoginned mmkv)
  | .setUserInfo userInfo => do
    AccountManager.setUserInfo mmkv toJson userInfo
    return .void
  | .getUserInfo => do return .userInfo (← AccountManager.getUserInfo mmkv fromJson)
  | .getUserName => do return .text (← AccountManager.getUserName mmkv fromJson)
  | .setSession session => do
    AccountManager.setSession mmkv session
    return .void
  | .getSession => do return .text (← AccountManager.getSession mmkv)
  | .clearAccountData => do
    AccountManager.clearAccountData mmkv
    return .void

/-- A process that has been started on the store. -/
def accountMachine (store : σ) : StepMachine (Device σ) Call where
  init := ⟨.new, store⟩
  step d call := some (call.run mmkv toJson fromJson d).2

end Runs

/-! ## What is stored -/

section Stored

variable {σ : Type} (mmkv : MMKV σ) (fromJson : Option String → Option UserInfo)

def storedSession (s : σ) : Option String :=
  MMKVUtil.getString' mmkv "wsq_pref_session" s |>.1

def storedUser (s : σ) : UserInfo :=
  let text := MMKVUtil.getString' mmkv "wsq_pref_user" s |>.1
  (fromJson text).getD UserInfo.new

end Stored

/-- The texts that `AccountManager` writes are stored. -/
structure KeepsTexts (effect : Effect) : Prop where
  session : ∀ text, effect "wsq_pref_session" ⟨.string, some text⟩ =
    some (.write "wsq_pref_session" ⟨.string, some text⟩)
  user : ∀ text, effect "wsq_pref_user" ⟨.string, some text⟩ =
    some (.write "wsq_pref_user" ⟨.string, some text⟩)

/-- What a store holds under the two keys are texts. -/
structure HoldsTexts (contents : Contents) : Prop where
  session : ∀ v ∈ contents "wsq_pref_session", ∃ text : String, v = ⟨.string, some text⟩
  user : ∀ v ∈ contents "wsq_pref_user", ∃ text : String, v = ⟨.string, some text⟩

section Stored

variable {σ : Type} {mmkv : MMKV σ} {contents : σ → Contents} {effect : Effect}
  {fromJson : Option String → Option UserInfo} {s t : σ}

theorem kind_of_text {contents : Contents} {key : String}
    (h : ∀ v ∈ contents key, ∃ text : String, v = ⟨.string, some text⟩) :
    ∀ v ∈ contents key, v.1 = .string := by
  intro v hv
  obtain ⟨text, rfl⟩ := h v hv
  rfl

theorem storedSession_ne_none (h : mmkv.Documented contents effect)
    (hs : HoldsTexts (contents s)) : storedSession mmkv s ≠ none := by
  unfold storedSession
  cases hsession : contents s "wsq_pref_session" with
  | none => rw [h.getString_of_absent hsession]; exact Option.some_ne_none ""
  | some v =>
    obtain ⟨text, rfl⟩ := hs.session v hsession
    rw [h.getString_of_stored hsession]
    exact Option.some_ne_none text

theorem storedSession_congr (h : mmkv.Documented contents effect) (ht : HoldsTexts (contents t))
    (hst : contents s "wsq_pref_session" = contents t "wsq_pref_session") :
    storedSession mmkv s = storedSession mmkv t :=
  h.getString_congr (kind_of_text ht.session) hst

theorem storedUser_congr (h : mmkv.Documented contents effect) (ht : HoldsTexts (contents t))
    (hst : contents s "wsq_pref_user" = contents t "wsq_pref_user") :
    storedUser mmkv fromJson s = storedUser mmkv fromJson t := by
  rw [storedUser, h.getString_congr (kind_of_text ht.user) hst, storedUser]

end Stored

/-! ## What a call does -/

namespace AccountManager

variable {σ : Type} (mmkv : MMKV σ)

theorem isLoginned_run (d : Device σ) : isLoginned mmkv d =
    if !d.process.sIsLogined || isEmpty d.process.sSession then
      (decide (storedSession mmkv d.store ≠ some ""),
        { process := { d.process with
            sSession := storedSession mmkv d.store
            sIsLogined := storedSession mmkv d.store ≠ some "" }
          store := (MMKVUtil.getString' mmkv "wsq_pref_session" d.store).2 })
    else (d.process.sIsLogined, d) := by
  unfold isLoginned
  simp only [bind, StateT.bind, get, getThe, MonadStateOf.get, StateT.get, pure]
  split <;> rfl

theorem getSession_run (d : Device σ) : getSession mmkv d =
    if isEmpty d.process.sSession then
      (storedSession mmkv d.store,
        { process := { d.process with sSession := storedSession mmkv d.store }
          store := (MMKVUtil.getString' mmkv "wsq_pref_session" d.store).2 })
    else (d.process.sSession, d) := by
  unfold getSession
  simp only [bind, StateT.bind, get, getThe, MonadStateOf.get, StateT.get, pure]
  split <;> rfl

theorem getUserInfo_run (fromJson : Option String → Option UserInfo) (d : Device σ) :
    getUserInfo mmkv fromJson d =
      match d.process.sUserInfo with
      | some userInfo => (userInfo, d)
      | none =>
        (storedUser mmkv fromJson d.store,
          { process := { d.process with sUserInfo := some (storedUser mmkv fromJson d.store) }
            store := (MMKVUtil.getString' mmkv "wsq_pref_user" d.store).2 }) := by
  obtain ⟨⟨sIsLogined, sSession, sUserInfo⟩, store⟩ := d
  cases sUserInfo <;> rfl

theorem getUserName_run (fromJson : Option String → Option UserInfo) (d : Device σ) :
    getUserName mmkv fromJson d =
      let r := getUserInfo mmkv fromJson d
      if isEmpty r.1.userName then getSession mmkv r.2 else (r.1.userName, r.2) := by
  show (if isEmpty (getUserInfo mmkv fromJson d).1.userName then getSession mmkv
    else pure (getUserInfo mmkv fromJson d).1.userName) (getUserInfo mmkv fromJson d).2 = _
  dsimp only
  split <;> rfl

end AccountManager

/-! ## The caches are coherent -/

/-- A cache is empty, or it holds what is stored. -/
structure Device.Coherent {σ : Type} (mmkv : MMKV σ) (contents : σ → Contents)
    (fromJson : Option String → Option UserInfo) (d : Device σ) : Prop where
  session : isEmpty d.process.sSession = true ∨ d.process.sSession = storedSession mmkv d.store
  user : ∀ u ∈ d.process.sUserInfo, u = storedUser mmkv fromJson d.store
  texts : HoldsTexts (contents d.store)

namespace Device

variable {σ : Type} {mmkv : MMKV σ} {contents : σ → Contents} {effect : Effect}
  {toJson : UserInfo → String} {fromJson : Option String → Option UserInfo} {d : Device σ}

theorem coherent_start {store : σ} (h : HoldsTexts (contents store)) :
    Coherent mmkv contents fromJson ⟨.new, store⟩ :=
  ⟨Or.inl rfl, nofun, h⟩

/-! ### What is answered -/

theorem Coherent.session_of_nonempty (h : d.Coherent mmkv contents fromJson)
    (hne : isEmpty d.process.sSession ≠ true) :
    d.process.sSession = storedSession mmkv d.store :=
  h.session.resolve_left hne

theorem Coherent.getSession_fst (h : d.Coherent mmkv contents fromJson) :
    (AccountManager.getSession mmkv d).1 = storedSession mmkv d.store := by
  rw [AccountManager.getSession_run]
  split
  · rfl
  · next hne => exact h.session_of_nonempty hne

/-- Once somebody has asked, `sSession` is not empty without being stored. -/
theorem Coherent.isLoginned_fst (hmmkv : mmkv.Documented contents effect)
    (h : d.Coherent mmkv contents fromJson) :
    (AccountManager.isLoginned mmkv d).1 = !isEmpty (storedSession mmkv d.store) := by
  have hempty : decide (storedSession mmkv d.store ≠ some "") =
      !isEmpty (storedSession mmkv d.store) := by
    obtain ⟨session, hsession⟩ :=
      Option.ne_none_iff_exists'.mp (storedSession_ne_none hmmkv h.texts)
    rw [hsession]
    simp [isEmpty]
  rw [AccountManager.isLoginned_run]
  split
  · exact hempty
  · next hcached =>
    simp only [Bool.or_eq_true, Bool.not_eq_true', not_or, Bool.not_eq_false] at hcached
    obtain ⟨hlogined, hne⟩ := hcached
    rw [hlogined, ← h.session_of_nonempty hne, Bool.eq_false_iff.mpr hne]
    rfl

theorem Coherent.getUserInfo_fst (h : d.Coherent mmkv contents fromJson) :
    (AccountManager.getUserInfo mmkv fromJson d).1 = storedUser mmkv fromJson d.store := by
  rw [AccountManager.getUserInfo_run]
  split
  · next userInfo huser => exact h.user userInfo huser
  · rfl

/-! ### What is kept -/

/-- A call that only reads: what it caches is stored, and the contents stay. -/
theorem Coherent.read (hmmkv : mmkv.Documented contents effect)
    (h : d.Coherent mmkv contents fromJson) {d' : Device σ}
    (hstore : contents d'.store = contents d.store)
    (hsession : isEmpty d'.process.sSession = true ∨
      d'.process.sSession = storedSession mmkv d.store)
    (huser : ∀ u ∈ d'.process.sUserInfo, u = storedUser mmkv fromJson d.store) :
    d'.Coherent mmkv contents fromJson where
  session := by
    rwa [storedSession_congr hmmkv h.texts (congrFun hstore "wsq_pref_session")]
  user := by
    rwa [storedUser_congr hmmkv h.texts (congrFun hstore "wsq_pref_user")]
  texts := hstore ▸ h.texts

theorem Coherent.getSession (hmmkv : mmkv.Documented contents effect)
    (h : d.Coherent mmkv contents fromJson) :
    (AccountManager.getSession mmkv d).2.Coherent mmkv contents fromJson := by
  rw [AccountManager.getSession_run]
  split
  · exact h.read hmmkv (hmmkv.contents_getString ..) (Or.inr rfl) h.user
  · exact h

theorem Coherent.getUserInfo (hmmkv : mmkv.Documented contents effect)
    (h : d.Coherent mmkv contents fromJson) :
    (AccountManager.getUserInfo mmkv fromJson d).2.Coherent mmkv contents fromJson := by
  rw [AccountManager.getUserInfo_run]
  split
  · exact h
  · refine h.read hmmkv (hmmkv.contents_getString ..) h.session fun u hu => ?_
    exact (Option.some.inj hu).symm

theorem contents_getUserInfo (hmmkv : mmkv.Documented contents effect) (d : Device σ) :
    contents (AccountManager.getUserInfo mmkv fromJson d).2.store = contents d.store := by
  rw [AccountManager.getUserInfo_run]
  split
  · rfl
  · exact hmmkv.contents_getString ..

theorem Coherent.isLoginned (hmmkv : mmkv.Documented contents effect)
    (h : d.Coherent mmkv contents fromJson) :
    (AccountManager.isLoginned mmkv d).2.Coherent mmkv contents fromJson := by
  rw [AccountManager.isLoginned_run]
  split
  · exact h.read hmmkv (hmmkv.contents_getString ..) (Or.inr rfl) h.user
  · exact h

theorem Coherent.getUserName (hmmkv : mmkv.Documented contents effect)
    (h : d.Coherent mmkv contents fromJson) :
    (AccountManager.getUserName mmkv fromJson d).2.Coherent mmkv contents fromJson := by
  rw [AccountManager.getUserName_run]
  dsimp only
  split
  · exact (h.getUserInfo hmmkv).getSession hmmkv
  · exact h.getUserInfo hmmkv

theorem Coherent.getUserName_fst (hmmkv : mmkv.Documented contents effect)
    (h : d.Coherent mmkv contents fromJson) :
    (AccountManager.getUserName mmkv fromJson d).1 =
      if isEmpty (storedUser mmkv fromJson d.store).userName then storedSession mmkv d.store
      else (storedUser mmkv fromJson d.store).userName := by
  have hinfo := h.getUserInfo hmmkv
  have hsession : storedSession mmkv (AccountManager.getUserInfo mmkv fromJson d).2.store =
      storedSession mmkv d.store :=
    storedSession_congr hmmkv h.texts (congrFun (contents_getUserInfo hmmkv d) _)
  rw [AccountManager.getUserName_run, ← h.getUserInfo_fst, ← hsession, ← hinfo.getSession_fst]
  dsimp only
  split <;> rfl

theorem Coherent.setSession (hmmkv : mmkv.Documented contents effect)
    (hkeeps : KeepsTexts effect) (h : d.Coherent mmkv contents fromJson) (session : String) :
    (AccountManager.setSession mmkv session d).2.Coherent mmkv contents fromJson := by
  let store := (MMKVUtil.setString mmkv "wsq_pref_session" (some session) d.store).2
  have hwritten : contents store "wsq_pref_session" = some ⟨.string, some session⟩ :=
    hmmkv.contents_setString_self (hkeeps.session session) d.store
  have hother : contents store "wsq_pref_user" = contents d.store "wsq_pref_user" :=
    hmmkv.contents_setString_of_ne (by decide) ..
  refine ⟨Or.inr (hmmkv.getString_of_stored hwritten).symm, fun u hu => ?_, ?_, ?_⟩
  · exact (h.user u hu).trans (storedUser_congr hmmkv h.texts hother).symm
  · intro v hv
    exact ⟨session, Option.some.inj (hv.symm.trans hwritten)⟩
  · intro v hv
    exact h.texts.user v (hother ▸ hv)

theorem Coherent.setUserInfo (hmmkv : mmkv.Documented contents effect)
    (hkeeps : KeepsTexts effect) (h : d.Coherent mmkv contents fromJson)
    {userInfo : Option UserInfo}
    (hjson : ∀ u ∈ userInfo, fromJson (some (toJson u)) = some u) :
    (AccountManager.setUserInfo mmkv toJson userInfo d).2.Coherent mmkv contents fromJson := by
  cases userInfo with
  | none => exact h
  | some userInfo =>
    let store := (MMKVUtil.setString mmkv "wsq_pref_user" (some (toJson userInfo)) d.store).2
    have hwritten : contents store "wsq_pref_user" = some ⟨.string, some (toJson userInfo)⟩ :=
      hmmkv.contents_setString_self (hkeeps.user (toJson userInfo)) d.store
    have hother : contents store "wsq_pref_session" = contents d.store "wsq_pref_session" :=
      hmmkv.contents_setString_of_ne (by decide) ..
    have hsession := storedSession_congr hmmkv h.texts hother
    refine ⟨h.session.imp_right fun hs => hs.trans hsession.symm, fun u hu => ?_, ?_, ?_⟩
    · obtain rfl := Option.some.inj hu
      show userInfo = storedUser mmkv fromJson store
      rw [storedUser, hmmkv.getString_of_stored hwritten, hjson userInfo rfl]
      rfl
    · intro v hv
      exact h.texts.session v (hother ▸ hv)
    · intro v hv
      exact ⟨toJson userInfo, Option.some.inj (hv.symm.trans hwritten)⟩

/-- Nothing is left of the account, neither in the process nor in the store. -/
theorem coherent_clearAccountData (hmmkv : mmkv.Documented contents effect) (d : Device σ) :
    (AccountManager.clearAccountData mmkv d).2.Coherent mmkv contents fromJson := by
  let store := (MMKVUtil.removeData mmkv "wsq_pref_session" d.store).2
  have hsession :
      contents (MMKVUtil.removeData mmkv "wsq_pref_user" store).2 "wsq_pref_session" = none :=
    (hmmkv.contents_removeData_of_ne (by decide) store).trans
      (hmmkv.contents_removeData_self "wsq_pref_session" d.store)
  have huser : contents (MMKVUtil.removeData mmkv "wsq_pref_user" store).2 "wsq_pref_user" = none :=
    hmmkv.contents_removeData_self "wsq_pref_user" store
  refine ⟨Or.inl rfl, nofun, fun v hv => ?_, fun v hv => ?_⟩
  · cases hsession.symm.trans hv
  · cases huser.symm.trans hv

theorem Coherent.run (hmmkv : mmkv.Documented contents effect) (hkeeps : KeepsTexts effect)
    (h : d.Coherent mmkv contents fromJson) (call : Call)
    (hjson : ∀ u, call = .setUserInfo (some u) → fromJson (some (toJson u)) = some u) :
    (call.run mmkv toJson fromJson d).2.Coherent mmkv contents fromJson := by
  cases call with
  | isLoginned => exact h.isLoginned hmmkv
  | setUserInfo userInfo =>
    exact h.setUserInfo hmmkv hkeeps fun u hu => hjson u (by rw [hu])
  | getUserInfo => exact h.getUserInfo hmmkv
  | getUserName => exact h.getUserName hmmkv
  | setSession session => exact h.setSession hmmkv hkeeps session
  | getSession => exact h.getSession hmmkv
  | clearAccountData => exact coherent_clearAccountData hmmkv d

/-- Coherent caches answer what the store says. -/
theorem Coherent.run_fst (hmmkv : mmkv.Documented contents effect)
    (h : d.Coherent mmkv contents fromJson) (call : Call) :
    (call.run mmkv toJson fromJson d).1 = (call.run mmkv toJson fromJson ⟨.new, d.store⟩).1 := by
  have hfresh : Coherent mmkv contents fromJson ⟨.new, d.store⟩ := coherent_start h.texts
  cases call with
  | isLoginned =>
    have hlogined := (h.isLoginned_fst hmmkv).trans (hfresh.isLoginned_fst hmmkv).symm
    exact congrArg Answer.isLoginned hlogined
  | getUserInfo =>
    exact congrArg Answer.userInfo (h.getUserInfo_fst.trans hfresh.getUserInfo_fst.symm)
  | getUserName =>
    have hname := (h.getUserName_fst hmmkv).trans (hfresh.getUserName_fst hmmkv).symm
    exact congrArg Answer.text hname
  | getSession => exact congrArg Answer.text (h.getSession_fst.trans hfresh.getSession_fst.symm)
  | _ => rfl

end Device

/-- **The account survives a restart**: after any calls, every call answers what it would in a
process started on the store of that moment, and somebody is logged in exactly when the stored
session is not empty. -/
theorem answers_eq_fresh {σ : Type} {mmkv : MMKV σ} {contents : σ → Contents} {effect : Effect}
    (hmmkv : mmkv.Documented contents effect) (hkeeps : KeepsTexts effect)
    (toJson : UserInfo → String) (fromJson : Option String → Option UserInfo) (store : σ)
    (hstore : HoldsTexts (contents store)) (calls : List Call)
    (hjson : ∀ u, .setUserInfo (some u) ∈ calls → fromJson (some (toJson u)) = some u)
    (d : Device σ) (hd : (accountMachine mmkv toJson fromJson store).run calls = some d) :
    (∀ call : Call, (call.run mmkv toJson fromJson d).1 =
      (call.run mmkv toJson fromJson ⟨.new, d.store⟩).1) ∧
    ((AccountManager.isLoginned mmkv d).1 = true ↔
      isEmpty (storedSession mmkv d.store) = false) := by
  have heach : (accountMachine mmkv toJson fromJson store).Each (fun _ call =>
      ∀ u, call = .setUserInfo (some u) → fromJson (some (toJson u)) = some u) calls := by
    refine StepMachine.each_of_forall_mem _ fun call hcall _ u hu => hjson u ?_
    rw [← hu]
    exact hcall
  have h : d.Coherent mmkv contents fromJson :=
    StepMachine.invariant_of_each _ (Device.coherent_start hstore)
      (fun s call t hs hjson ht => Option.some.inj ht ▸ hs.run hmmkv hkeeps call hjson) heach hd
  refine ⟨h.run_fst hmmkv, ?_⟩
  rw [h.isLoginned_fst hmmkv, Bool.not_eq_true']

/-- The only user of a process that is logged in, and logged out by an empty session. -/
def han : UserInfo := { UserInfo.new with userName := some "han" }

def hanJson : String := "\x7b\"userName\":\"han\",\"gender\":0\x7d"

def loggedOut : List Call :=
  [.setSession "s1", .isLoginned, .setUserInfo (some han), .getUserName, .setSession ""]

theorem answers_eq_fresh_loggedOut :
    let mmkv := MMKV.ofEffect MMKV.refusesEmptyKey
    let fromJson := fun text : Option String => if text = some hanJson then some han else none
    ∃ d, (accountMachine mmkv (fun _ => hanJson) fromJson fun _ => none).run loggedOut = some d ∧
      (∀ call : Call, (call.run mmkv (fun _ => hanJson) fromJson d).1 =
        (call.run mmkv (fun _ => hanJson) fromJson ⟨.new, d.store⟩).1) ∧
      ((AccountManager.isLoginned mmkv d).1 = true ↔
        isEmpty (storedSession mmkv d.store) = false) := by
  intro mmkv fromJson
  have hkeeps : KeepsTexts MMKV.refusesEmptyKey := ⟨fun _ => rfl, fun _ => rfl⟩
  have hempty : HoldsTexts (id fun _ => none) := ⟨nofun, nofun⟩
  refine ⟨_, rfl, answers_eq_fresh MMKV.documented_refusesEmptyKey hkeeps _ fromJson _ hempty
    loggedOut ?_ _ rfl⟩
  intro u hu
  obtain rfl : u = han := by simpa [loggedOut] using hu
  exact if_pos rfl

end PetDev.Account
