import Mathlib.Data.List.Basic
import PetDev.Lib.KeyStore

/-!
# `MMKVUtil`

`MMKVUtil` wraps the key-value store MMKV: five setters, five getters with a default and five
without, and `removeData`.  The setters call `encode`, the getters `decodeX`, except that of a
boolean: `setBoolean` calls `decodeBool`, which stores nothing, and `getBoolean` calls `encode`,
which stores the default and answers whether that succeeded.

`lawful_iff`: on calls that use each key with one type, every getter reads the last write
exactly when every `getBoolean` is made where the right answer is whether a write of its default
succeeds, and no other getter is made where the last write has failed.  No getter changes what a
later call returns: what `getBoolean` stores is never read.

MMKV is a parameter.  `MMKV.Documented` says what is known of it: there are contents, which the
decoders read, and whether a write succeeds depends on its key and its value.  A string may be
`null`; MMKV may store that or take it as a removal.
-/

namespace PetDev.Store

open KeyStore

/-! ## MMKV -/

/-- The types of the values. -/
inductive Kind where
  | boolean
  | string
  | int
  | float
  | long
deriving DecidableEq, Repr

abbrev Kind.Carrier : Kind → Type
  | .boolean => Bool
  | .string => Option String
  | .int => Int32
  | .float => Float32
  | .long => Int64

abbrev Value := Σ kind : Kind, kind.Carrier

/-- The calls of MMKV, on a store of any kind. -/
structure MMKV (σ : Type) where
  encode (kind : Kind) (key : String) (value : kind.Carrier) : StateM σ Bool
  decode (kind : Kind) (key : String) (defaultValue : kind.Carrier) : StateM σ kind.Carrier
  remove (key : String) : StateM σ Unit

/-- What the contents hold under a key. -/
abbrev Contents := String → Option Value

/-- The change that a write makes; `none` when it fails. -/
abbrev Effect := String → Value → Option (Change String Value)

namespace MMKV

variable {σ : Type}

section

variable (mmkv : MMKV σ)

def decodeBool (key : String) (defaultValue : Bool) : StateM σ Bool :=
  mmkv.decode .boolean key defaultValue

def decodeString (key : String) (defaultValue : Option String) : StateM σ (Option String) :=
  mmkv.decode .string key defaultValue

def decodeInt (key : String) (defaultValue : Int32) : StateM σ Int32 :=
  mmkv.decode .int key defaultValue

def decodeFloat (key : String) (defaultValue : Float32) : StateM σ Float32 :=
  mmkv.decode .float key defaultValue

def decodeLong (key : String) (defaultValue : Int64) : StateM σ Int64 :=
  mmkv.decode .long key defaultValue

end

/-- What MMKV promises.  Nothing is said of a key that is decoded with another type than that of
its value. -/
structure Documented (mmkv : MMKV σ) (contents : σ → Contents) (effect : Effect) : Prop where
  encode_fst : ∀ kind key value s,
    (mmkv.encode kind key value s).1 = (effect key ⟨kind, value⟩).isSome
  encode_snd : ∀ kind key value s,
    contents (mmkv.encode kind key value s).2 =
      (effect key ⟨kind, value⟩).toList.foldl apply (contents s)
  stores : ∀ key value, ∀ change ∈ effect key value,
    change = .write key value ∨ value = ⟨.string, none⟩ ∧ change = .erase key
  decode_stored : ∀ kind key defaultValue s value,
    contents s key = some ⟨kind, value⟩ → (mmkv.decode kind key defaultValue s).1 = value
  decode_absent : ∀ kind key defaultValue s,
    contents s key = none → (mmkv.decode kind key defaultValue s).1 = defaultValue
  decode_snd : ∀ kind key defaultValue s,
    contents (mmkv.decode kind key defaultValue s).2 = contents s
  remove : ∀ key s, contents (mmkv.remove key s).2 = apply (contents s) (.erase key)

/-- The store that is its contents. -/
def ofEffect (effect : Effect) : MMKV Contents where
  encode kind key value s :=
    ((effect key ⟨kind, value⟩).isSome, (effect key ⟨kind, value⟩).toList.foldl apply s)
  decode kind key defaultValue s :=
    (match s key with
      | some ⟨stored, value⟩ => if h : stored = kind then h ▸ value else defaultValue
      | none => defaultValue, s)
  remove key s := ((), apply s (.erase key))

theorem documented_ofEffect {effect : Effect}
    (h : ∀ key value, ∀ change ∈ effect key value,
      change = .write key value ∨ value = ⟨.string, none⟩ ∧ change = .erase key) :
    (ofEffect effect).Documented id effect where
  encode_fst _ _ _ _ := rfl
  encode_snd _ _ _ _ := rfl
  stores := h
  decode_stored kind key defaultValue s value hs := by
    show (match s key with
      | some ⟨stored, value⟩ => if h : stored = kind then h ▸ value else defaultValue
      | none => defaultValue) = value
    rw [show s key = some ⟨kind, value⟩ from hs]
    simp
  decode_absent kind key defaultValue s hs := by
    show (match s key with
      | some ⟨stored, value⟩ => if h : stored = kind then h ▸ value else defaultValue
      | none => defaultValue) = defaultValue
    rw [show s key = none from hs]
  decode_snd _ _ _ _ := rfl
  remove _ _ := rfl

/-- Every write is stored. -/
def alwaysStores : Effect := fun key value => some (.write key value)

/-- An empty key is refused, and writing `null` removes. -/
def refusesEmptyKey : Effect := fun key value =>
  if key = "" then none
  else match value with
    | ⟨.string, none⟩ => some (.erase key)
    | value => some (.write key value)

theorem documented_alwaysStores : (ofEffect alwaysStores).Documented id alwaysStores :=
  documented_ofEffect fun _ _ _ h => Or.inl (Option.some.inj h).symm

theorem documented_refusesEmptyKey :
    (ofEffect refusesEmptyKey).Documented id refusesEmptyKey := by
  refine documented_ofEffect fun key value change h => ?_
  unfold refusesEmptyKey at h
  split at h
  · cases h
  · split at h
    · exact Or.inr ⟨rfl, (Option.some.inj h).symm⟩
    · exact Or.inl (Option.some.inj h).symm

/-! ### A documented store -/

section

variable {mmkv : MMKV σ} {contents : σ → Contents} {effect : Effect}

theorem Documented.key_effect (h : mmkv.Documented contents effect) {key : String} {value : Value}
    {change : Change String Value} (hchange : change ∈ effect key value) : change.key = key := by
  obtain rfl | ⟨-, rfl⟩ := h.stores key value change hchange <;> rfl

theorem Documented.kind_effect (h : mmkv.Documented contents effect) {key : String}
    {value stored : Value} {change : Change String Value} (hchange : change ∈ effect key value)
    (hstored : change.value = some stored) : stored = value := by
  obtain rfl | ⟨-, rfl⟩ := h.stores key value change hchange
  · exact (Option.some.inj hstored).symm
  · cases hstored

/-- Under a key of the right type, the value is decoded, or else the default. -/
theorem Documented.decode_fst (h : mmkv.Documented contents effect) {kind : Kind} {key : String}
    {s : σ} (hkind : ∀ v ∈ contents s key, v.1 = kind) (defaultValue : kind.Carrier) :
    (⟨kind, (mmkv.decode kind key defaultValue s).1⟩ : Value) =
      (contents s key).getD ⟨kind, defaultValue⟩ := by
  cases hs : contents s key with
  | none =>
    rw [h.decode_absent kind key defaultValue s hs]
    rfl
  | some v =>
    obtain ⟨stored, value⟩ := v
    obtain rfl : stored = kind := hkind ⟨stored, value⟩ hs
    rw [h.decode_stored stored key defaultValue s value hs]
    rfl

end

end MMKV

/-! ## The wrapper -/

namespace MMKVUtil

variable {σ : Type} (mmkv : MMKV σ)

def setBoolean (key : String) (value : Bool) : StateM σ Unit :=
  discard (mmkv.decodeBool key value)

def setString (key : String) (value : Option String) : StateM σ Unit :=
  discard (mmkv.encode .string key value)

def setInt (key : String) (value : Int32) : StateM σ Unit :=
  discard (mmkv.encode .int key value)

def setFloat (key : String) (value : Float32) : StateM σ Unit :=
  discard (mmkv.encode .float key value)

def setLong (key : String) (value : Int64) : StateM σ Unit :=
  discard (mmkv.encode .long key value)

def getBoolean (key : String) (defaultValue : Bool) : StateM σ Bool :=
  mmkv.encode .boolean key defaultValue

def getBoolean' (key : String) : StateM σ Bool := getBoolean mmkv key false

def getInt (key : String) (defaultValue : Int32) : StateM σ Int32 :=
  mmkv.decodeInt key defaultValue

def getInt' (key : String) : StateM σ Int32 := getInt mmkv key 0

def getString (key : String) (defaultValue : Option String) : StateM σ (Option String) :=
  mmkv.decodeString key defaultValue

def getString' (key : String) : StateM σ (Option String) := getString mmkv key (some "")

def getFloat (key : String) (defaultValue : Float32) : StateM σ Float32 :=
  mmkv.decodeFloat key defaultValue

def getFloat' (key : String) : StateM σ Float32 := getFloat mmkv key 0

def getLong (key : String) (defaultValue : Int64) : StateM σ Int64 :=
  mmkv.decodeLong key defaultValue

def getLong' (key : String) : StateM σ Int64 := getLong mmkv key 0

def removeData (key : String) : StateM σ Unit :=
  mmkv.remove key

end MMKVUtil

/-! ## Strings -/

namespace MMKV.Documented

variable {σ : Type} {mmkv : MMKV σ} {contents : σ → Contents} {effect : Effect} {s t : σ}
  {key key' : String}

theorem contents_getString (h : mmkv.Documented contents effect) (key : String) (s : σ) :
    contents (MMKVUtil.getString' mmkv key s).2 = contents s :=
  h.decode_snd ..

theorem contents_setString_of_ne (h : mmkv.Documented contents effect) (hne : key ≠ key')
    (value : Option String) (s : σ) :
    contents (MMKVUtil.setString mmkv key value s).2 key' = contents s key' := by
  have hsnd : contents (MMKVUtil.setString mmkv key value s).2 =
      (effect key ⟨.string, value⟩).toList.foldl apply (contents s) := h.encode_snd ..
  rw [hsnd]
  cases heffect : effect key ⟨.string, value⟩ with
  | none => rfl
  | some change =>
    have hkey : change.key = key := h.key_effect heffect
    exact apply_of_ne (contents s) (hkey ▸ hne)

theorem contents_setString_self (h : mmkv.Documented contents effect) {text : String}
    (hstored : effect key ⟨.string, some text⟩ = some (.write key ⟨.string, some text⟩)) (s : σ) :
    contents (MMKVUtil.setString mmkv key (some text) s).2 key = some ⟨.string, some text⟩ := by
  have hsnd : contents (MMKVUtil.setString mmkv key (some text) s).2 =
      (effect key ⟨.string, some text⟩).toList.foldl apply (contents s) := h.encode_snd ..
  rw [hsnd, hstored]
  exact apply_self (contents s) (.write key _)

theorem contents_removeData_self (h : mmkv.Documented contents effect) (key : String) (s : σ) :
    contents (MMKVUtil.removeData mmkv key s).2 key = none := by
  have hsnd : contents (MMKVUtil.removeData mmkv key s).2 = apply (contents s) (.erase key) :=
    h.remove ..
  rw [hsnd]
  exact apply_self (contents s) (.erase key)

theorem contents_removeData_of_ne (h : mmkv.Documented contents effect) (hne : key ≠ key')
    (s : σ) : contents (MMKVUtil.removeData mmkv key s).2 key' = contents s key' := by
  have hsnd : contents (MMKVUtil.removeData mmkv key s).2 = apply (contents s) (.erase key) :=
    h.remove ..
  rw [hsnd]
  exact apply_of_ne (contents s) (c := .erase key) hne

theorem getString_of_stored (h : mmkv.Documented contents effect) {value : Option String}
    (hs : contents s key = some ⟨.string, value⟩) :
    (MMKVUtil.getString' mmkv key s).1 = value :=
  h.decode_stored .string key (some "") s value hs

/-- What is absent reads as the empty string. -/
theorem getString_of_absent (h : mmkv.Documented contents effect)
    (hs : contents s key = none) : (MMKVUtil.getString' mmkv key s).1 = some "" :=
  h.decode_absent .string key (some "") s hs

/-- Only the contents count, where a string is expected. -/
theorem getString_congr (h : mmkv.Documented contents effect)
    (hkind : ∀ v ∈ contents t key, v.1 = .string) (hst : contents s key = contents t key) :
    (MMKVUtil.getString' mmkv key s).1 = (MMKVUtil.getString' mmkv key t).1 := by
  cases ht : contents t key with
  | none => rw [h.getString_of_absent ht, h.getString_of_absent (hst.trans ht)]
  | some v =>
    obtain ⟨kind, value⟩ := v
    obtain rfl : kind = .string := hkind _ ht
    rw [h.getString_of_stored ht, h.getString_of_stored (hst.trans ht)]

end MMKV.Documented

/-! ## Calls -/

/-- A call of `MMKVUtil`; the getters may leave the default out. -/
inductive Call where
  | set (kind : Kind) (key : String) (value : kind.Carrier)
  | get (kind : Kind) (key : String) (defaultValue : Option kind.Carrier)
  | removeData (key : String)

/-- The default that a getter takes when it is left out. -/
def Kind.defaultValue : (kind : Kind) → kind.Carrier
  | .boolean => false
  | .string => some ""
  | .int => (0 : Int32)
  | .float => (0 : Float32)
  | .long => (0 : Int64)

namespace Call

section

variable {σ : Type} (mmkv : MMKV σ)

def setter : (kind : Kind) → String → kind.Carrier → StateM σ Unit
  | .boolean => MMKVUtil.setBoolean mmkv
  | .string => MMKVUtil.setString mmkv
  | .int => MMKVUtil.setInt mmkv
  | .float => MMKVUtil.setFloat mmkv
  | .long => MMKVUtil.setLong mmkv

def getter : (kind : Kind) → String → Option kind.Carrier → StateM σ kind.Carrier
  | .boolean, key, some defaultValue => MMKVUtil.getBoolean mmkv key defaultValue
  | .boolean, key, none => MMKVUtil.getBoolean' mmkv key
  | .string, key, some defaultValue => MMKVUtil.getString mmkv key defaultValue
  | .string, key, none => MMKVUtil.getString' mmkv key
  | .int, key, some defaultValue => MMKVUtil.getInt mmkv key defaultValue
  | .int, key, none => MMKVUtil.getInt' mmkv key
  | .float, key, some defaultValue => MMKVUtil.getFloat mmkv key defaultValue
  | .float, key, none => MMKVUtil.getFloat' mmkv key
  | .long, key, some defaultValue => MMKVUtil.getLong mmkv key defaultValue
  | .long, key, none => MMKVUtil.getLong' mmkv key

/-- The call on the store, with what it returns. -/
def run : Call → StateM σ (Option Value)
  | .set kind key value => do
    setter mmkv kind key value
    return none
  | .get kind key defaultValue => do
    let value ← getter mmkv kind key defaultValue
    return some ⟨kind, value⟩
  | .removeData key => do
    MMKVUtil.removeData mmkv key
    return none

end

/-- The key and the default of a getter. -/
def reads : Call → Option (String × Value)
  | .get kind key defaultValue => some (key, ⟨kind, defaultValue.getD kind.defaultValue⟩)
  | _ => none

/-- The change that a call asks for. -/
def asks : Call → Option (Change String Value)
  | .set kind key value => some (.write key ⟨kind, value⟩)
  | .get _ _ _ => none
  | .removeData key => some (.erase key)

/-- The change that is left of it where writes may fail. -/
def granted (effect : Effect) : Call → Option (Change String Value)
  | .set kind key value => effect key ⟨kind, value⟩
  | .get _ _ _ => none
  | .removeData key => some (.erase key)

/-- The change that the call makes. -/
def makes (effect : Effect) : Call → Option (Change String Value)
  | .set .boolean _ _ => none
  | .get .boolean key defaultValue => effect key ⟨.boolean, defaultValue.getD false⟩
  | c => c.granted effect

/-- The key is used with its type. -/
def Typed (kinds : String → Kind) : Call → Prop
  | .set kind key _ => kinds key = kind
  | .get kind key _ => kinds key = kind
  | .removeData _ => True

end Call

section

variable {σ : Type} (mmkv : MMKV σ)

/-- The store after the calls. -/
def after (s : σ) (calls : List Call) : σ := calls.foldl (fun s c => (c.run mmkv s).2) s

/-- What the calls return, one after the other. -/
def answers (s : σ) : List Call → List (Option Value)
  | [] => []
  | c :: cs => (c.run mmkv s).1 :: answers (c.run mmkv s).2 cs

end

/-- What the getter should return: the last write, or its default. -/
def expected (calls : List Call) (read : String × Value) : Value :=
  (lastWrite read.1 (calls.filterMap Call.asks)).getD read.2

/-- Each key is used with one type only. -/
def WellTyped (calls : List Call) : Prop := ∃ kinds, ∀ c ∈ calls, Call.Typed kinds c

/-- Every getter returns the last write, and leaves what the later calls return alone. -/
structure Lawful {σ : Type} (mmkv : MMKV σ) (s : σ) (calls : List Call) : Prop where
  reads : ∀ pre c post, calls = pre ++ c :: post → ∀ read ∈ c.reads,
    (c.run mmkv (after mmkv s pre)).1 = some (expected pre read)
  silent : ∀ pre c post, calls = pre ++ c :: post → c.reads.isSome = true →
    answers mmkv (after mmkv s (pre ++ [c])) post = answers mmkv (after mmkv s pre) post

/-- A getter of a boolean is right where `true` is and a write of its default succeeds, or
`false` is and the write fails; another is right where the last write has not failed. -/
def ReadRight (effect : Effect) (pre : List Call) (read : String × Value) : Prop :=
  if read.2.1 = .boolean then
    expected pre read = ⟨.boolean, (effect read.1 read.2).isSome⟩
  else (lastWrite read.1 (pre.filterMap (Call.granted effect))).getD read.2 = expected pre read

/-- **The condition.** -/
def ReadsRight (effect : Effect) (calls : List Call) : Prop :=
  ∀ pre c post, calls = pre ++ c :: post → ∀ read ∈ c.reads, ReadRight effect pre read

/-- Where every write is stored, only the getters of a boolean are left to go wrong. -/
theorem readsRight_alwaysStores (calls : List Call) :
    ReadsRight MMKV.alwaysStores calls ↔
      ∀ pre c post, calls = pre ++ c :: post → ∀ read ∈ c.reads, read.2.1 = .boolean →
        expected pre read = ⟨.boolean, true⟩ := by
  have hgranted : Call.granted MMKV.alwaysStores = Call.asks := by
    funext c
    cases c <;> rfl
  have hread (pre : List Call) (read : String × Value) :
      ReadRight MMKV.alwaysStores pre read ↔
        (read.2.1 = .boolean → expected pre read = ⟨.boolean, true⟩) := by
    unfold ReadRight
    split
    · next hboolean => exact ⟨fun h _ => h, fun h => h hboolean⟩
    · next hother =>
      rw [hgranted]
      exact iff_of_true rfl fun hboolean => absurd hboolean hother
  simp only [ReadsRight, hread]

/-! ## What a call does -/

section

variable {σ : Type} {mmkv : MMKV σ} {contents : σ → Contents} {effect : Effect}

theorem Call.contents_run (h : mmkv.Documented contents effect) (c : Call) (s : σ) :
    contents (c.run mmkv s).2 = (c.makes effect).toList.foldl apply (contents s) := by
  cases c with
  | set kind key value =>
    cases kind with
    | boolean => exact h.decode_snd .boolean key value s
    | _ => exact h.encode_snd _ key value s
  | get kind key defaultValue =>
    cases kind with
    | boolean => cases defaultValue <;> exact h.encode_snd .boolean key _ s
    | _ => cases defaultValue <;> exact h.decode_snd _ key _ s
  | removeData key => exact h.remove key s

theorem after_concat (s : σ) (calls : List Call) (c : Call) :
    after mmkv s (calls ++ [c]) = (c.run mmkv (after mmkv s calls)).2 := by
  rw [after, List.foldl_append]
  rfl

/-- The store holds what the calls have made of it. -/
theorem contents_after (h : mmkv.Documented contents effect) {s : σ}
    (hs : contents s = fun _ => none) (calls : List Call) :
    contents (after mmkv s calls) = KeyStore.after (calls.filterMap (Call.makes effect)) := by
  induction calls using List.reverseRecOn with
  | nil => exact hs
  | append_singleton calls c ih =>
    rw [after_concat, Call.contents_run h, ih, List.filterMap_append, KeyStore.after,
      KeyStore.after, List.foldl_append]
    cases hmakes : c.makes effect with
    | none => rw [List.filterMap_cons_none hmakes]; rfl
    | some ch => rw [List.filterMap_cons_some hmakes]; rfl

theorem filter_effect_of_ne (h : mmkv.Documented contents effect) {k key : String} (hne : k ≠ key)
    (value : Value) : (effect k value).filter (fun ch => ch.key = key) = none := by
  cases heffect : effect k value with
  | none => rfl
  | some ch =>
    have hkey : ch.key = k := h.key_effect heffect
    have hch : ch.key ≠ key := hkey ▸ hne
    simp [hch]

/-- Except for booleans, a call makes the change that is left of what it asks for. -/
theorem Call.Typed.makes (h : mmkv.Documented contents effect) {kinds : String → Kind} {c : Call}
    (hc : c.Typed kinds) {key : String} (hkey : kinds key ≠ .boolean) :
    (c.makes effect).filter (fun ch => ch.key = key) =
      (c.granted effect).filter fun ch => ch.key = key := by
  have hother : ∀ k, kinds k = .boolean → k ≠ key := by
    rintro k hk rfl
    exact hkey hk
  cases c with
  | set kind k value =>
    cases kind with
    | boolean => exact (filter_effect_of_ne h (hother k hc) _).symm
    | _ => rfl
  | get kind k defaultValue =>
    cases kind with
    | boolean => exact filter_effect_of_ne h (hother k hc) _
    | _ => rfl
  | removeData k => rfl

/-- The store keeps the law for every key that is not of a boolean. -/
theorem contents_after_apply (h : mmkv.Documented contents effect) {s : σ}
    (hs : contents s = fun _ => none) {kinds : String → Kind} {calls : List Call}
    (hcalls : ∀ c ∈ calls, Call.Typed kinds c) {key : String} (hkey : kinds key ≠ .boolean) :
    contents (after mmkv s calls) key = lastWrite key (calls.filterMap (Call.granted effect)) := by
  rw [contents_after h hs, after_eq_lastWrite, ← lastWrite_filter,
    ← lastWrite_filter key (calls.filterMap (Call.granted effect)), List.filter_filterMap,
    List.filter_filterMap]
  exact congrArg _ (List.filterMap_congr fun c hc => (hcalls c hc).makes h hkey)

/-! ## What is stored has its type -/

theorem Call.Typed.kind_makes (h : mmkv.Documented contents effect) {kinds : String → Kind}
    {c : Call} (hc : c.Typed kinds) {ch : Change String Value} (hch : ch ∈ c.makes effect)
    {v : Value} (hv : ch.value = some v) : v.1 = kinds ch.key := by
  have hwrite {kind : Kind} {key : String} {value : kind.Carrier} (hkind : kinds key = kind)
      (heffect : ch ∈ effect key ⟨kind, value⟩) : v.1 = kinds ch.key := by
    rw [h.kind_effect heffect hv, h.key_effect heffect, hkind]
  cases c with
  | set kind key value =>
    cases kind with
    | boolean => cases hch
    | _ => exact hwrite hc hch
  | get kind key defaultValue =>
    cases kind with
    | boolean => exact hwrite hc hch
    | _ => cases hch
  | removeData key =>
    obtain rfl := Option.some.inj hch
    cases hv

theorem Call.Typed.kind_run (h : mmkv.Documented contents effect) {kinds : String → Kind}
    {c : Call} (hc : c.Typed kinds) {s : σ} (hs : ∀ key, ∀ v ∈ contents s key, v.1 = kinds key)
    (key : String) : ∀ v ∈ contents (c.run mmkv s).2 key, v.1 = kinds key := by
  intro v hv
  rw [Call.contents_run h] at hv
  cases hmakes : c.makes effect with
  | none =>
    rw [hmakes] at hv
    exact hs key v hv
  | some ch =>
    rw [hmakes] at hv
    replace hv : apply (contents s) ch key = some v := hv
    by_cases hkey : ch.key = key
    · subst hkey
      rw [apply_self] at hv
      exact hc.kind_makes h hmakes hv
    · rw [apply_of_ne _ hkey] at hv
      exact hs key v hv

theorem kind_after (h : mmkv.Documented contents effect) {kinds : String → Kind}
    {calls : List Call} (hcalls : ∀ c ∈ calls, Call.Typed kinds c) {s : σ}
    (hs : ∀ key, ∀ v ∈ contents s key, v.1 = kinds key) (key : String) :
    ∀ v ∈ contents (after mmkv s calls) key, v.1 = kinds key := by
  induction calls using List.reverseRecOn generalizing key with
  | nil => exact hs key
  | append_singleton calls c ih =>
    rw [after_concat]
    have hc := hcalls c (List.mem_append_right _ List.mem_cons_self)
    exact hc.kind_run h (fun k => ih (fun c' hc' => hcalls c' (List.mem_append_left _ hc')) k) key

/-! ## What a getter returns -/

/-- A getter that is not of a boolean decodes. -/
theorem run_get_fst {kind : Kind} (hkind : kind ≠ .boolean) (key : String)
    (defaultValue : Option kind.Carrier) (s : σ) :
    ((Call.get kind key defaultValue).run mmkv s).1 =
      some ⟨kind, (mmkv.decode kind key (defaultValue.getD kind.defaultValue) s).1⟩ := by
  cases kind with
  | boolean => exact absurd rfl hkind
  | _ => cases defaultValue <;> rfl

/-- That of a boolean answers whether a write of the default succeeds. -/
theorem run_getBoolean_fst (h : mmkv.Documented contents effect) (key : String)
    (defaultValue : Option Bool) (s : σ) :
    ((Call.get .boolean key defaultValue).run mmkv s).1 =
      some ⟨.boolean, (effect key ⟨.boolean, defaultValue.getD false⟩).isSome⟩ := by
  rw [← h.encode_fst .boolean key (defaultValue.getD false) s]
  cases defaultValue <;> rfl

/-! ## Stores that differ in booleans only -/

theorem Call.Typed.run_fst_congr (h : mmkv.Documented contents effect) {kinds : String → Kind}
    {c : Call} (hc : c.Typed kinds) {s t : σ}
    (hs : ∀ key, ∀ v ∈ contents s key, v.1 = kinds key)
    (hst : ∀ key, kinds key ≠ .boolean → contents s key = contents t key) :
    (c.run mmkv s).1 = (c.run mmkv t).1 := by
  cases c with
  | set kind key value => cases kind <;> rfl
  | get kind key defaultValue =>
    by_cases hkind : kind = .boolean
    · subst hkind
      rw [run_getBoolean_fst h, run_getBoolean_fst h]
    · have hkey : contents s key = contents t key :=
        hst key fun hboolean => hkind (hc.symm.trans hboolean)
      have hskind : ∀ v ∈ contents s key, v.1 = kind := fun v hv => (hs key v hv).trans hc
      rw [run_get_fst hkind, run_get_fst hkind, h.decode_fst hskind,
        h.decode_fst (hkey ▸ hskind), hkey]
  | removeData key => rfl

theorem Call.contents_run_congr (h : mmkv.Documented contents effect) (c : Call) {s t : σ}
    {key : String} (hst : contents s key = contents t key) :
    contents (c.run mmkv s).2 key = contents (c.run mmkv t).2 key := by
  rw [c.contents_run h, c.contents_run h]
  cases c.makes effect with
  | none => exact hst
  | some ch =>
    show apply (contents s) ch key = apply (contents t) ch key
    by_cases hkey : ch.key = key
    · subst hkey
      rw [apply_self, apply_self]
    · rw [apply_of_ne _ hkey, apply_of_ne _ hkey, hst]

/-- **What is stored for booleans is never read.** -/
theorem answers_congr (h : mmkv.Documented contents effect) (kinds : String → Kind)
    {calls : List Call} (hcalls : ∀ c ∈ calls, Call.Typed kinds c) {s t : σ}
    (hs : ∀ key, ∀ v ∈ contents s key, v.1 = kinds key)
    (hst : ∀ key, kinds key ≠ .boolean → contents s key = contents t key) :
    answers mmkv s calls = answers mmkv t calls := by
  induction calls generalizing s t with
  | nil => rfl
  | cons c cs ih =>
    have hc := hcalls c List.mem_cons_self
    have hcs := ih (fun c' hc' => hcalls c' (List.mem_cons_of_mem c hc')) (hc.kind_run h hs)
      fun key hkey => c.contents_run_congr h (hst key hkey)
    rw [answers, answers, hc.run_fst_congr h hs hst, hcs]

/-! ## The law -/

theorem kind_of_empty {s : σ} (hs : contents s = fun _ => none) (kinds : String → Kind)
    (key : String) : ∀ v ∈ contents s key, v.1 = kinds key := by
  rw [hs]
  nofun

theorem silent_of_typed (h : mmkv.Documented contents effect) {s : σ}
    (hs : contents s = fun _ => none) (kinds : String → Kind) {pre post : List Call} {c : Call}
    (hcalls : ∀ c' ∈ pre ++ c :: post, Call.Typed kinds c') (hreads : c.reads.isSome = true) :
    answers mmkv (after mmkv s (pre ++ [c])) post = answers mmkv (after mmkv s pre) post := by
  have hpre : ∀ c' ∈ pre, c'.Typed kinds := fun c' hc' => hcalls c' (List.mem_append_left _ hc')
  have hc : c.Typed kinds := hcalls c (List.mem_append_right _ List.mem_cons_self)
  have hgranted : c.granted effect = none := by
    cases c with
    | get => rfl
    | _ => cases hreads
  have hpre' : ∀ c' ∈ pre ++ [c], c'.Typed kinds := by
    intro c' hc'
    rcases List.mem_append.mp hc' with hc' | hc'
    · exact hpre c' hc'
    · exact List.mem_singleton.mp hc' ▸ hc
  have hpost : ∀ c' ∈ post, c'.Typed kinds := fun c' hc' =>
    hcalls c' (List.mem_append_right _ (List.mem_cons_of_mem c hc'))
  refine answers_congr h kinds hpost (kind_after h hpre' (kind_of_empty hs kinds)) ?_
  intro key hkey
  rw [contents_after_apply h hs hpre' hkey, contents_after_apply h hs hpre hkey,
    List.filterMap_append, List.filterMap_cons_none hgranted, List.filterMap_nil, List.append_nil]

theorem reads_iff (h : mmkv.Documented contents effect) {s : σ} (hs : contents s = fun _ => none)
    {kinds : String → Kind} {pre : List Call} {c : Call} {read : String × Value}
    (hpre : ∀ c' ∈ pre, c'.Typed kinds) (hc : c.Typed kinds) (hread : read ∈ c.reads) :
    (c.run mmkv (after mmkv s pre)).1 = some (expected pre read) ↔
      ReadRight effect pre read := by
  cases c with
  | set => cases hread
  | removeData => cases hread
  | get kind key defaultValue =>
    obtain rfl := Option.some.inj hread
    unfold ReadRight
    by_cases hkind : kind = .boolean
    · subst hkind
      rw [run_getBoolean_fst h, Option.some.injEq, if_pos rfl]
      exact eq_comm
    · have hkey : kinds key ≠ .boolean := fun hboolean => hkind (hc.symm.trans hboolean)
      have hstored := contents_after_apply h hs hpre hkey
      have htyped : ∀ v ∈ contents (after mmkv s pre) key, v.1 = kind := fun v hv =>
        (kind_after h hpre (kind_of_empty hs kinds) key v hv).trans hc
      rw [run_get_fst hkind, h.decode_fst htyped, hstored, Option.some.injEq, if_neg hkind]

end

/-- **The store keeps the read-last-write law exactly when every getter of a boolean is called
where it should return whether a write of its default succeeds, and every other where the last
write has not failed.** -/
theorem lawful_iff {σ : Type} {mmkv : MMKV σ} {contents : σ → Contents} {effect : Effect}
    (h : mmkv.Documented contents effect) {s : σ} (hs : contents s = fun _ => none)
    (calls : List Call) (htyped : WellTyped calls) :
    Lawful mmkv s calls ↔ ReadsRight effect calls := by
  obtain ⟨kinds, htyped⟩ := htyped
  have hreads : ∀ pre c post, calls = pre ++ c :: post → ∀ read ∈ c.reads,
      ((c.run mmkv (after mmkv s pre)).1 = some (expected pre read) ↔
        ReadRight effect pre read) := by
    rintro pre c post rfl read hread
    exact reads_iff h hs (fun c' hc' => htyped c' (List.mem_append_left _ hc'))
      (htyped c (List.mem_append_right _ List.mem_cons_self)) hread
  constructor
  · intro hlawful pre c post hcalls read hread
    exact (hreads pre c post hcalls read hread).mp (hlawful.reads pre c post hcalls read hread)
  · intro hright
    refine ⟨fun pre c post hcalls read hread => ?_, fun pre c post hcalls hc => ?_⟩
    · exact (hreads pre c post hcalls read hread).mpr (hright pre c post hcalls read hread)
    · exact silent_of_typed h hs kinds (hcalls ▸ htyped) hc

/-- A boolean that is set to `false` reads as `true`, also where every write is stored. -/
theorem not_forall_lawful : ¬ ∀ (σ : Type) (mmkv : MMKV σ) (contents : σ → Contents) (s : σ)
    (calls : List Call), mmkv.Documented contents MMKV.alwaysStores →
      contents s = (fun _ => none) → WellTyped calls → Lawful mmkv s calls := by
  intro h
  have hlawful := h Contents (.ofEffect MMKV.alwaysStores) id (fun _ => none)
    [.set .boolean "on" false, .get .boolean "on" (some true)] MMKV.documented_alwaysStores rfl
    ⟨fun _ => .boolean, by simp [Call.Typed]⟩
  have hread := hlawful.reads [.set .boolean "on" false] (.get .boolean "on" (some true)) [] rfl
    ("on", ⟨.boolean, true⟩) rfl
  have hfalse : expected [.set .boolean "on" false] ("on", ⟨.boolean, true⟩) =
      ⟨.boolean, false⟩ := rfl
  rw [hfalse] at hread
  have htrue : (true : Bool) = false := eq_of_heq (Sigma.mk.inj (Option.some.inj hread)).2
  cases htrue

/-- An amount and its switch, a name that is taken back, and a key that is refused. -/
def storedCalls : List Call :=
  [.set .int "count" (3 : Int32), .get .boolean "on" (some true), .set .string "name" (some "mimi"),
    .set .string "name" none, .get .int "count" none, .get .string "name" none,
    .get .boolean "" none]

theorem lawful_iff_storedCalls :
    answers (.ofEffect MMKV.refusesEmptyKey) (fun _ => none) storedCalls =
        [none, some ⟨.boolean, true⟩, none, none, some ⟨.int, (3 : Int32)⟩,
          some ⟨.string, some ""⟩, some ⟨.boolean, false⟩] ∧
      (Lawful (.ofEffect MMKV.refusesEmptyKey) (fun _ => none) storedCalls ↔
        ReadsRight MMKV.refusesEmptyKey storedCalls) :=
  ⟨rfl, lawful_iff MMKV.documented_refusesEmptyKey rfl storedCalls
    ⟨fun key => if key = "count" then .int else if key = "name" then .string else .boolean,
      by simp [storedCalls, Call.Typed]⟩⟩

end PetDev.Store
