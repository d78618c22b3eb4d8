import PetDev.Java.Lang
import PetDev.Lib.ListChange
import PetDev.Lib.StepMachine

/-!
# `BaseRecyclerViewAdapter` and `PageRecyclerViewAdapter`

The adapter of a list that is loaded page by page.  It shows a header, the items of `mData` and a
footer; the header and the footer may be missing.  Whenever it changes, it tells the
`RecyclerView` where.

The scroll listener of `enableLoadMore` starts a load when the end of the list is shown; the
owner answers by `onLoadMoreCompleted` or `onLoadMoreFailed`, which put the footers.  A click on the
error footer starts a load too, if the view is the adapter's own: one given by
`setErrorFooterView` has no listener.  `onLoadMore` is the last thing that is called, so an owner
who answers at once is one who answers by the next event.

The footer that is displayed is the one that the adapter has now.  The `RecyclerView` binds the rows
anew some time later, and a second click on a row that is no longer the footer is left out.

The state also keeps what is observed: the rows before the last call, what this call has notified,
and how many loads are without an answer.
-/

namespace PetDev.Adapter

open Java ListChange

/-- The footers: inflated by the adapter (`loading_view`, `manual_loading_view`), or given by the
owner. -/
inductive View where
  | loadingView
  | manualLoadingView
  | custom (id : Nat)
  deriving DecidableEq, Repr

inductive Row (α : Type*) where
  | header
  | item (item : α)
  | footer (view : View)
  deriving DecidableEq, Repr

/-- An argument of `addAll`, which may be the list of the adapter itself. -/
inductive Collection (α : Type*) where
  | of (items : List α)
  | getData

namespace Collection

variable {α : Type*}

/-- What is in the collection, when the adapter holds `mData`. -/
def toList (mData : List α) : Collection α → List α
  | of items => items
  | getData => mData

def size (mData : List α) (collection : Collection α) : Nat := (collection.toList mData).length

end Collection

structure PageRecyclerViewAdapter (α : Type*) where
  mHeaderView : Bool
  mFootView : Option View
  mData : List α
  isLoading : Bool
  isError : Bool
  mMoreFooterView : Option View
  mErrorFooterView : Option View
  /-- the rows before the last call -/
  shown : List (Row α)
  /-- what it has notified -/
  notified : List ListChange
  /-- loads without an answer -/
  outstanding : Nat

namespace PageRecyclerViewAdapter

variable {α : Type*}

/-! ## What is shown -/

/-- `hasHeaderView() ? 1 : 0`. -/
def headerCount (s : PageRecyclerViewAdapter α) : Nat := if s.mHeaderView then 1 else 0

/-- The rows above the items. -/
def top (s : PageRecyclerViewAdapter α) : List (Row α) := if s.mHeaderView then [.header] else []

/-- The rows below the items. -/
def bottom (s : PageRecyclerViewAdapter α) : List (Row α) := (s.mFootView.map .footer).toList

def rows (s : PageRecyclerViewAdapter α) : List (Row α) := s.top ++ s.mData.map .item ++ s.bottom

/-- A call begins. -/
def begin (s : PageRecyclerViewAdapter α) : PageRecyclerViewAdapter α :=
  { s with shown := s.rows, notified := [] }

/-- The views are those that the owner has set. -/
def start (mHeaderView : Bool) (mFootView mMoreFooterView mErrorFooterView : Option Nat)
    (mData : List α) : PageRecyclerViewAdapter α :=
  { mHeaderView := mHeaderView
    mFootView := mFootView.map .custom
    mData := mData
    isLoading := false
    isError := false
    mMoreFooterView := mMoreFooterView.map .custom
    mErrorFooterView := mErrorFooterView.map .custom
    shown := []
    notified := []
    outstanding := 0 : PageRecyclerViewAdapter α }.begin

def getBasicItemCount (s : PageRecyclerViewAdapter α) : Nat := s.mData.length

def getItemCount (s : PageRecyclerViewAdapter α) : Nat :=
  s.getBasicItemCount + (if s.mHeaderView then 1 else 0) + if s.mFootView.isSome then 1 else 0

def VIEW_TYPE_HEADER : Int := -2 ^ 31

def VIEW_TYPE_FOOTER : Int := -2 ^ 31 + 1

def getItemViewType (s : PageRecyclerViewAdapter α) (position : Nat) : Int :=
  if position = 0 ∧ s.mHeaderView = true then VIEW_TYPE_HEADER
  else if position = s.getItemCount - 1 ∧ s.mFootView.isSome = true then VIEW_TYPE_FOOTER
  else 0

/-! ## Notifications -/

def notify (c : ListChange) (s : PageRecyclerViewAdapter α) : PageRecyclerViewAdapter α :=
  { s with notified := s.notified ++ [c] }

def notifyItemInserted (position : Nat) : PageRecyclerViewAdapter α → PageRecyclerViewAdapter α :=
  notify (.inserted position 1)

def notifyItemRangeInserted (positionStart itemCount : Nat) :
    PageRecyclerViewAdapter α → PageRecyclerViewAdapter α :=
  notify (.inserted positionStart itemCount)

def notifyItemRemoved (position : Nat) : PageRecyclerViewAdapter α → PageRecyclerViewAdapter α :=
  notify (.removed position 1)

def notifyItemMoved (fromPosition toPosition : Nat) :
    PageRecyclerViewAdapter α → PageRecyclerViewAdapter α :=
  notify (.moved fromPosition toPosition)

def notifyItemChanged (position : Nat) : PageRecyclerViewAdapter α → PageRecyclerViewAdapter α :=
  notify (.changed position)

def notifyDataSetChanged : PageRecyclerViewAdapter α → PageRecyclerViewAdapter α :=
  notify .everything

/-! ## The items

`none` is the `IndexOutOfBoundsException`. -/

/-- `add(location, object)`. -/
def addAt (location : Nat) (object : α) (s : PageRecyclerViewAdapter α) :
    Option (PageRecyclerViewAdapter α) :=
  if location ≤ s.mData.length then
    some ({ s with mData := s.mData.take location ++ object :: s.mData.drop location }
      |>.notifyItemInserted (location + s.headerCount))
  else none

def add (object : α) (s : PageRecyclerViewAdapter α) : PageRecyclerViewAdapter α :=
  let lastIndex := s.mData.length
  { s with mData := s.mData ++ [object] }.notifyItemInserted (lastIndex + s.headerCount)

/-- `addAll(location, collection)`.  The size of the collection is read after it is added. -/
def addAllAt (location : Nat) (collection : Collection α) (s : PageRecyclerViewAdapter α) :
    Option (PageRecyclerViewAdapter α) :=
  if location ≤ s.mData.length then
    match collection.toList s.mData with
    | [] => some s
    | a :: items =>
      let mData := s.mData.take location ++ (a :: items) ++ s.mData.drop location
      some ({ s with mData := mData }.notifyItemRangeInserted (location + s.headerCount)
        (collection.size mData))
  else none

def addAll (collection : Collection α) (s : PageRecyclerViewAdapter α) :
    PageRecyclerViewAdapter α :=
  let lastIndex := s.mData.length
  match collection.toList s.mData with
  | [] => s
  | a :: items =>
    let mData := s.mData ++ a :: items
    { s with mData := mData }.notifyItemRangeInserted (lastIndex + s.headerCount)
      (collection.size mData)

/-- `move` exchanges the two items. -/
def move (fromIdx toIdx : Nat) (s : PageRecyclerViewAdapter α) :
    Option (PageRecyclerViewAdapter α) :=
  (swap s.mData fromIdx toIdx).map fun mData =>
    { s with mData := mData }.notifyItemMoved (fromIdx + s.headerCount) (toIdx + s.headerCount)

def remove (position : Nat) (s : PageRecyclerViewAdapter α) :
    Option (PageRecyclerViewAdapter α) :=
  if position < s.mData.length then
    some ({ s with mData := s.mData.eraseIdx position }
      |>.notifyItemRemoved (position + s.headerCount))
  else none

def clear (s : PageRecyclerViewAdapter α) : PageRecyclerViewAdapter α :=
  { s with mData := [] }.notifyDataSetChanged

/-! ## The footer -/

def setFooterView (mFooterView : Option View) (s : PageRecyclerViewAdapter α) :
    PageRecyclerViewAdapter α :=
  { s with mFootView := mFooterView }

/-- The view, and the adapter that keeps it. -/
def generateErrorFooterView (s : PageRecyclerViewAdapter α) : View × PageRecyclerViewAdapter α :=
  match s.mErrorFooterView with
  | some view => (view, s)
  | none => (.manualLoadingView, { s with mErrorFooterView := some .manualLoadingView })

def generateMoreFooterView (s : PageRecyclerViewAdapter α) : View × PageRecyclerViewAdapter α :=
  match s.mMoreFooterView with
  | some view => (view, s)
  | none => (.loadingView, { s with mMoreFooterView := some .loadingView })

def removeFooterView (s : PageRecyclerViewAdapter α) : PageRecyclerViewAdapter α :=
  if s.mFootView.isSome then (s.notifyItemRemoved (s.getItemCount - 1)).setFooterView none else s

/-- The second half of `addFooterView` and of `addCompletedFooterView`. -/
def putFooterView (view : Option View) (s : PageRecyclerViewAdapter α) :
    PageRecyclerViewAdapter α :=
  let put := s.setFooterView view
  if s.mFootView = none then put.notifyItemInserted put.getItemCount
  else put.notifyItemChanged (put.getItemCount - 1)

def addFooterView (error : Bool) (s : PageRecyclerViewAdapter α) : PageRecyclerViewAdapter α :=
  let r := if error then s.generateErrorFooterView else s.generateMoreFooterView
  r.2.putFooterView (some r.1)

/-- `view` is what the listener of `mCompletedFooter` generates, which may be `null`. -/
def addCompletedFooterView (view : Option View) (s : PageRecyclerViewAdapter α) :
    PageRecyclerViewAdapter α :=
  s.putFooterView view

/-! ## Loading -/

/-- `mOnLoadMoreHelper.onLoadMore()`. -/
def onLoadMore (s : PageRecyclerViewAdapter α) : PageRecyclerViewAdapter α :=
  { s with outstanding := s.outstanding + 1 }

def mPreLoadNum : Int := 1

/-- The scroll listener finds the end of the list. -/
def atEnd (dx dy totalItemCount lastVisibleItem : Int) : Prop :=
  ¬ (dx = 0 ∧ dy = 0) ∧ totalItemCount ≤ int (lastVisibleItem + mPreLoadNum)

instance (dx dy totalItemCount lastVisibleItem : Int) :
    Decidable (atEnd dx dy totalItemCount lastVisibleItem) :=
  inferInstanceAs (Decidable (_ ∧ _))

def onScrolled (dx dy totalItemCount lastVisibleItem : Int) (canLoadMore : Bool)
    (s : PageRecyclerViewAdapter α) : PageRecyclerViewAdapter α :=
  if atEnd dx dy totalItemCount lastVisibleItem ∧ s.isLoading = false ∧ s.isError = false ∧
      canLoadMore = true then
    let s := if s.mFootView = none then s.addFooterView false else s
    { s with isLoading := true }.onLoadMore
  else s

/-- The listener of the adapter's own error footer. -/
def onClick (s : PageRecyclerViewAdapter α) : PageRecyclerViewAdapter α :=
  let r := s.generateMoreFooterView
  let s := r.2.setFooterView (some r.1)
  (s.notifyItemChanged (s.getItemCount - 1)).onLoadMore

def onLoadMoreCompleted (canLoadMore isCompletedFooterEnabled : Bool) (view : Option View)
    (s : PageRecyclerViewAdapter α) : PageRecyclerViewAdapter α :=
  let s := { s with isLoading := false, isError := false }
  if canLoadMore then s
  else
    let s := s.removeFooterView
    if isCompletedFooterEnabled then s.addCompletedFooterView view else s

def onLoadMoreFailed (canLoadMore : Bool) (s : PageRecyclerViewAdapter α) :
    PageRecyclerViewAdapter α :=
  let s := { s with isLoading := false, isError := true }
  if canLoadMore then s.addFooterView true else s.removeFooterView

/-! ## What the calls come to -/

/-- At the end is a position like the others. -/
theorem addAt_length (s : PageRecyclerViewAdapter α) (object : α) :
    s.addAt s.mData.length object = some (s.add object) := by
  simp [addAt, add]

theorem addAllAt_length (s : PageRecyclerViewAdapter α) (collection : Collection α) :
    s.addAllAt s.mData.length collection = some (s.addAll collection) := by
  unfold addAllAt addAll
  rw [if_pos le_rfl]
  cases collection.toList s.mData with
  | nil => rfl
  | cons a items => simp

/-- The view that is shown while a load is under way. -/
def moreView (s : PageRecyclerViewAdapter α) : View := s.mMoreFooterView.getD .loadingView

/-- The view that is shown after a load has failed. -/
def errorView (s : PageRecyclerViewAdapter α) : View := s.mErrorFooterView.getD .manualLoadingView

theorem generateMoreFooterView_eq (s : PageRecyclerViewAdapter α) :
    s.generateMoreFooterView = (s.moreView, { s with mMoreFooterView := some s.moreView }) := by
  obtain ⟨_, _, _, _, _, mMoreFooterView, _, _, _, _⟩ := s
  cases mMoreFooterView <;> rfl

theorem generateErrorFooterView_eq (s : PageRecyclerViewAdapter α) :
    s.generateErrorFooterView =
      (s.errorView, { s with mErrorFooterView := some s.errorView }) := by
  obtain ⟨_, _, _, _, _, _, mErrorFooterView, _, _, _⟩ := s
  cases mErrorFooterView <;> rfl

theorem addFooterView_false (s : PageRecyclerViewAdapter α) : s.addFooterView false =
    { s with mMoreFooterView := some s.moreView }.putFooterView (some s.moreView) := by
  show s.generateMoreFooterView.2.putFooterView (some s.generateMoreFooterView.1) = _
  rw [generateMoreFooterView_eq]

theorem addFooterView_true (s : PageRecyclerViewAdapter α) : s.addFooterView true =
    { s with mErrorFooterView := some s.errorView }.putFooterView (some s.errorView) := by
  show s.generateErrorFooterView.2.putFooterView (some s.generateErrorFooterView.1) = _
  rw [generateErrorFooterView_eq]

/-- A click does what a scroll does. -/
theorem onClick_eq {s : PageRecyclerViewAdapter α} (h : s.mFootView ≠ none) :
    s.onClick = (s.addFooterView false).onLoadMore := by
  rw [addFooterView_false, putFooterView, if_neg h, onClick, generateMoreFooterView_eq]

theorem putFooterView_eq (s : PageRecyclerViewAdapter α) (view : Option View) :
    ∃ notified, s.putFooterView view = { s with mFootView := view, notified := notified } := by
  unfold putFooterView
  split
  · exact ⟨_, rfl⟩
  · exact ⟨_, rfl⟩

theorem removeFooterView_eq (s : PageRecyclerViewAdapter α) :
    ∃ notified, s.removeFooterView = { s with mFootView := none, notified := notified } := by
  obtain ⟨_, mFootView, _, _, _, _, _, _, _, _⟩ := s
  cases mFootView with
  | none => exact ⟨_, rfl⟩
  | some view => exact ⟨_, rfl⟩

end PageRecyclerViewAdapter

/-! ## Calls -/

open PageRecyclerViewAdapter

/-- What the owner, the user and the `RecyclerView` can do.  A call that asks the owner carries the
answers. -/
inductive AdapterEvent (α : Type*) where
  | addAt (location : Nat) (object : α)
  | add (object : α)
  | addAllAt (location : Nat) (collection : Collection α)
  | addAll (collection : Collection α)
  | move (fromIdx toIdx : Nat)
  | remove (position : Nat)
  | clear
  | onScrolled (dx dy totalItemCount lastVisibleItem : Int) (canLoadMore : Bool)
  | clickErrorFooter
  | onLoadMoreCompleted (canLoadMore isCompletedFooterEnabled : Bool) (view : Option Nat)
  | onLoadMoreFailed (canLoadMore : Bool)

namespace PageRecyclerViewAdapter

variable {α : Type*}

/-- The error footer is displayed. -/
def ShowsError (s : PageRecyclerViewAdapter α) : Prop :=
  s.mFootView ≠ none ∧ s.mFootView = s.mErrorFooterView

instance (s : PageRecyclerViewAdapter α) : Decidable s.ShowsError :=
  inferInstanceAs (Decidable (_ ∧ _))

/-- A load has got its answer. -/
def answered (s : PageRecyclerViewAdapter α) : PageRecyclerViewAdapter α :=
  { s with outstanding := s.outstanding - 1 }

def step (s : PageRecyclerViewAdapter α) : AdapterEvent α → Option (PageRecyclerViewAdapter α)
  | .addAt location object => s.begin.addAt location object
  | .add object => some (s.begin.add object)
  | .addAllAt location collection => s.begin.addAllAt location collection
  | .addAll collection => some (s.begin.addAll collection)
  | .move fromIdx toIdx => s.begin.move fromIdx toIdx
  | .remove position => s.begin.remove position
  | .clear => some s.begin.clear
  | .onScrolled dx dy totalItemCount lastVisibleItem canLoadMore =>
    some (s.begin.onScrolled dx dy totalItemCount lastVisibleItem canLoadMore)
  | .clickErrorFooter =>
    if s.ShowsError then
      some (if s.mFootView = some .manualLoadingView then s.begin.onClick else s.begin)
    else none
  | .onLoadMoreCompleted canLoadMore isCompletedFooterEnabled view =>
    some (s.answered.begin.onLoadMoreCompleted canLoadMore isCompletedFooterEnabled
      (view.map .custom))
  | .onLoadMoreFailed canLoadMore => some (s.answered.begin.onLoadMoreFailed canLoadMore)

end PageRecyclerViewAdapter

/-- The adapter from what its owner has set up. -/
def adapterMachine {α : Type*} (mHeaderView : Bool)
    (mFootView mMoreFooterView mErrorFooterView : Option Nat) (mData : List α) :
    StepMachine (PageRecyclerViewAdapter α) (AdapterEvent α) :=
  ⟨.start mHeaderView mFootView mMoreFooterView mErrorFooterView mData,
    PageRecyclerViewAdapter.step⟩

end PetDev.Adapter
