import PetDev.Adapter.PageRecyclerViewAdapter

/-!
# What the adapter notifies

The `RecyclerView` keeps a copy of the rows and changes it as it is told to, so what a call
notifies should lead from the rows before it to the rows after it.

`described_iff`: it does in every call of a run exactly when every call is one of these.

* `move` shifts equal items only: it exchanges two items, and says that one was moved.
* No footer is put where there is none: `putFooterView` sets the footer first, and then says that a
  row was inserted at `getItemCount()`, which is one behind it.
* The list of the adapter is not added to itself, unless it is empty: the size of the collection is
  read when it has grown already.
-/

namespace PetDev.Adapter

open Java ListChange

variable {α : Type*}

namespace PageRecyclerViewAdapter

/-- What the last call has notified leads from the rows before it to those after it. -/
def Described (s : PageRecyclerViewAdapter α) : Prop := Replays s.notified s.shown s.rows

/-- The collection is added as it is. -/
def Grows (s : PageRecyclerViewAdapter α) : Collection α → Prop
  | .of _ => True
  | .getData => s.mData = []

/-- **The condition on a call.** -/
def Describes (s : PageRecyclerViewAdapter α) : AdapterEvent α → Prop
  | .addAllAt _ collection => s.Grows collection
  | .addAll collection => s.Grows collection
  | .move fromIdx toIdx => ShiftsEqual s.mData fromIdx toIdx
  | .onScrolled dx dy totalItemCount lastVisibleItem canLoadMore =>
    atEnd dx dy totalItemCount lastVisibleItem ∧ s.isLoading = false ∧ s.isError = false ∧
      canLoadMore = true → s.mFootView ≠ none
  | .onLoadMoreCompleted canLoadMore isCompletedFooterEnabled _ =>
    canLoadMore = true ∨ isCompletedFooterEnabled = false
  | .onLoadMoreFailed canLoadMore => canLoadMore = true → s.mFootView ≠ none
  | _ => True

/-! ## The rows -/

@[simp] theorem length_top (s : PageRecyclerViewAdapter α) : s.top.length = s.headerCount := by
  unfold top headerCount
  split <;> rfl

/-- **The adapter counts its rows.** -/
theorem getItemCount_eq (s : PageRecyclerViewAdapter α) : s.getItemCount = s.rows.length := by
  have hbottom : s.bottom.length = if s.mFootView.isSome then 1 else 0 := by
    unfold bottom
    cases s.mFootView <;> rfl
  rw [rows, List.length_append, List.length_append, length_top, List.length_map, hbottom,
    getItemCount, getBasicItemCount, headerCount]
  omega

theorem rows_of_footer {s : PageRecyclerViewAdapter α} {view : View}
    (h : s.mFootView = some view) : s.rows = (s.top ++ s.mData.map .item) ++ [.footer view] := by
  rw [rows, bottom, h]
  rfl

theorem rows_of_no_footer {s : PageRecyclerViewAdapter α} (h : s.mFootView = none) :
    s.rows = s.top ++ s.mData.map .item := by
  rw [rows, bottom, h]
  exact List.append_nil _

theorem getItemCount_sub_one {s : PageRecyclerViewAdapter α} {view : View}
    (h : s.mFootView = some view) :
    s.getItemCount - 1 = (s.top ++ s.mData.map Row.item).length := by
  rw [getItemCount_eq, rows_of_footer h, List.length_append, List.length_singleton,
    Nat.add_sub_cancel]

/-- **The types of the views are those of the rows.** -/
theorem getItemViewType_eq (s : PageRecyclerViewAdapter α) {position : Nat} {row : Row α}
    (h : s.rows[position]? = some row) : s.getItemViewType position =
      match row with
      | .header => VIEW_TYPE_HEADER
      | .item _ => 0
      | .footer _ => VIEW_TYPE_FOOTER := by
  unfold getItemViewType
  rw [getItemCount_eq]
  by_cases hheader : position = 0 ∧ s.mHeaderView = true
  · obtain ⟨rfl, hview⟩ := hheader
    have hrow : s.rows[0]? = some .header := by
      simp [rows, top, hview]
    obtain rfl := Option.some.inj (hrow.symm.trans h)
    rw [if_pos ⟨rfl, hview⟩]
  · rw [if_neg hheader]
    by_cases hfooter : position = s.rows.length - 1 ∧ s.mFootView.isSome = true
    · rw [if_pos hfooter]
      obtain ⟨view, hview⟩ := Option.isSome_iff_exists.mp hfooter.2
      rw [hfooter.1, rows_of_footer hview, List.length_append, List.length_singleton,
        Nat.add_sub_cancel, List.getElem?_concat_length] at h
      obtain rfl := Option.some.inj h
      rfl
    · rw [if_neg hfooter]
      -- neither above the items nor below them
      have htop : s.top.length ≤ position := by
        rw [length_top, headerCount]
        split
        · next hview => exact Nat.one_le_iff_ne_zero.mpr fun h0 => hheader ⟨h0, hview⟩
        · exact Nat.zero_le position
      have hitem : position < (s.top ++ s.mData.map Row.item).length := by
        by_contra hlast
        have hlt : position < s.rows.length := (List.getElem?_eq_some_iff.mp h).1
        cases hview : s.mFootView with
        | none =>
          rw [rows, bottom, hview] at hlt
          simp only [Option.map_none, Option.toList_none, List.append_nil] at hlt
          exact hlast hlt
        | some view =>
          rw [rows_of_footer hview, List.length_append, List.length_singleton] at hlt hfooter
          exact hfooter ⟨by omega, by rw [hview]; rfl⟩
      rw [rows, List.getElem?_append_left hitem, List.getElem?_append_right htop,
        List.getElem?_map] at h
      obtain ⟨a, -, rfl⟩ := Option.map_eq_some_iff.mp h
      rfl

theorem rows_setData (s : PageRecyclerViewAdapter α) (mData : List α) :
    { s with mData := mData }.rows = s.top ++ mData.map .item ++ s.bottom :=
  rfl

/-- How many rows are above an item. -/
theorem length_above (s : PageRecyclerViewAdapter α) {location : Nat}
    (h : location ≤ s.mData.length) :
    (s.top ++ (s.mData.take location).map Row.item).length = location + s.headerCount := by
  rw [List.length_append, length_top, List.length_map, List.length_take]
  omega

theorem applies_insert_items (s : PageRecyclerViewAdapter α) {location : Nat}
    (h : location ≤ s.mData.length) (items : List α) :
    Applies (.inserted (location + s.headerCount) items.length) s.rows
      { s with mData := s.mData.take location ++ items ++ s.mData.drop location }.rows := by
  have hbefore : s.rows = (s.top ++ (s.mData.take location).map .item) ++
      ((s.mData.drop location).map .item ++ s.bottom) := by
    conv_lhs => rw [rows, ← List.take_append_drop location s.mData]
    simp only [List.map_append, List.append_assoc]
  have hafter : { s with mData := s.mData.take location ++ items ++ s.mData.drop location }.rows =
      (s.top ++ (s.mData.take location).map .item) ++ items.map .item ++
        ((s.mData.drop location).map .item ++ s.bottom) := by
    simp only [rows_setData, List.map_append, List.append_assoc]
  rw [hbefore, hafter, ← s.length_above h]
  exact applies_inserted _ _ _ (List.length_map ..)

theorem applies_remove_item (s : PageRecyclerViewAdapter α) {position : Nat}
    (h : position < s.mData.length) :
    Applies (.removed (position + s.headerCount) 1) s.rows
      { s with mData := s.mData.eraseIdx position }.rows := by
  have hbefore : s.rows =
      (s.top ++ (s.mData.take position).map .item) ++ [.item s.mData[position]] ++
        ((s.mData.drop (position + 1)).map .item ++ s.bottom) := by
    conv_lhs => rw [rows, ← List.take_append_drop position s.mData, List.drop_eq_getElem_cons h]
    simp only [List.map_append, List.map_cons, List.append_assoc, List.cons_append, List.nil_append]
  have hafter : { s with mData := s.mData.eraseIdx position }.rows =
      (s.top ++ (s.mData.take position).map .item) ++
        ((s.mData.drop (position + 1)).map .item ++ s.bottom) := by
    simp only [rows_setData, List.eraseIdx_eq_take_drop_succ, List.map_append, List.append_assoc]
  rw [hbefore, hafter, ← s.length_above h.le]
  exact applies_removed _ _ _ rfl

theorem applies_move_iff (s : PageRecyclerViewAdapter α) {mData : List α} {i j : Nat}
    (h : swap s.mData i j = some mData) :
    Applies (.moved (i + s.headerCount) (j + s.headerCount)) s.rows { s with mData := mData }.rows ↔
      ShiftsEqual s.mData i j := by
  obtain ⟨a, b, ha, hb, -⟩ := swap_eq_some.mp h
  obtain ⟨hi, -⟩ := List.getElem?_eq_some_iff.mp ha
  obtain ⟨hj, -⟩ := List.getElem?_eq_some_iff.mp hb
  have hinj : Function.Injective (Row.item : α → Row α) := fun _ _ he => Row.item.inj he
  rw [← length_top]
  exact (applies_moved_iff (swap_middle s.top s.bottom .item h)).trans
    (shiftsEqual_middle s.top s.bottom hinj hi hj)

/-! ## What a call notifies -/

/-- Nothing has been changed or notified yet. -/
structure Begun (s : PageRecyclerViewAdapter α) : Prop where
  notified : s.notified = []
  shown : s.shown = s.rows

theorem begun_begin (s : PageRecyclerViewAdapter α) : s.begin.Begun := ⟨rfl, rfl⟩

theorem Begun.described {s : PageRecyclerViewAdapter α} (h : s.Begun) : s.Described := by
  rw [Described, h.notified, h.shown]
  rfl

/-- One notification after a change of the items and the footer. -/
theorem Begun.notify_iff {s : PageRecyclerViewAdapter α} (h : s.Begun) (mData : List α)
    (mFootView : Option View) (c : ListChange) :
    ({ s with mData := mData, mFootView := mFootView }.notify c).Described ↔
      Applies c s.rows { s with mData := mData, mFootView := mFootView }.rows := by
  have hone : ({ s with mData := mData, mFootView := mFootView }.notify c).notified = [c] := by
    rw [notify, h.notified, List.nil_append]
  rw [Described, hone, ← h.shown]
  exact replays_singleton

/-- A footer where there is none is notified one row too low. -/
theorem not_described_putFooterView {s : PageRecyclerViewAdapter α} (h : s.mFootView = none)
    (view : Option View) : ¬ (s.putFooterView view).Described := by
  have hput : s.putFooterView view =
      (s.setFooterView view).notifyItemInserted (s.setFooterView view).rows.length := by
    rw [← getItemCount_eq]
    exact if_pos h
  rw [hput]
  exact not_replays_inserted_length s.notified s.shown (s.setFooterView view).rows

theorem Begun.putFooterView {s : PageRecyclerViewAdapter α} (h : s.Begun)
    (hview : s.mFootView ≠ none) (view : View) : (s.putFooterView (some view)).Described := by
  obtain ⟨old, hold⟩ := Option.ne_none_iff_exists'.mp hview
  have hput : s.putFooterView (some view) = (s.setFooterView (some view)).notifyItemChanged
      ((s.setFooterView (some view)).getItemCount - 1) := if_neg hview
  rw [hput, getItemCount_sub_one rfl]
  refine (h.notify_iff s.mData (some view) _).mpr ?_
  rw [rows_of_footer hold, rows_of_footer rfl]
  exact applies_changed_last _ _ _

theorem Begun.removeFooterView {s : PageRecyclerViewAdapter α} (h : s.Begun) :
    s.removeFooterView.Described := by
  cases hview : s.mFootView with
  | none =>
    have hsame : s.removeFooterView = s := by simp [PageRecyclerViewAdapter.removeFooterView, hview]
    rw [hsame]
    exact h.described
  | some view =>
    have hremove : s.removeFooterView = (s.setFooterView none).notifyItemRemoved
        (s.top ++ s.mData.map Row.item).length := by
      rw [← getItemCount_sub_one hview]
      simp [PageRecyclerViewAdapter.removeFooterView, hview]
      rfl
    rw [hremove]
    refine (h.notify_iff s.mData none _).mpr ?_
    rw [rows_of_footer hview, rows_of_no_footer rfl]
    have happlies := applies_removed (s.top ++ s.mData.map .item) [] [Row.footer view] rfl
    rwa [List.append_nil, List.append_nil] at happlies

theorem Begun.addFooterView_iff {s : PageRecyclerViewAdapter α} (h : s.Begun) (error : Bool) :
    (s.addFooterView error).Described ↔ s.mFootView ≠ none := by
  obtain ⟨u, view, hu, hview, heq⟩ : ∃ (u : PageRecyclerViewAdapter α) (view : View), u.Begun ∧
      u.mFootView = s.mFootView ∧ s.addFooterView error = u.putFooterView (some view) := by
    cases error with
    | false =>
      exact ⟨{ s with mMoreFooterView := some s.moreView }, s.moreView, ⟨h.notified, h.shown⟩, rfl,
        s.addFooterView_false⟩
    | true =>
      exact ⟨{ s with mErrorFooterView := some s.errorView }, s.errorView, ⟨h.notified, h.shown⟩,
        rfl, s.addFooterView_true⟩
  rw [heq, ← hview]
  constructor
  · intro hdescribed hnone
    exact not_described_putFooterView hnone (some view) hdescribed
  · intro hsome
    exact hu.putFooterView hsome view

/-! ## Calls that add items -/

theorem Begun.addAllAt_iff {s t : PageRecyclerViewAdapter α} (h : s.Begun) {location : Nat}
    {collection : Collection α} (ht : s.addAllAt location collection = some t) :
    t.Described ↔ s.Grows collection := by
  unfold PageRecyclerViewAdapter.addAllAt at ht
  split at ht
  · next hlocation =>
    split at ht
    · next hnil =>
      obtain rfl := Option.some.inj ht
      refine iff_of_true h.described ?_
      cases collection with
      | of items => trivial
      | getData => exact hnil
    · next a items hitems =>
      obtain rfl := Option.some.inj ht
      have happlies := s.applies_insert_items hlocation (a :: items)
      refine (h.notify_iff _ s.mFootView _).trans ?_
      cases collection with
      | of items' =>
        obtain rfl : items' = a :: items := hitems
        exact iff_of_true happlies trivial
      | getData =>
        have hdata : s.mData = a :: items := hitems
        refine iff_of_false (fun htwice => ?_)
          (by rw [Grows, hdata]; exact List.cons_ne_nil a items)
        -- the rows would have grown by two different numbers
        obtain ⟨-, honce⟩ := length_of_applies_inserted happlies
        obtain ⟨-, hagain⟩ := length_of_applies_inserted htwice
        rw [honce, Collection.size, Collection.toList, List.length_append, List.length_append,
          List.length_take, List.length_drop, hdata] at hagain
        simp only [List.length_cons] at hagain
        omega
  · cases ht

theorem Begun.addAt {s t : PageRecyclerViewAdapter α} (h : s.Begun) {location : Nat} {object : α}
    (ht : s.addAt location object = some t) : t.Described := by
  unfold PageRecyclerViewAdapter.addAt at ht
  split at ht
  · next hlocation =>
    obtain rfl := Option.some.inj ht
    refine (h.notify_iff _ s.mFootView _).mpr ?_
    have happlies := s.applies_insert_items hlocation [object]
    rwa [List.append_assoc, List.singleton_append] at happlies
  · cases ht

theorem Begun.remove {s t : PageRecyclerViewAdapter α} (h : s.Begun) {position : Nat}
    (ht : s.remove position = some t) : t.Described := by
  unfold PageRecyclerViewAdapter.remove at ht
  split at ht
  · next hposition =>
    obtain rfl := Option.some.inj ht
    exact (h.notify_iff _ s.mFootView _).mpr (s.applies_remove_item hposition)
  · cases ht

theorem Begun.move_iff {s t : PageRecyclerViewAdapter α} (h : s.Begun) {i j : Nat}
    (ht : s.move i j = some t) : t.Described ↔ ShiftsEqual s.mData i j := by
  obtain ⟨mData, hswap, rfl⟩ := Option.map_eq_some_iff.mp ht
  exact (h.notify_iff mData s.mFootView _).trans (s.applies_move_iff hswap)

theorem Begun.clear {s : PageRecyclerViewAdapter α} (h : s.Begun) : s.clear.Described :=
  (h.notify_iff [] s.mFootView _).mpr trivial

/-! ## Calls that put footers -/

theorem Begun.onScrolled_iff {s : PageRecyclerViewAdapter α} (h : s.Begun)
    (dx dy totalItemCount lastVisibleItem : Int) (canLoadMore : Bool) :
    (s.onScrolled dx dy totalItemCount lastVisibleItem canLoadMore).Described ↔
      s.Describes (.onScrolled dx dy totalItemCount lastVisibleItem canLoadMore) := by
  unfold PageRecyclerViewAdapter.onScrolled Describes
  by_cases hloads : atEnd dx dy totalItemCount lastVisibleItem ∧ s.isLoading = false ∧
      s.isError = false ∧ canLoadMore = true
  · rw [if_pos hloads]
    simp only [hloads, true_and, true_implies]
    by_cases hview : s.mFootView = none
    · simp only [if_pos hview]
      exact h.addFooterView_iff false
    · simp only [if_neg hview]
      exact iff_of_true h.described hview
  · rw [if_neg hloads]
    exact iff_of_true h.described fun hpos => absurd hpos hloads

theorem Begun.onClick {s : PageRecyclerViewAdapter α} (h : s.Begun) (hview : s.mFootView ≠ none) :
    s.onClick.Described := by
  rw [onClick_eq hview]
  exact (h.addFooterView_iff false).mpr hview

theorem Begun.onLoadMoreCompleted_iff {s : PageRecyclerViewAdapter α} (h : s.Begun)
    (canLoadMore isCompletedFooterEnabled : Bool) (view : Option View) :
    (s.onLoadMoreCompleted canLoadMore isCompletedFooterEnabled view).Described ↔
      canLoadMore = true ∨ isCompletedFooterEnabled = false := by
  let u : PageRecyclerViewAdapter α := { s with isLoading := false, isError := false }
  have hu : u.Begun := ⟨h.notified, h.shown⟩
  unfold PageRecyclerViewAdapter.onLoadMoreCompleted
  cases canLoadMore with
  | true => exact iff_of_true hu.described (Or.inl rfl)
  | false =>
    cases isCompletedFooterEnabled with
    | false => exact iff_of_true hu.removeFooterView (Or.inr rfl)
    | true =>
      refine iff_of_false ?_ (by simp)
      obtain ⟨notified, hremove⟩ := u.removeFooterView_eq
      exact not_described_putFooterView (by rw [hremove]) view

theorem Begun.onLoadMoreFailed_iff {s : PageRecyclerViewAdapter α} (h : s.Begun)
    (canLoadMore : Bool) : (s.onLoadMoreFailed canLoadMore).Described ↔
      (canLoadMore = true → s.mFootView ≠ none) := by
  let u : PageRecyclerViewAdapter α := { s with isLoading := false, isError := true }
  have hu : u.Begun := ⟨h.notified, h.shown⟩
  unfold PageRecyclerViewAdapter.onLoadMoreFailed
  cases canLoadMore with
  | true =>
    exact (hu.addFooterView_iff true).trans ⟨fun hview _ => hview, fun hview => hview rfl⟩
  | false => exact iff_of_true hu.removeFooterView nofun

/-- **What one call notifies.** -/
theorem described_step {s t : PageRecyclerViewAdapter α} {e : AdapterEvent α}
    (ht : s.step e = some t) : t.Described ↔ s.Describes e := by
  have h := s.begun_begin
  cases e with
  | addAt location object => exact iff_of_true (h.addAt ht) trivial
  | add object =>
    exact iff_of_true (h.addAt ((addAt_length s.begin object).trans ht)) trivial
  | addAllAt location collection => exact h.addAllAt_iff ht
  | addAll collection => exact h.addAllAt_iff ((addAllAt_length s.begin collection).trans ht)
  | move i j => exact h.move_iff ht
  | remove position => exact iff_of_true (h.remove ht) trivial
  | clear =>
    obtain rfl := Option.some.inj ht
    exact iff_of_true h.clear trivial
  | onScrolled dx dy totalItemCount lastVisibleItem canLoadMore =>
    obtain rfl := Option.some.inj ht
    exact h.onScrolled_iff dx dy totalItemCount lastVisibleItem canLoadMore
  | clickErrorFooter =>
    rw [PageRecyclerViewAdapter.step] at ht
    split at ht
    · next herror =>
      obtain rfl := Option.some.inj ht
      refine iff_of_true ?_ trivial
      split
      · exact h.onClick herror.1
      · exact h.described
    · cases ht
  | onLoadMoreCompleted canLoadMore isCompletedFooterEnabled view =>
    obtain rfl := Option.some.inj ht
    exact s.answered.begun_begin.onLoadMoreCompleted_iff canLoadMore isCompletedFooterEnabled _
  | onLoadMoreFailed canLoadMore =>
    obtain rfl := Option.some.inj ht
    exact s.answered.begun_begin.onLoadMoreFailed_iff canLoadMore

end PageRecyclerViewAdapter

/-- **Every call notifies what it does exactly when every call meets the condition.** -/
theorem described_iff (mHeaderView : Bool) (mFootView mMoreFooterView mErrorFooterView : Option Nat)
    (mData : List α) (es : List (AdapterEvent α)) (s : PageRecyclerViewAdapter α)
    (hs : (adapterMachine mHeaderView mFootView mMoreFooterView mErrorFooterView mData).run es =
      some s) :
    (adapterMachine mHeaderView mFootView mMoreFooterView mErrorFooterView mData).Always
        PageRecyclerViewAdapter.Described es ↔
      (adapterMachine mHeaderView mFootView mMoreFooterView mErrorFooterView mData).Each
        PageRecyclerViewAdapter.Describes es :=
  StepMachine.always_iff_each _ (I := fun _ => True) trivial
    (PageRecyclerViewAdapter.begun_begin _).described
    (fun _ _ _ _ _ => trivial) (fun _ _ _ _ _ ht => PageRecyclerViewAdapter.described_step ht) hs

/-- The first item and the third change places: the second has not moved. -/
theorem not_forall_described : ¬ ∀ (mHeaderView : Bool)
    (mFootView mMoreFooterView mErrorFooterView : Option Nat) (mData : List Nat)
    (es : List (AdapterEvent Nat)),
    (adapterMachine mHeaderView mFootView mMoreFooterView mErrorFooterView mData).Always
      PageRecyclerViewAdapter.Described es := by
  intro h
  have hrun : (adapterMachine false none none none [1, 2, 3]).run [.move 0 2] = some
      { PageRecyclerViewAdapter.start false none none none [3, 2, 1] with
        shown := [.item 1, .item 2, .item 3], notified := [.moved 0 2] } := rfl
  obtain ⟨-, a, ha, hrows⟩ := replays_singleton.mp
    ((h false none none none [1, 2, 3] [.move 0 2]).last hrun)
  obtain rfl : Row.item 1 = a := Option.some.inj ha
  cases hrows

/-- Items come and go, and a load fails and is tried again, under a header and above a footer. -/
def failedLoad : List (AdapterEvent Nat) :=
  [.addAllAt 1 (.of [4, 5]), .move 0 1, .remove 2, .onScrolled 0 9 5 4 true, .onLoadMoreFailed true,
    .clickErrorFooter, .onLoadMoreCompleted false false none]

theorem described_iff_failedLoad :
    ∃ s, (adapterMachine true (some 7) none none [1, 2, 3]).run failedLoad = some s ∧
      s.rows = [.header, .item 4, .item 1, .item 2, .item 3] ∧
      ((adapterMachine true (some 7) none none [1, 2, 3]).Always
          PageRecyclerViewAdapter.Described failedLoad ↔
        (adapterMachine true (some 7) none none [1, 2, 3]).Each
          PageRecyclerViewAdapter.Describes failedLoad) :=
  ⟨_, rfl, rfl, described_iff true (some 7) none none [1, 2, 3] failedLoad _ rfl⟩

end PetDev.Adapter
