import PetDev.Adapter.PageRecyclerViewAdapter

/-!
# Loading page by page

Each load is answered once, by `onLoadMoreCompleted` or by `onLoadMoreFailed`; `canLoadMore` may
answer what it likes.

`pages_iff`: no two loads are ever under way, and from every state without one the user can
start the next, exactly when every `onLoadMoreFailed` finds something to load and the error footer
is the adapter's own.  Otherwise the failure leaves `isError` set with no footer to click on, and
no scroll will ever load again.
-/

namespace PetDev.Adapter

open Java

variable {α : Type*}

namespace PageRecyclerViewAdapter

/-- Answers are answers of a load. -/
def Answers (s : PageRecyclerViewAdapter α) : AdapterEvent α → Prop
  | .onLoadMoreCompleted _ _ _ => s.outstanding ≠ 0
  | .onLoadMoreFailed _ => s.outstanding ≠ 0
  | _ => True

instance (s : PageRecyclerViewAdapter α) (e : AdapterEvent α) : Decidable (s.Answers e) := by
  cases e <;> unfold Answers <;> infer_instance

/-- The last row comes into view, and there is more to load. -/
def ScrollsToEnd : AdapterEvent α → Prop
  | .onScrolled dx dy totalItemCount lastVisibleItem canLoadMore =>
    ¬ (dx = 0 ∧ dy = 0) ∧ 0 ≤ totalItemCount ∧ totalItemCount < 2 ^ 31 ∧
      lastVisibleItem = totalItemCount - 1 ∧ canLoadMore = true
  | _ => False

/-- The event starts a load. -/
def Starts (s : PageRecyclerViewAdapter α) (e : AdapterEvent α) : Prop :=
  ∃ t, s.step e = some t ∧ t.outstanding = s.outstanding + 1

/-- One load at a time, and always a next one. -/
structure Pages (s : PageRecyclerViewAdapter α) : Prop where
  single : s.outstanding ≤ 1
  live : s.outstanding = 0 →
    (∀ e, ScrollsToEnd e → s.Starts e) ∨ (s.ShowsError ∧ s.Starts .clickErrorFooter)

/-- **The condition on an answer**: a load that fails leaves a footer to click on. -/
def LeavesFooter (s : PageRecyclerViewAdapter α) : AdapterEvent α → Prop
  | .onLoadMoreFailed canLoadMore => canLoadMore = true ∧ s.errorView = .manualLoadingView
  | _ => True

/-! ## The flags and the footer -/

/-- While a load is under way a flag is set and there is nothing to click on. -/
structure Inv (s : PageRecyclerViewAdapter α) : Prop where
  single : s.outstanding ≤ 1
  loading : s.isLoading = true → s.outstanding = 1
  waiting : s.outstanding = 1 → s.isLoading = true ∨ s.isError = true
  error : s.mFootView = some .manualLoadingView → s.isError = true ∧ s.outstanding = 0 ∧
    s.mErrorFooterView = some .manualLoadingView
  more : s.mMoreFooterView ≠ some .manualLoadingView

theorem inv_start (mHeaderView : Bool) (mFootView mMoreFooterView mErrorFooterView : Option Nat)
    (mData : List α) :
    (start mHeaderView mFootView mMoreFooterView mErrorFooterView mData).Inv where
  single := Nat.zero_le 1
  loading := nofun
  waiting := nofun
  error h := by
    obtain ⟨id, -, hid⟩ := Option.map_eq_some_iff.mp h
    cases hid
  more h := by
    obtain ⟨id, -, hid⟩ := Option.map_eq_some_iff.mp h
    cases hid

/-- What is shown, and what has been notified, does not matter. -/
theorem Inv.congr {s : PageRecyclerViewAdapter α} (h : s.Inv) (mData : List α)
    (shown : List (Row α)) (notified : List ListChange) :
    Inv { s with mData := mData, shown := shown, notified := notified } :=
  ⟨h.single, h.loading, h.waiting, h.error, h.more⟩

theorem Inv.moreView_ne {s : PageRecyclerViewAdapter α} (h : s.Inv) :
    s.moreView ≠ View.manualLoadingView := by
  intro hmore
  unfold moreView at hmore
  cases hview : s.mMoreFooterView with
  | none =>
    rw [hview] at hmore
    cases hmore
  | some view =>
    rw [hview] at hmore
    exact h.more (hview.trans (congrArg some hmore))

/-- The event starts a load, by what the adapter finds. -/
def Loads (s : PageRecyclerViewAdapter α) : AdapterEvent α → Prop
  | .onScrolled dx dy totalItemCount lastVisibleItem canLoadMore =>
    atEnd dx dy totalItemCount lastVisibleItem ∧ s.isLoading = false ∧ s.isError = false ∧
      canLoadMore = true
  | .clickErrorFooter => s.mFootView = some .manualLoadingView
  | _ => False

/-- The footer while a load is under way, and the view that is kept for the next one. -/
def LoadingFooter (s : PageRecyclerViewAdapter α) (mFootView more : Option View) : Prop :=
  (mFootView = some s.moreView ∧ more = some s.moreView) ∨
    (s.mFootView ≠ some .manualLoadingView ∧ mFootView = s.mFootView ∧ more = s.mMoreFooterView)

theorem exists_scroll (s : PageRecyclerViewAdapter α) {dx dy totalItemCount lastVisibleItem : Int}
    {canLoadMore : Bool} (h : s.Inv)
    (hloads : s.Loads (.onScrolled dx dy totalItemCount lastVisibleItem canLoadMore)) :
    ∃ mFootView more notified, s.LoadingFooter mFootView more ∧
      s.onScrolled dx dy totalItemCount lastVisibleItem canLoadMore =
        { s with
          mFootView := mFootView
          isLoading := true
          mMoreFooterView := more
          notified := notified
          outstanding := s.outstanding + 1 } := by
  have hscroll : s.onScrolled dx dy totalItemCount lastVisibleItem canLoadMore =
      { (if s.mFootView = none then s.addFooterView false else s) with
        isLoading := true }.onLoadMore := if_pos hloads
  rw [hscroll]
  by_cases hview : s.mFootView = none
  · rw [if_pos hview, addFooterView_false]
    obtain ⟨notified, hput⟩ :=
      putFooterView_eq { s with mMoreFooterView := some s.moreView } (some s.moreView)
    rw [hput]
    exact ⟨some s.moreView, some s.moreView, notified, Or.inl ⟨rfl, rfl⟩, rfl⟩
  · rw [if_neg hview]
    refine ⟨s.mFootView, s.mMoreFooterView, s.notified, Or.inr ⟨fun herror => ?_, rfl, rfl⟩, rfl⟩
    exact Bool.false_ne_true (hloads.2.2.1.symm.trans (h.error herror).1)

theorem exists_click (s : PageRecyclerViewAdapter α)
    (hloads : s.mFootView = some .manualLoadingView) :
    ∃ notified, s.onClick =
      { s with
        mFootView := some s.moreView
        mMoreFooterView := some s.moreView
        notified := notified
        outstanding := s.outstanding + 1 } := by
  obtain ⟨notified, hput⟩ :=
    putFooterView_eq { s with mMoreFooterView := some s.moreView } (some s.moreView)
  rw [onClick_eq (by rw [hloads]; exact Option.some_ne_none _), addFooterView_false, hput]
  exact ⟨notified, rfl⟩

theorem exists_completed (s : PageRecyclerViewAdapter α)
    (canLoadMore isCompletedFooterEnabled : Bool) (view : Option View) :
    ∃ mFootView notified, (mFootView = s.mFootView ∨ mFootView = none ∨ mFootView = view) ∧
      s.onLoadMoreCompleted canLoadMore isCompletedFooterEnabled view =
        { s with
          mFootView := mFootView
          isLoading := false
          isError := false
          notified := notified } := by
  unfold onLoadMoreCompleted
  cases canLoadMore with
  | true => exact ⟨s.mFootView, s.notified, Or.inl rfl, rfl⟩
  | false =>
    obtain ⟨notified, hremove⟩ :=
      removeFooterView_eq { s with isLoading := false, isError := false }
    simp only [hremove, Bool.false_eq_true, if_false]
    cases isCompletedFooterEnabled with
    | false => exact ⟨none, notified, Or.inr (Or.inl rfl), rfl⟩
    | true =>
      obtain ⟨notified', hput⟩ := putFooterView_eq
        { s with
          isLoading := false
          isError := false
          mFootView := none
          notified := notified }
        view
      exact ⟨view, notified', Or.inr (Or.inr rfl), hput⟩

theorem exists_failed (s : PageRecyclerViewAdapter α) (canLoadMore : Bool) :
    ∃ notified, s.onLoadMoreFailed canLoadMore =
      if canLoadMore then
        { s with
          mFootView := some s.errorView
          isLoading := false
          isError := true
          mErrorFooterView := some s.errorView
          notified := notified }
      else
        { s with
          mFootView := none
          isLoading := false
          isError := true
          notified := notified } := by
  unfold onLoadMoreFailed
  cases canLoadMore with
  | true =>
    obtain ⟨notified, hput⟩ := putFooterView_eq
      { s with isLoading := false, isError := true, mErrorFooterView := some s.errorView }
      (some s.errorView)
    exact ⟨notified, (addFooterView_true _).trans hput⟩
  | false =>
    obtain ⟨notified, hremove⟩ := removeFooterView_eq { s with isLoading := false, isError := true }
    exact ⟨notified, hremove⟩

/-- Calls about the items leave the flags and the footer alone. -/
theorem exists_items {s t : PageRecyclerViewAdapter α} {e : AdapterEvent α}
    (ht : s.step e = some t) (he : match e with
      | .onScrolled _ _ _ _ _ | .clickErrorFooter => False
      | .onLoadMoreCompleted _ _ _ | .onLoadMoreFailed _ => False
      | _ => True) :
    ∃ mData shown notified,
      t = { s with mData := mData, shown := shown, notified := notified } := by
  have hall : ∀ {location : Nat} {collection : Collection α},
      s.begin.addAllAt location collection = some t →
        ∃ mData shown notified,
          t = { s with mData := mData, shown := shown, notified := notified } := by
    intro location collection h
    unfold addAllAt at h
    split at h
    · split at h <;>
      · obtain rfl := Option.some.inj h
        exact ⟨_, _, _, rfl⟩
    · cases h
  cases e with
  | addAt location object =>
    obtain ⟨-, h⟩ := Option.ite_none_right_eq_some.mp ht
    obtain rfl := Option.some.inj h
    exact ⟨_, _, _, rfl⟩
  | addAllAt location collection => exact hall ht
  | addAll collection => exact hall ((addAllAt_length s.begin collection).trans ht)
  | move i j =>
    obtain ⟨mData, -, rfl⟩ := Option.map_eq_some_iff.mp ht
    exact ⟨_, _, _, rfl⟩
  | remove position =>
    obtain ⟨-, h⟩ := Option.ite_none_right_eq_some.mp ht
    obtain rfl := Option.some.inj h
    exact ⟨_, _, _, rfl⟩
  | add object =>
    obtain rfl := Option.some.inj ht
    exact ⟨_, _, _, rfl⟩
  | clear =>
    obtain rfl := Option.some.inj ht
    exact ⟨_, _, _, rfl⟩
  | _ => exact he.elim

/-! ## The next load -/

/-- A scroll starts the next load, or a click does. -/
def Ready (s : PageRecyclerViewAdapter α) : Prop :=
  s.outstanding = 0 → s.isError = false ∨ s.mFootView = some .manualLoadingView

theorem starts_of_scroll {s : PageRecyclerViewAdapter α} (h : s.Inv) (h0 : s.outstanding = 0)
    (herror : s.isError = false) {e : AdapterEvent α} (he : ScrollsToEnd e) : s.Starts e := by
  cases e with
  | onScrolled dx dy totalItemCount lastVisibleItem canLoadMore =>
    obtain ⟨hmoves, hcount, hcount', rfl, hcan⟩ := he
    have hidle : s.isLoading = false := by
      by_contra hloading
      have := h.loading (Bool.eq_true_of_not_eq_false hloading)
      omega
    have hend : atEnd dx dy totalItemCount (totalItemCount - 1) := by
      refine ⟨hmoves, ?_⟩
      rw [mPreLoadNum, sub_add_cancel, int_of_range (by omega) hcount']
    obtain ⟨_, _, _, -, heq⟩ := s.begin.exists_scroll (h.congr _ _ _) ⟨hend, hidle, herror, hcan⟩
    exact ⟨_, rfl, by rw [heq]; rfl⟩
  | _ => exact he.elim

theorem starts_of_click {s : PageRecyclerViewAdapter α} (h : s.Inv)
    (hview : s.mFootView = some .manualLoadingView) :
    s.ShowsError ∧ s.Starts .clickErrorFooter := by
  have hshows : s.ShowsError :=
    ⟨by rw [hview]; exact Option.some_ne_none _, hview.trans (h.error hview).2.2.symm⟩
  obtain ⟨_, heq⟩ := s.begin.exists_click hview
  refine ⟨hshows, s.begin.onClick, ?_, by rw [heq]; rfl⟩
  rw [step, if_pos hshows, if_pos hview]

/-- On the invariant, that is all. -/
theorem Inv.pages_iff_ready {s : PageRecyclerViewAdapter α} (h : s.Inv) : s.Pages ↔ s.Ready := by
  constructor
  · intro hpages h0
    rcases hpages.live h0 with hscroll | ⟨-, t, ht, hstarts⟩
    · obtain ⟨t, ht, hstarts⟩ := hscroll (.onScrolled 0 1 1 0 true)
        ⟨by decide, by decide, by decide, by decide, rfl⟩
      by_contra hnot
      obtain rfl := Option.some.inj ht
      have hsame : s.begin.onScrolled 0 1 1 0 true = s.begin :=
        if_neg fun hloads => hnot (Or.inl hloads.2.2.1)
      rw [hsame] at hstarts
      exact absurd hstarts (Nat.succ_ne_self _).symm
    · by_contra hnot
      rw [step] at ht
      split at ht
      · obtain rfl := Option.some.inj ht
        rw [if_neg fun hview => hnot (Or.inr hview)] at hstarts
        exact absurd hstarts (Nat.succ_ne_self _).symm
      · cases ht
  · intro hready
    refine ⟨h.single, fun h0 => ?_⟩
    rcases hready h0 with herror | hview
    · exact Or.inl fun e he => starts_of_scroll h h0 herror he
    · exact Or.inr (starts_of_click h hview)

/-! ## Steps -/

/-- A load has started: there is nothing to click on. -/
theorem Inv.load {s : PageRecyclerViewAdapter α} (h : s.Inv) (h0 : s.outstanding = 0)
    {mFootView more : Option View} {isLoading : Bool}
    (hfooter : s.LoadingFooter mFootView more) (hflag : isLoading = true ∨ s.isError = true)
    (shown : List (Row α)) (notified : List ListChange) :
    Inv { s with
      mFootView := mFootView
      isLoading := isLoading
      mMoreFooterView := more
      shown := shown
      notified := notified
      outstanding := s.outstanding + 1 } := by
  have hne : mFootView ≠ some View.manualLoadingView ∧ more ≠ some View.manualLoadingView := by
    rcases hfooter with ⟨rfl, rfl⟩ | ⟨hview, rfl, rfl⟩
    · have := h.moreView_ne
      exact ⟨fun he => this (Option.some.inj he), fun he => this (Option.some.inj he)⟩
    · exact ⟨hview, h.more⟩
  exact ⟨by show s.outstanding + 1 ≤ 1; omega, fun _ => by show s.outstanding + 1 = 1; omega,
    fun _ => hflag, fun hview => absurd hview hne.1, hne.2⟩

theorem ready_of_outstanding {s : PageRecyclerViewAdapter α} (h : s.outstanding ≠ 0) : s.Ready :=
  fun h0 => absurd h0 h

/-- A load starts only with none under way. -/
theorem Inv.outstanding_of_loads {s : PageRecyclerViewAdapter α} (h : s.Inv)
    (hloading : s.isLoading = false) (herror : s.isError = false) : s.outstanding = 0 := by
  by_contra hne
  have hsingle := h.single
  rcases h.waiting (by omega) with hflag | hflag
  · exact Bool.false_ne_true (hloading.symm.trans hflag)
  · exact Bool.false_ne_true (herror.symm.trans hflag)

theorem Inv.onScrolled {s : PageRecyclerViewAdapter α} (h : s.Inv)
    (dx dy totalItemCount lastVisibleItem : Int) (canLoadMore : Bool) :
    (s.begin.onScrolled dx dy totalItemCount lastVisibleItem canLoadMore).Inv ∧
      (s.Ready → (s.begin.onScrolled dx dy totalItemCount lastVisibleItem canLoadMore).Ready) := by
  by_cases hloads : s.Loads (.onScrolled dx dy totalItemCount lastVisibleItem canLoadMore)
  · have h0 := h.outstanding_of_loads hloads.2.1 hloads.2.2.1
    obtain ⟨mFootView, more, notified, hfooter, heq⟩ :=
      s.begin.exists_scroll (h.congr _ _ _) hloads
    rw [heq]
    exact ⟨h.load h0 hfooter (Or.inl rfl) _ _,
      fun _ => ready_of_outstanding (Nat.succ_ne_zero _)⟩
  · have hsame : s.begin.onScrolled dx dy totalItemCount lastVisibleItem canLoadMore = s.begin :=
      if_neg hloads
    rw [hsame]
    exact ⟨h.congr _ _ _, id⟩

theorem Inv.onClick {s : PageRecyclerViewAdapter α} (h : s.Inv)
    (hview : s.mFootView = some .manualLoadingView) :
    s.begin.onClick.Inv ∧ s.begin.onClick.Ready := by
  obtain ⟨herror, h0, -⟩ := h.error hview
  obtain ⟨notified, heq⟩ := s.begin.exists_click hview
  rw [heq]
  exact ⟨h.load h0 (Or.inl ⟨rfl, rfl⟩) (Or.inr herror) _ _,
    ready_of_outstanding (Nat.succ_ne_zero _)⟩

/-- After a load has been completed, a scroll starts the next. -/
theorem Inv.onLoadMoreCompleted {s : PageRecyclerViewAdapter α} (h : s.Inv)
    (ha : s.outstanding ≠ 0) (canLoadMore isCompletedFooterEnabled : Bool) (view : Option Nat) :
    (s.answered.begin.onLoadMoreCompleted canLoadMore isCompletedFooterEnabled
        (view.map .custom)).Inv ∧
      (s.answered.begin.onLoadMoreCompleted canLoadMore isCompletedFooterEnabled
        (view.map .custom)).Ready := by
  have hnone : s.outstanding - 1 = 0 := by
    have hsingle := h.single
    omega
  obtain ⟨mFootView, notified, hfooter, heq⟩ := s.answered.begin.exists_completed canLoadMore
    isCompletedFooterEnabled (view.map .custom)
  have hne : mFootView ≠ some View.manualLoadingView := by
    rcases hfooter with rfl | rfl | rfl
    · intro hview
      exact ha (h.error hview).2.1
    · exact nofun
    · intro hview
      obtain ⟨id, -, hid⟩ := Option.map_eq_some_iff.mp hview
      cases hid
  rw [heq]
  refine ⟨⟨hnone.le.trans zero_le_one, nofun, fun hone => ?_, fun hview => absurd hview hne,
    h.more⟩, fun _ => Or.inl rfl⟩
  exact absurd (hnone.symm.trans hone) zero_ne_one

/-- After a load has failed, only a click can start the next. -/
theorem Inv.onLoadMoreFailed {s : PageRecyclerViewAdapter α} (h : s.Inv) (canLoadMore : Bool) :
    (s.answered.begin.onLoadMoreFailed canLoadMore).Inv ∧
      ((s.answered.begin.onLoadMoreFailed canLoadMore).Ready ↔
        s.LeavesFooter (.onLoadMoreFailed canLoadMore)) := by
  have hsingle := h.single
  have hnone : s.outstanding - 1 = 0 := by omega
  have hone : s.outstanding - 1 ≠ 1 := by omega
  obtain ⟨notified, heq⟩ := s.answered.begin.exists_failed canLoadMore
  rw [heq]
  cases canLoadMore with
  | true =>
    rw [if_pos rfl]
    refine ⟨⟨hnone.le.trans zero_le_one, nofun, fun h => absurd h hone,
      fun hview => ⟨rfl, hnone, hview⟩, h.more⟩, ?_⟩
    constructor
    · intro hready
      rcases hready hnone with herror | hview
      · cases herror
      · exact ⟨rfl, Option.some.inj hview⟩
    · rintro ⟨-, hview⟩ -
      exact Or.inr (congrArg some hview)
  | false =>
    rw [if_neg Bool.false_ne_true]
    refine ⟨⟨hnone.le.trans zero_le_one, nofun, fun h => absurd h hone, nofun, h.more⟩, ?_⟩
    refine iff_of_false (fun hready => ?_) fun hfooter => Bool.false_ne_true hfooter.1
    rcases hready hnone with herror | hview
    · cases herror
    · cases hview

/-- **The step of the invariant, and what it leaves for the next load.** -/
theorem Inv.step {s t : PageRecyclerViewAdapter α} {e : AdapterEvent α} (h : s.Inv)
    (ha : s.Answers e) (ht : s.step e = some t) :
    t.Inv ∧ (s.Ready → (t.Ready ↔ s.LeavesFooter e)) := by
  cases e with
  | onScrolled dx dy totalItemCount lastVisibleItem canLoadMore =>
    obtain rfl := Option.some.inj ht
    obtain ⟨hinv, hready⟩ := h.onScrolled dx dy totalItemCount lastVisibleItem canLoadMore
    exact ⟨hinv, fun hs => iff_of_true (hready hs) trivial⟩
  | clickErrorFooter =>
    obtain ⟨-, ht⟩ := Option.ite_none_right_eq_some.mp ht
    obtain rfl := Option.some.inj ht
    by_cases hview : s.mFootView = some .manualLoadingView
    · obtain ⟨hinv, hready⟩ := h.onClick hview
      rw [if_pos hview]
      exact ⟨hinv, fun _ => iff_of_true hready trivial⟩
    · rw [if_neg hview]
      exact ⟨h.congr _ _ _, fun hready => iff_of_true hready trivial⟩
  | onLoadMoreCompleted canLoadMore isCompletedFooterEnabled view =>
    obtain rfl := Option.some.inj ht
    obtain ⟨hinv, hready⟩ := h.onLoadMoreCompleted ha canLoadMore isCompletedFooterEnabled view
    exact ⟨hinv, fun _ => iff_of_true hready trivial⟩
  | onLoadMoreFailed canLoadMore =>
    obtain rfl := Option.some.inj ht
    obtain ⟨hinv, hready⟩ := h.onLoadMoreFailed canLoadMore
    exact ⟨hinv, fun _ => hready⟩
  | _ =>
    obtain ⟨mData, shown, notified, rfl⟩ := exists_items ht trivial
    exact ⟨h.congr _ _ _, fun hready => iff_of_true hready trivial⟩

end PageRecyclerViewAdapter

/-- The adapter, when every answer is one of a load. -/
def pagingMachine (mHeaderView : Bool) (mFootView mMoreFooterView mErrorFooterView : Option Nat)
    (mData : List α) : StepMachine (PageRecyclerViewAdapter α) (AdapterEvent α) :=
  (adapterMachine mHeaderView mFootView mMoreFooterView mErrorFooterView mData).guard
    PageRecyclerViewAdapter.Answers

/-- **No two loads are under way and the next can always be started, exactly when every load that
fails leaves a footer to click on.** -/
theorem pages_iff (mHeaderView : Bool) (mFootView mMoreFooterView mErrorFooterView : Option Nat)
    (mData : List α) (es : List (AdapterEvent α)) (s : PageRecyclerViewAdapter α)
    (hs : (pagingMachine mHeaderView mFootView mMoreFooterView mErrorFooterView mData).run es =
      some s) :
    (pagingMachine mHeaderView mFootView mMoreFooterView mErrorFooterView mData).Always
        PageRecyclerViewAdapter.Pages es ↔
      (pagingMachine mHeaderView mFootView mMoreFooterView mErrorFooterView mData).Each
        PageRecyclerViewAdapter.LeavesFooter es := by
  have h0 := PageRecyclerViewAdapter.inv_start mHeaderView mFootView mMoreFooterView
    mErrorFooterView mData
  have hstep : ∀ s e t, s.Inv → (pagingMachine mHeaderView mFootView mMoreFooterView
      mErrorFooterView mData).step s e = some t →
      t.Inv ∧ (s.Ready → (t.Ready ↔ s.LeavesFooter e)) := by
    intro s e t h ht
    obtain ⟨ha, ht⟩ := StepMachine.guard_step_eq_some _ |>.mp ht
    exact h.step ha ht
  refine StepMachine.always_iff_each _ h0 (h0.pages_iff_ready.mpr fun _ => Or.inl rfl)
    (fun s e t h ht => (hstep s e t h ht).1) (fun s e t h hpages ht => ?_) hs
  obtain ⟨hinv, hiff⟩ := hstep s e t h ht
  rw [hinv.pages_iff_ready]
  exact hiff (h.pages_iff_ready.mp hpages)

/-- A load fails when nothing is left to load, and then there is more: no scroll loads again. -/
def failedLast : List (AdapterEvent Nat) :=
  [.onScrolled 0 9 3 2 true, .onLoadMoreFailed false]

theorem not_forall_pages : ¬ ∀ (mHeaderView : Bool)
    (mFootView mMoreFooterView mErrorFooterView : Option Nat) (mData : List Nat)
    (es : List (AdapterEvent Nat)),
    (pagingMachine mHeaderView mFootView mMoreFooterView mErrorFooterView mData).Always
      PageRecyclerViewAdapter.Pages es := by
  intro h
  have hrun : ((pagingMachine false none none none [1, 2, 3]).run failedLast).map (fun s =>
      (s.outstanding, s.mFootView,
        (s.step (.onScrolled 0 1 1 0 true)).map fun t => t.outstanding)) =
      some (0, none, some 0) := rfl
  obtain ⟨s, hs, hout⟩ := Option.map_eq_some_iff.mp hrun
  simp only [Prod.mk.injEq] at hout
  obtain ⟨h0, hview, hscrolled⟩ := hout
  rcases ((h false none none none [1, 2, 3] failedLast).last hs).live h0 with hscroll | ⟨hshows, -⟩
  · obtain ⟨t, ht, hstarts⟩ := hscroll (.onScrolled 0 1 1 0 true)
      ⟨by decide, by decide, by decide, by decide, rfl⟩
    rw [ht, Option.map_some, Option.some.injEq, hstarts] at hscrolled
    exact absurd hscrolled (Nat.succ_ne_zero _)
  · exact hshows.1 hview

/-- A load fails, is tried again by a click, and is the last. -/
def triedAgain : List (AdapterEvent Nat) :=
  [.onScrolled 0 9 3 2 true, .onLoadMoreFailed true, .clickErrorFooter,
    .onLoadMoreCompleted false true (some 7)]

theorem pages_iff_triedAgain :
    ∃ s, (pagingMachine false none none none [1, 2, 3]).run triedAgain = some s ∧
      s.outstanding = 0 ∧
      ((pagingMachine false none none none [1, 2, 3]).Always
          PageRecyclerViewAdapter.Pages triedAgain ↔
        (pagingMachine false none none none [1, 2, 3]).Each
          PageRecyclerViewAdapter.LeavesFooter triedAgain) :=
  ⟨_, rfl, rfl, pages_iff false none none none [1, 2, 3] triedAgain _ rfl⟩

end PetDev.Adapter
