import PetDev.Lib.Association
import PetDev.Lib.Recursion
import Mathlib.Data.List.Infix

/-!
# File trees

A `FileTree` is a finite map from paths to files and directories, where every entry stands in a
directory.  A path is the list of its names with the last one first, so that `p <:+ q` says that
`q` is `p` or below it.

`delete` removes a file or an empty directory, unless it is one of those that are `stuck`: a set
of paths whose deletion always fails.  What a deleter can remove at best is what has no stuck entry
at it or below it (`Held`), and `ClearedAll` says that just that is gone.  Clearing one root after
the other clears them all (`ClearedAll.cons`), and a directory is cleared by clearing what is in it
and deleting it then (`ClearedAll.delete`).
-/

namespace PetDev

inductive FileKind where
  | file
  | directory
  deriving DecidableEq

structure FileTree (N : Type*) [DecidableEq N] where
  entries : FiniteMap (List N) FileKind
  parent : ∀ {name : N} {path : List N} {kind : FileKind},
    entries.get (name :: path) = some kind → entries.get path = some .directory

namespace FileTree

variable {N : Type*} [DecidableEq N]

def kind (t : FileTree N) (path : List N) : Option FileKind := t.entries.get path

theorem ne_none_of_kind {t : FileTree N} {path : List N} {k : FileKind}
    (h : t.kind path = some k) : t.kind path ≠ none := by
  rw [h]
  exact Option.some_ne_none k

/-- The number of entries. -/
def size (t : FileTree N) : Nat := t.entries.keys.length

/-- What is in a directory. -/
def children (t : FileTree N) (path : List N) : List (List N) :=
  t.entries.keys.filter fun q => q ≠ [] ∧ q.tail = path

theorem mem_children {t : FileTree N} {p q : List N} :
    q ∈ t.children p ↔ (∃ name, q = name :: p) ∧ t.kind q ≠ none := by
  unfold children kind
  rw [List.mem_filter, FiniteMap.mem_keys, decide_eq_true_iff, and_comm]
  refine and_congr_left fun _ => ⟨?_, ?_⟩
  · rintro ⟨hne, rfl⟩
    exact ⟨q.head hne, (List.cons_head_tail hne).symm⟩
  · rintro ⟨name, rfl⟩
    exact ⟨List.cons_ne_nil name p, rfl⟩

theorem suffix_of_mem_children {t : FileTree N} {p c : List N} (h : c ∈ t.children p) :
    p <:+ c := by
  obtain ⟨name, rfl⟩ := (mem_children.mp h).1
  exact List.suffix_cons name p

theorem nodup_children (t : FileTree N) (path : List N) : (t.children path).Nodup :=
  t.entries.distinct.filter _

/-- Every directory above an entry is there. -/
theorem kind_of_suffix {t : FileTree N} {p q : List N} (hq : t.kind q ≠ none) (h : p <:+ q)
    (hne : p ≠ q) : t.kind p = some .directory := by
  induction q with
  | nil => exact absurd (List.suffix_nil.mp h) hne
  | cons name q ih =>
    obtain ⟨k, hk⟩ := Option.ne_none_iff_exists'.mp hq
    have hparent : t.kind q = some .directory := t.parent hk
    have hp := (List.suffix_cons_iff.mp h).resolve_left hne
    by_cases heq : p = q
    · rw [heq, hparent]
    · exact ih (ne_none_of_kind hparent) hp heq

/-- Below what is not a directory there is nothing. -/
theorem kind_eq_none_of_suffix {t : FileTree N} {p q : List N} (hp : t.kind p ≠ some .directory)
    (h : p <:+ q) (hne : p ≠ q) : t.kind q = none := by
  by_contra hq
  exact hp (kind_of_suffix hq h hne)

theorem children_eq_nil_of_kind {t : FileTree N} {path : List N}
    (h : t.kind path ≠ some .directory) : t.children path = [] := by
  refine List.eq_nil_iff_forall_not_mem.mpr fun c hc => ?_
  obtain ⟨⟨name, rfl⟩, hthere⟩ := mem_children.mp hc
  exact h (kind_of_suffix hthere (List.suffix_cons name path) (by simp))

/-- Below a path there is the path itself, or something in it on the way. -/
theorem exists_child {t : FileTree N} {p q : List N} (hq : t.kind q ≠ none) (h : p <:+ q)
    (hne : p ≠ q) : ∃ c ∈ t.children p, c <:+ q := by
  induction q with
  | nil => exact absurd (List.suffix_nil.mp h) hne
  | cons name q ih =>
    have hp := (List.suffix_cons_iff.mp h).resolve_left hne
    by_cases heq : p = q
    · subst heq
      exact ⟨name :: p, mem_children.mpr ⟨⟨name, rfl⟩, hq⟩, List.suffix_rfl⟩
    · have hdir := kind_of_suffix hq (List.suffix_cons name q) (by simp)
      obtain ⟨c, hc, hcq⟩ := ih (ne_none_of_kind hdir) hp heq
      exact ⟨c, hc, hcq.trans (List.suffix_cons name q)⟩

/-- Whether there is a directory in this directory. -/
def HasSubdirectory (t : FileTree N) (path : List N) : Prop :=
  ∃ c ∈ t.children path, t.kind c = some .directory

theorem hasSubdirectory_of_kind {t : FileTree N} {name : N} {path : List N}
    (h : t.kind (name :: path) = some .directory) : t.HasSubdirectory path :=
  ⟨name :: path, mem_children.mpr ⟨⟨name, rfl⟩, ne_none_of_kind h⟩, h⟩

/-- The tree with a directory and nothing in it. -/
def root : FileTree N where
  entries := FiniteMap.empty.put [] .directory
  parent := by
    intro name path kind h
    rw [FiniteMap.get_put_of_ne _ (List.cons_ne_nil name path)] at h
    exact absurd h.symm (Option.some_ne_none kind)

/-- A new entry in a directory, if that is there and has no entry of this name. -/
def create (t : FileTree N) (name : N) (path : List N) (kind : FileKind) : FileTree N :=
  if h : t.kind path = some .directory ∧ t.kind (name :: path) = none then
    { entries := t.entries.put (name :: path) kind
      parent := by
        intro name' q k hk
        rw [FiniteMap.get_put] at hk
        have hq : t.kind q = some .directory := by
          by_cases heq : name' :: q = name :: path
          · rw [(List.cons.inj heq).2, h.1]
          · rw [if_neg heq] at hk
            exact t.parent hk
        rw [FiniteMap.get_put_of_ne]
        · exact hq
        · rintro rfl
          rw [h.2] at hq
          exact absurd hq.symm (Option.some_ne_none _) }
  else t

/-! ## Deleting -/

/-- Without an entry in which there is nothing. -/
def remove (t : FileTree N) (path : List N) (h : t.children path = []) : FileTree N where
  entries := t.entries.erase path
  parent := by
    intro name q k hq
    rw [FiniteMap.get_erase] at hq ⊢
    by_cases hname : name :: q = path
    · rw [if_pos hname] at hq
      exact absurd hq.symm (Option.some_ne_none k)
    · rw [if_neg hname] at hq
      rw [if_neg, t.parent hq]
      rintro rfl
      have hmem : name :: q ∈ t.children q := by
        refine mem_children.mpr ⟨⟨name, rfl⟩, ?_⟩
        rw [kind, hq]
        exact Option.some_ne_none k
      rw [h] at hmem
      exact List.not_mem_nil hmem

variable (stuck : List N → Bool)

/-- It is there, nothing is in it, and it is not stuck. -/
def Deletable (t : FileTree N) (path : List N) : Prop :=
  t.kind path ≠ none ∧ t.children path = [] ∧ stuck path = false

instance (t : FileTree N) (path : List N) : Decidable (t.Deletable stuck path) :=
  inferInstanceAs (Decidable (_ ∧ _ ∧ _))

/-- Deletes a file or an empty directory, and says whether that was done. -/
def delete (t : FileTree N) (path : List N) : Bool × FileTree N :=
  if h : t.Deletable stuck path then (true, t.remove path h.2.1) else (false, t)

variable {stuck}

theorem delete_of_not {t : FileTree N} {path : List N} (h : ¬ t.Deletable stuck path) :
    t.delete stuck path = (false, t) :=
  dif_neg h

theorem fst_delete {t : FileTree N} {path : List N} :
    (t.delete stuck path).1 = true ↔ t.Deletable stuck path := by
  unfold delete
  split
  · next h => exact iff_of_true rfl h
  · next h => exact iff_of_false Bool.false_ne_true h

theorem kind_delete {t : FileTree N} {path : List N} (h : t.Deletable stuck path) (q : List N) :
    (t.delete stuck path).2.kind q = if q = path then none else t.kind q := by
  unfold delete
  rw [dif_pos h]
  exact FiniteMap.get_erase _ _ _

theorem kind_delete_of_ne {t : FileTree N} {path q : List N} (h : q ≠ path) :
    (t.delete stuck path).2.kind q = t.kind q := by
  by_cases hd : t.Deletable stuck path
  · rw [kind_delete hd, if_neg h]
  · rw [delete_of_not hd]

/-! ## What a deleter can remove -/

variable (stuck)

/-- There is a stuck entry here, or below. -/
def Held (t : FileTree N) (q : List N) : Prop :=
  ∃ u, q <:+ u ∧ t.kind u ≠ none ∧ stuck u = true

/-- Of what is at the roots and below them, just what is held is left. -/
structure ClearedAll (t : FileTree N) (roots : List (List N)) (t' : FileTree N) : Prop where
  gone : ∀ q, (∃ root ∈ roots, root <:+ q) → ¬ t.Held stuck q → t'.kind q = none
  kept : ∀ q, (∀ root ∈ roots, root <:+ q → t.Held stuck q) → t'.kind q = t.kind q

/-- The same for one root. -/
def Cleared (t : FileTree N) (root : List N) (t' : FileTree N) : Prop :=
  ClearedAll stuck t [root] t'

variable {stuck}

/-- What is held cannot be deleted: it is stuck itself, or something is in it. -/
theorem not_deletable_of_held {t : FileTree N} {path : List N}
    (h : t.Held stuck path) : ¬ t.Deletable stuck path := by
  obtain ⟨u, hu, hthere, hstuck⟩ := h
  rintro ⟨-, hempty, hfree⟩
  by_cases heq : path = u
  · rw [heq, hstuck] at hfree
    exact absurd hfree (by decide)
  · obtain ⟨c, hc, -⟩ := exists_child hthere hu heq
    rw [hempty] at hc
    exact List.not_mem_nil hc

/-- Nothing has come up that was not there. -/
def Shrinks (t t' : FileTree N) : Prop := ∀ q, t'.kind q = none ∨ t'.kind q = t.kind q

theorem Shrinks.refl (t : FileTree N) : Shrinks t t := fun _ => Or.inr rfl

theorem Shrinks.trans {t t' t'' : FileTree N} (h : Shrinks t t') (h' : Shrinks t' t'') :
    Shrinks t t'' := by
  intro q
  rcases h' q with hnone | hsame
  · exact Or.inl hnone
  · rw [hsame]
    exact h q

theorem Shrinks.ne_none {t t' : FileTree N} (h : Shrinks t t') {q : List N}
    (hq : t'.kind q ≠ none) : t.kind q ≠ none := by
  rwa [← (h q).resolve_left hq]

theorem Shrinks.eq_some {t t' : FileTree N} (h : Shrinks t t') {q : List N} {k : FileKind}
    (hq : t'.kind q = some k) : t.kind q = some k := by
  rw [← (h q).resolve_left (by rw [hq]; exact Option.some_ne_none k), hq]

theorem shrinks_delete (t : FileTree N) (path : List N) : Shrinks t (t.delete stuck path).2 := by
  intro q
  by_cases hd : t.Deletable stuck path
  · rw [kind_delete hd]
    by_cases hq : q = path
    · exact Or.inl (if_pos hq)
    · exact Or.inr (if_neg hq)
  · rw [delete_of_not hd]
    exact Or.inr rfl

namespace ClearedAll

variable {t t' t'' : FileTree N} {root : List N} {roots : List (List N)}

theorem nil : ClearedAll stuck t [] t where
  gone := by
    rintro q ⟨root, hroot, -⟩
    exact absurd hroot List.not_mem_nil
  kept := fun _ _ => rfl

theorem shrinks (h : ClearedAll stuck t roots t') : Shrinks t t' := by
  intro q
  by_cases hq : (∃ root ∈ roots, root <:+ q) ∧ ¬ t.Held stuck q
  · exact Or.inl (h.gone q hq.1 hq.2)
  · refine Or.inr (h.kept q fun root hroot hsuffix => ?_)
    by_contra hheld
    exact hq ⟨⟨root, hroot, hsuffix⟩, hheld⟩

/-- A stuck entry is held itself, so it is still there. -/
theorem held_iff (h : ClearedAll stuck t roots t') (q : List N) :
    t'.Held stuck q ↔ t.Held stuck q := by
  constructor
  · rintro ⟨u, hu, hthere, hstuck⟩
    exact ⟨u, hu, h.shrinks.ne_none hthere, hstuck⟩
  · rintro ⟨u, hu, hthere, hstuck⟩
    refine ⟨u, hu, ?_, hstuck⟩
    rwa [h.kept u fun _ _ _ => ⟨u, List.suffix_rfl, hthere, hstuck⟩]

theorem cons (h : Cleared stuck t root t') (h' : ClearedAll stuck t' roots t'') :
    ClearedAll stuck t (root :: roots) t'' where
  gone := by
    rintro q ⟨r, hr, hsuffix⟩ hheld
    rcases List.mem_cons.mp hr with rfl | hr
    · have hnone := h.gone q ⟨r, List.mem_singleton_self r, hsuffix⟩ hheld
      rcases h'.shrinks q with hq | hq
      · exact hq
      · rw [hq, hnone]
    · exact h'.gone q ⟨r, hr, hsuffix⟩ fun hq => hheld ((h.held_iff q).mp hq)
  kept := by
    intro q hq
    rw [h'.kept q fun r hr hsuffix => (h.held_iff q).mpr (hq r (List.mem_cons_of_mem _ hr) hsuffix)]
    refine h.kept q fun r hr hsuffix => hq r ?_ hsuffix
    rw [List.mem_singleton.mp hr]
    exact List.mem_cons_self

theorem children_eq_nil (hroots : roots.Perm (t.children root)) (h : ClearedAll stuck t roots t')
    (hheld : ¬ t.Held stuck root) : t'.children root = [] := by
  refine List.eq_nil_iff_forall_not_mem.mpr fun c hc => ?_
  obtain ⟨hname, hthere⟩ := mem_children.mp hc
  have hchild : c ∈ t.children root := mem_children.mpr ⟨hname, h.shrinks.ne_none hthere⟩
  refine hthere (h.gone c ⟨c, hroots.mem_iff.mpr hchild, List.suffix_rfl⟩ ?_)
  rintro ⟨u, hu, hu'⟩
  exact hheld ⟨u, (suffix_of_mem_children hchild).trans hu, hu'⟩

/-- **A directory is cleared** by clearing what is in it and deleting it then: the deletion fails
just when something is left inside or the directory itself is stuck. -/
theorem delete (hroots : roots.Perm (t.children root)) (h : ClearedAll stuck t roots t') :
    Cleared stuck t root (t'.delete stuck root).2 where
  gone := by
    rintro q ⟨r, hr, hsuffix⟩ hheld
    obtain rfl := List.mem_singleton.mp hr
    by_cases hq : q = r
    · subst hq
      by_cases hthere : t'.kind q = none
      · have hshrinks : Shrinks t' (t'.delete stuck q).2 := shrinks_delete t' q
        rcases hshrinks q with hnone | hsame
        · exact hnone
        · rw [hsame, hthere]
      · rw [kind_delete ⟨hthere, h.children_eq_nil hroots hheld, ?_⟩, if_pos rfl]
        by_contra hstuck
        exact hheld ⟨q, List.suffix_rfl, h.shrinks.ne_none hthere,
          (Bool.not_eq_false _).mp hstuck⟩
    · rw [kind_delete_of_ne hq]
      by_cases hthere : t.kind q = none
      · rcases h.shrinks q with hnone | hsame
        · exact hnone
        · rw [hsame, hthere]
      · obtain ⟨c, hc, hcq⟩ := exists_child hthere hsuffix (Ne.symm hq)
        exact h.gone q ⟨c, hroots.mem_iff.mpr hc, hcq⟩ hheld
  kept := by
    intro q hq
    have hbelow := hq root (List.mem_singleton_self root)
    by_cases heq : q = root
    · subst heq
      have hheld := hbelow List.suffix_rfl
      rw [delete_of_not (not_deletable_of_held ((h.held_iff q).mpr hheld))]
      exact h.kept q fun _ _ _ => hheld
    · rw [kind_delete_of_ne heq]
      refine h.kept q fun c hc hcq => hbelow ?_
      exact (suffix_of_mem_children (hroots.mem_iff.mp hc)).trans hcq

end ClearedAll

/-- What is not a directory is cleared by deleting it. -/
theorem cleared_delete {t : FileTree N} {path : List N} (h : t.kind path ≠ some .directory) :
    Cleared stuck t path (t.delete stuck path).2 := by
  have hnil := children_eq_nil_of_kind h
  exact ClearedAll.delete (by rw [hnil]) ClearedAll.nil

theorem cleared_of_absent {t : FileTree N} {path : List N} (h : t.kind path = none) :
    Cleared stuck t path t where
  gone := by
    rintro q ⟨r, hr, hsuffix⟩ -
    obtain rfl := List.mem_singleton.mp hr
    by_cases hq : r = q
    · rw [← hq, h]
    · exact kind_eq_none_of_suffix (fun hdir => ne_none_of_kind hdir h) hsuffix hq
  kept := fun _ _ => rfl

/-- **A loop clears its roots** when every turn clears its own, in whatever tree the turns before
have left. -/
theorem exists_foldlM_clearedAll {f : FileTree N → List N → Option (FileTree N)}
    {roots : List (List N)} {t : FileTree N}
    (hturn : ∀ t' root, root ∈ roots → Shrinks t t' →
      ∃ t'', f t' root = some t'' ∧ Cleared stuck t' root t'') :
    ∃ t', roots.foldlM f t = some t' ∧ ClearedAll stuck t roots t' := by
  induction roots generalizing t with
  | nil => exact ⟨t, rfl, ClearedAll.nil⟩
  | cons root roots ih =>
    obtain ⟨t₁, hfirst, hclear⟩ := hturn t root List.mem_cons_self (Shrinks.refl t)
    obtain ⟨t₂, hrest, hclearAll⟩ := ih fun t' r hr hshrinks =>
      hturn t' r (List.mem_cons_of_mem _ hr) (hclear.shrinks.trans hshrinks)
    refine ⟨t₂, ?_, ClearedAll.cons hclear hclearAll⟩
    rw [List.foldlM_cons, hfirst]
    exact hrest

/-! ## Deleting until something fails -/

variable (stuck)

/-- What a deleter has done that says whether it was successful: just when nothing held is at the
roots, and then it has cleared them. -/
structure Attempted (t : FileTree N) (roots : List (List N)) (ok : Bool) (t' : FileTree N) :
    Prop where
  ok_iff : ok = true ↔ ∀ root ∈ roots, ¬ t.Held stuck root
  cleared : ok = true → ClearedAll stuck t roots t'
  outside : ∀ q, (∀ root ∈ roots, ¬ root <:+ q) → t'.kind q = t.kind q
  shrinks : Shrinks t t'

variable {stuck}

namespace Attempted

variable {t t' t'' : FileTree N} {root : List N} {roots : List (List N)} {ok ok' : Bool}

theorem nil : Attempted stuck t [] true t where
  ok_iff := iff_of_true rfl fun _ h => absurd h List.not_mem_nil
  cleared := fun _ => ClearedAll.nil
  outside := fun _ _ => rfl
  shrinks := Shrinks.refl t

/-- After a turn that has failed there is no other. -/
theorem cons_false (h : Attempted stuck t [root] false t') (roots : List (List N)) :
    Attempted stuck t (root :: roots) false t' where
  ok_iff := by
    refine iff_of_false Bool.false_ne_true fun hall => Bool.false_ne_true (h.ok_iff.mpr ?_)
    intro r hr
    rw [List.mem_singleton.mp hr]
    exact hall root List.mem_cons_self
  cleared := fun hok => absurd hok Bool.false_ne_true
  outside := by
    intro q hq
    refine h.outside q fun r hr => ?_
    rw [List.mem_singleton.mp hr]
    exact hq root List.mem_cons_self
  shrinks := h.shrinks

theorem cons_true (h : Attempted stuck t [root] true t') (h' : Attempted stuck t' roots ok t'') :
    Attempted stuck t (root :: roots) ok t'' where
  ok_iff := by
    have hroot := h.ok_iff.mp rfl root (List.mem_singleton_self root)
    have hclear := h.cleared rfl
    rw [h'.ok_iff, List.forall_mem_cons]
    constructor
    · intro hall
      exact ⟨hroot, fun r hr hheld => hall r hr ((hclear.held_iff r).mpr hheld)⟩
    · intro hall r hr hheld
      exact hall.2 r hr ((hclear.held_iff r).mp hheld)
  cleared := fun hok => ClearedAll.cons (h.cleared rfl) (h'.cleared hok)
  outside := by
    intro q hq
    rw [h'.outside q fun r hr => hq r (List.mem_cons_of_mem _ hr)]
    refine h.outside q fun r hr => ?_
    rw [List.mem_singleton.mp hr]
    exact hq root List.mem_cons_self
  shrinks := h.shrinks.trans h'.shrinks

/-- Something held is left inside, and the directory is not deleted. -/
theorem directory_false (hroots : roots.Perm (t.children root))
    (h : Attempted stuck t roots false t') : Attempted stuck t [root] false t' where
  ok_iff := by
    refine iff_of_false Bool.false_ne_true fun hall => Bool.false_ne_true (h.ok_iff.mpr ?_)
    rintro c hc ⟨u, hu, hu'⟩
    have hbelow := suffix_of_mem_children (hroots.mem_iff.mp hc)
    exact hall root (List.mem_singleton_self root) ⟨u, hbelow.trans hu, hu'⟩
  cleared := fun hok => absurd hok Bool.false_ne_true
  outside := by
    intro q hq
    refine h.outside q fun c hc hcq => hq root (List.mem_singleton_self root) ?_
    exact (suffix_of_mem_children (hroots.mem_iff.mp hc)).trans hcq
  shrinks := h.shrinks

/-- **A directory is deleted** when that of everything in it was successful. -/
theorem delete (hroots : roots.Perm (t.children root)) (hthere : t.kind root ≠ none)
    (h : Attempted stuck t roots true t') :
    Attempted stuck t [root] (t'.delete stuck root).1 (t'.delete stuck root).2 where
  ok_iff := by
    have hclear := h.cleared rfl
    rw [fst_delete, List.forall_mem_singleton]
    constructor
    · intro hdelete hheld
      exact not_deletable_of_held ((hclear.held_iff root).mpr hheld) hdelete
    · intro hheld
      have hkept : t'.kind root = t.kind root := by
        refine h.outside root fun c hc hsuffix => ?_
        obtain ⟨name, rfl⟩ := (mem_children.mp (hroots.mem_iff.mp hc)).1
        have hlength := hsuffix.length_le
        rw [List.length_cons] at hlength
        omega
      refine ⟨by rwa [hkept], hclear.children_eq_nil hroots hheld, ?_⟩
      by_contra hstuck
      exact hheld ⟨root, List.suffix_rfl, hthere, (Bool.not_eq_false _).mp hstuck⟩
  cleared := fun _ => (h.cleared rfl).delete hroots
  outside := by
    intro q hq
    have hne : q ≠ root := by
      rintro rfl
      exact hq q (List.mem_singleton_self q) List.suffix_rfl
    rw [kind_delete_of_ne hne]
    refine h.outside q fun c hc hcq => hq root (List.mem_singleton_self root) ?_
    exact (suffix_of_mem_children (hroots.mem_iff.mp hc)).trans hcq
  shrinks := h.shrinks.trans (shrinks_delete t' root)

end Attempted

/-- **The rule for the loop over what is in a directory** that stops at the first failure. -/
theorem exists_untilFailure {f : FileTree N → List N → Option (Bool × FileTree N)} {dir : List N}
    {roots : List (List N)} {t : FileTree N} (hnodup : roots.Nodup)
    (hroots : ∀ root ∈ roots, root ∈ t.children dir)
    (hturn : ∀ t' root, root ∈ roots → Shrinks t t' → t'.kind root ≠ none →
      ∃ ok t'', f t' root = some (ok, t'') ∧ Attempted stuck t' [root] ok t'') :
    ∃ ok t', untilFailure f roots t = some (ok, t') ∧ Attempted stuck t roots ok t' := by
  induction roots generalizing t with
  | nil => exact ⟨true, t, rfl, Attempted.nil⟩
  | cons root roots ih =>
    obtain ⟨hnew, hnodup⟩ := List.nodup_cons.mp hnodup
    obtain ⟨⟨name, hname⟩, hthere⟩ := mem_children.mp (hroots root List.mem_cons_self)
    obtain ⟨ok, t₁, hfirst, hattempt⟩ := hturn t root List.mem_cons_self (Shrinks.refl t) hthere
    cases ok with
    | false =>
      refine ⟨false, t₁, ?_, hattempt.cons_false roots⟩
      rw [untilFailure, hfirst]
      rfl
    | true =>
      -- the others are beside the one that is gone
      have hothers : ∀ r ∈ roots, r ∈ t₁.children dir := by
        intro r hr
        obtain ⟨⟨name', hname'⟩, hthere'⟩ := mem_children.mp (hroots r (List.mem_cons_of_mem _ hr))
        refine mem_children.mpr ⟨⟨name', hname'⟩, ?_⟩
        rwa [hattempt.outside r]
        intro c hc hsuffix
        rw [List.mem_singleton.mp hc] at hsuffix
        have hsame : root = r := hsuffix.eq_of_length (by rw [hname, hname']; rfl)
        exact hnew (hsame ▸ hr)
      obtain ⟨ok, t₂, hrest, hattempt'⟩ := ih hnodup hothers fun t' r hr hshrinks =>
        hturn t' r (List.mem_cons_of_mem _ hr) (hattempt.shrinks.trans hshrinks)
      refine ⟨ok, t₂, ?_, hattempt.cons_true hattempt'⟩
      rw [untilFailure, hfirst]
      exact hrest

/-! ## Height -/

/-- What is below `path` is less than `height` levels below it. -/
def Within (t : FileTree N) (path : List N) (height : Nat) : Prop :=
  ∀ q, path <:+ q → t.kind q ≠ none → q.length < path.length + height

theorem exists_within (t : FileTree N) (path : List N) : ∃ height, t.Within path height := by
  have hbound : ∀ paths : List (List N), ∃ n, ∀ q ∈ paths, q.length < n := by
    intro paths
    induction paths with
    | nil => exact ⟨0, fun q hq => absurd hq List.not_mem_nil⟩
    | cons p paths ih =>
      obtain ⟨n, hn⟩ := ih
      refine ⟨max n (p.length + 1), fun q hq => ?_⟩
      rcases List.mem_cons.mp hq with rfl | hq
      · exact Nat.lt_of_lt_of_le (Nat.lt_succ_self _) (Nat.le_max_right _ _)
      · exact Nat.lt_of_lt_of_le (hn q hq) (Nat.le_max_left _ _)
  obtain ⟨n, hn⟩ := hbound t.entries.keys
  exact ⟨n, fun q _ hq => Nat.lt_add_left _ (hn q (t.entries.mem_keys.mpr hq))⟩

theorem Within.mono {t t' : FileTree N} {path : List N} {height : Nat} (h : t.Within path height)
    (hshrinks : Shrinks t t') : t'.Within path height :=
  fun q hsuffix hq => h q hsuffix (hshrinks.ne_none hq)

/-- What is in a directory is one level less high. -/
theorem Within.child {t : FileTree N} {name : N} {path : List N} {height : Nat}
    (h : t.Within path (height + 1)) : t.Within (name :: path) height := by
  intro q hsuffix hq
  have hlt := h q ((List.suffix_cons name path).trans hsuffix) hq
  rw [List.length_cons]
  omega

/-- The order in which what is in a directory is listed. -/
structure Listing (N : Type*) [DecidableEq N] where
  listFiles : FileTree N → List N → List (List N)
  perm : ∀ t path, (listFiles t path).Perm (t.children path)

/-- The order of the entries. -/
def Listing.inOrder : Listing N := ⟨children, fun _ _ => List.Perm.refl _⟩

end FileTree

end PetDev
