import Mathlib.Data.List.Basic
import PetDev.Lib.Recursion

/-!
# Blocks that say how long they are

A scanner goes through a memory block by block: it takes a turn at the block it stands at, and
goes on by the size the block gives.  It stops where fewer cells are left than a block needs.
Reading past the end is a fault.

* `Block p`: a block begins at `p`, when the sizes are followed from the start on.
* `returns_iff`: when an invariant says on which blocks a turn succeeds, the scan comes to its
  end exactly when all blocks are good.
* `of_returns`: what the turns keep holds of the result.
-/

namespace PetDev

/-- `size p` and `turn p` read the memory at `p`; they are `none` after a fault. -/
structure Scanner (σ : Type*) where
  length : Nat
  least : Nat
  size : Nat → Option Nat
  turn : Nat → σ → Option σ
  outside : ∀ p, length ≤ p → size p = none

namespace Scanner

variable {σ : Type*} (S : Scanner σ)

/-- The scan from `p` on: `none` without fuel, and `some none` after a fault. -/
def scan : Nat → Nat → σ → Option (Option σ)
  | 0, _, _ => none
  | fuel + 1, p, s =>
    if p ≤ S.length ∧ S.length < p + S.least then some (some s)
    else
      match S.size p, S.turn p s with
      | some k, some s => scan fuel (p + k) s
      | _, _ => some none

/-- A block begins at the second place, when the sizes are followed from the first one on. -/
inductive BlockFrom : Nat → Nat → Prop
  | here {o : Nat} (h : o + S.least ≤ S.length) : BlockFrom o o
  | next {o p k : Nat} (h : o + S.least ≤ S.length) (hk : S.size o = some k)
      (hp : BlockFrom (o + k) p) : BlockFrom o p

def Block (p : Nat) : Prop := S.BlockFrom 0 p

variable {S} {p k : Nat} {s t : σ}

theorem BlockFrom.fits {o : Nat} (h : S.BlockFrom o p) : p + S.least ≤ S.length := by
  induction h with
  | here h => exact h
  | next _ _ _ ih => exact ih

theorem BlockFrom.le {o : Nat} (h : S.BlockFrom o p) : o ≤ p := by
  induction h with
  | here => exact Nat.le_refl _
  | next _ _ _ ih => omega

theorem BlockFrom.trans {o q : Nat} (h : S.BlockFrom o p) (hq : S.BlockFrom p q) :
    S.BlockFrom o q := by
  induction h with
  | here => exact hq
  | next h hk _ ih => exact .next h hk (ih hq)

/-- Of two blocks one comes after the other. -/
theorem BlockFrom.total {o q : Nat} (h : S.BlockFrom o p) (hq : S.BlockFrom o q) :
    S.BlockFrom p q ∨ S.BlockFrom q p := by
  induction h with
  | here => exact Or.inl hq
  | next h hk hp ih =>
    cases hq with
    | here => exact Or.inr (.next h hk hp)
    | next _ hk' hq =>
      rw [hk, Option.some.injEq] at hk'
      subst hk'
      exact ih hq

/-- No block begins inside another one. -/
theorem Block.le_of_lt {q : Nat} (h : S.Block p) (hk : S.size p = some k) (hq : S.Block q)
    (hlt : q < p + k) : q ≤ p := by
  rcases BlockFrom.total h hq with hpq | hqp
  · cases hpq with
    | here => exact Nat.le_refl _
    | next _ hk' hpq =>
      rw [hk, Option.some.injEq] at hk'
      subst hk'
      exact absurd hpq.le (by omega)
  · exact hqp.le

/-! ## One turn -/

theorem scan_stop (fuel : Nat) (h : p ≤ S.length) (hless : S.length < p + S.least) :
    S.scan (fuel + 1) p s = some (some s) := if_pos ⟨h, hless⟩

theorem scan_next {fuel : Nat} (h : p + S.least ≤ S.length) (hk : S.size p = some k)
    (ht : S.turn p s = some t) : S.scan (fuel + 1) p s = S.scan fuel (p + k) t := by
  rw [scan, if_neg (by omega), hk, ht]

/-- A scan that ends has stopped, or has taken its turn. -/
theorem scan_cases {fuel : Nat} (h : S.scan (fuel + 1) p s = some (some t)) :
    p ≤ S.length ∧ S.length < p + S.least ∧ t = s ∨
      p + S.least ≤ S.length ∧ ∃ k s', S.size p = some k ∧ S.turn p s = some s' ∧
        S.scan fuel (p + k) s' = some (some t) := by
  rw [scan] at h
  split_ifs at h with hstop
  · exact Or.inl ⟨hstop.1, hstop.2, (Option.some.inj (Option.some.inj h)).symm⟩
  · split at h
    · rename_i k s' hk ht
      have hp : p < S.length := by
        by_contra hp
        rw [S.outside p (by omega)] at hk
        exact Option.some_ne_none k hk.symm
      exact Or.inr ⟨by omega, k, s', hk, ht, h⟩
    · cases h

theorem scan_extends (fuel : Nat) :
    Extends (fun x : Nat × σ => S.scan fuel x.1 x.2) (fun x => S.scan (fuel + 1) x.1 x.2) := by
  induction fuel with
  | zero => nofun
  | succ fuel ih =>
    rintro ⟨p, s⟩ r h
    simp only at h ⊢
    rw [scan] at h ⊢
    split_ifs at h ⊢ with hstop
    · exact h
    · split at h
      · rename_i k s' _ _
        exact ih (p + k, s') r h
      · exact h

theorem returns_of_scan {fuel : Nat} {r : Option σ} (h : S.scan fuel p s = some r) :
    Returns (fun fuel => S.scan fuel p s) r :=
  Returns.of_extends (s := (p, s)) scan_extends h

theorem returns_stop (h : p ≤ S.length) (hless : S.length < p + S.least) :
    Returns (fun fuel => S.scan fuel p s) (some s) :=
  returns_of_scan (scan_stop 0 h hless)

theorem returns_next {r : Option σ} (h : p + S.least ≤ S.length) (hk : S.size p = some k)
    (ht : S.turn p s = some t) (hr : Returns (fun fuel => S.scan fuel (p + k) t) r) :
    Returns (fun fuel => S.scan fuel p s) r := by
  obtain ⟨bound, hr⟩ := hr
  have hscan : S.scan (bound + 1) p s = some r := by
    rw [scan_next h hk ht]
    exact hr bound (Nat.le_refl bound)
  exact returns_of_scan hscan

/-! ## Scans that do not end -/

/-- A scan that stands past the end is a fault. -/
theorem not_scan_outside {fuel : Nat} (h : S.length < p) : S.scan fuel p s ≠ some (some t) := by
  intro hscan
  cases fuel with
  | zero => cases hscan
  | succ fuel =>
    rcases scan_cases hscan with ⟨hp, -⟩ | ⟨hp, -⟩
    · omega
    · omega

/-- A block without a size is never left. -/
theorem size_pos {fuel : Nat} (h : p + S.least ≤ S.length) (hk : S.size p = some k)
    (hscan : S.scan fuel p s = some (some t)) : 0 < k := by
  induction fuel generalizing s with
  | zero => cases hscan
  | succ fuel ih =>
    rcases scan_cases hscan with ⟨-, hless, -⟩ | ⟨-, k', s', hk', -, hrest⟩
    · omega
    · obtain rfl : k = k' := Option.some.inj (hk.symm.trans hk')
      by_contra hzero
      obtain rfl : k = 0 := by omega
      exact hzero (ih hrest)

/-! ## The rules -/

variable {I : Nat → σ → Prop}

/-- **What the turns keep holds of the result.** -/
theorem of_returns (h0 : I 0 s) (hkeep : ∀ p s k t, I p s → S.Block p → S.size p = some k →
      0 < k → S.turn p s = some t → I (p + k) t)
    (h : Returns (fun fuel => S.scan fuel 0 s) (some t)) : ∃ p, I p t := by
  obtain ⟨fuel, h⟩ := h
  have hscan := h fuel (Nat.le_refl fuel)
  have hall : ∀ q, S.BlockFrom 0 q → S.Block q := fun q hq => hq
  clear h
  generalize 0 = o at h0 hscan hall
  induction fuel generalizing o s with
  | zero => cases hscan
  | succ fuel ih =>
    rcases scan_cases hscan with ⟨-, -, rfl⟩ | ⟨hp, k, s', hk, ht, hrest⟩
    · exact ⟨o, h0⟩
    · have hpos := size_pos hp hk hscan
      exact ih (o + k) (hkeep o s k s' h0 (hall o (.here hp)) hk hpos ht) hrest
        fun q hq => hall q (.next hp hk hq)

/-- **The exact rule for scans.** -/
theorem returns_iff {Good : Nat → Prop} (h0 : I 0 s)
    (hgood : ∀ p s, I p s → S.Block p → (Good p ↔
      S.turn p s ≠ none ∧ ∃ k, S.size p = some k ∧ 0 < k ∧ p + k ≤ S.length))
    (hkeep : ∀ p s k t, I p s → S.Block p → S.size p = some k → 0 < k →
      S.turn p s = some t → I (p + k) t) :
    (∃ t, Returns (fun fuel => S.scan fuel 0 s) (some t)) ↔ ∀ p, S.Block p → Good p := by
  constructor
  · rintro ⟨t, fuel, h⟩
    have hscan := h fuel (Nat.le_refl fuel)
    have hall : ∀ q, S.BlockFrom 0 q → S.Block q := fun q hq => hq
    clear h
    suffices hfrom : ∀ q, S.BlockFrom 0 q → Good q from hfrom
    generalize 0 = o at h0 hscan hall ⊢
    induction fuel generalizing o s with
    | zero => cases hscan
    | succ fuel ih =>
      rcases scan_cases hscan with ⟨-, hless, -⟩ | ⟨hp, k, s', hk, ht, hrest⟩
      · intro q hq
        have hfits := hq.fits
        have hle := hq.le
        omega
      · have hblock := hall o (.here hp)
        have hpos := size_pos hp hk hscan
        have hinside : o + k ≤ S.length := by
          by_contra hout
          exact not_scan_outside (by omega) hrest
        intro q hq
        cases hq with
        | here =>
          refine (hgood o s h0 hblock).mpr ⟨?_, k, hk, hpos, hinside⟩
          rw [ht]
          exact Option.some_ne_none s'
        | next _ hk' hq =>
          rw [hk, Option.some.injEq] at hk'
          subst hk'
          exact ih (o + k) (hkeep o s k s' h0 hblock hk hpos ht) hrest
            (fun q hq => hall q (.next hp hk hq)) q hq
  · intro h
    have hall : ∀ q, S.BlockFrom 0 q → S.Block q := fun q hq => hq
    have hle : 0 ≤ S.length := Nat.zero_le _
    generalize 0 = o at h0 hall hle ⊢
    induction hn : S.length - o using Nat.strongRecOn generalizing o s with
    | ind n ih =>
      by_cases hp : o + S.least ≤ S.length
      · have hblock := hall o (.here hp)
        obtain ⟨hturn, k, hk, hpos, hinside⟩ := (hgood o s h0 hblock).mp (h o hblock)
        obtain ⟨s', ht⟩ := Option.ne_none_iff_exists'.mp hturn
        obtain ⟨t, hreturns⟩ := ih (S.length - (o + k)) (by omega) (o + k)
          (hkeep o s k s' h0 hblock hk hpos ht) (fun q hq => hall q (.next hp hk hq)) hinside rfl
        exact ⟨t, returns_next hp hk ht hreturns⟩
      · exact ⟨s, returns_stop hle (by omega)⟩

end Scanner

end PetDev
