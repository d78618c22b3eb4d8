import PetDev.Java.File
import PetDev.Lib.Recursion

/-!
# `DataClearUtil`

The two deleters of `DataClearUtil`: `deleteFileByDirectory` goes on when a deletion fails, and
`deleteDir(File)` stops and says so.

`deleters_spec`: whatever the tree, the order in which directories are listed and the entries whose
deletion fails, both come back.  The first one leaves of a directory just what is stuck or has
something stuck below it.  The second one answers `true` just when there is nothing stuck, and then
everything is gone.  Neither of them touches what is outside.

The inductions are on the number of calls inside each other, which the height of the tree bounds.
-/

namespace PetDev.Files.DataClearUtil

open FileTree Java

variable (listing : Listing String) (stuck : File → Bool)

/-- `deleteFileByDirectory(cacheDir)`, with at most `fuel` calls inside each other. -/
def deleteFileByDirectory : Nat → FileTree String → File → Option (FileTree String)
  | 0, _, _ => none
  | fuel + 1, t, cacheDir =>
    if ¬ fileExists t cacheDir then some t
    else
      let cleaned :=
        if isDirectory t cacheDir then
          (listing.listFiles t cacheDir).foldlM (fun t file =>
            if isDirectory t file then deleteFileByDirectory fuel t file
            else some (t.delete stuck file).2) t
        else some t
      cleaned.map fun t => (t.delete stuck cacheDir).2

/-- `deleteDir(dir)`, with at most `fuel` calls inside each other. -/
def deleteDir : Nat → FileTree String → File → Option (Bool × FileTree String)
  | 0, _, _ => none
  | fuel + 1, t, dir =>
    -- `dir == null && !dir.exists()` is false for every `dir`
    let emptied :=
      if isDirectory t dir then untilFailure (deleteDir fuel) (listing.listFiles t dir) t
      else some (true, t)
    emptied.map fun r => if r.1 then r.2.delete stuck dir else (false, r.2)

variable {listing stuck}

/-! ## A deeper bound changes nothing -/

theorem deleteFileByDirectory_extends (fuel : Nat) (file : File) :
    Extends (fun t => deleteFileByDirectory listing stuck fuel t file)
      (fun t => deleteFileByDirectory listing stuck (fuel + 1) t file) := by
  induction fuel generalizing file with
  | zero => exact fun t t' h => absurd h.symm (Option.some_ne_none t')
  | succ fuel ih =>
    intro t t' h
    simp only at h ⊢
    rw [deleteFileByDirectory] at h ⊢
    by_cases hthere : fileExists t file = true
    · rw [if_neg (not_not_intro hthere)] at h ⊢
      by_cases hdir : isDirectory t file = true
      · simp only [if_pos hdir] at h ⊢
        obtain ⟨t₁, hloop, rfl⟩ := Option.map_eq_some_iff.mp h
        refine Option.map_eq_some_iff.mpr ⟨t₁, foldlM_extends ?_ _ t t₁ hloop, rfl⟩
        intro c t t' hturn
        simp only at hturn ⊢
        by_cases hsub : isDirectory t c = true
        · rw [if_pos hsub] at hturn ⊢
          exact ih c t t' hturn
        · rw [if_neg hsub] at hturn ⊢
          exact hturn
      · simp only [if_neg hdir] at h ⊢
        exact h
    · rw [if_pos hthere] at h ⊢
      exact h

theorem deleteDir_extends (fuel : Nat) (file : File) :
    Extends (fun t => deleteDir listing stuck fuel t file)
      (fun t => deleteDir listing stuck (fuel + 1) t file) := by
  induction fuel generalizing file with
  | zero => exact fun t r h => absurd h.symm (Option.some_ne_none r)
  | succ fuel ih =>
    intro t r h
    simp only at h ⊢
    rw [deleteDir] at h ⊢
    by_cases hdir : isDirectory t file = true
    · simp only [if_pos hdir] at h ⊢
      obtain ⟨r₁, hloop, rfl⟩ := Option.map_eq_some_iff.mp h
      exact Option.map_eq_some_iff.mpr ⟨r₁, untilFailure_extends ih _ t r₁ hloop, rfl⟩
    · simp only [if_neg hdir] at h ⊢
      exact h

/-! ## What they do -/

/-- **`deleteFileByDirectory` clears a file or a directory**: with enough calls for its height, all
of it but what is held is gone. -/
theorem exists_deleteFileByDirectory {fuel : Nat} {t : FileTree String} {file : File}
    (hthere : t.kind file ≠ none) (hwithin : t.Within file fuel) :
    ∃ t', deleteFileByDirectory listing stuck fuel t file = some t' ∧ Cleared stuck t file t' := by
  induction fuel generalizing t file with
  | zero => exact absurd (hwithin file List.suffix_rfl hthere) (Nat.lt_irrefl _)
  | succ fuel ih =>
    rw [deleteFileByDirectory, if_neg (not_not_intro (fileExists_iff.mpr hthere))]
    by_cases hdir : t.kind file = some .directory
    · have hturn : ∀ t' c, c ∈ listing.listFiles t file → Shrinks t t' →
          ∃ t'', (if isDirectory t' c then deleteFileByDirectory listing stuck fuel t' c
            else some (t'.delete stuck c).2) = some t'' ∧ Cleared stuck t' c t'' := by
        intro t' c hc hshrinks
        obtain ⟨name, rfl⟩ := (mem_children.mp ((listing.perm t file).mem_iff.mp hc)).1
        by_cases hsub : t'.kind (name :: file) = some .directory
        · rw [if_pos (isDirectory_iff.mpr hsub)]
          exact ih (ne_none_of_kind hsub) (hwithin.child.mono hshrinks)
        · rw [if_neg fun h => hsub (isDirectory_iff.mp h)]
          exact ⟨_, rfl, cleared_delete hsub⟩
      obtain ⟨t₁, hloop, hclear⟩ := exists_foldlM_clearedAll hturn
      refine ⟨(t₁.delete stuck file).2, ?_, hclear.delete (listing.perm t file)⟩
      rw [if_pos (isDirectory_iff.mpr hdir)]
      exact Option.map_eq_some_iff.mpr ⟨t₁, hloop, rfl⟩
    · refine ⟨(t.delete stuck file).2, ?_, cleared_delete hdir⟩
      rw [if_neg fun h => hdir (isDirectory_iff.mp h)]
      rfl

/-- **`deleteDir` deletes a file or a directory, or says that it has failed.** -/
theorem exists_deleteDir {fuel : Nat} {t : FileTree String} {file : File}
    (hthere : t.kind file ≠ none) (hwithin : t.Within file fuel) :
    ∃ ok t', deleteDir listing stuck fuel t file = some (ok, t') ∧
      Attempted stuck t [file] ok t' := by
  induction fuel generalizing t file with
  | zero => exact absurd (hwithin file List.suffix_rfl hthere) (Nat.lt_irrefl _)
  | succ fuel ih =>
    rw [deleteDir]
    by_cases hdir : t.kind file = some .directory
    · have hturn : ∀ t' c, c ∈ listing.listFiles t file → Shrinks t t' → t'.kind c ≠ none →
          ∃ ok t'', deleteDir listing stuck fuel t' c = some (ok, t'') ∧
            Attempted stuck t' [c] ok t'' := by
        intro t' c hc hshrinks hthere'
        obtain ⟨name, rfl⟩ := (mem_children.mp ((listing.perm t file).mem_iff.mp hc)).1
        exact ih hthere' (hwithin.child.mono hshrinks)
      have hperm := listing.perm t file
      obtain ⟨ok, t₁, hloop, hattempt⟩ := exists_untilFailure
        (hperm.nodup_iff.mpr (nodup_children t file)) (fun _ => hperm.mem_iff.mp) hturn
      rw [if_pos (isDirectory_iff.mpr hdir), hloop]
      cases ok with
      | false => exact ⟨false, t₁, rfl, hattempt.directory_false hperm⟩
      | true => exact ⟨_, _, rfl, hattempt.delete hperm hthere⟩
    · rw [if_neg fun h => hdir (isDirectory_iff.mp h)]
      have hnil : t.children file = [] := children_eq_nil_of_kind hdir
      have hattempt : Attempted stuck t [] true t := Attempted.nil
      exact ⟨_, _, rfl, hattempt.delete (by rw [hnil]) hthere⟩

/-- **What the two deleters do** with a directory. -/
theorem deleters_spec (listing : Listing String) (stuck : File → Bool) (t : FileTree String)
    (d : File) (hd : t.kind d = some .directory) :
    (∃ t', Returns (fun fuel => deleteFileByDirectory listing stuck fuel t d) t' ∧
      (∀ q, d <:+ q → ¬ t.Held stuck q → t'.kind q = none) ∧
      (∀ q, d <:+ q → t.Held stuck q → t'.kind q = t.kind q) ∧
      ∀ q, ¬ d <:+ q → t'.kind q = t.kind q) ∧
    ∃ ok t', Returns (fun fuel => deleteDir listing stuck fuel t d) (ok, t') ∧
      (ok = true ↔ ∀ q, d <:+ q → t.kind q ≠ none → stuck q = false) ∧
      (ok = true → ∀ q, d <:+ q → t'.kind q = none) ∧
      ∀ q, ¬ d <:+ q → t'.kind q = t.kind q := by
  have hthere : t.kind d ≠ none := ne_none_of_kind hd
  obtain ⟨height, hheight⟩ := t.exists_within d
  constructor
  · obtain ⟨t', ht', hclear⟩ := exists_deleteFileByDirectory hthere hheight
    refine ⟨t', Returns.of_extends (fun fuel => deleteFileByDirectory_extends fuel d) ht',
      fun q hq => hclear.gone q ⟨d, List.mem_singleton_self d, hq⟩,
      fun q _ hheld => hclear.kept q fun _ _ _ => hheld, fun q hq => hclear.kept q ?_⟩
    intro r hr hsuffix
    rw [List.mem_singleton.mp hr] at hsuffix
    exact absurd hsuffix hq
  · obtain ⟨ok, t', ht', hattempt⟩ := exists_deleteDir hthere hheight
    have hheld : ¬ t.Held stuck d ↔ ∀ q, d <:+ q → t.kind q ≠ none → stuck q = false := by
      simp [Held]
    refine ⟨ok, t', Returns.of_extends (fun fuel => deleteDir_extends fuel d) ht', ?_, ?_, ?_⟩
    · rw [hattempt.ok_iff, List.forall_mem_singleton, hheld]
    · intro hok q hq
      refine (hattempt.cleared hok).gone q ⟨d, List.mem_singleton_self d, hq⟩ ?_
      rintro ⟨u, hu, hu'⟩
      exact hattempt.ok_iff.mp hok d (List.mem_singleton_self d) ⟨u, hq.trans hu, hu'⟩
    · intro q hq
      exact hattempt.outside q fun r hr => by rwa [List.mem_singleton.mp hr]

/-- A storage with a directory `cache`, in which there are a file `a` and a directory `b` with a
file `c`. -/
def cache : FileTree String :=
  let top : FileTree String := root.create "cache" [] .directory
  let a := top.create "a" ["cache"] .file
  let b := a.create "b" ["cache"] .directory
  b.create "c" ["b", "cache"] .file

/-- The file `a` is stuck, so that the directory stays with it. -/
theorem deleters_spec_cache :
    cache.kind ["cache"] = some .directory ∧
      (∃ t', Returns (fun fuel => deleteFileByDirectory Listing.inOrder
          (fun file => file = ["a", "cache"]) fuel cache ["cache"]) t' ∧
        t'.kind ["cache"] = some .directory ∧ t'.kind ["a", "cache"] = some .file ∧
        t'.kind ["c", "b", "cache"] = none) ∧
      ∃ t', Returns (fun fuel => deleteDir Listing.inOrder (fun file => file = ["a", "cache"]) fuel
        cache ["cache"]) (false, t') := by
  have hdir : cache.kind ["cache"] = some .directory := by decide +kernel
  have hthere : cache.kind ["a", "cache"] ≠ none := by decide +kernel
  obtain ⟨⟨t₁, hrun₁, hgone, hkept, -⟩, ok, t₂, hrun₂, hok, -⟩ := deleters_spec Listing.inOrder
    (fun file => file = ["a", "cache"]) cache ["cache"] hdir
  refine ⟨hdir, ⟨t₁, hrun₁, ?_, ?_, ?_⟩, t₂, ?_⟩
  · rw [hkept ["cache"] List.suffix_rfl ⟨["a", "cache"], by decide +kernel, hthere, rfl⟩, hdir]
  · rw [hkept ["a", "cache"] (by decide +kernel) ⟨_, List.suffix_rfl, hthere, rfl⟩]
    decide +kernel
  · refine hgone ["c", "b", "cache"] (by decide +kernel) ?_
    rintro ⟨u, hu, -, hstuck⟩
    rw [of_decide_eq_true hstuck] at hu
    exact absurd hu (by decide +kernel)
  · cases ok with
    | false => exact hrun₂
    | true => exact absurd (hok.mp rfl ["a", "cache"] (by decide +kernel) hthere) (by simp)

end PetDev.Files.DataClearUtil
