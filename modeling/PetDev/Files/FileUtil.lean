import PetDev.Java.File
import PetDev.Lib.Recursion
import Mathlib.Logic.Relation

/-!
# `FileUtil.deleteDir`

`FileUtil` has two methods that delete a directory with what is in it: `deleteDir(String)`, and
`deleteDir()` for `SDPATH`.  Where they find a directory inside, both call `deleteDir()`, which
begins with `SDPATH` again.

* `terminates_iff`: `deleteDir()` comes back only when there is no directory in `SDPATH`.  With one
  there, each call makes another one on a tree that still has it.
* `removesExactly_iff`: `deleteDir(path)` removes what is at `path` and below it, and nothing else,
  only when there is no directory below `path`, `SDPATH` itself apart.

The storage is a `FileTree`.  The order in which a directory is listed is arbitrary, and so are the
entries whose deletion fails.
-/

namespace PetDev.Files

open FileTree Java

namespace FileUtil

variable (storage : File) (listing : Listing String) (stuck : File → Bool)

/-- `storage` is `Environment.getExternalStorageDirectory()`. -/
def SDPATH : File := "moment" :: "punuo" :: storage

def TEMP_PATH : File := "temp" :: "punuo" :: storage

/-- One turn of the loop that both methods have; `recurse` is the call for a directory. -/
def deleteEntry (recurse : FileTree String → Option (FileTree String)) (t : FileTree String)
    (file : File) : Option (FileTree String) :=
  if isFile t file then some (t.delete stuck file).2
  else if isDirectory t file then recurse t
  else some t

/-- The body that both methods have. -/
def deleteAll (recurse : FileTree String → Option (FileTree String)) (dir : File)
    (t : FileTree String) : Option (FileTree String) :=
  if ¬ fileExists t dir ∨ ¬ isDirectory t dir then some t
  else ((listing.listFiles t dir).foldlM (deleteEntry stuck recurse) t).map fun t =>
    (t.delete stuck dir).2

/-- `deleteDir()`, with at most `fuel` calls inside each other. -/
def deleteDir : Nat → FileTree String → Option (FileTree String)
  | 0, _ => none
  | fuel + 1, t => deleteAll listing stuck (deleteDir fuel) (SDPATH storage) t

/-- `deleteDir(path)`.  It is `deleteDir()` that is called for a directory. -/
def deleteDirPath (path : File) (fuel : Nat) (t : FileTree String) : Option (FileTree String) :=
  deleteAll listing stuck (deleteDir storage listing stuck fuel) path t

def deleteTempDir (fuel : Nat) (t : FileTree String) : Option (FileTree String) :=
  deleteDirPath storage listing stuck (TEMP_PATH storage) fuel t

variable {storage listing stuck}

/-! ## The loop -/

theorem deleteEntry_of_absent {recurse : FileTree String → Option (FileTree String)}
    {t : FileTree String} {file : File} (h : t.kind file = none) :
    deleteEntry stuck recurse t file = some t := by
  simp [deleteEntry, h]

theorem deleteEntry_of_file {recurse : FileTree String → Option (FileTree String)}
    {t : FileTree String} {file : File} (h : t.kind file = some .file) :
    deleteEntry stuck recurse t file = some (t.delete stuck file).2 := by
  simp [deleteEntry, h]

theorem deleteEntry_of_directory {recurse : FileTree String → Option (FileTree String)}
    {t : FileTree String} {file : File} (h : t.kind file = some .directory) :
    deleteEntry stuck recurse t file = recurse t := by
  simp [deleteEntry, h]

/-- The rule for a turn of the loop: it keeps what the deletion of a file keeps and the call. -/
theorem deleteEntry_preserves {recurse : FileTree String → Option (FileTree String)}
    (P : FileTree String → Prop) (hdelete : ∀ t file, isFile t file → P t →
      P (t.delete stuck file).2)
    (hrec : ∀ t t', P t → recurse t = some t' → P t') {t t' : FileTree String} {file : File}
    (ht : P t) (h : deleteEntry stuck recurse t file = some t') : P t' := by
  cases hkind : t.kind file with
  | none =>
    rw [deleteEntry_of_absent hkind] at h
    exact Option.some.inj h ▸ ht
  | some kind =>
    cases kind with
    | file =>
      rw [deleteEntry_of_file hkind] at h
      exact Option.some.inj h ▸ hdelete t file (isFile_iff.mpr hkind) ht
    | directory =>
      rw [deleteEntry_of_directory hkind] at h
      exact hrec t t' ht h

theorem deleteAll_of_not {recurse : FileTree String → Option (FileTree String)} {dir : File}
    {t : FileTree String} (h : t.kind dir ≠ some .directory) :
    deleteAll listing stuck recurse dir t = some t :=
  if_pos (Or.inr fun hdir => h (isDirectory_iff.mp hdir))

theorem deleteAll_of_directory {recurse : FileTree String → Option (FileTree String)} {dir : File}
    {t : FileTree String} (h : t.kind dir = some .directory) :
    deleteAll listing stuck recurse dir t =
      ((listing.listFiles t dir).foldlM (deleteEntry stuck recurse) t).map fun t =>
        (t.delete stuck dir).2 :=
  if_neg (by simp [h])

theorem deleteAll_extends {f g : FileTree String → Option (FileTree String)} (h : Extends f g)
    (dir : File) : Extends (deleteAll listing stuck f dir) (deleteAll listing stuck g dir) := by
  intro t t' ht
  by_cases hdir : t.kind dir = some .directory
  · rw [deleteAll_of_directory hdir] at ht ⊢
    obtain ⟨t₁, hloop, rfl⟩ := Option.map_eq_some_iff.mp ht
    have hturn : ∀ file, Extends (fun t => deleteEntry stuck f t file)
        (fun t => deleteEntry stuck g t file) := by
      intro file t t' ht
      simp only at ht ⊢
      cases hkind : t.kind file with
      | none => rwa [deleteEntry_of_absent hkind] at ht ⊢
      | some kind =>
        cases kind with
        | file => rwa [deleteEntry_of_file hkind] at ht ⊢
        | directory =>
          rw [deleteEntry_of_directory hkind] at ht ⊢
          exact h t t' ht
    have hloop' : (listing.listFiles t dir).foldlM (deleteEntry stuck g) t = some t₁ :=
      foldlM_extends hturn _ t t₁ hloop
    rw [hloop']
    rfl
  · rw [deleteAll_of_not hdir] at ht ⊢
    exact ht

theorem deleteDir_extends (fuel : Nat) : Extends (deleteDir storage listing stuck fuel)
    (deleteDir storage listing stuck (fuel + 1)) := by
  induction fuel with
  | zero => exact fun t t' h => absurd h.symm (Option.some_ne_none t')
  | succ fuel ih => exact deleteAll_extends ih (SDPATH storage)

/-! ## What stays -/

/-- **The rule for both methods**: they keep what the deletion of a file keeps, that of the
directory, and the call for a directory inside. -/
theorem deleteAll_preserves {recurse : FileTree String → Option (FileTree String)} {dir : File}
    (P : FileTree String → Prop)
    (hdelete : ∀ t file, isFile t file ∨ file = dir → P t → P (t.delete stuck file).2)
    (hrec : ∀ t t', P t → recurse t = some t' → P t') {t t' : FileTree String} (ht : P t)
    (h : deleteAll listing stuck recurse dir t = some t') : P t' := by
  by_cases hdir : t.kind dir = some .directory
  · rw [deleteAll_of_directory hdir] at h
    obtain ⟨t₁, hloop, rfl⟩ := Option.map_eq_some_iff.mp h
    refine hdelete t₁ dir (Or.inr rfl) (foldlM_preserves P ?_ ht hloop)
    intro t file t' _ ht hturn
    exact deleteEntry_preserves P (fun t c hc => hdelete t c (Or.inl hc)) hrec ht hturn
  · rw [deleteAll_of_not hdir] at h
    obtain rfl := Option.some.inj h
    exact ht

theorem deleteDir_preserves (P : FileTree String → Prop)
    (hdelete : ∀ t file, isFile t file ∨ file = SDPATH storage → P t → P (t.delete stuck file).2)
    {fuel : Nat} {t t' : FileTree String} (ht : P t)
    (h : deleteDir storage listing stuck fuel t = some t') : P t' := by
  induction fuel generalizing t t' with
  | zero => exact absurd h.symm (Option.some_ne_none t')
  | succ fuel ih => exact deleteAll_preserves P hdelete (fun _ _ => ih) ht h

theorem keeps_delete {t : FileTree String} {file dir q : File} (h : isFile t file ∨ file = dir)
    (hne : q ≠ dir) (hq : t.kind q = some .directory) :
    (t.delete stuck file).2.kind q = some .directory := by
  rw [kind_delete_of_ne, hq]
  rintro rfl
  rcases h with hfile | rfl
  · simp [hq] at hfile
  · exact hne rfl

/-- A directory that is not `SDPATH` stays. -/
theorem deleteDir_keeps {fuel : Nat} {t t' : FileTree String} {q : File} (hne : q ≠ SDPATH storage)
    (hq : t.kind q = some .directory) (h : deleteDir storage listing stuck fuel t = some t') :
    t'.kind q = some .directory :=
  deleteDir_preserves (fun t => t.kind q = some .directory)
    (fun _ _ hfile hq => keeps_delete hfile hne hq) hq h

theorem deleteDir_shrinks {fuel : Nat} {t t' : FileTree String}
    (h : deleteDir storage listing stuck fuel t = some t') : Shrinks t t' :=
  deleteDir_preserves (Shrinks t) (fun t' file _ ht => ht.trans (shrinks_delete t' file))
    (Shrinks.refl t) h

/-- A directory that is neither `SDPATH` nor the one to delete stays. -/
theorem deleteDirPath_keeps {path : File} {fuel : Nat} {t t' : FileTree String} {q : File}
    (hne : q ≠ SDPATH storage) (hpath : q ≠ path) (hq : t.kind q = some .directory)
    (h : deleteDirPath storage listing stuck path fuel t = some t') :
    t'.kind q = some .directory :=
  deleteAll_preserves (fun t => t.kind q = some .directory)
    (fun _ _ hfile hq => keeps_delete hfile hpath hq) (fun _ _ => deleteDir_keeps hne) hq h

/-! ## What goes -/

/-- **A directory is cleared** when the call for a directory inside clears that directory. -/
theorem exists_deleteAll {recurse : FileTree String → Option (FileTree String)} {dir : File}
    {t : FileTree String} (hdir : t.kind dir = some .directory)
    (hrec : ∀ t' c, c ∈ t.children dir → Shrinks t t' → t'.kind c = some .directory →
      ∃ t'', recurse t' = some t'' ∧ Cleared stuck t' c t'') :
    ∃ t', deleteAll listing stuck recurse dir t = some t' ∧ Cleared stuck t dir t' := by
  have hturn : ∀ t' c, c ∈ listing.listFiles t dir → Shrinks t t' →
      ∃ t'', deleteEntry stuck recurse t' c = some t'' ∧ Cleared stuck t' c t'' := by
    intro t' c hc hshrinks
    cases hkind : t'.kind c with
    | none => exact ⟨t', deleteEntry_of_absent hkind, cleared_of_absent hkind⟩
    | some kind =>
      cases kind with
      | file => exact ⟨_, deleteEntry_of_file hkind, cleared_delete (by rw [hkind]; decide)⟩
      | directory =>
        rw [deleteEntry_of_directory hkind]
        exact hrec t' c ((listing.perm t dir).mem_iff.mp hc) hshrinks hkind
  obtain ⟨t₁, hloop, hclear⟩ := exists_foldlM_clearedAll hturn
  refine ⟨(t₁.delete stuck dir).2, ?_, hclear.delete (listing.perm t dir)⟩
  rw [deleteAll_of_directory hdir, hloop]
  rfl

/-- `deleteDir()` clears `SDPATH` when there is no directory in it. -/
theorem exists_deleteDir {t : FileTree String} (hdir : t.kind (SDPATH storage) = some .directory)
    (hflat : ¬ t.HasSubdirectory (SDPATH storage)) (fuel : Nat) :
    ∃ t', deleteDir storage listing stuck (fuel + 1) t = some t' ∧
      Cleared stuck t (SDPATH storage) t' :=
  exists_deleteAll hdir fun _ c hc hshrinks hkind =>
    absurd ⟨c, hc, hshrinks.eq_some hkind⟩ hflat

/-! ## Coming back -/

/-- A loop that comes to a directory calls `deleteDir()` there, so it has no result when that call
has none. -/
theorem foldlM_deleteEntry_eq_none {recurse : FileTree String → Option (FileTree String)}
    {files : List File} {c : File} (hc : c ∈ files) {t : FileTree String}
    (hdir : t.kind c = some .directory)
    (hrec : ∀ t, t.kind c = some .directory → recurse t = none) :
    files.foldlM (deleteEntry stuck recurse) t = none := by
  induction files generalizing t with
  | nil => exact absurd hc List.not_mem_nil
  | cons file files ih =>
    rw [List.foldlM_cons]
    cases hkind : t.kind file with
    | none =>
      have hne : c ≠ file := by
        rintro rfl
        rw [hdir] at hkind
        exact absurd hkind (Option.some_ne_none _)
      rw [deleteEntry_of_absent hkind]
      exact ih ((List.mem_cons.mp hc).resolve_left hne) hdir
    | some kind =>
      cases kind with
      | file =>
        have hne : c ≠ file := by
          rintro rfl
          rw [hdir] at hkind
          exact absurd hkind (by decide)
        rw [deleteEntry_of_file hkind]
        refine ih ((List.mem_cons.mp hc).resolve_left hne) ?_
        rw [kind_delete_of_ne hne, hdir]
      | directory =>
        rw [deleteEntry_of_directory hkind, hrec t hdir]
        rfl

/-- **With a directory in `SDPATH`** no bound on the calls is enough: the call for that directory
is made on a tree that has it, too. -/
theorem deleteDir_eq_none {t : FileTree String} (h : t.HasSubdirectory (SDPATH storage))
    (fuel : Nat) : deleteDir storage listing stuck fuel t = none := by
  induction fuel generalizing t with
  | zero => rfl
  | succ fuel ih =>
    obtain ⟨c, hc, hdir⟩ := h
    obtain ⟨name, rfl⟩ := (mem_children.mp hc).1
    have hSDPATH : t.kind (SDPATH storage) = some .directory := t.parent hdir
    have hmem := (listing.perm t (SDPATH storage)).mem_iff.mpr hc
    show deleteAll listing stuck _ _ t = none
    rw [deleteAll_of_directory hSDPATH, foldlM_deleteEntry_eq_none hmem hdir]
    · rfl
    · intro t' hdir'
      exact ih (hasSubdirectory_of_kind hdir')

variable (storage listing stuck)

/-- `deleteDir()` comes back. -/
def Terminates (t : FileTree String) : Prop :=
  ∃ t', Returns (fun fuel => deleteDir storage listing stuck fuel t) t'

/-- A call of `deleteDir()` on `t` calls itself on `t'`, when it comes to a directory. -/
def RecursiveCall (t t' : FileTree String) : Prop :=
  isDirectory t (SDPATH storage) ∧ ∃ fuel before file after,
    listing.listFiles t (SDPATH storage) = before ++ file :: after ∧
      before.foldlM (deleteEntry stuck (deleteDir storage listing stuck fuel)) t = some t' ∧
      ¬ isFile t' file ∧ isDirectory t' file

/-- Every recursive call in a run works on a strictly smaller tree. -/
def CallsShrink (t : FileTree String) : Prop :=
  ∀ t₁ t₂, Relation.ReflTransGen (RecursiveCall storage listing stuck) t t₁ →
    RecursiveCall storage listing stuck t₁ t₂ → t₂.size < t₁.size

variable {storage listing stuck}

theorem not_recursiveCall {t : FileTree String} (h : ¬ t.HasSubdirectory (SDPATH storage))
    (t' : FileTree String) : ¬ RecursiveCall storage listing stuck t t' := by
  rintro ⟨-, fuel, before, file, after, hlist, hloop, -, hdir⟩
  have hmem : file ∈ t.children (SDPATH storage) := by
    rw [← (listing.perm t (SDPATH storage)).mem_iff, hlist]
    simp
  have hshrinks : Shrinks t t' := by
    refine foldlM_preserves (Shrinks t) ?_ (Shrinks.refl t) hloop
    intro t₁ c t₂ _ ht₁ hturn
    exact deleteEntry_preserves (Shrinks t) (fun t₁ c _ ht₁ => ht₁.trans (shrinks_delete t₁ c))
      (fun _ _ ht₁ hcall => ht₁.trans (deleteDir_shrinks hcall)) ht₁ hturn
  exact h ⟨file, hmem, hshrinks.eq_some (isDirectory_iff.mp hdir)⟩

/-- **When `deleteDir()` comes back**: when there is no directory in `SDPATH`, in particular when
`SDPATH` is none itself.  Then no call is recursive. -/
theorem terminates_iff (storage : File) (listing : Listing String) (stuck : File → Bool)
    (t : FileTree String) :
    Terminates storage listing stuck t ∧ CallsShrink storage listing stuck t ↔
      ¬ t.HasSubdirectory (SDPATH storage) := by
  constructor
  · rintro ⟨⟨t', hreturns⟩, -⟩ h
    exact not_returns_of_forall_none (fun fuel => deleteDir_eq_none h fuel) t' hreturns
  · intro h
    refine ⟨?_, fun t₁ t₂ hrun hcall => ?_⟩
    · by_cases hdir : t.kind (SDPATH storage) = some .directory
      · obtain ⟨t', ht', -⟩ := @exists_deleteDir storage listing stuck t hdir h 0
        exact ⟨t', Returns.of_extends deleteDir_extends ht'⟩
      · have ht : deleteDir storage listing stuck 1 t = some t := deleteAll_of_not hdir
        exact ⟨t, Returns.of_extends deleteDir_extends ht⟩
    · rcases Relation.ReflTransGen.cases_head hrun with rfl | ⟨t', hcall', -⟩
      · exact absurd hcall (not_recursiveCall h t₂)
      · exact absurd hcall' (not_recursiveCall h t')

/-- A storage where there is a directory in `SDPATH`. -/
def nestedMoment : FileTree String :=
  let punuo : FileTree String := root.create "punuo" [] .directory
  let moment := punuo.create "moment" ["punuo"] .directory
  moment.create "a" ["moment", "punuo"] .directory

/-- An empty directory in `SDPATH` is enough. -/
theorem not_forall_terminates : ¬ ∀ (storage : File) (listing : Listing String)
    (stuck : File → Bool) (t : FileTree String),
    Terminates storage listing stuck t ∧ CallsShrink storage listing stuck t := by
  intro h
  obtain ⟨⟨t', hreturns⟩, -⟩ := h [] Listing.inOrder (fun _ => false) nestedMoment
  have hdir : nestedMoment.kind ("a" :: SDPATH []) = some .directory := by decide +kernel
  have hnested := hasSubdirectory_of_kind hdir
  exact not_returns_of_forall_none (fun fuel => deleteDir_eq_none hnested fuel) t' hreturns

/-! ## What is removed -/

variable (storage listing)

/-- `deleteDir(path)`, where no deletion of a file or of an empty directory fails, comes back, and
what is at `path` and below it is gone and nothing else. -/
def RemovesExactly (path : File) (t : FileTree String) : Prop :=
  ∃ t', Returns (fun fuel => deleteDirPath storage listing (fun _ => false) path fuel t) t' ∧
    ∀ q, t'.kind q = if path <:+ q then none else t.kind q

variable {storage listing}

theorem deleteDirPath_extends {path : File} (fuel : Nat) :
    Extends (deleteDirPath storage listing stuck path fuel)
      (deleteDirPath storage listing stuck path (fuel + 1)) :=
  deleteAll_extends (deleteDir_extends fuel) path

/-- **When `deleteDir(path)` removes what it says**: when there is no directory below `path`, but
for `SDPATH`. -/
theorem removesExactly_iff (storage : File) (listing : Listing String) (path : File)
    (t : FileTree String) (hpath : t.kind path = some .directory) :
    RemovesExactly storage listing path t ↔
      ∀ q, path <:+ q → q ≠ path → t.kind q = some .directory → q = SDPATH storage := by
  constructor
  · rintro ⟨t', ⟨bound, hreturns⟩, hremoved⟩ q hsuffix hne hq
    by_contra hSDPATH
    have hstays := deleteDirPath_keeps hSDPATH hne hq (hreturns bound (Nat.le_refl bound))
    rw [hremoved q, if_pos hsuffix] at hstays
    exact absurd hstays.symm (Option.some_ne_none _)
  · intro h
    -- a directory in `path` is `SDPATH`, and then there is none in `SDPATH`
    have hrec : ∀ t' c, c ∈ t.children path → Shrinks t t' → t'.kind c = some .directory →
        ∃ t'', deleteDir storage listing (fun _ => false) 1 t' = some t'' ∧
          Cleared (fun _ => false) t' c t'' := by
      intro t' c hc hshrinks hdir
      obtain ⟨name, rfl⟩ := (mem_children.mp hc).1
      have hbelow : path <:+ name :: path := List.suffix_cons name path
      have hSDPATH := h _ hbelow (by simp) (hshrinks.eq_some hdir)
      rw [hSDPATH] at hdir hbelow ⊢
      refine exists_deleteDir hdir ?_ 0
      rintro ⟨c', hc', hdir'⟩
      obtain ⟨name', rfl⟩ := (mem_children.mp hc').1
      have hsame := h _ (hbelow.trans (List.suffix_cons name' _)) ?_ (hshrinks.eq_some hdir')
      · exact absurd hsame (by simp)
      · rw [← hSDPATH]
        intro heq
        have hlength := congrArg List.length heq
        simp only [List.length_cons] at hlength
        omega
    obtain ⟨t', ht', hclear⟩ := exists_deleteAll hpath hrec
    refine ⟨t', Returns.of_extends deleteDirPath_extends ht', fun q => ?_⟩
    have hheld : ¬ t.Held (fun _ => false) q := fun ⟨_, _, _, hstuck⟩ =>
      Bool.false_ne_true hstuck
    split
    · next hsuffix => exact hclear.gone q ⟨path, List.mem_singleton_self path, hsuffix⟩ hheld
    · next hsuffix =>
      refine hclear.kept q fun r hr hr' => absurd hr' ?_
      rwa [List.mem_singleton.mp hr]

/-- A storage where there are a photo in `SDPATH` and a directory in `TEMP_PATH`. -/
def photoAndTemp : FileTree String :=
  let punuo : FileTree String := root.create "punuo" [] .directory
  let moment := punuo.create "moment" ["punuo"] .directory
  let photo := moment.create "photo" ["moment", "punuo"] .file
  let temp := photo.create "temp" ["punuo"] .directory
  temp.create "a" ["temp", "punuo"] .directory

theorem removesExactly_iff_photo :
    photoAndTemp.kind (SDPATH []) = some .directory ∧
      RemovesExactly [] Listing.inOrder (SDPATH []) photoAndTemp := by
  have hSDPATH : photoAndTemp.kind (SDPATH []) = some .directory := by decide +kernel
  refine ⟨hSDPATH, (removesExactly_iff [] Listing.inOrder (SDPATH []) photoAndTemp hSDPATH).mpr ?_⟩
  have hall : ∀ q ∈ photoAndTemp.entries.keys, SDPATH [] <:+ q → q ≠ SDPATH [] →
      photoAndTemp.kind q ≠ some .directory := by decide +kernel
  intro q hsuffix hne hq
  have hthere : photoAndTemp.kind q ≠ none := ne_none_of_kind hq
  exact absurd hq (hall q (photoAndTemp.entries.mem_keys.mpr hthere) hsuffix hne)

/-- The photo in `SDPATH` is gone, and the directory in `TEMP_PATH` is still there. -/
example : (deleteTempDir [] Listing.inOrder (fun _ => false) 1 photoAndTemp).map (fun t =>
    (t.kind ("photo" :: SDPATH []), t.kind ("a" :: TEMP_PATH []))) =
      some (none, some .directory) := by decide +kernel

/-- The directory in `TEMP_PATH` is not removed. -/
theorem not_forall_removesExactly : ¬ ∀ (storage : File) (listing : Listing String) (path : File)
    (t : FileTree String), t.kind path = some .directory →
      RemovesExactly storage listing path t := by
  intro h
  obtain ⟨t', ⟨bound, hreturns⟩, hremoved⟩ :=
    h [] Listing.inOrder (TEMP_PATH []) photoAndTemp (by decide +kernel)
  have hstays : t'.kind ("a" :: TEMP_PATH []) = some .directory :=
    deleteDirPath_keeps (by decide +kernel) (by decide +kernel) (by decide +kernel)
      (hreturns bound (Nat.le_refl bound))
  rw [hremoved, if_pos (by decide +kernel)] at hstays
  exact absurd hstays.symm (Option.some_ne_none _)

end FileUtil

end PetDev.Files
