import PetDev.Lib.FileTree

/-!
# `java.io.File`

A `File` is a path in a `FileTree`.  What is asked of it is asked of the tree as it is then.
-/

namespace PetDev.Java

/-- A path, with its last name first. -/
abbrev File := List String

/-- `file.exists()`. -/
def fileExists (t : FileTree String) (file : File) : Bool := (t.kind file).isSome

/-- `file.isFile()`. -/
def isFile (t : FileTree String) (file : File) : Bool := t.kind file = some .file

/-- `file.isDirectory()`. -/
def isDirectory (t : FileTree String) (file : File) : Bool := t.kind file = some .directory

@[simp] theorem fileExists_iff {t : FileTree String} {file : File} :
    fileExists t file = true ↔ t.kind file ≠ none :=
  Option.isSome_iff_ne_none

@[simp] theorem isFile_iff {t : FileTree String} {file : File} :
    isFile t file = true ↔ t.kind file = some .file :=
  decide_eq_true_iff

@[simp] theorem isDirectory_iff {t : FileTree String} {file : File} :
    isDirectory t file = true ↔ t.kind file = some .directory :=
  decide_eq_true_iff

end PetDev.Java
