/-!
# AccessRegistry.Config.FileTree

The part of the file tree that is the same on every system: the standard directories, and the device
that is always empty. A path is followed name by name.

* `ReadError`       — why a file cannot be read.
* `FileTree.read`   — the content of the file at a path, as far as it is known without looking.
-/

namespace AccessRegistry
namespace Config

/-- Why a file cannot be read. -/
inductive ReadError where
  | missing
  /-- the path goes on after a file -/
  | notADirectory
  | isADirectory
  /-- a name in the path, or the path, is too long -/
  | tooLong
  /-- the path holds the character that ends a path -/
  | holdsNul
  | other (text : String)
deriving DecidableEq, Repr

def ReadError.text : ReadError → String
  | .missing => "No such file or directory (os error 2)"
  | .notADirectory => "Not a directory (os error 20)"
  | .isADirectory => "Is a directory (os error 21)"
  | .tooLong => "File name too long (os error 36)"
  | .holdsNul => "file name contained an unexpected NUL byte"
  | .other text => text

namespace FileTree

/-- Where a path leads: into a known directory, by the names on the way to it, into another one of
which nothing is known, or to a file with its content. -/
inductive Spot where
  | directory (names : List String)
  | elsewhere
  | file (content : String)
deriving DecidableEq, Repr

/-- The standard directories. -/
def directories : List (List String) :=
  ["bin", "boot", "dev", "etc", "home", "lib", "media", "mnt", "opt", "proc", "root", "run", "sbin",
    "srv", "sys", "tmp", "usr", "var"].map ([·]) ++
  ["bin", "lib", "local", "sbin", "share"].map (["usr", ·]) ++
  ["cache", "lib", "log", "tmp"].map (["var", ·])

/-- The files whose content is known. -/
def files : List (List String × String) := [(["dev", "null"], "")]

/-- The longest name, in octets. -/
def longestName : Nat := 255

/-- The longest path, in octets. -/
def longestPath : Nat := 4095

/-- What has a name in the directory that a way leads to. -/
def child (names : List String) : Except ReadError Spot :=
  match files.lookup names with
  | some content => .ok (.file content)
  | none => if directories.contains names then .ok (.directory names) else .error .missing

/-- Follows one name of a path. -/
def step (spot : Spot) (name : String) : Except ReadError Spot :=
  match spot with
  | .file _ => .error .notADirectory
  | spot =>
    if name = "" ∨ name = "." then .ok spot
    else
      match spot with
      | .directory names =>
        if name = ".." then .ok (.directory names.dropLast)
        else if longestName < name.utf8ByteSize then .error .tooLong
        else child (names ++ [name])
      | _ =>
        if name = ".." then .ok .elsewhere
        else if longestName < name.utf8ByteSize then .error .tooLong
        else .error .missing

/-- Reads the file at a path. Outside of the known part there are no files. -/
def read (path : String) : Except ReadError String := do
  if path.toList.any fun c => c.toNat == 0 then throw .holdsNul
  if longestPath < path.utf8ByteSize then throw .tooLong
  let start : Spot := if path.startsWith "/" then .directory [] else .elsewhere
  match ← (path.splitOn "/").foldlM step start with
  | .file content => return content
  | _ => throw .isADirectory

end FileTree

end Config
end AccessRegistry
