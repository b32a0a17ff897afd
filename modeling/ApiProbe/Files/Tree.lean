import ApiProbe.Fault
import ApiProbe.Files.Glob
import ApiProbe.Files.Path

/-!
Trees of files, and the search for files in them. A path is followed from the current directory name by
name, `..` leading back to the directory in front of the last name, or out of the current directory.

Reading fails for what is not there, for a file that a path leads through and for a directory. Files that may
not be read, and names with a null character, which no file can have, are left out.
-/
namespace ApiProbe

/-- Files with their content and directories without one, under the names that lead to them. The
directories on the way to an entry need no entry themselves. -/
structure FileTree where
  entries : List (List String × Option (List UInt8)) := []

inductive FileNode where
  | file (content : List UInt8)
  | directory

inductive ReadFault where
  | missing
  | notDirectory
  | isDirectory
  deriving DecidableEq

namespace ReadFault

def number : ReadFault → Nat
  | missing => 2
  | notDirectory => 20
  | isDirectory => 21

def description : ReadFault → String
  | missing => "No such file or directory"
  | notDirectory => "Not a directory"
  | isDirectory => "Is a directory"

def message (fault : ReadFault) (p : Path) : String :=
  s!"[Errno {fault.number}] {fault.description}: {Text.literal p.text}"

end ReadFault

namespace FileTree

/-- The tree of files and directories given by path; a later one replaces an earlier one. -/
def ofPaths (files : List (Path × Option (List UInt8))) : FileTree :=
  ⟨files.foldl (fun entries (p, content) =>
    entries.filter (·.1 != p.names) ++ [(p.names, content)]) []⟩

def node? (tree : FileTree) (names : List String) : Option FileNode :=
  match tree.entries.find? (·.1 == names) with
  | some (_, some content) => some (.file content)
  | some (_, none) => some .directory
  | none =>
    if names.isEmpty || tree.entries.any (names.isPrefixOf ·.1) then some .directory else none

/-- Follows the parts of a path from a directory: the names that lead to its end. -/
def follow (tree : FileTree) (names : List String) : List String → Except ReadFault (List String)
  | [] => .ok names
  | part :: parts =>
    match tree.node? names with
    | none => .error .missing
    | some (.file _) => .error .notDirectory
    | some .directory => tree.follow (Path.step names part) parts

def locate (tree : FileTree) (p : Path) : Except ReadFault (List String × FileNode) := do
  let names ← tree.follow [] p.parts
  match tree.node? names with
  | some node => return (names, node)
  | none => .error .missing

def read (tree : FileTree) (p : Path) : Except ReadFault (List UInt8) := do
  match ← tree.locate p with
  | (_, .file content) => return content
  | (_, .directory) => .error .isDirectory

/-- The names along which files end in a suffix are looked for: any number of directories, and then
those that the suffix writes. -/
def suffixGlobs (suffix : String) : Except Fault (List PathGlob) := do
  let globs ← (Path.partsOfText ("*" ++ suffix)).mapM fun (part : String) =>
    if part == "**" then .ok .anyDepth
    else if Text.occursIn "**".toList part.toList then
      .error (Fault.invalid "Invalid pattern: '**' can only be an entire path component")
    else .ok (.name (Glob.ofText part))
  return .anyDepth :: globs

/-- The files below a directory that a pattern accepts, in the order of their paths. A pattern that ends
in a slash is one of directories. -/
def filesBelow (tree : FileTree) (p : Path) (names : List String) (globs : List PathGlob) :
    List Path :=
  let below := tree.entries.filterMap fun (entry, content) =>
    let rest := entry.drop names.length
    if names.isPrefixOf entry && content.isSome && PathGlob.accepts globs rest then
      some (p.append rest)
    else none
  below.mergeSort Path.before

def filesAt (tree : FileTree) (suffix : String) (p : Path) : Except Fault (List Path) :=
  match tree.locate p with
  | .ok (_, .file _) => .ok [p]
  | .ok (names, .directory) => do
    let globs ← suffixGlobs suffix
    return if suffix.endsWith "/" then [] else tree.filesBelow p names globs
  | .error _ => .error (.missingPath p.text)

/-- The files that paths stand for, each of them once. -/
def find (tree : FileTree) (suffix : String) (paths : List Path) : Except Fault (List Path) :=
  paths.foldlM (fun found p => do
    let all ← tree.filesAt suffix p
    return found ++ all.filter fun q => !found.contains q) []

end FileTree

/-- The suffix that the names of scripts end in. -/
def scriptSuffix : String := ".testdrive"

end ApiProbe
