import EightBit.Text.Quoted

namespace EightBit
namespace Files

/-!
# Files and paths

Programs are named by paths.  A path is kept in a normal form without empty
and `.` parts; `..` stays, because what it leads to depends on the files.  What
a path leads to is an entry, and a small tree of files below the working
directory can be asked for entries.
-/

/-- A path: where it begins, which is nowhere, `/` or `//`, and its parts. -/
structure Path where
  root : String
  parts : List String
deriving DecidableEq, Repr

namespace Path

/-- The path that a text writes.  Two slashes at the front differ from one, and
from three or more, which mean one. -/
def ofText (text : String) : Path :=
  let slashes := (text.toList.takeWhile (· = '/')).length
  let root := if slashes = 0 then "" else if slashes = 2 then "//" else "/"
  let parts := (text.toList.splitOn '/').map String.ofList
  { root, parts := parts.filter fun part => part ≠ "" ∧ part ≠ "." }

/-- The normal form of a path.  The path to nowhere else is `.`. -/
def toText (path : Path) : String :=
  if path.root = "" ∧ path.parts.isEmpty then "."
  else path.root ++ "/".intercalate path.parts

/-- The last part of a path. -/
def name (path : Path) : String :=
  path.parts.getLast?.getD ""

end Path

/-- What a path leads to. -/
inductive Entry where
  /-- There is nothing. -/
  | missing
  /-- A part on the way is no directory. -/
  | blocked
  /-- The path holds a character that no file name can have. -/
  | unnameable
  /-- The path or one of its names is longer than the computer allows. -/
  | overlong
  | directory
  | file (content : ByteArray)

def Entry.present : Entry → Bool
  | directory => true
  | file _ => true
  | _ => false

def maxNameBytes : Nat := 255

def maxPathBytes : Nat := 4095

/-- Files and directories below the working directory, by the parts of their
names. -/
structure Tree where
  files : List (List String × ByteArray)
  directories : List (List String)

namespace Tree

/-- Whether the parts name a directory.  A file brings the directories on the
way to it. -/
def hasDirectory (tree : Tree) (parts : List String) : Bool :=
  parts.isEmpty || tree.directories.any (parts.isPrefixOf ·) ||
    tree.files.any fun (file, _) => parts.isPrefixOf file && parts.length < file.length

/-- The content of the file that the parts name. -/
def content? (tree : Tree) (parts : List String) : Option ByteArray :=
  (tree.files.find? fun (file, _) => file = parts).map Prod.snd

/-- Follows parts from a directory on.  No directory stands for any place
outside the tree, where nothing but directories further up is found.  A name is
measured when it is looked up, so only after everything before it was found. -/
def follow (tree : Tree) : Option (List String) → List String → Entry
  | _, [] => .directory
  | none, part :: rest =>
    if part = ".." then tree.follow none rest
    else if maxNameBytes < part.utf8ByteSize then .overlong
    else .missing
  | some here, part :: rest =>
    if part = ".." then
      tree.follow (if here.isEmpty then none else some here.dropLast) rest
    else if maxNameBytes < part.utf8ByteSize then .overlong
    else
      let there := here ++ [part]
      match tree.content? there with
      | some content => if rest.isEmpty then .file content else .blocked
      | none => if tree.hasDirectory there then tree.follow (some there) rest else .missing

/-- What a path leads to from the working directory. -/
def entry (tree : Tree) (path : Path) : Entry :=
  if path.parts.any fun part => '\x00' ∈ part.toList then .unnameable
  else if maxPathBytes < path.toText.utf8ByteSize then .overlong
  else tree.follow (if path.root = "" then some [] else none) path.parts

end Tree

/-- Why a path cannot be read. -/
inductive ReadError where
  | missing (path : Path)
  | blocked (path : Path)
  | directory (path : Path)
  | overlong (path : Path)
  | unnameable
deriving DecidableEq, Repr

def ReadError.message : ReadError → String
  | missing path => "[Errno 2] No such file or directory: " ++ Text.quoted path.toText
  | blocked path => "[Errno 20] Not a directory: " ++ Text.quoted path.toText
  | directory path => "[Errno 21] Is a directory: " ++ Text.quoted path.toText
  | overlong path => "[Errno 36] File name too long: " ++ Text.quoted path.toText
  | unnameable => "embedded null byte"

def read (path : Path) : Entry → Except ReadError ByteArray
  | .missing => .error (.missing path)
  | .blocked => .error (.blocked path)
  | .unnameable => .error .unnameable
  | .overlong => .error (.overlong path)
  | .directory => .error (.directory path)
  | .file content => .ok content

end Files
end EightBit
