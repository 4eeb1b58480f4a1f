import ProtoSchema.Assoc
import ProtoSchema.FileSystem.Error

/-! Trees of files and directories. -/
namespace ProtoSchema.FileSystem

inductive Tree where
  | file (content : ByteArray)
  | directory (entries : List (String × Tree))

namespace Tree

def empty : Tree := directory []

/-- What stands at a path. -/
def find : Path → Tree → Except Cause Tree
  | [], tree => .ok tree
  | _ :: _, file _ => .error .notDirectory
  | name :: path, directory entries =>
    match entries.lookup name with
    | none => .error .notFound
    | some tree => find path tree

def read (path : Path) (tree : Tree) : Except Cause ByteArray := do
  match ← find path tree with
  | file content => return content
  | directory _ => throw .isDirectory

/-- Puts a file at a path from here, where nothing or a tree stands. Directories are not made. -/
def writeAt (content : ByteArray) : Path → Option Tree → Except Cause Tree
  | [], some (directory _) => .error .isDirectory
  | [], _ => .ok (file content)
  | _ :: _, none => .error .notFound
  | _ :: _, some (file _) => .error .notDirectory
  | name :: path, some (directory entries) => do
    let inner ← writeAt content path (entries.lookup name)
    return directory (Assoc.insert name inner entries)

def write (path : Path) (content : ByteArray) (tree : Tree) : Except Cause Tree :=
  writeAt content path (some tree)

/-- Makes all directories on a path from here that are not there. -/
def makeDirectoriesAt : Path → Option Tree → Except Cause Tree
  | [], none => .ok empty
  | [], some (directory entries) => .ok (directory entries)
  | [], some (file _) => .error .alreadyExists
  | name :: path, none => do return directory [(name, ← makeDirectoriesAt path none)]
  | _ :: _, some (file _) => .error .notDirectory
  | name :: path, some (directory entries) => do
    let inner ← makeDirectoriesAt path (entries.lookup name)
    return directory (Assoc.insert name inner entries)

def makeDirectories (path : Path) (tree : Tree) : Except Cause Tree :=
  makeDirectoriesAt path (some tree)

end Tree
end ProtoSchema.FileSystem
