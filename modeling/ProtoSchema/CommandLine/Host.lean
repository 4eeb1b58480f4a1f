import ProtoSchema.FileSystem.Tree

/-! What a program needs of the machine on which it runs. -/
namespace ProtoSchema.CommandLine
open FileSystem

class Host (m : Type → Type) where
  workingDirectory : m Path
  /-- The text of a user's home directory, if there is one. -/
  home : String → m (Option String)
  read : Path → m (Except FileSystem.Error ByteArray)
  write : Path → ByteArray → m (Except FileSystem.Error Unit)
  makeDirectories : Path → m (Except FileSystem.Error Unit)
  print : String → m Unit
  report : String → m Unit

/-- A machine that is a value: a tree of files, and what has been printed and reported. -/
structure Machine where
  workingDirectory : Path
  home : String → Option String := fun _ => none
  files : Tree
  printed : String := ""
  reported : String := ""

namespace Machine

def located {α : Type} (path : Path) (result : Except Cause α) : Except FileSystem.Error α :=
  result.mapError fun cause => { cause, path }

/-- Keeps the files if the operation fails. -/
def change (path : Path) (operation : Tree → Except Cause Tree) :
    StateM Machine (Except FileSystem.Error Unit) := fun machine =>
  match operation machine.files with
  | .ok files => (.ok (), { machine with files })
  | .error cause => (.error { cause, path }, machine)

/-- The path of an input. -/
abbrev locate (machine : Machine) (text : String) : Option Path :=
  Path.locate? machine.workingDirectory machine.home text

instance : Host (StateM Machine) where
  workingDirectory := return (← get).workingDirectory
  home user := return (← get).home user
  read path := return located path ((← get).files.read path)
  write path content := change path (Tree.write path content)
  makeDirectories path := change path (Tree.makeDirectories path)
  print text := modify fun machine => { machine with printed := machine.printed ++ text }
  report text := modify fun machine => { machine with reported := machine.reported ++ text }

end Machine
end ProtoSchema.CommandLine
