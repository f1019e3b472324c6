import EmulatorHost.Path

/-! A tree of files without links. Problems have the texts of the operating system. -/

namespace EmulatorHost

abbrev Name := List UInt8

namespace FileTree

inductive Node where
  | directory
  | file (contents : ByteArray)

inductive Problem where
  | notFound
  | notDirectory
  | isDirectory
  | nameTooLong
  | zeroByte
  deriving DecidableEq, Repr

def Problem.message : Problem → String
  | .notFound => "No such file or directory (os error 2)"
  | .notDirectory => "Not a directory (os error 20)"
  | .isDirectory => "Is a directory (os error 21)"
  | .nameTooLong => "File name too long (os error 36)"
  | .zeroByte => "file name contained an unexpected NUL byte"

def nameLimit : Nat := 255

def pathLimit : Nat := 4096

end FileTree

open FileTree in
structure FileTree where
  entries : List (List Name × Node) := []

namespace FileTree

def find? (t : FileTree) (names : List Name) : Option Node :=
  if names.isEmpty then some .directory else t.entries.lookup names

def walk (t : FileTree) (dir : List Name) : List Name → Except Problem (List Name × Node)
  | [] => .ok (dir, .directory)
  | name :: rest =>
    if name = [] ∨ name = Path.here then walk t dir rest
    else if name = Path.above then walk t dir.dropLast rest
    else if nameLimit < name.length then .error .nameTooLong
    else match t.find? (dir ++ [name]) with
      | none => .error .notFound
      | some .directory => walk t (dir ++ [name]) rest
      | some node => if rest = [] then .ok (dir ++ [name], node) else .error .notDirectory

def resolve (t : FileTree) (base : List Name) (p : Path) : Except Problem (List Name × Node) :=
  if p.bytes.contains 0 then .error .zeroByte
  else if p.isEmpty then .error .notFound
  else if pathLimit ≤ p.bytes.length then .error .nameTooLong
  else t.walk (if p.isAbsolute then [] else base) p.pieces

def read (t : FileTree) (base : List Name) (p : Path) : Except Problem ByteArray :=
  match t.resolve base p with
  | .error e => .error e
  | .ok (_, .directory) => .error .isDirectory
  | .ok (_, .file contents) => .ok contents

def isFile (t : FileTree) (base : List Name) (p : Path) : Bool :=
  match t.resolve base p with
  | .ok (_, .file _) => true
  | _ => false

def insert (names : List Name) (node : Node) (t : FileTree) : FileTree :=
  ⟨(names, node) :: t.entries.filter fun e => e.1 ≠ names⟩

def remove (base : List Name) (p : Path) (t : FileTree) : FileTree :=
  match t.resolve base p with
  | .ok (names, .file _) => ⟨t.entries.filter fun e => e.1 ≠ names⟩
  | _ => t

def makeDirectories (t : FileTree) (dir : List Name) : List Name → Option (List Name × FileTree)
  | [] => some (dir, t)
  | name :: rest =>
    if name = [] ∨ name = Path.here then makeDirectories t dir rest
    else if name = Path.above then makeDirectories t dir.dropLast rest
    else if nameLimit < name.length then none
    else match t.find? (dir ++ [name]) with
      | none => makeDirectories (t.insert (dir ++ [name]) .directory) (dir ++ [name]) rest
      | some .directory => makeDirectories t (dir ++ [name]) rest
      | some (.file _) => none

def openFile? (base : List Name) (directory : Path) (name : Name) (t : FileTree) :
    Option FileTree :=
  if pathLimit ≤ (directory.join name).bytes.length then none
  else match t.makeDirectories (if directory.isAbsolute then [] else base) directory.pieces with
  | none => none
  | some (dir, t) =>
    if nameLimit < name.length ∨ name.contains 0 then none
    else match t.find? (dir ++ [name]) with
      | none => some (t.insert (dir ++ [name]) (.file ByteArray.empty))
      | some (.file _) => some t
      | some .directory => none

end FileTree

end EmulatorHost
