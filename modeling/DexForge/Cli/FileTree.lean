import DexForge.Bytes.LittleEndian

/-! # Files

What a command does with files, in any monad, and the files that it can see. A location is the list
of names that leads to a file from the working directory; every part of it but the last is a
directory. It starts with `..` once for every step above the working directory, or with `/` when it
leads from the root.
-/
set_option autoImplicit false

namespace DexForge

inductive FileFault where
  | notFound
  | notDirectory
  | isDirectory
  | nameTooLong
  | zeroCharacter
  | invalidText
deriving DecidableEq, Repr

def FileFault.message : FileFault → String
  | notFound => "No such file or directory (os error 2)"
  | notDirectory => "Not a directory (os error 20)"
  | isDirectory => "Is a directory (os error 21)"
  | nameTooLong => "File name too long (os error 36)"
  | zeroCharacter => "file name contained an unexpected NUL byte"
  | invalidText => "stream did not contain valid UTF-8"

structure FileAccess (m : Type → Type) where
  read : String → ExceptT FileFault m Bytes
  write : String → Bytes → ExceptT FileFault m Unit

def FileAccess.readText {m : Type → Type} [Monad m] (files : FileAccess m) (path : String) :
    ExceptT FileFault m String := do
  match String.fromUTF8? ⟨← files.read path⟩ with
  | some text => return text
  | none => throw .invalidText

structure FileTree where
  files : List (List String × Bytes)

namespace FileTree

def get? (tree : FileTree) (location : List String) : Option Bytes := tree.files.lookup location

def put (tree : FileTree) (location : List String) (bytes : Bytes) : FileTree :=
  ⟨(location, bytes) :: tree.files.filter fun entry => entry.1 != location⟩

/-- The location of the topmost directory. No name has a slash in it. -/
def root : List String := ["/"]

/-- Whether a location is below the working directory. -/
def isLocal (location : List String) : Bool :=
  location.head?.all fun part => part != ".." && part != "/"

/-- A directory is there when some file is below it. The working directory, those above it and the
root always are. -/
def isDirectory (tree : FileTree) (location : List String) : Bool :=
  location == root || location.all (· == "..") ||
    tree.files.any fun entry => location.isPrefixOf entry.1 && location != entry.1

/-- The directory that contains a directory; the root contains itself. -/
def parent (directory : List String) : List String :=
  if directory == root then root
  else if directory.all (· == "..") then directory ++ [".."]
  else directory.dropLast

/-- What a path leads to. The last name of a path may be `slashed`: followed by slashes. -/
inductive Target where
  | directory
  | named (location : List String) (slashed : Bool)
deriving DecidableEq, Repr

def isTrivial (part : String) : Bool := part.isEmpty || part == "."

def isTooLong (name : String) : Bool := 255 < name.utf8ByteSize

/-- Follows the parts of a path from a directory on. The last name is not looked at. -/
def walk (tree : FileTree) : (directory parts : List String) → Except FileFault Target
  | _, [] => .ok .directory
  | directory, part :: rest =>
    if isTrivial part then walk tree directory rest
    else if part == ".." then walk tree (parent directory) rest
    else
      let location := directory ++ [part]
      if tree.isDirectory location then walk tree location rest
      else if rest.all String.isEmpty then .ok (.named location (!rest.isEmpty))
      else if isTooLong part then .error .nameTooLong
      else if (tree.get? location).isSome then .error .notDirectory
      else .error .notFound

def resolve (tree : FileTree) (path : String) : Except FileFault Target :=
  if path.toList.contains '\x00' then .error .zeroCharacter
  else if 4096 ≤ path.utf8ByteSize then .error .nameTooLong
  else
    walk tree (if path.startsWith "/" then root else []) (path.splitOn "/")

def read (tree : FileTree) (path : String) : Except FileFault Bytes :=
  match tree.resolve path with
  | .error fault => .error fault
  | .ok .directory => .error .isDirectory
  | .ok (.named location slashed) =>
    if isTooLong (location.getLastD "") then .error .nameTooLong
    else match tree.get? location with
      | none => .error .notFound
      | some bytes => if slashed then .error .notDirectory else .ok bytes

/-- A slash behind the last name asks for a directory, which is refused before the name is looked
at. -/
def write (tree : FileTree) (path : String) (bytes : Bytes) : Except FileFault FileTree :=
  match tree.resolve path with
  | .error fault => .error fault
  | .ok .directory => .error .isDirectory
  | .ok (.named location slashed) =>
    if slashed then .error .isDirectory
    else if isTooLong (location.getLastD "") then .error .nameTooLong
    else .ok (tree.put location bytes)

/-- The files of a tree, which stay as they are when a write fails. -/
def access : FileAccess (StateM FileTree) where
  read path := .mk fun tree => (tree.read path, tree)
  write path bytes := .mk fun tree =>
    match tree.write path bytes with
    | .error fault => (.error fault, tree)
    | .ok after => (.ok (), after)

end FileTree

end DexForge
