/-
ApiOutline/Command/FilePath.lean

File paths, and what is found under them.

Design.  A path is the list of its names; empty names and single dots do not
count, so that one path has one form.  Two dots lead back out of a directory,
but only if the directory is there: so a path is followed name by name
(`follow`).
-/
import ApiOutline.Text.Cut
import ApiOutline.Text.LowerCase

namespace ApiOutline.Command

/-- A file path. -/
structure FilePath where
  absolute : Bool
  names : List String
deriving DecidableEq, Repr, Inhabited

/-- What is found under a path. -/
inductive Entry where
  | missing
  | directory
  | file (text : String)
deriving DecidableEq, Repr, Inhabited

/-- What is found under paths without steps back. -/
abbrev Disk := FilePath → Entry

namespace FilePath

/-- The path that a text writes. -/
def ofText (text : String) : FilePath where
  absolute := text.toList.head? = some '/'
  names := ((Text.pieces '/' text.toList).filter fun n => n ≠ [] && n ≠ ['.']).map String.ofList

/-- The text of a path; the path without names is a dot. -/
def text (p : FilePath) : String :=
  if p.names = [] then (if p.absolute then "/" else ".")
  else (if p.absolute then "/" else "") ++ "/".intercalate p.names

/-- The directory that holds a path. -/
def parent (p : FilePath) : FilePath := { p with names := p.names.dropLast }

/-- The directories on the way to a path, the outermost first. -/
def above (p : FilePath) : List FilePath :=
  (List.range p.names.length).map fun n => { p with names := p.names.take n }

/-- The text can only be the path of a directory, since it ends with a slash or a dot of its
own. -/
def namesDirectory (text : String) : Bool :=
  match (Text.pieces '/' text.toList).getLast? with
  | some last => last = [] || last = ['.']
  | none => false

/-- The path without steps back: a name and two dots after it cancel out. -/
def resolved (p : FilePath) : FilePath :=
  { p with
    names := p.names.foldl (fun names n =>
      if n = ".." ∧ names ≠ [] ∧ names.getLast? ≠ some ".." then names.dropLast
      else if n = ".." ∧ p.absolute then names
      else names ++ [n]) [] }

/-- The end of a file name from its last dot on; a dot at either end of the name does not count. -/
def suffix (p : FilePath) : String :=
  let name := (p.names.getLast?.getD "").toList
  let last := (Text.pieces '.' name).getLast?.getD []
  if last ≠ [] && last.length + 1 < name.length then String.ofList ('.' :: last) else ""

/-- The suffix in small letters. -/
def kind (p : FilePath) : String := String.ofList (Text.lowerCase p.suffix.toList)

/-! ### Length -/

/-- The most bytes that a name may have. -/
def maxNameBytes : Nat := 255

/-- A name in the path has too many bytes. -/
def hasLongName (p : FilePath) : Bool := p.names.any fun n => maxNameBytes < n.utf8ByteSize

/-- The most bytes that the text of a path may have. -/
def maxPathBytes : Nat := 4095

/-- The text of a path has too many bytes. -/
def isLong (text : String) : Bool := maxPathBytes < text.utf8ByteSize

/-- What is found under a path, if every step on the way to it is to a directory. -/
def follow (disk : Disk) (p : FilePath) : Entry :=
  if !p.hasLongName && p.above.all fun q => disk q.resolved = .directory then disk p.resolved
  else .missing

end FilePath

end ApiOutline.Command
