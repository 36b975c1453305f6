/-
ApiOutline/Command/Run.lean

What the program answers.

Design.  A run is a function of the arguments and of what is on disk: it gives
the two output streams, the exit code, and at most one file to be
written.  Remarks come first on the error stream.  A fault that the program does
not answer for ends the run as a breakdown, without a message of its own.
-/
import ApiOutline.Command.Arguments
import ApiOutline.Command.FilePath
import ApiOutline.Json.Printer
import ApiOutline.Manifest.File
import ApiOutline.Text.Lines
import ApiOutline.Text.Terminal
import ApiOutline.Yaml.Writer

namespace ApiOutline.Command

/-- Why a run breaks down. -/
inductive Breakdown where
  /-- an outline or a manifest has a fault that is not reported as such -/
  | outline (fault : Shape.Fault)
  | manifest (fault : Manifest.Fault)
  /-- a whole number has too many digits to be written -/
  | longNumber
  /-- a path has the null character in it -/
  | nullInPath
  /-- the path of the output file or a name in it is too long -/
  | longPath
  /-- a file was expected where a directory is -/
  | isDirectory
  /-- the directory of the output is a file -/
  | parentIsFile
  /-- a directory further up is a file -/
  | ancestorIsFile
deriving DecidableEq, Repr

/-- What a run gives. -/
structure Outcome where
  exit : Nat := 0
  stdout : String := ""
  stderr : String := ""
  written : Option (FilePath × String) := none
  /-- the fault that was reported -/
  reported : Option Manifest.Fault := none
  breakdown : Option Breakdown := none
deriving Repr, Inhabited

/-- The outcome of wrong usage. -/
def misuse : Outcome := { exit := 2 }

/-- The outcome of arguments that ask for nothing. -/
def Refusal.outcome : Refusal → Outcome
  | usage => misuse
  | nullInPath => { exit := 1, breakdown := some .nullInPath }

/-- The document in a format, unless a number in it is too long. -/
def dump? (v : Json) : Format → Option String
  | .json => v.render? .indented
  | .yaml => Yaml.render? v

/-- A line of an output stream; streams know one line end only. -/
def streamLine (s : String) : String :=
  String.ofList (Text.joinLineEnds (s ++ "\n").toList)

/-- A line that is shown, without codes for a terminal. -/
def line (s : String) : String := streamLine (Text.withoutCodes s)

/-- The remarks, if they are wanted. -/
def remarks (verbose : Bool) (notes : List Notice) : String :=
  if verbose then String.join (notes.map fun n => streamLine n.line) else ""

/-- The error message of a run. -/
def errorLine (message : String) : String := line ("Error: " ++ message)

/-- Compiles an outline and shows it. -/
def runCompile (verbose : Bool) (outline : String) (format : Format) : Outcome :=
  let compiled := Shape.compile outline
  let notes := remarks verbose compiled.notes
  match compiled.result with
  | .ok schema =>
    match dump? schema.rootJson format with
    | some text => { stdout := line text, stderr := notes }
    | none => { exit := 1, stderr := notes, breakdown := some .longNumber }
  | .error .selfReference =>
    { exit := 1, stderr := notes, breakdown := some (.outline .selfReference) }
  | .error f => { exit := 1, stderr := notes ++ errorLine f.message }

/-- Shows the key and the parameters of a template. -/
def runParameters (template : String) : Outcome :=
  let lines := (Parameter.ofTemplate template).map fun p => p.toJson.render .spaced
  { stdout := String.join ((("Path key: " ++ Template.keyOf template) :: lines).map line) }

/-- The format of an output file, if none is asked for. -/
def formatOf (output : FilePath) : Format :=
  if output.kind = ".yaml" ∨ output.kind = ".yml" then .yaml else .json

/-- What keeps the directories on the way to a file from being made, the names being those that
are left after `before`; `made` says that a directory had to be made already.  A file in the
way is told apart by whether it stands last, or where directories are being made. -/
def directoryObstacle? (disk : Disk) (made : Bool) (before : FilePath) :
    List String → Option Breakdown
  | [] => none
  | name :: names =>
    let here := { before with names := before.names ++ [name] }
    if here.hasLongName then some .longPath
    else
      match disk here.resolved with
      | .missing => directoryObstacle? disk true here names
      | .directory => directoryObstacle? disk made here names
      | .file _ => some (if made || names = [] then .parentIsFile else .ancestorIsFile)

/-- What keeps the directory of a file from being made. -/
def parentObstacle? (disk : Disk) (output : FilePath) : Option Breakdown :=
  if FilePath.isLong output.parent.text then some .longPath
  else directoryObstacle? disk false { output with names := [] } output.parent.names

/-- What keeps a file from being written into its directory. -/
def fileObstacle? (disk : Disk) (output : FilePath) : Option Breakdown :=
  if FilePath.isLong output.text || output.hasLongName then some .longPath
  else if disk output.resolved = .directory then some .isDirectory
  else none

/-- What is found under the path that a text writes. -/
def find (disk : Disk) (text : String) : Entry :=
  if text = "" || FilePath.isLong text then .missing
  else
    match (FilePath.ofText text).follow disk with
    | .file contents => if FilePath.namesDirectory text then .missing else .file contents
    | entry => entry

/-- Writes a document to a file: the directories on the way are made first. -/
def writing (disk : Disk) (target : FilePath) (doc : Json) (format : Format) :
    Except Breakdown String := do
  if let some b := parentObstacle? disk target then throw b
  match dump? doc format with
  | none => throw .longNumber
  | some text =>
    if let some b := fileObstacle? disk target then throw b
    return text

/-- Builds a document from a manifest and writes it. -/
def runBuild (disk : Disk) (verbose : Bool) (manifest output : String)
    (title version : Option String) (format : Option Format) : Outcome :=
  let source := FilePath.ofText manifest
  let target := FilePath.ofText output
  let loading := line ("Loading " ++ source.text ++ "...")
  match find disk manifest with
  | .missing => misuse
  | .directory => { exit := 1, stdout := loading, breakdown := some .isDirectory }
  | .file text =>
    let loaded := Manifest.load (some text)
    let notes := remarks verbose loaded.notes
    match loaded.result with
    | .error f =>
      if f.isBlamed then
        { exit := 1
          stdout := loading
          stderr := notes ++ errorLine (f.message source.text)
          reported := some f }
      else { exit := 1, stdout := loading, stderr := notes, breakdown := some (.manifest f) }
    | .ok doc =>
      let failed (b : Breakdown) : Outcome :=
        { exit := 1, stdout := loading, stderr := notes, breakdown := some b }
      match writing disk target (doc.toJson title version) (format.getD (formatOf target)) with
      | .error b => failed b
      | .ok text =>
        let wrote := "Wrote " ++ toString doc.paths.length ++ " paths to " ++ target.text
        { stdout := loading ++ line wrote, stderr := notes, written := some (target, text) }

/-- The paths on which the run of a task depends. -/
def Task.paths : Task → List FilePath
  | .build manifest output .. =>
    ([manifest, output].map FilePath.ofText).flatMap fun p => (p :: p.above).map FilePath.resolved
  | _ => []

/-- Runs a task. -/
def Invocation.run (disk : Disk) (i : Invocation) : Outcome :=
  match i.task with
  | .compile outline format => runCompile i.verbose outline format
  | .parameters template => runParameters template
  | .build manifest output title version format =>
    runBuild disk i.verbose manifest output title version format

/-- The answer to arguments. -/
def run (disk : Disk) (args : List String) : Outcome :=
  match Invocation.read args with
  | .error r => r.outcome
  | .ok i => i.run disk

end ApiOutline.Command
