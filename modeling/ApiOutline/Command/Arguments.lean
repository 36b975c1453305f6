/-
ApiOutline/Command/Arguments.lean

The arguments of the command line.

Design.  Options may stand before, between and after the other arguments of a
task, but the options of the program itself stand in front of the task's
name.  A long option takes its value after an equals sign or as the next
argument; a short one takes the rest of its own argument or the next one.  After
`--` nothing is an option, and of a repeated option the last value counts.

Arguments that ask for nothing are refused.  The first thing that is wrong says
why: first the form of the arguments, then the values of the options in the
order in which these first stand there, then the other arguments.
-/
import ApiOutline.Table
import ApiOutline.Text.Cut

namespace ApiOutline.Command

/-! ### Options -/

/-- An option: its long name, its letter, and whether it takes a value. -/
structure OptionName where
  long : String
  letter : Option Char := none
  takesValue : Bool := true
deriving DecidableEq, Repr

/-- What arguments say: the options with their values, and all that is no option. -/
structure Parsed where
  options : Table String String := []
  others : List String := []
deriving Repr

namespace Parsed

/-- Notes an option. -/
def note (p : Parsed) (o : OptionName) (value : String) : Parsed :=
  { p with options := p.options.set o.long value }

end Parsed

/-- What is to be done with an argument that starts with a hyphen. -/
inductive Reading where
  /-- options without values, and the value of a last option -/
  | complete (options : List (OptionName × String))
  /-- options without values, and an option whose value is the next argument -/
  | open (options : List (OptionName × String)) (last : OptionName)
deriving Repr

/-- The meaning of a string of letters. -/
def readLetters (known : List OptionName) : List Char → Option Reading
  | [] => some (.complete [])
  | c :: cs => do
    let o ← known.find? fun o => o.letter = some c
    if o.takesValue then
      if cs = [] then some (.open [] o) else some (.complete [(o, String.ofList cs)])
    else
      match ← readLetters known cs with
      | .complete os => some (.complete ((o, "") :: os))
      | .open os last => some (.open ((o, "") :: os) last)

/-- The meaning of an argument that starts with a hyphen. -/
def readOption (known : List OptionName) (arg : List Char) : Option Reading :=
  let name := (Text.cut '=' arg).1
  let value? := if arg.contains '=' then some (String.ofList (Text.cut '=' arg).2) else none
  match known.find? fun o => o.long.toList = name with
  | some o =>
    match o.takesValue, value? with
    | true, some v => some (.complete [(o, v)])
    | true, none => some (.open [] o)
    | false, none => some (.complete [(o, "")])
    | false, some _ => none
  | none => if arg.take 2 = ['-', '-'] then none else readLetters known (arg.drop 1)

/-- The argument is an option, or several letters. -/
def looksLikeOption (arg : String) : Bool := arg.toList.head? = some '-' && arg ≠ "-"

/-- Reads arguments.  If options must come first, reading stops at the first argument that is no
option. -/
def readArguments (known : List OptionName) (optionsFirst : Bool) :
    Parsed → List String → Option Parsed
  | p, [] => some p
  | p, arg :: args =>
    if arg = "--" then some { p with others := p.others ++ args }
    else if looksLikeOption arg then
      match readOption known arg.toList with
      | none => none
      | some (.complete os) =>
        readArguments known optionsFirst (os.foldl (fun p o => p.note o.1 o.2) p) args
      | some (.open os last) =>
        match args with
        | [] => none
        | value :: args =>
          readArguments known optionsFirst
            ((os.foldl (fun p o => p.note o.1 o.2) p).note last value) args
    else if optionsFirst then some { p with others := p.others ++ arg :: args }
    else readArguments known optionsFirst { p with others := p.others ++ [arg] } args

/-! ### Tasks -/

/-- The format of a written document. -/
inductive Format where
  | json
  | yaml
deriving DecidableEq, Repr, Inhabited

/-- What the program is asked to do. -/
inductive Task where
  | compile (outline : String) (format : Format)
  | parameters (template : String)
  /-- without a format, the name of the output file decides -/
  | build (manifest output : String) (title version : Option String) (format : Option Format)
deriving DecidableEq, Repr, Inhabited

/-- A task, and whether remarks are wanted. -/
structure Invocation where
  verbose : Bool
  task : Task
deriving DecidableEq, Repr, Inhabited

/-- The format of a name. -/
def Format.named? : String → Option Format
  | "json" => some json
  | "yaml" => some yaml
  | _ => none

/-- The option for the format of the output. -/
def formatOption : OptionName := { long := "--format" }

/-- The option for the output file. -/
def outputOption : OptionName := { long := "--output", letter := some 'o' }

/-- The option for the title of a document. -/
def titleOption : OptionName := { long := "--title" }

/-- The option for the version of a document. -/
def versionOption : OptionName := { long := "--version" }

/-- The option for remarks. -/
def verboseOption : OptionName :=
  { long := "--verbose", letter := some 'v', takesValue := false }

/-- The value of an option. -/
def Parsed.value? (p : Parsed) (o : OptionName) : Option String := Table.get? p.options o.long

/-! ### Refusals -/

/-- Why arguments ask for nothing. -/
inductive Refusal where
  /-- they are used in a wrong way -/
  | usage
  /-- the path of a file has the null character in it -/
  | nullInPath
deriving DecidableEq, Repr

/-- What is not there was used in a wrong way. -/
instance : MonadLift Option (Except Refusal) where
  monadLift
    | some a => .ok a
    | none => .error .usage

/-- A path must not have the null character in it. -/
def checkPath (path : String) : Except Refusal Unit :=
  if path.toList.contains (Char.ofNat 0) then throw .nullInPath else return

/-- A format must be known. -/
def checkFormat (name : String) : Except Refusal Unit :=
  if name = "auto" ∨ (Format.named? name).isSome then return else throw .usage

/-- Checks the value of an option of building. -/
def checkBuildOption (o : String × String) : Except Refusal Unit :=
  if o.1 = outputOption.long then checkPath o.2
  else if o.1 = formatOption.long then checkFormat o.2
  else return

/-! ### Invocations -/

/-- The task of compiling an outline. -/
def readCompile? (args : List String) : Option Task := do
  let p ← readArguments [formatOption] false {} args
  let format ← Format.named? ((p.value? formatOption).getD "json")
  match p.others with
  | [outline] => some (.compile outline format)
  | _ => none

/-- The task of showing the parameters of a template. -/
def readParameters? (args : List String) : Option Task := do
  let p ← readArguments [] false {} args
  match p.others with
  | [template] => some (.parameters template)
  | _ => none

/-- The task of building a document. -/
def readBuild (args : List String) : Except Refusal Task := do
  let p ← readArguments [outputOption, titleOption, versionOption, formatOption] false {} args
  p.options.forM checkBuildOption
  p.others.head?.forM checkPath
  match p.others, p.value? outputOption with
  | [manifest], some output =>
    return .build manifest output (p.value? titleOption) (p.value? versionOption)
      ((p.value? formatOption).bind Format.named?)
  | _, _ => throw .usage

/-- What the arguments of the program ask for. -/
def Invocation.read (args : List String) : Except Refusal Invocation := do
  let p ← readArguments [verboseOption] true {} args
  let task : Task ←
    match p.others with
    | "compile" :: args => readCompile? args
    | "params" :: args => readParameters? args
    | "build" :: args => readBuild args
    | _ => throw .usage
  return { verbose := (p.value? verboseOption).isSome, task }

end ApiOutline.Command
