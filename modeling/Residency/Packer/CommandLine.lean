/-!
# The command line

The program has two commands, each with options that take a value and, for `pack`, any number of
files.  `Command.ofArguments` reads the arguments, and `Refusal` tells a request for help from a
command line that cannot be followed.

An option has a long name behind two hyphens, with its value in the next argument or behind an
equals sign, and a short name behind one hyphen, with its value in the next argument or right
behind the name.  A value in an argument of its own does not start with a hyphen, unless it is a
single one.  Behind an argument of two hyphens everything is a file.
-/

namespace Residency

inductive Command where
  /-- Builds an image of `sectors` sectors that holds the files. -/
  | pack (image : String) (sectors : UInt32) (files : List String)
  /-- Writes out the file with a given descriptor sector. -/
  | cat (image : String) (inumber : UInt32)
deriving DecidableEq

inductive Refusal where
  | help
  /-- The arguments make no command. -/
  | usage
deriving DecidableEq

inductive ValueKind where
  | path
  | number
deriving DecidableEq

structure CommandOption where
  long : String
  short : Char
  kind : ValueKind
deriving DecidableEq

structure CommandShape where
  options : List CommandOption
  takesFiles : Bool

/-- What the arguments of a command give so far. -/
structure Arguments where
  /-- The options with their values, the latest first. -/
  options : List (CommandOption × String) := []
  /-- The files, the latest first. -/
  files : List String := []

def Arguments.value? (arguments : Arguments) (option : CommandOption) : Option String :=
  arguments.options.lookup option

/-- A number of 32 bits: an optional sign and decimal digits. -/
def readNumber (text : String) : Option UInt32 :=
  let (negative, digits) := match text.toList with
    | '-' :: digits => (true, digits)
    | '+' :: digits => (false, digits)
    | digits => (false, digits)
  if digits.isEmpty || !digits.all Char.isDigit then none
  else
    let n := digits.foldl (fun n digit => 10 * n + (digit.toNat - '0'.toNat)) 0
    if negative then if n = 0 then some 0 else none
    else if n < UInt32.size then some (.ofNat n) else none

/-- Whether a text is a value of a kind: a path has at least one character. -/
def ValueKind.accepts : ValueKind → String → Bool
  | .path, text => !text.isEmpty
  | .number, text => (readNumber text).isSome

namespace CommandShape

/-- Adds an option, which may be given once and only with a value of its kind. -/
def addOption (arguments : Arguments) (option : CommandOption) (value : String) :
    Except Refusal Arguments :=
  if (arguments.value? option).isNone && option.kind.accepts value then
    .ok { arguments with options := (option, value) :: arguments.options }
  else .error .usage

/-- Adds a file, which needs a name. -/
def addFile (shape : CommandShape) (arguments : Arguments) (file : String) :
    Except Refusal Arguments :=
  if shape.takesFiles && ValueKind.path.accepts file then
    .ok { arguments with files := file :: arguments.files }
  else .error .usage

inductive Word where
  | help
  | complete (option : CommandOption) (value : String)
  | pending (option : CommandOption)
  | unknown

def longWord (shape : CommandShape) (text : List Char) : Word :=
  let name := String.ofList (text.takeWhile (· ≠ '='))
  match shape.options.find? (·.long == name), text.dropWhile (· ≠ '=') with
  | some option, [] => .pending option
  | some option, _ :: value => .complete option (String.ofList value)
  | none, rest => if name == "help" && rest.isEmpty then .help else .unknown

def shortWord (shape : CommandShape) (letter : Char) (text : List Char) : Word :=
  match shape.options.find? (·.short == letter), text with
  | some option, [] => .pending option
  | some option, '=' :: value => .complete option (String.ofList value)
  | some option, value => .complete option (String.ofList value)
  | none, _ => if letter == 'h' then .help else .unknown

/-- Reads an argument that starts with a hyphen and has more than that. -/
def word? (shape : CommandShape) (argument : String) : Option Word :=
  match argument.toList with
  | '-' :: '-' :: text => some (shape.longWord text)
  | '-' :: letter :: text => some (shape.shortWord letter text)
  | _ => none

def isValue (argument : String) : Bool :=
  argument == "-" || !argument.startsWith "-"

/-- Reads the arguments of a command one after the other. -/
def read (shape : CommandShape) (arguments : Arguments) :
    List String → Except Refusal Arguments
  | [] => .ok arguments
  | "--" :: rest => rest.foldlM shape.addFile arguments
  | argument :: rest =>
    match shape.word? argument, rest with
    | none, rest => do shape.read (← shape.addFile arguments argument) rest
    | some .help, _ => .error .help
    | some .unknown, _ => .error .usage
    | some (.complete option value), rest => do
      shape.read (← addOption arguments option value) rest
    | some (.pending _), [] => .error .usage
    | some (.pending option), value :: rest =>
      if isValue value then do shape.read (← addOption arguments option value) rest
      else .error .usage

end CommandShape

namespace Command

def outOption : CommandOption := { long := "out", short := 'o', kind := .path }

def sectorsOption : CommandOption := { long := "sectors", short := 's', kind := .number }

def imageOption : CommandOption := { long := "image", short := 'i', kind := .path }

def inumberOption : CommandOption := { long := "inumber", short := 'n', kind := .number }

def packShape : CommandShape where
  options := [outOption, sectorsOption]
  takesFiles := true

def catShape : CommandShape where
  options := [imageOption, inumberOption]
  takesFiles := false

def defaultSectors : UInt32 := 4096

def ofPackArguments (arguments : Arguments) : Option Command := do
  let image ← arguments.value? outOption
  let sectors ← match arguments.value? sectorsOption with
    | some value => readNumber value
    | none => some defaultSectors
  return .pack image sectors arguments.files.reverse

def ofCatArguments (arguments : Arguments) : Option Command := do
  let image ← arguments.value? imageOption
  let inumber ← readNumber (← arguments.value? inumberOption)
  return .cat image inumber

/-- The command of the arguments of a program. -/
def ofArguments : List String → Except Refusal Command
  | "pack" :: rest => do
    let arguments ← packShape.read {} rest
    (ofPackArguments arguments).elim (.error .usage) .ok
  | "cat" :: rest => do
    let arguments ← catShape.read {} rest
    (ofCatArguments arguments).elim (.error .usage) .ok
  | ["help"] | ["help", "pack"] | ["help", "cat"] | ["help", "help"] => .error .help
  | argument :: _ =>
    if argument = "--help" ∨ argument.startsWith "-h" then .error .help else .error .usage
  | [] => .error .usage

end Command

end Residency
