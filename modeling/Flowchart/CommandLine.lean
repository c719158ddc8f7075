import Flowchart.Drawing.OfText

/-!
# The command line

The arguments of the program, and what the program does with the files and
streams that it is given.  Reading and writing are parameters, so that the
program can be run in any monad.
-/

namespace Flowchart.CommandLine

/-! ## Arguments -/

/-- A switch. -/
inductive Flag where
  | legacy
  | noLayout
  | compact
  | verbose
  deriving DecidableEq, Repr

/-- An option with a value. -/
inductive Param where
  | input
  | output
  | drill
  | configFile
  deriving DecidableEq, Repr

/-- What the arguments ask for. -/
structure Invocation where
  flags : List Flag
  params : List (Param × String)
  deriving DecidableEq, Repr

/-- What the program is to do. -/
inductive Request where
  | run (invocation : Invocation)
  | help
  | version
  | usageError
  deriving DecidableEq, Repr

/-- What a name of an option stands for. -/
inductive Meaning where
  | flag (flag : Flag)
  | param (param : Param)
  | help
  | version
  deriving DecidableEq, Repr

/-- What is left to do after one argument. -/
inductive Step where
  | next (invocation : Invocation)
  /-- The next argument has to be the value of an option. -/
  | wants (param : Param) (invocation : Invocation)
  | stop (request : Request)
  deriving DecidableEq, Repr

/-- The long names. -/
def longNames : List (String × Meaning) :=
  [("input", .param .input), ("output", .param .output),
    ("legacy", .flag .legacy), ("drill", .param .drill),
    ("configFile", .param .configFile), ("no-layout", .flag .noLayout),
    ("compact", .flag .compact), ("verbose", .flag .verbose), ("help", .help),
    ("version", .version)]

/-- The short names. -/
def shortNames : List (Char × Meaning) :=
  [('i', .param .input), ('o', .param .output), ('c', .param .configFile),
    ('v', .flag .verbose), ('h', .help), ('V', .version)]

namespace Invocation

/-- The invocation without arguments. -/
def empty : Invocation := ⟨[], []⟩

/-- A switch is set. -/
def has (invocation : Invocation) (flag : Flag) : Bool :=
  invocation.flags.contains flag

/-- The value of an option. -/
def value? (invocation : Invocation) (param : Param) : Option String :=
  invocation.params.lookup param

/-- Sets a switch.  It must not be set already. -/
def addFlag (invocation : Invocation) (flag : Flag) : Step :=
  if invocation.has flag then .stop .usageError
  else .next { invocation with flags := flag :: invocation.flags }

/-- Gives an option its value.  It must not have one already, and a path must
not be empty. -/
def addParam (invocation : Invocation) (param : Param) (value : String) :
    Step :=
  if (invocation.value? param).isSome ||
      (value.isEmpty && param != .drill) then
    .stop .usageError
  else
    .next { invocation with params := (param, value) :: invocation.params }

/-- The request that complete arguments make.  Only a step flow can be looked
into. -/
def request (invocation : Invocation) : Request :=
  if invocation.has .legacy && (invocation.value? .drill).isSome then
    .usageError
  else
    .run invocation

end Invocation

/-! ## Reading arguments -/

/-- Reads an argument that starts with two hyphens, without these.  A value may
follow an equals sign. -/
def readLong (invocation : Invocation) (argument : List Char) : Step :=
  let name := String.ofList (argument.takeWhile (· ≠ '='))
  let value? :=
    match argument.dropWhile (· ≠ '=') with
    | [] => none
    | _ :: value => some (String.ofList value)
  match longNames.lookup name, value? with
  | some (.flag flag), none => invocation.addFlag flag
  | some (.param param), none => .wants param invocation
  | some (.param param), some value => invocation.addParam param value
  | some .help, none => .stop .help
  | some .version, none => .stop .version
  | _, _ => .stop .usageError

/-- Reads an argument that starts with one hyphen, without it: several switches,
the last of which may be an option with a value behind it. -/
def readShort (invocation : Invocation) : List Char → Step
  | [] => .next invocation
  | c :: cs =>
    match shortNames.lookup c with
    | some (.flag flag) =>
      match invocation.addFlag flag with
      | .next invocation => readShort invocation cs
      | step => step
    | some (.param param) =>
      match cs with
      | [] => .wants param invocation
      | '=' :: value => invocation.addParam param (String.ofList value)
      | value => invocation.addParam param (String.ofList value)
    | some .help => .stop .help
    | some .version => .stop .version
    | none => .stop .usageError

/-- Reads one argument. -/
def readArgument (invocation : Invocation) (argument : String) : Step :=
  match argument.toList with
  | '-' :: '-' :: name => readLong invocation name
  | '-' :: c :: cs => readShort invocation (c :: cs)
  | _ => .stop .usageError

/-- An argument may be the value of the option before it. -/
def isValue (argument : String) : Bool :=
  match argument.toList with
  | '-' :: _ :: _ => false
  | _ => true

/-- Reads arguments from the left.  Two hyphens end the options, and nothing may
follow them. -/
def readArguments (invocation : Invocation) : List String → Request
  | [] => invocation.request
  | "--" :: rest => if rest.isEmpty then invocation.request else .usageError
  | argument :: rest =>
    match readArgument invocation argument with
    | .next invocation => readArguments invocation rest
    | .stop request => request
    | .wants param invocation =>
      match rest with
      | [] => .usageError
      | value :: rest =>
        if isValue value then
          match invocation.addParam param value with
          | .next invocation => readArguments invocation rest
          | .stop request => request
          | .wants _ _ => .usageError
        else
          .usageError

/-- What arguments ask for. -/
def Request.ofArguments (arguments : List String) : Request :=
  readArguments .empty arguments

/-! ## Running -/

/-- Why a run fails. -/
inductive Failure where
  | unreadable (path : String)
  | badSettings (path : String)
  | unwritable (path : String)
  | noDrawing (error : Error)
  deriving Repr

/-- The wording of a failure. -/
def Failure.message : Failure → String
  | .unreadable path => "cannot read '" ++ path ++ "'"
  | .badSettings path => "no valid settings in '" ++ path ++ "'"
  | .unwritable path => "cannot write '" ++ path ++ "'"
  | .noDrawing error => error.message

/-- The files and streams that a run has access to. -/
structure Surroundings (m : Type → Type) where
  /-- The contents of a file, if it can be read. -/
  fileText : String → m (Option String)
  /-- The contents of standard input. -/
  inputText : m String
  /-- Writes a file and says whether that was possible. -/
  storeText : String → String → m Bool

namespace Invocation

variable {m : Type → Type} [Monad m]

/-- The settings of a run. -/
def settings (surroundings : Surroundings m) (invocation : Invocation) :
    m (Except Failure Settings) := do
  match invocation.value? .configFile with
  | none => return .ok .standard
  | some path =>
    match ← surroundings.fileText path with
    | none => return .error (.unreadable path)
    | some text =>
      match Settings.ofText? text with
      | some settings => return .ok settings
      | none => return .error (.badSettings path)

/-- A path that stands for standard input: a single hyphen.  Slashes and single
dots behind it do not make it another path. -/
def isStandardInput (path : String) : Bool :=
  match Text.splitOn ['/'] 0 path.toList with
  | ['-'] :: pieces => pieces.all fun piece => piece = [] || piece = ['.']
  | _ => false

/-- The text that is drawn: a file or, without a path, standard input. -/
def text (surroundings : Surroundings m) (invocation : Invocation) :
    m (Except Failure String) := do
  match invocation.value? .input with
  | none => return .ok (← surroundings.inputText)
  | some path =>
    if isStandardInput path then
      return .ok (← surroundings.inputText)
    else
      match ← surroundings.fileText path with
      | none => return .error (.unreadable path)
      | some text => return .ok text

/-- What the text is read as. -/
def source (invocation : Invocation) : Source :=
  if invocation.has .legacy then .workflow else .flow (invocation.value? .drill)

/-- The text of the drawing that is asked for. -/
def draw (invocation : Invocation) (settings : Settings) (text : String) :
    Except Failure String :=
  ((Drawing.ofText invocation.source settings (!invocation.has .noLayout)
    text).map (Drawing.toText !invocation.has .compact)).mapError .noDrawing

/-- Hands the text of a drawing over: to a file or, with a line end, to standard
output.  Yields what goes to standard output. -/
def deliver (surroundings : Surroundings m) (invocation : Invocation)
    (drawing : String) : m (Except Failure String) := do
  match invocation.value? .output with
  | none => return .ok (drawing ++ "\n")
  | some path =>
    if ← surroundings.storeText path drawing then return .ok ""
    else return .error (.unwritable path)

/-- Runs the program: settings first, then the text, then the drawing.  Yields
what goes to standard output. -/
def run (surroundings : Surroundings m) (invocation : Invocation) :
    m (Except Failure String) :=
  ExceptT.run do
    let settings ← ExceptT.mk (invocation.settings surroundings)
    let text ← ExceptT.mk (invocation.text surroundings)
    let drawing ← ExceptT.mk (pure (invocation.draw settings text))
    ExceptT.mk (invocation.deliver surroundings drawing)

end Invocation

/-- What the program prints about its version. -/
def versionText : String := "sfg 0.1.0\n"

/-- What the program prints about its arguments. -/
def helpText : String :=
  "Compile workflow step flows into positioned node/edge graphs\n\n" ++
  "Usage: sfg [OPTIONS]\n\n" ++
  "Options:\n" ++
  "  -i, --input <INPUT>            Input file, or '-' for standard input\n" ++
  "  -o, --output <OUTPUT>          " ++
    "Output file, standard output if omitted\n" ++
  "      --legacy                   Input is a chained workflow\n" ++
  "      --drill <PATH>             " ++
    "Draw the nested workflow at this path instead\n" ++
  "  -c, --configFile <CONFIGFILE>  File with layout sizes and edge style\n" ++
  "      --no-layout                " ++
    "Skip the layout; every node stays at the origin\n" ++
  "      --compact                  Write one line instead of many\n" ++
  "  -v, --verbose                  Log details to standard error\n" ++
  "  -h, --help                     Print help\n" ++
  "  -V, --version                  Print version\n"

/-- The end of a run. -/
structure Outcome where
  exitCode : UInt8
  /-- What goes to standard output. -/
  output : String
  failure : Option Failure

/-- Carries a request out. -/
def Request.carryOut [Monad m] (surroundings : Surroundings m) :
    Request → m Outcome
  | .help => return ⟨0, helpText, none⟩
  | .version => return ⟨0, versionText, none⟩
  | .usageError => return ⟨2, "", none⟩
  | .run invocation => do
    match ← invocation.run surroundings with
    | .ok output => return ⟨0, output, none⟩
    | .error failure => return ⟨1, "", some failure⟩

end Flowchart.CommandLine
