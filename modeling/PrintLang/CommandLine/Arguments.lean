import PrintLang.CommandLine.Similarity

/-!
# Arguments

The command line takes an optional script file and flags.  A long flag is given by two hyphens
and its name; letters after one hyphen are short flags.  After `--` all arguments are files.

## Main Definitions

* `Flag` — the flags
* `Request` — what a command line asks for
* `Misuse` — what is wrong with a command line
* `Request.ofArguments` — reading a command line

## Design Notes

Flags are carried out in order: a request for help or for the version ends the reading, and so
does the first misuse.  A misuse shows a usage line with what was given before it.  A file takes
its place among the things given only when a later flag or misuse is reached, which is what
`Progress.settle` is for.
-/

namespace PrintLang

/-- The flags of the command line. -/
inductive Flag
  /-- Start a dialogue. -/
  | interactive
  /-- List the tokens of the script. -/
  | tokens
  /-- List the statements of the script. -/
  | statements
  /-- Log more. -/
  | verbose
  /-- Show the help text. -/
  | help
  /-- Show the version. -/
  | version
deriving DecidableEq, Repr

namespace Flag

/-- All flags. -/
def all : List Flag :=
  [interactive, tokens, statements, verbose, help, version]

/-- The name of a flag after two hyphens. -/
def long : Flag → String
  | interactive => "interactive"
  | tokens => "tokens"
  | statements => "ast"
  | verbose => "verbose"
  | help => "help"
  | version => "version"

/-- The letter of a flag after one hyphen. -/
def short? : Flag → Option Char
  | interactive => some 'i'
  | tokens => none
  | statements => none
  | verbose => some 'v'
  | help => some 'h'
  | version => some 'V'

/-- A flag in usage lines and messages; dots mark the one that counts how often it is given. -/
def label : Flag → String
  | verbose => "--verbose..."
  | flag => "--" ++ flag.long

end Flag

/-- One argument, told apart by its hyphens. -/
inductive Argument
  /-- Two hyphens alone: everything after it is a file. -/
  | escape
  /-- Two hyphens and a name, with what follows the first equals sign. -/
  | long (name : String) (value : Option String)
  /-- One hyphen and letters. -/
  | short (letters : List Char)
  /-- Anything else, also a single hyphen. -/
  | plain (text : String)
deriving DecidableEq, Repr

/-- The kind of an argument. -/
def Argument.ofText (text : String) : Argument :=
  match text.toList with
  | ['-', '-'] => escape
  | '-' :: '-' :: rest =>
    let (name, after) := rest.span (· ≠ '=')
    long (String.ofList name) (after.tail?.map String.ofList)
  | '-' :: letter :: rest => short (letter :: rest)
  | _ => plain text

/-- What a command line asks for. -/
structure Request where
  /-- The script. -/
  file : Option String
  /-- Whether a dialogue is started. -/
  interactive : Bool
  /-- Whether the tokens of the script are listed. -/
  tokens : Bool
  /-- Whether the statements of the script are listed. -/
  statements : Bool
  /-- How often more logging was asked for. -/
  verbosity : Nat
deriving DecidableEq, Repr

/-- Something given on a command line. -/
inductive Given
  | file
  | flag (flag : Flag)
deriving DecidableEq, Repr

/-- What is wrong with a command line. -/
inductive Misuse
  /-- An argument that means nothing here.  It may be similar to a flag, or could be meant as a
  file after `--`. -/
  | unknown (argument : String) (similar : Option Flag) (couldBeFile : Bool)
      (given : List Given)
  /-- A flag that is given twice but does not count. -/
  | repeated (flag : Flag)
  /-- A flag with a value, which no flag takes. -/
  | value (value : String) (flag : Flag) (given : List Given)
deriving DecidableEq, Repr

/-- Why the reading of a command line ends before its end. -/
inductive Ending
  /-- The help text is asked for. -/
  | help
  /-- The version is asked for. -/
  | version
  /-- The command line is misused. -/
  | misuse (misuse : Misuse)
deriving DecidableEq, Repr

/-- What has been read of a command line. -/
structure Progress where
  /-- The request so far. -/
  request : Request
  /-- What has been given so far, in order. -/
  given : List Given
  /-- Whether `--` has been read. -/
  onlyFiles : Bool
deriving DecidableEq, Repr

namespace Progress

/-- Nothing has been read. -/
def initial : Progress :=
  ⟨⟨none, false, false, false, 0⟩, [], false⟩

/-- The progress with the file, if there is one, among the things given. -/
def settle (progress : Progress) : Progress :=
  if progress.request.file.isSome ∧ .file ∉ progress.given then
    { progress with given := progress.given ++ [.file] }
  else
    progress

/-- The things given, with a flag among them.  A flag that is among them already keeps its
place. -/
def including (given : List Given) (flag : Flag) : List Given :=
  if .flag flag ∈ given then given else given ++ [.flag flag]

/-- The progress with a changed request and a flag as the last thing given. -/
def give (progress : Progress) (flag : Flag) (request : Request) : Progress :=
  { progress with
    request := request
    given := progress.given.filter (· ≠ .flag flag) ++ [.flag flag] }

/-- Carries out a flag. -/
def act (progress : Progress) (flag : Flag) : Except Ending Progress :=
  let progress := progress.settle
  let request := progress.request
  let once (already : Bool) (changed : Request) : Except Ending Progress :=
    if already then .error (.misuse (.repeated flag)) else .ok (progress.give flag changed)
  match flag with
  | .interactive => once request.interactive { request with interactive := true }
  | .tokens => once request.tokens { request with tokens := true }
  | .statements => once request.statements { request with statements := true }
  | .verbose => .ok (progress.give flag { request with verbosity := request.verbosity + 1 })
  | .help => .error .help
  | .version => .error .version

/-- Carries out the short flags of one argument. -/
def actAll (progress : Progress) : List Char → Except Ending Progress
  | [] => .ok progress
  | letter :: rest =>
    match Flag.all.find? (·.short? = some letter) with
    | some flag =>
      match progress.act flag with
      | .ok next => next.actAll rest
      | .error ending => .error ending
    | none =>
      .error (.misuse (.unknown ("-" ++ String.singleton letter) none true []))

/-- Reads an argument as a file, of which there can be one. -/
def takeFile (progress : Progress) (text : String) : Except Ending Progress :=
  match progress.request.file with
  | none => .ok { progress with request := { progress.request with file := some text } }
  | some _ => .error (.misuse (.unknown text none false []))

/-- The misuse of a long flag that there is not.  A similar flag counts as given. -/
def unknownLong (progress : Progress) (name : String) : Misuse :=
  let given := progress.settle.given
  let similar := Similarity.closest? name (Flag.all.map Flag.long)
  match similar.bind fun long => Flag.all.find? (·.long = long) with
  | some flag =>
    .unknown ("--" ++ name) (some flag) false (including given flag)
  | none => .unknown ("--" ++ name) none true given

/-- Reads one argument. -/
def step (progress : Progress) (text : String) : Except Ending Progress :=
  if progress.onlyFiles then
    progress.takeFile text
  else
    match Argument.ofText text with
    | .escape => .ok { progress with onlyFiles := true }
    | .long name value =>
      match Flag.all.find? (·.long = name) with
      | some flag =>
        match value with
        | none => progress.act flag
        | some value => .error (.misuse (.value value flag (including progress.given flag)))
      | none => .error (.misuse (progress.unknownLong name))
    | .short letters => progress.actAll letters
    | .plain text => progress.takeFile text

/-- Reads arguments in order, up to the first that ends the reading. -/
def feed (progress : Progress) : List String → Except Ending Progress
  | [] => .ok progress
  | text :: rest =>
    match progress.step text with
    | .ok next => next.feed rest
    | .error ending => .error ending

end Progress

/-- What a command line asks for, or why it cannot be read as a request. -/
def Request.ofArguments (arguments : List String) : Except Ending Request :=
  (Progress.initial.feed arguments).map (·.request)

end PrintLang
