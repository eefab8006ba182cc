import PrintLang.CommandLine.Arguments
import PrintLang.Text.Terminal

/-!
# Usage

The texts that explain the command line: the help text, the version and what is said about a
misuse.

## Main Definitions

* `Usage.help`, `Usage.version` — the texts for those who ask
* `Misuse.lines` — the lines for those who did not
-/

namespace PrintLang

namespace Usage

/-- The name of the program. -/
def program : String := "quill"

/-- The number of the version. -/
def versionNumber : String := "0.1.0"

/-- The version of the program. -/
def version : String :=
  program ++ " " ++ versionNumber ++ "\n"

/-- The flags given on a command line, in order and each once. -/
def flags (given : List Given) : List Flag :=
  given.filterMap fun
    | .flag flag => some flag
    | .file => none

/-- The usage line.  If nothing has been given it is the general one; otherwise it shows the
flags given and whether a file was. -/
def line (given : List Given) : String :=
  let options :=
    if given.isEmpty then " [OPTIONS]"
    else String.join ((flags given).map fun flag => " " ++ flag.label)
  let file := if .file ∈ given then " <FILE>" else " [FILE]"
  "Usage: " ++ program ++ options ++ file

/-- The help text. -/
def help : String :=
  "A tiny interpreter for variables, arithmetic and print\n\n" ++ line [] ++ "\n\n"
    ++ "Arguments:\n"
    ++ "  [FILE]  The script file to execute\n\n"
    ++ "Options:\n"
    ++ "  -i, --interactive  Start the REPL, after running FILE if one is given\n"
    ++ "      --tokens       Print the token stream before running\n"
    ++ "      --ast          Print the parsed statements before running\n"
    ++ "  -v, --verbose...   Increase log verbosity (-v info, -vv debug, -vvv trace)\n"
    ++ "  -h, --help         Print help\n"
    ++ "  -V, --version      Print version\n"

end Usage

namespace Misuse

/-- What is wrong.  A text from the command line is quoted as a terminal shows it. -/
def message : Misuse → String
  | unknown argument .. =>
    "error: unexpected argument '" ++ Terminal.shown argument ++ "' found"
  | repeated flag => "error: the argument '" ++ flag.label ++ "' cannot be used multiple times"
  | value text flag _ =>
    "error: unexpected value '" ++ Terminal.shown text ++ "' for '" ++ flag.label
      ++ "' found; no more were expected"

/-- What could have been meant. -/
def tip : Misuse → Option String
  | unknown _ (some flag) _ _ => some ("  tip: a similar argument exists: '--" ++ flag.long ++ "'")
  | unknown argument none true _ =>
    let shown := Terminal.shown argument
    some ("  tip: to pass '" ++ shown ++ "' as a value, use '-- " ++ shown ++ "'")
  | _ => none

/-- What the usage line shows as given. -/
def given : Misuse → List Given
  | unknown _ _ _ given => given
  | repeated _ => []
  | value _ _ given => given

/-- The lines about a misuse. -/
def lines (misuse : Misuse) : List String :=
  [misuse.message, ""]
    ++ (match misuse.tip with
        | some tip => [tip, ""]
        | none => [])
    ++ [Usage.line misuse.given, "", "For more information, try '--help'."]

end Misuse

end PrintLang
