import PrintLang.Session

/-!
# Scripts

A script is a program that runs in a session of its own.  On request, its tokens and its
statements are written before it runs.

## Main Definitions

* `Dump` — which of the two listings are requested
* `Script.run` — running a script
-/

namespace PrintLang

/-- The listings that are written before a script runs. -/
structure Dump where
  /-- Whether the tokens are listed. -/
  tokens : Bool
  /-- Whether the statements are listed. -/
  statements : Bool
deriving DecidableEq, Repr

namespace Script

/-- A listing is on behalf of no text of the script; its faults point at the first character. -/
def listingSpan : Span :=
  .single 0

/-- Writes a heading and the displays of items below it, if that is requested. -/
def list {α : Type} (session : Session) (requested : Bool) (heading : String)
    (display : α → String) (items : List α) : Outcome :=
  if requested then session.emitAll listingSpan (heading :: items.map display)
  else ⟨session, none⟩

/-- Writes the listing of tokens. -/
def listTokens (dump : Dump) (session : Session) (tokens : List Token) : Outcome :=
  list session dump.tokens "--- Tokens ---" Token.display tokens

/-- Writes the listing of statements. -/
def listStatements (dump : Dump) (session : Session) (statements : List Tree) : Outcome :=
  list session dump.statements "--- AST ---" Tree.display statements

/-- Writes the line that separates listings from the output of the script. -/
def separate (dump : Dump) (session : Session) : Outcome :=
  list session (dump.tokens || dump.statements) "--- Output ---" (id : String → String) []

/-- Runs the statements of a script, after their listing. -/
def runStatements (dump : Dump) (session : Session) (statements : List Tree) : Outcome :=
  let session := session.record (.parsed statements.length)
  (listStatements dump session statements).andThen fun session =>
  (separate dump session).andThen fun session =>
  (session.interpret statements).andThen fun session =>
    ⟨session.record (.finished session.environment.size), none⟩

/-- Runs a script that writes to `sink`. -/
def run (dump : Dump) (source : String) (sink : Sink) : Outcome :=
  let session := Session.fresh sink
  match Token.scan source with
  | .error fault => ⟨session, some fault⟩
  | .ok scan =>
    let session := (session.noteOpenQuote scan).record (.scanned scan.tokens.length)
    (listTokens dump session scan.tokens).andThen fun session =>
      match Tree.ofTokens scan.tokens with
      | .error fault => ⟨session, some fault⟩
      | .ok statements => runStatements dump session statements

end Script

end PrintLang
