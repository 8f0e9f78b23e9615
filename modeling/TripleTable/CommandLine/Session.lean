import TripleTable.CommandLine.Arguments
import TripleTable.Partition.Document
import TripleTable.Partition.Rewrite
import TripleTable.Plan.Json
import TripleTable.Settings.EnvFile
import TripleTable.Translation
set_option autoImplicit false

/-!
A run of the program as a tree: it asks for files and for the standard input, and ends with a
result.
-/
namespace TripleTable.CommandLine
open TripleTable.Partition

structure Result where
  code : Nat
  output : Text := []
  errors : Text := []
deriving DecidableEq, Repr

inductive Session where
  | done (result : Result)
  | readInput (next : Text → Session)
  | readFile (path : Text) (next : Except Text Text → Session)

namespace Session

def run (files : Text → Except Text Text) (input : Text) : Session → Result
  | done result => result
  | readInput next => (next input).run files input
  | readFile path next => (next (files path)).run files input

def fail (chain : List Text) : Session :=
  done { code := 1, errors := "Error: " ++ Text.join ": " chain ++ "\n" }

def print (s : Text) (errors : Text := []) : Session :=
  done { code := 0, output := s ++ ['\n'], errors }

-- Goes on with the text of a file, or of the standard input where none is named.
def withQuery (file : Option Text) (next : Text → Session) : Session :=
  match file with
  | none => readInput next
  | some path => readFile path fun content =>
    match content with
    | .ok s => next s
    | .error reason => fail ["failed to read " ++ path, reason]

def translate (file : Option Text) (plan : Bool) : Session :=
  withQuery file fun query =>
    match TripleTable.translate query with
    | .error e => fail e.chain
    | .ok translation =>
      print (if plan then translation.plan.json.pretty else translation.sql)

def report : Except RewriteError Outcome → Session
  | .error e => fail e.chain
  | .ok outcome =>
    print outcome.sql (outcome.skipped.flatMap fun s => "skipped " ++ s.text ++ "\n")

def rewriteFrom (source : MetadataSource) (sql : Text) : Session :=
  match source with
  | .file path => readFile path fun content =>
    report (Partition.rewrite (Metadata.ofFile path content) sql)
  | .server _ table => report (Partition.rewrite (.error (.unreachable table)) sql)

def rewrite (file : Option Text) (settings : Except SettingsError Settings) : Session :=
  match settings with
  | .error e => fail e.chain
  | .ok settings =>
    match settings.source with
    | .error e => fail e.chain
    | .ok source => withQuery file fun query => rewriteFrom source (Text.trim query)

def invoke (env : Environment) (invocation : Invocation) : Session :=
  match invocation.command with
  | .translate file plan => translate file plan
  | .rewrite file =>
    match invocation.overrides.configFile with
    | none => rewrite file (Settings.ofCommandLine invocation.overrides none env)
    | some path => readFile path fun content =>
      rewrite file (Settings.ofCommandLine invocation.overrides (some content) env)

def usage : Text :=
  "Usage: sparql2sql [OPTIONS] <COMMAND>\n\nCommands:\n" ++
  "  translate  Translate a SPARQL SELECT query into SQL\n" ++
  "  rewrite    Rewrite a SQL query to use partitioned tables\n"

-- A run with the given environment and arguments. Variables may stand in a file of their own.
def ofArguments (env : Environment) (arguments : List Text) : Session :=
  readFile ".env" fun content =>
    let env := (content.toOption.map (EnvFile.extend env)).getD env
    match Request.ofArguments arguments with
    | .run invocation => invoke env invocation
    | .help => done { code := 0, output := usage }
    | .version => print "sparql2sql 0.3.1-dev"
    | .misuse => done { code := 2, errors := usage }

end Session
end TripleTable.CommandLine
