import TripleTable.Settings.Load
set_option autoImplicit false

/-!
The arguments of a run: a command, its file, and the options.
-/
namespace TripleTable.CommandLine

inductive Command where
  | translate (file : Option Text) (plan : Bool)
  | rewrite (file : Option Text)
deriving DecidableEq, Repr

structure Invocation where
  command : Command
  overrides : Overrides
deriving DecidableEq, Repr

inductive Request where
  | run (invocation : Invocation)
  | help
  | version
  | misuse
deriving DecidableEq, Repr

inductive ValueOption where
  | config
  | metadataBackend
  | metadataFile
  | clickhouseUrl
deriving DecidableEq, Repr

def ValueOption.ofName? (name : Text) : Option ValueOption :=
  List.lookup (String.ofList name) [
    ("config", config), ("metadata-backend", metadataBackend), ("metadata-file", metadataFile),
    ("clickhouse-url", clickhouseUrl)]

-- Sets an option; each at most once, a file with a name, a backend that is known.
def setOption? (o : Overrides) (option : ValueOption) (value : Text) : Option Overrides :=
  match option with
  | .config =>
    if o.configFile.isSome ∨ value.isEmpty then none else some { o with configFile := some value }
  | .metadataBackend =>
    if o.backend.isSome then none
    else (Backend.ofText? value).map fun b => { o with backend := some b }
  | .metadataFile =>
    if o.metadataFile.isSome then none else some { o with metadataFile := some value }
  | .clickhouseUrl =>
    if o.clickhouseUrl.isSome then none else some { o with clickhouseUrl := some value }

inductive Argument where
  | word (text : Text)
  | endOfOptions
  | long (name : Text) (value : Option Text)
  | short (letters : Text)

def Argument.ofText : Text → Argument
  | ['-', '-'] => .endOfOptions
  | '-' :: '-' :: s =>
    let name := s.takeWhile (· != '=')
    let rest := s.drop name.length
    .long name (if rest.isEmpty then none else some (rest.drop 1))
  | '-' :: c :: s => .short (c :: s)
  | s => .word s

-- What follows an option that takes a value: the value and the further arguments.
def optionValue? (value : Option Text) (rest : List Text) : Option (Text × List Text) :=
  match value, rest with
  | some v, rest => some (v, rest)
  | none, [] => none
  | none, v :: rest =>
    match Argument.ofText v with
    | .word v => some (v, rest)
    | _ => none

structure CommandArguments where
  overrides : Overrides := {}
  file : Option Text := none
  plan : Bool := false

def addFile? (a : CommandArguments) (file : Text) : Option CommandArguments :=
  if a.file.isSome ∨ file.isEmpty then none else some { a with file := some file }

-- The arguments behind the name of a command, in at most so many steps. Behind two dashes all
-- arguments are files.
def readCommand (plan : Bool) (a : CommandArguments) (onlyFiles : Bool) :
    Nat → List Text → Except Request CommandArguments
  | _, [] => .ok a
  | 0, _ => .error .misuse
  | n + 1, s :: rest =>
    let withFile : Except Request CommandArguments :=
      match addFile? a s with
      | some a => readCommand plan a onlyFiles n rest
      | none => .error .misuse
    if onlyFiles then withFile
    else
      match Argument.ofText s with
      | .word _ => withFile
      | .endOfOptions => readCommand plan a true n rest
      | .short letters => .error (if letters.head? = some 'h' then .help else .misuse)
      | .long name value =>
        match ValueOption.ofName? name with
        | some option =>
          match optionValue? value rest with
          | some (v, rest) =>
            match setOption? a.overrides option v with
            | some overrides => readCommand plan { a with overrides } onlyFiles n rest
            | none => .error .misuse
          | none => .error .misuse
        | none =>
          if value.isSome then .error .misuse
          else if name = "help".toList then .error .help
          else if name = "plan".toList ∧ plan ∧ !a.plan then
            readCommand plan { a with plan := true } onlyFiles n rest
          else .error .misuse

def merge (before behind : Overrides) : Overrides where
  configFile := behind.configFile <|> before.configFile
  backend := behind.backend <|> before.backend
  metadataFile := behind.metadataFile <|> before.metadataFile
  clickhouseUrl := behind.clickhouseUrl <|> before.clickhouseUrl

def finish (before : Overrides) (command : CommandArguments → Command)
    (result : Except Request CommandArguments) : Request :=
  match result with
  | .ok a => .run ⟨command a, merge before a.overrides⟩
  | .error request => request

def readNamed (before : Overrides) (name : Text) (rest : List Text) : Request :=
  if name = "translate".toList then
    finish before (fun a => .translate a.file a.plan) (readCommand true {} false rest.length rest)
  else if name = "rewrite".toList then
    finish before (fun a => .rewrite a.file) (readCommand false {} false rest.length rest)
  else if name = "help".toList then
    match rest with
    | [] => .help
    | [topic] => if topic ∈ ["translate".toList, "rewrite".toList, "help".toList] then .help
      else .misuse
    | _ => .misuse
  else .misuse

def readOptions (o : Overrides) : Nat → List Text → Request
  | _, [] => .misuse
  | 0, _ => .misuse
  | n + 1, s :: rest =>
    match Argument.ofText s with
    | .word name => readNamed o name rest
    | .endOfOptions => .misuse
    | .short letters =>
      if letters.head? = some 'h' then .help
      else if letters.head? = some 'V' then .version
      else .misuse
    | .long name value =>
      match ValueOption.ofName? name with
      | some option =>
        match optionValue? value rest with
        | some (v, rest) =>
          match setOption? o option v with
          | some o => readOptions o n rest
          | none => .misuse
        | none => .misuse
      | none =>
        if value.isSome then .misuse
        else if name = "help".toList then .help
        else if name = "version".toList then .version
        else .misuse

def Request.ofArguments (arguments : List Text) : Request :=
  readOptions {} arguments.length arguments

end TripleTable.CommandLine
