import TripleTable.Partition.Metadata
import TripleTable.Text.Table
set_option autoImplicit false

/-!
Settings: where the metadata is kept, and what is needed to reach it there.
-/
namespace TripleTable

inductive Backend where
  | yaml
  | clickhouse
deriving DecidableEq, Repr

namespace Backend

def name : Backend → Text
  | yaml => "yaml"
  | clickhouse => "clickhouse"

def ofName? (s : Text) : Option Backend :=
  [yaml, clickhouse].find? fun b => b.name = s

def ofText? (s : Text) : Option Backend := ofName? (Text.asciiLower (Text.trim s))

def unknown (s : Text) : Text :=
  "unknown metadata backend '" ++ s ++ "' (expected 'yaml' or 'clickhouse')"

end Backend

structure Settings where
  backend : Backend := .yaml
  metadataFile : Option Text := some "metadata.yaml"
  clickhouseUrl : Option Text := none
  clickhouseUser : Text := "default"
  clickhousePassword : Text := ""
  clickhouseDatabase : Text := "default"
  mappingTable : Text := "TBL_TRANSFORM"
  partitionTable : Text := "PARTITION_INFO"
deriving DecidableEq, Repr

structure Violation where
  field : Text
  code : Text
  message : Text
deriving DecidableEq, Repr

def Violation.text (v : Violation) : Text := v.field ++ ": " ++ v.message

inductive SettingsError where
  | unknownBackend (variableName value : Text)
  | unreadableFile (reason : Text)
  | malformedFile (content : Text)
  | invalid (violations : List Violation)
deriving DecidableEq, Repr

namespace SettingsError

def message : SettingsError → Text
  | unknownBackend variableName value =>
    "Parse error for " ++ variableName ++ ": " ++ value ++ " - " ++ Backend.unknown value
  | unreadableFile reason => "Parse error for yaml_file: file read failed - " ++ reason
  | malformedFile content => "Parse error for yaml_content: " ++ content
  | invalid violations =>
    "Validation error: " ++ Text.join ['\n'] (violations.map Violation.text)

def chain (e : SettingsError) : List Text :=
  e.message :: match e with
    | unknownBackend _ value => [Backend.unknown value]
    | unreadableFile reason => [reason]
    | malformedFile _ => []
    | invalid violations => [Text.join ['\n'] (violations.map Violation.text)]

end SettingsError

namespace Settings

def isPresent : Option Text → Bool
  | some s => !(Text.trim s).isEmpty
  | none => false

def fieldViolations (s : Settings) : List Violation :=
  (if s.mappingTable.isEmpty then
    [⟨"mapping_table", "length", "Mapping table name cannot be empty"⟩] else []) ++
  (if s.partitionTable.isEmpty then
    [⟨"partition_table", "length", "Partition table name cannot be empty"⟩] else [])

def backendViolations (s : Settings) : List Violation :=
  match s.backend with
  | .yaml =>
    if isPresent s.metadataFile then []
    else [⟨"__all__", "metadata_file_required", "The yaml backend needs a metadata file"⟩]
  | .clickhouse =>
    if isPresent s.clickhouseUrl then []
    else [⟨"__all__", "clickhouse_url_required", "The clickhouse backend needs a ClickHouse URL"⟩]

-- The rules that are broken; the backend is looked at once all fields are in order.
def violations (s : Settings) : List Violation :=
  match s.fieldViolations with
  | [] => s.backendViolations
  | broken => broken

def validate (s : Settings) : Except SettingsError Settings :=
  match s.violations with
  | [] => .ok s
  | broken => .error (.invalid broken)

end Settings

inductive MetadataSource where
  | file (path : Text)
  | server (url mappingTable : Text)
deriving DecidableEq, Repr

def Settings.source (s : Settings) : Except Partition.MetadataError MetadataSource :=
  match s.backend with
  | .yaml =>
    match s.metadataFile with
    | some path => .ok (.file path)
    | none => .error (.unavailable "no metadata file configured")
  | .clickhouse =>
    match s.clickhouseUrl with
    | some url => .ok (.server url s.mappingTable)
    | none => .error (.unavailable "no ClickHouse URL configured")

end TripleTable
