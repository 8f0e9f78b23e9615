import TripleTable.Settings.Basic
import TripleTable.Yaml.Value
set_option autoImplicit false

/-!
Settings from the environment, from a file, and from the command line, which has the last word.
-/
namespace TripleTable
open Yaml

abbrev Environment := NameTable Text

structure Overrides where
  configFile : Option Text := none
  backend : Option Backend := none
  metadataFile : Option Text := none
  clickhouseUrl : Option Text := none
deriving DecidableEq, Repr

namespace Settings

def variableNames : List String := [
  "SPARQL2SQL_METADATA_BACKEND", "SPARQL2SQL_METADATA_FILE", "CLICKHOUSE_URL", "CLICKHOUSE_USER",
  "CLICKHOUSE_PASSWORD", "CLICKHOUSE_DATABASE", "SPARQL2SQL_MAPPING_TABLE",
  "SPARQL2SQL_PARTITION_TABLE"]

def readEnvironment (env : Environment) : Except SettingsError Settings :=
  let value (name : String) (default : Text) : Text := (env.find? name).getD default
  let backend := value "SPARQL2SQL_METADATA_BACKEND" "yaml"
  match Backend.ofText? backend with
  | none => .error (.unknownBackend "SPARQL2SQL_METADATA_BACKEND" backend)
  | some backend => .ok {
      backend
      metadataFile := some (value "SPARQL2SQL_METADATA_FILE" "metadata.yaml")
      clickhouseUrl := env.find? "CLICKHOUSE_URL"
      clickhouseUser := value "CLICKHOUSE_USER" "default"
      clickhousePassword := value "CLICKHOUSE_PASSWORD" ""
      clickhouseDatabase := value "CLICKHOUSE_DATABASE" "default"
      mappingTable := value "SPARQL2SQL_MAPPING_TABLE" "TBL_TRANSFORM"
      partitionTable := value "SPARQL2SQL_PARTITION_TABLE" "PARTITION_INFO" }

def ofValue? (v : Value) : Option Settings := do
  let entries ← v.record? ["metadata_backend", "metadata_file", "clickhouse_url",
    "clickhouse_user", "clickhouse_password", "clickhouse_database", "mapping_table",
    "partition_table"]
  let text (field : String) (default : Text) : Option Text :=
    withDefault? entries field Value.text? default
  return {
    backend := ← required? entries "metadata_backend" fun v => v.choice?.bind Backend.ofName?
    metadataFile := ← withDefault? entries "metadata_file" Value.optionalText? none
    clickhouseUrl := ← withDefault? entries "clickhouse_url" Value.optionalText? none
    clickhouseUser := ← text "clickhouse_user" "default"
    clickhousePassword := ← text "clickhouse_password" ""
    clickhouseDatabase := ← text "clickhouse_database" "default"
    mappingTable := ← text "mapping_table" "TBL_TRANSFORM"
    partitionTable := ← text "partition_table" "PARTITION_INFO" }

def readFile : Except Text Text → Except SettingsError Settings
  | .error reason => .error (.unreadableFile reason)
  | .ok content =>
    match (value? content).bind ofValue? with
    | some settings => .ok settings
    | none => .error (.malformedFile content)

def override (s : Settings) (o : Overrides) : Settings :=
  { s with
    backend := o.backend.getD s.backend
    metadataFile := o.metadataFile <|> s.metadataFile
    clickhouseUrl := o.clickhouseUrl <|> s.clickhouseUrl }

def ofEnvironment (env : Environment) : Except SettingsError Settings := do
  (← readEnvironment env).validate

def ofFile (content : Except Text Text) : Except SettingsError Settings := do
  (← readFile content).validate

-- The settings of a run: those of the file, or of the environment where none is named, with what
-- the command line says instead.
def ofCommandLine (o : Overrides) (file : Option (Except Text Text)) (env : Environment) :
    Except SettingsError Settings := do
  let settings ←
    match file with
    | some content => readFile content
    | none => readEnvironment env
  (settings.override o).validate

end Settings
end TripleTable
