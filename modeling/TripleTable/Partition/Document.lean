import TripleTable.Partition.Metadata
import TripleTable.Yaml.Value
set_option autoImplicit false

/-!
Metadata as a YAML document: a list of tables and a list of partitioned columns, both of which may
be left out.
-/
namespace TripleTable.Partition
open Yaml

def TableMapping.ofValue? (v : Value) : Option TableMapping := do
  let entries ← v.record? ["origin", "id", "target"]
  return {
    origin := ← required? entries "origin" Value.text?
    id := ← required? entries "id" Value.int?
    target := ← required? entries "target" Value.text? }

def Attribute.ofValue? (v : Value) : Option Attribute := do
  let entries ← v.record? ["table_id", "origin", "target", "floor"]
  return {
    tableId := ← required? entries "table_id" Value.int?
    originColumn := ← required? entries "origin" Value.text?
    targetColumn := ← required? entries "target" Value.text?
    floor := ← required? entries "floor" Value.int? }

def listOf? {α : Type} (read : Value → Option α) (v : Value) : Option (List α) := do
  (← v.items?).mapM read

def Metadata.ofValue? (v : Value) : Option Metadata := do
  let entries ← v.record? ["tables", "partitions"]
  return {
    mappings := ← withDefault? entries "tables" (listOf? TableMapping.ofValue?) []
    attributes := ← withDefault? entries "partitions" (listOf? Attribute.ofValue?) [] }

def Metadata.ofText? (s : Text) : Option Metadata :=
  if (Text.trim s).isEmpty then some {} else (value? s).bind Metadata.ofValue?

def Metadata.ofFile (path : Text) : Except Text Text → Except MetadataError Metadata
  | .error reason => .error (.unreadable path reason)
  | .ok content =>
    match Metadata.ofText? content with
    | some metadata => .ok metadata
    | none => .error (.malformed path)

end TripleTable.Partition
