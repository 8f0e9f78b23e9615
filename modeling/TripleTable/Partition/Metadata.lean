import TripleTable.Text.Basic
set_option autoImplicit false

/-!
What is known about partitioned tables: the tables that stand for others, and the columns whose
values select a partition.
-/
namespace TripleTable.Partition

structure TableMapping where
  origin : Text
  id : Int
  target : Text
deriving DecidableEq, Repr

-- A column of the target table numbers partitions: it holds a column of the origin table,
-- divided by `floor` and rounded down.
structure Attribute where
  tableId : Int
  originColumn : Text
  targetColumn : Text
  floor : Int
deriving DecidableEq, Repr

structure Metadata where
  mappings : List TableMapping := []
  attributes : List Attribute := []
deriving DecidableEq, Repr

def Metadata.attributesOf (metadata : Metadata) (ids : List Int) : List Attribute :=
  (metadata.attributes.filter fun a => ids.contains a.tableId).mergeSort
    fun a b => a.tableId ≤ b.tableId

inductive MetadataError where
  | unreadable (path reason : Text)
  | malformed (path : Text)
  | unavailable (reason : Text)
  | unreachable (table : Text)
deriving DecidableEq, Repr

namespace MetadataError

def message : MetadataError → Text
  | unreadable path reason => "Failed to read metadata file " ++ path ++ ": " ++ reason
  | malformed path => "Failed to parse metadata file " ++ path
  | unavailable reason => "Metadata store unavailable: " ++ reason
  | unreachable table => "Metadata query against " ++ table ++ " failed"

def chain : MetadataError → List Text
  | unreadable path reason => [message (unreadable path reason), reason]
  | e => [e.message]

end MetadataError
end TripleTable.Partition
