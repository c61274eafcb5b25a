import ShardedSql.Result.Value
import ShardedSql.Text.Case

namespace ShardedSql.Result

/-- A column with the table that it was read from, where that is known. -/
structure Column where
  name : String
  table : Option String
  deriving DecidableEq

/-- What a statement answers: rows for a read, counts for a write. -/
structure ResultSet where
  columns : List Column
  rows : List (List Value)
  affected : UInt64
  insertId : UInt64
  deriving DecidableEq

namespace ResultSet

def empty : ResultSet := ⟨[], [], 0, 0⟩

def ofRows (names : List String) (rows : List (List Value)) : ResultSet :=
  ⟨names.map fun n => ⟨n, none⟩, rows, 0, 0⟩

def ofCounts (affected insertId : UInt64) : ResultSet := ⟨[], [], affected, insertId⟩

end ResultSet

/-- The first column of a name, whatever the case of its letters. -/
def columnIndex? (columns : List Column) (name : String) : Option Nat :=
  columns.findIdx? fun c => Text.sameName c.name name

def barSeparated (cells : List String) : String := String.intercalate " | " cells

def headerLine (columns : List Column) : String := barSeparated (columns.map (·.name))

def rowLine (row : List Value) : String := barSeparated (row.map Value.shown)

end ShardedSql.Result
