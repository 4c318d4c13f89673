/-!
# Names that are safe inside a statement

Names of tables, sequences and columns are cut down to ASCII letters, digits, underscores and, for
tables and sequences, dots.

* `tableName` and `columnName` drop every other character;
* `isTableName_tableName` and `isColumnName_columnName`: what is left holds only those.
-/

namespace DurableQueue.Identifier

/-- A character that may stand in the name of a column. -/
def isColumnChar (c : Char) : Bool := c.isAlphanum || c = '_'

/-- A character that may stand in the name of a table or of a sequence. -/
def isTableChar (c : Char) : Bool := isColumnChar c || c = '.'

/-- A text made of table characters only. -/
def IsTableName (s : String) : Prop := ∀ c ∈ s.toList, isTableChar c = true

/-- A text made of column characters only. -/
def IsColumnName (s : String) : Prop := ∀ c ∈ s.toList, isColumnChar c = true

/-- The table or sequence name that is left of a text. -/
def tableName (s : String) : String := String.ofList (s.toList.filter isTableChar)

/-- The column name that is left of a text. -/
def columnName (s : String) : String := String.ofList (s.toList.filter isColumnChar)

theorem isTableName_tableName (s : String) : IsTableName (tableName s) := by
  intro c hc
  simp only [tableName, String.toList_ofList, List.mem_filter] at hc
  exact hc.2

theorem isColumnName_columnName (s : String) : IsColumnName (columnName s) := by
  intro c hc
  simp only [columnName, String.toList_ofList, List.mem_filter] at hc
  exact hc.2

/-- A column name is a table name. -/
theorem IsColumnName.isTableName {s : String} (h : IsColumnName s) : IsTableName s :=
  fun c hc => by simp [isTableChar, h c hc]

theorem tableName_eq_self {s : String} (h : IsTableName s) : tableName s = s := by
  rw [tableName, List.filter_eq_self.2 h, String.ofList_toList]

theorem columnName_eq_self {s : String} (h : IsColumnName s) : columnName s = s := by
  rw [columnName, List.filter_eq_self.2 h, String.ofList_toList]

end DurableQueue.Identifier
