import RowStore.Sql.Literal

/-!
# Statements

The statements on rows of one table, and their text. Columns are names as the server knows them,
and every value is a literal.
-/

namespace RowStore.Sql

/-- A test of one column. A row passes a list of conditions when it passes each of them. -/
inductive Condition where
  | isNull (column : String)
  | isNotNull (column : String)
  | compare (column : String) (comparison : Comparison) (operand : Literal)
  | among (column : String) (options : List Literal)
  | notAmong (column : String) (options : List Literal)
  deriving DecidableEq

structure Ordering where
  column : String
  descending : Bool
  deriving DecidableEq

/-- The rows of a result that are returned. -/
inductive Window where
  | all
  | first (limit : Nat)
  | slice (limit offset : Nat)
  deriving DecidableEq

structure Select where
  distinct : Bool
  /-- The columns of the result; `none` stands for every column. -/
  columns : Option (List String)
  table : String
  conditions : List Condition
  groups : List String
  orderings : List Ordering
  window : Window
  deriving DecidableEq

inductive Statement where
  | select (s : Select)
  /-- The number of rows, in a column of its own. -/
  | count (column table : String) (conditions : List Condition)
  | delete (table : String) (conditions : List Condition) (orderings : List Ordering)
    (window : Window)
  | update (table : String) (assignments : List (String × Literal)) (conditions : List Condition)
    (orderings : List Ordering) (window : Window)
  deriving DecidableEq

/-! ## Text -/

def commaText (parts : List String) : String := ", ".intercalate parts

def namesText (names : List String) : String := commaText (names.map quoteName)

namespace Condition

def text : Condition → String
  | isNull column => quoteName column ++ " IS NULL"
  | isNotNull column => quoteName column ++ " IS NOT NULL"
  | compare column comparison operand =>
    quoteName column ++ " " ++ comparison.text ++ " " ++ operand.text
  | among column options => quoteName column ++ " IN " ++ Literal.tupleText options
  | notAmong column options => quoteName column ++ " NOT IN " ++ Literal.tupleText options

end Condition

def whereText (conditions : List Condition) : String :=
  if conditions.isEmpty then ""
  else " WHERE " ++ " AND ".intercalate (conditions.map Condition.text)

def groupText (groups : List String) : String :=
  if groups.isEmpty then "" else " GROUP BY " ++ namesText groups

def Ordering.text (o : Ordering) : String :=
  quoteName o.column ++ (if o.descending then " DESC" else " ASC")

def orderText (orderings : List Ordering) : String :=
  if orderings.isEmpty then "" else " ORDER BY " ++ commaText (orderings.map Ordering.text)

def Window.text : Window → String
  | all => ""
  | first limit => " LIMIT " ++ natText limit
  | slice limit offset => " LIMIT " ++ natText limit ++ " OFFSET " ++ natText offset

def assignmentText (a : String × Literal) : String := quoteName a.1 ++ " = " ++ a.2.text

def Select.text (s : Select) : String :=
  "SELECT " ++ (if s.distinct then "DISTINCT " else "") ++
    (match s.columns with
    | none => "*"
    | some columns => namesText columns) ++
    " FROM " ++ quotePath s.table ++ whereText s.conditions ++ groupText s.groups ++
    orderText s.orderings ++ s.window.text

def Statement.text : Statement → String
  | select s => s.text
  | count column table conditions =>
    "SELECT COUNT(*) AS " ++ quoteName column ++ " FROM " ++ quotePath table ++
      whereText conditions
  | delete table conditions orderings window =>
    "DELETE FROM " ++ quotePath table ++ whereText conditions ++ orderText orderings ++
      window.text
  | update table assignments conditions orderings window =>
    "UPDATE " ++ quotePath table ++ " SET " ++ commaText (assignments.map assignmentText) ++
      whereText conditions ++ orderText orderings ++ window.text

end RowStore.Sql
