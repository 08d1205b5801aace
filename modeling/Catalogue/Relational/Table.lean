import Catalogue.Lookup
import Catalogue.Value.Basic

/-!
Tables: a name and typed columns of different names, of which the first is the primary key, and the
written form of their names. Columns are plain: they compare as their type does, without a collation
of their own, and hold what is written to them, with nothing generated or set besides.
-/

namespace Catalogue.Relational

inductive ColumnType where
  | text
  | integer
  | boolean
  | moment
  | number
  deriving DecidableEq, Repr

structure Column where
  name : String
  type : ColumnType
  deriving DecidableEq, Repr

structure Table where
  name : String
  columns : List Column
  names_nodup : (columns.map Column.name).Nodup := by decide
  deriving DecidableEq, Repr

def Table.ofColumns? (name : String) (columns : List Column) : Option Table :=
  if names_nodup : (columns.map Column.name).Nodup then some { name, columns, names_nodup }
  else none

def Table.column? (t : Table) (name : String) : Option Column :=
  t.columns.find? fun c => c.name == name

theorem Table.mem_of_column? {t : Table} {name : String} {c : Column}
    (h : t.column? name = some c) : c ∈ t.columns ∧ c.name = name :=
  ⟨List.mem_of_find?_eq_some h, by simpa using List.find?_some h⟩

theorem Table.column?_name {t : Table} {c : Column} (h : c ∈ t.columns) :
    t.column? c.name = some c :=
  find?_own_name t.names_nodup h

def reservedWords : List String :=
  ["add", "after", "all", "alter", "analyze", "and", "as", "asc", "attach", "autoincrement",
    "before", "begin", "between", "by", "cascade", "case", "cast", "check", "collate", "column",
    "commit", "conflict", "constraint", "create", "cross", "current_date", "current_time",
    "current_timestamp", "database", "default", "deferrable", "deferred", "delete", "desc",
    "detach", "distinct", "drop", "each", "else", "end", "escape", "except", "exclusive", "exists",
    "explain", "fail", "false", "for", "foreign", "from", "full", "glob", "group", "having", "if",
    "ignore", "immediate", "in", "index", "indexed", "initially", "inner", "insert", "instead",
    "intersect", "into", "is", "isnull", "join", "key", "left", "like", "limit", "match", "natural",
    "not", "notnull", "null", "of", "offset", "on", "or", "order", "outer", "plan", "pragma",
    "primary", "query", "raise", "references", "reindex", "rename", "replace", "restrict", "right",
    "rollback", "row", "select", "set", "table", "temp", "temporary", "then", "to", "transaction",
    "trigger", "true", "union", "unique", "update", "using", "vacuum", "values", "view", "virtual",
    "when", "where"]

def isPlainChar (c : Char) : Bool :=
  c.isLower || c.isDigit || c == '_' || c == '$'

def isPlainName (name : String) : Bool :=
  match name.toList with
  | [] => false
  | first :: rest =>
    isPlainChar first && !first.isDigit && first != '$' && rest.all isPlainChar &&
      !reservedWords.contains name

def identifier (name : String) : String :=
  if isPlainName name then name
  else .ofList ('"' :: name.toList.flatMap (fun c => if c = '"' then ['"', '"'] else [c]) ++ ['"'])

/-- A column with its table, as it is written in a statement. -/
def Table.qualified (t : Table) (c : Column) : String :=
  identifier t.name ++ "." ++ identifier c.name

end Catalogue.Relational
