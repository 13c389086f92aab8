import QueryNotation.Dialect.Basic
import QueryNotation.Text.UpperCase

/-! The dialects that are always there. Standard SQL gives the rules that the others change. -/

namespace QueryNotation.Dialect

/-- The standard type for a declared type; an unknown type is a string. -/
def standardType (declared : String) : String :=
  match declared with
  | "cds.UUID" => "VARCHAR(36)"
  | "cds.String" => "VARCHAR(5000)"
  | "cds.Boolean" => "BOOLEAN"
  | "cds.Integer" => "INTEGER"
  | "cds.Integer64" => "BIGINT"
  | "cds.Decimal" => "DECIMAL"
  | "cds.Double" => "DOUBLE PRECISION"
  | "cds.Date" => "DATE"
  | "cds.Time" => "TIME"
  | "cds.DateTime" => "TIMESTAMP"
  | "cds.Timestamp" => "TIMESTAMP"
  | "cds.Binary" => "BLOB"
  | "cds.LargeBinary" => "BLOB"
  | "cds.LargeString" => "TEXT"
  | _ => "VARCHAR(5000)"

/-- The functions that every dialect has under their standard names. -/
def standardFunctions : List String := [
  "UPPER", "LOWER", "TRIM", "LTRIM", "RTRIM", "SUBSTRING", "CONCAT", "COALESCE", "IFNULL", "NULLIF",
  "LENGTH", "ABS", "CEIL", "FLOOR", "ROUND", "MOD", "POWER", "SQRT", "YEAR", "MONTH", "DAY", "HOUR",
  "MINUTE", "SECOND", "COUNT", "SUM", "AVG", "MIN", "MAX"]

/-- The standard name of a function, whatever its letter case; an unknown name stays as it is. -/
def standardFunction (name : String) : String :=
  let upper := Text.upper name
  if upper = "NOW" then "CURRENT_TIMESTAMP"
  else if standardFunctions.contains upper then upper
  else name

/-- Standard SQL. -/
def ansi : Dialect where
  name := "ansi-sql"
  version := "1.0.0"
  quoteName := Text.quoted '"'
  typeName := standardType
  functionName := standardFunction
  operatorText := Sql.Operator.text
  placeholder index := "$" ++ toString index
  boolText := wordBool
  limitClause := limitOffset
  supportsLimit := true
  supportsNullsOrder := true
  supportsDistinctOn := false
  supportsReturning := false
  supportsMerge := false

/-- The types of MySQL. -/
def mysqlType (declared : String) : String :=
  match declared with
  | "cds.Boolean" => "TINYINT(1)"
  | "cds.DateTime" => "DATETIME"
  | "cds.Timestamp" => "DATETIME"
  | "cds.Double" => "DOUBLE"
  | "cds.LargeString" => "LONGTEXT"
  | "cds.LargeBinary" => "LONGBLOB"
  | other => standardType other

/-- MySQL: names in backticks, and placeholders without a number. -/
def mysql : Dialect :=
  { ansi with
    name := "mysql"
    quoteName := Text.quoted '\x60'
    typeName := mysqlType
    placeholder := fun _ => "?"
    boolText := numberBool
    supportsNullsOrder := false }

/-- The types of PostgreSQL. -/
def postgresType (declared : String) : String :=
  match declared with
  | "cds.UUID" => "UUID"
  | "cds.Binary" => "BYTEA"
  | "cds.LargeBinary" => "BYTEA"
  | "cds.LargeString" => "TEXT"
  | "cds.DateTime" => "TIMESTAMPTZ"
  | "cds.Timestamp" => "TIMESTAMPTZ"
  | other => standardType other

/-- The functions of PostgreSQL, which has no `IFNULL`. -/
def postgresFunction (name : String) : String :=
  let standard := standardFunction name
  if standard = "IFNULL" then "COALESCE" else standard

/-- PostgreSQL. -/
def postgres : Dialect :=
  { ansi with
    name := "postgres"
    typeName := postgresType
    functionName := postgresFunction
    supportsDistinctOn := true
    supportsReturning := true
    supportsMerge := true }

/-- The storage classes of SQLite. -/
def sqliteType (declared : String) : String :=
  match declared with
  | "cds.Boolean" => "INTEGER"
  | "cds.Integer" => "INTEGER"
  | "cds.Integer64" => "INTEGER"
  | "cds.Decimal" => "REAL"
  | "cds.Double" => "REAL"
  | "cds.Binary" => "BLOB"
  | "cds.LargeBinary" => "BLOB"
  | _ => "TEXT"

/-- The functions of SQLite, which calls `SUBSTRING` by a shorter name. -/
def sqliteFunction (name : String) : String :=
  let standard := standardFunction name
  if standard = "SUBSTRING" then "SUBSTR" else standard

/-- SQLite. -/
def sqlite : Dialect :=
  { ansi with
    name := "sqlite"
    typeName := sqliteType
    functionName := sqliteFunction
    placeholder := fun index => "?" ++ toString index
    boolText := numberBool
    supportsReturning := true }

/-- The dialects that are always there. -/
def builtins : List Dialect := [ansi, postgres, sqlite, mysql]

end QueryNotation.Dialect
