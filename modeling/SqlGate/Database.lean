import SqlGate.Refusal
import SqlGate.Text.Runs

/-! The database engines whose dialects are told apart. -/

namespace SqlGate

inductive Database where
  | postgres
  | mySql
  | mariaDb
  | sqlite
  | sqlServer
  deriving DecidableEq, Repr

namespace Database

def all : List Database :=
  [.postgres, .mySql, .mariaDb, .sqlite, .sqlServer]

/-- The name in requests and answers. -/
def name : Database → String
  | .postgres => "postgres"
  | .mySql => "mysql"
  | .mariaDb => "mariadb"
  | .sqlite => "sqlite"
  | .sqlServer => "sqlserver"

/-- The name in messages. -/
def title : Database → String
  | .postgres => "PostgreSQL"
  | .mySql => "MySQL"
  | .mariaDb => "MariaDB"
  | .sqlite => "SQLite"
  | .sqlServer => "SQL Server"

/-- Whether rows are limited by `TOP` after the select word rather than by `LIMIT` at the end. -/
def usesTop (database : Database) : Bool :=
  database = .sqlServer

/-- Reads the name of an engine, in any case and with blanks around it. -/
def parse (text : String) : Except Refusal Database :=
  let written := String.ofList (asciiLower (trim text.toList))
  if written = "postgres" ∨ written = "postgresql" then .ok .postgres
  else if written = "mysql" then .ok .mySql
  else if written = "mariadb" then .ok .mariaDb
  else if written = "sqlite" then .ok .sqlite
  else if written = "sqlserver" ∨ written = "mssql" then .ok .sqlServer
  else .error (.unsupportedDatabase written)

/-- The schemes of connection URLs, with the engine that each stands for. -/
def schemes : List (String × Database) :=
  [("postgres://", .postgres), ("postgresql://", .postgres), ("mysql://", .mySql),
    ("mariadb://", .mariaDb), ("sqlite:", .sqlite), ("file:", .sqlite), ("sqlserver://", .sqlServer),
    ("mssql://", .sqlServer)]

/-- The engine that a connection URL leads to, by its scheme. -/
def ofUrl (url : String) : Except Refusal Database :=
  match schemes.find? fun scheme => scheme.1.toList.isPrefixOf url.toList with
  | some (_, database) => .ok database
  | none => .error (.unsupportedDatabase ("Cannot determine database type from URL: " ++ url))

end Database

end SqlGate
