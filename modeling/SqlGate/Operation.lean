/-! What a statement does: the operation that decides how it is treated, and the category that
operations of one kind share. -/

namespace SqlGate

/-- The kinds of statement that are told apart. `dangerous` holds all that is not recognised as one
of the others. -/
inductive Category where
  | readOnly
  | insert
  | update
  | delete
  | truncate
  | dangerous
  deriving DecidableEq, Repr

namespace Category

def all : List Category :=
  [.readOnly, .insert, .update, .delete, .truncate, .dangerous]

/-- The name in requests and answers. -/
def name : Category → String
  | .readOnly => "read_only"
  | .insert => "insert"
  | .update => "update"
  | .delete => "delete"
  | .truncate => "truncate"
  | .dangerous => "dangerous"

/-- The name in messages. -/
def title : Category → String
  | .readOnly => "read-only"
  | category => category.name

/-- Whether statements of the category take rows away for good. -/
def removesData (category : Category) : Bool :=
  category = .delete || category = .truncate

/-- Whether statements of the category change stored rows. -/
def modifiesData (category : Category) : Bool :=
  category = .insert || category = .update || category.removesData

end Category

/-- The operation that decides how a statement is treated. The last three are no keywords: they name
what is wrong with the statement as a whole. -/
inductive Operation where
  | select
  | insert
  | update
  | delete
  | truncate
  | drop
  | create
  | alter
  | exec
  | execute
  | merge
  | bulk
  | grant
  | revoke
  | deny
  | use
  | set
  | dbcc
  | backup
  | restore
  | reconfigure
  | multipleStatements
  | selectInto
  | nonSelectStatement
  deriving DecidableEq, Repr

namespace Operation

/-- The operations that a keyword names. -/
def keywords : List Operation :=
  [.select, .insert, .update, .delete, .truncate, .drop, .create, .alter, .exec, .execute, .merge,
    .bulk, .grant, .revoke, .deny, .use, .set, .dbcc, .backup, .restore, .reconfigure]

def all : List Operation :=
  keywords ++ [.multipleStatements, .selectInto, .nonSelectStatement]

/-- The name in requests, answers and messages: for an operation with a keyword, that keyword. -/
def name : Operation → String
  | .select => "SELECT"
  | .insert => "INSERT"
  | .update => "UPDATE"
  | .delete => "DELETE"
  | .truncate => "TRUNCATE"
  | .drop => "DROP"
  | .create => "CREATE"
  | .alter => "ALTER"
  | .exec => "EXEC"
  | .execute => "EXECUTE"
  | .merge => "MERGE"
  | .bulk => "BULK"
  | .grant => "GRANT"
  | .revoke => "REVOKE"
  | .deny => "DENY"
  | .use => "USE"
  | .set => "SET"
  | .dbcc => "DBCC"
  | .backup => "BACKUP"
  | .restore => "RESTORE"
  | .reconfigure => "RECONFIGURE"
  | .multipleStatements => "MULTIPLE_STATEMENTS"
  | .selectInto => "SELECT_INTO"
  | .nonSelectStatement => "NON_SELECT_STATEMENT"

/-- The name in event messages. -/
def label : Operation → String
  | .select => "Select"
  | .insert => "Insert"
  | .update => "Update"
  | .delete => "Delete"
  | .truncate => "Truncate"
  | .drop => "Drop"
  | .create => "Create"
  | .alter => "Alter"
  | .exec => "Exec"
  | .execute => "Execute"
  | .merge => "Merge"
  | .bulk => "Bulk"
  | .grant => "Grant"
  | .revoke => "Revoke"
  | .deny => "Deny"
  | .use => "Use"
  | .set => "Set"
  | .dbcc => "Dbcc"
  | .backup => "Backup"
  | .restore => "Restore"
  | .reconfigure => "Reconfigure"
  | .multipleStatements => "MultipleStatements"
  | .selectInto => "SelectInto"
  | .nonSelectStatement => "NonSelectStatement"

/-- Why the operation matters, in the words of a refusal. -/
def description : Operation → String
  | .select => "read-only query"
  | .insert => "INSERT adds rows to a table"
  | .update => "UPDATE modifies existing rows"
  | .delete => "DELETE permanently removes rows"
  | .truncate => "TRUNCATE permanently removes every row in a table"
  | .drop => "DROP permanently removes database objects"
  | .create => "CREATE adds database objects"
  | .alter => "ALTER changes database object definitions"
  | .exec | .execute => "EXEC/EXECUTE runs stored procedures or dynamic SQL"
  | .merge => "MERGE can insert, update, and delete rows in one statement"
  | .bulk => "BULK operations load data from outside the database"
  | .grant | .revoke | .deny => "permission changes are administrative"
  | .use => "USE switches the active database"
  | .set => "SET changes session options"
  | .dbcc => "DBCC runs database console commands"
  | .backup | .restore => "BACKUP/RESTORE are server-level operations"
  | .reconfigure => "RECONFIGURE applies server configuration changes"
  | .multipleStatements => "only a single statement is accepted per request"
  | .selectInto => "SELECT ... INTO creates a new table"
  | .nonSelectStatement => "only SELECT queries (optionally with a WITH prefix) are accepted"

/-- The keyword as a list of capitals. -/
def letters (operation : Operation) : List Char :=
  operation.name.toList

/-- The operation that a keyword names, written in either case of ASCII. -/
def ofKeyword? (keyword : List Char) : Option Operation :=
  keywords.find? fun operation => operation.letters == keyword.map Char.toUpper

end Operation

/-- What was found out about a statement: its category and the operation that decided it. -/
structure Classification where
  category : Category
  operation : Operation
  deriving DecidableEq, Repr

namespace Classification

def readOnly : Classification :=
  ⟨.readOnly, .select⟩

def dangerous (operation : Operation) : Classification :=
  ⟨.dangerous, operation⟩

def isReadOnly (classification : Classification) : Bool :=
  classification.category = .readOnly

end Classification

end SqlGate
