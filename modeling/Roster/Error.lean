/-! # Errors

Why a call of the roster fails.  The errors are causes; the wording of each stands in one function beside it.
-/

namespace Roster

/-- Why a table name is refused. -/
inductive NameFault where
  | empty
  | tooLong (name : String)
  | malformed (name : String)
  | reserved (name : String)
deriving Repr, DecidableEq

/-- The longest name in bytes that a database keeps whole. -/
def maxNameBytes : Nat := 63

def NameFault.message : NameFault → String
  | .empty => "Identifier cannot be empty"
  | .tooLong name => s!"Identifier '{name}' is longer than {maxNameBytes} characters"
  | .malformed name =>
    s!"Identifier '{name}' is invalid. Must start with a lowercase letter and contain only " ++
      "lowercase letters, numbers, and underscores."
  | .reserved name => s!"Identifier '{name}' is a reserved keyword and cannot be used."

/-- Why a page request is refused. -/
inductive PageFault where
  | negativeOffset (offset : Int64)
  | noLimit (limit : Int64)
deriving Repr, DecidableEq

def PageFault.message : PageFault → String
  | .negativeOffset offset => s!"Offset must not be negative, got {offset.toInt}"
  | .noLimit limit => s!"Limit must be positive, got {limit.toInt}"

/-- Which rule a configuration or a request breaks. -/
inductive Violation where
  | name (fault : NameFault)
  | sharedTable (table : String)
  | noCap (limit : Int64)
  | page (fault : PageFault)
  | blankTeamName
  | blankUsername
  | negativeAge (age : Int32)
  | stated (text : String)
deriving Repr, DecidableEq

def Violation.message : Violation → String
  | .name fault => fault.message
  | .sharedTable table => s!"Members and teams cannot share the table '{table}'"
  | .noCap limit => s!"Unfiltered search cap must be positive, got {limit.toInt}"
  | .page fault => fault.message
  | .blankTeamName => "Team name cannot be blank"
  | .blankUsername => "Username cannot be blank"
  | .negativeAge age => s!"Age must not be negative, got {age.toInt}"
  | .stated text => text

/-- Why an age cannot be read. -/
inductive AgeFault where
  | unreadable (text : String)
  | outOfRange (age : Int64)
deriving Repr, DecidableEq

/-- The wording of an unreadable age; a text is quoted as it was given. -/
def AgeFault.message : AgeFault → String
  | .unreadable text => s!"invalid age '{text}'"
  | .outOfRange age => s!"age {age.toInt} is out of range"

/-- Why a search cannot be understood. -/
inductive SearchFault where
  | repeatedKey (key : String)
  | age (fault : AgeFault)
  | unknownSortField (name : String)
  | unknownSortOption (option : String) (key : String)
  | stated (text : String)
deriving Repr, DecidableEq

def SearchFault.message : SearchFault → String
  | .repeatedKey key => s!"duplicate field `{key}`"
  | .age fault => fault.message
  | .unknownSortField name => s!"unknown sort field '{name}'"
  | .unknownSortOption option key => s!"invalid sort option '{option}' in '{key}'"
  | .stated text => text

/-- Why the database side of a call fails: it reports an error, returns no row where one is needed, or returns
null where a value is needed.  A statement that returns a single value has no name for its column. -/
inductive SqlFault where
  | refused (message : String)
  | noRow
  | nullColumn (column : String)
  | nullResult
deriving Repr, DecidableEq

def SqlFault.message : SqlFault → String
  | .refused message => s!"error returned from database: {message}"
  | .noRow => "no rows returned by a query that expected to return at least one row"
  | .nullColumn column => nullIn s!"\"{column}\""
  | .nullResult => nullIn "0"
where
  nullIn (column : String) : String :=
    s!"error occurred while decoding column {column}: unexpected null; try decoding as an `Option`"

/-- Why a call fails. -/
inductive Error where
  | validation (violation : Violation)
  | invalidSearch (fault : SearchFault)
  | unfilteredSearch
  | memberNotFound (member : String)
  | teamNotFound (team : String)
  | connection (fault : SqlFault)
  | sql (fault : SqlFault)
deriving Repr, DecidableEq

def Error.message : Error → String
  | .validation violation => "Validation error: " ++ violation.message
  | .invalidSearch fault => "Invalid search condition: " ++ fault.message
  | .unfilteredSearch =>
    "Unfiltered search rejected: at least one of username, teamName, ageGoe or ageLoe is required"
  | .memberNotFound member => "Member not found: " ++ member
  | .teamNotFound team => "Team not found: " ++ team
  | .connection fault => "Connection error: Database connection failed: " ++ fault.message
  | .sql fault => "SQL error: " ++ fault.message

end Roster
