import Roster.Proofs.Sql.Schema

/-! # Names in statements of the schema

The names of the tables stand in double quotes in the statements that make and remove them.  Whatever characters a name
consists of, also quotation marks and whole statements, it is one lexeme there, and the lexemes around it stay the same.

* `frame?`, `names?`: the lexemes of a text with its quoted names left open, and these names in turn.
* `quote_injective`: different names are different in quotation marks.
* `schema_structure`: the names that a configuration chooses fill the same frames as those of any other one.
-/

namespace Roster.Sql

/-! ## Frames -/

/-- The name that a lexeme quotes. -/
def Lexeme.name? : Lexeme → Option String
  | .name s => some s
  | .word _ | .literal _ | .slot _ | .symbol _ => none

/-- The lexeme, with a quoted name left open. -/
def Lexeme.unnamed : Lexeme → Lexeme
  | .name _ => .name ""
  | l => l

/-- The lexemes of a text, with the quoted names left open. -/
def frame? (sql : Sql) : Option (List Lexeme) :=
  (lexemes? (render sql)).map fun ls => ls.map Lexeme.unnamed

/-- The quoted names in a text, from left to right. -/
def names? (sql : Sql) : Option (List String) :=
  (lexemes? (render sql)).map fun ls => ls.filterMap Lexeme.name?

/-! ## Quotation marks -/

theorem lexemes?_quote_append (name : String) {rest : String} (hrest : rest.toList.head? ≠ some '"') :
    lexemes? (quote name ++ rest) = (lexemes? rest).map (.name name :: ·) := by
  rw [lexemes?, String.toList_append]
  exact lexFrom_quote name hrest

theorem lexemes?_quote (name : String) : lexemes? (quote name) = some [.name name] :=
  (spells_quote name).lexemes?

/-- Different names are different in quotation marks. -/
theorem quote_injective : Function.Injective quote := by
  intro a b h
  have hlexemes : some [Lexeme.name a] = some [.name b] := by
    rw [← lexemes?_quote, ← lexemes?_quote, h]
  exact Lexeme.name.inj (List.cons.inj (Option.some.inj hlexemes)).1

/-! ## Statements of the schema -/

theorem lexemes?_dropTable (table : String) :
    lexemes? (render (dropTable table)) =
      some ([.word "DROP", .word "TABLE", .word "IF", .word "EXISTS"] ++ [.name table] ++ [.word "CASCADE"]) := by
  -- the name is cut off by the blank before it and the one after it
  have hstart : Isolated "DROP TABLE IF EXISTS ".toList [.word "DROP", .word "TABLE", .word "IF", .word "EXISTS"] := by
    apply isolated_of_lexFrom <;> rfl
  have hend : Spells " CASCADE".toList [.word "CASCADE"] := by
    apply spells_of_lexFrom
    rfl
  have hspells := (hstart.append_quote table).append hend (atBreak_text (by decide) _)
  apply Spells.lexemes?
  simp only [dropTable, toList_render_cons, toList_render_nil, List.append_nil, ← List.append_assoc]
  exact hspells

/-- The statements that make and remove the tables of a configuration. -/
def tableStatements (config : Config) : List Sql :=
  schema config ++ dropSchema config

theorem frame?_tableStatements (config other : Config) :
    (tableStatements config).map frame? = (tableStatements other).map frame? := by
  have hteams : frame? (createTeams config) = frame? (createTeams other) := by
    rw [frame?, frame?, lexemes?_createTeams, lexemes?_createTeams]
    rfl
  have hmembers : frame? (createMembers config) = frame? (createMembers other) := by
    rw [frame?, frame?, lexemes?_createMembers, lexemes?_createMembers]
    rfl
  have hindex : frame? (createTeamIndex config) = frame? (createTeamIndex other) := by
    rw [frame?, frame?, lexemes?_createTeamIndex, lexemes?_createTeamIndex]
    rfl
  -- removing a table has the same frame for both tables
  have hdrop : ∀ table table' : String, frame? (dropTable table) = frame? (dropTable table') := by
    intro table table'
    rw [frame?, frame?, lexemes?_dropTable, lexemes?_dropTable]
    rfl
  simp only [tableStatements, schema, dropSchema, List.map_append, List.map_cons, List.map_nil, hteams, hmembers, hindex,
    hdrop config.membersTable other.membersTable, hdrop config.teamsTable other.teamsTable]

theorem names?_tableStatements (config : Config) :
    (tableStatements config).map names? =
      [some [config.teamsTable], some [config.membersTable, config.teamsTable],
        some [teamIndex config, config.membersTable], some [config.membersTable], some [config.teamsTable]] := by
  have hdrop : ∀ table : String, names? (dropTable table) = some [table] := by
    intro table
    rw [names?, lexemes?_dropTable]
    rfl
  simp only [tableStatements, schema, dropSchema, List.cons_append, List.nil_append, List.map_cons, List.map_nil, hdrop]
  rw [names?, names?, names?, lexemes?_createTeams, lexemes?_createMembers, lexemes?_createTeamIndex]
  rfl

/-- The statements that make and remove the tables of a configuration have the same lexemes as those of any other one,
but for their quoted names, and these are the names of the configuration: those of the two tables, and that of the
members table with what makes it the name of the index.  This is so for all names, because a name in quotation marks is
one lexeme before anything but a further mark, and different names stay different. -/
theorem schema_structure (config other : Config) :
    (tableStatements config).map frame? = (tableStatements other).map frame? ∧
    (tableStatements config).map names? =
      [some [config.teamsTable], some [config.membersTable, config.teamsTable],
        some [config.membersTable ++ "_team_id_idx", config.membersTable], some [config.membersTable],
        some [config.teamsTable]] ∧
    Function.Injective quote ∧
    ∀ name rest : String, rest.toList.head? ≠ some '"' →
      lexemes? (quote name ++ rest) = (lexemes? rest).map (.name name :: ·) :=
  ⟨frame?_tableStatements config other, names?_tableStatements config, quote_injective,
    fun name _ hrest => lexemes?_quote_append name hrest⟩

/-- A members table whose name is a quotation mark, and a teams table whose name ends its own statement, if it is
written without care. -/
theorem schema_structure_marks :
    let standard := Config.ofUrl "postgres://localhost/roster"
    let config := { standard with membersTable := "\"", teamsTable := "t\" (a INT); DROP TABLE b; --\"" }
    (tableStatements config).map render =
      ["CREATE TABLE IF NOT EXISTS \"t\"\" (a INT); DROP TABLE b; --\"\"\" " ++
          "(team_id BIGSERIAL PRIMARY KEY, name TEXT NOT NULL)",
        "CREATE TABLE IF NOT EXISTS \"\"\"\" (member_id BIGSERIAL PRIMARY KEY, username TEXT NOT NULL, " ++
          "age INTEGER NOT NULL, team_id BIGINT REFERENCES \"t\"\" (a INT); DROP TABLE b; --\"\"\" (team_id))",
        "CREATE INDEX IF NOT EXISTS \"\"\"_team_id_idx\" ON \"\"\"\" (team_id)",
        "DROP TABLE IF EXISTS \"\"\"\" CASCADE",
        "DROP TABLE IF EXISTS \"t\"\" (a INT); DROP TABLE b; --\"\"\" CASCADE"] ∧
    (tableStatements config).map frame? = (tableStatements standard).map frame? ∧
    (tableStatements config).map names? =
      [some [config.teamsTable], some ["\"", config.teamsTable], some ["\"_team_id_idx", "\""], some ["\""],
        some [config.teamsTable]] ∧
    " ON ".toList.head? ≠ some '"' ∧ lexemes? (quote config.teamsTable ++ " ON ") =
      some [.name config.teamsTable, .word "ON"] := by
  intro standard config
  rcases schema_structure config standard with ⟨hframe, hnames, -, hquote⟩
  have hrest : " ON ".toList.head? ≠ some '"' := by decide
  exact ⟨by decide +kernel, hframe, hnames, hrest, hquote config.teamsTable " ON " hrest⟩

end Roster.Sql
