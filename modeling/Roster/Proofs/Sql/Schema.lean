import Roster.Proofs.Config
import Roster.Proofs.Sql.Lexeme
import Roster.Proofs.Text.Utf8
import Roster.Sql.Schema

/-! # The names of a schema

The relations that the statements of a schema make, and how a database keeps them: tables and indexes share one
namespace, a name keeps its first bytes only, and a relation whose name is taken is left out without an error.  The
check of a configuration looks at the names of the two tables.  The index gets its name from that of the members table
later on, so it can be too long for the database to keep it whole, and it can be the name of the teams table.

* `created_schema`: the relations that the statements of a schema make, read off their text.
* `skipped`: the relations that a database leaves out.
* `schema_names`: when the names of a valid configuration fit and differ, and when the index is left out.
* `schema_names_clash`: valid configurations for which it is left out.
-/

namespace Roster.Sql

/-! ## What a schema makes -/

/-- The relation that a statement makes unless there is one of that name. -/
def createdBy : List Lexeme → Option String
  | .word "CREATE" :: .word kind :: .word "IF" :: .word "NOT" :: .word "EXISTS" :: .name name :: _ =>
    if kind = "TABLE" ∨ kind = "INDEX" then some name else none
  | _ => none

/-- The relations that statements make, in order. -/
def created (statements : List Sql) : List String :=
  statements.filterMap fun sql => (lexemes? (render sql)).bind createdBy

/-- The lexemes up to the name of a relation that a statement makes. -/
def creation (kind : String) : List Lexeme :=
  [.word "CREATE", .word kind, .word "IF", .word "NOT", .word "EXISTS"]

def teamColumns : List Lexeme :=
  [.symbol "(", .word "team_id", .word "BIGSERIAL", .word "PRIMARY", .word "KEY", .symbol ",", .word "name",
    .word "TEXT", .word "NOT", .word "NULL", .symbol ")"]

/-- The lexemes of the columns of the members table, up to the name of the teams table. -/
def memberColumns : List Lexeme :=
  [.symbol "(", .word "member_id", .word "BIGSERIAL", .word "PRIMARY", .word "KEY", .symbol ",", .word "username",
    .word "TEXT", .word "NOT", .word "NULL", .symbol ",", .word "age", .word "INTEGER", .word "NOT", .word "NULL",
    .symbol ",", .word "team_id", .word "BIGINT", .word "REFERENCES"]

def teamIdColumn : List Lexeme :=
  [.symbol "(", .word "team_id", .symbol ")"]

theorem isolated_createTable : Isolated "CREATE TABLE IF NOT EXISTS ".toList (creation "TABLE") := by
  apply isolated_of_lexFrom <;> rfl

theorem isolated_createIndex : Isolated "CREATE INDEX IF NOT EXISTS ".toList (creation "INDEX") := by
  apply isolated_of_lexFrom <;> rfl

theorem separates_on : Separates " ON ".toList [.word "ON"] := by
  constructor
  · apply isolated_of_lexFrom <;> rfl
  · exact atBreak_text (by decide) _

theorem separates_memberColumns :
    Separates
      " (member_id BIGSERIAL PRIMARY KEY, username TEXT NOT NULL, age INTEGER NOT NULL, team_id BIGINT REFERENCES ".toList
      memberColumns := by
  constructor
  · apply isolated_of_lexFrom <;> rfl
  · exact atBreak_text (by decide) _

theorem Isolated.append_quote {cs : List Char} {ls : List Lexeme} (h : Isolated cs ls) (name : String) :
    Spells (cs ++ (quote name).toList) (ls ++ [.name name]) :=
  h.append_spells (spells_quote name)

theorem lexemes?_createTeams (config : Config) :
    lexemes? (render (createTeams config)) = some (creation "TABLE" ++ [.name config.teamsTable] ++ teamColumns) := by
  have hend : Spells " (team_id BIGSERIAL PRIMARY KEY, name TEXT NOT NULL)".toList teamColumns := by
    apply spells_of_lexFrom
    rfl
  have hname := isolated_createTable.append_quote config.teamsTable
  have hspells := hname.append hend (atBreak_text (by decide) _)
  apply Spells.lexemes?
  simp only [createTeams, toList_render_cons, toList_render_nil, List.append_nil, ← List.append_assoc]
  exact hspells

theorem lexemes?_createMembers (config : Config) :
    lexemes? (render (createMembers config)) = some (creation "TABLE" ++ [.name config.membersTable] ++ memberColumns ++
      [.name config.teamsTable] ++ (teamIdColumn ++ [.symbol ")"])) := by
  -- what stands after the quoted name is a text without slots
  have hend : Spells " (team_id))".toList (teamIdColumn ++ [.symbol ")"]) := by
    apply spells_of_lexFrom
    rfl
  have hname := isolated_createTable.append_quote config.membersTable
  have hreferred := (hname.append_separates separates_memberColumns).append_quote config.teamsTable
  have hspells := hreferred.append hend (atBreak_text (by decide) _)
  apply Spells.lexemes?
  simp only [createMembers, toList_render_cons, toList_render_nil, List.append_nil, ← List.append_assoc]
  exact hspells

theorem lexemes?_createTeamIndex (config : Config) :
    lexemes? (render (createTeamIndex config)) = some (creation "INDEX" ++ [.name (teamIndex config)] ++ [.word "ON"] ++
      [.name config.membersTable] ++ teamIdColumn) := by
  have hend : Spells " (team_id)".toList teamIdColumn := by
    apply spells_of_lexFrom
    rfl
  have hname := isolated_createIndex.append_quote (teamIndex config)
  have htable := (hname.append_separates separates_on).append_quote config.membersTable
  have hspells := htable.append hend (atBreak_text (by decide) _)
  apply Spells.lexemes?
  simp only [createTeamIndex, toList_render_cons, toList_render_nil, List.append_nil, ← List.append_assoc]
  exact hspells

/-- A schema makes the teams table, the members table and the index. -/
theorem created_schema (config : Config) :
    created (schema config) = [config.teamsTable, config.membersTable, teamIndex config] := by
  have htable : ∀ name ls, createdBy (creation "TABLE" ++ ([.name name] ++ ls)) = some name := by
    intro name ls
    rfl
  -- both kinds of relations have their name as the quoted name that comes first
  have hindex : ∀ name ls, createdBy (creation "INDEX" ++ ([.name name] ++ ls)) = some name := by
    intro name ls
    rfl
  simp only [created, schema, List.filterMap_cons, List.filterMap_nil, lexemes?_createTeams, lexemes?_createMembers,
    lexemes?_createTeamIndex, Option.bind_some, List.append_assoc, htable, hindex]

/-! ## Bytes of names -/

theorem length_le_of_checkName {name : String} (h : checkName name = .ok ()) :
    (Text.utf8Bytes name).length ≤ maxNameBytes :=
  (checkName_eq_ok_iff.mp h).fits

theorem length_teamIndex (config : Config) :
    (Text.utf8Bytes (teamIndex config)).length = (Text.utf8Bytes config.membersTable).length + 12 := by
  have hsuffix : (Text.utf8Bytes "_team_id_idx").length = 12 := by rfl
  rw [teamIndex, Text.utf8Bytes_append, List.length_append, hsuffix]

/-! ## How a database keeps names -/

/-- What a database keeps of a name: its first bytes.  In the names of tables and indexes every character is one byte,
so none is cut apart. -/
def keptName (name : String) : List UInt8 :=
  (Text.utf8Bytes name).take maxNameBytes

/-- The relations that a database leaves out without an error, out of those that it is to make in turn: the names
`taken` are taken before, and each relation that is made takes its own name. -/
def skipped (taken : List (List UInt8)) : List String → List String
  | [] => []
  | name :: names =>
    if keptName name ∈ taken then name :: skipped taken names else skipped (keptName name :: taken) names

theorem keptName_of_le {name : String} (h : (Text.utf8Bytes name).length ≤ maxNameBytes) :
    keptName name = Text.utf8Bytes name :=
  List.take_of_length_le h

/-- The index is kept under the name of the members table when that name leaves no byte for what is added to it. -/
theorem keptName_teamIndex_iff {config : Config} (h : (Text.utf8Bytes config.membersTable).length ≤ maxNameBytes) :
    keptName (teamIndex config) = keptName config.membersTable ↔
      (Text.utf8Bytes config.membersTable).length = maxNameBytes := by
  rw [keptName_of_le h]
  constructor
  · -- twelve bytes are added, so that what is kept is longer unless the limit is reached before them
    intro heq
    have hlength : min maxNameBytes ((Text.utf8Bytes config.membersTable).length + 12) =
        (Text.utf8Bytes config.membersTable).length := by
      rw [← length_teamIndex, ← List.length_take, ← keptName, heq]
    omega
  -- the suffix comes behind the bytes that are kept
  · intro hfull
    rw [keptName, teamIndex, Text.utf8Bytes_append, List.take_left' hfull]

/-! ## The names of a valid configuration -/

theorem teamIndex_ne_membersTable (config : Config) : teamIndex config ≠ config.membersTable := by
  intro heq
  have hlength := length_teamIndex config
  rw [heq] at hlength
  omega

section Valid

variable {config : Config} (h : config.check = .ok ())
include h

theorem length_membersTable_le : (Text.utf8Bytes config.membersTable).length ≤ maxNameBytes :=
  length_le_of_checkName ((Config.check_eq_ok_iff config).mp h).1

theorem length_teamsTable_le : (Text.utf8Bytes config.teamsTable).length ≤ maxNameBytes :=
  length_le_of_checkName ((Config.check_eq_ok_iff config).mp h).2.1

theorem membersTable_ne_teamsTable : config.membersTable ≠ config.teamsTable :=
  ((Config.check_eq_ok_iff config).mp h).2.2.1

/-- The three names fit and differ when the members table leaves room for what is added to its name, and the teams table
does not have the name of the index. -/
theorem fit_and_differ_iff :
    (∀ name ∈ created (schema config), (Text.utf8Bytes name).length ≤ maxNameBytes) ∧ (created (schema config)).Nodup ↔
      (Text.utf8Bytes config.membersTable).length ≤ 51 ∧ config.teamsTable ≠ teamIndex config := by
  have hmembers := length_membersTable_le h
  have hteams := length_teamsTable_le h
  have hdiffer := membersTable_ne_teamsTable h
  have hindex := teamIndex_ne_membersTable config
  -- the check covers the two tables, so all that is left to say is about the index
  have hroom : (Text.utf8Bytes (teamIndex config)).length ≤ maxNameBytes ↔
      (Text.utf8Bytes config.membersTable).length ≤ 51 := by
    rw [length_teamIndex, maxNameBytes]
    omega
  -- the two tables have different names already
  have hnodup : [config.teamsTable, config.membersTable, teamIndex config].Nodup ↔
      config.teamsTable ≠ teamIndex config := by
    simp [hdiffer.symm, hindex.symm]
  rw [created_schema, hnodup, ← hroom]
  simp only [List.forall_mem_cons]
  constructor
  · rintro ⟨⟨-, -, hfits, -⟩, hne⟩
    exact ⟨hfits, hne⟩
  · rintro ⟨hfits, hne⟩
    refine ⟨⟨hteams, hmembers, hfits, ?_⟩, hne⟩
    intro name hname
    cases hname

theorem keptName_membersTable_ne : keptName config.membersTable ≠ keptName config.teamsTable := by
  rw [keptName_of_le (length_membersTable_le h), keptName_of_le (length_teamsTable_le h)]
  intro heq
  exact membersTable_ne_teamsTable h (Text.utf8Bytes_inj.mp heq)

/-- The tables are made, and the index is left out when it is kept under the name of one of them. -/
theorem skipped_schema :
    skipped [] (created (schema config)) =
      if (Text.utf8Bytes config.membersTable).length = maxNameBytes ∨
        keptName (teamIndex config) = keptName config.teamsTable then [teamIndex config] else [] := by
  -- the tables are made first, and neither name is in the other's way
  have htables : keptName config.membersTable ∉ [keptName config.teamsTable] := by
    rw [List.mem_singleton]
    exact keptName_membersTable_ne h
  have hindex : keptName (teamIndex config) ∈ [keptName config.membersTable, keptName config.teamsTable] ↔
      (Text.utf8Bytes config.membersTable).length = maxNameBytes ∨
        keptName (teamIndex config) = keptName config.teamsTable := by
    rw [List.mem_cons, List.mem_singleton, keptName_teamIndex_iff (length_membersTable_le h)]
  rw [created_schema, skipped, if_neg List.not_mem_nil, skipped, if_neg htables, skipped]
  -- the index comes last, so it is the one that is left out
  by_cases hclash : keptName (teamIndex config) ∈ [keptName config.membersTable, keptName config.teamsTable]
  · rw [if_pos hclash, if_pos (hindex.mp hclash), skipped]
  · rw [if_neg hclash, if_neg (hclash ∘ hindex.mpr), skipped]

/-- An index whose name fits and is not that of the teams table is made. -/
theorem skipped_schema_of_fits (hroom : (Text.utf8Bytes config.membersTable).length ≤ 51)
    (hne : config.teamsTable ≠ teamIndex config) : skipped [] (created (schema config)) = [] := by
  have hfits : (Text.utf8Bytes (teamIndex config)).length ≤ maxNameBytes := by
    rw [length_teamIndex, maxNameBytes]
    omega
  rw [skipped_schema h, if_neg]
  -- a name that fits is kept whole
  rintro (hfull | heq)
  · rw [hfull] at hroom
    exact absurd hroom (by decide)
  · rw [keptName_of_le hfits, keptName_of_le (length_teamsTable_le h)] at heq
    exact hne (Text.utf8Bytes_inj.mp heq).symm

end Valid

/-- The relations of a valid configuration.  Their names fit and differ exactly when the members table leaves room for
what is added to its name and the teams table does not have the name of the index; then none of them is left out.  In
general the tables are made, and the index is left out when it is kept under the name of one of them. -/
theorem schema_names {config : Config} (h : config.check = .ok ()) :
    let names := created (schema config)
    names = [config.teamsTable, config.membersTable, teamIndex config] ∧
    ((∀ name ∈ names, (Text.utf8Bytes name).length ≤ maxNameBytes) ∧ names.Nodup ↔
      (Text.utf8Bytes config.membersTable).length ≤ 51 ∧ config.teamsTable ≠ teamIndex config) ∧
    ((Text.utf8Bytes config.membersTable).length ≤ 51 → config.teamsTable ≠ teamIndex config →
      skipped [] names = []) ∧
    skipped [] names =
      if (Text.utf8Bytes config.membersTable).length = maxNameBytes ∨
        keptName (teamIndex config) = keptName config.teamsTable then [teamIndex config] else [] := by
  intro names
  refine ⟨created_schema config, fit_and_differ_iff h, ?_, skipped_schema h⟩
  intro hroom hne
  exact skipped_schema_of_fits h hroom hne

/-- The names that a set-up has unless others are chosen fit and differ, and nothing is left out. -/
theorem schema_names_ofUrl :
    let config := Config.ofUrl "postgres://localhost/roster"
    let names := created (schema config)
    config.check = .ok () ∧ (Text.utf8Bytes config.membersTable).length ≤ 51 ∧
      config.teamsTable ≠ teamIndex config ∧ names = ["teams", "members", "members_team_id_idx"] ∧
      (∀ name ∈ names, (Text.utf8Bytes name).length ≤ maxNameBytes) ∧ names.Nodup ∧ skipped [] names = [] := by
  intro config names
  have hvalid : config.check = .ok () := by
    apply Config.check_ofUrl
    intro limit hcap
    cases hcap
  have hroom : (Text.utf8Bytes config.membersTable).length ≤ 51 := by decide
  have hne : config.teamsTable ≠ teamIndex config := by decide
  obtain ⟨hnames, hfit, hmade, -⟩ := schema_names hvalid
  obtain ⟨hlengths, hnodup⟩ := hfit.mpr ⟨hroom, hne⟩
  exact ⟨hvalid, hroom, hne, hnames, hlengths, hnodup, hmade hroom hne⟩

/-- Two valid configurations for which the index is left out: the teams table has the name of the index, or the members
table has a name of 63 bytes, which is all that is kept of the name of the index. -/
theorem schema_names_clash :
    let taken := { Config.ofUrl "postgres://localhost/roster" with teamsTable := "members_team_id_idx" }
    let long := { Config.ofUrl "postgres://localhost/roster" with
      membersTable := "mmmmmmmmmmmmmmmmmmmmmmmmmmmmmmmmmmmmmmmmmmmmmmmmmmmmmmmmmmmmmmm" }
    taken.check = .ok () ∧ ¬(created (schema taken)).Nodup ∧
      skipped [] (created (schema taken)) = ["members_team_id_idx"] ∧
    long.check = .ok () ∧ (¬∀ name ∈ created (schema long), (Text.utf8Bytes name).length ≤ maxNameBytes) ∧
      skipped [] (created (schema long)) = [long.membersTable ++ "_team_id_idx"] := by
  intro taken long
  have hpolicy : ∀ limit : Int64, UnfilteredPolicy.allow = .cap limit → 0 < limit := by
    intro limit hcap
    cases hcap
  have hmembers : checkName "members" = .ok () := by rfl
  have hteams : checkName "teams" = .ok () := by rfl
  have hindex : checkName "members_team_id_idx" = .ok () := by rfl
  have hfull : checkName "mmmmmmmmmmmmmmmmmmmmmmmmmmmmmmmmmmmmmmmmmmmmmmmmmmmmmmmmmmmmmmm" = .ok () := by rfl
  have htaken : taken.check = .ok () := (Config.check_eq_ok_iff taken).mpr ⟨hmembers, hindex, by decide, hpolicy⟩
  have hlong : long.check = .ok () := (Config.check_eq_ok_iff long).mpr ⟨hfull, hteams, by decide, hpolicy⟩
  have hname : teamIndex taken = taken.teamsTable := by rfl
  -- the index has the name of the teams table
  have hsame : ¬(created (schema taken)).Nodup := by
    rw [created_schema, hname]
    simp
  have htakenSkipped : skipped [] (created (schema taken)) = [teamIndex taken] := by
    rw [skipped_schema htaken, if_pos (Or.inr (congrArg keptName hname))]
  have hbytes : (Text.utf8Bytes long.membersTable).length = maxNameBytes := by decide
  have htooLong : ¬∀ name ∈ created (schema long), (Text.utf8Bytes name).length ≤ maxNameBytes := by
    intro hfits
    -- the name of the index is twelve bytes longer
    have hindexFits := hfits (teamIndex long) (by simp [created_schema])
    rw [length_teamIndex, hbytes] at hindexFits
    exact absurd hindexFits (by decide)
  have hlongSkipped : skipped [] (created (schema long)) = [teamIndex long] := by
    rw [skipped_schema hlong, if_pos (Or.inl hbytes)]
  exact ⟨htaken, hsame, htakenSkipped, hlong, htooLong, hlongSkipped⟩

end Roster.Sql
