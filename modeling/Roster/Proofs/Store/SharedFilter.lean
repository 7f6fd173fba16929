import Roster.Proofs.Sql.Selection
import Roster.Proofs.Store.Policy
import Roster.Proofs.Store.Slots

/-! # One filter for all searches

A search for lines of the roster, a search for members and both statements of a search for a page are put together
apart from each other.  All of them have the same condition with the same values, and each of them names the tables
that its columns are looked up in.

* `Statement.SelectsFrom`: the tables and the condition of a selection, read off its text.
* `Scoped.selectsFrom`: a selection under a condition selects from its source, whatever stands behind the condition.
* `searches_share_filter`: the statements of the three searches.
-/

namespace Roster

/-- The statement selects from the source, whose tables have these words, under the condition of the clause, and it looks
for columns only in those tables.  The values of the clause come first among those of the statement, and the slots of the
condition are theirs. -/
structure Statement.SelectsFrom (statement : Statement) (source : String) (tables : List (String × String))
    (c : Sql.Clause) : Prop where
  text : ∃ columns back, Sql.render statement.sql =
    "SELECT " ++ columns ++ " FROM " ++ source ++ " WHERE " ++ Sql.render c.sql ++ back
  params : c.params.map some <+: statement.params
  lexemes : ∃ ls, Sql.lexemes? (Sql.render statement.sql) = some ls ∧
    Sql.lexemes? source = some (Sql.part "FROM" ls) ∧ Sql.tablesIn (Sql.part "FROM" ls) = tables ∧
    Sql.lexemes? (Sql.render c.sql) = some (Sql.part "WHERE" ls) ∧
    Sql.slotNumbers (Sql.part "WHERE" ls) = List.range' 1 c.params.length ∧
    ∀ word ∈ Sql.qualifiers ls, word ∈ tables.map Prod.snd

namespace Store

/-! ## Tables to select from -/

/-- The members table with the word that stands for it. -/
def memberTables (config : Config) : List (String × String) :=
  [(config.membersTable, "m")]

/-- The tables of the members and their teams, each with the word that stands for it. -/
def rosterTables (config : Config) : List (String × String) :=
  [(config.membersTable, "m"), (config.teamsTable, "t")]

/-- A text that names tables with these words for them, opens no other part of a selection and looks for columns in no
other tables. -/
structure Tables (source : Sql) (tables : List (String × String)) : Prop where
  unlimited : Sql.Unlimited source
  closed : ∀ piece ∈ source, piece.opensNothing = true
  qualified : ∀ piece ∈ source, piece.qualifiesBy (tables.map Prod.snd) = true
  tables : Sql.tablesIn (source.flatMap Sql.Piece.lexemes) = tables

theorem tables_membersAlone (config : Config) : Tables (membersAlone config) (memberTables config) :=
  ⟨unlimited_membersAlone config, List.all_eq_true.mp rfl, List.all_eq_true.mp rfl, rfl⟩

theorem tables_membersWithTeams (config : Config) : Tables (membersWithTeams config) (rosterTables config) :=
  ⟨unlimited_membersWithTeams config, List.all_eq_true.mp rfl, List.all_eq_true.mp rfl, rfl⟩

theorem alias_mem_rosterTables (config : Config) (entity : Entity) :
    entity.alias ∈ (rosterTables config).map Prod.snd := by
  cases entity
  · exact List.mem_cons_self ..
  · exact List.mem_cons_of_mem _ (List.mem_cons_self ..)

/-! ## Columns to select -/

/-- Whether a selection of columns opens no other part before its tables, and qualifies columns by these words. -/
def beginsWith (words : List String) (columns : String) : Bool :=
  let piece : Sql.Piece := .text s!"SELECT {columns} FROM "
  piece.qualifiesBy words && piece.lexemes.getLast? == some (.word "FROM") &&
    piece.lexemes.dropLast.all fun l => !l.isKeyword "FROM" && !l.isKeyword "WHERE"

theorem beginsWith_entryColumns : beginsWith ["m", "t"] entryColumns = true := by
  decide +kernel

theorem beginsWith_foundMemberColumns (words : List String) :
    beginsWith ("m" :: words) foundMemberColumns = true := by
  have hmember : beginsWith ["m"] foundMemberColumns = true := by decide +kernel
  rw [beginsWith, Bool.and_eq_true, Bool.and_eq_true] at hmember ⊢
  have hwords : ["m"] ⊆ "m" :: words := List.cons_subset_cons _ (List.nil_subset _)
  exact ⟨⟨Sql.Piece.qualifiesBy_mono hwords hmember.1.1, hmember.1.2⟩, hmember.2⟩

theorem beginsWith_count : beginsWith ["m", "t"] "COUNT(*)" = true := by
  decide +kernel

theorem exists_front_of_beginsWith {words : List String} {columns : String} (h : beginsWith words columns = true) :
    ∃ front, (Sql.Piece.text s!"SELECT {columns} FROM ").lexemes = front ++ [.word "FROM"] ∧
      (∀ l ∈ front, l.isKeyword "FROM" = false) ∧ ∀ l ∈ front, l.isKeyword "WHERE" = false := by
  rw [beginsWith, Bool.and_eq_true, Bool.and_eq_true, beq_iff_eq, List.all_eq_true] at h
  obtain ⟨⟨-, hlast⟩, hfront⟩ := h
  obtain ⟨front, hfrom⟩ := List.getLast?_eq_some_iff.mp hlast
  rw [hfrom, List.dropLast_concat] at hfront
  simp only [Bool.and_eq_true, Bool.not_eq_true'] at hfront
  exact ⟨front, hfrom, fun l hl => (hfront l hl).1, fun l hl => (hfront l hl).2⟩

/-! ## Selections under a condition -/

/-- A text that can stand behind a condition: it opens a part of its own, and qualifies columns by these words. -/
structure Ending (words : List String) (back : Sql) : Prop where
  opens : ∀ l ∈ (back.flatMap Sql.Piece.lexemes).head?, l.opensPart = true
  qualified : ∀ piece ∈ back, piece.qualifiesBy words = true

theorem ending_nil (words : List String) : Ending words [] :=
  ⟨nofun, nofun⟩

theorem ending_orderBy {words : List String} {terms : List SortTerm} {rest : Sql}
    (hterms : ∀ piece ∈ Sql.ordering terms, piece.qualifiesBy words = true)
    (hrest : ∀ piece ∈ rest, piece.qualifiesBy words = true) :
    Ending words (.text " ORDER BY " :: (Sql.ordering terms ++ rest)) := by
  have hkeyword : (Sql.Piece.text " ORDER BY ").lexemes = [.word "ORDER", .word "BY"] := by decide
  constructor
  · intro l hl
    rw [List.flatMap_cons, hkeyword] at hl
    obtain rfl := Option.some.inj hl
    decide
  · rw [List.forall_mem_cons, List.forall_mem_append]
    refine ⟨?_, hterms, hrest⟩
    rw [Sql.Piece.qualifiesBy, hkeyword]
    rfl

/-- A selection of columns from tables under the condition of a filter, all of whose columns are in the tables and all of
whose slots fit. -/
structure Scoped (counting : Bool) (columns : String) (source : Sql) (tables : List (String × String))
    (filter : Predicate) : Prop where
  selects : Selects counting columns
  columns : beginsWith (tables.map Prod.snd) columns = true
  source : Tables source tables
  fits : Sql.Fits 1 (filter.leaves.length + 1)
  filter : ∀ leaf ∈ filter.leaves, leaf.field.entity.alias ∈ tables.map Prod.snd

namespace Scoped

variable {counting : Bool} {columns : String} {source : Sql} {tables : List (String × String)} {filter : Predicate}
  (h : Scoped counting columns source tables filter)

include h

/-- The keywords cut the lexemes of the selection where its parts meet. -/
theorem parts {back : Sql} (hback : Ending (tables.map Prod.snd) back) :
    let ls := (selectWhere columns source (condition filter) ++ back).flatMap Sql.Piece.lexemes
    Sql.part "FROM" ls = source.flatMap Sql.Piece.lexemes ∧
      Sql.part "WHERE" ls = (condition filter).sql.flatMap Sql.Piece.lexemes := by
  intro ls
  -- FROM and WHERE open the two parts, and nothing within a part opens another
  have hwhere : (Sql.Piece.text " WHERE ").lexemes = [.word "WHERE"] := by decide
  have hclosed := Sql.not_opensPart_of_mem h.source.closed
  obtain ⟨front, hfront, hfrom, hnowhere⟩ := exists_front_of_beginsWith h.columns
  have hlexemes : ls = front ++ .word "FROM" :: (source.flatMap Sql.Piece.lexemes ++ .word "WHERE" ::
      ((condition filter).sql.flatMap Sql.Piece.lexemes ++ back.flatMap Sql.Piece.lexemes)) := by
    simp [ls, selectWhere, hfront, hwhere]
  rw [hlexemes]
  constructor
  · apply Sql.part_append hfrom (by decide) hclosed
    intro l hl
    obtain rfl := Option.some.inj hl
    decide
  · -- what stands before the keyword of the condition opens other parts only
    have hbefore : ∀ l ∈ front ++ .word "FROM" :: source.flatMap Sql.Piece.lexemes, l.isKeyword "WHERE" = false := by
      rw [List.forall_mem_append, List.forall_mem_cons]
      exact ⟨hnowhere, by decide, fun l hl => Sql.not_isKeyword_of_not_opensPart (by decide) (hclosed l hl)⟩
    rw [← List.cons_append, ← List.append_assoc]
    exact Sql.part_append hbefore (by decide)
      (Sql.not_opensPart_of_mem (Sql.opensNothing_clauseFrom filter 1)) hback.opens

theorem qualified {back : Sql} (hback : Ending (tables.map Prod.snd) back) :
    ∀ piece ∈ selectWhere columns source (condition filter) ++ back, piece.qualifiesBy (tables.map Prod.snd) = true := by
  have hbegin := h.columns
  rw [beginsWith, Bool.and_eq_true, Bool.and_eq_true] at hbegin
  rw [selectWhere, List.forall_mem_append, List.forall_mem_append, List.forall_mem_append, List.forall_mem_append,
    List.forall_mem_singleton, List.forall_mem_singleton]
  refine ⟨⟨⟨⟨hbegin.1.1, h.source.qualified⟩, ?_⟩, Sql.qualifiesBy_clauseFrom h.filter 1⟩, hback.qualified⟩
  exact Sql.Piece.qualifiesBy_of_nil (by decide)

/-- The selection is made from its source under its condition, whatever stands behind the condition. -/
theorem selectsFrom {statement : Statement} {back : Sql} {values : List (Option Value)}
    (hsql : statement.sql = selectWhere columns source (condition filter) ++ back)
    (hparams : statement.params = bound (condition filter) ++ values) (hlegible : Sql.isLegible statement.sql = true)
    (hback : Ending (tables.map Prod.snd) back) :
    statement.SelectsFrom (Sql.render source) tables (condition filter) := by
  have hcondition : Sql.isLegible (condition filter).sql = true := Sql.isLegible_clauseFrom (by decide) h.fits.left
  have hlexemes := Sql.lexemes?_of_isLegible hlegible
  rw [hsql] at hlexemes
  obtain ⟨hfrom, hwhere⟩ := h.parts hback
  constructor
  case text =>
    refine ⟨columns, Sql.render back, ?_⟩
    rw [hsql, selectWhere, Sql.render_append, Sql.render_append, Sql.render_append, Sql.render_append]
    rfl
  case params =>
    rw [hparams]
    exact List.prefix_append ..
  case lexemes =>
    rw [hsql]
    refine ⟨_, hlexemes, ?_⟩
    rw [hfrom, hwhere]
    refine ⟨Sql.lexemes?_of_isLegible h.source.unlimited.legible, h.source.tables,
      Sql.lexemes?_of_isLegible hcondition, ?_, Sql.mem_of_mem_qualifiers (h.qualified hback)⟩
    have hlength : (condition filter).params.length = filter.leaves.length := Sql.length_params_clauseFrom filter 1
    rw [hlength]
    exact (Sql.compares_clauseFrom h.fits.left (by decide)).slots

/-- The count has nothing behind its condition. -/
theorem selectsFrom_count (hcolumns : columns = "COUNT(*)") :
    (selectCount source (condition filter)).SelectsFrom (Sql.render source) tables (condition filter) := by
  subst hcolumns
  exact h.selectsFrom (List.append_nil _).symm (List.append_nil _).symm
    (unlimited_selectWhere h.selects h.source.unlimited h.fits).legible (ending_nil _)

/-- A search that does not ask for a page sorts by the members' ids, and may have a cap behind that. -/
theorem selectsFrom_capped (hmember : Entity.member.alias ∈ tables.map Prod.snd) (cap : Option Int64) :
    (selectCapped columns source (condition filter) cap).SelectsFrom (Sql.render source) tables (condition filter) := by
  -- without sort terms the ordering is that of the ids, which are the members' own
  have hlegible := isLegible_selectCapped h.selects h.source.unlimited h.fits cap
  have hterms : ∀ piece ∈ Sql.ordering [], piece.qualifiesBy (tables.map Prod.snd) = true := by
    show ∀ piece ∈ [Sql.Piece.column .memberId, .text " ASC"], piece.qualifiesBy (tables.map Prod.snd) = true
    rw [List.forall_mem_cons, List.forall_mem_singleton]
    exact ⟨Sql.qualifiesBy_column hmember, Sql.Piece.qualifiesBy_of_nil (by decide)⟩
  cases cap with
  | none =>
    have hend : Ending (tables.map Prod.snd) (.text " ORDER BY " :: (Sql.ordering [] ++ [])) :=
      ending_orderBy hterms nofun
    refine h.selectsFrom ?_ (List.append_nil _).symm hlegible hend
    simp [selectCapped, orderedBy]
  | some limit =>
    have hrest : ∀ piece ∈ [Sql.Piece.text " LIMIT ", .slot ((condition filter).next 1)],
        piece.qualifiesBy (tables.map Prod.snd) = true := Sql.qualifiesBy_of_nil rfl
    refine h.selectsFrom ?_ rfl hlegible (ending_orderBy hterms hrest)
    simp [selectCapped, orderedBy]

/-- A search for a page sorts as the request says, and has a limit and an offset behind that. -/
theorem selectsFrom_page (hentities : ∀ entity : Entity, entity.alias ∈ tables.map Prod.snd) (request : PageRequest) :
    (selectPage columns source (condition filter) request).SelectsFrom (Sql.render source) tables
      (condition filter) := by
  have hlegible := isLegible_selectPage h.selects h.source.unlimited h.fits request
  have hrest : ∀ piece ∈ [Sql.Piece.text " LIMIT ", .slot ((condition filter).next 1), .text " OFFSET ",
      .slot ((condition filter).next 1 + 1)], piece.qualifiesBy (tables.map Prod.snd) = true :=
    Sql.qualifiesBy_of_nil rfl
  have hterms := Sql.qualifiesBy_ordering hentities request.sort
  refine h.selectsFrom ?_ rfl hlegible (ending_orderBy hterms hrest)
  simp [selectPage, orderedBy]

end Scoped

/-! ## The statements of the searches -/

theorem scoped_roster {counting : Bool} {columns : String} (hselects : Selects counting columns)
    (hcolumns : beginsWith ["m", "t"] columns = true) (config : Config) (criteria : Criteria) :
    Scoped counting columns (membersWithTeams config) (rosterTables config) criteria.filter :=
  ⟨hselects, hcolumns, tables_membersWithTeams config, fits_filter criteria,
    fun leaf _ => alias_mem_rosterTables config leaf.field.entity⟩

/-- Where the filter does not look at the team, all its columns are in the members table. -/
theorem scoped_members {criteria : Criteria} (hfilter : criteria.filter.referencesTeam = false) (config : Config) :
    Scoped false foundMemberColumns (membersAlone config) (memberTables config) criteria.filter := by
  refine ⟨selects_foundMemberColumns, beginsWith_foundMemberColumns [], tables_membersAlone config,
    fits_filter criteria, ?_⟩
  intro leaf hleaf
  rw [Bool.eq_false_iff, ne_eq, Predicate.referencesTeam_iff] at hfilter
  cases hentity : leaf.field.entity with
  | member => exact List.mem_cons_self ..
  | team => exact absurd ⟨leaf, hleaf, hentity⟩ hfilter

theorem selectsFrom_searchMembers (config : Config) (criteria : Criteria) (cap : Option Int64) :
    let filter := criteria.filter
    (selectCapped foundMemberColumns (memberSource config filter) (condition filter) cap).SelectsFrom
      (Sql.render (memberSource config filter))
      (if filter.referencesTeam then rosterTables config else memberTables config) (condition filter) := by
  intro filter
  unfold memberSource
  cases hteam : filter.referencesTeam with
  | false => exact (scoped_members hteam config).selectsFrom_capped (List.mem_cons_self ..) cap
  | true =>
    have hscoped := scoped_roster selects_foundMemberColumns (beginsWith_foundMemberColumns ["t"]) config criteria
    exact hscoped.selectsFrom_capped (alias_mem_rosterTables config .member) cap

/-- What the statements of the three searches have in common, if the policy does not refuse the criteria.  All of them
have the condition of the criteria's filter, its slots numbered from one on, and its values come first among theirs.  The
count and the selection of a page are made from the same tables, the members with their teams; a search for members is
made from these if and only if the filter looks at the team, and otherwise from the members alone.  Every word that
qualifies a column stands for one of the tables that the statement is made from. -/
theorem searches_share_filter (config : Config) (criteria : Criteria)
    (hpermitted : (∃ key, criteria.Asks key) ∨ config.unfiltered ≠ .reject) :
    let filter := criteria.filter
    let c := Sql.clauseFrom 1 filter
    let roster := Sql.render (membersWithTeams config)
    (∃ found : Statement, found.SelectsFrom roster (rosterTables config) c ∧
      ∀ replies, (((Call.search criteria).program config).exec replies).statements = [found]) ∧
    (∃ members : Statement,
      (∃ source, members.SelectsFrom source
        (if filter.referencesTeam then rosterTables config else memberTables config) c) ∧
      ∀ replies, (((Call.searchMembers criteria).program config).exec replies).statements = [members]) ∧
    ∀ request, request.check = .ok () → ∃ count select : Statement,
      count.isCount = true ∧ count.SelectsFrom roster (rosterTables config) c ∧
      select.isCount = false ∧ select.SelectsFrom roster (rosterTables config) c ∧
      ∀ replies, (((Call.searchPage criteria request).program config).exec replies).statements =
        if (counted replies).isOk then [count, select] else [count] := by
  intro filter c roster
  obtain ⟨cap, hcap⟩ := permission_of_unrefused hpermitted
  have hroster := scoped_roster selects_entryColumns beginsWith_entryColumns config criteria
  have hcount := scoped_roster selects_count beginsWith_count config criteria
  refine ⟨?_, ?_, ?_⟩
  · exact ⟨_, hroster.selectsFrom_capped (alias_mem_rosterTables config .member) cap,
      fun replies => (exec_capFor_fetchAll hcap Entry.ofRow Answer.entries _ replies).1⟩
  · exact ⟨_, ⟨_, selectsFrom_searchMembers config criteria cap⟩,
      fun replies => (exec_capFor_fetchAll hcap Member.ofRow Answer.members _ replies).1⟩
  · intro request hrequest
    refine ⟨_, _, isCount_selectCount config (fits_filter criteria), hcount.selectsFrom_count rfl,
      (limited_selectPage selects_entryColumns (unlimited_membersWithTeams config) (fits_filter criteria)
        (capped request cap)).1,
      hroster.selectsFrom_page (alias_mem_rosterTables config) (capped request cap), ?_⟩
    intro replies
    have hrun := Program.exec_map Answer.page (searchPage config criteria request) replies
    rw [exec_searchPage hrequest hcap] at hrun
    rw [Call.program, hrun]
    cases counted replies with
    | error e => rfl
    | ok total => rfl

/-- Searches for the members within bounds of age, one of them for a page in the order of the teams, where searches for
nothing are refused. -/
theorem searches_share_filter_ages :
    let config := { Config.ofUrl "postgres://localhost/roster" with unfiltered := .reject }
    let ages : Criteria := ⟨none, none, some 30, some 40⟩
    let c := Sql.clauseFrom 1 ages.filter
    let request : PageRequest := ⟨0, 10, [.asc .teamName]⟩
    (∃ key, ages.Asks key) ∧ Sql.render c.sql = "(m.\"age\" >= $1) AND (m.\"age\" <= $2)" ∧
    c.params = [.int 30, .int 40] ∧ request.check = .ok () ∧
    (∃ members : Statement, (∃ source, members.SelectsFrom source [("members", "m")] c) ∧
      ∀ replies, (((Call.searchMembers ages).program config).exec replies).statements = [members]) ∧
    ∃ count select : Statement,
      (∃ source, count.SelectsFrom source [("members", "m"), ("teams", "t")] c ∧
        select.SelectsFrom source [("members", "m"), ("teams", "t")] c) ∧
      ∀ replies, (((Call.searchPage ages request).program config).exec replies).statements =
        if (counted replies).isOk then [count, select] else [count] := by
  intro config ages c request
  have hasks : ∃ key, ages.Asks key := ⟨.minAge, 30, rfl⟩
  have hrequest : request.check = .ok () := by decide
  have hfilter : ages.filter.referencesTeam = false := by decide
  obtain ⟨-, ⟨members, hmembers, hsent⟩, hpage⟩ := searches_share_filter config ages (.inl hasks)
  rw [hfilter] at hmembers
  obtain ⟨count, select, -, hcount, -, hselect, hpages⟩ := hpage request hrequest
  exact ⟨hasks, by decide +kernel, by decide, hrequest, ⟨members, hmembers, hsent⟩, count, select, ⟨_, hcount, hselect⟩,
    hpages⟩

end Store

end Roster
