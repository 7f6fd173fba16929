import Roster.Proofs.Criteria.Filter
import Roster.Proofs.Store.FailStop
import Roster.Proofs.Store.Limit

/-! # Slots and their values

Every statement has as many values as its text has slots, and the slots have the numbers from one on.  The values of a
search are those of its comparisons, in the order of the criteria; a cap, or the limit and the offset of a page, come
after them.

* `Statement.Numbered`: the slots in the text of a statement are those of its values, each once.
* `Sql.Compares`: the comparisons in a part of a text and the slots that they use.
* `Statement.Binds`: the comparisons in the text of a selection, the keywords after them and the values of all of these.
* `Store.statements_numbered`: the slots of every statement of every call.
-/

namespace Roster

namespace Sql

/-! ## Slots in a text -/

def slotNumbers (ls : List Lexeme) : List Nat :=
  ls.filterMap Lexeme.slot?

theorem slotNumbers_append (ls ms : List Lexeme) : slotNumbers (ls ++ ms) = slotNumbers ls ++ slotNumbers ms :=
  List.filterMap_append

/-- Whether the part has no slots. -/
def Piece.isFixed (piece : Piece) : Bool :=
  (slotNumbers piece.lexemes).isEmpty

theorem slotNumbers_of_isFixed {sql : Sql} (h : ∀ piece ∈ sql, piece.isFixed = true) :
    slotNumbers (sql.flatMap Piece.lexemes) = [] := by
  induction sql with
  | nil => rfl
  | cons piece sql ih =>
    rw [List.forall_mem_cons] at h
    rw [List.flatMap_cons, slotNumbers_append, List.isEmpty_iff.mp h.1, ih h.2, List.append_nil]

/-- Whether the characters end in a blank and spell no slots before it. -/
def spellsNoSlots (cs : List Char) : Bool :=
  cs.getLast? == some ' ' && (lexFrom none cs.dropLast).any fun ls => (slotNumbers ls).isEmpty

/-- A part that can stand before a text and has no slots. -/
structure Piece.Leads (piece : Piece) : Prop where
  whole : piece.isWhole = true
  separate : piece.endsAtBreak = true
  fixed : piece.isFixed = true

/-- What a text in two parts is like can be computed from its characters. -/
theorem leads_of_spellsNoSlots {as bs : List Char} (h : spellsNoSlots (as ++ bs) = true) :
    (Piece.text (String.ofList as ++ String.ofList bs)).Leads := by
  rw [spellsNoSlots, Bool.and_eq_true, beq_iff_eq, Option.any_eq_true] at h
  rcases h with ⟨hblank, ls, hls, hslots⟩
  have hlexemes : lexemes? (String.ofList (as ++ bs)) = some ls :=
    (isolated_of_lexFrom hblank hls).spells.lexemes?
  rw [← String.ofList_append]
  constructor
  · rw [Piece.isWhole, hlexemes, Option.isSome_some]
  · rw [Piece.endsAtBreak, String.toList_ofList, hblank, hls]
    rfl
  · rw [Piece.isFixed, Piece.lexemes, hlexemes]
    exact hslots

theorem isFixed_column (field : Field) : (Piece.column field).isFixed = true := by
  cases field <;> rfl

/-! ## Comparisons in a text -/

/-- The lexemes of a comparison with the value of a slot. -/
def comparison (leaf : Predicate.Leaf) (slot : Nat) : List Lexeme :=
  columnLexemes leaf.field ++ [.symbol leaf.op.symbol, .slot slot]

/-- The text compares with one slot after the other, the first of which is `n`, and has no other slots. -/
structure Compares (sql : Sql) (n : Nat) (leaves : List Predicate.Leaf) : Prop where
  slots : slotNumbers (sql.flatMap Piece.lexemes) = List.range' n leaves.length
  compared : ∀ leaf slot, (leaf, slot) ∈ leaves.zipIdx n → comparison leaf slot <:+: sql.flatMap Piece.lexemes

/-- A text without slots compares nothing. -/
theorem compares_fixed {sql : Sql} (h : ∀ piece ∈ sql, piece.isFixed = true) (n : Nat) : Compares sql n [] := by
  constructor
  · exact slotNumbers_of_isFixed h
  · intro leaf slot hleaf
    cases hleaf

/-- The slots of one text go on where those of the text before it stop. -/
theorem Compares.append {s t : Sql} {n : Nat} {ls ms : List Predicate.Leaf} (hs : Compares s n ls)
    (ht : Compares t (n + ls.length) ms) : Compares (s ++ t) n (ls ++ ms) := by
  constructor
  · rw [List.flatMap_append, slotNumbers_append, hs.slots, ht.slots, List.length_append, ← List.range'_append_1]
  · intro leaf slot hleaf
    rw [List.flatMap_append]
    rw [List.zipIdx_append, List.mem_append] at hleaf
    -- the comparison belongs to one of the two texts, and there it has the same slot
    rcases hleaf with hleaf | hleaf
    · exact (hs.compared leaf slot hleaf).trans (List.prefix_append ..).isInfix
    · exact (ht.compared leaf slot hleaf).trans (List.suffix_append ..).isInfix

theorem Compares.before {s t : Sql} {n : Nat} {leaves : List Predicate.Leaf} (hs : ∀ piece ∈ s, piece.isFixed = true)
    (ht : Compares t n leaves) : Compares (s ++ t) n leaves :=
  (compares_fixed hs n).append ht

theorem Compares.followed {s t : Sql} {n : Nat} {leaves : List Predicate.Leaf} (hs : Compares s n leaves)
    (ht : ∀ piece ∈ t, piece.isFixed = true) : Compares (s ++ t) n leaves := by
  have happend := hs.append (compares_fixed ht _)
  rwa [List.append_nil] at happend

theorem Compares.enclosed {sql : Sql} {n : Nat} {leaves : List Predicate.Leaf} (h : Compares sql n leaves) :
    Compares (enclosed sql) n leaves := by
  have hopening : ∀ piece ∈ [Piece.text "("], piece.isFixed = true := by decide
  have hclosing : ∀ piece ∈ [Piece.text ")"], piece.isFixed = true := by decide
  exact (h.before hopening).followed hclosing

/-! ## Comparisons of a condition -/

theorem compares_comparison (leaf : Predicate.Leaf) {n : Int32} {slot : Nat} (hn : n.toInt = slot) :
    Compares (clauseFrom n leaf.predicate).sql slot [leaf] := by
  -- the comparison is the column, the symbol and the slot, whatever the field
  have hlexemes : (clauseFrom n leaf.predicate).sql.flatMap Piece.lexemes = comparison leaf slot := by
    have hslot : (Piece.slot n).lexemes = [.slot slot] := by
      rw [Piece.lexemes, hn, Int.toNat_natCast]
    have hop : (Piece.text (" " ++ leaf.op.symbol ++ " ")).lexemes = [.symbol leaf.op.symbol] := by
      cases leaf.op <;> decide
    rw [Predicate.Leaf.predicate, clauseFrom]
    simp only [List.flatMap_cons, List.flatMap_nil, hop, hslot]
    rfl
  constructor
  · rw [hlexemes]
    rcases leaf with ⟨field, op, value⟩
    cases field <;> rfl
  · intro leaf' slot' hleaf
    rw [List.zipIdx_singleton, List.mem_singleton, Prod.mk.injEq] at hleaf
    refine ⟨[], [], ?_⟩
    rw [hleaf.1, hleaf.2, hlexemes, List.nil_append, List.append_nil]

/-- The condition of a predicate has its comparisons. -/
theorem compares_clauseFrom {p : Predicate} {n : Int32} (hfits : Fits n p.leaves.length) {slot : Nat}
    (hn : n.toInt = slot) : Compares (clauseFrom n p).sql slot p.leaves := by
  -- the slots of a part of the clause are counted from where the part begins
  refine clauseFrom_induct_of_fits (motive := fun sql m leaves => ∀ n : Nat, m = n → Compares sql n leaves)
    ?constant ?comparison ?enclosed ?not ?join p hfits slot hn
  case constant =>
    intro k _ n _
    apply compares_fixed
    cases k <;> decide
  case comparison =>
    intro leaf m n hn
    have hcomparison := compares_comparison leaf hn
    rwa [Predicate.Leaf.predicate, clauseFrom] at hcomparison
  case enclosed =>
    intro _ _ _ h n hn
    exact (h n hn).enclosed
  case not =>
    intro _ _ _ h n hn
    have hnot : ∀ piece ∈ [Piece.text "NOT "], piece.isFixed = true := by decide
    exact (h n hn).before hnot
  case join =>
    intro k _ _ _ leaves _ hs ht n hn
    have hjoiner : ∀ piece ∈ [Piece.text (joiner k)], piece.isFixed = true := by
      cases k <;> decide
    exact (hs n hn).append ((ht (n + leaves.length) (by omega)).before hjoiner)

/-! ## Keywords with slots -/

/-- Keywords, each with a slot after it, the first of which is `n`. -/
def settings (n : Nat) (words : List String) : List Lexeme :=
  (words.zipIdx n).flatMap fun (word, slot) => [.word word, .slot slot]

theorem slotNumbers_settings (n : Nat) (words : List String) :
    slotNumbers (settings n words) = List.range' n words.length := by
  unfold settings
  -- every keyword takes the next slot
  induction words generalizing n with
  | nil => rfl
  | cons word words ih =>
    rw [List.zipIdx_cons, List.flatMap_cons, slotNumbers_append, ih, List.length_cons, List.range'_succ]
    rfl

end Sql

/-! ## Statements -/

namespace Statement

/-- The numbers of the slots in the text of the statement. -/
def slots? (statement : Statement) : Option (List Nat) :=
  (Sql.lexemes? (Sql.render statement.sql)).map Sql.slotNumbers

/-- The slots are numbered from one on, with one slot for each value. -/
def Numbered (statement : Statement) : Prop :=
  ∃ slots, statement.slots? = some slots ∧ slots.Perm (List.range' 1 statement.params.length)

/-- The text of the statement makes the comparisons, with the values of the first slots, and ends in keywords, with the
numbers of the slots after these.  It has no other slots, and the statement has no other values. -/
structure Binds (statement : Statement) (leaves : List Predicate.Leaf) (further : List (String × Int64)) : Prop where
  params : statement.params = leaves.map (fun leaf => some leaf.value) ++ further.map fun (_, n) => some (.int n)
  text : ∃ ls, Sql.lexemes? (Sql.render statement.sql) = some ls ∧
    Sql.slotNumbers ls = List.range' 1 (leaves.length + further.length) ∧
    (∀ leaf slot, (leaf, slot) ∈ leaves.zipIdx 1 → Sql.comparison leaf slot <:+: ls) ∧
    Sql.settings (leaves.length + 1) (further.map Prod.fst) <:+ ls

theorem numbered_of_isLegible {statement : Statement} (h : Sql.isLegible statement.sql = true)
    (hslots : (Sql.slotNumbers (statement.sql.flatMap Sql.Piece.lexemes)).Perm
      (List.range' 1 statement.params.length)) : statement.Numbered := by
  refine ⟨_, ?_, hslots⟩
  rw [slots?, Sql.lexemes?_of_isLegible h, Option.map_some]

theorem Binds.numbered {statement : Statement} {leaves : List Predicate.Leaf} {further : List (String × Int64)}
    (h : statement.Binds leaves further) : statement.Numbered := by
  rcases h.text with ⟨ls, hls, hslots, -⟩
  refine ⟨Sql.slotNumbers ls, ?_, ?_⟩
  · rw [slots?, hls, Option.map_some]
  · rw [hslots, h.params, List.length_append, List.length_map, List.length_map]

theorem binds_of_compares {statement : Statement} {front back : Sql} {leaves : List Predicate.Leaf}
    {further : List (String × Int64)} (hsql : statement.sql = front ++ back)
    (hlegible : Sql.isLegible statement.sql = true) (hfront : Sql.Compares front 1 leaves)
    (hback : back.flatMap Sql.Piece.lexemes = Sql.settings (leaves.length + 1) (further.map Prod.fst))
    (hparams : statement.params = leaves.map (fun leaf => some leaf.value) ++ further.map fun (_, n) => some (.int n)) :
    statement.Binds leaves further := by
  -- the keywords come last, so their slots follow those of the comparisons
  have hlexemes : statement.sql.flatMap Sql.Piece.lexemes =
      front.flatMap Sql.Piece.lexemes ++ Sql.settings (leaves.length + 1) (further.map Prod.fst) := by
    rw [hsql, List.flatMap_append, hback]
  refine ⟨hparams, _, Sql.lexemes?_of_isLegible hlegible, ?_, ?_, ?_⟩
  · rw [hlexemes, Sql.slotNumbers_append, hfront.slots, Sql.slotNumbers_settings, List.length_map, Nat.add_comm _ 1,
      List.range'_append_1]
  · intro leaf slot hleaf
    rw [hlexemes]
    exact (hfront.compared leaf slot hleaf).trans (List.prefix_append ..).isInfix
  · rw [hlexemes]
    exact List.suffix_append ..

end Statement

namespace Store

open Sql (Compares)

/-! ## Selections of a search -/

/-- A legible text that introduces no limit and has no slots. -/
structure Plain (sql : Sql) : Prop where
  unlimited : Sql.Unlimited sql
  fixed : ∀ piece ∈ sql, piece.isFixed = true

theorem plain_membersAlone (config : Config) : Plain (membersAlone config) :=
  ⟨unlimited_membersAlone config, List.all_eq_true.mp rfl⟩

theorem plain_membersWithTeams (config : Config) : Plain (membersWithTeams config) :=
  ⟨unlimited_membersWithTeams config, List.all_eq_true.mp rfl⟩

theorem plain_memberSource (config : Config) (filter : Predicate) : Plain (memberSource config filter) := by
  unfold memberSource
  split
  · exact plain_membersWithTeams config
  · exact plain_membersAlone config

/-- Whether the beginning of a selection of columns has no slots. -/
def selectsNoSlots (columns : String) : Bool :=
  (Sql.Piece.text s!"SELECT {columns} FROM ").isFixed

theorem selectsNoSlots_entryColumns : selectsNoSlots entryColumns = true := by
  decide +kernel

theorem selectsNoSlots_foundMemberColumns : selectsNoSlots foundMemberColumns = true := by
  decide +kernel

theorem selectsNoSlots_count : selectsNoSlots "COUNT(*)" = true := by
  decide +kernel

theorem compares_selectWhere {columns : String} (hcolumns : selectsNoSlots columns = true) {source : Sql}
    (hsource : Plain source) {filter : Predicate} (hfits : Sql.Fits 1 (filter.leaves.length + 1)) :
    Compares (selectWhere columns source (condition filter)) 1 filter.leaves := by
  have hwhere : ∀ piece ∈ [Sql.Piece.text " WHERE "], piece.isFixed = true := by decide
  have hcondition : Compares (condition filter).sql 1 filter.leaves :=
    Sql.compares_clauseFrom hfits.left (by decide)
  have hselect := ((hcondition.before hwhere).before hsource.fixed).before (List.forall_mem_singleton.mpr hcolumns)
  simpa [selectWhere] using hselect

theorem compares_orderedBy {sql : Sql} {leaves : List Predicate.Leaf} (h : Compares sql 1 leaves)
    (terms : List SortTerm) : Compares (orderedBy sql terms) 1 leaves := by
  have horder : ∀ piece ∈ [Sql.Piece.text " ORDER BY "], piece.isFixed = true := by decide
  have hterms : ∀ piece ∈ Sql.ordering terms, piece.isFixed = true :=
    Sql.forall_mem_ordering (by decide) Sql.isFixed_column terms
  exact (h.followed horder).followed hterms

theorem bound_condition (filter : Predicate) :
    bound (condition filter) = filter.leaves.map fun leaf => some leaf.value := by
  rw [bound, condition, Sql.params_clauseFrom, List.map_map]
  rfl

/-- The slots after those of a condition. -/
theorem lexemes_slot_next {filter : Predicate} {k : Nat} (hfits : Sql.Fits 1 (filter.leaves.length + k)) :
    (Sql.Piece.slot ((condition filter).next 1 + .ofNat k)).lexemes = [.slot (filter.leaves.length + 1 + k)] := by
  have hone : (1 : Int32).toInt = 1 := by decide
  have hlength : (condition filter).params.length = filter.leaves.length := Sql.length_params_clauseFrom filter 1
  have hnumber : (1 + (filter.leaves.length : Int) + k).toNat = filter.leaves.length + 1 + k := by omega
  rw [Sql.Piece.lexemes, (condition filter).toInt_next (fits_condition hfits), hone, hlength, hnumber]

theorem lexemes_slot_first {filter : Predicate} (hfits : Sql.Fits 1 filter.leaves.length) :
    (Sql.Piece.slot ((condition filter).next 1)).lexemes = [.slot (filter.leaves.length + 1)] := by
  rw [← Int32.add_zero ((condition filter).next 1)]
  exact lexemes_slot_next (k := 0) hfits

section Selections

variable {counting : Bool} {columns : String} (hselects : Selects counting columns)
  (hcolumns : selectsNoSlots columns = true) {source : Sql} (hsource : Plain source) {filter : Predicate}
  (hfits : Sql.Fits 1 (filter.leaves.length + 1))

include hselects hcolumns hsource hfits

theorem binds_selectCapped (cap : Option Int64) :
    (selectCapped columns source (condition filter) cap).Binds filter.leaves (cap.toList.map ("LIMIT", ·)) := by
  have hlegible := isLegible_selectCapped hselects hsource.unlimited hfits cap
  have hfront := compares_orderedBy (compares_selectWhere hcolumns hsource hfits) []
  cases cap with
  | none =>
    refine Statement.binds_of_compares (List.append_nil _).symm hlegible hfront rfl ?_
    exact (bound_condition filter).trans (List.append_nil _).symm
  | some limit =>
    refine Statement.binds_of_compares rfl hlegible hfront ?_ ?_
    · exact congrArg (.word "LIMIT" :: ·) (lexemes_slot_first hfits.left)
    · rw [selectCapped, bound_condition]
      rfl

theorem binds_selectPage (request : PageRequest) :
    (selectPage columns source (condition filter) request).Binds filter.leaves
      [("LIMIT", request.limit), ("OFFSET", request.offset)] := by
  have hlegible := isLegible_selectPage hselects hsource.unlimited hfits request
  have hfront := compares_orderedBy (compares_selectWhere hcolumns hsource hfits) request.sort
  refine Statement.binds_of_compares rfl hlegible hfront ?_ ?_
  · have hoffset := congrArg (.word "OFFSET" :: ·) (lexemes_slot_next hfits)
    exact congrArg₂ (.word "LIMIT" :: · ++ ·) (lexemes_slot_first hfits.left) hoffset
  · rw [selectPage, bound_condition]
    rfl

end Selections

theorem binds_selectCount {source : Sql} (hsource : Plain source) {filter : Predicate}
    (hfits : Sql.Fits 1 (filter.leaves.length + 1)) : (selectCount source (condition filter)).Binds filter.leaves [] := by
  refine Statement.binds_of_compares (List.append_nil _).symm
    (unlimited_selectWhere selects_count hsource.unlimited hfits).legible
    (compares_selectWhere selectsNoSlots_count hsource hfits) rfl ?_
  exact (bound_condition filter).trans (List.append_nil _).symm

/-! ## The cap of a search -/

/-- The cap on a search with these comparisons: only a search without any is capped. -/
def capOn (config : Config) : List Predicate.Leaf → Option Int64
  | [] =>
    match config.unfiltered with
    | .cap limit => some limit
    | .allow | .reject => none
  | _ :: _ => none

theorem isAlways_filter_iff (criteria : Criteria) :
    criteria.filter.isAlways = true ↔ criteria.filter.leaves = [] := by
  have hunfiltered : criteria.filter.isAlways = true ↔ ∀ key, ¬criteria.Asks key := criteria.isUnfiltered_iff
  rw [hunfiltered, criteria.leaves_filter, List.filterMap_eq_nil_iff]
  constructor
  · intro h key _
    rw [← Option.not_isSome_iff_eq_none, criteria.isSome_comparison?]
    exact h key
  · intro h key
    rw [← criteria.isSome_comparison?, Option.not_isSome_iff_eq_none]
    exact h key key.mem_values

theorem capOn_of_permission {config : Config} {criteria : Criteria} {cap : Option Int64}
    (h : permission config criteria.filter = .ok cap) : capOn config criteria.filter.leaves = cap := by
  have halways := isAlways_filter_iff criteria
  unfold permission at h
  -- the policy is asked only where there is no comparison
  cases hleaves : criteria.filter.leaves with
  | nil =>
    rw [halways.mpr hleaves, if_pos rfl] at h
    unfold capOn
    cases hpolicy : config.unfiltered with
    | allow | cap =>
      rw [hpolicy] at h
      exact Except.ok.inj h
    | reject =>
      rw [hpolicy] at h
      cases h
  | cons leaf leaves =>
    have hfalse : criteria.filter.isAlways = false := by
      rw [Bool.eq_false_iff, ne_eq, halways, hleaves]
      exact List.cons_ne_nil _ _
    rw [hfalse, if_neg Bool.false_ne_true] at h
    exact Except.ok.inj h

/-! ## Statements of calls -/

theorem numbered_of_leads {piece : Sql.Piece} {sql : Sql} (hpiece : piece.Leads)
    (hlegible : Sql.isLegible sql = true) (hfixed : sql.all Sql.Piece.isFixed = true) :
    (Statement.mk (piece :: sql) []).Numbered := by
  have hslots : ∀ p ∈ piece :: sql, p.isFixed = true := by
    rw [List.forall_mem_cons]
    exact ⟨hpiece.fixed, List.all_eq_true.mp hfixed⟩
  apply Statement.numbered_of_isLegible (Sql.isLegible_cons hpiece.whole hpiece.separate hlegible)
  rw [Sql.slotNumbers_of_isFixed hslots]
  exact .refl []

theorem numbered_selectAgeStats (config : Config) : (selectAgeStats config).Numbered :=
  numbered_of_leads (Sql.leads_of_spellsNoSlots (by decide +kernel)) rfl rfl

theorem numbered_selectTeamAgeStats (config : Config) : (selectTeamAgeStats config).Numbered :=
  numbered_of_leads (Sql.leads_of_spellsNoSlots (by decide +kernel)) rfl rfl

theorem numbered_schema (config : Config) : ∀ sql ∈ Sql.schema config, (Statement.mk sql []).Numbered := by
  unfold Sql.schema
  rw [List.forall_mem_cons, List.forall_mem_cons, List.forall_mem_singleton]
  refine ⟨?_, ?_, ?_⟩
  all_goals exact Statement.numbered_of_isLegible rfl (.refl [])

theorem numbered_dropSchema (config : Config) : ∀ sql ∈ Sql.dropSchema config, (Statement.mk sql []).Numbered := by
  unfold Sql.dropSchema
  rw [List.forall_mem_cons, List.forall_mem_singleton]
  exact ⟨Statement.numbered_of_isLegible rfl (.refl []), Statement.numbered_of_isLegible rfl (.refl [])⟩

/-- What the selection of a search binds. -/
theorem binds_search {config : Config} {criteria : Criteria} {statement : Statement}
    (h : (Call.search criteria).MaySend config statement ∨ (Call.searchMembers criteria).MaySend config statement) :
    statement.Binds criteria.filter.leaves ((capOn config criteria.filter.leaves).toList.map ("LIMIT", ·)) := by
  rcases h with h | h
  · cases h with
    | search hcap =>
      rw [capOn_of_permission hcap]
      exact binds_selectCapped selects_entryColumns selectsNoSlots_entryColumns (plain_membersWithTeams config)
        (fits_filter criteria) _
  · cases h with
    | searchMembers hcap =>
      rw [capOn_of_permission hcap]
      exact binds_selectCapped selects_foundMemberColumns selectsNoSlots_foundMemberColumns
        (plain_memberSource config _) (fits_filter criteria) _

/-- What the statements of a search for a page bind. -/
theorem binds_searchPage {config : Config} {criteria : Criteria} {request : PageRequest} {statement : Statement}
    (h : (Call.searchPage criteria request).MaySend config statement) :
    (statement.isCount = true → statement.Binds criteria.filter.leaves []) ∧
    (statement.isCount = false → statement.Binds criteria.filter.leaves
      [("LIMIT", (capped request (capOn config criteria.filter.leaves)).limit), ("OFFSET", request.offset)]) := by
  have hsource := plain_membersWithTeams config
  have hfits := fits_filter criteria
  cases h with
  | countPage =>
    refine ⟨fun _ => binds_selectCount hsource hfits, fun hrows => ?_⟩
    rw [isCount_selectCount config hfits] at hrows
    cases hrows
  | @searchPage _ _ cap hcap =>
    -- a selection of rows is told from a count by its text
    have hselect := limited_selectPage selects_entryColumns hsource.unlimited hfits (capped request cap)
    have hoffset : (capped request cap).offset = request.offset := by
      cases cap <;> rfl
    rw [capOn_of_permission hcap, ← hoffset]
    refine ⟨fun hcount => ?_, fun _ => ?_⟩
    · rw [hselect.1] at hcount
      cases hcount
    · exact binds_selectPage selects_entryColumns selectsNoSlots_entryColumns hsource hfits _

theorem numbered_of_maySend {config : Config} {call : Call} {statement : Statement}
    (h : call.MaySend config statement) : statement.Numbered := by
  have hsource := plain_membersWithTeams config
  -- the slots of a statement that is the same for all calls can be computed from its text
  cases h with
  | addTeam | addSampleTeam | findTeam | askForTeamOf | askForTeam | findMember | listMembersNamed | removeMember =>
    exact Statement.numbered_of_isLegible rfl (.refl [1])
  | addMember | addSampleMember => exact Statement.numbered_of_isLegible rfl (.refl [1, 2, 3])
  | changeTeam => exact Statement.numbered_of_isLegible rfl (.swap 1 2 [])
  | listTeams | listMembers | listSummaries => exact Statement.numbered_of_isLegible rfl (.refl [])
  | ageStats => exact numbered_selectAgeStats config
  | teamAgeStats => exact numbered_selectTeamAgeStats config
  | search hcap => exact (binds_search (.inl (.search hcap))).numbered
  | searchMembers hcap => exact (binds_search (.inr (.searchMembers hcap))).numbered
  | countPage criteria request => exact (binds_selectCount hsource (fits_filter criteria)).numbered
  | @searchPage criteria request cap hcap =>
    exact (binds_selectPage selects_entryColumns selectsNoSlots_entryColumns hsource (fits_filter criteria) _).numbered
  | dropTable hsql => exact numbered_dropSchema config _ hsql

/-- Every statement of every call has one slot for each of its values, numbered from one on; the statements that make
and remove the tables have none.  The first values of a search are those that the criteria ask for, in the order of the
criteria, each in the slot that its column is compared with.  The cap, if there is one, has the slot after these; so has
the limit of a page, with the offset behind it. -/
theorem statements_numbered (config : Config) :
    (∀ call : Call, ∀ replies, ∀ statement ∈ ((call.program config).exec replies).statements, statement.Numbered) ∧
    (∀ link replies, ∀ statement ∈ ((setUp config link).exec replies).statements,
      statement.Numbered ∧ statement.params = []) ∧
    (∀ replies, ∀ statement ∈ ((Call.dropTables.program config).exec replies).statements, statement.params = []) ∧
    ∀ criteria : Criteria,
      let leaves := [Criteria.Key.username, .teamName, .minAge, .maxAge].filterMap criteria.comparison?
      (∀ call ∈ [Call.search criteria, .searchMembers criteria], ∀ replies,
        ∀ statement ∈ ((call.program config).exec replies).statements,
          statement.Binds leaves ((capOn config leaves).toList.map ("LIMIT", ·))) ∧
      ∀ request replies, ∀ statement ∈ (((Call.searchPage criteria request).program config).exec replies).statements,
        (statement.isCount = true → statement.Binds leaves []) ∧
        (statement.isCount = false → statement.Binds leaves
          [("LIMIT", (capped request (capOn config leaves)).limit), ("OFFSET", request.offset)]) := by
  refine ⟨?_, ?_, ?_, ?_⟩
  · intro call replies statement hstatement
    exact numbered_of_maySend (maySend_of_mem_statements config hstatement)
  · intro link replies statement hstatement
    -- what is sent while a store is opened is part of the schema
    rcases (orderly_setUp config link).forall_mem_statements replies statement hstatement with ⟨sql, hsql, rfl⟩
    exact ⟨numbered_schema config sql hsql, rfl⟩
  · -- no table is dropped with parameters
    intro replies statement hstatement
    cases maySend_of_mem_statements config hstatement
    rfl
  · intro criteria leaves
    have hleaves : criteria.filter.leaves = leaves := criteria.leaves_filter
    refine ⟨?_, ?_⟩
    · intro call hcall replies statement hstatement
      have hsent := maySend_of_mem_statements config hstatement
      rw [List.mem_cons, List.mem_singleton] at hcall
      rw [← hleaves]
      rcases hcall with rfl | rfl
      · exact binds_search (.inl hsent)
      · exact binds_search (.inr hsent)
    · intro request replies statement hstatement
      rw [← hleaves]
      exact binds_searchPage (maySend_of_mem_statements config hstatement)

/-- A page of the members within bounds of age, and a search for all members with a cap. -/
theorem statements_numbered_ages :
    let config := Config.ofUrl "postgres://localhost/roster"
    let cautious := { config with unfiltered := .cap 5 }
    let ages : Criteria := ⟨none, none, some 30, some 40⟩
    let countRow : Row := ⟨none, none, none, none, none, none, some 31, none, none, none, none⟩
    let page := ((Call.searchPage ages ⟨10, 20, []⟩).program config).exec [.outcome ⟨[countRow], 0⟩]
    let all := ((Call.searchMembers ⟨none, none, none, none⟩).program cautious).exec []
    (∃ statement ∈ page.statements, statement.Numbered ∧
      statement.Binds [⟨.age, .ge, .ofInt32 30⟩, ⟨.age, .le, .ofInt32 40⟩] [("LIMIT", 20), ("OFFSET", 10)]) ∧
    (∃ statement ∈ all.statements, statement.Binds [] [("LIMIT", 5)]) ∧
    ∃ statement ∈ ((setUp config (.dialled none)).exec []).statements, statement.Numbered ∧ statement.params = [] := by
  intro config cautious ages countRow page all
  let request : PageRequest := ⟨10, 20, []⟩
  let select := selectPage entryColumns (membersWithTeams config) (condition ages.filter) request
  let capped := selectCapped foundMemberColumns (membersAlone cautious) (condition .always) (some 5)
  have hpage : select ∈ page.statements := List.mem_cons_of_mem _ (List.mem_cons_self ..)
  have hall : capped ∈ all.statements := List.mem_cons_self ..
  have hconfig : config.check = .ok () := by
    apply Config.check_ofUrl
    intro limit hcap
    cases hcap
  have hmake : Statement.mk (Sql.createTeams config) [] ∈ ((setUp config (.dialled none)).exec []).statements := by
    rw [setUp_eq hconfig rfl]
    exact List.mem_cons_self ..
  have hrows : select.isCount = false :=
    (limited_selectPage selects_entryColumns (unlimited_membersWithTeams config) (fits_filter ages) request).1
  rcases statements_numbered config with ⟨hnumbered, hsetUp, -, hsearch⟩
  rcases statements_numbered cautious with ⟨-, -, -, hcautious⟩
  have hselect := ((hsearch ages).2 request _ select hpage).2 hrows
  have hcapped := (hcautious ⟨none, none, none, none⟩).1 (.searchMembers ⟨none, none, none, none⟩)
    (List.mem_cons_of_mem _ (List.mem_cons_self ..)) [] capped hall
  refine ⟨⟨select, hpage, hnumbered (.searchPage ages request) _ select hpage, hselect⟩, ⟨capped, hall, hcapped⟩, ?_⟩
  exact ⟨_, hmake, hsetUp (.dialled none) [] _ hmake⟩

end Store

end Roster
