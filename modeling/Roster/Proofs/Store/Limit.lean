import Roster.Proofs.Sql.Legible
import Roster.Proofs.Store.Paging

/-! # The limits of searches

How many rows a selection returns at most is said in its text: a slot follows the keyword "LIMIT", and the statement has
a number for that slot.  The searches put this keyword into their text at most once, and nothing that is searched for
can bring in another one.

* `Statement.limits?`: the limits of a statement, read off its text.
* `limited_selectCapped`, `limited_selectPage`: the limits of the selections of a search.
-/

namespace Roster

namespace Sql

/-! ## Limits in a text -/

/-- Whether the lexeme is the keyword that introduces a limit, which may be written in either case. -/
def Lexeme.isLimit : Lexeme → Bool
  | .word s => Text.upper s == "LIMIT"
  | .name _ | .literal _ | .slot _ | .symbol _ => false

def Lexeme.slot? : Lexeme → Option Nat
  | .slot number => some number
  | .word _ | .name _ | .literal _ | .symbol _ => none

/-- For each keyword that introduces a limit, the slot right after it, if there is one. -/
def limitSlots : List Lexeme → List (Option Nat)
  | [] => []
  | l :: ls => if l.isLimit then ls.head?.bind Lexeme.slot? :: limitSlots ls else limitSlots ls

/-- Whether the lexemes are those of a selection that counts rows. -/
def selectsCount (ls : List Lexeme) : Bool :=
  ls.take 2 == [.word "SELECT", .word "COUNT"]

theorem selectsCount_append {ls : List Lexeme} (h : 2 ≤ ls.length) (ms : List Lexeme) :
    selectsCount (ls ++ ms) = selectsCount ls := by
  rw [selectsCount, List.take_append_of_le_length h, selectsCount]

/-- What introduces no limit adds none. -/
theorem limitSlots_append {ls : List Lexeme} (h : ∀ l ∈ ls, l.isLimit = false) (ms : List Lexeme) :
    limitSlots (ls ++ ms) = limitSlots ms := by
  induction ls with
  | nil => rfl
  | cons l ls ih =>
    rw [List.forall_mem_cons] at h
    rw [List.cons_append, limitSlots, h.1, if_neg Bool.false_ne_true, ih h.2]

/-- Whether the part introduces no limit. -/
def Piece.isFree (piece : Piece) : Bool :=
  piece.lexemes.all (!·.isLimit)

/-- A legible text that introduces no limit. -/
structure Unlimited (sql : Sql) : Prop where
  legible : isLegible sql = true
  free : ∀ piece ∈ sql, piece.isFree = true

theorem Unlimited.limitSlots_append {sql : Sql} (h : Unlimited sql) (ms : List Lexeme) :
    limitSlots (sql.flatMap Piece.lexemes ++ ms) = limitSlots ms := by
  apply Sql.limitSlots_append
  intro l hl
  obtain ⟨piece, hpiece, hl⟩ := List.mem_flatMap.mp hl
  have hnot := List.all_eq_true.mp (h.free piece hpiece) l hl
  exact Bool.not_eq_true' _ |>.mp hnot

theorem unlimited_of_eq {sql : Sql} (hlegible : isLegible sql = true) (hfree : sql.all Piece.isFree = true) :
    Unlimited sql :=
  ⟨hlegible, List.all_eq_true.mp hfree⟩

/-- A part with a break at both ends that introduces no limit can stand between two texts. -/
theorem Unlimited.between {a : Piece} {s t : Sql} (hs : Unlimited s) (ha : Unlimited [a])
    (hstart : a.startsAtBreak = true) (hend : a.endsAtBreak = true) (ht : Unlimited t) : Unlimited (s ++ a :: t) := by
  constructor
  · exact isLegible_between (ha.legible) hstart hend hs.legible ht.legible
  · rw [List.forall_mem_append, List.forall_mem_cons]
    exact ⟨hs.free, ha.free a (List.mem_singleton_self a), ht.free⟩

/-- A part that ends in a break and introduces no limit can stand before a text. -/
theorem Unlimited.cons {a : Piece} {sql : Sql} (ha : Unlimited [a]) (hend : a.endsAtBreak = true)
    (h : Unlimited sql) : Unlimited (a :: sql) := by
  constructor
  · exact isLegible_cons ha.legible hend h.legible
  · rw [List.forall_mem_cons]
    exact ⟨ha.free a (List.mem_singleton_self a), h.free⟩

theorem isFree_column (field : Field) : (Piece.column field).isFree = true := by
  cases field <;> rfl

theorem unlimited_clauseFrom {p : Predicate} (hfits : Fits 1 p.leaves.length) : Unlimited (clauseFrom 1 p).sql := by
  constructor
  · exact isLegible_clauseFrom (by decide) hfits
  · exact forall_mem_clauseFrom (by decide) (fun leaf _ => isFree_column leaf.field) (fun _ => rfl) 1

theorem unlimited_ordering (terms : List SortTerm) : Unlimited (ordering terms) := by
  constructor
  · exact isLegible_ordering terms
  · exact forall_mem_ordering (by decide) isFree_column terms

end Sql

open Sql (Unlimited)

namespace Statement

/-- For each keyword that introduces a limit in the text of the statement, the number that the statement has for the
slot after it. -/
def limits? (statement : Statement) : Option (List (Option Int)) :=
  (Sql.lexemes? (Sql.render statement.sql)).map fun ls =>
    (Sql.limitSlots ls).map fun slot => slot.bind fun number => statement.numberAt? number

/-- Whether the statement counts rows, by its text. -/
def isCount (statement : Statement) : Bool :=
  (Sql.lexemes? (Sql.render statement.sql)).any Sql.selectsCount

theorem limits?_of_unlimited {statement : Statement} (h : Unlimited statement.sql) : statement.limits? = some [] := by
  have hslots := h.limitSlots_append []
  rw [List.append_nil] at hslots
  rw [limits?, Sql.lexemes?_of_isLegible h.legible, Option.map_some, hslots]
  rfl

/-- A limit can stand between two texts that introduce none. -/
theorem isLegible_of_limit {front back : Sql} {slot : Int32} (hfront : Unlimited front)
    (hback : Unlimited (.slot slot :: back)) :
    Sql.isLegible (front ++ .text " LIMIT " :: .slot slot :: back) = true :=
  Sql.isLegible_between rfl rfl rfl hfront.legible hback.legible

/-- A statement whose text introduces a limit in one place has the number for the slot there as its limit. -/
theorem limits?_of_limit (statement : Statement) {front back : Sql} {slot : Int32}
    (hsql : statement.sql = front ++ .text " LIMIT " :: .slot slot :: back) (hslot : 0 ≤ slot.toInt)
    (hfront : Unlimited front) (hback : Unlimited (.slot slot :: back)) :
    statement.limits? = some [statement.numberAt? slot.toInt] := by
  have hlegible : Sql.isLegible statement.sql = true := by
    rw [hsql]
    exact isLegible_of_limit hfront hback
  -- the text has one keyword of a limit between the two parts
  have hlexemes : statement.sql.flatMap Sql.Piece.lexemes =
      front.flatMap Sql.Piece.lexemes ++
        ([.word "LIMIT"] ++ (Sql.Piece.slot slot :: back).flatMap Sql.Piece.lexemes) := by
    rw [hsql, List.flatMap_append, List.flatMap_cons]
    rfl
  -- neither what stands before the keyword nor what follows it introduces another limit
  have hrest := hback.limitSlots_append []
  rw [List.append_nil] at hrest
  have hslots : Sql.limitSlots (statement.sql.flatMap Sql.Piece.lexemes) = [some slot.toInt.toNat] := by
    rw [hlexemes, hfront.limitSlots_append, List.singleton_append, Sql.limitSlots, hrest]
    rfl
  rw [limits?, Sql.lexemes?_of_isLegible hlegible, Option.map_some, hslots, List.map_singleton, Option.bind_some,
    Int.toNat_of_nonneg hslot]

theorem isCount_of_isLegible {statement : Statement} {first : Sql.Piece} {rest : Sql}
    (hsql : statement.sql = first :: rest) (hlegible : Sql.isLegible statement.sql = true) :
    statement.isCount = Sql.selectsCount (first.lexemes ++ rest.flatMap Sql.Piece.lexemes) := by
  rw [isCount, Sql.lexemes?_of_isLegible hlegible, hsql, List.flatMap_cons, Option.any_some]

/-- The text of the statement has one limit, which is the given number, or none if there is no number. -/
def Limited (statement : Statement) (limit : Option Int64) : Prop :=
  statement.limits? = some (limit.toList.map fun n => some n.toInt)

end Statement

/-! ## Statements of a search -/

namespace Store

theorem unlimited_membersAlone (config : Config) : Unlimited (membersAlone config) :=
  Sql.unlimited_of_eq rfl rfl

theorem unlimited_membersWithTeams (config : Config) : Unlimited (membersWithTeams config) :=
  Sql.unlimited_of_eq rfl rfl

/-- The beginning of a selection of columns, which either counts rows or does not. -/
structure Selects (counting : Bool) (columns : String) : Prop where
  unlimited : Unlimited [.text s!"SELECT {columns} FROM "]
  separate : (Sql.Piece.text s!"SELECT {columns} FROM ").endsAtBreak = true
  long : 2 ≤ (Sql.Piece.text s!"SELECT {columns} FROM ").lexemes.length
  counts : Sql.selectsCount (Sql.Piece.text s!"SELECT {columns} FROM ").lexemes = counting

/-- What the words at the beginning have to be like, which can be computed from their lexemes. -/
def begins (counting : Bool) (words : String) : Bool :=
  (Sql.Piece.text words).endsAtBreak &&
    (Sql.lexemes? words).any fun ls => ls.all (!·.isLimit) && 2 ≤ ls.length && Sql.selectsCount ls == counting

theorem selects_of_begins {counting : Bool} {columns : String}
    (h : begins counting s!"SELECT {columns} FROM " = true) : Selects counting columns := by
  rw [begins, Bool.and_eq_true, Option.any_eq_true] at h
  obtain ⟨hend, ls, hls, h⟩ := h
  -- the conditions on the columns are settled by their lexemes, which can be computed
  simp only [Bool.and_eq_true, decide_eq_true_eq, beq_iff_eq] at h
  have hlexemes : (Sql.Piece.text s!"SELECT {columns} FROM ").lexemes = ls := by
    rw [Sql.Piece.lexemes, hls, Option.getD_some]
  have hwhole : Sql.isLegible [.text s!"SELECT {columns} FROM "] = true :=
    Option.isSome_iff_exists.mpr ⟨ls, hls⟩
  refine ⟨⟨hwhole, ?_⟩, hend, ?_, ?_⟩
  · rw [List.forall_mem_singleton, Sql.Piece.isFree, hlexemes]
    exact h.1.1
  · rw [hlexemes]
    exact h.1.2
  · rw [hlexemes]
    exact h.2

theorem selects_entryColumns : Selects false entryColumns :=
  selects_of_begins (by decide +kernel)

theorem selects_foundMemberColumns : Selects false foundMemberColumns :=
  selects_of_begins (by decide +kernel)

theorem selects_count : Selects true "COUNT(*)" :=
  selects_of_begins (by decide +kernel)

/-- By its text, a statement counts if the beginning of it does. -/
theorem Selects.isCount {counting : Bool} {columns : String} (h : Selects counting columns) {statement : Statement}
    {rest : Sql} (hsql : statement.sql = .text s!"SELECT {columns} FROM " :: rest)
    (hlegible : Sql.isLegible statement.sql = true) : statement.isCount = counting := by
  rw [Statement.isCount_of_isLegible hsql hlegible, Sql.selectsCount_append h.long, h.counts]

/-- A selection under a condition introduces no limit. -/
theorem unlimited_selectWhere {counting : Bool} {columns : String} (h : Selects counting columns) {source : Sql}
    (hsource : Unlimited source) {filter : Predicate} (hfits : Sql.Fits 1 (filter.leaves.length + 1)) :
    Unlimited (selectWhere columns source (condition filter)) := by
  have hwhere : Unlimited [.text " WHERE "] := Sql.unlimited_of_eq rfl rfl
  have hselect := (h.unlimited.cons h.separate hsource).between hwhere rfl rfl (Sql.unlimited_clauseFrom hfits.left)
  simpa [selectWhere, condition] using hselect

/-- Nor does an order introduce one. -/
theorem unlimited_orderedBy {sql : Sql} (h : Unlimited sql) (terms : List SortTerm) :
    Unlimited (orderedBy sql terms) := by
  have horder : Unlimited [.text " ORDER BY "] := Sql.unlimited_of_eq rfl rfl
  have hordered := h.between horder rfl rfl (Sql.unlimited_ordering terms)
  simpa [orderedBy] using hordered

theorem unlimited_slot {slot : Int32} (h : 0 ≤ slot.toInt) : Unlimited [.slot slot] :=
  Sql.unlimited_of_eq (decide_eq_true h) rfl

theorem nonneg_add_next {clause : Sql.Clause} {k : Nat} (hfits : Sql.Fits 1 (clause.params.length + k)) :
    0 ≤ (clause.next 1 + .ofNat k).toInt := by
  have hone : (1 : Int32).toInt = 1 := by decide
  rw [clause.toInt_next hfits, hone]
  omega

theorem nonneg_next {clause : Sql.Clause} (hfits : Sql.Fits 1 clause.params.length) : 0 ≤ (clause.next 1).toInt := by
  rw [← Int32.add_zero (clause.next 1)]
  exact nonneg_add_next (k := 0) hfits

/-- The slots for the limit and the offset of a page introduce no further limit. -/
theorem unlimited_pageSlots {clause : Sql.Clause} (hfits : Sql.Fits 1 (clause.params.length + 1)) :
    Unlimited [.slot (clause.next 1), .text " OFFSET ", .slot (clause.next 1 + 1)] := by
  have hoffset : 0 ≤ (clause.next 1 + 1).toInt := nonneg_add_next hfits
  have hkeyword : Unlimited [.text " OFFSET "] := Sql.unlimited_of_eq rfl rfl
  exact (unlimited_slot (nonneg_next hfits.left)).between hkeyword rfl rfl (unlimited_slot hoffset)

section Legible

variable {counting : Bool} {columns : String} (h : Selects counting columns) {source : Sql} (hsource : Unlimited source)
  {filter : Predicate} (hfits : Sql.Fits 1 (filter.leaves.length + 1))

include h hsource hfits

theorem isLegible_selectCapped (cap : Option Int64) :
    Sql.isLegible (selectCapped columns source (condition filter) cap).sql = true := by
  have hordered := unlimited_orderedBy (unlimited_selectWhere h hsource hfits) []
  cases cap with
  | none => exact hordered.legible
  | some limit =>
    exact Statement.isLegible_of_limit hordered (unlimited_slot (nonneg_next (fits_condition hfits).left))

theorem isLegible_selectPage (request : PageRequest) :
    Sql.isLegible (selectPage columns source (condition filter) request).sql = true := by
  have hordered := unlimited_orderedBy (unlimited_selectWhere h hsource hfits) request.sort
  exact Statement.isLegible_of_limit hordered (unlimited_pageSlots (fits_condition hfits))

end Legible

/-- A count counts rows. -/
theorem isCount_selectCount (config : Config) {filter : Predicate} (hfits : Sql.Fits 1 (filter.leaves.length + 1)) :
    (selectCount (membersWithTeams config) (condition filter)).isCount = true :=
  selects_count.isCount rfl (unlimited_selectWhere selects_count (unlimited_membersWithTeams config) hfits).legible

/-- The selection of a search returns rows and has the cap as its limit, if there is one. -/
theorem limited_selectCapped {columns : String} (h : Selects false columns) {source : Sql} (hsource : Unlimited source)
    {filter : Predicate} (hfits : Sql.Fits 1 (filter.leaves.length + 1)) (cap : Option Int64) :
    let select := selectCapped columns source (condition filter) cap
    select.isCount = false ∧ select.Limited cap := by
  intro select
  have hordered := unlimited_orderedBy (unlimited_selectWhere h hsource hfits) []
  have hlegible := isLegible_selectCapped h hsource hfits cap
  have hcondition := (fits_condition hfits).left
  -- without a cap, nothing follows the ordering
  cases cap with
  | none => exact ⟨h.isCount rfl hlegible, Statement.limits?_of_unlimited hordered⟩
  | some limit =>
    have hnext := nonneg_next hcondition
    -- the limit has the first slot after those of the condition
    have hnumber : select.numberAt? ((condition filter).next 1).toInt = some limit.toInt :=
      numberAt?_first _ hcondition ..
    refine ⟨h.isCount rfl hlegible, ?_⟩
    rw [Statement.Limited, Statement.limits?_of_limit select rfl hnext hordered (unlimited_slot hnext), hnumber]
    rfl

/-- The selection of a page returns rows and has the limit of the request. -/
theorem limited_selectPage {columns : String} (h : Selects false columns) {source : Sql} (hsource : Unlimited source)
    {filter : Predicate} (hfits : Sql.Fits 1 (filter.leaves.length + 1)) (request : PageRequest) :
    let select := selectPage columns source (condition filter) request
    select.isCount = false ∧ select.Limited (some request.limit) := by
  intro select
  have hordered := unlimited_orderedBy (unlimited_selectWhere h hsource hfits) request.sort
  have hcondition := fits_condition hfits
  have hnext := nonneg_next hcondition.left
  have hslots := unlimited_pageSlots hcondition
  have hnumber : select.numberAt? ((condition filter).next 1).toInt = some request.limit.toInt :=
    numberAt?_first _ hcondition.left ..
  -- the limit is the first of the two slots, and the offset behind it introduces no limit
  refine ⟨h.isCount rfl (isLegible_selectPage h hsource hfits request), ?_⟩
  rw [Statement.Limited, Statement.limits?_of_limit select rfl hnext hordered hslots, hnumber]
  rfl

end Store

end Roster
