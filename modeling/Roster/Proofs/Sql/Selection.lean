import Roster.Proofs.Sql.Numbering

/-! # Selections read part by part

Keywords cut the text of a selection into parts: what is selected, from which tables, under which condition and in which
order.  A table may be named with a word that stands for it, and columns are looked up in a table by that word.

* `part`: the part that a keyword opens.
* `tablesIn`: the tables in a part, each with the word that stands for it.
* `mem_of_mem_qualifiers`: where no part of a text qualifies columns by other words, the text does not either.
-/

namespace Roster.Sql

theorem render_append (s t : Sql) : render (s ++ t) = render s ++ render t := by
  rw [← String.toList_inj, toList_render_append, String.toList_append]

/-! ## Parts of a selection -/

/-- Whether the lexeme is the keyword, which may be written in either case. -/
def Lexeme.isKeyword (keyword : String) : Lexeme → Bool
  | .word s => Text.upper s == keyword
  | .name _ | .literal _ | .slot _ | .symbol _ => false

/-- The keywords that open a part of a selection. -/
def partKeywords : List String :=
  ["SELECT", "FROM", "WHERE", "GROUP", "HAVING", "ORDER", "LIMIT", "OFFSET"]

/-- Whether the lexeme opens a part of a selection. -/
def Lexeme.opensPart (l : Lexeme) : Bool :=
  partKeywords.any l.isKeyword

/-- The part that the keyword opens, up to the next part. -/
def part (keyword : String) (ls : List Lexeme) : List Lexeme :=
  ((ls.dropWhile fun l => !l.isKeyword keyword).drop 1).takeWhile fun l => !l.opensPart

/-- A part lies between its keyword and the keyword of the next part. -/
theorem part_append {keyword : String} {front body back : List Lexeme} {l : Lexeme}
    (hfront : ∀ x ∈ front, x.isKeyword keyword = false) (hl : l.isKeyword keyword = true)
    (hbody : ∀ x ∈ body, x.opensPart = false) (hback : ∀ x ∈ back.head?, x.opensPart = true) :
    part keyword (front ++ l :: (body ++ back)) = body := by
  -- what stands before the keyword is passed over, and the body is taken up to the next part
  have hpassed : ∀ x ∈ front, (!x.isKeyword keyword) = true := fun x hx => by rw [hfront x hx, Bool.not_false]
  have htaken : ∀ x ∈ body, (!x.opensPart) = true := fun x hx => by rw [hbody x hx, Bool.not_false]
  have hend : back.takeWhile (fun x => !x.opensPart) = [] := by
    cases back with
    | nil => rfl
    | cons x back => rw [List.takeWhile_cons, hback x rfl, Bool.not_true, if_neg Bool.false_ne_true]
  rw [part, List.dropWhile_append_of_pos hpassed, List.dropWhile_cons, hl, Bool.not_true, if_neg Bool.false_ne_true,
    List.drop_one, List.tail_cons, List.takeWhile_append_of_pos htaken, hend, List.append_nil]

/-- A lexeme that opens no part is not the keyword of one. -/
theorem not_isKeyword_of_not_opensPart {keyword : String} (hkeyword : keyword ∈ partKeywords) {l : Lexeme}
    (h : l.opensPart = false) : l.isKeyword keyword = false := by
  rw [Lexeme.opensPart, List.any_eq_false] at h
  exact Bool.eq_false_iff.mpr (h keyword hkeyword)

/-- Whether no lexeme of the part of a text opens a part of a selection. -/
def Piece.opensNothing (piece : Piece) : Bool :=
  piece.lexemes.all (!·.opensPart)

theorem not_opensPart_of_mem {sql : Sql} (h : ∀ piece ∈ sql, piece.opensNothing = true) :
    ∀ l ∈ sql.flatMap Piece.lexemes, l.opensPart = false := by
  intro l hl
  obtain ⟨piece, hpiece, hl⟩ := List.mem_flatMap.mp hl
  exact (Bool.not_eq_true' _).mp (List.all_eq_true.mp (h piece hpiece) l hl)

theorem opensNothing_clauseFrom (p : Predicate) (n : Int32) :
    ∀ piece ∈ (clauseFrom n p).sql, piece.opensNothing = true := by
  refine forall_mem_clauseFrom (by decide) ?_ (fun _ => rfl) n
  intro leaf _
  cases leaf.field <;> rfl

/-! ## Tables and the words for them -/

/-- The names that a word follows, each with that word. -/
def tablesIn : List Lexeme → List (String × String)
  | .name table :: .word word :: ls => (table, word) :: tablesIn ls
  | _ :: ls => tablesIn ls
  | [] => []

/-- Whether the part qualifies columns by these words only, and no dot at its beginning makes a qualifier of what stands
before it. -/
def Piece.qualifiesBy (words : List String) (piece : Piece) : Bool :=
  piece.lexemes.head? != some (.symbol ".") && (qualifiers piece.lexemes).all words.contains

theorem Piece.noDot {words : List String} {piece : Piece} (h : piece.qualifiesBy words = true) : NoDot piece.lexemes := by
  rw [qualifiesBy, Bool.and_eq_true, bne_iff_ne] at h
  exact h.1

theorem Piece.mem_of_mem_qualifiers {words : List String} {piece : Piece} (h : piece.qualifiesBy words = true)
    {word : String} (hword : word ∈ qualifiers piece.lexemes) : word ∈ words := by
  rw [qualifiesBy, Bool.and_eq_true, List.all_eq_true] at h
  exact List.contains_iff_mem.mp (h.2 word hword)

theorem noDot_flatMap {words : List String} {sql : Sql} (h : ∀ piece ∈ sql, piece.qualifiesBy words = true) :
    NoDot (sql.flatMap Piece.lexemes) := by
  induction sql with
  | nil => nofun
  | cons piece sql ih =>
    rw [List.forall_mem_cons] at h
    exact noDot_append (Piece.noDot h.1) (ih h.2)

/-- The words before the dots of a text are those before the dots of its parts. -/
theorem mem_of_mem_qualifiers {words : List String} {sql : Sql} (h : ∀ piece ∈ sql, piece.qualifiesBy words = true) :
    ∀ word ∈ qualifiers (sql.flatMap Piece.lexemes), word ∈ words := by
  induction sql with
  | nil => nofun
  | cons piece sql ih =>
    rw [List.forall_mem_cons] at h
    intro word hword
    -- the words before dots are those of each part, since no part begins with a dot
    rw [List.flatMap_cons, qualifiers_append (noDot_flatMap h.2), List.mem_append] at hword
    rcases hword with hword | hword
    · exact Piece.mem_of_mem_qualifiers h.1 hword
    · exact ih h.2 word hword

theorem qualifiesBy_column {words : List String} {field : Field} (h : field.entity.alias ∈ words) :
    (Piece.column field).qualifiesBy words = true := by
  have hqualifiers : qualifiers (Piece.column field).lexemes = [field.entity.alias] := by
    cases field <;> rfl
  rw [Piece.qualifiesBy, hqualifiers, List.all_cons, List.contains_iff_mem.mpr h]
  rfl

theorem Piece.qualifiesBy_mono {words words' : List String} (hwords : words ⊆ words') {piece : Piece}
    (h : piece.qualifiesBy words = true) : piece.qualifiesBy words' = true := by
  rw [qualifiesBy, Bool.and_eq_true, List.all_eq_true] at h ⊢
  exact ⟨h.1, fun word hword => List.contains_iff_mem.mpr (hwords (List.contains_iff_mem.mp (h.2 word hword)))⟩

/-- A part that qualifies no columns does not qualify them by other words. -/
theorem Piece.qualifiesBy_of_nil {words : List String} {piece : Piece} (h : piece.qualifiesBy [] = true) :
    piece.qualifiesBy words = true :=
  Piece.qualifiesBy_mono (List.nil_subset words) h

theorem qualifiesBy_of_nil {words : List String} {sql : Sql} (h : sql.all (Piece.qualifiesBy []) = true) :
    ∀ piece ∈ sql, piece.qualifiesBy words = true :=
  fun piece hpiece => Piece.qualifiesBy_of_nil (List.all_eq_true.mp h piece hpiece)

/-- A condition qualifies columns as its comparisons do. -/
theorem qualifiesBy_clauseFrom {words : List String} {p : Predicate}
    (h : ∀ leaf ∈ p.leaves, leaf.field.entity.alias ∈ words) (n : Int32) :
    ∀ piece ∈ (clauseFrom n p).sql, piece.qualifiesBy words = true := by
  have htext : ∀ text ∈ conditionTexts, (Piece.text text).qualifiesBy [] = true := by decide
  have hcolumn : ∀ leaf ∈ p.leaves, (Piece.column leaf.field).qualifiesBy words = true :=
    fun leaf hleaf => qualifiesBy_column (h leaf hleaf)
  exact forall_mem_clauseFrom (fun text ht => Piece.qualifiesBy_of_nil (htext text ht)) hcolumn
    (fun _ => rfl) n

/-- An ordering qualifies columns as its terms do. -/
theorem qualifiesBy_ordering {words : List String} (h : ∀ entity : Entity, entity.alias ∈ words)
    (terms : List SortTerm) : ∀ piece ∈ ordering terms, piece.qualifiesBy words = true := by
  have htext : ∀ text ∈ orderingTexts, (Piece.text text).qualifiesBy [] = true := by decide
  exact forall_mem_ordering (fun text ht => Piece.qualifiesBy_of_nil (htext text ht))
    (fun field => qualifiesBy_column (h field.entity)) terms

end Roster.Sql
