import Roster.Proofs.Sort
import Roster.Proofs.Sql.Legible

/-! # Reading orderings of statements

The text of an ordering, and the order of rows that it asks for when its terms are read one after the other.

* `SortTerm.written`, `render_ordering`: the text of an ordering, term by term.
* `readOrdering?`: the sort terms that a text asks for.
* `readOrdering?_ordering`: the text of an ordering asks for the given terms and for the member's id.
* `ordering_deterministic`: by the terms read, different members have one order, in which the given terms come first.
-/

namespace Roster

/-- The text of a sort term: column, direction, and where empty values go if the term says it. -/
def SortTerm.written (term : SortTerm) : String :=
  term.field.reference ++ " " ++ term.direction.keyword ++
    match term.nulls with
    | some placement => " " ++ placement.keyword
    | none => ""

/-- The field that a column holds, where `m` stands for the members and `t` for their teams. -/
def Field.ofColumn? : String → String → Option Field
  | "m", "member_id" => some .memberId
  | "m", "username" => some .username
  | "m", "age" => some .age
  | "t", "team_id" => some .teamId
  | "t", "name" => some .teamName
  | _, _ => none

namespace Sql

/-! ## Reading -/

/-- Where empty values go, if lexemes after the direction say it.  Keywords may be written in either case. -/
def placement? : List Lexeme → Option (Option NullPlacement)
  | [] => some none
  | [.word nulls, .word place] =>
    match Text.upper nulls, Text.upper place with
    | "NULLS", "FIRST" => some (some .first)
    | "NULLS", "LAST" => some (some .last)
    | _, _ => none
  | _ => none

/-- The direction and the placement in the lexemes after a column; the direction is ascending if none is given. -/
def directed? : List Lexeme → Option (Direction × Option NullPlacement)
  | .word s :: ls =>
    match Text.upper s with
    | "ASC" => (placement? ls).map (.asc, ·)
    | "DESC" => (placement? ls).map (.desc, ·)
    | _ => (placement? (.word s :: ls)).map (.asc, ·)
  | ls => (placement? ls).map (.asc, ·)

/-- The sort term that lexemes write. -/
def sortTerm? : List Lexeme → Option SortTerm
  | .word table :: .symbol "." :: .name column :: ls => do
    let field ← Field.ofColumn? table column
    let (direction, nulls) ← directed? ls
    return ⟨field, direction, nulls⟩
  | _ => none

/-- The sort terms that the text of an ordering asks for, with commas between them. -/
def readOrdering? (text : String) : Option (List SortTerm) :=
  (lexemes? text).bind fun ls => (ls.splitOn (.symbol ",")).mapM sortTerm?

/-! ## Texts -/

theorem render_sortTerm (term : SortTerm) : render (sortTerm term) = term.written := by
  rcases term with ⟨field, direction, nulls⟩
  rw [← String.toList_inj]
  cases nulls with
  | none => simp [sortTerm, SortTerm.written, toList_render_cons, Piece.render]
  | some placement => simp [sortTerm, SortTerm.written, toList_render_cons, Piece.render]

theorem render_joinWith (separator : String) (sqls : List Sql) :
    render (joinWith separator sqls) = separator.intercalate (sqls.map render) := by
  rw [← String.toList_inj]
  fun_induction joinWith separator sqls with
  | case1 => rfl
  | case2 sql => rw [List.map_singleton, String.intercalate_singleton]
  | case3 sql sqls hne ih =>
    -- the separator stands before the other texts, and there is another one
    have hrest : sqls.map render ≠ [] := mt List.map_eq_nil_iff.mp hne
    rw [toList_render_append, toList_render_cons, ih, List.map_cons, String.intercalate_cons_of_ne_nil hrest,
      String.toList_append, String.toList_append, List.append_assoc]
    rfl

/-- The terms of an ordering: the given ones, and the member's id unless one of them is on it. -/
theorem totalOrder_eq (terms : List SortTerm) :
    totalOrder terms =
      terms ++ if .memberId ∈ terms.map SortTerm.field then [] else [⟨.memberId, .asc, none⟩] := by
  have hany : terms.any (·.field == .memberId) = true ↔ .memberId ∈ terms.map SortTerm.field := by
    rw [List.any_eq_true, List.mem_map]
    simp only [beq_iff_eq]
  rw [totalOrder]
  by_cases hid : .memberId ∈ terms.map SortTerm.field
  -- the id of the member tells all rows apart, so no term is added to it
  · rw [if_pos (hany.mpr hid), if_pos hid, List.append_nil]
  · rw [if_neg (mt hany.mp hid), if_neg hid]
    rfl

/-- The text of an ordering: the given terms in turn, and the member's id unless one of them is on it. -/
theorem render_ordering (terms : List SortTerm) :
    render (ordering terms) = ", ".intercalate (terms.map SortTerm.written ++
      if .memberId ∈ terms.map SortTerm.field then [] else ["m.\"member_id\" ASC"]) := by
  have hterms : (totalOrder terms).map (fun term => render (sortTerm term)) = (totalOrder terms).map SortTerm.written :=
    List.map_congr_left fun term _ => render_sortTerm term
  rw [ordering, render_joinWith, List.map_map]
  show ", ".intercalate ((totalOrder terms).map fun term => render (sortTerm term)) = _
  rw [hterms, totalOrder_eq, List.map_append]
  by_cases hid : .memberId ∈ terms.map SortTerm.field
  · rw [if_pos hid, if_pos hid]
    rfl
  · rw [if_neg hid, if_neg hid]
    rfl

/-! ## Reading what was written -/

/-- The lexemes of a separated list are those of its parts, with the separator's lexeme between them. -/
theorem flatMap_lexemes_joinWith {separator : String} {l : Lexeme} (hseparator : lexemes? separator = some [l])
    (sqls : List Sql) :
    (joinWith separator sqls).flatMap Piece.lexemes = [l].intercalate (sqls.map (·.flatMap Piece.lexemes)) := by
  -- the separator is a lexeme of its own, so it separates the lexemes as it separates the texts
  have hpiece : (Piece.text separator).lexemes = [l] := by
    rw [Piece.lexemes, hseparator, Option.getD_some]
  induction sqls with
  | nil => rfl
  | cons sql sqls ih =>
    cases sqls with
    | nil => rw [joinWith, List.map_singleton, List.intercalate_singleton]
    | cons next sqls =>
      have hjoin : joinWith separator (sql :: next :: sqls) =
          sql ++ .text separator :: joinWith separator (next :: sqls) := rfl
      rw [hjoin, List.flatMap_append, List.flatMap_cons, hpiece, ih, List.map_cons, List.map_cons, List.map_cons,
        List.intercalate_cons_cons, List.append_assoc]

def placementLexemes : Option NullPlacement → List Lexeme
  | none => []
  | some .first => [.word "NULLS", .word "FIRST"]
  | some .last => [.word "NULLS", .word "LAST"]

/-- The lexemes of a term: those of its column, a word for the direction, and those of the placement. -/
theorem lexemes_sortTerm (term : SortTerm) :
    (sortTerm term).flatMap Piece.lexemes =
      columnLexemes term.field ++ .word term.direction.keyword :: placementLexemes term.nulls := by
  have hdirection : (Piece.text (" " ++ term.direction.keyword)).lexemes = [.word term.direction.keyword] := by
    cases term.direction <;> decide
  -- the placement is two keywords
  have hplacement : ∀ placement : NullPlacement,
      (Piece.text (" " ++ placement.keyword)).lexemes = placementLexemes (some placement) := by
    intro placement
    cases placement <;> decide
  rw [sortTerm, List.flatMap_append, List.flatMap_cons, List.flatMap_singleton, hdirection, List.append_assoc,
    List.singleton_append]
  cases term.nulls with
  | none => rfl
  | some placement => rw [List.flatMap_singleton, hplacement]; rfl

theorem ofColumn?_column (field : Field) : Field.ofColumn? field.entity.alias field.column = some field := by
  cases field <;> rfl

theorem placement?_lexemes (nulls : Option NullPlacement) : placement? (placementLexemes nulls) = some nulls := by
  rcases nulls with - | - | - <;> decide

theorem directed?_lexemes (direction : Direction) (nulls : Option NullPlacement) :
    directed? (.word direction.keyword :: placementLexemes nulls) = some (direction, nulls) := by
  have hupper : Text.upper direction.keyword = direction.keyword := by
    cases direction <;> decide
  rw [directed?, hupper]
  cases direction with
  -- either keyword says which direction it is
  | asc | desc =>
    simp only [Direction.keyword]
    rw [placement?_lexemes, Option.map_some]

/-- A term is read as it was written. -/
theorem sortTerm?_lexemes (term : SortTerm) : sortTerm? ((sortTerm term).flatMap Piece.lexemes) = some term := by
  rw [lexemes_sortTerm]
  show (do
    let field ← Field.ofColumn? term.field.entity.alias term.field.column
    let (direction, nulls) ← directed? (.word term.direction.keyword :: placementLexemes term.nulls)
    return ⟨field, direction, nulls⟩) = some term
  rw [ofColumn?_column, directed?_lexemes]
  rfl

/-- No comma stands in a term. -/
theorem comma_not_mem_lexemes (term : SortTerm) : .symbol "," ∉ (sortTerm term).flatMap Piece.lexemes := by
  have hplacement : .symbol "," ∉ placementLexemes term.nulls := by
    rcases term.nulls with - | - | - <;> decide
  rw [lexemes_sortTerm]
  simp [columnLexemes, hplacement]

theorem totalOrder_ne_nil (terms : List SortTerm) : totalOrder terms ≠ [] := by
  rw [totalOrder_eq]
  cases terms with
  | nil => exact List.cons_ne_nil _ _
  | cons term terms => exact List.cons_ne_nil _ _

/-- The text of an ordering is read as the terms that it was written for. -/
theorem readOrdering?_ordering (terms : List SortTerm) :
    readOrdering? (render (ordering terms)) = some (totalOrder terms) := by
  let lexemes : SortTerm → List Lexeme := fun term => (sortTerm term).flatMap Piece.lexemes
  -- the text is made of the terms' lexemes, with a comma between two of them
  have hlexemes : lexemes? (render (ordering terms)) =
      some ([Lexeme.symbol ","].intercalate ((totalOrder terms).map lexemes)) := by
    have hcomma : lexemes? ", " = some [.symbol ","] := by decide
    rw [lexemes?_of_isLegible (isLegible_ordering terms), ordering, flatMap_lexemes_joinWith hcomma, List.map_map]
    rfl
  -- no term has a comma in it, so the commas separate the terms
  have hpieces : ∀ ls ∈ (totalOrder terms).map lexemes, Lexeme.symbol "," ∉ ls := by
    intro ls hls
    rcases List.mem_map.mp hls with ⟨term, -, rfl⟩
    exact comma_not_mem_lexemes term
  have hne : (totalOrder terms).map lexemes ≠ [] := mt List.map_eq_nil_iff.mp (totalOrder_ne_nil terms)
  have hread : (totalOrder terms).mapM (sortTerm? ∘ lexemes) = some (totalOrder terms) := by
    have heach : sortTerm? ∘ lexemes = fun term => pure (id term) := funext sortTerm?_lexemes
    rw [heach, List.mapM_pure, List.map_id]
    rfl
  rw [readOrdering?, hlexemes, Option.bind_some, List.splitOn_intercalate _ hpieces hne, List.mapM_map, hread]

/-! ## The order of members -/

/-- One of the terms of an ordering is on the member's id. -/
theorem memberId_mem_totalOrder (terms : List SortTerm) : .memberId ∈ (totalOrder terms).map SortTerm.field := by
  rw [totalOrder_eq, List.map_append, List.mem_append]
  by_cases hid : .memberId ∈ terms.map SortTerm.field
  · exact .inl hid
  · rw [if_neg hid]
    exact .inr (List.mem_singleton_self _)

/-- The text of an ordering is the given terms in turn, and the member's id ascending exactly if none of them is on it.
By the terms that are read from the text, however texts are collated, of two different members one comes strictly before
the other, the order is transitive, and members that the given terms tell apart keep the order of those terms.  Lines of
different members therefore have a single sorted sequence, in whatever arrangement they are. -/
theorem ordering_deterministic (collate : String → String → Ordering) [Std.TransCmp collate]
    (terms : List SortTerm) :
    let text := render (ordering terms)
    let read := terms ++ if .memberId ∈ terms.map SortTerm.field then [] else [⟨.memberId, .asc, none⟩]
    text = ", ".intercalate (terms.map SortTerm.written ++
      if .memberId ∈ terms.map SortTerm.field then [] else ["m.\"member_id\" ASC"]) ∧
    readOrdering? text = some read ∧
    (∀ a b : Entry, a.memberId ≠ b.memberId → a.order collate read b = .lt ∨ a.order collate read b = .gt) ∧
    (∀ a b : Entry, a.order collate read b = .lt ↔ b.order collate read a = .gt) ∧
    (∀ a b c : Entry, a.order collate read b ≠ .gt → b.order collate read c ≠ .gt → a.order collate read c ≠ .gt) ∧
    (∀ a b c : Entry, a.order collate read b = .lt → b.order collate read c = .lt → a.order collate read c = .lt) ∧
    (∀ a b : Entry, a.order collate terms b ≠ .eq → a.order collate read b = a.order collate terms b) ∧
    ∀ entries : List Entry, (entries.map Entry.memberId).Nodup →
      ∃ sequence, ∀ arranged, arranged.Perm entries →
        ∀ sorted, Entry.IsSortOf collate read sorted arranged ↔ sorted = sequence := by
  intro text read
  have htotal : totalOrder terms = read := totalOrder_eq terms
  have hread : readOrdering? text = some read := htotal ▸ readOrdering?_ordering terms
  have hid : .memberId ∈ read.map SortTerm.field := htotal ▸ memberId_mem_totalOrder terms
  refine ⟨render_ordering terms, hread, ?_, ?_, ?_, ?_, ?_, ?_⟩
  -- ids that differ are told apart by the term on the id, whichever place it has
  · intro a b hab
    have hne := Entry.order_ne_eq collate hid hab
    cases horder : a.order collate read b with
    | lt => exact .inl rfl
    | gt => exact .inr rfl
    | eq => exact absurd horder hne
  · intro a b
    exact Std.OrientedCmp.gt_iff_lt.symm
  · intro a b c hab hbc
    have hle := Ordering.isLE_iff_ne_gt.mpr hab
    have hle' := Ordering.isLE_iff_ne_gt.mpr hbc
    exact Ordering.isLE_iff_ne_gt.mp (Std.TransCmp.isLE_trans hle hle')
  · intro a b c hab hbc
    exact Std.TransCmp.lt_trans hab hbc
  · intro a b hab
    exact rowOrder_append_of_ne_eq collate hab _
  · intro entries hentries
    exact Entry.existsUnique_sorted collate hid hentries

/-- A descending term on the team's name, which a member without a team does not have, and two terms on one age.  Two
members of one team and age are told apart by their ids only. -/
theorem ordering_deterministic_teamless :
    let terms : List SortTerm := [⟨.teamName, .desc, none⟩, ⟨.age, .asc, some .last⟩, ⟨.age, .desc, none⟩]
    let ada : Entry := ⟨2, "Ada", 36, some 1, some "A"⟩
    let bo : Entry := ⟨1, "Bo", 36, some 1, some "A"⟩
    let cy : Entry := ⟨3, "Cy", 20, none, none⟩
    let read := terms ++ [.asc .memberId]
    render (ordering terms) =
      "t.\"name\" DESC, m.\"age\" ASC NULLS LAST, m.\"age\" DESC, m.\"member_id\" ASC" ∧
    readOrdering? (render (ordering terms)) = some read ∧
    ada.order compare terms bo = .eq ∧ ada.order compare read bo = .gt ∧
    cy.order compare terms ada = .lt ∧ cy.order compare read ada = .lt ∧
    ([ada, bo, cy].map Entry.memberId).Nodup ∧
    ∀ sorted, Entry.IsSortOf compare read sorted [ada, bo, cy] ↔ sorted = [cy, bo, ada] := by
  intro terms ada bo cy read
  rcases ordering_deterministic compare terms with ⟨htext, hread, hapart, -, -, -, hkeep, hsort⟩
  -- the tie is broken by the id
  have htie : ada.order compare read bo = .gt :=
    (hapart ada bo (by decide)).resolve_left (by decide)
  have hfirst : cy.order compare terms ada = .lt := by decide
  have hkept : cy.order compare read ada = .lt := (hkeep cy ada (by decide)).trans hfirst
  have hids : ([ada, bo, cy].map Entry.memberId).Nodup := by decide
  rcases hsort [ada, bo, cy] hids with ⟨sequence, hsequence⟩
  have hunique := hsequence [ada, bo, cy] (.refl _)
  have hsorted : Entry.IsSortOf compare read [cy, bo, ada] [ada, bo, cy] := ⟨by decide, by decide⟩
  refine ⟨htext.trans (by decide), hread, by decide, htie, hfirst, hkept, hids, ?_⟩
  intro sorted
  rw [(hunique [cy, bo, ada]).mp hsorted]
  exact hunique sorted

end Sql

end Roster
