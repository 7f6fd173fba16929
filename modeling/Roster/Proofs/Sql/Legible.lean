import Roster.Proofs.Sql.Clause

/-! # Texts that are read part by part

The text of a statement is put together from parts.  Where each border between two parts lies at a break, no lexeme runs
across it, and the lexemes of the text are those of its parts in turn.

* `isLegible`: the parts are whole lexemes, and their borders lie at breaks.
* `lexemes?_of_isLegible`: the lexemes of a legible text.
* `isLegible_clauseFrom`, `isLegible_ordering`: conditions and orderings are legible, whatever is searched for.
-/

namespace Roster.Sql

/-! ## Parts -/

namespace Piece

/-- The lexemes of a part on its own. -/
def lexemes : Piece → List Lexeme
  | .text words => (lexemes? words).getD []
  | .quoted name => [.name name]
  | .column field => columnLexemes field
  | .slot number => [.slot number.toInt.toNat]

/-- Whether the part consists of whole lexemes. -/
def isWhole : Piece → Bool
  | .text words => (lexemes? words).isSome
  | .slot number => 0 ≤ number.toInt
  | .quoted _ | .column _ => true

/-- Whether the part begins with a break. -/
def startsAtBreak : Piece → Bool
  | .text words => words.toList.head?.any isBreak
  | .quoted _ | .column _ | .slot _ => false

/-- Whether the part ends in a break, with whole lexemes before it. -/
def endsAtBreak : Piece → Bool
  | .text words => words.toList.getLast?.any isBreak && (lexFrom none words.toList.dropLast).isSome
  | .quoted _ | .column _ | .slot _ => false

end Piece

/-- A break is a lexeme or nothing at all, whatever follows. -/
theorem exists_isolated_break {c : Char} (hc : isBreak c = true) : ∃ ls, Isolated [c] ls := by
  -- a break is a blank, which begins nothing, or a symbol that is read at once
  unfold isBreak at hc
  split at hc
  · next hstart =>
    refine ⟨[], fun rest => ?_⟩
    rw [List.singleton_append, lexFrom, hstart]
    simp
  · next d hstart =>
    refine ⟨[.symbol (String.ofList [d])], fun rest => ?_⟩
    rw [List.singleton_append, lexFrom, hstart]
    cases rest <;> rfl
  · cases hc

theorem Isolated.lexFrom_eq {cs : List Char} {ls : List Lexeme} (h : Isolated cs ls) : lexFrom none cs = some ls := by
  have hend := h []
  rw [List.append_nil] at hend
  rw [hend]
  simp [lexFrom]

namespace Piece

/-- A whole part spells its lexemes. -/
theorem spells {piece : Piece} (h : piece.isWhole = true) : Spells piece.render.toList piece.lexemes := by
  cases piece with
  -- lexemes of fixed texts are found by reading them
  | text words =>
    obtain ⟨ls, hls⟩ := Option.isSome_iff_exists.mp h
    rw [lexemes, hls]
    intro rest hrest
    exact lexFrom_append hls hrest
  | quoted name => exact spells_quote name
  | column field => exact spells_reference field
  | slot number =>
    rw [render_slot (of_decide_eq_true h)]
    exact spells_slot number.toInt.toNat

/-- A part that ends in a break spells its lexemes whatever follows. -/
theorem isolated {piece : Piece} (h : piece.endsAtBreak = true) : Isolated piece.render.toList piece.lexemes := by
  cases piece with
  | quoted name | column field | slot number => cases h
  | text words =>
    rw [endsAtBreak, Bool.and_eq_true, Option.any_eq_true] at h
    obtain ⟨⟨c, hlast, hc⟩, hfront⟩ := h
    obtain ⟨ls, hls⟩ := Option.isSome_iff_exists.mp hfront
    obtain ⟨ms, hms⟩ := exists_isolated_break hc
    obtain ⟨front, hwords⟩ := List.getLast?_eq_some_iff.mp hlast
    rw [hwords, List.dropLast_concat] at hls
    have hisolated : Isolated words.toList (ls ++ ms) := by
      -- the lexemes before the break end at it, and the break itself does not run on
      intro rest
      have hbreak : AtBreak ([c] ++ rest) := atBreak_cons hc rest
      rw [hwords, List.append_assoc, lexFrom_append hls hbreak, hms rest, Option.map_map]
      simp [Function.comp_def]
    have hlexemes : (text words).lexemes = ls ++ ms := by
      rw [lexemes, lexemes?, hisolated.lexFrom_eq, Option.getD_some]
    rw [hlexemes]
    exact hisolated

theorem atBreak {piece : Piece} (h : piece.startsAtBreak = true) (rest : List Char) :
    AtBreak (piece.render.toList ++ rest) := by
  cases piece with
  | quoted name | column field | slot number => cases h
  | text words =>
    obtain ⟨c, hfirst, hc⟩ := (Option.any_eq_true ..).mp h
    obtain ⟨cs, hwords⟩ := List.head?_eq_some_iff.mp hfirst
    rw [render, hwords, List.cons_append]
    exact atBreak_cons hc _

end Piece

/-! ## Legible texts -/

/-- Whether all parts are whole and there is a break at each border between two of them. -/
def isLegible : Sql → Bool
  | [] => true
  | [a] => a.isWhole
  | a :: b :: sql => a.isWhole && (a.endsAtBreak || b.startsAtBreak) && isLegible (b :: sql)

/-- A legible text spells the lexemes of its parts in turn. -/
theorem spells_of_isLegible {sql : Sql} (h : isLegible sql = true) :
    Spells (render sql).toList (sql.flatMap Piece.lexemes) := by
  fun_induction isLegible sql with
  | case1 =>
    intro rest _
    simp
  | case2 a => simpa [toList_render_cons] using Piece.spells h
  | case3 a b sql ih =>
    rw [Bool.and_eq_true, Bool.and_eq_true, Bool.or_eq_true] at h
    obtain ⟨⟨ha, hborder⟩, hrest⟩ := h
    rw [toList_render_cons, List.flatMap_cons]
    -- either border cuts the two parts: the end of the first one, or the beginning of the second one
    rcases hborder with hend | hstart
    · exact (Piece.isolated hend).append_spells (ih hrest)
    · refine (Piece.spells ha).append (ih hrest) ?_
      intro rest
      rw [toList_render_cons, List.append_assoc]
      exact Piece.atBreak hstart _

/-- The lexemes of a legible text are those of its parts in turn. -/
theorem lexemes?_of_isLegible {sql : Sql} (h : isLegible sql = true) :
    lexemes? (render sql) = some (sql.flatMap Piece.lexemes) :=
  (spells_of_isLegible h).lexemes?

/-- Where one text ends in a break or the other one begins with one, both can stand in one. -/
theorem isLegible_append {s t : Sql} (hs : isLegible s = true) (ht : isLegible t = true)
    (hborder : (∀ a ∈ s.getLast?, a.endsAtBreak = true) ∨ ∀ b ∈ t.head?, b.startsAtBreak = true) :
    isLegible (s ++ t) = true := by
  fun_induction isLegible s with
  | case1 => exact ht
  -- a part alone is followed by the second text, which is where the border matters
  | case2 a =>
    cases t with
    | nil => exact hs
    | cons b t =>
      simp only [List.getLast?_singleton, List.head?_cons, Option.mem_def, Option.some.injEq, forall_eq'] at hborder
      rw [List.singleton_append, isLegible, hs, ht, Bool.true_and, Bool.and_true, Bool.or_eq_true]
      exact hborder
  -- the border is that of the rest
  | case3 a b s ih =>
    rw [Bool.and_eq_true] at hs
    rw [List.getLast?_cons_cons] at hborder
    rw [List.cons_append, List.cons_append, isLegible, hs.1, Bool.true_and]
    exact ih hs.2 hborder

/-- A part that ends in a break can stand before a text. -/
theorem isLegible_cons {a : Piece} {sql : Sql} (hwhole : a.isWhole = true) (hend : a.endsAtBreak = true)
    (h : isLegible sql = true) : isLegible (a :: sql) = true := by
  refine isLegible_append (s := [a]) hwhole h (Or.inl ?_)
  intro b hb
  obtain rfl := Option.some.inj hb
  exact hend

/-- A part with a break at both ends can stand between two texts. -/
theorem isLegible_between {a : Piece} {s t : Sql} (hwhole : a.isWhole = true) (hstart : a.startsAtBreak = true)
    (hend : a.endsAtBreak = true) (hs : isLegible s = true) (ht : isLegible t = true) :
    isLegible (s ++ a :: t) = true := by
  refine isLegible_append hs (isLegible_cons hwhole hend ht) (Or.inr ?_)
  intro b hb
  obtain rfl := Option.some.inj hb
  exact hstart

/-- A separator with a break at both ends can stand between any number of texts. -/
theorem isLegible_joinWith {separator : String} (hwhole : (Piece.text separator).isWhole = true)
    (hstart : (Piece.text separator).startsAtBreak = true) (hend : (Piece.text separator).endsAtBreak = true)
    {sqls : List Sql} (h : ∀ sql ∈ sqls, isLegible sql = true) : isLegible (joinWith separator sqls) = true := by
  fun_induction joinWith separator sqls with
  | case1 => rfl
  | case2 sql => exact h sql (List.mem_singleton_self sql)
  | case3 sql sqls hne ih =>
    rw [List.forall_mem_cons] at h
    exact isLegible_between hwhole hstart hend h.1 (ih h.2)

/-- The parts of a separated list are the separator and the parts of what is separated. -/
theorem forall_mem_joinWith {separator : String} {sqls : List Sql} {motive : Piece → Prop}
    (hseparator : motive (.text separator)) (h : ∀ sql ∈ sqls, ∀ piece ∈ sql, motive piece) :
    ∀ piece ∈ joinWith separator sqls, motive piece := by
  fun_induction joinWith separator sqls with
  | case1 =>
    intro piece hpiece
    cases hpiece
  | case2 sql => exact h sql (List.mem_singleton_self sql)
  | case3 sql sqls hne ih =>
    rw [List.forall_mem_cons] at h
    rw [List.forall_mem_append, List.forall_mem_cons]
    exact ⟨h.1, hseparator, ih h.2⟩

/-! ## Conditions -/

def conditionTexts : List String :=
  ["TRUE", "FALSE", "(", ")", "NOT ", " AND ", " OR "] ++ Comparison.values.map fun op => " " ++ op.symbol ++ " "

theorem operator_mem_conditionTexts (op : Comparison) : " " ++ op.symbol ++ " " ∈ conditionTexts := by
  cases op <;> decide

section Parts

variable {motive : Piece → Prop} (htext : ∀ words ∈ conditionTexts, motive (.text words))

include htext

theorem forall_mem_enclosed {sql : Sql} (h : ∀ piece ∈ sql, motive piece) : ∀ piece ∈ enclosed sql, motive piece := by
  rw [enclosed, List.cons_append, List.forall_mem_cons, List.forall_mem_append, List.forall_mem_singleton]
  exact ⟨htext _ (by decide), h, htext _ (by decide)⟩

/-- The parts of a condition are fixed texts, the columns of its comparisons and slots. -/
theorem forall_mem_clauseFrom {p : Predicate} (hcolumn : ∀ leaf ∈ p.leaves, motive (.column leaf.field))
    (hslot : ∀ number, motive (.slot number)) (n : Int32) : ∀ piece ∈ (clauseFrom n p).sql, motive piece := by
  revert hcolumn
  refine clauseFrom_induct
    -- what holds of the parts of fixed texts and of the columns of leaves holds of all parts
    (motive := fun sql _ leaves => (∀ leaf ∈ leaves, motive (.column leaf.field)) → ∀ piece ∈ sql, motive piece)
    ?constant ?comparison ?enclosed ?not ?join p n
  case constant =>
    intro k _ _
    rw [List.forall_mem_singleton]
    cases k <;> exact htext _ (by decide)
  case comparison =>
    intro leaf n hleaf
    rw [List.forall_mem_singleton] at hleaf
    rw [List.forall_mem_cons, List.forall_mem_cons, List.forall_mem_singleton]
    exact ⟨hleaf, htext _ (operator_mem_conditionTexts leaf.op), hslot n⟩
  case enclosed =>
    intro _ _ _ h hleaves
    exact forall_mem_enclosed htext (h hleaves)
  case not =>
    intro _ _ _ h hleaves
    rw [List.forall_mem_cons]
    exact ⟨htext _ (by decide), h hleaves⟩
  case join =>
    intro k _ _ _ _ _ hs ht hleaves
    rw [List.forall_mem_append] at hleaves
    rw [List.forall_mem_append, List.forall_mem_cons]
    refine ⟨hs hleaves.1, ?_, ht hleaves.2⟩
    cases k <;> exact htext _ (by decide)

end Parts

theorem isLegible_enclosed {sql : Sql} (h : isLegible sql = true) : isLegible (enclosed sql) = true := by
  refine isLegible_cons rfl rfl (isLegible_append h rfl (Or.inr ?_))
  intro b hb
  obtain rfl := Option.some.inj hb
  rfl

/-- The condition of a predicate is legible, wherever its slots begin, as long as they fit. -/
theorem isLegible_clauseFrom {p : Predicate} {n : Int32} (hn : 0 ≤ n.toInt) (hfits : Fits n p.leaves.length) :
    isLegible (clauseFrom n p).sql = true := by
  revert hn
  refine clauseFrom_induct_of_fits (motive := fun sql n _ => 0 ≤ n → isLegible sql = true)
    ?constant ?comparison ?enclosed ?not ?join p hfits
  case constant =>
    intro k _ _
    cases k <;> rfl
  -- the slot is a number that is not negative, since it may stand in a legible text only then
  case comparison =>
    intro leaf n hn
    have hslot : isLegible [.slot n] = true := decide_eq_true hn
    cases leaf.op <;> exact isLegible_between (s := [.column leaf.field]) rfl rfl rfl rfl hslot
  case enclosed =>
    intro _ _ _ h hn
    exact isLegible_enclosed (h hn)
  case not =>
    intro _ _ _ h hn
    exact isLegible_cons rfl rfl (h hn)
  case join =>
    intro k _ _ _ _ _ hs ht hn
    -- the slots of the second part begin further on
    cases k <;> exact isLegible_between rfl rfl rfl (hs hn) (ht (by omega))

/-! ## Orderings -/

def orderingTexts : List String :=
  [", ", " ASC", " DESC", " NULLS FIRST", " NULLS LAST"]

/-- The parts of an ordering are fixed texts and columns. -/
theorem forall_mem_ordering {motive : Piece → Prop} (htext : ∀ words ∈ orderingTexts, motive (.text words))
    (hcolumn : ∀ field, motive (.column field)) (terms : List SortTerm) :
    ∀ piece ∈ ordering terms, motive piece := by
  apply forall_mem_joinWith
  · exact htext _ (by decide)
  · intro sql hsql
    -- the column comes first, then the direction, and then the placement if there is one
    obtain ⟨⟨field, direction, nulls⟩, -, rfl⟩ := List.mem_map.mp hsql
    rw [sortTerm, List.forall_mem_append, List.forall_mem_cons, List.forall_mem_singleton]
    refine ⟨⟨hcolumn field, ?_⟩, ?_⟩
    · cases direction with
      | asc => exact htext " ASC" (by decide)
      | desc => exact htext " DESC" (by decide)
    · cases nulls with
      | none =>
        intro piece hpiece
        cases hpiece
      | some placement =>
        rw [List.forall_mem_singleton]
        cases placement with
        | first => exact htext " NULLS FIRST" (by decide)
        | last => exact htext " NULLS LAST" (by decide)

/-- The ordering of sort terms is legible. -/
theorem isLegible_ordering (terms : List SortTerm) : isLegible (ordering terms) = true := by
  apply isLegible_joinWith rfl rfl rfl
  intro sql hsql
  obtain ⟨⟨field, direction, nulls⟩, -, rfl⟩ := List.mem_map.mp hsql
  simp only [sortTerm]
  cases direction <;> rcases nulls with - | (- | -) <;> rfl

end Roster.Sql
