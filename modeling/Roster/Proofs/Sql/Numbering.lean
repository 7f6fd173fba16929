import Roster.Proofs.Predicate.Fields
import Roster.Proofs.Sql.Legible

/-! # Slots and columns in the text of a condition

The text of a condition, read without a look at how it was written: its slots have the numbers from a given one on, one
for each comparison, and its columns are those of the comparisons.

* `placeholders`, `renumbered`: the numbers after the dollar signs of a text, and the text with other ones.
* `qualifiers`: the words before the dots of a text.
* `clauseFrom_numbering`: the slots of a condition, its values and its columns, from any slot on.
-/

namespace Roster.Sql

/-! ## Numbers -/

/-- The number that the characters begin with, with a minus sign if it is negative, and the characters after it. -/
def leadingNumber : List Char → Int × List Char
  | '-' :: cs => (-(Nat.ofDigitChars 10 (cs.takeWhile Char.isDigit) 0 : Int), cs.dropWhile Char.isDigit)
  | cs => (Nat.ofDigitChars 10 (cs.takeWhile Char.isDigit) 0, cs.dropWhile Char.isDigit)

/-- The characters do not begin with a digit. -/
def NoDigit (cs : List Char) : Prop :=
  ∀ c ∈ cs.head?, c.isDigit = false

/-- A number in digits is as long as its digits go. -/
theorem digits_append (n : Nat) {rest : List Char} (hrest : NoDigit rest) :
    (Nat.toDigits 10 n ++ rest).takeWhile Char.isDigit = Nat.toDigits 10 n ∧
      (Nat.toDigits 10 n ++ rest).dropWhile Char.isDigit = rest := by
  have hdigits : ∀ c ∈ Nat.toDigits 10 n, c.isDigit = true := fun c hc => isDigit_of_mem_toDigits hc
  rw [List.takeWhile_append_of_pos hdigits, List.dropWhile_append_of_pos hdigits]
  cases rest with
  | nil => exact ⟨List.append_nil _, rfl⟩
  -- the character after the digits ends the number
  | cons c cs =>
    have hc : ¬c.isDigit = true := Bool.eq_false_iff.mp (hrest c rfl)
    rw [List.takeWhile_cons_of_neg hc, List.dropWhile_cons_of_neg hc, List.append_nil]
    exact ⟨rfl, rfl⟩

theorem toList_ofNat (n : Nat) : (toString (Int.ofNat n)).toList = Nat.toDigits 10 n :=
  Nat.toList_repr

/-- A number in digits has no sign. -/
theorem leadingNumber_digits (n : Nat) {rest : List Char} (hrest : NoDigit rest) :
    leadingNumber (Nat.toDigits 10 n ++ rest) = (Int.ofNat n, rest) := by
  have hdigits := digits_append n hrest
  cases hds : Nat.toDigits 10 n with
  | nil => exact absurd hds Nat.toDigits_ne_nil
  | cons d ds =>
    -- the first digit is no sign
    have hd : d ∈ Nat.toDigits 10 n := hds ▸ List.mem_cons_self ..
    have hsign : d ≠ '-' := by
      rintro rfl
      exact absurd (isDigit_of_mem_toDigits hd) (by decide)
    rw [List.cons_append, leadingNumber, ← List.cons_append, ← hds, hdigits.1, hdigits.2, Nat.ofDigitChars_ten_toDigits]
    · rfl
    · exact fun _ heq => hsign (List.cons.inj heq).1

/-- A number that is written before anything but a digit is read back. -/
theorem leadingNumber_append (n : Int) {rest : List Char} (hrest : NoDigit rest) :
    leadingNumber ((toString n).toList ++ rest) = (n, rest) := by
  cases n with
  | ofNat n =>
    rw [toList_ofNat]
    exact leadingNumber_digits n hrest
  | negSucc n =>
    have hdigits := digits_append n.succ hrest
    rw [toList_negSucc, List.cons_append, leadingNumber, hdigits.1, hdigits.2, Nat.ofDigitChars_ten_toDigits]
    rfl

theorem notMem_number (n : Int) : '$' ∉ (toString n).toList := by
  -- a number in decimal notation has digits and a sign
  have hdigits : ∀ m, '$' ∉ Nat.toDigits 10 m := fun m h => absurd (isDigit_of_mem_toDigits h) (by decide)
  cases n with
  | ofNat n =>
    rw [toList_ofNat]
    exact hdigits n
  | negSucc n =>
    rw [toList_negSucc, List.mem_cons, not_or]
    exact ⟨by decide, hdigits n.succ⟩

/-! ## Texts cut at their slots -/

/-- The characters of a text before its first slot, and the number of each slot with the characters after it. -/
structure Cut where
  front : List Char
  slots : List (Int × List Char)

namespace Cut

def text (cut : Cut) : List Char :=
  cut.front ++ cut.slots.flatMap fun slot => '$' :: ((toString slot.1).toList ++ slot.2)

def numbers (cut : Cut) : List Int :=
  cut.slots.map Prod.fst

/-- The same text with other numbers. -/
def shift (d : Int) (cut : Cut) : Cut :=
  ⟨cut.front, cut.slots.map fun slot => (slot.1 + d, slot.2)⟩

end Cut

/-- Cuts a text at its dollar signs. -/
def cut (cs : List Char) : Cut :=
  match cs.splitOn '$' with
  | [] => ⟨[], []⟩
  | front :: parts => ⟨front, parts.map leadingNumber⟩

/-- The numbers of the placeholders in a text, from left to right. -/
def placeholders (text : String) : List Int :=
  (cut text.toList).numbers

/-- The text with the number of every placeholder greater by `d`. -/
def renumbered (d : Int) (text : String) : String :=
  String.ofList ((cut text.toList).shift d).text

namespace Cut

/-- The characters between slots have no dollar signs, and no number goes on after its slot. -/
structure IsClean (cut : Cut) : Prop where
  front : '$' ∉ cut.front
  after : ∀ slot ∈ cut.slots, '$' ∉ slot.2 ∧ NoDigit slot.2

theorem splitOn_text {front : List Char} {slots : List (Int × List Char)} (h : IsClean ⟨front, slots⟩) :
    (Cut.mk front slots).text.splitOn '$' = front :: slots.map fun slot => (toString slot.1).toList ++ slot.2 := by
  induction slots generalizing front with
  | nil =>
    rw [text, List.flatMap_nil, List.append_nil]
    exact List.splitOn_eq_singleton h.front
  -- the text up to the next dollar sign is read first, and the rest is a cut of its own
  | cons slot slots ih =>
    have hslots := List.forall_mem_cons.mp h.after
    have hnext : IsClean ⟨(toString slot.1).toList ++ slot.2, slots⟩ := by
      refine ⟨?_, hslots.2⟩
      rw [List.mem_append, not_or]
      exact ⟨notMem_number slot.1, hslots.1.1⟩
    have hsplit := ih hnext
    rw [text, List.append_assoc] at hsplit
    rw [text, List.flatMap_cons, List.cons_append, List.append_assoc, List.splitOn_append_cons_self, hsplit,
      List.splitOn_eq_singleton h.front]
    rfl

end Cut

/-- A clean text is cut where it was put together. -/
theorem cut_text {c : Cut} (h : c.IsClean) : cut c.text = c := by
  obtain ⟨front, slots⟩ := c
  -- each stretch after a dollar sign begins with the number of its slot
  have hslots : (slots.map fun slot => (toString slot.1).toList ++ slot.2).map leadingNumber = slots := by
    have hread : ∀ slot ∈ slots, leadingNumber ((toString slot.1).toList ++ slot.2) = slot :=
      fun slot hslot => leadingNumber_append slot.1 (h.after slot hslot).2
    rw [List.map_map]
    exact (List.map_congr_left hread).trans (List.map_id slots)
  rw [cut, Cut.splitOn_text h]
  exact congrArg (Cut.mk front) hslots

/-! ## Cutting what parts make up -/

def Piece.slot? : Piece → Option Int32
  | .slot n => some n
  | .text _ | .quoted _ | .column _ => none

/-- Whether a part, if it is no slot, begins with something else than a digit and has no dollar signs. -/
def Piece.isFiller : Piece → Bool
  | .slot _ => true
  | piece => !piece.render.toList.contains '$' && piece.render.toList.head?.any fun c => !c.isDigit

/-- The text of parts, cut at the slots among them. -/
def cutOf : Sql → Cut
  | [] => ⟨[], []⟩
  | .slot n :: sql => ⟨[], (n.toInt, (cutOf sql).front) :: (cutOf sql).slots⟩
  | piece :: sql => ⟨piece.render.toList ++ (cutOf sql).front, (cutOf sql).slots⟩

theorem text_cutOf (sql : Sql) : (cutOf sql).text = (render sql).toList := by
  fun_induction cutOf sql with
  | case1 => rfl
  | case2 n sql ih =>
    have hnumber : toString n = toString n.toInt := rfl
    rw [toList_render_cons, ← ih, Piece.render, hnumber]
    simp [Cut.text]
  -- what is no slot is text between slots
  | case3 piece sql hslot ih =>
    rw [toList_render_cons, ← ih]
    simp [Cut.text]

theorem numbers_cutOf (sql : Sql) : (cutOf sql).numbers = (sql.filterMap Piece.slot?).map Int32.toInt := by
  fun_induction cutOf sql with
  | case1 => rfl
  | case2 n sql ih => exact congrArg (n.toInt :: ·) ih
  | case3 piece sql hslot ih =>
    have hnone : piece.slot? = none := by
      cases piece with
      | slot n => exact absurd rfl (hslot n)
      | text | quoted | column => rfl
    rw [Cut.numbers, List.filterMap_cons_none hnone]
    exact ih

/-- The slots may be moved before the text is cut or after it, if none of them passes the greatest number. -/
theorem shift_cutOf {d : Int32} {distance : Int} {sql : Sql}
    (h : ∀ number ∈ sql.filterMap Piece.slot?, (number + d).toInt = number.toInt + distance) :
    (cutOf sql).shift distance = cutOf (sql.map (Piece.shift d)) := by
  fun_induction cutOf sql with
  | case1 => rfl
  | case2 n sql ih =>
    simp only [List.filterMap_cons, Piece.slot?, List.forall_mem_cons] at h
    rw [List.map_cons, Piece.shift, cutOf, ← ih h.2, h.1]
    rfl
  -- what is no slot stays as it is
  | case3 piece sql hslot ih =>
    cases piece with
    | slot n => exact absurd rfl (hslot n)
    | text | quoted | column =>
      simp only [List.filterMap_cons, Piece.slot?] at h
      rw [List.map_cons, Piece.shift, cutOf, ← ih h]
      · rfl
      · exact fun _ h => Piece.noConfusion h

theorem isClean_cutOf {sql : Sql} (h : ∀ piece ∈ sql, piece.isFiller = true) :
    (cutOf sql).IsClean ∧ NoDigit (cutOf sql).front := by
  fun_induction cutOf sql with
  | case1 => exact ⟨⟨List.not_mem_nil, List.forall_mem_nil _⟩, nofun⟩
  | case2 n sql ih =>
    obtain ⟨hclean, hdigit⟩ := ih (List.forall_mem_cons.mp h).2
    exact ⟨⟨List.not_mem_nil, List.forall_mem_cons.mpr ⟨⟨hclean.front, hdigit⟩, hclean.after⟩⟩, nofun⟩
  | case3 piece sql hslot ih =>
    rw [List.forall_mem_cons] at h
    obtain ⟨hclean, -⟩ := ih h.2
    have hpiece : '$' ∉ piece.render.toList ∧ ∃ c ∈ piece.render.toList.head?, c.isDigit = false := by
      cases piece with
      | slot n => exact absurd rfl (hslot n)
      | text | quoted | column => simpa [Piece.isFiller, Option.any_eq_true] using h.1
    -- the part goes to the front of the cut behind it, and a slot before it sees its first character
    obtain ⟨hdollar, c, hc, hdigit⟩ := hpiece
    refine ⟨⟨?_, hclean.after⟩, ?_⟩
    · rw [List.mem_append, not_or]
      exact ⟨hdollar, hclean.front⟩
    · intro c' hc'
      rw [List.head?_append, hc] at hc'
      obtain rfl := Option.some.inj hc'
      exact hdigit

theorem cut_render {sql : Sql} (h : ∀ piece ∈ sql, piece.isFiller = true) : cut (render sql).toList = cutOf sql := by
  rw [← text_cutOf]
  exact cut_text (isClean_cutOf h).1

theorem placeholders_render {sql : Sql} (h : ∀ piece ∈ sql, piece.isFiller = true) :
    placeholders (render sql) = (sql.filterMap Piece.slot?).map Int32.toInt := by
  rw [placeholders, cut_render h, numbers_cutOf]

theorem renumbered_render {d : Int32} {distance : Int} {sql : Sql} (h : ∀ piece ∈ sql, piece.isFiller = true)
    (hslots : ∀ number ∈ sql.filterMap Piece.slot?, (number + d).toInt = number.toInt + distance) :
    renumbered distance (render sql) = render (sql.map (Piece.shift d)) := by
  rw [renumbered, cut_render h, shift_cutOf hslots, text_cutOf, String.ofList_toList]

/-! ## Columns -/

/-- The words that stand before dots, from left to right. -/
def qualifiers : List Lexeme → List String
  | .word word :: .symbol "." :: ls => word :: qualifiers ls
  | _ :: ls => qualifiers ls
  | [] => []

/-- The lexemes do not begin with a dot. -/
def NoDot (ls : List Lexeme) : Prop :=
  ls.head? ≠ some (.symbol ".")

theorem noDot_cons {l : Lexeme} (hl : l ≠ .symbol ".") (ls : List Lexeme) : NoDot (l :: ls) :=
  fun h => hl (Option.some.inj h)

theorem noDot_word (word : String) (ls : List Lexeme) : NoDot (.word word :: ls) :=
  noDot_cons Lexeme.noConfusion ls

theorem noDot_append {ls ms : List Lexeme} (hls : NoDot ls) (hms : NoDot ms) : NoDot (ls ++ ms) := by
  cases ls with
  | nil => exact hms
  | cons l ls => exact hls

/-- A word and a dot belong together, so a dot must not begin what is appended. -/
theorem qualifiers_append {ls ms : List Lexeme} (hms : NoDot ms) :
    qualifiers (ls ++ ms) = qualifiers ls ++ qualifiers ms := by
  fun_induction qualifiers ls with
  | case1 word ls ih => rw [List.cons_append, List.cons_append, qualifiers, ih, List.cons_append]
  | case2 l ls hdot ih =>
    rw [List.cons_append, qualifiers, ih]
    -- a dot at the beginning of the second list would belong to a word at the end of the first one
    rintro word rest rfl hrest
    cases ls with
    | nil =>
      rw [List.nil_append] at hrest
      exact hms (hrest ▸ rfl)
    | cons l' ls =>
      obtain ⟨rfl, -⟩ := List.cons.inj hrest
      exact hdot word ls rfl rfl
  | case3 => rfl

/-- The text spells lexemes with these words before dots, and none of its dots belongs to what stands before it. -/
def Qualified (sql : Sql) (words : List String) : Prop :=
  ∃ ls, Spells (render sql).toList ls ∧ NoDot ls ∧ qualifiers ls = words

/-- A slot spells no word before a dot, also where its number is negative. -/
theorem qualified_slot (n : Int32) : Qualified [.slot n] [] := by
  have htext : (render [.slot n]).toList = ("$" ++ toString n.toInt).toList := by
    rw [toList_render_cons, toList_render_nil, List.append_nil]
    rfl
  unfold Qualified
  rw [htext]
  -- a slot with a negative number is read as three lexemes, none of which is a dot
  cases n.toInt with
  | ofNat n =>
    exact ⟨[.slot n], spells_slot n, noDot_cons Lexeme.noConfusion _, rfl⟩
  | negSucc n =>
    refine ⟨[.symbol "$"] ++ numeral (Int.negSucc n), ?_, noDot_cons (by decide) _, rfl⟩
    have hdollar : ∀ cs, lexFrom none ('$' :: '-' :: cs) = (lexFrom none ('-' :: cs)).map ([.symbol "$"] ++ ·) :=
      fun _ => rfl
    intro rest hrest
    have hnumeral := spells_numeral (Int.negSucc n) rest hrest
    rw [toList_negSucc, List.cons_append] at hnumeral
    rw [String.toList_append, toList_negSucc]
    show lexFrom none ('$' :: '-' :: (Nat.toDigits 10 n.succ ++ rest)) = _
    rw [hdollar, hnumeral, Option.map_map]
    rfl

/-- The condition of a predicate has the columns of its comparisons. -/
theorem qualified_clauseFrom (p : Predicate) (n : Int32) :
    Qualified (clauseFrom n p).sql (p.leaves.map fun leaf => leaf.field.entity.alias) := by
  refine clauseFrom_induct
    (motive := fun sql _ leaves => Qualified sql (leaves.map fun leaf => leaf.field.entity.alias))
    ?constant ?comparison ?enclosed ?not ?join p n
  case constant =>
    intro k _
    -- the constant qualifies nothing
    refine ⟨[.word (emptyGroup k)], ?_, noDot_word _ _, rfl⟩
    rw [toList_render_cons, toList_render_nil, List.append_nil]
    cases k <;> exact spells_word (by decide) (by decide)
  case comparison =>
    intro leaf n
    obtain ⟨ls, hspells, hdot, hwords⟩ := qualified_slot n
    refine ⟨columnLexemes leaf.field ++ [.symbol leaf.op.symbol] ++ ls, ?_, noDot_word _ _, ?_⟩
    · rw [toList_render_cons, toList_render_cons, ← List.append_assoc]
      exact ((spells_reference leaf.field).append_separates (separates_operator leaf.op)).append_spells hspells
    -- the only dot of a comparison is the one in its column
    · rw [qualifiers_append hdot, hwords, List.append_nil]
      rcases leaf with ⟨field, op, value⟩
      cases op <;> rfl
  case enclosed =>
    rintro sql _ leaves ⟨ls, hspells, hdot, hwords⟩
    have hopening : Lexeme.symbol "(" ≠ .symbol "." := by decide
    have hclosing : Lexeme.symbol ")" ≠ .symbol "." := by decide
    refine ⟨[.symbol "("] ++ (ls ++ [.symbol ")"]), ?_, noDot_cons hopening _, ?_⟩
    · rw [enclosed, List.cons_append, toList_render_cons, toList_render_append]
      exact isolated_opening.append_spells (hspells.append_separates separates_closing).spells
    · rw [qualifiers_append (noDot_append hdot (noDot_cons hclosing [])), qualifiers_append (noDot_cons hclosing []),
        hwords]
      exact List.append_nil _
  case not =>
    rintro sql _ leaves ⟨ls, hspells, hdot, hwords⟩
    refine ⟨[.word "NOT"] ++ ls, ?_, noDot_word _ _, ?_⟩
    · rw [toList_render_cons]
      exact isolated_not.append_spells hspells
    · rw [qualifiers_append hdot, hwords]
      rfl
  case join =>
    rintro k s t _ leaves leaves' ⟨ls, hspells, hdot, hwords⟩ ⟨ms, hspells', hdot', hwords'⟩
    refine ⟨ls ++ [.word (keyword k)] ++ ms, ?_, ?_, ?_⟩
    · rw [toList_render_append, toList_render_cons, ← List.append_assoc]
      exact (hspells.append_separates (separates_joiner k)).append_spells hspells'
    · exact noDot_append (noDot_append hdot (noDot_word _ _)) hdot'
    · rw [qualifiers_append hdot', qualifiers_append (noDot_word _ _), hwords, hwords', List.map_append]
      exact congrArg (· ++ _) (List.append_nil _)

/-! ## The condition of a predicate -/

/-- The slots of a condition have one number after the other, one for each comparison. -/
theorem slots_clauseFrom (p : Predicate) (n : Int32) :
    (clauseFrom n p).sql.filterMap Piece.slot? = (List.range p.leaves.length).map fun i => n + .ofNat i := by
  refine clauseFrom_induct
    (motive := fun sql n leaves => sql.filterMap Piece.slot? = (List.range leaves.length).map fun i => n + .ofNat i)
    ?constant ?comparison ?enclosed ?not ?join p n
  case constant => exact fun _ _ => rfl
  case comparison =>
    intro leaf n
    exact congrArg (fun number => [number]) (Int32.add_zero n).symm
  case enclosed =>
    intro sql _ leaves h
    rw [enclosed, List.cons_append, List.filterMap_cons, List.filterMap_append, h]
    exact List.append_nil _
  case not => exact fun h => h
  case join =>
    intro k s t n leaves leaves' hs ht
    -- the slots of the second part go on where those of the first part end
    rw [List.filterMap_append, List.filterMap_cons, hs]
    simp only [Piece.slot?]
    rw [ht, List.length_append, List.range_add, List.map_append, List.map_map]
    congr 1
    apply List.map_congr_left
    intro i _
    simp only [Function.comp_apply, Int32.ofNat_add, Int32.add_assoc]

theorem isFiller_clauseFrom (p : Predicate) (n : Int32) : ∀ piece ∈ (clauseFrom n p).sql, piece.isFiller = true := by
  refine forall_mem_clauseFrom ?_ ?_ (fun _ => rfl) n
  · decide
  · intro leaf _
    cases leaf.field <;> decide

theorem mem_aliases_iff (p : Predicate) :
    Entity.team.alias ∈ (p.leaves.map fun leaf => leaf.field.entity.alias) ↔ p.referencesTeam = true := by
  have halias : ∀ entity : Entity, entity.alias = Entity.team.alias ↔ entity = .team := by
    intro entity
    cases entity <;> decide
  simp only [List.mem_map, halias, Predicate.referencesTeam_iff]

/-- Where the slots fit from `n` on and from `m` on, all of them are as far apart as `n` and `m`. -/
theorem toInt_moved {p : Predicate} {n m : Int32} (hn : Fits n p.leaves.length) (hm : Fits m p.leaves.length) :
    ∀ number ∈ (clauseFrom n p).sql.filterMap Piece.slot?,
      (number + (m - n)).toInt = number.toInt + (m.toInt - n.toInt) := by
  intro number hnumber
  rw [slots_clauseFrom, List.mem_map] at hnumber
  rcases hnumber with ⟨i, hi, rfl⟩
  have hle : i ≤ p.leaves.length := Nat.le_of_lt (List.mem_range.mp hi)
  -- a slot is so many places behind the first one, and so is the moved one
  have hmoved : n + .ofNat i + (m - n) = m + .ofNat i := by
    rw [Int32.add_comm, ← Int32.add_assoc, Int32.sub_add_cancel]
  rw [hmoved, (hm.mono hle).toInt_add, (hn.mono hle).toInt_add]
  omega

/-- The condition of a predicate from slot `n` on has the values of its comparisons, from left to right.  The slots in
its text have the numbers `n`, `n + 1` and so on, one for each value, and whoever writes it with a counter that stands at
`n` has the counter at the number after these.  From another slot on the condition has the same values and the same text,
but for the numbers.  All this is so as long as the counter does not pass the greatest number.  The team is looked up in
its text if and only if the predicate looks at the team. -/
theorem clauseFrom_numbering (p : Predicate) (n : Int32) (hn : Fits n p.leaves.length) :
    let c := clauseFrom n p
    c.params = p.leaves.map (·.value) ∧
    placeholders (render c.sql) = (List.range c.params.length).map (fun (i : Nat) => n.toInt + i) ∧
    (∀ values, (Counter.mk n values).write p = (c.sql, ⟨c.next n, values ++ c.params⟩)) ∧
    (c.next n).toInt = n.toInt + c.params.length ∧
    (∀ m, Fits m p.leaves.length → (clauseFrom m p).params = c.params ∧
      render (clauseFrom m p).sql = renumbered (m.toInt - n.toInt) (render c.sql)) ∧
    ∃ ls, lexemes? (render c.sql) = some ls ∧ qualifiers ls = (p.leaves.map fun leaf => leaf.field.entity.alias) ∧
      (Entity.team.alias ∈ qualifiers ls ↔ p.referencesTeam = true) := by
  intro c
  have hparams : c.params = p.leaves.map (·.value) := params_clauseFrom p n
  -- the values, and with them the number of slots, do not depend on the first number
  have hlength : c.params.length = p.leaves.length := length_params_clauseFrom p n
  have hnext : (c.next n).toInt = n.toInt + c.params.length := by
    rw [next_clauseFrom, hn.toInt_add, hlength]
  refine ⟨hparams, ?_, ?_, hnext, ?_, ?_⟩
  · rw [placeholders_render (isFiller_clauseFrom p n), slots_clauseFrom, hlength, List.map_map]
    apply List.map_congr_left
    intro i hi
    exact (hn.mono (Nat.le_of_lt (List.mem_range.mp hi))).toInt_add
  · intro values
    rw [Counter.write_eq, Counter.past, ← next_clauseFrom, ← hparams]
  · intro m hm
    have hfrom : n + (m - n) = m := by
      rw [Int32.add_comm, Int32.sub_add_cancel]
    refine ⟨(params_clauseFrom p m).trans hparams.symm, ?_⟩
    rw [renumbered_render (isFiller_clauseFrom p n) (toInt_moved hn hm), ← sql_clauseFrom_add, hfrom]
  · obtain ⟨ls, hspells, -, hwords⟩ := qualified_clauseFrom p n
    refine ⟨ls, hspells.lexemes?, hwords, ?_⟩
    rw [hwords, mem_aliases_iff]

/-- A group in a group, from a negative number on and from the last number from which its slots fit. -/
theorem clauseFrom_numbering_negative :
    let p := Predicate.any [.compare .age .gt (.int 3), .all [.not (.compare .teamName .eq (.text "$7"))]]
    Fits (-1) p.leaves.length ∧ Fits 2147483645 p.leaves.length ∧
      render (clauseFrom (-1) p).sql = "(m.\"age\" > $-1) OR ((NOT (t.\"name\" = $0)))" ∧
      placeholders (render (clauseFrom (-1) p).sql) = [-1, 0] ∧ ((clauseFrom (-1) p).next (-1)).toInt = 1 ∧
      render (clauseFrom 2147483645 p).sql = renumbered 2147483646 (render (clauseFrom (-1) p).sql) := by
  intro p
  have hnegative : Fits (-1) p.leaves.length := by decide
  have hlast : Fits 2147483645 p.leaves.length := by decide
  obtain ⟨-, hplaceholders, -, hnext, hmoved, -⟩ := clauseFrom_numbering p (-1) hnegative
  exact ⟨hnegative, hlast, by decide +kernel, hplaceholders, hnext, (hmoved 2147483645 hlast).2⟩

end Roster.Sql
