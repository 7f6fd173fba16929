import Roster.Sql.Basic

/-! # Lexemes of statements

How the text of a statement falls into lexemes: words, names in double quotes, literals in single quotes, numbered
slots and symbols.  Each lexeme is as long as it can be.  Inside of quotation marks a mark that is written twice
stands for itself, and a mark alone ends the lexeme.

* `lexemes?`: the lexemes of a text; there are none when a quotation is left open.
* `Spells`, `Isolated`, `Separates`: what characters contribute to a longer text, before a break or before anything.
* `spells_quote`, `spells_slot`: a quoted name and a slot are one lexeme each.
* `spells_numeral`: a number is a word of digits, with a symbol before it if it is negative.
* `lexFrom_quotation`: what stands in quotation marks is one lexeme, whatever it is.
* `spells_of_lexFrom`, `isolated_of_lexFrom`: what a fixed text contributes can be computed.
-/

namespace Roster.Sql

inductive Lexeme where
  | word (s : String)
  | name (s : String)
  | literal (s : String)
  | slot (number : Nat)
  | symbol (s : String)
deriving Repr, DecidableEq

inductive Mark where
  | double
  | single
deriving Repr, DecidableEq

def Mark.char : Mark → Char
  | .double => '"'
  | .single => '\''

/-- What a quotation stands for. -/
def Mark.lexeme : Mark → String → Lexeme
  | .double => .name
  | .single => .literal

/-- Letters, digits and the underscore make words. -/
def isWordChar (c : Char) : Bool :=
  c.isAlphanum || c == '_'

/-- The characters that make symbols of any length. -/
def isOperatorChar (c : Char) : Bool :=
  ['+', '-', '*', '/', '<', '>', '=', '~', '!', '@', '#', '%', '^', '&', '|', '?'].contains c

/-- A lexeme whose characters so far have been read.  A quotation is `closed` by a mark that a second one may still
open again. -/
inductive Pending where
  | word (cs : List Char)
  | slot (number : Option Nat)
  | operator (cs : List Char)
  | punctuation (c : Char)
  | quoted (mark : Mark) (cs : List Char)
  | closed (mark : Mark) (cs : List Char)
deriving Repr, DecidableEq

/-- What a character begins; blanks begin nothing. -/
def Pending.start (c : Char) : Option Pending :=
  if isWordChar c then some (.word [c])
  else if isOperatorChar c then some (.operator [c])
  else if c = '$' then some (.slot none)
  else if c = Mark.double.char then some (.quoted .double [])
  else if c = Mark.single.char then some (.quoted .single [])
  else if c.isWhitespace then none
  else some (.punctuation c)

/-- What the lexeme becomes when the next character belongs to it. -/
def Pending.push? : Pending → Char → Option Pending
  | .word cs, c => if isWordChar c then some (.word (cs ++ [c])) else none
  | .slot number, c =>
    if c.isDigit then some (.slot (some (10 * number.getD 0 + (c.toNat - '0'.toNat)))) else none
  | .operator cs, c => if isOperatorChar c then some (.operator (cs ++ [c])) else none
  | .punctuation _, _ => none
  | .quoted mark cs, c => if c = mark.char then some (.closed mark cs) else some (.quoted mark (cs ++ [c]))
  | .closed mark cs, c => if c = mark.char then some (.quoted mark (cs ++ [c])) else none

/-- The lexeme, if it may end here. -/
def Pending.lexeme? : Pending → Option Lexeme
  | .word cs => some (.word (String.ofList cs))
  | .slot none => some (.symbol "$")
  | .slot (some number) => some (.slot number)
  | .operator cs => some (.symbol (String.ofList cs))
  | .punctuation c => some (.symbol (String.ofList [c]))
  | .quoted _ _ => none
  | .closed mark cs => some (mark.lexeme (String.ofList cs))

/-- The lexemes of characters that follow what is pending. -/
def lexFrom : Option Pending → List Char → Option (List Lexeme)
  | none, [] => some []
  | none, c :: cs => lexFrom (Pending.start c) cs
  | some p, [] => p.lexeme?.map ([·])
  | some p, c :: cs =>
    match p.push? c with
    | some q => lexFrom (some q) cs
    | none => p.lexeme?.bind fun l => (lexFrom (Pending.start c) cs).map (l :: ·)

def lexemes? (s : String) : Option (List Lexeme) :=
  lexFrom none s.toList

/-- A character that belongs to the pending lexeme is taken into it. -/
theorem lexFrom_push {p q : Pending} {c : Char} (h : p.push? c = some q) (cs : List Char) :
    lexFrom (some p) (c :: cs) = lexFrom (some q) cs := by
  rw [lexFrom, h]

/-! ## Texts -/

theorem toList_render_append (s t : Sql) : (render (s ++ t)).toList = (render s).toList ++ (render t).toList := by
  simp [render]

theorem toList_render_cons (piece : Piece) (s : Sql) :
    (render (piece :: s)).toList = piece.render.toList ++ (render s).toList := by
  simp [render]

@[simp]
theorem toList_render_nil : (render []).toList = [] := rfl

/-! ## Breaks -/

/-- A character that ends every lexeme before it, quotations apart: a blank or a symbol that stands for itself. -/
def isBreak (c : Char) : Bool :=
  match Pending.start c with
  | none | some (.punctuation _) => true
  | some _ => false

/-- What follows begins with a break, or nothing follows. -/
def AtBreak (cs : List Char) : Prop :=
  ∀ c ∈ cs.head?, isBreak c = true

theorem atBreak_cons {c : Char} (hc : isBreak c = true) (cs : List Char) : AtBreak (c :: cs) := by
  intro d hd
  obtain rfl := Option.some.inj hd
  exact hc

theorem not_isWordChar_of_isBreak {c : Char} (h : isBreak c = true) : isWordChar c = false := by
  cases hw : isWordChar c with
  | false => rfl
  | true => simp [isBreak, Pending.start, hw] at h

theorem not_isOperatorChar_of_isBreak {c : Char} (h : isBreak c = true) : isOperatorChar c = false := by
  cases ho : isOperatorChar c with
  | false => rfl
  | true => simp [isBreak, Pending.start, ho, not_isWordChar_of_isBreak h] at h

theorem not_isOperatorChar_of_isDigit {c : Char} (h : c.isDigit = true) : isOperatorChar c = false := by
  rw [Bool.eq_false_iff]
  intro ho
  -- the digits are not among the characters of operators
  have hall : (['+', '-', '*', '/', '<', '>', '=', '~', '!', '@', '#', '%', '^', '&', '|', '?'].all
      fun d => !d.isDigit) = true := rfl
  have hdigit := List.all_eq_true.mp hall c (List.contains_iff_mem.mp ho)
  rw [h] at hdigit
  cases hdigit

/-- A break does not belong to a lexeme that may end before it. -/
theorem push?_of_isBreak {p : Pending} {l : Lexeme} (hp : p.lexeme? = some l) {c : Char} (hc : isBreak c = true) :
    p.push? c = none := by
  cases p with
  | word cs => simp [Pending.push?, not_isWordChar_of_isBreak hc]
  | slot number =>
    -- a digit would be a word character
    have hdigit : c.isDigit = false := by
      have hword := not_isWordChar_of_isBreak hc
      simp only [isWordChar, Char.isAlphanum, Bool.or_eq_false_iff] at hword
      exact hword.1.2
    simp [Pending.push?, hdigit]
  | operator cs => simp [Pending.push?, not_isOperatorChar_of_isBreak hc]
  | punctuation d => rfl
  | quoted mark cs => cases hp
  | closed mark cs =>
    -- a second mark would open the quotation again, but a mark is no break
    have hne : c ≠ mark.char := by
      rintro rfl
      cases mark <;> exact absurd hc (by decide)
    simp [Pending.push?, hne]

/-- At a break a lexeme that may end does end. -/
theorem lexFrom_of_atBreak {p : Pending} {l : Lexeme} (hp : p.lexeme? = some l) {rest : List Char}
    (hrest : AtBreak rest) : lexFrom (some p) rest = (lexFrom none rest).map (l :: ·) := by
  cases rest with
  | nil => simp [lexFrom, hp]
  | cons c cs =>
    have hc : isBreak c = true := hrest c rfl
    simp [lexFrom, push?_of_isBreak hp hc, hp]

/-! ## What characters contribute -/

/-- The characters spell the lexemes wherever a break follows. -/
def Spells (cs : List Char) (ls : List Lexeme) : Prop :=
  ∀ rest, AtBreak rest → lexFrom none (cs ++ rest) = (lexFrom none rest).map (ls ++ ·)

/-- The characters spell the lexemes whatever follows. -/
def Isolated (cs : List Char) (ls : List Lexeme) : Prop :=
  ∀ rest, lexFrom none (cs ++ rest) = (lexFrom none rest).map (ls ++ ·)

/-- The characters spell the lexemes whatever follows, and they cut off what stands before them. -/
structure Separates (cs : List Char) (ls : List Lexeme) : Prop where
  isolated : Isolated cs ls
  atBreak : ∀ rest, AtBreak (cs ++ rest)

theorem Isolated.spells {cs : List Char} {ls : List Lexeme} (h : Isolated cs ls) : Spells cs ls :=
  fun rest _ => h rest

theorem Isolated.append_spells {as bs : List Char} {ls ms : List Lexeme} (ha : Isolated as ls) (hb : Spells bs ms) :
    Spells (as ++ bs) (ls ++ ms) := by
  intro rest hrest
  rw [List.append_assoc, ha, hb rest hrest, Option.map_map]
  simp [Function.comp_def]

theorem Spells.append_separates {as bs : List Char} {ls ms : List Lexeme} (ha : Spells as ls) (hb : Separates bs ms) :
    Isolated (as ++ bs) (ls ++ ms) := by
  intro rest
  rw [List.append_assoc, ha (bs ++ rest) (hb.atBreak rest), hb.isolated, Option.map_map]
  simp [Function.comp_def]

/-- A lexeme that ends at a break may be followed by anything that begins with one. -/
theorem Spells.append {as bs : List Char} {ls ms : List Lexeme} (ha : Spells as ls) (hb : Spells bs ms)
    (hbreak : ∀ rest, AtBreak (bs ++ rest)) : Spells (as ++ bs) (ls ++ ms) := by
  intro rest hrest
  rw [List.append_assoc, ha (bs ++ rest) (hbreak rest), hb rest hrest, Option.map_map]
  simp [Function.comp_def]

/-- A whole text that spells lexemes has these lexemes. -/
theorem Spells.lexemes? {s : String} {ls : List Lexeme} (h : Spells s.toList ls) : lexemes? s = some ls := by
  have hend : AtBreak [] := by
    intro c hc
    cases hc
  have hwhole := h [] hend
  simpa [lexFrom, Sql.lexemes?] using hwhole

/-! ## Fixed texts -/

/-- Before a break, characters fall into the same lexemes as on their own. -/
theorem lexFrom_append {p : Option Pending} {cs : List Char} {ls : List Lexeme} (h : lexFrom p cs = some ls)
    {rest : List Char} (hrest : AtBreak rest) : lexFrom p (cs ++ rest) = (lexFrom none rest).map (ls ++ ·) := by
  induction cs generalizing p ls with
  | nil =>
    -- at the end of the characters what is pending ends as well
    cases p with
    | none =>
      obtain rfl : [] = ls := Option.some.inj h
      simp
    | some p =>
      obtain ⟨l, hl, rfl⟩ := Option.map_eq_some_iff.mp h
      exact lexFrom_of_atBreak hl hrest
  -- the next character belongs to what is pending, or it ends it and begins something else
  | cons c cs ih =>
    rw [List.cons_append]
    cases p with
    | none => exact ih h
    | some p =>
      rw [lexFrom] at h ⊢
      cases hpush : p.push? c with
      | some q =>
        rw [hpush] at h
        exact ih h
      | none =>
        rw [hpush] at h
        obtain ⟨l, hl, htail⟩ := Option.bind_eq_some_iff.mp h
        obtain ⟨ms, hms, rfl⟩ := Option.map_eq_some_iff.mp htail
        simp only [hl, Option.bind_some, ih hms, Option.map_map]
        rfl

/-- A text spells its own lexemes. -/
theorem spells_of_lexFrom {cs : List Char} {ls : List Lexeme} (h : lexFrom none cs = some ls) :
    Spells (String.ofList cs).toList ls := by
  intro rest hrest
  rw [String.toList_ofList]
  exact lexFrom_append h hrest

/-- A text with a blank at its end spells its own lexemes whatever follows. -/
theorem isolated_of_lexFrom {cs : List Char} {ls : List Lexeme} (hblank : cs.getLast? = some ' ')
    (h : lexFrom none cs.dropLast = some ls) : Isolated (String.ofList cs).toList ls := by
  intro rest
  -- the blank is no part of a lexeme, and the lexemes before it end at it
  obtain ⟨ds, rfl⟩ := List.getLast?_eq_some_iff.mp hblank
  rw [List.dropLast_concat] at h
  rw [String.toList_ofList, List.append_assoc, List.singleton_append, lexFrom_append h (atBreak_cons (by decide) rest)]
  rfl

/-- A text that begins with a break begins with it whatever follows. -/
theorem atBreak_text {c : Char} (hc : isBreak c = true) (cs rest : List Char) :
    AtBreak ((String.ofList (c :: cs)).toList ++ rest) := by
  rw [String.toList_ofList, List.cons_append]
  exact atBreak_cons hc _

/-! ## Words, slots and quoted names -/

theorem lexFrom_word (acc ws rest : List Char) (h : ws.all isWordChar = true) :
    lexFrom (some (.word acc)) (ws ++ rest) = lexFrom (some (.word (acc ++ ws))) rest := by
  induction ws generalizing acc with
  | nil => rw [List.append_nil, List.nil_append]
  | cons c ws ih =>
    rw [List.all_cons, Bool.and_eq_true] at h
    have hpush : (Pending.word acc).push? c = some (.word (acc ++ [c])) := by
      rw [Pending.push?, if_pos h.1]
    rw [List.cons_append, lexFrom_push hpush, ih _ h.2, List.append_assoc]
    rfl

/-- Word characters spell one word. -/
theorem spells_word {s : String} (h : s.toList.all isWordChar = true) (hne : s ≠ "") : Spells s.toList [.word s] := by
  intro rest hrest
  -- a word has a first character at least
  cases hs : s.toList with
  | nil => exact absurd (String.toList_eq_nil_iff.mp hs) hne
  | cons c cs =>
    rw [hs, List.all_cons, Bool.and_eq_true] at h
    rw [List.cons_append, lexFrom, Pending.start, if_pos h.1, lexFrom_word _ _ _ h.2]
    refine lexFrom_of_atBreak ?_ hrest
    rw [Pending.lexeme?, List.singleton_append, ← hs, String.ofList_toList]

/-- A digit after the dollar sign, or after other digits. -/
theorem push?_slot (number : Option Nat) {d : Char} (h : d.isDigit = true) :
    (Pending.slot number).push? d = some (.slot (some (10 * number.getD 0 + (d.toNat - '0'.toNat)))) := by
  rw [Pending.push?, if_pos h]

theorem lexFrom_slot (number : Nat) (ds rest : List Char) (h : ∀ d ∈ ds, d.isDigit = true) :
    lexFrom (some (.slot (some number))) (ds ++ rest) =
      lexFrom (some (.slot (some (Nat.ofDigitChars 10 ds number)))) rest := by
  induction ds generalizing number with
  | nil => rw [Nat.ofDigitChars_nil, List.nil_append]
  | cons d ds ih =>
    rw [List.cons_append, lexFrom_push (push?_slot _ (h d (List.mem_cons_self ..))), Nat.ofDigitChars_cons]
    exact ih _ fun e he => h e (List.mem_cons_of_mem _ he)

theorem isDigit_of_mem_toDigits {n : Nat} {c : Char} (h : c ∈ Nat.toDigits 10 n) : c.isDigit = true :=
  Nat.isDigit_of_mem_toDigits (by decide) (by decide) h

/-- A dollar sign and a number spell one slot. -/
theorem spells_slot (n : Nat) : Spells ("$" ++ n.repr).toList [.slot n] := by
  intro rest hrest
  have hdigits : ∀ d ∈ Nat.toDigits 10 n, d.isDigit = true := fun _ hd => isDigit_of_mem_toDigits hd
  have htext : ("$" ++ n.repr).toList = '$' :: Nat.toDigits 10 n := by
    rw [String.toList_append, Nat.toList_repr]
    rfl
  -- the first digit makes the slot one with a number, and the others are pushed to that number
  have hslot : lexFrom (some (.slot none)) (Nat.toDigits 10 n ++ rest) = lexFrom (some (.slot (some n))) rest := by
    cases hds : Nat.toDigits 10 n with
    | nil => exact absurd hds Nat.toDigits_ne_nil
    | cons d ds =>
      rw [hds] at hdigits
      have hn := @Nat.ofDigitChars_ten_toDigits n
      rw [hds, Nat.ofDigitChars_cons] at hn
      rw [List.cons_append, lexFrom_push (push?_slot none (hdigits d (List.mem_cons_self ..))),
        lexFrom_slot _ ds rest fun e he => hdigits e (List.mem_cons_of_mem _ he)]
      exact congrArg (fun m => lexFrom (some (.slot (some m))) rest) hn
  rw [htext, List.cons_append, lexFrom]
  show lexFrom (some (.slot none)) _ = _
  rw [hslot]
  exact lexFrom_of_atBreak rfl hrest

/-- The lexemes of a number: its digits are a word, and a minus sign before them is a symbol. -/
def numeral : Int → List Lexeme
  | .ofNat n => [.word n.repr]
  | .negSucc n => [.symbol "-", .word n.succ.repr]

/-- The characters of a negative number. -/
theorem toList_negSucc (n : Nat) : (toString (Int.negSucc n)).toList = '-' :: Nat.toDigits 10 n.succ := by
  show ("-" ++ n.succ.repr).toList = _
  rw [String.toList_append, Nat.toList_repr]
  rfl

theorem spells_digits (n : Nat) : Spells n.repr.toList [.word n.repr] := by
  apply spells_word
  · rw [List.all_eq_true]
    intro c hc
    rw [Nat.toList_repr] at hc
    simp only [isWordChar, Char.isAlphanum, isDigit_of_mem_toDigits hc, Bool.or_true, Bool.true_or]
  · intro hempty
    rw [← String.toList_eq_nil_iff, Nat.toList_repr] at hempty
    exact Nat.toDigits_ne_nil hempty

/-- A number is a word of digits, with a symbol before it if it is negative. -/
theorem spells_numeral (n : Int) : Spells (toString n).toList (numeral n) := by
  cases n with
  | ofNat n => exact spells_digits n
  | negSucc n =>
    -- the minus sign is a symbol of its own
    intro rest hrest
    have hdigits := spells_digits n.succ rest hrest
    rw [Nat.toList_repr] at hdigits
    rw [toList_negSucc, List.cons_append]
    cases hds : Nat.toDigits 10 n.succ with
    | nil => exact absurd hds Nat.toDigits_ne_nil
    | cons d ds =>
      -- the sign ends at the first digit, because a digit belongs to no operator
      have hd : isOperatorChar d = false :=
        not_isOperatorChar_of_isDigit (isDigit_of_mem_toDigits (hds ▸ List.mem_cons_self ..))
      have hpush : (Pending.operator ['-']).push? d = none := by
        rw [Pending.push?, hd, if_neg Bool.false_ne_true]
      have hstart : Pending.start '-' = some (.operator ['-']) := by
        decide
      rw [hds, List.cons_append, lexFrom] at hdigits
      rw [lexFrom, hstart, List.cons_append, lexFrom, hpush]
      simp only [Pending.lexeme?, Option.bind_some]
      rw [hdigits, Option.map_map]
      rfl

/-- A quotation holds its characters, with each mark of its kind written twice, up to the mark that ends it. -/
theorem lexFrom_quoted (mark : Mark) (acc cs rest : List Char) :
    lexFrom (some (.quoted mark acc))
        ((cs.flatMap fun c => if c = mark.char then [mark.char, mark.char] else [c]) ++ mark.char :: rest) =
      lexFrom (some (.closed mark (acc ++ cs))) rest := by
  -- a mark inside a quotation closes it for the time being
  have hclose : ∀ bs, (Pending.quoted mark bs).push? mark.char = some (.closed mark bs) := by
    intro bs
    rw [Pending.push?, if_pos rfl]
  induction cs generalizing acc with
  | nil => rw [List.append_nil, List.flatMap_nil, List.nil_append, lexFrom_push (hclose acc)]
  | cons c cs ih =>
    have hstep := ih (acc ++ [c])
    rw [List.append_assoc, List.singleton_append] at hstep
    rw [List.flatMap_cons, List.append_assoc, ← hstep]
    by_cases hc : c = mark.char
    · -- the first of the two marks closes the quotation, and the second opens it again
      have hopen : (Pending.closed mark acc).push? mark.char = some (.quoted mark (acc ++ [c])) := by
        rw [Pending.push?, if_pos rfl, hc]
      rw [if_pos hc, List.cons_append, lexFrom_push (hclose acc), List.cons_append, lexFrom_push hopen,
        List.nil_append]
    · have hpush : (Pending.quoted mark acc).push? c = some (.quoted mark (acc ++ [c])) := by
        rw [Pending.push?, if_neg hc]
      rw [if_neg hc, List.singleton_append, lexFrom_push hpush]

/-- A quotation ends at a mark that no second one follows. -/
theorem lexFrom_closed {mark : Mark} (cs : List Char) {rest : List Char} (hrest : rest.head? ≠ some mark.char) :
    lexFrom (some (.closed mark cs)) rest = (lexFrom none rest).map (mark.lexeme (String.ofList cs) :: ·) := by
  cases rest with
  | nil => rfl
  | cons c rest =>
    -- what follows begins with no second mark, so the quotation stays closed
    have hc : c ≠ mark.char := by simpa using hrest
    have hpush : (Pending.closed mark cs).push? c = none := by
      rw [Pending.push?, if_neg hc]
    simp only [lexFrom, hpush, Pending.lexeme?, Option.bind_some]

/-- A text in quotation marks, with the marks inside of it written twice, is one lexeme before anything but a further
mark. -/
theorem lexFrom_quotation (mark : Mark) (s : String) {rest : List Char} (hrest : rest.head? ≠ some mark.char) :
    lexFrom none (mark.char :: (s.toList.flatMap fun c => if c = mark.char then [mark.char, mark.char] else [c]) ++
        mark.char :: rest) = (lexFrom none rest).map (mark.lexeme s :: ·) := by
  have hstart : Pending.start mark.char = some (.quoted mark []) := by
    cases mark <;> rfl
  rw [List.cons_append, lexFrom, hstart, lexFrom_quoted, List.nil_append, lexFrom_closed _ hrest, String.ofList_toList]

/-- A quoted name is one lexeme before anything but a further quotation mark. -/
theorem lexFrom_quote (name : String) {rest : List Char} (hrest : rest.head? ≠ some '"') :
    lexFrom none ((quote name).toList ++ rest) = (lexFrom none rest).map (.name name :: ·) := by
  -- a quote in the name is written twice
  have htext : (quote name).toList ++ rest =
      '"' :: (name.toList.flatMap fun c => if c = '"' then ['"', '"'] else [c]) ++ '"' :: rest := by
    rw [quote, String.toList_append, String.toList_append, String.toList_ofList]
    simp
  rw [htext]
  exact lexFrom_quotation .double name hrest

/-- A break is no quotation mark. -/
theorem AtBreak.head?_ne {cs : List Char} (h : AtBreak cs) (mark : Mark) : cs.head? ≠ some mark.char := by
  intro hhead
  have hbreak := h _ hhead
  cases mark <;> exact absurd hbreak (by decide)

/-- A quoted name is one lexeme. -/
theorem spells_quote (name : String) : Spells (quote name).toList [.name name] :=
  fun _ hrest => lexFrom_quote name (hrest.head?_ne .double)

end Roster.Sql
