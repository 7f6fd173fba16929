import Roster.Proofs.Criteria.Written
import Roster.Proofs.Json.Criteria

/-! # Ages in documents and in query strings

A number as document, a text as document and a value in a query string are three ways to give an age.  They agree
wherever the age is put in among other parts.

* `Criteria.FillsQuery`: one query string is another with a pair put in.
* `Criteria.ofQuery_filled`: what becomes of a query string when a value for an age is put in.
* `Criteria.InDocuments`, `Criteria.InQueries`: what is always decoded from a value for an age.
* `Criteria.ages_agree`: the same number is decoded from all its notations in both formats.
-/

namespace Roster.Criteria

variable {c : Criteria} {key : Key} {before after : List (String × String)}

/-! ## A pair among other pairs -/

/-- The value for an age is put into its part. -/
theorem put_of_isAge (hkey : key.IsAge) (c : Criteria) (value : String) :
    c.put key value = (ageOfText value).map (c.withAge key) := by
  rcases hkey with rfl | rfl <;> rfl

theorem Clean.of_append (h : Clean (before ++ after)) : Clean before := by
  rintro front pair between rfl fault hfault
  refine h front pair (between ++ after) ?_ fault hfault
  rw [List.append_assoc, List.cons_append]

/-- The value for an age decides what becomes of pairs that give criteria without it. -/
theorem ofPairs_put (hkey : key.IsAge) (hnew : key.name ∉ (before ++ after).map Prod.fst)
    (hothers : ofPairs (before ++ after) = .ok c) (value : String) :
    ofPairs (before ++ (key.name, value) :: after) = ((ageOfText value).map (c.withAge key)).mapError .age := by
  rw [ofPairs_eq_ok_iff] at hothers
  cases hage : ageOfText value with
  | ok age =>
    -- the order of pairs that are read makes no difference, so the new one may as well be the last
    have hput : c.put key value = .ok (c.withAge key age) := by
      rw [put_of_isAge hkey, hage]
      rfl
    have hlast : (before ++ after ++ [(key.name, value)]).Perm (before ++ (key.name, value) :: after) := by
      rw [List.append_assoc]
      exact (List.perm_append_singleton _ after).append_left before
    exact ofPairs_eq_ok_iff.mpr ((hothers.append_put hnew hput).perm hlast)
  -- what follows the bad age is not looked at
  | error fault =>
    have hbefore : key.name ∉ before.map Prod.fst := by
      rw [List.map_append, List.mem_append, not_or] at hnew
      exact hnew.1
    have hbad : BadAge value fault := ageOfText_eq_error_iff.mp hage
    exact ofPairs_eq_error_iff.mpr ⟨before, _, after, rfl, hothers.clean.of_append, .age hkey hbefore hbad⟩

/-! ## A pair in a query string -/

theorem queryBody_question (s : String) : queryBody ("?" ++ s) = s := by
  have hchars : ("?" ++ s).toList = '?' :: s.toList := String.toList_append
  rw [queryBody, hchars]
  exact String.ofList_toList

theorem queryBody_of_head {s : String} (h : s.toList.head? ≠ some '?') : queryBody s = s := by
  rcases queryBody_spec s with ⟨hhead, -⟩ | ⟨-, hsame⟩
  · exact absurd hhead h
  · exact hsame

/-- A question mark is taken away from what stands in front, and what follows is left as it is. -/
theorem queryBody_append {front : String} (hfront : front = "?" ∨ Text.EndsPair front) :
    ∃ lead, Text.EndsPair lead ∧ ∀ rest, rest.toList.head? ≠ some '?' → queryBody (front ++ rest) = lead ++ rest := by
  -- a question mark is taken off, nothing is taken off, or a text up to an `&` may begin with one of its own
  rcases hfront with rfl | rfl | ⟨text, rfl⟩
  · refine ⟨"", .inl rfl, ?_⟩
    intro rest _
    rw [queryBody_question, String.empty_append]
  · refine ⟨"", .inl rfl, ?_⟩
    intro rest hrest
    rw [String.empty_append, queryBody_of_head hrest]
  · refine ⟨queryBody text ++ "&", .inr ⟨_, rfl⟩, ?_⟩
    intro rest _
    rcases queryBody_spec text with ⟨-, htext⟩ | ⟨hhead, hsame⟩
    · have hfront : text ++ "&" ++ rest = "?" ++ (queryBody text ++ "&" ++ rest) := by
        rw [← String.append_assoc, ← String.append_assoc, ← htext]
      rw [hfront, queryBody_question]
    · rw [hsame]
      apply queryBody_of_head
      rw [String.toList_append, String.toList_append, List.head?_append, List.head?_append]
      cases hfirst : text.toList.head? with
      | none => exact nofun
      | some first =>
        rw [hfirst] at hhead
        exact hhead

/-- A pair that is written in a query string is read from it. -/
theorem formPairs_written {value written : String}
    (hwritten : Text.Writes (Text.utf8Bytes value) (Text.utf8Bytes written)) :
    Text.formPairs (key.name ++ "=" ++ written) = [(key.name, value)] := by
  -- a single pair is read back from its own writing
  have hequals : Text.utf8Bytes "=" = [0x3D] := by decide
  have hpair : Text.WritesPair (key.name, value) (Text.utf8Bytes (key.name ++ "=" ++ written)) := by
    refine ⟨_, hwritten, ?_⟩
    rw [Text.utf8Bytes_append, Text.utf8Bytes_append, hequals, List.append_assoc, List.singleton_append]
  refine Text.formPairs_of_joined ?_ (.cons hpair .nil) (.single _)
  intro pair hmem
  rw [List.mem_singleton.mp hmem]
  exact isPlainKey_name key

/-- The second query string is the first with a pair put in, for a key that it does not have: in front of other pairs,
behind them or between them, and with the value written in any way. -/
inductive FillsQuery (key : Key) (value : String) : String → String → Prop where
  | intro {front written back : String} (hfront : front = "?" ∨ Text.EndsPair front) (hback : Text.StartsPair back)
      (hwritten : Text.Writes (Text.utf8Bytes value) (Text.utf8Bytes written))
      (hnew : key.name ∉ (Text.formPairs (queryBody (front ++ back))).map Prod.fst) :
      FillsQuery key value (front ++ back) (front ++ (key.name ++ "=" ++ written ++ back))

/-- The pair stands among the other ones as it stands in the query string. -/
theorem FillsQuery.formPairs {value bare filled : String} (h : FillsQuery key value bare filled) :
    ∃ before after, Text.formPairs (queryBody bare) = before ++ after ∧
      key.name ∉ (before ++ after).map Prod.fst ∧
      Text.formPairs (queryBody filled) = before ++ (key.name, value) :: after := by
  rcases h with @⟨front, written, back, hfront, hback, hwritten, hnew⟩
  rcases queryBody_append hfront with ⟨lead, hlead, hbody⟩
  -- a question mark at the front has no effect on what follows the text before the pair
  have hbare : Text.formPairs (queryBody (front ++ back)) = Text.formPairs lead ++ Text.formPairs back := by
    have hhead : back.toList.head? ≠ some '?' := by
      rcases hback with rfl | ⟨text, rfl⟩
      · decide
      · rw [String.toList_append]
        exact nofun
    rw [hbody back hhead, hlead.formPairs_append]
  have hfilled : Text.formPairs (queryBody (front ++ (key.name ++ "=" ++ written ++ back))) =
      Text.formPairs lead ++ (key.name, value) :: Text.formPairs back := by
    have hhead : (key.name ++ "=" ++ written ++ back).toList.head? ≠ some '?' := by
      simp only [String.toList_append, List.append_assoc]
      cases key <;> exact nofun
    rw [hbody _ hhead, hlead.formPairs_append, hback.formPairs_append, formPairs_written hwritten,
      List.singleton_append]
  -- the key was new among the pairs of the query string without it
  rw [hbare] at hnew
  exact ⟨_, _, hbare, hnew, hfilled⟩

/-- The value for an age decides what becomes of a query string that gives criteria without it. -/
theorem ofQuery_filled {value bare filled : String} (hkey : key.IsAge) (h : FillsQuery key value bare filled)
    (hbare : ofQuery bare = .ok c) : ofQuery filled = ((ageOfText value).map (c.withAge key)).mapError .age := by
  rcases h.formPairs with ⟨before, after, hpairs, hnew, hfilled⟩
  rw [ofQuery, hpairs] at hbare
  rw [ofQuery, hfilled]
  exact ofPairs_put hkey hnew hbare value

/-! ## Ages in all formats -/

/-- In whatever document the value is put in for the age, this is what is decoded there: the age, with the other parts as
before, or the fault. -/
def InDocuments (key : Key) (value : Json) (outcome : Except AgeFault (Option Int32)) : Prop :=
  ∀ bare filled c, Fills key value bare filled → ofJson bare = .ok c →
    ofJson filled = (outcome.map (c.withAge key)).mapError .age

def InQueries (key : Key) (value : String) (outcome : Except AgeFault (Option Int32)) : Prop :=
  ∀ bare filled c, FillsQuery key value bare filled → ofQuery bare = .ok c →
    ofQuery filled = (outcome.map (c.withAge key)).mapError .age

theorem inDocuments_of_ageOfJson {value : Json} {outcome : Except AgeFault (Option Int32)} (hkey : key.IsAge)
    (h : ageOfJson value = outcome.mapError .age) : InDocuments key value outcome := by
  intro bare filled c hfills hbare
  rw [ofJson_filled hkey hfills hbare, h]
  cases outcome <;> rfl

/-- A text is decoded alike in both formats. -/
theorem text_decoded (hkey : key.IsAge) (s : String) :
    InDocuments key (.text s) (ageOfText s) ∧ InQueries key s (ageOfText s) := by
  constructor
  · exact inDocuments_of_ageOfJson hkey rfl
  · intro bare filled c hfills hbare
    exact ofQuery_filled hkey hfills hbare

/-- A number is decoded in documents like the texts that spell it. -/
theorem number_decoded (hkey : key.IsAge) (n : Int64) :
    InDocuments key (.int n.toInt) ((ageOfInt n).map some) := by
  apply inDocuments_of_ageOfJson hkey
  rw [ageOfJson, Integer.to64?_eq_some_iff.mpr rfl]

/-- All ways to give an age agree.  A 64-bit integer gives the same outcome as number in a document, as any text in a
document that spells it, and as the same text in a query string, whichever way its bytes are written there: the age that
it is when it fits 32 bits, and otherwise the fault that names it.  Blank texts give no age in both formats, and all other
texts are refused with the text as it was given.  Every text can be written in a query string. -/
theorem ages_agree (hkey : key.IsAge) :
    (∀ (n : Int64) (s : String), Spells s n.toInt →
      (Int32.minValue.toInt ≤ n.toInt → n.toInt ≤ Int32.maxValue.toInt → ∃ age : Int32, age.toInt = n.toInt ∧
        InDocuments key (.int n.toInt) (.ok (some age)) ∧ InDocuments key (.text s) (.ok (some age)) ∧
        InQueries key s (.ok (some age))) ∧
      (n.toInt < Int32.minValue.toInt ∨ Int32.maxValue.toInt < n.toInt →
        InDocuments key (.int n.toInt) (.error (.outOfRange n)) ∧
        InDocuments key (.text s) (.error (.outOfRange n)) ∧ InQueries key s (.error (.outOfRange n)))) ∧
    (∀ s, ¬HasText s → InDocuments key (.text s) (.ok none) ∧ InQueries key s (.ok none)) ∧
    (∀ s, HasText s → (∀ n : Int64, ¬Spells s n.toInt) →
      InDocuments key (.text s) (.error (.unreadable s)) ∧ InQueries key s (.error (.unreadable s))) ∧
    (∀ n : Int64, (AgeFault.outOfRange n).message = "age " ++ toString n.toInt ++ " is out of range") ∧
    (∀ s, (AgeFault.unreadable s).message = "invalid age '" ++ s ++ "'") ∧
    ∀ s, Text.Writes (Text.utf8Bytes s) (Text.utf8Bytes (Text.escaped s)) := by
  refine ⟨?_, ?_, ?_, ?_, ?_, Text.writes_escaped⟩
  -- the number, with the documents and the query strings that spell it
  · intro n s hs
    have hnumber := number_decoded hkey n
    have htext := text_decoded hkey s
    rw [ageOfText_of_spells hs] at htext
    rw [Int32.toInt_minValue, Int32.toInt_maxValue]
    constructor
    · intro hlow hhigh
      have hage : (Int32.ofInt n.toInt).toInt = n.toInt := Int32.toInt_ofInt_of_le hlow (by omega)
      rw [ageOfInt_of_fits hage] at hnumber htext
      exact ⟨_, hage, hnumber, htext⟩
    · intro hrange
      -- no age of 32 bits has a value outside of their range
      have hmisfit : ∀ age : Int32, age.toInt ≠ n.toInt := by
        intro age
        have hlow := age.le_toInt
        have hhigh := age.toInt_lt
        omega
      rw [ageOfInt_of_not_fits hmisfit] at hnumber htext
      exact ⟨hnumber, htext⟩
  · intro s hs
    have htext := text_decoded hkey s
    rw [GivesAge.ageOfText_eq (.blank hs)] at htext
    exact htext
  · intro s hs hn
    have htext := text_decoded hkey s
    rw [BadAge.ageOfText_eq (.unreadable hs hn)] at htext
    exact htext
  · intro n
    rfl
  · intro s
    rfl

/-- An upper bound between a name and a lower bound: the number 30 in three notations, a number that is too large, a blank
that is no space, and a text that is no number. -/
theorem ages_agree_between :
    let ada : Option Int32 → Criteria := fun age => ⟨some "ada", none, some 18, age⟩
    let document : Json → Json := fun value =>
      .object [("username", .text "ada"), ("ageLoe", value), ("ageGoe", .int 18)]
    Key.maxAge.IsAge ∧ Spells " +0030" 30 ∧
    ofJson (document (.int 30)) = .ok (ada (some 30)) ∧ ofJson (document (.text " +0030")) = .ok (ada (some 30)) ∧
    ofQuery "?username=ada&ageLoe=+%2B0030&ageGoe=18" = .ok (ada (some 30)) ∧
    ofJson (document (.int 2147483648)) = .error (.age (.outOfRange 2147483648)) ∧
    ofJson (document (.text "2147483648")) = .error (.age (.outOfRange 2147483648)) ∧
    ofQuery "?username=ada&ageLoe=2147483648&ageGoe=18" = .error (.age (.outOfRange 2147483648)) ∧
    ofJson (document (.text "\u00a0")) = .ok (ada none) ∧
    ofQuery "?username=ada&ageLoe=%C2%a0&ageGoe=18" = .ok (ada none) ∧
    ofJson (document (.text " 4-2")) = .error (.age (.unreadable " 4-2")) ∧
    ofQuery "?username=ada&ageLoe=+4-2&ageGoe=18" = .error (.age (.unreadable " 4-2")) := by
  intro ada document
  have hkey : Key.maxAge.IsAge := .inr rfl
  -- the document and the query string hold the other parts around the place of the age
  have hdocument : ∀ value, Fills .maxAge value
      (.object ([("username", .text "ada")] ++ [("ageGoe", .int 18)])) (document value) :=
    fun value => .object (by decide)
  have hquery : ∀ {value written : String}, Text.Writes (Text.utf8Bytes value) (Text.utf8Bytes written) →
      FillsQuery .maxAge value ("?username=ada&" ++ "&ageGoe=18")
        ("?username=ada&" ++ ("ageLoe" ++ "=" ++ written ++ "&ageGoe=18")) :=
    fun hwritten => .intro (.inr (.inr ⟨"?username=ada", rfl⟩)) (.inr ⟨"ageGoe=18", rfl⟩) hwritten (by decide +kernel)
  have hadaDocument : ofJson (.object ([("username", .text "ada")] ++ [("ageGoe", .int 18)])) = .ok (ada none) := rfl
  have hadaQuery : ofQuery ("?username=ada&" ++ "&ageGoe=18") = .ok (ada none) := rfl
  have hthirty : Spells " +0030" (30 : Int64).toInt :=
    ⟨[' '], ['+', '0', '0', '3', '0'], [], rfl, List.all_eq_true.mp rfl, .plus ⟨nofun, List.all_eq_true.mp rfl, rfl⟩,
      nofun⟩
  have hlarge : Spells "2147483648" (2147483648 : Int64).toInt := spells_toString 2147483648
  -- a sign may only stand at the beginning
  have hunreadable : ∀ n : Int64, ¬Spells " 4-2" n.toInt := by
    intro n hn
    have hnone : Text.integer? (Text.trimChars " 4-2".toList) = none := by decide
    rw [spells_iff, hnone] at hn
    cases hn
  have hplain : ∀ bs : List UInt8, bs.all (fun b => decide (b ∉ [0x26, 0x2B, 0x25])) = true → Text.Writes bs bs :=
    fun bs hall => Text.writes_self fun b hb => of_decide_eq_true (List.all_eq_true.mp hall b hb)
  have hwrittenThirty : Text.Writes (Text.utf8Bytes " +0030") (Text.utf8Bytes "+%2B0030") :=
    .plus (.escape (.inl rfl) (.inr rfl) (hplain _ rfl))
  have hwrittenLarge : Text.Writes (Text.utf8Bytes "2147483648") (Text.utf8Bytes "2147483648") :=
    hplain _ rfl
  have hwrittenBlank : Text.Writes (Text.utf8Bytes "\u00a0") (Text.utf8Bytes "%C2%a0") :=
    .escape (.inr rfl) (.inl rfl) (.escape (.inl rfl) (.inl rfl) .nil)
  have hwrittenUnreadable : Text.Writes (Text.utf8Bytes " 4-2") (Text.utf8Bytes "+4-2") :=
    .plus (hplain _ rfl)
  rcases ages_agree hkey with ⟨hnumbers, hblank, hbad, -⟩
  rcases (hnumbers 30 " +0030" hthirty).1 (by decide) (by decide) with ⟨age, hage, hinteger, htext, hvalue⟩
  obtain rfl : age = 30 := Int32.toInt_inj.mp hage
  rcases (hnumbers 2147483648 "2147483648" hlarge).2 (by decide) with ⟨hinteger', htext', hvalue'⟩
  rcases hblank "\u00a0" ((isBlank_eq_true_iff _).mp rfl) with ⟨htextBlank, hvalueBlank⟩
  rcases hbad " 4-2" ((isBlank_eq_false_iff _).mp rfl) hunreadable with ⟨htextBad, hvalueBad⟩
  exact ⟨hkey, hthirty, hinteger _ _ _ (hdocument _) hadaDocument, htext _ _ _ (hdocument _) hadaDocument,
    hvalue _ _ _ (hquery hwrittenThirty) hadaQuery, hinteger' _ _ _ (hdocument _) hadaDocument,
    htext' _ _ _ (hdocument _) hadaDocument, hvalue' _ _ _ (hquery hwrittenLarge) hadaQuery,
    htextBlank _ _ _ (hdocument _) hadaDocument, hvalueBlank _ _ _ (hquery hwrittenBlank) hadaQuery,
    htextBad _ _ _ (hdocument _) hadaDocument, hvalueBad _ _ _ (hquery hwrittenUnreadable) hadaQuery⟩

end Roster.Criteria
