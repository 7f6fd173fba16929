import Roster.Proofs.Text.Blank
import Roster.Proofs.Text.Case
import Roster.Proofs.Text.Separate
import Roster.Sort

/-! # Sort keys

A sort key is a field and then options, with commas between them.  The field is named exactly; options are written in any
case, as many as there are, and the last one of a kind counts.  A key that cannot be read is refused for its field, or else
for the first part that is no option.

* `SortTerm.IsCut`: the parts of a key.
* `SortTerm.Writes`: the field and the options that a key writes.
* `SortTerm.Refused`: why a key is refused.
* `SortTerm.parse_eq_ok_iff`, `SortTerm.parse_eq_error_iff`: reading a key decides just this.
-/

namespace Roster

/-! ## Fields -/

/-- The spellings that a sort key may have for a field. -/
def Field.spellings : List (String × Field) :=
  [("memberId", .memberId), ("member_id", .memberId), ("id", .memberId), ("username", .username), ("age", .age),
    ("teamId", .teamId), ("team_id", .teamId), ("teamName", .teamName), ("team_name", .teamName)]

theorem Field.parse?_eq_some_iff {s : String} {field : Field} : Field.parse? s = some field ↔ (s, field) ∈ spellings := by
  constructor
  · intro h
    -- the spellings are the names and the aliases of the fields, and each is found under its own field
    have hcases : ∀ field : Field, ∀ s ∈ field.name :: field.aliases, (s, field) ∈ spellings := by
      intro field
      cases field <;> decide
    have hspelled := List.find?_some h
    rw [Bool.or_eq_true, beq_iff_eq, List.contains_iff_mem] at hspelled
    rcases hspelled with rfl | halias
    · exact hcases field _ List.mem_cons_self
    · exact hcases field s (List.mem_cons_of_mem _ halias)
  · have hall : ∀ spelling ∈ spellings, Field.parse? spelling.1 = some spelling.2 := by decide
    exact hall (s, field)

theorem Field.parse?_eq_none_iff {s : String} : Field.parse? s = none ↔ ∀ field, (s, field) ∉ spellings := by
  rw [Option.eq_none_iff_forall_ne_some]
  simp only [ne_eq, Field.parse?_eq_some_iff]

namespace SortTerm

/-! ## Options -/

/-- An option of a sort key: a direction, or a place for empty values. -/
inductive Choice where
  | direction (direction : Direction)
  | nulls (placement : NullPlacement)
deriving Repr, DecidableEq

namespace Choice

/-- How an option is written in lower case. -/
def keyword : Choice → String
  | .direction .asc => "asc"
  | .direction .desc => "desc"
  | .nulls .first => "nullsfirst"
  | .nulls .last => "nullslast"

def direction? : Choice → Option Direction
  | .direction d => some d
  | .nulls _ => none

def nulls? : Choice → Option NullPlacement
  | .direction _ => none
  | .nulls placement => some placement

/-- The term after an option. -/
def apply (choice : Choice) (term : SortTerm) : SortTerm :=
  match choice with
  | .direction d => { term with direction := d }
  | .nulls placement => { term with nulls := some placement }

/-- A part of a key that is the option but for the case of letters. -/
def IsWritten (part : String) (choice : Choice) : Prop :=
  Text.IgnoringCase part choice.keyword

theorem isWritten_iff {part : String} {choice : Choice} : choice.IsWritten part ↔ Text.lower part = choice.keyword := by
  have hlower : Text.lower choice.keyword = choice.keyword := by
    rcases choice with (_ | _) | (_ | _) <;> decide
  rw [IsWritten, Text.ignoringCase_iff, hlower]

end Choice

theorem option?_keyword (choice : Choice) : option? choice.keyword = some choice.apply := by
  rcases choice with (_ | _) | (_ | _) <;> rfl

theorem option?_eq_none_iff {s : String} : option? s = none ↔ ∀ choice : Choice, s ≠ choice.keyword := by
  constructor
  · rintro h choice rfl
    rw [option?_keyword] at h
    cases h
  · intro h
    -- the keywords are all that an option may be
    unfold option?
    split
    · exact absurd rfl (h (.direction .asc))
    · exact absurd rfl (h (.direction .desc))
    · exact absurd rfl (h (.nulls .first))
    · exact absurd rfl (h (.nulls .last))
    · rfl

/-- A part of a key that is some option. -/
def IsOption (part : String) : Prop :=
  ∃ choice : Choice, choice.IsWritten part

theorem option?_lower_of_isWritten {part : String} {choice : Choice} (h : choice.IsWritten part) :
    option? (Text.lower part) = some choice.apply := by
  rw [Choice.isWritten_iff.mp h, option?_keyword]

theorem option?_lower_of_not_isOption {part : String} (h : ¬IsOption part) : option? (Text.lower part) = none := by
  rw [option?_eq_none_iff]
  intro choice heq
  exact h ⟨choice, Choice.isWritten_iff.mpr heq⟩

/-! ## Options in turn -/

/-- The term of a field and options: the last option of a kind counts. -/
def ofChoices (field : Field) (choices : List Choice) : SortTerm :=
  ⟨field, (choices.filterMap Choice.direction?).getLast?.getD .asc, (choices.filterMap Choice.nulls?).getLast?⟩

/-- Options in turn leave the last direction and the last place for empty values, and what the term had before where there
is none. -/
theorem foldl_apply (choices : List Choice) (term : SortTerm) :
    choices.foldl (fun term choice => choice.apply term) term =
      ⟨term.field, (choices.filterMap Choice.direction?).getLast?.getD term.direction,
        (choices.filterMap Choice.nulls?).getLast?.or term.nulls⟩ := by
  -- the term before the options is general: each option changes it for those after it
  induction choices generalizing term with
  | nil => rfl
  | cons choice choices ih =>
    rw [List.foldl_cons, ih]
    cases choice with
    -- a direction counts unless a later one follows, and has no effect on the place of empty values
    | direction d =>
      have hdirections : (Choice.direction d :: choices).filterMap Choice.direction? =
          d :: choices.filterMap Choice.direction? := rfl
      rw [hdirections, List.getLast?_cons]
      rfl
    -- the same for the place of empty values
    | nulls placement =>
      have hplacements : (Choice.nulls placement :: choices).filterMap Choice.nulls? =
          placement :: choices.filterMap Choice.nulls? := rfl
      rw [hplacements, List.getLast?_cons]
      exact congrArg (SortTerm.mk _ _) Option.or_some

theorem foldl_apply_asc (field : Field) (choices : List Choice) :
    choices.foldl (fun term choice => choice.apply term) (asc field) = ofChoices field choices := by
  rw [foldl_apply, ofChoices]
  exact congrArg (SortTerm.mk _ _) Option.or_none

theorem withOptions_of_written (key : String) {parts : List String} {choices : List Choice}
    (h : List.Forall₂ (fun part choice => choice.IsWritten part) parts choices) (term : SortTerm) :
    withOptions key term parts = .ok (choices.foldl (fun term choice => choice.apply term) term) := by
  induction h generalizing term with
  | nil => rfl
  | cons hpart _ ih =>
    rw [withOptions, option?_lower_of_isWritten hpart]
    exact ih _

/-- The first part that is no option is the one that is named. -/
theorem withOptions_of_not_isOption (key : String) {before : List String} {part : String} (after : List String)
    (hbefore : ∀ earlier ∈ before, IsOption earlier) (hpart : ¬IsOption part) (term : SortTerm) :
    withOptions key term (before ++ part :: after) = .error (.unknownSortOption (Text.lower part) key) := by
  -- the options before the bad part have an effect on the term, but not on the error
  induction before generalizing term with
  | nil => rw [List.nil_append, withOptions, option?_lower_of_not_isOption hpart]
  | cons earlier before ih =>
    rw [List.forall_mem_cons] at hbefore
    rcases hbefore with ⟨⟨choice, hchoice⟩, hbefore⟩
    rw [List.cons_append, withOptions, option?_lower_of_isWritten hchoice]
    exact ih hbefore _

/-- Either all parts are options, or there is a first one that is none. -/
theorem written_or_not_isOption (parts : List String) :
    (∃ choices : List Choice, List.Forall₂ (fun part choice => choice.IsWritten part) parts choices) ∨
    ∃ before part after, parts = before ++ part :: after ∧ (∀ earlier ∈ before, IsOption earlier) ∧ ¬IsOption part := by
  induction parts with
  | nil => exact .inl ⟨[], .nil⟩
  | cons part parts ih =>
    -- the first part that is no option may be this one or come later
    by_cases hpart : IsOption part
    · rcases ih with ⟨choices, hchoices⟩ | ⟨before, bad, after, rfl, hbefore, hbad⟩
      · rcases hpart with ⟨choice, hchoice⟩
        exact .inl ⟨choice :: choices, .cons hchoice hchoices⟩
      · exact .inr ⟨part :: before, bad, after, rfl, List.forall_mem_cons.mpr ⟨hpart, hbefore⟩, hbad⟩
    · exact .inr ⟨[], part, parts, rfl, nofun, hpart⟩

/-! ## Parts -/

/-- The parts of a key: the stretches between its commas, each without the blanks around it. -/
def IsCut (key : String) (parts : List String) : Prop :=
  ∃ pieces, Text.Stretches ',' pieces key.toList ∧
    List.Forall₂ (fun piece part => Text.Trimmed piece part.toList) pieces parts

theorem keyParts_eq_iff {key : String} {parts : List String} : keyParts key = parts ↔ IsCut key parts := by
  -- each piece is trimmed on its own
  have htrimmed : ∀ pieces : List (List Char), pieces.map (fun cs => String.ofList (Text.trimChars cs)) = parts ↔
      List.Forall₂ (fun piece part => Text.Trimmed piece part.toList) pieces parts := by
    intro pieces
    rw [← List.forall₂_eq_eq_eq, List.forall₂_map_left_iff]
    simp only [← Text.trimChars_eq_iff, ← String.toList_inj, String.toList_ofList]
  constructor
  · intro h
    exact ⟨_, Text.separate_eq_iff.mp rfl, (htrimmed _).mp h⟩
  · rintro ⟨pieces, hpieces, hparts⟩
    rw [keyParts, Text.separate_eq_iff.mpr hpieces]
    exact (htrimmed _).mpr hparts

theorem exists_isCut_cons (key : String) : ∃ name parts, IsCut key (name :: parts) := by
  rcases hkey : keyParts key with _ | ⟨name, parts⟩
  · rcases keyParts_eq_iff.mp hkey with ⟨pieces, hpieces, hparts⟩
    cases hparts
    exact absurd rfl hpieces.nonempty
  · exact ⟨name, parts, keyParts_eq_iff.mp hkey⟩

/-! ## Keys -/

/-- The key writes the field and the options: its first part is a spelling of the field, and each other part is an option,
in turn. -/
def Writes (key : String) (field : Field) (choices : List Choice) : Prop :=
  ∃ name parts, IsCut key (name :: parts) ∧ (name, field) ∈ Field.spellings ∧
    List.Forall₂ (fun part choice => choice.IsWritten part) parts choices

/-- Why a key is refused: its first part spells no field; or else some part is no option, and the first such part is
named in lower case. -/
inductive Refused (key : String) : SearchFault → Prop where
  | field {name : String} {parts : List String} (hcut : IsCut key (name :: parts))
      (hname : ∀ field, (name, field) ∉ Field.spellings) : Refused key (.unknownSortField name)
  | option {name : String} {field : Field} {before after : List String} {part : String}
      (hcut : IsCut key (name :: (before ++ part :: after))) (hname : (name, field) ∈ Field.spellings)
      (hbefore : ∀ earlier ∈ before, IsOption earlier) (hpart : ¬IsOption part) :
      Refused key (.unknownSortOption (Text.lower part) key)

theorem parse_of_isCut {key name : String} {parts : List String} {field : Field} (hcut : IsCut key (name :: parts))
    (hname : (name, field) ∈ Field.spellings) : parse key = withOptions key (asc field) parts := by
  rw [parse, keyParts_eq_iff.mpr hcut]
  simp only [Field.parse?_eq_some_iff.mpr hname]

theorem Writes.parse_eq {key : String} {field : Field} {choices : List Choice} (h : Writes key field choices) :
    parse key = .ok (ofChoices field choices) := by
  rcases h with ⟨name, parts, hcut, hname, hparts⟩
  rw [parse_of_isCut hcut hname, withOptions_of_written key hparts, foldl_apply_asc]

theorem Refused.parse_eq {key : String} {fault : SearchFault} (h : Refused key fault) : parse key = .error fault := by
  rcases h with ⟨hcut, hname⟩ | ⟨hcut, hname, hbefore, hpart⟩
  · rw [parse, keyParts_eq_iff.mpr hcut]
    simp only [Field.parse?_eq_none_iff.mpr hname]
  · rw [parse_of_isCut hcut hname, withOptions_of_not_isOption key _ hbefore hpart]

/-- Every key writes a field and options, or it is refused. -/
theorem writes_or_refused (key : String) : (∃ field choices, Writes key field choices) ∨ ∃ fault, Refused key fault := by
  rcases exists_isCut_cons key with ⟨name, parts, hcut⟩
  -- first the name is looked at, and then the parts after it one by one
  by_cases hname : ∃ field, (name, field) ∈ Field.spellings
  · rcases hname with ⟨field, hname⟩
    rcases written_or_not_isOption parts with ⟨choices, hparts⟩ | ⟨before, part, after, rfl, hbefore, hpart⟩
    · exact .inl ⟨field, choices, name, parts, hcut, hname, hparts⟩
    · exact .inr ⟨_, .option hcut hname hbefore hpart⟩
  · exact .inr ⟨_, .field hcut (not_exists.mp hname)⟩

/-- A key is read as the term of the field and the options that it writes. -/
theorem parse_eq_ok_iff {key : String} {term : SortTerm} :
    parse key = .ok term ↔ ∃ field choices, Writes key field choices ∧ term = ofChoices field choices := by
  constructor
  · intro h
    rcases writes_or_refused key with ⟨field, choices, hkey⟩ | ⟨fault, hkey⟩
    · rw [hkey.parse_eq] at h
      exact ⟨field, choices, hkey, (Except.ok.inj h).symm⟩
    · rw [hkey.parse_eq] at h
      cases h
  · rintro ⟨field, choices, hkey, rfl⟩
    exact hkey.parse_eq

/-- A key is refused for the reason why it writes no field and options. -/
theorem parse_eq_error_iff {key : String} {fault : SearchFault} : parse key = .error fault ↔ Refused key fault := by
  constructor
  · intro h
    rcases writes_or_refused key with ⟨field, choices, hkey⟩ | ⟨other, hkey⟩
    · rw [hkey.parse_eq] at h
      cases h
    · rw [hkey.parse_eq] at h
      exact Except.error.inj h ▸ hkey
  · exact Refused.parse_eq

/-! ## Blank parts -/

/-- No option is blank. -/
theorem not_isOption_empty : ¬IsOption "" := by
  rintro ⟨choice, hchoice⟩
  rw [Choice.isWritten_iff] at hchoice
  rcases choice with (_ | _) | (_ | _) <;> exact absurd hchoice (by decide)

theorem keyParts_append (front back : String) : keyParts (front ++ "," ++ back) = keyParts front ++ keyParts back := by
  have hchars : (front ++ "," ++ back).toList = front.toList ++ ',' :: back.toList := by
    rw [String.toList_append, String.toList_append, List.append_assoc]
    rfl
  rw [keyParts, hchars, Text.separate_append, List.map_append]
  rfl

theorem keyParts_blank {blanks : String} (h : ∀ c ∈ blanks.toList, Text.isBlankChar c = true) :
    keyParts blanks = [""] := by
  rw [keyParts_eq_iff]
  refine ⟨[blanks.toList], ⟨List.cons_ne_nil _ _, ?_, ?_⟩, .cons ?_ .nil⟩
  · intro piece hpiece hcomma
    rw [List.mem_singleton.mp hpiece] at hcomma
    exact absurd (h _ hcomma) (by decide)
  · exact List.intercalate_singleton
  · refine ⟨⟨blanks.toList, [], ?_, h, nofun⟩, nofun, nofun⟩
    rw [List.append_nil]
    exact (List.append_nil _).symm

/-- A key with a blank part after the first one writes nothing. -/
theorem parse_ne_ok_of_blank {key : String} {front back : List String} (hfront : front ≠ [])
    (hkey : keyParts key = front ++ "" :: back) (term : SortTerm) : parse key ≠ .ok term := by
  intro h
  rcases parse_eq_ok_iff.mp h with ⟨field, choices, ⟨name, parts, hcut, -, hparts⟩, -⟩
  -- the name and the parts after it are all parts of the key, so the blank one is not the name
  have hsame : name :: parts = front ++ "" :: back := (keyParts_eq_iff.mpr hcut).symm.trans hkey
  rcases List.exists_cons_of_ne_nil hfront with ⟨first, front, rfl⟩
  obtain ⟨-, rfl⟩ := List.cons.inj hsame
  -- the blank part would have to be one of the options
  have hblank := List.forall₂_drop front.length hparts
  rw [List.append_eq, List.drop_left] at hblank
  rcases List.forall₂_cons_left_iff.mp hblank with ⟨choice, _, hchoice, -⟩
  exact not_isOption_empty ⟨choice, hchoice⟩

/-! ## What keys say -/

/-- Options of both kinds are settled by the last ones. -/
theorem ofChoices_congr (field : Field) {choices other : List Choice}
    (hdirection : (choices.filterMap Choice.direction?).getLast? = (other.filterMap Choice.direction?).getLast?)
    (hnulls : (choices.filterMap Choice.nulls?).getLast? = (other.filterMap Choice.nulls?).getLast?) :
    ofChoices field choices = ofChoices field other := by
  rw [ofChoices, ofChoices, hdirection, hnulls]

theorem getLast?_filterMap_twice {α : Type} (f : Choice → Option α) (before : List Choice) (choice : Choice)
    (after : List Choice) :
    ((before ++ choice :: choice :: after).filterMap f).getLast? = ((before ++ choice :: after).filterMap f).getLast? := by
  rw [List.filterMap_append, List.filterMap_append, List.getLast?_append, List.getLast?_append]
  rcases hchoice : f choice with _ | a
  · rw [List.filterMap_cons_none hchoice]
  · rw [List.filterMap_cons_some hchoice, List.filterMap_cons_some hchoice, List.getLast?_cons, List.getLast?_cons]
    rfl

/-- A key is read exactly if it writes a field and options, as the term of that field with the last direction, which is
ascending where there is none, and the last place for empty values, if any.  Otherwise it is refused for the first part if
that spells no field, and else for the first other part that is no option, which is named in lower case with the whole key.
So it makes no difference to write an option twice or to exchange options of different kinds, and a key with nothing but
blanks after a comma and up to the next one or its end is refused. -/
theorem parse_language (key : String) :
    (∀ term, parse key = .ok term ↔ ∃ choices, Writes key term.field choices ∧
      term.direction = (choices.filterMap Choice.direction?).getLast?.getD .asc ∧
      term.nulls = (choices.filterMap Choice.nulls?).getLast?) ∧
    (∀ fault, parse key = .error fault ↔ Refused key fault) ∧
    (∀ name, (Error.invalidSearch (.unknownSortField name)).message =
      "Invalid search condition: unknown sort field '" ++ name ++ "'") ∧
    (∀ option, (Error.invalidSearch (.unknownSortOption option key)).message =
      "Invalid search condition: invalid sort option '" ++ option ++ "' in '" ++ key ++ "'") ∧
    (∀ field before choice after other, Writes key field (before ++ choice :: after) →
      Writes other field (before ++ choice :: choice :: after) → parse other = parse key) ∧
    (∀ field choices reordered other, Writes key field choices → Writes other field reordered →
      choices.filterMap Choice.direction? = reordered.filterMap Choice.direction? →
      choices.filterMap Choice.nulls? = reordered.filterMap Choice.nulls? → parse other = parse key) ∧
    ∀ front blanks, (∀ c ∈ blanks.toList, Text.isBlankChar c = true) →
      (key = front ++ "," ++ blanks ∨ ∃ back, key = front ++ "," ++ blanks ++ "," ++ back) →
        ∃ fault, parse key = .error fault := by
  refine ⟨?_, fun _ => parse_eq_error_iff, fun _ => rfl, fun _ => rfl, ?_, ?_, ?_⟩
  · intro term
    rw [parse_eq_ok_iff]
    constructor
    · rintro ⟨field, choices, hkey, rfl⟩
      exact ⟨choices, hkey, rfl, rfl⟩
    · rintro ⟨choices, hkey, hdirection, hnulls⟩
      refine ⟨term.field, choices, hkey, ?_⟩
      rw [ofChoices, ← hdirection, ← hnulls]
  · intro field before choice after other hkey hother
    rw [hkey.parse_eq, hother.parse_eq]
    exact congrArg Except.ok (ofChoices_congr field (getLast?_filterMap_twice ..) (getLast?_filterMap_twice ..))
  · intro field choices reordered other hkey hother hdirections hplacements
    rw [hkey.parse_eq, hother.parse_eq, ofChoices, ofChoices, hdirections, hplacements]
  · intro front blanks hblanks hkey
    have hfront : keyParts front ≠ [] := by
      rcases exists_isCut_cons front with ⟨name, parts, hcut⟩
      rw [keyParts_eq_iff.mpr hcut]
      exact List.cons_ne_nil _ _
    -- an empty part is left between two commas, and behind the last one
    have hparts : ∃ back, keyParts key = keyParts front ++ "" :: back := by
      rcases hkey with rfl | ⟨back, rfl⟩
      · exact ⟨[], by rw [keyParts_append, keyParts_blank hblanks]⟩
      · refine ⟨keyParts back, ?_⟩
        rw [keyParts_append, keyParts_append, keyParts_blank hblanks, List.append_assoc, List.singleton_append]
    rcases hparts with ⟨back, hparts⟩
    rcases hresult : parse key with fault | term
    · exact ⟨fault, rfl⟩
    · exact absurd hresult (parse_ne_ok_of_blank hfront hparts term)

/-- A key with blanks around its parts, capital letters and two options of each kind; keys with an option written twice and
with options in another order; keys with an unknown field, with a misspelt option and with a comma at the end. -/
theorem parse_language_team :
    parse " teamName ,DESC,nullsFirst,\u00a0asc,NullsLast" = .ok ⟨.teamName, .asc, some .last⟩ ∧
    parse "age,desc,DESC,nullslast" = parse "age,desc,nullslast" ∧
    parse "age,nullslast,desc" = parse "age,desc,nullslast" ∧
    parse "height,desc" = .error (.unknownSortField "height") ∧
    parse "id,asc,Down,up" = .error (.unknownSortOption "down" "id,asc,Down,up") ∧
    (∃ fault, parse "age,desc, " = .error fault) ∧ ∃ fault, parse "age,,desc" = .error fault := by
  -- whether a key writes a field and options can be computed from its parts
  have hwrites : ∀ {key name : String} {parts : List String} {field : Field} {choices : List Choice},
      keyParts key = name :: parts → (name, field) ∈ Field.spellings →
      parts.map Text.lower = choices.map Choice.keyword → Writes key field choices := by
    intro key name parts field choices hkey hname hparts
    refine ⟨name, parts, keyParts_eq_iff.mp hkey, hname, ?_⟩
    rw [← List.forall₂_eq_eq_eq, List.forall₂_map_left_iff, List.forall₂_map_right_iff] at hparts
    exact hparts.imp fun _ _ => Choice.isWritten_iff.mpr
  have hteam : Writes " teamName ,DESC,nullsFirst,\u00a0asc,NullsLast" .teamName
      [.direction .desc, .nulls .first, .direction .asc, .nulls .last] := hwrites rfl (by decide) rfl
  have hage : Writes "age,desc,nullslast" .age ([] ++ .direction .desc :: [.nulls .last]) :=
    hwrites rfl (by decide) rfl
  have htwice : Writes "age,desc,DESC,nullslast" .age ([] ++ .direction .desc :: .direction .desc :: [.nulls .last]) :=
    hwrites rfl (by decide) rfl
  have hreordered : Writes "age,nullslast,desc" .age [.nulls .last, .direction .desc] := hwrites rfl (by decide) rfl
  have hheight : Refused "height,desc" (.unknownSortField "height") :=
    .field (keyParts_eq_iff.mp rfl) fun field => by cases field <;> decide
  have hdown : Refused "id,asc,Down,up" (.unknownSortOption "down" "id,asc,Down,up") := by
    have hcut : IsCut "id,asc,Down,up" ("id" :: (["asc"] ++ "Down" :: ["up"])) := keyParts_eq_iff.mp rfl
    have hspelled : ("id", Field.memberId) ∈ Field.spellings := by decide
    refine .option hcut hspelled ?_ ?_
    · intro earlier hearlier
      rw [List.mem_singleton.mp hearlier]
      exact ⟨.direction .asc, Choice.isWritten_iff.mpr rfl⟩
    · rintro ⟨(_ | _) | (_ | _), hchoice⟩ <;> exact absurd (Choice.isWritten_iff.mp hchoice) (by decide)
  rcases parse_language "age,desc,nullslast" with ⟨-, -, -, -, hrepeat, hreorder, -⟩
  refine ⟨?_, ?_, ?_, ?_, ?_, ?_, ?_⟩
  · exact ((parse_language _).1 _).mpr ⟨_, hteam, rfl, rfl⟩
  · exact hrepeat .age [] _ _ _ hage htwice
  · exact hreorder .age _ _ _ hage hreordered rfl rfl
  · exact ((parse_language _).2.1 _).mpr hheight
  · exact ((parse_language _).2.1 _).mpr hdown
  · exact (parse_language _).2.2.2.2.2.2 "age,desc" " " (List.all_eq_true.mp rfl) (.inl rfl)
  · exact (parse_language _).2.2.2.2.2.2 "age" "" nofun (.inr ⟨"desc", rfl⟩)

end SortTerm

end Roster
