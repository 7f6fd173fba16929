import Mathlib.Data.List.Nodup
import Roster.Proofs.Criteria.Query
import Roster.Proofs.Text.Form

/-! # Criteria written as query strings

A query string writes criteria when it has one pair for each part that is present, in any order, with a free choice how
each byte of a value is written.  All query strings that write the same criteria are read as these.

* `Criteria.Part`, `Criteria.Lists`: the values that stand for parts, and pairs for all parts that are present.
* `Criteria.IsQuery`: the query strings that write criteria.
* `Criteria.Lists.reads`: pairs for all parts give the criteria.
* `Criteria.isQuery_toQuery`: all criteria can be written.
* `Criteria.ofQuery_written`: what writes criteria is read as these.
-/

namespace Roster.Criteria

variable {c : Criteria} {key : Key} {parts : List (Key × String)}

def has (c : Criteria) : Key → Bool
  | .username => c.username.isSome
  | .teamName => c.teamName.isSome
  | .minAge => c.minAge.isSome
  | .maxAge => c.maxAge.isSome

def keys (c : Criteria) : List Key :=
  Key.values.filter c.has

/-- The values that stand for a part: a text for itself, and a numeral for an age. -/
inductive Part (c : Criteria) : Key → String → Prop where
  | username {text : String} (h : c.username = some text) : Part c .username text
  | teamName {text : String} (h : c.teamName = some text) : Part c .teamName text
  | minAge {age : Int32} {value : String} (h : c.minAge = some age) (hvalue : Spells value age.toInt) :
      Part c .minAge value
  | maxAge {age : Int32} {value : String} (h : c.maxAge = some age) (hvalue : Spells value age.toInt) :
      Part c .maxAge value

/-- One value for each part that is present, in any order. -/
structure Lists (c : Criteria) (parts : List (Key × String)) : Prop where
  perm : (parts.map Prod.fst).Perm c.keys
  part : ∀ part ∈ parts, c.Part part.1 part.2

def named (part : Key × String) : String × String :=
  (part.1.name, part.2)

/-- The query strings that write criteria: a pair for each part that is present, in any order, with one `&` or more
between two of them, and perhaps a question mark in front. -/
inductive IsQuery (c : Criteria) (s : String) : Prop where
  | intro {parts : List (Key × String)} {pieces : List (List UInt8)} {mark body : List UInt8} (hparts : c.Lists parts)
      (hpieces : List.Forall₂ Text.WritesPair (parts.map named) pieces) (hbody : Text.Joined 0x26 pieces body)
      (hmark : mark = [] ∨ mark = [0x3F]) (hs : Text.utf8Bytes s = mark ++ body)

/-! ## Pairs for all parts -/

theorem mem_keys_iff : key ∈ c.keys ↔ c.has key = true := by
  rw [keys, List.mem_filter, and_iff_right key.mem_values]

theorem nodup_keys (c : Criteria) : c.keys.Nodup :=
  List.Nodup.filter c.has (by decide)

theorem named_mem_iff {value : String} : (key.name, value) ∈ parts.map named ↔ (key, value) ∈ parts := by
  rw [List.mem_map]
  constructor
  · rintro ⟨⟨other, v⟩, hmem, heq⟩
    rw [named, Prod.mk.injEq, Key.name_inj] at heq
    rw [← heq.1, ← heq.2]
    exact hmem
  · intro hmem
    exact ⟨_, hmem, rfl⟩

/-- A part that is present has a value. -/
theorem Lists.exists_part (h : c.Lists parts) (hkey : c.has key = true) :
    ∃ value, (key, value) ∈ parts ∧ c.Part key value := by
  have hmem : key ∈ parts.map Prod.fst := h.perm.mem_iff.mpr (mem_keys_iff.mpr hkey)
  rcases List.mem_map.mp hmem with ⟨⟨_, value⟩, hpart, rfl⟩
  exact ⟨value, hpart, h.part _ hpart⟩

/-- A text whose values are its own is found among the pairs. -/
theorem Lists.textIn (h : c.Lists parts) {text : Option String} (hhas : c.has key = text.isSome)
    (hpart : ∀ value, c.Part key value → text = some value) : TextIn (parts.map named) key text := by
  intro value
  rw [named_mem_iff]
  constructor
  · rintro rfl
    -- the value that is listed for the key is the text itself
    rcases h.exists_part hhas with ⟨other, hmem, hother⟩
    rw [Option.some.inj (hpart other hother)]
    exact hmem
  · intro hmem
    exact hpart value (h.part _ hmem)

/-- An age whose values spell it is found among the pairs. -/
theorem Lists.ageIn (h : c.Lists parts) {age : Option Int32} (hhas : c.has key = age.isSome)
    (hpart : ∀ value, c.Part key value → GivesAge value age) : AgeIn (parts.map named) key age where
  given value hmem := hpart value (h.part _ (named_mem_iff.mp hmem))
  absent habsent := by
    rw [← Option.not_isSome_iff_eq_none, ← hhas]
    intro hpresent
    rcases h.exists_part hpresent with ⟨value, hmem, -⟩
    exact habsent (List.mem_map_of_mem (named_mem_iff.mpr hmem))

/-- Pairs for all parts give the criteria. -/
theorem Lists.reads (h : c.Lists parts) : Reads (parts.map named) c where
  once key := by
    -- the names are those of the keys, which are listed once each
    have hnames : (parts.map named).map Prod.fst = (parts.map Prod.fst).map Key.name := by
      rw [List.map_map, List.map_map]
      rfl
    have hnodup : ((parts.map Prod.fst).map Key.name).Nodup :=
      (h.perm.nodup_iff.mpr c.nodup_keys).map fun _ _ => Key.name_inj.mp
    rw [hnames]
    exact List.nodup_iff_count_le_one.mp hnodup key.name
  username := h.textIn rfl fun | _, .username htext => htext
  teamName := h.textIn rfl fun | _, .teamName htext => htext
  minAge := h.ageIn rfl fun | _, .minAge hage hvalue => hage ▸ .number hvalue
  maxAge := h.ageIn rfl fun | _, .maxAge hage hvalue => hage ▸ .number hvalue

/-! ## Pairs in a query string -/

theorem isPlainKey_name (key : Key) : Text.IsPlainKey key.name := by
  show ∀ b ∈ Text.utf8Bytes key.name, b ∉ [0x26, 0x2B, 0x25, 0x3D]
  cases key <;> decide +kernel

/-- A written pair begins with a letter of its key. -/
theorem head?_of_writesPair {part : Key × String} {piece : List UInt8} (h : Text.WritesPair (named part) piece) :
    piece ≠ [] ∧ piece.head? ≠ some 0x3F := by
  rcases h with ⟨written, -, rfl⟩
  rcases part with ⟨key, value⟩
  -- the name of a key stands first, and it has no question mark
  have hkey : Text.utf8Bytes key.name ≠ [] ∧ (Text.utf8Bytes key.name).head? ≠ some 0x3F := by
    cases key <;> decide
  have hfront : (named (key, value)).1 = key.name := rfl
  rw [hfront, List.head?_append_of_ne_nil _ hkey.1]
  exact ⟨List.append_ne_nil_of_left_ne_nil hkey.1 _, hkey.2⟩

/-- Joined pairs do not begin with a question mark. -/
theorem head?_of_joined {pieces : List (List UInt8)} {body : List UInt8}
    (hpieces : List.Forall₂ Text.WritesPair (parts.map named) pieces) (hbody : Text.Joined 0x26 pieces body) :
    body.head? ≠ some 0x3F := by
  have hhead : ∀ piece ∈ pieces, piece ≠ [] ∧ piece.head? ≠ some 0x3F := by
    refine Text.forall_mem_of_forall₂ hpieces ?_
    intro pair hpair piece hpiece
    rcases List.mem_map.mp hpair with ⟨part, -, rfl⟩
    exact head?_of_writesPair hpiece
  -- the text begins with the first pair, if there is one
  cases hbody with
  | nil => exact nofun
  | single piece => exact (hhead _ (List.mem_singleton_self _)).2
  | cons more h =>
    rcases hhead _ (List.mem_cons_self ..) with ⟨hne, hfirst⟩
    rw [List.append_assoc, List.head?_append_of_ne_nil _ hne]
    exact hfirst

/-- The question mark in front is taken away, and nothing else. -/
theorem utf8Bytes_queryBody {s : String} {mark body : List UInt8} (hmark : mark = [] ∨ mark = [0x3F])
    (hbody : body.head? ≠ some 0x3F) (hs : Text.utf8Bytes s = mark ++ body) :
    Text.utf8Bytes (queryBody s) = body := by
  have hquestion : ∀ t, Text.utf8Bytes ("?" ++ t) = 0x3F :: Text.utf8Bytes t := fun t => Text.utf8Bytes_append "?" t
  rcases queryBody_spec s with ⟨-, hfront⟩ | ⟨hhead, hsame⟩
  · -- a question mark in front is not part of the pairs
    rw [hfront, hquestion] at hs
    rcases hmark with rfl | rfl
    · rw [List.nil_append] at hs
      rw [← hs] at hbody
      exact absurd rfl hbody
    · exact (List.cons.inj hs).2
  · rw [hsame, hs]
    rcases hmark with rfl | rfl
    · rfl
    · -- the text of these bytes would begin with a question mark
      have hchars : s.toList = '?' :: Text.decodeAfter none body := by
        rw [← Text.decodeUtf8_utf8Bytes s, hs, Text.decodeUtf8, String.toList_ofList]
        exact Text.decodeAfter_whole rfl body
      rw [hchars] at hhead
      exact absurd rfl hhead

theorem IsQuery.formPairs {s : String} (h : c.IsQuery s) :
    ∃ parts, c.Lists parts ∧ Text.formPairs (queryBody s) = parts.map named := by
  rcases h with @⟨parts, pieces, mark, body, hparts, hpieces, hbody, hmark, hs⟩
  have hbytes := utf8Bytes_queryBody hmark (head?_of_joined hpieces hbody) hs
  rw [← hbytes] at hbody
  refine ⟨parts, hparts, Text.formPairs_of_joined ?_ hpieces hbody⟩
  intro pair hpair
  rcases List.mem_map.mp hpair with ⟨part, -, rfl⟩
  exact isPlainKey_name part.1

/-! ## Writing criteria -/

/-- The decimal notation of a number spells it. -/
theorem spells_toString (n : Int) : Spells (toString n) n := by
  have hnatural : ∀ m : Nat, Text.IsNatural m.repr.toList m := by
    -- digits of a natural number come without a sign
    intro m
    rw [Nat.toList_repr]
    exact ⟨Nat.toDigits_ne_nil, fun d hd => Nat.isDigit_of_mem_toDigits (by decide) (by decide) hd,
      Nat.ofDigitChars_ten_toDigits⟩
  have hinteger : Text.IsInteger (toString n).toList n := by
    cases n with
    | ofNat m => exact .unsigned (hnatural m)
    | negSucc m =>
      have htext : (toString (Int.negSucc m)).toList = '-' :: (m + 1).repr.toList := String.toList_append
      rw [htext]
      exact .minus (hnatural (m + 1))
  exact ⟨[], _, [], by simp, nofun, hinteger, nofun⟩

/-- The value of a part, an age in decimal notation. -/
def valueText (c : Criteria) : Key → String
  | .username => c.username.getD ""
  | .teamName => c.teamName.getD ""
  | .minAge => toString (c.minAge.getD 0).toInt
  | .maxAge => toString (c.maxAge.getD 0).toInt

/-- A query string that writes the criteria: all parts that are present in their order, with all bytes escaped. -/
def toQuery (c : Criteria) : String :=
  "&".intercalate (c.keys.map fun key => key.name ++ "=" ++ Text.escaped (c.valueText key))

theorem part_valueText (hkey : c.has key = true) : c.Part key (c.valueText key) := by
  cases key
  all_goals
    rcases Option.isSome_iff_exists.mp hkey with ⟨value, hvalue⟩
    rw [valueText, hvalue, Option.getD_some]
  case username => exact .username hvalue
  case teamName => exact .teamName hvalue
  case minAge => exact .minAge hvalue (spells_toString value.toInt)
  case maxAge => exact .maxAge hvalue (spells_toString value.toInt)

/-- All criteria can be written. -/
theorem isQuery_toQuery (c : Criteria) : c.IsQuery c.toQuery := by
  let parts := c.keys.map fun key => (key, c.valueText key)
  let texts := c.keys.map fun key => key.name ++ "=" ++ Text.escaped (c.valueText key)
  -- each part that is present is written once, in the order of the keys
  have hparts : c.Lists parts := by
    constructor
    · have hkeys : parts.map Prod.fst = c.keys := by
        rw [List.map_map]
        exact List.map_id _
      rw [hkeys]
    · intro part hpart
      rcases List.mem_map.mp hpart with ⟨key, hkey, rfl⟩
      exact part_valueText (mem_keys_iff.mp hkey)
  -- a name needs no escape, and a value has all its bytes escaped
  have hpieces : List.Forall₂ Text.WritesPair (parts.map named) (texts.map Text.utf8Bytes) := by
    rw [List.map_map, List.map_map, List.forall₂_map_left_iff, List.forall₂_map_right_iff, List.forall₂_same]
    intro key _
    refine ⟨_, Text.writes_escaped (c.valueText key), ?_⟩
    have hequals : Text.utf8Bytes "=" = [0x3D] := by decide
    show Text.utf8Bytes (key.name ++ "=" ++ Text.escaped (c.valueText key)) = Text.utf8Bytes key.name ++ 0x3D :: _
    rw [Text.utf8Bytes_append, Text.utf8Bytes_append, hequals, List.append_assoc, List.singleton_append]
  have hbody : Text.utf8Bytes c.toQuery = [] ++ Text.utf8Bytes ("&".intercalate texts) := by
    rw [toQuery, List.nil_append]
  exact .intro hparts hpieces (Text.joined_intercalate texts) (.inl rfl) hbody

/-- All criteria can be written as a query string, with ages in decimal notation among other numerals.  Every query
string that writes criteria is read as these, whatever texts they hold: in any order of the pairs, with any number of
`&` between two of them, with or without a question mark in front, and in whichever way the bytes of values are
written. -/
theorem ofQuery_written (c : Criteria) :
    (∃ s, c.IsQuery s) ∧ (∀ age : Int32, Spells (toString age.toInt) age.toInt) ∧
      ∀ s, c.IsQuery s → ofQuery s = .ok c := by
  refine ⟨⟨c.toQuery, isQuery_toQuery c⟩, fun age => spells_toString age.toInt, ?_⟩
  intro s hs
  rcases hs.formPairs with ⟨parts, hparts, hpairs⟩
  rw [ofQuery, hpairs, ofPairs_eq_ok_iff]
  exact hparts.reads

/-- A text with all the marks and a character of two bytes, an empty text and a negative age. -/
theorem ofQuery_written_marks :
    let c : Criteria := ⟨some "=?+%&é ", some "", some (-5), none⟩
    let s := "?ageGoe=-%35&&username==?%2B%25%26%C3%a9+&teamName="
    c.IsQuery s ∧ ofQuery s = .ok c := by
  intro c s
  -- the values that the pairs of the query string stand for, in their order
  let parts : List (Key × String) := [(.minAge, "-5"), (.username, "=?+%&é "), (.teamName, "")]
  have hparts : c.Lists parts := by
    have hdecimal : toString (-5 : Int32).toInt = "-5" := by decide
    refine ⟨by decide, ?_⟩
    simp only [parts, List.forall_mem_cons]
    exact ⟨.minAge rfl (hdecimal ▸ spells_toString _), .username rfl, .teamName rfl, List.forall_mem_nil _⟩
  have hage : Text.WritesPair ("ageGoe", "-5") (Text.utf8Bytes "ageGoe=-%35") :=
    ⟨Text.utf8Bytes "-%35", .literal (by decide) (.escape (.inl rfl) (.inl rfl) .nil), by decide⟩
  have hname : Text.WritesPair ("username", "=?+%&é ") (Text.utf8Bytes "username==?%2B%25%26%C3%a9+") :=
    ⟨Text.utf8Bytes "=?%2B%25%26%C3%a9+",
      .literal (by decide) (.literal (by decide) (.escape (.inl rfl) (.inr rfl) (.escape (.inl rfl) (.inl rfl)
        (.escape (.inl rfl) (.inl rfl) (.escape (.inr rfl) (.inl rfl) (.escape (.inl rfl) (.inl rfl) (.plus .nil))))))),
      by decide⟩
  have hteam : Text.WritesPair ("teamName", "") (Text.utf8Bytes "teamName=") := ⟨[], .nil, by decide⟩
  have hquery : c.IsQuery s :=
    .intro hparts (.cons hage (.cons hname (.cons hteam .nil))) (.cons 1 (.cons 0 (.single _))) (.inr rfl) (by decide)
  exact ⟨hquery, (ofQuery_written c).2.2 s hquery⟩

end Roster.Criteria
