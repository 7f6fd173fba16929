import Roster.Json.Member
import Roster.Json.Page
import Roster.Proofs.Json.Criteria
import Roster.Proofs.Json.Order
import Roster.Proofs.Json.Predicate

/-! # Records as documents

Criteria, sort terms, page requests, pages and the records of the roster are read back from their documents, in whatever
order the entries of the objects in them stand.  Some leave out what is missing and others write null for it, and each is
read accordingly.

* `Criteria.ofJson_of_reordered`: criteria, whose ages may also be written as texts.
* `Member.readsBack`, `PageRequest.readsBack` and their like: one round trip for each kind of record.
* `records_readBack`: every record is read back, whether it leaves out what is missing or writes null for it.
-/

namespace Roster

open Json (Found ReadsBack Reordered)

/-! ## Criteria -/

namespace Criteria

def entries (c : Criteria) : List (String × Json) :=
  Json.entryOf Key.username.name .text c.username ++ Json.entryOf Key.teamName.name .text c.teamName ++
    Json.entryOf Key.minAge.name .ofInt32 c.minAge ++ Json.entryOf Key.maxAge.name .ofInt32 c.maxAge

/-- What the document of criteria has for a part. -/
def written (c : Criteria) : Key → Option Json
  | .username => c.username.map .text
  | .teamName => c.teamName.map .text
  | .minAge => c.minAge.map .ofInt32
  | .maxAge => c.maxAge.map .ofInt32

variable {c : Criteria} {j : Json}

theorem toJson_eq (c : Criteria) : c.toJson = .object c.entries := rfl

theorem nodup_names_entries (c : Criteria) : (c.entries.map Prod.fst).Nodup := by
  have hkeys : ([Key.username.name] ++ [Key.teamName.name] ++ [Key.minAge.name] ++ [Key.maxAge.name]).Nodup := by
    decide
  -- whatever is left out, the names that remain are some of the four
  have hnames := (((Json.names_entryOf Key.username.name .text c.username).append
    (Json.names_entryOf Key.teamName.name .text c.teamName)).append
    (Json.names_entryOf Key.minAge.name .ofInt32 c.minAge)).append
    (Json.names_entryOf Key.maxAge.name .ofInt32 c.maxAge)
  rw [← List.map_append, ← List.map_append, ← List.map_append] at hnames
  exact hkeys.sublist hnames

theorem lookup_entryOf_key {α : Type} (key other : Key) (write : α → Json) (o : Option α) :
    (Json.entryOf other.name write o).lookup key.name = if key = other then o.map write else none := by
  by_cases h : key = other
  · rw [if_pos h, h, Json.lookup_entryOf]
  · rw [if_neg h, Json.lookup_entryOf_of_ne (mt Key.name_inj.mp h)]

/-- Under the name of a part stands that part, if it is present. -/
theorem lookup_entries (c : Criteria) (key : Key) : c.entries.lookup key.name = c.written key := by
  simp only [entries, List.lookup_append, lookup_entryOf_key]
  cases key <;> simp [written]

/-- A part that can be read back is read as it was written, or found to be absent. -/
theorem partOf_of_found {α : Type} {write : α → Json} {read : Json → Except Json.ReadFault (Option α)}
    {o : Option α} {key : Key} {entries : List (String × Json)}
    (hread : ∀ a j, Reordered (write a) j → read j = .ok (some a)) (h : Found entries key.name (o.map write))
    (place : Nat) : partOf (.byName entries) place key read = .ok o := by
  rw [partOf, Json.get?_byName]
  -- a part that is left out is absent; one that is written is read as it was written
  rcases o with _ | a
  · rw [h.of_none]
  · rcases h.of_some with ⟨j, hlookup, hj⟩
    rw [hlookup]
    exact hread a j hj

theorem textOfJson_of_reordered (s : String) (j : Json) (h : Reordered (.text s) j) : textOfJson j = .ok (some s) := by
  rw [h.of_text]
  rfl

/-- An age is written as a number, and read as one of 64 bits at first. -/
theorem ageOfJson_of_reordered (age : Int32) (j : Json) (h : Reordered (.ofInt32 age) j) :
    ageOfJson j = .ok (some age) := by
  have hlong : Integer.to64? age.toInt = some age.toInt64 := Integer.to64?_eq_some_iff.mpr (Int32.toInt_toInt64 age)
  have hage : ageOfInt age.toInt64 = .ok age := ageOfInt_of_fits (Int32.toInt_toInt64 age).symm
  rw [h.of_int, ageOfJson, hlong]
  simp only [hage]
  rfl

/-- Criteria are read back from their document. -/
theorem ofJson_of_reordered (h : Reordered c.toJson j) : ofJson j = .ok c := by
  rw [toJson_eq] at h
  rcases h.of_object (nodup_names_entries c) with ⟨entries', rfl, hfound⟩
  -- under each name stands what was written for that part
  have hparts : ∀ key : Key, Found entries' key.name (c.written key) := by
    intro key
    rw [← lookup_entries]
    exact hfound key.name
  rw [ofJson_object_eq_ok_iff, forall_partIs_iff]
  exact ⟨partOf_of_found textOfJson_of_reordered (hparts .username) 0,
    partOf_of_found textOfJson_of_reordered (hparts .teamName) 1,
    partOf_of_found ageOfJson_of_reordered (hparts .minAge) 2,
    partOf_of_found ageOfJson_of_reordered (hparts .maxAge) 3⟩

end Criteria

/-! ## Teams and members -/

theorem Team.readsBack : ReadsBack Team.toJson Team.ofJson? := by
  intro team j h
  have hnames : ["id", "name"].Nodup := by decide
  rcases h.of_object hnames with ⟨entries, rfl, hfound⟩
  have hid := Json.required_of_found 0 Json.readsBack_int64 (hfound "id")
  have hname := Json.required_of_found 1 Json.readsBack_text (hfound "name")
  simp only [Team.ofJson?, Json.fields?, hid, hname, Option.bind_eq_bind, Option.bind_some]
  rfl

theorem Summary.readsBack : ReadsBack Summary.toJson Summary.ofJson? := by
  intro summary j h
  have hnames : ["username", "age"].Nodup := by decide
  rcases h.of_object hnames with ⟨entries, rfl, hfound⟩
  have husername := Json.required_of_found 0 Json.readsBack_text (hfound "username")
  have hage := Json.required_of_found 1 Json.readsBack_int32 (hfound "age")
  simp only [Summary.ofJson?, Json.fields?, husername, hage, Option.bind_eq_bind, Option.bind_some]
  rfl

theorem Member.readsBack : ReadsBack Member.toJson Member.ofJson? := by
  intro member j h
  rcases h.of_object (Json.nodup_append_entryOf (by simp) _ _) with ⟨entries, rfl, hfound⟩
  have hid := Json.required_of_found 0 Json.readsBack_int64 (hfound "id")
  have husername := Json.required_of_found 1 Json.readsBack_text (hfound "username")
  have hage := Json.required_of_found 2 Json.readsBack_int32 (hfound "age")
  -- the team's id is the one entry that may be left out
  have hteam := hfound "teamId"
  rw [Json.lookup_append_entryOf rfl] at hteam
  have hteamId := Json.nullable_of_found 3 Json.readsBack_int64 Json.ofInt64_ne_null hteam
    (Json.written_or_missing .ofInt64 member.teamId)
  simp only [Member.ofJson?, Json.fields?, hid, husername, hage, hteamId, Option.bind_eq_bind, Option.bind_some]
  rfl

theorem NewMember.readsBack : ReadsBack NewMember.toJson NewMember.ofJson? := by
  intro member j h
  rcases h.of_object (Json.nodup_append_entryOf (by simp) _ _) with ⟨entries, rfl, hfound⟩
  have husername := Json.required_of_found 0 Json.readsBack_text (hfound "username")
  have hage := Json.required_of_found 1 Json.readsBack_int32 (hfound "age")
  have hteam := hfound "teamId"
  rw [Json.lookup_append_entryOf rfl] at hteam
  -- an entry that is left out stands for no team
  have hteamId := Json.withDefault_of_found 2 none
    (Json.readsBack_orNull Json.readsBack_int64 Json.ofInt64_ne_null) hteam (Json.written_or_missing .ofInt64 member.teamId)
  simp only [NewMember.ofJson?, Json.fields?, husername, hage, hteamId, Option.bind_eq_bind, Option.bind_some]
  rfl

theorem Entry.readsBack : ReadsBack Entry.toJson Entry.ofJson? := by
  intro entry j h
  have hnames : ["memberId", "username", "age", "teamId", "teamName"].Nodup := by decide
  rcases h.of_object hnames with ⟨entries, rfl, hfound⟩
  have hmemberId := Json.required_of_found 0 Json.readsBack_int64 (hfound "memberId")
  have husername := Json.required_of_found 1 Json.readsBack_text (hfound "username")
  have hage := Json.required_of_found 2 Json.readsBack_int32 (hfound "age")
  -- null is written for what is missing, so that no entry is left out
  have hteamId := Json.nullable_of_found 3 Json.readsBack_int64 Json.ofInt64_ne_null (hfound "teamId") (.inl rfl)
  have hteamName := Json.nullable_of_found 4 Json.readsBack_text Json.text_ne_null (hfound "teamName") (.inl rfl)
  simp only [Entry.ofJson?, Json.fields?, hmemberId, husername, hage, hteamId, hteamName, Option.bind_eq_bind,
    Option.bind_some]
  rfl

/-! ## Sort terms and pages -/

theorem Direction.named?_name (direction : Direction) : Direction.named? direction.name = some direction := by
  cases direction <;> decide

theorem NullPlacement.named?_name (placement : NullPlacement) :
    NullPlacement.named? placement.name = some placement := by
  cases placement <;> decide

theorem SortTerm.readsBack : ReadsBack SortTerm.toJson SortTerm.ofJson? := by
  intro term j h
  rcases h.of_object (Json.nodup_append_entryOf (by simp) _ _) with ⟨entries, rfl, hfound⟩
  -- a choice is read by its name
  have hfield := Json.required_of_found 0 (Json.readsBack_choice Field.named?_name) (hfound "field")
  have hdirection := Json.withDefault_of_found 1 .asc (Json.readsBack_choice Direction.named?_name)
    (hfound "direction") (.inl rfl)
  have hplacement := hfound "nulls"
  rw [Json.lookup_append_entryOf rfl] at hplacement
  have hnulls := Json.withDefault_of_found 2 none
    (Json.readsBack_orNull (Json.readsBack_choice NullPlacement.named?_name) fun _ => nofun) hplacement
    (Json.written_or_missing _ term.nulls)
  simp only [SortTerm.ofJson?, Json.fields?, hfield, hdirection, hnulls, Option.bind_eq_bind, Option.bind_some]
  rfl

namespace PageRequest

/-- The sort terms of a request, unless there are none. -/
def sort? (request : PageRequest) : Option (List SortTerm) :=
  if request.sort = [] then none else some request.sort

def sortToJson (terms : List SortTerm) : Json :=
  .list (terms.map SortTerm.toJson)

variable {request : PageRequest}

theorem sort?_eq_none_iff : request.sort? = none ↔ request.sort = [] := by
  unfold sort?
  split
  case isTrue hnil => exact ⟨fun _ => hnil, fun _ => rfl⟩
  case isFalse hsort => exact ⟨nofun, fun hnil => absurd hnil hsort⟩

theorem sort?_eq_some (h : request.sort ≠ []) : request.sort? = some request.sort := if_neg h

theorem toJson_eq (request : PageRequest) :
    request.toJson = .object ([("offset", .ofInt64 request.offset), ("limit", .ofInt64 request.limit)] ++
      Json.entryOf "sort" sortToJson request.sort?) := by
  unfold toJson sort?
  rcases request.sort with _ | ⟨term, terms⟩
  · rfl
  · rfl

/-- Sort terms that are left out are none. -/
theorem sort_written_or_missing (request : PageRequest) :
    request.sort?.map sortToJson = some (sortToJson request.sort) ∨
      request.sort?.map sortToJson = none ∧ request.sort = [] := by
  by_cases hnil : request.sort = []
  · rw [sort?_eq_none_iff.mpr hnil]
    exact .inr ⟨rfl, hnil⟩
  · rw [sort?_eq_some hnil]
    exact .inl rfl

theorem readsBack : ReadsBack toJson ofJson? := by
  intro request j h
  rw [toJson_eq] at h
  rcases h.of_object (Json.nodup_append_entryOf (by simp) _ _) with ⟨entries, rfl, hfound⟩
  have hoffset := Json.withDefault_of_found 0 defaultOffset Json.readsBack_int64 (hfound "offset") (.inl rfl)
  have hlimit := Json.withDefault_of_found 1 defaultLimit Json.readsBack_int64 (hfound "limit") (.inl rfl)
  -- a request without sort terms has no entry for them, and no terms are the default
  have hterms := hfound "sort"
  rw [Json.lookup_append_entryOf rfl] at hterms
  have hsort := Json.withDefault_of_found 2 [] (Json.readsBack_list SortTerm.readsBack) hterms
    request.sort_written_or_missing
  simp only [ofJson?, Json.fields?, hoffset, hlimit, hsort, Option.bind_eq_bind, Option.bind_some]
  rfl

end PageRequest

/-- A page is read back when its rows are. -/
theorem Page.readsBack {α : Type} {write : α → Json} {read : Json → Option α} (hread : ReadsBack write read) :
    ReadsBack (Page.toJson write) (Page.ofJson? read) := by
  intro page j h
  have hnames : ["content", "total", "offset", "limit"].Nodup := by decide
  rcases h.of_object hnames with ⟨entries, rfl, hfound⟩
  -- however the rows are written, the list of them is read if each of them is
  have hcontent := Json.required_of_found 0 (Json.readsBack_list hread) (hfound "content")
  have htotal := Json.required_of_found 1 Json.readsBack_int64 (hfound "total")
  have hoffset := Json.required_of_found 2 Json.readsBack_int64 (hfound "offset")
  have hlimit := Json.required_of_found 3 Json.readsBack_int64 (hfound "limit")
  simp only [Page.ofJson?, Json.fields?, hcontent, htotal, hoffset, hlimit, Option.bind_eq_bind, Option.bind_some]
  rfl

/-! ## What is missing -/

theorem Criteria.omits_toJson_iff (c : Criteria) (key : Key) : c.toJson.Omits key.name ↔ c.written key = none := by
  rw [toJson_eq, Json.omits_object_iff, lookup_entries]

theorem SortTerm.omits_toJson_iff (term : SortTerm) : term.toJson.Omits "nulls" ↔ term.nulls = none :=
  Json.omits_append_entryOf_iff rfl term.nulls

theorem PageRequest.omits_toJson_iff (request : PageRequest) : request.toJson.Omits "sort" ↔ request.sort = [] := by
  rw [toJson_eq, Json.omits_append_entryOf_iff rfl, sort?_eq_none_iff]

theorem Member.omits_toJson_iff (member : Member) : member.toJson.Omits "teamId" ↔ member.teamId = none :=
  Json.omits_append_entryOf_iff rfl member.teamId

theorem NewMember.omits_toJson_iff (member : NewMember) : member.toJson.Omits "teamId" ↔ member.teamId = none :=
  Json.omits_append_entryOf_iff rfl member.teamId

theorem Entry.hasNull_toJson_iff (entry : Entry) :
    (entry.toJson.HasNull "teamId" ↔ entry.teamId = none) ∧
      (entry.toJson.HasNull "teamName" ↔ entry.teamName = none) :=
  ⟨Json.hasNull_ofOption_iff Json.ofInt64_ne_null rfl, Json.hasNull_ofOption_iff Json.text_ne_null rfl⟩

/-- Criteria, sort terms, page requests, teams, members, new members, lines and summaries of the roster and pages of lines
are read back from their documents, and also when in any object of these the entries stand in another order.  What is
missing in criteria, sort terms, page requests and members is left out; in a line of the roster it is null. -/
theorem records_readBack :
    ((∀ (c : Criteria) (j : Json), Reordered c.toJson j → Criteria.ofJson j = .ok c) ∧
      ReadsBack SortTerm.toJson SortTerm.ofJson? ∧ ReadsBack PageRequest.toJson PageRequest.ofJson? ∧
      ReadsBack Team.toJson Team.ofJson? ∧ ReadsBack Member.toJson Member.ofJson? ∧
      ReadsBack NewMember.toJson NewMember.ofJson? ∧ ReadsBack Entry.toJson Entry.ofJson? ∧
      ReadsBack Summary.toJson Summary.ofJson? ∧ ReadsBack (Page.toJson Entry.toJson) (Page.ofJson? Entry.ofJson?)) ∧
    ((∀ (c : Criteria) (key : Criteria.Key), c.toJson.Omits key.name ↔ c.written key = none) ∧
      (∀ term : SortTerm, term.toJson.Omits "nulls" ↔ term.nulls = none) ∧
      (∀ request : PageRequest, request.toJson.Omits "sort" ↔ request.sort = []) ∧
      (∀ member : Member, member.toJson.Omits "teamId" ↔ member.teamId = none) ∧
      ∀ member : NewMember, member.toJson.Omits "teamId" ↔ member.teamId = none) ∧
    ∀ entry : Entry, (entry.toJson.HasNull "teamId" ↔ entry.teamId = none) ∧
      (entry.toJson.HasNull "teamName" ↔ entry.teamName = none) := by
  refine ⟨⟨?_, SortTerm.readsBack, PageRequest.readsBack, Team.readsBack, Member.readsBack, NewMember.readsBack,
    Entry.readsBack, Summary.readsBack, Page.readsBack Entry.readsBack⟩, ?_, Entry.hasNull_toJson_iff⟩
  · intro c j h
    exact Criteria.ofJson_of_reordered h
  · exact ⟨Criteria.omits_toJson_iff, SortTerm.omits_toJson_iff, PageRequest.omits_toJson_iff,
      Member.omits_toJson_iff, NewMember.omits_toJson_iff⟩

/-- Criteria without a team and ages in reverse order; a page with a member in a team and one in none. -/
theorem records_readBack_reversed :
    let criteria : Criteria := ⟨some "ada", none, some 30, none⟩
    let first : Entry := ⟨1, "ada", 36, some 2, some "core"⟩
    let second : Entry := ⟨3, "grace", 45, none, none⟩
    let page : Page Entry := ⟨[first, second], 12, 10, 2⟩
    let j : Json := .object [("limit", .int 2), ("offset", .int 10), ("total", .int 12), ("content", .list [
      .object [("teamName", .text "core"), ("teamId", .int 2), ("age", .int 36), ("username", .text "ada"),
        ("memberId", .int 1)],
      .object [("teamName", .null), ("teamId", .null), ("age", .int 45), ("username", .text "grace"),
        ("memberId", .int 3)]])]
    Criteria.ofJson (.object [("ageGoe", .int 30), ("username", .text "ada")]) = .ok criteria ∧
      Page.ofJson? Entry.ofJson? j = some page ∧ second.toJson.HasNull "teamName" := by
  intro criteria first second page j
  -- an unchanged value is a reordering of itself
  have hall : ∀ values : List Json, List.Forall₂ Reordered values values := by
    intro values
    exact List.forall₂_same.mpr fun value _ => .same value
  have hcriteria : Reordered criteria.toJson (.object [("ageGoe", .int 30), ("username", .text "ada")]) :=
    @Reordered.object [("username", .text "ada"), ("ageGoe", .int 30)] _ _ (hall _) (List.reverse_perm _).symm
  have hfirst : Reordered first.toJson (.object [("teamName", .text "core"), ("teamId", .int 2), ("age", .int 36),
      ("username", .text "ada"), ("memberId", .int 1)]) := .object (hall _) (List.reverse_perm _).symm
  have hsecond : Reordered second.toJson (.object [("teamName", .null), ("teamId", .null), ("age", .int 45),
      ("username", .text "grace"), ("memberId", .int 3)]) := .object (hall _) (List.reverse_perm _).symm
  have hpage : Reordered (page.toJson Entry.toJson) j :=
    .object (.cons (.list (.cons hfirst (.cons hsecond .nil))) (hall _)) (List.reverse_perm _).symm
  rcases records_readBack with ⟨⟨hofJson, -, -, -, -, -, -, -, hread⟩, -, hmissing⟩
  exact ⟨hofJson criteria _ hcriteria, hread page j hpage, (hmissing second).2.mpr rfl⟩

end Roster
