import Roster.Json.Criteria
import Roster.Proofs.Criteria.Query
import Roster.Proofs.Json.Basic

/-! # Criteria as documents

A document is read part by part, and it gives criteria when all parts can be read.  When all parts but an age can be
read, the age alone decides what becomes of the document.

* `Criteria.PartIs`: what a part of a document is read as.
* `Criteria.ofJson_object_eq_ok_iff`, `Criteria.ofJson_list_eq_ok_iff`: which documents give criteria.
* `Criteria.Fills`: one document is another with a value put in for a key.
* `Criteria.ofJson_filled`: what becomes of a document when a value for an age is put in.
-/

namespace Roster

theorem bind_eq_ok_iff {ε α β : Type} {result : Except ε α} {f : α → Except ε β} {b : β} :
    result >>= f = .ok b ↔ ∃ a, result = .ok a ∧ f a = .ok b := by
  cases result with
  | error e => simp [bind, Except.bind]
  | ok a => simp [bind, Except.bind]

namespace Criteria

/-- The criteria with another age for a key of an age. -/
def withAge (c : Criteria) (key : Key) (age : Option Int32) : Criteria :=
  match key with
  | .minAge => { c with minAge := age }
  | .maxAge => { c with maxAge := age }
  | .username | .teamName => c

/-- The place of a part in documents that list the parts. -/
def Key.place : Key → Nat
  | .username => 0
  | .teamName => 1
  | .minAge => 2
  | .maxAge => 3

/-- The part of the document is read as that of the criteria. -/
def PartIs (fields : Json.Fields) (c : Criteria) : Key → Prop
  | .username => partOf fields 0 .username textOfJson = .ok c.username
  | .teamName => partOf fields 1 .teamName textOfJson = .ok c.teamName
  | .minAge => partOf fields 2 .minAge ageOfJson = .ok c.minAge
  | .maxAge => partOf fields 3 .maxAge ageOfJson = .ok c.maxAge

variable {key : Key} {c : Criteria} {fields fields' : Json.Fields} {entries : List (String × Json)} {items : List Json}

/-! ## Parts -/

/-- A part depends on the value for its key alone. -/
theorem partOf_congr {α : Type} {place : Nat} (hget : fields'.get? place key.name = fields.get? place key.name)
    (read : Json → Except Json.ReadFault (Option α)) : partOf fields' place key read = partOf fields place key read := by
  rw [partOf, partOf, hget]

theorem PartIs.congr (h : PartIs fields c key)
    (hget : fields'.get? key.place key.name = fields.get? key.place key.name) : PartIs fields' c key := by
  cases key with
  | username | teamName => exact (partOf_congr hget textOfJson).trans h
  | minAge | maxAge => exact (partOf_congr hget ageOfJson).trans h

theorem forall_partIs_iff : (∀ key, PartIs fields c key) ↔
    partOf fields 0 .username textOfJson = .ok c.username ∧ partOf fields 1 .teamName textOfJson = .ok c.teamName ∧
      partOf fields 2 .minAge ageOfJson = .ok c.minAge ∧ partOf fields 3 .maxAge ageOfJson = .ok c.maxAge := by
  constructor
  · intro h
    exact ⟨h .username, h .teamName, h .minAge, h .maxAge⟩
  · rintro ⟨husername, hteamName, hminAge, hmaxAge⟩ key
    -- one key for each place
    cases key with
    | username => exact husername
    | teamName => exact hteamName
    | minAge => exact hminAge
    | maxAge => exact hmaxAge

/-- An object gives criteria when all parts can be read. -/
theorem ofJson_object_eq_ok_iff :
    ofJson (.object entries) = .ok c ↔ ∀ key, PartIs (.byName entries) c key := by
  rw [forall_partIs_iff, ofJson]
  -- the parts are read in another order than that in which they are written
  simp only [bind_eq_ok_iff]
  constructor
  · rintro ⟨minAge, hminAge, maxAge, hmaxAge, teamName, hteamName, username, husername, heq⟩
    cases heq
    exact ⟨husername, hteamName, hminAge, hmaxAge⟩
  · rintro ⟨husername, hteamName, hminAge, hmaxAge⟩
    exact ⟨_, hminAge, _, hmaxAge, _, hteamName, _, husername, rfl⟩

/-- A list gives criteria when all parts can be read and there is nothing more in it. -/
theorem ofJson_list_eq_ok_iff :
    ofJson (.list items) = .ok c ↔ (∀ key, PartIs (.byPlace items) c key) ∧ items.length ≤ 4 := by
  have hfits : (Json.Fields.byPlace items).fits 4 = true ↔ items.length ≤ 4 := decide_eq_true_iff
  rw [forall_partIs_iff, ofJson, ← hfits]
  simp only [bind_eq_ok_iff]
  constructor
  -- a list may be too short for some part, but never too long
  · rintro ⟨username, husername, teamName, hteamName, minAge, hminAge, maxAge, hmaxAge, heq⟩
    split at heq
    case isTrue hlength =>
      cases heq
      exact ⟨⟨husername, hteamName, hminAge, hmaxAge⟩, hlength⟩
    case isFalse => cases heq
  · rintro ⟨⟨husername, hteamName, hminAge, hmaxAge⟩, hlength⟩
    exact ⟨_, husername, _, hteamName, _, hminAge, _, hmaxAge, if_pos hlength⟩

/-! ## An age among other parts -/

/-- When all other parts of an object can be read, the age decides what becomes of it. -/
theorem ofJson_object_of_others (hkey : key.IsAge) (hothers : ∀ other, other ≠ key → PartIs (.byName entries) c other) :
    ofJson (.object entries) = (partOf (.byName entries) key.place key ageOfJson).map (c.withAge key) := by
  -- either age; the other three parts are read as before, and what is read for this one decides
  rcases hkey with rfl | rfl
  · have husername : partOf _ 0 .username textOfJson = .ok c.username := hothers .username (by decide)
    have hteamName : partOf _ 1 .teamName textOfJson = .ok c.teamName := hothers .teamName (by decide)
    have hmaxAge : partOf _ 3 .maxAge ageOfJson = .ok c.maxAge := hothers .maxAge (by decide)
    show _ = (partOf (.byName entries) 2 .minAge ageOfJson).map (c.withAge .minAge)
    simp only [ofJson, husername, hteamName, hmaxAge]
    cases partOf (.byName entries) 2 .minAge ageOfJson <;> rfl
  · have husername : partOf _ 0 .username textOfJson = .ok c.username := hothers .username (by decide)
    have hteamName : partOf _ 1 .teamName textOfJson = .ok c.teamName := hothers .teamName (by decide)
    have hminAge : partOf _ 2 .minAge ageOfJson = .ok c.minAge := hothers .minAge (by decide)
    show _ = (partOf (.byName entries) 3 .maxAge ageOfJson).map (c.withAge .maxAge)
    simp only [ofJson, husername, hteamName, hminAge]
    cases partOf (.byName entries) 3 .maxAge ageOfJson <;> rfl

/-- The same for a list, when there is nothing more in it. -/
theorem ofJson_list_of_others (hkey : key.IsAge) (hothers : ∀ other, other ≠ key → PartIs (.byPlace items) c other)
    (hlength : items.length ≤ 4) :
    ofJson (.list items) = (partOf (.byPlace items) key.place key ageOfJson).map (c.withAge key) := by
  have hfits : (Json.Fields.byPlace items).fits 4 = true := decide_eq_true hlength
  -- the same for items at their places
  rcases hkey with rfl | rfl
  · have husername : partOf _ 0 .username textOfJson = .ok c.username := hothers .username (by decide)
    have hteamName : partOf _ 1 .teamName textOfJson = .ok c.teamName := hothers .teamName (by decide)
    have hmaxAge : partOf _ 3 .maxAge ageOfJson = .ok c.maxAge := hothers .maxAge (by decide)
    show _ = (partOf (.byPlace items) 2 .minAge ageOfJson).map (c.withAge .minAge)
    simp only [ofJson, husername, hteamName, hmaxAge, hfits]
    cases partOf (.byPlace items) 2 .minAge ageOfJson <;> rfl
  · have husername : partOf _ 0 .username textOfJson = .ok c.username := hothers .username (by decide)
    have hteamName : partOf _ 1 .teamName textOfJson = .ok c.teamName := hothers .teamName (by decide)
    have hminAge : partOf _ 2 .minAge ageOfJson = .ok c.minAge := hothers .minAge (by decide)
    show _ = (partOf (.byPlace items) 3 .maxAge ageOfJson).map (c.withAge .maxAge)
    simp only [ofJson, husername, hteamName, hminAge, hfits]
    cases partOf (.byPlace items) 3 .maxAge ageOfJson <;> rfl

/-! ## A value that is put in -/

/-- The second document is the first with a value put in for a key: an entry of an object that had none under that name,
anywhere among the others, or an item of a list at the place of the key, where null stood. -/
inductive Fills (key : Key) (value : Json) : Json → Json → Prop where
  | object {before after : List (String × Json)} (h : key.name ∉ (before ++ after).map Prod.fst) :
      Fills key value (.object (before ++ after)) (.object (before ++ (key.name, value) :: after))
  | list {before after : List Json} (h : before.length = key.place) :
      Fills key value (.list (before ++ .null :: after)) (.list (before ++ value :: after))

theorem Key.place_inj {k l : Key} : k.place = l.place ↔ k = l := by
  cases k <;> cases l <;> decide

/-- The value for an age decides what becomes of a document that gives criteria without it. -/
theorem ofJson_filled {bare filled value : Json} (hkey : key.IsAge) (h : Fills key value bare filled)
    (hbare : ofJson bare = .ok c) : ofJson filled = (ageOfJson value).map (c.withAge key) := by
  cases h with
  | @object before after hnew =>
    rw [ofJson_object_eq_ok_iff] at hbare
    -- an entry of another name is found as if the new one was not there
    have hothers : ∀ other, other ≠ key → PartIs (.byName (before ++ (key.name, value) :: after)) c other := by
      intro other hne
      exact (hbare other).congr (Json.lookup_put_of_ne (mt Key.name_inj.mp hne) before after)
    rw [ofJson_object_of_others hkey hothers, partOf, Json.Fields.get?, Json.lookup_put hnew]
  | @list before after hplace =>
    rw [ofJson_list_eq_ok_iff] at hbare
    rcases hbare with ⟨hparts, hlength⟩
    -- an item at another place is found as if null still stood there
    have hothers : ∀ other, other ≠ key → PartIs (.byPlace (before ++ value :: after)) c other := by
      intro other hne
      have hplaces : other.place ≠ before.length := hplace ▸ mt Key.place_inj.mp hne
      exact (hparts other).congr (Json.getElem?_put_of_ne hplaces after value .null)
    have hsame : (before ++ value :: after).length = (before ++ Json.null :: after).length := by
      rw [List.length_append, List.length_append, List.length_cons, List.length_cons]
    rw [ofJson_list_of_others hkey hothers (hsame ▸ hlength), partOf, Json.Fields.get?, ← hplace,
      Json.getElem?_put]

end Criteria

end Roster
