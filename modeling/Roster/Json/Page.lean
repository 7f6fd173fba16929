import Roster.Json.Basic
import Roster.Page

/-! # Sort terms and pages as documents

A sort term may leave out its direction and its placement of empty values, a page request each of its parts; a
page has all its parts.
-/

namespace Roster

namespace SortTerm

/-- The sort term that a document holds; it ascends unless it says otherwise. -/
def ofJson? (j : Json) : Option SortTerm := do
  let fields ← j.fields? 3
  let field ← fields.required 0 "field" fun j => j.choice?.bind Field.named?
  let direction ← fields.withDefault 1 "direction" .asc fun j => j.choice?.bind Direction.named?
  let nulls ← fields.withDefault 2 "nulls" none (Json.orNull? fun j => j.choice?.bind NullPlacement.named?)
  return ⟨field, direction, nulls⟩

def toJson (term : SortTerm) : Json :=
  .object ([("field", .text term.field.name), ("direction", .text term.direction.name)] ++
    Json.entryOf "nulls" (fun placement => .text placement.name) term.nulls)

end SortTerm

namespace PageRequest

def ofJson? (j : Json) : Option PageRequest := do
  let fields ← j.fields? 3
  let offset ← fields.withDefault 0 "offset" defaultOffset Json.int64?
  let limit ← fields.withDefault 1 "limit" defaultLimit Json.int64?
  let sort ← fields.withDefault 2 "sort" [] (Json.list? SortTerm.ofJson?)
  return ⟨offset, limit, sort⟩

/-- The page request as document; a request without sort terms has no entry for them. -/
def toJson (request : PageRequest) : Json :=
  .object ([("offset", .ofInt64 request.offset), ("limit", .ofInt64 request.limit)] ++
    if request.sort.isEmpty then [] else [("sort", .list (request.sort.map SortTerm.toJson))])

end PageRequest

namespace Page

variable {α : Type}

/-- The page that a document holds, when the rows can each be read. -/
def ofJson? (read : Json → Option α) (j : Json) : Option (Page α) := do
  let fields ← j.fields? 4
  let content ← fields.required 0 "content" (Json.list? read)
  let total ← fields.required 1 "total" Json.int64?
  let offset ← fields.required 2 "offset" Json.int64?
  let limit ← fields.required 3 "limit" Json.int64?
  return ⟨content, total, offset, limit⟩

def toJson (write : α → Json) (page : Page α) : Json :=
  .object [("content", .list (page.content.map write)), ("total", .ofInt64 page.total),
    ("offset", .ofInt64 page.offset), ("limit", .ofInt64 page.limit)]

end Page

end Roster
