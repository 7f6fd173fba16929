import Roster.Error
import Roster.Integer
import Roster.Sort

/-! # Pages

Which stretch of a result a caller asks for and what comes back.  All numbers are 64-bit integers; an offset that
would pass the bounds stays at the bound.
-/

namespace Roster

/-- A stretch of an ordered result: how many rows to skip, how many to return at most, and the ordering. -/
structure PageRequest where
  offset : Int64
  limit : Int64
  sort : List SortTerm
deriving Repr, DecidableEq

namespace PageRequest

def defaultOffset : Int64 := 0

def defaultLimit : Int64 := 20

/-- The request that gives nothing. -/
def standard : PageRequest :=
  ⟨defaultOffset, defaultLimit, []⟩

/-- The request for a page, counted from zero, when every page has `size` rows. -/
def ofNumber (number size : Int64) : PageRequest :=
  ⟨Integer.mulSat number size, size, []⟩

/-- The request for another stretch in the same ordering. -/
def withStretch (request : PageRequest) (offset limit : Int64) : PageRequest :=
  { request with offset := offset, limit := limit }

/-- The request with one more sort term, which decides after those before it. -/
def sortedBy (request : PageRequest) (term : SortTerm) : PageRequest :=
  { request with sort := request.sort ++ [term] }

/-- A request skips no negative number of rows and returns at least one. -/
def check (request : PageRequest) : Except PageFault Unit :=
  if request.offset < 0 then .error (.negativeOffset request.offset)
  else if request.limit ≤ 0 then .error (.noLimit request.limit)
  else .ok ()

end PageRequest

/-- A stretch of a result, with the size of the whole result. -/
structure Page (α : Type) where
  content : List α
  total : Int64
  offset : Int64
  limit : Int64
deriving Repr, DecidableEq

namespace Page

variable {α : Type}

def ofRequest (content : List α) (total : Int64) (request : PageRequest) : Page α :=
  ⟨content, total, request.offset, request.limit⟩

/-- The number of the page, counted from zero. -/
def number (page : Page α) : Int64 :=
  if page.limit ≤ 0 then 0 else page.offset / page.limit

/-- How many pages the whole result has; the last one may be short. -/
def totalPages (page : Page α) : Int64 :=
  if page.limit ≤ 0 then 0
  else page.total / page.limit + (if page.total % page.limit = 0 then 0 else 1)

/-- Whether rows follow those of this page. -/
def hasNext (page : Page α) : Bool :=
  Integer.addSat page.offset (Integer.ofCount page.content.length) < page.total

end Page

end Roster
