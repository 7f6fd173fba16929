import Mathlib.Data.List.Nodup
import Roster.Member
import Roster.Sort

/-! # The order of rows

What sort terms say about two rows.  Terms are compared from left to right, and the first one that tells the rows apart
decides.  How texts compare is a parameter, since it depends on the database.

* `SortTerm.order`: one term, with the empty values of a field before or after all others.
* `rowOrder`: terms in turn.  It is a total preorder, whatever the terms.
* `rowOrder_append_of_ne_eq`: further terms only matter where the earlier ones leave rows equal.
* `Entry.order_ne_eq`: a term on the member's id tells all members apart.
* `Entry.existsUnique_sorted`: members who are told apart have one sorted sequence.
-/

namespace Roster

variable (collate : String → String → Ordering)

/-- Integers compare by size and texts as they are collated.  One field never has values of both kinds; integers then
come first. -/
def Value.order : Value → Value → Ordering
  | .int a, .int b => compare a.toInt b.toInt
  | .int _, .text _ => .lt
  | .text _, .int _ => .gt
  | .text a, .text b => collate a b

/-- Places empty values before or after all others, whose own order is given. -/
def NullPlacement.order {α : Type} (cmp : α → α → Ordering) : NullPlacement → Option α → Option α → Ordering
  | _, some a, some b => cmp a b
  | _, none, none => .eq
  | .first, none, some _ | .last, some _, none => .lt
  | .first, some _, none | .last, none, some _ => .gt

def Direction.order {α : Type} (cmp : α → α → Ordering) : Direction → α → α → Ordering
  | .asc => cmp
  | .desc => fun a b => cmp b a

/-- Where empty values go when the term does not say it. -/
def Direction.placement : Direction → NullPlacement
  | .asc => .last
  | .desc => .first

/-- The order of rows by one term. -/
def SortTerm.order (term : SortTerm) (r s : Record) : Ordering :=
  (term.nulls.getD term.direction.placement).order (term.direction.order (Value.order collate)) (r term.field)
    (s term.field)

/-- The order of rows by terms in turn. -/
def rowOrder : List SortTerm → Record → Record → Ordering
  | [] => fun _ _ => .eq
  | term :: terms => compareLex (term.order collate) (rowOrder terms)

/-! ## Total preorders -/

section Preorder

variable [Std.TransCmp collate]

instance : Std.TransCmp (Value.order collate) where
  eq_swap {a b} := by
    cases a <;> cases b
    case int.int => exact Std.OrientedOrd.eq_swap
    case text.text => exact @Std.OrientedCmp.eq_swap _ collate _ _ _
    case int.text | text.int => rfl
  isLE_trans {a b c} hab hbc := by
    -- an integer after a text is the only pair that is out of order whatever the values
    cases a <;> cases b <;> cases c
    case int.int.int => exact Std.TransOrd.isLE_trans hab hbc
    case text.text.text => exact @Std.TransCmp.isLE_trans _ collate _ _ _ _ hab hbc
    case int.int.text | int.text.text => rfl
    case text.int.int | text.int.text => cases hab
    case int.text.int | text.text.int => cases hbc

instance {α : Type} (cmp : α → α → Ordering) [Std.TransCmp cmp] (placement : NullPlacement) :
    Std.TransCmp (placement.order cmp) where
  eq_swap {a b} := by
    cases a <;> cases b
    case some.some => exact @Std.OrientedCmp.eq_swap _ cmp _ _ _
    case none.none => rfl
    case none.some | some.none => cases placement <;> rfl
  isLE_trans {a b c} hab hbc := by
    -- empty values lie beside each other on one side of the others
    cases a <;> cases b <;> cases c
    case some.some.some => exact @Std.TransCmp.isLE_trans _ cmp _ _ _ _ hab hbc
    case none.none.none | none.some.none => rfl
    case none.none.some => exact hbc
    case some.none.none => exact hab
    case none.some.some => cases placement with | first => rfl | last => cases hab
    case some.some.none => cases placement with | first => cases hbc | last => rfl
    case some.none.some =>
      -- the empty value cannot be on both sides of the others
      cases placement with
      | first => cases hab
      | last => cases hbc

instance {α : Type} (cmp : α → α → Ordering) [Std.TransCmp cmp] (direction : Direction) :
    Std.TransCmp (direction.order cmp) := by
  cases direction with
  | asc => exact inferInstanceAs (Std.TransCmp cmp)
  | desc => exact inferInstanceAs (Std.TransCmp fun a b => cmp b a)

instance (term : SortTerm) : Std.TransCmp (term.order collate) where
  eq_swap {r s} := @Std.OrientedCmp.eq_swap _ (NullPlacement.order _ _) _ (r term.field) (s term.field)
  isLE_trans {r s u} hrs hsu :=
    @Std.TransCmp.isLE_trans _ (NullPlacement.order _ _) _ (r term.field) (s term.field) (u term.field) hrs hsu

/-- Rows are ordered whatever the terms: of two rows one does not come after the other, and what does not come after
a row does not come after those behind it either. -/
instance (terms : List SortTerm) : Std.TransCmp (rowOrder collate terms) := by
  induction terms with
  | nil => exact { eq_swap := rfl, isLE_trans := fun _ _ => rfl }
  | cons term terms ih => exact inferInstanceAs (Std.TransCmp (compareLex _ _))

end Preorder

/-! ## Several terms -/

/-- Terms after others decide where those leave rows equal. -/
theorem rowOrder_append (terms more : List SortTerm) (r s : Record) :
    rowOrder collate (terms ++ more) r s = (rowOrder collate terms r s).then (rowOrder collate more r s) := by
  induction terms with
  | nil => rfl
  | cons term terms ih =>
    -- the rows that the earlier terms leave equal are told apart by the others
    have hhead : rowOrder collate (term :: terms ++ more) r s =
        (term.order collate r s).then (rowOrder collate (terms ++ more) r s) := rfl
    rw [hhead, ih, ← Ordering.then_assoc]
    rfl

/-- Further terms do not change the order of rows that are told apart. -/
theorem rowOrder_append_of_ne_eq {terms : List SortTerm} {r s : Record} (h : rowOrder collate terms r s ≠ .eq)
    (more : List SortTerm) : rowOrder collate (terms ++ more) r s = rowOrder collate terms r s := by
  rw [rowOrder_append]
  cases horder : rowOrder collate terms r s with
  | lt | gt => rfl
  | eq => exact absurd horder h

/-- Rows are equal under terms exactly when each term leaves them equal. -/
theorem rowOrder_eq_eq_iff {terms : List SortTerm} {r s : Record} :
    rowOrder collate terms r s = .eq ↔ ∀ term ∈ terms, term.order collate r s = .eq := by
  induction terms with
  | nil => exact iff_of_true rfl (List.forall_mem_nil _)
  | cons term terms ih => rw [rowOrder, compareLex_eq_eq, ih, List.forall_mem_cons]

/-! ## Members -/

def Entry.order (terms : List SortTerm) (a b : Entry) : Ordering :=
  rowOrder collate terms a.record b.record

/-- A term on the member's id leaves a member equal to itself only. -/
theorem SortTerm.memberId_eq_of_order {term : SortTerm} (hterm : term.field = .memberId) {a b : Entry}
    (h : term.order collate a.record b.record = .eq) : a.memberId = b.memberId := by
  have hvalues : term.direction.order (Value.order collate) (.int a.memberId) (.int b.memberId) = .eq := by
    rw [SortTerm.order, hterm] at h
    exact h
  have hints : a.memberId.toInt = b.memberId.toInt := by
    -- the direction exchanges the two members, and equal ids are equal either way
    cases hdirection : term.direction with
    | asc =>
      rw [hdirection] at hvalues
      exact Std.compare_eq_iff_eq.mp hvalues
    | desc =>
      rw [hdirection] at hvalues
      exact (Std.compare_eq_iff_eq.mp hvalues).symm
  exact Int64.toInt_inj.mp hints

/-- A term on the member's id tells members apart, wherever it stands among the terms. -/
theorem Entry.order_ne_eq {terms : List SortTerm} (hid : .memberId ∈ terms.map SortTerm.field) {a b : Entry}
    (hab : a.memberId ≠ b.memberId) : a.order collate terms b ≠ .eq := by
  obtain ⟨term, hterm, hfield⟩ := List.mem_map.mp hid
  intro heq
  exact hab (term.memberId_eq_of_order collate hfield ((rowOrder_eq_eq_iff collate).mp heq term hterm))

/-! ## Sorted sequences -/

/-- The lines in an order in which none comes after a later one. -/
structure Entry.IsSortOf (terms : List SortTerm) (sorted entries : List Entry) : Prop where
  perm : sorted.Perm entries
  pairwise : sorted.Pairwise fun a b => a.order collate terms b ≠ .gt

section Sorted

variable [Std.TransCmp collate]

instance (terms : List SortTerm) : Std.TransCmp (Entry.order collate terms) where
  eq_swap {a b} := @Std.OrientedCmp.eq_swap _ (rowOrder collate terms) _ a.record b.record
  isLE_trans {a b c} hab hbc :=
    @Std.TransCmp.isLE_trans _ (rowOrder collate terms) _ a.record b.record c.record hab hbc

/-- Any lines can be sorted. -/
theorem Entry.exists_isSortOf (terms : List SortTerm) (entries : List Entry) :
    ∃ sorted, IsSortOf collate terms sorted entries := by
  -- sorting by a total preorder leaves no pair out of order
  let le := fun a b => (Entry.order collate terms a b).isLE
  have htrans : ∀ a b c, le a b = true → le b c = true → le a c = true :=
    fun a b c hab hbc => Std.TransCmp.isLE_trans hab hbc
  have htotal : ∀ a b, (le a b || le b a) = true := by
    intro a b
    rw [Bool.or_eq_true]
    cases hab : Entry.order collate terms a b with
    | lt | eq => exact Or.inl (congrArg Ordering.isLE hab)
    | gt => exact Or.inr (congrArg Ordering.isLE (Std.OrientedCmp.gt_iff_lt.mp hab))
  refine ⟨entries.mergeSort le, List.mergeSort_perm entries le, ?_⟩
  exact (List.pairwise_mergeSort htrans htotal entries).imp Ordering.isLE_iff_ne_gt.mp

/-- Lines that are told apart can be sorted in one way only. -/
theorem Entry.IsSortOf.unique {terms : List SortTerm} {entries sorted sorted' : List Entry}
    (hapart : ∀ a ∈ entries, ∀ b ∈ entries, a.order collate terms b = .eq → a = b)
    (h : IsSortOf collate terms sorted entries) (h' : IsSortOf collate terms sorted' entries) : sorted = sorted' := by
  -- of two that are equal in the order one could stand before the other in either sequence
  have hantisymm : ∀ a b, a ∈ sorted → b ∈ sorted' → a.order collate terms b ≠ .gt →
      b.order collate terms a ≠ .gt → a = b := by
    intro a b ha hb hab hba
    have heq : a.order collate terms b = .eq :=
      Std.OrientedCmp.isLE_antisymm (Ordering.isLE_iff_ne_gt.mpr hab) (Ordering.isLE_iff_ne_gt.mpr hba)
    exact hapart a (h.perm.mem_iff.mp ha) b (h'.perm.mem_iff.mp hb) heq
  exact List.Perm.eq_of_pairwise hantisymm h.pairwise h'.pairwise (h.perm.trans h'.perm.symm)

/-- By terms with one on the member's id, lines of different members have one sorted sequence, however they are
arranged before. -/
theorem Entry.existsUnique_sorted {terms : List SortTerm} (hid : .memberId ∈ terms.map SortTerm.field)
    {entries : List Entry} (hentries : (entries.map Entry.memberId).Nodup) :
    ∃ sequence, ∀ arranged, arranged.Perm entries →
      ∀ sorted, IsSortOf collate terms sorted arranged ↔ sorted = sequence := by
  have hapart : ∀ a ∈ entries, ∀ b ∈ entries, a.order collate terms b = .eq → a = b := by
    intro a ha b hb heq
    by_contra hne
    have hids : a.memberId ≠ b.memberId := fun h => hne (List.inj_on_of_nodup_map hentries ha hb h)
    exact order_ne_eq collate hid hids heq
  obtain ⟨sequence, hsequence⟩ := exists_isSortOf collate terms entries
  refine ⟨sequence, ?_⟩
  intro arranged harranged sorted
  constructor
  · intro hsorted
    -- the sequence does not depend on how the members are arranged at first
    have hsort : IsSortOf collate terms sorted entries := ⟨hsorted.perm.trans harranged, hsorted.pairwise⟩
    exact hsort.unique collate hapart hsequence
  · rintro rfl
    exact ⟨hsequence.perm.trans harranged.symm, hsequence.pairwise⟩

end Sorted

end Roster
