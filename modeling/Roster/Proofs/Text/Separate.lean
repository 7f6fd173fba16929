import Roster.Text.Separate

/-! # Stretches between separators

What cutting a list at a separator gives when the list was put together from stretches.

* `separate_eq_splitOn`: cutting everywhere is the library's `splitOn`.
* `Stretches`, `separate_eq_iff`: the stretches are free of separators, and joined by them they give the list.
* `Joined`: stretches with one separator or more between them.
* `Joined.filter_separate`: these stretches are what is left when empty ones are passed over.
-/

namespace Roster.Text

variable {α : Type} [BEq α]

theorem separate_eq_splitOn (sep : α) (xs : List α) : separate sep xs = xs.splitOn sep := by
  induction xs with
  | nil => rfl
  | cons x xs ih =>
    have hsplit : (x :: xs).splitOn sep = if x == sep then [] :: xs.splitOn sep else
        (xs.splitOn sep).modifyHead (x :: ·) := List.splitOnP_cons_eq_if_modifyHead x xs
    rw [separate, hsplit, ih]
    cases hrest : xs.splitOn sep with
    | nil => exact absurd hrest (List.splitOn_ne_nil _ _)
    | cons piece pieces => rfl

/-- The stretches, with at least one separator between two of them. -/
inductive Joined (sep : α) : List (List α) → List α → Prop where
  | nil : Joined sep [] []
  | single (piece : List α) : Joined sep [piece] piece
  | cons {piece next : List α} {pieces : List (List α)} {body : List α} (more : Nat)
      (h : Joined sep (next :: pieces) body) :
      Joined sep (piece :: next :: pieces) (piece ++ List.replicate (more + 1) sep ++ body)

/-- The stretches between the separators of a list: there is at least one, no separator is in any of them, and with one
separator between two of them they are the list. -/
structure Stretches (sep : α) (pieces : List (List α)) (xs : List α) : Prop where
  nonempty : pieces ≠ []
  clean : ∀ piece ∈ pieces, sep ∉ piece
  joined : [sep].intercalate pieces = xs

variable [LawfulBEq α] {sep : α}

theorem not_mem_of_mem_separate (xs : List α) : ∀ piece ∈ separate sep xs, sep ∉ piece := by
  -- a separator begins a piece that is empty so far, and any other letter joins the first piece
  induction xs with
  | nil => simp [separate]
  | cons x xs ih =>
    rw [separate]
    by_cases hx : (x == sep) = true
    · rw [if_pos hx, List.forall_mem_cons]
      exact ⟨List.not_mem_nil, ih⟩
    · have hne : sep ≠ x := by
        rintro rfl
        exact hx (beq_self_eq_true sep)
      rw [if_neg hx]
      cases hrest : separate sep xs with
      | nil => simpa using hne
      | cons piece pieces =>
        rw [hrest, List.forall_mem_cons] at ih
        rw [List.forall_mem_cons, List.mem_cons, not_or]
        exact ⟨⟨hne, ih.1⟩, ih.2⟩

/-- Cutting a list gives the stretches between its separators. -/
theorem separate_eq_iff {xs : List α} {pieces : List (List α)} : separate sep xs = pieces ↔ Stretches sep pieces xs := by
  constructor
  · rintro rfl
    refine ⟨?_, not_mem_of_mem_separate xs, ?_⟩
    · rw [separate_eq_splitOn]
      exact List.splitOn_ne_nil sep xs
    · rw [separate_eq_splitOn]
      exact List.intercalate_splitOn sep
  · rintro ⟨hne, hclean, rfl⟩
    rw [separate_eq_splitOn]
    exact List.splitOn_intercalate sep hclean hne

/-- A separator ends the stretches before it and begins those after it. -/
theorem separate_append (xs ys : List α) : separate sep (xs ++ sep :: ys) = separate sep xs ++ separate sep ys := by
  rw [separate_eq_splitOn, separate_eq_splitOn, separate_eq_splitOn, List.splitOn_append_cons_self]

theorem separate_of_not_mem {piece : List α} (h : sep ∉ piece) : separate sep piece = [piece] := by
  rw [separate_eq_splitOn, List.splitOn_eq_singleton h]

/-- A stretch without separators ends at the first one. -/
theorem cutAt_append {key : List α} (hkey : sep ∉ key) (value : List α) :
    cutAt sep (key ++ sep :: value) = (key, value) := by
  have hother : ∀ x ∈ key, (x != sep) = true := by
    intro x hx
    rw [bne_iff_ne]
    rintro rfl
    exact hkey hx
  have hsep : ¬(sep != sep) = true := by simp
  rw [cutAt, List.takeWhile_append_of_pos hother, List.takeWhile_cons_of_neg (p := (· != sep)) hsep,
    List.append_nil, List.dropWhile_append_of_pos hother, List.dropWhile_cons_of_neg (p := (· != sep)) hsep]
  rfl

/-- Separators in front add empty stretches only. -/
theorem filter_separate_replicate (n : Nat) (body : List α) :
    (separate sep (List.replicate n sep ++ body)).filter (!·.isEmpty) = (separate sep body).filter (!·.isEmpty) := by
  induction n with
  | zero => rfl
  | succ n ih =>
    have hcons : separate sep (List.replicate (n + 1) sep ++ body) =
        [] :: separate sep (List.replicate n sep ++ body) := by
      rw [List.replicate_succ, List.cons_append, separate, if_pos (beq_self_eq_true sep)]
    rw [hcons, List.filter_cons_of_neg (by simp), ih]

/-- Joined stretches that are not empty are found again, however many separators stand between them. -/
theorem Joined.filter_separate {pieces : List (List α)} {body : List α} (h : Joined sep pieces body)
    (hpieces : ∀ piece ∈ pieces, piece ≠ [] ∧ sep ∉ piece) :
    (separate sep body).filter (!·.isEmpty) = pieces := by
  -- repeated separators leave empty pieces, which are filtered out
  induction h with
  | nil => rfl
  | single piece =>
    rcases hpieces piece (List.mem_singleton_self piece) with ⟨hne, hsep⟩
    rw [separate_of_not_mem hsep]
    exact List.filter_cons_of_pos (by simpa using hne)
  | @cons piece next pieces body more h ih =>
    rw [List.forall_mem_cons] at hpieces
    rcases hpieces with ⟨⟨hne, hsep⟩, hrest⟩
    have hcut : separate sep (piece ++ List.replicate (more + 1) sep ++ body) =
        piece :: separate sep (List.replicate more sep ++ body) := by
      rw [List.replicate_succ, List.append_assoc, List.cons_append, separate_append, separate_of_not_mem hsep]
      rfl
    rw [hcut, List.filter_cons_of_pos (by simpa using hne), filter_separate_replicate, ih hrest]

end Roster.Text
