import Roster.Proofs.Store.Run

/-! # Programs that stop at the first error

A program is orderly when an error of the database ends it at once, with that error and nothing after it.  All programs
of the store are put together from single statements that are orderly, and so they are orderly as a whole.

* `Program.Orderly`: orderly programs, with the kind of statements that they send.
* `Program.Orderly.bind`: orderly programs in turn are orderly.
* `Program.Orderly.failStop`: a run stops at the first error reply.
* `Program.take_exec_congr`: what has been sent does not depend on replies that are still to come.
-/

namespace Roster

/-- The reply to the statement at a place, counted from zero.  Where there is none, the statement returns and changes
nothing. -/
def replyAt (replies : List Reply) (place : Nat) : Reply :=
  replies.getD place (.outcome .empty)

theorem replyAt_succ (replies : List Reply) (place : Nat) :
    replyAt replies (place + 1) = replyAt (replies.drop 1) place := by
  cases replies <;> rfl

theorem replyAt_add (replies : List Reply) (count place : Nat) :
    replyAt replies (count + place) = replyAt (replies.drop count) place := by
  unfold replyAt
  rw [List.getD_eq_getElem?_getD, List.getD_eq_getElem?_getD, List.getElem?_drop]

theorem answer_eq (replies : List Reply) :
    answer replies =
      match replyAt replies 0 with
      | .outcome outcome => .ok outcome
      | .refusal message => .error (.sql (.refused message)) := by
  cases replies <;> rfl

/-- A run stops at errors: a statement that is answered by an error is the last one, and the error is what the run
results in. -/
def Run.StopsAtErrors {α : Type} (run : Run α) (replies : List Reply) : Prop :=
  ∀ place message, place < run.statements.length → replyAt replies place = .refusal message →
    run.statements.length = place + 1 ∧ run.result = .error (.sql (.refused message))

namespace Program

variable {α β : Type}

/-- The program sends statements of a kind only, and where one of them is refused, it fails with that error. -/
inductive Orderly (kind : Statement → Prop) : Program α → Prop where
  | done (a : α) : Orderly kind (done a)
  | fail (e : Error) : Orderly kind (fail e)
  | report (event : Event) {rest : Program α} (h : Orderly kind rest) : Orderly kind (report event rest)
  | send {statement : Statement} {rest : Reply → Program α} (hkind : kind statement)
      (hrefused : ∀ message, rest (.refusal message) = fail (.sql (.refused message)))
      (h : ∀ outcome, Orderly kind (rest (.outcome outcome))) : Orderly kind (send statement rest)

/-! ## Runs of orderly programs -/

/-- A statement takes the next reply, also where there is none. -/
theorem exec_send (statement : Statement) (rest : Reply → Program α) (replies : List Reply) :
    (send statement rest).exec replies = ((rest (replyAt replies 0)).exec (replies.drop 1)).after statement := by
  cases replies <;> rfl

/-- All statements of a run are of the kind. -/
theorem Orderly.forall_mem_statements {kind : Statement → Prop} {p : Program α} (h : Orderly kind p)
    (replies : List Reply) : ∀ statement ∈ (p.exec replies).statements, kind statement := by
  -- the replies are general: after a statement the program goes on with the rest of them
  induction h generalizing replies with
  | done a | fail e =>
    intro statement hstatement
    cases hstatement
  | report event _ ih => exact ih replies
  | @send statement rest hkind hrefused _ ih =>
    rw [exec_send]
    unfold Run.after
    rw [List.forall_mem_cons]
    refine ⟨hkind, ?_⟩
    -- a refused statement has nothing behind it
    rcases hreply : replyAt replies 0 with outcome | message
    · exact ih outcome _
    · rw [hrefused]
      intro statement hstatement
      cases hstatement

/-- The run of an orderly program stops at the first error reply. -/
theorem Orderly.failStop {kind : Statement → Prop} {p : Program α} (h : Orderly kind p) (replies : List Reply) :
    (p.exec replies).StopsAtErrors replies := by
  induction h generalizing replies with
  | done a | fail e =>
    intro place message hplace
    cases hplace
  | report event _ ih => exact ih replies
  | @send statement rest hkind hrefused _ ih =>
    intro place message hplace hreply
    rw [exec_send] at hplace ⊢
    rcases hfirst : replyAt replies 0 with outcome | refused
    · -- the error comes later, and there the rest of the program stops
      rw [hfirst] at hplace
      cases place with
      | zero =>
        rw [hfirst] at hreply
        cases hreply
      | succ place =>
        rw [replyAt_succ] at hreply
        rw [Run.length_statements_after, Nat.add_lt_add_iff_right] at hplace
        rcases ih outcome _ place message hplace hreply with ⟨hlength, hresult⟩
        exact ⟨congrArg (· + 1) hlength, hresult⟩
    · -- nothing follows an error, so the first statement is the one in question
      rw [hfirst, hrefused] at hplace
      rw [hrefused]
      have hzero : place = 0 := Nat.lt_one_iff.mp hplace
      rw [hzero, hfirst] at hreply
      rw [hzero, Reply.refusal.inj hreply]
      exact ⟨rfl, rfl⟩

/-- As long as replies agree, the same statements are sent; the next one does not depend on its own reply. -/
theorem take_exec_congr (p : Program α) {replies other : List Reply} {place : Nat}
    (h : ∀ earlier < place, replyAt replies earlier = replyAt other earlier) :
    (p.exec replies).statements.take (place + 1) = (p.exec other).statements.take (place + 1) := by
  induction p generalizing replies other place with
  | done a | fail e => rfl
  | report event rest ih => exact ih h
  | send statement rest ih =>
    rw [exec_send, exec_send]
    unfold Run.after
    rw [List.take_succ_cons, List.take_succ_cons]
    -- the first statements are the same, and for the others the replies count on
    cases place with
    | zero => rw [List.take_zero, List.take_zero]
    | succ place =>
      have hfirst : replyAt replies 0 = replyAt other 0 := h 0 (Nat.succ_pos place)
      rw [hfirst]
      refine congrArg (statement :: ·) (ih _ ?_)
      intro earlier hearlier
      rw [← replyAt_succ, ← replyAt_succ]
      exact h _ (Nat.succ_lt_succ hearlier)

/-! ## Orderly programs in turn -/

section Turn

variable {kind : Statement → Prop}

theorem Orderly.bind {p : Program α} (h : Orderly kind p) {f : α → Program β} (hnext : ∀ a, Orderly kind (f a)) :
    Orderly kind (p >>= f) := by
  induction h with
  | done a => exact hnext a
  | fail e => exact .fail e
  | report event _ ih => exact .report event ih
  | @send statement rest hkind hrefused _ ih =>
    -- a program that fails has no next step
    refine .send hkind ?_ ih
    intro message
    rw [hrefused]
    rfl

theorem Orderly.map {p : Program α} (h : Orderly kind p) (f : α → β) : Orderly kind (f <$> p) :=
  h.bind fun a => .done (f a)

theorem orderly_ofExcept {ε : Type} (wrap : ε → Error) (x : Except ε α) : Orderly kind (ofExcept wrap x) := by
  cases x with
  | ok a => exact .done a
  | error e => exact .fail (wrap e)

/-! ## Single statements -/

variable {statement : Statement} (h : kind statement)

include h

theorem orderly_run : Orderly kind (run statement) :=
  .send h (fun _ => rfl) fun outcome => .done outcome

theorem orderly_execute : Orderly kind (execute statement) :=
  (orderly_run h).map Outcome.affected

theorem orderly_fetchAll (read : Row → Except SqlFault α) : Orderly kind (fetchAll read statement) :=
  (orderly_run h).bind fun _ => orderly_ofExcept _ _

theorem orderly_fetchFirst? (read : Row → Except SqlFault α) : Orderly kind (fetchFirst? read statement) := by
  refine (orderly_run h).bind fun outcome => ?_
  cases outcome.rows with
  | nil => exact .done none
  | cons row rows => exact orderly_ofExcept _ _

theorem orderly_fetchFirst (read : Row → Except SqlFault α) : Orderly kind (fetchFirst read statement) := by
  refine (orderly_run h).bind fun outcome => ?_
  cases outcome.rows with
  | nil => exact .fail _
  | cons row rows => exact orderly_ofExcept _ _

theorem orderly_fetchValue (column : Column α) : Orderly kind (fetchValue column statement) :=
  orderly_fetchFirst h _

end Turn

end Program

end Roster
