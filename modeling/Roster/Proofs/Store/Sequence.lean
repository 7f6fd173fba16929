import Roster.Proofs.Store.Orderly
import Roster.Store.Membership
import Roster.Store.Setup

/-! # Statements one after the other

The schema is made, tables are removed and sample members are added by statements that are sent in turn, whatever they
return.  Such a program goes on as long as no statement is refused, and the first refusal ends it.

* `Program.executeEach`: statements in turn.
* `exists_first_lt`: among finitely many places, none is of a kind, or one of them is the first.
* `Program.exec_executeEach_of_accepted`, `Program.exec_executeEach_of_refused`: all statements are sent if none is
  refused, and those up to the first refused one otherwise.
* `Store.executeAll_eq`, `Store.seedMembers_eq`: the programs of the store that send statements in turn.
-/

namespace Roster

/-- Below a bound, no place is of the kind, or one of them is the first. -/
theorem exists_first_lt (kind : Nat → Prop) (bound : Nat) :
    (∀ place < bound, ¬kind place) ∨ ∃ place < bound, (∀ earlier < place, ¬kind earlier) ∧ kind place := by
  induction bound with
  | zero => exact .inl fun _ hplace => nomatch hplace
  | succ bound ih =>
    rcases ih with hnone | ⟨place, hplace, hfirst⟩
    · by_cases hkind : kind bound
      · exact .inr ⟨bound, Nat.lt_succ_self bound, hnone, hkind⟩
      · refine .inl fun place hplace => ?_
        rcases Nat.lt_succ_iff_lt_or_eq.mp hplace with hlt | heq
        · exact hnone place hlt
        · rw [heq]
          exact hkind
    · exact .inr ⟨place, Nat.lt_succ_of_lt hplace, hfirst⟩

/-- The reply is an error of the database. -/
def Reply.Refuses (reply : Reply) : Prop :=
  ∃ message, reply = .refusal message

theorem Reply.not_refuses_iff {reply : Reply} : ¬reply.Refuses ↔ ∃ outcome, reply = .outcome outcome := by
  cases reply with
  | outcome outcome => simp [Refuses]
  | refusal message => simp [Refuses]

namespace Program

/-- Sends statements in turn, whatever they return. -/
def executeEach : List Statement → Program Unit
  | [] => pure ()
  | statement :: rest => do
    let _ ← execute statement
    executeEach rest

/-- The first statement is sent; if it succeeds, the others follow. -/
theorem exec_executeEach_cons (statement : Statement) (statements : List Statement) (replies : List Reply) :
    (executeEach (statement :: statements)).exec replies =
      match replyAt replies 0 with
      | .outcome _ => ((executeEach statements).exec (replies.drop 1)).after statement
      | .refusal message => ⟨.error (.sql (.refused message)), [statement], []⟩ := by
  show (send statement _).exec replies = _
  rw [exec_send]
  cases replyAt replies 0 <;> rfl

/-- All statements are sent if none is refused. -/
theorem exec_executeEach_of_accepted {statements : List Statement} {replies : List Reply}
    (h : ∀ place < statements.length, ¬(replyAt replies place).Refuses) :
    (executeEach statements).exec replies = ⟨.ok (), statements, []⟩ := by
  induction statements generalizing replies with
  | nil => rfl
  | cons statement statements ih =>
    rcases Reply.not_refuses_iff.mp (h 0 (Nat.succ_pos _)) with ⟨outcome, hfirst⟩
    have hrest : (executeEach statements).exec (replies.drop 1) = ⟨.ok (), statements, []⟩ := by
      apply ih
      intro place hplace
      rw [← replyAt_succ]
      exact h (place + 1) (Nat.succ_lt_succ hplace)
    rw [exec_executeEach_cons, hfirst, hrest]
    rfl

/-- The first refused statement is the last one that is sent, and its error is the result. -/
theorem exec_executeEach_of_refused {statements : List Statement} {replies : List Reply} {place : Nat}
    {message : String} (hplace : place < statements.length)
    (hbefore : ∀ earlier < place, ¬(replyAt replies earlier).Refuses) (h : replyAt replies place = .refusal message) :
    (executeEach statements).exec replies =
      ⟨.error (.sql (.refused message)), statements.take (place + 1), []⟩ := by
  -- the list is taken apart along with the place: what fails at the head ends the run, and else the tail has it one
  -- place earlier
  induction statements generalizing replies place with
  | nil => cases hplace
  | cons statement statements ih =>
    rw [exec_executeEach_cons]
    cases place with
    | zero =>
      rw [h]
      rfl
    | succ place =>
      rcases Reply.not_refuses_iff.mp (hbefore 0 (Nat.succ_pos _)) with ⟨outcome, hfirst⟩
      have hrest : (executeEach statements).exec (replies.drop 1) =
          ⟨.error (.sql (.refused message)), statements.take (place + 1), []⟩ := by
        refine ih (Nat.lt_of_succ_lt_succ hplace) (fun earlier hearlier => ?_) ?_
        · rw [← replyAt_succ]
          exact hbefore (earlier + 1) (Nat.succ_lt_succ hearlier)
        · rw [← replyAt_succ]
          exact h
      rw [hfirst, hrest]
      rfl

theorem orderly_executeEach {kind : Statement → Prop} {statements : List Statement}
    (h : ∀ statement ∈ statements, kind statement) : Orderly kind (executeEach statements) := by
  induction statements with
  | nil => exact .done ()
  | cons statement statements ih =>
    rw [List.forall_mem_cons] at h
    exact (orderly_execute h.1).bind fun _ => ih h.2

end Program

/-! ## Programs of the store -/

namespace Store

open Program (executeEach)

theorem executeAll_eq (sqls : List Sql) : executeAll sqls = executeEach (sqls.map fun sql => ⟨sql, []⟩) := by
  induction sqls with
  | nil => rfl
  | cons sql sqls ih =>
    show (do let _ ← Program.execute ⟨sql, []⟩; executeAll sqls) = _
    rw [ih]
    rfl

/-- Sample members are added in the order of their numbers. -/
theorem seedMembers_eq (config : Config) (first second : Team) (number count : Nat) :
    seedMembers config first second number count =
      executeEach ((List.range' number count).map fun i => insertMember config (sampleMember first second i)) := by
  induction count generalizing number with
  | zero => rfl
  | succ count ih =>
    show (do let _ ← Program.execute _; seedMembers config first second (number + 1) count) = _
    rw [ih]
    rfl

end Store

end Roster
