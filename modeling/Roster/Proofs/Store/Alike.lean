import Roster.Proofs.Store.Run

/-! # Runs that differ in values only

Two programs are alike when they report the same events and send the same texts, each with as many values, as long as
they get the same replies.  They end in results that are related in some way, or both in errors of one kind.

* `Program.Alike`: alike programs, with a relation between their results.
* `Program.Alike.bind`: alike programs go on alike.
* `Program.Alike.exec`: what this means for runs.
-/

namespace Roster

/-- Two errors are the same up to the value that they quote. -/
inductive Error.SameKind : Error → Error → Prop where
  | refl (e : Error) : SameKind e e
  | validation (violation other : Violation) : SameKind (.validation violation) (.validation other)
  | memberNotFound (member other : String) : SameKind (.memberNotFound member) (.memberNotFound other)
  | teamNotFound (team other : String) : SameKind (.teamNotFound team) (.teamNotFound other)

/-- Both programs succeed with related results, or both fail with errors of one kind. -/
inductive SameOutcome {α β : Type} (R : α → β → Prop) : Except Error α → Except Error β → Prop where
  | ok {a : α} {b : β} (h : R a b) : SameOutcome R (.ok a) (.ok b)
  | error {e f : Error} (h : e.SameKind f) : SameOutcome R (.error e) (.error f)

/-- What remains of a statement without its values: the text and the number of values. -/
def Statement.shape (statement : Statement) : Sql × Nat :=
  (statement.sql, statement.params.length)

/-- Two runs differ in nothing but values and the results that are made of them. -/
structure Run.Alike {α β : Type} (R : α → β → Prop) (run : Run α) (other : Run β) : Prop where
  statements : run.statements.map Statement.shape = other.statements.map Statement.shape
  events : run.events = other.events
  result : SameOutcome R run.result other.result

namespace Program

/-- Two programs do the same on the same replies, up to values. -/
inductive Alike {α β : Type} (R : α → β → Prop) : Program α → Program β → Prop where
  | done {a : α} {b : β} (h : R a b) : Alike R (done a) (done b)
  | fail {e f : Error} (h : e.SameKind f) : Alike R (fail e) (fail f)
  | report (event : Event) {p : Program α} {q : Program β} (h : Alike R p q) :
      Alike R (report event p) (report event q)
  | send {s t : Statement} {p : Reply → Program α} {q : Reply → Program β} (hshape : s.shape = t.shape)
      (h : ∀ reply, Alike R (p reply) (q reply)) : Alike R (send s p) (send t q)

variable {α β γ δ : Type} {R : α → β → Prop} {S : γ → δ → Prop}

/-- A program is like itself. -/
theorem Alike.refl {R : α → α → Prop} (hR : ∀ a, R a a) (p : Program α) : Alike R p p := by
  induction p with
  | done a => exact .done (hR a)
  | fail e => exact .fail (.refl e)
  | report event rest ih => exact .report event ih
  | send statement rest ih => exact .send rfl ih

/-- Alike programs that go on alike with related results are alike as a whole. -/
theorem Alike.bind {p : Program α} {q : Program β} (h : Alike R p q) {f : α → Program γ} {g : β → Program δ}
    (hnext : ∀ a b, R a b → Alike S (f a) (g b)) : Alike S (p >>= f) (q >>= g) := by
  induction h with
  | done h => exact hnext _ _ h
  | fail h => exact .fail h
  | report event _ ih => exact .report event ih
  | send hshape _ ih => exact .send hshape ih

/-- Whatever is made of their results, the programs stay alike. -/
theorem Alike.map {p : Program α} {q : Program β} (h : Alike R p q) (f : α → γ) (g : β → δ) :
    Alike (fun _ _ => True) (f <$> p) (g <$> q) :=
  h.bind fun _ _ _ => .done trivial

/-- Programs that go on in the same way after the same result are alike. -/
theorem Alike.bind_same {p q : Program α} (h : Alike Eq p q) (f : α → Program γ) : Alike Eq (p >>= f) (q >>= f) := by
  apply h.bind
  rintro a _ rfl
  exact .refl (fun _ => rfl) (f a)

/-- Alike programs have alike runs on the same replies. -/
theorem Alike.exec {p : Program α} {q : Program β} (h : Alike R p q) (replies : List Reply) :
    Run.Alike R (p.exec replies) (q.exec replies) := by
  -- the replies are general: after a statement the programs go on with the rest of them
  induction h generalizing replies with
  | done h => exact ⟨rfl, rfl, .ok h⟩
  | fail h => exact ⟨rfl, rfl, .error h⟩
  | report event _ ih =>
    obtain ⟨hstatements, hevents, hresult⟩ := ih replies
    exact ⟨hstatements, congrArg (event :: ·) hevents, hresult⟩
  | @send s t p q hshape _ ih =>
    -- the next reply is the same for both, also where there is none
    have hafter : ∀ reply later, Run.Alike R (((p reply).exec later).after s) (((q reply).exec later).after t) := by
      intro reply later
      obtain ⟨hstatements, hevents, hresult⟩ := ih reply later
      exact ⟨List.cons_eq_cons.mpr ⟨hshape, hstatements⟩, hevents, hresult⟩
    cases replies with
    | nil => exact hafter (.outcome .empty) []
    | cons reply later => exact hafter reply later

/-! ## Statements -/

variable {s t : Statement}

theorem alike_run (h : s.shape = t.shape) : Alike Eq (run s) (run t) :=
  .send h fun _ => .refl (fun _ => rfl) _

theorem alike_execute (h : s.shape = t.shape) : Alike Eq (execute s) (execute t) :=
  (alike_run h).bind_same _

theorem alike_fetchAll (read : Row → Except SqlFault α) (h : s.shape = t.shape) :
    Alike Eq (fetchAll read s) (fetchAll read t) :=
  (alike_run h).bind_same _

theorem alike_fetchFirst? (read : Row → Except SqlFault α) (h : s.shape = t.shape) :
    Alike Eq (fetchFirst? read s) (fetchFirst? read t) :=
  (alike_run h).bind_same _

theorem alike_fetchValue (column : Column α) (h : s.shape = t.shape) :
    Alike Eq (fetchValue column s) (fetchValue column t) :=
  (alike_run h).bind_same _

/-- Two checks are alike if they agree on whether they succeed. -/
theorem alike_ofExcept {ε : Type} {wrap : ε → Error} (hwrap : ∀ e f, (wrap e).SameKind (wrap f)) {x y : Except ε α}
    (h : x.isOk = y.isOk) : Alike (fun _ _ => True) (ofExcept wrap x) (ofExcept wrap y) := by
  cases x with
  | ok a =>
    -- both are decided in the same way
    cases y with
    | ok b => exact .done trivial
    | error f => cases h
  | error e =>
    cases y with
    | ok b => cases h
    | error f => exact .fail (hwrap e f)

end Program

end Roster
