import Roster.Sql.Basic
import Roster.Store.Row

/-! # Programs of statements

A call of the store is a program: it sends statements one after the other, looks at the reply to each before it
goes on, and may report events on the way.  Running a program against replies tells its result, the statements it
sent and the events it reported.

* `Program.bind_assoc` and the instance of `LawfulMonad`: programs are put together as `do` blocks suggest.
* `Program.exec_bind`: the run of two programs in turn is the run of the first and then, where it succeeds, that
  of the second on the replies that are left.
-/

namespace Roster

/-- What a statement returns: rows, and how many rows of the tables it changed. -/
structure Outcome where
  rows : List Row
  affected : Nat
deriving Repr, DecidableEq

/-- The outcome of a statement that returns and changes nothing. -/
def Outcome.empty : Outcome :=
  ⟨[], 0⟩

/-- The database's reply to a statement: an outcome, or an error with its message. -/
inductive Reply where
  | outcome (outcome : Outcome)
  | refusal (message : String)
deriving Repr, DecidableEq

/-- What the store reports beside the results of its calls. -/
inductive Event where
  | unfiltered
  | capped (limit : Int64)
  | seeded (count : Int32)
deriving Repr, DecidableEq

/-- How serious an event is. -/
inductive Event.Level where
  | info
  | warn
deriving Repr, DecidableEq

/-- An unfiltered search deserves a warning. -/
def Event.level : Event → Level
  | .unfiltered | .capped _ => .warn
  | .seeded _ => .info

def Event.message : Event → String
  | .unfiltered => "member search has no filters; every member will be returned"
  | .capped _ => "member search has no filters; capping result size"
  | .seeded _ => "seeded sample members"

/-- A program that ends with a result or an error, after sending statements and reporting events. -/
inductive Program (α : Type) where
  | done (result : α)
  | fail (error : Error)
  | report (event : Event) (rest : Program α)
  | send (statement : Statement) (rest : Reply → Program α)

namespace Program

variable {α β : Type}

/-- Goes on with the result of a program. -/
def bind : Program α → (α → Program β) → Program β
  | done a, f => f a
  | fail e, _ => fail e
  | report event rest, f => report event (rest.bind f)
  | send statement rest, f => send statement fun reply => (rest reply).bind f

instance : Monad Program where
  pure := done
  bind := bind

/-- Goes on where there is a value, and fails with an error of the kind that the cause belongs to. -/
def ofExcept {ε : Type} (wrap : ε → Error) : Except ε α → Program α
  | .ok a => done a
  | .error e => fail (wrap e)

/-! ## Statements -/

/-- Sends a statement for its outcome; an error of the database is an error of the program. -/
def run (statement : Statement) : Program Outcome :=
  send statement fun reply =>
    match reply with
    | .outcome outcome => done outcome
    | .refusal message => fail (.sql (.refused message))

/-- Runs a statement for the number of rows that it changes. -/
def execute (statement : Statement) : Program Nat := do
  let outcome ← run statement
  return outcome.affected

/-- Runs a statement for all rows that it returns. -/
def fetchAll (read : Row → Except SqlFault α) (statement : Statement) : Program (List α) := do
  let outcome ← run statement
  ofExcept .sql (outcome.rows.mapM read)

/-- Runs a statement for the first row that it returns, if any. -/
def fetchFirst? (read : Row → Except SqlFault α) (statement : Statement) : Program (Option α) := do
  let outcome ← run statement
  match outcome.rows with
  | [] => return none
  | row :: _ => ofExcept .sql ((read row).map some)

/-- Runs a statement for the first row that it returns; there has to be one. -/
def fetchFirst (read : Row → Except SqlFault α) (statement : Statement) : Program α := do
  let outcome ← run statement
  match outcome.rows with
  | [] => fail (.sql .noRow)
  | row :: _ => ofExcept .sql (read row)

/-- Runs a statement for the single value that it returns. -/
def fetchValue (column : Column α) (statement : Statement) : Program α :=
  fetchFirst (fun row => (column.need row).mapError fun _ => .nullResult) statement

end Program

/-! ## Runs -/

/-- What comes of running a program: its result, the statements it sent and the events it reported, in order. -/
structure Run (α : Type) where
  result : Except Error α
  statements : List Statement
  events : List Event

def Run.after {α : Type} (statement : Statement) (run : Run α) : Run α :=
  { run with statements := statement :: run.statements }

def Run.reporting {α : Type} (event : Event) (run : Run α) : Run α :=
  { run with events := event :: run.events }

/-- The run that goes on as another one where it succeeds. -/
def Run.andThen {α β : Type} (run : Run α) (next : α → Run β) : Run β :=
  match run.result with
  | .error e => ⟨.error e, run.statements, run.events⟩
  | .ok a => ⟨(next a).result, run.statements ++ (next a).statements, run.events ++ (next a).events⟩

/-- Runs a program.  Each statement takes the next reply; when there is none left, it
returns and changes nothing. -/
def Program.exec {α : Type} : Program α → List Reply → Run α
  | done a, _ => ⟨.ok a, [], []⟩
  | fail e, _ => ⟨.error e, [], []⟩
  | report event rest, replies => (rest.exec replies).reporting event
  | send statement rest, [] => ((rest (.outcome .empty)).exec []).after statement
  | send statement rest, reply :: later => ((rest reply).exec later).after statement

/-! ## Programs in turn -/

/-- Nothing comes of ending a program with its own result. -/
theorem Program.bind_done {α : Type} (p : Program α) : p.bind done = p := by
  induction p with
  | done a => rfl
  | fail e => rfl
  | report event rest ih => exact congrArg (report event) ih
  | send statement rest ih => exact congrArg (send statement) (funext ih)

/-- It does not matter how three programs in turn are grouped. -/
theorem Program.bind_assoc {α β γ : Type} (p : Program α) (f : α → Program β) (g : β → Program γ) :
    (p.bind f).bind g = p.bind fun a => (f a).bind g := by
  induction p with
  | done a => rfl
  | fail e => rfl
  | report event rest ih => exact congrArg (report event) ih
  | send statement rest ih => exact congrArg (send statement) (funext ih)

instance : LawfulMonad Program :=
  LawfulMonad.mk' Program Program.bind_done (fun _ _ => rfl) Program.bind_assoc

/-- A statement before a run is one more. -/
@[simp]
theorem Run.length_statements_after {α : Type} (statement : Statement) (run : Run α) :
    (run.after statement).statements.length = run.statements.length + 1 := rfl

/-- A statement before a run stays before what the run goes on with. -/
theorem Run.after_andThen {α β : Type} (statement : Statement) (run : Run α) (next : α → Run β) :
    (run.after statement).andThen next = (run.andThen next).after statement := by
  unfold Run.andThen Run.after
  cases run.result <;> rfl

/-- An event before a run stays before what the run goes on with. -/
theorem Run.reporting_andThen {α β : Type} (event : Event) (run : Run α) (next : α → Run β) :
    (run.reporting event).andThen next = (run.andThen next).reporting event := by
  unfold Run.andThen Run.reporting
  cases run.result <;> rfl

/-- Two programs in turn run one after the other; the second has the replies that the first has left. -/
theorem Program.exec_bind {α β : Type} (p : Program α) (f : α → Program β) (replies : List Reply) :
    (p.bind f).exec replies =
      (p.exec replies).andThen fun a => (f a).exec (replies.drop (p.exec replies).statements.length) := by
  induction p generalizing replies with
  | done a => simp [bind, exec, Run.andThen]
  | fail e => simp [bind, exec, Run.andThen]
  | report event rest ih =>
    simp only [bind, exec, ih, Run.reporting_andThen]
    rfl
  | send statement rest ih =>
    cases replies with
    | nil => simp [bind, exec, ih, Run.after_andThen]
    | cons reply later => simp [bind, exec, ih, Run.after_andThen]

end Roster
