import Roster.Store.Search

/-! # Runs of searches

What comes of running the programs that send one statement, and of running a search for a page, which sends two.

* `Program.exec_fetchAll`, `Program.exec_fetchFirst`: one statement is sent, and the result is read off the reply.
* `Store.exec_capFor`: the policy for unfiltered searches sends nothing.
* `Store.exec_capFor_fetchAll`: a search without a page selects once.
* `Store.exec_searchPage`: a search for a page counts first and then selects.
-/

namespace Roster

/-- What a program learns from the next reply: an outcome, or an error of the database.  Where there is no reply, the
statement returns and changes nothing. -/
def answer (replies : List Reply) : Except Error Outcome :=
  match replies.headD (.outcome .empty) with
  | .outcome outcome => .ok outcome
  | .refusal message => .error (.sql (.refused message))

/-- The first of the rows, which has to be there. -/
def firstOf {α : Type} (read : Row → Except SqlFault α) : List Row → Except Error α
  | [] => .error (.sql .noRow)
  | row :: _ => (read row).mapError .sql

namespace Program

variable {α β : Type}

/-! ## Programs in turn -/

/-- Where the first program succeeds, the second goes on with the replies that are left. -/
theorem exec_bind_ok {p : Program α} {replies : List Reply} {a : α} {statements : List Statement}
    {events : List Event} (hp : p.exec replies = ⟨.ok a, statements, events⟩) (f : α → Program β) :
    let next := (f a).exec (replies.drop statements.length)
    (p >>= f).exec replies = ⟨next.result, statements ++ next.statements, events ++ next.events⟩ := by
  intro next
  have hbind := exec_bind p f replies
  rw [hp] at hbind
  exact hbind

/-- Where the first program fails, the second does nothing. -/
theorem exec_bind_error {p : Program α} {replies : List Reply} {e : Error} {statements : List Statement}
    {events : List Event} (hp : p.exec replies = ⟨.error e, statements, events⟩) (f : α → Program β) :
    (p >>= f).exec replies = ⟨.error e, statements, events⟩ := by
  have hbind := exec_bind p f replies
  rw [hp] at hbind
  exact hbind

/-- A function of the result changes nothing else of a run. -/
theorem exec_map (f : α → β) (p : Program α) (replies : List Reply) :
    (f <$> p).exec replies = { p.exec replies with result := (p.exec replies).result.map f } := by
  have hbind := exec_bind p (fun a => done (f a)) replies
  refine hbind.trans ?_
  unfold Run.andThen
  cases (p.exec replies).result with
  | error e => rfl
  | ok a => simp [exec, Except.map]

/-! ## Single statements -/

theorem exec_run (statement : Statement) (replies : List Reply) :
    (run statement).exec replies = ⟨answer replies, [statement], []⟩ := by
  cases replies with
  | nil => rfl
  | cons reply later => cases reply <;> rfl

@[simp]
theorem exec_ofExcept {ε : Type} (wrap : ε → Error) (x : Except ε α) (replies : List Reply) :
    (ofExcept wrap x).exec replies = ⟨x.mapError wrap, [], []⟩ := by
  cases x <;> rfl

/-- A statement whose outcome is all that the program looks at. -/
theorem exec_run_bind {f : Outcome → Program α} {read : Outcome → Except Error α}
    (hf : ∀ outcome replies, (f outcome).exec replies = ⟨read outcome, [], []⟩) (statement : Statement)
    (replies : List Reply) :
    (run statement >>= f).exec replies = ⟨(answer replies).bind read, [statement], []⟩ := by
  have hrun := exec_run statement replies
  cases hanswer : answer replies with
  | error e =>
    -- on an error there is nothing to read, so what follows sends nothing either way
    rw [hanswer] at hrun
    exact exec_bind_error hrun f
  | ok outcome =>
    rw [hanswer] at hrun
    rw [exec_bind_ok hrun f, hf]
    rfl

theorem exec_fetchAll (read : Row → Except SqlFault α) (statement : Statement) (replies : List Reply) :
    (fetchAll read statement).exec replies =
      ⟨(answer replies).bind fun outcome => (outcome.rows.mapM read).mapError .sql, [statement], []⟩ :=
  exec_run_bind (fun _ _ => exec_ofExcept _ _ _) statement replies

theorem exec_fetchFirst (read : Row → Except SqlFault α) (statement : Statement) (replies : List Reply) :
    (fetchFirst read statement).exec replies =
      ⟨(answer replies).bind fun outcome => firstOf read outcome.rows, [statement], []⟩ := by
  refine exec_run_bind ?_ statement replies
  intro outcome replies
  cases outcome.rows with
  | nil => rfl
  | cons row rows => exact exec_ofExcept _ _ _

end Program

/-! ## Searches -/

namespace Store

/-- What the policy for unfiltered searches makes of a filter: no cap, a cap, or a refusal. -/
def permission (config : Config) (filter : Predicate) : Except Error (Option Int64) :=
  if filter.isAlways then
    match config.unfiltered with
    | .allow => .ok none
    | .cap limit => .ok (some limit)
    | .reject => .error .unfilteredSearch
  else .ok none

def warnings (config : Config) (filter : Predicate) : List Event :=
  if filter.isAlways then
    match config.unfiltered with
    | .allow => [.unfiltered]
    | .cap limit => [.capped limit]
    | .reject => []
  else []

theorem exec_capFor (config : Config) (filter : Predicate) (replies : List Reply) :
    (capFor config filter).exec replies = ⟨permission config filter, [], warnings config filter⟩ := by
  unfold capFor permission warnings
  cases filter.isAlways with
  | false => rfl
  | true => cases config.unfiltered <;> rfl

/-- A search that is permitted and does not ask for a page sends one selection, within the cap. -/
theorem exec_capFor_fetchAll {α β : Type} {config : Config} {filter : Predicate} {cap : Option Int64}
    (hcap : permission config filter = .ok cap) (read : Row → Except SqlFault α) (wrap : List α → β)
    (select : Option Int64 → Statement) (replies : List Reply) :
    let run := (wrap <$> (capFor config filter >>= fun cap => Program.fetchAll read (select cap))).exec replies
    run.statements = [select cap] ∧ run.events = warnings config filter := by
  intro run
  have hpolicy := exec_capFor config filter replies
  rw [hcap] at hpolicy
  have hsearch := Program.exec_bind_ok hpolicy fun cap => Program.fetchAll read (select cap)
  constructor
  · simp only [run, Program.exec_map, hsearch, Program.exec_fetchAll, List.nil_append]
  · simp only [run, Program.exec_map, hsearch, Program.exec_fetchAll, List.append_nil]

/-- The number that the reply to a count gives. -/
def counted (replies : List Reply) : Except Error Int64 :=
  (answer replies).bind fun outcome =>
    firstOf (fun row => (Column.count.need row).mapError fun _ => .nullResult) outcome.rows

def entries (replies : List Reply) : Except Error (List Entry) :=
  (answer replies).bind fun outcome => (outcome.rows.mapM Entry.ofRow).mapError .sql

/-- A search for a page that is permitted counts; if that gives a number, it selects the rows of the page. -/
theorem exec_searchPage {config : Config} {criteria : Criteria} {request : PageRequest} {cap : Option Int64}
    (hrequest : request.check = .ok ()) (hcap : permission config criteria.filter = .ok cap) (replies : List Reply) :
    let count := selectCount (membersWithTeams config) (condition criteria.filter)
    let select := selectPage entryColumns (membersWithTeams config) (condition criteria.filter) (capped request cap)
    (searchPage config criteria request).exec replies =
      match counted replies with
      | .error e => ⟨.error e, [count], warnings config criteria.filter⟩
      | .ok total =>
        ⟨(entries (replies.drop 1)).map fun content => .ofRequest content total (capped request cap), [count, select],
          warnings config criteria.filter⟩ := by
  intro count select
  let page (content : List Entry) (total : Int64) := Page.ofRequest content total (capped request cap)
  let rest (total : Int64) : Program (Page Entry) :=
    Program.fetchAll Entry.ofRow select >>= fun content => pure (page content total)
  have hpolicy := exec_capFor config criteria.filter replies
  rw [hcap] at hpolicy
  -- neither the check nor the policy takes a reply
  have hsearch : (searchPage config criteria request).exec replies =
      let run := (Program.fetchValue .count count >>= rest).exec replies
      ⟨run.result, run.statements, warnings config criteria.filter ++ run.events⟩ := by
    unfold searchPage
    rw [hrequest]
    exact Program.exec_bind_ok hpolicy _
  have hcount : (Program.fetchValue .count count).exec replies = ⟨counted replies, [count], []⟩ :=
    Program.exec_fetchFirst _ count replies
  have hrest : ∀ total, (rest total).exec (replies.drop 1) =
      ⟨(entries (replies.drop 1)).map (page · total), [select], []⟩ := by
    intro total
    have hselect : (Program.fetchAll Entry.ofRow select).exec (replies.drop 1) =
        ⟨entries (replies.drop 1), [select], []⟩ := Program.exec_fetchAll _ select _
    cases hentries : entries (replies.drop 1) with
    | error e =>
      rw [hentries] at hselect
      exact Program.exec_bind_error hselect _
    | ok content =>
      rw [hentries] at hselect
      exact Program.exec_bind_ok hselect _
  rw [hsearch]
  cases hcounted : counted replies with
  | error e =>
    rw [hcounted] at hcount
    simp only [Program.exec_bind_error hcount, List.append_nil]
  | ok total =>
    rw [hcounted] at hcount
    simp only [Program.exec_bind_ok hcount, List.length_singleton, hrest, List.singleton_append, List.append_nil]
    rfl

end Store

end Roster
