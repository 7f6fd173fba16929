import Roster.Proofs.Config
import Roster.Proofs.Store.Sending

/-! # Errors of the database end a call

Whatever a call of the store sends, the first statement that the database answers with an error is the last one, and
the error is what the call results in.  What has been sent by then depends on the replies before it only, so a failed
call has done nothing but the beginning of what it would have done.

* `Program.FailStop`: programs of this kind; orderly ones are.
* `exec_executeAll`: statements one after the other are sent up to the first error.
* `calls_failStop`: all calls of the store, and the opening of one.
-/

namespace Roster

/-- In every run the program stops at the first error, and what it sends until then does not depend on later replies. -/
structure Program.FailStop {α : Type} (p : Program α) : Prop where
  stops : ∀ replies, (p.exec replies).StopsAtErrors replies
  determined : ∀ replies other place, (∀ earlier < place, replyAt replies earlier = replyAt other earlier) →
    (p.exec replies).statements.take (place + 1) = (p.exec other).statements.take (place + 1)

theorem Program.Orderly.isFailStop {α : Type} {kind : Statement → Prop} {p : Program α} (h : Orderly kind p) :
    p.FailStop := by
  constructor
  · exact h.failStop
  · intro replies other place hagree
    exact p.take_exec_congr hagree

namespace Store

/-- The message with which the database refuses the connection, if it does. -/
def Link.refusal? : Link → Option String
  | .dialled refusal | .pooled refusal => refusal

/-! ## Statements one after the other -/

/-- Statements are sent in turn up to the first error; there is none exactly when all of them are sent with success. -/
theorem exec_executeAll (sqls : List Sql) (replies : List Reply) :
    let run := (executeAll sqls).exec replies
    run.statements <+: sqls.map (fun sql => ⟨sql, []⟩) ∧
      (run.result = .ok () ↔ ∀ place < sqls.length, ∃ outcome, replyAt replies place = .outcome outcome) ∧
      (run.result = .ok () → run.statements = sqls.map fun sql => ⟨sql, []⟩) := by
  intro run
  let statements : List Statement := sqls.map fun sql => ⟨sql, []⟩
  have hlength : statements.length = sqls.length := List.length_map _
  have hrun : run = (Program.executeEach statements).exec replies := congrArg (·.exec replies) (executeAll_eq sqls)
  -- some statement is refused, and then the first such one ends it; or none is
  rcases exists_first_lt (fun place => (replyAt replies place).Refuses) statements.length with
    haccepted | ⟨place, hplace, hbefore, message, hrefused⟩
  · rw [hrun, Program.exec_executeEach_of_accepted haccepted]
    refine ⟨List.prefix_rfl, ⟨fun _ place hplace => ?_, fun _ => rfl⟩, fun _ => rfl⟩
    rw [← hlength] at hplace
    exact Reply.not_refuses_iff.mp (haccepted place hplace)
  · rw [hrun, Program.exec_executeEach_of_refused hplace hbefore hrefused]
    refine ⟨List.take_prefix _ _, ⟨fun hok => (nomatch hok), fun hall => ?_⟩, fun hok => (nomatch hok)⟩
    rw [hlength] at hplace
    exact absurd ⟨message, hrefused⟩ (Reply.not_refuses_iff.mpr (hall place hplace))

/-! ## Opening a store -/

/-- On an invalid configuration nothing is sent. -/
theorem exec_setUp_of_invalid {config : Config} {violation : Violation} (h : config.check = .error violation)
    (link : Link) (replies : List Reply) :
    (setUp config link).exec replies = ⟨.error (.validation violation), [], []⟩ := by
  unfold setUp
  rw [h]
  rfl

/-- On a valid configuration and an accepted connection, a store is opened by the statements of the schema. -/
theorem setUp_eq {config : Config} (h : config.check = .ok ()) {link : Link} (hlink : link.refusal? = none) :
    setUp config link = executeAll (Sql.schema config) := by
  unfold setUp
  rw [h]
  rcases link with refusal | refusal
  -- either way to connect, the refusal is what is missing
  all_goals
    have hnone : refusal = none := hlink
    rw [hnone]
    rfl

/-! ## Calls -/

/-- All calls of a store stop at the first error, and so does the opening of one.  On an invalid configuration a store
is not opened and nothing is sent.  On a valid one and an accepted connection the statements of the schema are sent in
turn, and the store opens exactly when all three of them succeed. -/
theorem calls_failStop (config : Config) :
    (∀ call : Call, (call.program config).FailStop) ∧
    (∀ link, (setUp config link).FailStop) ∧
    (∀ violation, config.check = .error violation → ∀ link replies,
      (setUp config link).exec replies = ⟨.error (.validation violation), [], []⟩) ∧
    (config.check = .ok () → ∀ link, link.refusal? = none → ∀ replies,
      let run := (setUp config link).exec replies
      run.statements <+: (Sql.schema config).map (fun sql => ⟨sql, []⟩) ∧
      (run.result = .ok () ↔ ∀ place < 3, ∃ outcome, replyAt replies place = .outcome outcome) ∧
      (run.result = .ok () → run.statements = (Sql.schema config).map fun sql => ⟨sql, []⟩)) := by
  refine ⟨?_, ?_, ?_, ?_⟩
  · intro call
    exact (orderly_program config call).isFailStop
  · intro link
    exact (orderly_setUp config link).isFailStop
  · intro violation hcheck link replies
    exact exec_setUp_of_invalid hcheck link replies
  · intro hcheck link hlink replies
    rw [setUp_eq hcheck hlink]
    exact exec_executeAll (Sql.schema config) replies

/-- The database is full when the second sample member is added, and later when the index of the schema is made.  Until
then the sample data are added just as in a run without an error; the first name of a table is no valid one. -/
theorem calls_failStop_full :
    let config := Config.ofUrl "postgres://localhost/roster"
    let unnamed := { config with membersTable := "" }
    let idRow (id : Int64) : Row := ⟨none, none, none, some id, none, none, none, none, none, none, none⟩
    let replies : List Reply :=
      [.outcome ⟨[idRow 7], 1⟩, .outcome ⟨[idRow 8], 1⟩, .outcome ⟨[], 1⟩, .refusal "disk full"]
    let run := ((Call.seed 5).program config).exec replies
    let whole := ((Call.seed 5).program config).exec (replies.take 3)
    let opening := (setUp config (.dialled none)).exec [.outcome .empty, .outcome .empty, .refusal "disk full"]
    (run.statements.length = 4 ∧ run.result = .error (.sql (.refused "disk full")) ∧
      run.statements.take 4 = whole.statements.take 4 ∧ whole.statements.length = 7) ∧
    unnamed.check = .error (.name .empty) ∧
    (∀ replies, (setUp unnamed (.dialled none)).exec replies = ⟨.error (.validation (.name .empty)), [], []⟩) ∧
    config.check = .ok () ∧ (Link.dialled none).refusal? = none ∧ opening.result ≠ .ok () := by
  intro config unnamed idRow replies run whole opening
  have hunnamed : unnamed.check = .error (.name .empty) := by rfl
  have hconfig : config.check = .ok () := by
    apply Config.check_ofUrl
    intro limit hcap
    cases hcap
  rcases calls_failStop config with ⟨hcalls, -, -, hopening⟩
  rcases hcalls (.seed 5) with ⟨hstops, hdetermined⟩
  rcases hstops replies 3 "disk full" (by decide) rfl with ⟨hlength, hresult⟩
  -- the runs have the same replies up to the fourth statement
  have hsame : run.statements.take 4 = whole.statements.take 4 := by
    apply hdetermined replies (replies.take 3) 3
    decide
  -- the last statement that opens a store is refused here
  have hrefused : opening.result ≠ .ok () := by
    intro hok
    rcases hopening hconfig (.dialled none) rfl _ with ⟨-, hsuccess, -⟩
    rcases hsuccess.mp hok 2 (by decide) with ⟨outcome, houtcome⟩
    cases houtcome
  rcases calls_failStop unnamed with ⟨-, -, hinvalid, -⟩
  exact ⟨⟨hlength, hresult, hsame, by decide⟩, hunnamed, hinvalid _ hunnamed _, hconfig, rfl, hrefused⟩

end Store

end Roster
