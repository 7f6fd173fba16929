import Roster.Proofs.Criteria.Age
import Roster.Proofs.Store.Orderly
import Roster.Store.Membership

/-! # What has to hold before something is written

A team is added only under a name with some text, a member only with such a name and an age that is not negative, and
into a team only if the database knows that team.  All of this is found out before anything is written, so where it
fails, the call has asked for the team at most.

* `Reply.HoldsTeam`, `Reply.DeniesTeam`: what the reply to the question for a team says.
* `Run.Guarded`: a run writes exactly where a guard holds, and otherwise results in an error before that.
* `Store.Addable`, `Store.MemberRefused`: when a member is added, and why not, in the order in which this is found out.
* `Store.writes_guarded`: the runs of the three calls that write a team or a member.
-/

namespace Roster

/-! ## Replies -/

theorem replyAt_drop (replies : List Reply) (count : Nat) : replyAt (replies.drop count) 0 = replyAt replies count :=
  (replyAt_add replies count 0).symm

namespace Reply

/-- The first row of the reply has the value in the column. -/
def Gives {α : Type} (reply : Reply) (column : Column α) (value : α) : Prop :=
  ∃ row rows affected, reply = .outcome ⟨row :: rows, affected⟩ ∧ column.get row = some value

/-- The first row of the reply is that of a team, with an id and a name. -/
def HoldsTeam (reply : Reply) : Prop :=
  ∃ row rows affected, reply = .outcome ⟨row :: rows, affected⟩ ∧ row.teamId.isSome ∧ row.name.isSome

/-- The reply to the question for a team leads to an error: it is one itself, it has no row, or its first row lacks the
id or the name. -/
inductive DeniesTeam (id : Int64) : Reply → Error → Prop where
  | refused (message : String) : DeniesTeam id (.refusal message) (.sql (.refused message))
  | missing (affected : Nat) : DeniesTeam id (.outcome ⟨[], affected⟩) (.teamNotFound (toString id.toInt))
  | withoutId {row : Row} (rows : List Row) (affected : Nat) (hid : row.teamId = none) :
      DeniesTeam id (.outcome ⟨row :: rows, affected⟩) (.sql (.nullColumn "team_id"))
  | withoutName {row : Row} (rows : List Row) (affected : Nat) (hid : row.teamId.isSome) (hname : row.name = none) :
      DeniesTeam id (.outcome ⟨row :: rows, affected⟩) (.sql (.nullColumn "name"))

theorem holdsTeam_or_deniesTeam (id : Int64) (reply : Reply) : reply.HoldsTeam ∨ ∃ e, DeniesTeam id reply e := by
  rcases reply with ⟨_ | ⟨row, rows⟩, affected⟩ | message
  · exact .inr ⟨_, .missing affected⟩
  -- a row is looked at for the id first, and then for the name
  · by_cases hid : row.teamId = none
    · exact .inr ⟨_, .withoutId rows affected hid⟩
    · have hid := Option.isSome_iff_ne_none.mpr hid
      by_cases hname : row.name = none
      · exact .inr ⟨_, .withoutName rows affected hid hname⟩
      · exact .inl ⟨row, rows, affected, rfl, hid, Option.isSome_iff_ne_none.mpr hname⟩
  · exact .inr ⟨_, .refused message⟩

end Reply

/-! ## Guards -/

/-- A run writes exactly where the guard holds, after the questions that were asked before.  Where it does not hold, the
run results in one of the errors that go with it, after the statements that go with that error. -/
structure Run.Guarded {α : Type} (run : Run α) (guard : Prop) (questions : List Statement) (write : Statement)
    (refused : List Statement → Error → Prop) : Prop where
  writes : write ∈ run.statements ↔ guard
  statements : guard → run.statements = questions ++ [write]
  otherwise : ¬guard → ∃ statements e, refused statements e ∧ run = ⟨.error e, statements, []⟩

theorem Run.Guarded.of_cases {α : Type} {run : Run α} {guard : Prop} {questions : List Statement} {write : Statement}
    {refused : List Statement → Error → Prop} (hguard : guard → run.statements = questions ++ [write])
    -- the guard holds, and the write has been sent
    (hrefused : ¬guard → ∃ statements e, refused statements e ∧ run = ⟨.error e, statements, []⟩)
    (hsilent : ∀ statements e, refused statements e → write ∉ statements) :
    run.Guarded guard questions write refused := by
  refine ⟨?_, hguard, hrefused⟩
  constructor
  · intro hwrite
    -- without the guard, what has been sent does not contain the write
    by_contra h
    rcases hrefused h with ⟨statements, e, hcause, hrun⟩
    rw [hrun] at hwrite
    exact hsilent statements e hcause hwrite
  · intro h
    rw [hguard h, List.mem_append]
    exact .inr (List.mem_singleton_self write)

/-! ## Single statements -/

namespace Program

/-- A statement that returns one value results in that of the first row. -/
theorem result_fetchValue_eq_ok_iff {α : Type} {column : Column α} {statement : Statement} {replies : List Reply}
    {value : α} :
    ((fetchValue column statement).exec replies).result = .ok value ↔ (replyAt replies 0).Gives column value := by
  unfold fetchValue
  rw [exec_fetchFirst, answer_eq]
  -- only a first row with a value gives the value
  rcases hreply : replyAt replies 0 with ⟨_ | ⟨row, rows⟩, affected⟩ | message
  · constructor
    · intro h
      cases h
    · rintro ⟨_, _, _, h, -⟩
      cases h
  · have hgives : (Reply.outcome ⟨row :: rows, affected⟩).Gives column value ↔ column.get row = some value := by
      constructor
      · rintro ⟨_, _, _, h, hvalue⟩
        cases h
        exact hvalue
      · intro hvalue
        exact ⟨row, rows, affected, rfl, hvalue⟩
    rw [hgives]
    show (((column.need row).mapError _).mapError _ : Except Error α) = _ ↔ _
    unfold Column.need
    cases column.get row with
    | none => exact ⟨fun h => (nomatch h), fun h => (nomatch h)⟩
    | some actual => exact ⟨fun h => congrArg some (Except.ok.inj h), fun h => congrArg Except.ok (Option.some.inj h)⟩
  · constructor
    · intro h
      cases h
    · rintro ⟨_, _, _, h, -⟩
      cases h

theorem exec_fetchValue (column : Column α) (statement : Statement) (replies : List Reply) :
    (fetchValue column statement).exec replies =
      ⟨((fetchValue column statement).exec replies).result, [statement], []⟩ := by
  unfold fetchValue
  rw [exec_fetchFirst]

theorem exec_execute (statement : Statement) (replies : List Reply) :
    (execute statement).exec replies = ⟨(answer replies).map Outcome.affected, [statement], []⟩ := by
  have hread (outcome : Outcome) (later : List Reply) :
      (done outcome.affected).exec later = ⟨.ok outcome.affected, [], []⟩ := rfl
  exact exec_run_bind hread statement replies

end Program

namespace Store

open Criteria (HasText)

/-! ## Asking for a team -/

/-- The team, if there is one to ask for, is in the first reply. -/
def TeamFound (teamId : Option Int64) (replies : List Reply) : Prop :=
  ∀ id, teamId = some id → (replyAt replies 0).HoldsTeam

/-- The statement that asks for a team, if there is one to ask for. -/
def questions (config : Config) (teamId : Option Int64) : List Statement :=
  teamId.toList.map (selectTeam config)

theorem exec_findTeam (config : Config) (id : Int64) (replies : List Reply) :
    (findTeam config id).exec replies =
      ⟨(answer replies).bind fun outcome =>
        match outcome.rows with
        | [] => .ok none
        | row :: _ => ((Team.ofRow row).map some).mapError .sql, [selectTeam config id], []⟩ := by
  refine Program.exec_run_bind ?_ _ replies
  intro outcome replies
  cases outcome.rows with
  | nil => rfl
  | cons row rows => exact Program.exec_ofExcept _ _ _

/-- If the team is found, or none is asked for, the call goes on. -/
theorem exec_requireTeam_of_found {teamId : Option Int64} {replies : List Reply} (h : TeamFound teamId replies)
    (config : Config) : (requireTeam config teamId).exec replies = ⟨.ok (), questions config teamId, []⟩ := by
  cases teamId with
  | none => rfl
  | some id =>
    -- the team is read off the first row, which has its id and name
    rcases h id rfl with ⟨row, rows, affected, hreply, hid, hname⟩
    rcases Option.isSome_iff_exists.mp hid with ⟨teamId, hid⟩
    rcases Option.isSome_iff_exists.mp hname with ⟨name, hname⟩
    have hfind : (findTeam config id).exec replies = ⟨.ok (some ⟨teamId, name⟩), [selectTeam config id], []⟩ := by
      rw [exec_findTeam, answer_eq, hreply]
      simp [Except.bind, Except.map, Except.mapError, Team.ofRow, Column.need, Column.teamId, Column.name, hid, hname,
        bind, pure, Except.pure]
    exact Program.exec_bind_ok hfind _

/-- Why a team is not found, and what has been sent until then. -/
inductive TeamRefused (config : Config) (replies : List Reply) : Option Int64 → List Statement → Error → Prop where
  | denied {id : Int64} {e : Error} (h : Reply.DeniesTeam id (replyAt replies 0) e) :
      TeamRefused config replies (some id) [selectTeam config id] e

section Refused

variable {config : Config} {replies : List Reply} {teamId : Option Int64} {statements : List Statement} {e : Error}

theorem exists_teamRefused (h : ¬TeamFound teamId replies) (config : Config) :
    ∃ statements e, TeamRefused config replies teamId statements e := by
  cases teamId with
  | none => exact absurd (fun _ hid => nomatch hid) h
  | some id =>
    -- there is a team to ask for, so the reply decides
    rcases Reply.holdsTeam_or_deniesTeam id (replyAt replies 0) with hholds | ⟨e, hdenied⟩
    · refine absurd ?_ h
      intro other hother
      cases hother
      exact hholds
    · exact ⟨_, e, .denied hdenied⟩

theorem TeamRefused.not_mem (h : TeamRefused config replies teamId statements e) {write : Statement}
    (hwrite : ∀ id, write ≠ selectTeam config id) : write ∉ statements := by
  cases h with
  | @denied id => exact mt List.mem_singleton.mp (hwrite id)

/-- If the team is not found, that is the error of the call. -/
theorem exec_requireTeam_of_refused (h : TeamRefused config replies teamId statements e) :
    (requireTeam config teamId).exec replies = ⟨.error e, statements, []⟩ := by
  cases h with
  | @denied id _ hdenied =>
    have hfind := exec_findTeam config id replies
    rw [answer_eq] at hfind
    -- the reply is a variable from here on, since its form is what the cases are about
    generalize replyAt replies 0 = reply at hdenied hfind
    -- a missing team is an answer, and only then an error; all other causes are errors of the question itself
    cases hdenied with
    | refused message => exact Program.exec_bind_error hfind _
    | missing affected => exact Program.exec_bind_ok hfind _
    | @withoutId row rows affected hid =>
      refine Program.exec_bind_error (hfind.trans ?_) _
      simp [Except.bind, Except.map, Except.mapError, Team.ofRow, Column.need, Column.teamId, hid, bind]
    | @withoutName row rows affected hid hname =>
      rcases Option.isSome_iff_exists.mp hid with ⟨teamId, hid⟩
      refine Program.exec_bind_error (hfind.trans ?_) _
      simp [Except.bind, Except.map, Except.mapError, Team.ofRow, Column.need, Column.teamId, Column.name, hid, hname,
        bind]

end Refused

/-! ## Results -/

/-- What is made of the value of a statement is made of that in the first row. -/
theorem result_map_fetchValue_eq_ok_iff {α β : Type} {column : Column α} {statement : Statement} {replies : List Reply}
    {f : α → β} {b : β} :
    ((Program.fetchValue column statement).exec replies).result.map f = .ok b ↔
      ∃ a, (replyAt replies 0).Gives column a ∧ b = f a := by
  rw [map_eq_ok_iff]
  simp only [Program.result_fetchValue_eq_ok_iff, @eq_comm β b]

/-! ## Adding a team -/

theorem exec_saveTeam_of_blank {name : String} (h : ¬HasText name) (config : Config) (replies : List Reply) :
    (saveTeam config name).exec replies = ⟨.error (.validation .blankTeamName), [], []⟩ := by
  unfold saveTeam
  rw [Text.isEmpty_trimChars, if_pos ((Criteria.isBlank_eq_true_iff name).mpr h)]
  rfl

theorem exec_saveTeam_of_hasText {name : String} (h : HasText name) (config : Config) (replies : List Reply) :
    (saveTeam config name).exec replies =
      ⟨((Program.fetchValue .teamId (insertTeam config name)).exec replies).result.map (⟨·, name⟩),
        [insertTeam config name], []⟩ := by
  have hinsert := Program.exec_map (Team.mk · name) (Program.fetchValue .teamId (insertTeam config name)) replies
  rw [Program.exec_fetchValue] at hinsert
  unfold saveTeam
  rw [Text.isEmpty_trimChars, (Criteria.isBlank_eq_false_iff name).mpr h]
  exact hinsert

theorem saveTeam_guarded (config : Config) (name : String) (replies : List Reply) :
    ((saveTeam config name).exec replies).Guarded (HasText name) [] (insertTeam config name)
      fun statements e => statements = [] ∧ e = .validation .blankTeamName := by
  refine .of_cases ?_ ?_ ?_
  · -- with a name, the insertion is the only statement
    intro h
    rw [exec_saveTeam_of_hasText h]
    rfl
  · -- without one, nothing is sent
    intro h
    exact ⟨_, _, ⟨rfl, rfl⟩, exec_saveTeam_of_blank h config replies⟩
  · rintro _ _ ⟨rfl, -⟩
    exact List.not_mem_nil

/-! ## Adding a member -/

/-- The member has a name and an age, and the team, if there is one, is found. -/
structure Addable (member : NewMember) (replies : List Reply) : Prop where
  username : HasText member.username
  age : 0 ≤ member.age
  team : TeamFound member.teamId replies

/-- Why a member is not added, and what has been sent until then.  The name comes first, then the age and then the
team. -/
inductive MemberRefused (config : Config) (member : NewMember) (replies : List Reply) :
    List Statement → Error → Prop where
  | blank (hname : ¬HasText member.username) : MemberRefused config member replies [] (.validation .blankUsername)
  | negative (hname : HasText member.username) (hage : member.age < 0) :
      MemberRefused config member replies [] (.validation (.negativeAge member.age))
  | team (hname : HasText member.username) (hage : 0 ≤ member.age) {statements : List Statement} {e : Error}
      (hteam : TeamRefused config replies member.teamId statements e) :
      MemberRefused config member replies statements e

section Add

variable {config : Config} {member : NewMember} {replies : List Reply} {statements : List Statement} {e : Error}

theorem exists_memberRefused (h : ¬Addable member replies) (config : Config) :
    ∃ statements e, MemberRefused config member replies statements e := by
  -- the first of the conditions that fails is the one that is named
  by_cases hname : HasText member.username
  · by_cases hage : member.age < 0
    -- the age is looked at only if the member has a name
    · exact ⟨_, _, .negative hname hage⟩
    · rw [Int32.not_lt] at hage
      have hteam : ¬TeamFound member.teamId replies := fun hteam => h ⟨hname, hage, hteam⟩
      rcases exists_teamRefused hteam config with ⟨statements, e, hrefused⟩
      exact ⟨statements, e, .team hname hage hrefused⟩
  · exact ⟨_, _, .blank hname⟩

theorem MemberRefused.insert_not_mem (h : MemberRefused config member replies statements e) :
    insertMemberForId config member ∉ statements := by
  cases h with
  | blank | negative => exact List.not_mem_nil
  -- the question for the team selects, so it is not the insertion
  | team _ _ hteam =>
    apply hteam.not_mem
    intro id
    simp [insertMemberForId, insertMember, selectTeam]

theorem saveMember_of_violation {violation : Violation} (h : checkMember member = .error violation) :
    saveMember config member = .fail (.validation violation) := by
  unfold saveMember
  rw [h]
  rfl

theorem saveMember_of_valid (hname : HasText member.username) (hage : 0 ≤ member.age) :
    saveMember config member = requireTeam config member.teamId >>= fun _ =>
      (fun id => ⟨id, member.username, member.age, member.teamId⟩) <$>
        Program.fetchValue .memberId (insertMemberForId config member) := by
  have hcheck : checkMember member = .ok () := by
    unfold checkMember
    rw [Text.isEmpty_trimChars, (Criteria.isBlank_eq_false_iff _).mpr hname, if_neg Bool.false_ne_true,
      if_neg (Int32.not_lt.mpr hage)]
  unfold saveMember
  rw [hcheck]
  rfl

theorem exec_saveMember_of_refused (h : MemberRefused config member replies statements e) :
    (saveMember config member).exec replies = ⟨.error e, statements, []⟩ := by
  cases h with
  -- the checks come before the first question
  | blank hname =>
    have hcheck : checkMember member = .error .blankUsername := by
      unfold checkMember
      rw [Text.isEmpty_trimChars, if_pos ((Criteria.isBlank_eq_true_iff _).mpr hname)]
    rw [saveMember_of_violation hcheck]
    rfl
  | negative hname hage =>
    have hcheck : checkMember member = .error (.negativeAge member.age) := by
      unfold checkMember
      rw [Text.isEmpty_trimChars, (Criteria.isBlank_eq_false_iff _).mpr hname, if_neg Bool.false_ne_true, if_pos hage]
    rw [saveMember_of_violation hcheck]
    rfl
  -- the question for the team is sent, and no more
  | team hname hage hteam =>
    rw [saveMember_of_valid hname hage]
    exact Program.exec_bind_error (exec_requireTeam_of_refused hteam) _

/-- A member is added after the question for the team, and is the one that was given, under the returned id. -/
theorem exec_saveMember_of_addable (h : Addable member replies) (config : Config) :
    (saveMember config member).exec replies =
      ⟨((Program.fetchValue .memberId (insertMemberForId config member)).exec
          (replies.drop (questions config member.teamId).length)).result.map
            fun id => ⟨id, member.username, member.age, member.teamId⟩,
        questions config member.teamId ++ [insertMemberForId config member], []⟩ := by
  rw [saveMember_of_valid h.username h.age, Program.exec_bind_ok (exec_requireTeam_of_found h.team config),
    Program.exec_map, Program.exec_fetchValue]
  rfl

end Add

theorem saveMember_guarded (config : Config) (member : NewMember) (replies : List Reply) :
    ((saveMember config member).exec replies).Guarded (Addable member replies) (questions config member.teamId)
      (insertMemberForId config member) (MemberRefused config member replies) := by
  refine .of_cases ?_ ?_ ?_
  · intro h
    rw [exec_saveMember_of_addable h]
  · intro h
    rcases exists_memberRefused h config with ⟨statements, e, hrefused⟩
    exact ⟨statements, e, hrefused, exec_saveMember_of_refused hrefused⟩
  · intro statements e hrefused
    exact hrefused.insert_not_mem

/-! ## Moving a member -/

theorem exec_executeOn (memberId : Int64) (statement : Statement) (replies : List Reply) :
    (executeOn memberId statement).exec replies =
      ⟨(answer replies).bind fun outcome =>
          if outcome.affected = 0 then .error (.memberNotFound (toString memberId.toInt)) else .ok (),
        [statement], []⟩ := by
  have hexecute := Program.exec_execute statement replies
  -- the error of the database comes first, and then the number of rows
  rcases hanswer : answer replies with e | outcome
  · rw [hanswer] at hexecute
    exact Program.exec_bind_error hexecute _
  · rw [hanswer] at hexecute
    refine (Program.exec_bind_ok hexecute _).trans ?_
    show Run.mk _ _ _ = Run.mk (if outcome.affected = 0 then _ else _) _ _
    by_cases h : outcome.affected = 0
    · rw [if_pos h, if_pos h]
      rfl
    · rw [if_neg h, if_neg h]
      rfl

theorem result_executeOn_eq_ok_iff (memberId : Int64) (statement : Statement) (replies : List Reply) :
    ((executeOn memberId statement).exec replies).result = .ok () ↔
      ∃ outcome, replyAt replies 0 = .outcome outcome ∧ 0 < outcome.affected := by
  rw [exec_executeOn, answer_eq]
  rcases replyAt replies 0 with outcome | message
  -- the number of rows tells whether the member was there
  · by_cases h : outcome.affected = 0
    · simp [Except.bind, h]
    · simp [Except.bind, h, Nat.pos_iff_ne_zero]
  · simp [Except.bind]

theorem result_executeOn_eq_memberNotFound_iff (memberId : Int64) (statement : Statement) (replies : List Reply) :
    ((executeOn memberId statement).exec replies).result = .error (.memberNotFound (toString memberId.toInt)) ↔
      ∃ outcome, replyAt replies 0 = .outcome outcome ∧ outcome.affected = 0 := by
  rw [exec_executeOn, answer_eq]
  rcases replyAt replies 0 with outcome | message
  · by_cases h : outcome.affected = 0
    · simp [Except.bind, h]
    · simp [Except.bind, h]
  · simp [Except.bind]

theorem exec_changeTeam_of_found {teamId : Option Int64} {replies : List Reply} (h : TeamFound teamId replies)
    (config : Config) (memberId : Int64) :
    (changeTeam config memberId teamId).exec replies =
      ⟨((executeOn memberId (updateTeam config memberId teamId)).exec
          (replies.drop (questions config teamId).length)).result,
        questions config teamId ++ [updateTeam config memberId teamId], []⟩ := by
  unfold changeTeam
  rw [Program.exec_bind_ok (exec_requireTeam_of_found h config), exec_executeOn]
  rfl

theorem changeTeam_guarded (config : Config) (memberId : Int64) (teamId : Option Int64) (replies : List Reply) :
    ((changeTeam config memberId teamId).exec replies).Guarded (TeamFound teamId replies) (questions config teamId)
      (updateTeam config memberId teamId) (TeamRefused config replies teamId) := by
  refine .of_cases ?_ ?_ ?_
  · intro h
    rw [exec_changeTeam_of_found h]
  · intro h
    rcases exists_teamRefused h config with ⟨statements, e, hrefused⟩
    exact ⟨statements, e, hrefused, Program.exec_bind_error (exec_requireTeam_of_refused hrefused) _⟩
  · intro statements e hrefused
    apply hrefused.not_mem
    intro id
    simp [updateTeam, selectTeam]

/-! ## Writes -/

/-- A team is added exactly if its name has text, a member exactly if the name has text, the age is not negative and the
team, if any, is found, and a member is moved exactly if the new team, if any, is found.  Otherwise the call results in
the first of its errors and has sent at most the question for the team.  What is added is returned as it was given,
under the id in the reply; a move succeeds exactly if it changes a row, and without one the member is not found. -/
theorem writes_guarded (config : Config) (replies : List Reply) :
    (∀ name,
      let run := (saveTeam config name).exec replies
      run.Guarded (HasText name) [] (insertTeam config name)
        (fun statements e => statements = [] ∧ e = .validation .blankTeamName) ∧
      (HasText name → ∀ team, run.result = .ok team ↔
        ∃ id, (replyAt replies 0).Gives .teamId id ∧ team = ⟨id, name⟩)) ∧
    (∀ member,
      let run := (saveMember config member).exec replies
      let asked := questions config member.teamId
      run.Guarded (Addable member replies) asked (insertMemberForId config member)
        (MemberRefused config member replies) ∧
      (Addable member replies → ∀ stored, run.result = .ok stored ↔
        ∃ id, (replyAt replies asked.length).Gives .memberId id ∧
          stored = ⟨id, member.username, member.age, member.teamId⟩)) ∧
    ∀ memberId teamId,
      let run := (changeTeam config memberId teamId).exec replies
      let asked := questions config teamId
      run.Guarded (TeamFound teamId replies) asked (updateTeam config memberId teamId)
        (TeamRefused config replies teamId) ∧
      (TeamFound teamId replies →
        (run.result = .ok () ↔
          ∃ outcome, replyAt replies asked.length = .outcome outcome ∧ 0 < outcome.affected) ∧
        (run.result = .error (.memberNotFound (toString memberId.toInt)) ↔
          ∃ outcome, replyAt replies asked.length = .outcome outcome ∧ outcome.affected = 0)) := by
  refine ⟨?_, ?_, ?_⟩
  · intro name
    -- what is sent is settled by the guard, and what is returned by the reply to the last statement
    refine ⟨saveTeam_guarded config name replies, ?_⟩
    intro h team
    rw [exec_saveTeam_of_hasText h, result_map_fetchValue_eq_ok_iff]
  · intro member
    refine ⟨saveMember_guarded config member replies, ?_⟩
    intro h stored
    rw [exec_saveMember_of_addable h, result_map_fetchValue_eq_ok_iff, replyAt_drop]
  · intro memberId teamId
    refine ⟨changeTeam_guarded config memberId teamId replies, ?_⟩
    intro h
    rw [exec_changeTeam_of_found h, ← replyAt_drop]
    exact ⟨result_executeOn_eq_ok_iff _ _ _, result_executeOn_eq_memberNotFound_iff _ _ _⟩

/-- A team without a name, a member of a team that exists, and the same member in a team that does not. -/
theorem writes_guarded_ada :
    let config := Config.ofUrl "postgres://localhost/roster"
    let ada : NewMember := ⟨"Ada", 36, some 7⟩
    let teamRow : Row := ⟨none, none, none, some 7, some "Core", none, none, none, none, none, none⟩
    let memberRow : Row := ⟨some 41, none, none, none, none, none, none, none, none, none, none⟩
    let replies : List Reply := [.outcome ⟨[teamRow], 0⟩, .outcome ⟨[memberRow], 1⟩]
    (∃ statements e, (statements = [] ∧ e = .validation .blankTeamName) ∧
      (saveTeam config " \t").exec [] = ⟨.error e, statements, []⟩) ∧
    ((saveTeam config "Core").exec [.outcome ⟨[teamRow], 1⟩]).result = .ok ⟨7, "Core"⟩ ∧
    insertMemberForId config ada ∉ ((saveMember config ada).exec []).statements ∧
    ((saveMember config ada).exec replies).statements = [selectTeam config 7, insertMemberForId config ada] ∧
    ((saveMember config ada).exec replies).result = .ok ⟨41, "Ada", 36, some 7⟩ ∧
    ((changeTeam config 41 (some 7)).exec replies).result = .ok () ∧
    ((changeTeam config 41 none).exec []).result = .error (.memberNotFound "41") := by
  intro config ada teamRow memberRow replies
  have hfound : TeamFound (some 7) replies := by
    intro id hid
    exact ⟨teamRow, [], 0, rfl, rfl, rfl⟩
  -- where no team is asked for, none has to be found
  have hnone : TeamFound none [] := fun _ h => nomatch h
  have hmissing : ¬TeamFound (some 7) [] := by
    intro h
    rcases h 7 rfl with ⟨_, _, _, hreply, -⟩
    cases hreply
  have hname : HasText "Ada" := (Criteria.isBlank_eq_false_iff _).mp rfl
  have hteamName : HasText "Core" := (Criteria.isBlank_eq_false_iff _).mp rfl
  have hnoName : ¬HasText " \t" := (Criteria.isBlank_eq_true_iff _).mp rfl
  have hada : Addable ada replies := ⟨hname, by decide, hfound⟩
  rcases writes_guarded config replies with ⟨-, hmember, hmove⟩
  rcases writes_guarded config [] with ⟨hblank, hnoMember, hnoMove⟩
  rcases writes_guarded config [.outcome ⟨[teamRow], 1⟩] with ⟨hteam, -, -⟩
  refine ⟨?_, ?_, ?_, ?_, ?_, ?_, ?_⟩
  · exact (hblank " \t").1.otherwise hnoName
  · exact ((hteam "Core").2 hteamName ⟨7, "Core"⟩).mpr ⟨7, ⟨teamRow, [], 1, rfl, rfl⟩, rfl⟩
  · intro hwrite
    exact hmissing ((hnoMember ada).1.writes.mp hwrite).team
  · exact (hmember ada).1.statements hada
  · exact ((hmember ada).2 hada _).mpr ⟨41, ⟨memberRow, [], 1, rfl, rfl⟩, rfl⟩
  · exact ((hmove 41 (some 7)).2 hfound).1.mpr ⟨⟨[memberRow], 1⟩, rfl, by decide⟩
  · exact ((hnoMove 41 none).2 hnone).2.mpr ⟨.empty, rfl, rfl⟩

end Store

end Roster
