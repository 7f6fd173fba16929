import Mathlib.Data.List.TakeDrop
import Roster.Proofs.Store.Guard
import Roster.Proofs.Store.Sequence

/-! # Sample data

Two teams are added first, and then the members, who are numbered from zero and take turns in the teams.  The values
of a member's statement depend on the ids that the replies gave to the teams; everything else is known beforehand.

* `Reply.Withholds`: why a reply does not give a value that a statement has to return.
* `Store.seedPlan`: the statements that add all sample data.
* `Store.SeedFault`: which of them fails, and why.
* `Store.seed_carriedOut`: the plan is carried out up to the first statement that fails.
-/

namespace Roster

/-! ## Single values -/

namespace Reply

variable {α : Type} {column : Column α} {reply : Reply} {fault : SqlFault}

/-- The value in the column of the first row, if the reply has one. -/
def value? (column : Column α) : Reply → Option α
  | .outcome ⟨row :: _, _⟩ => column.get row
  | .outcome ⟨[], _⟩ | .refusal _ => none

theorem Gives.value?_eq {value : α} (h : reply.Gives column value) : reply.value? column = some value := by
  rcases h with ⟨row, rows, affected, rfl, hvalue⟩
  exact hvalue

/-- The reply gives no value in the column: it is an error itself, it has no row, or its first row lacks the value. -/
inductive Withholds (column : Column α) : Reply → SqlFault → Prop where
  | refused (message : String) : Withholds column (.refusal message) (.refused message)
  | noRow (affected : Nat) : Withholds column (.outcome ⟨[], affected⟩) .noRow
  | noValue {row : Row} (rows : List Row) (affected : Nat) (h : column.get row = none) :
      Withholds column (.outcome ⟨row :: rows, affected⟩) .nullResult

theorem gives_or_withholds (column : Column α) (reply : Reply) :
    (∃ value, reply.Gives column value) ∨ ∃ fault, reply.Withholds column fault := by
  -- the three ways to withhold a value are the three shapes of a reply without it
  rcases reply with ⟨_ | ⟨row, rows⟩, affected⟩ | message
  · exact .inr ⟨_, .noRow affected⟩
  · cases hvalue : column.get row with
    | none => exact .inr ⟨_, .noValue rows affected hvalue⟩
    | some value => exact .inl ⟨value, row, rows, affected, rfl, hvalue⟩
  · exact .inr ⟨_, .refused message⟩

theorem Withholds.not_gives (h : reply.Withholds column fault) {value : α} : ¬reply.Gives column value := by
  intro hgives
  have hvalue := hgives.value?_eq
  cases h with
  | refused message => cases hvalue
  | noRow affected => cases hvalue
  | noValue rows affected hnone => exact absurd (hnone.symm.trans hvalue) nofun

end Reply

namespace Program

variable {α : Type} {column : Column α} {replies : List Reply}

theorem exec_fetchValue_of_withholds {fault : SqlFault} (h : (replyAt replies 0).Withholds column fault)
    (statement : Statement) :
    (fetchValue column statement).exec replies = ⟨.error (.sql fault), [statement], []⟩ := by
  unfold fetchValue
  rw [exec_fetchFirst, answer_eq]
  generalize replyAt replies 0 = reply at h
  cases h with
  | refused message => rfl
  | noRow affected => rfl
  | @noValue row rows affected hvalue =>
    show (⟨((column.need row).mapError _).mapError _, _, _⟩ : Run α) = _
    unfold Column.need
    rw [hvalue]
    rfl

end Program

namespace Store

open Criteria (HasText)
open Program (executeEach)

/-! ## Adding a team -/

section Team

variable {name : String} (hname : HasText name) {replies : List Reply} (config : Config)

include hname

theorem exec_saveTeam_of_gives {id : Int64} (h : (replyAt replies 0).Gives .teamId id) :
    (saveTeam config name).exec replies = ⟨.ok ⟨id, name⟩, [insertTeam config name], []⟩ := by
  rw [exec_saveTeam_of_hasText hname, Program.result_fetchValue_eq_ok_iff.mpr h]
  rfl

theorem exec_saveTeam_of_withholds {fault : SqlFault} (h : (replyAt replies 0).Withholds .teamId fault) :
    (saveTeam config name).exec replies = ⟨.error (.sql fault), [insertTeam config name], []⟩ := by
  rw [exec_saveTeam_of_hasText hname, Program.exec_fetchValue_of_withholds h]
  rfl

end Team

/-! ## The plan -/

/-- Adds the sample member of a number, who is named and aged after it; even numbers go into the first team. -/
def addSample (config : Config) (first second : Option Int64) (number : Nat) : Statement :=
  ⟨[.text "INSERT INTO ", .quoted config.membersTable, .text " (username, age, team_id) VALUES (", .slot 1,
    .text ", ", .slot 2, .text ", ", .slot 3, .text ")"],
    [text ("member" ++ toString number), int (Int64.ofNat number),
      (if number % 2 = 0 then first else second).map .int]⟩

/-- The statements that add that many sample members, whose numbers begin with zero; there is none for a negative
number. -/
def addSamples (config : Config) (first second : Option Int64) (count : Int32) : List Statement :=
  (List.range count.toInt.toNat).map (addSample config first second)

/-- The statements that add two teams and then that many members, with the ids that the first two replies give. -/
def seedPlan (config : Config) (count : Int32) (replies : List Reply) : List Statement :=
  let first := (replyAt replies 0).value? .teamId
  let second := (replyAt replies 1).value? .teamId
  [insertTeam config "teamA", insertTeam config "teamB"] ++ addSamples config first second count

theorem length_addSamples (config : Config) (first second : Option Int64) (count : Int32) :
    (addSamples config first second count).length = count.toInt.toNat := by
  rw [addSamples, List.length_map, List.length_range]

theorem length_seedPlan (config : Config) (count : Int32) (replies : List Reply) :
    (seedPlan config count replies).length = count.toInt.toNat + 2 :=
  congrArg (· + 2) (length_addSamples config _ _ count)

/-- The number of a sample member fits into an age. -/
theorem insertMember_sampleMember (config : Config) (first second : Team) {number : Nat} (h : number < 2 ^ 31) :
    insertMember config (sampleMember first second number) =
      addSample config (some first.id) (some second.id) number := by
  have hage : (Int32.ofNat number).toInt64 = Int64.ofNat number := by
    apply Int32.toInt64_ofNat'
    show (number : Int) ≤ 2147483647
    omega
  have hteam : some (if number % 2 = 0 then first.id else second.id) =
      if number % 2 = 0 then some first.id else some second.id := by
    split <;> rfl
  simp only [insertMember, addSample, sampleMember, Value.ofInt32, hage, hteam, int]
  rfl

/-- However many members are asked for, each is added as planned. -/
theorem seedMembers_eq_addSample (config : Config) (first second : Team) (count : Int32) :
    seedMembers config first second 0 count.toInt.toNat =
      executeEach (addSamples config (some first.id) (some second.id) count) := by
  rw [seedMembers_eq, ← List.range_eq_range']
  refine congrArg executeEach (List.map_congr_left fun number hnumber => ?_)
  -- the numbers are below a count of 32 bits
  apply insertMember_sampleMember
  have hcount := count.toInt_lt
  rw [List.mem_range] at hnumber
  omega

/-! ## Runs -/

/-- The statement at a place fails: a team's statement has to return an id, and a member's has to be accepted. -/
inductive SeedFault (replies : List Reply) : Nat → SqlFault → Prop where
  | firstTeam {fault : SqlFault} (h : (replyAt replies 0).Withholds .teamId fault) : SeedFault replies 0 fault
  | secondTeam {fault : SqlFault} (h : (replyAt replies 1).Withholds .teamId fault) : SeedFault replies 1 fault
  | member {number : Nat} {message : String} (h : replyAt replies (number + 2) = .refusal message) :
      SeedFault replies (number + 2) (.refused message)

/-- No statement before the place fails. -/
def SeedsUntil (replies : List Reply) (place : Nat) : Prop :=
  ∀ earlier < place, ¬∃ fault, SeedFault replies earlier fault

section Runs

variable {config : Config} {count : Int32} {replies : List Reply} {first second : Int64} {place : Nat}

/-- A statement that has to return an id returns one, unless it fails. -/
theorem SeedsUntil.gives {team : Nat} (h : SeedsUntil replies place) (hteam : team < place)
    (hfault : ∀ {fault}, (replyAt replies team).Withholds .teamId fault → SeedFault replies team fault) :
    ∃ id, (replyAt replies team).Gives .teamId id := by
  rcases Reply.gives_or_withholds .teamId (replyAt replies team) with hgives | ⟨fault, hwithholds⟩
  · exact hgives
  · exact absurd ⟨fault, hfault hwithholds⟩ (h team hteam)

theorem SeedsUntil.not_refuses {number : Nat} (h : SeedsUntil replies (place + 2)) (hnumber : number < place) :
    ¬(replyAt (replies.drop 2) number).Refuses := by
  rintro ⟨message, hmessage⟩
  rw [← replyAt_add, Nat.add_comm] at hmessage
  exact h (number + 2) (Nat.add_lt_add_right hnumber 2) ⟨_, .member hmessage⟩

theorem SeedsUntil.mono {earlier : Nat} (h : SeedsUntil replies place) (hle : earlier ≤ place) :
    SeedsUntil replies earlier :=
  fun _ hlt => h _ (Nat.lt_of_lt_of_le hlt hle)

/-- At the first fault it is known up to where there is none. -/
theorem SeedFault.seedsUntil_iff {fault : SqlFault} (h : SeedFault replies place fault)
    (hbefore : SeedsUntil replies place) {bound : Nat} : SeedsUntil replies bound ↔ bound ≤ place := by
  constructor
  · intro hbound
    by_contra hlt
    exact hbound place (Nat.not_le.mp hlt) ⟨fault, h⟩
  · exact hbefore.mono

theorem seedsUntil_of_gives (hfirst : (replyAt replies 0).Gives .teamId first)
    (hsecond : (replyAt replies 1).Gives .teamId second)
    (hmembers : ∀ number, number + 2 < place → ¬(replyAt replies (number + 2)).Refuses) :
    SeedsUntil replies place := by
  rintro earlier hearlier ⟨fault, hfault⟩
  cases hfault with
  | firstTeam h => exact h.not_gives hfirst
  | secondTeam h => exact h.not_gives hsecond
  | member h => exact hmembers _ hearlier ⟨_, h⟩

theorem hasText_sampleTeam : HasText "teamA" ∧ HasText "teamB" :=
  ⟨(Criteria.isBlank_eq_false_iff _).mp rfl, (Criteria.isBlank_eq_false_iff _).mp rfl⟩

/-- Once the teams have their ids, the members follow. -/
theorem exec_seed_of_teams (hfirst : (replyAt replies 0).Gives .teamId first)
    (hsecond : (replyAt replies 1).Gives .teamId second) :
    let teams : Team × Team := (⟨first, "teamA"⟩, ⟨second, "teamB"⟩)
    let rest := (seedMembers config teams.1 teams.2 0 count.toInt.toNat >>= fun _ =>
      .report (.seeded count) (pure teams)).exec (replies.drop 2)
    (seed config count).exec replies =
      ⟨rest.result, insertTeam config "teamA" :: insertTeam config "teamB" :: rest.statements, rest.events⟩ := by
  rw [← replyAt_drop] at hsecond
  intro teams rest
  unfold seed
  rw [Program.exec_bind_ok (exec_saveTeam_of_gives hasText_sampleTeam.1 config hfirst), List.length_singleton,
    Program.exec_bind_ok (exec_saveTeam_of_gives hasText_sampleTeam.2 config hsecond), List.length_singleton,
    List.drop_drop]
  rfl

/-- With both ids in the replies, what is planned for the members is known. -/
theorem seedPlan_of_teams (hfirst : (replyAt replies 0).Gives .teamId first)
    (hsecond : (replyAt replies 1).Gives .teamId second) :
    seedPlan config count replies = insertTeam config "teamA" :: insertTeam config "teamB" ::
      addSamples config (some first) (some second) count := by
  unfold seedPlan
  rw [hfirst.value?_eq, hsecond.value?_eq]
  rfl

/-- Without a fault, all that is planned is done, and this is reported. -/
theorem exec_seed_of_faultless (h : SeedsUntil replies (seedPlan config count replies).length) :
    ∃ first second, (replyAt replies 0).Gives .teamId first ∧ (replyAt replies 1).Gives .teamId second ∧
      (seed config count).exec replies =
        ⟨.ok (⟨first, "teamA"⟩, ⟨second, "teamB"⟩), seedPlan config count replies, [.seeded count]⟩ := by
  rw [length_seedPlan] at h
  rcases h.gives (Nat.succ_pos _) .firstTeam with ⟨first, hfirst⟩
  rcases h.gives (Nat.succ_lt_succ (Nat.succ_pos _)) .secondTeam with ⟨second, hsecond⟩
  have hmembers : (executeEach (addSamples config (some first) (some second) count)).exec (replies.drop 2) =
      ⟨.ok (), addSamples config (some first) (some second) count, []⟩ := by
    apply Program.exec_executeEach_of_accepted
    intro number hnumber
    rw [length_addSamples] at hnumber
    exact h.not_refuses hnumber
  refine ⟨first, second, hfirst, hsecond, ?_⟩
  rw [exec_seed_of_teams hfirst hsecond, seedMembers_eq_addSample, Program.exec_bind_ok hmembers,
    seedPlan_of_teams hfirst hsecond]
  simp only [Program.exec, pure, Run.reporting, List.append_nil, List.nil_append]

/-- The first statement that fails is the last one, and nothing is reported. -/
theorem exec_seed_of_fault {fault : SqlFault} (hplace : place < (seedPlan config count replies).length)
    (hbefore : SeedsUntil replies place) (h : SeedFault replies place fault) :
    (seed config count).exec replies =
      ⟨.error (.sql fault), (seedPlan config count replies).take (place + 1), []⟩ := by
  cases h with
  | firstTeam hfault =>
    exact Program.exec_bind_error (exec_saveTeam_of_withholds hasText_sampleTeam.1 config hfault) _
  | secondTeam hfault =>
    -- the first team has been added by then, and its reply is used up
    rcases hbefore.gives Nat.one_pos .firstTeam with ⟨first, hfirst⟩
    rw [← replyAt_drop] at hfault
    unfold seed
    rw [Program.exec_bind_ok (exec_saveTeam_of_gives hasText_sampleTeam.1 config hfirst), List.length_singleton,
      Program.exec_bind_error (exec_saveTeam_of_withholds hasText_sampleTeam.2 config hfault)]
    rfl
  | @member number message hrefused =>
    rcases hbefore.gives (Nat.succ_pos _) .firstTeam with ⟨first, hfirst⟩
    rcases hbefore.gives (Nat.succ_lt_succ (Nat.succ_pos _)) .secondTeam with ⟨second, hsecond⟩
    have hmembers : (executeEach (addSamples config (some first) (some second) count)).exec (replies.drop 2) =
        ⟨.error (.sql (.refused message)), (addSamples config (some first) (some second) count).take (number + 1),
          []⟩ := by
      -- the places of the members' statements are counted from behind the teams' ones
      apply Program.exec_executeEach_of_refused
      · rw [length_seedPlan] at hplace
        rw [length_addSamples]
        exact Nat.lt_of_add_lt_add_right hplace
      · intro earlier hearlier
        exact hbefore.not_refuses hearlier
      · rw [← replyAt_add, Nat.add_comm]
        exact hrefused
    rw [exec_seed_of_teams hfirst hsecond, seedMembers_eq_addSample, Program.exec_bind_error hmembers,
      seedPlan_of_teams hfirst hsecond]
    rfl

/-- Seeding comes to its end, or to the first statement that fails. -/
theorem exec_seed_cases (config : Config) (count : Int32) (replies : List Reply) :
    let run := (seed config count).exec replies
    let plan := seedPlan config count replies
    (SeedsUntil replies plan.length ∧
      ∃ teams, run = ⟨.ok teams, plan, [.seeded count]⟩) ∨
    (∃ place < plan.length, SeedsUntil replies place ∧
      ∃ fault, SeedFault replies place fault ∧ run = ⟨.error (.sql fault), plan.take (place + 1), []⟩) := by
  intro run plan
  rcases exists_first_lt (fun place => ∃ fault, SeedFault replies place fault) plan.length with
    hnone | ⟨place, hplace, hbefore, fault, hfault⟩
  · rcases exec_seed_of_faultless hnone with ⟨first, second, -, -, hrun⟩
    exact .inl ⟨hnone, _, hrun⟩
  · exact .inr ⟨place, hplace, hbefore, fault, hfault, exec_seed_of_fault hplace hbefore hfault⟩

end Runs

/-- What is sent is a beginning of the plan.  All of it is sent with success exactly if none of its statements fails, and
exactly then there is a result and an event at the level of information; all of it is sent at all exactly if none but
its last statement fails.  The result is the two teams with the ids that the replies gave.  Otherwise the first
statement that fails is the last one, and why it fails is the error. -/
theorem seed_carriedOut (config : Config) (count : Int32) (replies : List Reply) :
    let run := (seed config count).exec replies
    let plan := seedPlan config count replies
    run.statements <+: plan ∧
    (count ≤ 0 → plan = [insertTeam config "teamA", insertTeam config "teamB"]) ∧
    (run.statements = plan ∧ (∃ teams, run.result = .ok teams) ↔ SeedsUntil replies plan.length) ∧
    (run.statements = plan ↔ SeedsUntil replies (plan.length - 1)) ∧
    ((∃ teams, run.result = .ok teams) ↔ SeedsUntil replies plan.length) ∧
    ((∃ event ∈ run.events, event.level = .info) ↔ SeedsUntil replies plan.length) ∧
    (SeedsUntil replies plan.length → ∃ first second,
      (replyAt replies 0).Gives .teamId first ∧ (replyAt replies 1).Gives .teamId second ∧
      run = ⟨.ok (⟨first, "teamA"⟩, ⟨second, "teamB"⟩), plan, [.seeded count]⟩) ∧
    ∀ place < plan.length, SeedsUntil replies place → ∀ fault, SeedFault replies place fault →
      run = ⟨.error (.sql fault), plan.take (place + 1), []⟩ := by
  intro run plan
  have hnone : count ≤ 0 → plan = [insertTeam config "teamA", insertTeam config "teamB"] := by
    intro hcount
    have hzero : count.toInt.toNat = 0 := Int.toNat_eq_zero.mpr (Int32.le_iff_toInt_le.mp hcount)
    simp [plan, seedPlan, addSamples, hzero]
  have hstops : ∀ place < plan.length, SeedsUntil replies place → ∀ fault, SeedFault replies place fault →
      run = ⟨.error (.sql fault), plan.take (place + 1), []⟩ :=
    fun place hplace hbefore fault hfault => exec_seed_of_fault hplace hbefore hfault
  -- either run is known as a whole, and all that is claimed of it can be read off
  rcases exec_seed_cases config count replies with
    ⟨hends, teams, hrun⟩ | ⟨place, hplace, hbefore, fault, hfault, hrun⟩
  · refine ⟨?_, hnone, ?_, ?_, ?_, ?_, exec_seed_of_faultless, hstops⟩
    all_goals simp only [run, hrun]
    · exact List.prefix_rfl
    · exact ⟨fun _ => hends, fun _ => ⟨rfl, teams, rfl⟩⟩
    · exact ⟨fun _ => hends.mono (Nat.sub_le _ _), fun _ => rfl⟩
    · exact ⟨fun _ => hends, fun _ => ⟨teams, rfl⟩⟩
    · exact ⟨fun _ => hends, fun _ => ⟨_, List.mem_singleton_self _, rfl⟩⟩
  · have hends : ¬SeedsUntil replies plan.length := by
      rw [hfault.seedsUntil_iff hbefore]
      exact Nat.not_le.mpr hplace
    refine ⟨?_, hnone, ?_, ?_, ?_, ?_, exec_seed_of_faultless, hstops⟩
    all_goals simp only [run, hrun]
    · exact List.take_prefix _ _
    · exact ⟨fun ⟨_, _, hok⟩ => (nomatch hok), fun h => absurd h hends⟩
    · -- the statement that fails is sent too, so the plan may be complete with it
      rw [List.take_eq_self_iff, hfault.seedsUntil_iff hbefore]
      exact Nat.sub_le_iff_le_add.symm
    · exact ⟨fun ⟨_, hok⟩ => (nomatch hok), fun h => absurd h hends⟩
    · exact ⟨fun ⟨_, hevent, _⟩ => (nomatch hevent), fun h => absurd h hends⟩

/-- Two members are added as planned; of five members the second is refused; and a negative number of members is none
at all. -/
theorem seed_carriedOut_two :
    let config := Config.ofUrl "postgres://localhost/roster"
    let idRow (id : Int64) : Row := ⟨none, none, none, some id, none, none, none, none, none, none, none⟩
    let teams : List Reply := [.outcome ⟨[idRow 7], 1⟩, .outcome ⟨[idRow 8], 1⟩]
    let full : List Reply := teams ++ [.outcome ⟨[], 1⟩, .refusal "disk full"]
    let sent := [insertTeam config "teamA", insertTeam config "teamB", addSample config (some 7) (some 8) 0,
      addSample config (some 7) (some 8) 1]
    (seed config 2).exec teams = ⟨.ok (⟨7, "teamA"⟩, ⟨8, "teamB"⟩), sent, [.seeded 2]⟩ ∧
    (seed config 5).exec full = ⟨.error (.sql (.refused "disk full")), sent, []⟩ ∧
    seedPlan config (-3) teams = [insertTeam config "teamA", insertTeam config "teamB"] := by
  intro config idRow teams full sent
  have hfirst {later : List Reply} : (replyAt (teams ++ later) 0).Gives .teamId 7 := ⟨idRow 7, [], 1, rfl, rfl⟩
  have hsecond {later : List Reply} : (replyAt (teams ++ later) 1).Gives .teamId 8 := ⟨idRow 8, [], 1, rfl, rfl⟩
  have hends : SeedsUntil teams 4 := seedsUntil_of_gives hfirst hsecond fun number _ hrefuses => nomatch hrefuses
  have hbefore : SeedsUntil full 3 := by
    refine seedsUntil_of_gives hfirst hsecond fun number hnumber => ?_
    have hzero : number = 0 := by omega
    rw [hzero]
    rintro ⟨_, hreply⟩
    cases hreply
  rcases seed_carriedOut config 2 teams with ⟨-, -, -, -, -, -, hresult, -⟩
  rcases seed_carriedOut config 5 full with ⟨-, -, -, -, -, -, -, hstops⟩
  rcases seed_carriedOut config (-3) teams with ⟨-, hnone, -⟩
  refine ⟨?_, hstops 3 (by decide) hbefore _ (.member rfl), hnone (by decide)⟩
  rcases hresult hends with ⟨first, second, hfirst', hsecond', hrun⟩
  have heqFirst : some first = some 7 := hfirst'.value?_eq.symm
  have heqSecond : some second = some 8 := hsecond'.value?_eq.symm
  cases heqFirst
  cases heqSecond
  exact hrun

end Store

end Roster
