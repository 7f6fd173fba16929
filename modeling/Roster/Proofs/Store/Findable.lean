import Roster.Proofs.Store.Seeding

/-! # What is stored can be searched for

A name is refused when trimming leaves nothing of it, and a search drops a name that has no character but blanks.  These
are the same names.  So a member that the store accepts is found by the member's own name, team and age, and a search
for these is never one without filters.

* `Run.Accepted`: nothing that a call was given breaks a rule.
* `Criteria.exactly`: the criteria made of a member and the member's team.
* `Store.accepted_saveTeam_iff`, `Store.accepted_saveMember_iff`: which teams and members the store accepts.
* `Store.accepted_findable`: a search drops just the names that the store refuses, and it finds what the store accepts.
-/

namespace Roster

/-- Nothing that the call was given breaks a rule; it may still fail because of what the database replies. -/
def Run.Accepted {α : Type} (run : Run α) : Prop :=
  ∀ violation, run.result ≠ .error (.validation violation)

namespace Criteria

/-- The criteria that ask for the name and the age of a member and for the name of the team, if there is one. -/
def exactly (member : NewMember) (team : Option Team) : Criteria :=
  ⟨some member.username, team.map Team.name, some member.age, some member.age⟩

def exactComparisons (member : NewMember) (team : Option Team) : List Predicate.Leaf :=
  [⟨.username, .eq, .text member.username⟩] ++ team.toList.map (fun t => ⟨.teamName, .eq, .text t.name⟩) ++
    [⟨.age, .ge, .ofInt32 member.age⟩, ⟨.age, .le, .ofInt32 member.age⟩]

/-! ## Names that a search drops -/

theorem textFilter_eq_none_iff (field : Field) (s : String) : textFilter field (some s) = none ↔ ¬HasText s := by
  rw [textFilter_eq, Option.map_eq_none_iff, textComparison?, Option.bind_some, ite_eq_right_iff]
  exact ⟨fun hdropped htext => Option.some_ne_none _ (hdropped htext), fun hnot htext => absurd htext hnot⟩

/-! ## The search for a member -/

variable {member : NewMember} {team : Option Team}

theorem textComparison?_of_hasText (field : Field) {s : String} (h : HasText s) :
    textComparison? field (some s) = some ⟨field, .eq, .text s⟩ :=
  textComparison?_eq_some_iff.mpr ⟨s, rfl, h, rfl⟩

/-- Names with text leave all comparisons in the filter. -/
theorem leaves_exactly (hname : HasText member.username) (hteam : ∀ t, team = some t → HasText t.name) :
    (exactly member team).filter.leaves = exactComparisons member team := by
  have husername : (exactly member team).comparison? .username = some ⟨.username, .eq, .text member.username⟩ :=
    textComparison?_of_hasText .username hname
  have hminAge : (exactly member team).comparison? .minAge = some ⟨.age, .ge, .ofInt32 member.age⟩ := rfl
  have hmaxAge : (exactly member team).comparison? .maxAge = some ⟨.age, .le, .ofInt32 member.age⟩ := rfl
  rw [leaves_filter, Key.values, List.filterMap_cons_some husername]
  -- the team is the part that may be absent
  rcases team with _ | t
  · rw [List.filterMap_cons_none rfl, List.filterMap_cons_some hminAge, List.filterMap_cons_some hmaxAge]
    rfl
  · have hteamName : (exactly member (some t)).comparison? .teamName = some ⟨.teamName, .eq, .text t.name⟩ :=
      textComparison?_of_hasText .teamName (hteam t rfl)
    rw [List.filterMap_cons_some hteamName, List.filterMap_cons_some hminAge, List.filterMap_cons_some hmaxAge]
    rfl

/-- The line of a member is what criteria made of the member ask for. -/
theorem admits_exactly (member : NewMember) (team : Option Team) (memberId : Int64) :
    (exactly member team).Admits (Entry.ofTeam memberId member.username member.age team) := by
  refine ⟨?_, ?_, ?_, ?_⟩
  -- the name of the member, the name of the team, and the two bounds on the age
  · intro s hs _
    exact Option.some.inj hs
  · intro s hs _
    exact hs
  · intro n hn
    rw [← Option.some.inj hn]
    exact Int32.le_refl _
  · intro n hn
    rw [← Option.some.inj hn]
    exact Int32.le_refl _

end Criteria

namespace Store

open Criteria (HasText)

/-! ## What the store accepts -/

/-- A statement that returns one value breaks no rule, whatever is made of the value. -/
theorem result_fetchValue_ne_validation {α β : Type} (column : Column α) (statement : Statement)
    (replies : List Reply) (f : α → β) (violation : Violation) :
    ((Program.fetchValue column statement).exec replies).result.map f ≠ .error (.validation violation) := by
  rcases Reply.gives_or_withholds column (replyAt replies 0) with ⟨value, hgives⟩ | ⟨fault, hwithholds⟩
  · rw [Program.result_fetchValue_eq_ok_iff.mpr hgives]
    exact nofun
  · rw [Program.exec_fetchValue_of_withholds hwithholds]
    exact nofun

/-- A team that is not found is no broken rule. -/
theorem TeamRefused.ne_validation {config : Config} {replies : List Reply} {teamId : Option Int64}
    {statements : List Statement} {e : Error} (h : TeamRefused config replies teamId statements e)
    (violation : Violation) : e ≠ .validation violation := by
  rcases h with ⟨hdenied⟩
  generalize replyAt replies 0 = reply at hdenied
  rcases hdenied <;> exact nofun

theorem accepted_saveTeam_iff (config : Config) (name : String) (replies : List Reply) :
    ((saveTeam config name).exec replies).Accepted ↔ HasText name := by
  constructor
  · intro h
    -- a blank name would be refused
    by_contra hname
    exact h .blankTeamName (congrArg Run.result (exec_saveTeam_of_blank hname config replies))
  · intro hname violation
    rw [exec_saveTeam_of_hasText hname]
    exact result_fetchValue_ne_validation .teamId _ replies _ violation

theorem accepted_saveMember_iff (config : Config) (member : NewMember) (replies : List Reply) :
    ((saveMember config member).exec replies).Accepted ↔ HasText member.username ∧ 0 ≤ member.age := by
  constructor
  · intro h
    have hname : HasText member.username := by
      by_contra hname
      exact h .blankUsername (congrArg Run.result (exec_saveMember_of_refused (.blank hname)))
    -- with a name, a negative age would be refused
    refine ⟨hname, Int32.not_lt.mp ?_⟩
    intro hage
    exact h (.negativeAge member.age) (congrArg Run.result (exec_saveMember_of_refused (.negative hname hage)))
  · rintro ⟨hname, hage⟩ violation
    by_cases hteam : TeamFound member.teamId replies
    · rw [exec_saveMember_of_addable ⟨hname, hage, hteam⟩]
      exact result_fetchValue_ne_validation .memberId _ _ _ violation
    -- a team that is not found leads to an error of another kind
    · rcases exists_teamRefused hteam config with ⟨statements, e, hrefused⟩
      rw [exec_saveMember_of_refused (.team hname hage hrefused)]
      exact fun heq => hrefused.ne_validation violation (Except.error.inj heq)

/-! ## Names that the store refuses -/

theorem result_saveTeam_eq_blank_iff (config : Config) (name : String) (replies : List Reply) :
    ((saveTeam config name).exec replies).result = .error (.validation .blankTeamName) ↔ ¬HasText name := by
  constructor
  · intro h hname
    exact (accepted_saveTeam_iff config name replies).mpr hname _ h
  · intro hname
    rw [exec_saveTeam_of_blank hname]

theorem result_saveMember_eq_blank_iff (config : Config) (member : NewMember) (replies : List Reply) :
    ((saveMember config member).exec replies).result = .error (.validation .blankUsername) ↔
      ¬HasText member.username := by
  constructor
  · intro h hname
    by_cases hage : member.age < 0
    · -- the name is looked at first, but here it is the age that is refused
      rw [exec_saveMember_of_refused (.negative hname hage)] at h
      -- neither the name nor the age is refused, so the call is accepted
      cases h
    · exact (accepted_saveMember_iff config member replies).mpr ⟨hname, Int32.not_lt.mp hage⟩ _ h
  · intro hname
    rw [exec_saveMember_of_refused (.blank hname)]

/-! ## Storing and searching -/

/-- The names that are refused as blank, for teams and for members, are just those that a search drops.  If a member is
accepted, and the team too, if there is one, then the filter made of the member's name and age and of the team's name
keeps all of them, so that it restricts something, and the member's line of the roster satisfies it. -/
theorem accepted_findable (config : Config) (replies : List Reply) :
    (∀ name, ((saveTeam config name).exec replies).result = .error (.validation .blankTeamName) ↔
      Criteria.teamNameIs (some name) = none) ∧
    (∀ member, ((saveMember config member).exec replies).result = .error (.validation .blankUsername) ↔
      Criteria.usernameIs (some member.username) = none) ∧
    ∀ (member : NewMember) (team : Option Team) (memberId : Int64),
      ((saveMember config member).exec replies).Accepted →
      (∀ t, team = some t → ((saveTeam config t.name).exec replies).Accepted) →
      let filter := (Criteria.exactly member team).filter
      filter.leaves = Criteria.exactComparisons member team ∧ filter ≠ .always ∧
        filter.holds (Entry.ofTeam memberId member.username member.age team).record = true := by
  refine ⟨?_, ?_, ?_⟩
  · intro name
    rw [result_saveTeam_eq_blank_iff, Criteria.teamNameIs, Criteria.textFilter_eq_none_iff]
  · intro member
    rw [result_saveMember_eq_blank_iff, Criteria.usernameIs, Criteria.textFilter_eq_none_iff]
  · intro member team memberId hmember hteam filter
    have hname := ((accepted_saveMember_iff config member replies).mp hmember).1
    have hteamName : ∀ t, team = some t → HasText t.name := by
      intro t ht
      exact (accepted_saveTeam_iff config t.name replies).mp (hteam t ht)
    refine ⟨Criteria.leaves_exactly hname hteamName, ?_, ?_⟩
    · intro halways
      -- a filter that restricts nothing would not ask for the name
      exact (Criteria.filter_eq_always_iff _).mp halways .username ⟨_, rfl, hname⟩
    · exact (Criteria.holds_filter_entry_iff _ _).mpr (Criteria.admits_exactly member team memberId)

/-- A member whose name has blanks around it, in a team and without one. -/
theorem accepted_findable_ada :
    let config := Config.ofUrl "postgres://localhost/roster"
    let ada : NewMember := ⟨" Ada\t", 36, some 7⟩
    let core : Team := ⟨7, "Core"⟩
    ((saveMember config ada).exec []).Accepted ∧ ((saveTeam config core.name).exec []).Accepted ∧
      (Criteria.exactly ada (some core)).filter.leaves.length = 4 ∧
      (Criteria.exactly ada none).filter.holds (Entry.ofTeam 41 " Ada\t" 36 none).record = true ∧
      ((saveTeam config " \t").exec []).result = .error (.validation .blankTeamName) := by
  intro config ada core
  have hname : HasText " Ada\t" := (Criteria.isBlank_eq_false_iff _).mp rfl
  have hteamName : HasText "Core" := (Criteria.isBlank_eq_false_iff _).mp rfl
  have hada : ((saveMember config ada).exec []).Accepted :=
    (accepted_saveMember_iff config ada []).mpr ⟨hname, by decide⟩
  have hcore : ((saveTeam config core.name).exec []).Accepted :=
    (accepted_saveTeam_iff config core.name []).mpr hteamName
  rcases accepted_findable config [] with ⟨hblank, -, hfound⟩
  have hteam : ∀ t, some core = some t → ((saveTeam config t.name).exec []).Accepted := by
    intro t ht
    rw [← Option.some.inj ht]
    exact hcore
  refine ⟨hada, hcore, ?_, ?_, ?_⟩
  · rw [(hfound ada (some core) 41 hada hteam).1]
    rfl
  · exact (hfound ada none 41 hada nofun).2.2
  · exact (hblank " \t").mpr rfl

end Store

end Roster
