import Roster.Config
import Roster.Proofs.Sql.TableName

/-! # Valid configurations

* `Config.check_eq_ok_iff`: what the check of a configuration demands.
* `Config.check_ofUrl`: the names of a set-up with nothing else chosen are valid.
* `Config.check_withStem_iff`: with a common stem for both names, the longer one decides how long the stem may be.
* `Config.accepted_names`: all of this together, for names, for configurations and for stems.
-/

namespace Roster.Config

/-- A configuration is valid when both names can be those of tables, the names differ and a cap is positive. -/
theorem check_eq_ok_iff (config : Config) :
    config.check = .ok () ↔
      Sql.checkName config.membersTable = .ok () ∧ Sql.checkName config.teamsTable = .ok () ∧
        config.membersTable ≠ config.teamsTable ∧ ∀ limit, config.unfiltered = .cap limit → 0 < limit := by
  unfold check
  -- the checks are made in this order, and the first that refuses decides
  cases Sql.checkName config.membersTable with
  | error fault =>
    constructor
    · intro h
      cases h
    · rintro ⟨h, -⟩
      cases h
  | ok =>
    cases Sql.checkName config.teamsTable with
    | error fault =>
      constructor
      · intro h
        cases h
      · rintro ⟨-, h, -⟩
        cases h
    | ok =>
      -- both names can be tables' names, but not the same one
      by_cases hshared : config.membersTable = config.teamsTable
      · rw [if_pos hshared]
        constructor
        · intro h
          cases h
        · rintro ⟨-, -, hdiffer, -⟩
          exact absurd hshared hdiffer
      · rw [if_neg hshared]
        cases hpolicy : config.unfiltered with
        | allow | reject =>
          refine ⟨fun _ => ⟨rfl, rfl, hshared, ?_⟩, fun _ => rfl⟩
          intro limit h
          cases h
        | cap limit =>
          by_cases hlimit : limit ≤ 0
          · simp only [if_pos hlimit]
            constructor
            · intro h
              cases h
            · rintro ⟨-, -, -, hpositive⟩
              exact absurd (hpositive limit rfl) (Int64.not_lt.mpr hlimit)
          · simp only [if_neg hlimit]
            refine ⟨fun _ => ⟨trivial, trivial, hshared, ?_⟩, fun _ => rfl⟩
            intro limit' h
            obtain rfl := UnfilteredPolicy.cap.inj h
            exact Int64.not_le.mp hlimit

/-- Of the names that a set-up has unless others are chosen, nothing is left to demand. -/
theorem check_ofUrl (url : String) {policy : UnfilteredPolicy} (hpolicy : ∀ limit, policy = .cap limit → 0 < limit) :
    check { ofUrl url with unfiltered := policy } = .ok () := by
  have hmembers : Sql.checkName "members" = .ok () := by rfl
  have hteams : Sql.checkName "teams" = .ok () := by rfl
  have hdiffer : "members" ≠ "teams" := by decide
  exact (check_eq_ok_iff _).mpr ⟨hmembers, hteams, hdiffer, hpolicy⟩

/-! ## Common stems -/

/-- Two names from a common stem differ by what is added to it. -/
theorem withStem_names_ne (config : Config) (stem : String) :
    (config.withStem stem).membersTable ≠ (config.withStem stem).teamsTable := by
  intro h
  have hchars : (stem ++ "_members").toList = (stem ++ "_teams").toList := congrArg String.toList h
  rw [String.toList_append, String.toList_append] at hchars
  exact absurd (List.append_cancel_left hchars) (by decide)

/-- With a common stem a configuration is valid if the stem is an identifier that leaves room for the longer suffix.  A
keyword will do as well. -/
theorem check_withStem_iff {config : Config} (hpolicy : ∀ limit, config.unfiltered = .cap limit → 0 < limit)
    (stem : String) :
    (config.withStem stem).check = .ok () ↔
      Sql.IsIdentifier stem.toList ∧ (Text.utf8Bytes stem).length ≤ 55 := by
  have hmembers : Sql.IsTableName (config.withStem stem).membersTable ↔
      Sql.IsIdentifier stem.toList ∧ (Text.utf8Bytes stem).length + 8 ≤ 63 :=
    Sql.isTableName_append rfl (by decide)
  have hteams : Sql.IsTableName (config.withStem stem).teamsTable ↔
      Sql.IsIdentifier stem.toList ∧ (Text.utf8Bytes stem).length + 6 ≤ 63 :=
    Sql.isTableName_append rfl (by decide)
  rw [check_eq_ok_iff, Sql.checkName_eq_ok_iff, Sql.checkName_eq_ok_iff, hmembers, hteams]
  constructor
  -- the stem is judged twice, and the longer of the two endings leaves less room for it
  · rintro ⟨⟨hstem, hroom⟩, -, -, -⟩
    exact ⟨hstem, by omega⟩
  · rintro ⟨hstem, hroom⟩
    exact ⟨⟨hstem, by omega⟩, ⟨hstem, by omega⟩, withStem_names_ne config stem, hpolicy⟩

/-! ## What is accepted -/

/-- A name is accepted exactly if it is one for a table, and such a name consists of ASCII characters without a line
break.  A configuration is accepted exactly if both of its names are, they differ and a cap is positive.  With a common
stem and such a policy it is accepted exactly if the stem is an identifier of at most 55 bytes, whether it is a keyword
or not. -/
theorem accepted_names :
    (∀ name, Sql.checkName name = .ok () ↔ Sql.IsTableName name) ∧
    (∀ name, Sql.checkName name = .ok () → ∀ c ∈ name.toList, c.toNat < 128 ∧ c ≠ '\n') ∧
    (∀ config : Config, config.check = .ok () ↔
      Sql.checkName config.membersTable = .ok () ∧ Sql.checkName config.teamsTable = .ok () ∧
        config.membersTable ≠ config.teamsTable ∧ ∀ limit, config.unfiltered = .cap limit → 0 < limit) ∧
    ∀ config : Config, (∀ limit, config.unfiltered = .cap limit → 0 < limit) → ∀ stem,
      (config.withStem stem).check = .ok () ↔
        Sql.IsIdentifier stem.toList ∧ (Text.utf8Bytes stem).length ≤ 55 := by
  refine ⟨fun _ => Sql.checkName_eq_ok_iff, ?_, check_eq_ok_iff, ?_⟩
  · intro name hname
    exact (Sql.checkName_eq_ok_iff.mp hname).forall_mem
  · intro config hpolicy stem
    exact check_withStem_iff hpolicy stem

/-- A keyword is no name for a table but a stem for two, also under a cap; a stem of 55 letters is just short enough, and
one with a line break at its end is none. -/
theorem accepted_names_keyword :
    let config := { ofUrl "postgres://localhost/roster" with unfiltered := .cap 1 }
    let longest := "mmmmmmmmmmmmmmmmmmmmmmmmmmmmmmmmmmmmmmmmmmmmmmmmmmmmmmm"
    Sql.checkName "select" = .error (.reserved "select") ∧ (config.withStem "select").check = .ok () ∧
    (config.withStem longest).check = .ok () ∧ (config.withStem (longest ++ "m")).check ≠ .ok () ∧
    (config.withStem "club\n").check ≠ .ok () ∧
    ∀ c ∈ "members".toList, c.toNat < 128 ∧ c ≠ '\n' := by
  intro config longest
  -- a cap of one row passes the check
  have hpolicy : ∀ limit, config.unfiltered = .cap limit → 0 < limit := by
    intro limit h
    obtain rfl := UnfilteredPolicy.cap.inj h
    decide
  have hidentifier : ∀ {cs : List Char}, Sql.isPlain cs = true → Sql.IsIdentifier cs := Sql.isPlain_iff.mp
  rcases accepted_names with ⟨-, hchars, -, hstems⟩
  refine ⟨rfl, ?_, ?_, ?_, ?_, ?_⟩
  · exact (hstems config hpolicy "select").mpr ⟨hidentifier rfl, by decide⟩
  · exact (hstems config hpolicy longest).mpr ⟨hidentifier (by decide), by decide⟩
  · intro h
    exact absurd ((hstems config hpolicy _).mp h).2 (by decide)
  · intro h
    exact absurd (Sql.isPlain_iff.mpr ((hstems config hpolicy _).mp h).1) (by decide)
  · exact hchars "members" rfl

end Roster.Config
