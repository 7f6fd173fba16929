import Roster.Proofs.Criteria.Age

/-! # The query strings that give criteria

The pairs of a query string give criteria if no known key occurs twice and all ages can be read.  The order of the pairs
and pairs with other keys make no difference.  Where the pairs give no criteria, the first pair that repeats a key or
holds a bad age is named.

* `Criteria.Reads`: what the pairs give.
* `Criteria.FaultAt`, `Criteria.FirstFault`: what is wrong with a pair, and the first pair with which anything is wrong.
* `Criteria.ofPairs_eq_ok_iff`, `Criteria.ofPairs_eq_error_iff`: reading pairs decides just this.
* `Criteria.ofQuery_language`: the same for query strings.
-/

namespace Roster.Criteria

variable {pairs before : List (String × String)} {c : Criteria} {key : Key} {name value : String}

/-! ## Keys -/

theorem Key.name_inj {k l : Key} : k.name = l.name ↔ k = l := by
  cases k <;> cases l <;> decide

theorem Key.named?_eq_some_iff : Key.named? name = some key ↔ name = key.name := by
  constructor
  · intro h
    have hname := List.find?_some h
    exact (beq_iff_eq.mp hname).symm
  -- no two keys share a name
  · rintro rfl
    cases key <;> decide

def Key.IsAge (key : Key) : Prop :=
  key = .minAge ∨ key = .maxAge

/-- The pairs whose keys are known, in their order. -/
def known (pairs : List (String × String)) : List (String × String) :=
  pairs.filter fun pair => (Key.named? pair.1).isSome

/-! ## What pairs give -/

/-- The value of a key, if it is there. -/
def TextIn (pairs : List (String × String)) (key : Key) (text : Option String) : Prop :=
  ∀ value, text = some value ↔ (key.name, value) ∈ pairs

/-- The age that the value of a key gives, if it is there. -/
structure AgeIn (pairs : List (String × String)) (key : Key) (age : Option Int32) : Prop where
  given : ∀ value, (key.name, value) ∈ pairs → GivesAge value age
  absent : key.name ∉ pairs.map Prod.fst → age = none

/-- The pairs have each key once at most, and the parts of the criteria are what their values give. -/
structure Reads (pairs : List (String × String)) (c : Criteria) : Prop where
  once : ∀ key : Key, (pairs.map Prod.fst).count key.name ≤ 1
  username : TextIn pairs .username c.username
  teamName : TextIn pairs .teamName c.teamName
  minAge : AgeIn pairs .minAge c.minAge
  maxAge : AgeIn pairs .maxAge c.maxAge

/-- What is wrong with a pair that follows other pairs: its key is a known one and has been there before, or it is the
first with that key and its value is no age. -/
inductive FaultAt (before : List (String × String)) : String × String → SearchFault → Prop where
  | repeated {key : Key} {value : String} (h : key.name ∈ before.map Prod.fst) :
      FaultAt before (key.name, value) (.repeatedKey key.name)
  | age {key : Key} {value : String} {fault : AgeFault} (hkey : key.IsAge) (hnew : key.name ∉ before.map Prod.fst)
      (hbad : BadAge value fault) : FaultAt before (key.name, value) (.age fault)

/-- Nothing is wrong with any of the pairs. -/
def Clean (pairs : List (String × String)) : Prop :=
  ∀ before pair after, pairs = before ++ pair :: after → ∀ fault, ¬FaultAt before pair fault

/-- What is wrong with the first pair with which anything is wrong. -/
def FirstFault (pairs : List (String × String)) (fault : SearchFault) : Prop :=
  ∃ before pair after, pairs = before ++ pair :: after ∧ Clean before ∧ FaultAt before pair fault

/-! ## One more pair -/

theorem mem_append_pair_iff {key : Key} {v : String} :
    (key.name, v) ∈ pairs ++ [(name, value)] ↔ (key.name, v) ∈ pairs ∨ key.name = name ∧ v = value := by
  rw [List.mem_append, List.mem_singleton, Prod.mk.injEq]

theorem names_append_pair (pairs : List (String × String)) (name value : String) :
    (pairs ++ [(name, value)]).map Prod.fst = pairs.map Prod.fst ++ [name] :=
  List.map_append

theorem not_mem_of_new (hnew : key.name ∉ pairs.map Prod.fst) (value : String) : (key.name, value) ∉ pairs :=
  fun h => hnew (List.mem_map_of_mem h)

/-- A pair with another key changes nothing about the value of a key. -/
theorem TextIn.other {text : Option String} (h : TextIn pairs key text) (hne : key.name ≠ name) (value : String) :
    TextIn (pairs ++ [(name, value)]) key text := by
  intro v
  rw [mem_append_pair_iff, h v]
  simp [hne]

theorem TextIn.new (hnew : key.name ∉ pairs.map Prod.fst) (value : String) :
    TextIn (pairs ++ [(key.name, value)]) key (some value) := by
  intro v
  rw [mem_append_pair_iff, Option.some_inj]
  have hv := not_mem_of_new hnew v
  simp [hv, eq_comm]

theorem AgeIn.other {age : Option Int32} (h : AgeIn pairs key age) (hne : key.name ≠ name) (value : String) :
    AgeIn (pairs ++ [(name, value)]) key age := by
  constructor
  -- a pair of another name adds no value for the key
  · intro v hv
    rw [mem_append_pair_iff] at hv
    rcases hv with hv | ⟨heq, -⟩
    · exact h.given v hv
    · exact absurd heq hne
  · intro habsent
    apply h.absent
    rw [names_append_pair, List.mem_append, not_or] at habsent
    exact habsent.1

theorem AgeIn.new {age : Option Int32} (hnew : key.name ∉ pairs.map Prod.fst) (hage : GivesAge value age) :
    AgeIn (pairs ++ [(key.name, value)]) key age := by
  constructor
  -- the value is the only one, because the key was not there before
  · intro v hv
    rw [mem_append_pair_iff] at hv
    rcases hv with hv | ⟨-, rfl⟩
    · exact absurd hv (not_mem_of_new hnew v)
    · exact hage
  · intro habsent
    rw [names_append_pair, List.mem_append, not_or] at habsent
    exact absurd (List.mem_singleton_self _) habsent.2

/-- A known key that is new occurs once, and any other as often as before. -/
theorem once_append_pair (hnew : ∀ key : Key, key.name = name → name ∉ pairs.map Prod.fst)
    (honce : ∀ key : Key, (pairs.map Prod.fst).count key.name ≤ 1) (value : String) (key : Key) :
    ((pairs ++ [(name, value)]).map Prod.fst).count key.name ≤ 1 := by
  rw [names_append_pair, List.count_append]
  by_cases h : key.name = name
  · rw [h, List.count_eq_zero.mpr (hnew key h), List.count_singleton_self]
  · rw [List.count_eq_zero.mpr (mt List.mem_singleton.mp h)]
    exact honce key

/-- A pair with an unknown key has no effect. -/
theorem Reads.append_unknown (h : Reads pairs c) (hname : ∀ key : Key, key.name ≠ name) (value : String) :
    Reads (pairs ++ [(name, value)]) c where
  once := once_append_pair (fun key hkey => absurd hkey (hname key)) h.once value
  username := h.username.other (hname _) value
  teamName := h.teamName.other (hname _) value
  minAge := h.minAge.other (hname _) value
  maxAge := h.maxAge.other (hname _) value

/-- A pair with a new key fills its part. -/
theorem Reads.append_put (h : Reads pairs c) (hnew : key.name ∉ pairs.map Prod.fst) {c' : Criteria}
    (hput : c.put key value = .ok c') : Reads (pairs ++ [(key.name, value)]) c' := by
  have honce := once_append_pair (fun _ _ => hnew) h.once value
  -- the pair decides its own part, and the three others are as before
  cases key with
  | username =>
    obtain rfl := Except.ok.inj hput
    exact ⟨honce, .new hnew value, h.teamName.other (by decide) value, h.minAge.other (by decide) value,
      h.maxAge.other (by decide) value⟩
  | teamName =>
    obtain rfl := Except.ok.inj hput
    exact ⟨honce, h.username.other (by decide) value, .new hnew value, h.minAge.other (by decide) value,
      h.maxAge.other (by decide) value⟩
  | minAge =>
    rcases map_eq_ok_iff.mp hput with ⟨age, hage, rfl⟩
    rw [ageOfText_eq_ok_iff] at hage
    exact ⟨honce, h.username.other (by decide) value, h.teamName.other (by decide) value, .new hnew hage,
      h.maxAge.other (by decide) value⟩
  | maxAge =>
    rcases map_eq_ok_iff.mp hput with ⟨age, hage, rfl⟩
    rw [ageOfText_eq_ok_iff] at hage
    exact ⟨honce, h.username.other (by decide) value, h.teamName.other (by decide) value,
      h.minAge.other (by decide) value, .new hnew hage⟩

theorem put_eq_error_iff {fault : AgeFault} : c.put key value = .error fault ↔ key.IsAge ∧ BadAge value fault := by
  cases key with
  | username | teamName => simp [put, Key.IsAge]
  | minAge | maxAge =>
    rw [put, map_eq_error_iff, ageOfText_eq_error_iff]
    simp [Key.IsAge]

/-! ## Pairs that are read have no fault -/

theorem two_le_count (h : key.name ∈ before.map Prod.fst) (value : String) (after : List (String × String)) :
    2 ≤ ((before ++ (key.name, value) :: after).map Prod.fst).count key.name := by
  have hbefore := List.count_pos_iff.mpr h
  rw [List.map_append, List.map_cons, List.count_append, List.count_cons_self]
  omega

theorem Reads.clean (h : Reads pairs c) : Clean pairs := by
  rintro before _ after rfl fault hfault
  cases hfault with
  -- the key would occur twice
  | @repeated key value hseen =>
    have htwice := two_le_count hseen value after
    have honce := h.once key
    omega
  | @age key value fault hkey hnew hbad =>
    have hmem : (key.name, value) ∈ before ++ (key.name, value) :: after :=
      List.mem_append_right before (List.mem_cons_self ..)
    -- its value would give an age
    rcases hkey with rfl | rfl
    · exact hbad.not_givesAge _ (h.minAge.given value hmem)
    · exact hbad.not_givesAge _ (h.maxAge.given value hmem)

/-! ## Reading pairs -/

/-- How far the pairs have been read: what they give, and the keys that have been there. -/
structure Progress (before : List (String × String)) (seen : List Key) (c : Criteria) : Prop where
  reads : Reads before c
  seen : ∀ key, key ∈ seen ↔ key.name ∈ before.map Prod.fst

theorem progress_nil : Progress [] [] empty := by
  -- without pairs every part is absent, and no key has been seen
  refine ⟨⟨?_, ?_, ?_, ?_, ?_⟩, ?_⟩
  · intro key
    exact Nat.zero_le 1
  · intro value
    simp [empty]
  · intro value
    simp [empty]
  · exact ⟨fun _ h => absurd h List.not_mem_nil, fun _ => rfl⟩
  · exact ⟨fun _ h => absurd h List.not_mem_nil, fun _ => rfl⟩
  · intro key
    simp

theorem Progress.unknown {seen : List Key} (h : Progress before seen c) (hname : ∀ key : Key, key.name ≠ name)
    (value : String) : Progress (before ++ [(name, value)]) seen c := by
  refine ⟨h.reads.append_unknown hname value, ?_⟩
  intro key
  rw [names_append_pair, List.mem_append, List.mem_singleton, h.seen]
  simp [hname key]

theorem Progress.put {seen : List Key} (h : Progress before seen c) (hnew : key ∉ seen) {c' : Criteria}
    (hput : c.put key value = .ok c') : Progress (before ++ [(key.name, value)]) (key :: seen) c' := by
  rw [h.seen] at hnew
  refine ⟨h.reads.append_put hnew hput, ?_⟩
  intro k
  rw [names_append_pair, List.mem_append, List.mem_singleton, List.mem_cons, h.seen, Key.name_inj, or_comm]

/-- What reading pairs results in: what the pairs give, or the first fault in them. -/
def ResultsIn (pairs : List (String × String)) : Except SearchFault Criteria → Prop
  | .ok c => Reads pairs c
  | .error fault => FirstFault pairs fault

/-- Reading goes on from pair to pair, and it stops at the first one with which anything is wrong. -/
theorem resultsIn_ofPairsAfter {seen : List Key} (h : Progress before seen c) (rest : List (String × String)) :
    ResultsIn (before ++ rest) (ofPairsAfter seen c rest) := by
  -- the induction is on the pairs to come; what is known of those before them is carried along
  induction rest generalizing before seen c with
  | nil =>
    rw [List.append_nil]
    exact h.reads
  | cons pair rest ih =>
    rcases pair with ⟨name, value⟩
    have hnext : before ++ (name, value) :: rest = before ++ [(name, value)] ++ rest := by
      rw [List.append_assoc, List.singleton_append]
    rw [ofPairsAfter]
    cases hkey : Key.named? name with
    | none =>
      -- the pair is passed over
      have hname : ∀ key : Key, key.name ≠ name := by
        rintro key rfl
        rw [Key.named?_eq_some_iff.mpr rfl] at hkey
        cases hkey
      rw [hnext]
      exact ih (h.unknown hname value)
    | some key =>
      obtain rfl := Key.named?_eq_some_iff.mp hkey
      show ResultsIn _ (if seen.contains key then _ else _)
      -- a repeated key is a fault whatever its value, and only the value of a new one decides
      by_cases hseen : key ∈ seen
      · rw [if_pos (List.contains_iff_mem.mpr hseen)]
        exact ⟨before, _, rest, rfl, h.reads.clean, .repeated ((h.seen key).mp hseen)⟩
      · rw [if_neg (mt List.contains_iff_mem.mp hseen)]
        cases hput : c.put key value with
        | error fault =>
          rcases put_eq_error_iff.mp hput with ⟨hage, hbad⟩
          exact ⟨before, _, rest, rfl, h.reads.clean, .age hage (mt (h.seen key).mpr hseen) hbad⟩
        | ok c' =>
          rw [hnext]
          exact ih (h.put hseen hput)

theorem resultsIn_ofPairs (pairs : List (String × String)) : ResultsIn pairs (ofPairs pairs) :=
  resultsIn_ofPairsAfter progress_nil pairs

/-! ## At most one result -/

theorem TextIn.unique {text other : Option String} (h : TextIn pairs key text) (hother : TextIn pairs key other) :
    text = other := by
  apply Option.ext
  intro value
  rw [h value, hother value]

theorem AgeIn.unique {age other : Option Int32} (h : AgeIn pairs key age) (hother : AgeIn pairs key other) :
    age = other := by
  -- the value of the key gives one age only, and without the key both are absent
  by_cases hmem : key.name ∈ pairs.map Prod.fst
  · rcases List.mem_map.mp hmem with ⟨⟨name, value⟩, hpair, rfl⟩
    exact (h.given value hpair).unique (hother.given value hpair)
  · rw [h.absent hmem, hother.absent hmem]

theorem Reads.unique {other : Criteria} (h : Reads pairs c) (hother : Reads pairs other) : c = other := by
  rcases c with ⟨username, teamName, minAge, maxAge⟩
  rcases other with ⟨username', teamName', minAge', maxAge'⟩
  rw [Criteria.mk.injEq]
  exact ⟨h.username.unique hother.username, h.teamName.unique hother.teamName, h.minAge.unique hother.minAge,
    h.maxAge.unique hother.maxAge⟩

theorem faultAt_iff {fault : SearchFault} : FaultAt before (key.name, value) fault ↔
    key.name ∈ before.map Prod.fst ∧ fault = .repeatedKey key.name ∨
    key.IsAge ∧ key.name ∉ before.map Prod.fst ∧ ∃ cause, BadAge value cause ∧ fault = .age cause := by
  constructor
  · intro h
    -- the pair is taken apart in an equation, since a case analysis needs it as a variable
    generalize hpair : (key.name, value) = pair at h
    cases h with
    | repeated hseen =>
      rw [Prod.mk.injEq] at hpair
      rw [hpair.1]
      exact .inl ⟨hseen, rfl⟩
    | age hkey hnew hbad =>
      rw [Prod.mk.injEq, Key.name_inj] at hpair
      rw [hpair.1, hpair.2]
      exact .inr ⟨hkey, hnew, _, hbad, rfl⟩
  · rintro (⟨hseen, rfl⟩ | ⟨hkey, hnew, cause, hbad, rfl⟩)
    · exact .repeated hseen
    · exact .age hkey hnew hbad

theorem FaultAt.unique {pair : String × String} {fault other : SearchFault} (h : FaultAt before pair fault)
    (hother : FaultAt before pair other) : fault = other := by
  -- a key is new or it is not, so one kind of fault excludes the other
  cases h with
  | repeated hseen =>
    rcases faultAt_iff.mp hother with ⟨-, rfl⟩ | ⟨-, hnew, -⟩
    · rfl
    · exact absurd hseen hnew
  | age hkey hnew hbad =>
    rcases faultAt_iff.mp hother with ⟨hseen, -⟩ | ⟨-, -, cause, hcause, rfl⟩
    · exact absurd hseen hnew
    · rw [hbad.unique hcause]

theorem FirstFault.unique {fault other : SearchFault} (h : FirstFault pairs fault) (hother : FirstFault pairs other) :
    fault = other := by
  rcases h with ⟨before, pair, after, rfl, hclean, hfault⟩
  rcases hother with ⟨before', pair', after', hpairs, hclean', hfault'⟩
  -- neither of the two pairs stands before the other one, because nothing is wrong with what stands before either
  rcases List.append_eq_append_iff.mp hpairs with ⟨between, hbefore, hrest⟩ | ⟨between, hbefore, hrest⟩
  · -- the second pair is at the same place or behind the first one
    cases between with
    | nil =>
      rw [List.append_nil] at hbefore
      rw [List.nil_append, List.cons.injEq] at hrest
      rw [hbefore, ← hrest.1] at hfault'
      exact hfault.unique hfault'
    | cons first between =>
      rw [List.cons_append, List.cons.injEq] at hrest
      rw [← hrest.1] at hbefore
      exact absurd hfault (hclean' before pair between hbefore fault)
  · -- the same with the two pairs exchanged
    cases between with
    | nil =>
      rw [List.append_nil] at hbefore
      rw [List.nil_append, List.cons.injEq] at hrest
      rw [← hbefore, hrest.1] at hfault'
      exact hfault.unique hfault'
    | cons first between =>
      rw [List.cons_append, List.cons.injEq] at hrest
      rw [← hrest.1] at hbefore
      exact absurd hfault' (hclean before' pair' between hbefore other)

theorem FirstFault.not_reads {fault : SearchFault} (h : FirstFault pairs fault) (c : Criteria) : ¬Reads pairs c := by
  rcases h with ⟨before, pair, after, hpairs, -, hfault⟩
  exact fun hreads => hreads.clean before pair after hpairs fault hfault

/-- Pairs are read as the criteria that they give. -/
theorem ofPairs_eq_ok_iff : ofPairs pairs = .ok c ↔ Reads pairs c := by
  have hactual := resultsIn_ofPairs pairs
  -- what has been read and what has gone wrong exclude each other
  cases hresult : ofPairs pairs with
  | ok other =>
    rw [hresult] at hactual
    constructor
    · intro h
      exact Except.ok.inj h ▸ hactual
    · intro h
      rw [Reads.unique hactual h]
  | error fault =>
    rw [hresult] at hactual
    constructor
    · intro h
      cases h
    · intro h
      exact absurd h (FirstFault.not_reads hactual c)

/-- Pairs are refused for the first fault in them. -/
theorem ofPairs_eq_error_iff {fault : SearchFault} : ofPairs pairs = .error fault ↔ FirstFault pairs fault := by
  have hactual := resultsIn_ofPairs pairs
  cases hresult : ofPairs pairs with
  | ok c =>
    rw [hresult] at hactual
    constructor
    · intro h
      cases h
    · intro h
      exact absurd hactual (h.not_reads c)
  | error other =>
    rw [hresult] at hactual
    constructor
    · intro h
      exact Except.error.inj h ▸ hactual
    · intro h
      rw [FirstFault.unique hactual h]

/-- The pairs give criteria exactly if no known key occurs twice and all ages can be read. -/
theorem exists_reads_iff : (∃ c, Reads pairs c) ↔
    (∀ key : Key, (pairs.map Prod.fst).count key.name ≤ 1) ∧
    ∀ key : Key, key.IsAge → ∀ value, (key.name, value) ∈ pairs → ∃ age, GivesAge value age := by
  constructor
  · rintro ⟨c, h⟩
    refine ⟨h.once, ?_⟩
    rintro key (rfl | rfl) value hvalue
    · exact ⟨_, h.minAge.given value hvalue⟩
    · exact ⟨_, h.maxAge.given value hvalue⟩
  · rintro ⟨honce, hages⟩
    have hactual := resultsIn_ofPairs pairs
    cases hresult : ofPairs pairs with
    | ok c => exact ⟨c, ofPairs_eq_ok_iff.mp hresult⟩
    | error fault =>
      -- the first fault, if there was one, would break one of the two conditions
      rcases ofPairs_eq_error_iff.mp hresult with ⟨before, pair, after, rfl, -, hfault⟩
      cases hfault with
      | @repeated key value hseen =>
        have htwice := two_le_count hseen value after
        have hone := honce key
        omega
      | @age key value _ hkey _ hbad =>
        rcases hages key hkey value (List.mem_append_right before (List.mem_cons_self ..)) with ⟨age, hage⟩
        exact absurd hage (hbad.not_givesAge age)

/-! ## Pairs without effect, and their order -/

theorem ofPairsAfter_known (seen : List Key) (c : Criteria) (pairs : List (String × String)) :
    ofPairsAfter seen c (known pairs) = ofPairsAfter seen c pairs := by
  induction pairs generalizing seen c with
  | nil => rfl
  | cons pair pairs ih =>
    rcases pair with ⟨name, value⟩
    cases hkey : Key.named? name with
    | none =>
      -- a pair with an unknown key has no effect, whether it is there or not
      have hknown : known ((name, value) :: pairs) = known pairs := List.filter_cons_of_neg (by simp [hkey])
      rw [hknown, ofPairsAfter, hkey]
      exact ih seen c
    | some key =>
      have hknown : known ((name, value) :: pairs) = (name, value) :: known pairs :=
        List.filter_cons_of_pos (by simp [hkey])
      rw [hknown, ofPairsAfter, ofPairsAfter, hkey]
      simp only [ih]

/-- Pairs with unknown keys have no effect. -/
theorem ofPairs_known (pairs : List (String × String)) : ofPairs (known pairs) = ofPairs pairs :=
  ofPairsAfter_known [] empty pairs

theorem TextIn.perm {other : List (String × String)} (hperm : pairs.Perm other) {text : Option String}
    (h : TextIn pairs key text) : TextIn other key text := by
  intro value
  rw [h value, hperm.mem_iff]

theorem AgeIn.perm {other : List (String × String)} (hperm : pairs.Perm other) {age : Option Int32}
    (h : AgeIn pairs key age) : AgeIn other key age := by
  constructor
  · intro value hvalue
    exact h.given value (hperm.mem_iff.mpr hvalue)
  · intro habsent
    exact h.absent (mt (hperm.map Prod.fst).mem_iff.mp habsent)

/-- The order of the pairs makes no difference to what they give. -/
theorem Reads.perm {other : List (String × String)} (hperm : pairs.Perm other) (h : Reads pairs c) :
    Reads other c where
  once key := (hperm.map Prod.fst).count_eq key.name ▸ h.once key
  username := h.username.perm hperm
  teamName := h.teamName.perm hperm
  minAge := h.minAge.perm hperm
  maxAge := h.maxAge.perm hperm

theorem ofPairs_eq_ok_congr {other : List (String × String)} (hperm : (known pairs).Perm (known other)) :
    ofPairs pairs = .ok c ↔ ofPairs other = .ok c := by
  rw [← ofPairs_known pairs, ← ofPairs_known other, ofPairs_eq_ok_iff, ofPairs_eq_ok_iff]
  exact ⟨.perm hperm, .perm hperm.symm⟩

/-! ## Query strings -/

/-- A question mark at the beginning is taken away, and no second one. -/
theorem queryBody_spec (s : String) :
    s.toList.head? = some '?' ∧ s = "?" ++ queryBody s ∨ s.toList.head? ≠ some '?' ∧ queryBody s = s := by
  unfold queryBody
  split
  case h_1 cs hs =>
    refine .inl ⟨by rw [hs, List.head?_cons], ?_⟩
    rw [← String.toList_inj, hs]
    simp
  case h_2 hs =>
    refine .inr ⟨?_, rfl⟩
    intro hhead
    rcases List.head?_eq_some_iff.mp hhead with ⟨cs, hcs⟩
    exact hs cs hcs

/-- A query string, without a question mark at its beginning, gives criteria exactly if no known key occurs twice among
its pairs and all ages can be read.  The criteria are what the values of the keys give: texts as they are, and ages as
the numbers that they spell.  Other pairs have no effect, and the order of the pairs makes no difference to what they
give.  A query string that gives no criteria is refused for the first pair that repeats a key or holds a bad age. -/
theorem ofQuery_language (s : String) :
    (s.toList.head? = some '?' ∧ s = "?" ++ queryBody s ∨ s.toList.head? ≠ some '?' ∧ queryBody s = s) ∧
    let pairs := Text.formPairs (queryBody s)
    ((∃ c, ofQuery s = .ok c) ↔
      (∀ key : Key, (pairs.map Prod.fst).count key.name ≤ 1) ∧
      ∀ key : Key, key.IsAge → ∀ value, (key.name, value) ∈ pairs → ∃ age, GivesAge value age) ∧
    (∀ c, ofQuery s = .ok c ↔ Reads pairs c) ∧
    (∀ fault, ofQuery s = .error fault ↔ FirstFault pairs fault) ∧
    (∀ t, known (Text.formPairs (queryBody t)) = known pairs → ofQuery t = ofQuery s) ∧
    ∀ t, (known (Text.formPairs (queryBody t))).Perm (known pairs) → ∀ c, ofQuery t = .ok c ↔ ofQuery s = .ok c := by
  refine ⟨queryBody_spec s, ?_, ?_, ?_, ?_, ?_⟩
  · rw [← exists_reads_iff]
    exact exists_congr fun c => ofPairs_eq_ok_iff
  · intro c
    exact ofPairs_eq_ok_iff
  · intro fault
    exact ofPairs_eq_error_iff
  · intro t hsame
    rw [ofQuery, ofQuery, ← ofPairs_known, hsame, ofPairs_known]
  · intro t hperm c
    exact ofPairs_eq_ok_congr hperm

/-- The same pairs in another order, with another pair between them, and a query string in which the repeated key comes
before the bad age. -/
theorem ofQuery_language_ada :
    let ada : Criteria := ⟨some "Ada L", none, some 30, none⟩
    ofQuery "?ageGoe=%2030&x=1&username=Ada+L" = .ok ada ∧
    Reads (Text.formPairs "ageGoe=%2030&x=1&username=Ada+L") ada ∧
    ofQuery "ageGoe=%2030&username=Ada+L" = .ok ada ∧
    ofQuery "username=Ada%20L&ageGoe=+30" = .ok ada ∧
    FirstFault (Text.formPairs (queryBody "teamName=A&teamName=&ageLoe=old")) (.repeatedKey "teamName") := by
  intro ada
  have hada : ofQuery "?ageGoe=%2030&x=1&username=Ada+L" = .ok ada := by rfl
  have hfaulty : ofQuery "teamName=A&teamName=&ageLoe=old" = .error (.repeatedKey "teamName") := by rfl
  rcases ofQuery_language "?ageGoe=%2030&x=1&username=Ada+L" with ⟨-, -, hreads, -, hsame, hperm⟩
  rcases ofQuery_language "teamName=A&teamName=&ageLoe=old" with ⟨-, -, -, hfault, -, -⟩
  refine ⟨hada, (hreads ada).mp hada, ?_, ?_, (hfault _).mp hfaulty⟩
  · rw [hsame "ageGoe=%2030&username=Ada+L" (by decide +kernel)]
    exact hada
  · exact (hperm "username=Ada%20L&ageGoe=+30" (by decide +kernel) ada).mpr hada

end Roster.Criteria
