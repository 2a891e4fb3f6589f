import Optima.Backtracking.Search
import Optima.Proofs.Backtracking.Tree
import Optima.Proofs.Problem.Propagation

namespace Optima

/-!
# Grids and levels

Backtracking visits the points of a grid level by level.
-/

/-!
## Points of a grid

Putting the values of a variable into some order loses none of them and adds none.  The
values of a discrete variable are finite numbers, so each of them can be told to a user.
-/

namespace RandomSource

variable {γ α β : Type} [RandomSource γ α]

theorem exchange_perm
    (items : List β)
    (first second : Nat) :
    (exchange items first second).Perm items := by
  unfold exchange
  split
  · rename_i left right isLeft isRight
    obtain ⟨inRange, rfl⟩ := List.getElem?_eq_some_iff.mp isLeft
    obtain ⟨inRangeToo, rfl⟩ := List.getElem?_eq_some_iff.mp isRight
    exact List.set_set_perm inRange inRangeToo
  · exact .refl items

theorem shuffleFrom_perm
    (last : Nat)
    (items : List β)
    (source : γ) :
    (shuffleFrom α last items source).1.Perm items := by
  induction last generalizing items source with
  | zero =>
      exact .refl items
  | succ last inductionHypothesis =>
      exact (inductionHypothesis _ _).trans (exchange_perm items (last + 1) _)

/-- The items of a list in random order are its items. -/
theorem shuffle_perm
    (items : List β)
    (source : γ) :
    (shuffle α items source).1.Perm items :=
  shuffleFrom_perm (items.length - 1) items source

end RandomSource

namespace Grid

variable {α : Type} [Scalar α]

/-- The grids of the variables in order. -/
def grids (candidates : Candidates α) (steps : Nat) : Except (EvalFailure α) (List (List α)) :=
  (candidates.problem.decisions.zip candidates.bounds).mapM fun (decision, interval) =>
    domain candidates steps decision interval

/-- A vector takes each of its components from one of a list of grids. -/
def InProduct (grids : List (List α)) (vector : List α) : Prop :=
  List.Forall₂ (fun value grid => value ∈ grid) vector grids

omit [Scalar α] in
theorem ordered_perm
    {γ : Type}
    [RandomSource γ α]
    (ordering : ValueOrdering)
    (values : List α)
    (source : γ) :
    (ordered ordering values source).1.Perm values := by
  cases ordering with
  | ascending => exact .refl values
  | descending => exact values.reverse_perm
  | random => exact RandomSource.shuffle_perm values source

variable [BoundedScalar α]

theorem isFinite_of_mem_pointsWithin
    {lower upper value : α}
    {points : List α}
    (finiteEnds : HasFiniteEnds (lower, upper))
    (member : value ∈ pointsWithin lower upper points) :
    Scalar.isFinite value = true := by
  have isWithin := (List.mem_filter.mp (Scalar.mem_of_mem_distinct member)).2
  simp only [Scalar.within, Bool.and_eq_true, decide_eq_true_eq] at isWithin
  exact BoundedScalar.isFinite_between lower value upper isWithin.1 isWithin.2 finiteEnds.1
    finiteEnds.2

theorem isFinite_of_mem_wholeRun
    {lower upper value : α}
    (isFinite : Scalar.isFinite lower = true)
    (member : value ∈ wholeRun lower upper) :
    Scalar.isFinite value = true := by
  obtain ⟨index, -, rfl⟩ := List.mem_map.mp member
  exact BoundedScalar.isFinite_add lower _ isFinite (BoundedScalar.isFinite_ofInt _)

/-- The grid of a discrete variable has finite numbers only. -/
theorem isFinite_of_mem_domain
    {candidates : Candidates α}
    {steps : Nat}
    {decision : Variable α}
    {interval : α × α}
    {grid : List α}
    {value : α}
    (isDiscrete : decision.isDiscrete = true)
    (finiteEnds : HasFiniteEnds interval)
    (isGrid : domain candidates steps decision interval = .ok grid)
    (member : value ∈ grid) :
    Scalar.isFinite value = true := by
  have notContinuous := Variable.isDiscrete_iff.mp isDiscrete
  unfold domain at isGrid
  dsimp only at isGrid
  split at isGrid
  · cases isGrid
    rw [List.mem_singleton.mp member]
    exact finiteEnds.1
  · split at isGrid
    · obtain ⟨thresholds, -, isGrid⟩ := bind_eq_ok isGrid
      cases isGrid
      exact isFinite_of_mem_pointsWithin finiteEnds member
    · cases isGrid
      exact isFinite_of_mem_wholeRun finiteEnds.1 member

end Grid

/-!
## The levels of the search

Every variable has its level, at which it is given the values of its grid, and every
constraint is checked at a level by which all variables that it may read have values.
-/

namespace Backtracking

variable {α : Type}

/-- Levels serve a search through a product of grids. -/
structure Laid (candidates : Candidates α) (grids : List (List α)) (levels : List (Level α)) :
    Prop where
  positions : (levels.map (·.position)).Perm (List.range candidates.size)
  named : ∀ level ∈ levels, candidates.names[level.position]? = some level.name
  domains :
    ∀ level ∈ levels, ∃ grid, grids[level.position]? = some grid ∧ level.domain.Perm grid
  checks :
    ∀ before level after, levels = before ++ level :: after →
      ∀ constraint ∈ level.checks,
        constraint ∈ candidates.problem.constraints ∧
          ∀ name ∈ candidates.names, constraint.rule.Reads name →
            name ∈ (before ++ [level]).map (·.name)
  covered :
    ∀ constraint ∈ candidates.problem.constraints, ∃ level ∈ levels, constraint ∈ level.checks

section Depths

variable {names : List String} {order : List Nat}

theorem mem_checksAt_iff
    {depths : List (Constraint α × Nat)}
    {depth : Nat}
    {constraint : Constraint α} :
    constraint ∈ checksAt depths depth ↔ (constraint, depth) ∈ depths := by
  simp only [checksAt, List.mem_map, List.mem_filter, beq_iff_eq]
  constructor
  · rintro ⟨⟨_, _⟩, ⟨member, rfl⟩, rfl⟩
    exact member
  · intro member
    exact ⟨(constraint, depth), ⟨member, rfl⟩, rfl⟩

theorem le_foldl_max
    (depths : List Nat)
    (start : Nat) :
    start ≤ depths.foldl max start ∧ ∀ depth ∈ depths, depth ≤ depths.foldl max start := by
  induction depths generalizing start with
  | nil =>
      simp
  | cons depth rest inductionHypothesis =>
      obtain ⟨startLe, restLe⟩ := inductionHypothesis (max start depth)
      rw [List.foldl_cons, List.forall_mem_cons]
      exact ⟨le_trans (Nat.le_max_left _ _) startLe, le_trans (Nat.le_max_right _ _) startLe,
        restLe⟩

theorem foldl_max_lt
    {depths : List Nat}
    {start limit : Nat}
    (startLt : start < limit)
    (allLt : ∀ depth ∈ depths, depth < limit) :
    depths.foldl max start < limit := by
  have member : depths.foldl max start ∈ start :: depths :=
    foldl_choice_mem max max_choice depths start
  rcases List.mem_cons.mp member with isStart | isDepth
  · rw [isStart]
    exact startLt
  · exact allLt _ isDepth

/-- A constraint has a depth, and by then every variable that it may read has a value. -/
theorem exists_depthOf_eq_ok
    (permuted : order.Perm (List.range names.length))
    (nonempty : names ≠ [])
    {constraint : Constraint α}
    (known : ∀ referenced, constraint.rule.names? = some referenced →
      ∀ name ∈ referenced, name ∈ names) :
    ∃ depth,
      depthOf names order constraint = .ok depth ∧
        depth < order.length ∧
        ∀ name ∈ names, constraint.rule.Reads name →
          ∃ index ≤ depth, ∃ position, order[index]? = some position ∧
            names[position]? = some name := by
  have sameLength : order.length = names.length := by
    rw [permuted.length_eq, List.length_range]
  have somePosition : 0 < order.length := by
    rw [sameLength]
    exact List.length_pos_of_ne_nil nonempty
  have isPlaced (position : Nat) (inNames : position < names.length) :
      order.idxOf position < order.length ∧
        order[order.idxOf position]? = some position := by
    have member : position ∈ order := permuted.mem_iff.mpr (List.mem_range.mpr inNames)
    have inRange := List.idxOf_lt_length_iff.mpr member
    exact ⟨inRange, by rw [List.getElem?_eq_getElem inRange, List.getElem_idxOf]⟩
  unfold depthOf
  cases areNames : constraint.rule.names? with
  | none =>
      refine ⟨order.length - 1, rfl, by omega, ?_⟩
      intro name member _
      obtain ⟨position, inNames, isName⟩ := List.mem_iff_getElem.mp member
      obtain ⟨inRange, isPosition⟩ := isPlaced position inNames
      exact ⟨order.idxOf position, by omega, position, isPosition,
        by rw [List.getElem?_eq_getElem inNames, isName]⟩
  | some referenced =>
      have found :
          ∀ name ∈ referenced, ∃ position,
            names.findIdx? (· == name) = some position ∧ names[position]? = some name := by
        intro name member
        have isKnown := known referenced areNames name member
        cases isFound : names.findIdx? (· == name) with
        | none =>
            simp only [List.findIdx?_eq_none_iff, beq_eq_false_iff_ne] at isFound
            exact absurd rfl (isFound name isKnown)
        | some position =>
            obtain ⟨inNames, isName, -⟩ := List.findIdx?_eq_some_iff_getElem.mp isFound
            refine ⟨position, rfl, ?_⟩
            rw [List.getElem?_eq_getElem inNames, eq_of_beq isName]
      obtain ⟨deepest, isDeepest⟩ : ∃ deepest, depthOf names order constraint = .ok deepest := by
        rw [depthOf, areNames]
        refine exists_bind_eq_ok (exists_mapM_eq_ok fun name member => ?_) fun depths => ⟨_, rfl⟩
        obtain ⟨position, isFound, -⟩ := found name member
        exact ⟨order.idxOf position, by rw [isFound]⟩
      rw [depthOf, areNames] at isDeepest
      obtain ⟨depths, areDepths, isMaximum⟩ := bind_eq_ok isDeepest
      obtain rfl := Except.ok.inj isMaximum
      refine ⟨depths.foldl max 0, isDeepest, foldl_max_lt somePosition ?_, ?_⟩
      · intro depth isDepth
        obtain ⟨name, member, computed⟩ :=
          exists_of_mem_results_of_mapM_eq_ok areDepths isDepth
        obtain ⟨position, isFound, isName⟩ := found name member
        rw [isFound] at computed
        cases computed
        exact (isPlaced position (List.getElem?_eq_some_iff.mp isName).1).1
      · intro name member reads
        obtain ⟨depth, isDepth, computed⟩ :=
          exists_of_mem_of_mapM_eq_ok areDepths (reads referenced areNames)
        obtain ⟨position, isFound, isName⟩ := found name (reads referenced areNames)
        rw [isFound] at computed
        cases computed
        exact ⟨order.idxOf position, (le_foldl_max depths 0).2 _ isDepth, position,
          (isPlaced position (List.getElem?_eq_some_iff.mp isName).1).2, isName⟩

/-- What a constraint reads is known where the constraint has a depth. -/
theorem mem_names_of_depthOf_eq_ok
    {constraint : Constraint α}
    {depth : Nat}
    {referenced : List String}
    (isDepth : depthOf names order constraint = .ok depth)
    (areNames : constraint.rule.names? = some referenced) :
    ∀ name ∈ referenced, name ∈ names := by
  intro name member
  simp only [depthOf, areNames] at isDepth
  obtain ⟨depths, areDepths, -⟩ := bind_eq_ok isDepth
  obtain ⟨found, -, isFound⟩ := exists_of_mem_of_mapM_eq_ok areDepths member
  cases isPosition : names.findIdx? (· == name) with
  | none =>
      rw [isPosition] at isFound
      cases isFound
  | some position =>
      obtain ⟨inNames, isName, -⟩ := List.findIdx?_eq_some_iff_getElem.mp isPosition
      exact eq_of_beq isName ▸ List.getElem_mem inNames

end Depths

section Domains

variable [Scalar α] {candidates : Candidates α} {parameters : BacktrackingParameters α}
  {grids : List (List α)} {γ : Type} [RandomSource γ α]

omit [Scalar α] in
/-- The variables are visited in an order in which each has its place. -/
theorem visitingOrder_perm
    (candidates : Candidates α) :
    (visitingOrder candidates).Perm (List.range candidates.size) :=
  List.filter_append_perm _ _

/-- The values of a variable in the order in which they are tried are those of its grid. -/
theorem exists_orderedDomain_eq_ok
    (areGrids : Grid.grids candidates parameters.gridSteps = .ok grids)
    {position : Nat}
    (inRange : position < candidates.size)
    (source : γ) :
    ∃ domain remaining grid,
      Grid.orderedDomain candidates parameters position source = .ok (domain, remaining) ∧
        grids[position]? = some grid ∧
        domain.Perm grid := by
  obtain ⟨sameLength, related⟩ := forall₂_iff_getElem?.mp (mapM_eq_ok_iff.mp areGrids)
  have inDecisions : position < candidates.problem.decisions.length := inRange
  have inBounds : position < candidates.bounds.length := by
    simpa [Candidates.bounds, Candidates.names, Problem.variableNames] using inDecisions
  have isDecision := List.getElem?_eq_getElem inDecisions
  have isInterval := List.getElem?_eq_getElem inBounds
  have isItem :
      (candidates.problem.decisions.zip candidates.bounds)[position]? =
        some (candidates.problem.decisions[position], candidates.bounds[position]) :=
    List.getElem?_zip_eq_some.mpr ⟨isDecision, isInterval⟩
  have inGrids : position < grids.length :=
    sameLength ▸ (List.getElem?_eq_some_iff.mp isItem).1
  have isGrid := related position _ _ isItem (List.getElem?_eq_getElem inGrids)
  dsimp only at isGrid
  refine ⟨(Grid.ordered parameters.valueOrdering grids[position] source).1,
    (Grid.ordered parameters.valueOrdering grids[position] source).2, grids[position], ?_,
    List.getElem?_eq_getElem inGrids, Grid.ordered_perm _ _ source⟩
  simp [Grid.orderedDomain, isDecision, isInterval, isGrid, bind, Except.bind, pure, Except.pure]

/-- Every variable has a domain, which has the values of its grid. -/
theorem exists_orderedDomains_eq_ok
    (areGrids : Grid.grids candidates parameters.gridSteps = .ok grids)
    {positions : List Nat}
    (inRange : ∀ position ∈ positions, position < candidates.size)
    (source : γ) :
    ∃ domains,
      orderedDomains candidates parameters positions source = .ok domains ∧
        List.Forall₂ (fun position domain =>
          ∃ grid, grids[position]? = some grid ∧ domain.Perm grid) positions domains := by
  induction positions generalizing source with
  | nil =>
      exact ⟨[], rfl, .nil⟩
  | cons position rest inductionHypothesis =>
      rw [List.forall_mem_cons] at inRange
      obtain ⟨domain, remaining, grid, isDomain, isGrid, isPerm⟩ :=
        exists_orderedDomain_eq_ok areGrids inRange.1 source
      obtain ⟨domains, areDomains, related⟩ := inductionHypothesis inRange.2 remaining
      refine ⟨domain :: domains, ?_, .cons ⟨grid, isGrid, isPerm⟩ related⟩
      simp [orderedDomains, isDomain, areDomains, bind, Except.bind, pure, Except.pure]

/-- A variable whose values have been put into order has a grid. -/
theorem exists_domain_of_orderedDomains_eq_ok
    {positions : List Nat}
    {source : γ}
    {domains : List (List α)}
    (areDomains : orderedDomains candidates parameters positions source = .ok domains)
    {position : Nat}
    (member : position ∈ positions)
    {decision : Variable α}
    {interval : α × α}
    (isDecision : candidates.problem.decisions[position]? = some decision)
    (isInterval : candidates.bounds[position]? = some interval) :
    ∃ grid, Grid.domain candidates parameters.gridSteps decision interval = .ok grid := by
  induction positions generalizing source domains with
  | nil =>
      simp at member
  | cons first rest inductionHypothesis =>
      obtain ⟨⟨domain, remaining⟩, isDomain, areDomains⟩ := bind_eq_ok areDomains
      obtain ⟨others, areOthers, -⟩ := bind_eq_ok areDomains
      rcases List.mem_cons.mp member with rfl | inRest
      · simp only [Grid.orderedDomain, isDecision, isInterval] at isDomain
        obtain ⟨grid, isGrid, -⟩ := bind_eq_ok isDomain
        exact ⟨grid, isGrid⟩
      · exact inductionHypothesis areOthers inRest

end Domains

/-- Levels put together from the order of the variables, their domains and the depths of
constraints. -/
def assemble (names : List String) (order : List Nat) (domains : List (List α))
    (depths : List (Constraint α × Nat)) : List (Level α) :=
  (order.zip domains).zipIdx.map fun ((position, domain), depth) =>
    ⟨position, names.getD position "", domain, checksAt depths depth⟩

theorem getElem?_assemble
    {names : List String}
    {order : List Nat}
    {domains : List (List α)}
    {depths : List (Constraint α × Nat)}
    {depth : Nat}
    {level : Level α} :
    (assemble names order domains depths)[depth]? = some level ↔
      order[depth]? = some level.position ∧
        domains[depth]? = some level.domain ∧
        level.name = names.getD level.position "" ∧
        level.checks = checksAt depths depth := by
  obtain ⟨position, name, domain, checks⟩ := level
  simp [assemble, List.getElem?_zip_eq_some, and_assoc, @eq_comm _ name, @eq_comm _ checks]

/-- Every constraint is looked up at its depth, and by then what it may read has values. -/
theorem exists_depths_eq_ok
    {candidates : Candidates α}
    {order : List Nat}
    (permuted : order.Perm (List.range candidates.names.length))
    (nonempty : candidates.names ≠ [])
    (known : ∀ constraint ∈ candidates.problem.constraints, ∀ referenced,
      constraint.rule.names? = some referenced →
        ∀ name ∈ referenced, name ∈ candidates.names) :
    ∃ depths,
      (candidates.problem.constraints.mapM fun constraint => do
          return (constraint, ← depthOf candidates.names order constraint)) = .ok depths ∧
        (∀ constraint ∈ candidates.problem.constraints, ∃ depth,
          depth < order.length ∧ (constraint, depth) ∈ depths) ∧
        ∀ constraint depth, (constraint, depth) ∈ depths →
          constraint ∈ candidates.problem.constraints ∧
            ∀ name ∈ candidates.names, constraint.rule.Reads name →
              ∃ index ≤ depth, ∃ position, order[index]? = some position ∧
                candidates.names[position]? = some name := by
  have each :
      ∀ constraint ∈ candidates.problem.constraints, ∃ placed : Constraint α × Nat,
        (do return (constraint, ← depthOf candidates.names order constraint)) =
          (.ok placed : Except Breakdown _) := by
    intro constraint member
    obtain ⟨depth, isDepth, -⟩ :=
      exists_depthOf_eq_ok permuted nonempty (known constraint member)
    exact ⟨(constraint, depth), by simp [isDepth, bind, Except.bind, pure, Except.pure]⟩
  obtain ⟨depths, areDepths⟩ := exists_mapM_eq_ok each
  refine ⟨depths, areDepths, ?_, ?_⟩
  · intro constraint member
    obtain ⟨depth, isDepth, inRange, -⟩ :=
      exists_depthOf_eq_ok permuted nonempty (known constraint member)
    obtain ⟨placed, inDepths, computed⟩ := exists_of_mem_of_mapM_eq_ok areDepths member
    obtain ⟨computedDepth, sameDepth, computed⟩ := bind_eq_ok computed
    cases computed
    cases isDepth.symm.trans sameDepth
    exact ⟨depth, inRange, inDepths⟩
  · intro constraint depth inDepths
    obtain ⟨other, member, computed⟩ := exists_of_mem_results_of_mapM_eq_ok areDepths inDepths
    obtain ⟨computedDepth, sameDepth, computed⟩ := bind_eq_ok computed
    cases computed
    obtain ⟨found, isDepth, -, reads⟩ :=
      exists_depthOf_eq_ok permuted nonempty (known constraint member)
    cases isDepth.symm.trans sameDepth
    exact ⟨member, reads⟩

/-- Levels that are put together from their parts serve the search. -/
theorem laid_assemble
    {candidates : Candidates α}
    {grids domains : List (List α)}
    {order : List Nat}
    {depths : List (Constraint α × Nat)}
    (permuted : order.Perm (List.range candidates.names.length))
    (ofGrids : List.Forall₂ (fun position domain =>
      ∃ grid, grids[position]? = some grid ∧ domain.Perm grid) order domains)
    (covered : ∀ constraint ∈ candidates.problem.constraints, ∃ depth,
      depth < order.length ∧ (constraint, depth) ∈ depths)
    (placed : ∀ constraint depth, (constraint, depth) ∈ depths →
      constraint ∈ candidates.problem.constraints ∧
        ∀ name ∈ candidates.names, constraint.rule.Reads name →
          ∃ index ≤ depth, ∃ position, order[index]? = some position ∧
            candidates.names[position]? = some name) :
    Laid candidates grids (assemble candidates.names order domains depths) := by
  have sameSize : candidates.names.length = candidates.size := by
    simp [Candidates.names, Candidates.size, Problem.variableNames]
  obtain ⟨sameLength, sameValues⟩ := forall₂_iff_getElem?.mp ofGrids
  have exists_level (depth : Nat) (inRange : depth < order.length) :
      ∃ level, (assemble candidates.names order domains depths)[depth]? = some level := by
    refine ⟨⟨order[depth], candidates.names.getD order[depth] "", domains[depth],
      checksAt depths depth⟩, ?_⟩
    simp [getElem?_assemble, inRange, sameLength ▸ inRange]
  have isNamed (level : Level α)
      (member : level ∈ assemble candidates.names order domains depths) :
      candidates.names[level.position]? = some level.name := by
    obtain ⟨depth, isLevel⟩ := List.mem_iff_getElem?.mp member
    obtain ⟨isPosition, -, isName, -⟩ := getElem?_assemble.mp isLevel
    have inNames : level.position < candidates.names.length :=
      List.mem_range.mp (permuted.mem_iff.mp (List.mem_of_getElem? isPosition))
    rw [isName]
    simp [inNames]
  constructor
  · have samePositions :
        (assemble candidates.names order domains depths).map (·.position) = order := by
      have firsts : ((order.zip domains).zipIdx.map (·.1)).map (·.1) = order := by
        rw [List.zipIdx_map_fst, List.map_fst_zip sameLength.le]
      rw [List.map_map] at firsts
      simp only [assemble, List.map_map]
      exact firsts
    rw [samePositions, ← sameSize]
    exact permuted
  · exact isNamed
  · intro level member
    obtain ⟨depth, isLevel⟩ := List.mem_iff_getElem?.mp member
    obtain ⟨isPosition, isDomain, -, -⟩ := getElem?_assemble.mp isLevel
    exact sameValues depth _ _ isPosition isDomain
  · intro before level after isSplit constraint inChecks
    have isLevel :
        (assemble candidates.names order domains depths)[before.length]? = some level := by
      simp [isSplit]
    obtain ⟨-, -, -, areChecks⟩ := getElem?_assemble.mp isLevel
    rw [areChecks, mem_checksAt_iff] at inChecks
    obtain ⟨inConstraints, reads⟩ := placed constraint before.length inChecks
    refine ⟨inConstraints, ?_⟩
    intro name member isRead
    obtain ⟨index, notLater, position, isPosition, isName⟩ := reads name member isRead
    obtain ⟨earlier, isEarlier⟩ :=
      exists_level index (List.getElem?_eq_some_iff.mp isPosition).1
    obtain ⟨samePosition, -⟩ := getElem?_assemble.mp isEarlier
    cases isPosition.symm.trans samePosition
    have sameName : name = earlier.name :=
      Option.some.inj (isName.symm.trans (isNamed earlier (List.mem_of_getElem? isEarlier)))
    have isReached : (before ++ [level])[index]? = some earlier := by
      rw [isSplit, List.append_cons, List.getElem?_append_left (by simp; omega)] at isEarlier
      exact isEarlier
    exact sameName ▸ List.mem_map_of_mem (List.mem_of_getElem? isReached)
  · intro constraint member
    obtain ⟨depth, inRange, inDepths⟩ := covered constraint member
    obtain ⟨level, isLevel⟩ := exists_level depth inRange
    refine ⟨level, List.mem_of_getElem? isLevel, ?_⟩
    rw [(getElem?_assemble.mp isLevel).2.2.2]
    exact mem_checksAt_iff.mpr inDepths

/-- The search has levels that serve it. -/
theorem exists_levels_laid
    [Scalar α]
    {candidates : Candidates α}
    {parameters : BacktrackingParameters α}
    {grids : List (List α)}
    {γ : Type}
    [RandomSource γ α]
    (references :
      ∀ constraint ∈ candidates.problem.constraints, ∀ referenced,
        constraint.rule.names? = some referenced →
          ∀ name ∈ referenced, name ∈ candidates.names)
    (nonempty : candidates.problem.decisions ≠ [])
    (areGrids : Grid.grids candidates parameters.gridSteps = .ok grids)
    (source : γ) :
    ∃ levels,
      Backtracking.levels candidates parameters source = .ok levels ∧
        Laid candidates grids levels := by
  have sameSize : candidates.size = candidates.names.length := by
    simp [Candidates.names, Candidates.size, Problem.variableNames]
  have permuted := visitingOrder_perm candidates
  have inRange : ∀ position ∈ visitingOrder candidates, position < candidates.size := by
    intro position member
    exact List.mem_range.mp (permuted.mem_iff.mp member)
  have someName : candidates.names ≠ [] := by
    simpa [Candidates.names, Problem.variableNames] using nonempty
  rw [sameSize] at permuted
  obtain ⟨domains, areDomains, ofGrids⟩ :=
    exists_orderedDomains_eq_ok areGrids inRange source
  obtain ⟨depths, areDepths, covered, placed⟩ :=
    exists_depths_eq_ok permuted someName references
  refine ⟨assemble candidates.names (visitingOrder candidates) domains depths, ?_,
    laid_assemble permuted ofGrids covered placed⟩
  unfold levels
  dsimp only
  rw [areDomains]
  change (Except.mapError EvalFailure.broken _ >>= _) = _
  rw [areDepths]
  rfl

/-- A search that has levels reads variables only, and its levels visit grids. -/
theorem exists_grids_laid
    [Scalar α]
    {candidates : Candidates α}
    {parameters : BacktrackingParameters α}
    {γ : Type}
    [RandomSource γ α]
    {source : γ}
    {levels : List (Level α)}
    (areLevels : Backtracking.levels candidates parameters source = .ok levels)
    (nonempty : candidates.problem.decisions ≠ []) :
    ∃ grids,
      Grid.grids candidates parameters.gridSteps = .ok grids ∧ Laid candidates grids levels := by
  have outcome := areLevels
  unfold Backtracking.levels at outcome
  obtain ⟨domains, areDomains, outcome⟩ := bind_eq_ok outcome
  obtain ⟨depths, areDepths, -⟩ := bind_eq_ok outcome
  have references :
      ∀ constraint ∈ candidates.problem.constraints, ∀ referenced,
        constraint.rule.names? = some referenced → ∀ name ∈ referenced, name ∈ candidates.names := by
    intro constraint member
    obtain ⟨placed, -, isPlaced⟩ :=
      exists_of_mem_of_mapM_eq_ok (mapError_eq_ok areDepths) member
    obtain ⟨depth, isDepth, -⟩ := bind_eq_ok isPlaced
    exact fun referenced areNames => mem_names_of_depthOf_eq_ok isDepth areNames
  obtain ⟨grids, areGrids⟩ :
      ∃ grids, Grid.grids candidates parameters.gridSteps = .ok grids := by
    refine exists_mapM_eq_ok fun entry member => ?_
    obtain ⟨position, isEntry⟩ := List.mem_iff_getElem?.mp member
    obtain ⟨isDecision, isInterval⟩ := List.getElem?_zip_eq_some.mp isEntry
    have inOrder : position ∈ visitingOrder candidates :=
      (visitingOrder_perm candidates).mem_iff.mpr
        (List.mem_range.mpr (List.getElem?_eq_some_iff.mp isDecision).1)
    exact exists_domain_of_orderedDomains_eq_ok areDomains inOrder isDecision isInterval
  obtain ⟨same, areSame, laid⟩ := exists_levels_laid references nonempty areGrids source
  obtain rfl := Except.ok.inj (areLevels.symm.trans areSame)
  exact ⟨grids, areGrids, laid⟩

end Backtracking

end Optima
