import Mathlib
import Optima.Proofs.Routing.Improvement

namespace Optima

/-!
# Circles of local search

A difference up to the slack does not count where keys are compared, so a key can rise unnoticed
before the place that decides.  Better and better keys can come back in this way to the one that
they started from, after three steps at the earliest.  Where no key rises so, each better key is
below the one before it in lexicographic order: then local search never returns to a plan, and as
there are only so many plans it stops by itself.
-/

namespace Fleet

variable {α : Type} [Scalar α]

/-- A key rises, by the slack at most, at a place before the one that decides. -/
inductive Creeps : List α → List α → Prop where
  | here
      {candidate current : α}
      {candidates others : List α} :
      current < candidate →
      ¬ current + Scalar.slack < candidate →
      Creeps (candidate :: candidates) (current :: others)
  | later
      {candidate current : α}
      {candidates others : List α} :
      ¬ candidate < current - Scalar.slack →
      ¬ current + Scalar.slack < candidate →
      Creeps candidates others →
      Creeps (candidate :: candidates) (current :: others)

section Exact

variable [ExactScalar α]

/-- Of two keys at most one is better than the other. -/
theorem isBetter_asymm
    {first second : List α}
    (better : isBetter first second = true) :
    isBetter second first = false := by
  induction first generalizing second with
  | nil =>
      cases second <;> rfl
  | cons candidate candidates inductionHypothesis =>
      cases second with
      | nil =>
          rfl
      | cons current others =>
          unfold isBetter at better ⊢
          simp only [ExactScalar.lt_sub_slack_iff] at better ⊢
          split at better
          · rename_i isBelow
            have notAbove : ¬ current + Scalar.slack < candidate := by
              intro isAbove
              have isLess := (Scalar.le_add_slack candidate).trans_lt isBelow
              have isMore := (Scalar.le_add_slack current).trans_lt isAbove
              exact isLess.asymm isMore
            rw [if_neg notAbove, if_pos isBelow]
          · rename_i notBelow
            split at better
            · cases better
            · rename_i notAbove
              rw [if_neg notAbove, if_neg notBelow]
              exact inductionHypothesis better

/-- A better key is below, or it creeps. -/
theorem lt_or_creeps_of_isBetter
    {candidate current : List α}
    (better : isBetter candidate current = true) :
    candidate < current ∨ Creeps candidate current := by
  induction candidate generalizing current with
  | nil =>
      cases current <;> cases better
  | cons first rest inductionHypothesis =>
      cases current with
      | nil =>
          cases better
      | cons other others =>
          rw [List.cons_lt_cons_iff]
          unfold isBetter at better
          split at better
          · rename_i isBelow
            rw [ExactScalar.lt_sub_slack_iff] at isBelow
            exact Or.inl (Or.inl ((Scalar.le_add_slack first).trans_lt isBelow))
          · rename_i notBelow
            split at better
            · cases better
            · rename_i notAbove
              rcases lt_trichotomy first other with isLess | rfl | isMore
              · exact Or.inl (Or.inl isLess)
              · rcases inductionHypothesis better with isLess | creeps
                · exact Or.inl (Or.inr ⟨rfl, isLess⟩)
                · exact Or.inr (.later notBelow notAbove creeps)
              · exact Or.inr (.here isMore notAbove)

/-- Of better and better keys each is below the one before it, or one of them creeps. -/
theorem isChain_gt_or_exists_creeps
    {keys : List (List α)}
    (improve : keys.IsChain fun current candidate => isBetter candidate current = true) :
    keys.IsChain (· > ·) ∨
      ∃ current candidate, [current, candidate] <:+: keys ∧ Creeps candidate current := by
  induction improve with
  | nil =>
      exact Or.inl .nil
  | singleton key =>
      exact Or.inl (.singleton key)
  | @cons_cons current candidate rest better _ inductionHypothesis =>
      rcases lt_or_creeps_of_isBetter better with isLess | creeps
      · rcases inductionHypothesis with descends | ⟨later, next, areThere, creeps⟩
        · exact Or.inl (.cons_cons isLess descends)
        · exact Or.inr ⟨later, next, areThere.trans (List.suffix_cons _ _).isInfix, creeps⟩
      · exact Or.inr ⟨current, candidate, ⟨[], rest, rfl⟩, creeps⟩

/-- Better and better keys that come back have taken three steps at least, and one has crept. -/
theorem of_keys_come_back
    {keys : List (List α)}
    (atLeastTwo : 2 ≤ keys.length)
    (improve : keys.IsChain fun current candidate => isBetter candidate current = true)
    (comeBack : keys.head? = keys.getLast?) :
    4 ≤ keys.length ∧
      ∃ current candidate, [current, candidate] <:+: keys ∧ Creeps candidate current := by
  constructor
  · -- With one step a key would be better than itself, with two each of two better than the other.
    match keys, atLeastTwo, improve, comeBack with
    | [first, second], _, improve, comeBack =>
        obtain rfl : first = second := by simpa using comeBack
        have better := (List.isChain_cons_cons.mp improve).1
        rw [isBetter_self] at better
        cases better
    | [first, second, third], _, improve, comeBack =>
        obtain rfl : first = third := by simpa using comeBack
        obtain ⟨better, improve⟩ := List.isChain_cons_cons.mp improve
        have notBetter := isBetter_asymm better
        rw [(List.isChain_cons_cons.mp improve).1] at notBetter
        cases notBetter
    | _ :: _ :: _ :: _ :: _, _, _, _ =>
        simp
  · refine (isChain_gt_or_exists_creeps improve).resolve_left fun descends => ?_
    have areAbove := List.isChain_iff_pairwise.mp descends
    match keys, atLeastTwo, areAbove, comeBack with
    | first :: second :: rest, _, areAbove, comeBack =>
        have isLast : (second :: rest).getLast (by simp) = first := by
          simpa [List.getLast?_eq_some_getLast] using comeBack.symm
        have isAbove := List.rel_of_pairwise_cons areAbove (List.getLast_mem (by simp))
        rw [isLast] at isAbove
        exact lt_irrefl first isAbove

end Exact

/-!
## Plans that local search does not come back to
-/

variable {fleet : Fleet α} {plan better start : Plan} {unserved : List Nat}

/-- The key of a plan creeps where local search goes on to another one. -/
def CreepsTo (fleet : Fleet α) (unserved : List Nat) (plan better : Plan) : Prop :=
  ∃ current candidate,
    fleet.key plan unserved = .ok current ∧ fleet.key better unserved = .ok candidate ∧
      Creeps candidate current

/-- Local search goes from one plan to another, and the key does not creep. -/
def Descends (fleet : Fleet α) (unserved : List Nat) (plan better : Plan) : Prop :=
  fleet.Improves unserved plan better ∧ ¬ fleet.CreepsTo unserved plan better

/-- No step of local search creeps that a start leads to. -/
def NeverCreeps (fleet : Fleet α) (unserved : List Nat) (start : Plan) : Prop :=
  ∀ accepted,
    (start :: accepted).IsChain (fleet.Improves unserved) →
      (start :: accepted).IsChain (fleet.Descends unserved)

/-- The key of a plan is above that of another one. -/
def IsAbove (fleet : Fleet α) (unserved : List Nat) (plan better : Plan) : Prop :=
  ∃ current candidate,
    fleet.key plan unserved = .ok current ∧ fleet.key better unserved = .ok candidate ∧
      candidate < current

section Exact

variable [ExactScalar α]

instance : Trans (fleet.IsAbove unserved) (fleet.IsAbove unserved) (fleet.IsAbove unserved) where
  trans := by
    rintro _ _ _ ⟨first, second, isFirst, isSecond, isLess⟩
      ⟨again, third, isAgain, isThird, isLessToo⟩
    obtain rfl := Except.ok.inj (isSecond.symm.trans isAgain)
    exact ⟨first, third, isFirst, isThird, isLessToo.trans isLess⟩

/-- A step of local search that does not creep goes down. -/
theorem Descends.isAbove
    (descends : fleet.Descends unserved plan better) :
    fleet.IsAbove unserved plan better := by
  obtain ⟨improves, notCreeping⟩ := descends
  obtain ⟨-, current, candidate, isCurrent, isCandidate, isBetter⟩ :=
    fleet.of_improved?_eq_some improves
  refine ⟨current, candidate, isCurrent, isCandidate, ?_⟩
  exact (lt_or_creeps_of_isBetter isBetter).resolve_right fun creeps =>
    notCreeping ⟨current, candidate, isCurrent, isCandidate, creeps⟩

/-- A run that does not creep comes to no plan twice. -/
theorem nodup_of_run
    {plans : List Plan}
    (run : plans.IsChain (fleet.Descends unserved)) :
    plans.Nodup := by
  have areAbove : plans.IsChain (fleet.IsAbove unserved) := run.imp fun _ _ => Descends.isAbove
  refine (List.isChain_iff_pairwise.mp areAbove).imp ?_
  rintro plan _ ⟨current, candidate, isCurrent, isCandidate, isLess⟩ rfl
  obtain rfl := Except.ok.inj (isCurrent.symm.trans isCandidate)
  exact lt_irrefl _ isLess

end Exact

end Fleet

/-!
## There are only so many plans
-/

/-- There are only so many lists of one length with items from a finite set. -/
private theorem finite_lists_of_length
    {β : Type}
    {items : Set β}
    (isFinite : items.Finite)
    (length : Nat) :
    {list : List β | list.length = length ∧ ∀ item ∈ list, item ∈ items}.Finite := by
  induction length with
  | zero =>
      refine (Set.finite_singleton []).subset ?_
      rintro list ⟨isEmpty, -⟩
      exact List.length_eq_zero_iff.mp isEmpty
  | succ length inductionHypothesis =>
      refine (isFinite.image2 List.cons inductionHypothesis).subset ?_
      rintro list ⟨isLength, areItems⟩
      cases list with
      | nil =>
          cases isLength
      | cons first rest =>
          rw [List.forall_mem_cons] at areItems
          exact ⟨first, areItems.1, rest, ⟨Nat.succ.inj isLength, areItems.2⟩, rfl⟩

/-- There are only so many plans for some vehicles that serve the same nodes. -/
theorem Plan.finite_of_served_perm
    (count : Nat)
    (nodes : List Nat) :
    {plan : Plan | plan.length = count ∧ plan.served.Perm nodes}.Finite := by
  -- A plan is known by the stops in order and the lengths of its routes.
  have knownBy :
      Set.InjOn (fun plan : Plan => (plan.map List.length, plan.flatten))
        {plan : Plan | plan.length = count ∧ plan.served.Perm nodes} := by
    intro plan _ other _ sameImage
    obtain ⟨sameLengths, sameStops⟩ := Prod.mk.inj sameImage
    exact List.eq_iff_flatten_eq.mpr ⟨sameStops, sameLengths⟩
  refine Set.Finite.of_finite_image ?_ knownBy
  refine ((finite_lists_of_length (Set.finite_Iic nodes.length) count).prod
    (List.finite_toSet nodes.permutations)).subset ?_
  rintro _ ⟨plan, ⟨isCount, sameNodes⟩, rfl⟩
  refine ⟨⟨by simpa using isCount, fun length isLength => ?_⟩, List.mem_permutations.mpr sameNodes⟩
  obtain ⟨route, member, rfl⟩ := List.mem_map.mp isLength
  exact (List.sublist_flatten_of_mem member).length_le.trans sameNodes.length_eq.le

/-- A change gives new routes to vehicles that there are. -/
theorem Move.length_apply
    (move : Move)
    (plan : Plan) :
    (move.apply plan).length = plan.length := by
  induction move generalizing plan with
  | nil =>
      rfl
  | cons entry rest inductionHypothesis =>
      exact (inductionHypothesis (plan.set entry.1 entry.2)).trans List.length_set

namespace Fleet

variable {α : Type} [Scalar α] {fleet : Fleet α} {start : Plan} {unserved : List Nat}

/-- A run keeps the number of routes and the nodes that are served. -/
theorem of_mem_run
    {plans : List Plan}
    (run : (start :: plans).IsChain (fleet.Improves unserved)) :
    ∀ plan ∈ start :: plans, plan.length = start.length ∧ plan.served.Perm start.served := by
  refine run.induction (fun plan => plan.length = start.length ∧ plan.served.Perm start.served)
    _ ?_ (fun _ => ⟨rfl, .refl _⟩)
  intro plan better improves isLikeStart
  obtain ⟨⟨move, isTried, -, rfl⟩, -⟩ := fleet.of_improved?_eq_some improves
  exact ⟨(move.length_apply plan).trans isLikeStart.1,
    (Move.served_apply_perm isTried).trans isLikeStart.2⟩

/-- Runs that do not creep have a length that they do not exceed. -/
theorem exists_limit_of_run
    [ExactScalar α]
    (fleet : Fleet α)
    (unserved : List Nat)
    (start : Plan) :
    ∃ limit, ∀ accepted,
      (start :: accepted).IsChain (fleet.Descends unserved) → accepted.length + 1 ≤ limit := by
  have areFinite := Plan.finite_of_served_perm start.length start.served
  refine ⟨areFinite.toFinset.card, fun accepted run => ?_⟩
  rw [← List.length_cons, ← List.toFinset_card_of_nodup (nodup_of_run run)]
  refine Finset.card_le_card fun plan member => ?_
  rw [areFinite.mem_toFinset]
  exact of_mem_run (run.imp fun _ _ => And.left) plan (List.mem_toFinset.mp member)

end Fleet

namespace Routing

variable {α : Type} [Scalar α]

/-- With a quiet watch a search that has not used up its iterations ends by itself. -/
theorem isFeasible_or_isInfeasible_of_quiet
    {network : Network α}
    {problem : RoutingProblem α}
    {parameters : RoutingParameters α}
    {watch : Watch α}
    {outcome : Solution α}
    (isQuiet : watch.IsQuiet parameters.timeLimit)
    (solved : solveOn network problem parameters watch = .ok outcome)
    (notUsedUp : outcome.account.iterations < parameters.maxIterations) :
    outcome.status = .feasible ∨ outcome.status = .infeasible := by
  have started : watch.lookAtFlag.1 = false := isQuiet.flag_down watch.flagLooks
  obtain ⟨interruption?, progress, searched, ended⟩ := of_solveOn_eq_ok started solved
  obtain ⟨isStatus, isAccount⟩ := closes_of_solution_eq_ok ended
  have endsWithin :=
    endsWithin_of_search_eq_ok (Watch.Precedes.refl watch).lookAtFlag searched
  cases interruption? with
  | none =>
      rw [isStatus]
      split
      · exact Or.inl rfl
      · exact Or.inr rfl
  | some interruption =>
      have usedUp : progress.iterations = parameters.maxIterations :=
        isQuiet.eq_of_isDue (endsWithin.areDue interruption rfl)
      rw [isAccount] at notUsedUp
      exact absurd usedUp (Int.ofNat_lt.mp notUsedUp).ne

/--
Better and better keys come back to the first one only in three steps or more, one of which creeps.
Local search accepts better and better plans, each told of in the history, and comes to none of
them twice unless a step creeps.  If none can, there is a number of iterations that it never
exceeds, whatever its limits are: where these allow more and the flag stays down, it ends by
itself.
-/
theorem solve_circles_only_by_creeping
    [Elementary α]
    [ExactScalar α]
    (problem : RoutingProblem α)
    (parameters : RoutingParameters α) :
    let fleet : Fleet α :=
      ⟨problem.network parameters.averageSpeed, problem.vehicles, problem.objectives⟩
    let start := (fleet.network.construct fleet.vehicles).1
    let unserved := (fleet.network.construct fleet.vehicles).2
    (∀ keys : List (List α),
        2 ≤ keys.length →
        keys.IsChain (fun current candidate => Fleet.isBetter candidate current = true) →
        keys.head? = keys.getLast? →
        4 ≤ keys.length ∧
          ∃ current candidate,
            [current, candidate] <:+: keys ∧ Fleet.Creeps candidate current) ∧
      (∀ watch outcome,
        watch.lookAtFlag.1 = false →
        solve problem { parameters with localSearch := true } watch = .ok outcome →
        ∃ accepted,
          (start :: accepted).IsChain (fleet.Improves unserved) ∧
            Tells problem.toProblem fleet (start :: accepted) unserved outcome ∧
            ((start :: accepted).IsChain (fleet.Descends unserved) →
              (start :: accepted).Nodup)) ∧
      (fleet.NeverCreeps unserved start →
        ∃ limit : Nat, ∀ maxIterations timeLimit watch outcome,
          watch.lookAtFlag.1 = false →
          solve problem
              { parameters with
                maxIterations := maxIterations, timeLimit := timeLimit, localSearch := true }
              watch = .ok outcome →
          outcome.account.iterations ≤ limit ∧
            (limit < maxIterations → watch.IsQuiet timeLimit →
              outcome.status = .feasible ∨ outcome.status = .infeasible)) := by
  intro fleet start unserved
  refine ⟨fun keys => Fleet.of_keys_come_back, ?_, ?_⟩
  · intro watch outcome started solved
    obtain ⟨accepted, run, tells, -, -⟩ := tells_of_solveOn_eq_ok started solved
    exact ⟨accepted, run, tells, Fleet.nodup_of_run⟩
  · intro neverCreeps
    obtain ⟨limit, isLimit⟩ := Fleet.exists_limit_of_run fleet unserved start
    refine ⟨limit, fun maxIterations timeLimit watch outcome started solved => ?_⟩
    obtain ⟨accepted, run, -, within, -⟩ := tells_of_solveOn_eq_ok started solved
    have atMost : outcome.account.iterations ≤ limit :=
      within.trans (Int.ofNat_le.mpr (isLimit accepted (neverCreeps accepted run)))
    refine ⟨atMost, fun isBelow isQuiet => ?_⟩
    exact isFeasible_or_isInfeasible_of_quiet isQuiet solved
      (atMost.trans_lt (Int.ofNat_lt.mpr isBelow))

/-- Three vans for one customer.  The dearest is wanted, but what it costs more is a little regretted
in the first place. -/
def circlingProblem : RoutingProblem Extended where
  identifier := "circling"
  name := ""
  kind := .routeOptimization
  description := ""
  objectives :=
    [⟨.expression (.linear ⟨[("total_cost", Scalar.decimal 6 10)]⟩ 0), "thrift", "thrift",
        .minimize, 1, 0, ""⟩,
      ⟨.expression (.variable "total_cost"), "spending", "spending", .maximize, 0, 1, ""⟩]
  constraints := []
  decisions := []
  parameters := none
  status := .pending
  depot := ⟨"depot", "", none, [], 0⟩
  locations := [⟨"shop", "", none, [], 0⟩]
  vehicles :=
    [⟨"cheap", 1, none, none, none, ⟨0, 0, 0, 0⟩, [], []⟩,
      ⟨"dear", 1, none, none, none, ⟨1, 0, 0, 0⟩, [], []⟩,
      ⟨"dearest", 1, none, none, none, ⟨Scalar.two, 0, 0, 0⟩, [], []⟩]
  demands := []
  distanceMatrix := some [[0, 1], [1, 0]]
  timeMatrix := none

/-- What the plans for the circling problem have for keys, from the cheapest van to the dearest and
back. -/
def circlingKeys : List (List Extended) :=
  [[0, 0, 0], [Scalar.decimal 6 10, Scalar.decimal 6 10, -1],
    [Scalar.decimal 12 10, Scalar.decimal 12 10, -Scalar.two], [0, 0, 0]]

theorem isChain_circlingKeys :
    circlingKeys.IsChain fun current candidate => Fleet.isBetter candidate current = true :=
  .cons_cons (by cbv) (.cons_cons (by cbv) (.cons_cons (by cbv) (.singleton _)))

/-- What routes are planned for in the circling problem. -/
def circlingFleet : Fleet Extended :=
  ⟨circlingProblem.network 1, circlingProblem.vehicles, circlingProblem.objectives⟩

/-- The plans for the circling problem that serve the customer. -/
def circlingPlans : List Plan :=
  [[[1], [], []], [[], [1], []], [[], [], [1]]]

theorem exists_improves_circlingPlans :
    ∀ plan ∈ circlingPlans, ∃ better ∈ circlingPlans, circlingFleet.Improves [] plan better := by
  unfold Fleet.Improves
  simp only [circlingPlans, List.forall_mem_cons]
  refine ⟨⟨[[], [1], []], by simp, by cbv⟩, ⟨[[], [], [1]], by simp, by cbv⟩,
    ⟨[[1], [], []], by simp, by cbv⟩, by simp⟩

/-- Nothing but an interruption ends the search on the circling problem. -/
theorem search_circlingFleet_ne
    {parameters : RoutingParameters Extended}
    (searches : parameters.localSearch = true)
    (watch : Watch Extended)
    (last : Progress Extended) :
    search parameters circlingFleet watch ≠ .ok (none, last) := by
  intro searched
  obtain ⟨later, ⟨isRun, isLatest, -⟩, isUnserved, -, -⟩ := Progress.HasCome.search searched
  have starts :
      circlingFleet.network.construct circlingFleet.vehicles = ([[1], [], []], []) := by
    cbv
  rw [starts] at isUnserved isLatest isRun
  rw [isUnserved] at isRun
  -- The run stays among the three plans, and each of them is improved.
  have areCircling : ∀ plan ∈ (later ++ [[[1], [], []]]).reverse, plan ∈ circlingPlans := by
    refine (List.isChain_reverse.mpr isRun).induction (· ∈ circlingPlans) _ ?_ ?_
    · intro plan better improves isCircling
      obtain ⟨next, isNext, improvesToo⟩ := exists_improves_circlingPlans plan isCircling
      obtain rfl := Option.some.inj (Except.ok.inj (improves.symm.trans improvesToo))
      exact isNext
    · intro _
      simp [circlingPlans]
  have isCircling : last.plan ∈ circlingPlans :=
    areCircling _ (List.mem_reverse.mpr (List.mem_of_mem_head? isLatest))
  obtain ⟨better, -, improves⟩ := exists_improves_circlingPlans _ isCircling
  have isEnd := improved?_eq_none_of_search_eq_ok searches searched
  rw [isUnserved] at isEnd
  cases isEnd.symm.trans improves

/-- Better and better keys come back to the first one: they are those of the plans for the circling
problem, which local search goes through again and again until it is interrupted. -/
theorem circlingProblem_comes_back :
    (2 ≤ circlingKeys.length ∧
        (∀ key ∈ circlingKeys, key.length = 3) ∧
        circlingKeys.IsChain (fun current candidate => Fleet.isBetter candidate current = true) ∧
        circlingKeys.head? = circlingKeys.getLast?) ∧
      (circlingPlans ++ circlingPlans.take 1).mapM (circlingFleet.key · []) = .ok circlingKeys ∧
      (circlingPlans ++ circlingPlans.take 1).IsChain (circlingFleet.Improves []) ∧
      ∀ parameters watch last,
        parameters.localSearch = true →
          search parameters circlingFleet watch ≠ .ok (none, last) := by
  refine ⟨⟨by decide, by simp [circlingKeys], isChain_circlingKeys, rfl⟩, by cbv, ?_,
    fun parameters watch last searches => search_circlingFleet_ne searches watch last⟩
  unfold Fleet.Improves
  exact .cons_cons (by cbv) (.cons_cons (by cbv) (.cons_cons (by cbv) (.singleton _)))

/-- Local search goes from the first plan for the lavish problem to the second and no further, and
does not creep. -/
theorem neverCreeps_lavishProblem :
    Fleet.NeverCreeps
      ⟨lavishProblem.network 1, lavishProblem.vehicles, lavishProblem.objectives⟩
      [] [[1], []] := by
  set fleet : Fleet Extended :=
    ⟨lavishProblem.network 1, lavishProblem.vehicles, lavishProblem.objectives⟩
  have goesOn : fleet.improved? [[1], []] [] = .ok (some [[], [1]]) := by cbv
  have ends : fleet.improved? [[], [1]] [] = .ok none := by cbv
  have firstKey : fleet.key [[1], []] [] = .ok [0, 0] := by cbv
  have secondKey : fleet.key [[], [1]] [] = .ok [-1, -1] := by cbv
  have notCreeping : ¬ fleet.CreepsTo [] [[1], []] [[], [1]] := by
    rintro ⟨current, candidate, isCurrent, isCandidate, creeps⟩
    obtain rfl := Except.ok.inj (firstKey.symm.trans isCurrent)
    obtain rfl := Except.ok.inj (secondKey.symm.trans isCandidate)
    cases creeps with
    | here isAbove _ =>
        have notAbove : ¬ (0 : Extended) < -1 := by decide
        exact notAbove isAbove
    | later notBelow _ _ =>
        have isBelow : (-1 : Extended) < 0 - Scalar.slack := by decide +kernel
        exact notBelow isBelow
  intro accepted run
  cases accepted with
  | nil =>
      exact .singleton _
  | cons better rest =>
      obtain ⟨improves, runsOn⟩ := List.isChain_cons_cons.mp run
      obtain rfl := Option.some.inj (Except.ok.inj (goesOn.symm.trans improves))
      cases rest with
      | nil =>
          exact .cons_cons ⟨goesOn, notCreeping⟩ (.singleton _)
      | cons next rest =>
          have improvesAgain := (List.isChain_cons_cons.mp runsOn).1
          cases ends.symm.trans improvesAgain

/-- The circling keys come back because one of them creeps.  Local search on the lavish problem never
creeps, and ends by itself. -/
theorem lavishProblem_does_not_circle :
    (∃ current candidate,
        [current, candidate] <:+: circlingKeys ∧ Fleet.Creeps candidate current) ∧
      ∃ (limit : Nat) (outcome : Solution Extended),
        solve lavishProblem
            { plainParameters with
              maxIterations := limit + 1, timeLimit := none, localSearch := true }
            quietWatch = .ok outcome ∧
          outcome.account.iterations ≤ limit ∧
            (outcome.status = .feasible ∨ outcome.status = .infeasible) := by
  have onKeys :=
    (solve_circles_only_by_creeping circlingProblem plainParameters).1 circlingKeys (by decide)
      isChain_circlingKeys rfl
  have starts :
      Network.construct (lavishProblem.network 1) lavishProblem.vehicles = ([[1], []], []) := by
    cbv
  obtain ⟨limit, isLimit⟩ :=
    (solve_circles_only_by_creeping lavishProblem plainParameters).2.2 (by
      dsimp only [plainParameters]
      rw [starts]
      exact neverCreeps_lavishProblem)
  obtain ⟨outcome, solved⟩ :
      ∃ outcome,
        solve lavishProblem
            { plainParameters with
              maxIterations := limit + 1, timeLimit := none, localSearch := true }
            quietWatch = .ok outcome :=
    exists_solve_eq_ok (isValuedOn_lavishProblem _) quietWatch
  have isQuiet : quietWatch.IsQuiet none := ⟨fun _ => rfl, fun _ isLimit => by cases isLimit⟩
  obtain ⟨within, ends⟩ := isLimit (limit + 1) none quietWatch outcome rfl solved
  exact ⟨onKeys.2, limit, outcome, solved, within, ends (Nat.lt_succ_self limit) isQuiet⟩

end Routing

end Optima
