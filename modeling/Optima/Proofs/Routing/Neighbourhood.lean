import Mathlib
import Optima.Proofs.Routing.Verdict
import Optima.Proofs.Scalar.Exact

namespace Optima

/-!
# Where local search ends

The neighbours of a plan are what becomes of it when a part of a route is reversed, a stop is
moved, or two stops are exchanged.  Each neighbour other than the plan itself is among the changes
that are tried.  So a local search that nothing interrupts ends with a plan that no neighbour
is better than.
-/

/-- Numbers that are not more than the slack away from themselves. -/
class CloseScalar (α : Type) [Scalar α] : Prop where
  not_lt_sub_slack (value : α) : ¬ value < value - Scalar.slack
  not_add_slack_lt (value : α) : ¬ value + Scalar.slack < value

instance (priority := 50) ExactScalar.toCloseScalar
    {α : Type} [Scalar α] [ExactScalar α] : CloseScalar α where
  not_lt_sub_slack value := by
    rw [ExactScalar.lt_sub_slack_iff]
    exact (Scalar.le_add_slack value).not_gt
  not_add_slack_lt value :=
    (Scalar.le_add_slack value).not_gt

/-- No key is better than itself. -/
theorem Fleet.isBetter_self
    {α : Type}
    [Scalar α]
    [CloseScalar α]
    (key : List α) :
    Fleet.isBetter key key = false := by
  induction key with
  | nil =>
      rfl
  | cons first rest inductionHypothesis =>
      unfold isBetter
      rw [if_neg (CloseScalar.not_lt_sub_slack first), if_neg (CloseScalar.not_add_slack_lt first)]
      exact inductionHypothesis

/-!
## Neighbours
-/

/-- The changes that lead to the neighbours of a plan. -/
inductive Plan.Neighbour (plan : Plan) : Move → Prop where
  /-- A contiguous part of a route is driven the other way round. -/
  | reverse
      {vehicle : Nat}
      {before part after : List Nat} :
      plan[vehicle]? = some (before ++ part ++ after) →
      Neighbour plan [(vehicle, before ++ part.reverse ++ after)]
  /-- A stop is moved to any place of its route. -/
  | shift
      {vehicle node : Nat}
      {before after front back : List Nat} :
      plan[vehicle]? = some (before ++ node :: after) →
      before ++ after = front ++ back →
      Neighbour plan [(vehicle, front ++ node :: back)]
  /-- A stop is moved to any place of another route, which may be empty. -/
  | transfer
      {source destination node : Nat}
      {before after front back : List Nat} :
      source ≠ destination →
      plan[source]? = some (before ++ node :: after) →
      plan[destination]? = some (front ++ back) →
      Neighbour plan [(source, before ++ after), (destination, front ++ node :: back)]
  /-- Two stops of different routes change places. -/
  | exchange
      {first second node other : Nat}
      {before after front back : List Nat} :
      first ≠ second →
      plan[first]? = some (before ++ node :: after) →
      plan[second]? = some (front ++ other :: back) →
      Neighbour plan [(first, before ++ other :: after), (second, front ++ node :: back)]

namespace Move

variable {plan : Plan}

/-- A part of a route with two stops or more is reversed in one of the reversals. -/
theorem mem_reversals
    {vehicle : Nat}
    {before part after : List Nat}
    (current : plan[vehicle]? = some (before ++ part ++ after))
    (isLong : 2 ≤ part.length) :
    [(vehicle, before ++ part.reverse ++ after)] ∈ reversals plan := by
  have isReversed :
      reversed (before ++ part ++ after) before.length (before.length + part.length - 1) =
        before ++ part.reverse ++ after := by
    have isEnd : before.length + part.length - 1 + 1 = before.length + part.length := by
      omega
    simp [reversed, isEnd, List.append_assoc]
  refine List.mem_flatMap.mpr
    ⟨(before ++ part ++ after, vehicle), List.mem_zipIdx_iff_getElem?.mpr current, ?_⟩
  refine List.mem_flatMap.mpr ⟨before.length, ?_, List.mem_map.mpr
    ⟨before.length + part.length - 1, ?_, by rw [isReversed]⟩⟩
  · rw [List.mem_range]
    simp only [List.length_append]
    omega
  · rw [List.mem_range'_1]
    simp only [List.length_append]
    omega

/-- The routes with one more stop are those in which it stands between two parts. -/
theorem mem_withStop_iff
    {node : Nat}
    {route extended : List Nat} :
    extended ∈ Network.withStop node route ↔
      ∃ front back, route = front ++ back ∧ extended = front ++ node :: back := by
  unfold Network.withStop
  rw [List.mem_map]
  constructor
  · rintro ⟨position, -, rfl⟩
    exact ⟨_, _, (List.take_append_drop position route).symm, rfl⟩
  · rintro ⟨front, back, rfl, rfl⟩
    refine ⟨front.length, ?_, by simp⟩
    rw [List.mem_range, List.length_append]
    omega

/-- A stop that is moved is taken out at its position. -/
theorem mem_relocations
    {source destination node : Nat}
    {before after target : List Nat}
    {move : Move}
    (current : plan[source]? = some (before ++ node :: after))
    (isTarget : plan[destination]? = some target)
    (isMove :
      move ∈
        if source = destination then
          shiftsWithin source (before ++ node :: after) (before ++ after) node
        else transfers source destination (before ++ after) target node) :
    move ∈ relocations plan := by
  have isTakenOut : (before ++ node :: after).eraseIdx before.length = before ++ after := by
    simp [List.eraseIdx_append_of_length_le]
  refine List.mem_flatMap.mpr
    ⟨(before ++ node :: after, source), List.mem_zipIdx_iff_getElem?.mpr current, ?_⟩
  refine List.mem_flatMap.mpr
    ⟨(node, before.length), List.mem_zipIdx_iff_getElem?.mpr (by simp), ?_⟩
  refine List.mem_flatMap.mpr
    ⟨(target, destination), List.mem_zipIdx_iff_getElem?.mpr isTarget, ?_⟩
  dsimp only
  rw [isTakenOut]
  exact isMove

/-- Two stops of different routes are exchanged, the earlier route first. -/
theorem mem_exchanges
    {first second node other : Nat}
    {before after front back : List Nat}
    (inOrder : first < second)
    (isFirst : plan[first]? = some (before ++ node :: after))
    (isSecond : plan[second]? = some (front ++ other :: back)) :
    [(first, before ++ other :: after), (second, front ++ node :: back)] ∈ exchanges plan := by
  refine List.mem_flatMap.mpr
    ⟨(before ++ node :: after, first), List.mem_zipIdx_iff_getElem?.mpr isFirst, ?_⟩
  have isLater :
      (front ++ other :: back, second) ∈ plan.zipIdx.drop (first + 1) := by
    refine List.mem_iff_getElem?.mpr ⟨second - (first + 1), ?_⟩
    rw [List.getElem?_drop, List.getElem?_zipIdx, Nat.add_sub_cancel' inOrder]
    simp [isSecond]
  refine List.mem_flatMap.mpr ⟨(front ++ other :: back, second), isLater, ?_⟩
  refine List.mem_flatMap.mpr
    ⟨(node, before.length), List.mem_zipIdx_iff_getElem?.mpr (by simp), ?_⟩
  refine List.mem_map.mpr
    ⟨(other, front.length), List.mem_zipIdx_iff_getElem?.mpr (by simp), ?_⟩
  simp

/-- A change that gives one vehicle the route that it has changes nothing. -/
theorem apply_same
    {vehicle : Nat}
    {route : List Nat}
    (current : plan[vehicle]? = some route) :
    apply [(vehicle, route)] plan = plan := by
  obtain ⟨inBounds, rfl⟩ := List.getElem?_eq_some_iff.mp current
  exact List.set_getElem_self inBounds

end Move

/-- A neighbour is the plan itself, or a change that leads to it is tried. -/
theorem Plan.Neighbour.exists_candidate
    {plan : Plan}
    {change : Move}
    (neighbour : plan.Neighbour change) :
    change.apply plan = plan ∨
      ∃ move ∈ Move.candidates plan,
        move.Perm change ∧ move.apply plan = change.apply plan := by
  cases neighbour with
  | @reverse vehicle before part after current =>
      by_cases isLong : 2 ≤ part.length
      · refine Or.inr ⟨_, ?_, .refl _, rfl⟩
        exact List.mem_append_left _ (List.mem_append_left _ (Move.mem_reversals current isLong))
      · left
        have isReversed : part.reverse = part := by
          match part with
          | [] => rfl
          | [node] => rfl
          | _ :: _ :: _ => simp at isLong
        rw [isReversed]
        exact Move.apply_same current
  | @shift vehicle node before after front back current sameStops =>
      by_cases isSame : front ++ node :: back = before ++ node :: after
      · left
        rw [isSame]
        exact Move.apply_same current
      · refine Or.inr ⟨_, ?_, .refl _, rfl⟩
        refine List.mem_append_left _ (List.mem_append_right _ ?_)
        refine Move.mem_relocations current current ?_
        rw [if_pos rfl]
        refine List.mem_map.mpr ⟨_, List.mem_filter.mpr ⟨?_, by simpa using isSame⟩, rfl⟩
        exact Move.mem_withStop_iff.mpr ⟨front, back, sameStops, rfl⟩
  | @transfer source destination node before after front back areDifferent current isTarget =>
      refine Or.inr ⟨_, ?_, .refl _, rfl⟩
      refine List.mem_append_left _ (List.mem_append_right _ ?_)
      refine Move.mem_relocations current isTarget ?_
      rw [if_neg areDifferent]
      refine List.mem_map.mpr ⟨_, Move.mem_withStop_iff.mpr ⟨front, back, rfl, rfl⟩, rfl⟩
  | @exchange first second node other before after front back areDifferent isFirst isSecond =>
      rcases Nat.lt_or_gt_of_ne areDifferent with inOrder | inOrder
      · refine Or.inr ⟨_, ?_, .refl _, rfl⟩
        exact List.mem_append_right _ (Move.mem_exchanges inOrder isFirst isSecond)
      · -- The exchange is tried from the side of the other route.
        refine Or.inr ⟨_, List.mem_append_right _ (Move.mem_exchanges inOrder isSecond isFirst),
          .swap _ _ _, ?_⟩
        exact List.set_comm _ _ areDifferent.symm

/-!
## The end of the search
-/

namespace Fleet

variable {α : Type} [Scalar α] {fleet : Fleet α} {plan : Plan} {unserved : List Nat}

/-- A plan has a key, and so has each neighbour that the vehicles concerned can drive, but none of
these is better. -/
def IsLocallyBest (fleet : Fleet α) (plan : Plan) (unserved : List Nat) : Prop :=
  ∃ current,
    fleet.key plan unserved = .ok current ∧
      ∀ change, plan.Neighbour change → fleet.isDrivable change = true →
        ∃ candidate,
          fleet.key (change.apply plan) unserved = .ok candidate ∧
            isBetter candidate current = false

/-- Where no change is better, each that can be driven has a key, which is not better. -/
theorem exists_key_of_firstBetter?_eq_none
    {current : List α}
    {moves : List Move}
    (noneFound : fleet.firstBetter? plan unserved current moves = .ok none)
    {move : Move}
    (member : move ∈ moves)
    (isDrivable : fleet.isDrivable move = true) :
    ∃ candidate,
      fleet.key (move.apply plan) unserved = .ok candidate ∧
        isBetter candidate current = false := by
  induction moves with
  | nil =>
      simp at member
  | cons first rest inductionHypothesis =>
      unfold firstBetter? at noneFound
      split at noneFound
      · obtain ⟨candidate, isKey, noneFound⟩ := bind_eq_ok noneFound
        split at noneFound
        · cases noneFound
        · rename_i notBetter
          rcases List.mem_cons.mp member with rfl | inRest
          · exact ⟨candidate, isKey, by simpa using notBetter⟩
          · exact inductionHypothesis noneFound inRest
      · rename_i notDrivable
        rcases List.mem_cons.mp member with rfl | inRest
        · exact absurd isDrivable notDrivable
        · exact inductionHypothesis noneFound inRest

/-- A plan that cannot be improved is locally best. -/
theorem isLocallyBest_of_improved?_eq_none
    [CloseScalar α]
    (noneFound : fleet.improved? plan unserved = .ok none) :
    fleet.IsLocallyBest plan unserved := by
  unfold improved? at noneFound
  obtain ⟨current, isKey, noneFound⟩ := bind_eq_ok noneFound
  refine ⟨current, isKey, fun change neighbour isDrivable => ?_⟩
  rcases neighbour.exists_candidate with isSame | ⟨move, isTried, isChange, leadsThere⟩
  · exact ⟨current, isSame.symm ▸ isKey, isBetter_self current⟩
  · rw [← leadsThere]
    refine exists_key_of_firstBetter?_eq_none noneFound isTried ?_
    refine List.all_eq_true.mpr fun entry member => ?_
    exact List.all_eq_true.mp isDrivable entry (isChange.mem_iff.mp member)

end Fleet

namespace Routing

variable {α : Type} [Scalar α] {fleet : Fleet α}

/-- A local search that nothing interrupts ends with a plan that cannot be improved. -/
theorem improved?_eq_none_of_improve_eq_ok
    {budget : Budget α}
    {remaining : Nat}
    {progress last : Progress α}
    (enough : budget.maxIterations ≤ progress.iterations + remaining)
    (ended : improve fleet budget remaining progress = .ok (none, last)) :
    fleet.improved? last.plan last.unserved = .ok none := by
  induction remaining generalizing progress with
  | zero =>
      unfold improve at ended
      split at ended
      · cases ended
      · rename_i watch goesOn
        have isBelow := Budget.lt_of_interruption_eq_none goesOn
        omega
  | succ remaining inductionHypothesis =>
      unfold improve at ended
      split at ended
      · cases ended
      · dsimp only at ended
        obtain ⟨better?, isTried, ended⟩ := bind_eq_ok ended
        cases better? with
        | none =>
            cases ended
            exact isTried
        | some better =>
            obtain ⟨recorded, isRecorded, ended⟩ := bind_eq_ok ended
            have sameCount : recorded.iterations = progress.iterations + 1 :=
              (Progress.precedes_of_record_eq_ok (.refl _) isRecorded).1
            exact inductionHypothesis (by omega) ended

/-- With local search on, a search that nothing interrupts ends with a plan that cannot be improved. -/
theorem improved?_eq_none_of_search_eq_ok
    {parameters : RoutingParameters α}
    {watch : Watch α}
    {last : Progress α}
    (searches : parameters.localSearch = true)
    (searched : search parameters fleet watch = .ok (none, last)) :
    fleet.improved? last.plan last.unserved = .ok none := by
  unfold search at searched
  obtain ⟨recorded, -, improved⟩ := bind_eq_ok searched
  rw [if_pos searches] at improved
  exact improved?_eq_none_of_improve_eq_ok (Nat.le_add_left _ _) improved

/--
The search of a solve that is not cancelled at once ends with the plan that the solution reports.
Where neither the limits nor the flag have ended it, no neighbour of this plan that the vehicles
concerned can drive is better.
-/
theorem solve_ends_in_local_optimum
    [Elementary α]
    [CloseScalar α]
    (problem : RoutingProblem α)
    (parameters : RoutingParameters α)
    (watch : Watch α)
    (outcome : Solution α)
    (searches : parameters.localSearch = true)
    (started : watch.lookAtFlag.1 = false)
    (solved : solve problem parameters watch = .ok outcome) :
    let fleet : Fleet α :=
      ⟨problem.network parameters.averageSpeed, problem.vehicles, problem.objectives⟩
    ∃ interruption? progress,
      search parameters fleet watch.lookAtFlag.2 = .ok (interruption?, progress) ∧
        Reports problem.toProblem parameters.tolerance fleet progress outcome ∧
        Closes parameters fleet interruption? progress outcome ∧
        (interruption? = none → fleet.IsLocallyBest progress.plan progress.unserved) := by
  intro fleet
  obtain ⟨interruption?, progress, searched, ended⟩ := of_solveOn_eq_ok started solved
  refine ⟨interruption?, progress, searched, reports_of_solution_eq_ok ended,
    closes_of_solution_eq_ok ended, ?_⟩
  rintro rfl
  exact Fleet.isLocallyBest_of_improved?_eq_none
    (improved?_eq_none_of_search_eq_ok searches searched)

/-- A customer whom two vans can serve, of which the dearer one is wanted. -/
def lavishProblem : RoutingProblem Extended where
  identifier := "lavish"
  name := ""
  kind := .routeOptimization
  description := ""
  objectives :=
    [⟨.expression (.variable "total_cost"), "spending", "spending", .maximize, 1, 0, ""⟩]
  constraints := []
  decisions := []
  parameters := none
  status := .pending
  depot := ⟨"depot", "", none, [], 0⟩
  locations := [⟨"shop", "", none, [], 0⟩]
  vehicles :=
    [⟨"cheap", 1, none, none, none, ⟨0, 0, 0, 0⟩, [], []⟩,
      ⟨"dear", 1, none, none, none, ⟨1, 0, 0, 0⟩, [], []⟩]
  demands := []
  distanceMatrix := some [[0, 1], [1, 0]]
  timeMatrix := none

/-- The end of the search on the lavish problem: the customer was given to the dearer van. -/
def lavishEnd : Progress Extended where
  plan := [[], [1]]
  unserved := []
  iterations := 2
  history := [⟨1, .finite (-1), 0, 0⟩, ⟨0, 0, 0, 0⟩]
  watch := ⟨fun _ => 0, fun _ => false, 2, 3⟩

/-- The lavish problem has a solution, which tells of the end of its search. -/
theorem exists_solve_lavishProblem :
    search plainParameters
        ⟨lavishProblem.network 1, lavishProblem.vehicles, lavishProblem.objectives⟩
        quietWatch.lookAtFlag.2 = .ok (none, lavishEnd) ∧
      ∃ outcome, solve lavishProblem plainParameters quietWatch = .ok outcome := by
  have searched :
      search plainParameters
          ⟨lavishProblem.network 1, lavishProblem.vehicles, lavishProblem.objectives⟩
          quietWatch.lookAtFlag.2 = .ok (none, lavishEnd) := by
    cbv
  obtain ⟨outcome, solved, -⟩ :=
    exists_solveOn_eq_ok (by rfl) searched (by
      rw [isOk_solution]
      cbv)
  exact ⟨searched, outcome, solved⟩

/-- No neighbour of the plan for the lavish problem is better. -/
theorem lavishProblem_ends_in_local_optimum :
    plainParameters.localSearch = true ∧ quietWatch.lookAtFlag.1 = false ∧
      ∃ outcome,
        solve lavishProblem plainParameters quietWatch = .ok outcome ∧
          Fleet.IsLocallyBest
            ⟨lavishProblem.network 1, lavishProblem.vehicles, lavishProblem.objectives⟩
            [[], [1]] [] := by
  obtain ⟨searched, outcome, solved⟩ := exists_solve_lavishProblem
  obtain ⟨interruption?, progress, searchedToo, -, -, isBest⟩ :=
    solve_ends_in_local_optimum lavishProblem plainParameters quietWatch outcome rfl rfl solved
  obtain ⟨rfl, rfl⟩ := Prod.mk.inj (Except.ok.inj (searched.symm.trans searchedToo))
  exact ⟨rfl, rfl, outcome, solved, isBest rfl⟩

end Routing

end Optima
