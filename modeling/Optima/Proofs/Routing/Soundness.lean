import Optima.Proofs.Routing.Conservation
import Optima.Routing.Moves
import Optima.Routing.Solve

namespace Optima

/-!
# Plans in the course of a search

Local search changes a plan step by step, and keeps it in order.
-/

/-!
## A change of a plan keeps its stops

A change gives one vehicle a rearranged route, or two vehicles routes that share
out the stops of both anew.  Either way the plan serves what it served before, and
if the vehicles concerned can drive their new routes then all can drive theirs.
-/

/-- Setting an item of a list exchanges it for another one. -/
theorem cons_set_perm
    {β : Type}
    {items : List β}
    {position : Nat}
    {old : β}
    (current : items[position]? = some old)
    (new : β) :
    (old :: items.set position new).Perm (new :: items) := by
  induction items generalizing position with
  | nil =>
      simp at current
  | cons first rest inductionHypothesis =>
      cases position with
      | zero =>
          simp only [List.length_cons, Nat.zero_lt_succ, getElem?_pos,
            List.getElem_cons_zero, Option.some.injEq] at current
          subst first
          exact List.Perm.swap new old rest
      | succ position =>
          simp only [List.getElem?_cons_succ] at current
          calc
            (old :: first :: rest.set position new).Perm
                (first :: old :: rest.set position new) :=
              List.Perm.swap _ _ _
            _ |>.Perm (first :: new :: rest) :=
              (inductionHypothesis current).cons first
            _ |>.Perm (new :: first :: rest) :=
              List.Perm.swap _ _ _

namespace Move

variable {plan : Plan}

/-- A change of the route of one vehicle keeps the stops if the route does. -/
theorem served_apply_single_perm
    {vehicle : Nat}
    {old new : List Nat}
    (current : plan[vehicle]? = some old)
    (rearranged : new.Perm old) :
    (Plan.served (apply [(vehicle, new)] plan)).Perm plan.served :=
  Plan.served_set_perm [] current rearranged

/-- A change of the routes of two vehicles keeps the stops if both routes together do. -/
theorem served_apply_pair_perm
    {first second : Nat}
    {firstOld firstNew secondOld secondNew : List Nat}
    (areDifferent : first ≠ second)
    (firstCurrent : plan[first]? = some firstOld)
    (secondCurrent : plan[second]? = some secondOld)
    (sharedOut : (firstNew ++ secondNew).Perm (firstOld ++ secondOld)) :
    (Plan.served (apply [(first, firstNew), (second, secondNew)] plan)).Perm
      plan.served := by
  rw [List.perm_iff_count]
  intro node
  have firstExchange := Plan.count_served_set firstCurrent firstNew node
  have secondStill : (plan.set first firstNew)[second]? = some secondOld := by
    rw [List.getElem?_set_ne areDifferent]
    exact secondCurrent
  have secondExchange := Plan.count_served_set secondStill secondNew node
  have shares := List.perm_iff_count.mp sharedOut node
  simp only [List.count_append] at shares
  simp only [apply, List.foldl_cons, List.foldl_nil]
  omega

/-- A route with a reversed part has the same stops. -/
theorem reversed_perm
    (route : List Nat)
    {first last : Nat}
    (inOrder : first ≤ last) :
    (reversed route first last).Perm route := by
  have rest :
      route.drop (last + 1) =
        (route.drop first).drop (last + 1 - first) := by
    rw [List.drop_drop]
    congr 1
    omega
  unfold reversed
  rw [rest]
  calc
    (route.take first ++
          ((route.drop first).take (last + 1 - first)).reverse ++
        (route.drop first).drop (last + 1 - first)).Perm
        (route.take first ++
            (route.drop first).take (last + 1 - first) ++
          (route.drop first).drop (last + 1 - first)) :=
      ((List.reverse_perm _).append_left _).append_right _
    _ = route := by
      rw [List.append_assoc, List.take_append_drop, List.take_append_drop]

/-- Reversing a part of a route keeps the stops. -/
theorem served_apply_reversal_perm
    {move : Move}
    (member : move ∈ reversals plan) :
    (Plan.served (move.apply plan)).Perm plan.served := by
  obtain ⟨⟨route, vehicle⟩, entry, atFirst⟩ := List.mem_flatMap.mp member
  obtain ⟨first, -, atLast⟩ := List.mem_flatMap.mp atFirst
  obtain ⟨last, inRange, rfl⟩ := List.mem_map.mp atLast
  rw [List.mem_range'_1] at inRange
  exact served_apply_single_perm
    (List.mem_zipIdx_iff_getElem?.mp entry)
    (reversed_perm route (by omega))

/-- Moving one stop keeps the stops. -/
theorem served_apply_relocation_perm
    {move : Move}
    (member : move ∈ relocations plan) :
    (Plan.served (move.apply plan)).Perm plan.served := by
  obtain ⟨⟨route, source⟩, sourceEntry, atStop⟩ := List.mem_flatMap.mp member
  obtain ⟨⟨node, position⟩, stopEntry, atTarget⟩ := List.mem_flatMap.mp atStop
  obtain ⟨⟨target, destination⟩, targetEntry, isMove⟩ :=
    List.mem_flatMap.mp atTarget
  have sourceRoute := List.mem_zipIdx_iff_getElem?.mp sourceEntry
  have targetRoute := List.mem_zipIdx_iff_getElem?.mp targetEntry
  have takenOut : (node :: route.eraseIdx position).Perm route := by
    have nodeThere : route[position]? = some node :=
      List.mem_zipIdx_iff_getElem?.mp stopEntry
    obtain ⟨inBounds, rfl⟩ := List.getElem?_eq_some_iff.mp nodeThere
    exact List.getElem_cons_eraseIdx_perm inBounds
  dsimp only at isMove
  split at isMove
  · obtain ⟨moved, isPlaced, rfl⟩ := List.mem_map.mp isMove
    have inserted := Network.perm_of_mem_withStop (List.mem_filter.mp isPlaced).1
    exact served_apply_single_perm sourceRoute (inserted.trans takenOut)
  · rename_i areDifferent
    obtain ⟨moved, isPlaced, rfl⟩ := List.mem_map.mp isMove
    refine served_apply_pair_perm areDifferent sourceRoute targetRoute ?_
    calc
      (route.eraseIdx position ++ moved).Perm
          (route.eraseIdx position ++ node :: target) :=
        (Network.perm_of_mem_withStop isPlaced).append_left _
      _ |>.Perm (node :: route.eraseIdx position ++ target) :=
        List.perm_middle
      _ |>.Perm (route ++ target) :=
        takenOut.append_right target

/-- Exchanging two stops keeps the stops. -/
theorem served_apply_exchange_perm
    {move : Move}
    (member : move ∈ exchanges plan) :
    (Plan.served (move.apply plan)).Perm plan.served := by
  obtain ⟨⟨left, first⟩, leftEntry, atRight⟩ := List.mem_flatMap.mp member
  obtain ⟨⟨right, second⟩, rightEntry, between⟩ := List.mem_flatMap.mp atRight
  obtain ⟨⟨node, position⟩, nodeEntry, atOther⟩ := List.mem_flatMap.mp between
  obtain ⟨⟨other, place⟩, otherEntry, rfl⟩ := List.mem_map.mp atOther
  have leftRoute := List.mem_zipIdx_iff_getElem?.mp leftEntry
  obtain ⟨distance, rightAt⟩ := List.mem_iff_getElem?.mp rightEntry
  rw [List.getElem?_drop, List.getElem?_zipIdx, Option.map_eq_some_iff] at rightAt
  obtain ⟨found, rightRoute, pairShape⟩ := rightAt
  simp only [Prod.mk.injEq] at pairShape
  obtain ⟨rfl, rfl⟩ := pairShape
  have leftExchange :=
    cons_set_perm (List.mem_zipIdx_iff_getElem?.mp nodeEntry) other
  have rightExchange :=
    cons_set_perm (List.mem_zipIdx_iff_getElem?.mp otherEntry) node
  refine served_apply_pair_perm (by omega) leftRoute
    (by simpa using rightRoute) ?_
  rw [List.perm_iff_count] at leftExchange rightExchange ⊢
  intro stop
  have leftCount := leftExchange stop
  have rightCount := rightExchange stop
  simp only [List.count_cons] at leftCount rightCount
  simp only [List.count_append]
  omega

/-- Every change that is tried keeps the stops. -/
theorem served_apply_perm
    {move : Move}
    (member : move ∈ candidates plan) :
    (Plan.served (move.apply plan)).Perm plan.served := by
  simp only [candidates, List.mem_append] at member
  rcases member with (isReversal | isRelocation) | isExchange
  · exact served_apply_reversal_perm isReversal
  · exact served_apply_relocation_perm isRelocation
  · exact served_apply_exchange_perm isExchange

end Move

namespace Fleet

variable {α : Type} [Scalar α] (fleet : Fleet α)

/-- A plan that is found is the outcome of a change that all vehicles concerned can drive, and has
a better key. -/
theorem of_firstBetter?_eq_some
    {plan improved : Plan}
    {unserved : List Nat}
    {current : List α}
    {moves : List Move}
    (found :
      fleet.firstBetter? plan unserved current moves = .ok (some improved)) :
    ∃ move ∈ moves,
      fleet.isDrivable move = true ∧ improved = move.apply plan ∧
        ∃ candidate,
          fleet.key improved unserved = .ok candidate ∧ isBetter candidate current = true := by
  induction moves with
  | nil =>
      simp [firstBetter?] at found
  | cons move rest inductionHypothesis =>
      have inRest :
          fleet.firstBetter? plan unserved current rest = .ok (some improved) →
          ∃ candidate ∈ move :: rest,
            fleet.isDrivable candidate = true ∧ improved = candidate.apply plan ∧
              ∃ key, fleet.key improved unserved = .ok key ∧ isBetter key current = true := by
        intro foundInRest
        obtain ⟨candidate, member, isFound⟩ := inductionHypothesis foundInRest
        exact ⟨candidate, List.mem_cons_of_mem move member, isFound⟩
      unfold firstBetter? at found
      split at found
      · rename_i drivable
        obtain ⟨candidate, isKey, found⟩ := bind_eq_ok found
        split at found
        · rename_i better
          cases found
          exact ⟨move, by simp, drivable, rfl, candidate, isKey, better⟩
        · exact inRest found
      · exact inRest found

/-- An improved plan is the outcome of a change that is tried and can be driven, and has a better
key. -/
theorem of_improved?_eq_some
    {plan improved : Plan}
    {unserved : List Nat}
    (found : fleet.improved? plan unserved = .ok (some improved)) :
    (∃ move ∈ Move.candidates plan,
        fleet.isDrivable move = true ∧ improved = move.apply plan) ∧
      ∃ current candidate,
        fleet.key plan unserved = .ok current ∧
          fleet.key improved unserved = .ok candidate ∧
            isBetter candidate current = true := by
  unfold improved? at found
  obtain ⟨current, isCurrent, found⟩ := bind_eq_ok found
  obtain ⟨move, member, drivable, isOutcome, candidate, isCandidate, better⟩ :=
    fleet.of_firstBetter?_eq_some found
  exact ⟨⟨move, member, drivable, isOutcome⟩, current, candidate, isCurrent, isCandidate, better⟩

end Fleet

/-!
## Plans that are always in order

A plan is in order if it has one route for each vehicle, every vehicle can drive
its route, and every customer is served once or left unserved once.  The plan that
is constructed is in order, an improvement keeps it so, and therefore the search
ends with such a plan wherever it is stopped.
-/

namespace Fleet

variable {α : Type} [Scalar α]

/-- A plan with one route for each vehicle, which the vehicle can drive. -/
structure Drivable (fleet : Fleet α) (plan : Plan) : Prop where
  length_eq : plan.length = fleet.vehicles.length
  route_drivable :
    ∀ {position : Nat} {vehicle : Vehicle α} {route : List Nat},
      fleet.vehicles[position]? = some vehicle →
      plan[position]? = some route →
      fleet.network.isDrivable vehicle route = true

/-- A plan that can be driven and accounts for every customer once. -/
structure Sound (fleet : Fleet α) (plan : Plan) (unserved : List Nat) : Prop where
  drivable : fleet.Drivable plan
  accounted : (plan.served ++ unserved).Perm fleet.network.customers

variable {fleet : Fleet α} {plan : Plan}

namespace Drivable

/-- A vehicle that stays at the depot drives the empty route. -/
theorem idle :
    fleet.Drivable (.idle fleet.vehicles.length) where
  length_eq := by
    simp [Plan.idle]
  route_drivable := by
    intro position vehicle route _ isIdle
    have empty : route = [] := by
      obtain ⟨inBounds, isRoute⟩ := List.getElem?_eq_some_iff.mp isIdle
      simpa [Plan.idle] using isRoute.symm
    subst route
    rfl

/-- A vehicle may get another route that it can drive. -/
theorem set
    (drivable : fleet.Drivable plan)
    {position : Nat}
    {vehicle : Vehicle α}
    {route : List Nat}
    (vehicleThere : fleet.vehicles[position]? = some vehicle)
    (routeDrivable : fleet.network.isDrivable vehicle route = true) :
    fleet.Drivable (plan.set position route) where
  length_eq := by
    rw [List.length_set, drivable.length_eq]
  route_drivable := by
    intro other driver driven driverThere drivenThere
    by_cases isPosition : position = other
    · subst other
      have inPlan : position < plan.length := by
        rw [drivable.length_eq]
        exact (List.getElem?_eq_some_iff.mp vehicleThere).1
      rw [List.getElem?_set_self inPlan, Option.some.injEq] at drivenThere
      rw [vehicleThere, Option.some.injEq] at driverThere
      rw [← drivenThere, ← driverThere]
      exact routeDrivable
    · rw [List.getElem?_set_ne isPosition] at drivenThere
      exact drivable.route_drivable driverThere drivenThere

/-- Vehicles are given only routes that they can drive. -/
theorem assignInto
    (routes : List (List Nat))
    (drivable : fleet.Drivable plan) :
    fleet.Drivable (fleet.network.assignInto fleet.vehicles plan routes).1 := by
  induction routes generalizing plan with
  | nil =>
      exact drivable
  | cons route rest inductionHypothesis =>
      unfold Network.assignInto
      cases found :
          fleet.network.cheapestVehicle? fleet.vehicles plan route with
      | some position =>
          obtain ⟨vehicle, vehicleThere, -, routeDrivable⟩ :=
            fleet.network.of_cheapestVehicle?_eq_some fleet.vehicles found
          exact inductionHypothesis (drivable.set vehicleThere routeDrivable)
      | none =>
          exact inductionHypothesis drivable

/-- Stops are inserted only where the route can still be driven. -/
theorem insertAll
    (nodes : List Nat)
    (drivable : fleet.Drivable plan) :
    fleet.Drivable (fleet.network.insertAll fleet.vehicles plan nodes).1 := by
  induction nodes generalizing plan with
  | nil =>
      exact drivable
  | cons node rest inductionHypothesis =>
      unfold Network.insertAll
      cases inserted : fleet.network.insert? fleet.vehicles plan node with
      | some extended =>
          obtain ⟨insertion, member, rfl⟩ :=
            fleet.network.of_insert?_eq_some fleet.vehicles inserted
          obtain ⟨vehicle, -, vehicleThere, -, -, routeDrivable⟩ :=
            fleet.network.of_mem_insertions fleet.vehicles member
          exact inductionHypothesis (drivable.set vehicleThere routeDrivable)
      | none =>
          exact inductionHypothesis drivable

/-- The plan that is constructed can be driven. -/
theorem construct :
    fleet.Drivable (fleet.network.construct fleet.vehicles).1 := by
  unfold Network.construct Network.assign
  exact (idle.assignInto _).insertAll _

/-- A change that the vehicles concerned can drive keeps the plan drivable. -/
theorem apply
    (drivable : fleet.Drivable plan)
    {move : Move}
    (moveDrivable : fleet.isDrivable move = true) :
    fleet.Drivable (move.apply plan) := by
  induction move generalizing plan with
  | nil =>
      exact drivable
  | cons change rest inductionHypothesis =>
      obtain ⟨position, route⟩ := change
      simp only [isDrivable, List.all_cons, Bool.and_eq_true] at moveDrivable
      obtain ⟨headDrivable, restDrivable⟩ := moveDrivable
      split at headDrivable
      · simp at headDrivable
      · rename_i vehicle vehicleThere
        exact inductionHypothesis
          (drivable.set vehicleThere headDrivable) restDrivable

end Drivable

namespace Sound

/-- The plan that is constructed is in order. -/
theorem construct :
    fleet.Sound (fleet.network.construct fleet.vehicles).1
      (fleet.network.construct fleet.vehicles).2 where
  drivable := .construct
  accounted := fleet.network.construct_perm fleet.vehicles

/-- An improvement keeps a plan in order. -/
theorem improved
    {unserved : List Nat}
    (sound : fleet.Sound plan unserved)
    {better : Plan}
    (found : fleet.improved? plan unserved = .ok (some better)) :
    fleet.Sound better unserved := by
  obtain ⟨⟨move, member, moveDrivable, rfl⟩, -⟩ :=
    fleet.of_improved?_eq_some found
  exact
    { drivable := sound.drivable.apply moveDrivable
      accounted :=
        ((Move.served_apply_perm member).append_right unserved).trans
          sound.accounted }

end Sound

end Fleet

namespace Routing

variable {α : Type} [Scalar α] {fleet : Fleet α}

/-- A search that holds a plan in order and tells of it in its history. -/
structure Progress.Sound (fleet : Fleet α) (progress : Progress α) : Prop where
  plan_sound : fleet.Sound progress.plan progress.unserved
  history_unserved :
    ∀ point ∈ progress.history,
      point.constraintViolation = fleet.network.loadOf progress.unserved

/-- Entering a plan into the history tells what it costs and keeps the rest of the search. -/
theorem of_record_eq_ok
    {progress recorded : Progress α}
    (entered : progress.record fleet = .ok recorded) :
    recorded.plan = progress.plan ∧
      recorded.unserved = progress.unserved ∧
      ∃ point : ConvergencePoint α,
        recorded.history = point :: progress.history ∧
          point.constraintViolation = fleet.network.loadOf progress.unserved ∧
          Objectives.costOf fleet.objectives
              (.ofNumbers (fleet.metrics progress.plan progress.unserved)) =
            .ok point.objectiveValue := by
  obtain ⟨cost, isCost, entered⟩ := bind_eq_ok entered
  cases entered
  exact ⟨rfl, rfl, _, rfl, rfl, isCost⟩

namespace Progress.Sound

/-- Entering the plan into the history keeps the search in order. -/
theorem record
    {progress recorded : Progress α}
    (entered : progress.record fleet = .ok recorded)
    (planSound : fleet.Sound progress.plan progress.unserved)
    (historyUnserved :
      ∀ point ∈ progress.history,
        point.constraintViolation = fleet.network.loadOf progress.unserved) :
    recorded.Sound fleet ∧ recorded.history ≠ [] := by
  obtain ⟨samePlan, sameUnserved, point, historyShape, pointUnserved, -⟩ :=
    of_record_eq_ok entered
  refine ⟨⟨?_, ?_⟩, ?_⟩
  · rw [samePlan, sameUnserved]
    exact planSound
  · rw [historyShape, sameUnserved]
    intro recordedPoint member
    rcases List.mem_cons.mp member with isNew | isOld
    · rw [isNew]
      exact pointUnserved
    · exact historyUnserved recordedPoint isOld
  · simp [historyShape]

/-- Improving a plan keeps the search in order wherever it is interrupted. -/
theorem improve
    {budget : Budget α}
    {remaining : Nat}
    {progress last : Progress α}
    {interruption? : Option Interruption}
    (sound : progress.Sound fleet)
    (recorded : progress.history ≠ [])
    (ended :
      Routing.improve fleet budget remaining progress =
        .ok (interruption?, last)) :
    last.Sound fleet ∧ last.history ≠ [] := by
  induction remaining generalizing progress with
  | zero =>
      unfold Routing.improve at ended
      split at ended
      all_goals
        simp only [Except.ok.injEq, Prod.mk.injEq] at ended
        obtain ⟨-, rfl⟩ := ended
        exact ⟨⟨sound.plan_sound, sound.history_unserved⟩, recorded⟩
  | succ remaining inductionHypothesis =>
      unfold Routing.improve at ended
      split at ended
      · simp only [Except.ok.injEq, Prod.mk.injEq] at ended
        obtain ⟨-, rfl⟩ := ended
        exact ⟨⟨sound.plan_sound, sound.history_unserved⟩, recorded⟩
      · rename_i watch _
        dsimp only at ended
        obtain ⟨better?, tried, ended⟩ := bind_eq_ok ended
        cases better? with
        | none =>
            cases ended
            exact ⟨⟨sound.plan_sound, sound.history_unserved⟩, recorded⟩
        | some better =>
            obtain ⟨improved, entered, ended⟩ := bind_eq_ok ended
            obtain ⟨enteredSound, enteredHistory⟩ :=
              record entered (sound.plan_sound.improved tried) sound.history_unserved
            exact inductionHypothesis enteredSound enteredHistory ended

/-- The search ends with a plan in order, wherever it is stopped. -/
theorem search
    {parameters : RoutingParameters α}
    {watch : Watch α}
    {last : Progress α}
    {interruption? : Option Interruption}
    (ended :
      Routing.search parameters fleet watch = .ok (interruption?, last)) :
    last.Sound fleet ∧ last.history ≠ [] := by
  unfold Routing.search at ended
  obtain ⟨started, entered, ended⟩ := bind_eq_ok ended
  obtain ⟨startSound, startHistory⟩ := record entered .construct (by simp)
  split at ended
  · exact improve startSound startHistory ended
  · cases ended
    exact ⟨startSound, startHistory⟩

end Progress.Sound

end Routing

end Optima
