import Optima.Proofs.Scalar.Laws
import Optima.Routing.Drive

namespace Optima

/-!
# What it means that a vehicle can drive a route

A route is driven on time if the service at each stop starts no earlier than the
vehicle can be there, and at a moment that every group of windows permits.  A drive
that an evaluation returns is on time in one shift of the vehicle and keeps to all
of its limits.
-/

/-- What a group of windows asks of a moment. -/
def TimeWindow.Permits {α : Type} [Scalar α] (group : List (TimeWindow α)) (moment : α) : Prop :=
  ((∃ window ∈ group, window.kind ≠ .forbidden) →
      ∃ window ∈ group,
        window.kind ≠ .forbidden ∧ window.start ≤ moment ∧ moment ≤ window.finish) ∧
    ∀ window ∈ group,
      window.kind = .forbidden → ¬ (window.start ≤ moment ∧ moment < window.finish)

/-- A group of windows allows the moments that it permits. -/
theorem TimeWindow.allows_iff_permits
    {α : Type}
    [Scalar α]
    (group : List (TimeWindow α))
    (moment : α) :
    TimeWindow.allows group moment = true ↔ TimeWindow.Permits group moment := by
  unfold TimeWindow.allows TimeWindow.Permits
  rw [Bool.and_eq_true]
  refine and_congr ?_ ?_
  · rw [Bool.or_eq_true]
    constructor
    · rintro (noneOpen | someContains) ⟨window, member, isOpen⟩
      · rw [List.isEmpty_iff, List.filter_eq_nil_iff] at noneOpen
        exact absurd isOpen (by simpa using noneOpen window member)
      · obtain ⟨containing, inOpen, contains⟩ := List.any_eq_true.mp someContains
        obtain ⟨inGroup, containingOpen⟩ := List.mem_filter.mp inOpen
        simp only [TimeWindow.contains, Bool.and_eq_true,
          decide_eq_true_eq] at contains
        exact ⟨containing, inGroup, by simpa using containingOpen,
          contains.1, contains.2⟩
    · intro opening
      by_cases someOpen : ∃ window ∈ group, window.kind ≠ .forbidden
      · obtain ⟨window, member, isOpen, afterStart, beforeFinish⟩ :=
          opening someOpen
        refine Or.inr (List.any_eq_true.mpr ⟨window, ?_, ?_⟩)
        · exact List.mem_filter.mpr ⟨member, by simpa using isOpen⟩
        · simp [TimeWindow.contains, afterStart, beforeFinish]
      · refine Or.inl ?_
        rw [List.isEmpty_iff, List.filter_eq_nil_iff]
        intro window member isOpen
        exact someOpen ⟨window, member, by simpa using isOpen⟩
  · simp [TimeWindow.blocks]

namespace Network

variable {α : Type} [Scalar α]

/--
The services along a route from a node that the vehicle leaves at a given moment:
their starts, and the return to the depot.
-/
inductive Timely (network : Network α) : Nat → α → List Nat → List α → α → Prop where
  | home
      (previous : Nat)
      (clock : α) :
      Timely network previous clock [] [] (clock + network.time previous 0)
  | serve
      {previous node : Nat}
      {clock start finish : α}
      {rest : List Nat}
      {starts : List α} :
      clock + network.time previous node ≤ start →
      (∀ stop, network.stops[node]? = some stop →
        ∀ group ∈ stop.groups, TimeWindow.Permits group start) →
      Timely network node (start + network.serviceTime node) rest starts finish →
      Timely network previous clock (node :: rest) (start :: starts) finish

/-- A drive along a route in a shift that keeps to all limits of the vehicle. -/
structure Drives (network : Network α) (vehicle : Vehicle α) (route : List Nat)
    (drive : Drive α) (shift : α × α) (finish : α) : Prop where
  shift_mem : shift ∈ vehicle.shifts
  timely : network.Timely 0 shift.1 route drive.starts finish
  load_le : network.loadOf route ≤ vehicle.capacity + Scalar.slack
  skills_mem : ∀ node ∈ route, ∀ skill ∈ network.skills node, skill ∈ vehicle.skills
  distance_le :
    ∀ limit, vehicle.maxDistance = some limit →
      network.tourDistance route ≤ limit + Scalar.slack
  finish_le : finish ≤ shift.2 + Scalar.slack
  duration_le :
    ∀ limit, vehicle.maxTime = some limit → finish - shift.1 ≤ limit + Scalar.slack
  drive_eq :
    drive =
      ⟨network.tourDistance route, finish - shift.1,
        vehicle.costOf (network.tourDistance route) (finish - shift.1),
        network.loadOf route, drive.starts⟩

namespace Timely

/-- There is one start for each stop. -/
theorem length_eq
    {network : Network α}
    {previous : Nat}
    {clock finish : α}
    {route : List Nat}
    {starts : List α}
    (timely : network.Timely previous clock route starts finish) :
    starts.length = route.length := by
  induction timely with
  | home =>
      rfl
  | serve _ _ _ inductionHypothesis =>
      simp [inductionHypothesis]

/-- Every service starts when the windows of its stop permit it. -/
theorem permits
    {network : Network α}
    {previous : Nat}
    {clock finish : α}
    {route : List Nat}
    {starts : List α}
    (timely : network.Timely previous clock route starts finish)
    {node : Nat}
    {start : α}
    (service : (node, start) ∈ route.zip starts)
    {stop : Stop α}
    (atNode : network.stops[node]? = some stop)
    {group : List (TimeWindow α)}
    (inGroups : group ∈ stop.groups) :
    TimeWindow.Permits group start := by
  induction timely with
  | home =>
      simp at service
  | serve _ permitted _ inductionHypothesis =>
      rw [List.zip_cons_cons, List.mem_cons] at service
      rcases service with isFirst | inRest
      · obtain ⟨rfl, rfl⟩ := Prod.mk.inj isFirst
        exact permitted stop atNode group inGroups
      · exact inductionHypothesis inRest

end Timely

variable [OrderedScalar α]

/-- A service starts no earlier than the arrival, when all windows permit it. -/
theorem of_earliestStart?_eq_some
    {network : Network α}
    {node : Nat}
    {arrival start : α}
    (found : network.earliestStart? node arrival = some start) :
    arrival ≤ start ∧
      ∀ stop, network.stops[node]? = some stop →
        ∀ group ∈ stop.groups, TimeWindow.Permits group start := by
  unfold earliestStart? at found
  cases atNode : network.stops[node]? with
  | none =>
      simp only [atNode, Option.some.injEq] at found
      subst start
      exact ⟨le_rfl, by simp⟩
  | some stop =>
      simp only [atNode, Stop.earliestStart?] at found
      split at found
      · rename_i noGroups
        simp only [Option.some.injEq] at found
        subst start
        refine ⟨le_rfl, ?_⟩
        intro other isStop group member
        obtain rfl := Option.some.inj isStop
        rw [List.isEmpty_iff.mp noGroups] at member
        simp at member
      · have allowed := List.find?_some found
        have member :=
          Scalar.mem_of_mem_distinct (List.mem_of_find?_eq_some found)
        refine ⟨?_, ?_⟩
        · rcases List.mem_cons.mp member with isArrival | isOpening
          · rw [isArrival]
          · obtain ⟨group, -, inGroup⟩ := List.mem_flatMap.mp isOpening
            obtain ⟨window, -, atWindow⟩ := List.mem_flatMap.mp inGroup
            rcases List.mem_append.mp atWindow with atStart | atFinish
            · split at atStart
              · rename_i later
                rw [List.mem_singleton.mp atStart]
                exact later
              · simp at atStart
            · split at atFinish
              · rename_i later
                rw [Bool.and_eq_true] at later
                rw [List.mem_singleton.mp atFinish]
                simpa using later.2
              · simp at atFinish
        · intro other isStop group inGroups
          obtain rfl := Option.some.inj isStop
          exact (TimeWindow.allows_iff_permits group start).mp
            (List.all_eq_true.mp allowed group inGroups)

/-- A timetable is on time. -/
theorem timely_of_timetable_eq_some
    {network : Network α}
    {previous : Nat}
    {clock finish : α}
    {route : List Nat}
    {starts : List α}
    (planned : network.timetable previous clock route = some (starts, finish)) :
    network.Timely previous clock route starts finish := by
  induction route generalizing previous clock starts with
  | nil =>
      simp only [timetable, Option.some.injEq, Prod.mk.injEq] at planned
      obtain ⟨rfl, rfl⟩ := planned
      exact .home previous clock
  | cons node rest inductionHypothesis =>
      simp only [timetable, Option.bind_eq_bind, Option.bind_eq_some_iff] at planned
      obtain ⟨start, startFound, ⟨restStarts, restFinish⟩, restPlanned, shape⟩ :=
        planned
      simp only [Option.pure_def, Option.some.injEq, Prod.mk.injEq] at shape
      obtain ⟨rfl, rfl⟩ := shape
      obtain ⟨onTime, permitted⟩ := of_earliestStart?_eq_some startFound
      exact .serve onTime permitted (inductionHypothesis restPlanned)

/-- A number does not exceed a limit where it is at most the limit and the slack. -/
theorem not_exceeds_iff
    {limit? : Option α}
    {value : α} :
    ¬ Vehicle.exceeds limit? value = true ↔
      ∀ limit, limit? = some limit → value ≤ limit + Scalar.slack := by
  cases limit? with
  | none => simp [Vehicle.exceeds]
  | some limit => simp [Vehicle.exceeds, OrderedScalar.lt_iff_not_le]

/-- A drive in a shift follows a timetable that keeps to the limits on the time. -/
theorem driveIn_eq_ok_iff
    {network : Network α}
    {vehicle : Vehicle α}
    {route : List Nat}
    {shift : α × α}
    {drive : Drive α} :
    network.driveIn vehicle route shift = .ok drive ↔
      ∃ starts finish,
        network.timetable 0 shift.1 route = some (starts, finish) ∧
          finish ≤ shift.2 + Scalar.slack ∧
          (∀ limit, vehicle.maxTime = some limit → finish - shift.1 ≤ limit + Scalar.slack) ∧
          ⟨network.tourDistance route, finish - shift.1,
            vehicle.costOf (network.tourDistance route) (finish - shift.1),
            network.loadOf route, starts⟩ = drive := by
  unfold driveIn
  cases planned : network.timetable 0 shift.1 route with
  | none =>
      simp
  | some timetable =>
      obtain ⟨starts, finish⟩ := timetable
      dsimp only
      split
      · rename_i tooLate
        rw [OrderedScalar.lt_iff_not_le] at tooLate
        refine iff_of_false nofun ?_
        rintro ⟨_, _, ⟨⟩, inTime, -⟩
        exact tooLate inTime
      · rename_i notTooLate
        split
        · rename_i tooLong
          refine iff_of_false nofun ?_
          rintro ⟨_, _, ⟨⟩, -, inLimit, -⟩
          exact not_exceeds_iff.mpr inLimit tooLong
        · rename_i notTooLong
          rw [Except.ok.injEq]
          constructor
          · intro isDrive
            exact ⟨starts, finish, rfl, OrderedScalar.le_of_not_lt notTooLate,
              not_exceeds_iff.mp notTooLong, isDrive⟩
          · rintro ⟨_, _, ⟨⟩, -, -, isDrive⟩
            exact isDrive

omit [OrderedScalar α] in
/-- A drive in one of several shifts is the drive in the first of them in which there is one. -/
theorem driveInShifts_eq_ok_iff
    {network : Network α}
    {vehicle : Vehicle α}
    {route : List Nat}
    {drive : Drive α}
    {obstacle : Obstacle}
    {shifts : List (α × α)} :
    network.driveInShifts vehicle route obstacle shifts = .ok drive ↔
      ∃ earlier shift later,
        shifts = earlier ++ shift :: later ∧
          (∀ other ∈ earlier, ∀ found, network.driveIn vehicle route other ≠ .ok found) ∧
          network.driveIn vehicle route shift = .ok drive := by
  induction shifts generalizing obstacle with
  | nil =>
      simp [driveInShifts]
  | cons first rest inductionHypothesis =>
      unfold driveInShifts
      cases inFirst : network.driveIn vehicle route first with
      | ok found =>
          constructor
          · intro isDrive
            exact ⟨[], first, rest, rfl, by simp, inFirst.trans isDrive⟩
          · rintro ⟨earlier, shift, later, areShifts, noneEarlier, isDrive⟩
            cases earlier with
            | nil =>
                obtain ⟨rfl, -⟩ := List.cons.inj areShifts
                exact inFirst.symm.trans isDrive
            | cons other others =>
                obtain ⟨rfl, -⟩ := List.cons.inj areShifts
                exact absurd inFirst (noneEarlier first (by simp) found)
      | error found =>
          dsimp only
          rw [inductionHypothesis]
          constructor
          · rintro ⟨earlier, shift, later, rfl, noneEarlier, isDrive⟩
            refine ⟨first :: earlier, shift, later, rfl, ?_, isDrive⟩
            rw [List.forall_mem_cons]
            exact ⟨by simp [inFirst], noneEarlier⟩
          · rintro ⟨earlier, shift, later, areShifts, noneEarlier, isDrive⟩
            cases earlier with
            | nil =>
                obtain ⟨rfl, -⟩ := List.cons.inj areShifts
                exact absurd (inFirst.symm.trans isDrive) (by simp)
            | cons other others =>
                obtain ⟨-, rfl⟩ := List.cons.inj areShifts
                exact ⟨others, shift, later, rfl,
                  fun _ member => noneEarlier _ (List.mem_cons_of_mem other member), isDrive⟩

omit [OrderedScalar α] in
/-- Where there is a drive in one of several shifts, there is a first one. -/
theorem exists_driveInShifts_eq_ok
    {network : Network α}
    {vehicle : Vehicle α}
    {route : List Nat}
    {found : Drive α}
    {obstacle : Obstacle}
    {shift : α × α}
    {shifts : List (α × α)}
    (isShift : shift ∈ shifts)
    (isFound : network.driveIn vehicle route shift = .ok found) :
    ∃ drive, network.driveInShifts vehicle route obstacle shifts = .ok drive := by
  induction shifts generalizing obstacle with
  | nil =>
      simp at isShift
  | cons first rest inductionHypothesis =>
      unfold driveInShifts
      cases inFirst : network.driveIn vehicle route first with
      | ok drive => exact ⟨drive, rfl⟩
      | error found =>
          rcases List.mem_cons.mp isShift with rfl | inRest
          · cases inFirst.symm.trans isFound
          · exact inductionHypothesis inRest

/-- What a vehicle can take along on a route: the load, the skills and the way are within its
limits. -/
structure Carries (network : Network α) (vehicle : Vehicle α) (route : List Nat) : Prop where
  load_le : network.loadOf route ≤ vehicle.capacity + Scalar.slack
  skills_mem : ∀ node ∈ route, ∀ skill ∈ network.skills node, skill ∈ vehicle.skills
  distance_le :
    ∀ limit, vehicle.maxDistance = some limit →
      network.tourDistance route ≤ limit + Scalar.slack

/-- An evaluation succeeds where the vehicle can take the stops along and drives in a shift. -/
theorem evaluate_eq_ok_iff
    {network : Network α}
    {vehicle : Vehicle α}
    {route : List Nat}
    {drive : Drive α}
    (nonempty : route ≠ []) :
    network.evaluate vehicle route = .ok drive ↔
      network.Carries vehicle route ∧
        network.driveInShifts vehicle route .timeWindows vehicle.shifts = .ok drive := by
  unfold evaluate
  rw [if_neg (by simpa using nonempty)]
  split
  · rename_i isOverloaded
    rw [OrderedScalar.lt_iff_not_le] at isOverloaded
    exact iff_of_false nofun fun carries => isOverloaded carries.1.load_le
  · rename_i notOverloaded
    split
    · rename_i isUnskilled
      refine iff_of_false nofun fun carries => ?_
      obtain ⟨node, inRoute, skill, isAsked, isMissing⟩ := by simpa using isUnskilled
      exact isMissing (carries.1.skills_mem node inRoute skill isAsked)
    · rename_i isSkilled
      split
      · rename_i isTooFar
        refine iff_of_false nofun fun carries => ?_
        exact not_exceeds_iff.mpr carries.1.distance_le isTooFar
      · rename_i notTooFar
        refine (and_iff_right ?_).symm
        exact
          { load_le := OrderedScalar.le_of_not_lt notOverloaded
            skills_mem := by simpa using isSkilled
            distance_le := not_exceeds_iff.mp notTooFar }

omit [OrderedScalar α] in
/-- A vehicle can drive a route where its evaluation succeeds. -/
theorem isDrivable_iff
    {network : Network α}
    {vehicle : Vehicle α}
    {route : List Nat} :
    network.isDrivable vehicle route = true ↔
      ∃ drive, network.evaluate vehicle route = .ok drive := by
  unfold isDrivable
  cases network.evaluate vehicle route <;> simp [Except.isOk, Except.toBool]

/-- An evaluation that succeeds returns a drive that keeps to all limits. -/
theorem drives_of_evaluate_eq_ok
    {network : Network α}
    {vehicle : Vehicle α}
    {route : List Nat}
    {drive : Drive α}
    (nonempty : route ≠ [])
    (evaluated : network.evaluate vehicle route = .ok drive) :
    ∃ shift finish, network.Drives vehicle route drive shift finish := by
  obtain ⟨carries, inShifts⟩ := (evaluate_eq_ok_iff nonempty).mp evaluated
  obtain ⟨earlier, shift, later, areShifts, -, inShift⟩ := driveInShifts_eq_ok_iff.mp inShifts
  obtain ⟨starts, finish, planned, inTime, inLimit, rfl⟩ := driveIn_eq_ok_iff.mp inShift
  refine ⟨shift, finish, ?_⟩
  exact
    { shift_mem := by simp [areShifts]
      timely := timely_of_timetable_eq_some planned
      load_le := carries.load_le
      skills_mem := carries.skills_mem
      distance_le := carries.distance_le
      finish_le := inTime
      duration_le := inLimit
      drive_eq := rfl }

/-- The drive of a vehicle that can drive a route keeps to all limits. -/
theorem drives_of_isDrivable
    {network : Network α}
    {vehicle : Vehicle α}
    {route : List Nat}
    (nonempty : route ≠ [])
    (drivable : network.isDrivable vehicle route = true) :
    ∃ shift finish,
      network.Drives vehicle route (network.drive vehicle route) shift finish := by
  obtain ⟨drive, evaluated⟩ := isDrivable_iff.mp drivable
  have isDrive : network.drive vehicle route = drive := by
    simp [Network.drive, evaluated, Except.toOption]
  rw [isDrive]
  exact drives_of_evaluate_eq_ok nonempty evaluated

end Network

end Optima
