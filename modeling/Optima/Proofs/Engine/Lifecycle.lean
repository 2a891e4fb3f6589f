import Optima.Proofs.Engine.Failures

namespace Optima

/-!
# What is done to a problem matches its lifecycle

A problem may be marked and solved any number of times, in any order, by solvers that
may fail and with recipients that may fail.  Whatever is done, the problem waits, runs,
and ends completed or failed, and never goes another way.  A solve says with its answer
where it has left the problem, and a solution is handed on once, after the problem is
where it stays.
-/

namespace Lifecycle

theorem mayBecome_of_pending_iff
    {next : Lifecycle} :
    pending.mayBecome next = true ↔ next = .running := by
  cases next <;> decide

theorem mayBecome_of_running_iff
    {next : Lifecycle} :
    running.mayBecome next = true ↔ next = .completed ∨ next = .failed := by
  cases next <;> decide

/-- A problem goes from one stage to another, and enters others on its way. -/
inductive Path : Lifecycle → List Lifecycle → Lifecycle → Prop where
  | stay (stage : Lifecycle) : Path stage [] stage
  | move {stage next last : Lifecycle} {entered : List Lifecycle}
      (allowed : stage.mayBecome next = true) (onward : Path next entered last) :
      Path stage (next :: entered) last

namespace Path

variable {start middle last : Lifecycle} {entered others : List Lifecycle}

theorem append
    (first : Path start entered middle)
    (second : Path middle others last) :
    Path start (entered ++ others) last := by
  induction first with
  | stay stage => exact second
  | move allowed onward inductionHypothesis => exact .move allowed (inductionHypothesis second)

theorem getLast?_eq
    (path : Path start entered last) :
    (start :: entered).getLast? = some last := by
  induction path with
  | stay stage => rfl
  | move allowed onward inductionHypothesis =>
      rw [List.getLast?_cons_cons]
      exact inductionHypothesis

/-- Nothing comes after the end. -/
theorem eq_nil_of_ended
    (path : Path start entered last)
    (ended : start = .completed ∨ start = .failed) :
    entered = [] := by
  cases path with
  | stay => rfl
  | move allowed onward => rcases ended with rfl | rfl <;> cases allowed

/-- A problem waits, runs, and ends completed or failed; a path is a part of this. -/
theorem exists_whole
    (path : Path start entered last) :
    ∃ final, (final = .completed ∨ final = .failed) ∧
      start :: entered <:+: [.pending, .running, final] := by
  have fromRunning {entered : List Lifecycle} (path : Path .running entered last) :
      ∃ final, (final = .completed ∨ final = .failed) ∧ entered <+: [final] := by
    cases path with
    | stay => exact ⟨.completed, .inl rfl, List.nil_prefix⟩
    | @move _ next _ entered allowed onward =>
        have isFinal := mayBecome_of_running_iff.mp allowed
        rw [onward.eq_nil_of_ended isFinal]
        exact ⟨next, isFinal, List.prefix_refl _⟩
  cases start with
  | pending =>
      cases path with
      | stay => exact ⟨.completed, .inl rfl, [], [.running, .completed], rfl⟩
      | @move _ next _ entered allowed onward =>
          obtain rfl := mayBecome_of_pending_iff.mp allowed
          obtain ⟨final, isFinal, rest, isPrefix⟩ := fromRunning onward
          exact ⟨final, isFinal, [], rest, by rw [← isPrefix]; rfl⟩
  | running =>
      obtain ⟨final, isFinal, rest, isPrefix⟩ := fromRunning path
      exact ⟨final, isFinal, [.pending], rest, by rw [← isPrefix]; rfl⟩
  | completed =>
      rw [path.eq_nil_of_ended (.inl rfl)]
      exact ⟨.completed, .inl rfl, [.pending, .running], [], rfl⟩
  | failed =>
      rw [path.eq_nil_of_ended (.inr rfl)]
      exact ⟨.failed, .inr rfl, [.pending, .running], [], rfl⟩

end Path

end Lifecycle

namespace AnyProblem

variable {α : Type} {problem : AnyProblem α}

/-- The same problem at another stage of its lifecycle. -/
def withStatus (problem : AnyProblem α) (status : Lifecycle) : AnyProblem α :=
  problem.mapBase fun base => { base with status := status }

@[simp] theorem status_withStatus
    (problem : AnyProblem α)
    (status : Lifecycle) :
    (problem.withStatus status).base.status = status := by
  cases problem <;> rfl

@[simp] theorem withStatus_withStatus
    (problem : AnyProblem α)
    (first second : Lifecycle) :
    (problem.withStatus first).withStatus second = problem.withStatus second := by
  cases problem <;> rfl

theorem mark_of_mayBecome
    {next : Lifecycle}
    (allowed : problem.base.status.mayBecome next = true) :
    problem.mark next = .ok (problem.withStatus next) := by
  unfold mark Problem.mark
  rw [if_pos allowed]
  rfl

theorem mark_of_not_mayBecome
    {next : Lifecycle}
    (refused : problem.base.status.mayBecome next = false) :
    problem.mark next = .error (.notAllowed problem.base.status next) := by
  unfold mark Problem.mark
  rw [refused]
  rfl

/-- A label that names no status, or one that the problem may not take now, leaves it as it is. -/
theorem markLabel_cases
    (problem : AnyProblem α)
    (status : String) :
    (∃ next, Labelled.ofLabel? status = some next ∧ problem.base.status.mayBecome next = true ∧
        problem.markLabel status = .ok (problem.withStatus next)) ∨
      (∀ next, Labelled.ofLabel? status = some next →
          problem.base.status.mayBecome next = false) ∧
        ∃ failure, problem.markLabel status = .error failure := by
  unfold markLabel Problem.markLabel
  cases named : (Labelled.ofLabel? status : Option Lifecycle) with
  | none => exact .inr ⟨nofun, _, rfl⟩
  | some next =>
      cases allowed : problem.base.status.mayBecome next with
      | true =>
          have isMarked := mark_of_mayBecome allowed
          exact .inl ⟨next, rfl, allowed, isMarked⟩
      | false =>
          have isRefused := mark_of_not_mayBecome allowed
          refine .inr ⟨fun other isNext => ?_, _, isRefused⟩
          obtain rfl := Option.some.inj isNext
          exact allowed

end AnyProblem

namespace Recipients

variable {σ : Type}

/-- The state after somebody has got a solution, if anybody gets it. -/
def changed (recipient? : Option (Record → σ → σ × Option String)) (record : Record) (state : σ) :
    σ :=
  match recipient? with
  | none => state
  | some recipient => (recipient record state).1

/-- That somebody gets a solution, if anybody gets it, and what it fails for. -/
def told (event : Record → Option String → Event)
    (recipient? : Option (Record → σ → σ × Option String)) (record : Record) (state : σ) :
    List Event :=
  (recipient?.map fun recipient => event record (recipient record state).2).toList

/-- The one who waits is told whatever the store says. -/
theorem deliver_eq
    (recipients : Recipients σ)
    (record : Record)
    (state : σ) :
    recipients.deliver record state =
      (changed recipients.notify record (changed recipients.store record state),
        told .stored recipients.store record state ++
          told .notified recipients.notify record (changed recipients.store record state)) := by
  obtain ⟨store?, notify?⟩ := recipients
  cases store? <;> cases notify? <;> rfl

end Recipients

namespace Engine

/-! ## A strategy at work -/

section Work

variable {σ : Type} {problem : AnyProblem Float} {recipients : Recipients σ}
  {work : AnyProblem Float → Except (StrategyFailure Float) (Solution Float)}

/-- The problem that a strategy works on: one that was pending is running. -/
def atWork (problem : AnyProblem Float) : AnyProblem Float :=
  if problem.base.status = .pending then problem.withStatus .running else problem

/-- A problem after the work of a strategy: one that was pending is at its end. -/
def leftAt (last : Lifecycle) (problem : AnyProblem Float) : AnyProblem Float :=
  if problem.base.status = .pending then problem.withStatus last else problem

/-- The stages that a problem enters while a strategy works on it. -/
def enteredUntil (last : Lifecycle) (problem : AnyProblem Float) : List Event :=
  if problem.base.status = .pending then [.entered .running, .entered last] else []

theorem mayBecome_ending
    {ε β : Type}
    (result : Except ε β) :
    Lifecycle.running.mayBecome (ending result) = true := by
  cases result <;> rfl

theorem track_eq
    {ε β : Type}
    (problem : AnyProblem Float)
    (work : AnyProblem Float → Except ε β) :
    track problem work =
      (work (atWork problem), leftAt (ending (work (atWork problem))) problem,
        enteredUntil (ending (work (atWork problem))) problem) := by
  unfold track atWork leftAt enteredUntil
  by_cases isPending : problem.base.status = .pending
  · have starts : problem.mark .running = .ok (problem.withStatus .running) :=
      AnyProblem.mark_of_mayBecome (by rw [isPending]; rfl)
    have ends (result : Except ε β) :
        (problem.withStatus .running).mark (ending result) =
          .ok ((problem.withStatus .running).withStatus (ending result)) :=
      AnyProblem.mark_of_mayBecome
        (by rw [AnyProblem.status_withStatus]; exact mayBecome_ending result)
    simp only [if_pos isPending, advance, entry, starts, ends, AnyProblem.withStatus_withStatus]
    rfl
  · simp only [if_neg isPending]

/-- Where a strategy fails, so does the problem, and nobody is told. -/
theorem carryOut_of_error
    {cause : StrategyFailure Float}
    (fails : work (atWork problem) = .error cause)
    (stamps : Stamps)
    (state : σ) :
    carryOut recipients problem work stamps state =
      ⟨.error (.ofStrategy problem.base.identifier cause), leftAt .failed problem, stamps, state,
        enteredUntil .failed problem⟩ := by
  unfold carryOut
  rw [track_eq, fails]
  rfl

/-- Where a strategy has a solution, the problem is completed, and then the solution is handed
on. -/
theorem carryOut_of_ok
    {solution : Solution Float}
    (solved : work (atWork problem) = .ok solution)
    (stamps : Stamps)
    (state : σ) :
    carryOut recipients problem work stamps state =
      ⟨.ok (stamps.stamp solution).1, leftAt .completed problem, (stamps.stamp solution).2,
        (recipients.deliver (stamps.stamp solution).1 state).1,
        enteredUntil .completed problem ++
          (recipients.deliver (stamps.stamp solution).1 state).2⟩ := by
  unfold carryOut
  rw [track_eq, solved]
  rfl

end Work

/-! ## Calls -/

open Labelled

/-- What there is between two calls: a problem, what solutions are stamped with, and the state of
those who get them. -/
structure Session (σ : Type) where
  problem : AnyProblem Float
  stamps : Stamps
  state : σ

/-- Where the problem of a session is in its lifecycle. -/
def Session.status {σ : Type} (session : Session σ) : Lifecycle := session.problem.base.status

/-- What can be done to a problem: it is marked, or solved in one of two ways by whatever works
for the strategies, as `Strategy.solve` does for `solve` and `allocate` for `solveAllocation`. -/
inductive Call (σ : Type) where
  | mark (status : String)
  | solve (solver : Solver) (configuration : Configuration) (recipients : Recipients σ)
      (requested? : Option String) (watch : Watch Float)
  | allocate (allocator : Allocator) (configuration : Configuration) (recipients : Recipients σ)
      (suppliers : List (Supplier Float)) (requisitions : List (Requisition Float))
      (watch : Watch Float)

/-- What the caller is told. -/
inductive Answer where
  | marked (result : Except MarkFailure Unit)
  | solved (result : Except EngineFailure Record)

/-- What comes of a call. -/
structure Turn (σ : Type) where
  answer : Answer
  events : List Event
  after : Session σ

/-- What comes of a solve. -/
def Turn.ofOutcome {σ : Type} (outcome : Outcome σ) : Turn σ :=
  ⟨.solved outcome.result, outcome.events, ⟨outcome.problem, outcome.stamps, outcome.state⟩⟩

namespace Call

variable {σ : Type} {session : Session σ} {call : Call σ}

/-- Carry out a call. -/
def turn : Call σ → Session σ → Turn σ
  | .mark status, session =>
      match session.problem.markLabel status with
      | .ok marked =>
          ⟨.marked (.ok ()), [.entered marked.base.status], { session with problem := marked }⟩
      | .error failure => ⟨.marked (.error failure), [], session⟩
  | .solve solver configuration recipients requested? watch, session =>
      .ofOutcome (solveBy solver configuration recipients session.problem requested? watch
        session.stamps session.state)
  | .allocate allocator configuration recipients suppliers requisitions watch, session =>
      .ofOutcome (allocateBy allocator configuration recipients session.problem suppliers
        requisitions watch session.stamps session.state)

/-- Those who get the solution of a call. -/
def recipients : Call σ → Recipients σ
  | .mark _ => ⟨none, none⟩
  | .solve _ _ recipients _ _ | .allocate _ _ recipients _ _ _ => recipients

/-- Why a solve is rejected before a strategy works on the problem, or what comes of the work.  A
mark makes no strategy work. -/
def attempt? : Call σ → Session σ →
    Option (Except EngineFailure (Except (StrategyFailure Float) (Solution Float)))
  | .mark _, _ => none
  | .solve solver configuration _ requested? watch, session =>
      some ((prepare configuration session.problem requested?).map fun algorithm =>
        solver algorithm (configuration.settingsFor (label algorithm)) (atWork session.problem)
          watch)
  | .allocate allocator configuration _ suppliers requisitions watch, session =>
      let issues := allocationIssues suppliers requisitions
      let fresh := session.stamps.supply.reserve
        (suppliers.length * requisitions.length + requisitions.length + 1)
      if issues.isEmpty then
        some (.ok (allocator (configuration.settingsFor (label Algorithm.linearProgramming))
          suppliers requisitions fresh.1 watch (atWork session.problem)))
      else some (.error (.invalid issues))

/-- What is done to a problem matches its lifecycle. -/
structure IsOrderly (call : Call σ) (session : Session σ) : Prop where
  /-- A mark is accepted where the lifecycle allows it, and else leaves all as it is. -/
  marks :
    ∀ status, call = .mark status →
      (∃ next, ofLabel? status = some next ∧ session.status.mayBecome next = true ∧
          call.turn session = ⟨.marked (.ok ()), [.entered next],
            { session with problem := session.problem.withStatus next }⟩) ∨
        (∀ next, ofLabel? status = some next → session.status.mayBecome next = false) ∧
          ∃ failure, call.turn session = ⟨.marked (.error failure), [], session⟩
  /-- A rejected solve leaves all as it is. -/
  rejects :
    ∀ failure, call.attempt? session = some (.error failure) →
      call.turn session = ⟨.solved (.error failure), [], session⟩
  /-- Where the strategy fails, so do the solve and a problem that was pending, and nobody is
  told. -/
  fails :
    ∀ cause, call.attempt? session = some (.ok (.error cause)) →
      ∃ failure stamps,
        call.turn session =
          ⟨.solved (.error failure), enteredUntil .failed session.problem,
            ⟨leftAt .failed session.problem, stamps, session.state⟩⟩
  /-- Where the strategy has a solution, the solve returns it and completes a problem that was
  pending, and then the store and the one who waits get what is returned, the latter whatever the
  store says. -/
  returns :
    ∀ solution, call.attempt? session = some (.ok (.ok solution)) →
      ∃ record stamps kept,
        record.solution = solution ∧
          kept = Recipients.changed call.recipients.store record session.state ∧
          call.turn session =
            ⟨.solved (.ok record),
              enteredUntil .completed session.problem ++
                (Recipients.told .stored call.recipients.store record session.state ++
                  Recipients.told .notified call.recipients.notify record kept),
              ⟨leftAt .completed session.problem, stamps,
                Recipients.changed call.recipients.notify record kept⟩⟩

theorem turn_of_rejected
    {failure : EngineFailure}
    (rejected : call.attempt? session = some (.error failure)) :
    call.turn session = ⟨.solved (.error failure), [], session⟩ := by
  cases call with
  | mark status => cases rejected
  | solve solver configuration recipients requested? watch =>
      cases prepared : prepare configuration session.problem requested? with
      | error cause =>
          simp only [attempt?, prepared, Except.map] at rejected
          cases rejected
          simp only [turn, solveBy, prepared]
          rfl
      | ok algorithm =>
          simp only [attempt?, prepared, Except.map] at rejected
          cases rejected
  | allocate allocator configuration recipients suppliers requisitions watch =>
      cases noIssue : (allocationIssues suppliers requisitions).isEmpty with
      | true =>
          simp only [attempt?, noIssue, if_true] at rejected
          cases rejected
      | false =>
          simp only [attempt?, noIssue] at rejected
          cases rejected
          simp only [turn, allocateBy, noIssue]
          rfl

/-- A solve that is not rejected is carried out with some stamps by what works for the strategy. -/
theorem exists_turn_eq_carryOut
    {result : Except (StrategyFailure Float) (Solution Float)}
    (attempted : call.attempt? session = some (.ok result)) :
    ∃ work stamps,
      work (atWork session.problem) = result ∧
        call.turn session =
          .ofOutcome (carryOut call.recipients session.problem work stamps session.state) := by
  cases call with
  | mark status => cases attempted
  | solve solver configuration recipients requested? watch =>
      cases prepared : prepare configuration session.problem requested? with
      | error cause =>
          simp only [attempt?, prepared, Except.map] at attempted
          cases attempted
      | ok algorithm =>
          simp only [attempt?, prepared, Except.map] at attempted
          cases attempted
          simp only [turn, solveBy, prepared]
          exact ⟨_, _, rfl, rfl⟩
  | allocate allocator configuration recipients suppliers requisitions watch =>
      cases noIssue : (allocationIssues suppliers requisitions).isEmpty with
      | true =>
          simp only [attempt?, noIssue, if_true] at attempted
          cases attempted
          simp only [turn, allocateBy, noIssue]
          exact ⟨_, _, rfl, rfl⟩
      | false =>
          simp only [attempt?, noIssue] at attempted
          cases attempted

theorem isOrderly
    (call : Call σ)
    (session : Session σ) :
    call.IsOrderly session where
  marks := by
    rintro status rfl
    rcases session.problem.markLabel_cases status with
      ⟨next, isNext, allowed, isMarked⟩ | ⟨refused, failure, isRefused⟩
    · refine .inl ⟨next, isNext, allowed, ?_⟩
      simp only [turn, isMarked, AnyProblem.status_withStatus]
    · refine .inr ⟨refused, failure, ?_⟩
      simp only [turn, isRefused]
  rejects failure rejected := turn_of_rejected rejected
  fails cause failed := by
    obtain ⟨work, stamps, isFailed, isTurn⟩ := exists_turn_eq_carryOut failed
    rw [carryOut_of_error isFailed] at isTurn
    exact ⟨_, _, isTurn⟩
  returns solution solved := by
    obtain ⟨work, stamps, isSolved, isTurn⟩ := exists_turn_eq_carryOut solved
    rw [carryOut_of_ok isSolved, Recipients.deliver_eq] at isTurn
    exact ⟨_, _, _, rfl, rfl, isTurn⟩

end Call

/-! ## Any number of calls -/

variable {σ : Type}

/-- The stages that a problem enters. -/
def stages (events : List Event) : List Lifecycle :=
  events.filterMap fun
    | .entered stage => some stage
    | .stored _ _ | .notified _ _ => none

/-- The session after some calls. -/
def Session.after : Session σ → List (Call σ) → Session σ
  | session, [] => session
  | session, call :: rest => Session.after (call.turn session).after rest

/-- All that is done in a session by some calls. -/
def Session.events : Session σ → List (Call σ) → List Event
  | _, [] => []
  | session, call :: rest =>
      (call.turn session).events ++ Session.events (call.turn session).after rest

theorem stages_append
    (first second : List Event) :
    stages (first ++ second) = stages first ++ stages second :=
  List.filterMap_append

theorem path_enteredUntil
    {problem : AnyProblem Float}
    {last : Lifecycle}
    (isLast : Lifecycle.running.mayBecome last = true) :
    problem.base.status.Path (stages (enteredUntil last problem))
      (leftAt last problem).base.status := by
  unfold enteredUntil leftAt
  by_cases isPending : problem.base.status = .pending
  · rw [if_pos isPending, if_pos isPending, AnyProblem.status_withStatus, isPending]
    exact .move rfl (.move isLast (.stay last))
  · rw [if_neg isPending, if_neg isPending]
    exact .stay _

theorem stages_told
    (recipients : Recipients σ)
    (record : Record)
    (first second : σ) :
    stages (Recipients.told .stored recipients.store record first ++
      Recipients.told .notified recipients.notify record second) = [] := by
  obtain ⟨store?, notify?⟩ := recipients
  cases store? <;> cases notify? <;> rfl

/-- A call moves the problem along its lifecycle. -/
theorem path_turn
    (call : Call σ)
    (session : Session σ) :
    session.status.Path (stages (call.turn session).events) (call.turn session).after.status := by
  have isOrderly := call.isOrderly session
  match attempted : call.attempt? session with
  | none =>
      cases call with
      | mark status =>
          rcases isOrderly.marks status rfl with
            ⟨next, isNext, allowed, isTurn⟩ | ⟨refused, failure, isTurn⟩
          · rw [isTurn]
            refine .move allowed ?_
            change next.Path [] (session.problem.withStatus next).base.status
            rw [AnyProblem.status_withStatus]
            exact .stay next
          · rw [isTurn]
            exact .stay _
      | solve => cases attempted
      | allocate =>
          unfold Call.attempt? at attempted
          dsimp only at attempted
          split at attempted <;> cases attempted
  | some (.error failure) =>
      rw [isOrderly.rejects failure attempted]
      exact .stay _
  | some (.ok (.error cause)) =>
      obtain ⟨failure, stamps, isTurn⟩ := isOrderly.fails cause attempted
      rw [isTurn]
      exact path_enteredUntil rfl
  | some (.ok (.ok solution)) =>
      obtain ⟨record, stamps, kept, -, -, isTurn⟩ := isOrderly.returns solution attempted
      rw [isTurn, stages_append, stages_told, List.append_nil]
      exact path_enteredUntil rfl

/-- Any number of calls moves the problem along its lifecycle. -/
theorem Session.path_events
    (session : Session σ)
    (calls : List (Call σ)) :
    session.status.Path (stages (session.events calls)) (session.after calls).status := by
  induction calls generalizing session with
  | nil => exact .stay _
  | cons call rest inductionHypothesis =>
      unfold Session.events Session.after
      rw [stages_append]
      exact (path_turn call session).append (inductionHypothesis _)

/-- Whatever is done to a problem, and however strategies and recipients fail: the problem waits,
runs, and ends completed or failed, and every call is orderly that comes after others. -/
theorem calls_match_lifecycle
    (session : Session σ)
    (calls : List (Call σ)) :
    (∃ final, (final = .completed ∨ final = .failed) ∧
        session.status :: stages (session.events calls) <:+: [.pending, .running, final]) ∧
      (session.status :: stages (session.events calls)).getLast? =
        some (session.after calls).status ∧
      ∀ call, Call.IsOrderly call (session.after calls) :=
  ⟨(session.path_events calls).exists_whole, (session.path_events calls).getLast?_eq,
    fun call => call.isOrderly _⟩

section BrokenStore

/-- A solution of a problem that waits for it. -/
def smallSolution : Solution Float := .bare "p" .feasible ⟨"genetic", 1, 0, [], {}⟩

/-- A solve while the store is broken. -/
def brokenStoreSolve : Call (List String) :=
  .solve (fun _ _ _ _ => .ok smallSolution) strayConfiguration
    ⟨some fun _ seen => (seen, some "disk full"),
      some fun record seen => (seen ++ [record.identifier], none)⟩
    (some "genetic") (.start (fun _ => 0) fun _ => false)

/-- A problem that waits. -/
def pendingSession : Session (List String) :=
  ⟨.generic undecidedProblem,
    ⟨⟨fun number => toString number, 0⟩, fun _ => ⟨2000, 1, 1, 0, 0, 0, 0, none⟩, 0⟩, []⟩

/-- A problem that waits cannot be completed by a mark.  Then it is solved; the store fails, and the
one who waits gets the solution all the same. -/
theorem brokenStore_matches_lifecycle :
    ∃ record,
      record.solution = smallSolution ∧
        pendingSession.events [.mark "completed", brokenStoreSolve] =
          [.entered .running, .entered .completed, .stored record (some "disk full"),
            .notified record none] ∧
        (pendingSession.after [.mark "completed", brokenStoreSolve]).status = .completed := by
  have isRefused : (Call.mark "completed").turn pendingSession =
      ⟨.marked (.error (.notAllowed .pending .completed)), [], pendingSession⟩ := by
    rfl
  have isPrepared :
      prepare strayConfiguration (.generic undecidedProblem) (some "genetic") = .ok .genetic := by
    with_unfolding_all rfl
  have isAttempted :
      brokenStoreSolve.attempt? (pendingSession.after [.mark "completed"]) =
        some (.ok (.ok smallSolution)) := by
    have isSame : pendingSession.after [.mark "completed"] = pendingSession := by
      simp only [Session.after, isRefused]
    rw [isSame]
    simp only [brokenStoreSolve, Call.attempt?, pendingSession, isPrepared, Except.map]
  obtain ⟨record, stamps, kept, isSolution, -, isTurn⟩ :=
    ((calls_match_lifecycle pendingSession [.mark "completed"]).2.2 brokenStoreSolve).returns
      smallSolution isAttempted
  refine ⟨record, isSolution, ?_⟩
  simp only [Session.after, Session.events, isRefused] at isTurn ⊢
  rw [isTurn]
  exact ⟨rfl, rfl⟩

end BrokenStore

end Engine

end Optima
