import Mathlib
import Optima.Proofs.Routing.Joining
import Optima.Proofs.Scalar.Solving

namespace Optima

/-!
# Savings are what joined routes are shorter by

A link of a route is a stop with the one after it.  Two routes are joined by one link, from the
last stop of the first to the first stop of the second, and this is the link that the saving is
of.  So the savings at which routes are joined are those of the links of the routes that are left.
A route that is driven out and back to every stop is longer by the savings of all its links.
-/

variable {α : Type}

namespace Network

/-- The stops of a route with the ones after them. -/
def links (route : List Nat) : List (Nat × Nat) :=
  route.zip route.tail

/-- Joining two routes adds the link between them. -/
theorem links_append
    {head tail : List Nat}
    {source destination : Nat}
    (isLast : head.getLast? = some source)
    (isFirst : tail.head? = some destination) :
    links (head ++ tail) = links head ++ (source, destination) :: links tail := by
  obtain ⟨after, rfl⟩ := List.head?_eq_some_iff.mp isFirst
  induction head with
  | nil => simp at isLast
  | cons stop rest inductionHypothesis =>
      cases rest with
      | nil =>
          obtain rfl : stop = source := by simpa using isLast
          rfl
      | cons next rest =>
          rw [List.getLast?_cons_cons] at isLast
          exact congrArg ((stop, next) :: ·) (inductionHypothesis isLast)

/-- Every route has one link less than it has stops. -/
theorem length_add_length_links
    {routes : List (List Nat)}
    (nonempty : ∀ route ∈ routes, route ≠ []) :
    routes.length + (routes.flatMap links).length = routes.flatten.length := by
  induction routes with
  | nil => rfl
  | cons route rest inductionHypothesis =>
      obtain ⟨routeNonempty, restNonempty⟩ := List.forall_mem_cons.mp nonempty
      have isPositive := List.length_pos_of_ne_nil routeNonempty
      rw [List.flatMap_cons, List.flatten_cons, List.length_append, List.length_append,
        ← inductionHypothesis restNonempty, List.length_cons, links, List.length_zip,
        List.length_tail]
      omega

section Tours

variable [Scalar α] (network : Network α)

/-- The distance from one node to another is a finite number. -/
def HasFiniteDistances : Prop :=
  ∀ source destination, Scalar.isFinite (network.distance source destination) = true

/-- Distances are finite where those that are given are. -/
theorem hasFiniteDistances_of_areFinite
    [ArithmeticScalar α]
    (areFinite : ∀ row ∈ network.distances, Scalar.AreFinite row) :
    network.HasFiniteDistances := by
  intro source destination
  unfold distance entry
  rw [List.getD_eq_getElem?_getD, List.getD_eq_getElem?_getD]
  cases isRow : network.distances[source]? with
  | none => exact Scalar.isFinite_zero
  | some row =>
      rw [Option.getD_some]
      cases isEntry : row[destination]? with
      | none => exact Scalar.isFinite_zero
      | some distance =>
          exact areFinite row (List.mem_of_getElem? isRow) distance (List.mem_of_getElem? isEntry)

variable [SolvingScalar α] {network : Network α} (finite : network.HasFiniteDistances)

include finite

theorem fraction_saving
    (source destination : Nat) :
    Scalar.isFinite (network.saving source destination).amount = true ∧
      Scalar.fraction (network.saving source destination).amount =
        Scalar.fraction (network.distance source 0) +
            Scalar.fraction (network.distance 0 destination) -
          Scalar.fraction (network.distance source destination) := by
  obtain ⟨isFiniteSum, isSum⟩ := Scalar.fraction_add (finite source 0) (finite 0 destination)
  obtain ⟨isFinite, isAmount⟩ := Scalar.fraction_sub isFiniteSum (finite source destination)
  exact ⟨isFinite, by rw [saving, isAmount, isSum]⟩

theorem fraction_tourDistance
    (route : List Nat) :
    Scalar.isFinite (network.tourDistance route) = true ∧
      Scalar.fraction (network.tourDistance route) =
        (List.zipWith (fun source destination =>
          Scalar.fraction (network.distance source destination)) (0 :: route)
            (route ++ [0])).sum := by
  have areFinite :
      Scalar.AreFinite (List.zipWith network.distance (0 :: route) (route ++ [0])) := by
    intro distance member
    rw [← List.map_uncurry_zip_eq_zipWith] at member
    obtain ⟨⟨source, destination⟩, -, rfl⟩ := List.mem_map.mp member
    exact finite source destination
  obtain ⟨isFinite, isTotal⟩ := Scalar.fraction_total areFinite
  refine ⟨isFinite, ?_⟩
  rw [tourDistance, isTotal, List.map_zipWith]

/-- The tour along a route is shorter than those out and back to its stops by the savings of its
links. -/
theorem fraction_tourDistance_eq_sub
    {route : List Nat}
    (nonempty : route ≠ []) :
    Scalar.fraction (network.tourDistance route) =
      (route.map fun stop => Scalar.fraction (network.tourDistance [stop])).sum -
        ((links route).map fun link =>
          Scalar.fraction (network.saving link.1 link.2).amount).sum := by
  have isRoundTrip (stop : Nat) :
      Scalar.fraction (network.tourDistance [stop]) =
        Scalar.fraction (network.distance 0 stop) + Scalar.fraction (network.distance stop 0) := by
    simp [(fraction_tourDistance finite [stop]).2]
  simp only [isRoundTrip, (fraction_saving finite _ _).2]
  rw [(fraction_tourDistance finite route).2]
  induction route with
  | nil => exact absurd rfl nonempty
  | cons stop rest inductionHypothesis =>
      cases rest with
      | nil => simp [links]
      | cons next rest =>
          have isShorter := inductionHypothesis (List.cons_ne_nil next rest)
          simp only [links, List.tail_cons, List.cons_append, List.zipWith_cons_cons,
            List.zip_cons_cons, List.map_cons, List.sum_cons] at isShorter ⊢
          linarith

/-- What is true of one route is true of several: their tours are shorter by the savings of all
their links. -/
theorem fraction_total_tourDistance_eq_sub
    {routes : List (List Nat)}
    (nonempty : ∀ route ∈ routes, route ≠ []) :
    Scalar.isFinite (Scalar.total (routes.map network.tourDistance)) = true ∧
      Scalar.fraction (Scalar.total (routes.map network.tourDistance)) =
        (routes.flatten.map fun stop => Scalar.fraction (network.tourDistance [stop])).sum -
          ((routes.flatMap links).map fun link =>
            Scalar.fraction (network.saving link.1 link.2).amount).sum := by
  have areFinite : Scalar.AreFinite (routes.map network.tourDistance) := by
    intro distance member
    obtain ⟨route, -, rfl⟩ := List.mem_map.mp member
    exact (fraction_tourDistance finite route).1
  obtain ⟨isFinite, isTotal⟩ := Scalar.fraction_total areFinite
  refine ⟨isFinite, isTotal.trans ?_⟩
  clear areFinite isFinite isTotal
  induction routes with
  | nil => simp
  | cons route rest inductionHypothesis =>
      obtain ⟨routeNonempty, restNonempty⟩ := List.forall_mem_cons.mp nonempty
      rw [List.map_cons, List.map_cons, List.sum_cons, inductionHypothesis restNonempty,
        fraction_tourDistance_eq_sub finite routeNonempty]
      simp only [List.flatten_cons, List.flatMap_cons, List.map_append, List.sum_append]
      ring

/-- Where the links of routes are those of merges, the tours along the routes are shorter by the
savings of the merges. -/
theorem total_tourDistance_eq_sub
    {nodes : List Nat}
    {routes : List (List Nat)}
    {merges : List (Saving α)}
    (nonempty : ∀ route ∈ routes, route ≠ [])
    (stopsPerm : routes.flatten.Perm nodes)
    (linksPerm :
      (merges.map fun merge => (merge.source, merge.destination)).Perm (routes.flatMap links))
    (areSavings :
      ∀ merge ∈ merges, merge = network.saving merge.source merge.destination) :
    Scalar.total (routes.map network.tourDistance) =
      Scalar.total (nodes.map fun node => network.tourDistance [node]) -
        Scalar.total (merges.map (·.amount)) := by
  have amount_eq (merge : Saving α) (member : merge ∈ merges) :
      merge.amount = (network.saving merge.source merge.destination).amount :=
    congrArg Saving.amount (areSavings merge member)
  obtain ⟨isFinite, isTotal⟩ := fraction_total_tourDistance_eq_sub finite nonempty
  have areFinite : Scalar.AreFinite (nodes.map fun node => network.tourDistance [node]) :=
    List.forall_mem_map.mpr fun node _ => (fraction_tourDistance finite [node]).1
  have areFiniteToo : Scalar.AreFinite (merges.map (·.amount)) :=
    List.forall_mem_map.mpr fun merge member =>
      amount_eq merge member ▸ (fraction_saving finite _ _).1
  obtain ⟨isFiniteAlone, isAlone⟩ := Scalar.fraction_total areFinite
  obtain ⟨isFiniteSaved, isSaved⟩ := Scalar.fraction_total areFiniteToo
  obtain ⟨isFiniteRest, isRest⟩ := Scalar.fraction_sub isFiniteAlone isFiniteSaved
  apply Scalar.eq_of_fraction_eq isFinite isFiniteRest
  rw [isTotal, isRest, isAlone, isSaved, List.map_map, List.map_map]
  congr 1
  · exact (stopsPerm.map _).sum_eq
  · rw [← (linksPerm.map _).sum_eq, List.map_map]
    congr 1
    apply List.map_congr_left
    intro merge member
    exact congrArg Scalar.fraction (amount_eq merge member).symm

end Tours

section Books

variable [Scalar α] (network : Network α) (vehicles : List (Vehicle α))

/-- Of savings that are looked at one after the other, those at which routes are joined. -/
def merges : Joining → List (Saving α) → List (Saving α)
  | _, [] => []
  | joining, saving :: rest =>
    match network.joined? vehicles joining saving with
    | none => merges joining rest
    | some joined => saving :: merges joined rest

theorem merges_sublist
    (joining : Joining)
    (savings : List (Saving α)) :
    (network.merges vehicles joining savings).Sublist savings := by
  induction savings generalizing joining with
  | nil => exact List.Sublist.refl _
  | cons saving rest inductionHypothesis =>
      unfold merges
      split
      · exact (inductionHypothesis joining).cons saving
      · exact (inductionHypothesis _).cons_cons saving

/-- Routes that are being joined, with the savings at which they have been joined: some vehicle can
drive each of the routes, and the links of the routes are those of the savings. -/
structure Balances (nodes : List Nat) (made : List (Saving α)) (joining : Joining) : Prop where
  isPartition : joining.IsPartition nodes
  isServable : ∀ entry ∈ joining.routes, network.isServable vehicles entry.2 = true
  links_perm :
    (made.map fun merge => (merge.source, merge.destination)).Perm
      (joining.routes.flatMap fun entry => links entry.2)

variable {network vehicles} {nodes : List Nat}

namespace Balances

/-- At the start nothing is joined, and there are no links. -/
theorem start
    (distinct : nodes.Nodup)
    (servedAlone : ∀ node ∈ nodes, network.isServable vehicles [node] = true) :
    network.Balances vehicles nodes [] (.start nodes) where
  isPartition := .start distinct
  isServable entry member := by
    obtain ⟨node, isNode, rfl⟩ := List.mem_map.mp member
    exact servedAlone node isNode
  links_perm := by
    simp [Joining.start, links, List.flatMap_map]

/-- A merge enters its link, and leaves a route that some vehicle can drive. -/
theorem merge
    {made : List (Saving α)}
    {joining joined : Joining}
    {saving : Saving α}
    (balances : network.Balances vehicles nodes made joining)
    (isJoined : network.joined? vehicles joining saving = some joined) :
    network.Balances vehicles nodes (made ++ [saving]) joined := by
  unfold joined? at isJoined
  split at isJoined
  · cases isJoined
  · rename_i joint found
    split at isJoined
    · rename_i isServable
      obtain rfl := Option.some.inj isJoined
      have meets := Joining.meets_of_joint?_eq_some found
      obtain ⟨others, before, after⟩ :=
        meets.exists_others balances.isPartition.numbers_nodup
      refine ⟨balances.isPartition.append meets, ?_, ?_⟩
      · intro entry member
        rcases List.mem_cons.mp (after.mem_iff.mp member) with rfl | isOther
        · exact isServable
        · exact balances.isServable entry (before.mem_iff.mpr
            (List.mem_cons_of_mem _ (List.mem_cons_of_mem _ isOther)))
      · have linksBefore := balances.links_perm.trans (before.flatMap_right _)
        refine List.Perm.trans ?_ (after.flatMap_right _).symm
        rw [List.map_append, List.map_singleton, List.flatMap_cons,
          links_append meets.getLast?_head meets.head?_tail]
        refine (linksBefore.append_right _).trans ?_
        simp only [List.flatMap_cons, List.append_assoc, List.cons_append]
        rw [← List.append_assoc (links joint.tail)]
        exact (List.perm_append_singleton _ _).append_left _
    · cases isJoined

/-- The savings of a run are entered one after the other. -/
theorem foldl_join
    {made : List (Saving α)}
    {joining : Joining}
    (balances : network.Balances vehicles nodes made joining)
    (savings : List (Saving α)) :
    network.Balances vehicles nodes (made ++ network.merges vehicles joining savings)
      (savings.foldl (network.join vehicles) joining) := by
  induction savings generalizing made joining with
  | nil => simpa [merges] using balances
  | cons saving rest inductionHypothesis =>
      rw [List.foldl_cons, join, merges]
      cases isJoined : network.joined? vehicles joining saving with
      | none => exact inductionHypothesis balances
      | some joined =>
          have followed := inductionHypothesis (balances.merge isJoined)
          rwa [List.append_assoc] at followed

end Balances

end Books

section Savings

variable [Scalar α] (network : Network α) (vehicles : List (Vehicle α)) (nodes : List Nat)

/-- The savings at which the routes of several nodes are joined. -/
def mergesMade : List (Saving α) :=
  network.merges vehicles (.start nodes) (network.savings nodes)

/-- Every saving that is looked at is that of two different nodes, and worth it. -/
theorem of_mem_savings
    [OrderedScalar α]
    {network : Network α}
    {nodes : List Nat}
    {saving : Saving α}
    (member : saving ∈ network.savings nodes) :
    Scalar.slack < saving.amount ∧
      ∃ source ∈ nodes, ∃ destination ∈ nodes,
        source ≠ destination ∧ saving = network.saving source destination := by
  have isWorth := List.all_eq_true.mp List.all_takeWhile saving member
  have inAll := (List.mergeSort_perm _ _).mem_iff.mp ((List.takeWhile_sublist _).subset member)
  obtain ⟨source, isSource, inRow⟩ := List.mem_flatMap.mp inAll
  obtain ⟨destination, isDestination, rfl⟩ := List.mem_map.mp inRow
  obtain ⟨isNode, isOther⟩ := List.mem_filter.mp isDestination
  refine ⟨?_, source, isSource, destination, isNode, ?_, rfl⟩
  · rw [OrderedScalar.lt_iff_not_le]
    simpa using isWorth
  · exact fun same => (bne_iff_ne.mp isOther) same.symm

/-- Routes keep to the books of merges: every node is on one of them, some vehicle can drive each
of them, every merge saves more than the slack, the routes are linked where the merges are, and
their tours are shorter by the savings than those out and back to the nodes. -/
structure KeepsBooks (routes : List (List Nat)) (merges : List (Saving α)) : Prop where
  stops_perm : routes.flatten.Perm nodes
  route_ne_nil : ∀ route ∈ routes, route ≠ []
  isServable : ∀ route ∈ routes, network.isServable vehicles route = true
  isSaving :
    ∀ merge ∈ merges,
      ∃ source ∈ nodes, ∃ destination ∈ nodes,
        source ≠ destination ∧ merge = network.saving source destination
  slack_lt : ∀ merge ∈ merges, Scalar.slack < merge.amount
  links_perm :
    (merges.map fun merge => (merge.source, merge.destination)).Perm (routes.flatMap links)
  length_add : routes.length + merges.length = nodes.length
  distance_eq :
    (∀ row ∈ network.distances, Scalar.AreFinite row) →
      Scalar.total (routes.map network.tourDistance) =
        Scalar.total (nodes.map fun node => network.tourDistance [node]) -
          Scalar.total (merges.map (·.amount))

variable {nodes}

/-- The routes of the savings keep to the books of the merges that are made, where every node can
be served alone. -/
theorem savingsRoutes_keeps_books
    [SolvingScalar α]
    (distinct : nodes.Nodup)
    (servedAlone : ∀ node ∈ nodes, network.isServable vehicles [node] = true) :
    network.KeepsBooks vehicles nodes (network.savingsRoutes vehicles nodes)
      (network.mergesMade vehicles nodes) := by
  have balances := (Balances.start distinct servedAlone).foldl_join (network.savings nodes)
  rw [List.nil_append] at balances
  set joining := (network.savings nodes).foldl (network.join vehicles) (.start nodes)
  have areRoutes : network.savingsRoutes vehicles nodes = joining.routes.map (·.2) := rfl
  have nonempty : ∀ route ∈ network.savingsRoutes vehicles nodes, route ≠ [] := by
    rw [areRoutes]
    exact List.forall_mem_map.mpr balances.isPartition.route_ne_nil
  have areSavings (merge : Saving α) (member : merge ∈ network.mergesMade vehicles nodes) :=
    of_mem_savings ((network.merges_sublist vehicles _ _).subset member)
  have stopsPerm := balances.isPartition.stops_perm
  have linksPerm :
      ((network.mergesMade vehicles nodes).map fun merge =>
        (merge.source, merge.destination)).Perm
          ((network.savingsRoutes vehicles nodes).flatMap links) := by
    rw [areRoutes, List.flatMap_map]
    exact balances.links_perm
  refine ⟨stopsPerm, nonempty, ?_, fun merge member => (areSavings merge member).2,
    fun merge member => (areSavings merge member).1, linksPerm, ?_, fun areFinite => ?_⟩
  · rw [areRoutes]
    exact List.forall_mem_map.mpr balances.isServable
  · have sameLength := linksPerm.length_eq
    rw [List.length_map] at sameLength
    rw [sameLength, length_add_length_links nonempty]
    exact stopsPerm.length_eq
  · refine total_tourDistance_eq_sub (hasFiniteDistances_of_areFinite network areFinite) nonempty
      stopsPerm linksPerm fun merge member => ?_
    obtain ⟨-, source, -, destination, -, -, rfl⟩ := areSavings merge member
    rfl

end Savings

/-- Three places, to which it is not as far as back from them, and that ask for one unit each. -/
def threePlaces : Network Extended where
  distances :=
    [[0, .finite 4, .finite 5, .finite 6], [.finite 4, 0, 1, .finite 9],
      [.finite 7, .finite 8, 0, .finite 2], [.finite 6, .finite 9, .finite 3, 0]]
  times := [[0, 1, 1, 1], [1, 0, 1, 1], [1, 1, 0, 1], [1, 1, 1, 0]]
  stops :=
    .ofDepot ⟨"depot", "", none, [], 0⟩ ::
      ["first", "second", "third"].map fun place => ⟨⟨place, "", none, [], 0⟩, 1, [], []⟩

/-- A van for two units. -/
def smallVan : Vehicle Extended :=
  ⟨"van", .finite 2, none, none, none, ⟨0, 1, 0, 0⟩, [], []⟩

/-- Of the three places two are joined, and what they save is missing in the distance. -/
theorem threePlaces_keep_books :
    threePlaces.savingsRoutes [smallVan] [1, 2, 3] = [[1], [2, 3]] ∧
      threePlaces.mergesMade [smallVan] [1, 2, 3] = [⟨.finite 11, 2, 3⟩] ∧
        threePlaces.KeepsBooks [smallVan] [1, 2, 3]
          (threePlaces.savingsRoutes [smallVan] [1, 2, 3])
          (threePlaces.mergesMade [smallVan] [1, 2, 3]) := by
  have servedAlone : ∀ node ∈ [1, 2, 3], threePlaces.isServable [smallVan] [node] = true := by
    simp only [List.forall_mem_cons]
    exact ⟨by cbv, by cbv, by cbv, by simp⟩
  exact ⟨by cbv, by cbv,
    threePlaces.savingsRoutes_keeps_books [smallVan] (by decide) servedAlone⟩

end Network

end Optima
