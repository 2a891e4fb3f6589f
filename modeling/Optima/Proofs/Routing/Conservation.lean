import Mathlib.Data.List.Perm.Basic
import Optima.Proofs.Lists
import Optima.Proofs.Routing.Joining

namespace Optima

/-!
# No stop is lost while a plan is constructed

Stops are counted.  A plan that gives a vehicle another route loses the stops of
its old route and gains those of the new one, and every step of the construction
is of this kind.  So the stops that are served and those that are left over are
together what they were at the start.
-/

namespace Plan

/-- Another route for a vehicle exchanges its old stops for the new ones. -/
theorem count_served_set
    {plan : Plan}
    {vehicle : Nat}
    {old : List Nat}
    (current : plan[vehicle]? = some old)
    (new : List Nat)
    (node : Nat) :
    (served (plan.set vehicle new)).count node + old.count node =
      plan.served.count node + new.count node := by
  induction plan generalizing vehicle with
  | nil =>
      simp at current
  | cons route rest inductionHypothesis =>
      cases vehicle with
      | zero =>
          simp only [List.length_cons, Nat.zero_lt_succ, getElem?_pos,
            List.getElem_cons_zero, Option.some.injEq] at current
          subst old
          simp only [served, List.set_cons_zero, List.flatten_cons,
            List.count_append]
          omega
      | succ position =>
          simp only [List.getElem?_cons_succ] at current
          have restCount := inductionHypothesis current
          simp only [served] at restCount
          simp only [served, List.set_cons_succ, List.flatten_cons,
            List.count_append]
          omega

/-- A route that takes further stops adds them to those served. -/
theorem served_set_perm
    {plan : Plan}
    {vehicle : Nat}
    {old new : List Nat}
    (extra : List Nat)
    (current : plan[vehicle]? = some old)
    (grown : new.Perm (extra ++ old)) :
    (served (plan.set vehicle new)).Perm (extra ++ plan.served) := by
  rw [List.perm_iff_count]
  intro node
  have exchanged := count_served_set current new node
  have newCount := List.perm_iff_count.mp grown node
  rw [List.count_append] at newCount ⊢
  omega

/-- A plan in which nobody drives serves nothing. -/
theorem served_idle
    (count : Nat) :
    served (idle count) = [] := by
  simp [served, idle]

end Plan

namespace Network

variable {α : Type}

/-- A route with one more stop has the stops of the route and this one. -/
theorem perm_of_mem_withStop
    {node : Nat}
    {route extended : List Nat}
    (member : extended ∈ withStop node route) :
    extended.Perm (node :: route) := by
  obtain ⟨position, -, rfl⟩ := List.mem_map.mp member
  calc
    (route.take position ++ node :: route.drop position).Perm
        (node :: (route.take position ++ route.drop position)) :=
      List.perm_middle
    _ = node :: route := by
      rw [List.take_append_drop]

variable [Scalar α] (network : Network α) (vehicles : List (Vehicle α))

/-- The routes of the savings have the stops that they were made of. -/
theorem savingsRoutes_flatten_perm
    {nodes : List Nat}
    (distinct : nodes.Nodup) :
    (network.savingsRoutes vehicles nodes).flatten.Perm nodes :=
  ((Joining.IsPartition.start distinct).foldl_join network vehicles
    (network.savings nodes)).stops_perm

/-- The vehicle that a route is given to stands at the depot and can drive it. -/
theorem of_cheapestVehicle?_eq_some
    {plan : Plan}
    {route : List Nat}
    {position : Nat}
    (found : network.cheapestVehicle? vehicles plan route = some position) :
    ∃ vehicle,
      vehicles[position]? = some vehicle ∧
        plan[position]? = some [] ∧
        network.isDrivable vehicle route = true := by
  unfold cheapestVehicle? at found
  dsimp only at found
  split at found
  · simp at found
  · rename_i first rest offersShape
    simp only [Option.some.injEq] at found
    subst position
    have isOffer :=
      foldl_choice_mem
        (fun best offer : α × Nat => if offer.1 < best.1 then offer else best)
        (by
          intro best offer
          split <;> simp)
        rest first
    rw [← offersShape] at isOffer
    obtain ⟨⟨⟨vehicle, current⟩, position⟩, entry, offered⟩ :=
      List.mem_filterMap.mp isOffer
    have atPosition := List.mem_zipIdx_iff_getElem?.mp entry
    obtain ⟨vehicleThere, routeThere⟩ := List.getElem?_zip_eq_some.mp atPosition
    dsimp only at offered vehicleThere routeThere
    split at offered
    · simp at offered
    · rename_i isIdle
      cases evaluated : network.evaluate vehicle route with
      | error obstacle =>
          simp [evaluated, Except.toOption] at offered
      | ok drive =>
          simp only [evaluated, Except.toOption, Option.map_some,
            Option.some.injEq] at offered
          refine ⟨vehicle, ?_, ?_, ?_⟩
          · rw [← offered]
            exact vehicleThere
          · rw [← offered, routeThere]
            simpa using isIdle
          · simp [isDrivable, evaluated, Except.isOk, Except.toBool]

/-- Giving routes to vehicles keeps all stops: they are served or left over. -/
theorem assignInto_perm
    (plan : Plan)
    (routes : List (List Nat)) :
    ((network.assignInto vehicles plan routes).1.served ++
        (network.assignInto vehicles plan routes).2).Perm
      (plan.served ++ routes.flatten) := by
  induction routes generalizing plan with
  | nil =>
      simp [assignInto]
  | cons route rest inductionHypothesis =>
      unfold assignInto
      cases found : network.cheapestVehicle? vehicles plan route with
      | some position =>
          obtain ⟨-, -, isIdle, -⟩ :=
            network.of_cheapestVehicle?_eq_some vehicles found
          have given : (Plan.served (plan.set position route)).Perm
              (route ++ plan.served) :=
            Plan.served_set_perm route isIdle (by simp)
          refine (inductionHypothesis (plan.set position route)).trans ?_
          rw [List.flatten_cons, ← List.append_assoc]
          exact (given.trans List.perm_append_comm).append_right rest.flatten
      | none =>
          dsimp only
          rw [List.flatten_cons]
          refine List.perm_append_comm_assoc _ _ _ |>.trans ?_
          refine ((inductionHypothesis plan).append_left route).trans ?_
          exact List.perm_append_comm_assoc _ _ _

/-- What a place for a stop is: a vehicle, its route with the stop, and that it can drive it. -/
theorem of_mem_insertions
    {plan : Plan}
    {node : Nat}
    {insertion : Insertion α}
    (member : insertion ∈ network.insertions vehicles plan node) :
    ∃ vehicle route,
      vehicles[insertion.vehicle]? = some vehicle ∧
        plan[insertion.vehicle]? = some route ∧
        insertion.route.Perm (node :: route) ∧
        network.isDrivable vehicle insertion.route = true := by
  obtain ⟨⟨⟨vehicle, route⟩, position⟩, entry, offered⟩ :=
    List.mem_flatMap.mp member
  have atPosition := List.mem_zipIdx_iff_getElem?.mp entry
  obtain ⟨vehicleThere, routeThere⟩ := List.getElem?_zip_eq_some.mp atPosition
  obtain ⟨candidate, isCandidate, evaluation⟩ := List.mem_filterMap.mp offered
  cases evaluated : network.evaluate vehicle candidate with
  | error obstacle =>
      simp [evaluated, Except.toOption] at evaluation
  | ok drive =>
      simp only [evaluated, Except.toOption, Option.map_some,
        Option.some.injEq] at evaluation
      subst insertion
      refine ⟨vehicle, route, vehicleThere, routeThere,
        perm_of_mem_withStop isCandidate, ?_⟩
      simp [isDrivable, evaluated, Except.isOk, Except.toBool]

/-- An inserted stop stands in the route of a vehicle that can drive it. -/
theorem of_insert?_eq_some
    {plan extended : Plan}
    {node : Nat}
    (inserted : network.insert? vehicles plan node = some extended) :
    ∃ insertion ∈ network.insertions vehicles plan node,
      extended = plan.set insertion.vehicle insertion.route := by
  unfold insert? at inserted
  split at inserted
  · simp at inserted
  · rename_i first rest shape
    simp only [Option.some.injEq] at inserted
    refine ⟨_, ?_, inserted.symm⟩
    rw [shape]
    exact
      foldl_choice_mem
        (fun best candidate : Insertion α =>
          if candidate.isCheaper best then candidate else best)
        (by
          intro best candidate
          split <;> simp)
        rest first

/-- Inserting stops keeps all of them: they are served or left over. -/
theorem insertAll_perm
    (plan : Plan)
    (nodes : List Nat) :
    ((network.insertAll vehicles plan nodes).1.served ++
        (network.insertAll vehicles plan nodes).2).Perm
      (plan.served ++ nodes) := by
  induction nodes generalizing plan with
  | nil =>
      simp [insertAll]
  | cons node rest inductionHypothesis =>
      unfold insertAll
      cases inserted : network.insert? vehicles plan node with
      | some extended =>
          obtain ⟨insertion, member, rfl⟩ :=
            network.of_insert?_eq_some vehicles inserted
          obtain ⟨-, route, -, routeThere, grown, -⟩ :=
            network.of_mem_insertions vehicles member
          have given :=
            Plan.served_set_perm [node] routeThere grown
          refine (inductionHypothesis _).trans ?_
          exact (given.append_right rest).trans List.perm_middle.symm
      | none =>
          dsimp only
          exact
            (List.perm_middle.trans
              ((inductionHypothesis plan).cons node)).trans
                List.perm_middle.symm

/-- A constructed plan serves every customer once or leaves it unserved once. -/
theorem construct_perm :
    ((network.construct vehicles).1.served ++
        (network.construct vehicles).2).Perm
      network.customers := by
  have customersDistinct : network.customers.Nodup :=
    (List.drop_sublist 1 _).nodup List.nodup_range
  unfold construct
  simp only [List.partition_eq_filter_filter]
  set servable :=
    network.customers.filter fun node => network.isServable vehicles [node]
  set unservable := network.customers.filter
    (not ∘ fun node => network.isServable vehicles [node])
  set routes := network.savingsRoutes vehicles servable
  set leftovers := (network.assign vehicles routes).2
  have routesKept : routes.flatten.Perm servable :=
    network.savingsRoutes_flatten_perm vehicles
      (customersDistinct.filter _)
  have assigned :
      ((network.assign vehicles routes).1.served ++ leftovers).Perm servable := by
    refine (network.assignInto_perm vehicles _ _).trans ?_
    rw [Plan.served_idle, List.nil_append]
    exact (List.mergeSort_perm routes _).flatten.trans routesKept
  have inserted :=
    network.insertAll_perm vehicles (network.assign vehicles routes).1
      (leftovers.mergeSort network.heavierStop)
  have sorted :=
    (List.mergeSort_perm leftovers network.heavierStop).append_left
      (network.assign vehicles routes).1.served
  refine (List.perm_append_comm_assoc _ _ _).trans ?_
  refine (((inserted.trans sorted).trans assigned).append_left
    unservable).trans ?_
  exact List.perm_append_comm.trans (List.filter_append_perm _ _)

end Network

end Optima
