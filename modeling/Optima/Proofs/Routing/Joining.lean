import Mathlib.Data.List.Flatten
import Mathlib.Data.List.Nodup
import Optima.Proofs.Table
import Optima.Routing.Construction

namespace Optima

/-!
# Joining routes keeps every node on one route

Routes are found by way of the nodes that are on them: a node has the number of its route, and
by this number the route is found.  Two routes are joined where one ends and the other starts.
What is kept is that the number of a node is that of the one route that it is on, so the joined
route takes the place of the two.
-/

namespace Joining

variable {α : Type} {nodes : List Nat} {joining : Joining} {saving : Saving α} {joint : Joint}

/-- Every node is on one route, and has its number. -/
structure IsPartition (nodes : List Nat) (joining : Joining) : Prop where
  numbers_nodup : (joining.routes.map (·.1)).Nodup
  stops_perm : (joining.routes.map (·.2)).flatten.Perm nodes
  route_ne_nil : ∀ entry ∈ joining.routes, entry.2 ≠ []
  owner_iff :
    ∀ node number,
      joining.owners.lookup node = some number ↔
        ∃ route, (number, route) ∈ joining.routes ∧ node ∈ route

/-- Two routes of different numbers, of which one ends where a saving starts and the other starts
where it ends. -/
structure Meets (joining : Joining) (saving : Saving α) (joint : Joint) : Prop where
  head_mem : (joint.first, joint.head) ∈ joining.routes
  tail_mem : (joint.second, joint.tail) ∈ joining.routes
  numbers_ne : joint.first ≠ joint.second
  getLast?_head : joint.head.getLast? = some saving.source
  head?_tail : joint.tail.head? = some saving.destination

/-- Routes that are found to be joined meet at the saving. -/
theorem meets_of_joint?_eq_some
    (found : joining.joint? saving = some joint) :
    joining.Meets saving joint := by
  simp only [joint?, Option.bind_eq_bind, Option.bind_eq_some_iff] at found
  obtain ⟨first, -, second, -, found⟩ := found
  split at found
  · cases found
  · rename_i areDifferent
    simp only [Option.bind_eq_some_iff] at found
    obtain ⟨head, isHead, tail, isTail, found⟩ := found
    split at found
    · rename_i meet
      obtain rfl := Option.some.inj found
      rw [Bool.and_eq_true, beq_iff_eq, beq_iff_eq] at meet
      exact ⟨mem_of_lookup_eq_some isHead, mem_of_lookup_eq_some isTail,
        by simpa using areDifferent, meet.1, meet.2⟩
    · cases found

/-- The joined route takes the place of the two that meet; the others stay as they are. -/
theorem Meets.exists_others
    (meets : joining.Meets saving joint)
    (distinct : (joining.routes.map (·.1)).Nodup) :
    ∃ others,
      joining.routes.Perm
          ((joint.first, joint.head) :: (joint.second, joint.tail) :: others) ∧
        (joining.append joint).routes.Perm
          ((joint.first, joint.head ++ joint.tail) :: others) := by
  have secondLeft :
      (joint.second, joint.tail) ∈ joining.routes.erase (joint.first, joint.head) := by
    refine (List.mem_erase_of_ne fun same => ?_).mpr meets.tail_mem
    exact meets.numbers_ne (congrArg Prod.fst same).symm
  set others := (joining.routes.erase (joint.first, joint.head)).erase (joint.second, joint.tail)
  have shape :
      joining.routes.Perm ((joint.first, joint.head) :: (joint.second, joint.tail) :: others) :=
    (List.perm_cons_erase meets.head_mem).trans ((List.perm_cons_erase secondLeft).cons _)
  refine ⟨others, shape, ?_⟩
  have shapeDistinct := (shape.map (·.1)).nodup_iff.mp distinct
  simp only [List.map_cons, List.nodup_cons, List.mem_cons, not_or] at shapeDistinct
  obtain ⟨⟨-, firstOnce⟩, secondOnce, -⟩ := shapeDistinct
  have othersKept :
      (others.map fun entry =>
        if entry.1 == joint.first then (joint.first, joint.head ++ joint.tail) else entry).filter
          (·.1 != joint.second) = others := by
    have unchanged :
        (others.map fun entry =>
          if entry.1 == joint.first then (joint.first, joint.head ++ joint.tail) else entry) =
            others := by
      conv_rhs => rw [← List.map_id others]
      apply List.map_congr_left
      intro entry member
      have isOther : entry.1 ≠ joint.first := fun same =>
        firstOnce (List.mem_map.mpr ⟨entry, member, same⟩)
      simp [isOther]
    rw [unchanged, List.filter_eq_self]
    intro entry member
    have isOther : entry.1 ≠ joint.second := fun same =>
      secondOnce (List.mem_map.mpr ⟨entry, member, same⟩)
    simpa using isOther
  refine ((shape.map _).filter _).trans ?_
  rw [List.map_cons, List.map_cons, if_pos (beq_self_eq_true _),
    if_neg (by simpa using meets.numbers_ne.symm),
    List.filter_cons_of_pos (by simpa using meets.numbers_ne),
    List.filter_cons_of_neg (by simp), othersKept]

namespace IsPartition

/-- At the start every node is a route of its own. -/
theorem start
    (distinct : nodes.Nodup) :
    (start nodes).IsPartition nodes where
  numbers_nodup := by
    rw [Joining.start, List.map_map]
    exact (List.map_id nodes).symm ▸ distinct
  stops_perm := by
    simp [Joining.start, Function.comp_def, ← List.flatMap_def]
  route_ne_nil entry member := by
    obtain ⟨node, -, rfl⟩ := List.mem_map.mp member
    exact List.cons_ne_nil node []
  owner_iff node number := by
    have areNumbers : ((Joining.start nodes).owners.map (·.1)).Nodup := by
      rw [Joining.start, List.map_map]
      exact (List.map_id nodes).symm ▸ distinct
    constructor
    · intro found
      obtain ⟨other, member, same⟩ := List.mem_map.mp (mem_of_lookup_eq_some found)
      obtain ⟨rfl, rfl⟩ := Prod.mk.inj same
      exact ⟨[other], List.mem_map.mpr ⟨other, member, rfl⟩, List.mem_singleton_self other⟩
    · rintro ⟨route, member, onRoute⟩
      obtain ⟨other, isNode, same⟩ := List.mem_map.mp member
      obtain ⟨rfl, rfl⟩ := Prod.mk.inj same
      obtain rfl := List.mem_singleton.mp onRoute
      exact lookup_eq_some_of_mem areNumbers (List.mem_map.mpr ⟨node, isNode, rfl⟩)

variable (isPartition : joining.IsPartition nodes)

include isPartition

/-- Joining two routes that meet keeps every node on one route. -/
theorem append
    (meets : joining.Meets saving joint) :
    (joining.append joint).IsPartition nodes := by
  obtain ⟨others, before, after⟩ := meets.exists_others isPartition.numbers_nodup
  have distinct := (before.map (·.1)).nodup_iff.mp isPartition.numbers_nodup
  have nonempty : ∀ entry ∈ (joint.first, joint.head) :: (joint.second, joint.tail) :: others,
      entry.2 ≠ [] :=
    fun entry member => isPartition.route_ne_nil entry (before.mem_iff.mpr member)
  refine ⟨?_, ?_, ?_, ?_⟩
  · rw [(after.map (·.1)).nodup_iff]
    exact distinct.sublist ((List.sublist_cons_self _ _).cons_cons _)
  · refine (after.map (·.2)).flatten.trans (List.Perm.trans ?_ isPartition.stops_perm)
    have sameStops := (before.map (·.2)).flatten.symm
    simpa only [List.map_cons, List.flatten_cons, List.append_assoc] using sameStops
  · intro entry member
    rcases List.mem_cons.mp (after.mem_iff.mp member) with rfl | isOther
    · exact List.append_ne_nil_of_left_ne_nil (nonempty _ List.mem_cons_self) _
    · exact nonempty entry (List.mem_cons_of_mem _ (List.mem_cons_of_mem _ isOther))
  · intro node number
    have isNumber :
        (joining.append joint).owners.lookup node =
          (joining.owners.lookup node).map fun owner =>
            if joint.tail.contains node then joint.first else owner := by
      rw [← lookup_map_values fun other owner =>
        if joint.tail.contains other then joint.first else owner]
      congr 1
      apply List.map_congr_left
      intro entry _
      split <;> rfl
    have isOwner (owner : Nat) :
        joining.owners.lookup node = some owner ↔
          (owner = joint.first ∧ node ∈ joint.head) ∨ (owner = joint.second ∧ node ∈ joint.tail) ∨
            ∃ route, (owner, route) ∈ others ∧ node ∈ route := by
      simp [isPartition.owner_iff, before.mem_iff, or_and_right, exists_or, and_assoc]
    have isOnRoute :
        (∃ route, (number, route) ∈ (joining.append joint).routes ∧ node ∈ route) ↔
          (number = joint.first ∧ (node ∈ joint.head ∨ node ∈ joint.tail)) ∨
            ∃ route, (number, route) ∈ others ∧ node ∈ route := by
      simp [after.mem_iff, or_and_right, exists_or, and_assoc]
    rw [isNumber, isOnRoute]
    by_cases inTail : node ∈ joint.tail
    · -- The stops of the second route go over to the first one, and are on none of the others.
      have isSecond := (isOwner joint.second).mpr (Or.inr (Or.inl ⟨rfl, inTail⟩))
      have notOther : ¬ ∃ route, (number, route) ∈ others ∧ node ∈ route := by
        rintro ⟨route, isEntry, onRoute⟩
        have isNumberToo := (isOwner number).mpr (Or.inr (Or.inr ⟨route, isEntry, onRoute⟩))
        obtain rfl := Option.some.inj (isSecond.symm.trans isNumberToo)
        exact (List.nodup_cons.mp (List.nodup_cons.mp distinct).2).1
          (List.mem_map.mpr ⟨_, isEntry, rfl⟩)
      simp [isSecond, inTail, notOther, eq_comm]
    · simp [inTail, isOwner]

/-- Looking at a saving keeps every node on one route. -/
theorem join
    [Scalar α]
    (network : Network α)
    (vehicles : List (Vehicle α))
    (saving : Saving α) :
    (network.join vehicles joining saving).IsPartition nodes := by
  unfold Network.join Network.joined?
  cases found : joining.joint? saving with
  | none => exact isPartition
  | some joint =>
      dsimp only
      split
      · exact isPartition.append (meets_of_joint?_eq_some found)
      · exact isPartition

/-- Looking at savings one after the other keeps every node on one route. -/
theorem foldl_join
    [Scalar α]
    (network : Network α)
    (vehicles : List (Vehicle α))
    (savings : List (Saving α)) :
    (savings.foldl (network.join vehicles) joining).IsPartition nodes := by
  induction savings generalizing joining with
  | nil => exact isPartition
  | cons saving rest inductionHypothesis =>
      exact inductionHypothesis (isPartition.join network vehicles saving)

end IsPartition

end Joining

end Optima
