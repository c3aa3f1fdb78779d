import Mathlib

namespace RcControl.Data

/-! Linked lists with a pointer to their last link.

A node has a link to the next one, and a list has one to its first.  Appending goes
through `last`, which points at the link to write next: the one of the last node, or the
list's own when there is none. -/

variable {Node : Type*}

/-- Following the links from `start` visits the nodes, and then `finish` comes. -/
def Segment (next : Node → Option Node) : Option Node → List Node → Option Node → Prop
  | start, [], finish => start = finish
  | start, node :: nodes, finish => start = some node ∧ Segment next (next node) nodes finish

/-- Follows at most so many links. -/
def walk (next : Node → Option Node) : Nat → Option Node → List Node
  | 0, _ => []
  | _ + 1, none => []
  | count + 1, some node => node :: walk next count (next node)

/-- What a pointer to a link can point at. -/
inductive Link (Node : Type*) where
  | first
  | next (node : Node)
deriving DecidableEq, Repr

structure LinkedList (Node : Type*) where
  first : Option Node
  last : Link Node
  next : Node → Option Node

section Segments

variable {next : Node → Option Node} {start finish : Option Node} {nodes : List Node} {node : Node}

theorem segment_concat : Segment next start (nodes ++ [node]) finish ↔
    Segment next start nodes (some node) ∧ next node = finish := by
  induction nodes generalizing start with
  | nil => exact Iff.rfl
  | cons first nodes ih =>
      simp only [List.cons_append, Segment, ih, and_assoc]

variable [DecidableEq Node]

/-- A link of a node outside does not matter. -/
theorem segment_update (outside : node ∉ nodes) (value : Option Node) :
    Segment (Function.update next node value) start nodes finish ↔ Segment next start nodes finish := by
  induction nodes generalizing start with
  | nil => exact Iff.rfl
  | cons first nodes ih =>
      obtain ⟨different, rest⟩ := not_or.mp (List.mem_cons.not.mp outside)
      simp only [Segment, Function.update_of_ne (Ne.symm different), ih rest]

omit [DecidableEq Node] in
/-- A list that ends is visited to its end. -/
theorem walk_segment (segment : Segment next start nodes none) (extra : Nat) :
    walk next (nodes.length + extra) start = nodes := by
  induction nodes generalizing start with
  | nil =>
      obtain rfl : start = none := segment
      cases extra <;> simp [walk]
  | cons node nodes ih =>
      obtain ⟨rfl, rest⟩ := segment
      rw [List.length_cons, Nat.add_right_comm, walk, ih rest]

omit [DecidableEq Node] in
theorem length_walk_le (next : Node → Option Node) (count : Nat) (start : Option Node) :
    (walk next count start).length ≤ count := by
  induction count generalizing start with
  | zero => simp [walk]
  | succ count ih =>
      cases start with
      | none => simp [walk]
      | some node => simpa [walk] using ih (next node)

end Segments

namespace LinkedList

def empty : LinkedList Node := ⟨none, .first, fun _ => none⟩

/-- The link to write next. -/
def lastOf (nodes : List Node) : Link Node :=
  match nodes.getLast? with
  | none => .first
  | some node => .next node

theorem lastOf_concat {nodes : List Node} {node : Node} : lastOf (nodes ++ [node]) = .next node := by
  rw [lastOf, List.getLast?_concat]

structure Holds (list : LinkedList Node) (nodes : List Node) : Prop where
  linked : Segment list.next list.first nodes none
  last : list.last = lastOf nodes

theorem empty_holds : (empty : LinkedList Node).Holds [] := ⟨rfl, rfl⟩

theorem Holds.first_cons {list : LinkedList Node} {nodes : List Node} {node : Node}
    (holds : list.Holds (node :: nodes)) : list.first = some node := holds.linked.1

variable [DecidableEq Node]

/-- `*link = value`. -/
def store (list : LinkedList Node) (link : Link Node) (value : Option Node) : LinkedList Node :=
  match link with
  | .first => { list with first := value }
  | .next node => { list with next := Function.update list.next node value }

@[simp] theorem store_last (list : LinkedList Node) (link : Link Node) (value : Option Node) :
    (list.store link value).last = list.last := by
  cases link <;> rfl

variable {list : LinkedList Node} {nodes : List Node} {node : Node}

theorem lastOf_cons :
    lastOf (node :: nodes) = if lastOf nodes = .first then .next node else lastOf nodes := by
  cases nodes using List.reverseRecOn with
  | nil => rfl
  | append_singleton front back =>
      rw [← List.cons_append, lastOf_concat, lastOf_concat, if_neg (by simp)]

/-- Writing through `last` makes the list end in the node. -/
theorem Holds.store_last (holds : list.Holds nodes) (nodup : nodes.Nodup) :
    Segment (list.store list.last (some node)).next (list.store list.last (some node)).first nodes
      (some node) := by
  obtain ⟨linked, last⟩ := holds
  rw [last]
  cases nodes using List.reverseRecOn with
  | nil => rfl
  | append_singleton front back =>
      obtain ⟨before, -⟩ := segment_concat.mp linked
      have outside : back ∉ front := (List.nodup_append.mp nodup).2.2 |> fun apart inside =>
        apart back inside back List.mem_cons_self rfl
      rw [lastOf_concat, store]
      refine segment_concat.mpr ⟨?_, Function.update_self ..⟩
      exact (segment_update outside (some node)).mpr before

/-- `*last = node; node->next = 0; last = &node->next`. -/
theorem Holds.append (holds : list.Holds nodes) (fresh : node ∉ nodes) (nodup : nodes.Nodup) :
    ({ (list.store list.last (some node)).store (.next node) none with last := .next node } :
      LinkedList Node).Holds (nodes ++ [node]) where
  linked := by
    refine segment_concat.mpr ⟨?_, Function.update_self ..⟩
    exact (segment_update fresh none).mpr (holds.store_last nodup)
  last := lastOf_concat.symm

/-- `node->next = first; first = node; if (last == &first) last = &node->next`. -/
theorem Holds.prepend (holds : list.Holds nodes) (fresh : node ∉ nodes) :
    ({ (list.store (.next node) list.first).store .first (some node) with
        last := if list.last = .first then .next node else list.last } :
      LinkedList Node).Holds (node :: nodes) where
  linked := by
    refine ⟨rfl, ?_⟩
    change Segment (Function.update list.next node list.first)
      (Function.update list.next node list.first node) nodes none
    rw [Function.update_self]
    exact (segment_update fresh list.first).mpr holds.linked
  last := by rw [lastOf_cons, holds.last]

/-- `first = node->next; if (!first) last = &first`, where `node` was the first. -/
theorem Holds.remove (holds : list.Holds (node :: nodes)) :
    ({ list.store .first (list.next node) with
        last := if list.next node = none then .first else list.last } : LinkedList Node).Holds nodes where
  linked := holds.linked.2
  last := by
    obtain ⟨⟨-, rest⟩, last⟩ := holds
    cases nodes with
    | nil => exact if_pos rest
    | cons second nodes =>
        obtain ⟨found, -⟩ := rest
        have further : lastOf (second :: nodes) ≠ .first := by
          rw [lastOf_cons]
          split <;> simp_all
        change (if list.next node = none then Link.first else list.last) = lastOf (second :: nodes)
        rw [found, if_neg (by simp), last, lastOf_cons, if_neg further]

end LinkedList

end RcControl.Data
