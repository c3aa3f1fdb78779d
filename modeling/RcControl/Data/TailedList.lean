import RcControl.Data.LinkedList

namespace RcControl.Data

/-! Linked lists with a pointer to their last node.

A loop over such a list holds the link that leads to the next node and the node that link
is in: behind the nodes of `front`, these are `LinkedList.lastOf front` and `front.getLast?`. -/

structure TailedList (Node : Type*) where
  head : Option Node
  tail : Option Node
  next : Node → Option Node

variable {Node : Type*}

theorem segment_append {next : Node → Option Node} {start finish : Option Node} {front back : List Node} :
    Segment next start (front ++ back) finish ↔
      ∃ middle, Segment next start front middle ∧ Segment next middle back finish := by
  induction front generalizing start with
  | nil =>
      apply Iff.intro
      · exact fun segment => ⟨start, rfl, segment⟩
      · rintro ⟨middle, rfl, segment⟩
        exact segment
  | cons node front ih =>
      simp only [List.cons_append, Segment, ih, and_assoc, exists_and_left]

namespace TailedList

def empty : TailedList Node := ⟨none, none, fun _ => none⟩

/-- `*link`. -/
def load (list : TailedList Node) : Link Node → Option Node
  | .first => list.head
  | .next node => list.next node

structure Holds (list : TailedList Node) (nodes : List Node) : Prop where
  linked : Segment list.next list.head nodes none
  tail : list.tail = nodes.getLast?

theorem empty_holds : (empty : TailedList Node).Holds [] := ⟨rfl, rfl⟩

variable {list : TailedList Node} {nodes front back : List Node} {node : Node} {middle : Option Node}

theorem load_lastOf (segment : Segment list.next list.head front middle) :
    list.load (LinkedList.lastOf front) = middle := by
  cases front using List.reverseRecOn with
  | nil => exact segment
  | append_singleton front last =>
      rw [LinkedList.lastOf_concat]
      exact (segment_concat.mp segment).2

/-- Behind the nodes in front comes the first one of the rest. -/
theorem Holds.load (holds : list.Holds (front ++ back)) :
    list.load (LinkedList.lastOf front) = back.head? := by
  obtain ⟨middle, before, after⟩ := segment_append.mp holds.linked
  rw [load_lastOf before]
  cases back with
  | nil => exact after
  | cons first back => exact after.1

/-- Such a list is empty at both ends or at neither. -/
theorem Holds.tail_eq_none_iff (holds : list.Holds nodes) : list.tail = none ↔ list.head = none := by
  obtain ⟨linked, tail⟩ := holds
  rw [tail, List.getLast?_eq_none_iff]
  cases nodes with
  | nil => exact iff_of_true rfl linked
  | cons node nodes => exact iff_of_false (by simp) (by rw [linked.1]; simp)

/-- Nothing comes behind the last node. -/
theorem Holds.next_tail (holds : list.Holds nodes) (tail : list.tail = some node) :
    list.next node = none := by
  obtain ⟨linked, last⟩ := holds
  rw [tail] at last
  obtain ⟨front, rfl⟩ := List.getLast?_eq_some_iff.mp last.symm
  exact (segment_concat.mp linked).2

variable [DecidableEq Node]

/-- `*link = value`. -/
def store (list : TailedList Node) (link : Link Node) (value : Option Node) : TailedList Node :=
  match link with
  | .first => { list with head := value }
  | .next node => { list with next := Function.update list.next node value }

/-- Adds the node behind the last one. -/
def append (list : TailedList Node) (node : Node) : TailedList Node :=
  let list := list.store (.next node) none
  match list.head, list.tail with
  | none, _ => { list with head := some node, tail := some node }
  | some _, some last => { list.store (.next last) (some node) with tail := some node }
  | some _, none => list

/-- Removes the node that `link` leads to; `before` is the node that the link is in. -/
def unlink (list : TailedList Node) (before : Option Node) (link : Link Node) (node : Node) :
    TailedList Node :=
  { list.store link (list.next node) with
    tail := if list.next node = none then before else list.tail }

/-- Storing through the link behind the nodes makes them end in the value. -/
theorem segment_store (segment : Segment list.next list.head front middle) (nodup : front.Nodup)
    (value : Option Node) :
    Segment (list.store (LinkedList.lastOf front) value).next
      (list.store (LinkedList.lastOf front) value).head front value := by
  cases front using List.reverseRecOn with
  | nil => rfl
  | append_singleton front last =>
      have outside : last ∉ front := fun inside =>
        (List.nodup_append.mp nodup).2.2 last inside last List.mem_cons_self rfl
      rw [LinkedList.lastOf_concat, store]
      refine segment_concat.mpr ⟨?_, Function.update_self ..⟩
      exact (segment_update outside value).mpr (segment_concat.mp segment).1

/-- The nodes behind a link do not notice what is stored through it. -/
theorem segment_store_behind (segment : Segment list.next middle back none)
    (apart : ∀ node ∈ front, node ∉ back) (value : Option Node) :
    Segment (list.store (LinkedList.lastOf front) value).next middle back none := by
  cases front using List.reverseRecOn with
  | nil => exact segment
  | append_singleton front last =>
      rw [LinkedList.lastOf_concat, store]
      exact (segment_update (apart last (by simp)) value).mpr segment

theorem Holds.append (holds : list.Holds nodes) (fresh : node ∉ nodes) (nodup : nodes.Nodup) :
    (list.append node).Holds (nodes ++ [node]) := by
  have cleared : (list.store (.next node) none).Holds nodes :=
    ⟨(segment_update fresh none).mpr holds.linked, holds.tail⟩
  have alone : (list.store (.next node) none).next node = none := Function.update_self ..
  cases nodes using List.reverseRecOn with
  | nil =>
      have head : (list.store (.next node) none).head = none := cleared.linked
      simp only [TailedList.append, head]
      exact ⟨⟨rfl, alone⟩, rfl⟩
  | append_singleton front last =>
      have tail : (list.store (.next node) none).tail = some last := by
        rw [cleared.tail, List.getLast?_concat]
      have head : (list.store (.next node) none).head ≠ none := by
        have linked := cleared.linked
        intro empty
        rw [empty] at linked
        cases front <;> simp [Segment] at linked
      obtain ⟨first, found⟩ := Option.ne_none_iff_exists'.mp head
      simp only [TailedList.append, found, tail]
      refine ⟨segment_concat.mpr ⟨?_, ?_⟩, by rw [List.getLast?_concat]⟩
      · have linked := segment_store cleared.linked nodup (some node)
        rw [LinkedList.lastOf_concat] at linked
        exact linked
      · have different : node ≠ last := by
          rintro rfl
          exact fresh (by simp)
        exact (Function.update_of_ne different _ _).trans alone

theorem Holds.unlink (holds : list.Holds (front ++ node :: back)) (nodup : (front ++ node :: back).Nodup) :
    (list.unlink front.getLast? (LinkedList.lastOf front) node).Holds (front ++ back) := by
  obtain ⟨middle, before, rfl, after⟩ := segment_append.mp holds.linked
  obtain ⟨nodupFront, nodupBack, apart⟩ := List.nodup_append.mp nodup
  refine ⟨segment_append.mpr ⟨list.next node, segment_store before nodupFront _, ?_⟩, ?_⟩
  · refine segment_store_behind after (fun other inside behind => ?_) _
    exact apart other inside other (List.mem_cons_of_mem _ behind) rfl
  · change (if list.next node = none then front.getLast? else list.tail) = (front ++ back).getLast?
    cases back with
    | nil =>
        have last : list.next node = none := after
        rw [if_pos last, List.append_nil]
    | cons second back =>
        obtain ⟨following, -⟩ := after
        rw [if_neg (by rw [following]; simp), holds.tail, List.getLast?_append, List.getLast?_append,
          List.getLast?_cons_cons]

end TailedList

end RcControl.Data
