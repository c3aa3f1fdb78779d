import RcControl.Vcos.EventProgress
import RcControl.Vcos.EventReplies

namespace RcControl.Vcos

open RcControl.Data

/-! No event that is raised gets lost.

What a request takes away is among the events that it is answered with, so an event that was
raised is still there, or a get has returned it. -/

section Observations

variable {Id Call Reply : Type*}

def Asks (what : Call → Prop) (seen : List (Observed Id Call Reply)) : Prop :=
  ∃ id call, .called id call ∈ seen ∧ what call

def Answers (what : Reply → Prop) (seen : List (Observed Id Call Reply)) : Prop :=
  ∃ id reply, .returned id reply ∈ seen ∧ what reply

variable {asked : Call → Prop} {answered : Reply → Prop} {seen more : List (Observed Id Call Reply)}

theorem Answers.append (answers : Answers answered seen) : Answers answered (seen ++ more) := by
  obtain ⟨id, reply, member, given⟩ := answers
  exact ⟨id, reply, List.mem_append_left more member, given⟩

theorem asks_append : Asks asked (seen ++ more) ↔ Asks asked seen ∨ Asks asked more := by
  simp only [Asks, List.mem_append, or_and_right, exists_or]

theorem exists_of_forall₂ {Left Right : Type*} {related : Left → Right → Prop} {lefts : List Left}
    {rights : List Right} (same : List.Forall₂ related lefts rights) {left : Left} (member : left ∈ lefts) :
    ∃ right ∈ rights, related left right := by
  induction same with
  | nil => cases member
  | cons first _ ih =>
      rcases List.mem_cons.mp member with rfl | later
      · exact ⟨_, List.mem_cons_self, first⟩
      · obtain ⟨right, found, related⟩ := ih later
        exact ⟨right, List.mem_cons_of_mem _ found, related⟩

end Observations

section Groups

variable {Id : Type*} [DecidableEq Id] {width : Nat} {group : Group Id width}
  {under : Id → Option (Asked width)} {id other : Id} {event : Nat}
  {seen : List (Observed Id (Asked width) (Answered width))}

def Asked.Raises (event : Nat) : Asked width → Prop
  | .change (.raise mask) => mask.getLsbD event = true
  | _ => False

def Answered.Gives (event : Nat) : Answered width → Prop
  | .events bits => bits.getLsbD event = true
  | _ => False

/-- The event is about to be raised, or to be returned. -/
def Client.Carries (event : Nat) : Client width → Prop
  | .asked ask => ask.Raises event
  | .answered answer => answer.Gives event
  | _ => False

def Group.Held (event : Nat) (seen : List (Observed Id (Asked width) (Answered width)))
    (group : Group Id width) : Prop :=
  group.events.getLsbD event = true ∨ Answers (Answered.Gives event) seen ∨
    ∃ id, (group.client id).Carries event

structure Group.Keeps (event : Nat) (seen : List (Observed Id (Asked width) (Answered width)))
    (group : Group Id width) : Prop where
  raises : ∀ id mask, group.client id ≠ .asked (.change (.keep mask))
  held : Asks (Asked.Raises event) seen → group.Held event seen

/-- A client that does not carry the event may go on. -/
theorem Group.Held.moved (held : group.Held event seen) (empty : ¬(group.client id).Carries event)
    (client : Client width) : (group.setClient id client).Held event seen := by
  rcases held with here | given | ⟨other, carries⟩
  · exact .inl here
  · exact .inr (.inl given)
  · have elsewhere : other ≠ id := by
      rintro rfl
      exact empty carries
    exact .inr (.inr ⟨other, by simpa [Group.setClient, elsewhere] using carries⟩)

theorem ne_nil_of_getLsbD {masks : List (BitVec width)}
    (taken : (unionOf masks).getLsbD event = true) : masks ≠ [] := by
  rintro rfl
  simp [unionOf] at taken

/-- The events that are there are left, or go to those who are answered. -/
theorem Group.Fits.release_held (fits : group.Fits under) {events : BitVec width}
    (here : events.getLsbD event = true) (away : ∀ limited, group.client id ≠ .waiting limited)
    (client : Client width) : ((group.release events).setClient id client).Held event seen := by
  by_cases left : ((group.release events).events).getLsbD event = true
  · exact .inl left
  · have taken : (unionOf ((group.waiting.filter fun waiter => waiter.2.met events).map
        fun waiter => waiter.2.takes)).getLsbD event = true := by
      have small := BitVec.lt_of_getLsbD here
      simpa [Group.release, here, small] using left
    obtain ⟨mask, member⟩ := List.exists_mem_of_ne_nil _ (ne_nil_of_getLsbD taken)
    obtain ⟨waiter, met, -⟩ := List.mem_map.mp member
    have elsewhere := fits.apart away (List.mem_filter.mp met).1
    have answered : (group.release events).client waiter.1 = .answered (.events events) :=
      if_pos (List.mem_map_of_mem met)
    refine .inr (.inr ⟨waiter.1, ?_⟩)
    simp only [Group.setClient, Function.update_of_ne elsewhere, answered]
    exact here

theorem Group.Held.act (held : group.Held event seen) (fits : group.Fits under)
    (raises : ∀ mask, group.client id ≠ .asked (.change (.keep mask))) : (group.act id).Held event seen := by
  unfold Group.act
  split
  · rename_i change asks
    cases change with
    | keep mask => exact absurd asks (raises mask)
    | raise mask =>
        have away : ∀ limited, group.client id ≠ .waiting limited := by simp [asks]
        have raised (here : group.events.getLsbD event = true ∨ mask.getLsbD event = true) :
            ((group.release (group.events ||| mask)).setClient id (.answered .done)).Held event seen :=
          fits.release_held (by simpa using here) away _
        rcases held with here | given | ⟨other, carries⟩
        · exact raised (.inl here)
        · exact .inr (.inl given)
        · by_cases own : other = id
          · subst own
            rw [asks] at carries
            exact raised (.inr carries)
          · refine .inr (.inr ⟨other, ?_⟩)
            have waits : other ∉ (group.waiting.filter fun waiter =>
                waiter.2.met (group.events ||| mask)).map Prod.fst := by
              intro met
              obtain ⟨waiter, found, rfl⟩ := List.mem_map.mp met
              obtain ⟨limited, waiting, -⟩ := fits.waiting waiter (List.mem_filter.mp found).1
              rw [waiting] at carries
              exact carries
            have unanswered : (group.release (group.events ||| mask)).client other = group.client other :=
              if_neg waits
            simp only [Group.setClient, Function.update_of_ne own, Change.apply, unanswered]
            exact carries
  · rename_i request wait limited asks
    have empty : ¬(group.client id).Carries event := by
      rw [asks]
      exact fun carries => carries
    split
    · rcases held.moved empty (.answered (.events group.events)) with here | given | carried
      · refine .inr (.inr ⟨id, ?_⟩)
        simp only [Group.setClient, Function.update_self]
        exact here
      · exact .inr (.inl given)
      · exact .inr (.inr carried)
    · split
      · exact held.moved empty (.waiting limited)
      · exact held.moved empty (.answered .late)
  · exact held

theorem Group.Held.expire (held : group.Held event seen) : (group.expire id).Held event seen := by
  unfold Group.expire
  split
  · rename_i waits
    have empty : ¬(group.client id).Carries event := by
      rw [waits]
      exact fun carries => carries
    exact held.moved empty (.answered .late)
  · exact held

/-- A call that takes effect, or whose time is over, makes nobody ask for anything. -/
theorem Group.act_asked {ask : Asked width} (asks : (group.act id).client other = .asked ask) :
    group.client other = .asked ask := by
  unfold Group.act at asks
  by_cases own : other = id
  · subst own
    split at asks
    · simp [Group.setClient] at asks
    · split at asks
      · simp [Group.setClient] at asks
      · split at asks <;> simp [Group.setClient] at asks
    · exact asks
  · split at asks
    · simp only [Group.setClient, Function.update_of_ne own, Group.release] at asks
      split at asks
      · cases asks
      · exact asks
    · split at asks
      · simpa [Group.setClient, own] using asks
      · split at asks <;> simpa [Group.setClient, own] using asks
    · exact asks

theorem Group.expire_asked {ask : Asked width} (asks : (group.expire id).client other = .asked ask) :
    group.client other = .asked ask := by
  unfold Group.expire at asks
  split at asks
  · by_cases own : other = id
    · subst own
      simp [Group.setClient] at asks
    · simpa [Group.setClient, own] using asks
  · exact asks

theorem Group.Keeps.step (keeps : group.Keeps event seen) (fits : group.Fits under) (action : Action Id width)
    (raising : ∀ id mask, .called id (.change (.keep mask)) ∉ (group.emit action).toList) :
    (group.next action).Keeps event (seen ++ (group.emit action).toList) := by
  obtain ⟨raises, held⟩ := keeps
  cases action with
  | act id =>
      simp only [Group.next, Group.emit, Option.toList_none, List.append_nil]
      exact ⟨fun other mask asks => raises other mask (Group.act_asked asks),
        fun asks => (held asks).act fits (raises id)⟩
  | expire id =>
      simp only [Group.next, Group.emit, Option.toList_none, List.append_nil]
      exact ⟨fun other mask asks => raises other mask (Group.expire_asked asks), fun asks => (held asks).expire⟩
  | call id ask =>
      by_cases idle : group.client id = .idle
      · simp only [Group.emit, if_pos idle, Option.toList_some, List.mem_singleton] at raising
        simp only [Group.next, Group.emit, if_pos idle, Option.toList_some]
        refine ⟨fun other mask asks => ?_, fun asks => ?_⟩
        · by_cases own : other = id
          · subst own
            simp only [Group.setClient, Function.update_self, Client.asked.injEq] at asks
            exact raising other mask (by rw [asks])
          · simp only [Group.setClient, Function.update_of_ne own] at asks
            exact raises other mask asks
        · rcases asks_append.mp asks with before | ⟨caller, call, member, raisesIt⟩
          · have empty : ¬(group.client id).Carries event := by
              rw [idle]
              exact fun carries => carries
            rcases (held before).moved empty (.asked ask) with here | given | carried
            · exact .inl here
            · exact .inr (.inl given.append)
            · exact .inr (.inr carried)
          · obtain ⟨rfl, rfl⟩ := Observed.called.inj (List.mem_singleton.mp member)
            refine .inr (.inr ⟨caller, ?_⟩)
            simp only [Group.setClient, Function.update_self]
            exact raisesIt
      · simp only [Group.next, Group.emit, if_neg idle, Option.toList_none, List.append_nil]
        exact ⟨raises, held⟩
  | reply id =>
      cases found : group.client id with
      | answered answer =>
          simp only [Group.next, Group.emit, found, Option.toList_some]
          refine ⟨fun other mask asks => ?_, fun asks => ?_⟩
          · by_cases own : other = id
            · subst own
              simp [Group.setClient] at asks
            · simp only [Group.setClient, Function.update_of_ne own] at asks
              exact raises other mask asks
          · have before : Asks (Asked.Raises event) seen := by
              rcases asks_append.mp asks with before | ⟨caller, call, member, -⟩
              · exact before
              · cases List.mem_singleton.mp member
            by_cases gives : answer.Gives event
            · exact .inr (.inl ⟨id, answer, by simp, gives⟩)
            · have empty : ¬(group.client id).Carries event := by
                rw [found]
                exact gives
              rcases (held before).moved empty .idle with here | given | carried
              · exact .inl here
              · exact .inr (.inl given.append)
              · exact .inr (.inr carried)
      | _ =>
          simp only [Group.next, Group.emit, found, Option.toList_none, List.append_nil]
          exact ⟨raises, held⟩

theorem Group.Keeps.run (keeps : group.Keeps event seen) (fits : group.Fits under)
    {actions : List (Action Id width)}
    (raising : ∀ id mask, .called id (.change (.keep mask)) ∉
      ((eventGroup Id width).outputs group actions).reduceOption) :
    ((eventGroup Id width).run group actions).Keeps event
      (seen ++ ((eventGroup Id width).outputs group actions).reduceOption) := by
  induction actions generalizing group under seen with
  | nil =>
      rw [Machine.outputs_nil, List.reduceOption_nil, List.append_nil]
      exact keeps
  | cons action actions ih =>
      have split : ((eventGroup Id width).outputs group (action :: actions)).reduceOption =
          (group.emit action).toList ++
            ((eventGroup Id width).outputs (group.next action) actions).reduceOption :=
        reduceOption_outputs_cons (eventGroup Id width) group action actions
      rw [split] at raising ⊢
      obtain ⟨after, fitsAfter, -⟩ := fits.step action
      have first := keeps.step fits action fun id mask member => raising id mask (List.mem_append_left _ member)
      rw [← List.append_assoc]
      exact ih first fitsAfter fun id mask member => raising id mask (List.mem_append_right _ member)

omit [DecidableEq Id] in
theorem Group.Keeps.initial : (Group.initial Id width).Keeps event [] where
  raises := by simp [Group.initial]
  held := by
    rintro ⟨id, call, member, -⟩
    cases member

end Groups

section Flags

variable {Id : Type*} {events : List (Event Id)} {event : Nat}
  {seen : List (Observed Id Call Reply)} {shown : List (Observed Id (Asked 32) (Answered 32))}

def Call.Raises (event : Nat) : Call → Prop
  | .set bitmask _ => bitmask.getLsbD event = true
  | .get _ _ _ => False

def Reply.Gives (event : Nat) : Reply → Prop
  | .got .success bits => bits.getLsbD event = true
  | _ => False

/-- No call takes events away but a get that consumes them. -/
def OnlyRaises (_ : EventFlags Id) : Event Id → Prop
  | .call _ (.set _ op) => op = vcosOr
  | .call _ (.get bitmask op suspend) => (Call.get bitmask op suspend).Valid
  | .step _ => True

instance (flags : EventFlags Id) : DecidablePred (OnlyRaises flags)
  | .call _ (.set _ op) => inferInstanceAs (Decidable (op = vcosOr))
  | .call _ (.get bitmask op suspend) => inferInstanceAs (Decidable (Call.get bitmask op suspend).Valid)
  | .step _ => .isTrue trivial

theorem OnlyRaises.valid {flags : EventFlags Id} {event : Event Id} (raises : OnlyRaises flags event) :
    ValidCall flags event := by
  cases event with
  | call id call =>
      cases call with
      | set bitmask op => exact .inl raises
      | get bitmask op suspend => exact raises
  | step worker => trivial

theorem asks_of_matches (same : List.Forall₂ Matches seen shown)
    (raising : ∀ id bitmask op, .called id (.set bitmask op) ∈ seen → op = vcosOr)
    (asks : Asks (Call.Raises event) seen) : Asks (Asked.Raises event) shown := by
  obtain ⟨id, call, member, raises⟩ := asks
  obtain ⟨observed, found, agree⟩ := exists_of_forall₂ same member
  cases call with
  | get bitmask op suspend => cases raises
  | set bitmask op =>
      cases observed with
      | returned => cases agree
      | called other ask =>
          obtain ⟨-, rfl⟩ := agree
          obtain rfl := raising id bitmask op member
          exact ⟨other, _, found, raises⟩

theorem answers_of_matches (same : List.Forall₂ Matches seen shown)
    (answers : Answers (Answered.Gives event) shown) : Answers (Reply.Gives event) seen := by
  obtain ⟨id, answer, member, gives⟩ := answers
  obtain ⟨observed, found, agree⟩ := exists_of_forall₂ same.flip member
  cases answer with
  | done | late => cases gives
  | events bits =>
      cases observed with
      | called => cases agree
      | returned other reply =>
          obtain ⟨-, rfl⟩ := agree
          exact ⟨other, _, found, gives⟩

theorem keeps_not_called (same : List.Forall₂ Matches seen shown)
    (raising : ∀ id bitmask op, .called id (.set bitmask op) ∈ seen → op = vcosOr) (id : Id)
    (mask : BitVec 32) : .called id (.change (.keep mask)) ∉ shown := by
  intro member
  obtain ⟨observed, found, agree⟩ := exists_of_forall₂ same.flip member
  cases observed with
  | returned => cases agree
  | called other call =>
      obtain ⟨-, asked⟩ := agree
      cases call with
      | get => cases asked
      | set bitmask op =>
          obtain rfl := raising other bitmask op found
          cases asked

variable [DecidableEq Id]

/-- The calls that are seen are those that were made. -/
theorem called_raises {flags : EventFlags Id} (raising : (eventFlags Id).Along OnlyRaises flags events)
    (id : Id) (bitmask op : Unsigned)
    (member : .called id (.set bitmask op) ∈ ((eventFlags Id).outputs flags events).reduceOption) :
    op = vcosOr := by
  have every : ∀ output ∈ (eventFlags Id).outputs flags events, ∀ id bitmask op,
      output = some (.called id (.set bitmask op)) → op = vcosOr := by
    refine Machine.outputs_of_along _ ?_ raising
    rintro flags event raises id bitmask op seen
    cases event with
    | call caller call =>
        change (if (flags.thread caller).stage = .idle then some (Observed.called caller call) else none) = _
          at seen
        split at seen
        · obtain ⟨rfl, rfl⟩ := Observed.called.inj (Option.some.inj seen)
          exact raises
        · cases seen
    | step worker =>
        cases worker with
        | timer id => cases seen
        | thread id =>
            simp only [eventFlags, EventFlags.emit] at seen
            split at seen <;> cases seen
  exact every _ (List.reduceOption_mem_iff.mp member) id bitmask op rfl

/-- Where nothing goes on, an event that was ever raised is still there, or a get has returned it. -/
theorem raised_events_kept (raising : (eventFlags Id).Along OnlyRaises (EventFlags.create Id) events)
    (stuck : ∀ worker, ((eventFlags Id).run (EventFlags.create Id) events).step worker = none)
    (raised : Asks (Call.Raises event) ((eventFlags Id).outputs (EventFlags.create Id) events).reduceOption) :
    ((eventFlags Id).run (EventFlags.create Id) events).events.getLsbD event = true ∨
      Answers (Reply.Gives event) ((eventFlags Id).outputs (EventFlags.create Id) events).reduceOption := by
  have valid := Machine.along_mono _ (fun _ _ raises => OnlyRaises.valid raises) raising
  obtain ⟨actions, ⟨nodes, consumed, waking, sound⟩, same⟩ := create_sound.run valid
  have ors := called_raises raising
  have keeps : Group.Keeps event _ _ :=
    Group.Keeps.initial.run Group.Fits.initial (keeps_not_called same ors)
  obtain ⟨free, blocked⟩ := sound.blocked stuck
  rw [List.nil_append] at keeps
  rcases keeps.held (asks_of_matches same ors raised) with here | given | ⟨id, carries⟩
  · rw [(sound.settled free).1] at here
    exact .inl here
  · exact .inr (answers_of_matches same given)
  · rcases (blocked id).2 with idle | waits
    · rw [idle] at carries
      cases carries
    · rw [waits] at carries
      cases carries

theorem raised_events_kept_handOver :
    ((eventFlags Bool).run (EventFlags.create Bool) handOver).events.getLsbD 0 = true ∨
      Answers (Reply.Gives 0) ((eventFlags Bool).outputs (EventFlags.create Bool) handOver).reduceOption := by
  refine raised_events_kept (by decide +kernel) ?_ ⟨true, .set 1 vcosOr, ?_, rfl⟩
  · rintro (id | id) <;> cases id <;> rfl
  · decide +kernel

end Flags

end RcControl.Vcos
