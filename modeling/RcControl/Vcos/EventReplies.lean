import RcControl.Vcos.EventRuns

namespace RcControl.Vcos

open RcControl.Data

/-! What a call of event flags may return.

The group keeps to it, and so do the flags, which show the same calls and replies. -/

section Replies

variable {Id Call Reply : Type*} [DecidableEq Id]

/-- Each thread makes one call after the other, and each call returns what it may. -/
def Proper (allows : Call → Reply → Prop) : (Id → Option Call) → List (Observed Id Call Reply) → Prop
  | _, [] => True
  | under, .called id call :: rest =>
      under id = none ∧ Proper allows (Function.update under id (some call)) rest
  | under, .returned id reply :: rest =>
      (∃ call, under id = some call ∧ allows call reply) ∧ Proper allows (Function.update under id none) rest

def Asked.Allows {width : Nat} : Asked width → Answered width → Prop
  | .change _, .done => True
  | .await request _ _, .events events => request.met events = true
  | .await _ wait limited, .late => wait = true → limited = true
  | _, _ => False

end Replies

section Groups

variable {Id : Type*} [DecidableEq Id] {width : Nat} {group : Group Id width}
  {under : Id → Option (Asked width)} {id : Id} {client : Client width}

def Client.Fits (call : Option (Asked width)) : Client width → Prop
  | .idle => call = none
  | .asked ask => call = some ask
  | .waiting limited => ∃ request, call = some (.await request true limited)
  | .answered answer => ∃ ask, call = some ask ∧ ask.Allows answer

/-- The clients are at the calls that are under way. -/
structure Group.Fits (group : Group Id width) (under : Id → Option (Asked width)) : Prop where
  clients : ∀ id, (group.client id).Fits (under id)
  waiting : ∀ waiter ∈ group.waiting, ∃ limited,
    group.client waiter.1 = .waiting limited ∧ under waiter.1 = some (.await waiter.2 true limited)

namespace Group.Fits

omit [DecidableEq Id] in
theorem apart (fits : group.Fits under) (away : ∀ limited, group.client id ≠ .waiting limited)
    {waiter : Id × Request width} (waits : waiter ∈ group.waiting) : waiter.1 ≠ id := by
  rintro rfl
  obtain ⟨limited, waiting, -⟩ := fits.waiting waiter waits
  exact away limited waiting

/-- A client that does not wait goes on. -/
theorem moved (fits : group.Fits under) (away : ∀ limited, group.client id ≠ .waiting limited)
    {call : Option (Asked width)} (fit : client.Fits call) :
    (group.setClient id client).Fits (Function.update under id call) where
  clients other := by
    by_cases here : other = id
    · subst here
      simpa [Group.setClient] using fit
    · simpa [Group.setClient, here] using fits.clients other
  waiting waiter waits := by
    have elsewhere := fits.apart away waits
    obtain ⟨limited, waiting, asks⟩ := fits.waiting waiter waits
    refine ⟨limited, ?_, ?_⟩
    · simpa [Group.setClient, elsewhere] using waiting
    · simpa [elsewhere] using asks

theorem settles (fits : group.Fits under) (client : Client width)
    (away : ∀ limited, group.client id ≠ .waiting limited) (fit : client.Fits (under id)) :
    (group.setClient id client).Fits under := by
  have moved := fits.moved away fit
  rw [Function.update_eq_self] at moved
  exact moved

/-- Those who are answered asked for the events, and those who are left still wait. -/
theorem release (fits : group.Fits under) (events : BitVec width) : (group.release events).Fits under where
  clients other := by
    simp only [Group.release]
    split
    · rename_i met
      obtain ⟨waiter, found, rfl⟩ := List.mem_map.mp met
      obtain ⟨waits, satisfied⟩ := List.mem_filter.mp found
      obtain ⟨limited, -, asks⟩ := fits.waiting waiter waits
      exact ⟨_, asks, satisfied⟩
    · exact fits.clients other
  waiting waiter waits := by
    obtain ⟨waits, unmet⟩ := List.mem_filter.mp waits
    obtain ⟨limited, waiting, asks⟩ := fits.waiting waiter waits
    have unanswered : waiter.1 ∉ (group.waiting.filter fun waiter => waiter.2.met events).map Prod.fst := by
      intro met
      obtain ⟨other, found, same⟩ := List.mem_map.mp met
      obtain ⟨otherWaits, satisfied⟩ := List.mem_filter.mp found
      obtain ⟨otherLimited, -, otherAsks⟩ := fits.waiting other otherWaits
      rw [same, asks, Option.some.injEq, Asked.await.injEq] at otherAsks
      rw [otherAsks.1, satisfied] at unmet
      cases unmet
    simp only [Group.release]
    rw [if_neg unanswered]
    exact ⟨limited, waiting, asks⟩

theorem act (fits : group.Fits under) (id : Id) : (group.act id).Fits under := by
  have own := fits.clients id
  unfold Group.act
  split
  · rename_i change asks
    rw [asks] at own
    have released := fits.release (change.apply group.events)
    have away : ∀ limited, (group.release (change.apply group.events)).client id ≠ .waiting limited := by
      intro limited
      simp only [Group.release, asks]
      split <;> simp
    exact released.settles _ away ⟨_, own, trivial⟩
  · rename_i request wait limited asks
    have away : ∀ other, group.client id ≠ .waiting other := by
      intro other
      rw [asks]
      simp
    rw [asks] at own
    split
    · rename_i met
      obtain ⟨clients, waiting⟩ := fits.settles (.answered (.events group.events)) away ⟨_, own, met⟩
      exact ⟨clients, waiting⟩
    · split
      · rename_i waits
        subst waits
        obtain ⟨clients, waiting⟩ := fits.settles (.waiting limited) away ⟨_, own⟩
        refine ⟨clients, fun waiter member => ?_⟩
        rcases List.mem_append.mp member with before | new
        · exact waiting waiter before
        · obtain rfl := List.mem_singleton.mp new
          exact ⟨limited, by simp [Group.setClient], own⟩
      · rename_i leaves
        exact fits.settles _ away ⟨_, own, fun waits => absurd waits leaves⟩
  · exact fits

theorem expire (fits : group.Fits under) (id : Id) : (group.expire id).Fits under := by
  unfold Group.expire
  split
  · rename_i waits
    have own := fits.clients id
    rw [waits] at own
    obtain ⟨request, asks⟩ := own
    refine ⟨fun other => ?_, fun waiter member => ?_⟩
    · by_cases here : other = id
      · subst here
        simp only [Group.setClient, Function.update_self]
        exact ⟨_, asks, fun _ => rfl⟩
      · simpa [Group.setClient, here] using fits.clients other
    · obtain ⟨member, elsewhere⟩ := List.mem_filter.mp member
      obtain ⟨limited, waiting, asks⟩ := fits.waiting waiter member
      exact ⟨limited, by simpa [Group.setClient, of_decide_eq_true elsewhere] using waiting, asks⟩
  · exact fits

/-- After an action the clients are at their calls again, and it has shown what it may. -/
theorem step (fits : group.Fits under) (action : Action Id width) :
    ∃ after, (group.next action).Fits after ∧ ∀ rest, Proper Asked.Allows after rest →
      Proper Asked.Allows under ((group.emit action).toList ++ rest) := by
  cases action with
  | act id => exact ⟨under, fits.act id, fun _ proper => proper⟩
  | expire id => exact ⟨under, fits.expire id, fun _ proper => proper⟩
  | call id asked =>
      have own := fits.clients id
      by_cases idle : group.client id = .idle
      · rw [idle] at own
        simp only [Group.next, Group.emit, if_pos idle]
        exact ⟨Function.update under id (some asked), fits.moved (by simp [idle]) rfl,
          fun _ proper => ⟨own, proper⟩⟩
      · simp only [Group.next, Group.emit, if_neg idle]
        exact ⟨under, fits, fun _ proper => proper⟩
  | reply id =>
      have own := fits.clients id
      cases found : group.client id with
      | answered answered =>
          rw [found] at own
          simp only [Group.next, Group.emit, found]
          exact ⟨Function.update under id none, fits.moved (by simp [found]) rfl,
            fun _ proper => ⟨own, proper⟩⟩
      | _ =>
          simp only [Group.next, Group.emit, found]
          exact ⟨under, fits, fun _ proper => proper⟩

theorem proper (fits : group.Fits under) (actions : List (Action Id width)) :
    Proper Asked.Allows under ((eventGroup Id width).outputs group actions).reduceOption := by
  induction actions generalizing group under with
  | nil => trivial
  | cons action actions ih =>
      obtain ⟨after, fitsAfter, proper⟩ := fits.step action
      have rest := ih fitsAfter
      rw [reduceOption_outputs_cons]
      exact proper _ rest

omit [DecidableEq Id] in
theorem initial : (Group.initial Id width).Fits fun _ => none where
  clients _ := rfl
  waiting _ waits := absurd waits List.not_mem_nil

end Group.Fits

end Groups

section Flags

variable {Id : Type*} [DecidableEq Id] {events : List (Event Id)}

/-- Nothing for a set; for a get events that it asked for, or none if it does not wait forever. -/
def Call.Allows : Call → Reply → Prop
  | .set _ _, .void => True
  | .get bitmask op _, .got .success bits => (requestOf bitmask op).met bits = true
  | .get _ _ suspend, .got .eagain bits => bits = 0 ∧ suspend ≠ vcosSuspend
  | _, _ => False

theorem Asked.Allows.reply {call : Call} {answered : Answered 32} (allows : call.asked.Allows answered) :
    call.Allows answered.reply := by
  cases call with
  | set bitmask op =>
      cases answered with
      | done => trivial
      | events | late => cases allows
  | get bitmask op suspend =>
      cases answered with
      | done => cases allows
      | events bits => exact allows
      | late =>
          refine ⟨rfl, fun forever => ?_⟩
          subst forever
          exact absurd (allows rfl) (by decide)

theorem proper_of_matches {seen : List (Observed Id Call Reply)}
    {shown : List (Observed Id (Asked 32) (Answered 32))} {under : Id → Option Call}
    {asked : Id → Option (Asked 32)} (same : List.Forall₂ Matches seen shown)
    (calls : ∀ id, asked id = (under id).map Call.asked) (proper : Proper Asked.Allows asked shown) :
    Proper Call.Allows under seen := by
  induction same generalizing under asked with
  | nil => trivial
  | @cons first second seen shown agree _ ih =>
      cases first with
      | called id call =>
          cases second with
          | returned => cases agree
          | called other ask =>
              obtain ⟨rfl, rfl⟩ := agree
              obtain ⟨free, rest⟩ := proper
              refine ⟨by simpa [calls] using free, ih (fun other => ?_) rest⟩
              by_cases here : other = id
              · simp [here]
              · simpa [here] using calls other
      | returned id reply =>
          cases second with
          | called => cases agree
          | returned other answered =>
              obtain ⟨rfl, rfl⟩ := agree
              obtain ⟨⟨ask, found, allows⟩, rest⟩ := proper
              rw [calls, Option.map_eq_some_iff] at found
              obtain ⟨call, called, rfl⟩ := found
              refine ⟨⟨call, called, allows.reply⟩, ih (fun other => ?_) rest⟩
              by_cases here : other = id
              · simp [here]
              · simpa [here] using calls other

/-- In every order of the steps each call returns once, and what it may. -/
theorem flags_reply_properly (valid : (eventFlags Id).Along ValidCall (EventFlags.create Id) events) :
    Proper Call.Allows (fun _ => none)
      ((eventFlags Id).outputs (EventFlags.create Id) events).reduceOption := by
  obtain ⟨actions, -, seen⟩ := create_sound.run valid
  exact proper_of_matches seen (fun _ => rfl) (Group.Fits.initial.proper actions)

theorem flags_reply_properly_handOver :
    Proper Call.Allows (fun _ => none)
      ((eventFlags Bool).outputs (EventFlags.create Bool) handOver).reduceOption :=
  flags_reply_properly (by decide +kernel)

end Flags

end RcControl.Vcos
