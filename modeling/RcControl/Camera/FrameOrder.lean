import RcControl.Camera.Conservation

namespace RcControl.Camera

open RcControl.Data

/-! The encoder is offered the frames, and `cb` is passed the packets, in the order the
ports returned them. -/

variable {Payload : Type*} {state : Camcorder Payload} {main : Main Payload} {queue : Queue}
  {port : Port} {buffer : Buffer Payload}

/-- What has been taken for a port and not been offered to it. -/
def Main.unsent : Main Payload → Port → List (Buffer Payload)
  | .sending port buffer _, other => if other = port then [buffer] else []
  | .top, _ | .fill _, _ | .get _, _ | .puttingBack .., _ | .process, _ | .passing _, _
  | .releasing _, _ | .stopped, _ => []

def Main.unpassed : Main Payload → List (Buffer Payload)
  | .passing buffer => [buffer]
  | .top | .fill _ | .get _ | .sending .. | .puttingBack .. | .process | .releasing _ | .stopped => []

/-- A buffer that may be put back came from the head of the queue as it was. -/
def Camcorder.Resumes (state : Camcorder Payload) : Prop :=
  match state.main with
  | .sending port buffer before => before <+: buffer :: (state.queues port.source).queue
  | .puttingBack port buffer before =>
      before <+: buffer :: (state.queues port.source).queue ∧
        ∃ front, state.offered port = front ++ [buffer]
  | .top | .fill _ | .get _ | .process | .passing _ | .releasing _ | .stopped => True

/-- Each queue is accounted for, and what was taken from it went where it had to. -/
structure InLine (state : Camcorder Payload) : Prop where
  accounted : ∀ queue, (state.queues queue).Accounted
  kept : ∀ queue, (state.queues queue).discarded = []
  offered : state.main ≠ .stopped → ∀ port,
    (state.queues port.source).taken = state.offered port ++ state.main.unsent port
  sent : ∀ port, state.offered port <+: (state.queues port.source).pushed
  passed : (state.queues .encoderOut).taken = state.passed ++ state.main.unpassed
  resumes : state.Resumes

section Queues

variable {queues : Queue → Fifo (Buffer Payload)} {fifo : Fifo (Buffer Payload)}

theorem update_forall (property : Fifo (Buffer Payload) → Prop)
    (before : ∀ other, property (queues other)) (here : property fifo) (other : Queue) :
    property (Function.update queues queue fifo other) := by
  by_cases same : other = queue
  · rw [same, Function.update_self]
    exact here
  · rw [Function.update_of_ne same]
    exact before other

theorem update_frame {Field : Type*} (field : Fifo (Buffer Payload) → Field)
    (same : field fifo = field (queues queue)) (other : Queue) :
    field (Function.update queues queue fifo other) = field (queues other) := by
  by_cases here : other = queue
  · rw [here, Function.update_self, same]
  · rw [Function.update_of_ne here]

theorem update_longer (field : Fifo (Buffer Payload) → List (Buffer Payload))
    (longer : field (queues queue) <+: field fifo) (other : Queue) :
    field (queues other) <+: field (Function.update queues queue fifo other) := by
  by_cases here : other = queue
  · rw [here, Function.update_self]
    exact longer
  · rw [Function.update_of_ne here]

theorem source_injective : Function.Injective Port.source := by
  intro port other same
  cases port <;> cases other <;> first | rfl | cases same

theorem source_ne (port : Port) : port.source ≠ .encoderOut := by
  cases port <;> simp [Port.source]

end Queues

section Lines

theorem InLine.goTo (inLine : InLine state) {origin : Main Payload} (here : state.main = origin)
    (running : origin ≠ .stopped) (unsent : main.unsent = origin.unsent)
    (unpassed : main.unpassed = origin.unpassed) (resumes : (state.goTo main).Resumes) :
    InLine (state.goTo main) := by
  subst here
  constructor
  · exact inLine.accounted
  · exact inLine.kept
  · exact fun _ port => (inLine.offered running port).trans (congrArg _ (congrFun unsent.symm port))
  · exact inLine.sent
  · exact inLine.passed.trans (congrArg _ unpassed.symm)
  · exact resumes

theorem taken_elsewhere {fifo : Fifo (Buffer Payload)} {other : Queue} (apart : other ≠ queue) :
    ((state.setQueue queue fifo).queues other).taken = (state.queues other).taken :=
  congrArg Fifo.taken (Function.update_of_ne apart _ _)

/-- Taking from a queue, and putting back, changes nothing that was pushed. -/
theorem InLine.sent_of_pushed (inLine : InLine state) {fifo : Fifo (Buffer Payload)}
    (pushed : fifo.pushed = (state.queues queue).pushed) (port : Port) :
    state.offered port <+: ((state.setQueue queue fifo).queues port.source).pushed := by
  have same : ((state.setQueue queue fifo).queues port.source).pushed =
      (state.queues port.source).pushed := update_frame Fifo.pushed pushed port.source
  rw [same]
  exact inLine.sent port

theorem Resumes.longer {after : Camcorder Payload} (resumes : state.Resumes)
    (main : after.main = state.main) (offered : after.offered = state.offered)
    (longer : ∀ queue, (state.queues queue).queue <+: (after.queues queue).queue) : after.Resumes := by
  unfold Camcorder.Resumes at resumes ⊢
  rw [main, offered]
  cases here : state.main with
  | sending port buffer before =>
      rw [here] at resumes
      exact resumes.trans ((List.prefix_cons_inj buffer).mpr (longer port.source))
  | puttingBack port buffer before =>
      rw [here] at resumes
      exact ⟨resumes.1.trans ((List.prefix_cons_inj buffer).mpr (longer port.source)), resumes.2⟩
  | top | fill port | get port | process | passing buffer | releasing buffer | stopped => trivial

/-- Whatever arrives, arrives at the end of a queue. -/
theorem InLine.put (inLine : InLine state) (queue : Queue) (buffer : Buffer Payload) :
    InLine (state.mmalQueuePut queue buffer) := by
  have taken : ∀ other, ((state.mmalQueuePut queue buffer).queues other).taken =
      (state.queues other).taken :=
    update_frame Fifo.taken rfl
  have waiting : ∀ other, (state.queues other).queue <+:
      ((state.mmalQueuePut queue buffer).queues other).queue :=
    update_longer Fifo.queue (List.prefix_append _ _)
  have pushed : ∀ other, (state.queues other).pushed <+:
      ((state.mmalQueuePut queue buffer).queues other).pushed :=
    update_longer Fifo.pushed (List.prefix_append _ _)
  constructor
  · exact update_forall Fifo.Accounted inLine.accounted ((inLine.accounted queue).push buffer)
  · exact update_forall (fun fifo => fifo.discarded = []) inLine.kept (inLine.kept queue)
  · intro running port
    exact (taken port.source).trans (inLine.offered running port)
  · exact fun port => (inLine.sent port).trans (pushed port.source)
  · exact (taken .encoderOut).trans inLine.passed
  · exact Resumes.longer inLine.resumes rfl rfl waiting

theorem InLine.get (inLine : InLine state) (here : state.main = .get port)
    {rest : List (Buffer Payload)} (head : (state.queues port.source).queue = buffer :: rest) :
    InLine ((state.mmalQueueGet port.source).goTo (.sending port buffer (buffer :: rest))) := by
  have taking := Fifo.take_cons head
  obtain ⟨pushed, discarded⟩ := (state.queues port.source).take_frame
  constructor
  · exact update_forall Fifo.Accounted inLine.accounted (inLine.accounted port.source).take
  · exact update_forall (fun fifo => fifo.discarded = []) inLine.kept
      (discarded.trans (inLine.kept port.source))
  · intro _ other
    have before := inLine.offered (by simp [here]) other
    rw [here] at before
    by_cases same : other = port
    · subst same
      simp [Camcorder.goTo, Camcorder.mmalQueueGet, Camcorder.setQueue, taking, before, Main.unsent]
    · have apart : other.source ≠ port.source := fun equal => same (source_injective equal)
      simp [Camcorder.goTo, Camcorder.mmalQueueGet, Camcorder.setQueue, apart, before, Main.unsent, same]
  · exact inLine.sent_of_pushed pushed
  · have passed := inLine.passed
    rw [here] at passed
    exact (taken_elsewhere (source_ne port).symm).trans passed
  · have left : ((state.mmalQueueGet port.source).queues port.source).queue = rest := by
      simp [Camcorder.mmalQueueGet, Camcorder.setQueue, taking]
    change buffer :: rest <+: buffer :: ((state.mmalQueueGet port.source).queues port.source).queue
    rw [left]

theorem InLine.offer (inLine : InLine state) {before : List (Buffer Payload)}
    (here : state.main = .sending port buffer before) (other : Port) :
    (state.queues other.source).taken = (state.addOffered port buffer).offered other ∧
      (state.addOffered port buffer).offered other <+: (state.queues other.source).pushed := by
  have taken := inLine.offered (by simp [here]) other
  rw [here] at taken
  have all : (state.queues other.source).taken = (state.addOffered port buffer).offered other := by
    by_cases same : other = port
    · subst same
      simpa [Main.unsent, Camcorder.addOffered] using taken
    · simpa [Main.unsent, Camcorder.addOffered, same] using taken
  apply And.intro
  · exact all
  · rw [← all, (inLine.accounted _).eq_of_not_discarded (inLine.kept _)]
    exact List.prefix_append _ _

theorem InLine.send (inLine : InLine state) {before : List (Buffer Payload)}
    (here : state.main = .sending port buffer before) (headers : List Header) :
    InLine (((state.addOffered port buffer).setHeld port headers).goTo port.afterSend) := by
  have unsent : ∀ other, (port.afterSend : Main Payload).unsent other = [] := by
    intro other
    cases port <;> rfl
  constructor
  · exact inLine.accounted
  · exact inLine.kept
  · intro _ other
    calc (state.queues other.source).taken
      _ = (state.addOffered port buffer).offered other := (inLine.offer here other).1
      _ = (state.addOffered port buffer).offered other ++ (port.afterSend : Main Payload).unsent other := by
        rw [unsent, List.append_nil]
  · exact fun other => (inLine.offer here other).2
  · have passed := inLine.passed
    rw [here] at passed
    have unpassed : (port.afterSend : Main Payload).unpassed = [] := by cases port <;> rfl
    exact passed.trans (congrArg _ unpassed.symm)
  · cases port <;> trivial

theorem InLine.fail (inLine : InLine state) {before : List (Buffer Payload)}
    (here : state.main = .sending port buffer before) :
    InLine ((state.addOffered port buffer).goTo (.puttingBack port buffer before)) := by
  constructor
  · exact inLine.accounted
  · exact inLine.kept
  · intro _ other
    exact (inLine.offer here other).1.trans (List.append_nil _).symm
  · exact fun other => (inLine.offer here other).2
  · have passed := inLine.passed
    rw [here] at passed
    exact passed
  · have resumes := inLine.resumes
    unfold Camcorder.Resumes at resumes
    rw [here] at resumes
    have last : (state.addOffered port buffer).offered port = state.offered port ++ [buffer] := by
      simp [Camcorder.addOffered]
    exact ⟨resumes, state.offered port, last⟩

theorem InLine.putBack (inLine : InLine state) {before : List (Buffer Payload)}
    (here : state.main = .puttingBack port buffer before) :
    InLine ((state.mmalQueuePutBack port.source buffer).goTo .stopped) := by
  have resumes := inLine.resumes
  unfold Camcorder.Resumes at resumes
  rw [here] at resumes
  obtain ⟨_, front, ended⟩ := resumes
  have last : (state.queues port.source).taken = front ++ [buffer] := by
    rw [inLine.offered (by simp [here]) port, here, ended]
    exact List.append_nil _
  constructor
  · exact update_forall Fifo.Accounted inLine.accounted ((inLine.accounted port.source).putBack last)
  · exact update_forall (fun fifo => fifo.discarded = []) inLine.kept
      (inLine.kept port.source)
  · exact fun running => absurd rfl running
  · have pushed : ((state.queues port.source).putBack buffer).pushed =
        (state.queues port.source).pushed := rfl
    exact inLine.sent_of_pushed pushed
  · have passed := inLine.passed
    rw [here] at passed
    exact (taken_elsewhere (source_ne port).symm).trans passed
  · trivial

theorem InLine.process (inLine : InLine state) (here : state.main = .process)
    {rest : List (Buffer Payload)} (head : (state.queues .encoderOut).queue = buffer :: rest) :
    InLine ((state.mmalQueueGet .encoderOut).goTo (.passing buffer)) := by
  obtain ⟨pushed, discarded⟩ := (state.queues .encoderOut).take_frame
  constructor
  · exact update_forall Fifo.Accounted inLine.accounted (inLine.accounted .encoderOut).take
  · exact update_forall (fun fifo => fifo.discarded = []) inLine.kept
      (discarded.trans (inLine.kept .encoderOut))
  · intro _ other
    have before := inLine.offered (by simp [here]) other
    rw [here] at before
    exact (taken_elsewhere (source_ne other)).trans before
  · exact inLine.sent_of_pushed pushed
  · have passed := inLine.passed
    rw [here] at passed
    simp only [Camcorder.goTo, Camcorder.mmalQueueGet, Camcorder.setQueue, Function.update_self,
      Fifo.take_cons head, passed, Main.unpassed, List.append_nil]
  · trivial

theorem InLine.pass (inLine : InLine state) (here : state.main = .passing buffer) :
    InLine { state with passed := state.passed ++ [buffer], main := .releasing buffer } := by
  constructor
  · exact inLine.accounted
  · exact inLine.kept
  · intro _ other
    have before := inLine.offered (by simp [here]) other
    rw [here] at before
    exact before
  · exact inLine.sent
  · have passed := inLine.passed
    rw [here] at passed
    exact passed.trans (List.append_nil _).symm
  · trivial

theorem mainStep_inLine (inLine : InLine state) (stop sent : Bool) :
    InLine (state.mainStep stop sent) := by
  cases here : state.main with
  | top =>
      simp only [Camcorder.mainStep, here]
      split <;> exact inLine.goTo here (by simp) rfl rfl trivial
  | fill port =>
      simp only [Camcorder.mainStep, here]
      split
      · exact inLine.goTo here (by simp) rfl rfl trivial
      · cases port <;> exact inLine.goTo here (by simp) rfl rfl trivial
  | get port =>
      simp only [Camcorder.mainStep, here]
      split
      · cases port <;> exact inLine.goTo here (by simp) rfl rfl trivial
      · rename_i buffer rest head
        exact inLine.get here head
  | sending port buffer before =>
      simp only [Camcorder.mainStep, here]
      split
      · exact inLine.send here _
      · exact inLine.fail here
  | puttingBack port buffer before =>
      simp only [Camcorder.mainStep, here]
      exact inLine.putBack here
  | process =>
      simp only [Camcorder.mainStep, here]
      split
      · exact inLine.goTo here (by simp) rfl rfl trivial
      · rename_i buffer rest head
        exact inLine.process here head
  | passing buffer =>
      simp only [Camcorder.mainStep, here]
      exact inLine.pass here
  | releasing buffer =>
      simp only [Camcorder.mainStep, here]
      have released := inLine.put (.pool buffer.header.pool) buffer.header.reset
      exact released.goTo here (by simp) rfl rfl trivial
  | stopped =>
      simp only [Camcorder.mainStep, here]
      exact inLine

end Lines

section Callbacks

/-- What goes through the queues of the main loop is what the ports returned. -/
structure Gathered (state : Camcorder Payload) : Prop where
  frames : (state.queues .encoderIn).pushed = state.returned .videoPort
  packets : (state.queues .encoderOut).pushed = state.returned .encoderOutput

theorem mainStep_pushed {stop sent : Bool} {after : Camcorder Payload}
    (step : state.mainStep stop sent = after) :
    after.returned = state.returned ∧ ∀ queue, (∀ pool, queue ≠ .pool pool) →
      (after.queues queue).pushed = (state.queues queue).pushed := by
  cases here : state.main with
  | top | fill port | sending port buffer before =>
      simp only [Camcorder.mainStep, here] at step
      split at step <;> subst step <;> exact ⟨rfl, fun _ _ => rfl⟩
  | get port =>
      simp only [Camcorder.mainStep, here] at step
      split at step
      · subst step
        exact ⟨rfl, fun _ _ => rfl⟩
      · subst step
        exact ⟨rfl, fun queue _ =>
          update_frame Fifo.pushed (state.queues port.source).take_frame.1 queue⟩
  | puttingBack port buffer before =>
      simp only [Camcorder.mainStep, here] at step
      subst step
      have pushed : ((state.queues port.source).putBack buffer).pushed =
          (state.queues port.source).pushed := rfl
      exact ⟨rfl, fun queue _ => update_frame Fifo.pushed pushed queue⟩
  | process =>
      simp only [Camcorder.mainStep, here] at step
      split at step
      · subst step
        exact ⟨rfl, fun _ _ => rfl⟩
      · subst step
        exact ⟨rfl, fun queue _ =>
          update_frame Fifo.pushed (state.queues .encoderOut).take_frame.1 queue⟩
  | releasing buffer =>
      simp only [Camcorder.mainStep, here] at step
      subst step
      exact ⟨rfl, fun queue outside =>
        congrArg Fifo.pushed (Function.update_of_ne (outside buffer.header.pool) _ _)⟩
  | passing buffer | stopped =>
      simp only [Camcorder.mainStep, here] at step
      subst step
      exact ⟨rfl, fun _ _ => rfl⟩

theorem put_pushed (queue other : Queue) (buffer : Buffer Payload) :
    ((state.mmalQueuePut queue buffer).queues other).pushed =
      (state.queues other).pushed ++ if other = queue then [buffer] else [] := by
  by_cases same : other = queue
  · simp [Camcorder.mmalQueuePut, Camcorder.setQueue, Fifo.push, same]
  · simp [Camcorder.mmalQueuePut, Camcorder.setQueue, same]

theorem put_returned (queue : Queue) (buffer : Buffer Payload) :
    (state.mmalQueuePut queue buffer).returned = state.returned := rfl

theorem next_gathered (state : Camcorder Payload) (event : Event Payload) (gathered : Gathered state) :
    Gathered (state.next event) := by
  cases event with
  | main stop sent =>
      obtain ⟨returned, pushed⟩ := @mainStep_pushed _ state stop sent _ rfl
      constructor
      · exact (pushed .encoderIn (by simp)).trans (gathered.frames.trans (congrFun returned.symm _))
      · exact (pushed .encoderOut (by simp)).trans (gathered.packets.trans (congrFun returned.symm _))
  | callback port header payload =>
      obtain ⟨frames, packets⟩ := gathered
      simp only [Camcorder.next]
      split
      · cases port <;> constructor <;>
          simp [Camcorder.portCallback, Camcorder.genericOutputPortCb, Camcorder.genericInputPortCb,
            Camcorder.mmalBufferHeaderRelease, put_pushed, put_returned, Camcorder.addReturned,
            Camcorder.setHeld, frames, packets]
      · exact ⟨frames, packets⟩

theorem next_inLine (state : Camcorder Payload) (event : Event Payload) (inLine : InLine state) :
    InLine (state.next event) := by
  cases event with
  | main stop sent => exact mainStep_inLine inLine stop sent
  | callback port header payload =>
      simp only [Camcorder.next]
      split
      · -- What a port holds and what it returned play no part in the lines.
        have given : InLine ((state.setHeld port ((state.held port).erase header)).addReturned port
            ⟨header, some payload⟩) :=
          ⟨inLine.accounted, inLine.kept, inLine.offered, inLine.sent, inLine.passed, inLine.resumes⟩
        cases port with
        | videoPort | encoderOutput | encoderInput => exact given.put _ _
      · exact inLine

end Callbacks

section Run

structure Flowing (headersNum : Pool → Nat) (state : Camcorder Payload) : Prop where
  conserved : Conserved headersNum state
  inLine : InLine state
  gathered : Gathered state

variable {headersNum : Pool → Nat}

theorem next_flowing (state : Camcorder Payload) (event : Event Payload)
    (flowing : Flowing headersNum state) : Flowing headersNum (state.next event) where
  conserved := next_conserved state event flowing.conserved
  inLine := next_inLine state event flowing.inLine
  gathered := next_gathered state event flowing.gathered

theorem initial_flowing (Payload : Type*) (headersNum : Pool → Nat) :
    Flowing headersNum (Camcorder.initial Payload headersNum) where
  conserved := initial_conserved Payload headersNum
  inLine := by
    have fresh : ∀ queue, ∃ buffers,
        (Camcorder.initial Payload headersNum).queues queue = Fifo.filled buffers := by
      intro queue
      cases queue with
      | pool pool => exact ⟨_, rfl⟩
      | encoderIn | encoderOut => exact ⟨[], rfl⟩
    constructor
    · intro queue
      obtain ⟨buffers, filled⟩ := fresh queue
      rw [filled]
      exact Fifo.accounted_filled buffers
    · intro queue
      obtain ⟨buffers, filled⟩ := fresh queue
      rw [filled]
      rfl
    · intro _ port
      obtain ⟨buffers, filled⟩ := fresh port.source
      rw [filled]
      rfl
    · exact fun port => List.nil_prefix
    · rfl
    · trivial
  gathered := ⟨rfl, rfl⟩

theorem Flowing.circulates (flowing : Flowing headersNum state) : Circulates headersNum state := by
  obtain ⟨conserved, inLine, gathered⟩ := flowing
  have nodup : (Ledger.total state.ledger).Nodup := by
    rw [conserved.whole]
    exact nodup_allHeaders headersNum
  have everywhere : ∀ header, header ∈ Ledger.total state.ledger ↔
      header ∈ header.pool.headers (headersNum header.pool) := by
    intro header
    rw [conserved.whole]
    exact mem_allHeaders
  constructor
  · intro pool header member
    have own : header ∈ header.pool.headers (headersNum header.pool) := by
      rwa [(mem_headers.mp member).1]
    exact Ledger.existsUnique_place nodup ((everywhere header).mpr own)
  · exact Ledger.nodup_place nodup
  · intro place header member
    exact ⟨conserved.placed place header member,
      (everywhere header).mp (Ledger.mem_total.mpr ⟨place, member⟩)⟩
  · exact gathered.frames ▸ inLine.sent .encoderInput
  · rw [← gathered.packets, (inLine.accounted _).eq_of_not_discarded (inLine.kept _), inLine.passed,
      List.append_assoc]
    exact List.prefix_append _ _

theorem InLine.keepsOrder (inLine : InLine state) (event : Event Payload) : KeepsOrder state event := by
  intro stop sent port buffer before main here
  subst main
  have resumes := inLine.resumes
  unfold Camcorder.Resumes at resumes
  rw [here] at resumes
  simp only [Camcorder.next, Camcorder.mainStep, here]
  simpa [Camcorder.goTo, Camcorder.mmalQueuePutBack, Camcorder.setQueue, Fifo.putBack] using resumes.1

end Run

theorem headers_circulate (Payload : Type*) (headersNum : Pool → Nat) (events : List (Event Payload)) :
    (camcorder Payload).Always (Circulates headersNum) (Camcorder.initial Payload headersNum) events ∧
      (camcorder Payload).Along KeepsOrder (Camcorder.initial Payload headersNum) events := by
  have start := initial_flowing Payload headersNum
  have always := (camcorder Payload).always_of_invariant next_flowing start events
  have along := (camcorder Payload).along_of_invariant next_flowing start events
  apply And.intro
  · exact (camcorder Payload).always_mono (fun _ => Flowing.circulates) always
  · exact (camcorder Payload).along_mono (fun _ event flowing => flowing.inLine.keepsOrder event) along

end RcControl.Camera
