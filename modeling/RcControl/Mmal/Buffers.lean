import RcControl.Data.Machine
import RcControl.Data.References

namespace RcControl.Mmal

open RcControl.Data RcControl.Data.References

/-! Buffer headers: their references are counted, a header may be a replica of another, and
a released one goes back to its pool.  The counts are not protected, so one call follows
the other. -/

variable {Header Pool Payload : Type*}

/-- The type specific data, of a video frame. -/
structure VideoSpecific where
  planes : UInt32
  offset : Fin 4 → UInt32
  pitch : Fin 4 → UInt32
  flags : UInt32

/-- The public fields that are copied into a replica.  `data` is a pointer to a payload. -/
structure Fields (Payload : Type*) where
  cmd : UInt32
  allocSize : UInt32
  data : Option Payload
  offset : UInt32
  length : UInt32
  flags : UInt32
  pts : Int64
  dts : Int64
  type : VideoSpecific

def timeUnknown : Int64 := Int64.ofInt (-2 ^ 63)

/-- `mmal_buffer_header_reset`. -/
def Fields.reset (fields : Fields Payload) : Fields Payload :=
  { fields with length := 0, offset := 0, flags := 0, pts := timeUnknown, dts := timeUnknown }

/-- The pools and the headers that were created with them. -/
structure Pools (Header Pool : Type*) where
  header : Pool → List Header
  owner : Header → Pool
  owned : ∀ pool buffer, buffer ∈ header pool ↔ owner buffer = pool
  distinct : ∀ pool, (header pool).Nodup

/-- What the callbacks of the clients answer while a call runs: whether `pf_pre_release` puts the
release off, and whether the callback of the pool lets the header go back to the queue.
A callback that is not set answers `false` and `true`. -/
structure Callbacks (Header : Type*) where
  preRelease : Header → Bool
  queueBuffer : Header → Bool

/-- `refcount` is an `int32_t`.  `held` counts the references that the callers have to give back,
and `delayed` lists the headers whose release was put off. -/
structure Buffers (Header Pool Payload : Type*) where
  refcount : Header → Int
  reference : Header → Option Header
  fields : Header → Fields Payload
  queue : Pool → List Header
  held : Header → Nat
  delayed : List Header

namespace Buffers

/-- After `mmal_pool_create` for each pool. -/
def create (pools : Pools Header Pool) (fields : Header → Fields Payload) :
    Buffers Header Pool Payload where
  refcount _ := 1
  reference _ := none
  fields := fields
  queue := pools.header
  held _ := 0
  delayed := []

variable [DecidableEq Header]

/-- `mmal_buffer_header_acquire`. -/
def acquire (buffers : Buffers Header Pool Payload) (header : Header) : Buffers Header Pool Payload :=
  { buffers with
    refcount := Function.update buffers.refcount header ((buffers.refcount header + 1).bmod (2 ^ 32)) }

def drop (buffers : Buffers Header Pool Payload) (header : Header) : Buffers Header Pool Payload :=
  { buffers with
    refcount := Function.update buffers.refcount header ((buffers.refcount header - 1).bmod (2 ^ 32)) }

def hold (buffers : Buffers Header Pool Payload) (header : Header) : Buffers Header Pool Payload :=
  { buffers with held := Function.update buffers.held header (buffers.held header + 1) }

def giveUp (buffers : Buffers Header Pool Payload) (header : Header) : Buffers Header Pool Payload :=
  { buffers with held := Function.update buffers.held header (buffers.held header - 1) }

def reset (buffers : Buffers Header Pool Payload) (header : Header) : Buffers Header Pool Payload :=
  { buffers with fields := Function.update buffers.fields header (buffers.fields header).reset }

/-- `mmal_buffer_header_replicate`; the status is `MMAL_EINVAL` if `false`. -/
def replicate (buffers : Buffers Header Pool Payload) (dest src : Header) :
    Buffers Header Pool Payload × Bool :=
  if buffers.reference dest ≠ none then (buffers, false)
  else
    let buffers := buffers.acquire src
    ({ buffers with
      reference := Function.update buffers.reference dest (some src)
      fields := Function.update buffers.fields dest (buffers.fields src) }, true)

variable [DecidableEq Pool]

/-- `mmal_pool_buffer_header_release`, once `reference` has been cleared.  A header that the
callback keeps is the client's. -/
def recycle (pools : Pools Header Pool) (callbacks : Callbacks Header)
    (buffers : Buffers Header Pool Payload) (header : Header) : Buffers Header Pool Payload :=
  let buffers := { buffers with
    reference := Function.update buffers.reference header none
    refcount := Function.update buffers.refcount header 1 }
  if callbacks.queueBuffer header then
    { buffers with
      queue := Function.update buffers.queue (pools.owner header)
        (buffers.queue (pools.owner header) ++ [header]) }
  else buffers.hold header

/-- `mmal_buffer_header_release_continue`, given how the reference is released. -/
def continueWith (pools : Pools Header Pool) (callbacks : Callbacks Header)
    (release : Buffers Header Pool Payload → Header → Option (Buffers Header Pool Payload))
    (buffers : Buffers Header Pool Payload) (header : Header) : Option (Buffers Header Pool Payload) :=
  match buffers.reference header with
  | none => some ((buffers.reset header).recycle pools callbacks header)
  | some reference =>
      (release (buffers.reset header) reference).map fun buffers => buffers.recycle pools callbacks header

/-- `mmal_buffer_header_release`; `none` if the calls nest deeper than so many. -/
def release (pools : Pools Header Pool) (callbacks : Callbacks Header) :
    Nat → Buffers Header Pool Payload → Header → Option (Buffers Header Pool Payload)
  | 0, _, _ => none
  | depth + 1, buffers, header =>
      let buffers := buffers.drop header
      if buffers.refcount header ≠ 0 then some buffers
      else if callbacks.preRelease header then
        some { buffers with delayed := header :: buffers.delayed }
      else buffers.continueWith pools callbacks (release pools callbacks depth) header

end Buffers

inductive BufferCall (Header Pool : Type*) where
  /-- `mmal_queue_get` from the queue of a pool. -/
  | get (pool : Pool)
  | acquire (header : Header)
  | release (header : Header) (callbacks : Callbacks Header)
  | replicate (dest src : Header)
  | releaseContinue (header : Header) (callbacks : Callbacks Header)

namespace Buffers

variable [DecidableEq Header] [DecidableEq Pool] [Fintype Header]

/-- A call, with what it does to the references that the callers hold; `none` if it does not
return. -/
def call (pools : Pools Header Pool) (buffers : Buffers Header Pool Payload) :
    BufferCall Header Pool → Option (Buffers Header Pool Payload)
  | .get pool =>
      match buffers.queue pool with
      | [] => some buffers
      | header :: rest => some ({ buffers with queue := Function.update buffers.queue pool rest }.hold header)
  | .acquire header => some ((buffers.acquire header).hold header)
  | .release header callbacks =>
      (buffers.giveUp header).release pools callbacks (Fintype.card Header) header
  | .replicate dest src => some (buffers.replicate dest src).1
  | .releaseContinue header callbacks =>
      { buffers with delayed := buffers.delayed.erase header }.continueWith pools callbacks
        (release pools callbacks (Fintype.card Header)) header

/-- The count of a header can go up by one. -/
def HasRoom (buffers : Buffers Header Pool Payload) (header : Header) : Prop :=
  buffers.refcount header + 1 < 2 ^ 31

/-- Callers give back what they hold, replicate what they hold into another header that is theirs
alone, complete a release that was put off once, and count no further than an `int32_t` does. -/
def Owes (buffers : Buffers Header Pool Payload) : BufferCall Header Pool → Prop
  | .get _ => True
  | .acquire header => 0 < buffers.held header ∧ buffers.HasRoom header
  | .release header _ => 0 < buffers.held header
  | .replicate dest src =>
      0 < buffers.held dest ∧ buffers.refcount dest = 1 ∧ 0 < buffers.held src ∧ dest ≠ src ∧
        buffers.HasRoom src
  | .releaseContinue header _ => header ∈ buffers.delayed

instance (buffers : Buffers Header Pool Payload) : DecidablePred buffers.HasRoom := fun _ =>
  inferInstanceAs (Decidable (_ < _))

instance (buffers : Buffers Header Pool Payload) : DecidablePred buffers.Owes
  | .get _ => .isTrue trivial
  | .acquire _ => inferInstanceAs (Decidable (_ ∧ _))
  | .release _ _ => inferInstanceAs (Decidable (0 < buffers.held _))
  | .replicate _ _ => inferInstanceAs (Decidable (_ ∧ _))
  | .releaseContinue _ _ => inferInstanceAs (Decidable (_ ∈ buffers.delayed))

end Buffers

/-- The calls of the clients, one after the other. -/
def bufferCalls [DecidableEq Header] [DecidableEq Pool] [Fintype Header] (pools : Pools Header Pool)
    (Payload : Type*) : Machine (Buffers Header Pool Payload) (BufferCall Header Pool) Unit where
  next buffers call := (buffers.call pools call).getD buffers
  emit _ _ := ()

end RcControl.Mmal
