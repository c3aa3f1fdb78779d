import RcControl.Stream.Server

namespace RcControl.Stream

open RcControl.Data

/-! The burst a joining client is sent.

`addVideo` sets the packetizer up for `Separator::Length`, so a message is read as
length-prefixed records.  The cache keeps units without their prefix and
`initialNALUS` concatenates them as they are. -/

def KeyFrameCache.units (cache : KeyFrameCache) : List (List UInt8) :=
  [cache.previousUnitType7, cache.previousUnitType8, cache.previousUnitType5].reduceOption

def BurstDecodes [RtpClock] (frame : Frame) (video : ClientTrackData) : Prop :=
  Framing.decode (initialNALUS frame.cache) = some frame.cache.units ∧
    ∀ message ∈ (sendInitialNalus frame video).2,
      Framing.decode message.2 = some frame.cache.units

theorem insertUnit_eq (units : List UInt8) (nalu : Option (List UInt8)) :
    insertUnit units nalu = units ++ nalu.getD [] := by
  cases nalu with
  | none => exact (List.append_nil units).symm
  | some nalu => rfl

theorem initialNALUS_eq (cache : KeyFrameCache) : initialNALUS cache = cache.units.flatten := by
  obtain ⟨unit5, unit7, unit8⟩ := cache
  simp only [initialNALUS, insertUnit_eq, KeyFrameCache.units]
  cases unit7 <;> cases unit8 <;> cases unit5 <;> simp [List.reduceOption_cons_of_none]

theorem sendInitialNalus_data [RtpClock] (frame : Frame) (video : ClientTrackData) :
    ∀ message ∈ (sendInitialNalus frame video).2, message.2 = initialNALUS frame.cache := by
  simp only [sendInitialNalus]
  split
  · simp
  · simp

/-- Bare units never read back as records: the four bytes of each length are missing. -/
theorem decode_flatten_iff (units : List (List UInt8)) :
    Framing.decode units.flatten = some units ↔ units = [] := by
  apply Iff.intro
  · intro decoded
    have size := congrArg List.length (Framing.encode_of_decode decoded)
    rw [Framing.encode_length, List.length_flatten, List.sum_map_add, List.map_const',
      List.sum_replicate, smul_eq_mul] at size
    exact List.eq_nil_of_length_eq_zero (by omega)
  · intro empty
    subst empty
    rw [List.flatten_nil, Framing.decode]

/-- A join burst decodes to the cached units exactly when there are none. -/
theorem burstDecodes_iff [RtpClock] (frame : Frame) (video : ClientTrackData) :
    BurstDecodes frame video ↔
      frame.cache.previousUnitType7 = none ∧ frame.cache.previousUnitType8 = none ∧
        frame.cache.previousUnitType5 = none := by
  have empty : frame.cache.units = [] ↔ frame.cache.previousUnitType7 = none ∧
      frame.cache.previousUnitType8 = none ∧ frame.cache.previousUnitType5 = none := by
    simp only [KeyFrameCache.units, List.reduceOption, List.filterMap_eq_nil_iff, List.mem_cons,
      List.not_mem_nil, or_false, forall_eq_or_imp, forall_eq, id_eq]
  rw [← empty, ← decode_flatten_iff, ← initialNALUS_eq]
  refine and_iff_left_of_imp fun decoded message member => ?_
  rw [sendInitialNalus_data frame video message member, decoded]

attribute [local instance] RtpClock.exact in
theorem burst_not_decodes :
    ¬ ∀ (frame : Frame) (video : ClientTrackData),
      (∀ unit ∈ frame.cache.units, unit ≠ [] ∧ unit.length < 2 ^ 32) → BurstDecodes frame video := by
  intro decodes
  let video : ClientTrackData :=
    { sender :=
        { rtpConfig := { startTimestamp := 0, timestamp := 0 }
          lastReportedTimestamp := 0
          needsToReport := false } }
  let frame : Frame :=
    { Frame.initial (fun _ => 0) with
      cache :=
        { previousUnitType5 := none, previousUnitType7 := some [0x67], previousUnitType8 := none } }
  have burst := (decodes frame video (by simp [frame, KeyFrameCache.units, List.reduceOption])).1
  exact absurd burst (by decide +kernel)

end RcControl.Stream
