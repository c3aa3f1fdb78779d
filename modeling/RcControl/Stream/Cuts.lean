import RcControl.Data.StreamCuts
import RcControl.H264.FramedSize
import RcControl.Stream.Grouping
import RcControl.Stream.RoundTrip

namespace RcControl.Stream

open RcControl.Data RcControl.H264

/-! A stream cut into encoder buffers at arbitrary places.

The scanner reads each buffer on its own.  The unit a buffer ends in is closed at the
end of the buffer, and what the next buffer holds in front of its first code is in no
unit.  A buffer of fewer than three bytes repeats the offsets of the one before it. -/

/-- What one buffer carries of a stream; it is not flagged as configuration. -/
structure Piece where
  bytes : List UInt8
  flags : UInt32
  notConfig : flags &&& mmalBufferHeaderFlagConfig = 0

/-- A byte stream of units and the pieces it is cut into. -/
structure Cutting where
  units : List StreamUnit
  pieces : List Piece
  whole : pieces.flatMap (·.bytes) = stream units

/-- The memory behind the bytes of a piece may hold anything. -/
def Carries (buffer : MmalBufferHeader) (piece : Piece) : Prop :=
  buffer.offset = 0 ∧ buffer.flags = piece.flags ∧ buffer.bytes = piece.bytes

/-- However the buffers of the pieces come to be sent to a client that is always ready, no
write leaves `s_buf` and the samples decode to the payloads of the stream. -/
def Cutting.Invariant [RtpClock] (cutting : Cutting) : Prop :=
  ∀ startTimestamp id server events cells,
    server.frame = Frame.initial cells →
    List.Forall₂ Carries (buffersOf events) cutting.pieces →
    (streamServer startTimestamp).Along (fun server _ => server.Ready id) server events →
    (streamServer startTimestamp).Along Server.Fits server events ∧
      ∃ decoded : List (List (List UInt8)),
        (samplesTo startTimestamp id server events).map Framing.decode = decoded.map some ∧
        decoded.flatten = cutting.units.map StreamUnit.payload

def Piece.HoldsUnits (piece : Piece) : Prop :=
  ∃ units : List StreamUnit, units ≠ [] ∧ piece.bytes = stream units

/-- After leading pieces of at most one byte in all, each piece holds whole units. -/
def Aligned (pieces : List Piece) : Prop :=
  ∃ lead rest, pieces = lead ++ rest ∧ (lead.flatMap (·.bytes)).length ≤ 1 ∧
    ∀ piece ∈ rest, piece.HoldsUnits

def FitsEach (pieces : List Piece) : Prop :=
  ∀ piece ∈ pieces, framedSize piece.bytes ≤ sBufCapacity

/-- A piece in memory that holds one byte everywhere behind it. -/
def Piece.buffer (behind : UInt8) (piece : Piece) : MmalBufferHeader where
  data address := piece.bytes.getD address behind
  offset := 0
  length := piece.bytes.length
  flags := piece.flags
  pts := 0

theorem Piece.carries_buffer (behind : UInt8) (piece : Piece) :
    Carries (piece.buffer behind) piece := by
  have same : (piece.buffer behind).bytes = piece.bytes := by
    apply List.ext_getElem (by simp [MmalBufferHeader.bytes, Piece.buffer])
    intro index _ bound
    simp [MmalBufferHeader.bytes, Piece.buffer, window, bound]
  exact ⟨rfl, rfl, same⟩

theorem Piece.buffer_behind (behind : UInt8) (piece : Piece) {address : Nat}
    (beyond : piece.bytes.length ≤ address) : (piece.buffer behind).data address = behind :=
  List.getD_eq_default _ _ beyond

theorem carries_buffers (behind : UInt8) (pieces : List Piece) :
    List.Forall₂ Carries (pieces.map (Piece.buffer behind)) pieces := by
  rw [List.forall₂_map_left_iff, List.forall₂_same]
  exact fun piece _ => piece.carries_buffer behind

theorem Carries.config {piece : Piece} {buffer : MmalBufferHeader}
    (carries : Carries buffer piece) : buffer.config = false := by
  rw [MmalBufferHeader.config, carries.2.1, piece.notConfig]
  rfl

/-- The payloads a run appends to its frames, one after the other. -/
def delivered (naluIndices : List NaluIndex) (buffers : List MmalBufferHeader) :
    List (List UInt8) :=
  (batches naluIndices buffers).flatMap (·.2)

/-- Whatever stands behind the pieces, their buffers deliver these payloads. -/
def Delivers (naluIndices : List NaluIndex) (pieces : List Piece)
    (payloads : List (List UInt8)) : Prop :=
  ∀ buffers, List.Forall₂ Carries buffers pieces → delivered naluIndices buffers = payloads

/-- The last offset of a scan lies behind a code and has bytes behind it. -/
def Closed (naluIndices : List NaluIndex) : Prop :=
  ∀ last ∈ naluIndices.getLast?, 3 ≤ last.payloadStartOffset ∧ 0 < last.payloadSize

section Scan

variable (naluIndices : List NaluIndex) {buffer : MmalBufferHeader}

theorem entries_length (bytes : List UInt8) (finish : Nat) (positions : List Nat) :
    (entries bytes finish positions).length = positions.length := by
  match positions with
  | [] => rfl
  | [_] => rfl
  | _ :: next :: rest =>
      rw [entries, List.length_cons, entries_length bytes finish (next :: rest)]
      rfl

variable {naluIndices} in
theorem findNaluIndices_closed (closed : Closed naluIndices) (bytes : List UInt8) :
    Closed (findNaluIndices naluIndices bytes) := by
  by_cases enough : kNaluShortStartSequenceSize ≤ bytes.length
  · rw [findNaluIndices_eq_entries _ enough]
    intro last found
    rcases List.eq_nil_or_concat (codes bytes) with none | ⟨positions, position, some_code⟩
    · rw [none] at found
      cases found
    · rw [List.concat_eq_append] at some_code
      have code : CodeAt bytes position := mem_codes.mp (by rw [some_code]; simp)
      have bound := code.1
      rw [some_code, entries_concat, List.getLast?_concat] at found
      cases found
      exact ⟨by simp, by dsimp only; omega⟩
  · rwa [findNaluIndices_short _ (Nat.lt_of_not_le enough)]

theorem appended_length (enough : kNaluShortStartSequenceSize ≤ buffer.bytes.length) :
    (appended naluIndices buffer).length = (codes buffer.bytes).length := by
  rw [appended, findNaluIndices_eq_entries _ enough, List.length_map, entries_length]

theorem appended_nil (short : buffer.bytes.length < kNaluShortStartSequenceSize) :
    appended [] buffer = [] := by
  rw [appended, findNaluIndices_short _ short]
  rfl

/-- The last unit of a buffer reaches to the end of the buffer. -/
theorem appended_last (enough : kNaluShortStartSequenceSize ≤ buffer.bytes.length)
    {positions : List Nat} {position : Nat} (found : codes buffer.bytes = positions ++ [position]) :
    ∃ payload, (appended naluIndices buffer)[positions.length]? = some payload ∧
      payload.length = buffer.bytes.length - (position + 3) := by
  have last : (appended naluIndices buffer)[positions.length]? =
      some (window buffer.data (position + 3) (buffer.bytes.length - (position + 3))) := by
    rw [appended, findNaluIndices_eq_entries _ enough, found, entries_concat, List.map_append,
      List.map_singleton, List.getElem?_append_right (by rw [List.length_map, entries_length]),
      List.length_map, entries_length, Nat.sub_self]
    rfl
  exact ⟨_, last, window_length _ _ _⟩

theorem appended_stream {units : List StreamUnit} (some_unit : units ≠ [])
    (carries : buffer.bytes = stream units) :
    appended naluIndices buffer = units.map StreamUnit.payload := by
  have windows := @unitEntries_windows buffer.data buffer.length [] units carries
  rw [appended, carries, findNaluIndices_stream _ some_unit]
  exact windows

theorem appended_framedSize (enough : kNaluShortStartSequenceSize ≤ buffer.bytes.length) :
    (Framing.encode (appended naluIndices buffer)).length = framedSize buffer.bytes := by
  rw [Framing.encode_length, appended, findNaluIndices_eq_entries _ enough, List.map_map,
    ← entries_framedSize]
  simp only [Function.comp_def, window_length]

theorem framedSize_short {bytes : List UInt8} (short : bytes.length < kNaluShortStartSequenceSize) :
    framedSize bytes = 0 := by
  have none : codes bytes = [] := by
    rw [← codesFrom_zero]
    exact codesFrom_of_le (Nat.le_trans (Nat.le_of_lt short) (Nat.le_add_left _ _))
  rw [framedSize, none]

/-- Units that make up the same stream have the same payloads: the scanner finds them. -/
theorem payloads_of_stream_eq {units others : List StreamUnit} (same : stream units = stream others) :
    units.map StreamUnit.payload = others.map StreamUnit.payload := by
  have counts : units.length = others.length := by
    rw [← codes_stream_length, same, codes_stream_length]
  by_cases empty : units = []
  · subst empty
    rw [List.eq_nil_of_length_eq_zero counts.symm]
  · have others_unit : others ≠ [] := by
      intro none
      rw [none] at counts
      exact empty (List.eq_nil_of_length_eq_zero counts)
    let buffer : MmalBufferHeader := .holding (stream units) 0 0
    have carries : buffer.bytes = stream units := MmalBufferHeader.holding_bytes _ _ _
    rw [← appended_stream [] empty carries,
      appended_stream [] others_unit (carries.trans same)]

end Scan

section Delivery

variable {naluIndices : List NaluIndex} {piece : Piece} {pieces : List Piece}
  {payloads : List (List UInt8)}

theorem delivered_cons (buffer : MmalBufferHeader) (buffers : List MmalBufferHeader) :
    delivered naluIndices (buffer :: buffers) =
      appended naluIndices buffer ++ delivered (findNaluIndices naluIndices buffer.bytes) buffers := by
  rw [delivered, batches, List.flatMap_cons]
  rfl

/-- The first piece contributes the same payloads whatever stands behind it. -/
theorem Delivers.cons (delivers : Delivers naluIndices (piece :: pieces) payloads) :
    ∃ own rest, payloads = own ++ rest ∧
      (∀ buffer, Carries buffer piece → appended naluIndices buffer = own) ∧
      Delivers (findNaluIndices naluIndices piece.bytes) pieces rest := by
  have split : ∀ buffer buffers, Carries buffer piece → List.Forall₂ Carries buffers pieces →
      appended naluIndices buffer ++
        delivered (findNaluIndices naluIndices piece.bytes) buffers = payloads := by
    intro buffer buffers first others
    have whole := delivers (buffer :: buffers) (.cons first others)
    rwa [delivered_cons, first.2.2] at whole
  have sample := split (piece.buffer 0) (pieces.map (Piece.buffer 0)) (piece.carries_buffer 0)
    (carries_buffers 0 pieces)
  have constant (buffer) (carries : Carries buffer piece) :
      appended naluIndices buffer = appended naluIndices (piece.buffer 0) := by
    have other := split buffer _ carries (carries_buffers 0 pieces)
    exact List.append_cancel_right (other.trans sample.symm)
  have others (buffers) (carried : List.Forall₂ Carries buffers pieces) :
      delivered (findNaluIndices naluIndices piece.bytes) buffers =
        delivered (findNaluIndices naluIndices piece.bytes) (pieces.map (Piece.buffer 0)) := by
    have other := split (piece.buffer 0) buffers (piece.carries_buffer 0) carried
    exact List.append_cancel_left (other.trans sample.symm)
  exact ⟨_, _, sample.symm, constant, others⟩

/-- A buffer of fewer than three bytes reads behind its bytes, unless nothing was found before. -/
theorem short_after_nothing (closed : Closed naluIndices)
    (short : piece.bytes.length < kNaluShortStartSequenceSize) {own : List (List UInt8)}
    (constant : ∀ buffer, Carries buffer piece → appended naluIndices buffer = own) :
    naluIndices = [] := by
  rcases List.eq_nil_or_concat naluIndices with none | ⟨front, last, rfl⟩
  · exact none
  · exfalso
    rw [List.concat_eq_append] at closed constant
    obtain ⟨behind, some_byte⟩ := closed last (List.getLast?_concat ..)
    have reads : ∀ byte, own.getLast?.bind (·.head?) = some byte := by
      intro byte
      have same := constant (piece.buffer byte) (piece.carries_buffer byte)
      rw [appended, (piece.carries_buffer byte).2.2, findNaluIndices_short _ short, List.map_append,
        List.map_singleton] at same
      obtain ⟨count, size⟩ := Nat.exists_eq_add_of_le' some_byte
      rw [← same, List.getLast?_concat, Option.bind_some, size, window, List.range_succ_eq_map,
        List.map_cons, List.head?_cons, Nat.add_zero,
        piece.buffer_behind byte (Nat.le_of_lt (Nat.lt_of_lt_of_le short behind))]
    have clash := (reads 0).symm.trans (reads 1)
    exact absurd clash (by decide)

theorem own_length_le (closed : Closed naluIndices) {own : List (List UInt8)}
    (constant : ∀ buffer, Carries buffer piece → appended naluIndices buffer = own) :
    own.length ≤ (codes piece.bytes).length := by
  have carries := piece.carries_buffer 0
  rw [← constant _ carries]
  by_cases enough : kNaluShortStartSequenceSize ≤ piece.bytes.length
  · rw [appended_length _ (by rwa [carries.2.2]), carries.2.2]
  · have short := Nat.lt_of_not_le enough
    rw [short_after_nothing closed short constant, appended_nil (by rwa [carries.2.2])]
    exact Nat.zero_le _

theorem delivers_length_le (closed : Closed naluIndices)
    (delivers : Delivers naluIndices pieces payloads) :
    payloads.length ≤ (codes (pieces.flatMap (·.bytes))).length := by
  induction pieces generalizing naluIndices payloads with
  | nil =>
      have nothing : delivered naluIndices [] = payloads := delivers [] .nil
      rw [← nothing]
      exact Nat.zero_le _
  | cons piece pieces ih =>
      obtain ⟨own, rest, rfl, constant, others⟩ := delivers.cons
      have first := own_length_le closed constant
      have later := ih (findNaluIndices_closed closed piece.bytes) others
      have total := codes_append_length_le piece.bytes (pieces.flatMap (·.bytes))
      rw [List.length_append, List.flatMap_cons]
      omega

end Delivery

section Necessary

variable {naluIndices : List NaluIndex} {piece : Piece} {pieces : List Piece}
  {units : List StreamUnit}

/-- What the pieces from here on must look like for the units from here on to be delivered. -/
def AlignedFor (naluIndices : List NaluIndex) (pieces : List Piece) (units : List StreamUnit) : Prop :=
  ∃ lead rest, pieces = lead ++ rest ∧ (∀ piece ∈ rest, piece.HoldsUnits) ∧
    (naluIndices ≠ [] → lead = []) ∧
    (lead.flatMap (·.bytes) = [] ∨
      (lead.flatMap (·.bytes)).length = 1 ∧ ∃ unit ∈ units.head?, unit.long = true)

/-- Pieces behind a cut that has lost a code carry too few codes for the units. -/
theorem not_delivers_lost (closed : Closed naluIndices) {front : List UInt8} {unit : StreamUnit}
    (whole : front ++ pieces.flatMap (·.bytes) = stream (unit :: units))
    (lost : unit.codeLength - 3 < front.length) :
    ¬ Delivers naluIndices pieces ((unit :: units).map StreamUnit.payload) := by
  intro delivers
  have few := delivers_length_le closed delivers
  have code := (unit.codeAt_append (stream units) (unit.codeLength - 3)).mpr (.inl rfl)
  rw [← stream_cons, ← whole] at code
  have fewer := codes_length_lt code lost
  rw [whole, codes_stream_length] at fewer
  rw [List.length_map] at few
  omega

theorem AlignedFor.cons_silent (aligned : AlignedFor [] pieces units) (silent : piece.bytes = []) :
    AlignedFor [] (piece :: pieces) units := by
  obtain ⟨lead, rest, rfl, holds, -, ending⟩ := aligned
  have same : (piece :: lead).flatMap (·.bytes) = lead.flatMap (·.bytes) := by
    rw [List.flatMap_cons, silent, List.nil_append]
  rw [← same] at ending
  exact ⟨piece :: lead, rest, rfl, holds, fun some_index => absurd rfl some_index, ending⟩

/-- The first zero byte of a four-byte code may stand in a piece of its own. -/
theorem AlignedFor.cons_zero {unit : StreamUnit} (long : unit.long = true)
    (aligned : AlignedFor [] pieces (unit.shortened :: units)) (zero : piece.bytes = [0]) :
    AlignedFor [] (piece :: pieces) (unit :: units) := by
  obtain ⟨lead, rest, rfl, holds, -, ending⟩ := aligned
  have silent : lead.flatMap (·.bytes) = [] := by
    rcases ending with silent | ⟨-, head, isHead, headLong⟩
    · exact silent
    · cases isHead
      cases headLong
  have single : ((piece :: lead).flatMap (·.bytes)).length = 1 := by
    rw [List.flatMap_cons, zero, silent]
    rfl
  exact ⟨piece :: lead, rest, rfl, holds, fun some_index => absurd rfl some_index,
    .inr ⟨single, unit, rfl, long⟩⟩

theorem AlignedFor.cons_units {next : List NaluIndex} {group : List StreamUnit}
    (aligned : AlignedFor next pieces units) (found : next ≠ []) (some_unit : group ≠ [])
    (own : piece.bytes = stream group) :
    AlignedFor naluIndices (piece :: pieces) (group ++ units) := by
  obtain ⟨lead, rest, rfl, holds, noLead, -⟩ := aligned
  obtain rfl := noLead found
  have holdsAll := List.forall_mem_cons.mpr ⟨⟨group, some_unit, own⟩, holds⟩
  exact ⟨[], piece :: rest, rfl, holdsAll, fun _ => rfl, .inl rfl⟩

/-- What a buffer of fewer than three bytes holds of a unit is a zero byte in front of a
three-byte code: anything more would lose the code. -/
theorem zero_of_delivers (closed : Closed naluIndices) {bytes : List UInt8} {unit : StreamUnit}
    (some_byte : bytes ≠ []) (whole : bytes ++ pieces.flatMap (·.bytes) = stream (unit :: units))
    (delivers : Delivers naluIndices pieces ((unit :: units).map StreamUnit.payload)) :
    unit.long = true ∧ bytes = [0] ∧
      pieces.flatMap (·.bytes) = stream (unit.shortened :: units) := by
  have kept : ¬ unit.codeLength - 3 < bytes.length :=
    fun lost => not_delivers_lost closed whole lost delivers
  cases bytes with
  | nil => exact absurd rfl some_byte
  | cons byte bytes =>
      rw [List.length_cons, StreamUnit.codeLength] at kept
      cases long : unit.long with
      | false =>
          rw [long, if_neg (by decide)] at kept
          omega
      | true =>
          rw [long, if_pos rfl] at kept
          obtain rfl : bytes = [] := List.eq_nil_of_length_eq_zero (by omega)
          rw [stream_long long] at whole
          obtain ⟨rfl, behind⟩ := List.cons.inj whole
          exact ⟨rfl, rfl, behind⟩

/-- The bytes of a piece with no code are in no unit, or repeat one. -/
theorem codes_of_delivers (closed : Closed naluIndices)
    (enough : kNaluShortStartSequenceSize ≤ piece.bytes.length)
    (whole : piece.bytes ++ pieces.flatMap (·.bytes) = stream units)
    (delivers : Delivers naluIndices (piece :: pieces) (units.map StreamUnit.payload)) :
    codes piece.bytes ≠ [] := by
  intro none
  obtain ⟨own, rest, payloads, constant, others⟩ := delivers.cons
  have nothing : own = [] := by
    have few := own_length_le closed constant
    rw [none] at few
    exact List.eq_nil_of_length_eq_zero (Nat.le_zero.mp few)
  rw [nothing, List.nil_append] at payloads
  subst payloads
  cases units with
  | nil =>
      have empty := (List.append_eq_nil_iff.mp whole).1
      rw [empty] at enough
      cases enough
  | cons unit units =>
      have size : unit.codeLength ≤ 4 := by
        unfold StreamUnit.codeLength
        split <;> omega
      have lost : unit.codeLength - 3 < piece.bytes.length :=
        Nat.lt_of_lt_of_le (show unit.codeLength - 3 < 3 by omega) enough
      exact not_delivers_lost (findNaluIndices_closed closed piece.bytes) whole lost others

/-- The unit a piece ends in is delivered whole. -/
theorem last_unit_of_delivers (enough : kNaluShortStartSequenceSize ≤ piece.bytes.length)
    (delivers : Delivers naluIndices (piece :: pieces) (units.map StreamUnit.payload))
    {positions : List Nat} {position : Nat} (found : codes piece.bytes = positions ++ [position]) :
    ∃ unit, units[positions.length]? = some unit ∧
      piece.bytes.length - (position + 3) = unit.payload.length := by
  obtain ⟨own, rest, payloads, constant, -⟩ := delivers.cons
  have carries := piece.carries_buffer 0
  rw [← carries.2.2] at enough found
  obtain ⟨last, here, size⟩ := appended_last naluIndices enough found
  rw [constant _ carries] at here
  have among : (units.map StreamUnit.payload)[positions.length]? = some last := by
    have bound := (List.getElem?_eq_some_iff.mp here).1
    rw [payloads, List.getElem?_append_left bound, here]
  rw [List.getElem?_map, Option.map_eq_some_iff] at among
  obtain ⟨unit, isUnit, rfl⟩ := among
  rw [carries.2.2] at size
  exact ⟨unit, isUnit, size.symm⟩

theorem aligned_of_delivers (closed : Closed naluIndices)
    (whole : pieces.flatMap (·.bytes) = stream units)
    (delivers : Delivers naluIndices pieces (units.map StreamUnit.payload)) :
    AlignedFor naluIndices pieces units := by
  induction pieces generalizing naluIndices units with
  | nil => exact ⟨[], [], rfl, by simp, fun _ => rfl, .inl rfl⟩
  | cons piece pieces ih =>
      obtain ⟨own, rest, payloads, constant, others⟩ := delivers.cons
      have closedNext := findNaluIndices_closed closed piece.bytes
      have carries := piece.carries_buffer 0
      rw [List.flatMap_cons] at whole
      by_cases short : piece.bytes.length < kNaluShortStartSequenceSize
      · obtain rfl := short_after_nothing closed short constant
        have nothing : own = [] := by
          rw [← constant _ carries, appended_nil (by rwa [carries.2.2])]
        rw [nothing, List.nil_append] at payloads
        subst payloads
        rw [findNaluIndices_short _ short] at others
        by_cases silent : piece.bytes = []
        · rw [silent, List.nil_append] at whole
          exact (ih closed whole others).cons_silent silent
        · cases units with
          | nil => exact absurd (List.append_eq_nil_iff.mp whole).1 silent
          | cons unit units =>
              obtain ⟨long, zero, behind⟩ := zero_of_delivers closed silent whole others
              exact (ih closed behind others).cons_zero long zero
      · have enough := Nat.le_of_not_lt short
        have some_code := codes_of_delivers closed enough whole delivers
        rcases stream_cut_last whole some_code with ⟨front, back, rfl, some_unit, holds, remains⟩ |
            ⟨positions, position, found, mismatch⟩
        · have first : own = front.map StreamUnit.payload := by
            rw [← constant _ carries, appended_stream _ some_unit (carries.2.2.trans holds)]
          rw [List.map_append, first] at payloads
          obtain rfl := List.append_cancel_left payloads
          have some_index : findNaluIndices naluIndices piece.bytes ≠ [] := by
            rw [findNaluIndices_eq_entries _ enough]
            exact mt entries_eq_nil_iff.mp some_code
          exact (ih closedNext remains others).cons_units some_index some_unit holds
        · obtain ⟨unit, isUnit, size⟩ := last_unit_of_delivers enough delivers found
          exact absurd size (mismatch unit isUnit)

end Necessary

section Sufficient

variable {naluIndices : List NaluIndex} {pieces lead rest : List Piece} {units : List StreamUnit}
  {buffers : List MmalBufferHeader}

def BatchesFit (batches : List (Bool × List (List UInt8))) : Prop :=
  ∀ batch ∈ batches, (Framing.encode batch.2).length ≤ sBufCapacity

/-- While nothing has been found, buffers of fewer than three bytes deliver nothing. -/
theorem batches_lead (small : ∀ piece ∈ lead, piece.bytes.length < kNaluShortStartSequenceSize)
    (carried : List.Forall₂ Carries buffers lead) :
    batches [] buffers = lead.map (fun _ => (false, [])) ∧
      scanner.run [] (buffers.map (·.bytes)) = [] := by
  induction carried with
  | nil => exact ⟨rfl, rfl⟩
  | @cons buffer piece buffers lead carries _ ih =>
      obtain ⟨short, smallRest⟩ := List.forall_mem_cons.mp small
      rw [← carries.2.2] at short
      obtain ⟨silent, kept⟩ := ih smallRest
      have nothing : findNaluIndices [] buffer.bytes = [] := findNaluIndices_short [] short
      have still : scanner.run [] ((buffer :: buffers).map (·.bytes)) = [] := by
        change scanner.run (findNaluIndices [] buffer.bytes) _ = _
        rw [nothing, kept]
      rw [batches, carries.config, appended_nil short, nothing, silent]
      exact ⟨rfl, still⟩

theorem delivered_units (holds : ∀ piece ∈ pieces, piece.HoldsUnits) :
    ∃ units, pieces.flatMap (·.bytes) = stream units ∧
      ∀ naluIndices buffers, List.Forall₂ Carries buffers pieces →
        delivered naluIndices buffers = units.map StreamUnit.payload ∧
          (BatchesFit (batches naluIndices buffers) ↔ FitsEach pieces) := by
  induction pieces with
  | nil =>
      use [], rfl
      intro naluIndices buffers carried
      cases carried
      exact ⟨rfl, by simp [BatchesFit, FitsEach, batches]⟩
  | cons piece pieces ih =>
      obtain ⟨⟨group, some_unit, own⟩, holdsRest⟩ := List.forall_mem_cons.mp holds
      obtain ⟨units, whole, others⟩ := ih holdsRest
      have together : (piece :: pieces).flatMap (·.bytes) = stream (group ++ units) := by
        rw [List.flatMap_cons, own, whole, stream, stream, stream, List.flatMap_append]
      use group ++ units, together
      intro naluIndices buffers carried
      cases carried with
      | @cons buffer _ buffers _ carries carried =>
          obtain ⟨later, fits⟩ := others (findNaluIndices naluIndices buffer.bytes) buffers carried
          have content := carries.2.2.trans own
          have enough : kNaluShortStartSequenceSize ≤ buffer.bytes.length := by
            rw [content]
            exact length_stream_pos some_unit
          have size := appended_framedSize naluIndices enough
          constructor
          · rw [delivered_cons, later, appended_stream _ some_unit content, List.map_append]
          · rw [BatchesFit, batches, List.forall_mem_cons, FitsEach, List.forall_mem_cons]
            dsimp only
            rw [size, ← carries.2.2]
            exact and_congr_right fun _ => fits

theorem small_of_flatMap {piece : Piece} (total : (lead.flatMap (·.bytes)).length ≤ 1)
    (member : piece ∈ lead) : piece.bytes.length < kNaluShortStartSequenceSize := by
  have part := List.single_le_sum (by simp) _ (List.mem_map_of_mem (f := (·.bytes.length)) member)
  rw [List.length_flatMap] at total
  exact Nat.lt_of_le_of_lt (Nat.le_trans part total) (by decide)

/-- The only byte that stands in front of a stream of the same units is the first zero
byte of a four-byte code. -/
theorem payloads_behind {front : List UInt8} {units others : List StreamUnit}
    (whole : front ++ stream others = stream units) (small : front.length ≤ 1) :
    others.map StreamUnit.payload = units.map StreamUnit.payload := by
  cases front with
  | nil => exact payloads_of_stream_eq whole
  | cons byte front =>
      obtain rfl : front = [] := List.eq_nil_of_length_eq_zero (by simpa using small)
      cases units with
      | nil => cases whole
      | cons unit units =>
          cases long : unit.long with
          | true =>
              rw [stream_long long, List.singleton_append] at whole
              have behind := payloads_of_stream_eq (List.cons.inj whole).2
              exact behind
          | false =>
              -- Behind the first byte of a three-byte code no stream can begin.
              exfalso
              rw [stream_cons, StreamUnit.bytes, StreamUnit.code, long, List.singleton_append] at whole
              have tail := (List.cons.inj whole).2
              cases others with
              | nil => cases tail
              | cons other others =>
                  rw [stream_cons, StreamUnit.bytes, StreamUnit.code] at tail
                  cases otherLong : other.long <;> simp [otherLong] at tail

theorem aligned_delivers (lead_small : (lead.flatMap (·.bytes)).length ≤ 1)
    (holds : ∀ piece ∈ rest, piece.HoldsUnits)
    (whole : (lead ++ rest).flatMap (·.bytes) = stream units)
    (carried : List.Forall₂ Carries buffers (lead ++ rest)) :
    delivered [] buffers = units.map StreamUnit.payload ∧
      (BatchesFit (batches [] buffers) ↔ FitsEach (lead ++ rest)) := by
  obtain ⟨front, back, rfl, carriedFront, carriedBack⟩ : ∃ front back, buffers = front ++ back ∧
      List.Forall₂ Carries front lead ∧ List.Forall₂ Carries back rest :=
    ⟨_, _, (List.take_append_drop lead.length buffers).symm,
      List.forall₂_take_append _ _ _ carried, List.forall₂_drop_append _ _ _ carried⟩
  have small : ∀ piece ∈ lead, piece.bytes.length < kNaluShortStartSequenceSize :=
    fun _ member => small_of_flatMap lead_small member
  obtain ⟨silent, kept⟩ := batches_lead small carriedFront
  obtain ⟨others, restWhole, delivers⟩ := delivered_units holds
  obtain ⟨deliveredBack, fits⟩ := delivers (scanner.run [] (front.map (·.bytes))) back carriedBack
  rw [List.flatMap_append, restWhole] at whole
  have leadFits : ∀ piece ∈ lead, framedSize piece.bytes ≤ sBufCapacity := by
    intro piece member
    rw [framedSize_short (small piece member)]
    exact Nat.zero_le _
  have silentFits : ∀ batch ∈ lead.map (fun _ => (false, ([] : List (List UInt8)))),
      (Framing.encode batch.2).length ≤ sBufCapacity := by
    intro batch member
    obtain ⟨_, _, rfl⟩ := List.mem_map.mp member
    exact Nat.zero_le _
  constructor
  · rw [delivered, batches_append, List.flatMap_append, silent]
    change _ ++ delivered _ back = _
    rw [deliveredBack, payloads_behind whole lead_small]
    simp
  · rw [batches_append, silent, BatchesFit, List.forall_mem_append, FitsEach,
      List.forall_mem_append]
    exact and_congr (iff_of_true silentFits leadFits) fits

theorem delivers_iff (cutting : Cutting) :
    (∀ buffers, List.Forall₂ Carries buffers cutting.pieces →
        BatchesFit (batches [] buffers) ∧
          delivered [] buffers = cutting.units.map StreamUnit.payload) ↔
      Aligned cutting.pieces ∧ FitsEach cutting.pieces := by
  obtain ⟨units, pieces, whole⟩ := cutting
  dsimp only
  apply Iff.intro
  · intro delivers
    have nothing_found : Closed [] := by simp [Closed]
    obtain ⟨lead, rest, rfl, holds, -, ending⟩ := aligned_of_delivers nothing_found whole
      fun buffers carried => (delivers buffers carried).2
    have small : (lead.flatMap (·.bytes)).length ≤ 1 := by
      rcases ending with silent | ⟨single, -⟩
      · rw [silent]
        exact Nat.zero_le _
      · exact Nat.le_of_eq single
    have carried := carries_buffers 0 (lead ++ rest)
    have fits := (aligned_delivers small holds whole carried).2
    exact ⟨⟨lead, rest, rfl, small, holds⟩, fits.mp (delivers _ carried).1⟩
  · intro met buffers carried
    obtain ⟨⟨lead, rest, rfl, small, holds⟩, fitsEach⟩ := met
    obtain ⟨payloads, fits⟩ := aligned_delivers small holds whole carried
    exact ⟨fits.mpr fitsEach, payloads⟩

end Sufficient

section Frames

variable {frame : Frame} {buffers : List MmalBufferHeader}

theorem acceptBuffer_sBufLength_eq (idle : frame.pendingFrame = false) (buffer : MmalBufferHeader) :
    (acceptBuffer frame buffer).sBufLength =
      (Framing.encode (appended frame.naluIndices buffer)).length := by
  have read := congrArg List.length (acceptBuffer_read_appended frame buffer)
  rwa [Memory.read_length, idle, if_neg (by decide), List.nil_append] at read

theorem acceptBuffer_naluIndices (buffer : MmalBufferHeader) :
    (acceptBuffer frame buffer).naluIndices = findNaluIndices frame.naluIndices buffer.bytes := by
  rw [acceptBuffer, foldl_appendNalu_naluIndices, openFrame_naluIndices]

/-- Without configuration buffers, each call sends what it has appended. -/
theorem frames_batches (idle : frame.pendingFrame = false)
    (plain : ∀ buffer ∈ buffers, buffer.config = false) :
    frames.outputs frame buffers =
        ((batches frame.naluIndices buffers).map fun batch => Framing.encode batch.2).map some ∧
      (frames.Along (fun frame buffer => (acceptBuffer frame buffer).sBufLength ≤ sBufCapacity)
        frame buffers ↔ BatchesFit (batches frame.naluIndices buffers)) := by
  induction buffers generalizing frame with
  | nil => exact ⟨rfl, iff_of_true trivial (by simp [BatchesFit, batches])⟩
  | cons buffer buffers ih =>
      obtain ⟨own, others⟩ := List.forall_mem_cons.mp plain
      have idleNext : (acceptBuffer frame buffer).pendingFrame = false := by
        rw [acceptBuffer_pendingFrame, own, Bool.and_false]
      obtain ⟨outputs, fits⟩ := @ih (acceptBuffer frame buffer) idleNext others
      rw [acceptBuffer_naluIndices] at outputs fits
      constructor
      · rw [Machine.outputs_cons, frames_emit_eq, idle, if_neg (by simp [own])]
        change _ :: frames.outputs (acceptBuffer frame buffer) buffers = _
        rw [outputs]
        rfl
      · rw [BatchesFit, batches, List.forall_mem_cons, ← acceptBuffer_sBufLength_eq idle]
        exact and_congr_right fun _ => fits

theorem carried_plain {pieces : List Piece} (carried : List.Forall₂ Carries buffers pieces) :
    ∀ buffer ∈ buffers, buffer.config = false := by
  induction carried with
  | nil => simp
  | cons carries _ ih => exact List.forall_mem_cons.mpr ⟨carries.config, ih⟩

theorem decode_batches {batches : List (Bool × List (List UInt8))} (fits : BatchesFit batches) :
    (batches.map fun batch => Framing.encode batch.2).map Framing.decode =
      (batches.map (·.2)).map some := by
  rw [List.map_map, List.map_map]
  apply List.map_congr_left
  intro batch member
  apply Framing.decode_encode
  intro payload inside
  have size := fits batch member
  have part := List.single_le_sum (by simp) _ (List.mem_map_of_mem (f := (4 + ·.length)) inside)
  rw [Framing.encode_length, sBufCapacity] at size
  omega

theorem ready_along [RtpClock] {id : String} {server : Server} (ready : server.Ready id)
    (startTimestamp : Nat → UInt32) (buffers : List MmalBufferHeader) :
    (streamServer startTimestamp).Along (fun server _ => server.Ready id) server
      (buffers.map .buffer) := by
  induction buffers generalizing server with
  | nil => trivial
  | cons buffer buffers ih => exact ⟨ready, ih (onMmalcamBuffer_ready ready buffer)⟩

theorem buffersOf_map (buffers : List MmalBufferHeader) :
    buffersOf (buffers.map .buffer) = buffers := by
  induction buffers with
  | nil => rfl
  | cons buffer buffers ih => rw [List.map_cons, buffersOf_buffer, ih]

end Frames

theorem invariant_iff_delivers [RtpClock] (cutting : Cutting) :
    cutting.Invariant ↔ ∀ buffers, List.Forall₂ Carries buffers cutting.pieces →
      BatchesFit (batches [] buffers) ∧
        delivered [] buffers = cutting.units.map StreamUnit.payload := by
  have samples : ∀ startTimestamp id server events cells, server.frame = Frame.initial cells →
      List.Forall₂ Carries (buffersOf events) cutting.pieces →
      (streamServer startTimestamp).Along (fun server _ => server.Ready id) server events →
      samplesTo startTimestamp id server events =
          (batches [] (buffersOf events)).map (fun batch => Framing.encode batch.2) ∧
        ((streamServer startTimestamp).Along Server.Fits server events ↔
          BatchesFit (batches [] (buffersOf events))) := by
    intro startTimestamp id server events cells initial carried ready
    have idle : server.frame.pendingFrame = false := by rw [initial]; rfl
    obtain ⟨outputs, fits⟩ := frames_batches idle (carried_plain carried)
    have begins : server.frame.naluIndices = [] := by rw [initial]; rfl
    rw [begins] at outputs fits
    constructor
    · rw [samplesTo_eq_outputs startTimestamp ready, outputs, List.reduceOption, List.filterMap_map]
      exact List.filterMap_some
    · rw [← fits]
      exact along_buffers startTimestamp
        (fun frame buffer => (acceptBuffer frame buffer).sBufLength ≤ sBufCapacity) server events
  apply Iff.intro
  · intro invariant buffers carried
    have joined : oneReadyClient.Ready "a" := by decide
    have ready := ready_along joined (fun _ => 0) buffers
    rw [← buffersOf_map buffers] at carried
    obtain ⟨fitsAlong, decoded, decodes, whole⟩ := invariant _ _ _ _ _ rfl carried ready
    obtain ⟨sent, fits⟩ := samples _ _ _ _ _ rfl carried ready
    rw [buffersOf_map] at sent fits
    have fit := fits.mp fitsAlong
    rw [sent, decode_batches fit] at decodes
    have same := List.map_injective_iff.mpr (Option.some_injective _) decodes
    have payloads : delivered [] buffers = cutting.units.map StreamUnit.payload := by
      rw [← whole, ← same, delivered, List.flatMap]
    exact ⟨fit, payloads⟩
  · intro delivers startTimestamp id server events cells initial carried ready
    obtain ⟨fit, payloads⟩ := delivers _ carried
    obtain ⟨sent, fits⟩ := samples _ _ _ _ _ initial carried ready
    have decodes : (samplesTo startTimestamp id server events).map Framing.decode =
        ((batches [] (buffersOf events)).map (·.2)).map some := by
      rw [sent, decode_batches fit]
    have together : ((batches [] (buffersOf events)).map (·.2)).flatten =
        cutting.units.map StreamUnit.payload := by
      rw [← payloads, delivered, List.flatMap]
    exact ⟨fits.mpr fit, _, decodes, together⟩

/-- The samples of a cut stream decode to its payloads, and stay inside `s_buf`, exactly
when each buffer holds whole units that fit, but for a zero byte in front of them all. -/
theorem cut_invariant_iff [RtpClock] (cutting : Cutting) :
    cutting.Invariant ↔ Aligned cutting.pieces ∧ FitsEach cutting.pieces :=
  (invariant_iff_delivers cutting).trans (delivers_iff cutting)

attribute [local instance] RtpClock.exact in
/-- A unit that is continued in the next buffer. -/
theorem not_cut_invariant : ¬ ∀ cutting : Cutting, cutting.Invariant := by
  intro invariant
  let cutting : Cutting :=
    { units := [.plain true [0x65, 0x88, 0x84] (by simp) (by simp) (by decide)]
      pieces := [⟨[0, 0, 0, 1, 0x65, 0x88], 0, rfl⟩, ⟨[0x84], 4, rfl⟩]
      whole := rfl }
  have delivers := (invariant_iff_delivers cutting).mp (invariant cutting)
    (cutting.pieces.map (Piece.buffer 0)) (carries_buffers 0 _)
  exact absurd delivers.2 (by decide +kernel)

end RcControl.Stream
