import RcControl.Data.CString

namespace RcControl.Camera

open RcControl.Data.CString

/-! `parse_vformat`: which strings name a video format, and what is read of them.

`sscanf` skips blanks and takes signs, and the codec is compared by its first four
characters, so more is accepted than `W x H : codec` alone. -/

inductive Encoding where
  | h263 | mp4v | h264 | jpeg
deriving DecidableEq, Repr

def mmalFourcc (a b c d : Char) : UInt32 :=
  a.val ||| b.val <<< 8 ||| c.val <<< 16 ||| d.val <<< 24

/-- `MMAL_ENCODING_H263` and its siblings. -/
def Encoding.fourcc : Encoding → UInt32
  | .h263 => mmalFourcc 'H' '2' '6' '3'
  | .mp4v => mmalFourcc 'M' 'P' '4' 'V'
  | .h264 => mmalFourcc 'H' '2' '6' '4'
  | .jpeg => mmalFourcc 'J' 'P' 'E' 'G'

def Encoding.name : Encoding → List Char
  | .h263 => "h263".toList
  | .mp4v => "mp4v".toList
  | .h264 => "h264".toList
  | .jpeg => "jpeg".toList

/-- What the three pointers of a caller point to; `none` is a null pointer. -/
structure VformatOutputs where
  outWidth : Option UInt32
  outHeight : Option UInt32
  outEncoding : Option UInt32
deriving DecidableEq, Repr

def VformatOutputs.assign (outputs : VformatOutputs) (width height encoding : UInt32) :
    VformatOutputs where
  outWidth := outputs.outWidth.map fun _ => width
  outHeight := outputs.outHeight.map fun _ => height
  outEncoding := outputs.outEncoding.map fun _ => encoding

/-- What `parse_vformat` returns, what the pointers point to then, and what it wrote to
`stderr`. -/
structure ParsedVformat where
  result : Int
  outputs : VformatOutputs
  errors : List Char
deriving DecidableEq, Repr

def h263Supports (width height : UInt32) : Prop :=
  (width = 128 ∧ height = 96) ∨ (width = 176 ∧ height = 144) ∨ (width = 352 ∧ height = 288) ∨
    (width = 704 ∧ height = 576) ∨ (width = 1408 ∧ height = 1152)

instance (width height : UInt32) : Decidable (h263Supports width height) :=
  inferInstanceAs (Decidable (_ ∨ _))

/-- `"%4ux%4u:%7s"` -/
def scanFormat : List Directive := [.unsigned 4, .char 'x', .unsigned 4, .char ':', .string 7]

def parseVformat (vformat : List Char) (outputs : VformatOutputs) : ParsedVformat :=
  let refuse (error : List Char) : ParsedVformat := ⟨-1, outputs, error⟩
  match sscanf vformat scanFormat with
  | [.unsigned width, .unsigned height, .string vcodec] =>
      let accept (encoding : Encoding) : ParsedVformat :=
        ⟨0, outputs.assign width height encoding.fourcc, []⟩
      if strncasecmp vcodec Encoding.h263.name 4 = 0 then
        if h263Supports width height then accept .h263
        else refuse ("Error, only 128x96, 176x144, 352x288, 704x576 and 1408x1152 ".toList
          ++ "are supported for H263\n".toList)
      else if strncasecmp vcodec Encoding.mp4v.name 4 = 0 then accept .mp4v
      else if strncasecmp vcodec Encoding.h264.name 4 = 0 then accept .h264
      else if strncasecmp vcodec Encoding.jpeg.name 4 = 0 then accept .jpeg
      else refuse ("Error, unknown video encoding: ".toList ++ vcodec ++ ['\n'])
  -- `sscanf` did not return 3.
  | _ => refuse ("Error, malformed or unsupported video format: ".toList ++ vformat ++ ['\n'])

/-- Only H263 is limited to some sizes. -/
def Encoding.Supports (encoding : Encoding) (width height : UInt32) : Prop :=
  encoding = .h263 → h263Supports width height

/-- The string has a size, then the word, and anything behind it.  There may be blanks in
front of the numbers and of the word. -/
def Written (vformat : List Char) (width height : Numeral 4) (word : List Char) : Prop :=
  ∃ lead middle gap tail : List Char,
    (∀ blank ∈ lead, isspace blank = true) ∧ (∀ blank ∈ middle, isspace blank = true) ∧
      (∀ blank ∈ gap, isspace blank = true) ∧
      vformat = lead ++ (width.text ++ 'x' :: (middle ++ (height.text ++ ':' ::
        (gap ++ (word ++ tail)))))

/-- The string names the format: the word is the codec, but for the case. -/
def Names (vformat : List Char) (width height : Numeral 4) (encoding : Encoding) : Prop :=
  (∃ word, Written vformat width height word ∧ word.map Char.toLower = encoding.name) ∧
    encoding.Supports width.value height.value

/-- The string is the size and the codec alone. -/
structure Plain (vformat : List Char) (width height : Numeral 4) (encoding : Encoding) : Prop where
  unsigned : width.sign = [] ∧ height.sign = []
  spelled : ∃ word, vformat = width.text ++ 'x' :: (height.text ++ ':' :: word) ∧
    word.map Char.toLower = encoding.name
  supported : encoding.Supports width.value height.value

/-- How `parse_vformat` answers a string, if these are the formats it is to take. -/
structure Reads (names : List Char → Numeral 4 → Numeral 4 → Encoding → Prop) (vformat : List Char)
    (outputs : VformatOutputs) (parsed : ParsedVformat) : Prop where
  accepted_iff : parsed.result = 0 ↔
    ∃ (width height : Numeral 4) (encoding : Encoding), names vformat width height encoding
  assigned : ∀ (width height : Numeral 4) (encoding : Encoding), names vformat width height encoding →
    parsed.outputs = outputs.assign width.value height.value encoding.fourcc
  decimal : ∀ number : Numeral 4, number.sign ≠ ['-'] →
    number.value.toNat = number.magnitude ∧ number.magnitude ≤ 9999
  negated : ∀ number : Numeral 4, number.sign = ['-'] →
    number.value = -UInt32.ofNat number.magnitude
  refused : parsed.result ≠ 0 → parsed.result = -1 ∧ parsed.outputs = outputs

section Scan

variable {vformat vcodec : List Char}

/-- Three items are assigned only to a string with a size and a word. -/
theorem written_of_sscanf {width height : UInt32}
    (scanned : sscanf vformat scanFormat =
      [.unsigned width, .unsigned height, .string vcodec]) :
    ∃ first second : Numeral 4, first.value = width ∧ second.value = height ∧
      Written vformat first second vcodec := by
  obtain ⟨_, afterWidth, widthRead, widthSame, scanned⟩ := sscanf_unsigned_iff.mp scanned
  obtain ⟨afterX, rfl, scanned⟩ := sscanf_char_iff.mp scanned
  obtain ⟨_, afterHeight, heightRead, heightSame, scanned⟩ := sscanf_unsigned_iff.mp scanned
  obtain ⟨afterColon, rfl, scanned⟩ := sscanf_char_iff.mp scanned
  obtain ⟨_, tail, codecRead, codecSame, -⟩ := sscanf_string_iff.mp scanned
  obtain rfl := Scanned.unsigned.inj widthSame
  obtain rfl := Scanned.unsigned.inj heightSame
  obtain rfl := Scanned.string.inj codecSame
  obtain ⟨lead, first, leadBlank, split, firstValue⟩ := scanUnsigned_sound widthRead
  obtain ⟨middle, second, middleBlank, rfl, secondValue⟩ := scanUnsigned_sound heightRead
  obtain ⟨gap, gapBlank, rfl⟩ := scanString_sound codecRead
  exact ⟨first, second, firstValue, secondValue, lead, middle, gap, tail, leadBlank, middleBlank,
    gapBlank, split⟩

/-- To a string with a size and a short word they are assigned, though the word may be read
on. -/
theorem sscanf_of_written {width height : Numeral 4} {word : List Char}
    (written : Written vformat width height word) (some_char : word ≠ [])
    (unspaced : ∀ char ∈ word, isspace char = false) (short : word.length ≤ 7) :
    ∃ more, sscanf vformat scanFormat =
      [.unsigned width.value, .unsigned height.value, .string (word ++ more)] := by
  obtain ⟨lead, middle, gap, tail, leadBlank, middleBlank, gapBlank, rfl⟩ := written
  obtain ⟨more, rest, codecRead⟩ := scanString_complete gapBlank some_char unspaced short tail
  have heightRead : scanUnsigned 4 (middle ++ (height.text ++ ':' :: (gap ++ (word ++ tail)))) =
      some (height.value, ':' :: (gap ++ (word ++ tail))) :=
    scanUnsigned_complete height middleBlank (by simp)
  have widthRead : scanUnsigned 4 (lead ++ (width.text ++ 'x' :: (middle ++ (height.text ++ ':' ::
      (gap ++ (word ++ tail)))))) =
        some (width.value, 'x' :: (middle ++ (height.text ++ ':' :: (gap ++ (word ++ tail))))) :=
    scanUnsigned_complete width leadBlank (by simp)
  use more
  apply sscanf_unsigned_iff.mpr ⟨_, _, widthRead, rfl, ?_⟩
  apply sscanf_char_iff.mpr ⟨_, rfl, ?_⟩
  apply sscanf_unsigned_iff.mpr ⟨_, _, heightRead, rfl, ?_⟩
  apply sscanf_char_iff.mpr ⟨_, rfl, ?_⟩
  exact sscanf_string_iff.mpr ⟨_, _, codecRead, rfl, rfl⟩

end Scan

section Codec

variable {vcodec : List Char} {encoding other : Encoding}

theorem name_length (encoding : Encoding) : encoding.name.length = 4 := by
  cases encoding <;> rfl

theorem name_lower (encoding : Encoding) : encoding.name.map Char.toLower = encoding.name := by
  cases encoding <;> rfl

theorem name_injective (same : encoding.name = other.name) : encoding = other := by
  cases encoding <;> cases other <;> first | rfl | exact absurd same (by decide)

/-- The comparison looks at the first four characters alone. -/
theorem strncasecmp_name_iff :
    strncasecmp vcodec encoding.name 4 = 0 ↔ (vcodec.take 4).map Char.toLower = encoding.name := by
  have unended : ∀ char ∈ encoding.name, char.toLower.toNat ≠ 0 := by
    cases encoding <;> simp [Encoding.name]
  have compared := @strncasecmp_eq_zero_iff vcodec encoding.name unended
  rwa [name_length, name_lower] at compared

/-- At most one of the codecs is found. -/
theorem strncasecmp_name_ne (matched : strncasecmp vcodec encoding.name 4 = 0)
    (different : encoding ≠ other) : strncasecmp vcodec other.name 4 ≠ 0 := by
  intro again
  rw [strncasecmp_name_iff] at matched again
  exact different (name_injective (matched.symm.trans again))

/-- The characters of a codec are no blanks. -/
theorem unspaced_of_name {word : List Char} (named : word.map Char.toLower = encoding.name) :
    ∀ char ∈ word, isspace char = false := by
  intro char member
  have lowered : char.toLower ∈ encoding.name := by
    rw [← named]
    exact List.mem_map_of_mem member
  have elsewhere : ∀ blank ∈ whitespace, blank.toLower ∉ encoding.name := by
    cases encoding <;> simp [whitespace, Encoding.name]
  by_contra space
  have blank : char ∈ whitespace := isspace_iff.mp (Bool.eq_true_of_not_eq_false space)
  exact elsewhere char blank lowered

end Codec

section Parse

variable {vformat vcodec : List Char} {width height : UInt32} {encoding : Encoding}

/-- The string was scanned to the end, with a codec that is known and supports the size. -/
structure Found (vformat : List Char) (width height : UInt32) (vcodec : List Char)
    (encoding : Encoding) : Prop where
  scanned : sscanf vformat scanFormat = [.unsigned width, .unsigned height, .string vcodec]
  matched : strncasecmp vcodec encoding.name 4 = 0
  supported : encoding.Supports width height

theorem Found.accepted (found : Found vformat width height vcodec encoding)
    (outputs : VformatOutputs) :
    parseVformat vformat outputs = ⟨0, outputs.assign width height encoding.fourcc, []⟩ := by
  obtain ⟨scanned, matched, supported⟩ := found
  have others (other : Encoding) (different : encoding ≠ other) :=
    strncasecmp_name_ne matched different
  simp only [parseVformat, scanned]
  cases encoding with
  | h263 => rw [if_pos matched, if_pos (supported rfl)]
  | mp4v => rw [if_neg (others .h263 (by decide)), if_pos matched]
  | h264 => rw [if_neg (others .h263 (by decide)), if_neg (others .mp4v (by decide)), if_pos matched]
  | jpeg =>
      rw [if_neg (others .h263 (by decide)), if_neg (others .mp4v (by decide)),
        if_neg (others .h264 (by decide)), if_pos matched]

/-- Nothing else is accepted, and what is not accepted leaves the outputs alone. -/
theorem parseVformat_cases (vformat : List Char) (outputs : VformatOutputs) :
    (∃ width height vcodec encoding, Found vformat width height vcodec encoding) ∨
      (parseVformat vformat outputs).result = -1 ∧
        (parseVformat vformat outputs).outputs = outputs := by
  have unlimited {encoding : Encoding} (other : encoding ≠ .h263) (width height : UInt32) :
      encoding.Supports width height := fun h263 => absurd h263 other
  simp only [parseVformat]
  split
  · rename_i width height vcodec scanned
    split
    · rename_i h263
      split
      · rename_i supported
        exact .inl ⟨width, height, vcodec, .h263, scanned, h263, fun _ => supported⟩
      · exact .inr ⟨rfl, rfl⟩
    · split
      · rename_i mp4v
        exact .inl ⟨width, height, vcodec, .mp4v, scanned, mp4v, unlimited (by decide) _ _⟩
      · split
        · rename_i h264
          exact .inl ⟨width, height, vcodec, .h264, scanned, h264, unlimited (by decide) _ _⟩
        · split
          · rename_i jpeg
            exact .inl ⟨width, height, vcodec, .jpeg, scanned, jpeg, unlimited (by decide) _ _⟩
          · exact .inr ⟨rfl, rfl⟩
  · exact .inr ⟨rfl, rfl⟩

theorem Written.take {first second : Numeral 4} {word : List Char}
    (written : Written vformat first second word) (count : Nat) :
    Written vformat first second (word.take count) := by
  obtain ⟨lead, middle, gap, tail, leadBlank, middleBlank, gapBlank, split⟩ := written
  refine ⟨lead, middle, gap, word.drop count ++ tail, leadBlank, middleBlank, gapBlank, ?_⟩
  rw [← List.append_assoc (word.take count), List.take_append_drop, split]

/-- A named format is found as it is named. -/
theorem Names.found {first second : Numeral 4} (names : Names vformat first second encoding) :
    ∃ vcodec, Found vformat first.value second.value vcodec encoding := by
  obtain ⟨⟨word, written, named⟩, supported⟩ := names
  have four : word.length = 4 := by
    have same := congrArg List.length named
    rwa [List.length_map, name_length] at same
  have some_char : word ≠ [] := by
    rintro rfl
    cases four
  obtain ⟨more, scanned⟩ := sscanf_of_written written some_char (unspaced_of_name named) (by omega)
  have matched : strncasecmp (word ++ more) encoding.name 4 = 0 := by
    rw [strncasecmp_name_iff, ← four, List.take_left, named]
  exact ⟨word ++ more, scanned, matched, supported⟩

/-- What is found is named by the string. -/
theorem Found.names (found : Found vformat width height vcodec encoding) :
    ∃ first second : Numeral 4, Names vformat first second encoding := by
  obtain ⟨scanned, matched, supported⟩ := found
  obtain ⟨first, second, rfl, rfl, written⟩ := written_of_sscanf scanned
  exact ⟨first, second, ⟨vcodec.take 4, written.take 4, strncasecmp_name_iff.mp matched⟩, supported⟩

end Parse

/-- `parse_vformat` accepts the strings that name a format, and gives the size and the
encoding that they name. -/
theorem parseVformat_reads (vformat : List Char) (outputs : VformatOutputs) :
    Reads Names vformat outputs (parseVformat vformat outputs) := by
  have accepted {width height : Numeral 4} {encoding : Encoding}
      (names : Names vformat width height encoding) : parseVformat vformat outputs =
        ⟨0, outputs.assign width.value height.value encoding.fourcc, []⟩ := by
    obtain ⟨vcodec, found⟩ := names.found
    exact found.accepted outputs
  refine ⟨⟨?_, ?_⟩, ?_, ?_, fun number => number.value_minus, ?_⟩
  · intro zero
    rcases parseVformat_cases vformat outputs with ⟨_, _, _, encoding, found⟩ | ⟨refused, -⟩
    · obtain ⟨width, height, names⟩ := found.names
      exact ⟨width, height, encoding, names⟩
    · rw [refused] at zero
      exact absurd zero (by decide)
  · intro named
    obtain ⟨width, height, encoding, names⟩ := named
    rw [accepted names]
  · intro width height encoding names
    rw [accepted names]
  · intro number unsigned
    exact ⟨number.value_toNat unsigned (by decide), Nat.le_of_lt_succ number.magnitude_lt⟩
  · intro refused
    rcases parseVformat_cases vformat outputs with ⟨_, _, _, encoding, found⟩ | unread
    · rw [found.accepted outputs] at refused
      exact absurd rfl refused
    · exact unread

/-- The format of `DEFAULT_VIDEO_FORMAT`. -/
example (outputs : VformatOutputs) : parseVformat "640x480:h264".toList outputs =
    ⟨0, outputs.assign 640 480 Encoding.h264.fourcc, []⟩ := rfl

/-- A blank in front of the size is skipped. -/
theorem not_parseVformat_plain :
    ¬ ∀ (vformat : List Char) (outputs : VformatOutputs),
      Reads Plain vformat outputs (parseVformat vformat outputs) := by
  intro reads
  have accepted : (parseVformat " 640x480:h264".toList ⟨some 0, some 0, some 0⟩).result = 0 := rfl
  obtain ⟨width, height, encoding, plain⟩ := (reads _ _).accepted_iff.mp accepted
  obtain ⟨word, split, -⟩ := plain.spelled
  obtain ⟨digit, others, first, decimal⟩ := width.exists_digit
  rw [Numeral.text, plain.unsigned.1, List.nil_append, first] at split
  obtain ⟨rfl, -⟩ := List.cons.inj split
  exact absurd decimal (by decide)

end RcControl.Camera
