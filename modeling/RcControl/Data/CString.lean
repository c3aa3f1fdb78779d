import Mathlib

namespace RcControl.Data.CString

/-! Reading C strings with the C library.

A string is the list of its characters up to the terminator.  `sscanf` is here for formats
of unsigned numbers, words and characters to be matched. -/

/-- The blanks of the "C" locale: `\v` and `\f` are among them. -/
def whitespace : List Char := [' ', '\t', '\n', '\x0b', '\x0c', '\r']

def isspace (char : Char) : Bool := whitespace.contains char

/-- Reads while the characters are accepted, `width` of them at most. -/
def scanWhile (accepts : Char → Bool) : Nat → List Char → List Char × List Char
  | 0, input => ([], input)
  | _ + 1, [] => ([], [])
  | width + 1, next :: input =>
      if accepts next then
        (next :: (scanWhile accepts width input).1, (scanWhile accepts width input).2)
      else ([], next :: input)

def scanSign : List Char → List Char × List Char
  | '+' :: input => (['+'], input)
  | '-' :: input => (['-'], input)
  | input => ([], input)

/-- The value of a number that fits `unsigned int` without its sign. -/
def toUnsigned (sign digits : List Char) : UInt32 :=
  if sign = ['-'] then -UInt32.ofNat (Nat.ofDigitChars 10 digits 0)
  else UInt32.ofNat (Nat.ofDigitChars 10 digits 0)

/-- `%⟨width⟩u`: the width counts the sign, and not the blanks in front. -/
def scanUnsigned (width : Nat) (input : List Char) : Option (UInt32 × List Char) :=
  let signed := scanSign (input.dropWhile isspace)
  let digits := scanWhile Char.isDigit (width - signed.1.length) signed.2
  if digits.1 = [] then none else some (toUnsigned signed.1 digits.1, digits.2)

/-- `%⟨width⟩s` -/
def scanString (width : Nat) (input : List Char) : Option (List Char × List Char) :=
  let word := scanWhile (!isspace ·) width (input.dropWhile isspace)
  if word.1 = [] then none else some word

def scanChar (char : Char) : List Char → Option (List Char)
  | next :: input => if next = char then some input else none
  | [] => none

inductive Directive where
  | unsigned (width : Nat)
  | char (char : Char)
  | string (width : Nat)
deriving DecidableEq, Repr

inductive Scanned where
  | unsigned (value : UInt32)
  | string (text : List Char)
deriving DecidableEq, Repr

/-- What `sscanf` assigns, up to the first directive that fails.  It returns how many these
are, or `EOF` if the input ends before the first. -/
def sscanf (input : List Char) : List Directive → List Scanned
  | [] => []
  | .unsigned width :: format =>
      match scanUnsigned width input with
      | some (value, rest) => .unsigned value :: sscanf rest format
      | none => []
  | .char char :: format =>
      match scanChar char input with
      | some rest => sscanf rest format
      | none => []
  | .string width :: format =>
      match scanString width input with
      | some (text, rest) => .string text :: sscanf rest format
      | none => []

/-- The code of the first character in lower case, which is 0 at the terminator. -/
def lowered (text : List Char) : Int :=
  match text with
  | [] => 0
  | char :: _ => char.toLower.toNat

def strncasecmp : List Char → List Char → Nat → Int
  | _, _, 0 => 0
  | first, second, n + 1 =>
      if lowered first ≠ lowered second ∨ first = [] then lowered first - lowered second
      else strncasecmp first.tail second.tail n

/-- A number as `%⟨width⟩u` reads it. -/
structure Numeral (width : Nat) where
  sign : List Char
  digits : List Char
  signed : sign = [] ∨ sign = ['+'] ∨ sign = ['-']
  some_digit : digits ≠ []
  decimal : ∀ digit ∈ digits, digit.isDigit = true
  fits : sign.length + digits.length ≤ width

namespace Numeral

variable {width : Nat}

def text (numeral : Numeral width) : List Char := numeral.sign ++ numeral.digits

/-- The decimal value of the digits. -/
def magnitude (numeral : Numeral width) : Nat := Nat.ofDigitChars 10 numeral.digits 0

def value (numeral : Numeral width) : UInt32 := toUnsigned numeral.sign numeral.digits

end Numeral

section Scan

variable {accepts : Char → Bool} {width : Nat}

/-- What is read is in front of the rest, is accepted and is no longer than the width. -/
theorem scanWhile_sound (accepts : Char → Bool) (width : Nat) (input : List Char) :
    input = (scanWhile accepts width input).1 ++ (scanWhile accepts width input).2 ∧
      (∀ char ∈ (scanWhile accepts width input).1, accepts char = true) ∧
      (scanWhile accepts width input).1.length ≤ width := by
  induction width generalizing input with
  | zero => exact ⟨rfl, List.forall_mem_nil _, Nat.le_refl _⟩
  | succ width ih =>
      cases input with
      | nil => exact ⟨rfl, List.forall_mem_nil _, Nat.zero_le _⟩
      | cons next input =>
          obtain ⟨split, all, short⟩ := ih input
          rw [scanWhile]
          split
          · rename_i accepted
            exact ⟨congrArg (next :: ·) split, List.forall_mem_cons.mpr ⟨accepted, all⟩,
              Nat.succ_le_succ short⟩
          · exact ⟨rfl, List.forall_mem_nil _, Nat.zero_le _⟩

/-- What is accepted and fits is read first. -/
theorem scanWhile_append {front : List Char} (all : ∀ char ∈ front, accepts char = true)
    (short : front.length ≤ width) (back : List Char) :
    scanWhile accepts width (front ++ back) =
      (front ++ (scanWhile accepts (width - front.length) back).1,
        (scanWhile accepts (width - front.length) back).2) := by
  induction front generalizing width with
  | nil => rfl
  | cons next front ih =>
      obtain ⟨accepted, others⟩ := List.forall_mem_cons.mp all
      cases width with
      | zero => exact absurd short (Nat.not_succ_le_zero _)
      | succ width =>
          rw [List.length_cons, Nat.add_sub_add_right, List.cons_append, scanWhile, if_pos accepted,
            ih others (Nat.le_of_succ_le_succ short)]
          rfl

theorem scanWhile_stop {input : List Char} (stops : ∀ next ∈ input.head?, accepts next = false)
    (width : Nat) : scanWhile accepts width input = ([], input) := by
  cases width with
  | zero => rfl
  | succ width =>
      cases input with
      | nil => rfl
      | cons next input =>
          have refused := stops next rfl
          rw [scanWhile, if_neg (by rw [refused]; exact Bool.false_ne_true)]

end Scan

section Blanks

theorem isspace_iff {char : Char} : isspace char = true ↔ char ∈ whitespace := by
  simp [isspace]

/-- The blanks that are skipped are in front of what is left. -/
theorem exists_blanks (input : List Char) :
    ∃ blanks : List Char, (∀ blank ∈ blanks, isspace blank = true) ∧
      input = blanks ++ input.dropWhile isspace :=
  ⟨input.takeWhile isspace, fun _ member => List.mem_takeWhile_imp member,
    List.takeWhile_append_dropWhile.symm⟩

theorem dropWhile_blanks {blanks rest : List Char} (all : ∀ blank ∈ blanks, isspace blank = true)
    (stops : ∀ next ∈ rest.head?, isspace next = false) :
    (blanks ++ rest).dropWhile isspace = rest := by
  rw [List.dropWhile_append_of_pos all]
  cases rest with
  | nil => rfl
  | cons next rest =>
      have refused := stops next rfl
      rw [List.dropWhile_cons_of_neg (by rw [refused]; exact Bool.false_ne_true)]

end Blanks

section Unsigned

variable {width : Nat}

theorem isDigit_bounds {char : Char} (digit : char.isDigit = true) :
    48 ≤ char.toNat ∧ char.toNat ≤ 57 := by
  simpa [Char.isDigit, UInt32.le_iff_toNat_le] using digit

theorem isspace_of_isDigit {char : Char} (digit : char.isDigit = true) : isspace char = false := by
  have none_digit : ∀ blank ∈ whitespace, blank.isDigit = false := by simp [whitespace]
  by_contra space
  have member : char ∈ whitespace := isspace_iff.mp (Bool.eq_true_of_not_eq_false space)
  rw [none_digit char member] at digit
  cases digit

theorem scanSign_of_isDigit {digit : Char} (decimal : digit.isDigit = true) (rest : List Char) :
    scanSign (digit :: rest) = ([], digit :: rest) := by
  rw [scanSign]
  all_goals
    intro input same
    obtain ⟨rfl, -⟩ := List.cons.inj same
    exact absurd decimal (by decide)

/-- There is a first digit. -/
theorem Numeral.exists_digit (numeral : Numeral width) :
    ∃ digit others, numeral.digits = digit :: others ∧ digit.isDigit = true := by
  cases digits : numeral.digits with
  | nil => exact absurd digits numeral.some_digit
  | cons digit others =>
      exact ⟨digit, others, rfl, numeral.decimal digit (by rw [digits]; exact List.mem_cons_self)⟩

theorem Numeral.scanSign_text (numeral : Numeral width) (rest : List Char) :
    scanSign (numeral.text ++ rest) = (numeral.sign, numeral.digits ++ rest) := by
  obtain ⟨digit, others, first, decimal⟩ := numeral.exists_digit
  rw [Numeral.text, first]
  rcases numeral.signed with sign | sign | sign <;> rw [sign]
  · exact scanSign_of_isDigit decimal _
  · rfl
  · rfl

theorem Numeral.head_not_blank (numeral : Numeral width) (rest : List Char) :
    ∀ next ∈ (numeral.text ++ rest).head?, isspace next = false := by
  obtain ⟨digit, others, first, decimal⟩ := numeral.exists_digit
  intro next member
  rw [Numeral.text, first] at member
  rcases numeral.signed with sign | sign | sign <;> rw [sign] at member <;>
    obtain rfl := Option.some.inj member
  · exact isspace_of_isDigit decimal
  · rfl
  · rfl

/-- A number is accepted if no further digit follows. -/
theorem scanUnsigned_complete {blanks rest : List Char} (numeral : Numeral width)
    (all : ∀ blank ∈ blanks, isspace blank = true)
    (stops : ∀ next ∈ rest.head?, next.isDigit = false) :
    scanUnsigned width (blanks ++ (numeral.text ++ rest)) = some (numeral.value, rest) := by
  have fits : numeral.digits.length ≤ width - numeral.sign.length := by
    have := numeral.fits
    omega
  have digits : scanWhile Char.isDigit (width - numeral.sign.length) (numeral.digits ++ rest) =
      (numeral.digits, rest) := by
    rw [scanWhile_append numeral.decimal fits, scanWhile_stop stops, List.append_nil]
  simp only [scanUnsigned, dropWhile_blanks all (numeral.head_not_blank rest),
    numeral.scanSign_text rest, digits, if_neg numeral.some_digit, Numeral.value]

theorem scanSign_sound (input : List Char) :
    input = (scanSign input).1 ++ (scanSign input).2 ∧
      ((scanSign input).1 = [] ∨ (scanSign input).1 = ['+'] ∨ (scanSign input).1 = ['-']) := by
  unfold scanSign
  split <;> simp

/-- What `%u` accepts is a number, with blanks in front. -/
theorem scanUnsigned_sound {input rest : List Char} {value : UInt32}
    (scanned : scanUnsigned width input = some (value, rest)) :
    ∃ (blanks : List Char) (numeral : Numeral width), (∀ blank ∈ blanks, isspace blank = true) ∧
      input = blanks ++ (numeral.text ++ rest) ∧ numeral.value = value := by
  obtain ⟨blanks, all, skipped⟩ := exists_blanks input
  obtain ⟨split, signed⟩ := scanSign_sound (input.dropWhile isspace)
  generalize read : scanSign (input.dropWhile isspace) = sign at split signed
  obtain ⟨back, decimal, short⟩ := scanWhile_sound Char.isDigit (width - sign.1.length) sign.2
  generalize digitsRead : scanWhile Char.isDigit (width - sign.1.length) sign.2 = digits
    at back decimal short
  simp only [scanUnsigned, read, digitsRead] at scanned
  split at scanned
  · cases scanned
  · rename_i some_digit
    obtain ⟨rfl, rfl⟩ := Prod.mk.inj (Option.some.inj scanned)
    have positive := List.length_pos_iff.mpr some_digit
    refine ⟨blanks, ⟨sign.1, digits.1, signed, some_digit, decimal, by omega⟩, all, ?_, rfl⟩
    rw [Numeral.text, List.append_assoc, ← back, ← split]
    exact skipped

theorem ofDigitChars_lt {digits : List Char} (decimal : ∀ digit ∈ digits, digit.isDigit = true) :
    Nat.ofDigitChars 10 digits 0 < 10 ^ digits.length := by
  induction digits using List.reverseRecOn with
  | nil => simp
  | append_singleton front last ih =>
      obtain ⟨others, digit⟩ := List.forall_mem_append.mp decimal
      have bounds := isDigit_bounds (digit last List.mem_cons_self)
      have front_lt := ih others
      rw [Nat.ofDigitChars_append, Nat.ofDigitChars_cons, Nat.ofDigitChars_nil, List.length_append,
        List.length_singleton, pow_succ]
      change 10 * _ + (last.toNat - 48) < _
      omega

theorem Numeral.magnitude_lt (numeral : Numeral width) : numeral.magnitude < 10 ^ width := by
  have short : numeral.digits.length ≤ width := (Nat.le_add_left _ _).trans numeral.fits
  exact (ofDigitChars_lt numeral.decimal).trans_le (Nat.pow_le_pow_right (by decide) short)

/-- Without a minus sign the value is that of the digits, if it fits. -/
theorem Numeral.value_toNat (numeral : Numeral width) (unsigned : numeral.sign ≠ ['-'])
    (narrow : width ≤ 9) : numeral.value.toNat = numeral.magnitude := by
  have small : numeral.magnitude < 10 ^ 9 :=
    numeral.magnitude_lt.trans_le (Nat.pow_le_pow_right (by decide) narrow)
  rw [Numeral.value, toUnsigned, if_neg unsigned, UInt32.toNat_ofNat']
  exact Nat.mod_eq_of_lt (small.trans (by decide))

/-- A minus sign takes it from the number of values that `unsigned int` has. -/
theorem Numeral.value_minus (numeral : Numeral width) (minus : numeral.sign = ['-']) :
    numeral.value = -UInt32.ofNat numeral.magnitude := by
  rw [Numeral.value, toUnsigned, if_pos minus, Numeral.magnitude]

end Unsigned

section Word

/-- What `%s` accepts are characters behind blanks. -/
theorem scanString_sound {width : Nat} {input text rest : List Char}
    (scanned : scanString width input = some (text, rest)) :
    ∃ blanks : List Char, (∀ blank ∈ blanks, isspace blank = true) ∧
      input = blanks ++ (text ++ rest) := by
  obtain ⟨blanks, all, skipped⟩ := exists_blanks input
  obtain ⟨split, -, -⟩ := scanWhile_sound (!isspace ·) width (input.dropWhile isspace)
  simp only [scanString] at scanned
  split at scanned
  · cases scanned
  · obtain same := Option.some.inj scanned
    rw [same] at split
    refine ⟨blanks, all, ?_⟩
    rw [← split]
    exact skipped

/-- A word that fits is read first, and may be read on. -/
theorem scanString_complete {width : Nat} {blanks word : List Char}
    (all : ∀ blank ∈ blanks, isspace blank = true) (some_char : word ≠ [])
    (unspaced : ∀ char ∈ word, isspace char = false) (short : word.length ≤ width)
    (tail : List Char) :
    ∃ more rest, scanString width (blanks ++ (word ++ tail)) = some (word ++ more, rest) := by
  have head : ∀ next ∈ (word ++ tail).head?, isspace next = false := by
    cases word with
    | nil => exact absurd rfl some_char
    | cons first word =>
        intro next member
        obtain rfl := Option.some.inj member
        exact unspaced first List.mem_cons_self
  have read : scanWhile (!isspace ·) width (word ++ tail) = _ :=
    scanWhile_append (by simpa using unspaced) short tail
  refine ⟨(scanWhile (!isspace ·) (width - word.length) tail).1,
    (scanWhile (!isspace ·) (width - word.length) tail).2, ?_⟩
  simp only [scanString, dropWhile_blanks all head, read, List.append_eq_nil_iff, some_char,
    false_and, if_false]

end Word

section Format

variable {input : List Char} {format : List Directive} {item : Scanned} {items : List Scanned}

theorem sscanf_unsigned_iff {width : Nat} :
    sscanf input (.unsigned width :: format) = item :: items ↔
      ∃ value rest, scanUnsigned width input = some (value, rest) ∧ .unsigned value = item ∧
        sscanf rest format = items := by
  rw [sscanf]
  cases scanned : scanUnsigned width input with
  | none => simp
  | some result =>
      obtain ⟨read, rest⟩ := result
      simp [and_assoc]

theorem sscanf_char_iff {char : Char} :
    sscanf input (.char char :: format) = item :: items ↔
      ∃ rest, input = char :: rest ∧ sscanf rest format = item :: items := by
  rw [sscanf]
  cases input with
  | nil => simp [scanChar]
  | cons next input =>
      by_cases same : next = char
      · simp [scanChar, same]
      · simp [scanChar, same]

theorem sscanf_string_iff {width : Nat} :
    sscanf input (.string width :: format) = item :: items ↔
      ∃ text rest, scanString width input = some (text, rest) ∧ .string text = item ∧
        sscanf rest format = items := by
  rw [sscanf]
  cases scanned : scanString width input with
  | none => simp
  | some result =>
      obtain ⟨read, rest⟩ := result
      simp [and_assoc]

end Format

section Compare

theorem lowered_eq_iff {char : Char} {text name : List Char} (unended : char.toLower.toNat ≠ 0) :
    lowered text = lowered (char :: name) ↔ (text.take 1).map Char.toLower = [char.toLower] := by
  cases text with
  | nil =>
      apply iff_of_false
      · exact fun same => unended (Int.ofNat.inj same).symm
      · simp
  | cons first text =>
      simp [lowered, Char.toNat_inj]

/-- Against a name of its own length: the text begins with it, but for the case. -/
theorem strncasecmp_eq_zero_iff {text name : List Char}
    (unended : ∀ char ∈ name, char.toLower.toNat ≠ 0) :
    strncasecmp text name name.length = 0 ↔
      (text.take name.length).map Char.toLower = name.map Char.toLower := by
  induction name generalizing text with
  | nil => simp [strncasecmp]
  | cons char name ih =>
      obtain ⟨ended, others⟩ := List.forall_mem_cons.mp unended
      have same := @lowered_eq_iff char text name ended
      rw [List.length_cons, strncasecmp]
      cases text with
      | nil =>
          rw [if_pos (.inr rfl), sub_eq_zero, same]
          simp
      | cons first text =>
          by_cases equal : first.toLower = char.toLower
          · have matching : lowered (first :: text) = lowered (char :: name) := same.mpr (by simp [equal])
            rw [if_neg (by simp [matching])]
            simpa [equal] using ih others
          · have differing : lowered (first :: text) ≠ lowered (char :: name) := fun matching =>
              equal (by simpa using same.mp matching)
            rw [if_pos (.inl differing), sub_eq_zero]
            simp [differing, equal]

end Compare

end RcControl.Data.CString
