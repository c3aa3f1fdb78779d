import RcControl.Data.Registry

namespace RcControl.Args

open RcControl.Data

/-! `ArgParser`: a table of option and flag names, and the loop over the arguments.

A `std::string` is the list of its bytes, each one as the character with that code. -/

abbrev Text := List Char

structure ArgParser where
  options : List Text
  flags : List Text
  shortToLongMap : Registry Text Text

namespace ArgParser

def addOption (parser : ArgParser) (option : Text × Text) : ArgParser :=
  { parser with
    options := (parser.options.insert option.1).insert option.2
    shortToLongMap :=
      (parser.shortToLongMap.emplace option.1 option.2).emplace option.2 option.2 }

def addFlag (parser : ArgParser) (flag : Text × Text) : ArgParser :=
  { parser with
    flags := (parser.flags.insert flag.1).insert flag.2
    shortToLongMap := (parser.shortToLongMap.emplace flag.1 flag.2).emplace flag.2 flag.2 }

/-- The constructor, on pairs of a short and a long name. -/
def construct (options flags : List (Text × Text)) : ArgParser :=
  flags.foldl addFlag (options.foldl addOption ⟨[], [], .empty⟩)

def toKey (prefixedKey : Text) : Option Text :=
  if "--".toList.isPrefixOf prefixedKey then some (prefixedKey.drop 2)
  else if "-".toList.isPrefixOf prefixedKey then some (prefixedKey.drop 1)
  else none

end ArgParser

inductive Call where
  | onOption (key value : Text)
  | onFlag (flag : Text)
deriving DecidableEq, Repr

/-- The two callbacks, and the state they work on. -/
structure Callbacks (World : Type) where
  onOption : Text → Text → World → Bool × World
  onFlag : Text → World → Bool × World

def Callbacks.answer {World : Type} (callbacks : Callbacks World) : Call → World → Bool × World
  | .onOption key value => callbacks.onOption key value
  | .onFlag flag => callbacks.onFlag flag

/-- The calls made so far, and the state they left behind. -/
structure Made (World : Type) where
  calls : List Call
  world : World

/-- What `parse` returns, the lines it wrote to `std::cerr`, and the calls it made. -/
structure Parsed (World : Type) where
  accepted : Bool
  errors : List Text
  made : Made World

section Parse

variable {World : Type}

def Made.call (callbacks : Callbacks World) (made : Made World) (call : Call) : Made World where
  calls := made.calls ++ [call]
  world := (callbacks.answer call made.world).2

/-- The loop of `parse` and what follows it.  `none` is the exception of
`shortToLongMap.at`.  Only without a pending option is an argument looked up as a key. -/
def ArgParser.parseFrom (parser : ArgParser) (callbacks : Callbacks World) :
    Option Text → Made World → List Text → Option (Parsed World)
  | none, made, current :: rest =>
      match ArgParser.toKey current with
      | some optKey =>
          if optKey ∈ parser.flags then do
            let flag ← parser.shortToLongMap.find? optKey
            if (callbacks.answer (.onFlag flag) made.world).1 then
              parser.parseFrom callbacks none (made.call callbacks (.onFlag flag)) rest
            else
              return ⟨false, [], made.call callbacks (.onFlag flag)⟩
          else if optKey ∈ parser.options then
            parser.parseFrom callbacks (some optKey) made rest
          else
            some ⟨false, ["Unrecognized option ".toList ++ current], made⟩
      | none => some ⟨false, ["Unrecognized option ".toList ++ current], made⟩
  | some currentOption, made, current :: rest => do
      let key ← parser.shortToLongMap.find? currentOption
      if (callbacks.answer (.onOption key current) made.world).1 then
        parser.parseFrom callbacks none (made.call callbacks (.onOption key current)) rest
      else
        return ⟨false, [], made.call callbacks (.onOption key current)⟩
  | some currentOption, made, [] =>
      some ⟨false, ["Missing value for ".toList ++ currentOption], made⟩
  | none, made, [] => some ⟨true, [], made⟩

/-- `parse(argc, argv, onOption, onFlag)`, with `argv` as a list. -/
def ArgParser.parse (parser : ArgParser) (callbacks : Callbacks World) (world : World)
    (argv : List Text) : Option (Parsed World) :=
  parser.parseFrom callbacks none ⟨[], world⟩ (argv.drop 1)

end Parse

/-! What the tables hold. -/

/-- The long name of the first pair that has the key. -/
def longName (table : List (Text × Text)) (key : Text) : Option Text :=
  (table.find? fun pair => key = pair.1 ∨ key = pair.2).map Prod.snd

def IsName (table : List (Text × Text)) (key : Text) : Prop :=
  ∃ pair ∈ table, key = pair.1 ∨ key = pair.2

def names (table : List (Text × Text)) : List Text :=
  table.flatMap fun pair => [pair.1, pair.2]

theorem mem_names {table : List (Text × Text)} {key : Text} :
    key ∈ names table ↔ IsName table key := by
  simp [names, IsName]

theorem isName_cons {pair : Text × Text} {table : List (Text × Text)} {key : Text} :
    IsName (pair :: table) key ↔ (key = pair.1 ∨ key = pair.2) ∨ IsName table key := by
  simp [IsName]

theorem longName_isSome {table : List (Text × Text)} {key : Text} (named : IsName table key) :
    ∃ long, longName table key = some long := by
  obtain ⟨pair, member, same⟩ := named
  have found : (table.find? fun pair => key = pair.1 ∨ key = pair.2).isSome :=
    List.find?_isSome.mpr ⟨pair, member, decide_eq_true same⟩
  obtain ⟨first, found⟩ := Option.isSome_iff_exists.mp found
  exact ⟨first.2, by rw [longName, found]; rfl⟩

/-- Among distinct names, a name is found with the long name of its own pair. -/
theorem longName_of_mem {table : List (Text × Text)} (distinct : (names table).Nodup)
    {pair : Text × Text} (member : pair ∈ table) {key : Text} (same : key = pair.1 ∨ key = pair.2) :
    longName table key = some pair.2 := by
  induction table with
  | nil => cases member
  | cons first rest ih =>
      rw [names, List.flatMap_cons, List.nodup_append] at distinct
      obtain ⟨_, distinctRest, apart⟩ := distinct
      rcases List.mem_cons.mp member with rfl | later
      · rw [longName, List.find?_cons_of_pos (by simpa using same)]
        rfl
      · have elsewhere : ¬ (key = first.1 ∨ key = first.2) := by
          intro here
          exact apart key (by simpa using here) key (mem_names.mpr ⟨pair, later, same⟩) rfl
        rw [longName, List.find?_cons_of_neg (by simpa using elsewhere)]
        exact ih distinctRest later

section Construct

variable (parser : ArgParser) (table : List (Text × Text)) (key : Text)

theorem find?_emplace_pair (map : Registry Text Text) (pair : Text × Text) :
    ((map.emplace pair.1 pair.2).emplace pair.2 pair.2).find? key =
      (map.find? key).or (longName [pair] key) := by
  simp only [Registry.find?_emplace, longName, List.find?_singleton, decide_eq_true_eq]
  by_cases short : key = pair.1 <;> by_cases long : key = pair.2 <;>
    cases found : map.find? key <;> simp_all [eq_comm]

theorem longName_cons (pair : Text × Text) :
    longName (pair :: table) key = (longName [pair] key).or (longName table key) := by
  by_cases same : key = pair.1 ∨ key = pair.2
  · simp [longName, List.find?_cons_of_pos, same]
  · simp [longName, List.find?_cons_of_neg, same]

theorem foldl_addOption_find? :
    (table.foldl ArgParser.addOption parser).shortToLongMap.find? key =
      (parser.shortToLongMap.find? key).or (longName table key) := by
  induction table generalizing parser with
  | nil => simp [longName]
  | cons pair table ih =>
      rw [List.foldl_cons, ih, ArgParser.addOption, find?_emplace_pair, longName_cons table,
        Option.or_assoc]

theorem foldl_addFlag_find? :
    (table.foldl ArgParser.addFlag parser).shortToLongMap.find? key =
      (parser.shortToLongMap.find? key).or (longName table key) := by
  induction table generalizing parser with
  | nil => simp [longName]
  | cons pair table ih =>
      rw [List.foldl_cons, ih, ArgParser.addFlag, find?_emplace_pair, longName_cons table,
        Option.or_assoc]

theorem foldl_addOption_options :
    key ∈ (table.foldl ArgParser.addOption parser).options ↔
      key ∈ parser.options ∨ IsName table key := by
  induction table generalizing parser with
  | nil => simp [IsName]
  | cons pair table ih =>
      rw [List.foldl_cons, ih, ArgParser.addOption]
      simp only [List.mem_insert_iff, isName_cons]
      tauto

theorem foldl_addOption_flags :
    (table.foldl ArgParser.addOption parser).flags = parser.flags := by
  induction table generalizing parser with
  | nil => rfl
  | cons pair table ih => rw [List.foldl_cons, ih, ArgParser.addOption]

theorem foldl_addFlag_flags :
    key ∈ (table.foldl ArgParser.addFlag parser).flags ↔ key ∈ parser.flags ∨ IsName table key := by
  induction table generalizing parser with
  | nil => simp [IsName]
  | cons pair table ih =>
      rw [List.foldl_cons, ih, ArgParser.addFlag]
      simp only [List.mem_insert_iff, isName_cons]
      tauto

theorem foldl_addFlag_options :
    (table.foldl ArgParser.addFlag parser).options = parser.options := by
  induction table generalizing parser with
  | nil => rfl
  | cons pair table ih => rw [List.foldl_cons, ih, ArgParser.addFlag]

end Construct

section Tables

variable (options flags : List (Text × Text)) (key : Text)

@[simp] theorem construct_options :
    key ∈ (ArgParser.construct options flags).options ↔ IsName options key := by
  rw [ArgParser.construct, foldl_addFlag_options, foldl_addOption_options]
  simp

@[simp] theorem construct_flags :
    key ∈ (ArgParser.construct options flags).flags ↔ IsName flags key := by
  rw [ArgParser.construct, foldl_addFlag_flags, foldl_addOption_flags]
  simp

theorem longName_append :
    longName (options ++ flags) key = (longName options key).or (longName flags key) := by
  simp only [longName, List.find?_append]
  cases List.find? _ options <;> rfl

/-- A key that is in several pairs has the long name of the first one, options first. -/
@[simp] theorem construct_find? :
    (ArgParser.construct options flags).shortToLongMap.find? key =
      longName (options ++ flags) key := by
  rw [ArgParser.construct, foldl_addFlag_find?, foldl_addOption_find?, longName_append]
  rfl

end Tables

end RcControl.Args
