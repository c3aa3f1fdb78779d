import RcControl.Args.ArgParser

namespace RcControl.Args

/-! The language that `parse` reads: flags and options with values, in any order. -/

/-- `-key`, or `--key` where `double` is set. -/
def dashed (double : Bool) (key : Text) : Text :=
  if double then '-' :: '-' :: key else '-' :: key

inductive Item where
  | flag (double : Bool) (key : Text)
  | option (double : Bool) (key value : Text)

namespace Item

def tokens : Item → List Text
  | .flag double key => [dashed double key]
  | .option double key value => [dashed double key, value]

/-- A name that is both is a flag. -/
def Legal (options flags : List (Text × Text)) : Item → Prop
  | .flag _ key => IsName flags key
  | .option _ key _ => IsName options key ∧ ¬ IsName flags key

/-- The call an item is answered with: the long name that belongs to its key, and its value. -/
def call (table : List (Text × Text)) : Item → Call
  | .flag _ key => .onFlag ((longName table key).getD [])
  | .option _ key value => .onOption ((longName table key).getD []) value

def key : Item → Text
  | .flag _ key => key
  | .option _ key _ => key

end Item

section Calls

variable {World : Type} (callbacks : Callbacks World)

/-- All calls are accepted, made one after the other. -/
def Callbacks.Accepts : World → List Call → Prop
  | _, [] => True
  | world, call :: calls =>
      (callbacks.answer call world).1 = true ∧ Callbacks.Accepts (callbacks.answer call world).2 calls

def Made.callAll (made : Made World) (calls : List Call) : Made World :=
  calls.foldl (Made.call callbacks) made

theorem Callbacks.accepts_concat (made : Made World) (calls : List Call) (last : Call) :
    callbacks.Accepts made.world (calls ++ [last]) ↔ callbacks.Accepts made.world calls ∧
      (callbacks.answer last (made.callAll callbacks calls).world).1 = true := by
  induction calls generalizing made with
  | nil => simp [Callbacks.Accepts, Made.callAll]
  | cons call calls ih =>
      have rest := ih (made.call callbacks call)
      change callbacks.Accepts (callbacks.answer call made.world).2 _ ↔
        callbacks.Accepts (callbacks.answer call made.world).2 _ ∧ _ at rest
      rw [List.cons_append, Callbacks.Accepts, Callbacks.Accepts, rest, and_assoc]
      rfl

theorem Made.callAll_calls (made : Made World) (calls : List Call) :
    (made.callAll callbacks calls).calls = made.calls ++ calls := by
  induction calls generalizing made with
  | nil => exact (List.append_nil _).symm
  | cons call calls ih =>
      change ((made.call callbacks call).callAll callbacks calls).calls = _
      rw [ih, Made.call, List.append_assoc]
      rfl

end Calls

/-- Why `parse` returns false after these calls, with this rest behind the items they are for:
the last call was refused, or no item begins there. -/
inductive Fails {World : Type} (options flags : List (Text × Text)) (callbacks : Callbacks World)
    (world : World) : List Call → List Text → Prop where
  | refused {calls : List Call} {call : Call} {rest : List Text}
      (accepted : callbacks.Accepts world calls)
      (refused : ¬ callbacks.Accepts world (calls ++ [call])) :
      Fails options flags callbacks world (calls ++ [call]) rest
  | stuck {calls : List Call} {rest : List Text} (accepted : callbacks.Accepts world calls)
      (some_rest : rest ≠ [])
      (no_item : ∀ item more, Item.Legal options flags item → rest ≠ item.tokens ++ more) :
      Fails options flags callbacks world calls rest

/-- How `parse` answers the arguments. -/
structure Grammatical {World : Type} (options flags : List (Text × Text))
    (callbacks : Callbacks World) (world : World) (arguments : List Text)
    (parsed : Parsed World) : Prop where
  accepted_iff : parsed.accepted = true ↔ ∃ items : List Item,
    (∀ item ∈ items, item.Legal options flags) ∧ arguments = items.flatMap Item.tokens ∧
      callbacks.Accepts world (items.map (Item.call (options ++ flags)))
  accepted_calls : parsed.accepted = true → ∀ items : List Item,
    (∀ item ∈ items, item.Legal options flags) → arguments = items.flatMap Item.tokens →
      parsed.made.calls = items.map (Item.call (options ++ flags))
  rejected_calls : parsed.accepted = false → ∃ (items : List Item) (rest : List Text),
    (∀ item ∈ items, item.Legal options flags) ∧ arguments = items.flatMap Item.tokens ++ rest ∧
      parsed.made.calls = items.map (Item.call (options ++ flags)) ∧
      Fails options flags callbacks world parsed.made.calls rest
  long_names : (names (options ++ flags)).Nodup → ∀ pair ∈ options ++ flags, ∀ item : Item,
    item.key = pair.1 ∨ item.key = pair.2 → longName (options ++ flags) item.key = some pair.2

/-- No name starts with a dash. -/
def Undashed (table : List (Text × Text)) : Prop :=
  ∀ name ∈ names table, name.head? ≠ some '-'

section Keys

theorem toKey_dashed {key : Text} (undashed : key.head? ≠ some '-') (double : Bool) :
    ArgParser.toKey (dashed double key) = some key := by
  cases double with
  | true => rfl
  | false =>
      cases key with
      | nil => rfl
      | cons first rest =>
          have other : '-' ≠ first := fun same => undashed (by rw [← same]; rfl)
          simp [ArgParser.toKey, dashed, other]

theorem toKey_eq_some {token key : Text} (found : ArgParser.toKey token = some key) :
    ∃ double, token = dashed double key := by
  unfold ArgParser.toKey at found
  split at found
  · rename_i double
    obtain ⟨rest, rfl⟩ := List.isPrefixOf_iff_prefix.mp double
    obtain rfl := Option.some.inj found
    exact ⟨true, rfl⟩
  · split at found
    · rename_i single
      obtain ⟨rest, rfl⟩ := List.isPrefixOf_iff_prefix.mp single
      obtain rfl := Option.some.inj found
      exact ⟨false, rfl⟩
    · cases found

end Keys

section Parse

variable {World : Type} {options flags : List (Text × Text)} {callbacks : Callbacks World}

/-- `at` finds every key it is asked for: a pending option is a name. -/
theorem parseFrom_isSome (currentOption : Option Text) (made : Made World) (arguments : List Text)
    (pending : ∀ key ∈ currentOption, IsName options key) :
    ((ArgParser.construct options flags).parseFrom callbacks currentOption made arguments).isSome := by
  induction arguments generalizing currentOption made with
  | nil => cases currentOption <;> rfl
  | cons current rest ih =>
      have noneNamed : ∀ key ∈ (none : Option Text), IsName options key := by simp
      cases currentOption with
      | some option =>
          have named : IsName (options ++ flags) option := by
            obtain ⟨pair, member, same⟩ := pending option rfl
            exact ⟨pair, List.mem_append_left _ member, same⟩
          obtain ⟨long, found⟩ := longName_isSome named
          simp only [ArgParser.parseFrom, construct_find?, found, Option.bind_eq_bind,
            Option.bind_some]
          split
          · exact ih none _ noneNamed
          · rfl
      | none =>
          rw [ArgParser.parseFrom]
          split
          · rename_i optKey _
            split
            · rename_i isFlag
              have named : IsName (options ++ flags) optKey := by
                obtain ⟨pair, member, same⟩ := (construct_flags options flags optKey).mp isFlag
                exact ⟨pair, List.mem_append_right _ member, same⟩
              obtain ⟨long, found⟩ := longName_isSome named
              simp only [construct_find?, found, Option.bind_eq_bind, Option.bind_some]
              split
              · exact ih none _ noneNamed
              · rfl
            · split
              · rename_i isOption
                apply ih
                intro key same
                obtain rfl := Option.some.inj same
                exact (construct_options options flags _).mp isOption
              · rfl
          · rfl

theorem undashed_key (undashed : Undashed (options ++ flags)) {key : Text}
    (named : IsName (options ++ flags) key) : key.head? ≠ some '-' :=
  undashed key (mem_names.mpr named)

theorem Item.Legal.named {item : Item} (legal : item.Legal options flags) :
    IsName (options ++ flags) item.key := by
  cases item with
  | flag double key =>
      obtain ⟨pair, member, same⟩ := legal
      exact ⟨pair, List.mem_append_right _ member, same⟩
  | option double key value =>
      obtain ⟨⟨pair, member, same⟩, _⟩ := legal
      exact ⟨pair, List.mem_append_left _ member, same⟩

/-- One item costs one call, and the loop goes on behind it unless the call is refused. -/
theorem parseFrom_item (undashed : Undashed (options ++ flags)) {item : Item}
    (legal : item.Legal options flags) (made : Made World) (rest : List Text) :
    (ArgParser.construct options flags).parseFrom callbacks none made (item.tokens ++ rest) =
      if (callbacks.answer (item.call (options ++ flags)) made.world).1 then
        (ArgParser.construct options flags).parseFrom callbacks none
          (made.call callbacks (item.call (options ++ flags))) rest
      else some ⟨false, [], made.call callbacks (item.call (options ++ flags))⟩ := by
  obtain ⟨long, found⟩ := longName_isSome legal.named
  have isKey (double : Bool) : ArgParser.toKey (dashed double item.key) = some item.key :=
    toKey_dashed (undashed_key undashed legal.named) double
  cases item with
  | flag double key =>
      change longName (options ++ flags) key = some long at found
      have isFlag : key ∈ (ArgParser.construct options flags).flags :=
        (construct_flags options flags key).mpr legal
      change ∀ double, ArgParser.toKey (dashed double key) = some key at isKey
      rw [Item.tokens, List.singleton_append, ArgParser.parseFrom, isKey]
      simp only [if_pos isFlag, construct_find?, found, Option.bind_eq_bind, Option.bind_some,
        Item.call, Option.getD_some]
      rfl
  | option double key value =>
      change longName (options ++ flags) key = some long at found
      obtain ⟨isOption, notFlag⟩ := legal
      rw [← construct_options options flags] at isOption
      rw [← construct_flags options flags] at notFlag
      change ∀ double, ArgParser.toKey (dashed double key) = some key at isKey
      change (ArgParser.construct options flags).parseFrom callbacks none made
        (dashed double key :: value :: rest) = _
      rw [ArgParser.parseFrom, isKey]
      simp only [if_neg notFlag, if_pos isOption, ArgParser.parseFrom, construct_find?, found,
        Option.bind_eq_bind, Option.bind_some, Item.call, Option.getD_some]
      rfl

/-- Where no item begins, the loop makes no further call. -/
theorem parseFrom_stuck {rest : List Text} (some_rest : rest ≠ [])
    (no_item : ∀ item more, Item.Legal options flags item → rest ≠ item.tokens ++ more)
    (made : Made World) :
    ∃ error, (ArgParser.construct options flags).parseFrom callbacks none made rest =
      some ⟨false, [error], made⟩ := by
  cases rest with
  | nil => exact absurd rfl some_rest
  | cons current rest =>
      rw [ArgParser.parseFrom]
      split
      · rename_i optKey found
        obtain ⟨double, rfl⟩ := toKey_eq_some found
        split
        · rename_i isFlag
          have legal : Item.Legal options flags (.flag double optKey) :=
            (construct_flags options flags optKey).mp isFlag
          exact absurd rfl (no_item _ rest legal)
        · rename_i notFlag
          split
          · rename_i isOption
            cases rest with
            | nil => exact ⟨_, rfl⟩
            | cons value more =>
                have legal : Item.Legal options flags (.option double optKey value) :=
                  ⟨(construct_options options flags optKey).mp isOption,
                    fun isFlag => notFlag ((construct_flags options flags optKey).mpr isFlag)⟩
                exact absurd rfl (no_item _ more legal)
          · exact ⟨_, rfl⟩
      · exact ⟨_, rfl⟩

/-- The arguments begin with items that are accepted.  Behind them there is nothing, an item
that is refused, or what is no item. -/
theorem read_items (options flags : List (Text × Text)) (callbacks : Callbacks World)
    (world : World) (arguments : List Text) :
    ∃ (items : List Item) (rest : List Text), (∀ item ∈ items, item.Legal options flags) ∧
      arguments = items.flatMap Item.tokens ++ rest ∧
      callbacks.Accepts world (items.map (Item.call (options ++ flags))) ∧
      (rest = [] ∨
        (∃ item more, Item.Legal options flags item ∧ rest = item.tokens ++ more ∧
          ¬ callbacks.Accepts world
            (items.map (Item.call (options ++ flags)) ++ [item.call (options ++ flags)])) ∨
        rest ≠ [] ∧ ∀ item more, Item.Legal options flags item → rest ≠ item.tokens ++ more) := by
  generalize size : arguments.length = count
  induction count using Nat.strong_induction_on generalizing arguments world with
  | _ count ih =>
      by_cases ended : arguments = []
      · exact ⟨[], [], by simp, by simp [ended], trivial, .inl rfl⟩
      by_cases begins : ∃ item more, Item.Legal options flags item ∧ arguments = item.tokens ++ more
      · obtain ⟨item, more, legal, rfl⟩ := begins
        by_cases accepted : (callbacks.answer (item.call (options ++ flags)) world).1 = true
        · have shorter : more.length < count := by
            rw [← size, List.length_append]
            cases item <;> simp only [Item.tokens, List.length_cons, List.length_nil] <;> omega
          obtain ⟨items, rest, legalRest, rfl, acceptedRest, next⟩ := ih more.length shorter
            (callbacks.answer (item.call (options ++ flags)) world).2 more rfl
          refine ⟨item :: items, rest, ?_, ?_, ⟨accepted, acceptedRest⟩, ?_⟩
          · exact List.forall_mem_cons.mpr ⟨legal, legalRest⟩
          · rw [List.flatMap_cons, List.append_assoc]
          · rcases next with ended | ⟨refused, more, legalRefused, rest_eq, not_accepted⟩ | stuck
            · exact .inl ended
            · right
              left
              refine ⟨refused, more, legalRefused, rest_eq, ?_⟩
              intro all
              exact not_accepted all.2
            · exact .inr (.inr stuck)
        · refine ⟨[], item.tokens ++ more, by simp, by simp, trivial, ?_⟩
          right
          left
          exact ⟨item, more, legal, rfl, fun all => accepted all.1⟩
      · refine ⟨[], arguments, by simp, by simp, trivial, .inr (.inr ⟨ended, ?_⟩)⟩
        intro item more legal same
        exact begins ⟨item, more, legal, same⟩

theorem parseFrom_items (undashed : Undashed (options ++ flags)) {items : List Item}
    (legal : ∀ item ∈ items, item.Legal options flags) (made : Made World)
    (accepted : callbacks.Accepts made.world (items.map (Item.call (options ++ flags))))
    (rest : List Text) :
    (ArgParser.construct options flags).parseFrom callbacks none made
        (items.flatMap Item.tokens ++ rest) =
      (ArgParser.construct options flags).parseFrom callbacks none
        (made.callAll callbacks (items.map (Item.call (options ++ flags)))) rest := by
  induction items generalizing made with
  | nil => rfl
  | cons item items ih =>
      obtain ⟨legalItem, legalItems⟩ := List.forall_mem_cons.mp legal
      rw [List.flatMap_cons, List.append_assoc, parseFrom_item undashed legalItem,
        if_pos accepted.1]
      exact ih legalItems _ accepted.2

/-- Items that are accepted up to the end are accepted in all. -/
theorem accepts_of_accepted (undashed : Undashed (options ++ flags)) {items : List Item}
    (legal : ∀ item ∈ items, item.Legal options flags) (made : Made World) {parsed : Parsed World}
    (found : (ArgParser.construct options flags).parseFrom callbacks none made
      (items.flatMap Item.tokens) = some parsed) (accepted : parsed.accepted = true) :
    callbacks.Accepts made.world (items.map (Item.call (options ++ flags))) := by
  induction items generalizing made with
  | nil => trivial
  | cons item items ih =>
      obtain ⟨legalItem, legalItems⟩ := List.forall_mem_cons.mp legal
      rw [List.flatMap_cons, parseFrom_item undashed legalItem] at found
      split at found
      · rename_i answered
        exact ⟨answered, ih legalItems _ found⟩
      · obtain rfl := Option.some.inj found
        cases accepted

/-- `parse` reads items up to the end of the arguments, or up to where it fails. -/
theorem parse_reads (undashed : Undashed (options ++ flags)) {world : World}
    {arguments : List Text} {parsed : Parsed World}
    (found : (ArgParser.construct options flags).parseFrom callbacks none ⟨[], world⟩ arguments =
      some parsed) :
    ∃ (items : List Item) (rest : List Text), (∀ item ∈ items, item.Legal options flags) ∧
      arguments = items.flatMap Item.tokens ++ rest ∧
      parsed.made.calls = items.map (Item.call (options ++ flags)) ∧
      ((parsed.accepted = true ∧ rest = [] ∧ callbacks.Accepts world parsed.made.calls) ∨
        (parsed.accepted = false ∧ Fails options flags callbacks world parsed.made.calls rest)) := by
  obtain ⟨items, rest, legal, rfl, accepted, next⟩ :=
    read_items options flags callbacks world arguments
  rw [parseFrom_items undashed legal _ accepted] at found
  have made := Made.callAll_calls callbacks ⟨[], world⟩ (items.map (Item.call (options ++ flags)))
  rw [List.nil_append] at made
  rcases next with rfl | ⟨item, more, legalItem, rfl, refused⟩ | ⟨some_rest, no_item⟩
  · obtain rfl := Option.some.inj found
    exact ⟨items, [], legal, rfl, made, .inl ⟨rfl, rfl, made.symm ▸ accepted⟩⟩
  · have answered : ¬ (callbacks.answer (item.call (options ++ flags))
        ((Made.mk [] world).callAll callbacks (items.map (Item.call (options ++ flags)))).world).1 =
          true := by
      intro yes
      exact refused ((callbacks.accepts_concat ⟨[], world⟩ _ _).mpr ⟨accepted, yes⟩)
    rw [parseFrom_item undashed legalItem, if_neg answered] at found
    obtain rfl := Option.some.inj found
    have calls : (((Made.mk [] world).callAll callbacks
        (items.map (Item.call (options ++ flags)))).call callbacks
          (item.call (options ++ flags))).calls =
        items.map (Item.call (options ++ flags)) ++ [item.call (options ++ flags)] := by
      rw [Made.call, made]
    refine ⟨items ++ [item], more, ?_, ?_, ?_, ?_⟩
    · intro other member
      rcases List.mem_append.mp member with old | new
      · exact legal other old
      · exact List.mem_singleton.mp new ▸ legalItem
    · simp only [List.flatMap_append, List.flatMap_cons, List.flatMap_nil, List.append_nil,
        List.append_assoc]
    · rw [calls, List.map_append, List.map_singleton]
    · right
      rw [calls]
      exact ⟨rfl, .refused accepted refused⟩
  · obtain ⟨error, stopped⟩ := @parseFrom_stuck _ _ _ callbacks _ some_rest no_item
      ((Made.mk [] world).callAll callbacks (items.map (Item.call (options ++ flags))))
    rw [stopped] at found
    obtain rfl := Option.some.inj found
    refine ⟨items, rest, legal, rfl, made, .inr ⟨rfl, ?_⟩⟩
    rw [made]
    exact .stuck accepted some_rest no_item

/-- Arguments that are all items are rejected only for a refused call. -/
theorem accepted_of_items (undashed : Undashed (options ++ flags)) {items : List Item}
    (legal : ∀ item ∈ items, item.Legal options flags) {world : World} {parsed : Parsed World}
    (found : (ArgParser.construct options flags).parseFrom callbacks none ⟨[], world⟩
      (items.flatMap Item.tokens) = some parsed)
    (accepts : callbacks.Accepts world (items.map (Item.call (options ++ flags)))) :
    parsed.accepted = true ∧ parsed.made.calls = items.map (Item.call (options ++ flags)) := by
  rw [← List.append_nil (items.flatMap _), parseFrom_items undashed legal _ accepts] at found
  obtain rfl := Option.some.inj found
  have made := Made.callAll_calls callbacks ⟨[], world⟩ (items.map (Item.call (options ++ flags)))
  exact ⟨rfl, made.trans (List.nil_append _)⟩

end Parse

/-- `parse` answers every table and every list of arguments.  Where no name starts with a
dash, it accepts the sequences of items whose calls are accepted, and no others. -/
theorem parse_grammar {World : Type} (options flags : List (Text × Text))
    (callbacks : Callbacks World) (world : World) (argv : List Text) :
    ∃ parsed, (ArgParser.construct options flags).parse callbacks world argv = some parsed ∧
      (Undashed (options ++ flags) →
        Grammatical options flags callbacks world (argv.drop 1) parsed) := by
  have answered := @parseFrom_isSome _ options flags callbacks
    none ⟨[], world⟩ (argv.drop 1) (by simp)
  obtain ⟨parsed, found⟩ := Option.isSome_iff_exists.mp answered
  refine ⟨parsed, found, ?_⟩
  intro undashed
  obtain ⟨items, rest, legal, split, calls, outcome⟩ := parse_reads undashed found
  refine ⟨⟨?_, ?_⟩, ?_, ?_, ?_⟩
  · intro accepted
    rcases outcome with ⟨_, rfl, accepts⟩ | ⟨rejected, _⟩
    · exact ⟨items, legal, split.trans (List.append_nil _), calls ▸ accepts⟩
    · rw [rejected] at accepted
      cases accepted
  · intro decomposed
    obtain ⟨others, legalOthers, same, accepts⟩ := decomposed
    rw [same] at found
    exact (accepted_of_items undashed legalOthers found accepts).1
  · intro accepted others legalOthers same
    rw [same] at found
    have accepts := accepts_of_accepted undashed legalOthers _ found accepted
    exact (accepted_of_items undashed legalOthers found accepts).2
  · intro rejected
    rcases outcome with ⟨accepted, _⟩ | ⟨_, fails⟩
    · rw [rejected] at accepted
      cases accepted
    · exact ⟨items, rest, legal, split, calls, fails⟩
  · intro distinct pair member item same
    exact longName_of_mem distinct member same

/-- A value that looks like a flag, with callbacks that take every option and no flag. -/
theorem parse_grammar_port :
    ∃ parsed, (ArgParser.construct [("p".toList, "port".toList)]
        [("v".toList, "verbose".toList)]).parse
          ⟨fun _ _ world => (true, world), fun _ world => (false, world)⟩ ()
          ["main".toList, "--p".toList, "-v".toList] = some parsed ∧
      Grammatical [("p".toList, "port".toList)] [("v".toList, "verbose".toList)]
        ⟨fun _ _ world => (true, world), fun _ world => (false, world)⟩ ()
        ["--p".toList, "-v".toList] parsed := by
  obtain ⟨parsed, found, grammatical⟩ := parse_grammar [("p".toList, "port".toList)]
    [("v".toList, "verbose".toList)]
    ⟨fun _ _ world => (true, world), fun _ world => (false, world)⟩ ()
    ["main".toList, "--p".toList, "-v".toList]
  have undashed : Undashed [("p".toList, "port".toList), ("v".toList, "verbose".toList)] := by
    unfold Undashed
    decide
  exact ⟨parsed, found, grammatical undashed⟩

end RcControl.Args
