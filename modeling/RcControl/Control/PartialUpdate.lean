import RcControl.Control.Peers

namespace RcControl.Control

/-! What a control message that fails has already done.

The handler steers before it looks at the throttle, and nothing is taken back when a
later conversion throws. -/

/-- `dc->onMessage` on the text it receives, where `parse` is `nlohmann::json::parse`. -/
def onText (parse : String → Except String Json) (msg : String) : Handling :=
  match parse msg with
  | .error text => { commands := [], error := some text }
  | .ok message => onMessage message

/-- The servo calls of a handler, made one after the other. -/
def Car.obey (car : Car) (handling : Handling) : Car := handling.commands.foldl Car.servo car

/-- What a member asks for: nothing if it is missing, one servo call if it converts. -/
def asked (message : Json) (key : String) (servo : Servo) : Except String (List Command) :=
  match message.find key with
  | none => .ok []
  | some value => value.getInt.map fun pwm => [⟨servo, pwm⟩]

/-- Every member that is present is applied. -/
def Applied (document : Except String Json) (handling : Handling) : Prop :=
  ∃ message xs ys, document = .ok message ∧ asked message "x" .steer = .ok xs ∧
    asked message "y" .bldc = .ok ys ∧ handling = { commands := xs ++ ys, error := none }

def Refused (handling : Handling) : Prop := handling.commands = [] ∧ handling.error ≠ none

structure Atomic (document : Except String Json) (handling : Handling) : Prop where
  whole : Applied document handling ∨ Refused handling
  steering_kept : ∀ message text, document = .ok message → asked message "y" .bldc = .error text →
    ∀ car : Car, (car.obey handling).steer = car.steer
  throttle_kept : ∀ message text, document = .ok message → asked message "x" .steer = .error text →
    ∀ car : Car, (car.obey handling).bldc = car.bldc

/-- Only a `y` that does not convert is noticed late: what `x` asks for is done by then. -/
structure SteersFirst (document : Except String Json) (handling : Handling) : Prop where
  whole : Applied document handling ∨ Refused handling ∨
    ∃ message xs text, document = .ok message ∧ asked message "x" .steer = .ok xs ∧
      asked message "y" .bldc = .error text ∧ handling = { commands := xs, error := some text }
  steered : ∀ message xs text, document = .ok message → asked message "x" .steer = .ok xs →
    asked message "y" .bldc = .error text → handling = { commands := xs, error := some text }
  refused : ∀ message text, document = .ok message → asked message "x" .steer = .error text →
    Refused handling
  throttle_kept : handling.error ≠ none → ∀ car : Car, (car.obey handling).bldc = car.bldc

theorem servoMember_eq (message : Json) (key : String) (servo : Servo) (rest : Handling) :
    servoMember message key servo rest =
      match asked message key servo with
      | .error text => { commands := [], error := some text }
      | .ok commands => { commands := commands ++ rest.commands, error := rest.error } := by
  unfold servoMember asked
  cases message.find key with
  | none => rfl
  | some value => cases converted : value.getInt <;> simp [converted, Except.map]

theorem asked_servo {message : Json} {key : String} {servo : Servo} {commands : List Command}
    (found : asked message key servo = .ok commands) :
    ∀ command ∈ commands, command.servo = servo := by
  unfold asked at found
  split at found
  · obtain rfl := Except.ok.inj found
    simp
  · rename_i value _
    cases converted : value.getInt with
    | error text =>
        rw [converted] at found
        cases found
    | ok pwm =>
        rw [converted] at found
        obtain rfl := Except.ok.inj found
        simp

theorem obey_bldc {handling : Handling}
    (steering : ∀ command ∈ handling.commands, command.servo = .steer) (car : Car) :
    (car.obey handling).bldc = car.bldc := by
  obtain ⟨commands, error⟩ := handling
  change (commands.foldl Car.servo car).bldc = car.bldc
  change ∀ command ∈ commands, command.servo = .steer at steering
  induction commands generalizing car with
  | nil => rfl
  | cons command commands ih =>
      obtain ⟨here, later⟩ := List.forall_mem_cons.mp steering
      rw [List.foldl_cons, ih _ later, Car.servo, here]

/-- A message is applied in whole or refused in whole, unless only its `y` does not convert:
then its `x` has been applied.  No message that fails changes the throttle. -/
theorem onText_steersFirst (parse : String → Except String Json) (msg : String) :
    SteersFirst (parse msg) (onText parse msg) := by
  unfold onText
  cases document : parse msg with
  | error text =>
      have refused : Refused { commands := [], error := some text } := ⟨rfl, by simp⟩
      exact ⟨.inr (.inl refused), fun _ _ _ same => (by cases same), fun _ _ _ _ => refused, fun _ _ => rfl⟩
  | ok message =>
      dsimp only
      rw [onMessage, servoMember_eq, servoMember_eq]
      cases askedX : asked message "x" .steer with
      | error text =>
          have refused : Refused { commands := [], error := some text } := ⟨rfl, by simp⟩
          have converts : ∀ other xs, (Except.ok message : Except String Json) = .ok other →
              asked other "x" .steer ≠ .ok xs := by
            intro other xs same converted
            obtain rfl := Except.ok.inj same
            rw [askedX] at converted
            cases converted
          refine ⟨.inr (.inl refused), ?_, fun _ _ _ _ => refused, fun _ _ => rfl⟩
          exact fun other xs text same converted => absurd converted (converts other xs same)
      | ok xs =>
          have converts : ∀ other text, (Except.ok message : Except String Json) = .ok other →
              asked other "x" .steer ≠ .error text := by
            intro other text same unconverted
            obtain rfl := Except.ok.inj same
            rw [askedX] at unconverted
            cases unconverted
          cases askedY : asked message "y" .bldc with
          | error text =>
              have steering : ∀ car : Car, (car.obey { commands := xs, error := some text }).bldc = car.bldc :=
                obey_bldc (asked_servo askedX)
              refine ⟨.inr (.inr ⟨message, xs, text, rfl, askedX, askedY, ?_⟩), ?_, ?_, ?_⟩
              · simp
              · intro other ys reason same steers fails
                obtain rfl := Except.ok.inj same
                obtain rfl := Except.ok.inj (askedX.symm.trans steers)
                obtain rfl := Except.error.inj (askedY.symm.trans fails)
                simp
              · exact fun other text same unconverted => absurd unconverted (converts other text same)
              · simpa using fun car => steering car
          | ok ys =>
              refine ⟨.inl ⟨message, xs, ys, rfl, askedX, askedY, ?_⟩, ?_, ?_, ?_⟩
              · simp
              · intro other _ _ same _ fails
                obtain rfl := Except.ok.inj same
                rw [askedY] at fails
                cases fails
              · exact fun other text same unconverted => absurd unconverted (converts other text same)
              · intro failed
                exact absurd rfl failed

/-- `y` is a string: the message fails, and the car steers. -/
theorem not_onText_atomic :
    ¬ ∀ (parse : String → Except String Json) (msg : String), Atomic (parse msg) (onText parse msg) := by
  intro atomic
  have all := atomic (fun _ => .ok (.object [("x", .integer 1200), ("y", .string "a")]))
    "\x7b\"x\":1200,\"y\":\"a\"\x7d"
  have kept := all.steering_kept _ _ rfl rfl Car.initial
  exact absurd kept (by decide)

end RcControl.Control
