import CopyControl.Command.Usage
import CopyControl.Files.Path
import CopyControl.Text.Digit
import CopyControl.Text.Similarity

/-!
Reading the arguments of the program.

Arguments are read one by one. The value of a flag, and the input, are looked at only when the
next argument that is understood, or the end, shows that they are complete; so of two faults it
is not always the first that is reported.
-/

namespace CopyControl

/-- What the program is asked to do. -/
inductive Command where
  | render (input : FilePath) (output : Option FilePath)
  | copy (input : FilePath) (block : Nat) (hold : Bool)
  | watch (input : FilePath) (output : Option FilePath)
deriving DecidableEq, Repr, Inhabited

namespace Command

/-- Why reading ends without a command. -/
inductive Stop where
  | usage (e : UsageError)
  /-- Help is asked for. -/
  | help (scope : Scope) (long : Bool)
  /-- There is no command. -/
  | nothingSaid
deriving DecidableEq, Repr, Inhabited

/-! ## Numbers -/

/-- Adds a digit to a number of 64 bits. -/
def addDigit (n : Nat) (c : Char) : Except NumberError Nat :=
  match Text.digit? 10 c with
  | none => .error .invalidDigit
  | some d => if 10 * n + d < UInt64.size then .ok (10 * n + d) else .error .tooLarge

/-- The number that a text writes, with or without a plus sign. -/
def readNumber (s : String) : Except NumberError Nat :=
  match s.toList with
  | [] => .error .empty
  | '+' :: c :: rest => (c :: rest).foldlM addDigit 0
  | digits => digits.foldlM addDigit 0

/-! ## Values -/

/-- What has been given to a command so far. -/
structure Given where
  /-- The slots that are filled, in the order in which they were. -/
  slots : List Slot
  input : Option FilePath
  output : Option FilePath
  block : Option Nat
deriving DecidableEq, Repr, Inhabited

namespace Given

def nothing : Given where
  slots := []
  input := none
  output := none
  block := none

/-- The flags that are given. -/
def flags (g : Given) : List Flag :=
  g.slots.filterMap fun slot =>
    match slot with
    | .flag f => some f
    | .input => none

/-- A path, which is never empty. -/
def path (slot : Slot) (value : String) : Except UsageError FilePath :=
  if value.isEmpty then .error (.missingValue slot) else .ok ⟨value⟩

/-- Fills a slot, which cannot be done twice. A flag without a value is filled with any. -/
def fill (g : Given) (v : Verb) (slot : Slot) (value : String) : Except UsageError Given := do
  if g.slots.contains slot then throw (.repeated slot (.general (.verb v)))
  let g := { g with slots := g.slots ++ [slot] }
  match slot with
  | .input => return { g with input := some (← path slot value) }
  | .flag .output => return { g with output := some (← path slot value) }
  | .flag .block =>
    match readNumber value with
    | .ok n => return { g with block := some n }
    | .error e => throw (.invalidNumber slot value e)
  | .flag _ => return g

/-- The command that all arguments together make. -/
def command (g : Given) (v : Verb) : Except UsageError Command :=
  match g.input with
  | none => .error (.missingInput (.withFlags (.verb v) g.flags))
  | some input =>
    match v with
    | .render => .ok (.render input g.output)
    | .copy => .ok (.copy input (g.block.getD 0) (!g.slots.contains (.flag .noHold)))
    | .watch => .ok (.watch input g.output)

end Given

/-! ## The arguments of a command -/

/-- The flag of a command whose name is most like another name, if one is like it. -/
def Verb.likeliest? (v : Verb) (name : String) : Option Flag := do
  let long ← (Text.similar name (v.flags.map Flag.long)).getLast?
  v.flags.find? (Flag.long · = long)

/-- Reading under way. -/
structure Reading where
  given : Given
  /-- The slot that was named last, and its value once it is there. -/
  pending : Option (Slot × Option String)
  /-- Whether two dashes have been read, behind which there are no flags. -/
  plain : Bool
deriving DecidableEq, Repr, Inhabited

namespace Reading

def start : Reading where
  given := .nothing
  pending := none
  plain := false

/-- Looks at the value of the pending slot. -/
def settle (r : Reading) (v : Verb) : Except UsageError Reading :=
  match r.pending with
  | none => .ok r
  | some (slot, none) => .error (.missingValue slot)
  | some (slot, some value) => do
    return { r with given := ← r.given.fill v slot value, pending := none }

def hasInput (r : Reading) : Bool :=
  r.given.slots.contains .input || r.pending.any (·.1 = .input)

/-- Whether any slot has a value, complete or not. -/
def hasValue (r : Reading) : Bool :=
  !r.given.slots.isEmpty || r.pending.any (·.2.isSome)

/-- Takes an argument that is no flag and no value of one. -/
def takeInput (r : Reading) (v : Verb) (argument : String) : Except UsageError Reading :=
  if r.hasInput then .error (.unexpectedArgument argument none (.general (.verb v)))
  else do return { ← r.settle v with pending := some (.input, some argument) }

/-- Takes a flag that has a value, which may stand in the same argument. -/
def takeOption (r : Reading) (v : Verb) (f : Flag) (value : Option String) :
    Except UsageError Reading := do
  let r ← r.settle v
  match value with
  | some value => return { r with given := ← r.given.fill v (.flag f) value }
  | none => return { r with pending := some (.flag f, none) }

/-- Takes a flag that has no value. -/
def takeSwitch (r : Reading) (v : Verb) (f : Flag) (long : Bool) : Except Stop Reading := do
  let r ← (r.settle v).mapError .usage
  if f = .help then throw (.help (.verb v) long)
  return { r with given := ← (r.given.fill v (.flag f) "").mapError .usage }

/-- What a command that has values already, or a flag that is meant, is shown with. -/
def usageWith (v : Verb) (hasValue : Bool) (f : Option Flag) : Usage :=
  match hasValue, f with
  | true, f => .anyOf v (f = some .help)
  | false, none => .general (.verb v)
  | false, some f => .withFlags (.verb v) [f]

/-- A long flag that the command does not have. -/
def unknownLong (r : Reading) (v : Verb) (name : String) : UsageError :=
  match v.likeliest? name with
  | some f =>
    .unexpectedArgument ("--" ++ name) (some (.similarFlag f))
      (usageWith v (r.hasValue || f != .help) (some f))
  | none =>
    .unexpectedArgument ("--" ++ name) (some (.asValue ("--" ++ name)))
      (usageWith v r.hasValue none)

/-- Takes a long flag with the value behind its equals sign. -/
def takeLong (r : Reading) (v : Verb) (name : String) (value : Option String) :
    Except Stop Reading :=
  match v.flags.find? (·.long = name) with
  | none => .error (.usage (r.unknownLong v name))
  | some f =>
    if f.valueName?.isSome then (r.takeOption v f value).mapError .usage
    else
      match value with
      | none => r.takeSwitch v f true
      | some value =>
        let usage := usageWith v (!r.given.slots.isEmpty) (some f)
        .error (.usage (.unwantedValue f value usage))

/-- The value behind a short flag, with or without an equals sign. -/
def attached : List Char → Option String
  | [] => none
  | '=' :: value => some (.ofList value)
  | value => some (.ofList value)

/-- Takes a short flag with what follows it. -/
def takeShort (r : Reading) (v : Verb) (c : Char) (rest : List Char) : Except Stop Reading :=
  match v.flags.find? (·.short? = some c) with
  | none =>
    let flag := String.ofList ['-', c]
    .error (.usage (.unexpectedArgument flag (some (.asValue flag)) (.general (.verb v))))
  | some f =>
    if f.valueName?.isSome then (r.takeOption v f (attached rest)).mapError .usage
    else r.takeSwitch v f false

end Reading

/-- The shapes that an argument can have. -/
inductive Shape where
  | dashes
  | long (name : String) (value : Option String)
  | short (c : Char) (rest : List Char)
  | word
deriving DecidableEq, Repr, Inhabited

/-- The shape of an argument. One dash alone is a word. -/
def shape (argument : String) : Shape :=
  match argument.toList with
  | ['-', '-'] => .dashes
  | '-' :: '-' :: rest =>
    let name := rest.takeWhile (· != '=')
    match rest.drop name.length with
    | _ :: value => .long (.ofList name) (some (.ofList value))
    | [] => .long (.ofList name) none
  | '-' :: c :: rest => .short c rest
  | _ => .word

namespace Reading

/-- Takes an argument. -/
def take (v : Verb) (r : Reading) (argument : String) : Except Stop Reading :=
  if r.plain then (r.takeInput v argument).mapError .usage
  else
    match shape argument with
    | .dashes => .ok { r with plain := true }
    | .long name value => r.takeLong v name value
    | .short c rest => r.takeShort v c rest
    | .word =>
      match r.pending with
      | some (slot, none) => .ok { r with pending := some (slot, some argument) }
      | _ => (r.takeInput v argument).mapError .usage

end Reading

/-- Reads the arguments of a command. -/
def readVerb (v : Verb) (arguments : List String) : Except Stop Command := do
  let r ← arguments.foldlM (Reading.take v) .start
  let r ← (r.settle v).mapError .usage
  (r.given.command v).mapError .usage

/-! ## The arguments of the program -/

/-- A name that is no command, with the commands that it is like. -/
def unknownCommand (name : String) : UsageError :=
  let tip := match Text.similar name commandNames with
    | [] => none
    | names => some (.similarCommands names)
  .unknownCommand name tip (.general .program)

/-- The flag of a command among the arguments that a name is like, of the first such command. -/
def flagOfLater? (name : String) : List String → Option (Verb × Flag)
  | [] => none
  | argument :: rest =>
    let meant := do
      let v ← Verb.ofName? argument
      return (v, ← v.likeliest? name)
    meant.or (flagOfLater? name rest)

/-- A long flag in front of the command. -/
def longOfProgram (name : String) (value : Option String) (rest : List String) : Stop :=
  let withHelp := Usage.withFlags .program [.help]
  match decide (name = Flag.long .help), value with
  | true, none => .help .program true
  | true, some value => .usage (.unwantedValue .help value withHelp)
  | false, _ =>
    let flag := "--" ++ name
    if (Text.similar name [Flag.long .help]).isEmpty then
      let tip := (flagOfLater? name rest).map fun (v, f) => Tip.flagOf v f
      .usage (.unexpectedArgument flag tip (.general .program))
    else .usage (.unexpectedArgument flag (some (.similarFlag .help)) withHelp)

/-- Help on the command that names lead to. -/
def readHelp : List String → Stop
  | [] => .help .program true
  | name :: rest =>
    let scope? := if name = helpName then some Scope.help else (Verb.ofName? name).map .verb
    match scope?, rest with
    | none, _ => .usage (.unknownCommand name none (.general .program))
    | some scope, [] => .help scope true
    | some scope, extra :: _ => .usage (.unknownCommand extra none (.general scope))

/-- Reads arguments up to the command, with or without two dashes in front. -/
def readProgram (plain : Bool) : List String → Except Stop Command
  | [] => .error .nothingSaid
  | argument :: rest =>
    if plain then
      if commandNames.contains argument then
        .error (.usage
          (.unexpectedArgument argument (some (.withoutDashes argument)) (.general .program)))
      else .error (.usage (unknownCommand argument))
    else
      match Verb.ofName? argument with
      | some v => readVerb v rest
      | none =>
        if argument = helpName then .error (readHelp rest)
        else
          match shape argument with
          | .dashes => readProgram true rest
          | .long name value => .error (longOfProgram name value rest)
          | .short c _ =>
            if some c = Flag.short? .help then .error (.help .program false)
            else
              .error (.usage
                (.unexpectedArgument (.ofList ['-', c]) none (.general .program)))
          | .word => .error (.usage (unknownCommand argument))

/-- Reads the arguments of the program. -/
def read (arguments : List String) : Except Stop Command :=
  readProgram false arguments

end Command

end CopyControl
