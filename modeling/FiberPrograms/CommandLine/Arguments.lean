import FiberPrograms.Demo
import FiberPrograms.Settings.Basic

/-!
# Arguments of the command line

The command line has a subcommand, and options before and behind it. An option that takes a value
takes it behind an equals sign or from the next argument, which then must not look like an option;
negative numbers do not, where a number with a sign is asked for. A value is looked at when the
next option comes or when there are no more arguments, so whatever is wrong with the names of
options before that is told first. After `--`, nothing is an option.

The options for the settings may stand before and behind the subcommand; those behind it count.

## Main definitions

* `Invocation`, `Command`: what the command line asks for
* `UsageError`: why arguments ask for nothing, with `exitCode` and `toErrorOutput`
* `Invocation.parse`: what arguments ask for
-/

namespace FiberPrograms.CommandLine

/-- What is to be done. -/
inductive Command where
  /-- Run the sum of two actions, and tell what was observed if `trace`. -/
  | demo (plan : Demo.Plan) (trace : Bool)
  /-- Run a chain of steps. -/
  | chain (steps : UInt64)
  /-- Tell the settings. -/
  | config

/-- What the command line asks for. -/
structure Invocation where
  /-- The file of settings. -/
  configPath : Option String
  spawner : Option SpawnerKind
  command : Command

/-- Why arguments ask for nothing. -/
inductive UsageError where
  /-- Help was asked for. -/
  | help
  /-- There is nothing at all, so help is given. -/
  | nothing
  | missingSubcommand
  | invalidSubcommand
  | unknownArgument
  /-- A value is missing, or not among those that can be chosen. -/
  | invalidValue
  /-- A value could not be read. -/
  | unreadableValue
  /-- An option that takes no value has one. -/
  | unexpectedValue
  /-- An option is given twice. -/
  | repeated
deriving DecidableEq, Repr

namespace UsageError

/-- What the program ends with. Asking for help is no failure. -/
def exitCode : UsageError → Nat
  | help => 0
  | _ => 2

/-- Whether the message goes to the output for errors. -/
def toErrorOutput : UsageError → Bool
  | help => false
  | _ => true

/-- What is said about the arguments, if there is anything wrong with them. -/
def message? : UsageError → Option String
  | help | nothing => none
  | missingSubcommand => some "error: a subcommand is missing"
  | invalidSubcommand => some "error: there is no such subcommand"
  | unknownArgument => some "error: there is no such argument"
  | invalidValue => some "error: a value is missing or cannot be chosen"
  | unreadableValue => some "error: a value cannot be read"
  | unexpectedValue => some "error: there is a value where none can be given"
  | repeated => some "error: an argument is given twice"

end UsageError

/-! ## Numbers -/

/-- The number that decimal digits are, if there are any. -/
def digitsValue? (cs : List Char) : Option Nat :=
  if cs.isEmpty || !cs.all Char.isDigit then none
  else some (cs.foldl (fun n c => n * 10 + (c.toNat - '0'.toNat)) 0)

/-- A number with or without a plus, if it is in range. -/
def naturalOf? (s : String) : Option UInt64 :=
  let digits :=
    match s.toList with
    | '+' :: rest => rest
    | cs => cs
  (digitsValue? digits).bind fun n => UInt64.ofInt? n

/-- A number with or without a sign, if it is in range. -/
def signedOf? (s : String) : Option Int64 := do
  let n : Int ←
    match s.toList with
    | '-' :: rest => (digitsValue? rest).map fun n => -(n : Int)
    | '+' :: rest => (digitsValue? rest).map fun n => (n : Int)
    | cs => (digitsValue? cs).map fun n => (n : Int)
  if Int64.minValue.toInt ≤ n ∧ n ≤ Int64.maxValue.toInt then some (.ofInt n) else none

/-- Whether characters look like a number: digits, a point that does not come first, and an
exponent that comes neither first nor last. -/
def looksLikeNumber (first point exponent : Bool) : List Char → Bool
  | [] => true
  | '.' :: rest => !first && !point && !exponent && looksLikeNumber false true exponent rest
  | c :: rest =>
    if c == 'e' || c == 'E' then
      !first && !exponent && !rest.isEmpty && looksLikeNumber false point true rest
    else c.isDigit && looksLikeNumber false point exponent rest

/-! ## Options -/

/-- What an option asks for. -/
inductive OptionKind where
  /-- Nothing: it is given or not. -/
  | flag
  | path
  | spawner
  /-- A number with a sign. -/
  | signed
  /-- A number without a sign. -/
  | natural
deriving DecidableEq

/-- An option. -/
structure CommandOption where
  name : String
  kind : OptionKind

/-- The options that may stand before and behind the subcommand. -/
def commonOptions : List CommandOption :=
  [⟨"config", .path⟩, ⟨"spawner", .spawner⟩]

/-- The subcommands, each with its options. -/
def subcommands : List (String × List CommandOption) :=
  [("demo", [⟨"left", .signed⟩, ⟨"right", .signed⟩, ⟨"left-delay-ms", .natural⟩,
      ⟨"right-delay-ms", .natural⟩, ⟨"trace", .flag⟩] ++ commonOptions),
    ("chain", ⟨"steps", .natural⟩ :: commonOptions),
    ("config", commonOptions)]

/-- Why a value cannot be taken for what an option asks for, if it cannot. -/
def OptionKind.refuses (kind : OptionKind) (value : String) : Option UsageError :=
  match kind with
  | .flag => none
  | .path => if value.isEmpty then some .invalidValue else none
  | .spawner => if (SpawnerKind.ofName? value).isSome then none else some .invalidValue
  | .signed => if (signedOf? value).isSome then none else some .unreadableValue
  | .natural => if (naturalOf? value).isSome then none else some .unreadableValue

/-- The options read so far, and one whose value has not been looked at or has not come. -/
structure Progress where
  values : List (String × String) := []
  pending : Option (CommandOption × Option String) := none
  /-- Whether `--` has been read. -/
  onlyPlain : Bool := false

namespace Progress

/-- Take an option with its value. It must not have been given before. -/
def take (option : CommandOption) (value : String) (progress : Progress) :
    Except UsageError Progress :=
  if (progress.values.lookup option.name).isSome then .error .repeated
  else
    match option.kind.refuses value with
    | some error => .error error
    | none => .ok { progress with values := (option.name, value) :: progress.values }

/-- Look at the value of the option that is pending. -/
def resolve (progress : Progress) : Except UsageError Progress :=
  match progress.pending with
  | none => .ok progress
  | some (_, none) => .error .invalidValue
  | some (option, some value) => ({ progress with pending := none }).take option value

/-- Whether the next argument is the value of an option. -/
def wantsValue (progress : Progress) : Bool :=
  match progress.pending with
  | some (_, none) => true
  | _ => false

/-- Whether the value that is wanted may be a negative number. -/
def wantsSigned (progress : Progress) : Bool :=
  match progress.pending with
  | some (option, none) => option.kind == .signed
  | _ => false

end Progress

/-! ## Arguments -/

/-- The shapes of arguments. -/
inductive Shape where
  /-- The end of the options. -/
  | dashes
  /-- An option by its name, and what stands behind an equals sign. -/
  | long (name : String) (value : Option String)
  /-- Options by letters. -/
  | short (letters : List Char)
  | plain

/-- The shape of an argument. -/
def shapeOf (argument : String) : Shape :=
  match argument.toList with
  | ['-', '-'] => .dashes
  | '-' :: '-' :: rest =>
    match rest.span (· != '=') with
    | (name, '=' :: value) => .long (String.ofList name) (some (String.ofList value))
    | (name, _) => .long (String.ofList name) none
  | ['-'] => .plain
  | '-' :: letters => .short letters
  | _ => .plain

/-- What reading the arguments of one level comes to: the options, and the arguments from the
subcommand on if there is one. -/
abbrev Level : Type := Progress × Option (String × List String)

/-- Read an option by its name. -/
def readLong (options : List CommandOption) (name : String) (value : Option String)
    (progress : Progress) : Except UsageError Progress :=
  if name == "help" then
    match value with
    | some _ => .error .unexpectedValue
    | none => progress.resolve.bind fun _ => .error .help
  else
    match options.find? (·.name == name) with
    | none => .error .unknownArgument
    | some option =>
      match option.kind, value with
      | .flag, some _ => .error .unexpectedValue
      | .flag, none => progress.resolve.bind (·.take option "")
      | _, some value => progress.resolve.bind (·.take option value)
      | _, none => progress.resolve.map fun progress =>
        { progress with pending := some (option, none) }

/-- Read an argument that is no option and not wanted as a value. -/
def refusePlain (isRoot : Bool) (argument : String) (progress : Progress) : UsageError :=
  if isRoot && !(progress.onlyPlain
      && (argument == "help" || (subcommands.lookup argument).isSome)) then .invalidSubcommand
  else .unknownArgument

/-- Read arguments up to the end, or up to a subcommand where there may be one. -/
def readLevel (isRoot : Bool) (options : List CommandOption) (progress : Progress) :
    List String → Except UsageError Level
  | [] => .ok (progress, none)
  | argument :: rest =>
    let value : Except UsageError Level :=
      match progress.pending with
      | some (option, none) =>
        readLevel isRoot options { progress with pending := some (option, some argument) } rest
      | _ => .error (refusePlain isRoot argument progress)
    if progress.onlyPlain then .error (refusePlain isRoot argument progress)
    else if isRoot && !progress.wantsValue
        && (argument == "help" || (subcommands.lookup argument).isSome) then
      .ok (progress, some (argument, rest))
    else
      match shapeOf argument with
      | .dashes => readLevel isRoot options { progress with onlyPlain := true } rest
      | .long name value =>
        match readLong options name value progress with
        | .error error => .error error
        | .ok progress => readLevel isRoot options progress rest
      | .short letters =>
        if progress.wantsSigned && looksLikeNumber true false false letters then value
        else if letters.head? == some 'h' then progress.resolve.bind fun _ => .error .help
        else .error .unknownArgument
      | .plain => value

/-- Help on a subcommand, or on the whole command line. -/
def helpOn : List String → UsageError
  | [] => .help
  | [name] =>
    if name == "help" || (subcommands.lookup name).isSome then .help else .invalidSubcommand
  | _ => .invalidSubcommand

/-- The command that a subcommand and its options ask for. -/
def Command.ofOptions? (name : String) (values : List (String × String)) : Option Command :=
  let signed (name : String) (default : Int64) : Int64 :=
    ((values.lookup name).bind signedOf?).getD default
  let natural (name : String) (default : UInt64) : UInt64 :=
    ((values.lookup name).bind naturalOf?).getD default
  let plan : Demo.Plan := {}
  match name with
  | "demo" =>
    some (.demo
      { left := signed "left" plan.left
        right := signed "right" plan.right
        leftDelay := natural "left-delay-ms" plan.leftDelay
        rightDelay := natural "right-delay-ms" plan.rightDelay }
      (values.lookup "trace").isSome)
  | "chain" => some (.chain (natural "steps" 1000000))
  | "config" => some .config
  | _ => none

/-- What arguments ask for. -/
def Invocation.parse (arguments : List String) : Except UsageError Invocation := do
  match ← readLevel true commonOptions {} arguments with
  | (progress, none) =>
    let progress ← progress.resolve
    .error (if progress.values.isEmpty then .nothing else .missingSubcommand)
  | (progress, some (name, rest)) =>
    match subcommands.lookup name with
    | none => .error (helpOn rest)
    | some options =>
      let (inner, _) ← readLevel false options {} rest
      let inner ← inner.resolve
      let outer ← progress.resolve
      let values := inner.values ++ outer.values
      match Command.ofOptions? name values with
      | none => .error .invalidSubcommand
      | some command =>
        return ⟨values.lookup "config", (values.lookup "spawner").bind SpawnerKind.ofName?, command⟩

end FiberPrograms.CommandLine
