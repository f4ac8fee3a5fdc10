/-!
# Reading a command line

A command line names a command and gives it operands and options.  What a program
understands is written down as forms: a `ProgramForm` has commands and options that go with
all of them, a `CommandForm` has options of its own and says how many operands it takes.

## Rules

An option is named by a word after two hyphens, or by a letter after one.  Several letters
may share a hyphen.  A value follows as the next argument, after an equals sign, or directly
behind the letter; as the next argument it may not begin with a hyphen.  After a bare `--`
every argument is an operand.

The first operand is the name of the command.  Options before it belong to the program,
options after it to the command, which understands those of the program as well; where both
give the same one, the command's counts.  Within each of the two parts an option is given at
most once, unless it is one that collects its values.

Arguments are read from the left, one at a time, and the first one that makes no sense ends
the reading.  So does an option that asks for something else, such as the version.

Every program understands the command `help` besides its own ones.  One command may follow,
which is what the help is about.
-/

namespace GraphBase.CommandLine

/-- Why reading ended early. -/
inductive Stop where
  | malformed
  | version
  | help
  deriving DecidableEq, Repr

/-- What an option takes. -/
inductive OptionKind where
  | flag
  /-- One value that passes a test. -/
  | value (accepts : String → Bool)
  /-- Any number of values. -/
  | collected
  /-- Nothing: the option ends the reading. -/
  | ending (stop : Stop)

/-- An option of a program or a command. -/
structure OptionForm where
  name : String
  letter : Option Char := none
  kind : OptionKind

/-- A command, and how many operands it takes. -/
structure CommandForm where
  name : String
  options : List OptionForm := []
  least : Nat := 0
  most : Option Nat := some least

/-- A program with its commands. -/
structure ProgramForm where
  /-- The options before the command. -/
  options : List OptionForm
  /-- The options that go with every command. -/
  shared : List OptionForm
  commands : List CommandForm

/-- What has been read so far.  Options are kept by name, flags with an empty value. -/
structure Reading where
  command : Option CommandForm := none
  /-- An option whose value comes next. -/
  pending : Option OptionForm := none
  isEscaped : Bool := false
  /-- Whether help is asked for, and what it is about. -/
  help : Option (Option String) := none
  programOptions : List (String × String) := []
  options : List (String × String) := []
  operands : List String := []

namespace Reading

/-- The options that are understood at this point. -/
def known (p : ProgramForm) (r : Reading) : List OptionForm :=
  match r.command with
  | none => p.options ++ p.shared
  | some c => c.options ++ p.shared

/-! ## One argument -/

/-- Keeps an option with its value. -/
def keep (r : Reading) (o : OptionForm) (value : String) : Except Stop Reading :=
  let isRepeated := r.options.any fun given => given.1 == o.name
  let isFine := match o.kind with
    | .collected => true
    | .value accepts => accepts value && !isRepeated
    | _ => !isRepeated
  if isFine then .ok { r with options := r.options ++ [(o.name, value)], pending := none }
  else .error .malformed

/-- Meets an option, perhaps with a value attached to it. -/
def meet (r : Reading) (o : OptionForm) : Option String → Except Stop Reading
  | none =>
    match o.kind with
    | .ending stop => .error stop
    | .flag => r.keep o ""
    | _ => .ok { r with pending := some o }
  | some value =>
    match o.kind with
    | .ending _ | .flag => .error .malformed
    | _ => r.keep o value

/-- Whether an option takes a value. -/
def takesValue (o : OptionForm) : Bool :=
  match o.kind with
  | .value _ | .collected => true
  | _ => false

/-- Meets a word after two hyphens. -/
def meetWord (p : ProgramForm) (r : Reading) (word : List Char) : Except Stop Reading :=
  let name := String.ofList (word.takeWhile (· ≠ '='))
  match (r.known p).find? (fun o => o.name == name), word.dropWhile (· ≠ '=') with
  | none, _ => .error .malformed
  | some o, [] => r.meet o none
  | some o, _ :: value => r.meet o (some (String.ofList value))

/-- Meets letters after one hyphen.  What follows the letter of an option with a value is
that value. -/
def meetLetters (p : ProgramForm) (r : Reading) : List Char → Except Stop Reading
  | [] => .ok r
  | c :: rest =>
    match (r.known p).find? (fun o => o.letter == some c) with
    | none => .error .malformed
    | some o =>
      if takesValue o then
        match rest with
        | [] => r.meet o none
        | '=' :: value => r.meet o (some (String.ofList value))
        | value => r.meet o (some (String.ofList value))
      else
        match r.meet o none with
        | .ok r => meetLetters p r rest
        | .error stop => .error stop

/-- Meets an operand; the first one names the command. -/
def meetOperand (p : ProgramForm) (r : Reading) (arg : String) : Except Stop Reading :=
  match r.command with
  | some c =>
    if c.most.any (· ≤ r.operands.length) then .error .malformed
    else .ok { r with operands := r.operands ++ [arg] }
  | none =>
    if r.isEscaped then .error .malformed
    else if arg = "help" then .ok { r with help := some none }
    else
      match p.commands.find? fun c => c.name == arg with
      | some c => .ok { command := some c, programOptions := r.options }
      | none => .error .malformed

/-- Meets what help is asked about: one command. -/
def meetTopic (p : ProgramForm) (r : Reading) (arg : String) : Option String → Except Stop Reading
  | none =>
    if arg = "help" ∨ p.commands.any (·.name == arg) then .ok { r with help := some (some arg) }
    else .error .malformed
  | some _ => .error .malformed

/-- Reads one argument. -/
def step (p : ProgramForm) (r : Reading) (arg : String) : Except Stop Reading :=
  match r.help with
  | some topic => r.meetTopic p arg topic
  | none =>
    if r.isEscaped then r.meetOperand p arg
    else
      match arg.toList, r.pending with
      | '-' :: _ :: _, some _ => .error .malformed
      | ['-', '-'], none => .ok { r with isEscaped := true }
      | '-' :: '-' :: word, none => r.meetWord p word
      | '-' :: c :: letters, none => r.meetLetters p (c :: letters)
      | _, some o => r.keep o arg
      | _, none => r.meetOperand p arg

/-! ## The whole line -/

/-- A reading at its end: no value is missing, there is a command, and it has its operands. -/
def finish (r : Reading) : Except Stop Reading :=
  match r.help, r.pending, r.command with
  | some _, _, _ => .error .help
  | none, none, some c => if c.least ≤ r.operands.length then .ok r else .error .malformed
  | none, _, _ => .error .malformed

/-- Reads all arguments. -/
def ofArguments (p : ProgramForm) (args : List String) : Except Stop Reading :=
  match args.foldlM (step p) {} with
  | .ok r => r.finish
  | .error stop => .error stop

/-- The values given for an option: those of the command, or else those of the program. -/
def values (r : Reading) (name : String) : List String :=
  let given (options : List (String × String)) : List String :=
    (options.filter fun o => o.1 == name).map (·.2)
  if (given r.options).isEmpty then given r.programOptions else given r.options

/-- The value given for an option. -/
def value? (r : Reading) (name : String) : Option String := (r.values name).head?

/-- Whether an option is given. -/
def has (r : Reading) (name : String) : Bool := (r.value? name).isSome

end Reading

end GraphBase.CommandLine
