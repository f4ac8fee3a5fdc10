import GraphBase.CommandLine.Reading
import GraphBase.Traversal.Walk
import GraphBase.Triplets.Store
import GraphBase.Value.Scalar

/-!
# Commands

The program has commands for both stores: some write, read and delete facts of the triplet
store, some list what is in the property graph store, and one each writes settings, runs a
query and shows the counts.  `Request.ofArguments` reads a command line; what it answers
with has been checked, as far as it can be without a look at a database.
-/

namespace GraphBase.CommandLine

/-- How results are printed. -/
inductive Layout where
  | text
  | json
  deriving DecidableEq, Repr

namespace Layout

def ofName? : String → Option Layout
  | "text" => some text
  | "json" => some json
  | _ => none

end Layout

/-- What the program is asked to do. -/
inductive Command where
  /-- Writes a settings file. -/
  | init (force : Bool)
  | upsert (fact : Fact)
  | get (subject : String)
  | relMap (seeds : List String) (depth limit : Nat) (layout : Layout)
  | delete (fact : Fact)
  | query (statement : String)
  /-- Lists nodes; properties are given as `key=value`. -/
  | nodes (ids properties : List String) (layout : Layout)
  | triplets (entities relations ids properties : List String) (layout : Layout)
  /-- Lists the nodes nearest to a stored one. -/
  | similar (id : String) (count : Nat) (layout : Layout)
  | stats
  deriving DecidableEq

/-- A command, and where its settings come from. -/
structure Request where
  /-- The settings file, if one is named. -/
  settings : Option String := none
  /-- The database, if one is named; it goes before the one of the settings. -/
  database : Option String := none
  isVerbose : Bool := false
  command : Command
  deriving DecidableEq

/-! ## Numbers -/

/-- A number of steps: an integer literal that fits 32 bits. -/
def readDepth? (s : String) : Option Nat :=
  match (Scalar.readInt? s.toList).map Int64.toInt with
  | some (.ofNat n) => if n ≤ 0xFFFFFFFF then some n else none
  | _ => none

/-- A number of rows: digits after an optional plus sign, within 64 bits. -/
def readCount? (s : String) : Option Nat :=
  let ds := match s.toList with
    | '+' :: ds => ds
    | ds => ds
  if ds.isEmpty || !ds.all Number.isDigit then none
  else (some (Number.ofDigits ds)).filter (· ≤ 0xFFFFFFFFFFFFFFFF)

/-! ## Forms -/

def helpOption : OptionForm := ⟨"help", some 'h', .ending .help⟩

def versionOption : OptionForm := ⟨"version", some 'V', .ending .version⟩

def layoutOption : OptionForm := ⟨"format", some 'f', .value fun s => (Layout.ofName? s).isSome⟩

def depthOption : OptionForm := ⟨"depth", none, .value fun s => (readDepth? s).isSome⟩

def limitOption : OptionForm := ⟨"limit", some 'l', .value fun s => (readCount? s).isSome⟩

def countOption : OptionForm := ⟨"top-k", some 'k', .value fun s => (readCount? s).isSome⟩

/-- An option that collects names. -/
def namesOption (name : String) : OptionForm := ⟨name, none, .collected⟩

/-- The program. -/
def program : ProgramForm where
  options := [versionOption]
  shared := [
    ⟨"verbose", some 'v', .flag⟩,
    ⟨"config", some 'c', .value fun s => !s.isEmpty⟩,
    ⟨"database", some 'd', .value fun _ => true⟩,
    helpOption]
  commands := [
    { name := "init", options := [⟨"force", some 'f', .flag⟩] },
    { name := "upsert", least := 3 },
    { name := "get", least := 1 },
    { name := "rel-map", options := [depthOption, limitOption, layoutOption],
      least := 1, most := none },
    { name := "delete", least := 3 },
    { name := "query", least := 1 },
    { name := "nodes", options := [namesOption "id", namesOption "prop", layoutOption] },
    { name := "triplets",
      options := [namesOption "entity", namesOption "relation", namesOption "id",
        namesOption "prop", layoutOption] },
    { name := "similar", options := [countOption, layoutOption], least := 1 },
    { name := "stats" }]

/-! ## Defaults -/

/-- The number of neighbours unless another one is given. -/
def defaultCount : Nat := 10

/-! ## Reading -/

/-- The layout that was asked for. -/
def Reading.layout (r : Reading) : Layout :=
  ((r.value? "format").bind Layout.ofName?).getD .text

/-- A number that was asked for. -/
def Reading.natural (r : Reading) (name : String) (read : String → Option Nat)
    (default : Nat) : Nat :=
  ((r.value? name).bind read).getD default

/-- The command of a reading. -/
def Command.ofReading? (name : String) (r : Reading) : Option Command :=
  match name, r.operands with
  | "init", [] => some (.init (r.has "force"))
  | "upsert", [s, p, o] => some (.upsert ⟨s, p, o⟩)
  | "get", [s] => some (.get s)
  | "rel-map", seeds =>
    some (.relMap seeds (r.natural "depth" readDepth? Walk.defaultDepth)
      (r.natural "limit" readCount? Walk.defaultLimit) r.layout)
  | "delete", [s, p, o] => some (.delete ⟨s, p, o⟩)
  | "query", [statement] => some (.query statement)
  | "nodes", [] => some (.nodes (r.values "id") (r.values "prop") r.layout)
  | "triplets", [] =>
    some (.triplets (r.values "entity") (r.values "relation") (r.values "id")
      (r.values "prop") r.layout)
  | "similar", [id] =>
    some (.similar id (r.natural "top-k" readCount? defaultCount) r.layout)
  | "stats", [] => some .stats
  | _, _ => none

/-- The request of a finished reading. -/
def Request.ofReading? (r : Reading) : Option Request :=
  match r.command.bind fun form => Command.ofReading? form.name r with
  | some command =>
    some {
      settings := r.value? "config"
      database := r.value? "database"
      isVerbose := r.has "verbose"
      command }
  | none => none

/-- Reads the arguments of the program. -/
def Request.ofArguments (args : List String) : Except Stop Request :=
  match Reading.ofArguments program args with
  | .error stop => .error stop
  | .ok r =>
    match Request.ofReading? r with
    | some request => .ok request
    | none => .error .malformed

end GraphBase.CommandLine
