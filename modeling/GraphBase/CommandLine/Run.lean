import GraphBase.CommandLine.Command
import GraphBase.CommandLine.Report
import GraphBase.Graph.Client
import GraphBase.Storage.Answer
import GraphBase.Triplets.Client

/-!
# Running commands

`run` reads a command line and carries it out on a host.  A command opens the stores that it
needs, works on them, closes them and prints what came of it; what it has printed before it
fails stays printed, and what it has written stays written.

The settings come from a file, if there is one, and a database that is named on the command
line goes before the one in the settings.
-/

namespace GraphBase.CommandLine

/-- The version of the program. -/
def version : String := "0.0.1"

/-- How the program is used. -/
def usage : String := "Usage: relgraph [OPTIONS] <COMMAND>"

/-- The host, and what has been printed on it, line by line. -/
structure Console where
  host : Host
  output : List String := []
  warnings : List String := []

/-- A step of a command. -/
abbrev Job := ExceptT Failure (StateM Console)

/-- A step of a command while a store is open. -/
abbrev Work := ExceptT Failure (StateM Site)

namespace Job

/-- Prints a line. -/
def say (line : String) : Job Unit :=
  modify fun c => { c with output := c.output ++ [line] }

/-- Warns. -/
def warn (line : String) : Job Unit :=
  modify fun c => { c with warnings := c.warnings ++ [line] }

/-- What was found, or the cause why nothing was. -/
def settle {α : Type} : Except Failure α → Job α
  | .ok a => return a
  | .error e => throw e

/-- The settings that a request works with. -/
def settings (request : Request) : Job StoreConfig := do
  let host := (← get).host
  let name := request.settings.getD StoreConfig.defaultFile
  let found ← settle ((StoreConfig.load host name).mapError .settings)
  let config := found.getD {}
  return { config with database := request.database.getD config.database }

/-- Opens a store, works on it, and closes it again. -/
def withStore {σ α : Type} (start : Host → StoreConfig → Except Error (σ × Engine) × Host)
    (config : StoreConfig) (work : σ → Work α) : Job α := do
  match start (← get).host config with
  | (.error e, host) =>
    modify fun c => { c with host }
    throw (.store e)
  | (.ok (store, engine), host) =>
    let (result, site) := (work store).run ⟨host, engine⟩
    modify fun c => { c with host := site.engine.close site.host }
    settle result

end Job

/-- An operation on a store as a step. -/
def Work.ofAccess {α : Type} (a : Access α) : Work α := ExceptT.adapt Failure.store a

open Job

/-! ## Properties from the command line -/

/-- A property given as `key=value`. -/
def readPair (argument : String) : Except Failure (String × Scalar) :=
  match Text.splitFirst? ['='] argument.toList with
  | some (key, value) =>
    .ok (Text.trim (String.ofList key), Scalar.parseLiteral (Text.trim (String.ofList value)))
  | none => .error (.notAPair argument)

/-- Properties given one by one; of one key the last counts. -/
def readPairs (arguments : List String) : Except Failure Properties :=
  (arguments.mapM readPair).map fun pairs =>
    pairs.foldl (fun p e => p.insert e.1 e.2) .empty

/-! ## Commands on facts -/

/-- Prints what can be reached. -/
def sayRelMap (theme : Theme) (depth limit : Nat) (layout : Layout) (m : RelMap String Fact) :
    Job Unit := do
  match layout with
  | .json => say (relMapJson m).pretty
  | .text =>
    if m.isEmpty then
      say (Theme.nothing ("Nothing reachable within " ++ toString depth ++ " hops"))
    else
      say (theme.results
        ("Rel map (depth " ++ toString depth ++ ", limit " ++ toString limit ++ ")"))
      say (TextTable.relMap m)
      let total := m.foldl (fun n e => n + e.2.length) 0
      say (theme.dim (toString total ++ " triplets from " ++ toString m.length ++ " seeds"))

/-- Prints the objects of a subject. -/
def sayRelations (theme : Theme) (subject : String) (found : List (String × String)) :
    Job Unit := do
  if found.isEmpty then say (Theme.nothing ("No relations for " ++ subject))
  else found.forM fun (relation, object) => say (theme.link subject relation object)

/-- Prints the rows that a query answers with. -/
def sayRows (theme : Theme) (rows : List (List Cell)) : Job Unit := do
  rows.forM fun row => say (showRow theme row)
  say (theme.dim (toString rows.length ++ " rows"))

/-- The answer to a query. -/
def answer (statement : String) : Access (List (List Cell)) :=
  match PlainQuery.parse? statement with
  | some q => Engine.session (Database.answer q)
  | none => throw (.storage .badStatement)

/-! ## Commands on nodes -/

/-- Prints nodes. -/
def sayNodes (layout : Layout) (nodes : List Node) : Job Unit :=
  match layout with
  | .json => say (Json.array (nodes.map Node.toJson)).pretty
  | .text =>
    if nodes.isEmpty then say (Theme.nothing "No nodes found")
    else say (TextTable.nodes nodes [])

/-- Prints triplets. -/
def sayTriplets (layout : Layout) (found : List Triplet) : Job Unit :=
  match layout with
  | .json => say (Json.array (found.map Triplet.toJson)).pretty
  | .text =>
    if found.isEmpty then say (Theme.nothing "No triplets found")
    else say (TextTable.triplets found)

/-- Prints neighbours. -/
def sayHits (theme : Theme) (id : String) (layout : Layout)
    (hits : List (Node × Number.Binary32)) : Job Unit := do
  match layout with
  | .json => say (Json.array (hits.map hitJson)).pretty
  | .text =>
    if hits.isEmpty then say (Theme.nothing "No embedded nodes found")
    else
      say (theme.results ("Nearest to " ++ id))
      say (TextTable.nodes (hits.map (·.1)) (hits.map (·.2)))

/-- The triplets that some names and properties select, `none` if nothing is selected by. -/
def selected (store : PropertyStore) (s : Selection) : Work (Option (List Triplet)) := do
  if s.isEmpty then return none
  else return some (← Work.ofAccess (store.triplets s))

/-- The neighbours of a stored node. -/
def neighbours (store : PropertyStore) (id : String) (count : Nat) :
    Work (List (Node × Number.Binary32)) := do
  match (← Work.ofAccess (store.findNode id)).bind NodeRecord.embedding with
  | some point => Work.ofAccess (store.nearest point count)
  | none => throw (.noEmbedding id)

/-- The value of a test, while a store is open. -/
def Work.settle {α : Type} : Except Failure α → Work α
  | .ok a => return a
  | .error e => throw e

/-! ## All commands -/

/-- Carries out a command. -/
def execute (now : String) (theme : Theme) (request : Request) : Job Unit := do
  match request.command with
  | .init force =>
    let name := request.settings.getD StoreConfig.defaultFile
    let config := StoreConfig.withDatabase (request.database.getD defaultDatabase)
    let host ← settle ((config.save (← get).host name force).mapError .settings)
    modify fun c => { c with host }
    say (theme.success ("Wrote " ++ name))
    say (theme.info "Database" config.database)
  | .upsert fact =>
    withStore TripletStore.start (← settings request) fun store =>
      Work.ofAccess (store.upsert now fact)
    say (theme.success ("Stored " ++ theme.arrow fact.subject fact.relation fact.object))
  | .get subject =>
    let found ← withStore TripletStore.start (← settings request) fun store =>
      Work.ofAccess (store.relations subject)
    sayRelations theme subject found
  | .relMap seeds depth limit layout =>
    let m ← withStore TripletStore.start (← settings request) fun store =>
      Work.ofAccess (store.relMap seeds depth limit)
    sayRelMap theme depth limit layout m
  | .delete fact =>
    withStore TripletStore.start (← settings request) fun store =>
      Work.ofAccess (store.delete fact)
    say (theme.success ("Deleted " ++ theme.arrow fact.subject fact.relation fact.object))
  | .query statement =>
    let rows ← withStore TripletStore.start (← settings request) fun _ =>
      Work.ofAccess (answer statement)
    sayRows theme rows
  | .nodes ids properties layout =>
    let found ← withStore PropertyStore.start (← settings request) fun store => do
      let properties ← Work.settle (readPairs properties)
      Work.ofAccess (store.nodes properties ids)
    sayNodes layout found
  | .triplets entities relations ids properties layout =>
    let found ← withStore PropertyStore.start (← settings request) fun store => do
      let properties ← Work.settle (readPairs properties)
      selected store { entityNames := entities, relationNames := relations, ids, properties }
    match found with
    | some found => sayTriplets layout found
    | none =>
      warn (theme.warning "No filter given; pass --entity, --relation, --id or --prop")
  | .similar id count layout =>
    let hits ← withStore PropertyStore.start (← settings request) fun store =>
      neighbours store id count
    sayHits theme id layout hits
  | .stats =>
    let config ← settings request
    say (theme.counts ("relgraph statistics (" ++ config.database ++ ")"))
    let facts ← withStore TripletStore.start config fun store => Work.ofAccess store.stats
    say ""
    say (theme.sectionTitle "Triplet store")
    say (TextTable.stats facts)
    let graph ← withStore PropertyStore.start config fun store => Work.ofAccess store.stats
    say ""
    say (theme.sectionTitle "Property graph store")
    say (TextTable.stats graph)

/-- Lines as one text. -/
def linesText (lines : List String) : String := String.join (lines.map (· ++ "\n"))

/-- The report of a command that was carried out. -/
def Console.report (c : Console) (failure : Option Failure) : Report where
  output := linesText c.output
  warnings := c.warnings
  failure
  code := if failure.isSome then 1 else 0

/-- Reads a command line and carries it out. -/
def run (now : String) (theme : Theme) (h : Host) (args : List String) : Report × Host :=
  match Request.ofArguments args with
  | .error .malformed => ({ code := 2 }, h)
  | .error .version => ({ output := linesText ["relgraph " ++ version] }, h)
  | .error .help => ({ output := linesText [usage] }, h)
  | .ok request =>
    match (execute now theme request).run { host := h } with
    | (.ok (), c) => (c.report none, c.host)
    | (.error failure, c) => (c.report (some failure), c.host)

end GraphBase.CommandLine
