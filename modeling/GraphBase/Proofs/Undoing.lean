import GraphBase.Proofs.Connection.Undoing
import GraphBase.Proofs.Graph.Deleting
import GraphBase.Proofs.Graph.Linking
import GraphBase.Proofs.Graph.Runs
import GraphBase.Proofs.Triplets.Runs

/-!
# Failed operations

An operation of either store that fails leaves the site exactly as it was
(`Site.undoesFailures_of_config`).  Nothing is asked of the database for this: rows may have been
damaged by others, and tables may be missing.  Nor does it matter how far the operation has got.

* A batch of nodes fails before anything is written, if an embedding has the wrong length.
* A batch of relations fails at the first end whose row cannot be read, when relations in front of it
  and bare rows have been written.
* A deletion fails at the first text that its properties cannot be looked for in, when nodes and
  relations are gone that were given by name, by identity and by label.
* A statement fails for the rules of the tables: a name is taken, an end is missing, an entity is
  referred to.

All of these are one session each.  Deleting a fact takes two sessions, and is not among them.

A connection that is due to be replaced takes its database along if that is its own, and a session
that fails afterwards does not bring it back.  This does not happen here.  The settings of a store do
not ask for a new connection in every session, and no connection gets old within a run
(`Engine.isStale`).
-/

namespace GraphBase

open Access (AllOrNothing Fails siteAfter succeeding)

/-! ## The property graph store -/

/-- **Every call to a property graph store** leaves no trace when it fails. -/
theorem PropertyCall.allOrNothing (store : PropertyStore) (c : PropertyCall) :
    AllOrNothing (c.run store) := by
  cases c with
  | upsertNodes now nodes =>
    rw [PropertyCall.run, PropertyStore.upsertNodes]
    split
    · exact .throw _
    · exact .session _
  | upsertRelations now relations => exact .session _
  | getOrCreateNode now id => exact .bind_pure (.session _) ()
  | delete selection => exact .ite (.pure ()) (.session _)
  | findNode id => exact .bind_pure (.session _) ()
  | nodes properties ids => exact .bind_pure (.session _) ()
  | triplets selection => exact .bind_pure (.ite (.pure _) (.session _)) ()
  | reachable seeds depth limit ignored => exact .bind_pure (.ite (.pure _) (.session _)) ()
  | relMap seeds depth limit ignored => exact .bind_pure (.ite (.pure _) (.session _)) ()
  | nearest point count =>
    rw [PropertyCall.run, PropertyStore.nearest]
    split
    · exact .bind_pure (.throw _) ()
    · exact .bind_pure (.ite (.pure _) (.session _)) ()
  | stats => exact .bind_pure (.session _) ()

namespace PropertyStore

variable {store : PropertyStore} {s : Site} {t : GraphTables} {f : StorageFault}

/-- A batch of nodes fails with the first embedding of a wrong length, before anything is asked of
the site. -/
theorem run_upsertNodes_fails (now : String) {before after : List Node} {n : Node} {v : Embedding}
    (hbefore : ∀ node ∈ before, store.schema.Fits node) (hv : n.embedding = some v)
    (hlength : v.length ≠ store.schema.dimension) (s : Site) :
    (store.upsertNodes now (before ++ n :: after)).run s =
      (.error (.dimensionMismatch store.schema.dimension v.length), s) := by
  rw [upsertNodes, PropertySchema.checkEmbeddings_eq_error hbefore hv hlength]
  rfl

/-- A batch of relations fails with the first end whose row cannot be read. -/
theorem upsertRelations_fails (hopen : store.IsOpen s t) (now : String) {batch : List Relation}
    (h : (batch.flatMap Relation.ends).findSome? t.faultOf = some f) :
    Fails (store.upsertRelations now batch) s (.storage f) :=
  fails_session hopen (GraphTables.restrained_writeRelations now batch)
    (GraphTables.run_writeRelations_fails now h)

/-- A record that cannot be read is not made anew. -/
theorem getOrCreateNode_fails (hopen : store.IsOpen s t) (now : String) {id : String}
    (h : t.faultOf id = some f) : Fails (store.getOrCreateNode now id) s (.storage f) :=
  fails_session hopen (GraphTables.restrained_getOrCreateNode now id)
    (GraphTables.run_getOrCreateNode_fails now h none)

/-- A deletion fails with the first text that its properties cannot be looked for in, of those that
names, identities and labels have left. -/
theorem delete_fails (hopen : store.IsOpen s t) {selection : Selection}
    (hselection : selection.properties.isEmpty = false)
    (h : (t.unnamed selection).texts.findSome? selection.properties.fault? = some f) :
    Fails (store.delete selection) s (.storage f) := by
  rw [delete, if_neg (Bool.eq_false_iff.1 (Selection.isEmpty_eq_false_of_properties hselection))]
  exact fails_session hopen (GraphTables.restrained_delete selection)
    (GraphTables.run_delete_fails hselection h)

end PropertyStore

/-! ## The triplet store -/

namespace TripletTables

variable {t : TripletTables}

/-- A name that is taken is not given to another entity. -/
theorem run_rename_taken (now : String) {fromName toName : String} (hne : fromName ≠ toName)
    (hfrom : (t.entity? fromName).isSome) (hto : (t.entity? toName).isSome) :
    rename now fromName toName none t = .error (.storage .unique) := by
  rw [rename, Session.run_write_bind, Session.run_get_bind, if_pos ⟨hne, hfrom, hto⟩]
  rfl

/-- An entity that is referred to is not deleted. -/
theorem run_deleteEntities_pinned {p : EntityRow → Bool} {e : EntityRow}
    (he : e ∈ t.entities.rows) (hp : p e = true) (hpinned : t.isPinned e.id = true) :
    deleteEntities p none t = .error (.storage .foreignKey) := by
  have hany : ((t.entities.rows.filter p).any fun e => t.isPinned e.id) = true :=
    List.any_eq_true.2 ⟨e, List.mem_filter.2 ⟨he, hp⟩, hpinned⟩
  rw [deleteEntities, Session.run_write_bind, Session.run_get_bind]
  simp only [hany]
  rfl

/-- Whether a cell is the number of an entity that a relationship may end at. -/
def isEnd (t : TripletTables) (c : Cell) : Bool := (Statement.entityNumber? c).any t.acceptsEnd

/-- A relationship whose ends may not both be such is not inserted. -/
theorem run_insertRelationship_endless (now : String) (description : Cell) {i j : Nat}
    (h : (t.acceptsEnd i && t.acceptsEnd j) = false) :
    ∃ f, insertRelationship now description i j none t = .error (.storage f) := by
  rw [insertRelationship, Session.run_write_bind, Session.run_get_bind, h]
  by_cases hthere : (t.relationship? description i j).isSome
  · exact ⟨.unique, by rw [if_pos hthere]; rfl⟩
  · exact ⟨.foreignKey, by rw [if_neg hthere]; rfl⟩

/-- A relationship with an end that is missing is not inserted.  It may be refused for something
else first, so the cause is left open. -/
theorem run_insertLink_endless (now : String) (description : Cell) {subject object : Cell}
    (h : (t.isEnd subject && t.isEnd object) = false) :
    ∃ f, Statement.insertLink now description subject object none t = .error (.storage f) := by
  rw [Statement.insertLink, Session.run_write_bind]
  split_ifs with hnull
  · exact ⟨.notNull, rfl⟩
  · cases hi : Statement.entityNumber? subject with
    | none => exact ⟨.foreignKey, rfl⟩
    | some i =>
      cases hj : Statement.entityNumber? object with
      | none => exact ⟨.foreignKey, rfl⟩
      | some j =>
        rw [isEnd, isEnd, hi, hj, Option.any_some, Option.any_some] at h
        obtain ⟨f, hf⟩ := run_insertRelationship_endless now description.inTextColumn h
        exact ⟨f, Session.run_discard_error hf⟩

end TripletTables

namespace TripletStore

variable {α : Type} {store : TripletStore} {s : Site} {t : TripletTables}

theorem fails_session (hopen : store.IsOpen s t) {body : Session TripletTables α} {e : Error}
    (hbody : Session.Restrained body) (h : body none t = .error e) :
    Fails (store.session body) s e := by
  obtain ⟨e', hfails, he⟩ := hbody.exists_error h s.engine.locator.refusal
  exact ⟨e', run_session_fails hopen hfails, he⟩

/-- A statement that would give an entity the name of another one fails. -/
theorem rename_fails (hopen : store.IsOpen s t) (now : String) {fromName toName : String}
    (hne : fromName ≠ toName) (hfrom : (t.entity? fromName).isSome)
    (hto : (t.entity? toName).isSome) :
    Fails (store.query now (.rename fromName toName)) s (.storage .unique) :=
  fails_session hopen (.bind (.write_bind _) fun _ => .pure _)
    (Session.run_bind_error (TripletTables.run_rename_taken now hne hfrom hto))

/-- A statement that would link what is missing fails. -/
theorem link_fails (hopen : store.IsOpen s t) (now : String) (description : Cell)
    {subject object : Cell} (h : (t.isEnd subject.bound && t.isEnd object.bound) = false) :
    ∃ f, Fails (store.query now (.link description subject object)) s (.storage f) := by
  obtain ⟨f, hf⟩ := TripletTables.run_insertLink_endless now description.bound h
  exact ⟨f, fails_session hopen (.bind (.write_bind _) fun _ => .pure _)
    (Session.run_bind_error hf)⟩

/-- A statement that would delete an entity that is referred to fails. -/
theorem dropEntity_fails (hopen : store.IsOpen s t) (now : String) {e : EntityRow}
    (he : e ∈ t.entities.rows) (hpinned : t.isPinned e.id = true) :
    Fails (store.query now (.dropEntity e.name)) s (.storage .foreignKey) :=
  fails_session hopen (.bind (.discard (.write_bind _)) fun _ => .pure _)
    (Session.run_bind_error (Session.run_discard_error
      (TripletTables.run_deleteEntities_pinned he (beq_self_eq_true e.name) hpinned)))

end TripletStore

/-! ## Both stores -/

/-- An operation that is one session at most: any call to a property graph store, and of a triplet
store the operations that write, except deleting, and the statements. -/
inductive Operation where
  | property (store : PropertyStore) (c : PropertyCall)
  | upsertFact (store : TripletStore) (now : String) (fact : Fact)
  | getOrCreateEntity (store : TripletStore) (now name : String)
  | query (store : TripletStore) (now : String) (statement : Statement)

namespace Operation

/-- Runs an operation; the answer is not looked at. -/
def run : Operation → Access Unit
  | property store c => c.run store
  | upsertFact store now fact => store.upsert now fact
  | getOrCreateEntity store now name => do
    let _ ← store.getOrCreateEntity now name
    return ()
  | query store now statement => do
    let _ ← store.query now statement
    return ()

/-- **Every operation** leaves no trace when it fails. -/
theorem allOrNothing (o : Operation) : AllOrNothing o.run := by
  cases o with
  | property store c => exact c.allOrNothing store
  | upsertFact store now fact => exact .session _
  | getOrCreateEntity store now name => exact .bind_pure (.session _) ()
  | query store now statement => exact .bind_pure (.session _) ()

end Operation

/-- What it means for a site that failed operations are undone. -/
structure Site.UndoesFailures (s : Site) : Prop where
  /-- An operation that fails leaves the site as it was: every row, every time and the next number
  of every table, in whatever state they are. -/
  operation : ∀ (o : Operation) (e : Error) (s' : Site), o.run.run s = (.error e, s') → s' = s
  /-- What comes after failed operations is as if they had not been tried. -/
  history : ∀ operations : List Operation,
    siteAfter (succeeding (operations.map Operation.run) s) s =
      siteAfter (operations.map Operation.run) s
  /-- A batch of nodes fails with the length of the first embedding that does not fit. -/
  nodes : ∀ (store : PropertyStore) (now : String) (before after : List Node) (n : Node)
    (v : Embedding), (∀ node ∈ before, store.schema.Fits node) → n.embedding = some v →
      v.length ≠ store.schema.dimension →
        (store.upsertNodes now (before ++ n :: after)).run s =
          (.error (.dimensionMismatch store.schema.dimension v.length), s)
  /-- A batch of relations fails with the first end that cannot be read. -/
  relations : ∀ (store : PropertyStore) (t : GraphTables) (now : String) (batch : List Relation)
    (f : StorageFault), store.IsOpen s t →
      (batch.flatMap Relation.ends).findSome? t.faultOf = some f →
        Fails (store.upsertRelations now batch) s (.storage f)
  /-- A record that is there and cannot be read is not made anew. -/
  record : ∀ (store : PropertyStore) (t : GraphTables) (now id : String) (f : StorageFault),
    store.IsOpen s t → t.faultOf id = some f →
      Fails (store.getOrCreateNode now id) s (.storage f)
  /-- A deletion fails with the first text that its properties cannot be looked for in. -/
  deletion : ∀ (store : PropertyStore) (t : GraphTables) (selection : Selection)
    (f : StorageFault), store.IsOpen s t → selection.properties.isEmpty = false →
      (t.unnamed selection).texts.findSome? selection.properties.fault? = some f →
        Fails (store.delete selection) s (.storage f)
  /-- Renaming onto a name that is taken fails. -/
  rename : ∀ (store : TripletStore) (t : TripletTables) (now fromName toName : String),
    store.IsOpen s t → fromName ≠ toName → (t.entity? fromName).isSome →
      (t.entity? toName).isSome →
        Fails (store.query now (.rename fromName toName)) s (.storage .unique)
  /-- A link with a missing end fails. -/
  link : ∀ (store : TripletStore) (t : TripletTables) (now : String)
    (description subject object : Cell), store.IsOpen s t →
      (t.isEnd subject.bound && t.isEnd object.bound) = false →
        ∃ f, Fails (store.query now (.link description subject object)) s (.storage f)
  /-- Removing an entity that is referred to fails. -/
  dropEntity : ∀ (store : TripletStore) (t : TripletTables) (now : String), ∀ e ∈ t.entities.rows,
    store.IsOpen s t → t.isPinned e.id = true →
      Fails (store.query now (.dropEntity e.name)) s (.storage .foreignKey)

/-- **Failed operations leave a site as it was**, under all settings that a store can be opened
with and whatever the databases of the site hold, as long as the connection has not reached the age
at which it is replaced. -/
theorem Site.undoesFailures_of_config {s : Site} {c : StoreConfig}
    (h : s.engine.recycle = c.poolRecycle) : s.UndoesFailures := by
  have hfresh : s.engine.isStale = false := by
    rw [Engine.isStale, h, beq_eq_false_iff_ne.2 c.poolRecycle_ne_some_zero, Bool.false_and]
  refine ⟨fun o e s' hrun => o.allOrNothing.undone hfresh hrun, fun operations => ?_,
    fun store now before after n v hbefore hv hlength =>
      store.run_upsertNodes_fails now hbefore hv hlength s,
    fun store t now batch f hopen hf => PropertyStore.upsertRelations_fails hopen now hf,
    fun store t now id f hopen hf => PropertyStore.getOrCreateNode_fails hopen now hf,
    fun store t selection f hopen hproperties hf => PropertyStore.delete_fails hopen hproperties hf,
    fun store t now fromName toName hopen hne hfrom hto =>
      TripletStore.rename_fails hopen now hne hfrom hto,
    fun store t now description subject object hopen hend =>
      TripletStore.link_fails hopen now description hend,
    fun store t now e he hopen hpinned => TripletStore.dropEntity_fails hopen now he hpinned⟩
  refine Access.siteAfter_succeeding (fun x hx => ?_) hfresh
  obtain ⟨o, -, rfl⟩ := List.mem_map.1 hx
  exact o.allOrNothing

/-! ## A damaged row -/

/-- The tables of a store whose node `A` has a text for its properties that is none. -/
def damagedTables : GraphTables where
  nodes := [{ id := "A", properties := "broken", createdAt := "then", updatedAt := "then" }]

/-- A site with these tables in a file. -/
def damagedSite : Site where
  host := { files := [([[0x61]], .database { graph := some damagedTables })] }
  engine := PropertyStore.fileSite.engine

/-- The first relation and its two ends have been written when the second one meets the row. -/
theorem Site.undoesFailures_damagedSite :
    (PropertyStore.upsertRelations ⟨{}⟩ "now" [⟨"r", "B", "C", .empty⟩, ⟨"s", "B", "A", .empty⟩]).run
      damagedSite = (.error (.storage .undecodable), damagedSite) := by
  have hopen : PropertyStore.IsOpen ⟨{}⟩ damagedSite damagedTables :=
    ⟨⟨rfl, rfl, nofun⟩, by decide +kernel⟩
  have hundoes := undoesFailures_of_config (s := damagedSite) (c := { database := "a" }) rfl
  obtain ⟨e, hrun, he⟩ := hundoes.relations ⟨{}⟩ damagedTables "now"
    [⟨"r", "B", "C", .empty⟩, ⟨"s", "B", "A", .empty⟩] .undecodable hopen (by decide +kernel)
  rw [hrun, he (by decide +kernel)]

end GraphBase
