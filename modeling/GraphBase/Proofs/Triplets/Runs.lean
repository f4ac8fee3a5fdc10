import GraphBase.Proofs.Triplets.Opened

/-!
# Runs of a triplet store

A run is what happens to a store from the moment it is opened: a client calls its operations, and
if the database is a file, the connection may be closed and the store opened again.  An *event*
is one thing that happens, and it has a meaning for the fact base (`TripletEvent.apply`): a call
has the meaning of its operation, if the connection may write; a call that is refused and a
reopening mean nothing.

`exists_tables_of_run` follows a run step by step.  At its end the tables are well-formed, they
follow the tables at the beginning, and they stand for the fact base that the meanings of the
events lead to, one after the other.

Calls are all there is to a client, but not all of them succeed: a call to a store whose
connection may not write may fail, and a traversal may.  A run does not care, since a call that
fails leaves everything as it is.
-/

namespace GraphBase

/-! ## Events -/

/-- A call to a triplet store. -/
inductive TripletCall where
  | upsert (now : String) (fact : Fact)
  | delete (fact : Fact)
  | getOrCreateEntity (now name : String)
  | findEntity (name : String)
  | relations (subject : String)
  | relMap (seeds : List String) (depth limit : Nat)
  | stats

namespace TripletCall

/-- Runs a call; the answer is not looked at. -/
def run (store : TripletStore) : TripletCall → Access Unit
  | upsert now fact => store.upsert now fact
  | delete fact => store.delete fact
  | getOrCreateEntity now name => do
    let _ ← store.getOrCreateEntity now name
    return ()
  | findEntity name => do
    let _ ← store.findEntity name
    return ()
  | relations subject => do
    let _ ← store.relations subject
    return ()
  | relMap seeds depth limit => do
    let _ ← store.relMap seeds depth limit
    return ()
  | stats => do
    let _ ← store.stats
    return ()

/-- What a call means for the fact base; reading means nothing. -/
def apply : TripletCall → FactBase → FactBase
  | upsert _ fact => FactBase.upsert fact
  | delete fact => FactBase.delete fact
  | getOrCreateEntity _ name => FactBase.addName name
  | findEntity _ | relations _ | relMap _ _ _ | stats => id

end TripletCall

/-- One thing that happens to a triplet store. -/
inductive TripletEvent where
  | call (c : TripletCall)
  /-- A call on a connection that may not write. -/
  | refused (c : TripletCall)
  /-- The connection is closed, and the store is opened again. -/
  | reopen

/-- What an event means for the fact base. -/
def TripletEvent.apply : TripletEvent → FactBase → FactBase
  | call c => c.apply
  | refused _ | reopen => id

/-- The fact base that a sequence of events leads to. -/
def FactBase.after (b : FactBase) (events : List TripletEvent) : FactBase :=
  events.foldl (fun b e => e.apply b) b

namespace TripletStore

/-- How an event changes a site. -/
inductive Step (store : TripletStore) : Site → TripletEvent → Site → Prop
  | call {s : Site} (c : TripletCall) (h : s.engine.locator.refusal = none) :
    Step store s (.call c) ((c.run store).run s).2
  | refused {s : Site} (c : TripletCall) (h : s.engine.locator.refusal ≠ none) :
    Step store s (.refused c) ((c.run store).run s).2
  | reopen {s : Site} {c : StoreConfig} {path : Path} {engine : Engine} {host : Host}
    (hplace : s.engine.locator.place = .file path)
    (hstart : TripletStore.start (Engine.close s.host s.engine) c = (.ok (store, engine), host))
    (hsame : engine.locator.place = .file path) : Step store s .reopen ⟨host, engine⟩

/-- A sequence of events, one after the other. -/
inductive Run (store : TripletStore) : Site → List TripletEvent → Site → Prop
  | nil (s : Site) : Run store s [] s
  | cons {s s' s'' : Site} {e : TripletEvent} {events : List TripletEvent}
    (hstep : store.Step s e s') (hrun : Run store s' events s'') : Run store s (e :: events) s''

variable {store : TripletStore} {s s' : Site} {t : TripletTables} {b : FactBase}
  {h host : Host} {c : StoreConfig} {engine : Engine}

/-! ## Opening -/

theorem start_eq_ok (hstart : TripletStore.start h c = (.ok (store, engine), host)) :
    Engine.start h c.database c.poolRecycle (Database.createTriplets store.schema) =
      (.ok engine, host) := by
  rw [TripletStore.start] at hstart
  cases hschema : TripletSchema.ofNames c.entityTable c.relationshipTable with
  | error e =>
    rw [hschema] at hstart
    cases hstart
  | ok schema =>
    rw [hschema] at hstart
    simp only at hstart
    revert hstart
    cases hengine : Engine.start h c.database c.poolRecycle (Database.createTriplets schema) with
    | mk r h' =>
      cases r with
      | error e =>
        intro hstart
        cases hstart
      | ok engine' =>
        intro hstart
        cases hstart
        exact hengine

/-- A store that has been started is open. -/
theorem isOpen_of_start (hstart : TripletStore.start h c = (.ok (store, engine), host))
    (htables : store.tables? ⟨host, engine⟩ = some t) : store.IsOpen ⟨host, engine⟩ t :=
  ⟨Engine.isReady_of_start (start_eq_ok hstart) c.poolRecycle_ne_some_zero, htables⟩

/-- A site with a store in a file to which nothing has happened yet. -/
def fileSite : Site where
  host := { files := [([[0x61]], .database
    { entityTables := [("entities", {})]
      linkTables := [("relationships", { owner := "entities" })] })] }
  engine := {
    target := .file "a"
    locator := { place := .file [[0x61]], route := [[[0x61]]] }
    recycle := some 300 }

/-- Opening a file that is missing leads there, -/
theorem start_fileSite :
    TripletStore.start {} { database := "a" } = (.ok (⟨{}⟩, fileSite.engine), fileSite.host) := by
  decide +kernel

/-- and so does opening it again. -/
theorem restart_fileSite :
    TripletStore.start (Engine.close fileSite.host fileSite.engine) { database := "a" } =
      (.ok (⟨{}⟩, fileSite.engine), fileSite.host) := by
  decide +kernel

theorem tables?_fileSite : TripletStore.tables? ⟨{}⟩ fileSite = some {} := by decide +kernel

/-- **A store that is opened again finds its tables as they were.** -/
theorem isOpen_of_reopen (hopen : store.IsOpen s t) {path : Path}
    (hplace : s.engine.locator.place = .file path)
    (hstart : TripletStore.start (Engine.close s.host s.engine) c = (.ok (store, engine), host))
    (hsame : engine.locator.place = .file path) : store.IsOpen ⟨host, engine⟩ t := by
  obtain ⟨db, hdb, htables⟩ := exists_database hopen.tables
  obtain ⟨content, hfile, hcontent⟩ := Engine.file?_close hplace hdb
  obtain ⟨db₁, db₂, hcontent₁, hsetup, hdb₂⟩ := Engine.database_of_start_file (start_eq_ok hstart)
    c.poolRecycle_ne_some_zero hsame hfile
  obtain rfl : db = db₁ := Except.ok.inj (hcontent.symm.trans hcontent₁)
  obtain rfl := Database.createTriplets_of_tables htables hsetup
  refine isOpen_of_start hstart ?_
  rw [tables?_eq hdb₂, ite_self]
  exact htables

/-! ## Steps -/

/-- A call on a connection that may not write leaves the site as it is. -/
theorem site_run_of_refused (hopen : store.IsOpen s t) (hrefusal : s.engine.locator.refusal ≠ none)
    (c : TripletCall) : ((c.run store).run s).2 = s := by
  have hsession : ∀ {α : Type} (body : Session TripletTables α),
      ((store.session body).run s).2 = s :=
    fun body => Engine.site_run_session_of_refusal hopen.ready hrefusal _
  cases c with
  | upsert now fact => exact hsession _
  | delete fact =>
    refine Access.site_run_bind (hsession _) fun n => ?_
    split_ifs
    · exact hsession _
    · rfl
  | getOrCreateEntity now name => exact (Access.site_run_bind_pure _ _).trans (hsession _)
  | findEntity name => exact (Access.site_run_bind_pure _ _).trans (hsession _)
  | relations subject => exact (Access.site_run_bind_pure _ _).trans (hsession _)
  | relMap seeds depth limit =>
    refine (Access.site_run_bind_pure _ _).trans ?_
    rw [relMap]
    split_ifs
    · rfl
    · exact hsession _
  | stats => exact (Access.site_run_bind_pure _ _).trans (hsession _)

/-- **A call does to the fact base what it means**, on a connection that may write. -/
theorem exists_tables_of_call (hopen : store.IsOpen s t) (hwf : t.WellFormed)
    (hb : t.Represents b) (hwrite : s.engine.locator.refusal = none) (c : TripletCall) :
    ∃ t', store.IsOpen ((c.run store).run s).2 t' ∧ t.Follows t' ∧ t'.Represents (c.apply b) := by
  cases c with
  | upsert now fact =>
    obtain ⟨s', t', hrun, hopen', hfollows, hb'⟩ := run_upsert hopen hwf hb hwrite now fact
    rw [show (TripletCall.upsert now fact).run store = store.upsert now fact from rfl, hrun]
    exact ⟨t', hopen', hfollows, hb'⟩
  | delete fact =>
    obtain ⟨s', t', hrun, hopen', hfollows, hb', -⟩ := run_delete hopen hwf hb hwrite fact
    rw [show (TripletCall.delete fact).run store = store.delete fact from rfl, hrun]
    exact ⟨t', hopen', hfollows, hb'⟩
  | getOrCreateEntity now name =>
    obtain ⟨row, s', t', hrun, -, hopen', hfollows, hb'⟩ :=
      run_getOrCreateEntity hopen hwf hb hwrite now name
    rw [TripletCall.run, Access.site_run_bind_pure, hrun]
    exact ⟨t', hopen', hfollows, hb'⟩
  | findEntity name =>
    obtain ⟨row?, s', hrun, hopen', -⟩ := run_findEntity hopen hb name
    rw [TripletCall.run, Access.site_run_bind_pure, hrun]
    exact ⟨t, hopen', .refl hwf, hb⟩
  | relations subject =>
    obtain ⟨s', hrun, hopen'⟩ := run_relations hopen hwf hb subject
    rw [TripletCall.run, Access.site_run_bind_pure, hrun]
    exact ⟨t, hopen', .refl hwf, hb⟩
  | relMap seeds depth limit =>
    refine ⟨t, ?_, .refl hwf, hb⟩
    rw [TripletCall.run, Access.site_run_bind_pure, relMap]
    split_ifs with hempty
    · exact hopen
    · rw [traverse]
      split_ifs with hpath
      · rw [run_session_fails hopen (Session.run_fault _)]
        exact hopen
      · obtain ⟨s', hrun, hopen'⟩ := run_readsOk hopen fun t => t.relMap seeds depth limit
        rw [hrun]
        exact hopen'
  | stats =>
    obtain ⟨s', hrun, hopen'⟩ := run_stats hopen hwf hb
    rw [TripletCall.run, Access.site_run_bind_pure, hrun]
    exact ⟨t, hopen', .refl hwf, hb⟩

/-- **An event does to the fact base what it means.** -/
theorem exists_tables_of_step {e : TripletEvent} (hstep : store.Step s e s')
    (hopen : store.IsOpen s t) (hwf : t.WellFormed) (hb : t.Represents b) :
    ∃ t', store.IsOpen s' t' ∧ t.Follows t' ∧ t'.Represents (e.apply b) := by
  cases hstep with
  | call c hwrite => exact exists_tables_of_call hopen hwf hb hwrite c
  | refused c hrefusal =>
    rw [site_run_of_refused hopen hrefusal]
    exact ⟨t, hopen, .refl hwf, hb⟩
  | reopen hplace hstart hsame =>
    exact ⟨t, isOpen_of_reopen hopen hplace hstart hsame, .refl hwf, hb⟩

/-- **A run does to the fact base what its events mean**, one after the other. -/
theorem exists_tables_of_run {events : List TripletEvent} (hrun : store.Run s events s')
    (hopen : store.IsOpen s t) (hwf : t.WellFormed) (hb : t.Represents b) :
    ∃ t', store.IsOpen s' t' ∧ t.Follows t' ∧ t'.Represents (b.after events) := by
  induction hrun generalizing t b with
  | nil s => exact ⟨t, hopen, .refl hwf, hb⟩
  | cons hstep _ ih =>
    obtain ⟨t₁, hopen₁, hfollows₁, hb₁⟩ := exists_tables_of_step hstep hopen hwf hb
    obtain ⟨t₂, hopen₂, hfollows₂, hb₂⟩ := ih hopen₁ hfollows₁.wellFormed hb₁
    exact ⟨t₂, hopen₂, hfollows₁.trans hfollows₂, hb₂⟩

end TripletStore

end GraphBase
