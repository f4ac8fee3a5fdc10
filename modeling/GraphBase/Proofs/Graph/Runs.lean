import GraphBase.Proofs.Graph.Opened

/-!
# Runs of a property graph store

A run is what happens to a store from the moment it is opened: a client calls its operations, with
any arguments, and if the database is a file, the connection may be closed and the store opened
again.  A call may fail, and the connection may be one that may not write; whoever runs the store
goes on all the same.

`exists_tables_of_run` follows a run step by step.  At its end the tables follow their rules, and
no number of a relation that was gone has come back.  `PropertyStore.Reaches` collects the sites,
with their tables, that runs from new tables lead to.
-/

namespace GraphBase

/-- A call to a property graph store. -/
inductive PropertyCall where
  | upsertNodes (now : String) (nodes : List Node)
  | upsertRelations (now : String) (relations : List Relation)
  | getOrCreateNode (now id : String)
  | delete (s : Selection)
  | findNode (id : String)
  | nodes (properties : Properties) (ids : List String)
  | triplets (s : Selection)
  | reachable (seeds : List Node) (depth limit : Nat) (ignored : List String)
  | relMap (seeds : List Node) (depth limit : Nat) (ignored : List String)
  | nearest (point : Embedding) (count : Nat)
  | stats

/-- Runs a call; the answer is not looked at. -/
def PropertyCall.run (store : PropertyStore) : PropertyCall → Access Unit
  | upsertNodes now batch => store.upsertNodes now batch
  | upsertRelations now batch => store.upsertRelations now batch
  | getOrCreateNode now id => do
    let _ ← store.getOrCreateNode now id
    return ()
  | delete s => store.delete s
  | findNode id => do
    let _ ← store.findNode id
    return ()
  | nodes properties ids => do
    let _ ← store.nodes properties ids
    return ()
  | triplets s => do
    let _ ← store.triplets s
    return ()
  | reachable seeds depth limit ignored => do
    let _ ← store.reachable seeds depth limit ignored
    return ()
  | relMap seeds depth limit ignored => do
    let _ ← store.relMap seeds depth limit ignored
    return ()
  | nearest point count => do
    let _ ← store.nearest point count
    return ()
  | stats => do
    let _ ← store.stats
    return ()

/-- One thing that happens to a property graph store. -/
inductive PropertyEvent where
  | call (c : PropertyCall)
  /-- The connection is closed, and the store is opened again. -/
  | reopen

namespace PropertyStore

/-- How an event changes a site. -/
inductive Step (store : PropertyStore) : Site → PropertyEvent → Site → Prop
  | call {s : Site} (c : PropertyCall) : Step store s (.call c) ((c.run store).run s).2
  | reopen {s : Site} {c : StoreConfig} {path : Path} {engine : Engine} {host : Host}
    (hplace : s.engine.locator.place = .file path)
    (hstart : PropertyStore.start (Engine.close s.host s.engine) c = (.ok (store, engine), host))
    (hsame : engine.locator.place = .file path) : Step store s .reopen ⟨host, engine⟩

/-- A sequence of events, one after the other. -/
inductive Run (store : PropertyStore) : Site → List PropertyEvent → Site → Prop
  | nil (s : Site) : Run store s [] s
  | cons {s s' s'' : Site} {e : PropertyEvent} {events : List PropertyEvent}
    (hstep : store.Step s e s') (hrun : Run store s' events s'') : Run store s (e :: events) s''

/-- A run from new tables leads to a site and its tables. -/
inductive Reaches (store : PropertyStore) : Site → GraphTables → Prop
  | run {h host : Host} {c : StoreConfig} {engine : Engine} {t₀ t : GraphTables}
    {events : List PropertyEvent} {s : Site}
    (hstart : PropertyStore.start h c = (.ok (store, engine), host))
    (htables : store.tables? ⟨host, engine⟩ = some t₀) (hnew : t₀.IsNew)
    (hrun : store.Run ⟨host, engine⟩ events s) (hend : store.tables? s = some t) :
    Reaches store s t

variable {store : PropertyStore} {s s' : Site} {t : GraphTables} {h host : Host} {c : StoreConfig}
  {engine : Engine}

/-! ## Opening -/

theorem start_eq_ok (hstart : PropertyStore.start h c = (.ok (store, engine), host)) :
    Engine.start h c.database c.poolRecycle Database.createGraph = (.ok engine, host) := by
  rw [PropertyStore.start] at hstart
  cases hschema : PropertySchema.ofDimension c.embeddingDim with
  | error e =>
    rw [hschema] at hstart
    cases hstart
  | ok schema =>
    rw [hschema] at hstart
    simp only at hstart
    revert hstart
    cases hengine : Engine.start h c.database c.poolRecycle Database.createGraph with
    | mk r h' =>
      cases r with
      | error e =>
        intro hstart
        cases hstart
      | ok engine' =>
        intro hstart
        cases hstart
        rfl

/-- A store that has been started is open. -/
theorem isOpen_of_start (hstart : PropertyStore.start h c = (.ok (store, engine), host))
    (htables : store.tables? ⟨host, engine⟩ = some t) : store.IsOpen ⟨host, engine⟩ t :=
  ⟨Engine.isReady_of_start (start_eq_ok hstart) c.poolRecycle_ne_some_zero, htables⟩

/-- A site with a store in a file to which nothing has happened yet. -/
def fileSite : Site where
  host := { files := [([[0x61]], .database { graph := some {} })] }
  engine := {
    target := .file "a"
    locator := { place := .file [[0x61]], route := [[[0x61]]] }
    recycle := some 300 }

/-- Opening a file that is missing leads there. -/
theorem start_fileSite :
    PropertyStore.start {} { database := "a" } = (.ok (⟨{}⟩, fileSite.engine), fileSite.host) := by
  decide +kernel

theorem tables?_fileSite : PropertyStore.tables? ⟨{}⟩ fileSite = some {} := by decide +kernel

/-- **A store that is opened again finds its tables as they were.** -/
theorem isOpen_of_reopen (hopen : store.IsOpen s t) {path : Path}
    (hplace : s.engine.locator.place = .file path)
    (hstart : PropertyStore.start (Engine.close s.host s.engine) c = (.ok (store, engine), host))
    (hsame : engine.locator.place = .file path) : store.IsOpen ⟨host, engine⟩ t := by
  obtain ⟨db, hdb, htables⟩ := exists_database hopen.tables
  obtain ⟨content, hfile, hcontent⟩ := Engine.file?_close hplace hdb
  obtain ⟨db₁, db₂, hcontent₁, hsetup, hdb₂⟩ := Engine.database_of_start_file (start_eq_ok hstart)
    c.poolRecycle_ne_some_zero hsame hfile
  obtain rfl : db = db₁ := Except.ok.inj (hcontent.symm.trans hcontent₁)
  obtain rfl := Database.createGraph_of_tables htables hsetup
  refine isOpen_of_start hstart ?_
  rw [tables?_eq hdb₂, ite_self]
  exact htables

/-! ## Steps -/

/-- **What every operation that writes keeps is kept by a call**, whether it succeeds or not. -/
theorem exists_tables_of_keeps {P : GraphTables → Prop} (hopen : store.IsOpen s t) (ht : P t)
    (hnodes : ∀ now nodes, (∀ node ∈ nodes, store.schema.Fits node) →
      Session.Keeps P (GraphTables.writeNodes now nodes))
    (hrelations : ∀ now relations, Session.Keeps P (GraphTables.writeRelations now relations))
    (hnode : ∀ now id, Session.Keeps P (GraphTables.getOrCreateNode now id))
    (hdelete : ∀ selection, Session.Keeps P (GraphTables.delete selection)) (c : PropertyCall) :
    ∃ t', store.IsOpen ((c.run store).run s).2 t' ∧ P t' := by
  have hstays : ∃ t', store.IsOpen s t' ∧ P t' := ⟨t, hopen, ht⟩
  have hsession : ∀ {α : Type} {body : Session GraphTables α}, Session.Keeps P body →
      ∃ t', store.IsOpen ((store.session body).run s).2 t' ∧ P t' :=
    fun hbody => exists_tables_of_session hopen ht hbody
  cases c with
  | upsertNodes now nodes =>
    rw [PropertyCall.run, upsertNodes]
    split
    · exact hstays
    · rename_i hcheck
      exact hsession (hnodes now nodes (PropertySchema.checkEmbeddings_eq_ok.1 hcheck))
  | upsertRelations now relations => exact hsession (hrelations now relations)
  | getOrCreateNode now id =>
    rw [PropertyCall.run, Access.site_run_bind_pure]
    exact hsession (hnode now id)
  | delete selection =>
    rw [PropertyCall.run, delete]
    split_ifs
    · exact hstays
    · exact hsession (hdelete selection)
  | findNode id =>
    rw [PropertyCall.run, Access.site_run_bind_pure]
    exact hsession (.readsOk _)
  | nodes properties ids =>
    rw [PropertyCall.run, Access.site_run_bind_pure]
    exact hsession (.readsOk _)
  | triplets selection =>
    rw [PropertyCall.run, Access.site_run_bind_pure, triplets]
    split_ifs
    · exact hstays
    · exact hsession (.readsOk _)
  | reachable seeds depth limit ignored =>
    rw [PropertyCall.run, Access.site_run_bind_pure, reachable]
    split_ifs
    · exact hstays
    · exact hsession (.readsOk _)
  | relMap seeds depth limit ignored =>
    rw [PropertyCall.run, Access.site_run_bind_pure, relMap]
    split_ifs
    · exact hstays
    · exact hsession (.readsOk _)
  | nearest point count =>
    rw [PropertyCall.run, Access.site_run_bind_pure, nearest]
    split
    · exact hstays
    · split_ifs
      · exact hstays
      · exact hsession (.readsOk _)
  | stats =>
    rw [PropertyCall.run, Access.site_run_bind_pure]
    exact hsession (.reads _)

/-- **A call keeps the rules.** -/
theorem exists_tables_of_call (hopen : store.IsOpen s t)
    (hwf : t.WellFormed store.schema.dimension) (c : PropertyCall) :
    ∃ t', store.IsOpen ((c.run store).run s).2 t' ∧ t.Follows store.schema.dimension t' :=
  exists_tables_of_keeps hopen (.refl hwf) (fun now _ hfits => GraphTables.keeps_writeNodes now hfits)
    GraphTables.keeps_writeRelations GraphTables.keeps_getOrCreateNode GraphTables.follows_delete c

/-- **An event keeps the rules.** -/
theorem exists_tables_of_step {e : PropertyEvent} (hstep : store.Step s e s')
    (hopen : store.IsOpen s t) (hwf : t.WellFormed store.schema.dimension) :
    ∃ t', store.IsOpen s' t' ∧ t.Follows store.schema.dimension t' := by
  cases hstep with
  | call c => exact exists_tables_of_call hopen hwf c
  | reopen hplace hstart hsame =>
    exact ⟨t, isOpen_of_reopen hopen hplace hstart hsame, .refl hwf⟩

/-- **Induction along events**: what each of them hands on, together with the rules, is handed on by
all. -/
theorem Run.induct {P : Site → GraphTables → Prop} {Q : PropertyEvent → Prop}
    (step : ∀ {s s' : Site} {t : GraphTables} {e : PropertyEvent}, store.Step s e s' →
      store.IsOpen s t → t.WellFormed store.schema.dimension → Q e → P s t →
      ∃ t', store.IsOpen s' t' ∧ P s' t')
    {events : List PropertyEvent} (hrun : store.Run s events s') (hopen : store.IsOpen s t)
    (hwf : t.WellFormed store.schema.dimension) (hevents : ∀ e ∈ events, Q e) (h : P s t) :
    ∃ t', store.IsOpen s' t' ∧ t'.WellFormed store.schema.dimension ∧ P s' t' := by
  induction hrun generalizing t with
  | nil s => exact ⟨t, hopen, hwf, h⟩
  | cons hstep _ ih =>
    rw [List.forall_mem_cons] at hevents
    obtain ⟨t₁, hopen₁, h₁⟩ := step hstep hopen hwf hevents.1 h
    obtain ⟨t₂, hopen₂, hfollows⟩ := exists_tables_of_step hstep hopen hwf
    obtain rfl := hopen₁.unique hopen₂
    exact ih hopen₁ hfollows.wellFormed hevents.2 h₁

/-- **A run keeps the rules**, and no number of a relation comes back. -/
theorem exists_tables_of_run {events : List PropertyEvent} (hrun : store.Run s events s')
    (hopen : store.IsOpen s t) (hwf : t.WellFormed store.schema.dimension) :
    ∃ t', store.IsOpen s' t' ∧ t.Follows store.schema.dimension t' := by
  obtain ⟨t', hopen', -, hfollows⟩ :=
    Run.induct (P := fun _ t' => t.Follows store.schema.dimension t') (Q := fun _ => True)
      (fun hstep hopen hwf _ hfollows => by
        obtain ⟨t', hopen', hfollows'⟩ := exists_tables_of_step hstep hopen hwf
        exact ⟨t', hopen', hfollows.trans hfollows'⟩)
      hrun hopen hwf (fun _ _ => trivial) (.refl hwf)
  exact ⟨t', hopen', hfollows⟩

/-- **Wherever a run leads, the store is open and its tables follow the rules.** -/
theorem Reaches.isOpen (hreach : store.Reaches s t) :
    store.IsOpen s t ∧ t.WellFormed store.schema.dimension := by
  cases hreach with
  | run hstart htables hnew hrun hend =>
    obtain ⟨t', hopen, hfollows⟩ :=
      exists_tables_of_run hrun (isOpen_of_start hstart htables) (hnew.wellFormed _)
    obtain rfl := Option.some.inj (hend.symm.trans hopen.tables)
    exact ⟨hopen, hfollows.wellFormed⟩

/-- **Induction along a run**: what holds of new tables, and is handed on by calls and by reopening,
holds wherever a run leads. -/
theorem Reaches.induct {P : Site → GraphTables → Prop}
    (start : ∀ {h host : Host} {c : StoreConfig} {engine : Engine} {t : GraphTables},
      PropertyStore.start h c = (.ok (store, engine), host) →
      store.tables? ⟨host, engine⟩ = some t → t.IsNew → P ⟨host, engine⟩ t)
    (call : ∀ {s s' : Site} {t t' : GraphTables} {r : Except Error Unit} (c : PropertyCall),
      P s t → (c.run store).run s = (r, s') → store.tables? s' = some t' → P s' t')
    (reopen : ∀ {s s' : Site} {t t' : GraphTables}, P s t → store.Step s .reopen s' →
      store.tables? s' = some t' → P s' t')
    (hreach : store.Reaches s t) : P s t := by
  have hstep : ∀ {s s' : Site} {t : GraphTables} {e : PropertyEvent}, store.Step s e s' →
      store.IsOpen s t → t.WellFormed store.schema.dimension → True → P s t →
      ∃ t', store.IsOpen s' t' ∧ P s' t' := by
    intro s s' t e hstep hopen hwf _ hP
    obtain ⟨t', hopen', -⟩ := exists_tables_of_step hstep hopen hwf
    refine ⟨t', hopen', ?_⟩
    cases hstep with
    | call c => exact call c hP rfl hopen'.tables
    | reopen hplace hstart hsame =>
      exact reopen hP (.reopen hplace hstart hsame) hopen'.tables
  cases hreach with
  | run hstart htables hnew hrun hend =>
    obtain ⟨t', hopen, -, hP⟩ := Run.induct hstep hrun (isOpen_of_start hstart htables)
      (hnew.wellFormed _) (fun _ _ => trivial) (start hstart htables hnew)
    obtain rfl := Option.some.inj (hend.symm.trans hopen.tables)
    exact hP

end PropertyStore

end GraphBase
