import GraphBase.Graph.Client
import GraphBase.Proofs.Connection.Undoing
import GraphBase.Proofs.Graph.Sessions
import GraphBase.Proofs.Storage.Views

/-!
# An open property graph store

A property graph store is open on a site if the site is ready and the database has the tables of
the store (`PropertyStore.IsOpen`).  It is so after `PropertyStore.start`, whose tables are new if
the database was empty (`isNew_of_createGraph`).

Whatever sessions keep of the tables is kept on the site: a session that fails leaves everything
as it is, and so does a connection that may not write (`exists_tables_of_session`).  What a session
only reads is answered from the tables (`run_readsOk`).
-/

namespace GraphBase

/-- The tables of a store to which nothing has happened yet. -/
structure GraphTables.IsNew (t : GraphTables) : Prop where
  nodes : t.nodes = []
  relations : t.relations.rows = []

theorem GraphTables.IsNew.wellFormed {t : GraphTables} (h : t.IsNew) (dimension : Nat) :
    t.WellFormed dimension := .empty h.nodes h.relations

/-- The tables that a store creates in an empty database are new. -/
theorem Database.isNew_of_createGraph {r : Refusal} {db : Database}
    (h : createGraph r {} = .ok ((), db)) : ∃ t, db.graph = some t ∧ t.IsNew := by
  rw [createGraph, Session.run_get_bind] at h
  simp only at h
  split_ifs at h with hname
  · cases h
  · obtain ⟨u, db', -, hset⟩ := Session.exists_of_run_bind h
    cases hset
    exact ⟨{}, rfl, rfl, rfl⟩

namespace PropertySchema

variable {s : PropertySchema} {nodes : List Node}

/-- Whether the embedding of a node, if it has one, has the dimension of the store. -/
def Fits (s : PropertySchema) (node : Node) : Prop :=
  ∀ x, node.embedding = some x → x.length = s.dimension

theorem checkEmbedding_eq_ok {node : Node} :
    s.checkEmbedding node.embedding = .ok () ↔ s.Fits node := by
  rw [Fits]
  cases hv : node.embedding with
  | none => exact iff_of_true rfl nofun
  | some v =>
    rw [checkEmbedding]
    split_ifs with hlength
    · refine iff_of_true rfl fun x hx => ?_
      rwa [← Option.some.inj hx]
    · exact iff_of_false nofun fun h => hlength (h v rfl)

/-- A batch of nodes passes if every embedding has the dimension of the store. -/
theorem checkEmbeddings_eq_ok : s.checkEmbeddings nodes = .ok () ↔ ∀ node ∈ nodes, s.Fits node := by
  induction nodes with
  | nil => exact iff_of_true rfl fun node hnode => absurd hnode List.not_mem_nil
  | cons n rest ih =>
    rw [checkEmbeddings, List.forall_mem_cons, ← ih, ← checkEmbedding_eq_ok]
    cases s.checkEmbedding n.embedding with
    | error e => exact iff_of_false nofun fun h => nomatch h.1
    | ok u => exact (and_iff_right rfl).symm

/-- **The first embedding of a wrong length** is the answer for the whole batch. -/
theorem checkEmbeddings_eq_error {before after : List Node} {n : Node}
    (hbefore : ∀ node ∈ before, s.Fits node) {v : Embedding} (hv : n.embedding = some v)
    (hlength : v.length ≠ s.dimension) :
    s.checkEmbeddings (before ++ n :: after) = .error (.dimensionMismatch s.dimension v.length) := by
  induction before with
  | nil =>
    rw [List.nil_append, checkEmbeddings, hv, checkEmbedding, if_neg hlength]
  | cons m rest ih =>
    rw [List.forall_mem_cons] at hbefore
    rw [List.cons_append, checkEmbeddings, checkEmbedding_eq_ok.2 hbefore.1]
    exact ih hbefore.2

end PropertySchema

namespace PropertyStore

/-- The tables of a store on a site, as the next session finds them. -/
def tables? (_ : PropertyStore) (s : Site) : Option GraphTables :=
  match Engine.database s with
  | .ok db => db.graph
  | .error _ => none

/-- A store with its tables on a site that is ready. -/
structure IsOpen (store : PropertyStore) (s : Site) (t : GraphTables) : Prop where
  ready : Engine.IsReady s
  tables : store.tables? s = some t

variable {α : Type} {store : PropertyStore} {s s' : Site} {t t' : GraphTables}

theorem exists_database (h : store.tables? s = some t) :
    ∃ db, Engine.database s = .ok db ∧ db.graph = some t := by
  rw [tables?] at h
  split at h
  · rename_i db hdb
    exact ⟨db, hdb, h⟩
  · cases h

theorem tables?_eq {db : Database} (hdb : Engine.database s = .ok db) :
    store.tables? s = db.graph := by
  rw [tables?, hdb]

theorem IsOpen.unique (h : store.IsOpen s t) (h' : store.IsOpen s t') : t = t' :=
  Option.some.inj (h.tables.symm.trans h'.tables)

/-! ## Sessions -/

/-- **A session that succeeds on the tables succeeds on the site**, and the next session finds
its tables, unless the connection may not write. -/
theorem run_session (h : store.IsOpen s t) {body : Session GraphTables α} {a : α}
    (hbody : body s.engine.locator.refusal t = .ok (a, t')) :
    ∃ s', (store.session body).run s = (.ok a, s') ∧
      store.IsOpen s' (if s.engine.locator.refusal.isNone then t' else t) := by
  obtain ⟨db, hdb, htables⟩ := exists_database h.tables
  have hin := Database.inGraph_eq htables body s.engine.locator.refusal
  rw [hbody] at hin
  obtain ⟨s', hrun, hready, -, hdb'⟩ := Engine.run_session h.ready hdb hin
  refine ⟨s', hrun, hready, ?_⟩
  rw [tables?_eq hdb']
  split_ifs
  · rfl
  · exact htables

/-- **A session that fails on the tables leaves the site as it is.** -/
theorem run_session_fails (h : store.IsOpen s t) {body : Session GraphTables α} {e : Error}
    (hbody : body s.engine.locator.refusal t = .error e) :
    (store.session body).run s = (.error e, s) := by
  obtain ⟨db, hdb, htables⟩ := exists_database h.tables
  refine Engine.run_session_fails h.ready hdb ?_
  rw [Database.inGraph_eq htables, hbody]
  rfl

/-- A session that would fail without a refusal fails in any case. -/
theorem fails_session (h : store.IsOpen s t) {body : Session GraphTables α} {e : Error}
    (hbody : Session.Restrained body) (hfails : body none t = .error e) :
    Access.Fails (store.session body) s e := by
  obtain ⟨e', hrefused, he⟩ := hbody.exists_error hfails s.engine.locator.refusal
  exact ⟨e', run_session_fails h hrefused, he⟩

/-- **A session that is held back by a refusal** either has the outcome on the site that it has on
the tables, or fails and leaves the site as it is.  It fails for a reason in the tables if the
connection may write. -/
theorem run_session_of_restrained (h : store.IsOpen s t) {body : Session GraphTables α}
    (hbody : Session.Restrained body) :
    (∃ a t' s', body none t = .ok (a, t') ∧ (store.session body).run s = (.ok a, s') ∧
      store.IsOpen s' t') ∨
    ∃ e, (store.session body).run s = (.error e, s) ∧
      (s.engine.locator.refusal = none → body none t = .error e) := by
  cases hout : body s.engine.locator.refusal t with
  | error e => exact .inr ⟨e, run_session_fails h hout, fun hnone => hnone ▸ hout⟩
  | ok p =>
    obtain ⟨s', hrun, hopen⟩ := run_session h (show _ = Except.ok (p.1, p.2) from hout)
    cases hrefusal : s.engine.locator.refusal with
    | none =>
      rw [hrefusal] at hout hopen
      exact .inl ⟨p.1, p.2, s', hout, hrun, hopen⟩
    | some f =>
      -- whoever gets through under a refusal has written nothing
      obtain ⟨hsame, hnone⟩ := hbody f t p.1 p.2 (hrefusal ▸ hout)
      rw [hsame, ite_self] at hopen
      exact .inl ⟨p.1, t, s', hnone, hrun, hopen⟩

/-- A session that is held back by a refusal, and by nothing else. -/
theorem run_session_of_ok (h : store.IsOpen s t) {body : Session GraphTables α}
    (hbody : Session.Restrained body) {a : α} (hrun : body none t = .ok (a, t')) :
    (∃ s', (store.session body).run s = (.ok a, s') ∧ store.IsOpen s' t') ∨
      s.engine.locator.refusal ≠ none ∧ ∃ e, (store.session body).run s = (.error e, s) := by
  obtain ⟨b, t₁, s', hrun', hsession, hopen⟩ | ⟨e, hsession, hfails⟩ :=
    run_session_of_restrained h hbody
  · rw [hrun] at hrun'
    obtain ⟨rfl, rfl⟩ := Prod.mk.inj (Except.ok.inj hrun')
    exact .inl ⟨s', hsession, hopen⟩
  · refine .inr ⟨fun hnone => ?_, e, hsession⟩
    rw [hrun] at hfails
    cases hfails hnone

/-- **What sessions keep of the tables is kept on the site.** -/
theorem exists_tables_of_session (h : store.IsOpen s t) {P : GraphTables → Prop} (ht : P t)
    {body : Session GraphTables α} (hbody : Session.Keeps P body) :
    ∃ t', store.IsOpen ((store.session body).run s).2 t' ∧ P t' := by
  cases hout : body s.engine.locator.refusal t with
  | error e =>
    rw [run_session_fails h hout]
    exact ⟨t, h, ht⟩
  | ok p =>
    obtain ⟨s', hrun, hopen⟩ := run_session h (show _ = Except.ok (p.1, p.2) from hout)
    rw [hrun]
    refine ⟨_, hopen, ?_⟩
    split_ifs
    · exact hbody _ t p.1 p.2 hout ht
    · exact ht

/-- A session that only reads answers from the tables and leaves them as they are. -/
theorem run_readsOk (h : store.IsOpen s t) {read : GraphTables → Except StorageFault α} {a : α}
    (hread : read t = .ok a) :
    ∃ s', (store.session (Session.readsOk read)).run s = (.ok a, s') ∧ store.IsOpen s' t := by
  have hbody := Session.run_readsOk (r := s.engine.locator.refusal) (s := t) read
  rw [hread] at hbody
  obtain ⟨s', hrun, hopen⟩ := run_session h hbody
  rw [ite_self] at hopen
  exact ⟨s', hrun, hopen⟩

/-- If the tables give no answer, the session fails, whether the connection may write or not. -/
theorem run_readsOk_fails (h : store.IsOpen s t) {read : GraphTables → Except StorageFault α}
    {f : StorageFault} (hread : read t = .error f) :
    (store.session (Session.readsOk read)).run s = (.error (.storage f), s) := by
  have hbody := Session.run_readsOk (r := s.engine.locator.refusal) (s := t) read
  rw [hread] at hbody
  exact run_session_fails h hbody

end PropertyStore

end GraphBase
