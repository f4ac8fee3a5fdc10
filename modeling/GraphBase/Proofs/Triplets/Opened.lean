import GraphBase.Proofs.Connection.Site
import GraphBase.Proofs.Storage.Views
import GraphBase.Proofs.Triplets.Sessions
import GraphBase.Triplets.Client

/-!
# An open triplet store

A triplet store is open on a site if the site is ready and the database has the tables of the
store (`TripletStore.IsOpen`).  It is so after `TripletStore.start`, whose tables are new if the
database was empty (`isNew_of_createTriplets`), and it stays so.

`run_session` carries the sessions on the tables over to the site.  What the operations of a
client do is read off it: each answers as the fact base in the tables says, and leaves tables
behind that follow the ones before.
-/

namespace GraphBase

/-- The tables of a store to which nothing has happened yet. -/
structure TripletTables.IsNew (t : TripletTables) : Prop where
  entities : t.entities.rows = []
  relationships : t.relationships.rows = []
  ends_own : t.surroundings.ends = none
  unpinned : t.surroundings.pinned = []

namespace TripletTables.IsNew

variable {t : TripletTables}

theorem wellFormed (h : t.IsNew) : t.WellFormed := by
  refine ⟨.of_rows_eq_nil h.entities, .of_rows_eq_nil h.relationships, ?_, ?_, ?_, ?_, h.ends_own,
    h.unpinned⟩
  · rw [names, h.entities]
    exact .nil
  · rw [h.relationships]
    exact .nil
  · rw [h.relationships]
    exact fun r hr => absurd hr List.not_mem_nil
  · rw [h.relationships]
    exact fun r hr => absurd hr List.not_mem_nil

theorem represents (h : t.IsNew) : t.Represents .empty := by
  refine ⟨?_, ?_⟩
  · rw [facts, h.relationships]
    rfl
  · rw [names, h.entities]
    rfl

end TripletTables.IsNew

/-- The tables that a store creates in an empty database are new. -/
theorem Database.isNew_of_createTriplets {s : TripletSchema} {r : Refusal} {db : Database}
    (h : createTriplets s r {} = .ok ((), db)) : ∃ t, db.tripletTables? s = some t ∧ t.IsNew := by
  obtain ⟨u₁, db₁, hentities, hlinks⟩ := Session.exists_of_run_bind h
  have hdb₁ : db₁ = { entityTables := [(Text.foldCase s.entities, Table.empty)] } := by
    rw [createEntities, Session.run_get_bind] at hentities
    split_ifs at hentities with hreserved hthere
    · cases hentities
    · cases hthere
    · obtain ⟨u₂, db', hfree, hlast⟩ := Session.exists_of_run_bind hentities
      obtain ⟨u₃, db'', hreadable, hset⟩ := Session.exists_of_run_bind hlast
      cases hset
      rfl
  rw [createLinks, Session.run_get_bind] at hlinks
  split_ifs at hlinks with hreserved hthere htable
  · cases hlinks
  · rw [hdb₁] at htable
    cases htable
  · cases hlinks
  · obtain ⟨u₂, db', hfree, hlast⟩ := Session.exists_of_run_bind hlinks
    obtain ⟨u₃, db'', hreadable, hset⟩ := Session.exists_of_run_bind hlast
    simp only at hset
    split_ifs at hset with hindex
    · cases hset
    · cases hset
      rw [hdb₁]
      refine ⟨{}, ?_, rfl, rfl, rfl, rfl⟩
      simp [tripletTables?, lookupName, pinnedBy, Table.empty]

namespace TripletStore

/-- The tables of a store on a site, as the next session finds them. -/
def tables? (store : TripletStore) (s : Site) : Option TripletTables :=
  match Engine.database s with
  | .ok db => db.tripletTables? store.schema
  | .error _ => none

/-- A store with its tables on a site that is ready. -/
structure IsOpen (store : TripletStore) (s : Site) (t : TripletTables) : Prop where
  ready : Engine.IsReady s
  tables : store.tables? s = some t

variable {α : Type} {store : TripletStore} {s s' : Site} {t t' : TripletTables} {b : FactBase}

theorem exists_database (h : store.tables? s = some t) :
    ∃ db, Engine.database s = .ok db ∧ db.tripletTables? store.schema = some t := by
  rw [tables?] at h
  split at h
  · rename_i db hdb
    exact ⟨db, hdb, h⟩
  · cases h

theorem tables?_eq {db : Database} (hdb : Engine.database s = .ok db) :
    store.tables? s = db.tripletTables? store.schema := by
  rw [tables?, hdb]

/-! ## Sessions -/

/-- **A session that succeeds on the tables succeeds on the site**, and the next session finds
its tables.  A connection that may not write is good enough for a session that changes
nothing. -/
theorem run_session (h : store.IsOpen s t) {body : Session TripletTables α} {a : α}
    (hbody : body s.engine.locator.refusal t = .ok (a, t'))
    (hwrite : s.engine.locator.refusal = none ∨ t' = t)
    (hsurroundings : t'.surroundings = t.surroundings) :
    ∃ s', (store.session body).run s = (.ok a, s') ∧ store.IsOpen s' t' ∧
      s'.engine.locator = s.engine.locator := by
  obtain ⟨db, hdb, htables⟩ := exists_database h.tables
  have hin := Database.inTriplets_eq htables body s.engine.locator.refusal
  rw [hbody] at hin
  obtain ⟨s', hrun, hready, hlocator, hdb'⟩ := Engine.run_session h.ready hdb hin
  refine ⟨s', hrun, ⟨hready, ?_⟩, hlocator⟩
  rw [tables?_eq hdb']
  by_cases hrefusal : s.engine.locator.refusal = none
  · rw [hrefusal]
    refine (Database.tripletTables?_withTripletTables htables t').trans ?_
    rw [← hsurroundings]
  · rw [Bool.eq_false_iff.2 (mt Option.isNone_iff_eq_none.1 hrefusal),
      hwrite.resolve_left hrefusal]
    exact htables

/-- **A session that fails on the tables leaves the site as it is.** -/
theorem run_session_fails (h : store.IsOpen s t) {body : Session TripletTables α} {e : Error}
    (hbody : body s.engine.locator.refusal t = .error e) :
    (store.session body).run s = (.error e, s) := by
  obtain ⟨db, hdb, htables⟩ := exists_database h.tables
  refine Engine.run_session_fails h.ready hdb ?_
  rw [Database.inTriplets_eq htables, hbody]
  rfl

/-- A session that only reads answers from the tables and leaves them as they are. -/
theorem run_readsOk (h : store.IsOpen s t) (read : TripletTables → Except StorageFault α) :
    ∃ s', (store.session (Session.readsOk read)).run s = ((read t).mapError .storage, s') ∧
      store.IsOpen s' t := by
  have hbody := Session.run_readsOk (r := s.engine.locator.refusal) (s := t) read
  cases hread : read t with
  | ok a =>
    rw [hread] at hbody
    obtain ⟨s', hrun, hopen, -⟩ := run_session h hbody (.inr rfl) rfl
    exact ⟨s', hrun, hopen⟩
  | error f =>
    rw [hread] at hbody
    exact ⟨s, run_session_fails h hbody, h⟩

/-! ## Operations -/

section Operations

variable (h : store.IsOpen s t) (hwf : t.WellFormed) (hb : t.Represents b)

include h hwf hb

/-- **The relations of a subject** are those of the fact base. -/
theorem run_relations (subject : String) :
    ∃ s', (store.relations subject).run s = (.ok (b.relations subject), s') ∧
      store.IsOpen s' t := by
  have hread := run_readsOk h fun t => t.relations subject
  rwa [TripletTables.relations_eq hwf hb] at hread

/-- **The counts** are those of the fact base. -/
theorem run_stats : ∃ s', store.stats.run s = (.ok b.stats, s') ∧ store.IsOpen s' t := by
  obtain ⟨s', hrun, hopen, -⟩ :=
    run_session h (Session.run_reads TripletTables.stats) (.inr rfl) rfl
  rw [TripletTables.stats_eq hwf hb] at hrun
  exact ⟨s', hrun, hopen⟩

omit hwf in
/-- **An entity is found** exactly if its name is there. -/
theorem run_findEntity (name : String) :
    ∃ row? s', (store.findEntity name).run s = (.ok row?, s') ∧ store.IsOpen s' t ∧
      (row?.isSome = true ↔ name ∈ b.names) := by
  obtain ⟨s', hrun, hopen, -⟩ :=
    run_session h (Session.run_reads fun t => t.entity? name) (.inr rfl) rfl
  refine ⟨t.entity? name, s', hrun, hopen, ?_⟩
  rw [TripletTables.isSome_entity?, ← hb.names, List.mem_toFinset]

variable (hwrite : s.engine.locator.refusal = none)

include hwrite

/-- **Finding or making an entity** adds its name, and says whether it was not there. -/
theorem run_getOrCreateEntity (now name : String) :
    ∃ row s' t', (store.getOrCreateEntity now name).run s =
        (.ok (row, decide (name ∉ b.names)), s') ∧
      row.name = name ∧ store.IsOpen s' t' ∧ t.Follows t' ∧ t'.Represents (b.addName name) := by
  obtain ⟨row, t', hbody, hmade⟩ := TripletTables.run_getOrCreateEntity hwf now name
  rw [← hwrite] at hbody
  obtain ⟨s', hrun, hopen, -⟩ := run_session h hbody (.inl hwrite) hmade.follows.surroundings
  have hcreated : decide (name ∉ t.names) = decide (name ∉ b.names) := by
    rw [← hb.names, decide_eq_decide, List.mem_toFinset]
  rw [hcreated] at hrun
  refine ⟨row, s', t', hrun, hmade.name_eq, hopen, hmade.follows, ?_, ?_⟩
  · exact hmade.facts.trans hb.facts
  · rw [hmade.names, hb.names]
    rfl

/-- **Adding a fact** adds it to the fact base. -/
theorem run_upsert (now : String) (fact : Fact) :
    ∃ s' t', (store.upsert now fact).run s = (.ok (), s') ∧ store.IsOpen s' t' ∧
      t.Follows t' ∧ t'.Represents (b.upsert fact) := by
  obtain ⟨t', hbody, hfollows, hb'⟩ := TripletTables.run_upsert hwf hb now fact
  rw [← hwrite] at hbody
  obtain ⟨s', hrun, hopen, -⟩ := run_session h hbody (.inl hwrite) hfollows.surroundings
  exact ⟨s', t', hrun, hopen, hfollows, hb'⟩

/-- **Deleting a fact that is not there** does nothing at all. -/
theorem run_delete_of_notMem {fact : Fact} (hfact : fact ∉ b.facts) :
    ∃ s', (store.delete fact).run s = (.ok (), s') ∧ store.IsOpen s' t := by
  obtain ⟨n, t', hbody, hn, hsame, -⟩ := TripletTables.run_removeFact hwf fact
  rw [hb.facts] at hn hsame
  obtain rfl := hn.2 hfact
  obtain rfl := hsame hfact
  rw [← hwrite] at hbody
  obtain ⟨s', hrun, hopen, -⟩ := run_session h hbody (.inl hwrite) rfl
  exact ⟨s', Access.run_bind_ok hrun, hopen⟩

/-- **Deleting a fact** takes it out of the fact base.  The entities that are left keep their
rows. -/
theorem run_delete (fact : Fact) :
    ∃ s' t', (store.delete fact).run s = (.ok (), s') ∧ store.IsOpen s' t' ∧ t.Follows t' ∧
      t'.Represents (b.delete fact) ∧ ∀ e ∈ t'.entities.rows, e ∈ t.entities.rows := by
  by_cases hfact : fact ∈ b.facts
  · obtain ⟨n, t₁, t₂, hremove, hn, hclean, hfollows₁, hfollows₂, hb', hrows⟩ :=
      TripletTables.run_delete hwf hb hfact
    rw [← hwrite] at hremove
    obtain ⟨s₁, hrun₁, hopen₁, hlocator⟩ :=
      run_session h hremove (.inl hwrite) hfollows₁.surroundings
    have hwrite₁ : s₁.engine.locator.refusal = none := by rw [hlocator, hwrite]
    rw [← hwrite₁] at hclean
    obtain ⟨s₂, hrun₂, hopen₂, -⟩ :=
      run_session hopen₁ hclean (.inl hwrite₁) hfollows₂.surroundings
    refine ⟨s₂, t₂, ?_, hopen₂, hfollows₁.trans hfollows₂, hb', hrows⟩
    refine (Access.run_bind_ok hrun₁).trans ?_
    rw [if_pos hn]
    exact hrun₂
  · obtain ⟨s', hrun, hopen⟩ := run_delete_of_notMem h hwf hb hwrite hfact
    refine ⟨s', t, hrun, hopen, .refl hwf, ?_, fun e he => he⟩
    rw [FactBase.delete, if_neg hfact]
    exact hb

end Operations

end TripletStore

end GraphBase
