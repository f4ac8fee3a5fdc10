import GraphBase.Proofs.Triplets.Runs

/-!
# A triplet store is a fact base

Whatever happens to a triplet store after it is opened on new tables, it is a fact base to its
user: the one that the meanings of the events lead to, starting from the empty one.  This is
`represents_of_run`.  It says

* what is in the tables: they are well-formed, and the facts and names that are read off them are
  those of the fact base;
* what a client is told (`TripletStore.Answers`), and what happens if it writes
  (`TripletStore.Accepts`);
* that the numbers in the tables are given out in ascending order, and never twice
  (`TripletTables.NumbersAfter`), however often the connection is closed and opened in between.
-/

namespace GraphBase

/-- The numbers of later tables, next to those of earlier ones: a number that is new is larger
than all numbers before it. -/
structure TripletTables.NumbersAfter (t t' : TripletTables) : Prop where
  entities : ∀ n ∈ t'.entities.numbers EntityRow.id, n ∉ t.entities.numbers EntityRow.id →
    ∀ m ∈ t.entities.numbers EntityRow.id, m < n
  relationships : ∀ n ∈ t'.relationships.numbers RelationshipRow.id,
    n ∉ t.relationships.numbers RelationshipRow.id →
      ∀ m ∈ t.relationships.numbers RelationshipRow.id, m < n

/-- The numbers of rows that are gone do not come back: what was there first and is gone then is
not there at last. -/
structure TripletTables.NumbersStayGone (first then_ last : TripletTables) : Prop where
  entities : ∀ n ∈ first.entities.numbers EntityRow.id,
    n ∉ then_.entities.numbers EntityRow.id → n ∉ last.entities.numbers EntityRow.id
  relationships : ∀ n ∈ first.relationships.numbers RelationshipRow.id,
    n ∉ then_.relationships.numbers RelationshipRow.id →
      n ∉ last.relationships.numbers RelationshipRow.id

namespace TripletTables.Follows

variable {t t' t'' : TripletTables}

theorem numbersAfter (hwf : t.WellFormed) (h : t.Follows t') : t.NumbersAfter t' :=
  ⟨h.entities.lt_of_notMem hwf.entities, h.relationships.lt_of_notMem hwf.relationships⟩

theorem numbersStayGone (hwf : t.WellFormed) (h : t.Follows t') (h' : t'.Follows t'') :
    t.NumbersStayGone t' t'' :=
  ⟨fun _ hn hgone => Table.Grows.number_notMem hwf.entities h.entities h'.entities hn hgone,
    fun _ hn hgone =>
      Table.Grows.number_notMem hwf.relationships h.relationships h'.relationships hn hgone⟩

end TripletTables.Follows

namespace TripletStore

/-- A client who reads is told what is in a fact base. -/
structure Answers (store : TripletStore) (s : Site) (b : FactBase) : Prop where
  relations : ∀ subject, ∃ s', (store.relations subject).run s = (.ok (b.relations subject), s')
  stats : ∃ s', store.stats.run s = (.ok b.stats, s')
  findEntity : ∀ name, ∃ row? s', (store.findEntity name).run s = (.ok row?, s') ∧
    (row?.isSome = true ↔ name ∈ b.names)

/-- A client who writes succeeds.  Making an entity says whether it was not there.  Deleting a
fact that is not there leaves the tables as they are, and deleting one that is there leaves all
entities as they are whose names stay. -/
structure Accepts (store : TripletStore) (s : Site) (t : TripletTables) (b : FactBase) : Prop where
  upsert : ∀ now fact, ∃ s', (store.upsert now fact).run s = (.ok (), s')
  getOrCreateEntity : ∀ now name, ∃ row s',
    (store.getOrCreateEntity now name).run s = (.ok (row, decide (name ∉ b.names)), s') ∧
      row.name = name
  delete : ∀ fact, ∃ s' t', (store.delete fact).run s = (.ok (), s') ∧ store.tables? s' = some t' ∧
    (fact ∉ b.facts → t' = t) ∧
    ∀ e, e ∈ t'.entities.rows ↔ e ∈ t.entities.rows ∧ e.name ∈ (b.delete fact).names

variable {store : TripletStore} {s : Site} {t : TripletTables} {b : FactBase}

theorem answers_of_isOpen (hopen : store.IsOpen s t) (hwf : t.WellFormed) (hb : t.Represents b) :
    store.Answers s b := by
  refine ⟨fun subject => ?_, ?_, fun name => ?_⟩
  · obtain ⟨s', hrun, -⟩ := run_relations hopen hwf hb subject
    exact ⟨s', hrun⟩
  · obtain ⟨s', hrun, -⟩ := run_stats hopen hwf hb
    exact ⟨s', hrun⟩
  · obtain ⟨row?, s', hrun, -, hfound⟩ := run_findEntity hopen hb name
    exact ⟨row?, s', hrun, hfound⟩

theorem accepts_of_isOpen (hopen : store.IsOpen s t) (hwf : t.WellFormed) (hb : t.Represents b)
    (hwrite : s.engine.locator.refusal = none) : store.Accepts s t b := by
  refine ⟨fun now fact => ?_, fun now name => ?_, fun fact => ?_⟩
  · obtain ⟨s', t', hrun, -⟩ := run_upsert hopen hwf hb hwrite now fact
    exact ⟨s', hrun⟩
  · obtain ⟨row, s', t', hrun, hname, -⟩ := run_getOrCreateEntity hopen hwf hb hwrite now name
    exact ⟨row, s', hrun, hname⟩
  · obtain ⟨s', t', hrun, hopen', hfollows, hb', hrows⟩ := run_delete hopen hwf hb hwrite fact
    refine ⟨s', t', hrun, hopen'.tables, fun hfact => ?_, fun e => ?_⟩
    · obtain ⟨s'', hrun', hsame⟩ := run_delete_of_notMem hopen hwf hb hwrite hfact
      rw [hrun] at hrun'
      obtain ⟨-, rfl⟩ := Prod.mk.inj hrun'
      exact Option.some.inj (hopen'.tables.symm.trans hsame.tables)
    · rw [← hb'.names, List.mem_toFinset]
      constructor
      · exact fun he => ⟨hrows e he, List.mem_map_of_mem he⟩
      · rintro ⟨he, hname⟩
        obtain ⟨e', he', heq⟩ := List.mem_map.1 hname
        rwa [hwf.eq_of_name_eq he (hrows e' he') heq.symm]

/-- **A triplet store is a fact base.**  After any run from new tables, it is the fact base that
the events of the run lead to. -/
theorem represents_of_run {h host : Host} {c : StoreConfig} {engine : Engine}
    {t₀ : TripletTables} {events : List TripletEvent}
    (hstart : TripletStore.start h c = (.ok (store, engine), host))
    (htables : store.tables? ⟨host, engine⟩ = some t₀) (hnew : t₀.IsNew)
    (hrun : store.Run ⟨host, engine⟩ events s) :
    ∃ t, store.tables? s = some t ∧ t.WellFormed ∧
      t.Represents (FactBase.empty.after events) ∧
      store.Answers s (FactBase.empty.after events) ∧
      (s.engine.locator.refusal = none → store.Accepts s t (FactBase.empty.after events)) ∧
      ∀ events' s', store.Run s events' s' → ∃ t', store.tables? s' = some t' ∧
        t.NumbersAfter t' ∧
        ∀ events'' s'', store.Run s' events'' s'' → ∃ t'', store.tables? s'' = some t'' ∧
          t.NumbersStayGone t' t'' := by
  obtain ⟨t, hopen, hfollows, hb⟩ :=
    exists_tables_of_run hrun (isOpen_of_start hstart htables) hnew.wellFormed hnew.represents
  have hwf := hfollows.wellFormed
  refine ⟨t, hopen.tables, hwf, hb, answers_of_isOpen hopen hwf hb,
    accepts_of_isOpen hopen hwf hb, fun events' s' hrun' => ?_⟩
  obtain ⟨t', hopen', hfollows', hb'⟩ := exists_tables_of_run hrun' hopen hwf hb
  refine ⟨t', hopen'.tables, hfollows'.numbersAfter hwf, fun events'' s'' hrun'' => ?_⟩
  obtain ⟨t'', hopen'', hfollows'', -⟩ :=
    exists_tables_of_run hrun'' hopen' hfollows'.wellFormed hb'
  exact ⟨t'', hopen''.tables, hfollows'.numbersStayGone hwf hfollows''⟩

/-- A store in a file, opened once more before a fact is added. -/
theorem represents_of_run_fileSite :
    ∃ t, TripletStore.tables? ⟨{}⟩
        (((TripletCall.upsert "now" ⟨"A", "r", "B"⟩).run ⟨{}⟩).run fileSite).2 = some t ∧
      t.Represents (FactBase.empty.after [.reopen, .call (.upsert "now" ⟨"A", "r", "B"⟩)]) := by
  have hreopen : TripletStore.Step ⟨{}⟩ fileSite .reopen fileSite :=
    .reopen rfl restart_fileSite rfl
  have hcall : TripletStore.Step ⟨{}⟩ fileSite (.call (.upsert "now" ⟨"A", "r", "B"⟩)) _ :=
    .call _ (by decide +kernel)
  obtain ⟨t, ht, -, hb, -⟩ := represents_of_run start_fileSite tables?_fileSite
    ⟨rfl, rfl, rfl, rfl⟩ (.cons hreopen (.cons hcall (.nil _)))
  exact ⟨t, ht, hb⟩

end TripletStore

end GraphBase
