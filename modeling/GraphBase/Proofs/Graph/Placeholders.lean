import GraphBase.Proofs.Graph.Written

/-!
# Rows that stand for the ends of relations

A bare row is there for the sake of a relation.  As long as nobody writes bare nodes or asks for
bare rows, a relation ends at every bare row (`GraphTables.Anchored`), through whatever calls of
whatever outcome, and through reopenings.

* Writing a node that is not bare makes its row one that is not (`NodeRow.IsWritten.isBare`), so all
  bare rows after a batch of nodes were there before.
* Relations keep their ends when they are written again, and a row that is made for a relation is
  made along with it.
* A deletion collects the ends of every relation that it removes, and removes the bare rows among
  them at which no relation is left.  So a bare row that stays was not such an end, and has kept all
  its relations, or still has one.  Nothing has to be known about what is selected.

The other way round, a row that is not bare goes in a deletion only if it is meant.
-/

namespace GraphBase

open GraphTables (addRow putRow putRelation)

/-! ## Bare nodes -/

/-- Whether a node says no more than a row that is made for a relation. -/
def Node.IsBare (n : Node) : Prop := n.kind = .other ∧ n.body = { label := bareLabel }

/-- A row to which a node has been written is bare only if the node is. -/
theorem NodeRow.IsWritten.isBare {n : Node} {row : NodeRow} (h : row.IsWritten n)
    (hbare : row.isBare = true) : n.IsBare := by
  have hkind : n.kind = .other := by
    by_contra hkind
    rw [h.isBare_eq_false hkind] at hbare
    cases hbare
  rw [NodeRow.isBare, Bool.and_eq_true, Bool.and_eq_true, Bool.and_eq_true, beq_iff_eq, beq_iff_eq,
    beq_iff_eq, h.embedding, h.label, h.properties] at hbare
  obtain ⟨⟨⟨-, hembedding⟩, hlabel⟩, hproperties⟩ := hbare
  have hnone : n.embedding = none := by
    cases hv : n.embedding with
    | none => rfl
    | some v =>
      rw [hv] at hembedding
      cases hembedding
  refine ⟨hkind, ?_⟩
  rw [NodeBody.mk.injEq]
  exact ⟨hlabel, Properties.eq_empty_of_encode hproperties, hnone⟩

/-- Whether an event brings no bare rows but those that relations need. -/
def PropertyEvent.MakesNoBare : PropertyEvent → Prop
  | .call (.upsertNodes _ batch) => ∀ n ∈ batch, ¬n.IsBare
  | .call (.getOrCreateNode ..) => False
  | _ => True

namespace GraphTables

/-- A relation ends at every bare row. -/
def Anchored (t : GraphTables) : Prop :=
  ∀ n ∈ t.nodes, n.isBare = true → ∃ r ∈ t.relations.rows, r.endsAt n.id = true

variable {t t' : GraphTables} {now : String} {rows : List NodeRow} {n : NodeRow}

theorem IsNew.anchored (h : t.IsNew) : t.Anchored := by
  intro n hn
  rw [h.nodes] at hn
  cases hn

/-! ## Writing -/

theorem mem_or_of_mem_addRow {id : String} (hn : n ∈ addRow now rows id) :
    n ∈ rows ∨ n.id = id := by
  rw [addRow] at hn
  split_ifs at hn
  · exact .inl hn
  · rw [List.mem_append, List.mem_singleton] at hn
    exact hn.imp_right fun h => congrArg NodeRow.id h

theorem mem_or_of_mem_foldl_addRow {ids : List String} (hn : n ∈ ids.foldl (addRow now) rows) :
    n ∈ rows ∨ n.id ∈ ids := by
  induction ids generalizing rows with
  | nil => exact .inl hn
  | cons id ids ih =>
    rw [List.mem_cons, ← or_assoc]
    exact (ih hn).imp_left mem_or_of_mem_addRow

/-- Writing a node that is not bare makes no bare row. -/
theorem mem_of_mem_putRow {node : Node} (hnode : ¬node.IsBare) (hn : n ∈ putRow now rows node)
    (hbare : n.isBare = true) : n ∈ rows := by
  obtain ⟨row, hrow, rfl⟩ := List.mem_map.1 hn
  by_cases hid : row.id = node.id
  · exact absurd ((NodeRow.isWritten_put now hid).isBare hbare) hnode
  · rw [put_of_ne hid]
    exact (mem_or_of_mem_addRow hrow).resolve_right hid

theorem mem_of_mem_foldl_putRow {batch : List Node} (hbatch : ∀ node ∈ batch, ¬node.IsBare)
    (hn : n ∈ batch.foldl (putRow now) rows) (hbare : n.isBare = true) : n ∈ rows := by
  induction batch generalizing rows with
  | nil => exact hn
  | cons node batch ih =>
    rw [List.forall_mem_cons] at hbatch
    exact mem_of_mem_putRow hbatch.1 (ih hbatch.2 hn) hbare

/-- Where relations end is a matter of their keys. -/
theorem exists_endsAt_iff {relations : Table RelationRow} {id : String} :
    (∃ r ∈ relations.rows, r.endsAt id = true) ↔
      ∃ key ∈ relations.rows.map RelationRow.key, key.2.1 = id ∨ key.2.2 = id := by
  simp only [RelationRow.endsAt, Bool.or_eq_true, beq_iff_eq, List.mem_map,
    exists_exists_and_eq_and]
  rfl

theorem Anchored.putNodes (h : t.Anchored) {batch : List Node}
    (hbatch : ∀ node ∈ batch, ¬node.IsBare) :
    Anchored { t with nodes := batch.foldl (putRow now) t.nodes } :=
  fun n hn hbare => h n (mem_of_mem_foldl_putRow hbatch hn hbare) hbare

theorem Anchored.putRelations (h : t.Anchored) (batch : List Relation) :
    Anchored {
      nodes := (batch.flatMap Relation.ends).foldl (addRow now) t.nodes
      relations := batch.foldl (putRelation now) t.relations } := by
  intro n hn hbare
  rw [exists_endsAt_iff]
  rcases mem_or_of_mem_foldl_addRow hn with hn | hid
  · obtain ⟨key, hkey, hend⟩ := exists_endsAt_iff.1 (h n hn hbare)
    exact ⟨key, mem_keys_foldl_putRelation.2 (.inl hkey), hend⟩
  · obtain ⟨r, hr, hend⟩ := List.mem_flatMap.1 hid
    refine ⟨r.key, mem_keys_foldl_putRelation.2 (.inr (List.mem_map_of_mem hr)), ?_⟩
    rw [Relation.ends, List.mem_cons, List.mem_singleton] at hend
    exact hend.imp Eq.symm Eq.symm

/-! ## Deleting -/

/-- A removal that looks after the ends of what it takes leaves no bare row without a relation. -/
theorem Anchored.withoutBare (h : t.Anchored) {gone : RelationRow → Bool} {ids ends : List String}
    (hends : t.IsEnds gone ids ends) : ((t.without gone ids).withoutBare ends).Anchored := by
  intro n hn hbare
  obtain ⟨hmem, hstays⟩ := List.mem_filter.1 hn
  obtain ⟨r, hr, hend⟩ := h n (mem_nodes_without.1 hmem).1 hbare
  by_cases hgoes : goes gone ids r = true
  · -- the row is an end of what is gone, so it has stayed for the sake of another relation
    have hmine : ends.contains n.id = true :=
      List.contains_iff_mem.2 ((hends n.id).2 ⟨r, hr, hgoes, hend⟩)
    rw [hmine, hbare, Bool.true_and, Bool.true_and, Bool.not_not] at hstays
    exact List.any_eq_true.1 hstays
  · exact ⟨r, mem_rows_without.2 ⟨hr, Bool.eq_false_iff.2 hgoes⟩, hend⟩

theorem Anchored.delete (h : t.Anchored) {s : Selection}
    (hrun : delete s none t = .ok ((), t')) : t'.Anchored := by
  obtain ⟨gone, ids, ends, hends, rfl⟩ := exists_removal hrun
  exact h.withoutBare hends

end GraphTables

namespace PropertyStore

variable {store : PropertyStore} {s s' : Site} {t : GraphTables}

/-- **A call leaves no bare row without a relation**, unless it is there to make one. -/
theorem settles_anchored (hopen : store.IsOpen s t) (hwf : t.WellFormed store.schema.dimension)
    (h : t.Anchored) {c : PropertyCall} (hc : PropertyEvent.MakesNoBare (.call c)) :
    store.Settles s t GraphTables.Anchored (c.run store) := by
  cases c with
  | upsertNodes now batch =>
    rw [PropertyCall.run, upsertNodes]
    split
    · exact .throw hopen _
    · refine .session hopen (GraphTables.restrained_writeNodes now batch) fun u t' hrun => ?_
      rw [GraphTables.run_writeNodes] at hrun
      cases hrun
      exact h.putNodes hc
  | upsertRelations now batch =>
    refine .session hopen (GraphTables.restrained_writeRelations now batch) fun u t' hrun => ?_
    rw [GraphTables.run_writeRelations hwf now batch] at hrun
    cases hrun
    exact h.putRelations batch
  | getOrCreateNode now id => exact hc.elim
  | delete selection =>
    rw [PropertyCall.run, delete]
    split_ifs
    · exact .pure hopen h ()
    · exact .session hopen (GraphTables.restrained_delete selection) fun u t' hrun => h.delete hrun
  | _ =>
    obtain ⟨r, s', t', hrun, hopen', hok, herror⟩ := settles_call hopen hwf _
    refine ⟨r, s', t', hrun, hopen', fun a ha => ?_, herror⟩
    obtain rfl := hok a ha
    exact h

theorem anchored_of_step {e : PropertyEvent} (hstep : store.Step s e s') (hopen : store.IsOpen s t)
    (hwf : t.WellFormed store.schema.dimension) (h : t.Anchored) (he : e.MakesNoBare) :
    ∃ t', store.IsOpen s' t' ∧ t'.Anchored := by
  cases hstep with
  | reopen hplace hstart hsame => exact ⟨t, isOpen_of_reopen hopen hplace hstart hsame, h⟩
  | call c =>
    obtain ⟨r, s', t', hrun, hopen', hok, herror⟩ := settles_anchored hopen hwf h he
    rw [hrun]
    refine ⟨t', hopen', ?_⟩
    cases r with
    | ok u => exact hok u rfl
    | error e =>
      rw [herror e rfl]
      exact h

/-- **A run leaves no bare row without a relation** if no event is there to make one. -/
theorem exists_anchored_of_run {events : List PropertyEvent} (hrun : store.Run s events s')
    (hopen : store.IsOpen s t) (hwf : t.WellFormed store.schema.dimension) (h : t.Anchored)
    (hevents : ∀ e ∈ events, e.MakesNoBare) : ∃ t', store.IsOpen s' t' ∧ t'.Anchored := by
  obtain ⟨t', hopen', -, h'⟩ := Run.induct (P := fun _ t => t.Anchored)
    (fun hstep hopen hwf he h => anchored_of_step hstep hopen hwf h he) hrun hopen hwf hevents h
  exact ⟨t', hopen', h'⟩

/-- A deletion takes no row that is not bare, unless it means it. -/
theorem exists_tables_of_delete (hopen : store.IsOpen s t)
    (hwf : t.WellFormed store.schema.dimension) (selection : Selection) :
    ∃ t', store.tables? ((store.delete selection).run s).2 = some t' ∧
      ∀ n ∈ t.nodes, n.isBare = false → ¬selection.Means n → n ∈ t'.nodes := by
  have hstep : store.Step s (.call (.delete selection)) ((store.delete selection).run s).2 :=
    .call (.delete selection)
  obtain ⟨t', hopen', -⟩ := exists_tables_of_step hstep hopen hwf
  refine ⟨t', hopen'.tables, fun n hn hbare hmeans => ?_⟩
  obtain ⟨t'', hopen'', hn'⟩ := mem_of_step hopen hwf hn hbare hstep hmeans
  rwa [hopen'.unique hopen'']

/-- **No bare row is without a relation**, wherever a run from new tables leads, if nobody writes
bare nodes or asks for bare rows.  In any case, a deletion takes a row that is not bare only if it
means it, by its name, by its identity or by its properties. -/
theorem anchored_of_run {h host : Host} {c : StoreConfig} {engine : Engine} {t₀ : GraphTables}
    {events : List PropertyEvent}
    (hstart : PropertyStore.start h c = (.ok (store, engine), host))
    (htables : store.tables? ⟨host, engine⟩ = some t₀) (hnew : t₀.IsNew)
    (hrun : store.Run ⟨host, engine⟩ events s) :
    ∃ t, store.tables? s = some t ∧ ((∀ e ∈ events, e.MakesNoBare) → t.Anchored) ∧
      ∀ selection : Selection, ∃ t', store.tables? ((store.delete selection).run s).2 = some t' ∧
        ∀ n ∈ t.nodes, n.isBare = false → ¬selection.Means n → n ∈ t'.nodes := by
  have hopen₀ := isOpen_of_start hstart htables
  have hwf₀ := hnew.wellFormed store.schema.dimension
  obtain ⟨t, hopen, hfollows⟩ := exists_tables_of_run hrun hopen₀ hwf₀
  refine ⟨t, hopen.tables, fun hevents => ?_,
    exists_tables_of_delete hopen hfollows.wellFormed⟩
  obtain ⟨t', hopen', hanchored⟩ := exists_anchored_of_run hrun hopen₀ hwf₀ hnew.anchored hevents
  rwa [hopen.unique hopen']

/-- A node, two relations in a row from there to bare rows, and a deletion of the second relation,
which takes the last row and leaves the other one with its relation. -/
theorem anchored_trail : ∃ s t, PropertyStore.Run ⟨{}⟩ fileSite
    [.call (.upsertNodes "now" [.entity "A" { label := "x" }]),
      .call (.upsertRelations "now" [⟨"r", "A", "B", .empty⟩, ⟨"s", "B", "C", .empty⟩]),
      .call (.delete { relationNames := ["s"] })] s ∧
    PropertyStore.tables? ⟨{}⟩ s = some t ∧ t.ids = ["A", "B"] ∧ t.Anchored := by
  have hnodes : Step ⟨{}⟩ fileSite (.call (.upsertNodes "now" [.entity "A" { label := "x" }])) _ :=
    .call _
  have hrun := Run.cons hnodes (.cons (.call (.upsertRelations "now"
    [⟨"r", "A", "B", .empty⟩, ⟨"s", "B", "C", .empty⟩]))
    (.cons (.call (.delete { relationNames := ["s"] })) (.nil _)))
  obtain ⟨t, htables, hanchored, -⟩ :=
    anchored_of_run start_fileSite tables?_fileSite ⟨rfl, rfl⟩ hrun
  have hids : some t.ids = some ["A", "B"] :=
    (congrArg (Option.map GraphTables.ids) htables).symm.trans (by decide +kernel)
  refine ⟨_, t, hrun, htables, Option.some.inj hids, hanchored ?_⟩
  simp [PropertyEvent.MakesNoBare, Node.IsBare, Node.kind]

end PropertyStore

end GraphBase
