import GraphBase.Proofs.Graph.Runs

/-!
# Files of another dimension

A store knows the dimension of its embeddings, but the tables do not.  So a file may be opened again
by a store of another dimension, which finds the rows as they are and adds its own: then the lengths
of the embeddings are mixed.  `PropertyStore.Inherits` are the runs in which this happens, any number
of times, and `Reaches.inherits` says that they include all those in which it does not.

Of the rules of a property graph only one is about the dimension, so what is left of them without it
is enough to read the nodes (`AreLegible`): no two rows have the same identity, and every row has
been written by a store of some dimension.  This is kept along all these runs (`Inherits.isOpen`).
The dimension of a row is the length of the last embedding that was written to it, whatever it had
before (`NodeRow.IsStored.exists_write`).
-/

namespace GraphBase

open Session (Keeps)

/-- Writing a node leaves a row of the dimension of this node. -/
theorem NodeRow.IsStored.exists_write {dimension : Nat} {n : NodeRow} (h : n.IsStored dimension)
    {node : Node} (hid : n.id = node.id) : ∃ dimension', (n.write node).IsStored dimension' := by
  -- what was in the column of the embedding makes no difference
  have hcleared : ∀ dimension', { n with embedding := .null }.IsStored dimension' :=
    fun dimension' => ⟨h.name, h.properties, none, rfl, nofun⟩
  have hsame : { n with embedding := .null }.write node = n.write node := by cases node <;> rfl
  cases hnode : node.embedding with
  | none =>
    refine ⟨dimension, hsame ▸ (hcleared dimension).write hid fun x hx => ?_⟩
    rw [hnode] at hx
    cases hx
  | some v =>
    refine ⟨v.length, hsame ▸ (hcleared v.length).write hid fun x hx => ?_⟩
    rw [hnode] at hx
    rw [Option.some.inj hx]

/-- Node rows with identities of their own, each written by a store of some dimension. -/
structure AreLegible (rows : List NodeRow) : Prop where
  ids_nodup : (rows.map NodeRow.id).Nodup
  stored : ∀ n ∈ rows, ∃ dimension, n.IsStored dimension

theorem GraphTables.WellFormed.areLegible {dimension : Nat} {t : GraphTables}
    (h : t.WellFormed dimension) : AreLegible t.nodes :=
  ⟨h.ids_nodup, fun n hn => ⟨dimension, h.nodes n hn⟩⟩

namespace AreLegible

variable {rows : List NodeRow} (h : AreLegible rows)

include h

theorem add {id : String} (hid : id ∉ rows.map NodeRow.id) (now : String) :
    AreLegible (rows ++ [NodeRow.bare now id]) := by
  refine ⟨?_, fun n hn => ?_⟩
  · rw [List.map_append, List.map_singleton, ← List.concat_eq_append]
    exact h.ids_nodup.concat hid
  · rcases List.mem_append.1 hn with hn | hn
    · exact h.stored n hn
    · rw [List.mem_singleton.1 hn]
      exact ⟨0, NodeRow.isStored_bare 0 now id⟩

theorem map {f : NodeRow → NodeRow} (hid : ∀ n, (f n).id = n.id)
    (hf : ∀ n, (∃ dimension, n.IsStored dimension) → ∃ dimension, (f n).IsStored dimension) :
    AreLegible (rows.map f) := by
  refine ⟨?_, fun n hn => ?_⟩
  · rw [List.map_map, show NodeRow.id ∘ f = NodeRow.id from funext hid]
    exact h.ids_nodup
  · obtain ⟨m, hm, rfl⟩ := List.mem_map.1 hn
    exact hf m (h.stored m hm)

theorem sublist {rows' : List NodeRow} (hrows : rows'.Sublist rows) : AreLegible rows' :=
  ⟨h.ids_nodup.sublist (hrows.map NodeRow.id), fun n hn => h.stored n (hrows.subset hn)⟩

end AreLegible

namespace GraphTables

/-! ## Sessions -/

theorem legible_getOrCreateRow (now id : String) :
    Keeps (fun t => AreLegible t.nodes) (getOrCreateRow now id) := by
  rw [getOrCreateRow]
  refine .get_bind fun t ht => ?_
  cases hrow : t.node? id with
  | some row => exact .pure _
  | none =>
    exact .bind .write fun _ => .bind (.set (ht.add (node?_eq_none.1 hrow) now)) fun _ => .pure _

theorem legible_updateNodes (now : String) (node : Node) :
    Keeps (fun t => AreLegible t.nodes)
      (updateNodes now (fun n => n.id == node.id) (NodeRow.write node)) := by
  rw [updateNodes]
  refine .bind .write fun _ => .get_bind fun t ht =>
    .bind (.set (ht.map (fun n => ?_) fun n hn => ?_)) fun _ => .pure _
  · show (if n.id == node.id then _ else n : NodeRow).id = n.id
    split_ifs
    · exact NodeRow.id_write node n
    · rfl
  · show ∃ dimension, (if n.id == node.id then _ else n : NodeRow).IsStored dimension
    split_ifs with hid
    · obtain ⟨dimension, hstored⟩ := hn
      obtain ⟨dimension', hwritten⟩ := hstored.exists_write (beq_iff_eq.1 hid)
      exact ⟨dimension', hwritten.name, hwritten.properties, hwritten.embedding⟩
    · exact hn

theorem legible_writeNodes (now : String) (nodes : List Node) :
    Keeps (fun t => AreLegible t.nodes) (writeNodes now nodes) :=
  keeps_writeNodes_of_row (legible_getOrCreateRow now) fun node _ => legible_updateNodes now node

/-- Statements about relations leave the nodes alone. -/
theorem legible_writeRelations (now : String) (relations : List Relation) :
    Keeps (fun t => AreLegible t.nodes) (writeRelations now relations) := by
  refine keeps_writeRelations_of_each
    (fun r => keeps_writeRelation_of_row (legible_getOrCreateRow now) ?_ fun p => ?_) relations
  · rw [insertRelation]
    refine .bind .write fun _ => .get_bind fun t ht => ?_
    exact .ite (.fault _) (.ite (.fault _) (.bind (.set ht) fun _ => .pure _))
  · rw [updateRelations]
    exact .bind .write fun _ => .get_bind fun t ht => .bind (.set ht) fun _ => .pure _

theorem legible_delete (s : Selection) : Keeps (fun t => AreLegible t.nodes) (delete s) :=
  fun r t a t' hrun ht => ht.sublist (sublist_delete s r t a t' hrun (.refl _))

end GraphTables

namespace PropertyStore

/-! ## Runs -/

/-- A run from new tables leads to a site with a store.  The file may be opened again by a store of
another dimension. -/
inductive Inherits : PropertyStore → Site → Prop
  | start {store : PropertyStore} {h host : Host} {c : StoreConfig} {engine : Engine}
    {t : GraphTables} (hstart : PropertyStore.start h c = (.ok (store, engine), host))
    (htables : store.tables? ⟨host, engine⟩ = some t) (hnew : t.IsNew) :
    Inherits store ⟨host, engine⟩
  | call {store : PropertyStore} {s : Site} (h : Inherits store s) (c : PropertyCall) :
    Inherits store ((c.run store).run s).2
  | reopen {store store' : PropertyStore} {s : Site} {c : StoreConfig} {path : Path}
    {engine : Engine} {host : Host} (h : Inherits store s)
    (hplace : s.engine.locator.place = .file path)
    (hstart : PropertyStore.start (Engine.close s.host s.engine) c = (.ok (store', engine), host))
    (hsame : engine.locator.place = .file path) : Inherits store' ⟨host, engine⟩

variable {store : PropertyStore} {s s' : Site} {t : GraphTables}

/-- **All other runs are included.** -/
theorem Reaches.inherits (h : store.Reaches s t) : store.Inherits s := by
  refine h.induct (P := fun s _ => store.Inherits s) .start ?_ ?_
  · intro s s' t t' r c h hrun _
    have hcall := h.call c
    rwa [hrun] at hcall
  · intro s s' t t' h hstep _
    cases hstep with
    | reopen hplace hstart hsame => exact h.reopen hplace hstart hsame

/-- **Wherever such a run leads, the store is open and its nodes can be read.** -/
theorem Inherits.isOpen (h : store.Inherits s) : ∃ t, store.IsOpen s t ∧ AreLegible t.nodes := by
  induction h with
  | @start store h host c engine t hstart htables hnew =>
    exact ⟨t, isOpen_of_start hstart htables, (hnew.wellFormed 0).areLegible⟩
  | call _ c ih =>
    obtain ⟨t, hopen, hlegible⟩ := ih
    exact exists_tables_of_keeps hopen hlegible
      (fun now nodes _ => GraphTables.legible_writeNodes now nodes)
      GraphTables.legible_writeRelations
      (fun now id => GraphTables.keeps_getOrCreateNode_of_row
        (GraphTables.legible_getOrCreateRow now id))
      GraphTables.legible_delete c
  | @reopen store store' s c path engine host _ hplace hstart hsame ih =>
    obtain ⟨t, hopen, hlegible⟩ := ih
    -- the tables on a site are there for every store
    have hopen' : store'.IsOpen s t := ⟨hopen.ready, hopen.tables⟩
    exact ⟨t, isOpen_of_reopen hopen' hplace hstart hsame, hlegible⟩

end PropertyStore

end GraphBase
