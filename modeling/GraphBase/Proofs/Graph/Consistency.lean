import GraphBase.Proofs.Graph.Effects

/-!
# What can be relied on in a property graph store

Whatever has been done to a store, with any arguments and with success or without, its tables are
consistent (`GraphTables.Consistent`).  Most of this says again what rules the tables follow, but
in terms of what the columns hold.  One part is not obvious: a row that is read as a node has the
identity of the row, although an entity is read with its name for an identity, and an identity may
have been written to as an entity, as a chunk and as another node in any order.  It holds because
no row ever has a name other than its identity.

Rows stand in the order in which they have come.  For nodes this means that a call puts new rows
behind all others, in the order in which it names them, and moves none (`PropertyCall.Arranges`).
For relations it means that numbers only go up, and a number that is gone is gone for good.
-/

namespace GraphBase

open GraphTables (addRow putRow)

/-- What a call that succeeds does to the identities of the nodes. -/
def PropertyCall.Arranges (ids ids' : List String) : PropertyCall → Prop
  | .upsertNodes _ batch => ids' = (batch.map Node.id).foldl addNew ids
  | .upsertRelations _ batch => ids' = (batch.flatMap Relation.ends).foldl addNew ids
  | .getOrCreateNode _ id => ids' = addNew ids id
  | .delete _ => ids'.Sublist ids
  | _ => ids' = ids

theorem PropertyCall.Effect.arranges {t t' : GraphTables} {c : PropertyCall}
    (h : c.Effect t t') : c.Arranges t.ids t'.ids := by
  cases c with
  | upsertNodes now batch =>
    obtain rfl := h
    exact GraphTables.ids_foldl_putRow now batch t.nodes
  | upsertRelations now batch =>
    have hnodes : t'.nodes = (batch.flatMap Relation.ends).foldl (addRow now) t.nodes := h
    show t'.nodes.map NodeRow.id = _
    rw [hnodes]
    exact GraphTables.ids_foldl_addRow now _ t.nodes
  | getOrCreateNode now id =>
    obtain rfl := h
    exact GraphTables.ids_addRow now t.nodes id
  | delete selection => exact List.Sublist.map NodeRow.id h
  | _ =>
    obtain rfl := h
    rfl

/-- What can be relied on in the tables of a store of a dimension. -/
structure GraphTables.Consistent (dimension : Nat) (t : GraphTables) : Prop where
  ids_nodup : t.ids.Nodup
  keys_nodup : (t.relations.rows.map RelationRow.key).Nodup
  ends : ∀ r ∈ t.relations.rows, r.source ∈ t.ids ∧ r.target ∈ t.ids
  names : ∀ n ∈ t.nodes, n.name = none ∨ n.name = some n.id
  embeddings : ∀ n ∈ t.nodes, n.embedding = .null ∨
    ∃ bytes, n.embedding = .blob bytes ∧ bytes.length = 4 * dimension
  nodeProperties : ∀ n ∈ t.nodes, ∃ p, Properties.decode? n.properties = some p
  relationProperties : ∀ r ∈ t.relations.rows, ∃ p, Properties.decode? r.properties = some p
  ascending : (t.relations.numbers RelationRow.id).Pairwise (· < ·)
  /-- A row reads as a node with its own identity, and is what is found under it. -/
  readable : ∀ n ∈ t.nodes, ∃ node, n.node = .ok node ∧ node.id = n.id ∧
    t.node? node.id = some n

namespace GraphTables

variable {dimension : Nat} {t : GraphTables}

theorem WellFormed.exists_node (h : t.WellFormed dimension) {n : NodeRow} (hn : n ∈ t.nodes) :
    ∃ node, n.node = .ok node ∧ node.id = n.id := by
  obtain ⟨rec, hrec, -, hid⟩ := (h.nodes n hn).exists_node
  refine ⟨rec.node, ?_, hid⟩
  rw [NodeRow.node, hrec]
  rfl

/-- **Tables that follow their rules are consistent.** -/
theorem WellFormed.consistent (h : t.WellFormed dimension) : t.Consistent dimension where
  ids_nodup := h.ids_nodup
  keys_nodup := h.keys_nodup
  ends := h.ends
  names n hn := by
    cases hname : n.name with
    | none => exact .inl rfl
    | some name => exact .inr (congrArg some ((h.nodes n hn).name name hname))
  embeddings n hn := by
    obtain ⟨v, hv, hlength⟩ := (h.nodes n hn).embedding
    cases v with
    | none => exact .inl hv
    | some x => exact .inr ⟨_, hv, by rw [Embedding.length_encode, hlength x rfl]⟩
  nodeProperties n hn := by
    obtain ⟨p, hp⟩ := (h.nodes n hn).properties
    rw [hp]
    exact ⟨_, p.decode?_encode⟩
  relationProperties r hr := by
    obtain ⟨p, hp⟩ := h.properties r hr
    rw [hp]
    exact ⟨_, p.decode?_encode⟩
  ascending := h.relations.ascending
  readable n hn := by
    obtain ⟨node, hnode, hid⟩ := h.exists_node hn
    exact ⟨node, hnode, hid, h.node?_eq_some.2 ⟨hn, hid.symm⟩⟩

/-- Reading all rows gives a node for each, in the order of the rows. -/
theorem WellFormed.nodesWith_all (h : t.WellFormed dimension) :
    ∃ nodes, t.nodesWith .empty [] = .ok nodes ∧ nodes.map Node.id = t.ids := by
  have hread : ∀ rows : List NodeRow, (∀ n ∈ rows, ∃ node, n.node = .ok node ∧ node.id = n.id) →
      ∃ nodes, filterMapOk (fun row : NodeRow => matchesAll row.properties []) NodeRow.node rows =
        .ok nodes ∧ nodes.map Node.id = rows.map NodeRow.id := by
    intro rows hrows
    induction rows with
    | nil => exact ⟨[], rfl, rfl⟩
    | cons n rows ih =>
      rw [List.forall_mem_cons] at hrows
      obtain ⟨node, hnode, hid⟩ := hrows.1
      obtain ⟨nodes, hnodes, hids⟩ := ih hrows.2
      refine ⟨node :: nodes, ?_, ?_⟩
      · rw [filterMapOk, matchesAll, hnode, hnodes]
        rfl
      · rw [List.map_cons, List.map_cons, hid, hids]
  rw [nodesWith_of_prepare (prepare_nodeConditions_eq_ok.2 (Nat.zero_le _))]
  exact hread t.nodes fun n hn => h.exists_node hn

end GraphTables

namespace PropertyStore

variable {store : PropertyStore} {s s' : Site} {t : GraphTables}

theorem Run.append {s'' : Site} {events events' : List PropertyEvent}
    (h : store.Run s events s') (h' : store.Run s' events' s'') :
    store.Run s (events ++ events') s'' := by
  induction h with
  | nil => exact h'
  | cons hstep _ ih => exact .cons hstep (ih h')

/-- What comes after a state that a run leads to is a state that a run leads to. -/
theorem Reaches.run_append (h : store.Reaches s t) {events : List PropertyEvent}
    (hrun : store.Run s events s') {t' : GraphTables} (hend : store.tables? s' = some t') :
    store.Reaches s' t' := by
  cases h with
  | run hstart htables hnew hrun₀ _ => exact .run hstart htables hnew (hrun₀.append hrun) hend

/-- **A property graph store is consistent in every state that a run leads to.**  A call that
succeeds puts new nodes behind the others and moves none; a call that fails and a reopening change
nothing.  Later relations have larger numbers, and a number that is gone does not come back.  All
nodes can be read, each with the identity of its row. -/
theorem consistent_of_reaches (h : store.Reaches s t) :
    t.Consistent store.schema.dimension ∧
    (∀ c : PropertyCall, ∃ r s' t', (c.run store).run s = (r, s') ∧ store.Reaches s' t' ∧
      (r = .ok () → c.Arranges t.ids t'.ids) ∧ ∀ e, r = .error e → t' = t) ∧
    (∀ s', store.Step s .reopen s' → store.Reaches s' t) ∧
    (∀ events s', store.Run s events s' → ∃ t', store.Reaches s' t' ∧
      (∀ k ∈ t'.relations.numbers RelationRow.id, k ∉ t.relations.numbers RelationRow.id →
        ∀ m ∈ t.relations.numbers RelationRow.id, m < k) ∧
      ∀ events' s'', store.Run s' events' s'' → ∃ t'', store.Reaches s'' t'' ∧
        ∀ k ∈ t.relations.numbers RelationRow.id, k ∉ t'.relations.numbers RelationRow.id →
          k ∉ t''.relations.numbers RelationRow.id) ∧
    ∃ nodes s', (store.nodes .empty []).run s = (.ok nodes, s') ∧ store.IsOpen s' t ∧
      nodes.map Node.id = t.ids := by
  obtain ⟨hopen, hwf⟩ := h.isOpen
  have hruns : ∀ events s', store.Run s events s' → ∃ t', store.Reaches s' t' ∧
      t.Follows store.schema.dimension t' := by
    intro events s' hrun
    obtain ⟨t', hopen', hfollows⟩ := exists_tables_of_run hrun hopen hwf
    exact ⟨t', h.run_append hrun hopen'.tables, hfollows⟩
  refine ⟨hwf.consistent, fun c => ?_, fun s' hstep => ?_, fun events s' hrun => ?_, ?_⟩
  · obtain ⟨r, s', t', hrun, hopen', -, hok, herror⟩ := outcome_of_call hopen hwf c
    have hstep : store.Step s (.call c) ((c.run store).run s).2 := .call c
    rw [hrun] at hstep
    exact ⟨r, s', t', hrun, h.run_append (.cons hstep (.nil s')) hopen'.tables,
      fun hr => (hok hr).arranges, herror⟩
  · refine h.run_append (.cons hstep (.nil s')) ?_
    cases hstep with
    | reopen hplace hstart hsame => exact (isOpen_of_reopen hopen hplace hstart hsame).tables
  · obtain ⟨t', hreach, hfollows⟩ := hruns events s' hrun
    refine ⟨t', hreach, hfollows.relations.lt_of_notMem hwf.relations,
      fun events' s'' hrun' => ?_⟩
    obtain ⟨hopen', hwf'⟩ := hreach.isOpen
    obtain ⟨t'', hopen'', hfollows'⟩ := exists_tables_of_run hrun' hopen' hwf'
    refine ⟨t'', hreach.run_append hrun' hopen''.tables, fun k hk hgone => ?_⟩
    exact hfollows.relations.number_notMem hwf.relations hfollows'.relations hk hgone
  · obtain ⟨nodes, hnodes, hids⟩ := hwf.nodesWith_all
    have hread : ∃ s', (store.nodes .empty []).run s = (.ok nodes, s') ∧ store.IsOpen s' t :=
      run_readsOk hopen hnodes
    obtain ⟨s', hrun, hopen'⟩ := hread
    exact ⟨nodes, s', hrun, hopen', hids⟩

/-- A node that was written as a chunk, and over that as an entity with the label of chunks, and a
relation from there. -/
def layeredTables : GraphTables where
  nodes := [
    { NodeRow.bare "now" "A" with
      name := some "A", text := some "t", label := chunkLabel,
      embedding := .blob (Embedding.encode [⟨0x3f800000⟩, ⟨0⟩]) },
    .bare "now" "B"]
  relations := {
    rows := [
      { id := 1, label := "r", source := "A", target := "B", createdAt := "now",
        updatedAt := "now" }]
    lastId := 1 }

/-- A run leads there, in a store for embeddings of two components. -/
theorem exists_reaches_layeredTables :
    ∃ s, PropertyStore.Reaches ⟨⟨2⟩⟩ s layeredTables ∧ s.engine.locator.refusal = none := by
  have hstart : PropertyStore.start {} { database := "a", embeddingDim := 2 } =
      (.ok (⟨⟨2⟩⟩, fileSite.engine), fileSite.host) := by decide +kernel
  have hchunk : Step ⟨⟨2⟩⟩ fileSite _ _ :=
    .call (.upsertNodes "now" [.chunk "A" "t" { label := chunkLabel }])
  have hrun := Run.cons hchunk (.cons (.call (.upsertNodes "now" [.entity "A"
    { label := chunkLabel, embedding := some [⟨0x3f800000⟩, ⟨0⟩] }]))
    (.cons (.call (.upsertRelations "now" [⟨"r", "A", "B", .empty⟩])) (.nil _)))
  have htables : PropertyStore.tables? ⟨⟨2⟩⟩ fileSite = some {} := by decide +kernel
  exact ⟨_, .run hstart htables ⟨rfl, rfl⟩ hrun (by decide +kernel), by decide +kernel⟩

/-- Its first row has a name and a text, and reads as a node with the right identity. -/
theorem consistent_layered : ∃ s nodes s', PropertyStore.Reaches ⟨⟨2⟩⟩ s layeredTables ∧
    layeredTables.Consistent 2 ∧ (PropertyStore.nodes ⟨⟨2⟩⟩ .empty []).run s = (.ok nodes, s') ∧
    nodes.map Node.id = ["A", "B"] := by
  obtain ⟨s, h, -⟩ := exists_reaches_layeredTables
  obtain ⟨hconsistent, -, -, -, nodes, s', hrun, -, hids⟩ := consistent_of_reaches h
  exact ⟨s, nodes, s', h, hconsistent, hrun, hids⟩

end PropertyStore

end GraphBase
