import GraphBase.Proofs.Graph.Effects
import GraphBase.Proofs.Graph.Embeddings

/-!
# Rows that nodes have been written to

A node that has been written is read back from its row (`IsWritten.exists_record`).  Which kind of
node it is read as depends on its label alone, and its text on all that has been written to the row
(`Node.readBack`).  Entities and chunks with the labels that are read as what they are come back
unchanged, except for their properties.

The row stays as it is until a node is written to it or a deletion takes it (`PropertyEvent.Spares`
and `mem_of_run`).  Only a row without a name and a text may go in a deletion that does not mean it,
and the rows of entities and chunks have one of the two.
-/

namespace GraphBase

/-! ## Reading what was written -/

theorem readEmbedding_embeddingCell (v : Option Embedding) :
    readEmbedding (embeddingCell v) = .ok v := by
  cases v with
  | none => rfl
  | some v => exact congrArg (fun x => Except.ok (some x)) v.decode_encode

/-- The node that is read after a node has been written to a row with a text. -/
def Node.readBack (n : Node) (text : Option String) : Node :=
  let body := { n.body with properties := n.properties.reread.removeEmpty }
  match NodeKind.ofLabel n.label with
  | .chunk => .chunk n.id (text.getD "") body
  | _ => .entity n.id body

/-- A row as it is after a node has been written to it. -/
structure NodeRow.IsWritten (n : Node) (row : NodeRow) : Prop where
  id : row.id = n.id
  label : row.label = n.label
  properties : row.properties = n.properties.encode
  embedding : row.embedding = embeddingCell n.embedding
  name : ∀ name body, n = .entity name body → row.name = some name
  text : ∀ id text body, n = .chunk id text body → row.text = some text

namespace Node

/-- An entity comes back as it is, unless it has the label of chunks. -/
theorem readBack_entity {name : String} {body : NodeBody} (h : body.label ≠ chunkLabel)
    (text : Option String) : (entity name body).readBack text =
      (entity name body).withProperties body.properties.reread.removeEmpty := by
  have hkind : NodeKind.ofLabel (entity name body).label = .entity := if_neg h
  rw [readBack, hkind]
  rfl

/-- A chunk with the label of chunks comes back as it is. -/
theorem readBack_chunk {id text : String} {body : NodeBody} (h : body.label = chunkLabel) :
    (chunk id text body).readBack (some text) =
      (chunk id text body).withProperties body.properties.reread.removeEmpty := by
  have hkind : NodeKind.ofLabel (chunk id text body).label = .chunk := if_pos h
  rw [readBack, hkind]
  rfl

end Node

namespace NodeRow

variable {n : Node} {row : NodeRow} {dimension : Nat}

/-- Writing a node to its row. -/
theorem isWritten_put (now : String) (h : row.id = n.id) : (row.put now n).IsWritten n := by
  rw [put, if_pos (beq_iff_eq.2 h)]
  refine ⟨?_, ?_, ?_, ?_, ?_, ?_⟩
  · cases n <;> exact h
  · cases n <;> rfl
  · cases n <;> rfl
  · cases n <;> rfl
  · rintro name body rfl
    rfl
  · rintro id text body rfl
    rfl

/-- The row of an entity or of a chunk is not bare. -/
theorem IsWritten.isBare_eq_false (h : row.IsWritten n) (hn : n.kind ≠ .other) :
    row.isBare = false := by
  cases n with
  | entity name body => simp [isBare, h.name name body rfl]
  | chunk id text body => simp [isBare, h.text id text body rfl]
  | other id body => exact absurd rfl hn

/-- **A node that was written is read back.** -/
theorem IsWritten.exists_record (h : row.IsWritten n) (hstored : row.IsStored dimension) :
    ∃ rec, row.record = .ok rec ∧ rec.id = n.id ∧ rec.name = row.name ∧ rec.text = row.text ∧
      rec.label = n.label ∧ rec.properties = n.properties.reread ∧ rec.embedding = n.embedding ∧
      rec.node = n.readBack row.text := by
  refine ⟨{ row with properties := n.properties.reread, embedding := n.embedding }, ?_, h.id, rfl,
    rfl, h.label, rfl, rfl, ?_⟩
  · rw [record, h.properties, readProperties_encode, h.embedding, readEmbedding_embeddingCell]
    rfl
  · have hname : row.name.getD n.id = n.id := by
      cases hsome : row.name with
      | none => rfl
      | some name => exact (hstored.name name hsome).trans h.id
    rw [NodeRecord.node, Node.readBack]
    simp only [h.label, h.id, hname]
    rfl

end NodeRow

/-! ## How long a row stays -/

/-- Whether a selection means a row: by its name, by its identity or by its properties. -/
def Selection.Means (s : Selection) (row : NodeRow) : Prop :=
  (∃ name, row.name = some name ∧ name ∈ s.entityNames) ∨ row.id ∈ s.ids ∨
    s.selectsText row.properties = true

/-- Whether an event leaves a row alone: no node is written to it, and no deletion means it. -/
def PropertyEvent.Spares (row : NodeRow) : PropertyEvent → Prop
  | .call (.upsertNodes _ batch) => ∀ n ∈ batch, n.id ≠ row.id
  | .call (.delete s) => ¬s.Means row
  | _ => True

namespace GraphTables

open Session (Keeps)

/-- A row is there, and there is no other of its identity. -/
structure HasRow (t : GraphTables) (row : NodeRow) : Prop where
  mem : row ∈ t.nodes
  ids_nodup : t.ids.Nodup

variable {dimension : Nat} {t : GraphTables} {row : NodeRow}

theorem mem_of_filterOk {ε α : Type} {p : α → Except ε Bool} {rows kept : List α}
    (h : filterOk p rows = .ok kept) {a : α} (ha : a ∈ kept) : a ∈ rows ∧ p a = .ok true := by
  induction rows generalizing kept with
  | nil =>
    cases h
    cases ha
  | cons x rows ih =>
    rw [filterOk] at h
    cases hx : p x with
    | error e =>
      rw [hx] at h
      cases h
    | ok keep =>
      cases hrest : filterOk p rows with
      | error e =>
        rw [hx, hrest] at h
        cases h
      | ok rest =>
        rw [hx, hrest] at h
        have hkept : (if keep then x :: rest else rest) = kept := Except.ok.inj h
        rw [← hkept] at ha
        split_ifs at ha with hkeep
        · rcases List.mem_cons.1 ha with rfl | ha
          · exact ⟨List.mem_cons_self, by rw [hx, hkeep]⟩
          · exact (ih hrest ha).imp_left (List.mem_cons_of_mem _)
        · exact (ih hrest ha).imp_left (List.mem_cons_of_mem _)

theorem hasRow_deleteRelations (p : RelationRow → Bool) :
    Keeps (HasRow · row) (deleteRelations p) := by
  rw [deleteRelations]
  exact .bind .write fun _ => .get_bind fun t ht => .bind (.set ⟨ht.mem, ht.ids_nodup⟩) fun _ =>
    .pure _

theorem hasRow_deleteRows {p : NodeRow → Bool} (hp : p row = false) :
    Keeps (HasRow · row) (deleteRows p) := by
  rw [deleteRows]
  refine .bind .write fun _ => .get_bind fun t ht => ?_
  simp only
  refine .ite (.fault _) (.bind (.set ⟨List.mem_filter.2 ⟨ht.mem, ?_⟩, ?_⟩) fun _ => .pure _)
  · rw [hp]
    rfl
  · exact ht.ids_nodup.sublist (List.filter_sublist.map NodeRow.id)

theorem hasRow_deleteNodes {ids : List String} (hid : row.id ∉ ids) :
    Keeps (HasRow · row) (deleteNodes ids) := by
  rw [deleteNodes]
  refine .ite (.pure _) (.bind (hasRow_deleteRelations _) fun ends =>
    .bind (.discard (hasRow_deleteRows ?_)) fun _ => .pure _)
  rwa [← Bool.not_eq_true, List.contains_iff_mem]

/-- **A deletion that does not mean a row leaves it alone**, unless the row is bare. -/
theorem hasRow_delete {s : Selection} (hmeans : ¬s.Means row) (hbare : row.isBare = false) :
    Keeps (HasRow · row) (delete s) := by
  rw [Selection.Means, not_or, not_or] at hmeans
  obtain ⟨hname, hid, hproperties⟩ := hmeans
  refine keeps_delete_of_parts (fun t ht => hasRow_deleteNodes ?_) (hasRow_deleteNodes hid)
    (hasRow_deleteRelations _) (fun hempty => ?_) fun ids => ?_
  · rw [mem_idsOfNames ht.ids_nodup ht.mem]
    exact hname
  · rw [deleteMatching]
    refine .bind (.ofRead _) fun _ => .get_bind fun t ht => .bind (.ofRead _) fun rows =>
      .bind (hasRow_deleteRelations _) fun ends => .ofRead_bind fun nodes hread =>
      .bind (hasRow_deleteNodes ?_) fun _ => .pure _
    intro hmem
    obtain ⟨n, hn, heq⟩ := List.mem_map.1 hmem
    obtain ⟨hn, hmatches⟩ := mem_of_filterOk hread hn
    obtain rfl : n = row := List.inj_on_of_nodup_map ht.ids_nodup hn ht.mem heq
    refine hproperties ?_
    rw [Selection.selectsText, hempty, Properties.selectsText, hmatches]
    rfl
  · rw [removeBare]
    refine .ite (.pure _) (.get_bind fun t _ => hasRow_deleteRows ?_)
    rw [hbare, Bool.and_false, Bool.false_and]

/-- Writing other nodes leaves a row alone. -/
theorem mem_foldl_putRow {now : String} {nodes : List Node} {rows : List NodeRow}
    (hrow : row ∈ rows) (hne : ∀ n ∈ nodes, n.id ≠ row.id) :
    row ∈ nodes.foldl (putRow now) rows := by
  induction nodes generalizing rows with
  | nil => exact hrow
  | cons n nodes ih =>
    rw [List.forall_mem_cons] at hne
    refine ih ?_ hne.2
    rw [putRow]
    refine List.mem_map.2 ⟨row, mem_addRow hrow, ?_⟩
    exact put_of_ne hne.1.symm

/-- A node that is written last under its identity is written to its row. -/
theorem exists_isWritten (now : String) (before after : List Node) {n : Node}
    (hlast : ∀ m ∈ after, m.id ≠ n.id) (rows : List NodeRow) :
    ∃ row ∈ (before ++ n :: after).foldl (putRow now) rows, row.IsWritten n := by
  have hadded := ids_addRow now (before.foldl (putRow now) rows) n.id
  have hmem : n.id ∈ (addRow now (before.foldl (putRow now) rows) n.id).map NodeRow.id := by
    rw [hadded]
    exact mem_addNew.2 (.inr rfl)
  obtain ⟨row, hrow, hid⟩ := List.mem_map.1 hmem
  have hwritten := NodeRow.isWritten_put now hid
  refine ⟨row.put now n, ?_, hwritten⟩
  rw [List.foldl_append, List.foldl_cons]
  refine mem_foldl_putRow (List.mem_map_of_mem hrow) fun m hm => ?_
  rw [hwritten.id]
  exact hlast m hm

end GraphTables

namespace PropertyStore

variable {store : PropertyStore} {s s' : Site} {t : GraphTables} {row : NodeRow}

/-- An event that spares a row leaves it as it is. -/
theorem mem_of_step (hopen : store.IsOpen s t) (hwf : t.WellFormed store.schema.dimension)
    (hrow : row ∈ t.nodes) (hbare : row.isBare = false) {e : PropertyEvent}
    (hstep : store.Step s e s') (hspares : e.Spares row) :
    ∃ t', store.IsOpen s' t' ∧ row ∈ t'.nodes := by
  cases hstep with
  | reopen hplace hstart hsame => exact ⟨t, isOpen_of_reopen hopen hplace hstart hsame, hrow⟩
  | call c =>
    obtain ⟨r, s', t', hrun, hopen', -, hok, herror⟩ := outcome_of_call hopen hwf c
    cases r with
    | error e =>
      rw [hrun]
      obtain rfl := herror e rfl
      exact ⟨t', hopen', hrow⟩
    | ok u =>
      have heffect := hok rfl
      cases c with
      | delete selection =>
        rw [PropertyCall.run, delete]
        split_ifs
        · exact ⟨t, hopen, hrow⟩
        · obtain ⟨t'', hopen'', hrow''⟩ := exists_tables_of_session hopen
            (P := (GraphTables.HasRow · row)) ⟨hrow, hwf.ids_nodup⟩
            (GraphTables.hasRow_delete hspares hbare)
          exact ⟨t'', hopen'', hrow''.mem⟩
      | upsertNodes now batch =>
        rw [hrun]
        obtain rfl := heffect
        exact ⟨_, hopen', GraphTables.mem_foldl_putRow hrow hspares⟩
      | upsertRelations now batch =>
        rw [hrun]
        refine ⟨t', hopen', ?_⟩
        rw [show t'.nodes = _ from heffect]
        exact GraphTables.mem_foldl_addRow hrow
      | getOrCreateNode now id =>
        rw [hrun]
        obtain rfl := heffect
        exact ⟨_, hopen', GraphTables.mem_addRow hrow⟩
      | _ =>
        rw [hrun]
        obtain rfl := heffect
        exact ⟨_, hopen', hrow⟩

/-- **A row that is spared stays as it is** over a whole run. -/
theorem mem_of_run {events : List PropertyEvent} (hrun : store.Run s events s')
    (hopen : store.IsOpen s t) (hwf : t.WellFormed store.schema.dimension) (hrow : row ∈ t.nodes)
    (hbare : row.isBare = false) (hspares : ∀ e ∈ events, e.Spares row) :
    ∃ t', store.IsOpen s' t' ∧ t'.WellFormed store.schema.dimension ∧ row ∈ t'.nodes := by
  exact Run.induct (P := fun _ t => row ∈ t.nodes)
    (fun hstep hopen hwf hspares hrow => mem_of_step hopen hwf hrow hbare hstep hspares)
    hrun hopen hwf hspares hrow

end PropertyStore

end GraphBase
