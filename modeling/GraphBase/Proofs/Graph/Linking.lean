import GraphBase.Proofs.Graph.Writing

/-!
# What writing does to the relations

A batch of relations makes bare rows for ends that have none, and puts each relation over its row,
which is made behind the others if there is none (`putRelation`).  What happens to the relations
does not depend on the nodes, nor the other way round, so the effect of a batch can be said without
running it (`run_writeRelations`).

## Rows that cannot be read

Every end is read as a record, although nothing is done with it.  So a batch fails if the row of an
end cannot be read.  The store never writes such a row, but somebody else may have done so.  Then
the batch fails with the fault of the first such end, however much of it has been written by that
time (`run_writeRelations_fails`).  Bare rows can be read, so nothing that the batch writes itself
makes a difference to this (`faultOf_of_nodes`).
-/

namespace GraphBase

/-- What tells relations apart. -/
def Relation.key (r : Relation) : String × String × String := (r.label, r.source, r.target)

/-- The row after a relation has been written, if it is the row of that relation. -/
def RelationRow.put (now : String) (r : Relation) (x : RelationRow) : RelationRow :=
  if x.key = r.key then { x with properties := r.properties.encode, updatedAt := now } else x

/-- What keeps a row from being read. -/
def NodeRow.fault? (row : NodeRow) : Option StorageFault := faultIn row.record

namespace GraphTables

/-- The row that a relation gets if it has none. -/
def newRelation (now : String) (r : Relation) (number : Nat) : RelationRow :=
  { id := number, label := r.label, source := r.source, target := r.target, createdAt := now,
    updatedAt := now }

/-- The relations with one more behind them, if it was not there. -/
def addRelation (now : String) (relations : Table RelationRow) (r : Relation) :
    Table RelationRow :=
  if r.key ∈ relations.rows.map RelationRow.key then relations
  else relations.append (newRelation now r)

/-- The relations after one has been written. -/
def putRelation (now : String) (relations : Table RelationRow) (r : Relation) :
    Table RelationRow :=
  (addRelation now relations r).mapRows (RelationRow.put now r)

/-- What keeps the row of an identity from being read, if there is a row. -/
def faultOf (t : GraphTables) (id : String) : Option StorageFault :=
  (t.node? id).bind NodeRow.fault?

variable {dimension : Nat} {t t' : GraphTables} {id : String} {f : StorageFault}
  {relations : Table RelationRow} {r : Relation}

/-! ## Rows of relations -/

theorem key_put (now : String) (r : Relation) (x : RelationRow) : (x.put now r).key = x.key := by
  rw [RelationRow.put]
  split_ifs <;> rfl

theorem relation?_key (t : GraphTables) (r : Relation) :
    t.relation? r.label r.source r.target =
      t.relations.rows.find? fun x => x.key == r.key := by
  rw [relation?]
  refine congrArg (List.find? · t.relations.rows) (funext fun x => ?_)
  exact Bool.and_assoc _ _ _

theorem numbered_addRelation (h : relations.Numbered RelationRow.id) (now : String)
    (r : Relation) : (addRelation now relations r).Numbered RelationRow.id := by
  rw [addRelation]
  split_ifs
  · exact h
  · exact h.append _ rfl

theorem keys_addRelation_nodup (h : (relations.rows.map RelationRow.key).Nodup) (now : String)
    (r : Relation) : ((addRelation now relations r).rows.map RelationRow.key).Nodup := by
  rw [addRelation]
  split_ifs with hkey
  · exact h
  · rw [Table.rows_append, List.map_append, List.map_singleton, ← List.concat_eq_append]
    exact h.concat hkey

/-- Making a relation leaves those that are there, and there is one with its key then. -/
theorem mem_keys_addRelation {now : String} {key : String × String × String} :
    key ∈ (addRelation now relations r).rows.map RelationRow.key ↔
      key ∈ relations.rows.map RelationRow.key ∨ key = r.key := by
  rw [addRelation]
  split_ifs with hkey
  · refine ⟨.inl, ?_⟩
    rintro (h | rfl)
    · exact h
    · exact hkey
  · rw [Table.rows_append, List.map_append, List.map_singleton, List.mem_append,
      List.mem_singleton]
    rfl

theorem keys_putRelation (now : String) (relations : Table RelationRow) (r : Relation) :
    (putRelation now relations r).rows.map RelationRow.key =
      (addRelation now relations r).rows.map RelationRow.key := by
  rw [putRelation, Table.rows_mapRows, List.map_map]
  exact List.map_congr_left fun x _ => key_put now r x

theorem mem_keys_foldl_putRelation {now : String} {batch : List Relation}
    {key : String × String × String} :
    key ∈ (batch.foldl (putRelation now) relations).rows.map RelationRow.key ↔
      key ∈ relations.rows.map RelationRow.key ∨ key ∈ batch.map Relation.key := by
  induction batch generalizing relations with
  | nil => simp
  | cons r rest ih =>
    rw [List.foldl_cons, ih, keys_putRelation, mem_keys_addRelation, List.map_cons, List.mem_cons,
      or_assoc]

/-! ## Rows that cannot be read -/

/-- A row that has just been made can be read. -/
theorem faultOf_addRow (now id x : String) (t : GraphTables) :
    faultOf { t with nodes := addRow now t.nodes id } x = t.faultOf x := by
  rw [faultOf, faultOf, node?_addRow]
  cases t.node? x with
  | some row => rfl
  | none =>
    split_ifs
    · obtain ⟨rec, hrec, -⟩ := (NodeRow.isStored_bare 0 now id).exists_record
      exact faultIn_eq_none.2 ⟨rec, hrec⟩
    · rfl

theorem faultOf_foldl_addRow (now : String) (ids : List String) (t : GraphTables) :
    faultOf { t with nodes := ids.foldl (addRow now) t.nodes } = t.faultOf := by
  induction ids generalizing t with
  | nil => rfl
  | cons id ids ih =>
    exact (ih { t with nodes := addRow now t.nodes id }).trans
      (funext fun x => faultOf_addRow now id x t)

/-- Whether a row can be read is a matter of the nodes, and makes no difference for new ones. -/
theorem faultOf_of_nodes {now : String} {ids : List String}
    (h : t'.nodes = ids.foldl (addRow now) t.nodes) : t'.faultOf = t.faultOf := by
  rw [← faultOf_foldl_addRow now ids t, ← h]
  rfl

/-- Rows that the store has written can all be read. -/
theorem WellFormed.faultOf_eq_none (h : t.WellFormed dimension) (id : String) :
    t.faultOf id = none := by
  rw [faultOf]
  cases hrow : t.node? id with
  | none => rfl
  | some row =>
    obtain ⟨rec, hrec, -⟩ := (h.nodes row (h.node?_eq_some.1 hrow).1).exists_record
    exact faultIn_eq_none.2 ⟨rec, hrec⟩

/-! ## Sessions -/

/-- Looking up a record succeeds if the row can be read. -/
theorem run_getOrCreateNode (now : String) (h : t.faultOf id = none) :
    ∃ rec created, getOrCreateNode now id none t =
      .ok ((rec, created), { t with nodes := addRow now t.nodes id }) := by
  obtain ⟨row, created, hrun, hrow⟩ := run_getOrCreateRow now id t
  rw [← faultOf_addRow now id, faultOf, hrow] at h
  obtain ⟨rec, hrec⟩ := faultIn_eq_none.1 h
  refine ⟨rec, created, ?_⟩
  rw [getOrCreateNode, Session.run_bind hrun]
  simp only [hrec]
  rfl

/-- A record that is there and can be read is found, by whoever looks. -/
theorem run_getOrCreateNode_present (now : String) {row : NodeRow} {rec : NodeRecord}
    (hrow : t.node? id = some row) (hrec : row.record = .ok rec) (refusal : Refusal) :
    getOrCreateNode now id refusal t = .ok ((rec, false), t) := by
  rw [getOrCreateNode, Session.run_bind (run_getOrCreateRow_present now hrow refusal)]
  simp only [hrec]
  rfl

/-- Looking up a record fails if the row cannot be read, whoever looks. -/
theorem run_getOrCreateNode_fails (now : String) (h : t.faultOf id = some f) (refusal : Refusal) :
    getOrCreateNode now id refusal t = .error (.storage f) := by
  rw [faultOf, Option.bind_eq_some_iff] at h
  obtain ⟨row, hrow, hfault⟩ := h
  rw [getOrCreateNode, Session.run_bind (run_getOrCreateRow_present now hrow refusal)]
  simp only [faultIn_eq_some.1 hfault]
  rfl

/-- An insertion succeeds if the relation is new and its ends are there. -/
theorem run_insertRelation (now : String) (hnew : t.relation? r.label r.source r.target = none)
    (hends : ∀ id ∈ r.ends, id ∈ t.ids) :
    insertRelation now r.label r.source r.target none t =
      .ok (newRelation now r t.relations.nextId,
        { t with relations := t.relations.append (newRelation now r) }) := by
  have hthere : ((t.node? r.source).isNone || (t.node? r.target).isNone) = false := by
    rw [Bool.or_eq_false_iff, ← Bool.not_eq_true, ← Bool.not_eq_true, Option.isNone_iff_eq_none,
      Option.isNone_iff_eq_none, node?_eq_none, node?_eq_none, not_not, not_not]
    exact ⟨hends _ List.mem_cons_self, hends _ (List.mem_cons_of_mem _ List.mem_cons_self)⟩
  rw [insertRelation, Session.run_write_bind, Session.run_get_bind, hnew, hthere]
  rfl

/-- Writing a relation succeeds if the rows of its ends can be read.  It changes all rows that have
the number of one row with its key. -/
theorem run_writeRelation_of_faultOf (now : String) (h : ∀ id ∈ r.ends, t.faultOf id = none) :
    ∃ row ∈ (addRelation now t.relations r).rows, row.key = r.key ∧
      writeRelation now r none t = .ok ((), {
        nodes := r.ends.foldl (addRow now) t.nodes
        relations := (addRelation now t.relations r).mapRows fun x =>
          if x.id == row.id then { x with properties := r.properties.encode, updatedAt := now }
          else x }) := by
  obtain ⟨source, isNew, hsource⟩ := run_getOrCreateNode now (h _ List.mem_cons_self)
  have htarget := h r.target (List.mem_cons_of_mem _ List.mem_cons_self)
  rw [← faultOf_addRow now r.source] at htarget
  obtain ⟨target, isNew', htarget⟩ := run_getOrCreateNode now htarget
  have hids : ∀ id ∈ r.ends,
      id ∈ ids { t with nodes := addRow now (addRow now t.nodes r.source) r.target } := by
    intro id hid
    have hadded := ids_foldl_addRow now r.ends t.nodes
    rw [Relation.ends, List.foldl_cons, List.foldl_cons, List.foldl_nil] at hadded
    rw [ids, hadded]
    exact mem_foldl_addNew.2 (.inr hid)
  rw [writeRelation, Session.run_bind (Session.run_discard hsource),
    Session.run_bind (Session.run_discard htarget), Session.run_get_bind, addRelation]
  cases hrelation : relation?
    { t with nodes := addRow now (addRow now t.nodes r.source) r.target } r.label r.source
      r.target with
  | some row =>
    have hfind := (relation?_key _ r).symm.trans hrelation
    have hkey : row.key = r.key := by simpa using List.find?_some hfind
    have hrow : row ∈ t.relations.rows := List.mem_of_find?_eq_some hfind
    rw [if_pos (hkey ▸ List.mem_map_of_mem hrow)]
    refine ⟨row, hrow, hkey, ?_⟩
    simp only [updateRelations, touched_self]
    rfl
  | none =>
    have hkey : r.key ∉ t.relations.rows.map RelationRow.key := relation?_eq_none hrelation
    rw [if_neg hkey]
    refine ⟨newRelation now r t.relations.nextId, ?_, rfl, ?_⟩
    · exact List.mem_append_right _ List.mem_cons_self
    · refine (Session.run_bind (run_insertRelation now hrelation hids)).trans ?_
      simp only [updateRelations, touched_self]
      rfl

/-- **Writing a relation** makes rows for its ends and puts it over its own row. -/
theorem IsConstrained.run_writeRelation (h : t.IsConstrained) (now : String)
    (hends : ∀ id ∈ r.ends, t.faultOf id = none) :
    writeRelation now r none t = .ok ((), {
      nodes := r.ends.foldl (addRow now) t.nodes
      relations := putRelation now t.relations r }) := by
  obtain ⟨row, hrow, hkey, hrun⟩ := run_writeRelation_of_faultOf now hends
  have hnumbers := numbered_addRelation h.relations now r
  have hkeys := keys_addRelation_nodup h.keys_nodup now r
  have hput : (addRelation now t.relations r).rows.map (fun x => if x.id == row.id then
      { x with properties := r.properties.encode, updatedAt := now } else x) =
      (addRelation now t.relations r).rows.map (RelationRow.put now r) := by
    refine List.map_congr_left fun x hx => ?_
    rw [RelationRow.put]
    refine if_congr ?_ rfl rfl
    rw [beq_iff_eq, ← hkey]
    constructor
    · exact fun hid => congrArg RelationRow.key (hnumbers.eq_of_number_eq hx hrow hid)
    · exact fun heq => congrArg RelationRow.id (List.inj_on_of_nodup_map hkeys hx hrow heq)
  rw [hrun, putRelation, Table.mapRows, Table.mapRows, hput]

/-- A relation that has been written has a number and a key of its own, and so have the others. -/
theorem IsConstrained.putRelation (h : t.IsConstrained) (now : String) (r : Relation) :
    IsConstrained { nodes := r.ends.foldl (addRow now) t.nodes,
                    relations := GraphTables.putRelation now t.relations r } := by
  refine ⟨?_, ?_, ?_⟩
  · show ((r.ends.foldl (addRow now) t.nodes).map NodeRow.id).Nodup
    rw [ids_foldl_addRow]
    exact nodup_foldl_addNew h.ids_nodup r.ends
  · exact (numbered_addRelation h.relations now r).mapRows fun x => by
      rw [RelationRow.put]
      split_ifs <;> rfl
  · rw [keys_putRelation]
    exact keys_addRelation_nodup h.keys_nodup now r

/-- **Writing relations** makes rows for their ends, and puts them over their rows, one after the
other, as long as the rows of the ends can be read. -/
theorem IsConstrained.run_writeRelations (h : t.IsConstrained) (now : String)
    {batch : List Relation} (hends : ∀ id ∈ batch.flatMap Relation.ends, t.faultOf id = none) :
    writeRelations now batch none t = .ok ((), {
      nodes := (batch.flatMap Relation.ends).foldl (addRow now) t.nodes
      relations := batch.foldl (GraphTables.putRelation now) t.relations }) := by
  induction batch generalizing t with
  | nil => rfl
  | cons r rest ih =>
    rw [List.flatMap_cons, List.forall_mem_append] at hends
    have hrest := ih (h.putRelation now r) fun id hid => by
      rw [faultOf_of_nodes (t := t) rfl]
      exact hends.2 id hid
    rw [writeRelations, Session.run_bind (h.run_writeRelation now hends.1), hrest,
      List.flatMap_cons, List.foldl_append, List.foldl_cons]

/-- Rows that the store has written can be read, so nothing keeps it from writing relations. -/
theorem run_writeRelations (h : t.WellFormed dimension) (now : String) (batch : List Relation) :
    writeRelations now batch none t = .ok ((), {
      nodes := (batch.flatMap Relation.ends).foldl (addRow now) t.nodes
      relations := batch.foldl (putRelation now) t.relations }) :=
  h.isConstrained.run_writeRelations now fun id _ => h.faultOf_eq_none id

/-- Writing a relation fails with the fault of the first of its ends that cannot be read. -/
theorem run_writeRelation_fails (now : String) (h : r.ends.findSome? t.faultOf = some f) :
    writeRelation now r none t = .error (.storage f) := by
  rw [Relation.ends, List.findSome?_cons, List.findSome?_singleton] at h
  rw [writeRelation]
  cases hsource : t.faultOf r.source with
  | some f₁ =>
    rw [hsource] at h
    obtain rfl : f₁ = f := Option.some.inj h
    exact Session.run_bind_error
      (Session.run_discard_error (run_getOrCreateNode_fails now hsource none))
  | none =>
    rw [hsource] at h
    obtain ⟨rec, isNew, hrun⟩ := run_getOrCreateNode now hsource
    rw [Session.run_bind (Session.run_discard hrun)]
    exact Session.run_bind_error (Session.run_discard_error
      (run_getOrCreateNode_fails now ((faultOf_addRow now r.source _ t).trans h) none))

/-- **Writing relations fails** with the fault of the first end whose row cannot be read, although
the relations in front of it have been written by then. -/
theorem run_writeRelations_fails (now : String) {batch : List Relation}
    (h : (batch.flatMap Relation.ends).findSome? t.faultOf = some f) :
    writeRelations now batch none t = .error (.storage f) := by
  induction batch generalizing t with
  | nil => cases h
  | cons r rest ih =>
    rw [List.flatMap_cons, List.findSome?_append] at h
    rw [writeRelations]
    cases hends : r.ends.findSome? t.faultOf with
    | some f₁ =>
      rw [hends] at h
      obtain rfl : f₁ = f := Option.some.inj h
      exact Session.run_bind_error (run_writeRelation_fails now hends)
    | none =>
      rw [hends, Option.none_or] at h
      obtain ⟨row, -, -, hfirst⟩ :=
        run_writeRelation_of_faultOf now (List.findSome?_eq_none_iff.1 hends)
      rw [Session.run_bind hfirst]
      refine ih ?_
      rw [faultOf_of_nodes (t := t) rfl]
      exact h

/-! ## Under a refusal -/

/-- Looking up a record leaves the tables as they are, or fails for the refusal. -/
theorem WellFormed.run_getOrCreateNode_refused (h : t.WellFormed dimension) (now id : String)
    (f : StorageFault) :
    (∃ p, getOrCreateNode now id (some f) t = .ok (p, t)) ∨
      getOrCreateNode now id (some f) t = .error (.storage f) := by
  rw [getOrCreateNode]
  obtain ⟨row, hrow, hrun⟩ | hrun := run_getOrCreateRow_refused now id f t
  · obtain ⟨rec, hrec, -⟩ := (h.nodes row (h.node?_eq_some.1 hrow).1).exists_record
    refine .inl ⟨(rec, false), ?_⟩
    rw [Session.run_bind hrun]
    simp only [hrec]
    rfl
  · exact .inr (Session.run_bind_error hrun)

/-- **No batch of relations but the empty one gets through.** -/
theorem WellFormed.run_writeRelations_refused (h : t.WellFormed dimension) (now : String)
    {batch : List Relation} (hbatch : batch ≠ []) (f : StorageFault) :
    writeRelations now batch (some f) t = .error (.storage f) := by
  cases batch with
  | nil => exact absurd rfl hbatch
  | cons r rest =>
    refine Session.run_bind_error ?_
    rw [writeRelation]
    obtain ⟨p, hsource⟩ | hsource := h.run_getOrCreateNode_refused now r.source f
    · rw [Session.run_bind (Session.run_discard hsource)]
      obtain ⟨q, htarget⟩ | htarget := h.run_getOrCreateNode_refused now r.target f
      · rw [Session.run_bind (Session.run_discard htarget), Session.run_get_bind]
        cases t.relation? r.label r.source r.target <;> rfl
      · exact Session.run_bind_error (Session.run_discard_error htarget)
    · exact Session.run_bind_error (Session.run_discard_error hsource)

end GraphTables

end GraphBase
