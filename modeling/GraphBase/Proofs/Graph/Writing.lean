import GraphBase.Proofs.Graph.Sessions

/-!
# What writing does to the rows

Writing nodes never fails for want of anything in the tables, and what it does to the rows can be
said without running it (`run_writeNodes`).

* Whatever is written under an identity that has no row gets a bare row first, behind all rows
  there are (`addRow`).
* A node is then written over its row, which stays where it is (`putRow`).

So the identities of the rows stand in the order in which they have come, and only the first time
counts (`ids_foldl_addRow`, `ids_foldl_putRow`).  Those that are new come behind those that were
there (`newcomers`).

Under a refusal these sessions get through only if there was nothing to write.
-/

namespace GraphBase

/-- The row after a node has been written, if it is the row of that node. -/
def NodeRow.put (now : String) (node : Node) (n : NodeRow) : NodeRow :=
  if n.id == node.id then
    { n.write node with updatedAt := touched now n.updatedAt (n.write node).updatedAt }
  else n

/-- The ends of a relation, in the order in which they are looked up. -/
def Relation.ends (r : Relation) : List String := [r.source, r.target]

/-- A list with one more item behind the others, if it was not there. -/
def addNew (ids : List String) (id : String) : List String := if id ∈ ids then ids else ids ++ [id]

theorem mem_addNew {ids : List String} {id x : String} : x ∈ addNew ids id ↔ x ∈ ids ∨ x = id := by
  rw [addNew]
  split_ifs with hid
  · constructor
    · exact .inl
    · rintro (hx | rfl)
      · exact hx
      · exact hid
  · rw [List.mem_append, List.mem_singleton]

theorem mem_foldl_addNew {new ids : List String} {x : String} :
    x ∈ new.foldl addNew ids ↔ x ∈ ids ∨ x ∈ new := by
  induction new generalizing ids with
  | nil => simp
  | cons id new ih => rw [List.foldl_cons, ih, mem_addNew, List.mem_cons, or_assoc]

theorem nodup_foldl_addNew {ids : List String} (h : ids.Nodup) (new : List String) :
    (new.foldl addNew ids).Nodup := by
  induction new generalizing ids with
  | nil => exact h
  | cons id new ih =>
    refine ih ?_
    rw [addNew]
    split_ifs with hid
    · exact h
    · rw [← List.concat_eq_append]
      exact h.concat hid

section Newcomers

variable {κ : Type} [DecidableEq κ]

/-- The items of a list that are not among some others, each where it comes first. -/
def newcomers (old new : List κ) : List κ := (new.filter (· ∉ old)).eraseDups

theorem mem_newcomers {old new : List κ} {k : κ} : k ∈ newcomers old new ↔ k ∈ new ∧ k ∉ old := by
  rw [newcomers, List.mem_eraseDups, List.mem_filter, decide_eq_true_eq]

theorem newcomers_append_singleton (old new : List κ) (k : κ) :
    newcomers old (new ++ [k]) =
      newcomers old new ++ if k ∈ old ++ newcomers old new then [] else [k] := by
  have hmem : k ∈ old ++ newcomers old new ↔ k ∈ old ∨ k ∈ new := by
    rw [List.mem_append, mem_newcomers]
    tauto
  rw [newcomers, List.filter_append, List.eraseDups_append, ← newcomers, if_congr hmem rfl rfl]
  congr 1
  by_cases hold : k ∈ old
  · rw [if_pos (.inl hold), List.filter_cons_of_neg (by simpa using hold)]
    rfl
  · rw [List.filter_cons_of_pos (by simpa using hold), List.filter_nil, List.removeAll]
    by_cases hnew : k ∈ new
    · rw [if_pos (.inr hnew), List.filter_cons_of_neg (by simpa using ⟨hnew, hold⟩)]
      rfl
    · rw [if_neg (not_or_intro hold hnew), List.filter_cons_of_pos (by simpa using .inl hnew)]
      rfl

/-- Adding items one by one, each if it is not there, adds what is new. -/
theorem foldl_add_eq {add : List κ → κ → List κ}
    (hadd : ∀ ks k, add ks k = ks ++ if k ∈ ks then [] else [k]) (old new : List κ) :
    new.foldl add old = old ++ newcomers old new := by
  induction new using List.reverseRecOn with
  | nil => exact (List.append_nil old).symm
  | append_singleton new k ih =>
    rw [List.foldl_append, ih, newcomers_append_singleton, ← List.append_assoc]
    exact hadd _ _

end Newcomers

theorem foldl_addNew (old new : List String) : new.foldl addNew old = old ++ newcomers old new := by
  refine foldl_add_eq (fun ids id => ?_) old new
  rw [addNew]
  split_ifs
  · rw [List.append_nil]
  · rfl

namespace GraphTables

open Session (Restrained)

/-- The rows with a bare one behind them, if an identity had none. -/
def addRow (now : String) (rows : List NodeRow) (id : String) : List NodeRow :=
  if id ∈ rows.map NodeRow.id then rows else rows ++ [NodeRow.bare now id]

/-- The rows after a node has been written. -/
def putRow (now : String) (rows : List NodeRow) (node : Node) : List NodeRow :=
  (addRow now rows node.id).map (NodeRow.put now node)

variable {dimension : Nat} {t : GraphTables}

/-! ## Rows -/

@[simp] theorem id_put (now : String) (node : Node) (n : NodeRow) :
    (n.put now node).id = n.id := by
  rw [NodeRow.put]
  split_ifs
  · exact NodeRow.id_write node n
  · rfl

theorem put_of_ne {now : String} {node : Node} {n : NodeRow} (h : n.id ≠ node.id) :
    n.put now node = n := by
  rw [NodeRow.put, if_neg]
  rwa [beq_iff_eq]

theorem ids_addRow (now : String) (rows : List NodeRow) (id : String) :
    (addRow now rows id).map NodeRow.id = addNew (rows.map NodeRow.id) id := by
  rw [addRow, addNew]
  split_ifs
  · rfl
  · rw [List.map_append, List.map_singleton]
    rfl

theorem ids_putRow (now : String) (rows : List NodeRow) (node : Node) :
    (putRow now rows node).map NodeRow.id = addNew (rows.map NodeRow.id) node.id := by
  rw [putRow, List.map_map, ← ids_addRow now]
  exact List.map_congr_left fun n _ => id_put now node n

theorem ids_foldl_addRow (now : String) (ids : List String) (rows : List NodeRow) :
    (ids.foldl (addRow now) rows).map NodeRow.id = ids.foldl addNew (rows.map NodeRow.id) := by
  induction ids generalizing rows with
  | nil => rfl
  | cons id ids ih => rw [List.foldl_cons, List.foldl_cons, ih, ids_addRow]

theorem ids_foldl_putRow (now : String) (nodes : List Node) (rows : List NodeRow) :
    (nodes.foldl (putRow now) rows).map NodeRow.id =
      (nodes.map Node.id).foldl addNew (rows.map NodeRow.id) := by
  induction nodes generalizing rows with
  | nil => rfl
  | cons node nodes ih => rw [List.foldl_cons, List.map_cons, List.foldl_cons, ih, ids_putRow]

/-- **Making rows** puts bare ones behind those that are there. -/
theorem foldl_addRow (now : String) (ids : List String) (rows : List NodeRow) :
    ids.foldl (addRow now) rows =
      rows ++ (newcomers (rows.map NodeRow.id) ids).map (NodeRow.bare now) := by
  induction ids using List.reverseRecOn with
  | nil => exact (List.append_nil rows).symm
  | append_singleton ids id ih =>
    have hids : (ids.foldl (addRow now) rows).map NodeRow.id =
        rows.map NodeRow.id ++ newcomers (rows.map NodeRow.id) ids := by
      rw [ids_foldl_addRow, foldl_addNew]
    rw [List.foldl_append, List.foldl_cons, List.foldl_nil, newcomers_append_singleton, addRow,
      hids, ih]
    split_ifs
    · rw [List.append_nil]
    · rw [List.map_append, List.append_assoc, List.map_singleton]

/-- Making a row leaves those that are there. -/
theorem mem_addRow {now id : String} {rows : List NodeRow} {n : NodeRow} (hn : n ∈ rows) :
    n ∈ addRow now rows id := by
  rw [addRow]
  split_ifs
  · exact hn
  · exact List.mem_append_left _ hn

theorem mem_foldl_addRow {now : String} {ids : List String} {rows : List NodeRow} {n : NodeRow}
    (hn : n ∈ rows) : n ∈ ids.foldl (addRow now) rows := by
  induction ids generalizing rows with
  | nil => exact hn
  | cons id ids ih => exact ih (mem_addRow hn)

/-! ## Sessions -/

/-- What is found under an identity after a row has been made for another one. -/
theorem node?_addRow (now id x : String) (t : GraphTables) :
    node? { t with nodes := addRow now t.nodes id } x =
      (t.node? x).or (if id = x then some (.bare now id) else none) := by
  rw [node?, node?, addRow]
  by_cases hid : id ∈ t.nodes.map NodeRow.id
  · rw [if_pos hid]
    split_ifs with hx
    · obtain ⟨row, hrow⟩ := Option.isSome_iff_exists.1 (isSome_find?_key.2 (hx ▸ hid))
      rw [hrow]
      rfl
    · rw [Option.or_none]
  · rw [if_neg hid, List.find?_append, List.find?_singleton]
    exact congrArg (Option.or _) (if_congr beq_iff_eq rfl rfl)

/-- What is found under an identity after rows have been made. -/
theorem node?_foldl_addRow (now : String) (ids : List String) (t : GraphTables) (x : String) :
    node? { t with nodes := ids.foldl (addRow now) t.nodes } x =
      (t.node? x).or (if x ∈ ids then some (.bare now x) else none) := by
  induction ids generalizing t with
  | nil => exact (Option.or_none).symm
  | cons id ids ih =>
    refine (ih { t with nodes := addRow now t.nodes id }).trans ?_
    rw [node?_addRow, Option.or_assoc]
    congr 1
    by_cases hid : id = x
    · rw [if_pos hid, if_pos (List.mem_cons.2 (.inl hid.symm)), hid]
      rfl
    · have hmem : x ∈ id :: ids ↔ x ∈ ids := List.mem_cons.trans (or_iff_right (Ne.symm hid))
      rw [if_neg hid, Option.none_or, if_congr hmem rfl rfl]

/-- A row that is there is found, by whoever looks. -/
theorem run_getOrCreateRow_present (now : String) {id : String} {t : GraphTables} {row : NodeRow}
    (h : t.node? id = some row) (refusal : Refusal) :
    getOrCreateRow now id refusal t = .ok ((row, false), t) := by
  rw [getOrCreateRow, Session.run_get_bind, h]
  rfl

theorem run_getOrCreateRow (now id : String) (t : GraphTables) :
    ∃ row created, getOrCreateRow now id none t =
        .ok ((row, created), { t with nodes := addRow now t.nodes id }) ∧
      node? { t with nodes := addRow now t.nodes id } id = some row := by
  rw [node?_addRow, if_pos rfl, getOrCreateRow, Session.run_get_bind]
  cases hrow : t.node? id with
  | some row =>
    have hmem : id ∈ t.nodes.map NodeRow.id := by
      rw [← isSome_find?_key, ← node?, hrow]
      rfl
    refine ⟨row, false, ?_, rfl⟩
    rw [addRow, if_pos hmem]
    rfl
  | none =>
    have hnew := node?_eq_none.1 hrow
    rw [ids] at hnew
    refine ⟨.bare now id, true, ?_, rfl⟩
    rw [addRow, if_neg hnew]
    rfl

theorem run_writeNode (now : String) (node : Node) (t : GraphTables) :
    writeNode now node none t = .ok ((), { t with nodes := putRow now t.nodes node }) := by
  obtain ⟨row, created, hrow, -⟩ := run_getOrCreateRow now node.id t
  rw [writeNode, Session.run_bind (Session.run_discard hrow)]
  rfl

/-- **Writing nodes** puts them over their rows, one after the other. -/
theorem run_writeNodes (now : String) (nodes : List Node) (t : GraphTables) :
    writeNodes now nodes none t =
      .ok ((), { t with nodes := nodes.foldl (putRow now) t.nodes }) := by
  induction nodes generalizing t with
  | nil => rfl
  | cons node rest ih =>
    rw [writeNodes, Session.run_bind (run_writeNode now node t), ih]
    rfl

/-! ## Under a refusal -/

theorem restrained_getOrCreateRow (now id : String) : Restrained (getOrCreateRow now id) := by
  rw [getOrCreateRow]
  refine .get_bind fun t => ?_
  cases t.node? id with
  | some row => exact .pure _
  | none => exact .write_bind _

/-- Looking up a row fails if it would have to be made. -/
theorem run_getOrCreateRow_refused (now id : String) (f : StorageFault) (t : GraphTables) :
    (∃ row, t.node? id = some row ∧ getOrCreateRow now id (some f) t = .ok ((row, false), t)) ∨
      getOrCreateRow now id (some f) t = .error (.storage f) := by
  rw [getOrCreateRow, Session.run_get_bind]
  cases hrow : t.node? id with
  | some row => exact .inl ⟨row, rfl, rfl⟩
  | none => exact .inr rfl

/-- **No batch of nodes but the empty one gets through.** -/
theorem run_writeNodes_refused (now : String) {nodes : List Node} (h : nodes ≠ [])
    (f : StorageFault) (t : GraphTables) :
    writeNodes now nodes (some f) t = .error (.storage f) := by
  cases nodes with
  | nil => exact absurd rfl h
  | cons node rest =>
    refine Session.run_bind_error ?_
    rw [writeNode]
    obtain ⟨row, -, hrow⟩ | hrow := run_getOrCreateRow_refused now node.id f t
    · rw [Session.run_bind (Session.run_discard hrow)]
      rfl
    · exact Session.run_bind_error (Session.run_discard_error hrow)

theorem restrained_getOrCreateNode (now id : String) : Restrained (getOrCreateNode now id) := by
  rw [getOrCreateNode]
  exact .bind (restrained_getOrCreateRow now id) fun p => .bind (.ofRead _) fun _ => .pure _

theorem restrained_writeNodes (now : String) (nodes : List Node) :
    Restrained (writeNodes now nodes) := by
  induction nodes with
  | nil => exact .pure _
  | cons node rest ih =>
    rw [writeNodes, writeNode]
    exact .bind (.bind (.discard (restrained_getOrCreateRow now node.id)) fun _ =>
      .discard (.write_bind _)) fun _ => ih

theorem restrained_writeRelation (now : String) (r : Relation) :
    Restrained (writeRelation now r) := by
  rw [writeRelation]
  refine .bind (.discard (restrained_getOrCreateNode now r.source)) fun _ =>
    .bind (.discard (restrained_getOrCreateNode now r.target)) fun _ => .get_bind fun t => ?_
  cases t.relation? r.label r.source r.target with
  | some row => exact .bind (.pure row) fun _ => .discard (.write_bind _)
  | none => exact .bind (.write_bind _) fun _ => .discard (.write_bind _)

theorem restrained_writeRelations (now : String) (relations : List Relation) :
    Restrained (writeRelations now relations) := by
  induction relations with
  | nil => exact .pure _
  | cons r rest ih =>
    rw [writeRelations]
    exact .bind (restrained_writeRelation now r) fun _ => ih

end GraphTables

end GraphBase
