import GraphBase.Proofs.Graph.Arrivals
import GraphBase.Proofs.Graph.Selecting
import GraphBase.Proofs.Value.Agreement

/-!
# Which nodes a filter finds

A filter of nodes asks for properties and for identities (`GraphTables.Finds`).  All properties have
to be there, and one of the identities; without identities every row will do.  What is found is
answered in the order in which the rows have come (`PropertyStore.finds_of_reaches`).

A filter of too many properties makes a statement with too many conditions, and then it is answered
with an error (`nodesWith_eq_error`).

What it means to have a property is a parameter.  For the database (`SeesAt`) nothing has to be
assumed.  For the values that the answers show (`Properties.DecodesAt`) both readers of a stored
text have to find the same.  Values that the answers leave out, because they are empty, are found
all the same.
-/

namespace GraphBase

/-- The database sees a value for a key of a stored text that is equal to the given one. -/
def SeesAt (text key : String) (value : Scalar) : Prop :=
  ∃ p : Properties, text = p.encode ∧ p.MatchesAt key value

namespace GraphTables

/-- A filter finds some rows of some tables: exactly those that have one of the identities and all
properties, in the order in which they stand. -/
structure Finds (HasAt : String → String → Scalar → Prop) (filter : Properties)
    (ids : List String) (t : GraphTables) (rows : List NodeRow) : Prop where
  sublist : rows.Sublist t.nodes
  mem_rows : ∀ n, n ∈ rows ↔ n ∈ t.nodes ∧ (ids = [] ∨ n.id ∈ ids) ∧
    ∀ e ∈ filter.entries, HasAt n.properties e.1 e.2

/-- The rows that a filter finds. -/
def found (filter : Properties) (ids : List String) (t : GraphTables) : List NodeRow :=
  (t.nodes.filter fun n => ids.isEmpty || ids.contains n.id).filter fun n =>
    filter.entries.all fun e => hasProperty e.1 e.2 n.properties

variable {dimension : Nat} {t : GraphTables} {filter : Properties} {ids : List String}

/-- Whether all values are in a stored text is decided without failure. -/
theorem matchesAll_eq_ok {text : String} {entries : List (String × Scalar)}
    (hkeys : ∀ e ∈ entries, IsPlainKey e.1) (h : ∃ p : Properties, text = p.encode) :
    matchesAll text entries = .ok (entries.all fun e => hasProperty e.1 e.2 text) := by
  induction entries with
  | nil => rfl
  | cons e rest ih =>
    rw [List.forall_mem_cons] at hkeys
    rw [matchesAll, matchesProperty_eq_ok hkeys.1 h, List.all_cons]
    cases hasProperty e.1 e.2 text with
    | true => exact ih hkeys.2
    | false => rfl

/-- **What is found passes all parts, and the other way round**, if it is known how a text has a
value. -/
theorem finds_found {HasAt : String → String → Scalar → Prop}
    (h : ∀ n ∈ t.nodes, ∀ e ∈ filter.entries,
      hasProperty e.1 e.2 n.properties = true ↔ HasAt n.properties e.1 e.2) :
    t.Finds HasAt filter ids (t.found filter ids) := by
  refine ⟨List.filter_sublist.trans List.filter_sublist, fun n => ?_⟩
  rw [found, List.mem_filter, List.mem_filter, and_assoc]
  refine and_congr_right fun hn => and_congr (by simp) ?_
  rw [List.all_eq_true]
  exact forall₂_congr fun e he => h n hn e he

/-- What rows read as has their identities. -/
theorem WellFormed.map_id_eq (hwf : t.WellFormed dimension) {rows : List NodeRow}
    {answer : List Node} (hrows : ∀ n ∈ rows, n ∈ t.nodes)
    (h : List.Forall₂ (fun n node => n.node = .ok node) rows answer) :
    answer.map Node.id = rows.map NodeRow.id := by
  induction h with
  | nil => rfl
  | @cons n node rows answer hnode _ ih =>
    rw [List.forall_mem_cons] at hrows
    obtain ⟨rec, hrec, -, hid⟩ := (hwf.nodes n hrows.1).exists_node
    rw [NodeRow.node, hrec] at hnode
    cases hnode
    rw [List.map_cons, List.map_cons, hid, ih hrows.2]

/-- A filter of too many properties is not answered. -/
theorem nodesWith_eq_error (hsize : 998 < nodeSize filter ids) (t : GraphTables) :
    t.nodesWith filter ids = .error .badStatement := by
  have hprepare : Sql.prepare (nodeConditions filter ids) = .error .badStatement :=
    Sql.prepare_eq_error fun hok => Nat.not_le.2 hsize (prepare_nodeConditions_eq_ok.1 hok)
  rw [nodesWith, hprepare]
  rfl

/-- **A filter answers the nodes of what it finds**, in whichever way they are read. -/
theorem WellFormed.exists_nodesWith (hwf : t.WellFormed dimension)
    (hkeys : ∀ e ∈ filter.entries, IsPlainKey e.1) (hsize : nodeSize filter ids ≤ 998) :
    ∃ answer, t.nodesWith filter ids = .ok answer ∧
      List.Forall₂ (fun n node => n.node = .ok node) (t.found filter ids) answer := by
  have hpasses : ∀ n ∈ t.nodes, matchesAll n.properties filter.entries =
      .ok (filter.entries.all fun e => hasProperty e.1 e.2 n.properties) :=
    fun n hn => matchesAll_eq_ok hkeys (hwf.nodes n hn).properties
  have hread : ∀ n ∈ t.found filter ids, ∃ node, n.node = .ok node := by
    intro n hn
    have hmem := List.mem_of_mem_filter (List.mem_of_mem_filter hn)
    obtain ⟨rec, hrec, -⟩ := (hwf.nodes n hmem).exists_node
    exact ⟨rec.node, by rw [NodeRow.node, hrec]; rfl⟩
  obtain ⟨answer, hanswer, hrows⟩ := exists_mapM_eq_ok hread
  refine ⟨answer, ?_, hrows⟩
  rw [← hanswer, nodesWith_of_prepare (prepare_nodeConditions_eq_ok.2 hsize)]
  split_ifs with hempty
  · have hall : (t.nodes.filter fun n => ids.isEmpty || ids.contains n.id) = t.nodes :=
      List.filter_eq_self.2 fun n _ => by rw [hempty, Bool.true_or]
    rw [filterMapOk_eq_mapM hpasses, found, hall]
  · rw [filterOk_eq_ok fun n hn => hpasses n (List.mem_of_mem_filter hn), found]
    simp only [Bool.eq_false_iff.2 hempty, Bool.false_or]
    rfl

end GraphTables

namespace PropertyStore

variable {store : PropertyStore} {s : Site} {t : GraphTables}

/-- A request for nodes succeeds if the conditions are not too many, and changes nothing. -/
theorem run_nodes (hopen : store.IsOpen s t) (hwf : t.WellFormed store.schema.dimension)
    {filter : Properties} (hkeys : ∀ e ∈ filter.entries, IsPlainKey e.1) {ids : List String}
    (hsize : nodeSize filter ids ≤ 998) :
    ∃ answer s', (store.nodes filter ids).run s = (.ok answer, s') ∧ store.IsOpen s' t ∧
      List.Forall₂ (fun n node => n.node = .ok node) (t.found filter ids) answer := by
  obtain ⟨answer, hanswer, hread⟩ := hwf.exists_nodesWith hkeys hsize
  obtain ⟨s', hrun, hopen'⟩ : ∃ s', (store.nodes filter ids).run s = (.ok answer, s') ∧
      store.IsOpen s' t := run_readsOk hopen hanswer
  exact ⟨answer, s', hrun, hopen', hread⟩

/-- **A filter answers exactly the nodes that it finds**, in every state that a run leads to: each
once, and in the order in which the rows have come.  Whether values are equal is decided as the
database reads what was stored, and on the decoded values if both readers find the same.  Without
properties and identities, all nodes are answered.  Finding changes nothing, and it fails only if the
properties and the identities make too many conditions, and then in every state. -/
theorem finds_of_reaches (h : store.Reaches s t) {filter : Properties}
    (hkeys : ∀ e ∈ filter.entries, IsPlainKey e.1) (ids : List String) :
    (nodeSize filter ids ≤ 998 → ∃ log rows answer s', store.Records s t log ∧
      (store.nodes filter ids).run s = (.ok answer, s') ∧ store.IsOpen s' t ∧
      List.Forall₂ (fun n node => n.node = .ok node) rows answer ∧
      (answer.map Node.id).Sublist log.dedup ∧
      t.Finds SeesAt filter ids rows ∧
      ((∀ n ∈ t.nodes, ∀ e ∈ filter.entries,
        ∃ p : Properties, n.properties = p.encode ∧ p.AgreesAt e.1) →
        t.Finds Properties.DecodesAt filter ids rows) ∧
      (filter.entries = [] → ids = [] → rows = t.nodes)) ∧
    (998 < nodeSize filter ids →
      (store.nodes filter ids).run s = (.error (.storage .badStatement), s)) := by
  obtain ⟨log, hrecords⟩ := h.exists_records
  obtain ⟨hopen, hwf, hlog⟩ := hrecords.sublist
  refine ⟨fun hsize => ?_, fun hsize =>
    run_readsOk_fails hopen (GraphTables.nodesWith_eq_error hsize t)⟩
  obtain ⟨answer, s', hrun, hopen', hread⟩ := run_nodes hopen hwf hkeys hsize
  have hsees : t.Finds SeesAt filter ids (t.found filter ids) :=
    GraphTables.finds_found fun n hn e he =>
      hasProperty_iff_matchesAt (hkeys e he) (hwf.nodes n hn).properties
  refine ⟨log, _, answer, s', hrecords, hrun, hopen', hread, ?_, hsees, fun hagrees => ?_, ?_⟩
  · rw [hwf.map_id_eq (fun n hn => hsees.sublist.subset hn) hread]
    exact (hsees.sublist.map NodeRow.id).trans hlog
  · refine GraphTables.finds_found fun n hn e he => ?_
    obtain ⟨p, hp, hagrees⟩ := hagrees n hn e he
    rw [hp, hasProperty_encode p (hkeys e he)]
    exact Properties.cellAt_equals_iff_decodesAt (hkeys e he) hagrees
  · intro hfilter hids
    rw [GraphTables.found, hfilter, hids]
    simp

/-- The properties of two rows. -/
def halfProperties : Properties := .ofList [("k", .int 1), ("x", .float ⟨0x3fe0000000000000⟩)]

theorem entries_halfProperties : halfProperties.entries =
    [("k", .int 1), ("x", .float ⟨0x3fe0000000000000⟩)] := by decide

/-- A row that was there before another one, but has gone in between. -/
def returnedTables : GraphTables where
  nodes := [
    { NodeRow.bare "1" "B" with
      name := some "B", label := "x", properties := halfProperties.encode },
    { NodeRow.bare "2" "A" with
      name := some "A", label := "x", properties := halfProperties.encode }]

/-- A run leads there. -/
theorem exists_reaches_returnedTables : ∃ s, PropertyStore.Reaches ⟨{}⟩ s returnedTables := by
  have hnodes : Step ⟨{}⟩ fileSite _ _ := .call (.upsertNodes "1"
    [.entity "A" { label := "x" }, .entity "B" { label := "x", properties := halfProperties }])
  have hrun := Run.cons hnodes (.cons (.call (.delete { ids := ["A"] })) (.cons
    (.call (.upsertNodes "2" [.entity "A" { label := "x", properties := halfProperties }]))
    (.nil _)))
  exact ⟨_, .run start_fileSite tables?_fileSite ⟨rfl, rfl⟩ hrun (by decide +kernel)⟩

/-- Both readers find the integer and the floating point number that were stored.  So both rows are
found by a truth value, the one that has returned after the other. -/
theorem finds_returned : ∃ s rows answer s', PropertyStore.Reaches ⟨{}⟩ s returnedTables ∧
    (∀ e ∈ (Properties.ofList [("k", .bool true)]).entries, IsPlainKey e.1) ∧
    (PropertyStore.nodes ⟨{}⟩ (.ofList [("k", .bool true)]) []).run s = (.ok answer, s') ∧
    List.Forall₂ (fun n node => n.node = .ok node) rows answer ∧
    returnedTables.Finds Properties.DecodesAt (.ofList [("k", .bool true)]) [] rows ∧
    rows = returnedTables.nodes := by
  obtain ⟨s, h⟩ := exists_reaches_returnedTables
  have hkeys : ∀ e ∈ (Properties.ofList [("k", .bool true)]).entries, IsPlainKey e.1 := by decide
  obtain ⟨log, rows, answer, s', -, hrun, -, hread, -, -, hfinds, -⟩ :=
    (finds_of_reaches h hkeys []).1 (by decide)
  have htexts : ∀ n ∈ returnedTables.nodes, n.properties = halfProperties.encode := by decide
  have hagrees : ∀ key, halfProperties.AgreesAt key := by
    refine Properties.agreesAt_of_forall (by decide) fun e he => ?_
    rw [entries_halfProperties] at he
    rcases List.mem_cons.1 he with rfl | he
    · exact Scalar.readsAlike_of_notFloat nofun
    · obtain rfl := List.mem_singleton.1 he
      rintro y hy
      obtain rfl := Scalar.float.inj hy
      have hread : storedNumber ⟨0x3fe0000000000000⟩ = .real ⟨0x3fe0000000000000⟩ ∧
          (Scalar.float ⟨0x3fe0000000000000⟩).reread = .float ⟨0x3fe0000000000000⟩ := by
        decide +kernel
      rw [hread.1, hread.2]
      rfl
  have hfound := hfinds fun n hn e _ => ⟨halfProperties, htexts n hn, hagrees e.1⟩
  have hall : ∀ n ∈ returnedTables.nodes, n ∈ rows := by
    intro n hn
    refine (hfound.mem_rows n).2 ⟨hn, .inl rfl, List.forall_mem_singleton.2 ?_⟩
    have hone : (Scalar.int 1).quantity? = (Scalar.bool true).quantity? := by
      simp [Scalar.quantity?]
    have hvalue : halfProperties.reread.get? "k" = some (.int 1) := by decide +kernel
    rw [htexts n hn]
    exact ⟨_, _, halfProperties.decode?_encode, hvalue, .number hone rfl⟩
  have hnodup : returnedTables.nodes.Nodup := by decide
  exact ⟨s, rows, answer, s', h, hkeys, hrun, hread, hfound,
    hfound.sublist.eq_of_length_le (List.subperm_of_subset hnodup hall).length_le⟩

end PropertyStore

end GraphBase
