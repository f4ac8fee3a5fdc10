import GraphBase.Proofs.Graph.LoadingOrder

/-!
# What a batch overwrites

A batch names rows: nodes by their identities, relations by their label and both ends.  It changes
the rows that it names, column by column, and no others (`PropertyStore.overwrites_of_reaches`).

* **Nodes** (`GraphTables.Overwrites`).  What a node of one kind does not have, a name or a text,
  stays as it was, so the row of an identity depends on all the nodes of the batch that have it, in
  their order, and on the row that was there before.
* **Relations** (`GraphTables.Connects`).  Only the last relation of a key counts.  The nodes at the
  ends stay as they are in every column, the time of their last change included; an end that has no
  row gets a bare one.

What is new comes behind what was there, in the order in which the batch first names it
(`newcomers`).
-/

namespace GraphBase

open GraphTables (addRow putRow addRelation putRelation newRelation)

/-! ## The effect of a batch -/

/-- A row after a node has been written to it, column by column. -/
def NodeRow.overwrite (now : String) (n : NodeRow) (node : Node) : NodeRow where
  id := n.id
  name := match node with
    | .entity name _ => some name
    | .chunk .. | .other .. => n.name
  text := match node with
    | .chunk _ text _ => some text
    | .entity .. | .other .. => n.text
  label := node.label
  properties := node.properties.encode
  embedding := match node.embedding with
    | some v => .blob (Embedding.encode v)
    | none => .null
  createdAt := n.createdAt
  updatedAt := now

namespace GraphTables

/-- What tells the relations apart, in the order of their rows. -/
def keys (t : GraphTables) : List (String × String × String) :=
  t.relations.rows.map RelationRow.key

/-- A batch of nodes leads from some tables to others. -/
structure Overwrites (now : String) (batch : List Node) (t t' : GraphTables) : Prop where
  /-- No relation changes. -/
  relations : t'.relations = t.relations
  /-- No row moves, and new ones are made for the identities of the batch alone. -/
  ids : t'.ids = t.ids ++ newcomers t.ids (batch.map Node.id)
  distinct : t'.ids.Nodup
  /-- All other rows stay as they were. -/
  others : ∀ n, n.id ∉ batch.map Node.id → (n ∈ t'.nodes ↔ n ∈ t.nodes)
  /-- Each row of the batch is overwritten by all its nodes, from the row that was there or from a
  bare one. -/
  written : ∀ id ∈ batch.map Node.id, t'.node? id =
    some ((batch.filter fun node => node.id = id).foldl (NodeRow.overwrite now)
      ((t.node? id).getD (.bare now id)))

/-- A batch of relations leads from some tables to others. -/
structure Connects (now : String) (batch : List Relation) (t t' : GraphTables) : Prop where
  /-- All nodes stay as they were, and ends that are missing get bare rows. -/
  nodes : t'.nodes =
    t.nodes ++ (newcomers t.ids (batch.flatMap Relation.ends)).map (NodeRow.bare now)
  /-- No relation moves, and there is one more for each key that is new. -/
  keys : t'.keys = t.keys ++ newcomers t.keys (batch.map Relation.key)
  distinct : t'.keys.Nodup
  /-- New relations get the next numbers. -/
  numbers : t'.relations.rows.map RelationRow.id = t.relations.rows.map RelationRow.id ++
    List.range' t.relations.nextId (newcomers t.keys (batch.map Relation.key)).length
  /-- All other relations stay as they were. -/
  others : ∀ x, x.key ∉ batch.map Relation.key → (x ∈ t'.relations.rows ↔ x ∈ t.relations.rows)
  /-- Those that were there take over the properties of the last relation of their key. -/
  written : ∀ x ∈ t.relations.rows, ∀ r,
    (batch.filter fun r => r.key = x.key).getLast? = some r →
      { x with properties := r.properties.encode, updatedAt := now } ∈ t'.relations.rows
  /-- Those that are new have them as well. -/
  made : ∀ x ∈ t'.relations.rows, x.key ∉ t.keys → ∃ r,
    (batch.filter fun r => r.key = x.key).getLast? = some r ∧
      x.properties = r.properties.encode ∧ x.createdAt = now ∧ x.updatedAt = now

variable {dimension : Nat} {t : GraphTables}

/-! ## Nodes -/

theorem overwriteNode_eq (now : String) (node : Node) (n : NodeRow) :
    overwriteNode now node n = n.overwrite now node := by
  rcases node with ⟨name, label, p, v⟩ | ⟨id, text, label, p, v⟩ | ⟨id, label, p, v⟩ <;>
    cases v <;> rfl

/-- **What is found under an identity after a batch of nodes**: the row that was there, or else a
bare one, overwritten by all nodes of this identity. -/
theorem node?_foldl_putNode (now : String) (batch : List Node) (t : GraphTables) (id : String) :
    (batch.foldl (putNode now) t).node? id =
      ((t.node? id).or (if id ∈ batch.map Node.id then some (.bare now id) else none)).map
        fun n => (batch.filter fun node => node.id = id).foldl (NodeRow.overwrite now) n := by
  have hwrite : ∀ n : NodeRow, putAll (NodeRow.put now) batch n =
      (batch.filter fun node => node.id = n.id).foldl (NodeRow.overwrite now) n := by
    intro n
    have hkey : ∀ node n, (overwriteNode now node n).id = n.id := NodeRow.id_write
    rw [put_eq_putAt, putAll_putAt hkey, putAll]
    simp only [overwriteNode_eq]
  have hid : ∀ n, (putAll (NodeRow.put now) batch n).id = n.id := key_putAll (id_put now) batch
  rw [← node?_foldl_addRow, foldl_putNode, foldl_putRow, node?, List.find?_map]
  simp only [Function.comp_def, hid]
  refine Option.map_congr fun n hn => ?_
  have hfound : n.id = id := by simpa using List.find?_some hn
  rw [hwrite, hfound]

/-- **Writing nodes overwrites** the rows of the batch and nothing else. -/
theorem WellFormed.overwrites_foldl (h : t.WellFormed dimension) (now : String)
    (batch : List Node) (h' : (batch.foldl (putNode now) t).WellFormed dimension) :
    Overwrites now batch t (batch.foldl (putNode now) t) where
  relations := by rw [foldl_putNode]
  ids := by rw [foldl_putNode, ids, ids_foldl_putRow, foldl_addNew, ids]
  distinct := h'.ids_nodup
  others n hn := by
    have hsame : (batch.foldl (putNode now) t).node? n.id = t.node? n.id := by
      have hnone : (batch.filter fun node => node.id = n.id) = [] :=
        List.filter_eq_nil_iff.2 fun node hnode heq =>
          hn (List.mem_map.2 ⟨node, hnode, by simpa using heq⟩)
      rw [node?_foldl_putNode, if_neg hn, Option.or_none, hnone]
      exact Option.map_id'
    have hthere : ∀ {t : GraphTables}, t.WellFormed dimension →
        (n ∈ t.nodes ↔ t.node? n.id = some n) :=
      fun h => ⟨fun hn => h.node?_eq_some.2 ⟨hn, rfl⟩, fun hn => (h.node?_eq_some.1 hn).1⟩
    rw [hthere h', hthere h, hsame]
  written id hid := by
    rw [node?_foldl_putNode, if_pos hid]
    cases t.node? id <;> rfl

/-! ## Relations -/

theorem foldl_addRelation (now : String) (batch : List Relation) (relations : Table RelationRow) :
    ∃ added, (batch.foldl (addRelation now) relations).rows = relations.rows ++ added ∧
      added.map RelationRow.key =
        newcomers (relations.rows.map RelationRow.key) (batch.map Relation.key) ∧
      added.map RelationRow.id = List.range' relations.nextId added.length ∧
      (batch.foldl (addRelation now) relations).lastId = relations.lastId + added.length ∧
      ∀ x ∈ added, x.createdAt = now := by
  induction batch using List.reverseRecOn with
  | nil => exact ⟨[], (List.append_nil _).symm, rfl, rfl, rfl, nofun⟩
  | append_singleton batch r ih =>
    obtain ⟨added, hrows, hkeys, hids, hlast, htimes⟩ := ih
    rw [List.foldl_append, List.foldl_cons, List.foldl_nil, List.map_append, List.map_singleton,
      newcomers_append_singleton, ← hkeys, addRelation, hrows, List.map_append]
    split_ifs with hkey
    · exact ⟨added, hrows, (List.append_nil _).symm, hids, hlast, htimes⟩
    · refine ⟨added ++ [newRelation now r (relations.nextId + added.length)], ?_, ?_, ?_, ?_, ?_⟩
      · rw [Table.rows_append, hrows, List.append_assoc, Table.nextId, hlast, Table.nextId,
          Nat.add_right_comm]
      · rw [List.map_append]
        rfl
      · rw [List.map_append, hids, List.length_append, List.length_singleton, List.range'_concat,
          Nat.one_mul]
        rfl
      · rw [Table.lastId_append, hlast, List.length_append, List.length_singleton, Nat.add_assoc]
      · rintro x hx
        rcases List.mem_append.1 hx with hx | hx
        · exact htimes x hx
        · rw [List.mem_singleton.1 hx]
          rfl

/-- **A relation after a batch**: only the last relation of its key counts. -/
theorem putAll_putRelation (now : String) (batch : List Relation) (x : RelationRow) :
    putAll (RelationRow.put now) batch x =
      (batch.filter fun r => r.key = x.key).getLast?.elim x fun r => overwriteRelation now r x := by
  have hkey : ∀ r x, (overwriteRelation now r x).key = x.key := fun _ _ => rfl
  have hlast : ∀ (items : List Relation) (r : Relation) (x : RelationRow),
      overwriteRelation now r (putAll (overwriteRelation now) items x) =
        overwriteRelation now r x := by
    intro items r
    induction items with
    | nil => exact fun _ => rfl
    | cons i rest ih => exact fun x => ih (overwriteRelation now i x)
  rw [putRelationRow_eq_putAt, putAll_putAt hkey]
  rcases (batch.filter fun r => r.key = x.key).eq_nil_or_concat with hnil | ⟨items, r, hitems⟩
  · rw [hnil]
    rfl
  · rw [hitems, List.concat_eq_append, List.getLast?_concat, putAll_append]
    exact hlast items r x

/-- A relation that is not in the batch stays as it is. -/
theorem putAll_putRelation_of_notMem {now : String} {batch : List Relation} {x : RelationRow}
    (hx : x.key ∉ batch.map Relation.key) : putAll (RelationRow.put now) batch x = x := by
  have hnone : (batch.filter fun r => r.key = x.key) = [] :=
    List.filter_eq_nil_iff.2 fun r hr heq =>
      hx (List.mem_map.2 ⟨r, hr, of_decide_eq_true heq⟩)
  rw [putAll_putRelation, hnone]
  rfl

/-- **Writing relations connects** the rows of the batch and changes nothing else. -/
theorem WellFormed.connects_foldl (now : String) (batch : List Relation)
    (h' : (batch.foldl (link now) t).WellFormed dimension) :
    Connects now batch t (batch.foldl (link now) t) := by
  obtain ⟨added, hrows, hkeys, hids, -, htimes⟩ := foldl_addRelation now batch t.relations
  have hput : (batch.foldl (link now) t).relations.rows =
      (t.relations.rows ++ added).map (putAll (RelationRow.put now) batch) := by
    rw [foldl_link, foldl_putRelation, Table.rows_mapRows, hrows]
  have hkey : ∀ x, (putAll (RelationRow.put now) batch x).key = x.key :=
    key_putAll (key_put now) batch
  have hid : ∀ x, (putAll (RelationRow.put now) batch x).id = x.id := by
    refine key_putAll (fun r x => ?_) batch
    rw [RelationRow.put]
    split_ifs <;> rfl
  -- the key of a new relation comes from the batch
  have hadded : ∀ x ∈ added, x.key ∈ batch.map Relation.key ∧ x.key ∉ t.keys := by
    intro x hx
    have hmem := List.mem_map_of_mem (f := RelationRow.key) hx
    rwa [hkeys, mem_newcomers] at hmem
  constructor
  case nodes =>
    rw [foldl_link]
    exact foldl_addRow now _ t.nodes
  case keys =>
    rw [keys, hput, List.map_map, keys, ← hkeys, ← List.map_append]
    exact List.map_congr_left fun x _ => hkey x
  case distinct => exact h'.keys_nodup
  case numbers =>
    rw [hput, List.map_map, keys, ← hkeys, List.length_map, ← hids, ← List.map_append]
    exact List.map_congr_left fun x _ => hid x
  case others =>
    intro x hx
    rw [hput, List.mem_map]
    constructor
    · rintro ⟨y, hy, rfl⟩
      rw [hkey] at hx
      rw [putAll_putRelation_of_notMem hx]
      exact (List.mem_append.1 hy).resolve_right fun hy => hx (hadded y hy).1
    · exact fun hmem => ⟨x, List.mem_append_left _ hmem, putAll_putRelation_of_notMem hx⟩
  case written =>
    intro x hx r hr
    rw [hput, List.mem_map]
    refine ⟨x, List.mem_append_left _ hx, ?_⟩
    rw [putAll_putRelation, hr]
    rfl
  case made =>
    intro x hx hnew
    rw [hput, List.mem_map] at hx
    obtain ⟨y, hy, rfl⟩ := hx
    rw [hkey] at hnew ⊢
    have hy : y ∈ added :=
      (List.mem_append.1 hy).resolve_left fun hy => hnew (List.mem_map_of_mem hy)
    obtain ⟨r, hr, hrkey⟩ := List.mem_map.1 (hadded y hy).1
    have hne : (batch.filter fun r => r.key = y.key) ≠ [] :=
      List.ne_nil_of_mem (List.mem_filter.2 ⟨hr, decide_eq_true hrkey⟩)
    have hlast := List.getLast?_eq_some_getLast hne
    rw [putAll_putRelation, hlast]
    exact ⟨_, rfl, rfl, htimes y hy, rfl⟩

end GraphTables

namespace PropertyStore

variable {store : PropertyStore} {s : Site} {t : GraphTables}

/-- A batch is put into the tables with a certain effect.  Only a connection that may not write
keeps it out, unless there is nothing in it, and then the tables stay as they are. -/
def Puts {ι : Type} (store : PropertyStore) (s : Site) (t : GraphTables) (call : Access Unit)
    (batch : List ι) (Effect : GraphTables → Prop) : Prop :=
  ∃ r s' t', call.run s = (r, s') ∧ store.IsOpen s' t' ∧
    ((r = .ok () ∧ Effect t') ∨
      ∃ f, s.engine.locator.refusal = some f ∧ batch ≠ [] ∧ r = .error (.storage f) ∧ t' = t)

/-- What is loaded is put into the tables. -/
theorem Loads.puts {ι : Type} {call : String → List ι → Access Unit}
    {answer : Refusal → List ι → Except Error Unit} {put : String → GraphTables → ι → GraphTables}
    (h : store.Loads call answer put) (hopen : store.IsOpen s t)
    (hwf : t.WellFormed store.schema.dimension) (now : String) {batch : List ι}
    (hanswer : ∀ r, answer r batch = answerUnder r batch) {Effect : GraphTables → Prop}
    (heffect : (batch.foldl (put now) t).WellFormed store.schema.dimension →
      Effect (batch.foldl (put now) t)) :
    store.Puts s t (call now batch) batch Effect := by
  obtain ⟨s', t', hrun, -, hopen', hwf', ht'⟩ := h.run now batch hopen hwf
  rw [hanswer] at hrun ht'
  have hok : answerUnder s.engine.locator.refusal batch = .ok () →
      store.Puts s t (call now batch) batch Effect := by
    intro hok
    rw [hok] at hrun ht'
    exact ⟨_, s', t', hrun, hopen', .inl ⟨rfl, ht' ▸ heffect (ht' ▸ hwf')⟩⟩
  cases hrefusal : s.engine.locator.refusal with
  | none => exact hok (hrefusal ▸ rfl)
  | some f =>
    cases batch with
    | nil => exact hok (hrefusal ▸ rfl)
    | cons i rest =>
      rw [hrefusal] at hrun ht'
      exact ⟨_, s', t', hrun, hopen', .inr ⟨f, hrefusal, List.cons_ne_nil i rest, rfl, ht'⟩⟩

/-- **A batch changes the rows that it names**, column by column, and no others, in every state that
a run leads to. -/
theorem overwrites_of_reaches (h : store.Reaches s t) (now : String) :
    (∀ nodes : List Node, (∀ node ∈ nodes, store.schema.Fits node) →
      store.Puts s t (store.upsertNodes now nodes) nodes (t.Overwrites now nodes)) ∧
    ∀ relations : List Relation,
      store.Puts s t (store.upsertRelations now relations) relations (t.Connects now relations) := by
  obtain ⟨hopen, hwf⟩ := h.isOpen
  constructor
  · intro nodes hfits
    exact (loads_nodes store).puts hopen hwf now (nodesAnswer_of_fits hfits)
      fun hwf' => hwf.overwrites_foldl now nodes hwf'
  · intro relations
    exact (loads_relations store).puts hopen hwf now (fun _ => rfl)
      fun hwf' => hwf'.connects_foldl now relations

/-- An entity becomes a chunk and then another node, and keeps its name and the text; of a loop that
is written twice the second one counts. -/
theorem overwrites_trail : ∃ s s₁ s₂ t₁ t₂, PropertyStore.Reaches ⟨{}⟩ s trailTables ∧
    (PropertyStore.upsertNodes ⟨{}⟩ "1" [.chunk "A" "text" { label := "y" },
      .other "A" { label := "z" }]).run s = (.ok (), s₁) ∧
    PropertyStore.IsOpen ⟨{}⟩ s₁ t₁ ∧ t₁.relations = trailTables.relations ∧
    t₁.node? "A" = some { NodeRow.bare "now" "A" with
      name := some "A", text := some "text", label := "z", updatedAt := "1" } ∧
    (PropertyStore.upsertRelations ⟨{}⟩ "2" [⟨"r", "D", "D", .empty⟩,
      ⟨"r", "D", "D", .ofList [("k", .int 1)]⟩]).run s = (.ok (), s₂) ∧
    PropertyStore.IsOpen ⟨{}⟩ s₂ t₂ ∧ t₂.nodes = trailTables.nodes ++ [.bare "2" "D"] ∧
    t₂.relations.rows.map RelationRow.id = [1, 2, 3] := by
  obtain ⟨s, h, hwrite⟩ := exists_reaches_trailTables
  obtain ⟨hnodes, -⟩ := overwrites_of_reaches h "1"
  obtain ⟨-, hrelations⟩ := overwrites_of_reaches h "2"
  obtain ⟨r₁, s₁, t₁, hrun₁, hopen₁, ⟨rfl, hover⟩ | ⟨f, hf, -⟩⟩ :=
    hnodes [.chunk "A" "text" { label := "y" }, .other "A" { label := "z" }]
      (by simp [PropertySchema.Fits, Node.embedding, Node.body])
  · obtain ⟨r₂, s₂, t₂, hrun₂, hopen₂, ⟨rfl, hconn⟩ | ⟨f, hf, -⟩⟩ :=
      hrelations [⟨"r", "D", "D", .empty⟩, ⟨"r", "D", "D", .ofList [("k", .int 1)]⟩]
    · refine ⟨s, s₁, s₂, t₁, t₂, h, hrun₁, hopen₁, hover.relations, ?_, hrun₂, hopen₂, ?_, ?_⟩
      · rw [hover.written "A" (by decide)]
        decide +kernel
      · rw [hconn.nodes]
        decide +kernel
      · rw [hconn.numbers]
        decide +kernel
    · cases hwrite.symm.trans hf
  · cases hwrite.symm.trans hf

end PropertyStore

end GraphBase
