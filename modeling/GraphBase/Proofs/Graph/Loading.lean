import GraphBase.Proofs.Graph.Linking
import Mathlib.Data.List.Perm.Basic

/-!
# What a batch comes to

A batch is written item by item, and later items may overwrite what earlier ones have written.  All
the same it comes to two things that can be told apart: a row is made for every item that has none,
and then every row is changed by all items, one after the other (`foldl_putRow`,
`foldl_putRelation`).  This is so because a row that is made later is of no concern to the items
before it.

From there it can be seen what does not matter.

* The clock sets the times and nothing else (`timeless_foldl_putRow`, `timeless_foldl_putRelation`).
* Whether rows are made for the ends of relations before or after nodes are written makes a
  difference to the order of the rows alone (`foldl_putRow_perm`).
* A batch that is written again finds all its rows, and changes nothing but the time of their last
  change (`lasting_foldl_putRow`, `lasting_foldl_putRelation`).  An item may find other values than
  it has written, from a later item of the same batch; but this one comes again as well
  (`putAll_putAll`).
-/

namespace GraphBase

/-! ## Changing a row -/

section Rows

variable {ρ ι : Type} {put put' : ι → ρ → ρ}

/-- A row after several items have been written to it. -/
def putAll (put : ι → ρ → ρ) (items : List ι) (x : ρ) : ρ := items.foldl (fun x i => put i x) x

theorem putAll_append (xs ys : List ι) (x : ρ) :
    putAll put (xs ++ ys) x = putAll put ys (putAll put xs x) := List.foldl_append

/-- What an item has written is of no account once it is written again, whatever is written in
between. -/
theorem put_putAll_put (hidem : ∀ i x, put i (put i x) = put i x)
    (hband : ∀ i j x, put i (put j (put i x)) = put i (put j x)) (i : ι) (items : List ι) (x : ρ) :
    put i (putAll put items (put i x)) = put i (putAll put items x) := by
  induction items using List.reverseRecOn with
  | nil => exact hidem i x
  | append_singleton items j ih =>
    rw [putAll_append, putAll_append]
    show put i (put j _) = put i (put j _)
    rw [← hband i j (putAll put items (put i x)), ih, hband]

/-- **Writing items again changes nothing**, if each item overwrites what it has written. -/
theorem putAll_putAll (hidem : ∀ i x, put i (put i x) = put i x)
    (hband : ∀ i j x, put i (put j (put i x)) = put i (put j x)) (items : List ι) (x : ρ) :
    putAll put items (putAll put items x) = putAll put items x := by
  have hone : ∀ i ∈ items, ∀ x, putAll put items (put i x) = putAll put items x := by
    intro i hi x
    obtain ⟨before, after, rfl⟩ := List.append_of_mem hi
    rw [putAll_append, putAll_append]
    show putAll put after (put i _) = putAll put after (put i _)
    rw [put_putAll_put hidem hband]
  have hsome : ∀ some : List ι, (∀ i ∈ some, i ∈ items) → ∀ x,
      putAll put items (putAll put some x) = putAll put items x := by
    intro some
    induction some with
    | nil => exact fun _ x => rfl
    | cons i rest ih =>
      intro hmem x
      rw [List.forall_mem_cons] at hmem
      exact (ih hmem.2 (put i x)).trans (hone i hmem.1 x)
  exact hsome items (fun _ hi => hi) x

theorem key_putAll {κ : Type} {key : ρ → κ} (hkey : ∀ i x, key (put i x) = key x) (items : List ι)
    (x : ρ) : key (putAll put items x) = key x := by
  induction items generalizing x with
  | nil => rfl
  | cons i rest ih => exact (ih (put i x)).trans (hkey i x)

section Keys

variable {κ : Type} [DecidableEq κ] {key : ρ → κ} {keyOf : ι → κ} {write write' : ι → ρ → ρ}

/-- Writes an item to a row if the row is the one with its key. -/
def putAt (key : ρ → κ) (keyOf : ι → κ) (write : ι → ρ → ρ) (i : ι) (x : ρ) : ρ :=
  if key x = keyOf i then write i x else x

theorem putAt_of_eq {i : ι} {x : ρ} (h : key x = keyOf i) :
    putAt key keyOf write i x = write i x := if_pos h

theorem putAt_of_ne {i : ι} {x : ρ} (h : key x ≠ keyOf i) : putAt key keyOf write i x = x :=
  if_neg h

theorem putAt_putAt (key : ρ → κ) (hkey : ∀ i x, key (write i x) = key x)
    (hidem : ∀ i x, write i (write i x) = write i x) (i : ι) (x : ρ) :
    putAt key keyOf write i (putAt key keyOf write i x) = putAt key keyOf write i x := by
  by_cases h : key x = keyOf i
  · rw [putAt_of_eq h, putAt_of_eq ((hkey i x).trans h), hidem]
  · rw [putAt_of_ne h, putAt_of_ne h]

theorem putAt_putAt_putAt (key : ρ → κ) (hkey : ∀ i x, key (write i x) = key x)
    (hidem : ∀ i x, write i (write i x) = write i x)
    (hband : ∀ i j x, write i (write j (write i x)) = write i (write j x)) (i j : ι) (x : ρ) :
    putAt key keyOf write i (putAt key keyOf write j (putAt key keyOf write i x)) =
      putAt key keyOf write i (putAt key keyOf write j x) := by
  by_cases h : key x = keyOf i
  · by_cases h' : key x = keyOf j
    · have hij : key (write j x) = keyOf i := (hkey j x).trans h
      have hji : key (write i x) = keyOf j := (hkey i x).trans h'
      rw [putAt_of_eq h, putAt_of_eq h', putAt_of_eq hji, putAt_of_eq hij,
        putAt_of_eq ((hkey j _).trans ((hkey i x).trans h)), hband]
    · have hne : key (write i x) ≠ keyOf j := by rwa [hkey]
      rw [putAt_of_ne h', putAt_of_eq h, putAt_of_ne hne, putAt_of_eq ((hkey i x).trans h), hidem]
  · rw [putAt_of_ne h]

/-- **A row is changed by the items of its key**, one after the other. -/
theorem putAll_putAt (hkey : ∀ i x, key (write i x) = key x) (items : List ι) (x : ρ) :
    putAll (putAt key keyOf write) items x =
      putAll write (items.filter fun i => keyOf i = key x) x := by
  induction items generalizing x with
  | nil => rfl
  | cons i rest ih =>
    refine (ih (putAt key keyOf write i x)).trans ?_
    by_cases h : key x = keyOf i
    · rw [putAt_of_eq h, hkey, List.filter_cons_of_pos (by simpa using h.symm)]
      rfl
    · rw [putAt_of_ne h, List.filter_cons_of_neg (by simpa using Ne.symm h)]

/-- What is left out of account may be left out first, -/
theorem erase_putAt (key : ρ → κ) (erase : ρ → ρ) (hkey : ∀ x, key (erase x) = key x)
    (hwrite : ∀ i x, erase (write i x) = write' i (erase x)) (i : ι) (x : ρ) :
    erase (putAt key keyOf write i x) = putAt key keyOf write' i (erase x) := by
  by_cases h : key x = keyOf i
  · rw [putAt_of_eq h, putAt_of_eq ((hkey x).trans h), hwrite]
  · rw [putAt_of_ne h, putAt_of_ne (show key (erase x) ≠ keyOf i by rwa [hkey])]

end Keys

/-- and this is so for many items. -/
theorem erase_putAll {erase : ρ → ρ} (h : ∀ i x, erase (put i x) = put' i (erase x))
    (items : List ι) (x : ρ) : erase (putAll put items x) = putAll put' items (erase x) :=
  (List.foldl_hom erase fun x i => (h i x).symm).symm

/-- Making a row for each item and changing the rows is the same item by item and all at once, if a
row that is made for one item is not changed by an item that had its row before. -/
theorem foldl_change_add {τ : Type} (add : τ → ι → τ) (change : (ρ → ρ) → τ → τ)
    (Has : τ → ι → Prop) (put : ι → ρ → ρ) (hid : ∀ t, change (fun x => x) t = t)
    (hcomp : ∀ f g t, change g (change f t) = change (fun x => g (f x)) t)
    (hhas : ∀ t i, Has (add t i) i) (hstays : ∀ t i j, Has t i → Has (add t j) i)
    (hcomm : ∀ t i j, Has t i → add (change (put i) t) j = change (put i) (add t j))
    (items : List ι) (t : τ) :
    items.foldl (fun t i => change (put i) (add t i)) t =
      change (putAll put items) (items.foldl add t) := by
  have hlater : ∀ (items : List ι) (t : τ) (i : ι), Has t i →
      items.foldl add (change (put i) t) = change (put i) (items.foldl add t) := by
    intro items
    induction items with
    | nil => exact fun t i _ => rfl
    | cons j rest ih =>
      intro t i hi
      rw [List.foldl_cons, List.foldl_cons, hcomm t i j hi, ih _ i (hstays t i j hi)]
  induction items generalizing t with
  | nil => exact (hid t).symm
  | cons i rest ih =>
    rw [List.foldl_cons, List.foldl_cons, ih, hlater rest _ i (hhas t i), hcomp]
    rfl

/-- Two kinds of changes to a list that may change places, up to the order of the list, may do so
many times. -/
theorem foldl_foldl_perm {κ : Type} {f : List ρ → ι → List ρ} {g : List ρ → κ → List ρ}
    (hf : ∀ {l l' : List ρ}, l.Perm l' → ∀ i, (f l i).Perm (f l' i))
    (hg : ∀ {l l' : List ρ}, l.Perm l' → ∀ k, (g l k).Perm (g l' k))
    (hswap : ∀ l i k, (g (f l i) k).Perm (f (g l k) i)) (items : List ι) (keys : List κ)
    (l : List ρ) :
    (keys.foldl g (items.foldl f l)).Perm (items.foldl f (keys.foldl g l)) := by
  have hcongr : ∀ {σ : Type} {h : List ρ → σ → List ρ},
      (∀ {l l' : List ρ}, l.Perm l' → ∀ x, (h l x).Perm (h l' x)) →
      ∀ (xs : List σ) {l l' : List ρ}, l.Perm l' → (xs.foldl h l).Perm (xs.foldl h l') := by
    intro σ h hh xs
    induction xs with
    | nil => exact fun hl => hl
    | cons x xs ih => exact fun hl => ih (hh hl x)
  have hone : ∀ (keys : List κ) (l : List ρ) (i : ι),
      (keys.foldl g (f l i)).Perm (f (keys.foldl g l) i) := by
    intro keys
    induction keys with
    | nil => exact fun l i => .refl _
    | cons k keys ih => exact fun l i => (hcongr hg keys (hswap l i k)).trans (ih (g l k) i)
  induction items generalizing l with
  | nil => exact .refl _
  | cons i items ih => exact (ih (f l i)).trans (hcongr hf items (hone keys l i))

end Rows

/-! ## Rows without their times -/

/-- A node row apart from its times. -/
def NodeRow.timeless (n : NodeRow) : NodeRow := { n with createdAt := "", updatedAt := "" }

/-- A node row apart from the time of its last change. -/
def NodeRow.lasting (n : NodeRow) : NodeRow := { n with updatedAt := "" }

/-- A relation apart from its times. -/
def RelationRow.timeless (r : RelationRow) : RelationRow := { r with createdAt := "", updatedAt := "" }

/-- A relation apart from the time of its last change. -/
def RelationRow.lasting (r : RelationRow) : RelationRow := { r with updatedAt := "" }

namespace GraphTables

/-- The tables apart from all times. -/
def timeless (t : GraphTables) : GraphTables where
  nodes := t.nodes.map NodeRow.timeless
  relations := t.relations.mapRows RelationRow.timeless

/-- The tables apart from the times of last changes. -/
def lasting (t : GraphTables) : GraphTables where
  nodes := t.nodes.map NodeRow.lasting
  relations := t.relations.mapRows RelationRow.lasting

variable {now now' : String} {rows : List NodeRow} {relations : Table RelationRow}

/-! ## Nodes -/

/-- The row after its node has been written. -/
def overwriteNode (now : String) (node : Node) (n : NodeRow) : NodeRow :=
  { n.write node with updatedAt := now }

theorem put_eq_putAt (now : String) :
    NodeRow.put now = putAt NodeRow.id Node.id (overwriteNode now) := by
  funext node n
  by_cases h : n.id = node.id
  · rw [putAt_of_eq h, NodeRow.put, if_pos (beq_iff_eq.2 h), overwriteNode]
    cases node <;> rw [NodeRow.write, touched_self]
  · rw [putAt_of_ne h, put_of_ne h]

theorem timeless_put (node : Node) (n : NodeRow) :
    (n.put now node).timeless = n.timeless.put "" node := by
  rw [put_eq_putAt, put_eq_putAt]
  exact erase_putAt NodeRow.id NodeRow.timeless (fun _ => rfl)
    (fun node n => by cases node <;> rfl) node n

theorem lasting_put (node : Node) (n : NodeRow) :
    (n.put now node).lasting = n.lasting.put "" node := by
  rw [put_eq_putAt, put_eq_putAt]
  exact erase_putAt NodeRow.id NodeRow.lasting (fun _ => rfl)
    (fun node n => by cases node <;> rfl) node n

/-- **A batch of nodes that comes again** changes no row: a node writes to the same columns each
time. -/
theorem putAll_putAll_node (now : String) (batch : List Node) (n : NodeRow) :
    putAll (NodeRow.put now) batch (putAll (NodeRow.put now) batch n) =
      putAll (NodeRow.put now) batch n := by
  have hkey : ∀ node n, (overwriteNode now node n).id = n.id := NodeRow.id_write
  have hidem : ∀ node n, overwriteNode now node (overwriteNode now node n) =
      overwriteNode now node n := fun node n => by cases node <;> rfl
  have hband : ∀ node other n, overwriteNode now node (overwriteNode now other
      (overwriteNode now node n)) = overwriteNode now node (overwriteNode now other n) :=
    fun node other n => by cases node <;> cases other <;> rfl
  rw [put_eq_putAt]
  exact putAll_putAll (putAt_putAt NodeRow.id hkey hidem)
    (putAt_putAt_putAt NodeRow.id hkey hidem hband) batch n

/-- Making a row for one node after another has been written. -/
theorem addRow_map_put {node : Node} (hnode : node.id ∈ rows.map NodeRow.id) (id : String) :
    addRow now (rows.map (NodeRow.put now' node)) id =
      (addRow now rows id).map (NodeRow.put now' node) := by
  have hids : (rows.map (NodeRow.put now' node)).map NodeRow.id = rows.map NodeRow.id := by
    rw [List.map_map]
    exact List.map_congr_left fun n _ => id_put now' node n
  rw [addRow, addRow, hids]
  split_ifs with hid
  · rfl
  · have hne : (NodeRow.bare now id).id ≠ node.id := by
      rintro rfl
      exact hid hnode
    rw [List.map_append, List.map_singleton, put_of_ne hne]

/-- **A batch of nodes** makes rows for all of them and puts all of them over each row. -/
theorem foldl_putRow (now : String) (batch : List Node) (rows : List NodeRow) :
    batch.foldl (putRow now) rows =
      ((batch.map Node.id).foldl (addRow now) rows).map (putAll (NodeRow.put now) batch) := by
  rw [List.foldl_map]
  refine foldl_change_add (fun rows node => addRow now rows node.id) List.map
    (fun rows node => node.id ∈ rows.map NodeRow.id) (NodeRow.put now) List.map_id'
    (fun f g rows => List.map_map) (fun rows node => ?_) (fun rows node other h => ?_)
    (fun rows node other h => addRow_map_put h other.id) batch rows
  · rw [ids_addRow, mem_addNew]
    exact .inr rfl
  · rw [ids_addRow, mem_addNew]
    exact .inl h

/-- Where all have rows, no new ones are made. -/
theorem foldl_addRow_of_mem {ids : List String} (h : ∀ id ∈ ids, id ∈ rows.map NodeRow.id) :
    ids.foldl (addRow now) rows = rows := by
  induction ids with
  | nil => rfl
  | cons id rest ih =>
    rw [List.forall_mem_cons] at h
    rw [List.foldl_cons, addRow, if_pos h.1, ih h.2]

/-- **Nodes that are written again** change nothing but the time of the last change. -/
theorem lasting_foldl_putRow (now now' : String) (batch : List Node) (rows : List NodeRow) :
    (batch.foldl (putRow now') (batch.foldl (putRow now) rows)).map NodeRow.lasting =
      (batch.foldl (putRow now) rows).map NodeRow.lasting := by
  have hthere : ∀ id ∈ batch.map Node.id,
      id ∈ (batch.foldl (putRow now) rows).map NodeRow.id := by
    intro id hid
    rw [ids_foldl_putRow, mem_foldl_addNew]
    exact .inr hid
  rw [foldl_putRow now' batch (batch.foldl (putRow now) rows), foldl_addRow_of_mem hthere,
    foldl_putRow, List.map_map, List.map_map, List.map_map]
  refine List.map_congr_left fun n _ => ?_
  show (putAll _ batch (putAll _ batch n)).lasting = (putAll _ batch n).lasting
  rw [erase_putAll lasting_put, erase_putAll lasting_put, putAll_putAll_node]

theorem timeless_addRow (now id : String) (rows : List NodeRow) :
    (addRow now rows id).map NodeRow.timeless = addRow "" (rows.map NodeRow.timeless) id := by
  have hids : (rows.map NodeRow.timeless).map NodeRow.id = rows.map NodeRow.id := by
    rw [List.map_map]
    rfl
  rw [addRow, addRow, hids]
  split_ifs
  · rfl
  · rw [List.map_append]
    rfl

theorem timeless_putRow (now : String) (rows : List NodeRow) (node : Node) :
    (putRow now rows node).map NodeRow.timeless = putRow "" (rows.map NodeRow.timeless) node := by
  rw [putRow, putRow, ← timeless_addRow now, List.map_map, List.map_map]
  exact List.map_congr_left fun n _ => timeless_put node n

/-- The clock sets the times of nodes and nothing else. -/
theorem timeless_foldl_putRow (now : String) (batch : List Node) (rows : List NodeRow) :
    (batch.foldl (putRow now) rows).map NodeRow.timeless =
      batch.foldl (putRow "") (rows.map NodeRow.timeless) :=
  (List.foldl_hom _ fun rows node => (timeless_putRow now rows node).symm).symm

theorem timeless_foldl_addRow (now : String) (ids : List String) (rows : List NodeRow) :
    (ids.foldl (addRow now) rows).map NodeRow.timeless =
      ids.foldl (addRow "") (rows.map NodeRow.timeless) :=
  (List.foldl_hom _ fun rows id => (timeless_addRow now id rows).symm).symm

/-! ## The order of the rows -/

theorem addRow_perm {rows' : List NodeRow} (h : rows.Perm rows') (now id : String) :
    (addRow now rows id).Perm (addRow now rows' id) := by
  have hids : id ∈ rows.map NodeRow.id ↔ id ∈ rows'.map NodeRow.id := (h.map _).mem_iff
  rw [addRow, addRow]
  split_ifs with hmem hmem' hmem'
  · exact h
  · exact absurd (hids.1 hmem) hmem'
  · exact absurd (hids.2 hmem') hmem
  · exact h.append_right _

/-- In which order rows are made shows in the order of the rows alone. -/
theorem addRow_addRow_perm (now a b : String) (rows : List NodeRow) :
    (addRow now (addRow now rows a) b).Perm (addRow now (addRow now rows b) a) := by
  let new (id : String) : List NodeRow :=
    if id ∈ rows.map NodeRow.id then [] else [NodeRow.bare now id]
  have hadd : ∀ id, addRow now rows id = rows ++ new id := by
    intro id
    show _ = rows ++ if _ then _ else _
    rw [addRow]
    split_ifs
    · rw [List.append_nil]
    · rfl
  have hboth : ∀ x y, x ≠ y → addRow now (addRow now rows x) y = rows ++ (new x ++ new y) := by
    intro x y hne
    have hmem : y ∈ (addRow now rows x).map NodeRow.id ↔ y ∈ rows.map NodeRow.id := by
      rw [ids_addRow, mem_addNew, or_iff_left hne.symm]
    rw [← List.append_assoc, ← hadd]
    show _ = _ ++ if _ then _ else _
    rw [addRow.eq_def now (addRow now rows x)]
    simp only [hmem]
    split_ifs
    · rw [List.append_nil]
    · rfl
  by_cases hab : a = b
  · rw [hab]
  · rw [hboth a b hab, hboth b a (Ne.symm hab)]
    exact List.perm_append_comm.append_left rows

/-- **Whether nodes are written or rows are made first** shows in the order of the rows alone. -/
theorem foldl_putRow_perm (now : String) (batch : List Node) (ids : List String)
    (rows : List NodeRow) :
    (ids.foldl (addRow now) (batch.foldl (putRow now) rows)).Perm
      (batch.foldl (putRow now) (ids.foldl (addRow now) rows)) := by
  refine foldl_foldl_perm (fun h node => (addRow_perm h now node.id).map _)
    (fun h id => addRow_perm h now id) (fun rows node id => ?_) batch ids rows
  have hnode : node.id ∈ (addRow now rows node.id).map NodeRow.id := by
    rw [ids_addRow, mem_addNew]
    exact .inr rfl
  rw [putRow, putRow, addRow_map_put hnode]
  exact (addRow_addRow_perm now node.id id rows).map _

/-! ## Relations -/

/-- The row after its relation has been written. -/
def overwriteRelation (now : String) (r : Relation) (x : RelationRow) : RelationRow :=
  { x with properties := r.properties.encode, updatedAt := now }

theorem putRelationRow_eq_putAt (now : String) :
    RelationRow.put now = putAt RelationRow.key Relation.key (overwriteRelation now) := rfl

theorem timeless_putRelationRow (r : Relation) (x : RelationRow) :
    (x.put now r).timeless = x.timeless.put "" r := by
  rw [putRelationRow_eq_putAt, putRelationRow_eq_putAt]
  have hwrite : ∀ r x, (overwriteRelation now r x).timeless = overwriteRelation "" r x.timeless :=
    fun _ _ => rfl
  exact erase_putAt RelationRow.key RelationRow.timeless (fun _ => rfl) hwrite r x

theorem lasting_putRelationRow (r : Relation) (x : RelationRow) :
    (x.put now r).lasting = x.lasting.put "" r := by
  rw [putRelationRow_eq_putAt, putRelationRow_eq_putAt]
  have hwrite : ∀ r x, (overwriteRelation now r x).lasting = overwriteRelation "" r x.lasting :=
    fun _ _ => rfl
  exact erase_putAt RelationRow.key RelationRow.lasting (fun _ => rfl) hwrite r x

/-- **A batch of relations that comes again** changes no row. -/
theorem putAll_putAll_relation (now : String) (batch : List Relation) (x : RelationRow) :
    putAll (RelationRow.put now) batch (putAll (RelationRow.put now) batch x) =
      putAll (RelationRow.put now) batch x := by
  have hkey : ∀ r x, (overwriteRelation now r x).key = x.key := fun _ _ => rfl
  have hidem : ∀ r x, overwriteRelation now r (overwriteRelation now r x) =
      overwriteRelation now r x := fun _ _ => rfl
  have hband : ∀ r other x, overwriteRelation now r (overwriteRelation now other
      (overwriteRelation now r x)) = overwriteRelation now r (overwriteRelation now other x) :=
    fun _ _ _ => rfl
  rw [putRelationRow_eq_putAt]
  exact putAll_putAll (putAt_putAt RelationRow.key hkey hidem)
    (putAt_putAt_putAt RelationRow.key hkey hidem hband) batch x

/-- Making a relation after another one has been written. -/
theorem addRelation_mapRows_put {r : Relation}
    (hr : r.key ∈ relations.rows.map RelationRow.key) (other : Relation) :
    addRelation now (relations.mapRows (RelationRow.put now' r)) other =
      (addRelation now relations other).mapRows (RelationRow.put now' r) := by
  have hkeys : (relations.mapRows (RelationRow.put now' r)).rows.map RelationRow.key =
      relations.rows.map RelationRow.key := by
    rw [Table.rows_mapRows, List.map_map]
    exact List.map_congr_left fun x _ => key_put now' r x
  rw [addRelation, addRelation, hkeys]
  split_ifs with hkey
  · rfl
  · have hsame : (newRelation now other relations.nextId).put now' r =
        newRelation now other relations.nextId := by
      refine if_neg fun heq => hkey ?_
      rwa [show other.key = r.key from heq]
    rw [Table.append, Table.append, Table.mapRows, Table.mapRows, List.map_append,
      List.map_singleton, hsame]
    rfl

/-- **A batch of relations** makes all of them and puts all of them over each row. -/
theorem foldl_putRelation (now : String) (batch : List Relation) (relations : Table RelationRow) :
    batch.foldl (putRelation now) relations =
      (batch.foldl (addRelation now) relations).mapRows (putAll (RelationRow.put now) batch) := by
  refine foldl_change_add (addRelation now) (fun f relations => relations.mapRows f)
    (fun relations r => r.key ∈ relations.rows.map RelationRow.key) (RelationRow.put now)
    (fun relations => ?_) (fun f g relations => ?_) (fun relations r => ?_)
    (fun relations r other h => ?_) (fun relations r other h => addRelation_mapRows_put h other)
    batch relations
  · rw [Table.mapRows, List.map_id']
  · rw [Table.mapRows, Table.mapRows, Table.mapRows, List.map_map]
    rfl
  · exact mem_keys_addRelation.2 (.inr rfl)
  · exact mem_keys_addRelation.2 (.inl h)

/-- Relations that are all there are not made. -/
theorem foldl_addRelation_of_mem {batch : List Relation}
    (h : ∀ r ∈ batch, r.key ∈ relations.rows.map RelationRow.key) :
    batch.foldl (addRelation now) relations = relations := by
  induction batch with
  | nil => rfl
  | cons r rest ih =>
    rw [List.forall_mem_cons] at h
    rw [List.foldl_cons, addRelation, if_pos h.1, ih h.2]

/-- **Relations that are written again** change nothing but the time of the last change. -/
theorem lasting_foldl_putRelation (now now' : String) (batch : List Relation)
    (relations : Table RelationRow) :
    (batch.foldl (putRelation now') (batch.foldl (putRelation now) relations)).mapRows
        RelationRow.lasting =
      (batch.foldl (putRelation now) relations).mapRows RelationRow.lasting := by
  have hthere : ∀ r ∈ batch,
      r.key ∈ (batch.foldl (putRelation now) relations).rows.map RelationRow.key :=
    fun r hr => mem_keys_foldl_putRelation.2 (.inr (List.mem_map_of_mem hr))
  rw [foldl_putRelation now' batch (batch.foldl (putRelation now) relations),
    foldl_addRelation_of_mem hthere, foldl_putRelation]
  simp only [Table.mapRows, List.map_map]
  refine congrArg (fun rows => Table.mk rows _) (List.map_congr_left fun x _ => ?_)
  show (putAll _ batch (putAll _ batch x)).lasting = (putAll _ batch x).lasting
  rw [erase_putAll lasting_putRelationRow, erase_putAll lasting_putRelationRow,
    putAll_putAll_relation]

theorem timeless_putRelation (now : String) (relations : Table RelationRow) (r : Relation) :
    (putRelation now relations r).mapRows RelationRow.timeless =
      putRelation "" (relations.mapRows RelationRow.timeless) r := by
  have hkeys : (relations.mapRows RelationRow.timeless).rows.map RelationRow.key =
      relations.rows.map RelationRow.key := by
    rw [Table.rows_mapRows, List.map_map]
    rfl
  have hadd : (addRelation now relations r).mapRows RelationRow.timeless =
      addRelation "" (relations.mapRows RelationRow.timeless) r := by
    rw [addRelation, addRelation, hkeys]
    split_ifs
    · rfl
    · rw [Table.append, Table.mapRows, List.map_append]
      rfl
  rw [putRelation, putRelation, ← hadd]
  simp only [Table.mapRows, List.map_map]
  exact congrArg (fun rows => Table.mk rows _)
    (List.map_congr_left fun x _ => timeless_putRelationRow r x)

/-- The clock sets the times of relations and nothing else. -/
theorem timeless_foldl_putRelation (now : String) (batch : List Relation)
    (relations : Table RelationRow) :
    (batch.foldl (putRelation now) relations).mapRows RelationRow.timeless =
      batch.foldl (putRelation "") (relations.mapRows RelationRow.timeless) :=
  (List.foldl_hom (fun relations : Table RelationRow => relations.mapRows RelationRow.timeless)
    fun relations r => (timeless_putRelation now relations r).symm).symm

end GraphTables

end GraphBase
