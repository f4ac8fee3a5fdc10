import GraphBase.Graph.Delete
import GraphBase.Proofs.Graph.WellFormed
import GraphBase.Proofs.Storage.Sessions

/-!
# What the sessions of a property graph keep

Every statement leads from tables that follow the rules to tables that follow them again, and no
number of a relation comes back (`GraphTables.Follows`).  An operation is a sequence of
statements, so it does the same, whatever it is called with and however many statements it takes.

There is one condition: the embeddings of a batch of nodes have the dimension of the store.  A
client asks for it before it writes anything.

The statement that removes nodes fails if a relation is left that ends at one of them.  So nothing
has to be known about what an operation removes.
-/

namespace GraphBase.GraphTables

open Session (Keeps)

variable {dimension : Nat} {t₀ t : GraphTables}

theorem Follows.refl (h : t.WellFormed dimension) : t.Follows dimension t := ⟨h, .refl _⟩

theorem Follows.trans {t' : GraphTables} (h : t₀.Follows dimension t)
    (h' : t.Follows dimension t') : t₀.Follows dimension t' :=
  ⟨h'.wellFormed, h.relations.trans h'.relations⟩

/-! ## Statements -/

theorem keeps_getOrCreateRow (now id : String) :
    Keeps (t₀.Follows dimension) (getOrCreateRow now id) := by
  rw [getOrCreateRow]
  refine .get_bind fun t ht => ?_
  cases hrow : t.node? id with
  | some row => exact .pure _
  | none =>
    have hadd := ht.wellFormed.addNode (node?_eq_none.1 hrow) now
    exact .bind .write fun _ => .bind (.set ⟨hadd, ht.relations⟩) fun _ => .pure _

theorem keeps_updateNodes (now : String) {p : NodeRow → Bool} {f : NodeRow → NodeRow}
    (hid : ∀ n, (f n).id = n.id)
    (hf : ∀ n, p n = true → n.IsStored dimension → (f n).IsStored dimension) :
    Keeps (t₀.Follows dimension) (updateNodes now p f) := by
  rw [updateNodes]
  refine .bind .write fun _ => .get_bind fun t ht =>
    .bind (.set ⟨?_, ht.relations⟩) fun _ => .pure _
  refine ht.wellFormed.mapNodes (fun n => ?_) fun n hn => ?_
  · show (if p n then _ else n : NodeRow).id = n.id
    split_ifs with hp
    · exact hid n
    · rfl
  · show (if p n then _ else n : NodeRow).IsStored dimension
    split_ifs with hp
    · have hstored := hf n hp hn
      exact ⟨hstored.name, hstored.properties, hstored.embedding⟩
    · exact hn

theorem keeps_updateRelations (now : String) {p : RelationRow → Bool}
    {f : RelationRow → RelationRow} (hid : ∀ r, (f r).id = r.id) (hkey : ∀ r, (f r).key = r.key)
    (hf : ∀ r, ∃ p : Properties, (f r).properties = p.encode) :
    Keeps (t₀.Follows dimension) (updateRelations now p f) := by
  have hkept : ∀ r : RelationRow, (if p r then
      { f r with updatedAt := touched now r.updatedAt (f r).updatedAt } else r).id = r.id := by
    intro r
    split_ifs with hp
    · exact hid r
    · rfl
  rw [updateRelations]
  refine .bind .write fun _ => .get_bind fun t ht =>
    .bind (.set ⟨ht.wellFormed.mapRelations hkept (fun r => ?_) fun r hr => ?_,
      ht.relations.trans (.mapRows _ hkept)⟩) fun _ => .pure _
  · split_ifs with hp
    · exact hkey r
    · rfl
  · split_ifs with hp
    · exact hf r
    · exact hr

theorem keeps_insertRelation (now label source target : String) :
    Keeps (t₀.Follows dimension) (insertRelation now label source target) := by
  rw [insertRelation]
  refine .bind .write fun _ => .get_bind fun t ht => ?_
  split_ifs with hthere hmissing
  · exact .fault _
  · exact .fault _
  · rw [Bool.or_eq_true, Option.isNone_iff_eq_none, Option.isNone_iff_eq_none, not_or,
      node?_eq_none, node?_eq_none, not_not, not_not] at hmissing
    have hnew : t.relation? label source target = none := by simpa using hthere
    have hgrows : t.relations.Grows RelationRow.id (t.relations.append fun _ =>
        { id := t.relations.nextId, label, source, target, createdAt := now, updatedAt := now }) :=
      .append _ _ rfl
    refine .bind (.set ⟨?_, ht.relations.trans hgrows⟩) fun _ => .pure _
    exact ht.wellFormed.addRelation rfl hnew hmissing.1 hmissing.2 ⟨.empty, rfl⟩

theorem keeps_deleteRelations (p : RelationRow → Bool) :
    Keeps (t₀.Follows dimension) (deleteRelations p) := by
  rw [deleteRelations]
  refine .bind .write fun _ => .get_bind fun t ht => .bind (.set ⟨?_, ?_⟩) fun _ => .pure _
  · exact ht.wellFormed.keepRelations _
  · exact ht.relations.trans (.keep _ _)

theorem keeps_deleteRows (p : NodeRow → Bool) : Keeps (t₀.Follows dimension) (deleteRows p) := by
  rw [deleteRows]
  refine .bind .write fun _ => .get_bind fun t ht => ?_
  simp only
  split_ifs with hreferred
  · exact .fault _
  · refine .bind (.set ⟨ht.wellFormed.keepNodes fun n hn hrefers => ?_, ht.relations⟩)
      fun _ => .pure _
    rw [Bool.not_eq_true', Bool.eq_false_iff]
    intro hp
    exact hreferred (List.any_eq_true.2 ⟨n, List.mem_filter.2 ⟨hn, hp⟩, hrefers⟩)

/-! ## Writing

What the statements keep that make rows and change them is kept by every operation that writes. -/

section Writing

variable {P : GraphTables → Prop} {now : String}

theorem keeps_getOrCreateNode_of_row {id : String} (hrow : Keeps P (getOrCreateRow now id)) :
    Keeps P (getOrCreateNode now id) := by
  rw [getOrCreateNode]
  exact .bind hrow fun p => .bind (.ofRead _) fun _ => .pure _

theorem keeps_writeRelations_of_each (h : ∀ r, Keeps P (writeRelation now r))
    (relations : List Relation) : Keeps P (writeRelations now relations) := by
  induction relations with
  | nil => exact .pure _
  | cons r rest ih =>
    rw [writeRelations]
    exact .bind (h r) fun _ => ih

variable (hrow : ∀ id, Keeps P (getOrCreateRow now id))

include hrow

theorem keeps_writeNodes_of_row {nodes : List Node}
    (hupdate : ∀ node ∈ nodes,
      Keeps P (updateNodes now (fun n => n.id == node.id) (NodeRow.write node))) :
    Keeps P (writeNodes now nodes) := by
  induction nodes with
  | nil => exact .pure _
  | cons node rest ih =>
    rw [List.forall_mem_cons] at hupdate
    rw [writeNodes, writeNode]
    exact .bind (.bind (.discard (hrow node.id)) fun _ => .discard hupdate.1) fun _ =>
      ih hupdate.2

theorem keeps_writeRelation_of_row {r : Relation}
    (hinsert : Keeps P (insertRelation now r.label r.source r.target))
    (hupdate : ∀ p, Keeps P
      (updateRelations now p fun x => { x with properties := r.properties.encode })) :
    Keeps P (writeRelation now r) := by
  rw [writeRelation]
  refine .bind (.discard (keeps_getOrCreateNode_of_row (hrow r.source))) fun _ =>
    .bind (.discard (keeps_getOrCreateNode_of_row (hrow r.target))) fun _ => .get_bind fun t _ => ?_
  cases t.relation? r.label r.source r.target with
  | some row => exact .bind (.pure row) fun _ => .discard (hupdate _)
  | none => exact .bind hinsert fun _ => .discard (hupdate _)

end Writing

theorem keeps_getOrCreateNode (now id : String) :
    Keeps (t₀.Follows dimension) (getOrCreateNode now id) :=
  keeps_getOrCreateNode_of_row (keeps_getOrCreateRow now id)

theorem keeps_writeNodes (now : String) {nodes : List Node}
    (h : ∀ node ∈ nodes, ∀ x, node.embedding = some x → x.length = dimension) :
    Keeps (t₀.Follows dimension) (writeNodes now nodes) :=
  keeps_writeNodes_of_row (keeps_getOrCreateRow now) fun node hnode =>
    keeps_updateNodes now (NodeRow.id_write node) fun n hn hstored =>
      hstored.write (by simpa using hn) (h node hnode)

theorem keeps_writeRelation (now : String) (r : Relation) :
    Keeps (t₀.Follows dimension) (writeRelation now r) :=
  keeps_writeRelation_of_row (keeps_getOrCreateRow now)
    (keeps_insertRelation now r.label r.source r.target) fun _ =>
      keeps_updateRelations now (fun _ => rfl) (fun _ => rfl) fun _ => ⟨r.properties, rfl⟩

theorem keeps_writeRelations (now : String) (relations : List Relation) :
    Keeps (t₀.Follows dimension) (writeRelations now relations) :=
  keeps_writeRelations_of_each (keeps_writeRelation now) relations

/-! ## Deleting

What all parts of a deletion keep is kept by the deletion, and so is what both statements keep that
the parts are made of. -/

section Deleting

variable {P : GraphTables → Prop}

theorem keeps_delete_of_parts {s : Selection}
    (hnames : ∀ t, P t → Keeps P (deleteNodes (t.idsOfNames s.entityNames)))
    (hids : Keeps P (deleteNodes s.ids))
    (hrelations : Keeps P (deleteRelations fun r => s.relationNames.contains r.label))
    (hproperties : s.properties.isEmpty = false → Keeps P (deleteMatching s.properties))
    (hbare : ∀ ids, Keeps P (removeBare ids)) : Keeps P (delete s) := by
  rw [delete]
  refine .ite ?_ (.pure _)
  refine .get_bind fun t ht => .bind (hnames t ht) fun byName => .bind hids fun byId => ?_
  refine .ite (.bind (.pure _) fun byLabel => ?_) (.bind hrelations fun byLabel => ?_)
  all_goals
    simp only
    split_ifs with hempty
    · exact .bind (.pure _) fun byProperty => .discard (hbare _)
    · exact .bind (hproperties (Bool.eq_false_iff.2 hempty)) fun byProperty =>
        .discard (hbare _)

variable (hrelations : ∀ p, Keeps P (deleteRelations p)) (hrows : ∀ p, Keeps P (deleteRows p))

include hrelations hrows

theorem keeps_deleteNodes (ids : List String) : Keeps P (deleteNodes ids) := by
  rw [deleteNodes]
  exact .ite (.pure _) <| .bind (hrelations _) fun ends => .bind (.discard (hrows _)) fun _ =>
    .pure _

theorem keeps_deleteMatching (properties : Properties) : Keeps P (deleteMatching properties) := by
  rw [deleteMatching]
  exact .bind (.ofRead _) fun _ => .get_bind fun t _ => .bind (.ofRead _) fun rows =>
    .bind (hrelations _) fun ends => .bind (.ofRead _) fun nodes =>
    .bind (keeps_deleteNodes hrelations hrows _) fun _ => .pure _

theorem keeps_delete (s : Selection) : Keeps P (delete s) := by
  refine keeps_delete_of_parts (fun t _ => ?_) ?_ (hrelations _) (fun _ => ?_) fun ids => ?_
  · exact keeps_deleteNodes hrelations hrows _
  · exact keeps_deleteNodes hrelations hrows _
  · exact keeps_deleteMatching hrelations hrows _
  · rw [removeBare]
    exact .ite (.pure _) <| .get_bind fun t _ => hrows _

end Deleting

/-- **Deleting keeps the rules**, whatever is selected. -/
theorem follows_delete (s : Selection) : Keeps (t₀.Follows dimension) (delete s) :=
  keeps_delete keeps_deleteRelations keeps_deleteRows s

/-- Rows that are left after a deletion have been there before, in the same order. -/
theorem sublist_delete (s : Selection) :
    Keeps (fun t => t.nodes.Sublist t₀.nodes) (delete s) := by
  refine keeps_delete (fun p => ?_) (fun p => ?_) s
  · rw [deleteRelations]
    exact .bind .write fun _ => .get_bind fun t ht => .bind (.set ht) fun _ => .pure _
  · rw [deleteRows]
    refine .bind .write fun _ => .get_bind fun t ht => ?_
    simp only
    exact .ite (.fault _) (.bind (.set (List.filter_sublist.trans ht)) fun _ => .pure _)

end GraphBase.GraphTables
