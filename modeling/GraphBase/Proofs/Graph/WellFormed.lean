import GraphBase.Graph.Store
import GraphBase.Proofs.Storage.Numbered
import GraphBase.Proofs.Value.Stored

/-!
# The rules of a property graph

The tables of a property graph store follow rules (`GraphTables.WellFormed`): no two nodes have
the same identity, no two relations agree in label and both ends, both ends of every relation are
nodes, and the numbers of the relations go up.  Every row was written by the store
(`NodeRow.IsStored`): a name is the identity, properties are the text of properties, and an
embedding has the dimension of the store.

Rows like these make sense.  Each of them reads as a node with its own identity
(`exists_node`), so reading a table never fails.

The store changes its tables in six ways: it adds a bare node, writes to nodes, adds a relation,
writes to relations, and removes relations or nodes.  One lemma for each says that it leads to
tables that follow the rules again.  A node may be removed only if no relation is left that ends
there (`WellFormed.keepNodes`).
-/

namespace GraphBase

/-- What tells relations apart. -/
def RelationRow.key (r : RelationRow) : String × String × String := (r.label, r.source, r.target)

/-- A row whose columns were written by a store of a dimension. -/
structure NodeRow.IsStored (dimension : Nat) (n : NodeRow) : Prop where
  name : ∀ name, n.name = some name → name = n.id
  properties : ∃ p : Properties, n.properties = p.encode
  embedding : ∃ v : Option Embedding, n.embedding = embeddingCell v ∧
    ∀ x, v = some x → x.length = dimension

theorem readProperties_encode (p : Properties) : readProperties p.encode = .ok p.reread := by
  rw [readProperties, p.decode?_encode]

theorem exists_readProperties {text : String} (h : ∃ p : Properties, text = p.encode) :
    ∃ q, readProperties text = .ok q := by
  obtain ⟨p, rfl⟩ := h
  exact ⟨p.reread, readProperties_encode p⟩

theorem exists_readEmbedding (v : Option Embedding) :
    ∃ x, readEmbedding (embeddingCell v) = .ok x := by
  cases v with
  | none => exact ⟨none, rfl⟩
  | some v => exact ⟨_, rfl⟩

namespace NodeRow

variable {dimension : Nat} {n : NodeRow}

theorem isStored_bare (dimension : Nat) (now id : String) : (bare now id).IsStored dimension := by
  refine ⟨fun name hname => ?_, ⟨.empty, rfl⟩, none, rfl, fun x hx => ?_⟩
  · cases hname
  · cases hx

/-- Writing a node to its row leaves nothing behind that the store has not written. -/
theorem IsStored.write (h : n.IsStored dimension) {node : Node} (hid : n.id = node.id)
    (hnode : ∀ x, node.embedding = some x → x.length = dimension) :
    (n.write node).IsStored dimension := by
  have hproperties : ∃ p : Properties, node.properties.encode = p.encode := ⟨_, rfl⟩
  have hembedding : ∃ v : Option Embedding, embeddingCell node.embedding = embeddingCell v ∧
      ∀ x, v = some x → x.length = dimension := ⟨_, rfl, hnode⟩
  cases node with
  | entity name body =>
    refine ⟨fun x hx => ?_, hproperties, hembedding⟩
    obtain rfl := Option.some.inj hx
    exact hid.symm
  | chunk id text body => exact ⟨h.name, hproperties, hembedding⟩
  | other id body => exact ⟨h.name, hproperties, hembedding⟩

@[simp] theorem id_write (node : Node) (n : NodeRow) : (n.write node).id = n.id := by
  cases node <;> rfl

namespace IsStored

variable (h : n.IsStored dimension)

include h

/-- **A row that was stored makes sense.** -/
theorem exists_record : ∃ rec, n.record = .ok rec ∧ rec.id = n.id ∧ rec.name = n.name := by
  obtain ⟨p, hp⟩ := exists_readProperties h.properties
  obtain ⟨v, hv, -⟩ := h.embedding
  obtain ⟨x, hx⟩ := exists_readEmbedding v
  refine ⟨{ n with properties := p, embedding := x }, ?_, rfl, rfl⟩
  rw [record, hp, hv, hx]
  rfl

/-- **A row that was stored reads as a node** with the identity of the row. -/
theorem exists_node : ∃ rec, n.record = .ok rec ∧ rec.id = n.id ∧ rec.node.id = n.id := by
  obtain ⟨rec, hrec, hid, hname⟩ := h.exists_record
  refine ⟨rec, hrec, hid, ?_⟩
  rw [NodeRecord.node]
  split
  · exact hid
  · show rec.name.getD rec.id = n.id
    cases hsome : n.name with
    | none => rw [hname, hsome, hid, Option.getD_none]
    | some name => rw [hname, hsome, Option.getD_some, h.name name hsome]

end IsStored

end NodeRow

namespace GraphTables

/-- The identities of the nodes, in the order of their rows. -/
def ids (t : GraphTables) : List String := t.nodes.map NodeRow.id

/-- The tables follow their rules. -/
structure WellFormed (dimension : Nat) (t : GraphTables) : Prop where
  ids_nodup : t.ids.Nodup
  nodes : ∀ n ∈ t.nodes, n.IsStored dimension
  relations : t.relations.Numbered RelationRow.id
  keys_nodup : (t.relations.rows.map RelationRow.key).Nodup
  ends : ∀ r ∈ t.relations.rows, r.source ∈ t.ids ∧ r.target ∈ t.ids
  properties : ∀ r ∈ t.relations.rows, ∃ p : Properties, r.properties = p.encode

/-- What the database itself sees to, whoever writes to the tables: no two nodes have the same
identity, and no two relations the same number, or the same label and ends. -/
structure IsConstrained (t : GraphTables) : Prop where
  ids_nodup : t.ids.Nodup
  relations : t.relations.Numbered RelationRow.id
  keys_nodup : (t.relations.rows.map RelationRow.key).Nodup

theorem WellFormed.isConstrained {dimension : Nat} {t : GraphTables} (h : t.WellFormed dimension) :
    t.IsConstrained := ⟨h.ids_nodup, h.relations, h.keys_nodup⟩

/-- Tables that come after others: they follow their rules, and no number of a relation has come
back. -/
structure Follows (dimension : Nat) (earlier later : GraphTables) : Prop where
  wellFormed : later.WellFormed dimension
  relations : earlier.relations.Grows RelationRow.id later.relations

variable {dimension : Nat} {t : GraphTables} {id : String}

theorem node?_eq_none : t.node? id = none ↔ id ∉ t.ids := find?_key_eq_none

theorem relation?_eq_none {label source target : String}
    (h : t.relation? label source target = none) :
    (label, source, target) ∉ t.relations.rows.map RelationRow.key := by
  rw [List.mem_map]
  rintro ⟨r, hr, hkey⟩
  obtain ⟨rfl, hends⟩ := Prod.mk.inj hkey
  obtain ⟨rfl, rfl⟩ := Prod.mk.inj hends
  have hne := List.find?_eq_none.1 h r hr
  simp at hne

namespace WellFormed

theorem empty (h : t.nodes = []) (hrelations : t.relations.rows = []) :
    t.WellFormed dimension := by
  have hnodes : ∀ n, n ∉ t.nodes := by
    rw [h]
    exact fun n => List.not_mem_nil
  have hrows : ∀ r, r ∉ t.relations.rows := by
    rw [hrelations]
    exact fun r => List.not_mem_nil
  refine ⟨?_, fun n hn => absurd hn (hnodes n), .of_rows_eq_nil hrelations, ?_,
    fun r hr => absurd hr (hrows r), fun r hr => absurd hr (hrows r)⟩
  · rw [ids, h]
    exact .nil
  · rw [hrelations]
    exact .nil

variable (h : t.WellFormed dimension)

include h

theorem node?_eq_some {n : NodeRow} : t.node? id = some n ↔ n ∈ t.nodes ∧ n.id = id :=
  find?_key_eq_some h.ids_nodup

/-! ## The ways to change the tables -/

theorem addNode (hid : id ∉ t.ids) (now : String) :
    WellFormed dimension { t with nodes := t.nodes ++ [NodeRow.bare now id] } := by
  have hids : (t.nodes ++ [NodeRow.bare now id]).map NodeRow.id = t.ids ++ [id] :=
    List.map_append
  refine ⟨?_, fun n hn => ?_, h.relations, h.keys_nodup, fun r hr => ?_, h.properties⟩
  · rw [ids, hids, ← List.concat_eq_append]
    exact h.ids_nodup.concat hid
  · rcases List.mem_append.1 hn with hn | hn
    · exact h.nodes n hn
    · rw [List.mem_singleton.1 hn]
      exact NodeRow.isStored_bare dimension now id
  · obtain ⟨hsource, htarget⟩ := h.ends r hr
    rw [ids, hids]
    exact ⟨List.mem_append_left _ hsource, List.mem_append_left _ htarget⟩

theorem mapNodes {f : NodeRow → NodeRow} (hid : ∀ n, (f n).id = n.id)
    (hf : ∀ n, n.IsStored dimension → (f n).IsStored dimension) :
    WellFormed dimension { t with nodes := t.nodes.map f } := by
  have hids : (t.nodes.map f).map NodeRow.id = t.ids := by
    rw [List.map_map]
    exact List.map_congr_left fun n _ => hid n
  refine ⟨?_, fun n hn => ?_, h.relations, h.keys_nodup, fun r hr => ?_, h.properties⟩
  · rw [ids, hids]
    exact h.ids_nodup
  · obtain ⟨m, hm, rfl⟩ := List.mem_map.1 hn
    exact hf m (h.nodes m hm)
  · rw [ids, hids]
    exact h.ends r hr

theorem keepNodes {p : NodeRow → Bool}
    (hp : ∀ n ∈ t.nodes, t.refersTo n.id = true → p n = true) :
    WellFormed dimension { t with nodes := t.nodes.filter p } := by
  -- an end of a relation is referred to, so its row is kept
  have hkept : ∀ x ∈ t.ids, t.refersTo x = true → x ∈ (t.nodes.filter p).map NodeRow.id := by
    intro x hx hrefers
    obtain ⟨n, hn, rfl⟩ := List.mem_map.1 hx
    exact List.mem_map_of_mem (List.mem_filter.2 ⟨hn, hp n hn hrefers⟩)
  refine ⟨?_, fun n hn => h.nodes n (List.mem_of_mem_filter hn), h.relations, h.keys_nodup,
    fun r hr => ?_, h.properties⟩
  · exact h.ids_nodup.sublist (List.filter_sublist.map NodeRow.id)
  · obtain ⟨hsource, htarget⟩ := h.ends r hr
    refine ⟨hkept _ hsource (List.any_eq_true.2 ⟨r, hr, ?_⟩),
      hkept _ htarget (List.any_eq_true.2 ⟨r, hr, ?_⟩)⟩ <;> simp

theorem addRelation {row : RelationRow} (hid : row.id = t.relations.nextId)
    (hnew : t.relation? row.label row.source row.target = none) (hsource : row.source ∈ t.ids)
    (htarget : row.target ∈ t.ids) (hproperties : ∃ p : Properties, row.properties = p.encode) :
    WellFormed dimension { t with relations := t.relations.append fun _ => row } := by
  refine ⟨h.ids_nodup, h.nodes, h.relations.append (fun _ => row) hid, ?_, fun r hr => ?_,
    fun r hr => ?_⟩
  · rw [Table.rows_append, List.map_append, List.map_singleton, ← List.concat_eq_append]
    exact h.keys_nodup.concat (relation?_eq_none hnew)
  · rcases List.mem_append.1 hr with hr | hr
    · exact h.ends r hr
    · rw [List.mem_singleton.1 hr]
      exact ⟨hsource, htarget⟩
  · rcases List.mem_append.1 hr with hr | hr
    · exact h.properties r hr
    · rw [List.mem_singleton.1 hr]
      exact hproperties

theorem mapRelations {f : RelationRow → RelationRow} (hid : ∀ r, (f r).id = r.id)
    (hkey : ∀ r, (f r).key = r.key)
    (hf : ∀ r, (∃ p : Properties, r.properties = p.encode) →
      ∃ p : Properties, (f r).properties = p.encode) :
    WellFormed dimension { t with relations := t.relations.mapRows f } := by
  refine ⟨h.ids_nodup, h.nodes, h.relations.mapRows hid, ?_, fun r hr => ?_, fun r hr => ?_⟩
  · rw [Table.rows_mapRows, List.map_map]
    rw [show RelationRow.key ∘ f = RelationRow.key from funext hkey]
    exact h.keys_nodup
  · obtain ⟨x, hx, rfl⟩ := List.mem_map.1 hr
    obtain ⟨-, hends⟩ := Prod.mk.inj (hkey x)
    obtain ⟨hsource, htarget⟩ := Prod.mk.inj hends
    rw [hsource, htarget]
    exact h.ends x hx
  · obtain ⟨x, hx, rfl⟩ := List.mem_map.1 hr
    exact hf x (h.properties x hx)

theorem keepRelations (p : RelationRow → Bool) :
    WellFormed dimension { t with relations := t.relations.keep p } := by
  refine ⟨h.ids_nodup, h.nodes, h.relations.keep p, ?_, fun r hr => ?_, fun r hr => ?_⟩
  · exact h.keys_nodup.sublist (List.filter_sublist.map RelationRow.key)
  · exact h.ends r (List.mem_of_mem_filter hr)
  · exact h.properties r (List.mem_of_mem_filter hr)

end WellFormed

end GraphTables

end GraphBase
