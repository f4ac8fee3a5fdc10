import GraphBase.Graph.Reach
import GraphBase.Proofs.Graph.WellFormed
import GraphBase.Proofs.Traversal.Reading

/-!
# Traversals of a property graph

The relation rows are the edges of a graph whose nodes are identities.  In tables that follow the
rules every relation row reads as a triplet (`shows_tripletOf`), which carries the nodes that are
stored under its two ends, so a traversal yields the rows of the walks (`pathRows_eq`) and never
fails.

It starts at the different identities among the seeds.  An identity that no node has is left by no
relation, and nothing is reached from it.
-/

namespace GraphBase.GraphTables

/-- The graph of the relations, with an edge for every row. -/
def graph (t : GraphTables) : EdgeList RelationRow String :=
  ⟨t.relations.rows, RelationRow.source, RelationRow.target⟩

/-- The node that is stored under an identity. -/
def HasNode (t : GraphTables) (id : String) (x : Node) : Prop :=
  ∃ n ∈ t.nodes, n.id = id ∧ n.node = .ok x ∧ x.id = id

/-- A triplet shows a relation row: it carries the nodes that are stored under the two ends, and
the relation with its label, its ends and its properties that are not empty. -/
structure Shows (t : GraphTables) (r : RelationRow) (x : Triplet) : Prop where
  source : t.HasNode r.source x.source
  target : t.HasNode r.target x.target
  relation : ∃ p, readProperties r.properties = .ok p ∧
    x.relation = ⟨r.label, r.source, r.target, p.removeEmpty⟩

/-- The triplet of a relation row that reads as one. -/
def tripletOf (t : GraphTables) (r : RelationRow) : Triplet :=
  ((t.join? r).bind fun j => j.triplet.toOption).getD default

variable {dimension : Nat} {t : GraphTables} {r : RelationRow} {seeds : List String}

/-! ## Rows and triplets -/

section Rows

variable (hwf : t.WellFormed dimension)

include hwf

/-- **Every relation row reads as a triplet.** -/
theorem exists_join (hr : r ∈ t.relations.rows) :
    ∃ j x, t.join? r = some j ∧ j.triplet = .ok x ∧ t.Shows r x := by
  obtain ⟨hsource, htarget⟩ := hwf.ends r hr
  obtain ⟨a, ha, haid⟩ := List.mem_map.1 hsource
  obtain ⟨b, hb, hbid⟩ := List.mem_map.1 htarget
  obtain ⟨p, hp⟩ := exists_readProperties (hwf.properties r hr)
  obtain ⟨x, hx, hxid, hxnode⟩ := (hwf.nodes a ha).exists_node
  obtain ⟨y, hy, hyid, hynode⟩ := (hwf.nodes b hb).exists_node
  have hjoin : t.join? r = some ⟨r, a, b⟩ := by
    rw [join?, hwf.node?_eq_some.2 ⟨ha, haid⟩, hwf.node?_eq_some.2 ⟨hb, hbid⟩]
  refine ⟨⟨r, a, b⟩, ⟨x.node, ⟨r.label, x.id, y.id, p.removeEmpty⟩, y.node⟩, hjoin, ?_, ?_, ?_, p,
    hp, ?_⟩
  · rw [Joined.triplet, hp, hx, hy]
    rfl
  · exact ⟨a, ha, haid, by rw [NodeRow.node, hx]; rfl, hxnode.trans haid⟩
  · exact ⟨b, hb, hbid, by rw [NodeRow.node, hy]; rfl, hynode.trans hbid⟩
  · rw [hxid, hyid, haid, hbid]

theorem join?_eq_some (hr : r ∈ t.relations.rows) :
    ∃ j, t.join? r = some j ∧ j.triplet = .ok (t.tripletOf r) := by
  obtain ⟨j, x, hj, hx, -⟩ := exists_join hwf hr
  refine ⟨j, hj, ?_⟩
  rw [tripletOf, hj, Option.bind_some, hx]
  rfl

/-- **The triplet of a relation row shows it.** -/
theorem shows_tripletOf (hr : r ∈ t.relations.rows) : t.Shows r (t.tripletOf r) := by
  obtain ⟨j, x, hj, hx, hshows⟩ := exists_join hwf hr
  rw [tripletOf, hj, Option.bind_some, hx]
  exact hshows

theorem relation_tripletOf (hr : r ∈ t.relations.rows) :
    (t.tripletOf r).relation.label = r.label ∧ (t.tripletOf r).relation.source = r.source ∧
      (t.tripletOf r).relation.target = r.target := by
  obtain ⟨p, -, hrelation⟩ := (shows_tripletOf hwf hr).relation
  rw [hrelation]
  exact ⟨rfl, rfl, rfl⟩

/-- Different relation rows have different triplets. -/
theorem injOn_tripletOf : Set.InjOn t.tripletOf {r | r ∈ t.relations.rows} := by
  intro r hr r' hr' heq
  obtain ⟨hlabel, hsource, htarget⟩ := relation_tripletOf hwf hr
  obtain ⟨hlabel', hsource', htarget'⟩ := relation_tripletOf hwf hr'
  refine List.inj_on_of_nodup_map hwf.keys_nodup hr hr' ?_
  rw [RelationRow.key, RelationRow.key, ← hlabel, ← hsource, ← htarget, heq, hlabel', hsource',
    htarget']

/-! ## The traversal -/

/-- **The relation rows stand for the edges of the graph.** -/
theorem reads_graph :
    t.graph.Reads t.tripletOf t.relations.rows id (fun r => t.leaving r.target) t.join?
      readPathRow := by
  refine ⟨fun r _ x hx => List.mem_of_mem_filter hx, fun r _ => List.map_id _, fun r hr => ?_⟩
  obtain ⟨j, hj, htriplet⟩ := join?_eq_some hwf hr
  obtain ⟨-, hsource, htarget⟩ := relation_tripletOf hwf hr
  refine ⟨j, hj, fun k => ?_⟩
  rw [readPathRow, htriplet]
  show Except.ok (⟨k, (t.tripletOf r).relation.source, (t.tripletOf r).relation.target,
    t.tripletOf r⟩ : PathRow String Triplet) = _
  rw [hsource, htarget]
  rfl

/-- **A traversal yields the rows of the walks**, up to the limit. -/
theorem pathRows_eq (seeds : List String) (depth limit : Nat) :
    t.pathRows seeds depth limit =
      .ok (t.graph.rows t.tripletOf
        ((t.graph.walks (sortedIds seeds) depth).take (Sql.limitOperand limit))) := by
  have hmem : ∀ r ∈ (sortedIds seeds).flatMap t.leaving, r ∈ t.relations.rows := by
    intro r hr
    obtain ⟨id, -, hleaving⟩ := List.mem_flatMap.1 hr
    exact List.mem_of_mem_filter hleaving
  exact (reads_graph hwf).mapM_read_ends hmem (List.map_id _) depth _

omit hwf in
theorem mem_sortedIds {x : String} : x ∈ sortedIds seeds ↔ x ∈ seeds := by
  rw [sortedIds, List.mem_eraseDups, List.mem_mergeSort]

/-- The walks of a traversal are those from the different identities among the seeds. -/
theorem enumerates_walks (seeds : List String) (depth : Nat) :
    t.graph.Enumerates {x | x ∈ seeds} depth (t.graph.walks (sortedIds seeds) depth) := by
  have hstarts : {x | x ∈ seeds} = {x | x ∈ sortedIds seeds} := by
    ext x
    exact mem_sortedIds.symm
  rw [hstarts]
  exact EdgeList.enumerates_walks hwf.relations.rows_nodup (nodup_eraseDups _) depth

end Rows

end GraphBase.GraphTables
