import GraphBase.Proofs.Traversal.Reading
import GraphBase.Proofs.Triplets.WellFormed

/-!
# Traversals of a triplet store

The facts of a fact base are the edges of a graph, whose nodes are names.  In well-formed tables
the relationship rows stand for these edges (`reads_graph`), so a traversal of the tables yields
the rows of the walks of the graph (`pathRows_eq`).

It starts at the entities whose names are among the seeds.  A name that is there twice in the
seeds, or that no entity has, makes no difference (`startsOf_congr`).
-/

namespace GraphBase

/-- The graph of a fact base, with an edge for every fact. -/
def FactBase.graph (b : FactBase) : EdgeList Fact String := ⟨b.facts, Fact.subject, Fact.object⟩

namespace TripletTables

/-- The fact of a relationship row that has one. -/
def factOf (t : TripletTables) (r : RelationshipRow) : Fact := (t.fact? r).getD default

/-- The names among the seeds that entities have, in the order of the entities. -/
def startsOf (t : TripletTables) (seeds : List String) : List String :=
  (t.entities.rows.filter fun e => seeds.contains e.name).map (·.name)

variable {t : TripletTables} {b : FactBase} {r : RelationshipRow} {seeds : List String}

/-! ## Seeds -/

theorem mem_startsOf {x : String} : x ∈ t.startsOf seeds ↔ x ∈ seeds ∧ x ∈ t.names := by
  rw [startsOf, List.mem_map]
  constructor
  · rintro ⟨e, he, rfl⟩
    obtain ⟨hmem, hseed⟩ := List.mem_filter.1 he
    exact ⟨List.contains_iff_mem.1 hseed, List.mem_map_of_mem hmem⟩
  · rintro ⟨hseed, hname⟩
    obtain ⟨e, he, rfl⟩ := List.mem_map.1 hname
    exact ⟨e, List.mem_filter.2 ⟨he, List.contains_iff_mem.2 hseed⟩, rfl⟩

theorem Represents.setOf_mem_startsOf (hb : t.Represents b) (seeds : List String) :
    {x | x ∈ t.startsOf seeds} = {x | x ∈ seeds ∧ x ∈ b.names} := by
  ext x
  rw [Set.mem_ofPred_eq, Set.mem_ofPred_eq, mem_startsOf, ← hb.names, List.mem_toFinset]

@[simp] theorem startsOf_nil (t : TripletTables) : t.startsOf [] = [] := by
  simp [startsOf]

theorem nodup_startsOf (hwf : t.WellFormed) (seeds : List String) : (t.startsOf seeds).Nodup :=
  hwf.names_nodup.sublist (List.filter_sublist.map _)

/-- Seeds that name the same entities are as good as each other. -/
theorem startsOf_congr {seeds' : List String} (h : ∀ x ∈ t.names, x ∈ seeds' ↔ x ∈ seeds) :
    t.startsOf seeds' = t.startsOf seeds := by
  have hfilter : t.entities.rows.filter (fun e => seeds'.contains e.name) =
      t.entities.rows.filter fun e => seeds.contains e.name := by
    refine List.filter_congr fun e he => ?_
    rw [Bool.eq_iff_iff, List.contains_iff_mem, List.contains_iff_mem]
    exact h e.name (List.mem_map_of_mem he)
  rw [startsOf, startsOf, hfilter]

/-! ## Rows and edges -/

section Edges

variable (hwf : t.WellFormed) (hb : t.Represents b)

include hwf hb

omit hb in
theorem factOf_of_mem (hr : r ∈ t.relationships.rows) :
    ∃ s ∈ t.entities.rows, ∃ o ∈ t.entities.rows, ∃ d, s.id = r.subject ∧ o.id = r.object ∧
      r.description = .text d ∧ t.factOf r = ⟨s.name, d, o.name⟩ := by
  obtain ⟨s, hs, o, ho, d, hsid, hoid, hd, hfact⟩ := hwf.fact?_of_mem hr
  exact ⟨s, hs, o, ho, d, hsid, hoid, hd, by rw [factOf, hfact]; rfl⟩

theorem map_factOf : t.relationships.rows.map t.factOf = b.facts := by
  rw [← hb.facts, facts, ← List.filterMap_eq_map]
  refine List.filterMap_congr fun r hr => ?_
  obtain ⟨f, hf⟩ := Option.isSome_iff_exists.1 (hwf.isSome_fact? hr)
  rw [Function.comp_apply, factOf, hf]
  rfl

/-- The rows that leave an entity stand for the edges that leave its name. -/
theorem map_leaving {e : EntityRow} (he : e ∈ t.entities.rows) :
    (t.leaving e.id).map t.factOf = b.graph.leaving e.name := by
  rw [leaving, EdgeList.leaving, FactBase.graph, ← map_factOf hwf hb, List.filter_map]
  refine congrArg (List.map t.factOf) (List.filter_congr fun r hr => ?_)
  obtain ⟨s, hs, o, ho, d, hsid, -, -, hfact⟩ := factOf_of_mem hwf hr
  rw [Function.comp_apply, hfact, Bool.eq_iff_iff, beq_iff_eq, beq_iff_eq, ← hsid]
  constructor
  · intro hid
    rw [hwf.entities.eq_of_number_eq hs he hid]
  · intro hname
    rw [hwf.eq_of_name_eq hs he hname]

/-- **The relationship rows stand for the edges of the graph.** -/
theorem reads_graph :
    b.graph.Reads id t.relationships.rows t.factOf (fun r => t.leaving r.object) t.linked?
      readPathRow := by
  refine ⟨fun r _ x hx => List.mem_of_mem_filter hx, fun r hr => ?_, fun r hr => ?_⟩
  · obtain ⟨s, -, o, ho, d, -, hoid, -, hfact⟩ := factOf_of_mem hwf hr
    rw [← hoid, map_leaving hwf hb ho, EdgeList.next, hfact]
    rfl
  · obtain ⟨s, hs, o, ho, d, hsid, hoid, hd, hfact⟩ := factOf_of_mem hwf hr
    have hsubject := hwf.entityById?_eq_some.2 ⟨hs, hsid⟩
    have hobject := hwf.entityById?_eq_some.2 ⟨ho, hoid⟩
    refine ⟨⟨r, s, o⟩, by rw [linked?, hsubject, hobject], fun k => ?_⟩
    rw [readPathRow, Linked.fact, RelationshipRow.readDescription, hd, hfact]
    rfl

theorem map_first (seeds : List String) :
    ((t.idsOf seeds).flatMap t.leaving).map t.factOf = b.graph.first (t.startsOf seeds) := by
  rw [idsOf, startsOf, EdgeList.first, List.flatMap_map, List.flatMap_map, List.map_flatMap]
  exact List.flatMap_congr fun e he => map_leaving hwf hb (List.mem_of_mem_filter he)

/-- **A traversal yields the rows of the walks**, up to the limit. -/
theorem pathRows_eq (seeds : List String) (depth limit : Nat) :
    t.pathRows seeds depth limit =
      .ok (b.graph.rows id
        ((b.graph.walks (t.startsOf seeds) depth).take (Sql.limitOperand limit))) := by
  have hmem : ∀ r ∈ (t.idsOf seeds).flatMap t.leaving, r ∈ t.relationships.rows := by
    intro r hr
    obtain ⟨id, -, hleaving⟩ := List.mem_flatMap.1 hr
    exact List.mem_of_mem_filter hleaving
  exact (reads_graph hwf hb).mapM_read_ends hmem (map_first hwf hb seeds) depth _

/-- The walks of a traversal are those from the seeds that are names. -/
theorem enumerates_walks (seeds : List String) (depth : Nat) :
    b.graph.Enumerates {x | x ∈ seeds ∧ x ∈ b.names} depth
      (b.graph.walks (t.startsOf seeds) depth) := by
  rw [← hb.setOf_mem_startsOf]
  exact EdgeList.enumerates_walks b.nodup (nodup_startsOf hwf seeds) depth

end Edges

end TripletTables

end GraphBase
