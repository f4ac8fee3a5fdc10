import GraphBase.Proofs.Graph.Runs
import GraphBase.Proofs.Graph.Traversal
import GraphBase.Proofs.Traversal.Cutting

/-!
# What a client of a property graph store can reach

A client may ask for what can be reached from some nodes in two ways: for a list in order of depth
(`PropertyStore.reachable`), and for one list for each seed (`PropertyStore.relMap`).  Labels may be
ignored.

The two answers are made of the same rows, so they agree (`distributes_of_reaches`).  Both are there
in every state that a run leads to: the rules that the tables follow are enough for every row to be
read.

A statement may bind 32766 values, and every seed is one of them.  This limit is left aside.
-/

namespace GraphBase.PropertyStore

open GraphTables (isShown sortedIds)

variable {store : PropertyStore} {s : Site} {t : GraphTables}

/-! ## Traversals on a site -/

section Reading

variable (hopen : store.IsOpen s t) (hwf : t.WellFormed store.schema.dimension)

include hopen hwf

/-- Whatever is made of the rows of a traversal is made of the rows of the walks.  Without seeds
there is no session, and the answer is what would be made of no rows. -/
theorem run_traversal {α : Type} (read : List (PathRow String Triplet) → α) {nothing : α}
    (hnothing : read [] = nothing) (seeds : List Node) (depth limit : Nat) :
    ∃ s', (if seeds.isEmpty then pure nothing
        else store.session (Session.readsOk fun t =>
          (t.pathRows (seeds.map Node.id) depth limit).map read) : Access α).run s =
      (.ok (read (t.graph.rows t.tripletOf ((t.graph.walks (sortedIds (seeds.map Node.id)) depth).take
        (Sql.limitOperand limit)))), s') ∧ store.IsOpen s' t := by
  by_cases hseeds : seeds.isEmpty = true
  · have hempty : sortedIds [] = [] := by
      rw [sortedIds, List.mergeSort_nil, List.eraseDups_nil]
    obtain rfl := List.isEmpty_iff.1 hseeds
    rw [if_pos hseeds, List.map_nil, hempty, EdgeList.walks_nil, List.take_nil]
    exact ⟨s, congrArg (fun a => (Except.ok a, s)) hnothing.symm, hopen⟩
  · rw [if_neg hseeds]
    refine run_readsOk hopen ?_
    rw [GraphTables.pathRows_eq hwf]
    rfl

/-- **The rows that a client reads** are those of the walks, up to the limit. -/
theorem run_pathRows (seeds : List Node) (depth limit : Nat) :
    ∃ s', (store.pathRows seeds depth limit).run s =
      (.ok (t.graph.rows t.tripletOf ((t.graph.walks (sortedIds (seeds.map Node.id)) depth).take
        (Sql.limitOperand limit))), s') ∧ store.IsOpen s' t := by
  obtain ⟨s', hrun, hopen'⟩ := run_traversal hopen hwf id rfl seeds depth limit
  simp only [Except.map_id] at hrun
  exact ⟨s', hrun, hopen'⟩

/-- **The list that a client reads** has the triplets of these rows that are shown. -/
theorem run_reachable (seeds : List Node) (depth limit : Nat) (ignored : List String) :
    ∃ s', (store.reachable seeds depth limit ignored).run s =
      (.ok (((t.graph.rows t.tripletOf ((t.graph.walks (sortedIds (seeds.map Node.id)) depth).take
        (Sql.limitOperand limit))).map (·.triplet)).filter (isShown ignored)), s') ∧
      store.IsOpen s' t := by
  have hrun := run_traversal hopen hwf
    (fun rows => (rows.map (·.triplet)).filter (isShown ignored)) rfl seeds depth limit
  exact hrun

/-- **The relation map that a client reads** is made of these rows. -/
theorem run_relMap (seeds : List Node) (depth limit : Nat) (ignored : List String) :
    ∃ s', (store.relMap seeds depth limit ignored).run s =
      (.ok (RelMap.ofRows (isShown ignored) (t.graph.rows t.tripletOf
        ((t.graph.walks (sortedIds (seeds.map Node.id)) depth).take (Sql.limitOperand limit)))), s') ∧
      store.IsOpen s' t :=
  run_traversal hopen hwf (RelMap.ofRows (isShown ignored)) (RelMap.ofRows_nil _) seeds depth limit

end Reading

theorem isShown_iff {ignored : List String} {x : Triplet} :
    isShown ignored x = true ↔ x.relation.label ∉ ignored := by
  rw [isShown, Bool.not_eq_true', ← Bool.not_eq_true, List.contains_iff_mem]

/-- **The list and the relation map agree.**  In every state that a run leads to, and for all
seeds, there are both, and neither changes the store.  They show the walks from the seeds, up to
the limit, that do not end with an ignored label: the list shows all of them, in the order of the
walks, and the relation map shows under each seed those that it attains, in the same order.  A
triplet carries the nodes that are stored under its ends. -/
theorem distributes_of_reaches (h : store.Reaches s t) (seeds : List Node) (depth limit : Nat)
    (ignored : List String) :
    ∃ ws flat m s₁ s₂,
      (store.reachable seeds depth limit ignored).run s = (.ok flat, s₁) ∧
      (store.relMap seeds depth limit ignored).run s = (.ok m, s₂) ∧
      store.IsOpen s₁ t ∧ store.IsOpen s₂ t ∧
      t.graph.Enumerates {x | x ∈ seeds.map Node.id} depth ws ∧
      (limit ≤ Sql.limitMax ∨ ws.length ≤ Sql.limitMax →
        ws.take (Sql.limitOperand limit) = ws.take limit) ∧
      t.graph.Distributes t.tripletOf {x | x ∈ seeds.map Node.id}
        (ws.take (Sql.limitOperand limit)) (isShown ignored) flat m ∧
      (∀ x ∈ flat, x.relation.label ∉ ignored) ∧
      (ignored = [] → flat = EdgeList.labels t.tripletOf (ws.take (Sql.limitOperand limit))) ∧
      (∀ r ∈ t.relations.rows, t.Shows r (t.tripletOf r)) ∧
      Set.InjOn t.tripletOf {r | r ∈ t.relations.rows} := by
  obtain ⟨hopen, hwf⟩ := h.isOpen
  obtain ⟨s₁, hrun₁, hopen₁⟩ := run_reachable hopen hwf seeds depth limit ignored
  obtain ⟨s₂, hrun₂, hopen₂⟩ := run_relMap hopen hwf seeds depth limit ignored
  have hws := GraphTables.enumerates_walks hwf (seeds.map Node.id) depth
  have hdistributes := hws.distributes t.tripletOf (Sql.limitOperand limit) (isShown ignored)
  refine ⟨_, _, _, s₁, s₂, hrun₁, hrun₂, hopen₁, hopen₂, hws, fun hlimit => ?_, hdistributes,
    fun x hx => isShown_iff.1 (hdistributes.shown x hx), ?_,
    fun r hr => GraphTables.shows_tripletOf hwf hr, GraphTables.injOn_tripletOf hwf⟩
  · rw [List.take_eq_take_iff]
    exact Sql.min_limitOperand_iff.2 hlimit
  · rintro rfl
    rw [hdistributes.flat_eq]
    exact List.filter_eq_self.2 fun x _ => isShown_iff.2 List.not_mem_nil

/-- Two relations in a row, between nodes that nothing else is known of. -/
def chainTables : GraphTables where
  nodes := [.bare "now" "A", .bare "now" "B", .bare "now" "C"]
  relations := {
    rows := [
      { id := 1, label := "r", source := "A", target := "B", createdAt := "now",
        updatedAt := "now" },
      { id := 2, label := "s", source := "B", target := "C", createdAt := "now",
        updatedAt := "now" }]
    lastId := 2 }

/-- A run leads there. -/
theorem exists_reaches_chainTables : ∃ s, PropertyStore.Reaches ⟨{}⟩ s chainTables := by
  have hstep : Step ⟨{}⟩ fileSite _ _ :=
    .call (.upsertRelations "now" [⟨"r", "A", "B", .empty⟩, ⟨"s", "B", "C", .empty⟩])
  exact ⟨_, .run start_fileSite tables?_fileSite ⟨rfl, rfl⟩ (.cons hstep (.nil _)) (by decide +kernel)⟩

/-- What is reached from the first node, through a relation that is not shown. -/
theorem distributes_chain :
    ∃ s ws flat m s₁ s₂, PropertyStore.Reaches ⟨{}⟩ s chainTables ∧
      (PropertyStore.reachable ⟨{}⟩ [.named "A"] 2 30 ["r"]).run s = (.ok flat, s₁) ∧
      (PropertyStore.relMap ⟨{}⟩ [.named "A"] 2 30 ["r"]).run s = (.ok m, s₂) ∧
      chainTables.graph.Enumerates {x | x ∈ [Node.named "A"].map Node.id} 2 ws ∧
      chainTables.graph.Distributes chainTables.tripletOf {x | x ∈ [Node.named "A"].map Node.id}
        (ws.take 30) (isShown ["r"]) flat m := by
  obtain ⟨s, h⟩ := exists_reaches_chainTables
  obtain ⟨ws, flat, m, s₁, s₂, hflat, hm, -, -, hws, hcut, hdistributes, -⟩ :=
    distributes_of_reaches h [.named "A"] 2 30 ["r"]
  rw [hcut (.inl (by decide))] at hdistributes
  exact ⟨s, ws, flat, m, s₁, s₂, h, hflat, hm, hws, hdistributes⟩

end GraphBase.PropertyStore
