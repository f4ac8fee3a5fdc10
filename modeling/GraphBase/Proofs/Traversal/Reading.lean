import GraphBase.Proofs.Storage.Sessions
import GraphBase.Proofs.Traversal.WalkRows

/-!
# Traversals of tables

A store does not traverse a graph.  It traverses the rows of a table, joins each of them with the
rows of its ends, cuts the result off, and reads what is left.  If the rows stand for the edges of
a graph, and all of them join and read, this gives the rows of the walks of that graph, cut off at
the same place (`mapM_read_ends`).

`EdgeList.Reads` says what has to be known of a table for this.  It speaks of single rows only:
which rows go on from a row, and what a row reads as.
-/

namespace GraphBase

/-- A reading that leaves nothing out may come after a cut as well. -/
theorem take_filterMap_of_isSome {α β : Type} {f : α → Option β} {rows : List α}
    (h : ∀ a ∈ rows, (f a).isSome = true) (n : Nat) :
    (rows.filterMap f).take n = (rows.take n).filterMap f := by
  induction rows generalizing n with
  | nil => rw [List.take_nil, List.filterMap_nil, List.take_nil]
  | cons a rows ih =>
    cases n with
    | zero => rfl
    | succ n =>
      obtain ⟨b, hb⟩ := Option.isSome_iff_exists.1 (h a List.mem_cons_self)
      rw [List.filterMap_cons_some hb, List.take_succ_cons, List.take_succ_cons,
        List.filterMap_cons_some hb, ih fun a ha => h a (List.mem_cons_of_mem _ ha)]

namespace EdgeList

variable {ρ ι ε κ τ : Type} [DecidableEq κ]

/-- Rows of a table that stand for the edges of a graph: the rows that go on from a row stand for
the edges that go on from its edge, and a row reads as the row of a walk that ends with its
edge. -/
structure Reads (g : EdgeList ε κ) (label : ε → τ) (rows : List ρ) (edge : ρ → ε)
    (next : ρ → List ρ) (join? : ρ → Option ι)
    (read : Nat × ι → Except StorageFault (PathRow κ τ)) : Prop where
  stays : ∀ r ∈ rows, ∀ x ∈ next r, x ∈ rows
  goesOn : ∀ r ∈ rows, (next r).map edge = g.next (edge r)
  joins : ∀ r ∈ rows, ∃ j, join? r = some j ∧ ∀ k,
    read (k, j) = .ok ⟨k, g.source (edge r), g.target (edge r), label (edge r)⟩

/-- **A traversal of a table reads as the rows of the walks**, cut off at the same place. -/
theorem Reads.mapM_read_ends {g : EdgeList ε κ} {label : ε → τ} {rows : List ρ} {edge : ρ → ε}
    {next : ρ → List ρ} {join? : ρ → Option ι}
    {read : Nat × ι → Except StorageFault (PathRow κ τ)}
    (h : g.Reads label rows edge next join? read) {first : List ρ} {starts : List κ}
    (hmem : ∀ r ∈ first, r ∈ rows) (hfirst : first.map edge = g.first starts) (depth n : Nat) :
    (((Walk.ends next depth first).filterMap fun row =>
        (join? row.2).map fun j => (row.1, j)).take n).mapM read =
      .ok (g.rows label ((g.walks starts depth).take n)) := by
  have hrows := Walk.forall_mem_ends h.stays hmem depth
  have hjoins : ∀ row ∈ Walk.ends next depth first,
      ((join? row.2).map fun j => (row.1, j)).isSome = true := by
    intro row hrow
    obtain ⟨j, hj, -⟩ := h.joins row.2 (hrows row hrow)
    rw [hj]
    rfl
  have hread : ∀ row ∈ (Walk.ends next depth first).take n, ∃ x y,
      (join? row.2).map (fun j => (row.1, j)) = some x ∧ read x = .ok y ∧
        some (⟨row.1, g.source (edge row.2), g.target (edge row.2), label (edge row.2)⟩ :
          PathRow κ τ) = some y := by
    intro row hrow
    obtain ⟨j, hj, hread⟩ := h.joins row.2 (hrows row (List.mem_of_mem_take hrow))
    exact ⟨(row.1, j), _, by rw [hj]; rfl, hread row.1, rfl⟩
  have hends : (Walk.ends next depth first).map (fun row => (row.1, edge row.2)) =
      (g.walks starts depth).filterMap fun w => w.getLast?.map fun e => (w.length, e) := by
    rw [Walk.map_ends h.stays h.goesOn hmem, hfirst, ends_eq_walks]
  have hwalks : ∀ w ∈ g.walks starts depth,
      (w.getLast?.map fun e => (w.length, e)).isSome = true := by
    intro w hw
    have hpos := (mem_walks.1 hw).2.1
    rw [Option.isSome_map, List.getLast?_isSome]
    exact List.ne_nil_of_length_pos hpos
  rw [take_filterMap_of_isSome hjoins, mapM_filterMap_eq_ok hread]
  have hcut := congrArg (List.take n) hends
  rw [take_filterMap_of_isSome hwalks, ← List.map_take] at hcut
  refine congrArg Except.ok ?_
  calc _ = (((Walk.ends next depth first).take n).map fun row => (row.1, edge row.2)).map
        fun p => ⟨p.1, g.source p.2, g.target p.2, label p.2⟩ := by
          rw [List.map_map, List.filterMap_eq_map']
          rfl
    _ = _ := by
      rw [hcut, List.map_filterMap, EdgeList.rows]
      refine List.filterMap_congr fun w _ => ?_
      rw [row?, Option.map_map]
      rfl

end EdgeList

end GraphBase
