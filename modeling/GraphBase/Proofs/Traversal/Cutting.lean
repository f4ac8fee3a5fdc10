import GraphBase.Proofs.Traversal.Reading
import GraphBase.Sql.Fragment

/-!
# Traversals that are cut off

Two things are made of the rows of a traversal that is cut off at a limit: a list of what the rows
show, and a relation map.

The limit does no harm to what is left (`EdgeList.CutsAt`).  As many rows are used as the limit
allows; a row is used only if all walks that are shorter than its own are; and what is used belongs
to the same seeds as it does without a limit, of which there is always one.

The list and the relation map show the same rows (`EdgeList.Distributes`).  Rows may be hidden.  A
walk that ends with a hidden row is shown in neither, but walks may go through it in both, because
hiding looks at the last edge of a walk and at nothing else.
-/

namespace GraphBase

/-- The operand cuts off where the limit would, unless both the limit and what there is are larger
than any operand. -/
theorem Sql.min_limitOperand_iff {limit total : Nat} :
    min (limitOperand limit) total = min limit total ↔ limit ≤ limitMax ∨ total ≤ limitMax := by
  unfold limitOperand
  omega

namespace EdgeList

variable {ε κ τ : Type} {g : EdgeList ε κ} {label : ε → τ} {starts : Set κ} {depth : Nat}
  {ws : List (List ε)}

theorem depth_of_row? {w : List ε} {r : PathRow κ τ} (h : g.row? label w = some r) :
    r.depth = w.length := by
  obtain ⟨e, -, rfl⟩ := Option.map_eq_some_iff.1 h
  rfl

/-- The rows of the first walks are the first rows. -/
theorem rows_take (h : ∀ w ∈ ws, w ≠ []) (n : Nat) :
    g.rows label (ws.take n) = (g.rows label ws).take n := by
  refine (take_filterMap_of_isSome (fun w hw => ?_) n).symm
  obtain ⟨v, e, rfl⟩ := (List.eq_nil_or_concat' w).resolve_left (h w hw)
  rw [row?_concat]
  rfl

/-! ## The rows that are used -/

variable [DecidableEq κ]

/-- The rows of a traversal that is cut off at a limit. -/
structure CutsAt (g : EdgeList ε κ) (label : ε → τ) (starts : Set κ) (depth limit : Nat)
    (ws : List (List ε)) (rows : List (PathRow κ τ)) : Prop where
  enumerates : g.Enumerates starts depth ws
  rows_eq : rows = g.rows label (ws.take (Sql.limitOperand limit))
  length_eq : rows.length = min (Sql.limitOperand limit) (g.walksUpTo starts depth).ncard
  /-- The limit is what was asked for, unless it and the number of walks are both too large. -/
  length_eq_iff : rows.length = min limit (g.walksUpTo starts depth).ncard ↔
    limit ≤ Sql.limitMax ∨ (g.walksUpTo starts depth).ncard ≤ Sql.limitMax
  unlimited : Sql.limitMax ≤ limit → (g.walksUpTo starts depth).ncard ≤ Sql.limitMax →
    rows = g.rows label ws
  shorter : ∀ r ∈ rows, ∀ v ∈ g.walksUpTo starts depth, v.length < r.depth →
    v ∈ ws.take (Sql.limitOperand limit)
  belongs : ∀ p ∈ attributed [] (sortByDepth rows), p.2 ≠ []
  attributed_eq : attributed [] (sortByDepth rows) =
    (attributed [] (sortByDepth (g.rows label ws))).take (Sql.limitOperand limit)

namespace Enumerates

variable (hws : g.Enumerates starts depth ws)

include hws

omit [DecidableEq κ] in
/-- The rows of a traversal are in order of depth already, wherever it is cut off. -/
theorem sortByDepth_rows (n : Nat) :
    sortByDepth (g.rows label (ws.take n)) = g.rows label (ws.take n) :=
  sortByDepth_eq_self (pairwise_depth_rows (hws.ordered.sublist (List.take_sublist n ws)))

omit [DecidableEq κ] in
theorem length_rows_take (n : Nat) :
    (g.rows label (ws.take n)).length = min n (g.walksUpTo starts depth).ncard := by
  rw [length_rows fun w hw => hws.ne_nil (List.mem_of_mem_take hw), List.length_take,
    hws.length_eq]

/-- **The limit leaves intact what it leaves.** -/
theorem cutsAt (label : ε → τ) (limit : Nat) :
    g.CutsAt label starts depth limit ws (g.rows label (ws.take (Sql.limitOperand limit))) where
  enumerates := hws
  rows_eq := rfl
  length_eq := hws.length_rows_take _
  length_eq_iff := by rw [hws.length_rows_take, Sql.min_limitOperand_iff]
  unlimited hlimit htotal := by
    rw [List.take_of_length_le]
    rw [hws.length_eq, Sql.limitOperand, min_eq_right hlimit]
    exact htotal
  shorter r hr v hv hlt := by
    obtain ⟨w, hw, hrow⟩ := mem_rows.1 hr
    rw [depth_of_row? hrow] at hlt
    exact hws.mem_take_of_length_lt hw ((hws.complete v).2 hv) hlt
  belongs := by
    rw [hws.sortByDepth_rows]
    exact seeds_ne_nil hws _
  attributed_eq := by
    have hall : sortByDepth (g.rows label ws) = g.rows label ws :=
      sortByDepth_eq_self (pairwise_depth_rows hws.ordered)
    rw [hws.sortByDepth_rows, hall, rows_take fun w hw => hws.ne_nil hw, attributed_take]

end Enumerates

/-! ## The list and the relation map -/

open Classical in
/-- A list and a relation map that show the same walks, as far as they are shown: the list shows
all of them, and the relation map shows under each seed those that the seed attains. -/
structure Distributes (g : EdgeList ε κ) (label : ε → τ) (starts : Set κ) (used : List (List ε))
    (keep : τ → Bool) (flat : List τ) (m : RelMap κ τ) : Prop where
  flat_eq : flat = (labels label used).filter keep
  get_eq : ∀ s, RelMap.get m s =
    (labels label (used.filter fun w => decide (s ∈ starts ∧ g.Attains s w))).filter keep
  sublist : ∀ s, (RelMap.get m s).Sublist flat
  mem_iff : ∀ x, x ∈ flat ↔ ∃ s ∈ RelMap.keys m, x ∈ RelMap.get m s
  mem_keys : ∀ s, s ∈ RelMap.keys m ↔ RelMap.get m s ≠ []
  keys_nodup : (RelMap.keys m).Nodup
  shown : ∀ x ∈ flat, keep x = true

omit [DecidableEq κ] in
theorem mem_labels {x : τ} : x ∈ labels label ws ↔ ∃ w ∈ ws, ∃ e ∈ w.getLast?, label e = x := by
  rw [labels, List.mem_filterMap]
  refine exists_congr fun w => and_congr_right fun _ => ?_
  exact Option.map_eq_some_iff

omit [DecidableEq κ] in
theorem map_triplet_rows : (g.rows label ws).map (·.triplet) = labels label ws := by
  rw [rows, labels, List.map_filterMap]
  refine List.filterMap_congr fun w _ => ?_
  rw [row?, Option.map_map]
  rfl

namespace Enumerates

variable (hws : g.Enumerates starts depth ws) (n : Nat) (keep : τ → Bool)

include hws

/-- What stands under a seed, one triplet at a time. -/
theorem mem_get_ofRows {s : κ} {x : τ} :
    x ∈ RelMap.get (RelMap.ofRows keep (g.rows label (ws.take n))) s ↔
      ∃ w ∈ ws.take n, (s ∈ starts ∧ g.Attains s w) ∧ (∃ e ∈ w.getLast?, label e = x) ∧
        keep x = true := by
  rw [get_ofRows_rows hws n keep s, List.mem_filter, mem_labels]
  simp only [List.mem_filter, decide_eq_true_eq]
  constructor
  · rintro ⟨⟨w, ⟨hw, hs⟩, hx⟩, hkeep⟩
    exact ⟨w, hw, hs, hx, hkeep⟩
  · rintro ⟨w, hw, hs, hx, hkeep⟩
    exact ⟨⟨w, ⟨hw, hs⟩, hx⟩, hkeep⟩

/-- A seed has an entry exactly if something stands under it. -/
theorem mem_keys_iff_get_ne_nil {s : κ} :
    s ∈ RelMap.keys (RelMap.ofRows keep (g.rows label (ws.take n))) ↔
      RelMap.get (RelMap.ofRows keep (g.rows label (ws.take n))) s ≠ [] := by
  rw [mem_keys_ofRows_rows hws n keep s]
  constructor
  · rintro ⟨hs, w, hw, ⟨e, he, hkeep⟩, hattains⟩
    exact List.ne_nil_of_mem
      ((hws.mem_get_ofRows n keep).2 ⟨w, hw, ⟨hs, hattains⟩, ⟨e, he, rfl⟩, hkeep⟩)
  · intro hne
    obtain ⟨x, hx⟩ := List.exists_mem_of_ne_nil _ hne
    obtain ⟨w, hw, ⟨hs, hattains⟩, ⟨e, he, rfl⟩, hkeep⟩ := (hws.mem_get_ofRows n keep).1 hx
    exact ⟨hs, w, hw, ⟨e, he, hkeep⟩, hattains⟩

/-- **The list and the relation map of a traversal show the same rows**, wherever it is cut off
and whatever is hidden. -/
theorem distributes (label : ε → τ) (n : Nat) (keep : τ → Bool) :
    g.Distributes label starts (ws.take n) keep
      (((g.rows label (ws.take n)).map (·.triplet)).filter keep)
      (RelMap.ofRows keep (g.rows label (ws.take n))) := by
  rw [map_triplet_rows]
  refine ⟨rfl, fun s => get_ofRows_rows hws n keep s, fun s => ?_, fun x => ?_,
    fun s => hws.mem_keys_iff_get_ne_nil n keep, RelMap.nodup_keys_ofRows keep _, fun x hx => (List.mem_filter.1 hx).2⟩
  · rw [get_ofRows_rows hws n keep]
    exact (List.filter_sublist.filterMap _).filter keep
  · rw [List.mem_filter, mem_labels]
    constructor
    · rintro ⟨⟨w, hw, hx⟩, hkeep⟩
      have hin := List.mem_of_mem_take hw
      obtain ⟨s, hs, hattains⟩ := (hws.isWalk hin).exists_attains (hws.ne_nil hin)
      have hunder := (hws.mem_get_ofRows n keep).2 ⟨w, hw, ⟨hs, hattains⟩, hx, hkeep⟩
      exact ⟨s, (hws.mem_keys_iff_get_ne_nil n keep).2 (List.ne_nil_of_mem hunder), hunder⟩
    · rintro ⟨s, -, hunder⟩
      obtain ⟨w, hw, -, hx, hkeep⟩ := (hws.mem_get_ofRows n keep).1 hunder
      exact ⟨⟨w, hw, hx⟩, hkeep⟩

end Enumerates

end EdgeList

end GraphBase
