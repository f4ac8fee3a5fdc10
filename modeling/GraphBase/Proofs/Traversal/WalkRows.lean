import GraphBase.Proofs.Traversal.Attribution
import Mathlib.Algebra.BigOperators.Group.Finset.Basic
import Mathlib.Order.Interval.Finset.Nat

/-!
# Relation maps of walks

For the rows of a traversal of a graph, the chains of rows behind a relation map are walks.  So a
row belongs to exactly the seeds from which some walk of its length ends with its edge
(`belongs_iff_attains`).

This holds for the rows up to any point as well.  The cut does no harm, because a traversal comes
to shorter walks first: whoever keeps a walk keeps all shorter ones (`mem_take_of_length_lt`), and
a chain to a row is made of rows that are less deep.

From there on everything can be said about walks alone: what a relation map has under a seed
(`get_ofRows_rows`), which seeds it has (`mem_keys_ofRows_rows`), and how often it has an edge
(`count_get_ofRows`).
-/

namespace GraphBase

namespace EdgeList

variable {ε κ τ : Type} (g : EdgeList ε κ) (label : ε → τ)

/-- The row of a walk: its length and its last edge. -/
def row? (w : List ε) : Option (PathRow κ τ) :=
  w.getLast?.map fun e => ⟨w.length, g.source e, g.target e, label e⟩

/-- The rows of some walks. -/
def rows (ws : List (List ε)) : List (PathRow κ τ) := ws.filterMap (g.row? label)

/-- The labels of the last edges of some walks. -/
def labels (ws : List (List ε)) : List τ := ws.filterMap fun w => w.getLast?.map label

/-- Some walk from a node is as long as another walk and ends with the same edge. -/
def Attains (s : κ) (w : List ε) : Prop := ∃ e ∈ w.getLast?, (g.walksTo {s} w.length e).Nonempty

variable {g label} {starts : Set κ} {depth : Nat} {ws : List (List ε)}

/-! ## Walks and their last edges -/

@[simp] theorem row?_concat (w : List ε) (e : ε) :
    g.row? label (w ++ [e]) = some ⟨w.length + 1, g.source e, g.target e, label e⟩ := by
  rw [row?, List.getLast?_concat, Option.map_some, List.length_append, List.length_singleton]

theorem attains_concat {s : κ} {w : List ε} {e : ε} :
    g.Attains s (w ++ [e]) ↔ ∃ v, g.IsWalk {s} (v ++ [e]) ∧ v.length = w.length := by
  constructor
  · rintro ⟨f, hf, u, hu, hlen, hlast⟩
    rw [List.getLast?_concat, Option.mem_some_iff] at hf
    rw [← hf] at hlast
    obtain ⟨v, rfl⟩ := List.getLast?_eq_some_iff.1 hlast
    rw [List.length_append, List.length_append] at hlen
    exact ⟨v, hu, Nat.add_right_cancel hlen⟩
  · rintro ⟨v, hv, hlen⟩
    refine ⟨e, by rw [List.getLast?_concat]; rfl, v ++ [e], hv, ?_, List.getLast?_concat⟩
    rw [List.length_append, List.length_append, hlen]

/-- A walk attains itself from the node where it begins. -/
theorem IsWalk.exists_attains {w : List ε} (hw : g.IsWalk starts w) (hne : w ≠ []) :
    ∃ s ∈ starts, g.Attains s w := by
  obtain ⟨e, he⟩ := List.ne_nil_iff_exists_cons.1 hne
  obtain ⟨tail, rfl⟩ := he
  refine ⟨g.source e, hw.begins e rfl, _, List.getLast?_eq_some_getLast hne, e :: tail, ?_, rfl,
    List.getLast?_eq_some_getLast hne⟩
  refine ⟨hw.edges, ?_, hw.linked⟩
  intro f hf
  rw [List.head?_cons, Option.mem_some_iff] at hf
  rw [← hf]
  exact Set.mem_singleton _

namespace Enumerates

theorem isWalk (h : g.Enumerates starts depth ws) {w : List ε} (hw : w ∈ ws) :
    g.IsWalk starts w := ((h.complete w).1 hw).1

theorem exists_eq_concat (h : g.Enumerates starts depth ws) {w : List ε} (hw : w ∈ ws) :
    ∃ v e, w = v ++ [e] := by
  refine (List.eq_nil_or_concat' w).resolve_left ?_
  rintro rfl
  have hpos := ((h.complete []).1 hw).2.1
  cases hpos

theorem ne_nil (h : g.Enumerates starts depth ws) {w : List ε} (hw : w ∈ ws) : w ≠ [] := by
  obtain ⟨v, e, rfl⟩ := h.exists_eq_concat hw
  exact List.append_ne_nil_of_right_ne_nil v (List.cons_ne_nil e [])

/-- There are as many entries as there are walks. -/
theorem length_eq (h : g.Enumerates starts depth ws) :
    ws.length = (g.walksUpTo starts depth).ncard := by
  classical
  have hset : g.walksUpTo starts depth = ↑ws.toFinset := by
    ext w
    rw [List.coe_toFinset, Set.mem_ofPred_eq, h.complete]
  rw [hset, Set.ncard_coe_finset, List.toFinset_card_of_nodup h.once]

/-- **Whoever keeps a walk keeps all shorter ones.** -/
theorem mem_take_of_length_lt (h : g.Enumerates starts depth ws) {n : Nat} {v w : List ε}
    (hw : w ∈ ws.take n) (hv : v ∈ ws) (hlt : v.length < w.length) : v ∈ ws.take n := by
  have hordered := h.ordered
  rw [← List.take_append_drop n ws] at hv hordered
  refine (List.mem_append.1 hv).resolve_right fun hdrop => ?_
  have hle := (List.pairwise_append.1 hordered).2.2 w hw v hdrop
  omega

end Enumerates

theorem length_rows (h : ∀ w ∈ ws, w ≠ []) : (g.rows label ws).length = ws.length := by
  induction ws with
  | nil => rfl
  | cons w ws ih =>
    obtain ⟨v, e, rfl⟩ := (List.eq_nil_or_concat' w).resolve_left (h w List.mem_cons_self)
    rw [rows, List.filterMap_cons_some (row?_concat v e), List.length_cons, List.length_cons]
    exact congrArg (· + 1) (ih fun w hw => h w (List.mem_cons_of_mem _ hw))

theorem mem_rows {r : PathRow κ τ} : r ∈ g.rows label ws ↔ ∃ w ∈ ws, g.row? label w = some r :=
  List.mem_filterMap

variable (g label) in
theorem mem_rows_concat {v : List ε} {e : ε} (h : v ++ [e] ∈ ws) :
    ⟨v.length + 1, g.source e, g.target e, label e⟩ ∈ g.rows label ws :=
  mem_rows.2 ⟨v ++ [e], h, row?_concat v e⟩

/-- Rows of walks in order of length are in order of depth. -/
theorem pairwise_depth_rows (h : ws.Pairwise fun v w => v.length ≤ w.length) :
    (g.rows label ws).Pairwise fun a b => a.depth ≤ b.depth := by
  refine List.Pairwise.filterMap _ (fun v w hvw a ha b hb => ?_) h
  obtain ⟨e, -, rfl⟩ := Option.map_eq_some_iff.1 ha
  obtain ⟨f, -, rfl⟩ := Option.map_eq_some_iff.1 hb
  exact hvw

/-! ## Whom a row belongs to -/

/-- A seed arrives along the walks from it, as long as no shorter walk is left out. -/
theorem hasArrived_iff_walk (hws : g.Enumerates starts depth ws) {kept : List (List ε)}
    (hkept : ∀ w ∈ kept, w ∈ ws) {k : Nat} (hk : k ≤ max depth 1)
    (hcut : ∀ v ∈ ws, v.length ≤ k → v ∈ kept) {s x : κ} :
    HasArrived (g.rows label kept) s k x ↔
      s ∈ starts ∧ ∃ v e, g.IsWalk {s} (v ++ [e]) ∧ v.length + 1 = k ∧ g.target e = x := by
  -- a walk from a seed is one of the walks of the traversal
  have hmem : s ∈ starts → ∀ v e, g.IsWalk {s} (v ++ [e]) → v.length + 1 ≤ k → v ++ [e] ∈ kept := by
    intro hs v e hv hlen
    have hlength : (v ++ [e]).length = v.length + 1 := by simp
    have hwalk := hv.mono (Set.singleton_subset_iff.2 hs)
    refine hcut _ ((hws.complete _).2 ⟨hwalk, ?_, ?_⟩) ?_ <;> omega
  induction k generalizing x with
  | zero =>
    refine iff_of_false id ?_
    rintro ⟨-, v, e, -, hlen, -⟩
    cases hlen
  | succ k ih =>
    have ih := @ih (by omega) (fun v hv hle => hcut v hv (by omega))
    cases k with
    | zero =>
      constructor
      · rintro ⟨r, hr, hdepth, rfl, rfl⟩
        obtain ⟨w, hw, hrow⟩ := mem_rows.1 hr
        obtain ⟨v, e, rfl⟩ := hws.exists_eq_concat (hkept w hw)
        rw [row?_concat] at hrow
        obtain rfl := Option.some.inj hrow
        have hv : v = [] := List.length_eq_zero_iff.1 (Nat.le_zero.1 (Nat.le_of_succ_le_succ hdepth))
        obtain ⟨he, hs⟩ := isWalk_singleton.1 (hv ▸ hws.isWalk (hkept _ hw))
        exact ⟨hs, [], e, isWalk_singleton.2 ⟨he, rfl⟩, rfl, rfl⟩
      · rintro ⟨hs, v, e, hv, hlen, rfl⟩
        have hrow := mem_rows_concat g label (hmem hs v e hv hlen.le)
        obtain rfl : v = [] := List.length_eq_zero_iff.1 (Nat.succ.inj hlen)
        exact ⟨_, hrow, le_rfl, (isWalk_singleton.1 hv).2, rfl⟩
    | succ k =>
      have ih := fun y => @ih y fun hs v e hv hle => hmem hs v e hv (by omega)
      constructor
      · rintro ⟨r, hr, hdepth, harrived, rfl⟩
        obtain ⟨w, hw, hrow⟩ := mem_rows.1 hr
        obtain ⟨u, f, rfl⟩ := hws.exists_eq_concat (hkept w hw)
        rw [row?_concat] at hrow
        obtain rfl := Option.some.inj hrow
        obtain ⟨hs, v, e, hv, hlen, hlink⟩ := (ih _).1 harrived
        have hf := (hws.isWalk (hkept _ hw)).edges f (by simp)
        refine ⟨hs, v ++ [e], f, isWalk_append_pair.2 ⟨hv, hf, hlink⟩, ?_, rfl⟩
        rw [List.length_append, List.length_singleton, hlen]
      · rintro ⟨hs, v, f, hv, hlen, rfl⟩
        obtain ⟨u, e, rfl⟩ : ∃ u e, v = u ++ [e] :=
          (List.eq_nil_or_concat' v).resolve_left (by rintro rfl; cases hlen)
        have hrow := mem_rows_concat g label (hmem hs _ f hv hlen.le)
        obtain ⟨hwalk, -, hlink⟩ := isWalk_append_pair.1 hv
        rw [List.length_append, List.length_singleton] at hlen hrow
        exact ⟨_, hrow, hlen, (ih _).2 ⟨hs, u, e, hwalk, Nat.succ.inj hlen, hlink⟩, rfl⟩

/-- **A row belongs to the seeds from which a walk of its length ends with its edge**, wherever
the traversal is cut off behind it. -/
theorem belongs_iff_attains (hws : g.Enumerates starts depth ws) {n : Nat} {w : List ε}
    (hw : w ∈ ws.take n) {r : PathRow κ τ} (hr : g.row? label w = some r) {s : κ} :
    Belongs (g.rows label (ws.take n)) r s ↔ s ∈ starts ∧ g.Attains s w := by
  have hmem := List.mem_of_mem_take hw
  obtain ⟨v, e, rfl⟩ := hws.exists_eq_concat hmem
  rw [row?_concat] at hr
  obtain rfl := Option.some.inj hr
  have hwalk := hws.isWalk hmem
  rw [attains_concat]
  rcases Nat.eq_zero_or_pos v.length with hv | hv
  · obtain rfl := List.length_eq_zero_iff.1 hv
    obtain ⟨he, hs⟩ := isWalk_singleton.1 hwalk
    rw [belongs_of_le le_rfl]
    constructor
    · rintro rfl
      exact ⟨hs, [], isWalk_singleton.2 ⟨he, rfl⟩, rfl⟩
    · rintro ⟨-, u, hu, hlen⟩
      obtain rfl := List.length_eq_zero_iff.1 hlen
      exact (isWalk_singleton.1 hu).2
  · have hlength : (v ++ [e]).length = v.length + 1 := by simp
    have hle := ((hws.complete _).1 hmem).2.2
    have hcut : ∀ u ∈ ws, u.length ≤ v.length → u ∈ ws.take n :=
      fun u hu hle => hws.mem_take_of_length_lt hw hu (by omega)
    rw [belongs_of_lt (Nat.lt_add_of_pos_left hv), Nat.add_sub_cancel,
      hasArrived_iff_walk hws (fun u hu => List.mem_of_mem_take hu) (by omega) hcut]
    refine and_congr_right fun _ => ⟨?_, ?_⟩
    · rintro ⟨u, f, hu, hlen, hlink⟩
      refine ⟨u ++ [f], isWalk_append_pair.2 ⟨hu, hwalk.edges e (by simp), hlink⟩, ?_⟩
      rw [List.length_append, List.length_singleton, hlen]
    · rintro ⟨u, hu, hlen⟩
      obtain ⟨t, f, rfl⟩ : ∃ t f, u = t ++ [f] :=
        (List.eq_nil_or_concat' u).resolve_left (by rintro rfl; rw [← hlen] at hv; cases hv)
      obtain ⟨hwalk, -, hlink⟩ := isWalk_append_pair.1 hu
      rw [List.length_append, List.length_singleton] at hlen
      exact ⟨t, f, hwalk, hlen, hlink⟩

/-! ## The relation map of the rows -/

variable [DecidableEq κ]

/-- **Every row belongs to some seed**, so none is dropped. -/
theorem seeds_ne_nil (hws : g.Enumerates starts depth ws) (n : Nat) :
    ∀ p ∈ attributed [] (g.rows label (ws.take n)), p.2 ≠ [] := by
  have hsorted : (g.rows label (ws.take n)).Pairwise fun a b => a.depth ≤ b.depth :=
    pairwise_depth_rows (hws.ordered.sublist (List.take_sublist n ws))
  intro p hp
  have hrow : p.1 ∈ g.rows label (ws.take n) := by
    rw [← map_fst_attributed [] (g.rows label (ws.take n))]
    exact List.mem_map_of_mem hp
  obtain ⟨w, hw, hr⟩ := mem_rows.1 hrow
  have hmem := List.mem_of_mem_take hw
  obtain ⟨s, hs, hattains⟩ := (hws.isWalk hmem).exists_attains (hws.ne_nil hmem)
  have hseed := (mem_seeds_iff_belongs hsorted p hp s).2 ((belongs_iff_attains hws hw hr).2 ⟨hs, hattains⟩)
  exact List.ne_nil_of_mem hseed

open Classical in
/-- **Under a seed stand the labels of the walks that it attains**, as far as they are shown, in
the order of the walks. -/
theorem get_ofRows_rows (hws : g.Enumerates starts depth ws) (n : Nat) (keep : τ → Bool) (s : κ) :
    RelMap.get (RelMap.ofRows keep (g.rows label (ws.take n))) s =
      (labels label ((ws.take n).filter fun w => decide (s ∈ starts ∧ g.Attains s w))).filter
        keep := by
  have hsorted : (g.rows label (ws.take n)).Pairwise fun a b => a.depth ≤ b.depth :=
    pairwise_depth_rows (hws.ordered.sublist (List.take_sublist n ws))
  have hbelongs : ∀ w ∈ ws.take n, ∀ r, g.row? label w = some r →
      (Belongs (g.rows label (ws.take n)) r s ↔ s ∈ starts ∧ g.Attains s w) :=
    fun w hw r hr => belongs_iff_attains hws hw hr
  rw [RelMap.get_ofRows, sortByDepth_eq_self hsorted]
  generalize Belongs (g.rows label (ws.take n)) = belongs at hbelongs
  rw [labels, rows, List.filter_filterMap, List.map_filterMap, List.filterMap_filter,
    List.filter_filterMap]
  refine List.filterMap_congr fun w hw => ?_
  obtain ⟨v, e, rfl⟩ := hws.exists_eq_concat (List.mem_of_mem_take hw)
  have hb := hbelongs _ hw _ (row?_concat v e)
  rw [row?_concat, List.getLast?_concat]
  by_cases hs : s ∈ starts ∧ g.Attains s (v ++ [e])
  · by_cases hkeep : keep (label e) = true <;> simp [Option.filter, hb, hs, hkeep]
  · simp [Option.filter, hb, hs]

/-- **A seed has an entry exactly if it attains a walk that is shown.** -/
theorem mem_keys_ofRows_rows (hws : g.Enumerates starts depth ws) (n : Nat) (keep : τ → Bool)
    (s : κ) :
    s ∈ RelMap.keys (RelMap.ofRows keep (g.rows label (ws.take n))) ↔
      s ∈ starts ∧ ∃ w ∈ ws.take n, (∃ e ∈ w.getLast?, keep (label e) = true) ∧ g.Attains s w := by
  rw [RelMap.mem_keys_ofRows]
  constructor
  · rintro ⟨r, hr, hkeep, hb⟩
    obtain ⟨w, hw, hrow⟩ := mem_rows.1 hr
    obtain ⟨hs, hattains⟩ := (belongs_iff_attains hws hw hrow).1 hb
    obtain ⟨e, he, rfl⟩ := Option.map_eq_some_iff.1 hrow
    exact ⟨hs, w, hw, ⟨e, he, hkeep⟩, hattains⟩
  · rintro ⟨hs, w, hw, ⟨e, he, hkeep⟩, hattains⟩
    have hrow : g.row? label w = some ⟨w.length, g.source e, g.target e, label e⟩ := by
      rw [row?, he, Option.map_some]
    exact ⟨_, mem_rows.2 ⟨w, hw, hrow⟩, hkeep, (belongs_iff_attains hws hw hrow).2 ⟨hs, hattains⟩⟩

open Classical in
/-- An edge stands under a seed once for every walk that ends with it and that the seed attains. -/
theorem count_get_ofRows_take [DecidableEq ε] (hws : g.Enumerates starts depth ws) (n : Nat) {s : κ}
    (hs : s ∈ starts) (e : ε) :
    (RelMap.get (RelMap.ofRows (fun _ => true) (g.rows id (ws.take n))) s).count e =
      ((ws.take n).filter fun w => decide (g.Attains s w ∧ w.getLast? = some e)).length := by
  rw [get_ofRows_rows hws n (fun _ => true) s, List.filter_true, labels, List.count_filterMap,
    List.countP_filter, List.countP_eq_length_filter]
  refine congrArg List.length (List.filter_congr fun w _ => ?_)
  simp only [hs, true_and, Bool.decide_and, beq_eq_decide, Bool.and_comm, Option.map_id_fun, id]

open Classical in
/-- **How often an edge stands under a seed:** for each length at which a walk from the seed ends
with it, once for every walk of that length from any seed. -/
theorem count_get_ofRows [DecidableEq ε] (hws : g.Enumerates starts depth ws) {s : κ}
    (hs : s ∈ starts) (e : ε) :
    (RelMap.get (RelMap.ofRows (fun _ => true) (g.rows id ws)) s).count e =
      ∑ k ∈ Finset.Icc 1 (max depth 1),
        if (g.walksTo {s} k e).Nonempty then (g.walksTo starts k e).ncard else 0 := by
  let attained := ws.filter fun w => decide (g.Attains s w ∧ w.getLast? = some e)
  have hcount : (RelMap.get (RelMap.ofRows (fun _ => true) (g.rows id ws)) s).count e =
      attained.toFinset.card := by
    have htake := count_get_ofRows_take hws ws.length hs e
    rw [List.take_length] at htake
    rw [htake, List.toFinset_card_of_nodup (hws.once.filter _)]
  have hmem : ∀ w, w ∈ attained.toFinset ↔
      w ∈ g.walksUpTo starts depth ∧ g.Attains s w ∧ w.getLast? = some e := by
    intro w
    rw [List.mem_toFinset, List.mem_filter, hws.complete, decide_eq_true_iff]
  have hlength : ∀ w ∈ attained.toFinset, w.length ∈ Finset.Icc 1 (max depth 1) :=
    fun w hw => Finset.mem_Icc.2 ((hmem w).1 hw).1.2
  have hfiber : ∀ k ∈ Finset.Icc 1 (max depth 1), ∀ w,
      w ∈ attained.toFinset.filter (fun w => w.length = k) ↔
        (g.walksTo {s} k e).Nonempty ∧ w ∈ g.walksTo starts k e := by
    intro k hk w
    rw [Finset.mem_filter, hmem]
    constructor
    · rintro ⟨⟨⟨hw, -⟩, ⟨f, hf, hne⟩, he⟩, rfl⟩
      obtain rfl : e = f := Option.some.inj (he.symm.trans hf)
      exact ⟨hne, hw, rfl, he⟩
    · rintro ⟨hne, hw, rfl, he⟩
      exact ⟨⟨⟨hw, Finset.mem_Icc.1 hk⟩, ⟨e, he, hne⟩, he⟩, rfl⟩
  rw [hcount, Finset.card_eq_sum_card_fiberwise hlength]
  refine Finset.sum_congr rfl fun k hk => ?_
  split_ifs with hne
  · rw [← Set.ncard_coe_finset]
    refine congrArg Set.ncard (Set.ext fun w => ?_)
    rw [Finset.mem_coe, hfiber k hk, and_iff_right hne]
  · refine Finset.card_eq_zero.2 (Finset.eq_empty_of_forall_notMem fun w hw => ?_)
    exact hne ((hfiber k hk w).1 hw).1

end EdgeList

end GraphBase
