import GraphBase.Proofs.Traversal.WalkRows

/-!
# Relation maps that count walks

What a relation map should be can be said without rows.  `RelMap.CountsWalks` says it: an entry
for every start that an edge leaves, under it the edges that walks from it end with, and each of
them as often as there are walks that end with it, from any start, of a length that a walk from
this start has.

The relation map of a traversal is like this as long as nothing is cut off, and only then
(`countsWalks_ofRows`).
-/

namespace GraphBase

variable {ε κ : Type} [DecidableEq ε] [DecidableEq κ] {g : EdgeList ε κ} {starts : Set κ}
  {depth n : Nat} {ws : List (List ε)} {s : κ} {e : ε}

open Classical in
/-- The relation map has an entry for every start that an edge leaves, and under it each edge as
often as the walks of the traversal say. -/
structure RelMap.CountsWalks (m : RelMap κ ε) (g : EdgeList ε κ) (starts : Set κ) (depth : Nat) :
    Prop where
  keys : ∀ s, s ∈ RelMap.keys m ↔ s ∈ starts ∧ ∃ e ∈ g.edges, g.source e = s
  keys_nodup : (RelMap.keys m).Nodup
  count : ∀ s ∈ RelMap.keys m, ∀ e, (RelMap.get m s).count e =
    ∑ k ∈ Finset.Icc 1 (max depth 1),
      if (g.walksTo {s} k e).Nonempty then (g.walksTo starts k e).ncard else 0
  mem : ∀ s ∈ RelMap.keys m, ∀ e, e ∈ RelMap.get m s ↔
    ∃ k ∈ Finset.Icc 1 (max depth 1), (g.walksTo {s} k e).Nonempty

namespace EdgeList

omit [DecidableEq ε] [DecidableEq κ] in
/-- A node that attains a walk is left by an edge. -/
theorem Attains.exists_leaving {w : List ε} (h : g.Attains s w) :
    ∃ e ∈ g.edges, g.source e = s := by
  obtain ⟨e, he, v, hv, hlen, -⟩ := h
  have hne : v ≠ [] := by
    rintro rfl
    obtain rfl := List.length_eq_zero_iff.1 hlen.symm
    cases he
  obtain ⟨f, tail, rfl⟩ := List.exists_cons_of_ne_nil hne
  exact ⟨f, hv.edges f List.mem_cons_self, hv.begins f rfl⟩

namespace Enumerates

variable (hws : g.Enumerates starts depth ws)

include hws

omit [DecidableEq ε] [DecidableEq κ] in
/-- The edges that walks from a start end with are the last edges of walks that it attains. -/
theorem exists_attained_iff (hs : s ∈ starts) :
    (∃ w ∈ ws, g.Attains s w ∧ w.getLast? = some e) ↔
      ∃ k ∈ Finset.Icc 1 (max depth 1), (g.walksTo {s} k e).Nonempty := by
  constructor
  · rintro ⟨w, hw, ⟨f, hf, hne⟩, he⟩
    obtain rfl : e = f := Option.some.inj (he.symm.trans hf)
    exact ⟨w.length, Finset.mem_Icc.2 ((hws.complete w).1 hw).2, hne⟩
  · rintro ⟨k, hk, v, hv, rfl, he⟩
    have hmono := hv.mono (Set.singleton_subset_iff.2 hs)
    exact ⟨v, (hws.complete v).2 ⟨hmono, Finset.mem_Icc.1 hk⟩, ⟨e, he, v, hv, rfl, he⟩, he⟩

omit [DecidableEq ε] in
theorem mem_keys_iff :
    s ∈ RelMap.keys (RelMap.ofRows (fun _ => true) (g.rows id ws)) ↔
      s ∈ starts ∧ ∃ e ∈ g.edges, g.source e = s := by
  have hkeys : s ∈ RelMap.keys (RelMap.ofRows (fun _ => true) (g.rows id (ws.take ws.length))) ↔
      _ := mem_keys_ofRows_rows hws ws.length (fun _ => true) s
  rw [List.take_length] at hkeys
  rw [hkeys]
  refine and_congr_right fun hs => ?_
  constructor
  · rintro ⟨w, -, -, hattains⟩
    exact hattains.exists_leaving
  · rintro ⟨e, he, rfl⟩
    have hwalk : g.IsWalk {g.source e} [e] := isWalk_singleton.2 ⟨he, rfl⟩
    have hmem : [e] ∈ ws := by
      refine (hws.complete [e]).2 ⟨hwalk.mono (Set.singleton_subset_iff.2 hs), ?_, ?_⟩ <;> simp
    exact ⟨[e], hmem, ⟨e, rfl, rfl⟩, e, rfl, [e], hwalk, rfl, rfl⟩

theorem mem_get_iff (hs : s ∈ starts) :
    e ∈ RelMap.get (RelMap.ofRows (fun _ => true) (g.rows id ws)) s ↔
      ∃ k ∈ Finset.Icc 1 (max depth 1), (g.walksTo {s} k e).Nonempty := by
  classical
  have hcount := count_get_ofRows_take hws ws.length hs e
  rw [List.take_length] at hcount
  rw [← List.count_pos_iff, hcount, List.length_pos_iff_exists_mem, ← hws.exists_attained_iff hs]
  refine exists_congr fun w => ?_
  rw [List.mem_filter, decide_eq_true_iff]

/-- The relation map of all walks counts them. -/
theorem countsWalks :
    RelMap.CountsWalks (RelMap.ofRows (fun _ => true) (g.rows id ws)) g starts depth where
  keys _ := hws.mem_keys_iff
  keys_nodup := RelMap.nodup_keys_ofRows _ _
  count _ hs e := count_get_ofRows hws (hws.mem_keys_iff.1 hs).1 e
  mem _ hs _ := hws.mem_get_iff (hws.mem_keys_iff.1 hs).1

/-- **A relation map counts the walks exactly if nothing is cut off.** -/
theorem countsWalks_ofRows :
    RelMap.CountsWalks (RelMap.ofRows (fun _ => true) (g.rows id (ws.take n))) g starts depth ↔
      ws.length ≤ n := by
  classical
  constructor
  · intro h
    by_contra hcut
    have hlt : n < ws.length := Nat.lt_of_not_le hcut
    -- a walk that is cut off is missing under a start that attains it
    have hdrop : ws[n] ∈ ws.drop n := by
      rw [List.drop_eq_getElem_cons hlt]
      exact List.mem_cons_self
    have hmem := List.mem_of_mem_drop hdrop
    obtain ⟨s, hs, hattains⟩ := (hws.isWalk hmem).exists_attains (hws.ne_nil hmem)
    have hattains' := hattains
    obtain ⟨e, he, -⟩ := hattains'
    have hcount := h.count s ((h.keys s).2 ⟨hs, hattains.exists_leaving⟩) e
    have hall := count_get_ofRows_take hws ws.length hs e
    rw [List.take_length, count_get_ofRows hws hs e] at hall
    rw [count_get_ofRows_take hws n hs e, hall] at hcount
    have hsplit := List.filter_append (p := fun w => decide (g.Attains s w ∧ w.getLast? = some e))
      (ws.take n) (ws.drop n)
    rw [List.take_append_drop] at hsplit
    rw [hsplit, List.length_append] at hcount
    have hpos : 0 < ((ws.drop n).filter fun w =>
        decide (g.Attains s w ∧ w.getLast? = some e)).length :=
      List.length_pos_of_mem (List.mem_filter.2 ⟨hdrop, decide_eq_true ⟨hattains, he⟩⟩)
    omega
  · intro hle
    rw [List.take_of_length_le hle]
    exact hws.countsWalks

end Enumerates

end EdgeList

end GraphBase
