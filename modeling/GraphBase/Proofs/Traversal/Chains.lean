import GraphBase.Proofs.Storage.Numbered
import GraphBase.Proofs.Traversal.Attribution
import Mathlib.Data.List.Chain

/-!
# Relation maps of arbitrary rows

The rows of a traversal come in order of depth, without gaps, and each with rows that lead to it.
A relation map asks for none of this.  This file says what it lists of rows that may be anything:
of any depth, zero included, in any order, repeated, and with depths left out.

## Chains

A *chain* is written down as the list of its rows (`LeadsTo`).  Its rows are on the levels one, two
and so on; a row of depth zero is on the first level, like one of depth one.  `hasArrived_iff` says
that the arrivals which the pass remembers are the ends of such chains, so a row belongs to a seed
if it begins there on the first level, or where a chain from the seed ends on the level before its
own (`IsReached`).

## Order

Rows of one depth stay in the order in which they are given (`filter_depth_sortByDepth`).  Whether a
row is reached depends on which rows there are and not on their order.  So if the rows are given in
another order, a list under a seed changes among rows of one depth at most (`listed_perm`).

Rows that are not shown are left out at the very end.  So a relation map that hides rows is the one
that shows all of them, without the hidden rows and without the seeds that are left with nothing
(`ofRows_perm_prune`).  The entries of a relation map have no order of their own.
-/

namespace GraphBase

variable {κ τ : Type}

/-- The level of a row: its depth, but never less than one. -/
def PathRow.level (row : PathRow κ τ) : Nat := max row.depth 1

/-- A chain of rows leads from a seed to a node: its levels count up from one, and each of its
rows begins where the row before it ends. -/
structure LeadsTo (rows : List (PathRow κ τ)) (seed : κ) (chain : List (PathRow κ τ)) (x : κ) :
    Prop where
  mem : ∀ r ∈ chain, r ∈ rows
  levels : chain.map PathRow.level = List.range' 1 chain.length
  joined : chain.IsChain fun a b => a.target = b.source
  first : chain.head?.map PathRow.source = some seed
  last : chain.getLast?.map PathRow.target = some x

/-- A row is reached from a seed: it begins there on the first level, or a chain of all levels
before its own leads there from the seed. -/
def IsReached (rows : List (PathRow κ τ)) (row : PathRow κ τ) (seed : κ) : Prop :=
  (row.depth ≤ 1 ∧ row.source = seed) ∨
    ∃ chain, chain.length + 1 = row.depth ∧ LeadsTo rows seed chain row.source

variable {rows rows' : List (PathRow κ τ)} {row : PathRow κ τ} {seed x : κ}

/-! ## Chains -/

theorem LeadsTo.ne_nil {chain : List (PathRow κ τ)} (h : LeadsTo rows seed chain x) :
    chain ≠ [] := by
  rintro rfl
  simpa using h.first

theorem leadsTo_singleton :
    LeadsTo rows seed [row] x ↔
      row ∈ rows ∧ row.depth ≤ 1 ∧ row.source = seed ∧ row.target = x := by
  constructor
  · intro h
    have hlevel : max row.depth 1 = 1 := by simpa [PathRow.level] using h.levels
    refine ⟨h.mem row List.mem_cons_self, by omega, by simpa using h.first, by simpa using h.last⟩
  · rintro ⟨hmem, hdepth, rfl, rfl⟩
    refine ⟨by simpa using hmem, ?_, .singleton _, rfl, rfl⟩
    simp [PathRow.level, hdepth]

/-- A chain goes on with a row of the next level that begins where it ends. -/
theorem leadsTo_concat {chain : List (PathRow κ τ)} (hne : chain ≠ []) :
    LeadsTo rows seed (chain ++ [row]) x ↔
      LeadsTo rows seed chain row.source ∧ row ∈ rows ∧ row.level = chain.length + 1 ∧
        row.target = x := by
  have hrange : List.range' 1 (chain ++ [row]).length =
      List.range' 1 chain.length ++ [chain.length + 1] := by
    rw [List.length_append, List.length_singleton, List.range'_concat]
    simp [Nat.add_comm]
  have hhead : (chain ++ [row]).head? = chain.head? := List.head?_append_of_ne_nil chain hne
  have hlast := List.getLast?_eq_some_getLast hne
  constructor
  · intro h
    have hlevels := h.levels
    rw [List.map_append, hrange] at hlevels
    obtain ⟨hbefore, hrow⟩ := List.append_inj hlevels (by simp)
    obtain ⟨hchain, -, hjoin⟩ := List.isChain_append.1 h.joined
    refine ⟨⟨fun r hr => h.mem r (List.mem_append_left _ hr), hbefore, hchain, hhead ▸ h.first, ?_⟩,
      h.mem row (by simp), by simpa using hrow, by simpa using h.last⟩
    rw [hlast]
    exact congrArg some (hjoin _ hlast row rfl)
  · rintro ⟨h, hmem, hlevel, rfl⟩
    refine ⟨?_, ?_, h.joined.append (.singleton row) ?_, hhead ▸ h.first, by simp⟩
    · intro r hr
      rcases List.mem_append.1 hr with hr | hr
      · exact h.mem r hr
      · rwa [List.mem_singleton.1 hr]
    · rw [List.map_append, hrange, h.levels, List.map_singleton, hlevel]
    · intro a ha b hb
      have hend := h.last
      rw [Option.mem_def.1 ha] at hend
      rw [← Option.some.inj (Option.mem_def.1 hb)]
      exact Option.some.inj hend

/-- **The pass remembers the ends of chains.** -/
theorem hasArrived_iff {k : Nat} :
    HasArrived rows seed k x ↔ ∃ chain, chain.length = k ∧ LeadsTo rows seed chain x := by
  -- on the number of rows; `HasArrived` takes the last row of a chain off
  induction k generalizing x with
  | zero =>
    refine iff_of_false id ?_
    rintro ⟨chain, hlength, h⟩
    exact h.ne_nil (List.length_eq_zero_iff.1 hlength)
  | succ k ih =>
    cases k with
    | zero =>
      constructor
      · rintro ⟨r, hr, hdepth, hsource, htarget⟩
        exact ⟨[r], rfl, leadsTo_singleton.2 ⟨hr, hdepth, hsource, htarget⟩⟩
      · rintro ⟨chain, hlength, h⟩
        obtain ⟨r, rfl⟩ := List.length_eq_one_iff.1 hlength
        obtain ⟨hr, hdepth, hsource, htarget⟩ := leadsTo_singleton.1 h
        exact ⟨r, hr, hdepth, hsource, htarget⟩
    | succ k =>
      constructor
      · rintro ⟨r, hr, hdepth, harrived, htarget⟩
        obtain ⟨chain, hlength, h⟩ := ih.1 harrived
        refine ⟨chain ++ [r], by simp [hlength],
          (leadsTo_concat h.ne_nil).2 ⟨h, hr, ?_, htarget⟩⟩
        rw [PathRow.level, hlength]
        omega
      · rintro ⟨chain, hlength, h⟩
        obtain ⟨before, r, rfl⟩ := (List.eq_nil_or_concat' chain).resolve_left h.ne_nil
        have hbefore : before.length = k + 1 := by simpa using hlength
        have hne : before ≠ [] := by
          rintro rfl
          simp at hbefore
        obtain ⟨hchain, hr, hlevel, htarget⟩ := (leadsTo_concat hne).1 h
        refine ⟨r, hr, ?_, ih.2 ⟨before, hbefore, hchain⟩, htarget⟩
        rw [PathRow.level] at hlevel
        omega

theorem belongs_iff_isReached : Belongs rows row seed ↔ IsReached rows row seed := by
  unfold IsReached
  by_cases hdepth : row.depth ≤ 1
  · rw [belongs_of_le hdepth]
    constructor
    · intro hsource
      exact .inl ⟨hdepth, hsource⟩
    · rintro (⟨-, hsource⟩ | ⟨chain, hlength, h⟩)
      · exact hsource
      · have hpos := List.length_pos_iff.2 h.ne_nil
        omega
  · rw [belongs_of_lt (by omega), hasArrived_iff, or_iff_right fun h => hdepth h.1]
    refine exists_congr fun chain => and_congr_left' ?_
    omega

theorem isReached_congr (h : ∀ r, r ∈ rows ↔ r ∈ rows') :
    IsReached rows row seed ↔ IsReached rows' row seed := by
  rw [← belongs_iff_isReached, ← belongs_iff_isReached, belongs_congr h]

/-! ## Order -/

/-- **Rows of one depth stay in their order.** -/
theorem filter_depth_sortByDepth (rows : List (PathRow κ τ)) (d : Nat) :
    ((sortByDepth rows).filter fun r => r.depth = d) = rows.filter fun r => r.depth = d := by
  have hperm : (sortByDepth rows).Perm rows := List.mergeSort_perm rows _
  have hsub : (rows.filter fun r => r.depth = d).Sublist (sortByDepth rows) := by
    refine List.sublist_mergeSort ?_ ?_ ?_ List.filter_sublist
    · intro a b c hab hbc
      simp only [decide_eq_true_eq] at hab hbc ⊢
      omega
    · intro a b
      simpa using Nat.le_total a.depth b.depth
    · refine List.pairwise_of_forall_mem_list fun a ha b hb => ?_
      have hda : a.depth = d := by simpa using (List.mem_filter.1 ha).2
      have hdb : b.depth = d := by simpa using (List.mem_filter.1 hb).2
      simp [hda, hdb]
  have hfiltered := hsub.filter fun r => decide (r.depth = d)
  rw [List.filter_filter] at hfiltered
  simp only [Bool.and_self] at hfiltered
  exact (hfiltered.eq_of_length (hperm.filter _).length_eq.symm).symm

namespace RelMap

open Classical in
/-- The rows that are listed under a seed: those that are shown and reached, in order of depth. -/
noncomputable def listed (keep : τ → Bool) (rows : List (PathRow κ τ)) (seed : κ) :
    List (PathRow κ τ) :=
  (sortByDepth rows).filter fun r => keep r.triplet && decide (IsReached rows r seed)

theorem mem_listed {keep : τ → Bool} :
    row ∈ listed keep rows seed ↔
      row ∈ rows ∧ keep row.triplet = true ∧ IsReached rows row seed := by
  simp [listed, mem_sortByDepth]

theorem pairwise_listed (keep : τ → Bool) (rows : List (PathRow κ τ)) (seed : κ) :
    (listed keep rows seed).Pairwise fun a b => a.depth ≤ b.depth :=
  (pairwise_sortByDepth rows).filter _

open Classical in
/-- What is listed of one depth is in the order in which it is given. -/
theorem filter_depth_listed (keep : τ → Bool) (rows : List (PathRow κ τ)) (seed : κ) (d : Nat) :
    ((listed keep rows seed).filter fun r => r.depth = d) =
      (rows.filter fun r => r.depth = d).filter fun r =>
        keep r.triplet && decide (IsReached rows r seed) := by
  rw [← filter_depth_sortByDepth rows, listed, List.filter_filter, List.filter_filter]
  exact List.filter_congr fun r _ => Bool.and_comm _ _

/-- **In another order of the rows**, the rows under a seed have the same depths one after the
other, and those of one depth are the same up to their order. -/
theorem listed_perm (h : rows.Perm rows') (keep : τ → Bool) (seed : κ) :
    (listed keep rows seed).map PathRow.depth = (listed keep rows' seed).map PathRow.depth ∧
      ∀ d, ((listed keep rows seed).filter fun r => r.depth = d).Perm
        ((listed keep rows' seed).filter fun r => r.depth = d) := by
  classical
  have hsame : ∀ r, IsReached rows r seed ↔ IsReached rows' r seed :=
    fun r => isReached_congr fun r => h.mem_iff
  have hsorted : (sortByDepth rows).Perm (sortByDepth rows') :=
    (List.mergeSort_perm rows _).trans (h.trans (List.mergeSort_perm rows' _).symm)
  constructor
  · have hperm : (listed keep rows seed).Perm (listed keep rows' seed) := by
      simp only [listed, hsame]
      exact hsorted.filter _
    refine (hperm.map PathRow.depth).eq_of_pairwise (fun a b _ _ => Nat.le_antisymm) ?_ ?_
    · exact List.pairwise_map.2 (pairwise_listed keep rows seed)
    · exact List.pairwise_map.2 (pairwise_listed keep rows' seed)
  · intro d
    rw [filter_depth_listed, filter_depth_listed]
    simp only [hsame]
    exact (h.filter _).filter _

variable [DecidableEq κ]

/-- **What stands under a seed** are the triplets of the rows that are listed there. -/
theorem get_ofRows_eq (keep : τ → Bool) (rows : List (PathRow κ τ)) (seed : κ) :
    get (ofRows keep rows) seed = (listed keep rows seed).map PathRow.triplet := by
  rw [get_ofRows, listed]
  refine congrArg (List.map _) (List.filter_congr fun r _ => ?_)
  rw [decide_eq_decide.2 belongs_iff_isReached]

theorem mem_keys_ofRows_iff {keep : τ → Bool} :
    seed ∈ keys (ofRows keep rows) ↔ get (ofRows keep rows) seed ≠ [] := by
  rw [mem_keys_ofRows, get_ofRows_eq, Ne, List.map_eq_nil_iff, List.eq_nil_iff_forall_not_mem]
  simp only [mem_listed, belongs_iff_isReached, not_forall, not_not]

/-! ## Hiding rows -/

/-- A relation map without the triplets that are not shown, and without the seeds that are left
with nothing. -/
def prune (keep : τ → Bool) (m : RelMap κ τ) : RelMap κ τ :=
  (m.map fun e => (e.1, e.2.filter keep)).filter fun e => !e.2.isEmpty

omit [DecidableEq κ] in
theorem mem_prune {keep : τ → Bool} {m : RelMap κ τ} {e : κ × List τ} :
    e ∈ prune keep m ↔ ∃ l, (e.1, l) ∈ m ∧ e.2 = l.filter keep ∧ e.2 ≠ [] := by
  simp only [prune, List.mem_filter, List.mem_map, Bool.not_eq_true', List.isEmpty_eq_false_iff]
  constructor
  · rintro ⟨⟨e', he', rfl⟩, hne⟩
    exact ⟨e'.2, he', rfl, hne⟩
  · rintro ⟨l, hl, heq, hne⟩
    exact ⟨⟨_, hl, by rw [← heq]⟩, hne⟩

/-- The entries of a map are its keys with what stands under them. -/
theorem mem_iff_get {m : RelMap κ τ} (h : (keys m).Nodup) {e : κ × List τ} :
    e ∈ m ↔ e.1 ∈ keys m ∧ e.2 = get m e.1 := by
  have hfind : ∀ e' ∈ m, (m.find? fun e'' => e''.1 == e'.1) = some e' :=
    fun e' he' => (find?_key_eq_some h).2 ⟨he', rfl⟩
  constructor
  · intro he
    refine ⟨List.mem_map_of_mem he, ?_⟩
    exact (congrArg (fun found => (found.map Prod.snd).getD []) (hfind e he)).symm
  · rintro ⟨hkey, hget⟩
    obtain ⟨e', he', hsame⟩ := List.mem_map.1 hkey
    have hvalue : get m e.1 = e'.2 :=
      hsame ▸ congrArg (fun found => (found.map Prod.snd).getD []) (hfind e' he')
    rwa [show e = e' from Prod.ext hsame.symm (hget.trans hvalue)]

theorem get_ofRows_filter (keep : τ → Bool) (rows : List (PathRow κ τ)) (seed : κ) :
    get (ofRows keep rows) seed = (get (ofRows (fun _ => true) rows) seed).filter keep := by
  rw [get_ofRows_eq, get_ofRows_eq, List.filter_map, listed, listed, List.filter_filter]
  rfl

/-- **Hiding rows** is leaving them out of the relation map that shows all of them. -/
theorem ofRows_perm_prune (keep : τ → Bool) (rows : List (PathRow κ τ)) :
    (ofRows keep rows).Perm (prune keep (ofRows (fun _ => true) rows)) := by
  have hnodup := nodup_keys_ofRows keep rows
  have hall := nodup_keys_ofRows (fun _ => true) rows
  have hpruned : (prune keep (ofRows (fun _ => true) rows)).Nodup := by
    refine List.Nodup.filter _ (List.Nodup.of_map Prod.fst ?_)
    rwa [List.map_map]
  refine (List.perm_ext_iff_of_nodup (List.Nodup.of_map Prod.fst hnodup) hpruned).2 fun e => ?_
  rw [mem_iff_get hnodup, mem_prune, mem_keys_ofRows_iff, get_ofRows_filter]
  constructor
  · rintro ⟨hne, heq⟩
    refine ⟨_, (mem_iff_get hall).2 ⟨mem_keys_ofRows_iff.2 fun hnil => hne ?_, rfl⟩, heq, heq ▸ hne⟩
    rw [hnil, List.filter_nil]
  · rintro ⟨l, hl, heq, hne⟩
    obtain ⟨-, hget⟩ := (mem_iff_get hall).1 hl
    rw [show get _ e.1 = l from hget.symm, ← heq]
    exact ⟨hne, rfl⟩

/-! ## All together -/

/-- What a relation map has to do with the rows that it is made of. -/
structure ListsReached (keep : τ → Bool) (rows : List (PathRow κ τ)) (m : RelMap κ τ) : Prop where
  /-- The rows are put in order of depth, and stay in their order otherwise. -/
  sorted : (sortByDepth rows).Pairwise fun a b => a.depth ≤ b.depth
  stable : ∀ d, ((sortByDepth rows).filter fun r => r.depth = d) =
    rows.filter fun r => r.depth = d
  /-- Under a seed stand the rows that are shown and reached from it, each once. -/
  get_eq : ∀ s, get m s = (listed keep rows s).map PathRow.triplet
  keys_nodup : (keys m).Nodup
  mem_keys : ∀ s, s ∈ keys m ↔ get m s ≠ []
  /-- Another order of the rows is an order among rows of one depth. -/
  reordered : ∀ rows', rows.Perm rows' → ∀ s,
    get (ofRows keep rows') s = (listed keep rows' s).map PathRow.triplet ∧
    (listed keep rows s).map PathRow.depth = (listed keep rows' s).map PathRow.depth ∧
    ∀ d, ((listed keep rows s).filter fun r => r.depth = d).Perm
      ((listed keep rows' s).filter fun r => r.depth = d)
  pruned : m.Perm (prune keep (ofRows (fun _ => true) rows))

/-- **A relation map lists exactly the rows that a chain of rows leads to**, whatever the rows are
and whichever of them are shown. -/
theorem listsReached_ofRows (keep : τ → Bool) (rows : List (PathRow κ τ)) :
    ListsReached keep rows (ofRows keep rows) where
  sorted := pairwise_sortByDepth rows
  stable := filter_depth_sortByDepth rows
  get_eq := get_ofRows_eq keep rows
  keys_nodup := nodup_keys_ofRows keep rows
  mem_keys _ := mem_keys_ofRows_iff
  reordered rows' h s := ⟨get_ofRows_eq keep rows' s, listed_perm h keep s⟩
  pruned := ofRows_perm_prune keep rows

/-- The row of depth three has no chain, since none of depth two leads there. -/
example : ofRows (fun _ => true) [⟨3, "B", "C", 3⟩, ⟨0, "A", "B", 0⟩, ⟨2, "B", "A", 2⟩] =
    [("A", [0, 2])] := by
  cbv

end RelMap

end GraphBase
