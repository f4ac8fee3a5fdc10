import GraphBase.Traversal.RelMap
import GraphBase.Proofs.Traversal.Walks

/-!
# What a relation map lists

A relation map is made in one pass over the rows of a traversal, and the pass remembers arrivals:
which seed has arrived where, in how many steps.  This file says what the pass computes without
the pass.

## Chains of rows

`HasArrived rows seed k x` holds if there is a chain of `k` rows, of the depths one to `k`, that
leads from the seed to `x`.  A row *belongs* to a seed if the seed is where it begins, for a row
of depth one or less, and otherwise if the seed has arrived there in one step less than the row
is deep.

The pass never looks ahead.  It does not have to: the rows are in order of depth, and a chain to
a row is made of rows that are less deep.  This is `hasArrived_append_of_lt`, and
`mem_seeds_iff_belongs` follows by following the pass.
-/

namespace GraphBase

variable {κ τ : Type}

/-! ## Chains of rows -/

/-- A chain of rows leads from a seed to a node; the depths of the rows count up from one. -/
def HasArrived (rows : List (PathRow κ τ)) (seed : κ) : Nat → κ → Prop
  | 0, _ => False
  | 1, x => ∃ r ∈ rows, r.depth ≤ 1 ∧ r.source = seed ∧ r.target = x
  | k + 2, x => ∃ r ∈ rows, r.depth = k + 2 ∧ HasArrived rows seed (k + 1) r.source ∧ r.target = x

/-- A row can be reached from a seed. -/
def Belongs (rows : List (PathRow κ τ)) (row : PathRow κ τ) (seed : κ) : Prop :=
  if row.depth ≤ 1 then row.source = seed else HasArrived rows seed (row.depth - 1) row.source

theorem belongs_of_le {rows : List (PathRow κ τ)} {row : PathRow κ τ} (h : row.depth ≤ 1)
    (seed : κ) : Belongs rows row seed ↔ row.source = seed := by
  rw [Belongs, if_pos h]

theorem belongs_of_lt {rows : List (PathRow κ τ)} {row : PathRow κ τ} (h : 1 < row.depth)
    (seed : κ) : Belongs rows row seed ↔ HasArrived rows seed (row.depth - 1) row.source := by
  rw [Belongs, if_neg (by omega)]

/-- Whether a seed has arrived depends on which rows there are, and not on their order. -/
theorem hasArrived_congr {rows rows' : List (PathRow κ τ)} (h : ∀ r, r ∈ rows ↔ r ∈ rows')
    (seed : κ) (k : Nat) (x : κ) : HasArrived rows seed k x ↔ HasArrived rows' seed k x := by
  induction k generalizing x with
  | zero => exact Iff.rfl
  | succ k ih =>
    cases k with
    | zero => exact exists_congr fun r => and_congr_left' (h r)
    | succ k => exact exists_congr fun r => and_congr (h r) (and_congr_right' (and_congr_left' (ih _)))

theorem belongs_congr {rows rows' : List (PathRow κ τ)} (h : ∀ r, r ∈ rows ↔ r ∈ rows')
    (row : PathRow κ τ) (seed : κ) : Belongs rows row seed ↔ Belongs rows' row seed := by
  rcases Nat.lt_or_ge 1 row.depth with hlt | hle
  · rw [belongs_of_lt hlt, belongs_of_lt hlt, hasArrived_congr h]
  · rw [belongs_of_le hle, belongs_of_le hle]

/-- Deeper rows are no part of a chain. -/
theorem hasArrived_append_of_lt {rows deeper : List (PathRow κ τ)} {seed : κ} {k : Nat} {x : κ}
    (h : ∀ r ∈ deeper, k < r.depth) :
    HasArrived (rows ++ deeper) seed k x ↔ HasArrived rows seed k x := by
  induction k generalizing x with
  | zero => exact Iff.rfl
  | succ k ih =>
    have hih : ∀ y, HasArrived (rows ++ deeper) seed k y ↔ HasArrived rows seed k y :=
      fun y => ih fun r hr => Nat.lt_of_succ_lt (h r hr)
    cases k with
    | zero =>
      refine exists_congr fun r => and_congr_left fun hr => ?_
      rw [List.mem_append, or_iff_left]
      intro hmem
      have hlt := h r hmem
      omega
    | succ k =>
      refine exists_congr fun r => ?_
      rw [hih, List.mem_append]
      refine and_congr_left fun hr => or_iff_left ?_
      intro hmem
      have hlt := h r hmem
      omega

/-- A row belongs to its seeds whatever rows of its depth, or deeper ones, are added. -/
theorem belongs_append_of_le {rows deeper : List (PathRow κ τ)} {row : PathRow κ τ} {seed : κ}
    (h : ∀ r ∈ deeper, row.depth ≤ r.depth) :
    Belongs (rows ++ deeper) row seed ↔ Belongs rows row seed := by
  rcases Nat.lt_or_ge 1 row.depth with hlt | hle
  · rw [belongs_of_lt hlt, belongs_of_lt hlt]
    refine hasArrived_append_of_lt fun r hr => ?_
    have hle := h r hr
    omega
  · rw [belongs_of_le hle, belongs_of_le hle]

/-- Behind rows that are not deeper, a row adds the arrivals of its seeds where it ends. -/
theorem hasArrived_append_singleton {rows : List (PathRow κ τ)} {row : PathRow κ τ}
    (h : ∀ r ∈ rows, r.depth ≤ row.depth) (seed : κ) (k : Nat) (x : κ) :
    HasArrived (rows ++ [row]) seed k x ↔
      HasArrived rows seed k x ∨
        (row.target = x ∧ max row.depth 1 = k ∧ Belongs rows row seed) := by
  match k with
  | 0 =>
    refine (or_iff_left ?_).symm
    rintro ⟨-, hk, -⟩
    omega
  | 1 =>
    simp only [HasArrived, List.mem_append, List.mem_singleton]
    constructor
    · rintro ⟨r, hr | rfl, hd, hs, ht⟩
      · exact .inl ⟨r, hr, hd, hs, ht⟩
      · exact .inr ⟨ht, by omega, (belongs_of_le hd seed).2 hs⟩
    · rintro (⟨r, hr, hd, hs, ht⟩ | ⟨ht, hk, hb⟩)
      · exact ⟨r, .inl hr, hd, hs, ht⟩
      · have hd : row.depth ≤ 1 := by omega
        exact ⟨row, .inr rfl, hd, (belongs_of_le hd seed).1 hb, ht⟩
  | k + 2 =>
    have hchain : ∀ y, k + 2 ≤ row.depth →
        (HasArrived (rows ++ [row]) seed (k + 1) y ↔ HasArrived rows seed (k + 1) y) := by
      intro y hle
      refine hasArrived_append_of_lt fun r hr => ?_
      rw [List.mem_singleton.1 hr]
      omega
    have hbelongs : row.depth = k + 2 →
        (Belongs rows row seed ↔ HasArrived rows seed (k + 1) row.source) := by
      intro hd
      rw [belongs_of_lt (by omega), hd]
      rfl
    simp only [HasArrived, List.mem_append, List.mem_singleton]
    constructor
    · rintro ⟨r, hr | rfl, hd, ha, ht⟩
      · exact .inl ⟨r, hr, hd, (hchain _ (hd ▸ h r hr)).1 ha, ht⟩
      · exact .inr ⟨ht, by omega, (hbelongs hd).2 ((hchain _ hd.ge).1 ha)⟩
    · rintro (⟨r, hr, hd, ha, ht⟩ | ⟨ht, hk, hb⟩)
      · exact ⟨r, .inl hr, hd, (hchain _ (hd ▸ h r hr)).2 ha, ht⟩
      · have hd : row.depth = k + 2 := by omega
        exact ⟨row, .inr rfl, hd, (hchain _ hd.ge).2 ((hbelongs hd).1 hb), ht⟩

/-! ## The pass -/

section Pass

variable [DecidableEq κ]

/-- What the pass remembers: the arrivals by the rows behind it. -/
def Remembers (arrivals : List (Arrival κ)) (rows : List (PathRow κ τ)) : Prop :=
  ∀ a, a ∈ arrivals ↔ HasArrived rows a.seed a.depth a.node

theorem mem_seedsAt {arrivals : List (Arrival κ)} {x seed : κ} {k : Nat} :
    seed ∈ seedsAt arrivals x k ↔ ⟨x, k, seed⟩ ∈ arrivals := by
  simp only [seedsAt, List.mem_map, List.mem_filter, decide_eq_true_eq]
  constructor
  · rintro ⟨a, ⟨ha, rfl, rfl⟩, rfl⟩
    exact ha
  · intro h
    exact ⟨_, ⟨h, rfl, rfl⟩, rfl⟩

theorem mem_seedsOf {arrivals : List (Arrival κ)} {rows : List (PathRow κ τ)}
    (h : Remembers arrivals rows) {row : PathRow κ τ} {seed : κ} :
    seed ∈ seedsOf arrivals row ↔ Belongs rows row seed := by
  rw [seedsOf]
  rcases Nat.lt_or_ge 1 row.depth with hlt | hle
  · rw [if_neg (by omega), mem_seedsAt, belongs_of_lt hlt, h]
  · rw [if_pos hle, List.mem_singleton, belongs_of_le hle, eq_comm]

theorem mem_arrive {arrivals : List (Arrival κ)} {row : PathRow κ τ} {a : Arrival κ} :
    a ∈ arrive arrivals row ↔
      a ∈ arrivals ∨
        (row.target = a.node ∧ max row.depth 1 = a.depth ∧ a.seed ∈ seedsOf arrivals row) := by
  simp only [arrive, List.mem_append, List.mem_filter, List.mem_map, Bool.not_eq_true',
    List.contains_eq_mem, decide_eq_false_iff_not]
  constructor
  · rintro (⟨⟨s, hs, rfl⟩, -⟩ | ha)
    · exact .inr ⟨rfl, rfl, hs⟩
    · exact .inl ha
  · rintro (ha | ⟨hn, hd, hs⟩)
    · exact .inr ha
    · by_cases ha : a ∈ arrivals
      · exact .inr ha
      · refine .inl ⟨⟨a.seed, hs, ?_⟩, ha⟩
        rw [hn, hd]

theorem remembers_arrive {arrivals : List (Arrival κ)} {rows : List (PathRow κ τ)}
    (h : Remembers arrivals rows) {row : PathRow κ τ} (hrow : ∀ r ∈ rows, r.depth ≤ row.depth) :
    Remembers (arrive arrivals row) (rows ++ [row]) := by
  intro a
  rw [mem_arrive, mem_seedsOf h, hasArrived_append_singleton hrow, h]

theorem map_fst_attributed (arrivals : List (Arrival κ)) (rows : List (PathRow κ τ)) :
    (attributed arrivals rows).map Prod.fst = rows := by
  induction rows generalizing arrivals with
  | nil => rfl
  | cons row rest ih => rw [attributed, List.map_cons, ih]

/-- Nothing behind a row has a say in what it belongs to. -/
theorem attributed_take (arrivals : List (Arrival κ)) (rows : List (PathRow κ τ)) (n : Nat) :
    attributed arrivals (rows.take n) = (attributed arrivals rows).take n := by
  induction rows generalizing arrivals n with
  | nil => rw [List.take_nil, attributed, List.take_nil]
  | cons row rest ih =>
    cases n with
    | zero => rfl
    | succ n => rw [List.take_succ_cons, attributed, attributed, List.take_succ_cons, ih]

theorem mem_seeds_of_remembers {arrivals : List (Arrival κ)} {before rows : List (PathRow κ τ)}
    (h : Remembers arrivals before)
    (hsorted : (before ++ rows).Pairwise fun a b => a.depth ≤ b.depth) :
    ∀ p ∈ attributed arrivals rows, ∀ seed, seed ∈ p.2 ↔ Belongs (before ++ rows) p.1 seed := by
  induction rows generalizing arrivals before with
  | nil => intro p hp; cases hp
  | cons row rest ih =>
    obtain ⟨-, hrest, hbefore⟩ := List.pairwise_append.1 hsorted
    intro p hp seed
    rcases List.mem_cons.1 hp with rfl | hp
    · have hdeeper : ∀ r ∈ row :: rest, row.depth ≤ r.depth := by
        intro r hr
        rcases List.mem_cons.1 hr with rfl | hr
        · exact le_rfl
        · exact (List.pairwise_cons.1 hrest).1 r hr
      rw [mem_seedsOf h, belongs_append_of_le hdeeper]
    · have hstep := remembers_arrive h fun r hr => hbefore r hr row List.mem_cons_self
      have hassoc : before ++ row :: rest = before ++ [row] ++ rest := by
        rw [List.append_assoc, List.singleton_append]
      rw [hassoc] at hsorted ⊢
      exact ih hstep hsorted p hp seed

/-- **The pass finds the seeds that each row belongs to.** -/
theorem mem_seeds_iff_belongs {rows : List (PathRow κ τ)}
    (hsorted : rows.Pairwise fun a b => a.depth ≤ b.depth) :
    ∀ p ∈ attributed [] rows, ∀ seed, seed ∈ p.2 ↔ Belongs rows p.1 seed := by
  have hnothing : Remembers [] ([] : List (PathRow κ τ)) := by
    rintro ⟨x, k, s⟩
    refine iff_of_false List.not_mem_nil ?_
    rcases k with _ | _ | k
    · exact id
    · rintro ⟨r, hr, -⟩
      cases hr
    · rintro ⟨r, hr, -⟩
      cases hr
  exact mem_seeds_of_remembers hnothing hsorted

end Pass

theorem mem_sortByDepth {rows : List (PathRow κ τ)} {r : PathRow κ τ} :
    r ∈ sortByDepth rows ↔ r ∈ rows :=
  List.mem_mergeSort

theorem pairwise_sortByDepth (rows : List (PathRow κ τ)) :
    (sortByDepth rows).Pairwise fun a b => a.depth ≤ b.depth := by
  let le (a b : PathRow κ τ) : Bool := decide (a.depth ≤ b.depth)
  have htrans : ∀ a b c, le a b = true → le b c = true → le a c = true := by
    intro a b c hab hbc
    exact decide_eq_true ((of_decide_eq_true hab).trans (of_decide_eq_true hbc))
  have htotal : ∀ a b, (le a b || le b a) = true := by
    intro a b
    rw [Bool.or_eq_true, decide_eq_true_eq, decide_eq_true_eq]
    exact Nat.le_total a.depth b.depth
  exact (List.pairwise_mergeSort htrans htotal rows).imp of_decide_eq_true

theorem sortByDepth_eq_self {rows : List (PathRow κ τ)}
    (h : rows.Pairwise fun a b => a.depth ≤ b.depth) : sortByDepth rows = rows :=
  List.mergeSort_of_pairwise (h.imp decide_eq_true)

/-! ## Relation maps -/

/-- Nothing is left twice. -/
theorem nodup_eraseDups {α : Type} [DecidableEq α] (l : List α) : l.eraseDups.Nodup := by
  induction h : l.length using Nat.strong_induction_on generalizing l with
  | _ n ih =>
    cases l with
    | nil => exact .nil
    | cons a rest =>
      rw [List.eraseDups_cons]
      have hlt : (rest.filter fun b => !b == a).length < n := by
        have hle := List.length_filter_le (fun b => !b == a) rest
        rw [List.length_cons] at h
        omega
      refine List.nodup_cons.2 ⟨fun hmem => ?_, ih _ hlt _ rfl⟩
      have hne := (List.mem_filter.1 (List.mem_eraseDups.1 hmem)).2
      simp at hne

namespace RelMap

variable [DecidableEq κ]

/-- The seeds that have an entry. -/
def keys (m : RelMap κ τ) : List κ := m.map Prod.fst

theorem keys_ofAttributed (rows : List (PathRow κ τ × List κ)) :
    keys (ofAttributed rows) = (rows.flatMap (·.2)).eraseDups := by
  rw [keys, ofAttributed, List.map_map]
  exact List.map_id _

/-- Nothing is listed of no rows. -/
theorem ofRows_nil (keep : τ → Bool) : ofRows keep ([] : List (PathRow κ τ)) = [] := by
  rw [ofRows, sortByDepth, List.mergeSort_nil]
  rfl

/-- No seed has two entries. -/
theorem nodup_keys_ofRows (keep : τ → Bool) (rows : List (PathRow κ τ)) :
    (keys (ofRows keep rows)).Nodup := by
  rw [ofRows, keys_ofAttributed]
  exact nodup_eraseDups _

theorem mem_keys_ofAttributed {rows : List (PathRow κ τ × List κ)} {seed : κ} :
    seed ∈ keys (ofAttributed rows) ↔ ∃ r ∈ rows, seed ∈ r.2 := by
  rw [keys_ofAttributed, List.mem_eraseDups, List.mem_flatMap]

theorem get_ofAttributed (rows : List (PathRow κ τ × List κ)) (seed : κ) :
    get (ofAttributed rows) seed =
      (rows.filter fun r => r.2.contains seed).map fun r => r.1.triplet := by
  rw [get, ofAttributed, List.find?_map]
  set ids := (rows.flatMap (·.2)).eraseDups with hids
  have hcomp : ((fun e : κ × List τ => decide (e.1 = seed)) ∘ fun s =>
      (s, (rows.filter fun r => r.2.contains s).map fun r => r.1.triplet)) =
        fun s => decide (s = seed) := rfl
  rw [hcomp]
  cases hfind : ids.find? fun s => decide (s = seed) with
  | some s =>
    have hs : s = seed := by simpa using List.find?_some hfind
    rw [hs]
    rfl
  | none =>
    have hnone : ∀ r ∈ rows, seed ∉ r.2 := by
      intro r hr hs
      have hmem : seed ∈ ids := by
        rw [hids, List.mem_eraseDups, List.mem_flatMap]
        exact ⟨r, hr, hs⟩
      simpa using List.find?_eq_none.1 hfind seed hmem
    have hempty : (rows.filter fun r => r.2.contains seed) = [] := by
      refine List.filter_eq_nil_iff.2 fun r hr => ?_
      rw [List.contains_eq_mem, decide_eq_true_eq]
      exact hnone r hr
    rw [hempty]
    rfl

/-- **A seed has an entry exactly if a row that is shown belongs to it.** -/
theorem mem_keys_ofRows {keep : τ → Bool} {rows : List (PathRow κ τ)} {seed : κ} :
    seed ∈ keys (ofRows keep rows) ↔
      ∃ r ∈ rows, keep r.triplet = true ∧ Belongs rows r seed := by
  have hsame := mem_seeds_iff_belongs (pairwise_sortByDepth rows)
  rw [ofRows, mem_keys_ofAttributed]
  constructor
  · rintro ⟨p, hp, hs⟩
    obtain ⟨hp, hkeep⟩ := List.mem_filter.1 hp
    have hfst : p.1 ∈ sortByDepth rows := by
      rw [← map_fst_attributed [] (sortByDepth rows)]
      exact List.mem_map_of_mem hp
    exact ⟨p.1, mem_sortByDepth.1 hfst, hkeep,
      (belongs_congr (fun _ => mem_sortByDepth) _ _).1 ((hsame p hp seed).1 hs)⟩
  · rintro ⟨r, hr, hkeep, hb⟩
    rw [← mem_sortByDepth, ← map_fst_attributed [] (sortByDepth rows)] at hr
    obtain ⟨p, hp, rfl⟩ := List.mem_map.1 hr
    exact ⟨p, List.mem_filter.2 ⟨hp, hkeep⟩,
      (hsame p hp seed).2 ((belongs_congr (fun _ => mem_sortByDepth) _ _).2 hb)⟩

open Classical in
/-- **Under a seed stand the rows that are shown and belong to it, in order of depth.** -/
theorem get_ofRows (keep : τ → Bool) (rows : List (PathRow κ τ)) (seed : κ) :
    get (ofRows keep rows) seed =
      ((sortByDepth rows).filter fun r => keep r.triplet && decide (Belongs rows r seed)).map
        fun r => r.triplet := by
  have hsame := mem_seeds_iff_belongs (pairwise_sortByDepth rows)
  rw [ofRows, get_ofAttributed, List.filter_filter]
  conv_rhs => rw [← map_fst_attributed [] (sortByDepth rows), List.filter_map, List.map_map]
  refine congrArg (List.map _) (List.filter_congr fun p hp => ?_)
  rw [Bool.and_comm, List.contains_eq_mem]
  refine congrArg (keep p.1.triplet && ·) (decide_eq_decide.2 ?_)
  rw [hsame p hp seed]
  exact belongs_congr (fun _ => mem_sortByDepth) _ _

end RelMap

end GraphBase
