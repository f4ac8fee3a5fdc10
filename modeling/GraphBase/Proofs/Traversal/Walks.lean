import GraphBase.Traversal.Walk
import Mathlib.Data.List.Nodup
import Mathlib.Data.Set.Card

/-!
# The walks behind a traversal

A traversal lists the last edges of walks, level by level, and never writes down the walks
themselves.  This file writes them down.

## Walks

An `EdgeList` is a graph given by its edges.  A walk from a set of nodes is a list of its edges
of which the first leaves one of the nodes and every other one begins where the edge before it
ends (`EdgeList.IsWalk`).  Nothing else is asked: a walk may come back to a node, and it may use
an edge again.

## The enumeration

`EdgeList.walks` carries every walk along with its last edge, in the order in which the traversal
comes to it.  It lists each walk up to a length exactly once, shorter walks first
(`enumerates_walks`), and dropping everything but the last edge gives the traversal back
(`ends_eq_walks`).

The step from a level to the next is the same function on both sides, up to the walk that is
carried along; `map_levelAfter` says once that such a difference does not matter, and it is used
again wherever the edges of a traversal are read as something else.
-/

namespace GraphBase

namespace Walk

variable {ε ζ : Type}

/-! ## Levels by their number -/

/-- The level that lies a number of steps behind a level. -/
def levelAfter (next : ε → List ε) (level : List ε) : Nat → List ε
  | 0 => level
  | i + 1 => levelAfter next (level.flatMap next) i

@[simp] theorem levelAfter_zero (next : ε → List ε) (level : List ε) :
    levelAfter next level 0 = level := rfl

theorem levelAfter_nil (next : ε → List ε) (i : Nat) : levelAfter next [] i = [] := by
  induction i with
  | zero => rfl
  | succ i ih => exact ih

/-- One more step may be taken at the end as well. -/
theorem levelAfter_succ (next : ε → List ε) (level : List ε) (i : Nat) :
    levelAfter next level (i + 1) = (levelAfter next level i).flatMap next := by
  induction i generalizing level with
  | zero => rfl
  | succ i ih => exact ih (level.flatMap next)

/-- The levels of a traversal are those of all numbers below the depth: once a level is empty,
the ones behind it are empty as well. -/
theorem tagged_levels (next : ε → List ε) (start n : Nat) (level : List ε) :
    tagged start (levels next n level) =
      (List.range n).flatMap fun i => (levelAfter next level i).map (start + i, ·) := by
  induction n generalizing start level with
  | zero => rfl
  | succ n ih =>
    rw [List.range_succ_eq_map, List.flatMap_cons, List.flatMap_map, Nat.add_zero,
      levelAfter_zero]
    rcases eq_or_ne level [] with rfl | hne
    · rw [levels_nil, tagged_nil, List.map_nil, List.nil_append]
      refine (List.flatMap_eq_nil_iff.2 fun i _ => ?_).symm
      rw [levelAfter_nil, List.map_nil]
    · rw [levels_succ next n hne, tagged_cons, ih (start + 1) (level.flatMap next)]
      refine congrArg (level.map (start, ·) ++ ·) (List.flatMap_congr fun i _ => ?_)
      rw [Nat.succ_eq_add_one, Nat.add_right_comm, Nat.add_assoc]
      rfl

theorem ends_eq_flatMap (next : ε → List ε) (depth : Nat) (first : List ε) :
    ends next depth first =
      (List.range (max depth 1)).flatMap fun i => (levelAfter next first i).map (i + 1, ·) := by
  rw [ends, tagged_levels]
  refine List.flatMap_congr fun i _ => ?_
  rw [Nat.add_comm]

/-- Reading the entries of a level as something else commutes with going on, as long as it
commutes for the entries that can come up. -/
theorem map_levelAfter {P : ε → Prop} {next : ε → List ε} {next' : ζ → List ζ} {f : ε → ζ}
    (hP : ∀ x, P x → ∀ y ∈ next x, P y) (hf : ∀ x, P x → (next x).map f = next' (f x))
    {level : List ε} (hl : ∀ x ∈ level, P x) (i : Nat) :
    (levelAfter next level i).map f = levelAfter next' (level.map f) i := by
  induction i generalizing level with
  | zero => rfl
  | succ i ih =>
    have hl' : ∀ y ∈ level.flatMap next, P y := by
      intro y hy
      obtain ⟨x, hx, hxy⟩ := List.mem_flatMap.1 hy
      exact hP x (hl x hx) y hxy
    have hstep : (level.flatMap next).map f = (level.map f).flatMap next' := by
      rw [List.map_flatMap, List.flatMap_map]
      exact List.flatMap_congr fun x hx => hf x (hl x hx)
    rw [levelAfter, levelAfter, ih hl', hstep]

/-- What holds of the entries of a first level and is kept by going on holds of all entries. -/
theorem forall_mem_ends {P : ε → Prop} {next : ε → List ε} (hP : ∀ x, P x → ∀ y ∈ next x, P y)
    {first : List ε} (hl : ∀ x ∈ first, P x) (depth : Nat) :
    ∀ row ∈ ends next depth first, P row.2 := by
  have hlevel : ∀ i, ∀ x ∈ levelAfter next first i, P x := by
    intro i
    induction i with
    | zero => exact hl
    | succ i ih =>
      intro y hy
      rw [levelAfter_succ, List.mem_flatMap] at hy
      obtain ⟨x, hx, hxy⟩ := hy
      exact hP x (ih x hx) y hxy
  intro row hrow
  rw [ends_eq_flatMap, List.mem_flatMap] at hrow
  obtain ⟨i, -, hi⟩ := hrow
  obtain ⟨x, hx, rfl⟩ := List.mem_map.1 hi
  exact hlevel i x hx

theorem map_ends {P : ε → Prop} {next : ε → List ε} {next' : ζ → List ζ} {f : ε → ζ}
    (hP : ∀ x, P x → ∀ y ∈ next x, P y) (hf : ∀ x, P x → (next x).map f = next' (f x))
    {first : List ε} (hl : ∀ x ∈ first, P x) (depth : Nat) :
    (ends next depth first).map (fun row => (row.1, f row.2)) =
      ends next' depth (first.map f) := by
  rw [ends_eq_flatMap, ends_eq_flatMap, List.map_flatMap]
  refine List.flatMap_congr fun i _ => ?_
  rw [← map_levelAfter hP hf hl i, List.map_map, List.map_map]
  rfl

/-! ## Carrying the walk along -/

/-- Goes on from the last edge of a walk; the pair is the edges before the last one and the
last one. -/
def extend (next : ε → List ε) (p : List ε × ε) : List (List ε × ε) :=
  (next p.2).map fun e => (p.1 ++ [p.2], e)

/-- The walks of a level, each as the edges before the last one and the last one. -/
def trails (next : ε → List ε) (first : List ε) (i : Nat) : List (List ε × ε) :=
  levelAfter (extend next) (first.map fun e => ([], e)) i

theorem map_snd_trails (next : ε → List ε) (first : List ε) (i : Nat) :
    (trails next first i).map Prod.snd = levelAfter next first i := by
  have hstep : ∀ p : List ε × ε, True → (extend next p).map Prod.snd = next p.2 := by
    intro p _
    rw [extend, List.map_map]
    exact List.map_id _
  rw [trails, map_levelAfter (fun _ _ _ _ => trivial) hstep (fun _ _ => trivial), List.map_map]
  exact congrArg (levelAfter next · i) (List.map_id _)

/-- Different walks go on to different walks, so no walk comes up twice. -/
theorem nodup_trails {next : ε → List ε} {first : List ε} (hfirst : first.Nodup)
    (hnext : ∀ e, (next e).Nodup) (i : Nat) : (trails next first i).Nodup := by
  induction i with
  | zero => exact hfirst.map fun a b h => (Prod.mk.inj h).2
  | succ i ih =>
    rw [trails, levelAfter_succ, List.nodup_flatMap]
    refine ⟨fun p _ => (hnext p.2).map fun a b h => (Prod.mk.inj h).2, ?_⟩
    refine ih.imp fun {p q} hpq => ?_
    intro r hp hq
    obtain ⟨e, -, rfl⟩ := List.mem_map.1 hp
    obtain ⟨f, -, hf⟩ := List.mem_map.1 hq
    have hfst := (Prod.mk.inj hf).1
    have hinit := List.append_inj_left' hfst rfl
    have hlast := List.append_inj_right' hfst rfl
    exact hpq (Prod.ext hinit.symm (List.cons.inj hlast).1.symm)

end Walk

/-! ## Graphs and their walks -/

/-- A graph, as the list of its edges with the nodes where they begin and end. -/
structure EdgeList (ε κ : Type) where
  edges : List ε
  source : ε → κ
  target : ε → κ

namespace EdgeList

variable {ε κ : Type} (g : EdgeList ε κ)

/-- A walk from some nodes: its first edge leaves one of them, and every other edge begins
where the one before it ends. -/
structure IsWalk (starts : Set κ) (w : List ε) : Prop where
  edges : ∀ e ∈ w, e ∈ g.edges
  begins : ∀ e ∈ w.head?, g.source e ∈ starts
  linked : w.IsChain fun e f => g.target e = g.source f

/-- The walks of a number of edges that end with an edge. -/
def walksTo (starts : Set κ) (k : Nat) (e : ε) : Set (List ε) :=
  {w | g.IsWalk starts w ∧ w.length = k ∧ w.getLast? = some e}

/-- The walks that a traversal up to a depth goes through. -/
def walksUpTo (starts : Set κ) (depth : Nat) : Set (List ε) :=
  {w | g.IsWalk starts w ∧ 1 ≤ w.length ∧ w.length ≤ max depth 1}

variable {g} {starts : Set κ}

@[simp] theorem isWalk_singleton {e : ε} :
    g.IsWalk starts [e] ↔ e ∈ g.edges ∧ g.source e ∈ starts := by
  constructor
  · intro h
    exact ⟨h.edges e (List.mem_singleton_self e), h.begins e rfl⟩
  · rintro ⟨he, hs⟩
    refine ⟨fun x hx => ?_, fun x hx => ?_, List.isChain_singleton e⟩
    · rwa [List.mem_singleton.1 hx]
    · rwa [← Option.some.inj hx]

/-- A walk goes on with the edges that begin where its last one ends. -/
theorem isWalk_append_pair {w : List ε} {e f : ε} :
    g.IsWalk starts (w ++ [e] ++ [f]) ↔
      g.IsWalk starts (w ++ [e]) ∧ f ∈ g.edges ∧ g.target e = g.source f := by
  have hhead : (w ++ [e] ++ [f]).head? = (w ++ [e]).head? :=
    List.head?_append_of_ne_nil _ (by simp)
  constructor
  · intro h
    obtain ⟨hchain, -, hlink⟩ := List.isChain_append.1 h.linked
    refine ⟨⟨fun x hx => h.edges x (List.mem_append_left _ hx), ?_, hchain⟩, ?_, ?_⟩
    · rw [← hhead]
      exact h.begins
    · exact h.edges f (List.mem_append_right _ (List.mem_singleton_self f))
    · exact hlink e (by simp) f rfl
  · rintro ⟨h, hf, hef⟩
    refine ⟨fun x hx => ?_, ?_, ?_⟩
    · rcases List.mem_append.1 hx with hx | hx
      · exact h.edges x hx
      · rwa [List.mem_singleton.1 hx]
    · rw [hhead]
      exact h.begins
    · refine List.isChain_append.2 ⟨h.linked, List.isChain_singleton f, ?_⟩
      intro x hx y hy
      rw [List.getLast?_append_of_ne_nil _ (by simp), List.getLast?_singleton] at hx
      rw [← Option.some.inj hx, ← Option.some.inj hy]
      exact hef

/-- A walk from some nodes is one from the node where its first edge begins. -/
theorem IsWalk.mono {starts' : Set κ} (h : starts ⊆ starts') {w : List ε}
    (hw : g.IsWalk starts w) : g.IsWalk starts' w :=
  ⟨hw.edges, fun e he => h (hw.begins e he), hw.linked⟩

/-- A list of all walks of a traversal, each of them once, shorter ones first. -/
structure Enumerates (g : EdgeList ε κ) (starts : Set κ) (depth : Nat) (ws : List (List ε)) :
    Prop where
  complete : ∀ w, w ∈ ws ↔ w ∈ g.walksUpTo starts depth
  once : ws.Nodup
  ordered : ws.Pairwise fun v w => v.length ≤ w.length

/-! ## The enumeration -/

variable [DecidableEq κ] (g)

/-- The edges that leave a node. -/
def leaving (x : κ) : List ε := g.edges.filter fun e => g.source e == x

/-- The edges that begin where an edge ends. -/
def next (e : ε) : List ε := g.leaving (g.target e)

/-- The edges that leave some nodes. -/
def first (starts : List κ) : List ε := starts.flatMap g.leaving

/-- The walks from some nodes in the order in which a traversal comes to them. -/
def walks (starts : List κ) (depth : Nat) : List (List ε) :=
  (List.range (max depth 1)).flatMap fun i =>
    (Walk.trails g.next (g.first starts) i).map fun p => p.1 ++ [p.2]

variable {g}

theorem mem_leaving {x : κ} {e : ε} : e ∈ g.leaving x ↔ e ∈ g.edges ∧ g.source e = x := by
  rw [leaving, List.mem_filter, beq_iff_eq]

theorem mem_next {e f : ε} : f ∈ g.next e ↔ f ∈ g.edges ∧ g.target e = g.source f := by
  rw [next, mem_leaving, eq_comm (a := g.source f)]

theorem mem_first {starts : List κ} {e : ε} :
    e ∈ g.first starts ↔ e ∈ g.edges ∧ g.source e ∈ starts := by
  rw [first, List.mem_flatMap]
  constructor
  · rintro ⟨x, hx, he⟩
    obtain ⟨hmem, rfl⟩ := mem_leaving.1 he
    exact ⟨hmem, hx⟩
  · rintro ⟨he, hx⟩
    exact ⟨_, hx, mem_leaving.2 ⟨he, rfl⟩⟩

theorem nodup_leaving (hg : g.edges.Nodup) (x : κ) : (g.leaving x).Nodup := hg.filter _

theorem nodup_first (hg : g.edges.Nodup) {starts : List κ} (hs : starts.Nodup) :
    (g.first starts).Nodup := by
  refine List.nodup_flatMap.2 ⟨fun x _ => nodup_leaving hg x, ?_⟩
  refine hs.imp fun {x y} hxy => ?_
  intro e hx hy
  exact hxy ((mem_leaving.1 hx).2.symm.trans (mem_leaving.1 hy).2)

/-- The trails of a level are the walks of its length. -/
theorem mem_trails {starts : List κ} {i : Nat} {p : List ε × ε} :
    p ∈ Walk.trails g.next (g.first starts) i ↔
      g.IsWalk {x | x ∈ starts} (p.1 ++ [p.2]) ∧ p.1.length = i := by
  induction i generalizing p with
  | zero =>
    rw [Walk.trails, Walk.levelAfter_zero, List.mem_map, List.length_eq_zero_iff]
    constructor
    · rintro ⟨e, he, rfl⟩
      exact ⟨isWalk_singleton.2 (mem_first.1 he), rfl⟩
    · rintro ⟨hw, hp⟩
      rw [hp, List.nil_append] at hw
      exact ⟨p.2, mem_first.2 (isWalk_singleton.1 hw), by rw [← hp]⟩
  | succ i ih =>
    rw [Walk.trails, Walk.levelAfter_succ, List.mem_flatMap]
    constructor
    · rintro ⟨q, hq, hp⟩
      obtain ⟨hw, hlen⟩ := ih.1 hq
      obtain ⟨f, hf, rfl⟩ := List.mem_map.1 hp
      refine ⟨isWalk_append_pair.2 ⟨hw, mem_next.1 hf⟩, ?_⟩
      rw [List.length_append, hlen, List.length_singleton]
    · rintro ⟨hw, hlen⟩
      obtain ⟨v, e, hv⟩ : ∃ v e, p.1 = v ++ [e] :=
        (List.eq_nil_or_concat' p.1).resolve_left (by rintro h; rw [h] at hlen; cases hlen)
      rw [hv] at hw hlen
      rw [List.length_append, List.length_singleton] at hlen
      obtain ⟨hwalk, hf⟩ := isWalk_append_pair.1 hw
      refine ⟨(v, e), ih.2 ⟨hwalk, Nat.succ.inj hlen⟩, ?_⟩
      exact List.mem_map.2 ⟨p.2, mem_next.2 hf, by rw [← hv]⟩

theorem mem_walks {starts : List κ} {depth : Nat} {w : List ε} :
    w ∈ g.walks starts depth ↔ w ∈ g.walksUpTo {x | x ∈ starts} depth := by
  rw [walks, List.mem_flatMap]
  constructor
  · rintro ⟨i, hi, hw⟩
    obtain ⟨p, hp, rfl⟩ := List.mem_map.1 hw
    obtain ⟨hwalk, hlen⟩ := mem_trails.1 hp
    have hi := List.mem_range.1 hi
    refine ⟨hwalk, ?_, ?_⟩ <;> rw [List.length_append, List.length_singleton] <;> omega
  · rintro ⟨hw, hpos, hle⟩
    obtain ⟨v, e, rfl⟩ : ∃ v e, w = v ++ [e] :=
      (List.eq_nil_or_concat' w).resolve_left (by rintro rfl; cases hpos)
    rw [List.length_append, List.length_singleton] at hle
    exact ⟨v.length, List.mem_range.2 (by omega),
      List.mem_map.2 ⟨(v, e), mem_trails.2 ⟨hw, rfl⟩, rfl⟩⟩

/-- From nowhere there are no walks. -/
theorem walks_nil (depth : Nat) : g.walks [] depth = [] := by
  refine List.eq_nil_iff_forall_not_mem.2 fun w hw => ?_
  obtain ⟨hwalk, hpos, -⟩ := mem_walks.1 hw
  obtain ⟨e, tail, rfl⟩ := List.exists_cons_of_length_pos hpos
  exact List.not_mem_nil (hwalk.begins e rfl)

/-- There are finitely many walks up to a length, so they can be counted. -/
theorem finite_walksUpTo (starts : Set κ) (depth : Nat) : (g.walksUpTo starts depth).Finite := by
  refine (List.finite_toSet (g.walks (g.edges.map g.source) depth)).subset ?_
  rintro w ⟨hw, hlen⟩
  refine mem_walks.2 ⟨⟨hw.edges, fun e he => ?_, hw.linked⟩, hlen⟩
  exact List.mem_map_of_mem (hw.edges e (List.mem_of_mem_head? he))

theorem length_of_mem_trails {starts : List κ} {i : Nat} {w : List ε}
    (hw : w ∈ (Walk.trails g.next (g.first starts) i).map fun p => p.1 ++ [p.2]) :
    w.length = i + 1 := by
  obtain ⟨p, hp, rfl⟩ := List.mem_map.1 hw
  rw [List.length_append, (mem_trails.1 hp).2, List.length_singleton]

theorem nodup_walks (hg : g.edges.Nodup) {starts : List κ} (hs : starts.Nodup) (depth : Nat) :
    (g.walks starts depth).Nodup := by
  refine List.nodup_flatMap.2 ⟨fun i _ => ?_, ?_⟩
  · refine (Walk.nodup_trails (nodup_first hg hs) (fun e => nodup_leaving hg _) i).map ?_
    intro p q hpq
    exact Prod.ext (List.append_inj_left' hpq rfl)
      (List.cons.inj (List.append_inj_right' hpq rfl)).1
  · refine List.nodup_range.imp fun {i j} hij => ?_
    intro w hi hj
    exact hij (Nat.succ.inj ((length_of_mem_trails hi).symm.trans (length_of_mem_trails hj)))

theorem pairwise_length_walks (starts : List κ) (depth : Nat) :
    (g.walks starts depth).Pairwise fun v w => v.length ≤ w.length := by
  refine List.pairwise_flatMap.2 ⟨fun i _ => ?_, ?_⟩
  · refine List.pairwise_of_forall_mem_list fun v hv w hw => ?_
    exact ((length_of_mem_trails hv).trans (length_of_mem_trails hw).symm).le
  · refine List.pairwise_lt_range.imp fun {i j} hij => ?_
    intro v hv w hw
    rw [length_of_mem_trails hv, length_of_mem_trails hw]
    omega

/-- **The enumeration is complete, and lists no walk twice.** -/
theorem enumerates_walks (hg : g.edges.Nodup) {starts : List κ} (hs : starts.Nodup)
    (depth : Nat) : g.Enumerates {x | x ∈ starts} depth (g.walks starts depth) :=
  ⟨fun _ => mem_walks, nodup_walks hg hs depth, pairwise_length_walks starts depth⟩

/-- **A traversal lists the lengths and the last edges of the walks.** -/
theorem ends_eq_walks (starts : List κ) (depth : Nat) :
    Walk.ends g.next depth (g.first starts) =
      (g.walks starts depth).filterMap fun w => w.getLast?.map fun e => (w.length, e) := by
  rw [Walk.ends_eq_flatMap, walks, List.filterMap_flatMap]
  refine List.flatMap_congr fun i _ => ?_
  rw [← Walk.map_snd_trails, List.map_map, List.filterMap_map, ← List.filterMap_eq_map]
  refine List.filterMap_congr fun p hp => ?_
  simp [(mem_trails.1 hp).2]

end EdgeList

end GraphBase
