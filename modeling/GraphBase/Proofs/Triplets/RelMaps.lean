import GraphBase.Proofs.Traversal.Counting
import GraphBase.Proofs.Triplets.Runs
import GraphBase.Proofs.Triplets.Traversal

/-!
# Relation maps of a triplet store

What a client is told who asks a triplet store what can be reached from some seeds.  The store
may be in any state that a run leads to (`TripletStore.Reaches`).

## Tables called `path`

A traversal keeps its rows under the name `path`.  A store may call one of its tables so, since
the name is a plain identifier, and everything works but the traversal: the statement speaks of
`path` and means the rows of the traversal, and it is refused.  Nothing else can go wrong, so the
two cases of `countsWalks_iff` are all there are.  Only the number of values that a statement may
bind is left aside, which is 32766: seeds are taken to be fewer.

## Walks beyond the largest limit

A limit that is too large for the statement is replaced by the largest one that is not.  With more
walks than that, the relation map would not count all of them, whatever the limit.
-/

namespace GraphBase

namespace TripletStore

variable {store : TripletStore} {s s' : Site} {t : TripletTables} {b : FactBase}
  {seeds : List String}

/-! ## Traversals on a site -/

/-- A traversal beside a table called `path` is refused, and changes nothing. -/
theorem run_traverse_of_hidesPath {α : Type} (hopen : store.IsOpen s t)
    (hpath : store.hidesPath = true) (read : TripletTables → Except StorageFault α) :
    (store.traverse read).run s = (.error (.storage .badStatement), s) := by
  rw [traverse, if_pos hpath]
  exact run_session_fails hopen (Session.run_fault _)

theorem run_traverse {α : Type} (hopen : store.IsOpen s t) (hpath : store.hidesPath = false)
    (read : TripletTables → Except StorageFault α) {a : α} (hread : read t = .ok a) :
    ∃ s', (store.traverse read).run s = (.ok a, s') ∧ store.IsOpen s' t := by
  have hnot : ¬store.hidesPath = true := by rw [hpath]; exact Bool.false_ne_true
  obtain ⟨s', hrun, hopen'⟩ := run_readsOk hopen read
  rw [hread] at hrun
  rw [traverse, if_neg hnot]
  exact ⟨s', hrun, hopen'⟩

section Reading

variable (hopen : store.IsOpen s t) (hwf : t.WellFormed) (hb : t.Represents b)
  (hpath : seeds ≠ [] → store.hidesPath = false)

include hopen hwf hb hpath

/-- Whatever is made of the rows of a traversal is made of the rows of the walks.  Without seeds
there is no session, and the answer is what would be made of no rows. -/
theorem run_traversal {α : Type} (read : List (PathRow String Fact) → α) {nothing : α}
    (hnothing : read [] = nothing) (depth limit : Nat) :
    ∃ s', (if seeds.isEmpty then pure nothing
        else store.traverse fun t => (t.pathRows seeds depth limit).map read : Access α).run s =
      (.ok (read (b.graph.rows id
        ((b.graph.walks (t.startsOf seeds) depth).take (Sql.limitOperand limit)))), s') := by
  by_cases hseeds : seeds = []
  · rw [hseeds, TripletTables.startsOf_nil, EdgeList.walks_nil, List.take_nil]
    exact ⟨s, congrArg (fun a => (Except.ok a, s)) hnothing.symm⟩
  · rw [if_neg (mt List.isEmpty_iff.1 hseeds)]
    have hread := congrArg (Except.map read) (TripletTables.pathRows_eq hwf hb seeds depth limit)
    obtain ⟨s', hrun, -⟩ := run_traverse hopen (hpath hseeds)
      (fun t => (t.pathRows seeds depth limit).map read) hread
    exact ⟨s', hrun⟩

/-- **The rows that a client reads** are those of the walks, up to the limit. -/
theorem run_pathRows (depth limit : Nat) :
    ∃ s', (store.pathRows seeds depth limit).run s =
      (.ok (b.graph.rows id
        ((b.graph.walks (t.startsOf seeds) depth).take (Sql.limitOperand limit))), s') := by
  obtain ⟨s', hrun⟩ := run_traversal hopen hwf hb hpath id rfl depth limit
  simp only [Except.map_id] at hrun
  exact ⟨s', hrun⟩

/-- **The relation map that a client reads** is made of these rows. -/
theorem run_relMap (depth limit : Nat) :
    ∃ s', (store.relMap seeds depth limit).run s =
      (.ok (RelMap.ofRows (fun _ => true) (b.graph.rows id
        ((b.graph.walks (t.startsOf seeds) depth).take (Sql.limitOperand limit)))), s') :=
  run_traversal hopen hwf hb hpath (RelMap.ofRows fun _ => true) (RelMap.ofRows_nil _) depth limit

end Reading

/-! ## Reachable states -/

/-- A run from new tables leads to a site; to the client, the store is a fact base there. -/
inductive Reaches (store : TripletStore) : Site → FactBase → Prop
  | run {h host : Host} {c : StoreConfig} {engine : Engine} {t₀ : TripletTables}
    {events : List TripletEvent} {s : Site}
    (hstart : TripletStore.start h c = (.ok (store, engine), host))
    (htables : store.tables? ⟨host, engine⟩ = some t₀) (hnew : t₀.IsNew)
    (hrun : store.Run ⟨host, engine⟩ events s) : Reaches store s (FactBase.empty.after events)

theorem Reaches.exists_isOpen (h : store.Reaches s b) :
    ∃ t, store.IsOpen s t ∧ t.WellFormed ∧ t.Represents b := by
  cases h with
  | run hstart htables hnew hrun =>
    obtain ⟨t, hopen, hfollows, hb⟩ :=
      exists_tables_of_run hrun (isOpen_of_start hstart htables) hnew.wellFormed hnew.represents
    exact ⟨t, hopen, hfollows.wellFormed, hb⟩

/-- **The relation map counts the walks** from the seeds that are there, if the limit is large
enough and no table is called `path`.  Seeds that are there twice or not at all make no
difference. -/
theorem countsWalks_iff (h : store.Reaches s b) (hseeds : seeds ≠ []) (depth : Nat) {limit : Nat}
    (hlimit : (b.graph.walksUpTo {x | x ∈ seeds ∧ x ∈ b.names} depth).ncard ≤ limit) :
    (store.hidesPath = true →
      (store.relMap seeds depth limit).run s = (.error (.storage .badStatement), s)) ∧
    (store.hidesPath = false →
      ∃ m s', (store.relMap seeds depth limit).run s = (.ok m, s') ∧
        (RelMap.CountsWalks m b.graph {x | x ∈ seeds ∧ x ∈ b.names} depth ↔
          (b.graph.walksUpTo {x | x ∈ seeds ∧ x ∈ b.names} depth).ncard ≤ Sql.limitMax) ∧
        ∀ seeds' ≠ [], (∀ x ∈ b.names, x ∈ seeds' ↔ x ∈ seeds) →
          ∃ s', (store.relMap seeds' depth limit).run s = (.ok m, s')) := by
  obtain ⟨t, hopen, hwf, hb⟩ := h.exists_isOpen
  have hws := TripletTables.enumerates_walks hwf hb seeds depth
  constructor
  · intro hpath
    rw [relMap, if_neg (mt List.isEmpty_iff.1 hseeds)]
    exact run_traverse_of_hidesPath hopen hpath _
  · intro hpath
    obtain ⟨s', hrun⟩ := run_relMap hopen hwf hb (fun _ => hpath) depth limit
    refine ⟨_, s', hrun, ?_, fun seeds' _ hsame => ?_⟩
    · rw [hws.countsWalks_ofRows, hws.length_eq, Sql.limitOperand, Nat.le_min]
      exact and_iff_right hlimit
    · have hstarts : t.startsOf seeds' = t.startsOf seeds := by
        refine TripletTables.startsOf_congr fun x hx => hsame x ?_
        rw [← hb.names, List.mem_toFinset]
        exact hx
      obtain ⟨s'', hrun'⟩ := run_relMap hopen hwf hb (fun _ : seeds' ≠ [] => hpath) depth limit
      rw [hstarts] at hrun'
      exact ⟨s'', hrun'⟩

/-- The events that add two facts around a circle. -/
def circleEvents : List TripletEvent :=
  [.call (.upsert "now" ⟨"A", "r", "B"⟩), .call (.upsert "now" ⟨"B", "r", "A"⟩)]

/-- A run leads there. -/
theorem exists_reaches_circle :
    ∃ s, TripletStore.Reaches ⟨{}⟩ s (FactBase.empty.after circleEvents) :=
  ⟨_, .run start_fileSite tables?_fileSite ⟨rfl, rfl, rfl, rfl⟩
    (.cons (.call _ (by decide +kernel)) (.cons (.call _ (by decide +kernel)) (.nil _)))⟩

/-- Around a circle there is one walk of each length. -/
theorem ncard_walksUpTo_circle :
    ((FactBase.empty.after circleEvents).graph.walksUpTo
      {x | x ∈ ["A", "A"] ∧ x ∈ (FactBase.empty.after circleEvents).names} 2).ncard = 2 := by
  have hA : "A" ∈ (FactBase.empty.after circleEvents).names := by decide +kernel
  have hstarts : {x | x ∈ ["A", "A"] ∧ x ∈ (FactBase.empty.after circleEvents).names} =
      {x | x ∈ ["A"]} := by
    ext x
    simp only [List.mem_cons, List.not_mem_nil, or_false, or_self, Set.mem_ofPred_eq]
    constructor
    · exact And.left
    · rintro rfl
      exact ⟨rfl, hA⟩
  have hws : (FactBase.empty.after circleEvents).graph.Enumerates {x | x ∈ ["A"]} 2 _ :=
    EdgeList.enumerates_walks (FactBase.nodup _) (List.nodup_singleton "A") 2
  rw [hstarts, ← hws.length_eq]
  decide +kernel

/-- The relation map of the circle, from a seed that is there twice. -/
theorem countsWalks_circle :
    ∃ s m s', TripletStore.Reaches ⟨{}⟩ s (FactBase.empty.after circleEvents) ∧
      (TripletStore.relMap ⟨{}⟩ ["A", "A"] 2 30).run s = (.ok m, s') ∧
      RelMap.CountsWalks m (FactBase.empty.after circleEvents).graph
        {x | x ∈ ["A", "A"] ∧ x ∈ (FactBase.empty.after circleEvents).names} 2 := by
  obtain ⟨s, h⟩ := exists_reaches_circle
  have htotal := ncard_walksUpTo_circle.le
  obtain ⟨m, s', hrun, hcounts, -⟩ :=
    (countsWalks_iff h (by decide) 2 (htotal.trans (by decide : 2 ≤ 30))).2 (by decide +kernel)
  exact ⟨s, m, s', h, hrun, hcounts.2 (htotal.trans (by decide))⟩

end TripletStore

end GraphBase
