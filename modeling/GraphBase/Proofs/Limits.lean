import GraphBase.Proofs.Graph.RelMaps
import GraphBase.Proofs.Triplets.RelMaps

/-!
# What a limit does to a traversal

Both kinds of stores cut a traversal off at a limit, and both make a relation map of the rows that
are left.  The relation map does not know of the limit.  That it is right about the rows it has is a
matter of the order of the rows: what a row belongs to is decided by rows that are less deep, and
these are left whenever the row itself is (`cutsAt_of_reaches`).

The operand of the limit is a signed number of 64 bits.  A limit beyond its range is replaced by the
largest operand, so that it never turns negative.

A triplet store with a table called `path` is left out, since its traversals are refused.

So is the limit on the values that a statement may bind, which is 32766.  Every seed is one of them,
with the depth and the limit, and here it is taken that there are not too many.
-/

namespace GraphBase

/-- The operand of a limit is a number of 64 bits that is not negative. -/
theorem Sql.toInt_limitOperand (limit : Nat) :
    (Int64.ofNat (limitOperand limit)).toInt = limitOperand limit := by
  refine Int64.toInt_ofNat_of_lt ?_
  unfold limitOperand limitMax
  omega

/-- **A limit never harms what it leaves**, in every state that a run leads to and for all seeds
that a statement has room for: the relation map of either store is made of rows that are cut off soundly.  A triplet
store with a table called `path` refuses the traversal instead. -/
theorem cutsAt_of_reaches (depth limit : Nat) :
    (Int64.ofNat (Sql.limitOperand limit)).toInt = Sql.limitOperand limit ∧
    (∀ (store : TripletStore) (s : Site) (b : FactBase) (seeds : List String), store.Reaches s b →
      (store.hidesPath = true → seeds ≠ [] →
        (store.relMap seeds depth limit).run s = (.error (.storage .badStatement), s)) ∧
      (store.hidesPath = false ∨ seeds = [] →
        ∃ ws rows s₁ s₂, (store.pathRows seeds depth limit).run s = (.ok rows, s₁) ∧
          (store.relMap seeds depth limit).run s = (.ok (RelMap.ofRows (fun _ => true) rows), s₂) ∧
          b.graph.CutsAt id {x | x ∈ seeds ∧ x ∈ b.names} depth limit ws rows)) ∧
    (∀ (store : PropertyStore) (s : Site) (t : GraphTables) (seeds : List Node)
      (ignored : List String), store.Reaches s t →
      ∃ ws rows s₁ s₂, (store.pathRows seeds depth limit).run s = (.ok rows, s₁) ∧
        (store.relMap seeds depth limit ignored).run s =
          (.ok (RelMap.ofRows (GraphTables.isShown ignored) rows), s₂) ∧
        t.graph.CutsAt t.tripletOf {x | x ∈ seeds.map Node.id} depth limit ws rows) := by
  refine ⟨Sql.toInt_limitOperand limit, fun store s b seeds h => ?_,
    fun store s t seeds ignored h => ?_⟩
  · obtain ⟨t, hopen, hwf, hb⟩ := h.exists_isOpen
    constructor
    · intro hhides hseeds
      rw [TripletStore.relMap, if_neg (mt List.isEmpty_iff.1 hseeds)]
      exact TripletStore.run_traverse_of_hidesPath hopen hhides _
    · intro hok
      have hpath : seeds ≠ [] → store.hidesPath = false := hok.resolve_right
      obtain ⟨s₁, hrows⟩ := TripletStore.run_pathRows hopen hwf hb hpath depth limit
      obtain ⟨s₂, hrelMap⟩ := TripletStore.run_relMap hopen hwf hb hpath depth limit
      have hws := TripletTables.enumerates_walks hwf hb seeds depth
      exact ⟨_, _, s₁, s₂, hrows, hrelMap, hws.cutsAt id limit⟩
  · obtain ⟨hopen, hwf⟩ := h.isOpen
    obtain ⟨s₁, hrows, -⟩ := PropertyStore.run_pathRows hopen hwf seeds depth limit
    obtain ⟨s₂, hrelMap, -⟩ := PropertyStore.run_relMap hopen hwf seeds depth limit ignored
    have hws := GraphTables.enumerates_walks hwf (seeds.map Node.id) depth
    exact ⟨_, _, s₁, s₂, hrows, hrelMap, hws.cutsAt t.tripletOf limit⟩

/-- Around a circle, and along a chain, a limit of one leaves one walk. -/
theorem cutsAt_circle_chain :
    (∃ s rows s', TripletStore.Reaches ⟨{}⟩ s (FactBase.empty.after TripletStore.circleEvents) ∧
      (TripletStore.pathRows ⟨{}⟩ ["A", "A"] 2 1).run s = (.ok rows, s') ∧ rows.length = 1) ∧
    ∃ s ws rows s', PropertyStore.Reaches ⟨{}⟩ s PropertyStore.chainTables ∧
      (PropertyStore.pathRows ⟨{}⟩ [.named "A"] 2 1).run s = (.ok rows, s') ∧
      PropertyStore.chainTables.graph.CutsAt PropertyStore.chainTables.tripletOf
        {x | x ∈ [Node.named "A"].map Node.id} 2 1 ws rows := by
  obtain ⟨-, htriplets, hgraph⟩ := cutsAt_of_reaches 2 1
  constructor
  · obtain ⟨s, h⟩ := TripletStore.exists_reaches_circle
    obtain ⟨ws, rows, s₁, -, hrun, -, hcut⟩ :=
      (htriplets _ s _ ["A", "A"] h).2 (.inl (by decide +kernel))
    refine ⟨s, rows, s₁, h, hrun, ?_⟩
    rw [hcut.length_eq, TripletStore.ncard_walksUpTo_circle]
    decide
  · obtain ⟨s, h⟩ := PropertyStore.exists_reaches_chainTables
    obtain ⟨ws, rows, s₁, -, hrun, -, hcut⟩ := hgraph _ s _ [.named "A"] [] h
    exact ⟨s, ws, rows, s₁, h, hrun, hcut⟩

end GraphBase
