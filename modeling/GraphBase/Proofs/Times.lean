import GraphBase.Proofs.Graph.Deletion
import GraphBase.Proofs.Graph.Times
import GraphBase.Proofs.Triplets.RelMaps
import GraphBase.Proofs.Triplets.Times

/-!
# Times move with their own rows

The time of the last change is kept up to date by a trigger on each of the four tables, and not by
the statements themselves.  So it depends on how an operation goes about a row whether the time
moves: a row that is looked up stays as it is, a row that is changed is caught by the trigger,
whatever has been written to it, and a row that is inserted has both of its times from the insertion.

`timesMove_of_isOpen` says of everything that may be done to either kind of store which of these it
does to which rows.
-/

namespace GraphBase

/-- **Times move with their own rows.**  On tables in which rows can be told apart, and whatever
else is in them, an action gives the current time to the rows that it inserts, and the times that it
says to those that were there (`PropertyAction.Moves`, `TripletAction.Moves`).  If it fails, it has
moved nothing.  The time of an insertion is moved only by what writes to it. -/
theorem timesMove_of_isOpen :
    (∀ (store : PropertyStore) (s : Site) (t : GraphTables), store.IsOpen s t → t.IsConstrained →
      ∀ a : PropertyAction, store.Settles s t (a.Moves t) (a.run store)) ∧
    (∀ (store : TripletStore) (s : Site) (t : TripletTables), store.IsOpen s t → t.IsNumbered →
      ∀ a : TripletAction, store.Settles s t (a.Moves t) (a.run store)) ∧
    (∀ a : PropertyAction, a.mayWriteTimes = false → ∀ n r,
      (a.nodeTimes n).created = n.createdAt ∧ (a.relationTimes r).created = r.createdAt) ∧
    (∀ a : TripletAction, a.mayWriteTimes = false → ∀ e r,
      (a.entityTimes e).created = e.createdAt ∧ (a.relationshipTimes r).created = r.createdAt) :=
  ⟨fun _ _ _ hopen h => PropertyStore.moves_action hopen h,
    fun _ _ _ hopen h => TripletStore.moves_action hopen h,
    fun _ h => PropertyAction.created_eq h, fun _ h => TripletAction.created_eq h⟩

/-- A batch that has a node of the trail in it, and a batch that has a relation in it. -/
def trailActions : List PropertyAction := [
  .call (.upsertNodes "later" [.entity "A" { label := "x" }, .entity "D" { label := "x" }]),
  .call (.upsertRelations "later" [⟨"r", "A", "B", .empty⟩])]

/-- A node that is written again is changed, and a relation that is written again is changed, but its
ends are not; and a fact that is added again changes nothing. -/
theorem timesMove_trail_circle :
    (∃ s, PropertyStore.Reaches ⟨{}⟩ s PropertyStore.trailTables ∧
      (∀ a ∈ trailActions, PropertyStore.Settles ⟨{}⟩ s PropertyStore.trailTables
        (a.Moves PropertyStore.trailTables) (a.run ⟨{}⟩)) ∧
      (trailActions.map fun a => PropertyStore.trailTables.nodes.map a.nodeTimes) =
        [[⟨"now", "later"⟩, .fresh "now", .fresh "now"],
          [.fresh "now", .fresh "now", .fresh "now"]] ∧
      (trailActions.map fun a => PropertyStore.trailTables.relations.rows.map a.relationTimes) =
        [[.fresh "now", .fresh "now"], [⟨"now", "later"⟩, .fresh "now"]]) ∧
    ∃ s t, TripletStore.Reaches ⟨{}⟩ s (FactBase.empty.after TripletStore.circleEvents) ∧
      TripletStore.Settles ⟨{}⟩ s t
        ((TripletAction.call (.upsert "later" ⟨"A", "r", "B"⟩)).Moves t)
        ((TripletAction.call (.upsert "later" ⟨"A", "r", "B"⟩)).run ⟨{}⟩) := by
  obtain ⟨hgraph, htriplets, -, -⟩ := timesMove_of_isOpen
  constructor
  · obtain ⟨s, h, -⟩ := PropertyStore.exists_reaches_trailTables
    exact ⟨s, h, fun a _ => hgraph _ s _ h.isOpen.1 h.isOpen.2.isConstrained a, by decide, by decide⟩
  · obtain ⟨s, h⟩ := TripletStore.exists_reaches_circle
    obtain ⟨t, hopen, hwf, -⟩ := h.exists_isOpen
    exact ⟨s, t, h, htriplets _ s t hopen ⟨hwf.entities, hwf.relationships⟩ _⟩

end GraphBase
