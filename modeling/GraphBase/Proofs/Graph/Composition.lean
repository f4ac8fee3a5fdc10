import GraphBase.Proofs.Graph.Deletion
import Mathlib.Data.String.Basic

/-!
# Deletions one after the other

What several deletions remove depends on what they pick together, and not on how it is spread over
them or on their order (`PropertyStore.deletesAlike_of_picks`).  So two deletions may change places,
a deletion that is repeated does nothing more, and the four parts of a selection may be deleted one
by one (`PropertyStore.composes_of_reaches`).

This is not obvious, because a deletion looks at the tables that the one before has left.

* A relation that goes with a node could miss that node, if the first deletion had taken it.  But the
  first deletion takes no node without the relations that end there.
* A bare row at which relations end that are picked by different deletions is left alone by all but
  the last of them.  And it is left behind by that one, whichever it is, since the relations that the
  earlier ones have taken do not end there any more.

Both points are in `GraphTables.Clears.trans`, which composes two removals and needs nothing of the
tables.  That a removal has but one outcome needs that no row is there twice (`Clears.unique`).

Each deletion is tried, whether those before it have succeeded or not.  One with too many properties
fails and picks nothing, not even by its other parts, and wherever it stands.  These other parts can
be deleted on their own.  So such a selection is the exception to the rule on parts: as a whole it
removes nothing, and one by one its parts remove what is given by name, by identity and by label.
-/

namespace GraphBase

open GraphTables (selectsText_iff_matches deletes_remnant run_delete)

/-- Sublists of a list without duplicates are told apart by their members. -/
theorem sublist_ext {α : Type} {l l₁ l₂ : List α} (hl : l.Nodup) (h₁ : l₁.Sublist l)
    (h₂ : l₂.Sublist l) (h : ∀ a, a ∈ l₁ ↔ a ∈ l₂) : l₁ = l₂ := by
  rw [← hl.perm_iff_eq_of_sublist h₁ h₂,
    List.perm_ext_iff_of_nodup (hl.sublist h₁) (hl.sublist h₂)]
  exact h

/-! ## Removals by what they pick -/

namespace GraphTables

section Picking

variable (P : NodeRow → Prop) (Q : RelationRow → Prop) (t : GraphTables)

/-- A relation goes if it is picked, or with one of its ends. -/
def Takes (r : RelationRow) : Prop := Q r ∨ ∃ n ∈ t.nodes, P n ∧ r.endsAt n.id = true

/-- A bare row at which a relation ends that goes, and no other. -/
structure Strands (n : NodeRow) : Prop where
  bare : n.isBare = true
  touched : ∃ r ∈ t.relations.rows, t.Takes P Q r ∧ r.endsAt n.id = true
  alone : ∀ r ∈ t.relations.rows, r.endsAt n.id = true → t.Takes P Q r

/-- What picked nodes and relations leave of some tables, after the bare rows that they have left
behind are gone as well. -/
structure Clears (t' : GraphTables) : Prop where
  relations : t'.relations.rows.Sublist t.relations.rows
  mem_relations : ∀ r, r ∈ t'.relations.rows ↔ r ∈ t.relations.rows ∧ ¬t.Takes P Q r
  lastId : t'.relations.lastId = t.relations.lastId
  nodes : t'.nodes.Sublist t.nodes
  mem_nodes : ∀ n, n ∈ t'.nodes ↔ n ∈ t.nodes ∧ ¬P n ∧ ¬t.Strands P Q n

end Picking

variable {dimension : Nat} {P P' : NodeRow → Prop} {Q Q' : RelationRow → Prop}
  {t t' t₁ t₂ : GraphTables} {n : NodeRow} {r : RelationRow}

theorem takes_or : t.Takes (fun n => P n ∨ P' n) (fun r => Q r ∨ Q' r) r ↔
    t.Takes P Q r ∨ t.Takes P' Q' r := by
  simp only [Takes, or_and_right, and_or_left, exists_or]
  exact or_or_or_comm

namespace Clears

theorem congr (h : t.Clears P Q t') (hP : ∀ n, P n ↔ P' n) (hQ : ∀ r, Q r ↔ Q' r) :
    t.Clears P' Q' t' := by
  obtain rfl : P = P' := funext fun n => propext (hP n)
  obtain rfl : Q = Q' := funext fun r => propext (hQ r)
  exact h

/-- If nothing is picked, nothing goes. -/
theorem refl (hP : ∀ n, ¬P n) (hQ : ∀ r, ¬Q r) (t : GraphTables) : t.Clears P Q t := by
  have htakes : ∀ r, ¬t.Takes P Q r := by
    rintro r (hr | ⟨n, -, hn, -⟩)
    · exact hQ r hr
    · exact hP n hn
  refine ⟨.refl _, fun r => ?_, rfl, .refl _, fun n => ?_⟩
  · exact (and_iff_left (htakes r)).symm
  · refine (and_iff_left ⟨hP n, ?_⟩).symm
    rintro ⟨-, ⟨r, -, hr, -⟩, -⟩
    exact htakes r hr

/-- A relation that is left goes with a picked node later if it would have gone with it before: the
node is left as well. -/
theorem takes_iff (h : t.Clears P Q t₁) (hr : r ∈ t₁.relations.rows) :
    t₁.Takes P' Q' r ↔ t.Takes P' Q' r := by
  obtain ⟨hr, hstays⟩ := (h.mem_relations r).1 hr
  refine or_congr_right (exists_congr fun n => ?_)
  rw [h.mem_nodes, and_assoc]
  refine and_congr_right fun hn => and_iff_right_iff_imp.2 fun hpicks => ⟨fun hP => ?_, ?_⟩
  · exact hstays (.inr ⟨n, hn, hP, hpicks.2⟩)
  · exact fun hstrands => hstays (hstrands.alone r hr hpicks.2)

/-- A bare row is left behind by both removals together if the first leaves it behind, or else the
second. -/
theorem strands_or_iff (h : t.Clears P Q t₁) :
    t.Strands (fun n => P n ∨ P' n) (fun r => Q r ∨ Q' r) n ↔
      t.Strands P Q n ∨ t₁.Strands P' Q' n := by
  constructor
  · rintro ⟨hbare, ⟨r, hr, htakes, hend⟩, halone⟩
    by_cases hleft : ∃ r ∈ t₁.relations.rows, r.endsAt n.id = true
    · -- what is left at the row goes in the second removal
      have hsecond : ∀ r ∈ t₁.relations.rows, r.endsAt n.id = true → t₁.Takes P' Q' r := by
        intro r hr hend
        rw [h.takes_iff hr]
        obtain ⟨hmem, hstays⟩ := (h.mem_relations r).1 hr
        exact (takes_or.1 (halone r hmem hend)).resolve_left hstays
      obtain ⟨r, hr, hend⟩ := hleft
      exact .inr ⟨hbare, ⟨r, hr, hsecond r hr hend, hend⟩, hsecond⟩
    · have hfirst : ∀ r ∈ t.relations.rows, r.endsAt n.id = true → t.Takes P Q r := by
        intro r hr hend
        by_contra hstays
        exact hleft ⟨r, (h.mem_relations r).2 ⟨hr, hstays⟩, hend⟩
      exact .inl ⟨hbare, ⟨r, hr, hfirst r hr hend, hend⟩, hfirst⟩
  · rintro (⟨hbare, ⟨r, hr, htakes, hend⟩, halone⟩ | ⟨hbare, ⟨r, hr, htakes, hend⟩, halone⟩)
    · exact ⟨hbare, ⟨r, hr, takes_or.2 (.inl htakes), hend⟩,
        fun r hr hend => takes_or.2 (.inl (halone r hr hend))⟩
    · refine ⟨hbare, ⟨r, h.relations.subset hr, takes_or.2 (.inr ((h.takes_iff hr).1 htakes)),
        hend⟩, fun r hr hend => takes_or.2 ?_⟩
      by_cases hgoes : t.Takes P Q r
      · exact .inl hgoes
      · have hleft := (h.mem_relations r).2 ⟨hr, hgoes⟩
        exact .inr ((h.takes_iff hleft).1 (halone r hleft hend))

/-- **Two removals, one after the other, are one**, of all that they pick. -/
theorem trans (h : t.Clears P Q t₁) (h' : t₁.Clears P' Q' t₂) :
    t.Clears (fun n => P n ∨ P' n) (fun r => Q r ∨ Q' r) t₂ := by
  refine ⟨h'.relations.trans h.relations, fun r => ?_, h'.lastId.trans h.lastId,
    h'.nodes.trans h.nodes, fun n => ?_⟩
  · rw [h'.mem_relations, takes_or, not_or, ← and_assoc, ← h.mem_relations]
    exact and_congr_right fun hr => not_congr (h.takes_iff hr)
  · rw [h'.mem_nodes, h.mem_nodes, h.strands_or_iff, not_or, not_or]
    tauto

/-- A removal has one outcome. -/
theorem unique (hwf : t.WellFormed dimension) (h₁ : t.Clears P Q t₁) (h₂ : t.Clears P Q t₂) :
    t₁ = t₂ := by
  have hnodes : t₁.nodes = t₂.nodes :=
    sublist_ext (.of_map _ hwf.ids_nodup) h₁.nodes h₂.nodes fun n => by
      rw [h₁.mem_nodes, h₂.mem_nodes]
  have hrows : t₁.relations.rows = t₂.relations.rows :=
    sublist_ext hwf.relations.rows_nodup h₁.relations h₂.relations fun r => by
      rw [h₁.mem_relations, h₂.mem_relations]
  rw [GraphTables.mk.injEq, Table.mk.injEq]
  exact ⟨hnodes, hrows, h₁.lastId.trans h₂.lastId.symm⟩

end Clears

end GraphTables

namespace Selection

/-- Every key of the properties can be looked for as it is. -/
def HasPlainKeys (f : Selection) : Prop := ∀ e ∈ f.properties.entries, IsPlainKey e.1

variable (Has : Properties → Properties → Prop) (f : Selection)

/-- A relation is picked for itself, by its label or by its properties. -/
def PicksItself (r : RelationRow) : Prop :=
  r.label ∈ f.relationNames ∨ f.PicksText Has r.properties

/-- What is picked by one of several selections, as far as they can be deleted. -/
def AnyPicksNode (fs : List Selection) (n : NodeRow) : Prop :=
  ∃ f ∈ fs, ¬f.IsCrowded ∧ f.PicksNode Has n

/-- What is picked for itself by one of several selections, as far as they can be deleted. -/
def AnyPicksItself (fs : List Selection) (r : RelationRow) : Prop :=
  ∃ f ∈ fs, ¬f.IsCrowded ∧ f.PicksItself Has r

/-- The four parts of a selection. -/
def parts : List Selection :=
  [{ entityNames := f.entityNames }, { ids := f.ids }, { relationNames := f.relationNames },
    { properties := f.properties }]

/-- A selection without its properties if they are too many. -/
def uncrowded : Selection := if f.IsCrowded then { f with properties := .empty } else f

/-- What deleting a selection answers if the connection may write. -/
def answer : Except Error Unit := if f.IsCrowded then .error (.storage .badStatement) else .ok ()

variable {Has f} {n : NodeRow} {r : RelationRow}

theorem picksNode_iff : f.PicksNode Has n ↔
    (∃ name, n.name = some name ∧ name ∈ f.entityNames) ∨ n.id ∈ f.ids ∨
      f.PicksText Has n.properties := by
  constructor
  · rintro (⟨h, hname⟩ | hid | htext)
    · exact .inl ⟨_, h, hname⟩
    · exact .inr (.inl hid)
    · exact .inr (.inr htext)
  · rintro (⟨name, h, hname⟩ | hid | htext)
    · exact .name h hname
    · exact .id hid
    · exact .properties htext

/-- An empty selection picks nothing. -/
theorem not_picks_of_isEmpty (h : f.isEmpty = true) :
    (∀ n, ¬f.PicksNode Has n) ∧ ∀ r, ¬f.PicksItself Has r := by
  simp only [isEmpty, Bool.and_eq_true, List.isEmpty_iff] at h
  constructor
  · simp [picksNode_iff, PicksText, h]
  · simp [PicksItself, PicksText, h]

theorem hasPlainKeys_of_empty (h : f.properties = .empty) : f.HasPlainKeys := by
  rw [HasPlainKeys, h]
  exact fun e he => absurd he List.not_mem_nil

theorem not_isCrowded_of_empty (h : f.properties = .empty) : ¬f.IsCrowded := by
  rw [IsCrowded, h]
  exact Nat.not_lt_zero _

theorem HasPlainKeys.of_mem_parts (h : f.HasPlainKeys) {x : Selection} (hx : x ∈ f.parts) :
    x.HasPlainKeys := by
  simp only [parts, List.mem_cons, List.not_mem_nil, or_false] at hx
  obtain rfl | rfl | rfl | rfl := hx
  · exact hasPlainKeys_of_empty rfl
  · exact hasPlainKeys_of_empty rfl
  · exact hasPlainKeys_of_empty rfl
  · exact h

theorem HasPlainKeys.uncrowded (h : f.HasPlainKeys) : f.uncrowded.HasPlainKeys := by
  rw [Selection.uncrowded]
  split_ifs
  · exact hasPlainKeys_of_empty rfl
  · exact h

theorem not_isCrowded_uncrowded : ¬f.uncrowded.IsCrowded := by
  rw [uncrowded]
  split_ifs with hcrowded
  · exact not_isCrowded_of_empty rfl
  · exact hcrowded

theorem isCrowded_properties : IsCrowded { properties := f.properties } ↔ f.IsCrowded := Iff.rfl

/-- The parts of a selection pick the nodes that it picks, -/
theorem anyPicksNode_parts : AnyPicksNode Has f.parts n ↔ f.uncrowded.PicksNode Has n := by
  rw [uncrowded]
  split_ifs with hcrowded <;>
    simp [AnyPicksNode, parts, picksNode_iff, PicksText, Properties.isEmpty, isCrowded_properties,
      not_isCrowded_of_empty, hcrowded]

/-- and the relations. -/
theorem anyPicksItself_parts : AnyPicksItself Has f.parts r ↔ f.uncrowded.PicksItself Has r := by
  rw [uncrowded]
  split_ifs with hcrowded <;>
    simp [AnyPicksItself, parts, PicksItself, PicksText, Properties.isEmpty, isCrowded_properties,
      not_isCrowded_of_empty, hcrowded]

end Selection

/-! ## Deletions -/

namespace GraphTables

variable {dimension : Nat} {Has : Properties → Properties → Prop} {f : Selection}
  {t t' : GraphTables} {n : NodeRow} {r : RelationRow}

theorem picksRelation_iff :
    f.PicksRelation Has t r ↔ t.Takes (f.PicksNode Has) (f.PicksItself Has) r := by
  constructor
  · rintro (hlabel | htext | ⟨hn, hpicks, hend⟩)
    · exact .inl (.inl hlabel)
    · exact .inl (.inr htext)
    · exact .inr ⟨_, hn, hpicks, hend⟩
  · rintro ((hlabel | htext) | ⟨n, hn, hpicks, hend⟩)
    · exact .label hlabel
    · exact .properties htext
    · exact .node hn hpicks hend

theorem leavesBare_iff :
    f.LeavesBare Has t n ↔ t.Strands (f.PicksNode Has) (f.PicksItself Has) n := by
  constructor
  · rintro ⟨hbare, ⟨r, hr, hpicks, hend⟩, halone⟩
    exact ⟨hbare, ⟨r, hr, picksRelation_iff.1 hpicks, hend⟩,
      fun r hr hend => picksRelation_iff.1 (halone r hr hend)⟩
  · rintro ⟨hbare, ⟨r, hr, htakes, hend⟩, halone⟩
    exact ⟨hbare, ⟨r, hr, picksRelation_iff.2 htakes, hend⟩,
      fun r hr hend => picksRelation_iff.2 (halone r hr hend)⟩

/-- A deletion is a removal of what its selection picks. -/
theorem Deletes.clears (h : t.Deletes Has f t') :
    t.Clears (f.PicksNode Has) (f.PicksItself Has) t' := by
  refine ⟨h.relations, fun r => ?_, h.lastId, h.nodes, fun n => ?_⟩
  · rw [h.mem_relations, picksRelation_iff]
  · rw [h.mem_nodes, leavesBare_iff]

end GraphTables

namespace PropertyStore

variable {store : PropertyStore} {s : Site} {t : GraphTables} {f g : Selection}
  {fs gs : List Selection}

/-- Tries to delete what several selections select, one after the other, and gives all answers. -/
def deleteEach (store : PropertyStore) : List Selection → Site → List (Except Error Unit) × Site
  | [], s => ([], s)
  | f :: rest, s =>
    let first := (store.delete f).run s
    let others := store.deleteEach rest first.2
    (first.1 :: others.1, others.2)

/-- Two sequences of deletions lead to the same tables.  If the connection may write, all of them
succeed but those of too many properties. -/
def DeletesAlike (store : PropertyStore) (s : Site) (fs gs : List Selection) : Prop :=
  ∃ t', store.IsOpen (store.deleteEach fs s).2 t' ∧ store.IsOpen (store.deleteEach gs s).2 t' ∧
    (s.engine.locator.refusal = none →
      (store.deleteEach fs s).1 = fs.map Selection.answer ∧
        (store.deleteEach gs s).1 = gs.map Selection.answer)

/-- The session of a deletion leads to well-formed tables again, and the connection may still write
after it. -/
theorem run_session_delete (hopen : store.IsOpen s t)
    (hwf : t.WellFormed store.schema.dimension) (hwrite : s.engine.locator.refusal = none)
    (hf : f.HasPlainKeys) (hempty : f.isEmpty = false) (hfew : ¬f.IsCrowded) :
    ∃ s' t', (store.session (GraphTables.delete f)).run s = (.ok (), s') ∧ store.IsOpen s' t' ∧
      t'.WellFormed store.schema.dimension ∧ s'.engine.locator.refusal = none ∧
      t.Deletes Properties.Matches f t' := by
  obtain ⟨ends, hends, hrun⟩ := GraphTables.run_delete hwf hempty hf hfew
  have hdeletes := deletes_remnant hwf
    (fun text htext => selectsText_iff_matches hwf hf htext) hends
  have hkeeps := GraphTables.follows_delete f none t () _ hrun (.refl hwf)
  have hlocator := Engine.locator_run_session hopen.ready.fresh
    (Database.inGraph (GraphTables.delete f))
  rw [← hwrite] at hrun
  obtain ⟨s', hsession, hopen'⟩ := run_session hopen hrun
  rw [hwrite] at hopen'
  rw [show Engine.session _ = store.session (GraphTables.delete f) from rfl, hsession] at hlocator
  refine ⟨s', _, hsession, hopen', hkeeps.wellFormed, ?_, hdeletes⟩
  rw [hlocator, hwrite]

/-- A deletion removes what its selection picks, which is nothing for an empty one, and nothing for
one that cannot be deleted. -/
theorem run_delete (hopen : store.IsOpen s t) (hwf : t.WellFormed store.schema.dimension)
    (hwrite : s.engine.locator.refusal = none) (hf : f.HasPlainKeys) :
    ∃ s' t', (store.delete f).run s = (f.answer, s') ∧ store.IsOpen s' t' ∧
      t'.WellFormed store.schema.dimension ∧ s'.engine.locator.refusal = none ∧
      t.Clears (fun n => ¬f.IsCrowded ∧ f.PicksNode Properties.Matches n)
        (fun r => ¬f.IsCrowded ∧ f.PicksItself Properties.Matches r) t' := by
  rw [Selection.answer]
  by_cases hcrowded : f.IsCrowded
  · obtain ⟨e, hfails, he⟩ := delete_fails_of_isCrowded hopen hcrowded
    rw [if_pos hcrowded, hfails, he hwrite]
    exact ⟨s, t, rfl, hopen, hwf, hwrite,
      .refl (fun n hn => hn.1 hcrowded) (fun r hr => hr.1 hcrowded) t⟩
  simp only [hcrowded, not_false_eq_true, true_and, if_false]
  rw [delete]
  split_ifs with hempty
  · obtain ⟨hnodes, hrelations⟩ := Selection.not_picks_of_isEmpty hempty
    exact ⟨s, t, rfl, hopen, hwf, hwrite, .refl hnodes hrelations t⟩
  · obtain ⟨s', t', hrun, hopen', hwf', hwrite', hdeletes⟩ :=
      run_session_delete hopen hwf hwrite hf (Bool.eq_false_iff.2 hempty) hcrowded
    exact ⟨s', t', hrun, hopen', hwf', hwrite', hdeletes.clears⟩

/-- **Deletions one after the other** remove what they pick together. -/
theorem run_deleteEach (hopen : store.IsOpen s t) (hwf : t.WellFormed store.schema.dimension)
    (hwrite : s.engine.locator.refusal = none) (hfs : ∀ f ∈ fs, f.HasPlainKeys) :
    ∃ t', (store.deleteEach fs s).1 = fs.map Selection.answer ∧
      store.IsOpen (store.deleteEach fs s).2 t' ∧
      t.Clears (Selection.AnyPicksNode Properties.Matches fs)
        (Selection.AnyPicksItself Properties.Matches fs) t' := by
  induction fs generalizing s t with
  | nil =>
    refine ⟨t, rfl, hopen, .refl ?_ ?_ t⟩
    · rintro n ⟨f, hf, -⟩
      cases hf
    · rintro r ⟨f, hf, -⟩
      cases hf
  | cons f rest ih =>
    rw [List.forall_mem_cons] at hfs
    obtain ⟨s₁, t₁, hrun₁, hopen₁, hwf₁, hwrite₁, hclears₁⟩ :=
      run_delete hopen hwf hwrite hfs.1
    obtain ⟨t₂, hanswers, hopen₂, hclears₂⟩ := ih hopen₁ hwf₁ hwrite₁ hfs.2
    rw [deleteEach, hrun₁, List.map_cons, ← hanswers]
    refine ⟨t₂, rfl, hopen₂, (hclears₁.trans hclears₂).congr (fun n => ?_) fun r => ?_⟩
    · simp only [Selection.AnyPicksNode, List.mem_cons, exists_eq_or_imp]
    · simp only [Selection.AnyPicksItself, List.mem_cons, exists_eq_or_imp]

/-- A connection that may not write leaves the site as it is. -/
theorem site_deleteEach_of_refusal (hopen : store.IsOpen s t)
    (hrefusal : s.engine.locator.refusal ≠ none) (fs : List Selection) :
    (store.deleteEach fs s).2 = s := by
  induction fs with
  | nil => rfl
  | cons f rest ih =>
    have hsite : ((store.delete f).run s).2 = s := by
      rw [delete]
      split_ifs
      · rfl
      · exact Engine.site_run_session_of_refusal hopen.ready hrefusal _
    show (store.deleteEach rest ((store.delete f).run s).2).2 = s
    rw [hsite, ih]

/-- **What deletions remove depends on what they pick together.** -/
theorem deletesAlike_of_picks (hopen : store.IsOpen s t)
    (hwf : t.WellFormed store.schema.dimension) (hfs : ∀ f ∈ fs, f.HasPlainKeys)
    (hgs : ∀ g ∈ gs, g.HasPlainKeys)
    (hnodes : ∀ n, Selection.AnyPicksNode Properties.Matches gs n ↔
      Selection.AnyPicksNode Properties.Matches fs n)
    (hrelations : ∀ r, Selection.AnyPicksItself Properties.Matches gs r ↔
      Selection.AnyPicksItself Properties.Matches fs r) : store.DeletesAlike s fs gs := by
  by_cases hwrite : s.engine.locator.refusal = none
  · obtain ⟨t₁, hanswers₁, hopen₁, hclears₁⟩ := run_deleteEach hopen hwf hwrite hfs
    obtain ⟨t₂, hanswers₂, hopen₂, hclears₂⟩ := run_deleteEach hopen hwf hwrite hgs
    obtain rfl := hclears₁.unique hwf (hclears₂.congr hnodes hrelations)
    exact ⟨t₁, hopen₁, hopen₂, fun _ => ⟨hanswers₁, hanswers₂⟩⟩
  · have hstays : ∀ fs, store.IsOpen (store.deleteEach fs s).2 t := by
      intro fs
      rwa [site_deleteEach_of_refusal hopen hwrite fs]
    exact ⟨t, hstays fs, hstays gs, fun hnone => absurd hnone hwrite⟩

/-- Deletions may change places and be repeated. -/
theorem deletesAlike_of_mem (hopen : store.IsOpen s t)
    (hwf : t.WellFormed store.schema.dimension) (hfs : ∀ f ∈ fs, f.HasPlainKeys)
    (hmem : ∀ f, f ∈ gs ↔ f ∈ fs) : store.DeletesAlike s fs gs :=
  deletesAlike_of_picks hopen hwf hfs (fun g hg => hfs g ((hmem g).1 hg))
    (fun _ => exists_congr fun f => and_congr_left fun _ => hmem f)
    fun _ => exists_congr fun f => and_congr_left fun _ => hmem f

/-- **The parts of a selection may be deleted one by one**, in any order.  Properties that are too
many are the same as none. -/
theorem deletesAlike_parts (hopen : store.IsOpen s t) (hwf : t.WellFormed store.schema.dimension)
    (hf : f.HasPlainKeys) {parts : List Selection} (hparts : parts.Perm f.parts) :
    store.DeletesAlike s parts [f.uncrowded] := by
  refine deletesAlike_of_picks hopen hwf (fun x hx => ?_)
    (List.forall_mem_singleton.2 hf.uncrowded) (fun n => ?_) fun r => ?_
  · exact hf.of_mem_parts (hparts.mem_iff.1 hx)
  · simp only [Selection.AnyPicksNode, List.mem_singleton, exists_eq_left,
      Selection.not_isCrowded_uncrowded, not_false_eq_true, true_and]
    rw [← Selection.anyPicksNode_parts]
    exact exists_congr fun x => and_congr_left fun _ => hparts.mem_iff.symm
  · simp only [Selection.AnyPicksItself, List.mem_singleton, exists_eq_left,
      Selection.not_isCrowded_uncrowded, not_false_eq_true, true_and]
    rw [← Selection.anyPicksItself_parts]
    exact exists_congr fun x => and_congr_left fun _ => hparts.mem_iff.symm

/-- **Deletions compose**, in every state that a run leads to.  Two of them may change places, one
that is repeated does nothing more, and the parts of a selection may be deleted one by one in any
order.

The last is not so for a selection of too many properties.  To delete it fails and leaves the site as
it is, and to delete its parts removes what those of them pick that have no properties. -/
theorem composes_of_reaches (h : store.Reaches s t) (hf : f.HasPlainKeys) (hg : g.HasPlainKeys) :
    store.DeletesAlike s [f, g] [g, f] ∧ store.DeletesAlike s [f, f] [f] ∧
      (¬f.IsCrowded → ∀ parts : List Selection, parts.Perm f.parts →
        store.DeletesAlike s parts [f]) ∧
      (f.IsCrowded → Access.Fails (store.delete f) s (.storage .badStatement) ∧
        ∀ parts : List Selection, parts.Perm f.parts →
          store.DeletesAlike s parts [{ f with properties := .empty }]) := by
  obtain ⟨hopen, hwf⟩ := h.isOpen
  have hparts : ∀ parts : List Selection, parts.Perm f.parts →
      store.DeletesAlike s parts [f.uncrowded] := fun _ => deletesAlike_parts hopen hwf hf
  rw [Selection.uncrowded] at hparts
  refine ⟨?_, ?_, fun hfew => ?_, fun hcrowded => ⟨delete_fails_of_isCrowded hopen hcrowded, ?_⟩⟩
  · refine deletesAlike_of_mem hopen hwf ?_ fun x => (List.Perm.swap f g []).mem_iff
    exact List.forall_mem_cons.2 ⟨hf, List.forall_mem_singleton.2 hg⟩
  · refine deletesAlike_of_mem hopen hwf ?_ fun x => ?_
    · exact List.forall_mem_cons.2 ⟨hf, List.forall_mem_singleton.2 hf⟩
    · simp only [List.mem_cons, List.not_mem_nil, or_false, or_self]
  · rwa [if_neg hfew] at hparts
  · rwa [if_pos hcrowded] at hparts

/-- As many properties as are wanted, each with a key that is one letter longer. -/
def growingProperties (count : Nat) : Properties where
  entries := (List.range count).map fun i => (String.ofList (List.replicate i 'a'), .int 1)
  sorted := by
    refine List.pairwise_map.2 (List.pairwise_lt_range.imp fun {i j} hij => ?_)
    obtain ⟨d, rfl⟩ := Nat.exists_eq_add_of_lt hij
    rw [String.lt_iff_toList_lt, String.toList_ofList, String.toList_ofList, Nat.add_assoc,
      List.replicate_add, List.replicate_succ]
    induction i with
    | zero => exact .nil
    | succ i ih => exact .cons (ih (by omega))

theorem length_growingProperties (count : Nat) :
    (growingProperties count).entries.length = count := by
  rw [growingProperties, List.length_map, List.length_range]

theorem isPlainKey_growingProperties (count : Nat) :
    ∀ e ∈ (growingProperties count).entries, IsPlainKey e.1 := by
  intro e he
  obtain ⟨i, -, rfl⟩ := List.mem_map.1 he
  simp [IsPlainKey]

/-- A node by its identity, and more properties than can be asked for. -/
def crowdedSelection : Selection := { ids := ["B"], properties := growingProperties 999 }

theorem isCrowded_crowdedSelection : crowdedSelection.IsCrowded := by
  rw [Selection.IsCrowded, crowdedSelection, length_growingProperties]
  exact Nat.lt_succ_self 998

/-- A bare row between two relations goes with the one that is deleted last, or by its identity,
unless there are too many properties beside that. -/
theorem composes_trail : ∃ s, PropertyStore.Reaches ⟨{}⟩ s trailTables ∧
    PropertyStore.DeletesAlike ⟨{}⟩ s [{ relationNames := ["r"] }, { relationNames := ["s"] }]
      [{ relationNames := ["s"] }, { relationNames := ["r"] }] ∧
    PropertyStore.DeletesAlike ⟨{}⟩ s (Selection.parts trailSelection).reverse
      [trailSelection] ∧
    (PropertyStore.delete ⟨{}⟩ crowdedSelection).run s = (.error (.storage .badStatement), s) ∧
    PropertyStore.DeletesAlike ⟨{}⟩ s crowdedSelection.parts [{ ids := ["B"] }] := by
  obtain ⟨s, h, hwritable⟩ := exists_reaches_trailTables
  have hlabel : ∀ names, Selection.HasPlainKeys { relationNames := names } :=
    fun names => Selection.hasPlainKeys_of_empty rfl
  have htrail : trailSelection.HasPlainKeys := by
    rw [Selection.HasPlainKeys]
    decide
  obtain ⟨hswap, -, -⟩ := composes_of_reaches h (hlabel ["r"]) (hlabel ["s"])
  obtain ⟨-, -, hparts, -⟩ := composes_of_reaches h htrail htrail
  have hkeys : crowdedSelection.HasPlainKeys := isPlainKey_growingProperties 999
  obtain ⟨-, -, -, hcrowded⟩ := composes_of_reaches h hkeys hkeys
  obtain ⟨⟨e, hfails, he⟩, hones⟩ := hcrowded isCrowded_crowdedSelection
  rw [he hwritable] at hfails
  exact ⟨s, h, hswap, hparts (by decide) _ (List.reverse_perm _), hfails, hones _ (.refl _)⟩

end PropertyStore

end GraphBase
