import GraphBase.Proofs.Graph.Deleting
import GraphBase.Proofs.Graph.Runs

/-!
# What a deletion removes

The parts of a selection are looked at one after the other, and each sees what the earlier ones
have left.  Still the outcome depends on the selection and on the tables alone, and not on this
order (`PropertyStore.deletes_of_reaches`).

* The selection picks nodes by name, by identity and by properties (`Selection.PicksNode`).
* It picks relations by label and by properties, and those that end at a node that it picks
  (`Selection.PicksRelation`).
* Picked relations may leave bare rows behind, at which only they have ended
  (`Selection.LeavesBare`).

All these go, and everything else stays as it was and where it was (`GraphTables.Deletes`).

What it means to have properties is a parameter.  For the database (`Properties.Matches`) nothing
has to be assumed.  For the properties as they were given (`Properties.Has`) it has to find what
was stored.
-/

namespace GraphBase

/-! ## What is removed -/

namespace Selection

variable (Has : Properties → Properties → Prop) (s : Selection)

/-- A stored text is picked if there are properties to have, and it is the text of properties that
have them. -/
def PicksText (text : String) : Prop :=
  s.properties.isEmpty = false ∧ ∃ p : Properties, text = p.encode ∧ Has p s.properties

/-- A node is picked for its name, for its identity or for its properties. -/
inductive PicksNode (n : NodeRow) : Prop
  | name {name : String} (h : n.name = some name) (hname : name ∈ s.entityNames)
  | id (h : n.id ∈ s.ids)
  | properties (h : s.PicksText Has n.properties)

/-- A relation is picked for its label, for its properties or with one of its ends. -/
inductive PicksRelation (t : GraphTables) (r : RelationRow) : Prop
  | label (h : r.label ∈ s.relationNames)
  | properties (h : s.PicksText Has r.properties)
  | node {n : NodeRow} (hn : n ∈ t.nodes) (h : s.PicksNode Has n) (hend : r.endsAt n.id = true)

/-- A bare row at which a picked relation ends, and no other. -/
structure LeavesBare (t : GraphTables) (n : NodeRow) : Prop where
  bare : n.isBare = true
  touched : ∃ r ∈ t.relations.rows, s.PicksRelation Has t r ∧ r.endsAt n.id = true
  alone : ∀ r ∈ t.relations.rows, r.endsAt n.id = true → s.PicksRelation Has t r

end Selection

namespace GraphTables

/-- A deletion leads from some tables to others: what is picked is gone, with the bare rows it
leaves behind, and what is left is unchanged and in the same order. -/
structure Deletes (Has : Properties → Properties → Prop) (s : Selection)
    (t t' : GraphTables) : Prop where
  relations : t'.relations.rows.Sublist t.relations.rows
  mem_relations : ∀ r, r ∈ t'.relations.rows ↔
    r ∈ t.relations.rows ∧ ¬s.PicksRelation Has t r
  lastId : t'.relations.lastId = t.relations.lastId
  nodes : t'.nodes.Sublist t.nodes
  mem_nodes : ∀ n, n ∈ t'.nodes ↔ n ∈ t.nodes ∧ ¬s.PicksNode Has n ∧ ¬s.LeavesBare Has t n

/-- A text of properties that is in the tables. -/
def HasText (t : GraphTables) (text : String) : Prop :=
  (∃ n ∈ t.nodes, n.properties = text) ∨ ∃ r ∈ t.relations.rows, r.properties = text

variable {dimension : Nat} {t t' : GraphTables} {Has : Properties → Properties → Prop}
  {s : Selection} {n : NodeRow} {r : RelationRow}

theorem WellFormed.hasText (h : t.WellFormed dimension) {text : String} (htext : t.HasText text) :
    ∃ p : Properties, text = p.encode := by
  rcases htext with ⟨n, hn, rfl⟩ | ⟨r, hr, rfl⟩
  · exact (h.nodes n hn).properties
  · exact h.properties r hr

/-! ## The parts together -/

section Picking

variable (h : t.WellFormed dimension)
  (hHas : ∀ text, t.HasText text → (s.selectsText text = true ↔ s.PicksText Has text))

include h hHas

/-- The nodes that a deletion dooms are those that are picked.  A node whose properties are looked
at too late is gone for another reason. -/
theorem id_mem_doomedIds_iff (hn : n ∈ t.nodes) : n.id ∈ t.doomedIds s ↔ s.PicksNode Has n := by
  have htext := hHas n.properties (.inl ⟨n, hn, rfl⟩)
  rw [doomedIds, List.mem_append, List.mem_append, mem_idsOfNames h.ids_nodup hn]
  constructor
  · rintro ((⟨name, hsome, hname⟩ | hid) | hproperties)
    · exact .name hsome hname
    · exact .id hid
    · obtain ⟨n', hn', hid⟩ := List.mem_map.1 hproperties
      rw [List.mem_filter] at hn'
      obtain rfl : n' = n :=
        List.inj_on_of_nodup_map h.ids_nodup (mem_nodes_without.1 hn'.1).1 hn hid
      exact .properties (htext.1 hn'.2)
  · rintro (⟨hsome, hname⟩ | hid | hproperties)
    · exact .inl (.inl ⟨_, hsome, hname⟩)
    · exact .inl (.inr hid)
    · by_cases hgone : n.id ∈ t.idsOfNames s.entityNames ++ s.ids
      · rw [List.mem_append, mem_idsOfNames h.ids_nodup hn] at hgone
        exact .inl hgone
      · exact .inr (List.mem_map.2 ⟨n, List.mem_filter.2
          ⟨mem_nodes_without.2 ⟨hn, hgone⟩, htext.2 hproperties⟩, rfl⟩)

/-- The relations that go in a deletion are those that are picked. -/
theorem goes_iff (hr : r ∈ t.relations.rows) :
    goes (isDoomed s) (t.doomedIds s) r = true ↔ s.PicksRelation Has t r := by
  have htext := hHas r.properties (.inr ⟨r, hr, rfl⟩)
  rw [goes, isDoomed, Bool.or_eq_true, Bool.or_eq_true, Bool.or_eq_true, List.contains_iff_mem,
    List.contains_iff_mem, List.contains_iff_mem]
  constructor
  · rintro ((hlabel | hproperties) | (hsource | htarget))
    · exact .label hlabel
    · exact .properties (htext.1 hproperties)
    · obtain ⟨n, hn, hid⟩ := List.mem_map.1 (h.ends r hr).1
      refine .node hn ((id_mem_doomedIds_iff h hHas hn).1 (hid ▸ hsource)) ?_
      rw [RelationRow.endsAt, hid, beq_self_eq_true, Bool.true_or]
    · obtain ⟨n, hn, hid⟩ := List.mem_map.1 (h.ends r hr).2
      refine .node hn ((id_mem_doomedIds_iff h hHas hn).1 (hid ▸ htarget)) ?_
      rw [RelationRow.endsAt, hid, beq_self_eq_true, Bool.or_true]
  · rintro (hlabel | hproperties | ⟨hn, hpicks, hend⟩)
    · exact .inl (.inl hlabel)
    · exact .inl (.inr (htext.2 hproperties))
    · have hdoomed := (id_mem_doomedIds_iff h hHas hn).2 hpicks
      rw [RelationRow.endsAt, Bool.or_eq_true, beq_iff_eq, beq_iff_eq] at hend
      rcases hend with hsource | htarget
      · exact .inr (.inl (hsource ▸ hdoomed))
      · exact .inr (.inr (htarget ▸ hdoomed))

/-- The rows that a deletion removes for being bare are those that what is picked leaves behind. -/
theorem isLeftBare_iff {ends : List String} (hends : t.IsEnds (isDoomed s) (t.doomedIds s) ends) :
    (ends.contains n.id && n.isBare && !(t.remnant s).refersTo n.id) = true ↔
      s.LeavesBare Has t n := by
  rw [Bool.and_eq_true, Bool.and_eq_true, List.contains_iff_mem, hends n.id, Bool.not_eq_true',
    refersTo, List.any_eq_false]
  constructor
  · rintro ⟨⟨⟨r, hr, hgoes, hend⟩, hbare⟩, hfree⟩
    refine ⟨hbare, ⟨r, hr, (goes_iff h hHas hr).1 hgoes, hend⟩, fun r' hr' hend' => ?_⟩
    rw [← goes_iff h hHas hr']
    by_contra hstays
    exact hfree r' (mem_rows_without.2 ⟨hr', Bool.eq_false_iff.2 hstays⟩) hend'
  · rintro ⟨hbare, ⟨r, hr, hpicks, hend⟩, halone⟩
    refine ⟨⟨⟨r, hr, (goes_iff h hHas hr).2 hpicks, hend⟩, hbare⟩, fun r' hr' hend' => ?_⟩
    obtain ⟨hr', hstays⟩ := mem_rows_without.1 hr'
    rw [(goes_iff h hHas hr').2 (halone r' hr' hend')] at hstays
    cases hstays

/-- **The parts of a deletion make one deletion.** -/
theorem deletes_remnant {ends : List String}
    (hends : t.IsEnds (isDoomed s) (t.doomedIds s) ends) :
    t.Deletes Has s ((t.remnant s).withoutBare ends) := by
  refine ⟨List.filter_sublist, fun r => ?_, rfl, List.filter_sublist.trans List.filter_sublist,
    fun n => ?_⟩
  · show r ∈ (t.without (isDoomed s) (t.doomedIds s)).relations.rows ↔ _
    rw [mem_rows_without]
    refine and_congr_right fun hr => ?_
    rw [← goes_iff h hHas hr, Bool.not_eq_true]
  · show n ∈ ((t.without (isDoomed s) (t.doomedIds s)).nodes.filter _) ↔ _
    rw [List.mem_filter, mem_nodes_without, and_assoc]
    refine and_congr_right fun hn => ?_
    rw [id_mem_doomedIds_iff h hHas hn, Bool.not_eq_true', ← Bool.not_eq_true,
      isLeftBare_iff h hHas hends]

end Picking

/-! ## What it means to have properties -/

/-- A text is selected if the database finds the properties in it. -/
theorem selectsText_iff_matches (h : t.WellFormed dimension)
    (hkeys : ∀ e ∈ s.properties.entries, IsPlainKey e.1) {text : String} (htext : t.HasText text) :
    s.selectsText text = true ↔ s.PicksText Properties.Matches text := by
  rw [Selection.selectsText, Selection.PicksText, Bool.and_eq_true, Bool.not_eq_true',
    Properties.selectsText_iff hkeys (h.hasText htext)]

/-- A text is selected if it is that of properties that have them, where the database finds what
was stored. -/
theorem selectsText_iff_has (hkeys : ∀ e ∈ s.properties.entries, IsPlainKey e.1) {text : String}
    (htext : ∃ p : Properties, text = p.encode ∧
      ∀ e ∈ s.properties.entries, p.IsFaithfulAt e.1) :
    s.selectsText text = true ↔ s.PicksText Properties.Has text := by
  have hselects : ∀ p : Properties, (∀ e ∈ s.properties.entries, p.IsFaithfulAt e.1) →
      (s.properties.selectsText p.encode = true ↔ p.Has s.properties) := by
    intro p hp
    rw [Properties.selectsText, Properties.matchesAll_encode p hkeys, decide_eq_true_eq,
      Properties.matches_iff_has hkeys hp]
  rw [Selection.selectsText, Selection.PicksText, Bool.and_eq_true, Bool.not_eq_true']
  refine and_congr_right fun _ => ?_
  constructor
  · obtain ⟨p, rfl, hp⟩ := htext
    exact fun h => ⟨p, rfl, (hselects p hp).1 h⟩
  · rintro ⟨p, rfl, hp⟩
    exact (hselects p fun e he => (hp e he).1).2 hp

end GraphTables

namespace PropertyStore

variable {store : PropertyStore} {s : Site} {t : GraphTables}

/-- A deletion of too many properties fails, in any state of the tables. -/
theorem delete_fails_of_isCrowded (hopen : store.IsOpen s t) {selection : Selection}
    (hcrowded : selection.IsCrowded) :
    Access.Fails (store.delete selection) s (.storage .badStatement) := by
  rw [delete, if_neg (Bool.eq_false_iff.1 hcrowded.isEmpty_eq_false)]
  exact fails_session hopen (GraphTables.restrained_delete selection)
    (GraphTables.run_delete_crowded hcrowded t)

/-- **A deletion removes what is picked and the bare rows that this leaves behind**, in every state
that a run leads to, and nothing else changes.  What has the properties of the selection is decided
as the database reads what was stored, and as the properties were given if it reads them so.  The
deletion succeeds unless the connection may not write; if it fails, nothing is removed at all.

With too many properties it fails instead, also for what the other parts of the selection pick. -/
theorem deletes_of_reaches (h : store.Reaches s t) {selection : Selection}
    (hselection : selection.isEmpty = false)
    (hkeys : ∀ e ∈ selection.properties.entries, IsPlainKey e.1) :
    (¬selection.IsCrowded → ∃ t', t.Deletes Properties.Matches selection t' ∧
      ((∀ text, t.HasText text → ∃ p : Properties, text = p.encode ∧
        ∀ e ∈ selection.properties.entries, p.IsFaithfulAt e.1) →
        t.Deletes Properties.Has selection t') ∧
      ((∃ s', (store.delete selection).run s = (.ok (), s') ∧ store.IsOpen s' t') ∨
        s.engine.locator.refusal ≠ none ∧
          ∃ e, (store.delete selection).run s = (.error e, s))) ∧
    (selection.IsCrowded →
      Access.Fails (store.delete selection) s (.storage .badStatement)) := by
  obtain ⟨hopen, hwf⟩ := h.isOpen
  refine ⟨fun hfew => ?_, delete_fails_of_isCrowded hopen⟩
  obtain ⟨ends, hends, hrun⟩ := GraphTables.run_delete hwf hselection hkeys hfew
  have hmatches := GraphTables.deletes_remnant hwf
    (fun text htext => GraphTables.selectsText_iff_matches hwf hkeys htext) hends
  refine ⟨_, hmatches, fun hfaithful => GraphTables.deletes_remnant hwf
    (fun text htext => GraphTables.selectsText_iff_has hkeys (hfaithful text htext)) hends, ?_⟩
  have hdelete : store.delete selection = store.session (GraphTables.delete selection) :=
    if_neg (Bool.eq_false_iff.1 hselection)
  rw [hdelete]
  obtain ⟨u, t', s', hbody, hsession, hopen'⟩ | ⟨e, hsession, hfails⟩ :=
    run_session_of_restrained hopen (GraphTables.restrained_delete selection)
  · rw [hrun] at hbody
    obtain ⟨-, htables⟩ := Prod.mk.inj (Except.ok.inj hbody)
    exact .inl ⟨s', hsession, htables ▸ hopen'⟩
  · refine .inr ⟨fun hnone => ?_, e, hsession⟩
    rw [hrun] at hfails
    cases hfails hnone

/-- A node with a property, and two relations in a row from there to bare rows. -/
def trailTables : GraphTables where
  nodes := [
    { NodeRow.bare "now" "A" with
      name := some "A", label := "x", properties := (Properties.ofList [("k", .int 1)]).encode },
    .bare "now" "B", .bare "now" "C"]
  relations := {
    rows := [
      { id := 1, label := "r", source := "A", target := "B", createdAt := "now",
        updatedAt := "now" },
      { id := 2, label := "s", source := "B", target := "C", createdAt := "now",
        updatedAt := "now" }]
    lastId := 2 }

/-- The node of that property, and the relations of one label. -/
def trailSelection : Selection :=
  { relationNames := ["s"], properties := .ofList [("k", .int 1)] }

/-- A run leads there. -/
theorem exists_reaches_trailTables : ∃ s, PropertyStore.Reaches ⟨{}⟩ s trailTables ∧
    s.engine.locator.refusal = none := by
  have hnodes : Step ⟨{}⟩ fileSite _ _ := .call (.upsertNodes "now"
    [.entity "A" { label := "x", properties := .ofList [("k", .int 1)] }])
  have hrun := Run.cons hnodes (.cons (.call (.upsertRelations "now"
    [⟨"r", "A", "B", .empty⟩, ⟨"s", "B", "C", .empty⟩])) (.nil _))
  exact ⟨_, .run start_fileSite tables?_fileSite ⟨rfl, rfl⟩ hrun (by decide +kernel),
    by decide +kernel⟩

/-- The selection takes the node with the first relation, the second relation, and with these the
two bare rows. -/
theorem deletes_trail : ∃ s t' s', PropertyStore.Reaches ⟨{}⟩ s trailTables ∧
    trailSelection.isEmpty = false ∧
    (∀ e ∈ trailSelection.properties.entries, IsPlainKey e.1) ∧
    trailTables.Deletes Properties.Has trailSelection t' ∧
    (PropertyStore.delete ⟨{}⟩ trailSelection).run s = (.ok (), s') ∧
    PropertyStore.IsOpen ⟨{}⟩ s' t' := by
  obtain ⟨s, h, hwritable⟩ := exists_reaches_trailTables
  have hkeys : ∀ e ∈ trailSelection.properties.entries, IsPlainKey e.1 := by decide
  obtain ⟨t', -, hhas, hrun⟩ := (deletes_of_reaches h (by decide) hkeys).1 (by decide)
  have hempty : ∀ key, Properties.empty.IsFaithfulAt key :=
    Properties.isFaithfulAt_of_notFloat (fun e he => absurd he List.not_mem_nil)
      fun e he => absurd he List.not_mem_nil
  have hk : ∀ key, (Properties.ofList [("k", .int 1)]).IsFaithfulAt key :=
    Properties.isFaithfulAt_of_notFloat (by decide) (List.forall_mem_singleton.2 nofun)
  have hfaithful : ∀ text, trailTables.HasText text → ∃ p : Properties, text = p.encode ∧
      ∀ e ∈ trailSelection.properties.entries, p.IsFaithfulAt e.1 := by
    rintro text (⟨n, hn, rfl⟩ | ⟨r, hr, rfl⟩)
    · simp only [trailTables, List.mem_cons, List.not_mem_nil, or_false] at hn
      rcases hn with rfl | rfl | rfl
      · exact ⟨_, rfl, fun e _ => hk e.1⟩
      · exact ⟨_, rfl, fun e _ => hempty e.1⟩
      · exact ⟨_, rfl, fun e _ => hempty e.1⟩
    · simp only [trailTables, List.mem_cons, List.not_mem_nil, or_false] at hr
      rcases hr with rfl | rfl
      · exact ⟨_, rfl, fun e _ => hempty e.1⟩
      · exact ⟨_, rfl, fun e _ => hempty e.1⟩
  obtain ⟨s', hrun, hopen⟩ | ⟨hrefused, -⟩ := hrun
  · exact ⟨s, t', s', h, by decide, hkeys, hhas hfaithful, hrun, hopen⟩
  · exact absurd hwritable hrefused

end PropertyStore

end GraphBase
