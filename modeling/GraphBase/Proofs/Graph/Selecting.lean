import GraphBase.Proofs.Graph.Deletion
import GraphBase.Proofs.Graph.Traversal
import GraphBase.Proofs.Value.Equality

/-!
# Which triplets a selection selects

A selection of triplets has four parts, and a triplet has to pass all of them
(`Selection.SelectsTriplet`).

* Identities and names are asked of the two ends, and one end is enough.
* Labels are asked of the relation.
* Properties are asked of the relation and of both ends.  Each property on its own must be found at
  one of the three, so different properties may be found at different places.

A part that is empty lets everything pass.  What passes is answered in the order in which the
relations have come (`PropertyStore.selects_of_reaches`), in whichever way the rows are read: row by
row as they are selected, or all at the end.

A selection of many properties and parts makes a statement with too many conditions, and then it is
answered with an error (`triplets_eq_error`).

What it means to have a value for a key is a parameter, as it is for a deletion.  For the database
(`Properties.MatchesAt`) nothing has to be assumed, and for the values as they were given
(`Properties.HasAt`) the database has to find what was stored.  Properties that are not shown,
because they are empty, are selected all the same.
-/

namespace GraphBase

namespace Properties

variable {p : Properties} {key : String} {value : Scalar}

/-- The database sees a value for a key that is equal to the given one. -/
def MatchesAt (p : Properties) (key : String) (value : Scalar) : Prop :=
  (p.cellAt key).equals value.toCell.bound = true

/-- The properties have a value for a key that is equal to the given one, and what is found for
this key is what was stored for it. -/
def HasAt (p : Properties) (key : String) (value : Scalar) : Prop :=
  p.IsFaithfulAt key ∧ ∃ x, p.get? key = some x ∧ x.IsEqual value

/-- **The database sees what was given** where it finds what was stored. -/
theorem matchesAt_iff_hasAt (hkey : IsPlainKey key) (h : p.IsFaithfulAt key) :
    p.MatchesAt key value ↔ p.HasAt key value := by
  rw [MatchesAt, HasAt, cellAt_eq hkey h, and_iff_right h]
  cases p.get? key with
  | none => simp
  | some x => simp [Scalar.equals_bound]

end Properties

/-! ## What is selected -/

namespace GraphTables

/-- A relation row of some tables, with the rows of its ends. -/
structure Joined.IsIn (t : GraphTables) (j : Joined) : Prop where
  relation : j.relation ∈ t.relations.rows
  source : j.source ∈ t.nodes
  target : j.target ∈ t.nodes
  source_id : j.source.id = j.relation.source
  target_id : j.target.id = j.relation.target

/-- The texts of properties of a relation and of its ends. -/
def Joined.texts (j : Joined) : List String :=
  [j.relation.properties, j.source.properties, j.target.properties]

end GraphTables

open GraphTables (Joined)

/-- A relation row passes all parts of a selection; a part that is empty lets everything pass. -/
structure Selection.SelectsTriplet (HasAt : Properties → String → Scalar → Prop) (s : Selection)
    (j : Joined) : Prop where
  ids : s.ids = [] ∨ j.source.id ∈ s.ids ∨ j.target.id ∈ s.ids
  properties : ∀ e ∈ s.properties.entries, ∃ text ∈ j.texts,
    ∃ p : Properties, text = p.encode ∧ HasAt p e.1 e.2
  entityNames : s.entityNames = [] ∨
    ∃ name ∈ s.entityNames, j.source.name = some name ∨ j.target.name = some name
  relationNames : s.relationNames = [] ∨ j.relation.label ∈ s.relationNames

/-- A selection selects some relation rows of some tables: exactly those that pass, in the order in
which they have come. -/
structure GraphTables.Selects (HasAt : Properties → String → Scalar → Prop) (s : Selection)
    (t : GraphTables) (rows : List RelationRow) : Prop where
  sublist : rows.Sublist t.relations.rows
  mem_rows : ∀ r, r ∈ rows ↔ ∃ j : Joined, j.IsIn t ∧ j.relation = r ∧ s.SelectsTriplet HasAt j

/-! ## Deciding on stored texts -/

/-- Whether a text has a value for a key; if this cannot be decided, it does not. -/
def hasProperty (key : String) (value : Scalar) (text : String) : Bool :=
  match matchesProperty text key value with
  | .ok b => b
  | .error _ => false

section Deciding

variable {text key : String} {value : Scalar} {texts : List String}

theorem matchesProperty_eq_ok (hkey : IsPlainKey key) (h : ∃ p : Properties, text = p.encode) :
    matchesProperty text key value = .ok (hasProperty key value text) := by
  obtain ⟨p, rfl⟩ := h
  rw [hasProperty, Properties.matchesProperty_encode p hkey]

/-- Whether one of several stored texts has a value is decided without failure. -/
theorem anyMatches_eq_ok (hkey : IsPlainKey key)
    (h : ∀ text ∈ texts, ∃ p : Properties, text = p.encode) :
    anyMatches key value texts = .ok (texts.any (hasProperty key value)) := by
  induction texts with
  | nil => rfl
  | cons text rest ih =>
    rw [List.forall_mem_cons] at h
    rw [anyMatches, matchesProperty_eq_ok hkey h.1, List.any_cons]
    cases hasProperty key value text with
    | true => rfl
    | false => exact ih h.2

/-- Whether each value is in one of several stored texts is decided without failure. -/
theorem anyMatchesEach_eq_ok {entries : List (String × Scalar)}
    (hkeys : ∀ e ∈ entries, IsPlainKey e.1)
    (h : ∀ text ∈ texts, ∃ p : Properties, text = p.encode) :
    anyMatchesEach texts entries =
      .ok (entries.all fun e => texts.any (hasProperty e.1 e.2)) := by
  induction entries with
  | nil => rfl
  | cons e rest ih =>
    rw [List.forall_mem_cons] at hkeys
    rw [anyMatchesEach, anyMatches_eq_ok hkeys.1 h, List.all_cons]
    cases texts.any (hasProperty e.1 e.2) with
    | true => exact ih hkeys.2
    | false => rfl

/-- A stored text has a value if the database sees it in the properties. -/
theorem hasProperty_encode (p : Properties) (hkey : IsPlainKey key) :
    hasProperty key value p.encode = true ↔ p.MatchesAt key value := by
  rw [hasProperty, p.matchesProperty_encode hkey]
  exact Iff.rfl

/-- A text has a value if it is that of properties in which the database sees it. -/
theorem hasProperty_iff_matchesAt (hkey : IsPlainKey key) (h : ∃ p : Properties, text = p.encode) :
    hasProperty key value text = true ↔
      ∃ p : Properties, text = p.encode ∧ p.MatchesAt key value := by
  constructor
  · obtain ⟨p, rfl⟩ := h
    exact fun hhas => ⟨p, rfl, (hasProperty_encode p hkey).1 hhas⟩
  · rintro ⟨p, rfl, hmatches⟩
    exact (hasProperty_encode p hkey).2 hmatches

/-- A text has a value if it is that of properties that have it, where the database finds what was
stored. -/
theorem hasProperty_iff_hasAt (hkey : IsPlainKey key)
    (h : ∃ p : Properties, text = p.encode ∧ p.IsFaithfulAt key) :
    hasProperty key value text = true ↔
      ∃ p : Properties, text = p.encode ∧ p.HasAt key value := by
  constructor
  · obtain ⟨p, rfl, hp⟩ := h
    intro hhas
    exact ⟨p, rfl, (Properties.matchesAt_iff_hasAt hkey hp).1 ((hasProperty_encode p hkey).1 hhas)⟩
  · rintro ⟨p, rfl, hp⟩
    exact (hasProperty_encode p hkey).2 ((Properties.matchesAt_iff_hasAt hkey hp.1).2 hp)

end Deciding

/-! ## Reading what is selected -/

/-- Deciding on items and reading them at once is the same as reading them at the end, if all are
decided. -/
theorem filterMapOk_eq_mapM {ε α β : Type} {p : α → Except ε Bool} {f : α → Except ε β}
    {q : α → Bool} {rows : List α} (hp : ∀ a ∈ rows, p a = .ok (q a)) :
    filterMapOk p f rows = (rows.filter q).mapM f := by
  induction rows with
  | nil => rfl
  | cons a rows ih =>
    rw [List.forall_mem_cons] at hp
    rw [filterMapOk, hp.1, ih hp.2, List.filter_cons]
    cases hq : q a with
    | false => rfl
    | true =>
      simp only [if_true, List.mapM_cons]
      rfl

theorem mapM_eq_ok {ε α β : Type} {f : α → Except ε β} {g : α → β} {rows : List α}
    (hf : ∀ a ∈ rows, f a = .ok (g a)) : rows.mapM f = .ok (rows.map g) := by
  have hread : (rows.filterMap some).mapM f = .ok (rows.filterMap (some ∘ g)) :=
    mapM_filterMap_eq_ok fun a ha => ⟨a, g a, rfl, hf a ha, rfl⟩
  rwa [List.filterMap_some, List.filterMap_eq_map] at hread

/-- Items that are all decided and all read, one after the other. -/
theorem filterMapOk_eq_ok {ε α β : Type} {p : α → Except ε Bool} {f : α → Except ε β}
    {q : α → Bool} {g : α → β} {rows : List α} (hp : ∀ a ∈ rows, p a = .ok (q a))
    (hf : ∀ a ∈ rows, f a = .ok (g a)) : filterMapOk p f rows = .ok ((rows.filter q).map g) := by
  rw [filterMapOk_eq_mapM hp, mapM_eq_ok fun a ha => hf a (List.mem_of_mem_filter ha)]

/-- Items that can all be read are read, one after the other. -/
theorem exists_mapM_eq_ok {ε α β : Type} {f : α → Except ε β} {rows : List α}
    (hf : ∀ a ∈ rows, ∃ b, f a = .ok b) :
    ∃ bs, rows.mapM f = .ok bs ∧ List.Forall₂ (fun a b => f a = .ok b) rows bs := by
  induction rows with
  | nil => exact ⟨[], rfl, .nil⟩
  | cons a rows ih =>
    rw [List.forall_mem_cons] at hf
    obtain ⟨b, hb⟩ := hf.1
    obtain ⟨bs, hbs, hall⟩ := ih hf.2
    exact ⟨b :: bs, by rw [List.mapM_cons, hb, hbs]; rfl, .cons hb hall⟩

namespace GraphTables

variable {dimension : Nat} {t : GraphTables} {s : Selection} {j : Joined}

/-- Whether a relation row passes the parts of a selection that look into it. -/
def Joined.passes (s : Selection) (j : Joined) : Bool :=
  (s.properties.entries.all fun e => j.texts.any (hasProperty e.1 e.2)) && j.hasName s

/-- The relation rows that a selection selects, with the rows of their ends. -/
def selected (s : Selection) (t : GraphTables) : List Joined :=
  ((t.relations.rows.filterMap t.join?).filter fun j => j.isNamedBy s).filter fun j => j.passes s

theorem Joined.isNamedBy_iff : j.isNamedBy s = true ↔
    (s.ids = [] ∨ j.source.id ∈ s.ids ∨ j.target.id ∈ s.ids) ∧
      (s.relationNames = [] ∨ j.relation.label ∈ s.relationNames) := by
  simp [isNamedBy, or_assoc]

theorem Joined.hasName_iff : j.hasName s = true ↔ s.entityNames = [] ∨
    ∃ name ∈ s.entityNames, j.source.name = some name ∨ j.target.name = some name := by
  simp only [hasName]
  cases j.source.name <;> cases j.target.name <;> simp [and_or_left, exists_or, or_assoc]

/-- **The parts together**, if it is known how a text has a value. -/
theorem Joined.passes_iff {HasAt : Properties → String → Scalar → Prop}
    (h : ∀ text ∈ j.texts, ∀ e ∈ s.properties.entries, hasProperty e.1 e.2 text = true ↔
      ∃ p : Properties, text = p.encode ∧ HasAt p e.1 e.2) :
    j.isNamedBy s = true ∧ j.passes s = true ↔ s.SelectsTriplet HasAt j := by
  have hproperties : (s.properties.entries.all fun e => j.texts.any (hasProperty e.1 e.2)) = true ↔
      ∀ e ∈ s.properties.entries, ∃ text ∈ j.texts,
        ∃ p : Properties, text = p.encode ∧ HasAt p e.1 e.2 := by
    rw [List.all_eq_true]
    refine forall₂_congr fun e he => ?_
    rw [List.any_eq_true]
    exact exists_congr fun text => and_congr_right fun htext => h text htext e he
  rw [isNamedBy_iff, passes, Bool.and_eq_true, hproperties, hasName_iff]
  constructor
  · rintro ⟨⟨hids, hlabels⟩, hvalues, hnames⟩
    exact ⟨hids, hvalues, hnames, hlabels⟩
  · rintro ⟨hids, hvalues, hnames, hlabels⟩
    exact ⟨⟨hids, hlabels⟩, hvalues, hnames⟩

/-- A selection with too many properties and parts is not answered. -/
theorem triplets_eq_error (hs : s.isEmpty = false) (hsize : 993 < s.size) (t : GraphTables) :
    t.triplets s = .error .badStatement := by
  have hprepare : Sql.prepare s.conditions = .error .badStatement :=
    Sql.prepare_eq_error fun hok => Nat.not_le.2 hsize (Selection.prepare_conditions_eq_ok.1 hok)
  rw [triplets, if_neg (Bool.eq_false_iff.1 hs), hprepare]
  rfl

section WellFormed

variable (hwf : t.WellFormed dimension)

include hwf

/-- **Joining finds the rows of both ends.** -/
theorem join?_eq_some_iff {r : RelationRow} (hr : r ∈ t.relations.rows) :
    t.join? r = some j ↔ j.IsIn t ∧ j.relation = r := by
  have hnode : ∀ {n : NodeRow} {id : String}, t.node? id = some n ↔ n ∈ t.nodes ∧ n.id = id :=
    hwf.node?_eq_some
  constructor
  · intro hj
    rw [join?] at hj
    split at hj
    · rename_i a b ha hb
      obtain rfl := Option.some.inj hj
      exact ⟨⟨hr, (hnode.1 ha).1, (hnode.1 hb).1, (hnode.1 ha).2, (hnode.1 hb).2⟩, rfl⟩
    · cases hj
  · rintro ⟨hj, rfl⟩
    rw [join?, hnode.2 ⟨hj.source, hj.source_id⟩, hnode.2 ⟨hj.target, hj.target_id⟩]

theorem mem_joined : j ∈ t.relations.rows.filterMap t.join? ↔ j.IsIn t := by
  rw [List.mem_filterMap]
  constructor
  · rintro ⟨r, hr, hj⟩
    exact ((join?_eq_some_iff hwf hr).1 hj).1
  · intro hj
    exact ⟨j.relation, hj.relation, (join?_eq_some_iff hwf hj.relation).2 ⟨hj, rfl⟩⟩

/-- No row is lost in joining. -/
theorem map_relation_joined :
    (t.relations.rows.filterMap t.join?).map Joined.relation = t.relations.rows := by
  have hjoin : ∀ r ∈ t.relations.rows, (t.join? r).map Joined.relation = some r := by
    intro r hr
    obtain ⟨j, hj, -⟩ := join?_eq_some hwf hr
    rw [hj, Option.map_some, ((join?_eq_some_iff hwf hr).1 hj).2]
  rw [List.map_filterMap, List.filterMap_congr hjoin, List.filterMap_some]

theorem exists_encode_of_mem_texts (hj : j.IsIn t) {text : String} (htext : text ∈ j.texts) :
    t.HasText text ∧ ∃ p : Properties, text = p.encode := by
  have hhas : t.HasText text := by
    simp only [Joined.texts, List.mem_cons, List.not_mem_nil, or_false] at htext
    rcases htext with rfl | rfl | rfl
    · exact .inr ⟨_, hj.relation, rfl⟩
    · exact .inl ⟨_, hj.source, rfl⟩
    · exact .inl ⟨_, hj.target, rfl⟩
  exact ⟨hhas, hwf.hasText hhas⟩

theorem isSelected_eq_ok (hkeys : ∀ e ∈ s.properties.entries, IsPlainKey e.1) (hj : j.IsIn t) :
    j.isSelected s = .ok (j.passes s) := by
  have htexts := anyMatchesEach_eq_ok hkeys fun text htext =>
    (exists_encode_of_mem_texts hwf hj htext).2
  rw [Joined.texts] at htexts
  rw [Joined.isSelected, htexts]
  rfl

/-- **A selection answers the triplets of what it selects**, in whichever way it is read. -/
theorem triplets_eq_ok (hs : s.isEmpty = false)
    (hkeys : ∀ e ∈ s.properties.entries, IsPlainKey e.1) (hsize : s.size ≤ 993) :
    t.triplets s = .ok (((t.selected s).map Joined.relation).map t.tripletOf) := by
  have hin : ∀ j ∈ (t.relations.rows.filterMap t.join?).filter fun j => j.isNamedBy s, j.IsIn t :=
    fun j hj => (mem_joined hwf).1 (List.mem_of_mem_filter hj)
  have hpasses := fun j hj => isSelected_eq_ok hwf hkeys (hin j hj)
  have hread : ∀ j : Joined, j.IsIn t → j.triplet = .ok (t.tripletOf j.relation) := by
    intro j hj
    obtain ⟨j', hj', htriplet⟩ := join?_eq_some hwf hj.relation
    rw [(join?_eq_some_iff hwf hj.relation).2 ⟨hj, rfl⟩] at hj'
    rwa [← Option.some.inj hj'] at htriplet
  rw [triplets_of_prepare hs (Selection.prepare_conditions_eq_ok.2 hsize), List.map_map]
  simp only
  split_ifs
  · exact filterMapOk_eq_ok hpasses fun j hj => hread j (hin j hj)
  · rw [filterOk_eq_ok hpasses]
    exact mapM_eq_ok fun j hj => hread j (hin j (List.mem_of_mem_filter hj))

/-- **What is selected passes all parts, and the other way round.** -/
theorem selects_selected {HasAt : Properties → String → Scalar → Prop}
    (h : ∀ text, t.HasText text → ∀ e ∈ s.properties.entries, hasProperty e.1 e.2 text = true ↔
      ∃ p : Properties, text = p.encode ∧ HasAt p e.1 e.2) :
    t.Selects HasAt s ((t.selected s).map Joined.relation) := by
  refine ⟨?_, fun r => ?_⟩
  · have hsub := (List.filter_sublist.trans List.filter_sublist :
      (t.selected s).Sublist (t.relations.rows.filterMap t.join?)).map Joined.relation
    rwa [map_relation_joined hwf] at hsub
  · rw [List.mem_map]
    refine exists_congr fun j => ?_
    rw [selected, List.mem_filter, List.mem_filter, mem_joined hwf, and_assoc, and_assoc]
    refine and_congr_right fun hj => ?_
    rw [and_comm (a := j.relation = r), ← and_assoc]
    exact and_congr_left fun _ => Joined.passes_iff fun text htext =>
      h text (exists_encode_of_mem_texts hwf hj htext).1

end WellFormed

end GraphTables

namespace PropertyStore

variable {store : PropertyStore} {s : Site} {t : GraphTables}

/-- **A selection of triplets answers exactly those that pass all of its parts**, in every state
that a run leads to: each once, in the order in which the relations have come, and with what is
stored for it.  Whether values are equal is decided as the database reads what was stored, and as
the values were given if it reads them so.  Selecting changes nothing, and it fails only if the
properties and the parts are too many, and then in every state. -/
theorem selects_of_reaches (h : store.Reaches s t) {selection : Selection}
    (hselection : selection.isEmpty = false)
    (hkeys : ∀ e ∈ selection.properties.entries, IsPlainKey e.1) :
    (selection.size ≤ 993 → ∃ rows answer s',
      (store.triplets selection).run s = (.ok answer, s') ∧ store.IsOpen s' t ∧
      List.Forall₂ t.Shows rows answer ∧ answer.Nodup ∧
      (rows.map RelationRow.id).Pairwise (· < ·) ∧
      t.Selects Properties.MatchesAt selection rows ∧
      ((∀ text, t.HasText text → ∀ e ∈ selection.properties.entries,
        ∃ p : Properties, text = p.encode ∧ p.IsFaithfulAt e.1) →
        t.Selects Properties.HasAt selection rows)) ∧
    (993 < selection.size →
      (store.triplets selection).run s = (.error (.storage .badStatement), s)) := by
  obtain ⟨hopen, hwf⟩ := h.isOpen
  rw [triplets, if_neg (Bool.eq_false_iff.1 hselection)]
  refine ⟨fun hsize => ?_, fun hsize =>
    run_readsOk_fails hopen (GraphTables.triplets_eq_error hselection hsize t)⟩
  have hmatches : t.Selects Properties.MatchesAt selection
      ((t.selected selection).map GraphTables.Joined.relation) :=
    GraphTables.selects_selected hwf fun text htext e he =>
      hasProperty_iff_matchesAt (hkeys e he) (hwf.hasText htext)
  have hrows : ∀ r ∈ (t.selected selection).map GraphTables.Joined.relation,
      r ∈ t.relations.rows := fun r hr => hmatches.sublist.subset hr
  obtain ⟨s', hrun, hopen'⟩ :
      ∃ s', (store.session (Session.readsOk fun t => t.triplets selection)).run s = (.ok _, s') ∧
        store.IsOpen s' t :=
    run_readsOk hopen (GraphTables.triplets_eq_ok hwf hselection hkeys hsize)
  refine ⟨_, _, s', hrun, hopen', ?_, ?_, ?_, hmatches, fun hfaithful => ?_⟩
  · rw [List.forall₂_map_right_iff, List.forall₂_same]
    exact fun r hr => GraphTables.shows_tripletOf hwf (hrows r hr)
  · refine List.Nodup.map_on ?_ (hmatches.sublist.nodup hwf.relations.rows_nodup)
    exact fun r hr r' hr' heq => GraphTables.injOn_tripletOf hwf (hrows r hr) (hrows r' hr') heq
  · exact hwf.relations.ascending.sublist (hmatches.sublist.map RelationRow.id)
  · exact GraphTables.selects_selected hwf fun text htext e he =>
      hasProperty_iff_hasAt (hkeys e he) (hfaithful text htext e he)

/-- A relation with a property, from a node with a property to a bare row. -/
def tiedTables : GraphTables where
  nodes := [
    { NodeRow.bare "now" "A" with
      name := some "A", label := "x", properties := (Properties.ofList [("k", .int 1)]).encode },
    .bare "now" "B"]
  relations := {
    rows := [
      { id := 1, label := "r", source := "A", target := "B",
        properties := (Properties.ofList [("n", .int 2)]).encode, createdAt := "now",
        updatedAt := "now" }]
    lastId := 1 }

/-- One property that is at the source, and another that is at the relation. -/
def tiedSelection : Selection :=
  { entityNames := ["B", "A"], properties := .ofList [("k", .bool true), ("n", .int 2)] }

/-- A run leads there. -/
theorem exists_reaches_tiedTables : ∃ s, PropertyStore.Reaches ⟨{}⟩ s tiedTables := by
  have hnodes : Step ⟨{}⟩ fileSite _ _ := .call (.upsertNodes "now"
    [.entity "A" { label := "x", properties := .ofList [("k", .int 1)] }])
  have hrun := Run.cons hnodes (.cons (.call (.upsertRelations "now"
    [⟨"r", "A", "B", .ofList [("n", .int 2)]⟩])) (.nil _))
  exact ⟨_, .run start_fileSite tables?_fileSite ⟨rfl, rfl⟩ hrun (by decide +kernel)⟩

/-- A truth value is the integer that was stored, and the two properties need not be found at one
place.  So the relation is selected. -/
theorem selects_tied : ∃ s answer s', PropertyStore.Reaches ⟨{}⟩ s tiedTables ∧
    tiedSelection.isEmpty = false ∧
    (∀ e ∈ tiedSelection.properties.entries, IsPlainKey e.1) ∧
    (PropertyStore.triplets ⟨{}⟩ tiedSelection).run s = (.ok answer, s') ∧
    List.Forall₂ tiedTables.Shows tiedTables.relations.rows answer ∧
    tiedTables.Selects Properties.HasAt tiedSelection tiedTables.relations.rows := by
  obtain ⟨s, h⟩ := exists_reaches_tiedTables
  have hkeys : ∀ e ∈ tiedSelection.properties.entries, IsPlainKey e.1 := by decide
  obtain ⟨rows, answer, s', hrun, -, hshows, -, -, -, hhas⟩ :=
    (selects_of_reaches h (by decide) hkeys).1 (by decide)
  have hnode : ∀ key, (Properties.ofList [("k", .int 1)]).IsFaithfulAt key :=
    Properties.isFaithfulAt_of_notFloat (by decide) (List.forall_mem_singleton.2 nofun)
  have hrelation : ∀ key, (Properties.ofList [("n", .int 2)]).IsFaithfulAt key :=
    Properties.isFaithfulAt_of_notFloat (by decide) (List.forall_mem_singleton.2 nofun)
  have hselects : tiedTables.Selects Properties.HasAt tiedSelection rows := by
    refine hhas ?_
    rintro text (⟨n, hn, rfl⟩ | ⟨r, hr, rfl⟩) e -
    · simp only [tiedTables, List.mem_cons, List.not_mem_nil, or_false] at hn
      rcases hn with rfl | rfl
      · exact ⟨_, rfl, hnode e.1⟩
      · exact ⟨.empty, rfl, Properties.isFaithfulAt_of_notFloat
          (fun e he => absurd he List.not_mem_nil) (fun e he => absurd he List.not_mem_nil) e.1⟩
    · obtain rfl := List.mem_singleton.1 hr
      exact ⟨_, rfl, hrelation e.1⟩
  have hpasses : ∀ r ∈ tiedTables.relations.rows, r ∈ rows := by
    intro r hr
    obtain rfl := List.mem_singleton.1 hr
    refine (hselects.mem_rows _).2 ⟨⟨_, _, _⟩,
      ⟨hr, List.mem_cons_self, List.mem_cons_of_mem _ List.mem_cons_self, rfl, rfl⟩, rfl,
      .inl rfl, ?_, .inr ⟨"A", by decide, .inl rfl⟩, .inl rfl⟩
    refine List.forall_mem_cons.2 ⟨?_, List.forall_mem_singleton.2 ?_⟩
    · refine ⟨_, List.mem_cons_of_mem _ List.mem_cons_self, _, rfl, hnode "k", _, rfl, ?_⟩
      have hone : Scalar.quantity? (.int 1) = Scalar.quantity? (.bool true) := by
        simp [Scalar.quantity?]
      exact .number hone rfl
    · exact ⟨_, List.mem_cons_self, _, rfl, hrelation "n", _, rfl, .number rfl rfl⟩
  have hrows : rows = tiedTables.relations.rows :=
    hselects.sublist.eq_of_length_le
      (List.subperm_of_subset (List.nodup_singleton _) hpasses).length_le
  rw [hrows] at hshows hselects
  exact ⟨s, answer, s', h, by decide, hkeys, hrun, hshows, hselects⟩

end PropertyStore

end GraphBase
