import GraphBase.Graph.Delete
import GraphBase.Proofs.Graph.WellFormed
import GraphBase.Proofs.Storage.Sessions
import GraphBase.Proofs.Value.Matching

/-!
# The parts of a deletion

Each part of a deletion removes some relations of its own and some nodes, and with a node every
relation that ends there (`GraphTables.without`).  It answers with the ends of all relations that
it has removed (`GraphTables.IsEnds`).

Parts that run one after the other make one removal (`without_without`), and their answers are the
ends of what it removes (`IsEnds.append`).  So a deletion is one removal, followed by the removal
of the bare rows among these ends that no relation is left at (`run_delete`).

The statement that removes nodes fails if a relation is left that ends at one of them.  It never
does here: the relations go first (`run_deleteRows`).  What can fail is the part of the properties, after
names, identities and labels have been dealt with.  The statement cannot be made for more than 998
of them (`run_delete_crowded`).  And it may not be possible to decide whether a text has them, if it
is not the text of properties or if a key makes no sense in it; this is asked of the relations first
and of the nodes second (`run_delete_fails`).  The fault is the same in all cases.  A deletion that
succeeds is one removal in any case (`exists_removal`).
-/

namespace GraphBase

/-- Whether a relation ends at an identity. -/
def RelationRow.endsAt (r : RelationRow) (id : String) : Bool := r.source == id || r.target == id

/-- Whether a stored text has all the values of a filter. -/
def Properties.selectsText (filter : Properties) (text : String) : Bool :=
  match matchesAll text filter.entries with
  | .ok b => b
  | .error _ => false

/-- Whether the properties of a selection, if there are any, are all in a stored text. -/
def Selection.selectsText (s : Selection) (text : String) : Bool :=
  !s.properties.isEmpty && s.properties.selectsText text

/-- The statements of a deletion cannot be made for so many properties. -/
def Selection.IsCrowded (s : Selection) : Prop := 998 < s.properties.entries.length

instance (s : Selection) : Decidable s.IsCrowded :=
  inferInstanceAs (Decidable (998 < s.properties.entries.length))

/-- A selection with properties is not empty. -/
theorem Selection.isEmpty_eq_false_of_properties {s : Selection}
    (h : s.properties.isEmpty = false) : s.isEmpty = false := by
  rw [isEmpty, h, Bool.and_false, Bool.false_and]

namespace Selection.IsCrowded

variable {s : Selection}

theorem properties_isEmpty (h : s.IsCrowded) : s.properties.isEmpty = false := by
  rw [Properties.isEmpty, List.isEmpty_eq_false_iff_exists_mem]
  exact List.exists_mem_of_length_pos (Nat.zero_lt_of_lt h)

theorem isEmpty_eq_false (h : s.IsCrowded) : s.isEmpty = false :=
  isEmpty_eq_false_of_properties h.properties_isEmpty

end Selection.IsCrowded

/-- What keeps a filter from being decided on a stored text. -/
def Properties.fault? (filter : Properties) (text : String) : Option StorageFault :=
  faultIn (matchesAll text filter.entries)

/-- There is one fault that can keep a filter from being decided. -/
theorem Properties.eq_badStatement_of_fault? (filter : Properties) {text : String}
    {f : StorageFault} (h : filter.fault? text = some f) : f = .badStatement :=
  eq_badStatement_of_matchesAll (faultIn_eq_some.1 h)

theorem filterOk_eq_error {α : Type} {p : α → Except StorageFault Bool} {f : StorageFault}
    {rows : List α} (h : rows.findSome? (fun a => faultIn (p a)) = some f) :
    filterOk p rows = .error f := by
  induction rows with
  | nil => cases h
  | cons a rows ih =>
    rw [List.findSome?_cons] at h
    rw [filterOk]
    cases ha : p a with
    | error e =>
      rw [ha] at h
      obtain rfl : e = f := Option.some.inj h
      rfl
    | ok keep =>
      rw [ha] at h
      rw [ih h]
      rfl

theorem filterOk_eq_ok {ε α : Type} {p : α → Except ε Bool} {q : α → Bool} {rows : List α}
    (h : ∀ a ∈ rows, p a = .ok (q a)) : filterOk p rows = .ok (rows.filter q) := by
  induction rows with
  | nil => rfl
  | cons a rows ih =>
    rw [List.forall_mem_cons] at h
    rw [filterOk, h.1, ih h.2, List.filter_cons]
    rfl

theorem exists_filterOk_eq_ok {α : Type} {p : α → Except StorageFault Bool} {rows : List α}
    (h : rows.findSome? (fun a => faultIn (p a)) = none) : ∃ kept, filterOk p rows = .ok kept := by
  rw [List.findSome?_eq_none_iff] at h
  refine ⟨_, filterOk_eq_ok (q := fun a => (p a).toOption.getD false) fun a ha => ?_⟩
  obtain ⟨keep, hkeep⟩ := faultIn_eq_none.1 (h a ha)
  rw [hkeep]
  rfl

/-- A condition on texts that were stored is decided without failure. -/
theorem Properties.matchesAll_eq_ok {filter : Properties} {text : String}
    (hkeys : ∀ e ∈ filter.entries, IsPlainKey e.1) (h : ∃ p : Properties, text = p.encode) :
    matchesAll text filter.entries = .ok (filter.selectsText text) := by
  obtain ⟨p, rfl⟩ := h
  rw [selectsText, matchesAll_encode p hkeys]

/-- A stored text is selected if the properties that were stored match. -/
theorem Properties.selectsText_iff {filter : Properties} {text : String}
    (hkeys : ∀ e ∈ filter.entries, IsPlainKey e.1) (h : ∃ p : Properties, text = p.encode) :
    filter.selectsText text = true ↔ ∃ p : Properties, text = p.encode ∧ p.Matches filter := by
  have hencode : ∀ p : Properties, filter.selectsText p.encode = decide (p.Matches filter) := by
    intro p
    rw [selectsText, matchesAll_encode p hkeys]
  constructor
  · obtain ⟨p, rfl⟩ := h
    intro hselects
    rw [hencode, decide_eq_true_eq] at hselects
    exact ⟨p, rfl, hselects⟩
  · rintro ⟨p, rfl, hmatches⟩
    rw [hencode, decide_eq_true_eq]
    exact hmatches

namespace GraphTables

/-! ## Removals -/

/-- Whether a relation goes in a removal: for itself, or with one of its ends. -/
def goes (gone : RelationRow → Bool) (ids : List String) (r : RelationRow) : Bool :=
  gone r || (ids.contains r.source || ids.contains r.target)

/-- The tables without some relations and some nodes, and without the relations that end at such
a node. -/
def without (gone : RelationRow → Bool) (ids : List String) (t : GraphTables) : GraphTables where
  nodes := t.nodes.filter fun n => !ids.contains n.id
  relations := t.relations.keep fun r => !goes gone ids r

/-- The tables without the bare rows among some nodes at which no relation ends. -/
def withoutBare (ids : List String) (t : GraphTables) : GraphTables where
  nodes := t.nodes.filter fun n => !(ids.contains n.id && n.isBare && !t.refersTo n.id)
  relations := t.relations

/-- Exactly the ends of the relations that go in a removal. -/
def IsEnds (gone : RelationRow → Bool) (ids : List String) (t : GraphTables)
    (ends : List String) : Prop :=
  ∀ id, id ∈ ends ↔ ∃ r ∈ t.relations.rows, goes gone ids r = true ∧ r.endsAt id = true

variable {dimension : Nat} {t : GraphTables} {gone gone' : RelationRow → Bool}
  {ids ids' ends ends' : List String}

theorem goes_append (r : RelationRow) :
    goes (fun r => gone r || gone' r) (ids ++ ids') r = (goes gone ids r || goes gone' ids' r) := by
  rw [Bool.eq_iff_iff]
  simp only [goes, Bool.or_eq_true, List.contains_iff_mem, List.mem_append]
  tauto

/-- **Two removals, one after the other, are one.** -/
theorem without_without : (t.without gone ids).without gone' ids' =
    t.without (fun r => gone r || gone' r) (ids ++ ids') := by
  have hnodes : (t.nodes.filter fun n => !ids.contains n.id).filter (fun n => !ids'.contains n.id) =
      t.nodes.filter fun n => !(ids ++ ids').contains n.id := by
    rw [List.filter_filter]
    refine List.filter_congr fun n _ => ?_
    rw [List.contains_append, Bool.not_or, Bool.and_comm]
  have hrows : (t.relations.rows.filter fun r => !goes gone ids r).filter
      (fun r => !goes gone' ids' r) =
      t.relations.rows.filter fun r => !goes (fun r => gone r || gone' r) (ids ++ ids') r := by
    rw [List.filter_filter]
    refine List.filter_congr fun r _ => ?_
    rw [goes_append, Bool.not_or, Bool.and_comm]
  simp only [without, Table.keep, hnodes, hrows]

theorem mem_nodes_without {n : NodeRow} :
    n ∈ (t.without gone ids).nodes ↔ n ∈ t.nodes ∧ n.id ∉ ids := by
  simp [without]

theorem mem_rows_without {r : RelationRow} : r ∈ (t.without gone ids).relations.rows ↔
    r ∈ t.relations.rows ∧ goes gone ids r = false := by
  simp [without]

/-- The ends of what one removal and then another takes are the ends of what both take. -/
theorem IsEnds.append (h : t.IsEnds gone ids ends)
    (h' : (t.without gone ids).IsEnds gone' ids' ends') :
    t.IsEnds (fun r => gone r || gone' r) (ids ++ ids') (ends ++ ends') := by
  intro id
  rw [List.mem_append, h id, h' id]
  constructor
  · rintro (⟨r, hr, hgoes, hend⟩ | ⟨r, hr, hgoes, hend⟩)
    · exact ⟨r, hr, by rw [goes_append, hgoes, Bool.true_or], hend⟩
    · exact ⟨r, (mem_rows_without.1 hr).1, by rw [goes_append, hgoes, Bool.or_true], hend⟩
  · rintro ⟨r, hr, hgoes, hend⟩
    rw [goes_append, Bool.or_eq_true] at hgoes
    by_cases hfirst : goes gone ids r = true
    · exact .inl ⟨r, hr, hfirst, hend⟩
    · exact .inr ⟨r, mem_rows_without.2 ⟨hr, by simpa using hfirst⟩,
        hgoes.resolve_left hfirst, hend⟩

theorem WellFormed.without (h : t.WellFormed dimension) (gone : RelationRow → Bool)
    (ids : List String) : (t.without gone ids).WellFormed dimension := by
  refine (h.keepRelations fun r => !goes gone ids r).keepNodes fun n _ hrefers => ?_
  obtain ⟨r, hr, hend⟩ := List.any_eq_true.1 hrefers
  have hstays := (List.mem_filter.1 hr).2
  rw [Bool.not_eq_true', goes, Bool.or_eq_false_iff, Bool.or_eq_false_iff] at hstays
  rw [Bool.or_eq_true, beq_iff_eq, beq_iff_eq] at hend
  rcases hend with hsource | htarget
  · rw [← hsource, hstays.2.1]
    rfl
  · rw [← htarget, hstays.2.2]
    rfl

theorem goes_nil (gone : RelationRow → Bool) (r : RelationRow) : goes gone [] r = gone r :=
  Bool.or_false _

theorem goes_false (ids : List String) (r : RelationRow) :
    goes (fun _ => false) ids r = (ids.contains r.source || ids.contains r.target) :=
  Bool.false_or _

/-- A removal of relations alone. -/
theorem without_nil :
    t.without gone [] = { t with relations := t.relations.keep fun r => !gone r } := by
  have hnodes : t.nodes.filter (fun n => !([] : List String).contains n.id) = t.nodes :=
    List.filter_eq_self.2 fun n _ => rfl
  simp only [without, hnodes, goes_nil]

/-- A removal of nothing. -/
theorem without_false : t.without (fun _ => false) [] = t := by
  have hrows : t.relations.rows.filter (fun _ => !false) = t.relations.rows :=
    List.filter_eq_self.2 fun r _ => rfl
  rw [without_nil, Table.keep, hrows]

theorem withoutBare_nil : t.withoutBare [] = t :=
  congrArg (fun nodes => { t with nodes }) (List.filter_eq_self.2 fun _ _ => rfl)

theorem isEnds_false : t.IsEnds (fun _ => false) [] [] := by
  refine fun id => iff_of_false List.not_mem_nil ?_
  rintro ⟨r, -, hgoes, -⟩
  cases hgoes

/-! ## Statements -/

/-- Removing relations alone answers with their ends. -/
theorem run_deleteRelations {p : RelationRow → Bool}
    (hp : ∀ r ∈ t.relations.rows, p r = gone r) :
    ∃ ends, deleteRelations p none t = .ok (ends, t.without gone []) ∧ t.IsEnds gone [] ends := by
  have hgone : t.relations.rows.filter p = t.relations.rows.filter gone :=
    List.filter_congr hp
  have hstay : t.relations.keep (fun r => !p r) = t.relations.keep fun r => !gone r :=
    congrArg (fun rows => { t.relations with rows := rows })
      (List.filter_congr fun r hr => congrArg Bool.not (hp r hr))
  refine ⟨(t.relations.rows.filter gone).flatMap fun r => [r.source, r.target], ?_, fun id => ?_⟩
  · rw [without_nil, ← hstay, ← hgone]
    rfl
  · simp only [List.mem_flatMap, List.mem_filter, goes_nil, RelationRow.endsAt, Bool.or_eq_true,
      beq_iff_eq, List.mem_cons, List.not_mem_nil, or_false, and_assoc, eq_comm (a := id)]

/-- Rows at which no relation ends are removed, and the statement does not fail. -/
theorem run_deleteRows {p : NodeRow → Bool}
    (hp : ∀ n ∈ t.nodes, p n = true → t.refersTo n.id = false) :
    deleteRows p none t =
      .ok ((t.nodes.filter p).length, { t with nodes := t.nodes.filter fun n => !p n }) := by
  have hfree : ((t.nodes.filter p).any fun n => t.refersTo n.id) = false := by
    rw [List.any_eq_false]
    intro n hn
    rw [hp n (List.mem_filter.1 hn).1 (List.mem_filter.1 hn).2]
    exact Bool.false_ne_true
  rw [deleteRows, Session.run_write_bind, Session.run_get_bind, if_neg (Bool.eq_false_iff.1 hfree)]
  rfl

/-! ## Parts -/

/-- **Deleting by identity** removes the nodes with all relations that end there. -/
theorem run_deleteNodes (ids : List String) (t : GraphTables) :
    ∃ ends, deleteNodes ids none t = .ok (ends, t.without (fun _ => false) ids) ∧
      t.IsEnds (fun _ => false) ids ends := by
  by_cases hids : ids.isEmpty = true
  · obtain rfl := List.isEmpty_iff.1 hids
    exact ⟨[], by rw [without_false]; rfl, isEnds_false⟩
  · obtain ⟨ends, hrun, hends⟩ := run_deleteRelations (t := t)
      (p := fun r => ids.contains r.source || ids.contains r.target) fun _ _ => rfl
    rw [without_nil] at hrun
    -- the relations at these nodes are gone already
    have hfree : ∀ n ∈ t.nodes, ids.contains n.id = true →
        ({ t with relations := t.relations.keep fun r =>
          !(ids.contains r.source || ids.contains r.target) } : GraphTables).refersTo n.id =
            false := by
      intro n _ hn
      rw [refersTo, List.any_eq_false]
      intro r hr hend
      have hstays := (List.mem_filter.1 hr).2
      rw [Bool.not_eq_true', Bool.or_eq_false_iff] at hstays
      rw [Bool.or_eq_true, beq_iff_eq, beq_iff_eq] at hend
      rcases hend with hsource | htarget
      · rw [hsource, hn] at hstays
        cases hstays.1
      · rw [htarget, hn] at hstays
        cases hstays.2
    refine ⟨ends, ?_, fun id => ?_⟩
    · rw [deleteNodes, if_neg hids, Session.run_bind hrun,
        Session.run_bind (Session.run_discard (run_deleteRows hfree))]
      simp only [without, goes_false]
      rfl
    · rw [hends id]
      simp only [goes_nil, goes_false]

/-- The identities of the nodes whose properties a selection selects. -/
def selectedIds (s : Selection) (t : GraphTables) : List String :=
  (t.nodes.filter fun n => s.selectsText n.properties).map NodeRow.id

/-- The statements of a deletion by properties can be made for so many of them. -/
theorem prepare_matching {properties : Properties} (h : properties.entries.length ≤ 998) :
    Sql.prepare (nodeConditions properties []) = .ok () :=
  prepare_nodeConditions_eq_ok.2 h

/-- With more properties they cannot be made. -/
theorem run_deleteMatching_crowded {properties : Properties}
    (h : 998 < properties.entries.length) :
    deleteMatching properties none t = .error (.storage .badStatement) := by
  have hprepare : Sql.prepare (nodeConditions properties []) = .error .badStatement :=
    Sql.prepare_eq_error fun hok => Nat.not_le.2 h (prepare_nodeConditions_eq_ok.1 hok)
  rw [deleteMatching, hprepare]
  rfl

/-- **Deleting by properties** removes the relations that have them all, and the nodes that have
them all with the relations that end there.  Nothing is removed if there are no properties to
have. -/
theorem run_deleteMatching (h : t.WellFormed dimension) {s : Selection}
    (hkeys : ∀ e ∈ s.properties.entries, IsPlainKey e.1) (hfew : ¬s.IsCrowded) :
    ∃ ends, (if s.properties.isEmpty then pure [] else deleteMatching s.properties) none t =
        .ok (ends, t.without (fun r => s.selectsText r.properties) (t.selectedIds s)) ∧
      t.IsEnds (fun r => s.selectsText r.properties) (t.selectedIds s) ends := by
  by_cases hempty : s.properties.isEmpty = true
  · have hnone : ∀ text, s.selectsText text = false := by
      intro text
      rw [Selection.selectsText, hempty]
      rfl
    have hids : t.selectedIds s = [] := by
      simp only [selectedIds, hnone, List.filter_false, List.map_nil]
    rw [if_pos hempty, hids]
    simp only [hnone]
    exact ⟨[], by rw [without_false]; rfl, isEnds_false⟩
  · have hselects : ∀ text, s.selectsText text = s.properties.selectsText text := by
      intro text
      rw [Selection.selectsText, Bool.eq_false_iff.2 hempty]
      rfl
    have hrelations : filterOk (fun r : RelationRow =>
        matchesAll r.properties s.properties.entries) t.relations.rows =
        .ok (t.relations.rows.filter fun r => s.selectsText r.properties) :=
      filterOk_eq_ok fun r hr => by
        rw [hselects, Properties.matchesAll_eq_ok hkeys (h.properties r hr)]
    have hnodes : filterOk (fun n : NodeRow => matchesAll n.properties s.properties.entries)
        t.nodes = .ok (t.nodes.filter fun n => s.selectsText n.properties) :=
      filterOk_eq_ok fun n hn => by
        rw [hselects, Properties.matchesAll_eq_ok hkeys (h.nodes n hn).properties]
    -- relations are told apart by their numbers, so removing by number removes what was selected
    have hnumbers : ∀ r ∈ t.relations.rows,
        ((t.relations.rows.filter fun r => s.selectsText r.properties).map (·.id)).contains r.id =
          s.selectsText r.properties := by
      intro r hr
      rw [Bool.eq_iff_iff, List.contains_iff_mem, List.mem_map]
      constructor
      · rintro ⟨r', hr', hid⟩
        rw [List.mem_filter] at hr'
        rw [← h.relations.eq_of_number_eq hr'.1 hr hid]
        exact hr'.2
      · exact fun hr' => ⟨r, List.mem_filter.2 ⟨hr, hr'⟩, rfl⟩
    obtain ⟨ends₁, hrun₁, hends₁⟩ := run_deleteRelations hnumbers
    obtain ⟨ends₂, hrun₂, hends₂⟩ := run_deleteNodes (t.selectedIds s)
      (t.without (fun r => s.selectsText r.properties) [])
    have hends := hends₁.append hends₂
    rw [without_without] at hrun₂
    simp only [Bool.or_false, List.nil_append] at hends hrun₂
    refine ⟨ends₁ ++ ends₂, ?_, hends⟩
    rw [if_neg hempty, deleteMatching, prepare_matching (Nat.not_lt.1 hfew), Session.run_ofRead_ok_bind,
      Session.run_get_bind, hrelations, Session.run_ofRead_ok_bind, Session.run_bind hrun₁, hnodes,
      Session.run_ofRead_ok_bind]
    exact Session.run_bind hrun₂

/-- Deleting by properties is a removal whenever it succeeds. -/
theorem exists_removal_of_matching {properties : Properties} {t' : GraphTables}
    (h : (if properties.isEmpty then pure [] else deleteMatching properties) none t =
      .ok (ends, t')) :
    ∃ gone ids, t.IsEnds gone ids ends ∧ t' = t.without gone ids := by
  split_ifs at h with hempty
  · cases h
    exact ⟨fun _ => false, [], isEnds_false, without_false.symm⟩
  · rw [deleteMatching] at h
    obtain ⟨_, t₀, hprepare, hmatching⟩ := Session.exists_of_run_bind h
    obtain rfl := (Session.eq_of_run_ofRead hprepare).symm
    rw [Session.run_get_bind] at hmatching
    obtain ⟨rows, t₁, hrows, h⟩ := Session.exists_of_run_bind hmatching
    obtain ⟨ends₁, hrun₁, hends₁⟩ := run_deleteRelations (t := t)
      (p := fun r => (rows.map (·.id)).contains r.id) fun _ _ => rfl
    obtain rfl := Session.eq_of_run_ofRead hrows
    rw [Session.run_bind hrun₁] at h
    obtain ⟨nodes, t₂, hnodes, h⟩ := Session.exists_of_run_bind h
    obtain rfl := Session.eq_of_run_ofRead hnodes
    obtain ⟨ends₂, hrun₂, hends₂⟩ := run_deleteNodes (nodes.map (·.id))
      (t₁.without (fun r => (rows.map (·.id)).contains r.id) [])
    rw [Session.run_bind hrun₂, without_without] at h
    cases h
    exact ⟨_, _, hends₁.append hends₂, rfl⟩

/-- The texts of which deleting by properties asks whether they have some properties, in order. -/
def texts (t : GraphTables) : List String :=
  t.relations.rows.map RelationRow.properties ++ t.nodes.map NodeRow.properties

/-- Deleting by properties fails if they cannot be looked for in one of the texts. -/
theorem run_deleteMatching_fails {properties : Properties} {f : StorageFault}
    (h : t.texts.findSome? properties.fault? = some f) :
    deleteMatching properties none t = .error (.storage f) := by
  rw [texts, List.findSome?_append, List.findSome?_map, List.findSome?_map,
    Option.or_eq_some_iff] at h
  rw [deleteMatching]
  obtain hprepare | hprepare := Sql.prepare_cases (nodeConditions properties [])
  case inr =>
    obtain rfl : f = .badStatement := by
      obtain hrelations | ⟨-, hnodes⟩ := h
      · obtain ⟨r, -, hr⟩ := List.exists_of_findSome?_eq_some hrelations
        exact properties.eq_badStatement_of_fault? hr
      · obtain ⟨n, -, hn⟩ := List.exists_of_findSome?_eq_some hnodes
        exact properties.eq_badStatement_of_fault? hn
    rw [hprepare]
    rfl
  rw [hprepare, Session.run_ofRead_ok_bind, Session.run_get_bind]
  obtain hrelations | ⟨hrelations, hnodes⟩ := h
  · rw [filterOk_eq_error hrelations]
    rfl
  · obtain ⟨rows, hrows⟩ := exists_filterOk_eq_ok hrelations
    obtain ⟨ends, hrun, -⟩ := run_deleteRelations (t := t)
      (p := fun r => (rows.map (·.id)).contains r.id) fun _ _ => rfl
    rw [hrows, Session.run_ofRead_ok_bind, Session.run_bind hrun, filterOk_eq_error hnodes]
    rfl

/-- Deleting by labels. -/
theorem run_deleteLabels (labels : List String) (t : GraphTables) :
    ∃ ends, (if labels.isEmpty then pure [] else deleteRelations fun r => labels.contains r.label)
        none t = .ok (ends, t.without (fun r => labels.contains r.label) []) ∧
      t.IsEnds (fun r => labels.contains r.label) [] ends := by
  by_cases hlabels : labels.isEmpty = true
  · obtain rfl := List.isEmpty_iff.1 hlabels
    refine ⟨[], ?_, isEnds_false⟩
    show Except.ok ([], t) = Except.ok ([], t.without (fun _ => false) [])
    rw [without_false]
  · rw [if_neg hlabels]
    exact run_deleteRelations fun _ _ => rfl

/-- **Removing bare rows** takes those at which no relation is left. -/
theorem run_removeBare (ids : List String) (t : GraphTables) :
    ∃ count, removeBare ids none t = .ok (count, t.withoutBare ids) := by
  rw [removeBare]
  split_ifs with hids
  · obtain rfl := List.isEmpty_iff.1 hids
    exact ⟨0, by rw [withoutBare_nil]; rfl⟩
  · refine ⟨_, run_deleteRows fun n _ hn => ?_⟩
    rw [Bool.and_eq_true, Bool.not_eq_true'] at hn
    exact hn.2

/-! ## A deletion -/

/-- A node is selected by a list of names if it has one of them. -/
theorem mem_idsOfNames (hids : t.ids.Nodup) {n : NodeRow} (hn : n ∈ t.nodes)
    {names : List String} :
    n.id ∈ t.idsOfNames names ↔ ∃ name, n.name = some name ∧ name ∈ names := by
  rw [idsOfNames, List.mem_map]
  constructor
  · rintro ⟨n', hn', hid⟩
    rw [List.mem_filter] at hn'
    obtain rfl : n' = n := List.inj_on_of_nodup_map hids hn'.1 hn hid
    cases hsome : n'.name with
    | none =>
      rw [hsome] at hn'
      cases hn'.2
    | some name =>
      rw [hsome] at hn'
      exact ⟨name, rfl, List.contains_iff_mem.1 hn'.2⟩
  · rintro ⟨name, hsome, hname⟩
    refine ⟨n, List.mem_filter.2 ⟨hn, ?_⟩, rfl⟩
    rw [hsome]
    exact List.contains_iff_mem.2 hname

/-- The identities of the nodes that a deletion removes for what they are. -/
def doomedIds (s : Selection) (t : GraphTables) : List String :=
  t.idsOfNames s.entityNames ++ s.ids ++
    (t.without (fun r => s.relationNames.contains r.label)
      (t.idsOfNames s.entityNames ++ s.ids)).selectedIds s

/-- The relations that a deletion removes for what they are. -/
def isDoomed (s : Selection) (r : RelationRow) : Bool :=
  s.relationNames.contains r.label || s.selectsText r.properties

/-- What a deletion leaves before it looks at bare rows. -/
def remnant (s : Selection) (t : GraphTables) : GraphTables :=
  t.without (isDoomed s) (t.doomedIds s)

/-- What a deletion leaves before it looks at properties. -/
def unnamed (s : Selection) (t : GraphTables) : GraphTables :=
  t.without (fun r => s.relationNames.contains r.label) (t.idsOfNames s.entityNames ++ s.ids)

/-- **A deletion up to the properties** removes what is given by name, by identity and by label.
Properties and bare rows are left. -/
theorem run_delete_unnamed {s : Selection} (hs : s.isEmpty = false) (t : GraphTables) :
    ∃ ends, t.IsEnds (fun r => s.relationNames.contains r.label)
        (t.idsOfNames s.entityNames ++ s.ids) ends ∧
      delete s none t =
        ((if s.properties.isEmpty then pure [] else deleteMatching s.properties) >>=
          fun byProperty => discard (removeBare (ends ++ byProperty))) none (t.unnamed s) := by
  obtain ⟨byName, hrun₁, hends₁⟩ := run_deleteNodes (t.idsOfNames s.entityNames) t
  obtain ⟨byId, hrun₂, hends₂⟩ := run_deleteNodes s.ids
    (t.without (fun _ => false) (t.idsOfNames s.entityNames))
  rw [without_without] at hrun₂
  replace hends₂ := hends₁.append hends₂
  obtain ⟨byLabel, hrun₃, hends₃⟩ := run_deleteLabels s.relationNames
    (t.without (fun _ => false) (t.idsOfNames s.entityNames ++ s.ids))
  simp only [Bool.or_false] at hrun₂ hends₂
  rw [without_without] at hrun₃
  replace hends₃ := hends₂.append hends₃
  simp only [Bool.false_or, List.append_nil] at hrun₃ hends₃
  refine ⟨byName ++ byId ++ byLabel, hends₃, ?_⟩
  have hgo : (!s.isEmpty) = true := by rw [hs]; rfl
  rw [delete, if_pos hgo, Session.run_get_bind, Session.run_bind hrun₁, Session.run_bind hrun₂]
  refine (Session.run_ite_bind hrun₃).trans ?_
  split_ifs <;> rfl

/-- **What a deletion does**: it removes what the selection dooms, and then those ends of the
removed relations that are bare and that no relation is left at. -/
theorem run_delete (h : t.WellFormed dimension) {s : Selection} (hs : s.isEmpty = false)
    (hkeys : ∀ e ∈ s.properties.entries, IsPlainKey e.1) (hfew : ¬s.IsCrowded) :
    ∃ ends, t.IsEnds (isDoomed s) (t.doomedIds s) ends ∧
      delete s none t = .ok ((), (t.remnant s).withoutBare ends) := by
  obtain ⟨byName, hends, hrun⟩ := run_delete_unnamed hs t
  obtain ⟨byProperty, hrun₁, hends₁⟩ := run_deleteMatching
    (h.without (fun r => s.relationNames.contains r.label)
      (t.idsOfNames s.entityNames ++ s.ids)) hkeys hfew
  rw [without_without] at hrun₁
  obtain ⟨count, hrun₂⟩ := run_removeBare (byName ++ byProperty) (t.remnant s)
  refine ⟨byName ++ byProperty, hends.append hends₁, ?_⟩
  rw [hrun, unnamed, Session.run_bind hrun₁]
  exact Session.run_discard hrun₂

/-- **A deletion that succeeds** is one removal, followed by that of the bare rows at which it has
left no relation. -/
theorem exists_removal {s : Selection} {t' : GraphTables} (h : delete s none t = .ok ((), t')) :
    ∃ gone ids ends, t.IsEnds gone ids ends ∧ t' = (t.without gone ids).withoutBare ends := by
  by_cases hs : s.isEmpty = true
  · have hgo : (!s.isEmpty) ≠ true := by rw [hs]; exact Bool.false_ne_true
    rw [delete, if_neg hgo] at h
    cases h
    refine ⟨fun _ => false, [], [], isEnds_false, ?_⟩
    rw [without_false, withoutBare_nil]
  · obtain ⟨ends, hends, hrun⟩ := run_delete_unnamed (Bool.eq_false_iff.2 hs) t
    rw [hrun] at h
    obtain ⟨byProperty, t₁, hmatching, hlast⟩ := Session.exists_of_run_bind h
    obtain ⟨gone, ids, hends₁, rfl⟩ := exists_removal_of_matching hmatching
    obtain ⟨count, hbare⟩ := run_removeBare (ends ++ byProperty) ((t.unnamed s).without gone ids)
    rw [Session.run_discard hbare] at hlast
    obtain ⟨-, rfl⟩ := Prod.mk.inj (Except.ok.inj hlast)
    refine ⟨_, _, _, hends.append hends₁, ?_⟩
    rw [unnamed, without_without]

/-- **A deletion of very many properties fails**, whatever else it should delete. -/
theorem run_delete_crowded {s : Selection} (hs : s.IsCrowded) (t : GraphTables) :
    delete s none t = .error (.storage .badStatement) := by
  obtain ⟨ends, -, hrun⟩ := run_delete_unnamed hs.isEmpty_eq_false t
  rw [hrun, if_neg (Bool.eq_false_iff.1 hs.properties_isEmpty)]
  exact Session.run_bind_error (run_deleteMatching_crowded hs)

/-- **A deletion fails** with the fault of the first text that its properties cannot be looked for
in, although names, identities and labels have been dealt with by then. -/
theorem run_delete_fails {s : Selection} (hs : s.properties.isEmpty = false) {f : StorageFault}
    (h : (t.unnamed s).texts.findSome? s.properties.fault? = some f) :
    delete s none t = .error (.storage f) := by
  obtain ⟨ends, -, hrun⟩ :=
    run_delete_unnamed (Selection.isEmpty_eq_false_of_properties hs) t
  rw [hrun, if_neg (Bool.eq_false_iff.1 hs)]
  exact Session.run_bind_error (run_deleteMatching_fails h)

/-! ## Under a refusal -/

open Session (Restrained)

theorem restrained_deleteNodes (ids : List String) : Restrained (deleteNodes ids) := by
  rw [deleteNodes]
  exact .ite (.pure _) (.bind (.write_bind _) fun _ =>
    .bind (.discard (.write_bind _)) fun _ => .pure _)

theorem restrained_deleteMatching (properties : Properties) :
    Restrained (deleteMatching properties) := by
  rw [deleteMatching]
  exact .bind (.ofRead _) fun _ => .get_bind fun t => .bind (.ofRead _) fun rows =>
    .bind (.write_bind _) fun ends => .bind (.ofRead _) fun nodes =>
    .bind (restrained_deleteNodes _) fun _ => .pure _

theorem restrained_removeBare (ids : List String) : Restrained (removeBare ids) := by
  rw [removeBare]
  exact .ite (.pure _) (.get_bind fun t => .write_bind _)

theorem restrained_delete (s : Selection) : Restrained (delete s) := by
  rw [delete]
  refine .ite (.get_bind fun t => ?_) (.pure _)
  refine .bind (restrained_deleteNodes _) fun byName =>
    .bind (restrained_deleteNodes _) fun byId => ?_
  have hlast : ∀ ids, Restrained (Functor.discard (removeBare ids)) :=
    fun ids => .discard (restrained_removeBare ids)
  refine .ite (.bind (.pure _) fun byLabel => ?_) (.bind (.write_bind _) fun byLabel => ?_)
  all_goals
    exact .ite (.bind (.pure _) fun byProperty => hlast _)
      (.bind (restrained_deleteMatching _) fun byProperty => hlast _)

end GraphTables

end GraphBase
