import GraphBase.Proofs.Triplets.Operations

/-!
# The sessions of a triplet store

On well-formed tables that may be written to, no operation of the store fails, and each does to
the fact base what `FactBase` says: `run_upsert` for adding a fact, `run_removeFact` and
`run_removeUnreferenced` for the two sessions of deleting one, `run_getOrCreateEntity` for adding
a name.

Reading does not even need a database that may be written to.  `relations_eq`, `stats_eq` and
`isSome_entity?` say what is read.
-/

namespace GraphBase

namespace TripletTables

variable {t t' : TripletTables} {b : FactBase}

/-! ## Entities -/

theorem entity?_eq_none {name : String} : t.entity? name = none ↔ name ∉ t.names :=
  find?_key_eq_none

/-- An entity is found under a name exactly if the name is there. -/
theorem isSome_entity? {name : String} : (t.entity? name).isSome = true ↔ name ∈ t.names :=
  isSome_find?_key

/-- What finding or making an entity leads to. -/
structure HasMade (t : TripletTables) (name : String) (row : EntityRow) (t' : TripletTables) :
    Prop where
  follows : Follows t t'
  mem : row ∈ t'.entities.rows
  name_eq : row.name = name
  kept : ∀ e ∈ t.entities.rows, e ∈ t'.entities.rows
  relationships : t'.relationships = t.relationships
  facts : t'.facts = t.facts
  names : t'.names.toFinset = insert name t.names.toFinset

/-- **Finding or making an entity** never fails, and says whether it was made. -/
theorem run_getOrCreateEntity (h : t.WellFormed) (now name : String) :
    ∃ row t', getOrCreateEntity now name none t = .ok ((row, decide (name ∉ t.names)), t') ∧
      t.HasMade name row t' := by
  rw [getOrCreateEntity, Session.run_get_bind]
  cases hfind : t.entity? name with
  | some row =>
    obtain ⟨hrow, hname⟩ := h.entity?_eq_some.1 hfind
    have hmem : name ∈ t.names := hname ▸ List.mem_map_of_mem hrow
    refine ⟨row, t, ?_, .refl h, hrow, hname, fun _ he => he, rfl, rfl, ?_⟩
    · rw [decide_eq_false (not_not.2 hmem)]
      rfl
    · rw [Finset.insert_eq_of_mem (List.mem_toFinset.2 hmem)]
  | none =>
    have hmem : name ∉ t.names := entity?_eq_none.1 hfind
    refine ⟨⟨t.entities.nextId, name, now, now⟩, t.addEntity now name, ?_,
      follows_addEntity h hmem, ?_, rfl, ?_, rfl, facts_addEntity h now name, ?_⟩
    · have hinsert : insertEntity now name none t =
          .ok (⟨t.entities.nextId, name, now, now⟩, t.addEntity now name) := by
        rw [insertEntity, Session.run_write_bind, Session.run_get_bind, hfind]
        rfl
      rw [decide_eq_true hmem]
      exact Session.run_bind hinsert
    · exact List.mem_append_right _ (List.mem_singleton_self _)
    · exact fun e he => List.mem_append_left _ he
    · rw [names_addEntity, List.toFinset_append, Finset.union_comm]
      rfl

/-! ## Facts -/

/-- **Adding a fact** never fails. -/
theorem run_upsert (h : t.WellFormed) (hb : t.Represents b) (now : String) (fact : Fact) :
    ∃ t', upsert now fact none t = .ok ((), t') ∧ Follows t t' ∧
      t'.Represents (b.upsert fact) := by
  obtain ⟨s, t₁, hrun₁, hs⟩ := run_getOrCreateEntity h now fact.subject
  obtain ⟨o, t₂, hrun₂, ho⟩ := run_getOrCreateEntity hs.follows.wellFormed now fact.object
  have h₂ := ho.follows.wellFormed
  have hfacts : t₂.facts = b.facts := ho.facts.trans (hs.facts.trans hb.facts)
  have hnames : t₂.names.toFinset = (b.upsert fact).names := by
    rw [ho.names, hs.names, hb.names, FactBase.upsert, Finset.insert_comm]
  have hsmem := ho.kept s hs.mem
  have hthere : (t₂.relationship? (.text fact.relation) s.id o.id).isSome = true ↔ _ :=
    h₂.isSome_relationship?_iff hsmem ho.mem
  rw [hs.name_eq, ho.name_eq, hfacts] at hthere
  cases hfind : t₂.relationship? (.text fact.relation) s.id o.id with
  | some r =>
    rw [hfind] at hthere
    refine ⟨t₂, ?_, hs.follows.trans ho.follows, ⟨?_, hnames⟩⟩
    · refine (Session.run_bind hrun₁).trans ((Session.run_bind hrun₂).trans ?_)
      simp only [Session.run_get_bind, hfind]
      rfl
    · rw [hfacts, FactBase.facts_upsert_of_mem (hthere.1 rfl)]
  | none =>
    rw [hfind] at hthere
    have hentity : ∀ e ∈ t₂.entities.rows, t₂.acceptsEnd e.id = true := by
      intro e he
      rw [acceptsEnd, h₂.ends_own]
      exact List.any_eq_true.2 ⟨e, he, beq_self_eq_true _⟩
    have hinsert : insertRelationship now (.text fact.relation) s.id o.id none t₂ =
        .ok (⟨t₂.relationships.nextId, .text fact.relation, s.id, o.id, now, now⟩,
          t₂.addRelationship now (.text fact.relation) s.id o.id) := by
      rw [insertRelationship, Session.run_write_bind, Session.run_get_bind, hfind,
        hentity s hsmem, hentity o ho.mem]
      rfl
    have hfollows : Follows t₂ (t₂.addRelationship now (.text fact.relation) s.id o.id) :=
      follows_addRelationship h₂ hsmem ho.mem hfind
    refine ⟨_, ?_, (hs.follows.trans ho.follows).trans hfollows, ?_, hnames⟩
    · refine (Session.run_bind hrun₁).trans ((Session.run_bind hrun₂).trans ?_)
      simp only [Session.run_get_bind, hfind]
      exact Session.run_discard hinsert
    · have hnew : fact ∉ b.facts := fun hmem => Bool.false_ne_true (hthere.2 hmem)
      rw [facts_addRelationship h₂ hsmem ho.mem, hfacts, FactBase.facts_upsert_of_notMem hnew,
        hs.name_eq, ho.name_eq]

/-- The condition by which a fact is removed picks out its row. -/
theorem isFact_iff (h : t.WellFormed) {r : RelationshipRow} (hr : r ∈ t.relationships.rows)
    (fact : Fact) :
    (r.description == .text fact.relation && (t.idsOf [fact.subject]).contains r.subject &&
        (t.idsOf [fact.object]).contains r.object) = true ↔ t.fact? r = some fact := by
  obtain ⟨s, hs, o, ho, d, hsid, hoid, hd, hfact⟩ := h.fact?_of_mem hr
  rw [hfact, hd, ← hsid, ← hoid]
  simp only [Bool.and_eq_true, beq_iff_eq, Cell.text.injEq, List.contains_iff_mem,
    h.mem_idsOf hs, h.mem_idsOf ho, List.mem_singleton, Option.some_inj]
  constructor
  · rintro ⟨⟨rfl, hsubject⟩, hobject⟩
    rw [hsubject, hobject]
  · rintro rfl
    exact ⟨⟨rfl, rfl⟩, rfl⟩

/-- **The first session of deleting a fact** removes its row, and nothing at all if there is
none. -/
theorem run_removeFact (h : t.WellFormed) (fact : Fact) :
    ∃ n t', removeFact fact none t = .ok (n, t') ∧ (n = 0 ↔ fact ∉ t.facts) ∧
      (fact ∉ t.facts → t' = t) ∧ Follows t t' ∧ t'.entities = t.entities ∧
      t'.facts = t.facts.erase fact := by
  let p (r : RelationshipRow) : Bool :=
    r.description == .text fact.relation && (t.idsOf [fact.subject]).contains r.subject &&
      (t.idsOf [fact.object]).contains r.object
  have hp : ∀ r ∈ t.relationships.rows, p r = true ↔ t.fact? r = some fact :=
    fun r hr => isFact_iff h hr fact
  have hnone : fact ∉ t.facts ↔ ∀ r ∈ t.relationships.rows, ¬p r = true := by
    rw [facts, List.mem_filterMap, not_exists]
    refine forall_congr' fun r => ?_
    rw [not_and]
    exact forall_congr' fun hr => not_congr (hp r hr).symm
  refine ⟨(t.relationships.rows.filter p).length, t.dropRelationships p, rfl, ?_, ?_,
    follows_dropRelationships h p, rfl, facts_dropRelationships h hp⟩
  · rw [hnone, List.length_eq_zero_iff, List.filter_eq_nil_iff]
  · intro hfact
    have hall : (t.relationships.rows.filter fun r => !p r) = t.relationships.rows := by
      refine List.filter_eq_self.2 fun r hr => ?_
      rw [Bool.not_eq_true', ← Bool.not_eq_true]
      exact hnone.1 hfact r hr
    rw [dropRelationships, Table.keep, hall]

/-! ## What nothing refers to -/

/-- An entity to which nothing refers may be deleted. -/
theorem run_deleteEntities (h : t.WellFormed) {p : EntityRow → Bool}
    (hp : ∀ e ∈ t.entities.rows, p e = true → t.refersTo e.id = false) :
    deleteEntities p none t = .ok ((t.entities.rows.filter p).length, t.dropEntities p) := by
  have hpinned : ((t.entities.rows.filter p).any fun e => t.isPinned e.id) = false := by
    rw [List.any_eq_false]
    intro e he
    obtain ⟨hmem, hpe⟩ := List.mem_filter.1 he
    rw [isPinned, hp e hmem hpe, h.unpinned]
    simp
  rw [deleteEntities, Session.run_write_bind, Session.run_get_bind]
  simp only [hpinned]
  rfl

/-- Whether an entity has one of some names and no fact begins or ends there. -/
def isLoose (names : List String) (facts : List Fact) (e : EntityRow) : Bool :=
  names.contains e.name && !facts.any fun f => f.hasEnd e.name

theorem refersTo_of_isLoose (h : t.WellFormed) (names : List String) :
    ∀ e ∈ t.entities.rows, isLoose names t.facts e = true → t.refersTo e.id = false := by
  intro e he hloose
  rw [isLoose, Bool.and_eq_true, Bool.not_eq_true', List.any_eq_false] at hloose
  rw [← Bool.not_eq_true, h.refersTo_iff he]
  rintro ⟨f, hf, hend⟩
  exact hloose.2 f hf hend

theorem isReferenced_iff (h : t.WellFormed) {e : EntityRow} (he : e ∈ t.entities.rows) :
    t.isReferenced e.name = true ↔ t.refersTo e.id = true := by
  rw [isReferenced, List.any_eq_true]
  constructor
  · rintro ⟨id, hid, hrefers⟩
    obtain ⟨e', he', rfl⟩ := List.mem_map.1 hid
    obtain ⟨hmem, hname⟩ := List.mem_filter.1 he'
    rw [List.contains_iff_mem, List.mem_singleton] at hname
    rwa [h.eq_of_name_eq he hmem hname.symm]
  · exact fun hrefers => ⟨e.id, (h.mem_idsOf he).2 (List.mem_singleton_self _), hrefers⟩

/-- Looking at one name deletes its entity if that is loose. -/
theorem run_removeUnreferenced_cons (h : t.WellFormed) (name : String) (rest : List String) :
    removeUnreferenced (name :: rest) none t =
      removeUnreferenced rest none (t.dropEntities (isLoose [name] t.facts)) := by
  have hloose : ∀ e ∈ t.entities.rows, e.name = name →
      isLoose [name] t.facts e = !t.refersTo e.id := by
    intro e he hname
    have hrefers : (t.facts.any fun f => f.hasEnd e.name) = t.refersTo e.id := by
      rw [Bool.eq_iff_iff, List.any_eq_true, h.refersTo_iff he]
    rw [isLoose, hrefers, hname]
    simp
  have hother : ∀ e : EntityRow, e.name ≠ name → isLoose [name] t.facts e = false := by
    intro e hname
    rw [isLoose]
    simp [hname]
  rw [removeUnreferenced, Session.run_get_bind]
  cases href : t.isReferenced name with
  | true =>
    have hnone : ∀ e ∈ t.entities.rows, isLoose [name] t.facts e = false := by
      intro e he
      by_cases hname : e.name = name
      · rw [hloose e he hname, (isReferenced_iff h he).1 (hname ▸ href)]
        rfl
      · exact hother e hname
    rw [dropEntities_eq_self hnone]
    rfl
  | false =>
    have hsame : ∀ e ∈ t.entities.rows, (e.name == name) = isLoose [name] t.facts e := by
      intro e he
      by_cases hname : e.name = name
      · have hfree : ¬t.refersTo e.id = true := by
          rw [← isReferenced_iff h he, hname, href]
          exact Bool.false_ne_true
        rw [hloose e he hname, Bool.eq_false_iff.2 hfree, hname, beq_self_eq_true]
        rfl
      · rw [hother e hname]
        exact beq_eq_false_iff_ne.2 hname
    have hdelete := run_deleteEntities h (p := fun e => e.name == name) fun e he hname =>
      refersTo_of_isLoose h [name] e he (hsame e he ▸ hname)
    rw [dropEntities_congr hsame] at hdelete
    exact Session.run_bind (Session.run_discard hdelete)

/-- **The second session of deleting a fact** removes the entities of some names that are
loose. -/
theorem run_removeUnreferenced (h : t.WellFormed) (names : List String) :
    removeUnreferenced names none t = .ok ((), t.dropEntities (isLoose names t.facts)) := by
  induction names generalizing t with
  | nil =>
    have hnone : ∀ e ∈ t.entities.rows, isLoose [] t.facts e = false := fun e _ => rfl
    rw [dropEntities_eq_self hnone]
    rfl
  | cons name rest ih =>
    have hp := refersTo_of_isLoose h [name]
    rw [run_removeUnreferenced_cons h, ih (follows_dropEntities h hp).wellFormed,
      facts_dropEntities h hp, dropEntities_dropEntities]
    have hboth : (fun e => isLoose [name] t.facts e || isLoose rest t.facts e) =
        isLoose (name :: rest) t.facts := by
      funext e
      rw [isLoose, isLoose, isLoose, ← Bool.and_or_distrib_right]
      simp
    rw [hboth]

theorem not_isLoose_iff {fact : Fact} {facts : List Fact} {e : EntityRow} :
    isLoose [fact.subject, fact.object] facts e = false ↔
      (fact.hasEnd e.name = true → ∃ f ∈ facts, f.hasEnd e.name = true) := by
  have hend : [fact.subject, fact.object].contains e.name = fact.hasEnd e.name := by
    rw [List.contains_cons, List.contains_cons, List.contains_nil, Bool.or_false, Fact.hasEnd,
      BEq.comm, BEq.comm (a := e.name)]
  rw [isLoose, hend, ← List.any_eq_true]
  cases fact.hasEnd e.name <;> simp

/-- **Deleting a fact that is there**, both sessions of it. -/
theorem run_delete (h : t.WellFormed) (hb : t.Represents b) {fact : Fact} (hfact : fact ∈ b.facts) :
    ∃ n t₁ t₂, removeFact fact none t = .ok (n, t₁) ∧ n ≠ 0 ∧
      removeUnreferenced [fact.subject, fact.object] none t₁ = .ok ((), t₂) ∧
      Follows t t₁ ∧ Follows t₁ t₂ ∧ t₂.Represents (b.delete fact) ∧
      ∀ e ∈ t₂.entities.rows, e ∈ t.entities.rows := by
  obtain ⟨n, t₁, hremove, hn, -, hfollows, hentities, hfacts⟩ := run_removeFact h fact
  have h₁ := hfollows.wellFormed
  have hp := refersTo_of_isLoose h₁ [fact.subject, fact.object]
  refine ⟨n, t₁, _, hremove, ?_, run_removeUnreferenced h₁ _, hfollows, follows_dropEntities h₁ hp,
    ⟨?_, ?_⟩, fun e he => hentities ▸ List.mem_of_mem_filter he⟩
  · rw [Ne, hn, hb.facts, not_not]
    exact hfact
  · rw [facts_dropEntities h₁ hp, hfacts, hb.facts, FactBase.facts_delete]
  · rw [FactBase.delete, if_pos hfact]
    ext name
    rw [FactBase.mem_names_remove, ← hb.names, ← hb.facts, ← hfacts, List.mem_toFinset,
      List.mem_toFinset, names, names, ← hentities]
    simp only [dropEntities, Table.rows_keep, List.mem_map, List.mem_filter, Bool.not_eq_true']
    constructor
    · rintro ⟨e, ⟨he, hstays⟩, rfl⟩
      exact ⟨⟨e, he, rfl⟩, not_isLoose_iff.1 hstays⟩
    · rintro ⟨⟨e, he, rfl⟩, hstays⟩
      exact ⟨e, ⟨he, not_isLoose_iff.2 hstays⟩, rfl⟩

/-! ## Reading -/

/-- **The relations of a subject** are those of the fact base. -/
theorem relations_eq (h : t.WellFormed) (hb : t.Represents b) (subject : String) :
    t.relations subject = .ok (b.relations subject) := by
  have hread : ∀ r ∈ t.relationships.rows, ∃ x y,
      ((t.entityById? r.object).map fun o => (r, o)) = some x ∧
        (x.1.readDescription.map fun d => (d, x.2.name)) = Except.ok y ∧
        ((t.fact? r).map fun f => (f.relation, f.object)) = some y := by
    intro r hr
    obtain ⟨s, -, o, ho, d, -, hoid, hd, hfact⟩ := h.fact?_of_mem hr
    refine ⟨(r, o), (d, o.name), ?_, ?_, ?_⟩
    · rw [h.entityById?_eq_some.2 ⟨ho, hoid⟩, Option.map_some]
    · rw [RelationshipRow.readDescription, hd]
      rfl
    · rw [hfact, Option.map_some]
  have hsubject : ∀ r ∈ t.relationships.rows, ∀ f, t.fact? r = some f →
      (t.idsOf [subject]).contains r.subject = (f.subject == subject) := by
    intro r hr f hf
    obtain ⟨s, hs, o, -, d, hsid, -, -, hfact⟩ := h.fact?_of_mem hr
    rw [hfact] at hf
    rw [← Option.some.inj hf, Bool.eq_iff_iff, List.contains_iff_mem, ← hsid, h.mem_idsOf hs,
      List.mem_singleton, beq_iff_eq]
  rw [relations, mapM_filterMap_eq_ok fun r hr => hread r (List.mem_of_mem_filter hr),
    FactBase.relations, ← hb.facts, facts, List.filter_filterMap, List.map_filterMap,
    List.filterMap_filter]
  refine congrArg Except.ok (List.filterMap_congr fun r hr => ?_)
  obtain ⟨f, hf⟩ := Option.isSome_iff_exists.1 (h.isSome_fact? hr)
  rw [hsubject r hr f hf, hf, Option.filter_some]
  split_ifs <;> rfl

/-- **The counts** are those of the fact base. -/
theorem stats_eq (h : t.WellFormed) (hb : t.Represents b) : t.stats = b.stats := by
  have hnames : b.names.card = t.entities.rows.length := by
    rw [← hb.names, List.toFinset_card_of_nodup h.names_nodup, names, List.length_map]
  rw [stats, FactBase.stats, hnames, ← hb.facts, h.length_facts]

end TripletTables

end GraphBase
