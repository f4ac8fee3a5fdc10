import GraphBase.Proofs.Storage.Numbered
import GraphBase.Proofs.Triplets.FactBase

/-!
# The fact base in the tables

Two tables of rows stand for a fact base (`TripletTables.Represents`): the facts are read off the
relationship rows, in their order, and the names off the entity rows.

## Well-formed tables

This makes sense for tables that follow the rules (`TripletTables.WellFormed`): numbers go up, no
two entities have the same name, no two relationships agree in description and ends, every end
exists, every description is a text, and nobody outside has a say.  In such tables every
relationship row reads as a fact (`fact?_of_mem`), different rows as different ones
(`facts_nodup`), and both ends of every fact are among the names.

Reading a row asks for two entities and nothing else, so whatever leaves the entities of a row
alone leaves its fact alone (`facts_congr`).
-/

namespace GraphBase

/-- What tells relationships apart. -/
def RelationshipRow.key (r : RelationshipRow) : Cell × Nat × Nat :=
  (r.description, r.subject, r.object)

namespace TripletTables

/-! ## Reading -/

/-- The fact that a relationship row stands for. -/
def fact? (t : TripletTables) (r : RelationshipRow) : Option Fact :=
  (t.linked? r).bind fun l => l.fact.toOption

/-- The facts, in the order of their rows. -/
def facts (t : TripletTables) : List Fact := t.relationships.rows.filterMap t.fact?

/-- The names of the entities. -/
def names (t : TripletTables) : List String := t.entities.rows.map (·.name)

/-- The tables stand for a fact base. -/
structure Represents (t : TripletTables) (b : FactBase) : Prop where
  facts : t.facts = b.facts
  names : t.names.toFinset = b.names

/-- The tables follow their rules, and nobody outside has a say. -/
structure WellFormed (t : TripletTables) : Prop where
  entities : t.entities.Numbered EntityRow.id
  relationships : t.relationships.Numbered RelationshipRow.id
  names_nodup : t.names.Nodup
  keys_nodup : (t.relationships.rows.map RelationshipRow.key).Nodup
  ends : ∀ r ∈ t.relationships.rows, t.hasEntity r.subject = true ∧ t.hasEntity r.object = true
  texts : ∀ r ∈ t.relationships.rows, ∃ d, r.description = .text d
  ends_own : t.surroundings.ends = none
  unpinned : t.surroundings.pinned = []

variable {t t' : TripletTables} {r : RelationshipRow} {f : Fact}

theorem fact?_eq_some :
    t.fact? r = some f ↔
      ∃ s o d, t.entityById? r.subject = some s ∧ t.entityById? r.object = some o ∧
        r.description = .text d ∧ f = ⟨s.name, d, o.name⟩ := by
  rw [fact?, linked?]
  constructor
  · intro h
    cases hs : t.entityById? r.subject with
    | none =>
      rw [hs] at h
      cases h
    | some s =>
      cases ho : t.entityById? r.object with
      | none =>
        rw [hs, ho] at h
        cases h
      | some o =>
        rw [hs, ho] at h
        simp only [Option.bind_some, Linked.fact, RelationshipRow.readDescription] at h
        cases hd : r.description with
        | text d =>
          rw [hd] at h
          exact ⟨s, o, d, rfl, rfl, rfl, (Option.some.inj h).symm⟩
        | _ =>
          rw [hd] at h
          cases h
  · rintro ⟨s, o, d, hs, ho, hd, rfl⟩
    rw [hs, ho]
    simp only [Option.bind_some, Linked.fact, RelationshipRow.readDescription, hd]
    rfl

/-- A row keeps its fact as long as its ends stay. -/
theorem fact?_congr (hs : t'.entityById? r.subject = t.entityById? r.subject)
    (ho : t'.entityById? r.object = t.entityById? r.object) : t'.fact? r = t.fact? r := by
  rw [fact?, fact?, linked?, linked?, hs, ho]

/-! ## Well-formed tables -/

namespace WellFormed

variable (h : t.WellFormed)

include h

theorem entityById?_eq_some {id : Nat} {e : EntityRow} :
    t.entityById? id = some e ↔ e ∈ t.entities.rows ∧ e.id = id :=
  find?_key_eq_some h.entities.nodup

theorem entity?_eq_some {name : String} {e : EntityRow} :
    t.entity? name = some e ↔ e ∈ t.entities.rows ∧ e.name = name :=
  find?_key_eq_some h.names_nodup

/-- Entities are told apart by their names. -/
theorem eq_of_name_eq {e e' : EntityRow} (he : e ∈ t.entities.rows) (he' : e' ∈ t.entities.rows)
    (hname : e.name = e'.name) : e = e' :=
  List.inj_on_of_nodup_map h.names_nodup he he' hname

omit h in
theorem exists_entity {id : Nat} (hid : t.hasEntity id = true) :
    ∃ e ∈ t.entities.rows, e.id = id := by
  obtain ⟨e, he, heq⟩ := List.any_eq_true.1 hid
  exact ⟨e, he, by simpa using heq⟩

/-- **Every row reads as a fact**, between two entities. -/
theorem fact?_of_mem (hr : r ∈ t.relationships.rows) :
    ∃ s ∈ t.entities.rows, ∃ o ∈ t.entities.rows, ∃ d, s.id = r.subject ∧ o.id = r.object ∧
      r.description = .text d ∧ t.fact? r = some ⟨s.name, d, o.name⟩ := by
  obtain ⟨hsubject, hobject⟩ := h.ends r hr
  obtain ⟨s, hs, hsid⟩ := exists_entity hsubject
  obtain ⟨o, ho, hoid⟩ := exists_entity hobject
  obtain ⟨d, hd⟩ := h.texts r hr
  refine ⟨s, hs, o, ho, d, hsid, hoid, hd, fact?_eq_some.2 ⟨s, o, d, ?_, ?_, hd, rfl⟩⟩
  · exact h.entityById?_eq_some.2 ⟨hs, hsid⟩
  · exact h.entityById?_eq_some.2 ⟨ho, hoid⟩

theorem isSome_fact? (hr : r ∈ t.relationships.rows) : (t.fact? r).isSome = true := by
  obtain ⟨s, -, o, -, d, -, -, -, hfact⟩ := h.fact?_of_mem hr
  rw [hfact]
  rfl

/-- Different rows stand for different facts. -/
theorem eq_of_fact?_eq {r' : RelationshipRow} (hr : r ∈ t.relationships.rows)
    (hr' : r' ∈ t.relationships.rows) (heq : t.fact? r = t.fact? r') : r = r' := by
  obtain ⟨s, hs, o, ho, d, hsid, hoid, hd, hfact⟩ := h.fact?_of_mem hr
  obtain ⟨s', hs', o', ho', d', hsid', hoid', hd', hfact'⟩ := h.fact?_of_mem hr'
  rw [hfact, hfact'] at heq
  obtain ⟨hsubject, hrelation, hobject⟩ := Fact.mk.inj (Option.some.inj heq)
  have hsame := h.eq_of_name_eq hs hs' hsubject
  have hosame := h.eq_of_name_eq ho ho' hobject
  refine List.inj_on_of_nodup_map h.keys_nodup hr hr' ?_
  rw [RelationshipRow.key, RelationshipRow.key, hd, hd', hrelation, ← hsid, ← hsid', hsame,
    ← hoid, ← hoid', hosame]

/-- **No fact is there twice.** -/
theorem facts_nodup : t.facts.Nodup := by
  refine List.pairwise_filterMap.2 (h.relationships.rows_nodup.imp_of_mem ?_)
  rintro r r' hr hr' hne f hf f' hf' rfl
  exact hne (h.eq_of_fact?_eq hr hr' (hf.trans hf'.symm))

theorem length_facts : t.facts.length = t.relationships.rows.length := by
  rw [facts, List.length_filterMap_eq_countP, List.countP_eq_length]
  exact fun r hr => h.isSome_fact? hr

/-- The number of an entity is among those of some names exactly if its name is. -/
theorem mem_idsOf {e : EntityRow} (he : e ∈ t.entities.rows) {names : List String} :
    e.id ∈ t.idsOf names ↔ e.name ∈ names := by
  rw [idsOf, List.mem_map]
  constructor
  · rintro ⟨e', he', heq⟩
    obtain ⟨hmem, hname⟩ := List.mem_filter.1 he'
    rw [← h.entities.eq_of_number_eq hmem he heq]
    exact List.contains_iff_mem.1 hname
  · intro hname
    exact ⟨e, List.mem_filter.2 ⟨he, List.contains_iff_mem.2 hname⟩, rfl⟩

/-- A relationship between two entities is there exactly if its fact is. -/
theorem isSome_relationship?_iff {s o : EntityRow} (hs : s ∈ t.entities.rows)
    (ho : o ∈ t.entities.rows) {d : String} :
    (t.relationship? (.text d) s.id o.id).isSome = true ↔ ⟨s.name, d, o.name⟩ ∈ t.facts := by
  rw [relationship?, List.find?_isSome, facts, List.mem_filterMap]
  refine exists_congr fun r => and_congr_right fun hr => ?_
  obtain ⟨s', hs', o', ho', d', hsid, hoid, hd, hfact⟩ := h.fact?_of_mem hr
  rw [hfact, Option.some_inj, Fact.mk.injEq, hd, ← hsid, ← hoid]
  simp only [Bool.and_eq_true, beq_iff_eq, Cell.text.injEq]
  constructor
  · rintro ⟨⟨rfl, hsubject⟩, hobject⟩
    rw [h.entities.eq_of_number_eq hs' hs hsubject, h.entities.eq_of_number_eq ho' ho hobject]
    exact ⟨rfl, rfl, rfl⟩
  · rintro ⟨hsubject, rfl, hobject⟩
    rw [h.eq_of_name_eq hs' hs hsubject, h.eq_of_name_eq ho' ho hobject]
    exact ⟨⟨rfl, rfl⟩, rfl⟩

/-- An entity is referred to if a fact begins or ends at its name. -/
theorem refersTo_iff {e : EntityRow} (he : e ∈ t.entities.rows) :
    t.refersTo e.id = true ↔ ∃ f ∈ t.facts, f.hasEnd e.name = true := by
  rw [refersTo, List.any_eq_true]
  constructor
  · rintro ⟨r, hr, hend⟩
    obtain ⟨s, hs, o, ho, d, hsid, hoid, -, hfact⟩ := h.fact?_of_mem hr
    refine ⟨_, List.mem_filterMap.2 ⟨r, hr, hfact⟩, ?_⟩
    rw [Fact.hasEnd, Bool.or_eq_true, beq_iff_eq, beq_iff_eq]
    rw [Bool.or_eq_true, beq_iff_eq, beq_iff_eq, ← hsid, ← hoid] at hend
    refine hend.imp (fun heq => ?_) fun heq => ?_
    · rw [h.entities.eq_of_number_eq hs he heq]
    · rw [h.entities.eq_of_number_eq ho he heq]
  · rintro ⟨f, hf, hend⟩
    obtain ⟨r, hr, hfact⟩ := List.mem_filterMap.1 hf
    obtain ⟨s, hs, o, ho, d, hsid, hoid, -, hfact'⟩ := h.fact?_of_mem hr
    rw [hfact'] at hfact
    obtain rfl := Option.some.inj hfact
    refine ⟨r, hr, ?_⟩
    rw [Fact.hasEnd, Bool.or_eq_true, beq_iff_eq, beq_iff_eq] at hend
    rw [Bool.or_eq_true, beq_iff_eq, beq_iff_eq, ← hsid, ← hoid]
    refine hend.imp (fun heq => ?_) fun heq => ?_
    · rw [h.eq_of_name_eq hs he heq]
    · rw [h.eq_of_name_eq ho he heq]

end WellFormed

end TripletTables

end GraphBase
