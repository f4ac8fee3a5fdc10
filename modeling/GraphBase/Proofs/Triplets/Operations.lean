import GraphBase.Proofs.Storage.Sessions
import GraphBase.Proofs.Triplets.WellFormed

/-!
# What the operations do to the fact base

Every operation of a triplet store that writes is made of four steps: one entity more, one
relationship more, some relationships less, some entities less.  For each step this file says
what is left of the facts and the names, and that well-formed tables stay so: an entity is added
only under a new name, a relationship only between entities, and an entity goes only if no fact
has it for an end.

`Follows` collects what holds from one state of the tables to a later one, whatever happens in
between: the later tables are well-formed, numbers have not come back, and the surroundings are
the same.

The operations are then sequences of steps.  None of them fails on well-formed tables, as long as
the database may be written to, and each does to the fact base what `FactBase` says.
-/

namespace GraphBase

namespace TripletTables

variable {t t' t'' : TripletTables}

/-- Tables that come after others. -/
structure Follows (t t' : TripletTables) : Prop where
  wellFormed : t'.WellFormed
  entities : Table.Grows EntityRow.id t.entities t'.entities
  relationships : Table.Grows RelationshipRow.id t.relationships t'.relationships
  surroundings : t'.surroundings = t.surroundings

namespace Follows

theorem refl (h : t.WellFormed) : Follows t t := ⟨h, .refl _, .refl _, rfl⟩

theorem trans (h : Follows t t') (h' : Follows t' t'') : Follows t t'' :=
  ⟨h'.wellFormed, h.entities.trans h'.entities, h.relationships.trans h'.relationships,
    h'.surroundings.trans h.surroundings⟩

end Follows

theorem facts_congr (hrows : t'.relationships.rows = t.relationships.rows)
    (hs : ∀ r ∈ t.relationships.rows, t'.entityById? r.subject = t.entityById? r.subject)
    (ho : ∀ r ∈ t.relationships.rows, t'.entityById? r.object = t.entityById? r.object) :
    t'.facts = t.facts := by
  rw [facts, facts, hrows]
  exact List.filterMap_congr fun r hr => fact?_congr (hs r hr) (ho r hr)

/-! ## One entity more -/

/-- The tables with one more entity. -/
def addEntity (now name : String) (t : TripletTables) : TripletTables :=
  { t with entities := t.entities.append fun id => ⟨id, name, now, now⟩ }

theorem entityById?_addEntity {now name : String} {id : Nat} (hid : t.hasEntity id = true) :
    (t.addEntity now name).entityById? id = t.entityById? id := by
  obtain ⟨e, he, heq⟩ := WellFormed.exists_entity hid
  have hsome : (t.entities.rows.find? fun e => e.id == id).isSome :=
    isSome_find?_key.2 (List.mem_map.2 ⟨e, he, heq⟩)
  obtain ⟨found, hfound⟩ := Option.isSome_iff_exists.1 hsome
  rw [entityById?, entityById?, addEntity, Table.rows_append, List.find?_append, hfound,
    Option.some_or]

theorem names_addEntity (now name : String) (t : TripletTables) :
    (t.addEntity now name).names = t.names ++ [name] := by
  rw [names, names, addEntity, Table.rows_append, List.map_append]
  rfl

theorem facts_addEntity (h : t.WellFormed) (now name : String) :
    (t.addEntity now name).facts = t.facts :=
  facts_congr rfl (fun r hr => entityById?_addEntity (h.ends r hr).1)
    fun r hr => entityById?_addEntity (h.ends r hr).2

theorem follows_addEntity (h : t.WellFormed) {now name : String} (hname : name ∉ t.names) :
    Follows t (t.addEntity now name) := by
  refine ⟨?_, .append t.entities (fun id => ⟨id, name, now, now⟩) rfl, .refl _, rfl⟩
  refine ⟨h.entities.append (fun id => ⟨id, name, now, now⟩) rfl, h.relationships, ?_, h.keys_nodup, fun r hr => ?_, h.texts,
    h.ends_own, h.unpinned⟩
  · rw [names_addEntity]
    refine List.nodup_append.2 ⟨h.names_nodup, List.nodup_singleton name, ?_⟩
    rintro a ha b hb rfl
    exact hname (List.mem_singleton.1 hb ▸ ha)
  · have hmono : ∀ id, t.hasEntity id = true → (t.addEntity now name).hasEntity id = true := by
      intro id hid
      rw [hasEntity, addEntity, Table.rows_append, List.any_append]
      exact Bool.or_eq_true_iff.2 (.inl hid)
    exact ⟨hmono _ (h.ends r hr).1, hmono _ (h.ends r hr).2⟩

/-! ## One relationship more -/

/-- The tables with one more relationship. -/
def addRelationship (now : String) (description : Cell) (subject object : Nat)
    (t : TripletTables) : TripletTables :=
  { t with relationships :=
      t.relationships.append fun id => ⟨id, description, subject, object, now, now⟩ }

theorem facts_addRelationship (h : t.WellFormed) {now d : String} {s o : EntityRow}
    (hs : s ∈ t.entities.rows) (ho : o ∈ t.entities.rows) :
    (t.addRelationship now (.text d) s.id o.id).facts = t.facts ++ [⟨s.name, d, o.name⟩] := by
  rw [facts, facts, addRelationship, Table.rows_append, List.filterMap_append]
  refine congrArg (_ ++ ·) ?_
  have hfact : t.fact? ⟨t.relationships.nextId, .text d, s.id, o.id, now, now⟩ =
      some ⟨s.name, d, o.name⟩ :=
    fact?_eq_some.2 ⟨s, o, d, h.entityById?_eq_some.2 ⟨hs, rfl⟩, h.entityById?_eq_some.2 ⟨ho, rfl⟩,
      rfl, rfl⟩
  exact List.filterMap_cons_some hfact

theorem follows_addRelationship (h : t.WellFormed) {now d : String} {s o : EntityRow}
    (hs : s ∈ t.entities.rows) (ho : o ∈ t.entities.rows)
    (hnew : t.relationship? (.text d) s.id o.id = none) :
    Follows t (t.addRelationship now (.text d) s.id o.id) := by
  have hentity : ∀ e ∈ t.entities.rows, t.hasEntity e.id = true :=
    fun e he => List.any_eq_true.2 ⟨e, he, beq_self_eq_true _⟩
  refine ⟨?_, .refl _,
    .append t.relationships (fun id => ⟨id, .text d, s.id, o.id, now, now⟩) rfl, rfl⟩
  refine ⟨h.entities,
    h.relationships.append (fun id => ⟨id, .text d, s.id, o.id, now, now⟩) rfl, h.names_nodup, ?_,
    fun r hr => ?_, fun r hr => ?_, h.ends_own, h.unpinned⟩
  · rw [addRelationship, Table.rows_append, List.map_append]
    refine List.nodup_append.2 ⟨h.keys_nodup, List.nodup_singleton _, ?_⟩
    intro a ha b hb hab
    obtain ⟨r, hr, rfl⟩ := List.mem_map.1 ha
    rw [List.map_singleton, List.mem_singleton] at hb
    rw [hb, RelationshipRow.key, RelationshipRow.key, Prod.mk.injEq, Prod.mk.injEq] at hab
    refine List.find?_eq_none.1 hnew r hr ?_
    simp [hab]
  · rcases List.mem_append.1 hr with hr | hr
    · exact h.ends r hr
    · rw [List.mem_singleton.1 hr]
      exact ⟨hentity s hs, hentity o ho⟩
  · rcases List.mem_append.1 hr with hr | hr
    · exact h.texts r hr
    · rw [List.mem_singleton.1 hr]
      exact ⟨d, rfl⟩

/-! ## Some relationships less -/

/-- The tables without the relationships that satisfy a condition. -/
def dropRelationships (p : RelationshipRow → Bool) (t : TripletTables) : TripletTables :=
  { t with relationships := t.relationships.keep fun r => !p r }

theorem follows_dropRelationships (h : t.WellFormed) (p : RelationshipRow → Bool) :
    Follows t (t.dropRelationships p) := by
  refine ⟨?_, .refl _, .keep _ _, rfl⟩
  refine ⟨h.entities, h.relationships.keep _, h.names_nodup, ?_, fun r hr => ?_, fun r hr => ?_,
    h.ends_own, h.unpinned⟩
  · exact h.keys_nodup.sublist (List.filter_sublist.map _)
  · exact h.ends r (List.mem_of_mem_filter hr)
  · exact h.texts r (List.mem_of_mem_filter hr)

/-- If the condition picks out the rows of one fact, that fact goes. -/
theorem facts_dropRelationships (h : t.WellFormed) {p : RelationshipRow → Bool} {f : Fact}
    (hp : ∀ r ∈ t.relationships.rows, p r = true ↔ t.fact? r = some f) :
    (t.dropRelationships p).facts = t.facts.erase f := by
  have hsame : (t.dropRelationships p).fact? = t.fact? := rfl
  have hrows : (t.dropRelationships p).relationships.rows =
      t.relationships.rows.filter fun r => !p r := rfl
  rw [h.facts_nodup.erase_eq_filter, facts, facts, hsame, hrows, List.filterMap_filter,
    List.filter_filterMap]
  refine List.filterMap_congr fun r hr => ?_
  obtain ⟨g, hg⟩ := Option.isSome_iff_exists.1 (h.isSome_fact? hr)
  have hpg : p r = true ↔ g = f := by rw [hp r hr, hg, Option.some_inj]
  rw [hg, Option.filter_some]
  by_cases hgf : g = f
  · rw [hpg.2 hgf, hgf]
    simp
  · rw [Bool.eq_false_iff.2 (mt hpg.1 hgf)]
    simp [hgf]

/-! ## Some entities less -/

/-- The tables without the entities that satisfy a condition. -/
def dropEntities (p : EntityRow → Bool) (t : TripletTables) : TripletTables :=
  { t with entities := t.entities.keep fun e => !p e }

section DropEntities

variable {p : EntityRow → Bool}

theorem dropEntities_congr {q : EntityRow → Bool} (h : ∀ e ∈ t.entities.rows, p e = q e) :
    t.dropEntities p = t.dropEntities q := by
  rw [dropEntities, dropEntities, Table.keep, Table.keep,
    List.filter_congr fun e he => congrArg _ (h e he)]

theorem dropEntities_eq_self (h : ∀ e ∈ t.entities.rows, p e = false) : t.dropEntities p = t := by
  have hall : (t.entities.rows.filter fun e => !p e) = t.entities.rows :=
    List.filter_eq_self.2 fun e he => by rw [h e he, Bool.not_false]
  rw [dropEntities, Table.keep, hall]

theorem dropEntities_dropEntities (p q : EntityRow → Bool) :
    (t.dropEntities p).dropEntities q = t.dropEntities fun e => p e || q e := by
  have hfilter : ((t.entities.rows.filter fun e => !p e).filter fun e => !q e) =
      t.entities.rows.filter fun e => !(p e || q e) := by
    rw [List.filter_filter]
    exact List.filter_congr fun e _ => by rw [Bool.not_or, Bool.and_comm]
  simp only [dropEntities, Table.keep, hfilter]

/-- The ends of a relationship are not dropped, if nothing is that is referred to. -/
theorem mem_dropEntities
    (hp : ∀ e ∈ t.entities.rows, p e = true → t.refersTo e.id = false) {e : EntityRow}
    (he : e ∈ t.entities.rows) {r : RelationshipRow} (hr : r ∈ t.relationships.rows)
    (hend : r.subject = e.id ∨ r.object = e.id) : e ∈ (t.dropEntities p).entities.rows := by
  refine List.mem_filter.2 ⟨he, ?_⟩
  rw [Bool.not_eq_true', ← Bool.not_eq_true]
  intro hpe
  have hrefers : t.refersTo e.id = true := by
    refine List.any_eq_true.2 ⟨r, hr, ?_⟩
    rwa [Bool.or_eq_true, beq_iff_eq, beq_iff_eq]
  rw [hp e he hpe] at hrefers
  cases hrefers

theorem follows_dropEntities (h : t.WellFormed)
    (hp : ∀ e ∈ t.entities.rows, p e = true → t.refersTo e.id = false) :
    Follows t (t.dropEntities p) := by
  refine ⟨?_, .keep _ _, .refl _, rfl⟩
  refine ⟨h.entities.keep _, h.relationships, ?_, h.keys_nodup, fun r hr => ?_, h.texts,
    h.ends_own, h.unpinned⟩
  · exact h.names_nodup.sublist (List.filter_sublist.map _)
  · obtain ⟨s, hs, o, ho, -, hsid, hoid, -, -⟩ := h.fact?_of_mem hr
    have hs' := mem_dropEntities hp hs hr (.inl hsid.symm)
    have ho' := mem_dropEntities hp ho hr (.inr hoid.symm)
    exact ⟨List.any_eq_true.2 ⟨s, hs', beq_iff_eq.2 hsid⟩,
      List.any_eq_true.2 ⟨o, ho', beq_iff_eq.2 hoid⟩⟩

theorem facts_dropEntities (h : t.WellFormed)
    (hp : ∀ e ∈ t.entities.rows, p e = true → t.refersTo e.id = false) :
    (t.dropEntities p).facts = t.facts := by
  have h' := (follows_dropEntities h hp).wellFormed
  have hsame : ∀ r ∈ t.relationships.rows, ∀ e ∈ t.entities.rows,
      r.subject = e.id ∨ r.object = e.id →
        (t.dropEntities p).entityById? e.id = t.entityById? e.id := by
    intro r hr e he hend
    rw [h'.entityById?_eq_some.2 ⟨mem_dropEntities hp he hr hend, rfl⟩,
      h.entityById?_eq_some.2 ⟨he, rfl⟩]
  refine facts_congr rfl (fun r hr => ?_) fun r hr => ?_
  · obtain ⟨s, hs, -, -, -, hsid, -, -, -⟩ := h.fact?_of_mem hr
    rw [← hsid]
    exact hsame r hr s hs (.inl hsid.symm)
  · obtain ⟨-, -, o, ho, -, -, hoid, -, -⟩ := h.fact?_of_mem hr
    rw [← hoid]
    exact hsame r hr o ho (.inr hoid.symm)

end DropEntities

end TripletTables

end GraphBase
