import GraphBase.Proofs.Connection.Undoing
import GraphBase.Proofs.Storage.Times
import GraphBase.Proofs.Triplets.Tasks
import GraphBase.Triplets.Direct

/-!
# The times in a triplet store

As for a property graph, an *action* is anything that may be done to the two tables of a triplet
store: a call to the store, a statement that it runs, or a direct change of rows (`TripletAction`).
This file says of every action how it moves the times of the rows (`TripletStore.moves_action`).

The store itself never changes a row: it inserts what is missing and deletes what is not needed any
more.  So no call moves the times of a row that stays, whether it finds what it was to insert or
not.  Statements may change rows, and they move the times of the rows that they select, and no
others.

## Whose rows

Rows are told apart by their numbers.  All that is asked of the tables is that these numbers go up
(`TripletTables.IsNumbered`).  Every action leads to such tables again, and so do many of them
(`TripletStore.exists_tables_of_actions`).  The tables may belong to several stores, and may refer
to others and be referred to by others.

A deletion takes two sessions, and if the second one fails, the first one has been done.  So an
action that fails may have taken rows away, but nothing else (`TripletTables.Shrinks`).
-/

namespace GraphBase

/-- The times of an entity. -/
def EntityRow.times (e : EntityRow) : Times := ⟨e.createdAt, e.updatedAt⟩

/-- The times of a relationship. -/
def RelationshipRow.times (r : RelationshipRow) : Times := ⟨r.createdAt, r.updatedAt⟩

/-- A statement that changes entities, but neither numbers nor names. -/
abbrev EntityUpdate := RowUpdate fun e : EntityRow => (e.id, e.name)

/-- A statement that changes relationships, but neither numbers nor descriptions and ends. -/
abbrev RelationshipUpdate := RowUpdate fun r : RelationshipRow => (r.id, r.key)

/-- What may be done to the tables of a triplet store. -/
inductive TripletAction where
  | call (c : TripletCall)
  | pathRows (seeds : List String) (depth limit : Nat)
  | query (now : String) (s : Statement)
  | updateEntities (now : String) (u : EntityUpdate)
  | updateRelationships (now : String) (u : RelationshipUpdate)

namespace TripletTables

variable {t t' t'' : TripletTables} {now : String}

/-- Rows of both tables can be told apart by their numbers. -/
structure IsNumbered (t : TripletTables) : Prop where
  entities : t.entities.Numbered EntityRow.id
  relationships : t.relationships.Numbered RelationshipRow.id

/-- Rows are gone, and nothing else has happened. -/
structure Shrinks (t t' : TripletTables) : Prop where
  entities : t.entities.Shrinks t'.entities
  relationships : t.relationships.Shrinks t'.relationships
  surroundings : t'.surroundings = t.surroundings

/-- Rows have been inserted, and nothing else has happened. -/
structure Gains (now : String) (t t' : TripletTables) : Prop where
  entities : t.entities.Gains EntityRow.id EntityRow.times now t'.entities
  relationships : t.relationships.Gains RelationshipRow.id RelationshipRow.times now
    t'.relationships
  surroundings : t'.surroundings = t.surroundings

end TripletTables

namespace TripletAction

/-- Runs an action; the answer is not looked at. -/
def run (store : TripletStore) : TripletAction → Access Unit
  | call c => c.run store
  | pathRows seeds depth limit => do
    let _ ← store.pathRows seeds depth limit
    return ()
  | query now s => do
    let _ ← store.query now s
    return ()
  | updateEntities now u => do
    let _ ← store.session (TripletTables.updateEntities now u.selects u.write)
    return ()
  | updateRelationships now u => do
    let _ ← store.session (TripletTables.updateRelationships now u.selects u.write)
    return ()

/-- The time at which an action inserts rows, if it is one that does. -/
def clock : TripletAction → Option String
  | call (.upsert now _) | call (.getOrCreateEntity now _) | query now (.link _ _ _) => some now
  | _ => none

/-- The times of an entity that was there, after an action. -/
def entityTimes : TripletAction → EntityRow → Times
  | query now (.rename fromName _), e =>
    if e.name = fromName then ⟨e.createdAt, now⟩ else e.times
  | query now (.stamp name (some created) (some updated)), e =>
    if e.name = name then ⟨created, touched now e.updatedAt updated⟩ else e.times
  | updateEntities now u, e => u.after EntityRow.times now e
  | _, e => e.times

/-- The times of a relationship that was there, after an action. -/
def relationshipTimes : TripletAction → RelationshipRow → Times
  | updateRelationships now u, r => u.after RelationshipRow.times now r
  | _, r => r.times

/-- Whether an action may write to the times itself. -/
def mayWriteTimes : TripletAction → Bool
  | query _ (.stamp _ _ _) | updateEntities _ _ | updateRelationships _ _ => true
  | _ => false

/-- An action has moved the times as it should, and left tables behind in which rows can be told
apart.  It has not touched any others. -/
structure Moves (a : TripletAction) (t t' : TripletTables) : Prop where
  isNumbered : t'.IsNumbered
  surroundings : t'.surroundings = t.surroundings
  entities : TimesMove EntityRow.id EntityRow.times a.clock a.entityTimes
    t.entities.rows t'.entities.rows
  relationships : TimesMove RelationshipRow.id RelationshipRow.times a.clock a.relationshipTimes
    t.relationships.rows t'.relationships.rows

end TripletAction

namespace TripletTables

open Session (Keeps)

variable {t t' t'' : TripletTables} {now : String}

/-! ## Rows that are gone -/

namespace Shrinks

theorem refl (t : TripletTables) : t.Shrinks t := ⟨.refl _, .refl _, rfl⟩

theorem trans (h : t.Shrinks t') (h' : t'.Shrinks t'') : t.Shrinks t'' :=
  ⟨h.entities.trans h'.entities, h.relationships.trans h'.relationships,
    h'.surroundings.trans h.surroundings⟩

theorem isNumbered (h : t.Shrinks t') (ht : t.IsNumbered) : t'.IsNumbered :=
  ⟨h.entities.numbered ht.entities, h.relationships.numbered ht.relationships⟩

end Shrinks

theorem shrinks_deleteRelationships (p : RelationshipRow → Bool) :
    Keeps t.Shrinks (deleteRelationships p) := by
  rw [deleteRelationships]
  exact .bind .write fun _ => .get_bind fun t₁ ht => .bind
    (.set ⟨ht.entities, ht.relationships.keep _, ht.surroundings⟩) fun _ => .pure _

theorem shrinks_deleteEntities (p : EntityRow → Bool) : Keeps t.Shrinks (deleteEntities p) := by
  rw [deleteEntities]
  refine .bind .write fun _ => .get_bind fun t₁ ht => .ite (.fault _) ?_
  exact .bind (.set ⟨ht.entities.keep _, ht.relationships, ht.surroundings⟩) fun _ => .pure _

theorem shrinks_removeFact (fact : Fact) : Keeps t.Shrinks (removeFact fact) :=
  .get_bind fun _ _ => shrinks_deleteRelationships _

theorem shrinks_removeUnreferenced (names : List String) :
    Keeps t.Shrinks (removeUnreferenced names) := by
  induction names with
  | nil => exact .pure _
  | cons name rest ih =>
    refine .get_bind fun t₁ _ => ?_
    by_cases hfree : (!t₁.isReferenced name) = true
    · rw [if_pos hfree]
      exact .bind (.discard (shrinks_deleteEntities _)) fun _ => ih
    · rw [if_neg hfree]
      exact ih

/-! ## Rows that are inserted -/

namespace Gains

theorem refl (h : t.IsNumbered) : t.Gains now t := ⟨.refl h.entities, .refl h.relationships, rfl⟩

theorem isNumbered (h : t.Gains now t') : t'.IsNumbered :=
  ⟨h.entities.numbered, h.relationships.numbered⟩

end Gains

theorem gains_insertEntity (now name : String) : Keeps (t.Gains now) (insertEntity now name) := by
  rw [insertEntity]
  refine .bind .write fun _ => .get_bind fun t₁ ht => .ite (.fault _) ?_
  have hrow : t.entities.Gains EntityRow.id EntityRow.times now
      (t₁.entities.append fun _ => ⟨t₁.entities.nextId, name, now, now⟩) :=
    ht.entities.append rfl rfl
  exact .bind (.set ⟨hrow, ht.relationships, ht.surroundings⟩) fun _ => .pure _

theorem gains_insertRelationship (now : String) (description : Cell) (subject object : Nat) :
    Keeps (t.Gains now) (insertRelationship now description subject object) := by
  rw [insertRelationship]
  refine .bind .write fun _ => .get_bind fun t₁ ht => .ite (.fault _) (.ite (.fault _) ?_)
  have hrow : t.relationships.Gains RelationshipRow.id RelationshipRow.times now
      (t₁.relationships.append fun _ =>
        ⟨t₁.relationships.nextId, description, subject, object, now, now⟩) :=
    ht.relationships.append rfl rfl
  exact .bind (.set ⟨ht.entities, hrow, ht.surroundings⟩) fun _ => .pure _

/-- An entity that is there is looked up and left as it is. -/
theorem gains_getOrCreateEntity (now name : String) :
    Keeps (t.Gains now) (getOrCreateEntity now name) := by
  refine .get_bind fun t₁ _ => ?_
  cases t₁.entity? name with
  | some row => exact .pure _
  | none => exact .bind (gains_insertEntity now name) fun _ => .pure _

/-- Adding a fact inserts what is missing. -/
theorem gains_upsert (now : String) (fact : Fact) : Keeps (t.Gains now) (upsert now fact) := by
  refine .bind (gains_getOrCreateEntity now fact.subject) fun ⟨s, _⟩ => ?_
  refine .bind (gains_getOrCreateEntity now fact.object) fun ⟨o, _⟩ => .get_bind fun t₁ _ => ?_
  cases t₁.relationship? (.text fact.relation) s.id o.id with
  | some r => exact .pure _
  | none => exact .discard (gains_insertRelationship now _ _ _)

end TripletTables

theorem Statement.gains_insertLink {t : TripletTables} (now : String)
    (description subject object : Cell) :
    Session.Keeps (t.Gains now) (insertLink now description subject object) := by
  rw [insertLink]
  refine .bind .write fun _ => .ite (.fault _) ?_
  split
  · exact .discard (TripletTables.gains_insertRelationship now _ _ _)
  · exact .fault _

theorem Statement.restrained_run (now : String) (s : Statement) :
    Session.Restrained (s.run now) := by
  cases s with
  | echo cells => exact .ite (.ofRead (.error .badStatement)) (.pure _)
  | namesAfter name => exact .get_bind fun t => .pure _
  | rename fromName toName => exact .bind (.write_bind _) fun _ => .pure _
  | stamp name created updated => exact .bind (.write_bind _) fun _ => .pure _
  | link description subject object => exact .bind (.write_bind _) fun _ => .pure _
  | dropEntity name => exact .bind (.discard (.write_bind _)) fun _ => .pure _
  | malformed => exact .ofRead (.error .badStatement)

namespace TripletAction

variable {a : TripletAction} {t t' : TripletTables} {now : String}

/-! ## Actions -/

/-- **No action moves the time of an insertion** unless it writes to it. -/
theorem created_eq (h : a.mayWriteTimes = false) (e : EntityRow) (r : RelationshipRow) :
    (a.entityTimes e).created = e.createdAt ∧ (a.relationshipTimes r).created = r.createdAt := by
  constructor
  · unfold entityTimes
    split
    · exact Times.created_ite _ e.times
    · cases h
    · cases h
    · rfl
  · unfold relationshipTimes
    split
    · cases h
    · rfl

/-- An action that is no business of any row that stays moves nothing. -/
theorem Moves.of_shrinks (h : t.IsNumbered) (hshrinks : t.Shrinks t')
    (hentities : a.entityTimes = EntityRow.times)
    (hrelationships : a.relationshipTimes = RelationshipRow.times) : a.Moves t t' := by
  refine ⟨hshrinks.isNumbered h, hshrinks.surroundings, ?_, ?_⟩
  · rw [hentities]
    exact hshrinks.entities.timesMove h.entities
  · rw [hrelationships]
    exact hshrinks.relationships.timesMove h.relationships

/-- An action that inserts rows moves none of the others. -/
theorem Moves.of_gains (h : t.IsNumbered) (hgains : t.Gains now t') (hclock : a.clock = some now)
    (hentities : a.entityTimes = EntityRow.times)
    (hrelationships : a.relationshipTimes = RelationshipRow.times) : a.Moves t t' := by
  refine ⟨hgains.isNumbered, hgains.surroundings, ?_, ?_⟩
  · rw [hclock, hentities]
    exact hgains.entities.timesMove h.entities
  · rw [hclock, hrelationships]
    exact hgains.relationships.timesMove h.relationships

/-- An action that changes entities moves their times as it changes them. -/
theorem Moves.of_mapEntities (h : t.IsNumbered) {f : EntityRow → EntityRow}
    (hid : ∀ e, (f e).id = e.id) (htimes : ∀ e, (f e).times = a.entityTimes e)
    (hrelationships : a.relationshipTimes = RelationshipRow.times) :
    a.Moves t { t with entities := t.entities.mapRows f } := by
  refine ⟨⟨h.entities.mapRows hid, h.relationships⟩, rfl, .of_map h.entities.nodup hid htimes, ?_⟩
  rw [hrelationships]
  exact .of_sublist h.relationships.nodup (.refl _)

/-- An action that changes relationships moves their times as it changes them. -/
theorem Moves.of_mapRelationships (h : t.IsNumbered) {f : RelationshipRow → RelationshipRow}
    (hid : ∀ r, (f r).id = r.id) (htimes : ∀ r, (f r).times = a.relationshipTimes r)
    (hentities : a.entityTimes = EntityRow.times) :
    a.Moves t { t with relationships := t.relationships.mapRows f } := by
  refine ⟨⟨h.entities, h.relationships.mapRows hid⟩, rfl, ?_,
    .of_map h.relationships.nodup hid htimes⟩
  rw [hentities]
  exact .of_sublist h.entities.nodup (.refl _)

theorem moves_updateEntities (h : t.IsNumbered) (u : EntityUpdate) {n : Nat}
    (hrun : TripletTables.updateEntities now u.selects u.write none t = .ok (n, t')) :
    (updateEntities now u).Moves t t' := by
  let touch (e : EntityRow) : EntityRow :=
    { u.write e with updatedAt := touched now e.updatedAt (u.write e).updatedAt }
  have hchange : ∀ e, ((if u.selects e then touch e else e).id,
      (if u.selects e then touch e else e).name) = (e.id, e.name) ∧
      (if u.selects e then touch e else e).times = u.after EntityRow.times now e :=
    u.after_spec (fun _ => rfl) fun _ => rfl
  cases hrun
  exact .of_mapEntities h (fun e => (Prod.mk.inj (hchange e).1).1) (fun e => (hchange e).2) rfl

theorem moves_updateRelationships (h : t.IsNumbered) (u : RelationshipUpdate) {n : Nat}
    (hrun : TripletTables.updateRelationships now u.selects u.write none t = .ok (n, t')) :
    (updateRelationships now u).Moves t t' := by
  let touch (r : RelationshipRow) : RelationshipRow :=
    { u.write r with updatedAt := touched now r.updatedAt (u.write r).updatedAt }
  have hchange : ∀ r, ((if u.selects r then touch r else r).id,
      (if u.selects r then touch r else r).key) = (r.id, r.key) ∧
      (if u.selects r then touch r else r).times = u.after RelationshipRow.times now r :=
    u.after_spec (fun _ => rfl) fun _ => rfl
  cases hrun
  exact .of_mapRelationships h (fun r => (Prod.mk.inj (hchange r).1).1) (fun r => (hchange r).2) rfl

/-- A change of the entity of a name moves its times. -/
theorem Moves.of_updateEntity (h : t.IsNumbered) {name : String} {f : EntityRow → EntityRow}
    (hid : ∀ e, (f e).id = e.id)
    (htimes : ∀ e, a.entityTimes e =
      if e.name = name then .afterUpdate now e.times (f e).times else e.times)
    (hrelationships : a.relationshipTimes = RelationshipRow.times) :
    a.Moves t (t.updateEntity now name f) := by
  refine .of_mapEntities h (fun e => ?_) (fun e => ?_) hrelationships
  · split_ifs
    · exact hid e
    · rfl
  · rw [htimes]
    split_ifs <;> rfl

/-- Both times of an entity are written, or there is no such entity and one of them is missing. -/
theorem eq_of_run_stamp {name : String} {created updated : Option String} {u : Unit}
    (hrun : TripletTables.stamp now name created updated none t = .ok (u, t')) :
    (∃ c u, created = some c ∧ updated = some u ∧
      t' = t.updateEntity now name fun e => { e with createdAt := c, updatedAt := u }) ∨
    (created = none ∨ updated = none) ∧ t' = t := by
  rw [TripletTables.stamp, Session.run_write_bind, Session.run_get_bind] at hrun
  split at hrun
  · cases hrun
    exact .inl ⟨_, _, rfl, rfl, rfl⟩
  · rename_i hmissing
    split_ifs at hrun
    · cases hrun
    · cases hrun
      refine .inr ⟨?_, rfl⟩
      cases created with
      | none => exact .inl rfl
      | some c =>
        cases updated with
        | none => exact .inr rfl
        | some u => exact absurd rfl (hmissing c u rfl)

/-- **A statement moves the times as it should.** -/
theorem moves_query (h : t.IsNumbered) {s : Statement} {answer : List (List Cell)}
    (hrun : s.run now none t = .ok (answer, t')) : (query now s).Moves t t' := by
  cases s with
  | echo cells =>
    rw [Statement.run] at hrun
    split_ifs at hrun
    · cases hrun
    · cases hrun
      exact .of_shrinks h (.refl t) rfl rfl
  | namesAfter name =>
    cases hrun
    exact .of_shrinks h (.refl t) rfl rfl
  | rename fromName toName =>
    obtain ⟨u, t₁, hrename, hend⟩ := Session.exists_of_run_bind hrun
    cases hend
    rw [TripletTables.rename, Session.run_write_bind, Session.run_get_bind] at hrename
    split_ifs at hrename
    · cases hrename
    · cases hrename
      refine .of_updateEntity h (fun _ => rfl) (fun e => ?_) rfl
      exact if_congr Iff.rfl (Times.afterUpdate_self now e.times).symm rfl
  | stamp name created updated =>
    obtain ⟨u, t₁, hstamp, hend⟩ := Session.exists_of_run_bind hrun
    cases hend
    obtain ⟨created, updated, rfl, rfl, rfl⟩ | ⟨hmissing, rfl⟩ := eq_of_run_stamp hstamp
    · exact .of_updateEntity h (fun _ => rfl) (fun _ => rfl) rfl
    · refine .of_shrinks h (.refl _) ?_ rfl
      rcases hmissing with rfl | rfl
      · rfl
      · cases created <;> rfl
  | link description subject object =>
    obtain ⟨u, t₁, hlink, hend⟩ := Session.exists_of_run_bind hrun
    cases hend
    exact .of_gains h (Statement.gains_insertLink now _ _ _ none t u t' hlink (.refl h)) rfl rfl rfl
  | dropEntity name =>
    obtain ⟨u, t₁, hdrop, hend⟩ := Session.exists_of_run_bind hrun
    cases hend
    have hshrinks := Session.Keeps.discard
      (TripletTables.shrinks_deleteEntities fun e => e.name == name) none t u t' hdrop (.refl t)
    exact .of_shrinks h hshrinks rfl rfl
  | malformed => cases hrun

end TripletAction

namespace TripletStore

variable {α β : Type} {store : TripletStore} {s : Site} {t : TripletTables}
  {R R' : TripletTables → Prop}

/-! ## On a site -/

/-- A session that is held back by a refusal either has the outcome on the site that it has on the
tables, or fails and leaves the site as it is. -/
theorem run_session_of_restrained (hopen : store.IsOpen s t) {body : Session TripletTables α}
    (hbody : Session.Restrained body)
    (hsurroundings : ∀ a t', body none t = .ok (a, t') → t'.surroundings = t.surroundings) :
    (∃ a t' s', body none t = .ok (a, t') ∧ (store.session body).run s = (.ok a, s') ∧
      store.IsOpen s' t') ∨
    ∃ e, (store.session body).run s = (.error e, s) := by
  cases hout : body none t with
  | error e =>
    obtain ⟨e', hrun, -⟩ := hbody.exists_error hout s.engine.locator.refusal
    exact .inr ⟨e', run_session_fails hopen hrun⟩
  | ok p =>
    obtain ⟨s', hrun, hopen', -⟩ | ⟨-, e, hrun⟩ :=
      session_cases hopen hbody hout (hsurroundings p.1 p.2 hout)
    · exact .inl ⟨p.1, p.2, s', rfl, hrun, hopen'⟩
    · exact .inr ⟨e, hrun⟩

/-- An operation on a site succeeds with tables of a certain kind, or fails and has done nothing but
take rows away. -/
def Settles (store : TripletStore) (s : Site) (t : TripletTables) (R : TripletTables → Prop)
    (x : Access α) : Prop :=
  ∃ r s' t', x.run s = (r, s') ∧ store.IsOpen s' t' ∧
    (∀ a, r = .ok a → R t') ∧ ∀ e, r = .error e → t.Shrinks t'

namespace Settles

theorem mono {x : Access α} (hx : store.Settles s t R x) (h : ∀ t', R t' → R' t') :
    store.Settles s t R' x := by
  obtain ⟨r, s', t', hrun, hopen, hok, herror⟩ := hx
  exact ⟨r, s', t', hrun, hopen, fun a ha => h t' (hok a ha), herror⟩

theorem pure (hopen : store.IsOpen s t) (hR : R t) (a : α) :
    store.Settles s t R (Pure.pure a : Access α) :=
  ⟨_, _, t, rfl, hopen, fun _ _ => hR, nofun⟩

theorem session (hopen : store.IsOpen s t) {body : Session TripletTables α}
    (hbody : Session.Restrained body)
    (hR : ∀ a t', body none t = .ok (a, t') → R t' ∧ t'.surroundings = t.surroundings) :
    store.Settles s t R (store.session body) := by
  obtain ⟨a, t', s', hrun, hsession, hopen'⟩ | ⟨e, hsession⟩ :=
    run_session_of_restrained hopen hbody fun a t' hrun => (hR a t' hrun).2
  · exact ⟨.ok a, s', t', hsession, hopen', fun _ _ => (hR a t' hrun).1, nofun⟩
  · exact ⟨.error e, s, t, hsession, hopen, nofun, fun _ _ => .refl t⟩

/-- Rows that two operations take away are taken away by both together. -/
theorem bind {x : Access α} {f : α → Access β} (hx : store.Settles s t t.Shrinks x)
    (hf : ∀ a s' t', store.IsOpen s' t' → store.Settles s' t' t'.Shrinks (f a)) :
    store.Settles s t t.Shrinks (x >>= f) := by
  obtain ⟨r, s₁, t₁, hrun, hopen₁, hok, herror⟩ := hx
  cases r with
  | ok a =>
    obtain ⟨r, s₂, t₂, hrun₂, hopen₂, hok₂, herror₂⟩ := hf a s₁ t₁ hopen₁
    have hfirst := hok a rfl
    exact ⟨r, s₂, t₂, (Access.run_bind_ok hrun).trans hrun₂, hopen₂,
      fun b hb => hfirst.trans (hok₂ b hb), fun e he => hfirst.trans (herror₂ e he)⟩
  | error e =>
    exact ⟨.error e, s₁, t₁, Access.run_bind_error hrun, hopen₁, nofun, fun _ _ => herror e rfl⟩

/-- The answer may be thrown away. -/
theorem bind_pure {x : Access α} (hx : store.Settles s t R x) (b : β) :
    store.Settles s t R (x >>= fun _ => Pure.pure b) := by
  obtain ⟨r, s', t', hrun, hopen, hok, herror⟩ := hx
  cases r with
  | ok a => exact ⟨.ok b, s', t', Access.run_bind_ok hrun, hopen, fun _ _ => hok a rfl, nofun⟩
  | error e =>
    exact ⟨.error e, s', t', Access.run_bind_error hrun, hopen, nofun, fun _ _ => herror e rfl⟩

/-- A session that moves the times as an action should. -/
theorem moves {a : TripletAction} (hopen : store.IsOpen s t) {body : Session TripletTables α}
    (hbody : Session.Restrained body) (h : ∀ x t', body none t = .ok (x, t') → a.Moves t t') :
    store.Settles s t (a.Moves t) (store.session body) :=
  session hopen hbody fun x t' hrun => ⟨h x t' hrun, (h x t' hrun).surroundings⟩

/-- A session that takes rows away. -/
theorem shrinks (hopen : store.IsOpen s t) {body : Session TripletTables α}
    (hbody : Session.Restrained body) (h : Session.Keeps t.Shrinks body) :
    store.Settles s t t.Shrinks (store.session body) := by
  refine session hopen hbody fun a t' hrun => ?_
  have hshrinks := h none t a t' hrun (.refl t)
  exact ⟨hshrinks, hshrinks.surroundings⟩

/-- What only reads leaves the tables as they are, -/
theorem readsOk (hopen : store.IsOpen s t) (read : TripletTables → Except StorageFault α) :
    store.Settles s t t.Shrinks (store.session (Session.readsOk read)) :=
  shrinks hopen (.get_bind fun _ => .ofRead _) (.readsOk read)

theorem reads (hopen : store.IsOpen s t) (read : TripletTables → α) :
    store.Settles s t t.Shrinks (store.session (Session.reads read)) := by
  refine shrinks hopen (fun f t a t' hrun => ?_) (.reads read)
  cases hrun
  exact ⟨rfl, rfl⟩

/-- and so does a traversal. -/
theorem traverse (hopen : store.IsOpen s t) {c : Prop} [Decidable c] (a : α)
    (read : TripletTables → Except StorageFault α) :
    store.Settles s t t.Shrinks (if c then Pure.pure a else store.traverse read) := by
  rw [TripletStore.traverse]
  split_ifs
  · exact pure hopen (.refl t) a
  · exact shrinks hopen (.ofRead (.error .badStatement)) (.fault _)
  · exact readsOk hopen read

/-- What takes rows away moves none that stays. -/
theorem moves_of_shrinks {a : TripletAction} {x : Access α} (hx : store.Settles s t t.Shrinks x)
    (h : t.IsNumbered) (hentities : a.entityTimes = EntityRow.times)
    (hrelationships : a.relationshipTimes = RelationshipRow.times) :
    store.Settles s t (a.Moves t) (x >>= fun _ => Pure.pure ()) :=
  (bind_pure hx ()).mono fun _ hs => .of_shrinks h hs hentities hrelationships

end Settles

/-- **No call moves the times of a row that was there.** -/
theorem moves_call (hopen : store.IsOpen s t) (h : t.IsNumbered) (c : TripletCall) :
    store.Settles s t ((TripletAction.call c).Moves t) (c.run store) := by
  cases c with
  | upsert now fact =>
    refine .moves hopen (TripletTables.restrained_upsert now fact) fun u t' hrun => ?_
    exact .of_gains h (TripletTables.gains_upsert now fact none t u t' hrun (.refl h)) rfl rfl rfl
  | getOrCreateEntity now name =>
    refine .bind_pure (.moves hopen (TripletTables.restrained_getOrCreateEntity now name)
      fun p t' hrun => ?_) ()
    exact .of_gains h
      (TripletTables.gains_getOrCreateEntity now name none t p t' hrun (.refl h)) rfl rfl rfl
  | delete fact =>
    have hremove : store.Settles s t t.Shrinks (store.session (TripletTables.removeFact fact)) :=
      .shrinks hopen (TripletTables.restrained_removeFact fact)
        (TripletTables.shrinks_removeFact fact)
    refine (hremove.bind fun n s' t' hopen' => ?_).mono fun t' hs => .of_shrinks h hs rfl rfl
    split_ifs
    · exact .shrinks hopen' (TripletTables.restrained_removeUnreferenced _)
        (TripletTables.shrinks_removeUnreferenced _)
    · exact .pure hopen' (.refl t') ()
  | findEntity name => exact (Settles.reads hopen _).moves_of_shrinks h rfl rfl
  | relations subject => exact (Settles.readsOk hopen _).moves_of_shrinks h rfl rfl
  | relMap seeds depth limit =>
    rw [TripletCall.run, relMap]
    exact (Settles.traverse hopen _ _).moves_of_shrinks h rfl rfl
  | stats => exact (Settles.reads hopen _).moves_of_shrinks h rfl rfl

/-- **An action moves the times as it should**, or fails and has done nothing but take rows
away. -/
theorem moves_action (hopen : store.IsOpen s t) (h : t.IsNumbered) (a : TripletAction) :
    store.Settles s t (a.Moves t) (a.run store) := by
  cases a with
  | call c => exact moves_call hopen h c
  | pathRows seeds depth limit =>
    rw [TripletAction.run, pathRows]
    exact (Settles.traverse hopen _ _).moves_of_shrinks h rfl rfl
  | query now statement =>
    exact .bind_pure (.moves hopen (statement.restrained_run now) fun answer t' hrun =>
      TripletAction.moves_query h hrun) ()
  | updateEntities now u =>
    exact .bind_pure (.moves hopen (.write_bind _) fun n t' hrun =>
      TripletAction.moves_updateEntities h u hrun) ()
  | updateRelationships now u =>
    exact .bind_pure (.moves hopen (.write_bind _) fun n t' hrun =>
      TripletAction.moves_updateRelationships h u hrun) ()

/-- **Rows can be told apart**, whatever has been done to the tables. -/
theorem exists_tables_of_actions (hopen : store.IsOpen s t) (h : t.IsNumbered)
    (actions : List TripletAction) :
    ∃ t', store.IsOpen (Access.siteAfter (actions.map (TripletAction.run store)) s) t' ∧
      t'.IsNumbered := by
  induction actions generalizing s t with
  | nil => exact ⟨t, hopen, h⟩
  | cons a rest ih =>
    obtain ⟨r, s', t', hrun, hopen', hok, herror⟩ := moves_action hopen h a
    rw [List.map_cons, Access.siteAfter, hrun]
    refine ih hopen' ?_
    cases r with
    | ok u => exact (hok u rfl).isNumbered
    | error e => exact (herror e rfl).isNumbered h

end TripletStore

end GraphBase
