import GraphBase.Proofs.Triplets.Runs

/-!
# The sessions of a client, one by one

To a user who is alone, deleting a fact is one operation.  To several users of one database it is
two: between the session that removes the relationship and the one that looks at its ends, anybody
may have changed anything.  So what a client does is taken apart here into *tasks* of one session
each.  Adding a fact is a task, removing one is a task, and a removal that has found its fact
leaves another task behind, which is to sweep up the ends of the fact.  A deletion is nothing but a
removal and the task that it leaves (`TripletStore.delete_eq`).

A task has a meaning for the fact base (`Task.apply`).  `Task.run_cases` says that a task does what
it means, whatever the tables have become in the meantime, and that the only thing that can keep
it from that is a connection that may not write.  `run_sweep` says of the sweeping which rows it
takes.
-/

namespace GraphBase

/-! ## Sessions that write -/

namespace TripletTables

variable {t : TripletTables} {b : FactBase}

theorem restrained_insertEntity (now name : String) :
    Session.Restrained (insertEntity now name) := .write_bind _

theorem restrained_insertRelationship (now : String) (description : Cell) (subject object : Nat) :
    Session.Restrained (insertRelationship now description subject object) := .write_bind _

theorem restrained_deleteRelationships (p : RelationshipRow → Bool) :
    Session.Restrained (deleteRelationships p) := .write_bind _

theorem restrained_deleteEntities (p : EntityRow → Bool) :
    Session.Restrained (deleteEntities p) := .write_bind _

theorem restrained_getOrCreateEntity (now name : String) :
    Session.Restrained (getOrCreateEntity now name) := by
  refine .get_bind fun t => ?_
  cases t.entity? name with
  | some row => exact .pure _
  | none => exact .bind (restrained_insertEntity now name) fun _ => .pure _

theorem restrained_upsert (now : String) (fact : Fact) : Session.Restrained (upsert now fact) := by
  refine .bind (restrained_getOrCreateEntity now fact.subject) fun ⟨s, _⟩ => ?_
  refine .bind (restrained_getOrCreateEntity now fact.object) fun ⟨o, _⟩ => ?_
  refine .get_bind fun t => ?_
  cases t.relationship? (.text fact.relation) s.id o.id with
  | some r => exact .pure _
  | none => exact .discard (restrained_insertRelationship now _ _ _)

theorem restrained_removeFact (fact : Fact) : Session.Restrained (removeFact fact) :=
  .get_bind fun _ => restrained_deleteRelationships _

theorem restrained_removeUnreferenced (names : List String) :
    Session.Restrained (removeUnreferenced names) := by
  induction names with
  | nil => exact .pure _
  | cons name rest ih =>
    refine .get_bind fun t => ?_
    by_cases hfree : (!t.isReferenced name) = true
    · rw [if_pos hfree]
      refine .bind (.discard (restrained_deleteEntities _)) fun _ => ?_
      exact ih
    · rw [if_neg hfree]
      exact ih

/-- Which entities are swept up with a fact. -/
theorem mem_rows_sweep (h : t.WellFormed) (fact : Fact) {e : EntityRow} :
    e ∈ (t.dropEntities (isLoose [fact.subject, fact.object] t.facts)).entities.rows ↔
      e ∈ t.entities.rows ∧ (fact.hasEnd e.name = true → t.refersTo e.id = true) := by
  simp only [dropEntities, Table.rows_keep, List.mem_filter, Bool.not_eq_true']
  refine and_congr_right fun he => ?_
  rw [not_isLoose_iff, h.refersTo_iff he]

/-- **Sweeping up** does to the names what it means. -/
theorem represents_sweep (h : t.WellFormed) (hb : t.Represents b) (fact : Fact) :
    (t.dropEntities (isLoose [fact.subject, fact.object] t.facts)).Represents (b.sweep fact) := by
  refine ⟨?_, ?_⟩
  · rw [facts_dropEntities h (refersTo_of_isLoose h _), hb.facts]
    rfl
  · ext name
    rw [FactBase.mem_names_sweep, ← hb.names, ← hb.facts, List.mem_toFinset, List.mem_toFinset,
      names, names, List.mem_map, List.mem_map]
    constructor
    · rintro ⟨e, he, rfl⟩
      obtain ⟨hmem, hkept⟩ := (mem_rows_sweep h fact).1 he
      exact ⟨⟨e, hmem, rfl⟩, fun hend => (h.refersTo_iff hmem).1 (hkept hend)⟩
    · rintro ⟨⟨e, he, rfl⟩, hkept⟩
      exact ⟨e, (mem_rows_sweep h fact).2 ⟨he, fun hend => (h.refersTo_iff he).2 (hkept hend)⟩, rfl⟩

end TripletTables

/-! ## Tasks -/

namespace TripletStore

/-- What a client does in one session. -/
inductive Task where
  /-- Adds a fact. -/
  | upsert (now : String) (fact : Fact)
  /-- Removes the relationship of a fact. -/
  | remove (fact : Fact)
  /-- Removes the ends of a fact to which nothing refers. -/
  | sweep (fact : Fact)
  deriving DecidableEq

namespace Task

/-- Runs the session of a task, and answers with the task that is left. -/
def run (store : TripletStore) : Task → Access (Option Task)
  | upsert now fact => do
    store.upsert now fact
    return none
  | remove fact => do
    if (← store.session (TripletTables.removeFact fact)) ≠ 0 then return some (sweep fact)
    else return none
  | sweep fact => do
    store.session (TripletTables.removeUnreferenced [fact.subject, fact.object])
    return none

/-- Whether a task is the beginning of a call. -/
def IsCall : Task → Prop
  | upsert _ _ | remove _ => True
  | sweep _ => False

/-- What a task means for the fact base. -/
def apply : Task → FactBase → FactBase
  | upsert _ fact => FactBase.upsert fact
  | remove fact => FactBase.forget fact
  | sweep fact => FactBase.sweep fact

/-- The task that is left: the ends of a fact that was there. -/
def left (b : FactBase) : Task → Option Task
  | remove fact => if fact ∈ b.facts then some (sweep fact) else none
  | upsert _ _ | sweep _ => none

/-- A task that does nothing to the facts leaves nothing to do. -/
theorem left_eq_none {task : Task} {b : FactBase} (h : (task.apply b).facts = b.facts) :
    task.left b = none := by
  cases task with
  | upsert now fact => rfl
  | remove fact =>
    have hfacts : b.facts.erase fact = b.facts := h
    have hnot : fact ∉ b.facts := hfacts ▸ b.nodup.not_mem_erase
    exact if_neg hnot
  | sweep fact => rfl

end Task

/-- **A deletion is a removal and the task that it leaves.** -/
theorem delete_eq (store : TripletStore) (fact : Fact) :
    store.delete fact = do
      match ← (Task.remove fact).run store with
      | some task => do
        let _ ← task.run store
        return ()
      | none => return () := by
  rw [delete, Task.run, bind_assoc]
  refine bind_congr fun n => ?_
  split_ifs
  · rw [pure_bind]
    simp only [Task.run, bind_assoc, pure_bind]
    exact (bind_pure _).symm
  · rw [pure_bind]

variable {α : Type} {store : TripletStore} {s : Site} {t t' : TripletTables} {b : FactBase}

/-- A session either has the outcome that it has on a connection that may write, or the
connection may not write. -/
theorem session_cases (hopen : store.IsOpen s t) {body : Session TripletTables α}
    (hrestrained : Session.Restrained body) {a : α} (hbody : body none t = .ok (a, t'))
    (hsurroundings : t'.surroundings = t.surroundings) :
    (∃ s', (store.session body).run s = (.ok a, s') ∧ store.IsOpen s' t' ∧
        s'.engine.locator = s.engine.locator ∧
        (s.engine.locator.refusal = none ∨ t' = t)) ∨
      (s.engine.locator.refusal ≠ none ∧ ∃ e, (store.session body).run s = (.error e, s)) := by
  cases hrefusal : s.engine.locator.refusal with
  | none =>
    rw [← hrefusal] at hbody
    obtain ⟨s', hrun, hopen', hlocator⟩ := run_session hopen hbody (.inl hrefusal) hsurroundings
    exact .inl ⟨s', hrun, hopen', hlocator, .inl rfl⟩
  | some f =>
    cases hrefused : body (some f) t with
    | error e =>
      rw [← hrefusal] at hrefused
      exact .inr ⟨Option.some_ne_none f, e, run_session_fails hopen hrefused⟩
    | ok p =>
      obtain ⟨hsame, hfree⟩ := hrestrained f t p.1 p.2 hrefused
      rw [hbody] at hfree
      cases hfree
      obtain ⟨a', t'⟩ := p
      obtain rfl : t' = t := hsame
      rw [← hrefusal] at hrefused
      obtain ⟨s', hrun, hopen', hlocator⟩ := run_session hopen hrefused (.inr rfl) rfl
      exact .inl ⟨s', hrun, hopen', hlocator, .inr rfl⟩

/-- **Sweeping up the ends of a fact** takes the entities at the ends to which nothing refers, and
no others, and leaves the relationships alone. -/
theorem run_sweep (hopen : store.IsOpen s t) (hwf : t.WellFormed)
    (hwrite : s.engine.locator.refusal = none) (fact : Fact) :
    ∃ s' t', ((Task.sweep fact).run store).run s = (.ok none, s') ∧ store.IsOpen s' t' ∧
      t'.relationships = t.relationships ∧
      ∀ e, e ∈ t'.entities.rows ↔
        e ∈ t.entities.rows ∧ (fact.hasEnd e.name = true → t.refersTo e.id = true) := by
  have hbody := TripletTables.run_removeUnreferenced hwf [fact.subject, fact.object]
  rw [← hwrite] at hbody
  obtain ⟨s', hrun, hopen', -⟩ := run_session hopen hbody (.inl hwrite) rfl
  exact ⟨s', _, Access.run_bind_ok hrun, hopen', rfl,
    fun e => TripletTables.mem_rows_sweep hwf fact⟩

/-- **A task does what it means**, whatever the tables are, unless the connection may not
write. -/
theorem Task.run_cases (hopen : store.IsOpen s t) (hwf : t.WellFormed) (hb : t.Represents b)
    (task : Task) :
    (∃ s' t', (task.run store).run s = (.ok (task.left b), s') ∧ store.IsOpen s' t' ∧
        t.Follows t' ∧ t'.Represents (task.apply b) ∧
        s'.engine.locator = s.engine.locator ∧
        (s.engine.locator.refusal = none ∨ t' = t)) ∨
      (s.engine.locator.refusal ≠ none ∧ ∃ e, (task.run store).run s = (.error e, s)) := by
  cases task with
  | upsert now fact =>
    obtain ⟨t', hbody, hfollows, hb'⟩ := TripletTables.run_upsert hwf hb now fact
    have hcases := session_cases hopen (TripletTables.restrained_upsert now fact) hbody
      hfollows.surroundings
    rcases hcases with ⟨s', hrun, hopen', hkept⟩ | ⟨hrefusal, e, hrun⟩
    · exact .inl ⟨s', t', Access.run_bind_ok hrun, hopen', hfollows, hb', hkept⟩
    · exact .inr ⟨hrefusal, e, Access.run_bind_error hrun⟩
  | remove fact =>
    obtain ⟨n, t', hbody, hn, -, hfollows, hentities, hfacts⟩ :=
      TripletTables.run_removeFact hwf fact
    have hcases := session_cases hopen (TripletTables.restrained_removeFact fact) hbody
      hfollows.surroundings
    rcases hcases with ⟨s', hrun, hopen', hkept⟩ | ⟨hrefusal, e, hrun⟩
    · refine .inl ⟨s', t', (Access.run_bind_ok hrun).trans ?_, hopen', hfollows, ⟨?_, ?_⟩, hkept⟩
      · rw [hb.facts] at hn
        by_cases hfact : fact ∈ b.facts
        · rw [if_pos (mt hn.1 (not_not.2 hfact)), left, if_pos hfact]
          rfl
        · rw [if_neg (not_not.2 (hn.2 hfact)), left, if_neg hfact]
          rfl
      · rw [hfacts, hb.facts]
        rfl
      · rw [TripletTables.names, hentities]
        exact hb.names
    · exact .inr ⟨hrefusal, e, Access.run_bind_error hrun⟩
  | sweep fact =>
    have hp := TripletTables.refersTo_of_isLoose hwf [fact.subject, fact.object]
    have hcases := session_cases hopen
      (TripletTables.restrained_removeUnreferenced [fact.subject, fact.object])
      (TripletTables.run_removeUnreferenced hwf _) rfl
    rcases hcases with ⟨s', hrun, hopen', hkept⟩ | ⟨hrefusal, e, hrun⟩
    · exact .inl ⟨s', _, Access.run_bind_ok hrun, hopen', TripletTables.follows_dropEntities hwf hp,
        TripletTables.represents_sweep hwf hb fact, hkept⟩
    · exact .inr ⟨hrefusal, e, Access.run_bind_error hrun⟩

end TripletStore

end GraphBase
