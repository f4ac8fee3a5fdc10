import GraphBase.Proofs.Triplets.Tasks

/-!
# Clients that share a database

Any number of clients work on one triplet database: threads that share a store, or stores that
are opened on the same file.  A *party* is a host with the clients that are there, and with the
tasks that are due, which are the second halves of deletions whose first half is done.  One event
at a time happens to a party (`Party.Step`): another client opens the database, or a client runs
the session of one task.  The task is the beginning of a call or one that is due, and which of
them it is, and whose, is open.  So the runs of a party are all the ways in which the sessions of
its clients can be interleaved.

## What holds at every point

`Party.Holds` is the invariant.  All clients see the same tables, because they are connected to
one place; these tables stand for a fact base; and every name without a fact is an end of a fact
whose ends are due to be swept up.  A task keeps this, whoever runs it: a name loses its last fact
only when that fact is removed, which leaves a task behind, and sweeping up the ends of a fact
takes exactly those of them that have no fact by then.

`Party.finds_of_run` states what a client can see of it (`Party.Finds`).
-/

namespace GraphBase

open TripletStore (Task)

/-- Two clients that know the same tables. -/
def TripletStore.SharesTables (store store' : TripletStore) : Prop :=
  Text.foldCase store.schema.entities = Text.foldCase store'.schema.entities ∧
    Text.foldCase store.schema.relationships = Text.foldCase store'.schema.relationships

/-- A host, the clients that are there, and the tasks that are due. -/
structure Party where
  host : Host
  clients : Nat → Option (TripletStore × Engine)
  due : List (Nat × Task)

/-- One thing that happens to a party. -/
inductive PartyEvent where
  /-- Another client opens the database. -/
  | enter
  /-- The session of a task succeeds. -/
  | run (task : Task)
  /-- The session of a task fails. -/
  | fail (task : Task)

/-- What an event means for the facts: additions and removals that succeed count, and nothing
else does. -/
def PartyEvent.apply (facts : List Fact) : PartyEvent → List Fact
  | run (.upsert _ fact) => if fact ∈ facts then facts else facts ++ [fact]
  | run (.remove fact) => facts.erase fact
  | run (.sweep _) | fail _ | enter => facts

/-- The facts that a sequence of events leads to. -/
def factsAfter (events : List PartyEvent) : List Fact := events.foldl PartyEvent.apply []

namespace Party

/-- The party with a client on a site, and with some tasks that are due. -/
def seat (p : Party) (i : Nat) (store : TripletStore) (s : Site) (due : List (Nat × Task)) :
    Party where
  host := s.host
  clients := Function.update p.clients i (some (store, s.engine))
  due := due

/-- A party of one client. -/
def alone (store : TripletStore) (s : Site) : Party :=
  seat ⟨s.host, fun _ => none, []⟩ 0 store s []

/-- The party after a client has run the session of a task. -/
def after (p : Party) (i : Nat) (store : TripletStore) (s : Site) (task : Task)
    (left : Option Task) : Party :=
  p.seat i store s (left.toList.map (fun task => (i, task)) ++ p.due.erase (i, task))

section Seat

variable {p : Party} {i j : Nat} {store store' : TripletStore} {s : Site} {engine' : Engine}
  {due : List (Nat × Task)}

theorem clients_seat_self : (p.seat i store s due).clients i = some (store, s.engine) :=
  Function.update_self _ _ _

theorem clients_seat_of_ne (hne : j ≠ i) : (p.seat i store s due).clients j = p.clients j :=
  Function.update_of_ne hne _ _

/-- Who is there: the client on the site, and the others as before. -/
theorem clients_seat_eq_some (h : (p.seat i store s due).clients j = some (store', engine')) :
    (j = i ∧ store' = store ∧ engine' = s.engine) ∨
      (j ≠ i ∧ p.clients j = some (store', engine')) := by
  by_cases hji : j = i
  · subst hji
    rw [clients_seat_self] at h
    cases h
    exact .inl ⟨rfl, rfl, rfl⟩
  · rw [clients_seat_of_ne hji] at h
    exact .inr ⟨hji, h⟩

end Seat

/-- How an event changes a party. -/
inductive Step : Party → PartyEvent → Party → Prop
  | enter {p : Party} {i : Nat} {c : StoreConfig} {store : TripletStore} {engine : Engine}
    {host : Host} {path : Path} (hfree : p.clients i = none)
    (hstart : TripletStore.start p.host c = (.ok (store, engine), host))
    (hplace : engine.locator.place = .file path)
    (halike : ∀ j store' engine', p.clients j = some (store', engine') →
      store'.SharesTables store ∧ engine'.locator.place = .file path) :
    Step p .enter (p.seat i store ⟨host, engine⟩ p.due)
  | run {p : Party} {i : Nat} {store : TripletStore} {engine : Engine} (task : Task)
    {left : Option Task} (hclient : p.clients i = some (store, engine))
    (htask : task.IsCall ∨ (i, task) ∈ p.due)
    (hok : ((task.run store).run ⟨p.host, engine⟩).1 = .ok left) :
    Step p (.run task) (p.after i store ((task.run store).run ⟨p.host, engine⟩).2 task left)
  | fail {p : Party} {i : Nat} {store : TripletStore} {engine : Engine} (task : Task)
    {e : Error} (hclient : p.clients i = some (store, engine))
    (htask : task.IsCall ∨ (i, task) ∈ p.due)
    (herror : ((task.run store).run ⟨p.host, engine⟩).1 = .error e) :
    Step p (.fail task) (p.after i store ((task.run store).run ⟨p.host, engine⟩).2 task none)

/-- A sequence of events, one after the other. -/
inductive Run : Party → List PartyEvent → Party → Prop
  | nil (p : Party) : Run p [] p
  | cons {p p' p'' : Party} {e : PartyEvent} {events : List PartyEvent} (hstep : Step p e p')
    (hrun : Run p' events p'') : Run p (e :: events) p''

/-- What the clients of a party find after some events. -/
structure Finds (p : Party) (events : List PartyEvent) (t : TripletTables) : Prop where
  /-- All clients find the same tables. -/
  tables : ∀ i store engine, p.clients i = some (store, engine) →
    store.tables? ⟨p.host, engine⟩ = some t
  wellFormed : t.WellFormed
  /-- The facts are what the additions and removals have made of them. -/
  facts : t.facts = factsAfter events
  /-- What is due is the second half of a deletion. -/
  due : ∀ i task, (i, task) ∈ p.due → ∃ fact, task = .sweep fact
  /-- An entity to which nothing refers is an end of a fact whose deletion is half done. -/
  loose : ∀ e ∈ t.entities.rows, t.refersTo e.id = true ∨
    ∃ i fact, (i, .sweep fact) ∈ p.due ∧ fact.hasEnd e.name = true
  /-- If no deletion is half done, something refers to every entity. -/
  referenced : p.due = [] → ∀ e ∈ t.entities.rows, t.refersTo e.id = true
  /-- The second half of a deletion does not fail.  Of the entities it takes those ends of its
  fact to which nothing refers by now, and it leaves the relationships alone. -/
  sweeps : ∀ i fact, (i, .sweep fact) ∈ p.due → ∃ store engine s' t',
    p.clients i = some (store, engine) ∧
      ((Task.sweep fact).run store).run ⟨p.host, engine⟩ = (.ok none, s') ∧
      store.tables? s' = some t' ∧ t'.relationships = t.relationships ∧
      ∀ e, e ∈ t'.entities.rows ↔
        e ∈ t.entities.rows ∧ (fact.hasEnd e.name = true → t.refersTo e.id = true)
  /-- Nothing fails on a connection that may write. -/
  accepts : ∀ i store engine, p.clients i = some (store, engine) →
    engine.locator.refusal = none → ∀ task, ∃ left s',
      ((Task.run store task).run ⟨p.host, engine⟩) = (.ok left, s')

end Party

/-! ## Clients of one file -/

namespace TripletStore

variable {store store' : TripletStore} {host host' : Host} {engine engine' : Engine} {path : Path}
  {t : TripletTables}

/-- Clients that know the same tables find the same in a database. -/
theorem SharesTables.tripletTables?_eq (h : store.SharesTables store') (db : Database) :
    db.tripletTables? store.schema = db.tripletTables? store'.schema := by
  rw [Database.tripletTables?, Database.tripletTables?, h.1, h.2]

theorem SharesTables.symm (h : store.SharesTables store') : store'.SharesTables store :=
  ⟨h.1.symm, h.2.symm⟩

theorem SharesTables.trans {store'' : TripletStore} (h : store.SharesTables store')
    (h' : store'.SharesTables store'') : store.SharesTables store'' :=
  ⟨h.1.trans h'.1, h.2.trans h'.2⟩

/-- **What one client of a file finds there, any other client finds as well.** -/
theorem isOpen_of_sharesTables (hopen : store.IsOpen ⟨host, engine⟩ t)
    (hshares : store.SharesTables store') (hplace : engine.locator.place = .file path)
    (hplace' : engine'.locator.place = .file path) (hready : Engine.IsReady ⟨host', engine'⟩) :
    store'.IsOpen ⟨host, engine'⟩ t := by
  obtain ⟨db, hdb, htables⟩ := exists_database hopen.tables
  refine ⟨⟨hready.healthy, hready.fresh, fun name hshared => ?_⟩, ?_⟩
  · rw [hplace'] at hshared
    cases hshared
  · have hdb' : Engine.database ⟨host, engine'⟩ = .ok db := by
      rw [← hdb, Engine.database, Engine.database, Engine.content, Engine.content, hplace, hplace']
    rw [tables?_eq hdb', ← hshares.tripletTables?_eq, htables]

/-- **Who opens the file of a client finds the same tables.** -/
theorem isOpen_of_start_file {c : StoreConfig} (hopen : store.IsOpen ⟨host, engine⟩ t)
    (hshares : store.SharesTables store') (hplace : engine.locator.place = .file path)
    (hstart : TripletStore.start host c = (.ok (store', engine'), host'))
    (hplace' : engine'.locator.place = .file path) : store'.IsOpen ⟨host', engine'⟩ t := by
  obtain ⟨db, hdb, htables⟩ := exists_database hopen.tables
  rw [hshares.tripletTables?_eq] at htables
  rw [Engine.database, Engine.content, hplace] at hdb
  simp only at hdb
  cases hfile : host.file? path with
  | none =>
    rw [hfile] at hdb
    cases hdb
  | some content =>
    rw [hfile] at hdb
    obtain ⟨db₁, db₂, hcontent, hsetup, hdb₂⟩ := Engine.database_of_start_file
      (start_eq_ok hstart) c.poolRecycle_ne_some_zero hplace' hfile
    obtain rfl : db = db₁ := Except.ok.inj (hdb.symm.trans hcontent)
    obtain rfl := Database.createTriplets_of_tables htables hsetup
    refine isOpen_of_start hstart ?_
    rw [tables?_eq hdb₂, ite_self]
    exact htables

end TripletStore

namespace Party

/-! ## The invariant -/

/-- The clients know the same tables, and if there are several of them, these are in a file. -/
def Alike (p : Party) : Prop :=
  ∀ i j store engine store' engine', i ≠ j → p.clients i = some (store, engine) →
    p.clients j = some (store', engine') → store.SharesTables store' ∧
      ∃ path, engine.locator.place = .file path ∧ engine'.locator.place = .file path

/-- Every name has a fact, or it is an end of a fact whose ends are due to be swept up. -/
def SweepsUp (due : List (Nat × Task)) (b : FactBase) : Prop :=
  ∀ name ∈ b.names, (∃ f ∈ b.facts, f.hasEnd name = true) ∨
    ∃ i fact, (i, .sweep fact) ∈ due ∧ fact.hasEnd name = true

/-- What holds of a party at every point. -/
structure Holds (p : Party) (t : TripletTables) (b : FactBase) : Prop where
  someone : ∃ i, (p.clients i).isSome
  isOpen : ∀ i store engine, p.clients i = some (store, engine) → store.IsOpen ⟨p.host, engine⟩ t
  alike : p.Alike
  wellFormed : t.WellFormed
  represents : t.Represents b
  due : ∀ i task, (i, task) ∈ p.due → (∃ fact, task = .sweep fact) ∧
    ∃ store engine, p.clients i = some (store, engine) ∧ engine.locator.refusal = none
  sweepsUp : SweepsUp p.due b

variable {p p' : Party} {t t' : TripletTables} {b b' : FactBase} {i : Nat} {store : TripletStore}
  {engine : Engine} {s : Site} {task : Task}

/-! ## What is due -/

/-- **A task leaves no name behind** that has no fact and is not due. -/
theorem SweepsUp.after_task {due : List (Nat × Task)} (h : SweepsUp due b) (i : Nat) (task : Task) :
    SweepsUp ((task.left b).toList.map (fun task => (i, task)) ++ due.erase (i, task))
      (task.apply b) := by
  intro name hname
  cases task with
  | upsert now fact =>
    have hfact : fact ∈ (b.upsert fact).facts := by
      by_cases hmem : fact ∈ b.facts
      · rwa [FactBase.facts_upsert_of_mem hmem]
      · rw [FactBase.facts_upsert_of_notMem hmem]
        exact List.mem_append_right _ (List.mem_singleton_self fact)
    have hold : ∀ f ∈ b.facts, f ∈ (b.upsert fact).facts := by
      intro f hf
      by_cases hmem : fact ∈ b.facts
      · rwa [FactBase.facts_upsert_of_mem hmem]
      · rw [FactBase.facts_upsert_of_notMem hmem]
        exact List.mem_append_left _ hf
    rcases Finset.mem_insert.1 hname with rfl | hname
    · exact .inl ⟨fact, hfact, by simp [Fact.hasEnd]⟩
    · rcases Finset.mem_insert.1 hname with rfl | hname
      · exact .inl ⟨fact, hfact, by simp [Fact.hasEnd]⟩
      · refine (h name hname).imp ?_ ?_
        · rintro ⟨f, hf, hend⟩
          exact ⟨f, hold f hf, hend⟩
        · rintro ⟨j, f, hdue, hend⟩
          refine ⟨j, f, List.mem_append_right _ ((List.mem_erase_of_ne ?_).2 hdue), hend⟩
          rintro ⟨⟩
  | remove fact =>
    by_cases hlast : ∃ f ∈ b.facts.erase fact, f.hasEnd name = true
    · exact .inl hlast
    · -- the name has lost its last fact, so that fact was removed just now
      refine .inr ?_
      rcases h name hname with ⟨f, hf, hend⟩ | ⟨j, f, hdue, hend⟩
      · obtain rfl : f = fact := by
          by_contra hne
          exact hlast ⟨f, (List.mem_erase_of_ne hne).2 hf, hend⟩
        refine ⟨i, f, List.mem_append_left _ ?_, hend⟩
        rw [Task.left, if_pos hf]
        exact List.mem_singleton_self _
      · refine ⟨j, f, List.mem_append_right _ ((List.mem_erase_of_ne ?_).2 hdue), hend⟩
        rintro ⟨⟩
  | sweep fact =>
    obtain ⟨hname, hkept⟩ := FactBase.mem_names_sweep.1 hname
    rcases h name hname with hfact | ⟨j, f, hdue, hend⟩
    · exact .inl hfact
    · by_cases hsame : (j, Task.sweep f) = (i, Task.sweep fact)
      · obtain ⟨-, hf⟩ := Prod.mk.inj hsame
        rw [Task.sweep.inj hf] at hend
        exact .inl (hkept hend)
      · exact .inr ⟨j, f, List.mem_append_right _ ((List.mem_erase_of_ne hsame).2 hdue), hend⟩

/-- What a task means for the facts. -/
theorem facts_apply (task : Task) (b : FactBase) :
    (task.apply b).facts = (PartyEvent.run task).apply b.facts := by
  cases task with
  | upsert now fact => rfl
  | remove fact => rfl
  | sweep fact => rfl

/-! ## One event -/

theorem alike_after (halike : p.Alike) (hclient : p.clients i = some (store, engine))
    (hplace : s.engine.locator = engine.locator) (left : Option Task) :
    (p.after i store s task left).Alike := by
  have hold : ∀ j store' engine', (p.after i store s task left).clients j =
      some (store', engine') → ∃ engine₀, p.clients j = some (store', engine₀) ∧
        engine'.locator = engine₀.locator := by
    intro j store' engine' hj
    rcases clients_seat_eq_some hj with ⟨rfl, rfl, rfl⟩ | ⟨-, hj⟩
    · exact ⟨engine, hclient, hplace⟩
    · exact ⟨engine', hj, rfl⟩
  intro j k store₁ engine₁ store₂ engine₂ hne hj hk
  obtain ⟨engine₁', hj', hlocator₁⟩ := hold j store₁ engine₁ hj
  obtain ⟨engine₂', hk', hlocator₂⟩ := hold k store₂ engine₂ hk
  rw [hlocator₁, hlocator₂]
  exact halike j k store₁ engine₁' store₂ engine₂' hne hj' hk'

/-- **All clients see what one of them has done.** -/
theorem isOpen_after (h : p.Holds t b) (hclient : p.clients i = some (store, engine))
    (hopen : store.IsOpen s t') (hlocator : s.engine.locator = engine.locator)
    (left : Option Task) :
    ∀ j store' engine', (p.after i store s task left).clients j = some (store', engine') →
      store'.IsOpen ⟨s.host, engine'⟩ t' := by
  intro j store' engine' hj
  rcases clients_seat_eq_some hj with ⟨rfl, rfl, rfl⟩ | ⟨hji, hj⟩
  · exact hopen
  · obtain ⟨hshares, path, hplace, hplace'⟩ :=
      h.alike i j store engine store' engine' (Ne.symm hji) hclient hj
    rw [← hlocator] at hplace
    exact TripletStore.isOpen_of_sharesTables hopen hshares hplace hplace'
      (h.isOpen j store' engine' hj).ready

/-- **A task keeps what holds.** -/
theorem holds_task (h : p.Holds t b) (hclient : p.clients i = some (store, engine))
    (hopen : store.IsOpen s t') (hfollows : t.Follows t') (hb : t'.Represents (task.apply b))
    (hlocator : s.engine.locator = engine.locator)
    (hleft : task.left b = none ∨ engine.locator.refusal = none) :
    (p.after i store s task (task.left b)).Holds t' (task.apply b) := by
  refine ⟨⟨i, ?_⟩, isOpen_after h hclient hopen hlocator _, alike_after h.alike hclient hlocator _,
    hfollows.wellFormed, hb, fun j task' hdue => ?_, h.sweepsUp.after_task i task⟩
  · rw [after, clients_seat_self]
    rfl
  · have hwriter : ∀ k store₀ engine₀, p.clients k = some (store₀, engine₀) →
        engine₀.locator.refusal = none →
          ∃ store₁ engine₁, (p.after i store s task (task.left b)).clients k =
            some (store₁, engine₁) ∧ engine₁.locator.refusal = none := by
      intro k store₀ engine₀ hk hwrite
      by_cases hki : k = i
      · subst hki
        rw [hclient] at hk
        obtain ⟨rfl, rfl⟩ := Prod.mk.inj (Option.some.inj hk)
        exact ⟨store, s.engine, clients_seat_self, by rw [hlocator, hwrite]⟩
      · exact ⟨store₀, engine₀, (clients_seat_of_ne hki).trans hk, hwrite⟩
    rcases List.mem_append.1 hdue with hnew | hold
    · obtain ⟨task'', hmem, heq⟩ := List.mem_map.1 hnew
      obtain ⟨rfl, rfl⟩ := Prod.mk.inj heq
      have hsome : task.left b = some task'' := Option.mem_toList.1 hmem
      have hwrite := hleft.resolve_left (by rw [hsome]; exact Option.some_ne_none _)
      refine ⟨?_, hwriter i store engine hclient hwrite⟩
      cases task with
      | remove fact =>
        rw [Task.left] at hsome
        split_ifs at hsome
        exact ⟨fact, (Option.some.inj hsome).symm⟩
      | upsert now fact => cases hsome
      | sweep fact => cases hsome
    · obtain ⟨hsweep, store₀, engine₀, hk, hwrite⟩ := h.due j task' (List.mem_of_mem_erase hold)
      exact ⟨hsweep, hwriter j store₀ engine₀ hk hwrite⟩

/-- **A task that is refused keeps what holds.** -/
theorem holds_refused (h : p.Holds t b) (hclient : p.clients i = some (store, engine))
    (hrefusal : engine.locator.refusal ≠ none) :
    (p.after i store ⟨p.host, engine⟩ task none).Holds t b := by
  have hnot : (i, task) ∉ p.due := by
    intro hdue
    obtain ⟨-, store₀, engine₀, hk, hwrite⟩ := h.due i task hdue
    rw [hclient] at hk
    cases hk
    exact hrefusal hwrite
  have hsame : p.after i store ⟨p.host, engine⟩ task none = p := by
    rw [after, seat, List.erase_of_not_mem hnot, ← hclient, Function.update_eq_self]
    rfl
  rw [hsame]
  exact h

/-- **Another client keeps what holds.** -/
theorem holds_enter {c : StoreConfig} {host : Host} {path : Path} (h : p.Holds t b)
    (hfree : p.clients i = none)
    (hstart : TripletStore.start p.host c = (.ok (store, engine), host))
    (hplace : engine.locator.place = .file path)
    (halike : ∀ j store' engine', p.clients j = some (store', engine') →
      store'.SharesTables store ∧ engine'.locator.place = .file path) :
    (p.seat i store ⟨host, engine⟩ p.due).Holds t b := by
  obtain ⟨k, hk⟩ := h.someone
  obtain ⟨⟨store₀, engine₀⟩, hk⟩ := Option.isSome_iff_exists.1 hk
  obtain ⟨hshares₀, hplace₀⟩ := halike k store₀ engine₀ hk
  have hopen : store.IsOpen ⟨host, engine⟩ t :=
    TripletStore.isOpen_of_start_file (h.isOpen k store₀ engine₀ hk) hshares₀ hplace₀ hstart hplace
  have hthere : ∀ j store' engine',
      (p.seat i store ⟨host, engine⟩ p.due).clients j = some (store', engine') →
        store'.SharesTables store ∧ engine'.locator.place = .file path ∧
          ∃ host', Engine.IsReady ⟨host', engine'⟩ := by
    intro j store' engine' hj
    rcases clients_seat_eq_some hj with ⟨rfl, rfl, rfl⟩ | ⟨-, hj⟩
    · exact ⟨⟨rfl, rfl⟩, hplace, host, hopen.ready⟩
    · obtain ⟨hshares, hplace'⟩ := halike j store' engine' hj
      exact ⟨hshares, hplace', p.host, (h.isOpen j store' engine' hj).ready⟩
  refine ⟨⟨i, ?_⟩, fun j store' engine' hj => ?_,
    fun j l store₁ engine₁ store₂ engine₂ hne hj hl => ?_, h.wellFormed, h.represents,
    fun j task hdue => ?_, h.sweepsUp⟩
  · rw [clients_seat_self]
    rfl
  · obtain ⟨hshares, hplace', host', hready⟩ := hthere j store' engine' hj
    exact TripletStore.isOpen_of_sharesTables hopen hshares.symm hplace hplace' hready
  · obtain ⟨hshares₁, hplace₁, -⟩ := hthere j store₁ engine₁ hj
    obtain ⟨hshares₂, hplace₂, -⟩ := hthere l store₂ engine₂ hl
    exact ⟨hshares₁.trans hshares₂.symm, path, hplace₁, hplace₂⟩
  · obtain ⟨hsweep, store', engine', hj, hwrite⟩ := h.due j task hdue
    refine ⟨hsweep, store', engine', ?_, hwrite⟩
    refine (clients_seat_of_ne ?_).trans hj
    rintro rfl
    rw [hfree] at hj
    cases hj

/-- **An event keeps what holds**, and does to the facts what it means. -/
theorem holds_of_step {e : PartyEvent} (hstep : Step p e p') (h : p.Holds t b) :
    ∃ t' b', p'.Holds t' b' ∧ b'.facts = e.apply b.facts := by
  cases hstep with
  | enter hfree hstart hplace halike =>
    exact ⟨t, b, holds_enter h hfree hstart hplace halike, rfl⟩
  | @run i store engine task left hclient htask hok =>
    have hopen := h.isOpen i store engine hclient
    rcases Task.run_cases hopen h.wellFormed h.represents task with
      ⟨s', t', hrun, hopen', hfollows, hb, hlocator, hkept⟩ | ⟨hrefusal, e, hrun⟩
    · rw [hrun] at hok ⊢
      obtain rfl : task.left b = left := Except.ok.inj hok
      refine ⟨t', task.apply b, ?_, facts_apply task b⟩
      refine holds_task h hclient hopen' hfollows hb hlocator ?_
      rcases hkept with hwrite | rfl
      · exact .inr hwrite
      · exact .inl (Task.left_eq_none (hb.facts.symm.trans h.represents.facts))
    · rw [hrun] at hok
      cases hok
  | @fail i store engine task e hclient htask herror =>
    have hopen := h.isOpen i store engine hclient
    rcases Task.run_cases hopen h.wellFormed h.represents task with
      ⟨s', t', hrun, -⟩ | ⟨hrefusal, e', hrun⟩
    · rw [hrun] at herror
      cases herror
    · rw [hrun]
      exact ⟨t, b, holds_refused h hclient hrefusal, rfl⟩

/-- **A run keeps what holds.** -/
theorem holds_of_run {events : List PartyEvent} (hrun : Run p events p') (h : p.Holds t b) :
    ∃ t' b', p'.Holds t' b' ∧ b'.facts = events.foldl PartyEvent.apply b.facts := by
  induction hrun generalizing t b with
  | nil p => exact ⟨t, b, h, rfl⟩
  | cons hstep _ ih =>
    obtain ⟨t₁, b₁, h₁, hfacts₁⟩ := holds_of_step hstep h
    obtain ⟨t₂, b₂, h₂, hfacts₂⟩ := ih h₁
    exact ⟨t₂, b₂, h₂, by rw [hfacts₂, hfacts₁, List.foldl_cons]⟩

/-! ## What the clients find -/

theorem holds_alone (hopen : store.IsOpen s t) (hnew : t.IsNew) :
    (alone store s).Holds t .empty := by
  have hone : ∀ j store' engine', (alone store s).clients j = some (store', engine') →
      j = 0 ∧ store' = store ∧ engine' = s.engine := by
    intro j store' engine' hj
    rcases clients_seat_eq_some hj with hzero | ⟨-, hj⟩
    · exact hzero
    · cases hj
  refine ⟨⟨0, rfl⟩, fun j store' engine' hj => ?_,
    fun j k store₁ engine₁ store₂ engine₂ hne hj hk => ?_, hnew.wellFormed, hnew.represents,
    fun j task hdue => ?_, fun name hname => ?_⟩
  · obtain ⟨-, rfl, rfl⟩ := hone j store' engine' hj
    exact hopen
  · obtain ⟨rfl, -, -⟩ := hone j store₁ engine₁ hj
    obtain ⟨rfl, -, -⟩ := hone k store₂ engine₂ hk
    exact absurd rfl hne
  · exact absurd hdue List.not_mem_nil
  · exact absurd hname (Finset.notMem_empty name)

theorem Holds.finds {events : List PartyEvent} (h : p.Holds t b)
    (hfacts : b.facts = factsAfter events) : p.Finds events t := by
  have hloose : ∀ e ∈ t.entities.rows, t.refersTo e.id = true ∨
      ∃ i fact, (i, .sweep fact) ∈ p.due ∧ fact.hasEnd e.name = true := by
    intro e he
    have hname : e.name ∈ b.names := by
      rw [← h.represents.names, List.mem_toFinset]
      exact List.mem_map_of_mem he
    rw [h.wellFormed.refersTo_iff he, h.represents.facts]
    exact h.sweepsUp e.name hname
  refine ⟨fun i store engine hi => (h.isOpen i store engine hi).tables, h.wellFormed,
    h.represents.facts.trans hfacts, fun i task hdue => (h.due i task hdue).1, hloose,
    fun hnone e he => ?_, fun i fact hdue => ?_, fun i store engine hi hwrite task => ?_⟩
  · refine (hloose e he).resolve_right ?_
    rintro ⟨i, fact, hdue, -⟩
    rw [hnone] at hdue
    exact absurd hdue List.not_mem_nil
  · obtain ⟨-, store, engine, hi, hwrite⟩ := h.due i _ hdue
    obtain ⟨s', t', hrun, hopen', hrelationships, hrows⟩ :=
      TripletStore.run_sweep (h.isOpen i store engine hi) h.wellFormed hwrite fact
    exact ⟨store, engine, s', t', hi, hrun, hopen'.tables, hrelationships, hrows⟩
  · rcases Task.run_cases (h.isOpen i store engine hi) h.wellFormed h.represents task with
      ⟨s', t', hrun, -⟩ | ⟨hrefusal, -⟩
    · exact ⟨_, s', hrun⟩
    · exact absurd hwrite hrefusal

/-- **No entity is left over, and none is taken too early**, however the sessions of the clients
of a new store are interleaved. -/
theorem finds_of_run {h host : Host} {c : StoreConfig} {t₀ : TripletTables}
    {events : List PartyEvent} (hstart : TripletStore.start h c = (.ok (store, engine), host))
    (htables : store.tables? ⟨host, engine⟩ = some t₀) (hnew : t₀.IsNew)
    (hrun : Run (alone store ⟨host, engine⟩) events p) : ∃ t, p.Finds events t := by
  have halone := holds_alone (TripletStore.isOpen_of_start hstart htables) hnew
  obtain ⟨t, b, hholds, hfacts⟩ := holds_of_run hrun halone
  exact ⟨t, hholds.finds hfacts⟩

/-- Two clients of one file. -/
def pair : Party := (alone ⟨{}⟩ TripletStore.fileSite).seat 1 ⟨{}⟩ TripletStore.fileSite []

theorem step_pair : Step (alone ⟨{}⟩ TripletStore.fileSite) .enter pair := by
  refine .enter rfl TripletStore.restart_fileSite rfl fun j store' engine' hj => ?_
  rcases clients_seat_eq_some hj with ⟨-, rfl, rfl⟩ | ⟨-, hj⟩
  · exact ⟨⟨rfl, rfl⟩, rfl⟩
  · cases hj

/-- Between the halves of a deletion, the other client adds a fact with the same subject. -/
theorem finds_of_run_pair : ∃ (p : Party) (t : TripletTables),
    p.due = [(0, Task.sweep ⟨"A", "r", "B"⟩)] ∧
      p.Finds [.enter, .run (.upsert "now" ⟨"A", "r", "B"⟩), .run (.remove ⟨"A", "r", "B"⟩),
        .run (.upsert "now" ⟨"A", "s", "C"⟩)] t := by
  obtain ⟨t, ht⟩ := finds_of_run TripletStore.start_fileSite TripletStore.tables?_fileSite
    ⟨rfl, rfl, rfl, rfl⟩ <|
      .cons step_pair <|
      .cons (@Step.run _ 0 _ _ (.upsert "now" ⟨"A", "r", "B"⟩) none rfl (.inl trivial)
        (by decide +kernel)) <|
      .cons (@Step.run _ 0 _ _ (.remove ⟨"A", "r", "B"⟩) (some (.sweep ⟨"A", "r", "B"⟩)) rfl
        (.inl trivial) (by decide +kernel)) <|
      .cons (@Step.run _ 1 _ _ (.upsert "now" ⟨"A", "s", "C"⟩) none rfl (.inl trivial)
        (by decide +kernel)) (.nil _)
  exact ⟨_, t, rfl, ht⟩

end Party

end GraphBase
