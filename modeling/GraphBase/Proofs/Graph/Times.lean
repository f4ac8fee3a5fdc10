import GraphBase.Graph.Direct
import GraphBase.Proofs.Connection.Undoing
import GraphBase.Proofs.Graph.Effects
import GraphBase.Proofs.Graph.Loading
import GraphBase.Proofs.Storage.Times

/-!
# The times in a property graph

An *action* is anything that may be done to a property graph: a call to its store, or a statement
that goes around it and changes rows directly (`PropertyAction`).  This file says of every action
how it moves the times of the rows (`PropertyStore.moves_action`).

* A batch of nodes moves the time of the last change of the rows of its nodes, and a batch of
  relations that of the rows of its relations.  The ends of a relation are looked up, and made if
  they are missing, but a row that is there is not changed by being looked up.
* Reading and deleting move nothing.
* A direct change moves the times of the rows that it selects, and no others.

The time of an insertion stays what it is, unless somebody writes to it (`PropertyAction.created_eq`).

## Whose rows

Rows may have been written by anybody, and need not make sense.  All that is asked of the tables is
what the database itself sees to (`GraphTables.IsConstrained`), since rows could not be told apart
otherwise.  Every action leads to such tables again, and so do many of them
(`PropertyStore.exists_tables_of_actions`).
-/

namespace GraphBase

open GraphTables (addRow putRow addRelation)

/-- The times of a node row. -/
def NodeRow.times (n : NodeRow) : Times := ⟨n.createdAt, n.updatedAt⟩

/-- The times of a relation row. -/
def RelationRow.times (r : RelationRow) : Times := ⟨r.createdAt, r.updatedAt⟩

/-- A statement that changes nodes, but no identities. -/
abbrev NodeUpdate := RowUpdate NodeRow.id

/-- A statement that changes relations, but neither numbers nor labels and ends. -/
abbrev RelationUpdate := RowUpdate fun r : RelationRow => (r.id, r.key)

/-- What may be done to a property graph. -/
inductive PropertyAction where
  | call (c : PropertyCall)
  | pathRows (seeds : List Node) (depth limit : Nat)
  | structuredQuery (query : String)
  | contents
  | updateNodes (now : String) (u : NodeUpdate)
  | updateRelations (now : String) (u : RelationUpdate)
  | setProperties (now id : String) (text : Option String)
  | setRelationProperties (now label : String) (text : Option String)
  | setEmbedding (now id : String) (cell : Cell)
  | stamp (now id : String) (created updated : Option String)
  | removeRow (id : String)

namespace PropertyAction

/-- Runs an action; the answer is not looked at. -/
def run (store : PropertyStore) : PropertyAction → Access Unit
  | call c => c.run store
  | pathRows seeds depth limit => do
    let _ ← store.pathRows seeds depth limit
    return ()
  | structuredQuery query => do
    let _ ← store.structuredQuery query
    return ()
  | contents => do
    let _ ← store.session (Session.readsOk GraphTables.contents)
    return ()
  | updateNodes now u => do
    let _ ← store.session (GraphTables.updateNodes now u.selects u.write)
    return ()
  | updateRelations now u => do
    let _ ← store.session (GraphTables.updateRelations now u.selects u.write)
    return ()
  | setProperties now id text => do
    let _ ← store.session (GraphTables.setProperties now id text)
    return ()
  | setRelationProperties now label text => do
    let _ ← store.session (GraphTables.setRelationProperties now label text)
    return ()
  | setEmbedding now id cell => do
    let _ ← store.session (GraphTables.setEmbedding now id cell)
    return ()
  | stamp now id created updated => do
    let _ ← store.session (GraphTables.stamp now id created updated)
    return ()
  | removeRow id => do
    let _ ← store.session (GraphTables.removeRow id)
    return ()

/-- The time at which an action inserts rows, if it is one that does. -/
def clock : PropertyAction → Option String
  | call (.upsertNodes now _) | call (.upsertRelations now _) | call (.getOrCreateNode now _) =>
    some now
  | _ => none

/-- The times of a node that was there, after an action. -/
def nodeTimes : PropertyAction → NodeRow → Times
  | call (.upsertNodes now batch), n =>
    if ∃ node ∈ batch, node.id = n.id then ⟨n.createdAt, now⟩ else n.times
  | updateNodes now u, n => u.after NodeRow.times now n
  | setProperties now id (some _), n | setEmbedding now id _, n =>
    if n.id = id then ⟨n.createdAt, now⟩ else n.times
  | stamp now id (some created) (some updated), n =>
    if n.id = id then ⟨created, touched now n.updatedAt updated⟩ else n.times
  | _, n => n.times

/-- The times of a relation that was there, after an action. -/
def relationTimes : PropertyAction → RelationRow → Times
  | call (.upsertRelations now batch), r =>
    if ∃ x ∈ batch, x.key = r.key then ⟨r.createdAt, now⟩ else r.times
  | updateRelations now u, r => u.after RelationRow.times now r
  | setRelationProperties now label (some _), r =>
    if r.label = label then ⟨r.createdAt, now⟩ else r.times
  | _, r => r.times

/-- Whether an action may write to the times itself. -/
def mayWriteTimes : PropertyAction → Bool
  | updateNodes _ _ | updateRelations _ _ | stamp _ _ _ _ => true
  | _ => false

/-- An action has moved the times as it should, and left tables behind in which rows can be told
apart. -/
structure Moves (a : PropertyAction) (t t' : GraphTables) : Prop where
  isConstrained : t'.IsConstrained
  nodes : TimesMove NodeRow.id NodeRow.times a.clock a.nodeTimes t.nodes t'.nodes
  relations : TimesMove RelationRow.id RelationRow.times a.clock a.relationTimes
    t.relations.rows t'.relations.rows

end PropertyAction

/-- The times of a row after several items have been written, each to the rows of its key. -/
theorem times_putAll_putAt {ρ ι κ : Type} [DecidableEq κ] {key : ρ → κ} {keyOf : ι → κ}
    {write : ι → ρ → ρ} {times : ρ → Times} {now : String}
    (htimes : ∀ i x, times (write i x) = ⟨(times x).created, now⟩) (items : List ι) (x : ρ) :
    times (putAll (putAt key keyOf write) items x) =
      if ∃ i ∈ items, keyOf i = key x then ⟨(times x).created, now⟩ else times x := by
  induction items generalizing x with
  | nil => exact (if_neg fun ⟨_, hi, _⟩ => List.not_mem_nil hi).symm
  | cons i rest ih =>
    refine (ih (putAt key keyOf write i x)).trans ?_
    rw [if_congr (List.exists_mem_cons_iff _ i rest) rfl rfl]
    by_cases h : key x = keyOf i
    · rw [putAt_of_eq h, htimes, ite_self, if_pos (.inl h.symm)]
    · rw [putAt_of_ne h, if_congr (or_iff_right (Ne.symm h)) rfl rfl]

namespace GraphTables

variable {t t' : GraphTables} {now : String}

/-! ## What the database sees to -/

/-- Rows are gone, and nothing else has happened. -/
structure Shrinks (t t' : GraphTables) : Prop where
  nodes : t'.nodes.Sublist t.nodes
  relations : t.relations.Shrinks t'.relations

theorem Shrinks.refl (t : GraphTables) : t.Shrinks t := ⟨.refl _, .refl _⟩

namespace IsConstrained

variable (h : t.IsConstrained)

include h

theorem shrink (hshrinks : t.Shrinks t') : t'.IsConstrained :=
  ⟨h.ids_nodup.sublist (hshrinks.nodes.map _), hshrinks.relations.numbered h.relations,
    h.keys_nodup.sublist (hshrinks.relations.rows.map _)⟩

theorem mapNodes {f : NodeRow → NodeRow} (hid : ∀ n, (f n).id = n.id) :
    IsConstrained { t with nodes := t.nodes.map f } := by
  refine ⟨?_, h.relations, h.keys_nodup⟩
  rw [ids, List.map_map, show NodeRow.id ∘ f = NodeRow.id from funext hid]
  exact h.ids_nodup

theorem mapRelations {f : RelationRow → RelationRow} (hid : ∀ r, (f r).id = r.id)
    (hkey : ∀ r, (f r).key = r.key) :
    IsConstrained { t with relations := t.relations.mapRows f } := by
  refine ⟨h.ids_nodup, h.relations.mapRows hid, ?_⟩
  rw [Table.rows_mapRows, List.map_map, show RelationRow.key ∘ f = RelationRow.key from funext hkey]
  exact h.keys_nodup

theorem addRows (now : String) (new : List String) :
    IsConstrained { t with nodes := new.foldl (addRow now) t.nodes } := by
  refine ⟨?_, h.relations, h.keys_nodup⟩
  rw [ids, ids_foldl_addRow]
  exact nodup_foldl_addNew h.ids_nodup new

theorem putRelations (now : String) (batch : List Relation) :
    IsConstrained {
      nodes := (batch.flatMap Relation.ends).foldl (addRow now) t.nodes
      relations := batch.foldl (GraphTables.putRelation now) t.relations } := by
  induction batch generalizing t with
  | nil => exact h
  | cons r rest ih =>
    rw [List.flatMap_cons, List.foldl_append, List.foldl_cons]
    exact ih (h.putRelation now r)

end IsConstrained

/-! ## Rows that are made -/

/-- Rows that are made for identities are fresh, and the others have been there. -/
theorem mem_or_fresh_foldl_addRow (now : String) (new : List String) (rows : List NodeRow) :
    ∀ n ∈ new.foldl (addRow now) rows,
      n ∈ rows ∨ n.id ∉ rows.map NodeRow.id ∧ n.times = .fresh now := by
  intro n hn
  rw [foldl_addRow] at hn
  refine (List.mem_append.1 hn).imp_right fun hn => ?_
  obtain ⟨id, hid, rfl⟩ := List.mem_map.1 hn
  exact ⟨(mem_newcomers.1 hid).2, rfl⟩

theorem gains_foldl_addRelation {relations : Table RelationRow}
    (h : relations.Numbered RelationRow.id) (now : String) (batch : List Relation) :
    relations.Gains RelationRow.id RelationRow.times now
      (batch.foldl (addRelation now) relations) := by
  induction batch using List.reverseRecOn with
  | nil => exact .refl h
  | append_singleton rest r ih =>
    rw [List.foldl_append, List.foldl_cons, List.foldl_nil, addRelation]
    split_ifs
    · exact ih
    · exact ih.append rfl rfl

/-! ## Rows that are gone -/

theorem shrinks_deleteRows (p : NodeRow → Bool) : Session.Keeps t.Shrinks (deleteRows p) := by
  rw [deleteRows]
  refine .bind .write fun _ => .get_bind fun t₁ ht => ?_
  have hkept : t.Shrinks { t₁ with nodes := t₁.nodes.filter fun n => !p n } :=
    ⟨List.filter_sublist.trans ht.nodes, ht.relations⟩
  exact .ite (.fault _) (.bind (.set hkept) fun _ => .pure _)

/-- A deletion takes rows away. -/
theorem shrinks_delete (s : Selection) : Session.Keeps t.Shrinks (delete s) := by
  refine keeps_delete (fun p => ?_) shrinks_deleteRows s
  rw [deleteRelations]
  exact .bind .write fun _ => .get_bind fun t₁ ht => .bind
    (.set ⟨ht.nodes, ht.relations.keep _⟩) fun _ => .pure _

end GraphTables

namespace PropertyAction

open GraphTables

variable {a : PropertyAction} {t t' : GraphTables}

/-! ## Actions -/

/-- **No action moves the time of an insertion** unless it writes to it. -/
theorem created_eq (h : a.mayWriteTimes = false) (n : NodeRow) (r : RelationRow) :
    (a.nodeTimes n).created = n.createdAt ∧ (a.relationTimes r).created = r.createdAt := by
  constructor
  · unfold nodeTimes
    split
    · exact Times.created_ite _ n.times
    · cases h
    · exact Times.created_ite _ n.times
    · exact Times.created_ite _ n.times
    · cases h
    · rfl
  · unfold relationTimes
    split
    · exact Times.created_ite _ r.times
    · cases h
    · exact Times.created_ite _ r.times
    · rfl

/-- An action that is no business of any row that stays moves nothing. -/
theorem Moves.of_shrinks (h : t.IsConstrained) (hshrinks : t.Shrinks t')
    (hnodes : a.nodeTimes = NodeRow.times) (hrelations : a.relationTimes = RelationRow.times) :
    a.Moves t t' := by
  refine ⟨h.shrink hshrinks, ?_, ?_⟩
  · rw [hnodes]
    exact .of_sublist h.ids_nodup hshrinks.nodes
  · rw [hrelations]
    exact hshrinks.relations.timesMove h.relations

theorem Moves.of_eq (h : t.IsConstrained) (heq : t' = t) (hnodes : a.nodeTimes = NodeRow.times)
    (hrelations : a.relationTimes = RelationRow.times) : a.Moves t t' :=
  of_shrinks h (heq ▸ .refl t) hnodes hrelations

/-- A direct change of nodes moves their times as it changes them. -/
theorem Moves.of_updateNodes (h : t.IsConstrained) {now : String} (u : NodeUpdate) {n : Nat}
    (hrun : GraphTables.updateNodes now u.selects u.write none t = .ok (n, t'))
    (hnodes : ∀ n, a.nodeTimes n = u.after NodeRow.times now n)
    (hrelations : a.relationTimes = RelationRow.times) : a.Moves t t' := by
  let touch (n : NodeRow) : NodeRow :=
    { u.write n with updatedAt := touched now n.updatedAt (u.write n).updatedAt }
  have hchange : ∀ n, (if u.selects n then touch n else n).id = n.id ∧
      (if u.selects n then touch n else n).times = u.after NodeRow.times now n :=
    u.after_spec (fun _ => rfl) fun _ => rfl
  have hid := fun n => (hchange n).1
  cases hrun
  refine ⟨h.mapNodes hid, .of_map h.ids_nodup hid fun n => ?_, ?_⟩
  · rw [hnodes]
    exact (hchange n).2
  · rw [hrelations]
    exact .of_sublist h.relations.nodup (.refl _)

/-- A direct change of relations moves their times as it changes them. -/
theorem Moves.of_updateRelations (h : t.IsConstrained) {now : String} (u : RelationUpdate) {n : Nat}
    (hrun : GraphTables.updateRelations now u.selects u.write none t = .ok (n, t'))
    (hnodes : a.nodeTimes = NodeRow.times)
    (hrelations : ∀ r, a.relationTimes r = u.after RelationRow.times now r) : a.Moves t t' := by
  let touch (r : RelationRow) : RelationRow :=
    { u.write r with updatedAt := touched now r.updatedAt (u.write r).updatedAt }
  have hchange : ∀ r, ((if u.selects r then touch r else r).id,
      (if u.selects r then touch r else r).key) = (r.id, r.key) ∧
      (if u.selects r then touch r else r).times = u.after RelationRow.times now r :=
    u.after_spec (fun _ => rfl) fun _ => rfl
  have hid := fun r => (Prod.mk.inj (hchange r).1).1
  cases hrun
  refine ⟨h.mapRelations hid fun r => (Prod.mk.inj (hchange r).1).2, ?_,
    .of_map h.relations.nodup hid fun r => ?_⟩
  · rw [hnodes]
    exact .of_sublist h.ids_nodup (.refl _)
  · rw [hrelations]
    exact (hchange r).2

/-- **A batch of nodes** moves the rows of its nodes. -/
theorem moves_upsertNodes (h : t.IsConstrained) (now : String) (batch : List Node) :
    (call (.upsertNodes now batch)).Moves t { t with nodes := batch.foldl (putRow now) t.nodes } := by
  have hid : ∀ n, (putAll (NodeRow.put now) batch n).id = n.id :=
    key_putAll (fun node n => id_put now node n) batch
  have htimes : ∀ n, (putAll (NodeRow.put now) batch n).times =
      (call (.upsertNodes now batch)).nodeTimes n := by
    have hwrite : ∀ node n, (overwriteNode now node n).times = ⟨n.times.created, now⟩ :=
      fun node n => by cases node <;> rfl
    intro n
    rw [put_eq_putAt]
    exact times_putAll_putAt hwrite batch n
  rw [foldl_putRow]
  refine ⟨(h.addRows now _).mapNodes hid, ?_, .of_sublist h.relations.nodup (.refl _)⟩
  exact .map_of_fresh h.ids_nodup (mem_or_fresh_foldl_addRow now _ _) hid htimes fun n hn =>
    Times.ite_created_of_fresh hn

/-- **A batch of relations** moves the rows of its relations, and none of the rows of their ends. -/
theorem moves_upsertRelations (h : t.IsConstrained) (now : String) (batch : List Relation) :
    (call (.upsertRelations now batch)).Moves t {
      nodes := (batch.flatMap Relation.ends).foldl (addRow now) t.nodes
      relations := batch.foldl (putRelation now) t.relations } := by
  have hid : ∀ r, (putAll (RelationRow.put now) batch r).id = r.id :=
    key_putAll (fun r x => by rw [RelationRow.put]; split_ifs <;> rfl) batch
  have htimes : ∀ r, (putAll (RelationRow.put now) batch r).times =
      (call (.upsertRelations now batch)).relationTimes r := by
    have hwrite : ∀ r x, (overwriteRelation now r x).times = ⟨x.times.created, now⟩ :=
      fun _ _ => rfl
    intro r
    rw [putRelationRow_eq_putAt]
    exact times_putAll_putAt hwrite batch r
  refine ⟨h.putRelations now batch,
    .of_fresh h.ids_nodup (mem_or_fresh_foldl_addRow now _ _), ?_⟩
  rw [foldl_putRelation]
  have hmade := (gains_foldl_addRelation h.relations now batch).mem_or_fresh h.relations
  exact .map_of_fresh h.relations.nodup hmade hid htimes fun r hr => Times.ite_created_of_fresh hr

/-- **Looking up a node** makes its row, or moves nothing. -/
theorem moves_getOrCreateNode (h : t.IsConstrained) (now id : String) :
    (call (.getOrCreateNode now id)).Moves t { t with nodes := addRow now t.nodes id } :=
  ⟨h.addRows now [id], .of_fresh h.ids_nodup (mem_or_fresh_foldl_addRow now [id] _),
    .of_sublist h.relations.nodup (.refl _)⟩

/-- **A call moves the times as it should.** -/
theorem moves_call (h : t.IsConstrained) {c : PropertyCall} (hlead : c.LeadsTo t t') :
    (call c).Moves t t' := by
  cases c with
  | upsertNodes now batch =>
    rw [PropertyCall.LeadsTo, run_writeNodes] at hlead
    cases hlead
    exact moves_upsertNodes h now batch
  | upsertRelations now batch =>
    rw [PropertyCall.LeadsTo] at hlead
    cases hends : (batch.flatMap Relation.ends).findSome? t.faultOf with
    | some f =>
      rw [run_writeRelations_fails now hends] at hlead
      cases hlead
    | none =>
      rw [h.run_writeRelations now (List.findSome?_eq_none_iff.1 hends)] at hlead
      cases hlead
      exact moves_upsertRelations h now batch
  | getOrCreateNode now id =>
    obtain ⟨p, hlead⟩ := hlead
    cases hrow : t.faultOf id with
    | some f =>
      rw [run_getOrCreateNode_fails now hrow] at hlead
      cases hlead
    | none =>
      obtain ⟨rec, created, hrun⟩ := run_getOrCreateNode now hrow
      rw [hrun] at hlead
      cases hlead
      exact moves_getOrCreateNode h now id
  | delete s => exact .of_shrinks h (shrinks_delete s none t () t' hlead (.refl t)) rfl rfl
  | findNode id => exact .of_eq h hlead rfl rfl
  | nodes properties ids => exact .of_eq h hlead rfl rfl
  | triplets s => exact .of_eq h hlead rfl rfl
  | reachable seeds depth limit ignored => exact .of_eq h hlead rfl rfl
  | relMap seeds depth limit ignored => exact .of_eq h hlead rfl rfl
  | nearest point count => exact .of_eq h hlead rfl rfl
  | stats => exact .of_eq h hlead rfl rfl

end PropertyAction

namespace PropertyStore

variable {α : Type} {store : PropertyStore} {s : Site} {t : GraphTables} {a : PropertyAction}

/-- What is refused if there is a row, and has nothing to do if there is none. -/
theorem settles_refused (hopen : store.IsOpen s t) (p : GraphTables → Bool) (f : StorageFault) :
    store.Settles s t (· = t) (store.session do
      Session.write
      let t ← get
      if p t then Session.fault f else return 0) := by
  refine .session hopen (.write_bind _) fun n t' hrun => ?_
  rw [Session.run_write_bind, Session.run_get_bind] at hrun
  split_ifs at hrun
  · cases hrun
  · cases hrun
    rfl

/-- What leaves the tables as they are moves nothing. -/
theorem Settles.moves_of_eq {x : Access α} (hx : store.Settles s t (· = t) x)
    (h : t.IsConstrained) (hnodes : a.nodeTimes = NodeRow.times)
    (hrelations : a.relationTimes = RelationRow.times) :
    store.Settles s t (a.Moves t) (x >>= fun _ => Pure.pure ()) :=
  (bind_pure hx ()).mono fun _ heq => .of_eq h heq hnodes hrelations

/-- **An action moves the times as it should**, or fails and leaves the tables as they are. -/
theorem moves_action (hopen : store.IsOpen s t) (h : t.IsConstrained) (a : PropertyAction) :
    store.Settles s t (a.Moves t) (a.run store) := by
  cases a with
  | call c => exact (settles_leadsTo hopen c).mono fun t' hlead => PropertyAction.moves_call h hlead
  | pathRows seeds depth limit =>
    rw [PropertyAction.run, pathRows]
    exact (Settles.ite_readsOk hopen _ _).moves_of_eq h rfl rfl
  | structuredQuery query => exact .bind_pure (.throw hopen _) ()
  | contents => exact (Settles.readsOk hopen _).moves_of_eq h rfl rfl
  | updateNodes now u =>
    refine .bind_pure (.session hopen (.write_bind _) fun n t' hrun => ?_) ()
    exact .of_updateNodes h u hrun (fun _ => rfl) rfl
  | updateRelations now u =>
    refine .bind_pure (.session hopen (.write_bind _) fun n t' hrun => ?_) ()
    exact .of_updateRelations h u hrun rfl fun _ => rfl
  | setProperties now id text =>
    cases text with
    | none => exact (settles_refused hopen _ _).moves_of_eq h rfl rfl
    | some text =>
      refine .bind_pure (.session hopen (.write_bind _) fun n t' hrun => ?_) ()
      let u : NodeUpdate := ⟨fun n => n.id == id, fun n => { n with properties := text }, fun _ => rfl⟩
      refine .of_updateNodes h u hrun (fun n => ?_) rfl
      exact (if_congr beq_iff_eq.symm rfl rfl).trans (u.after_eq (fun _ => rfl) now n).symm
  | setRelationProperties now label text =>
    cases text with
    | none => exact (settles_refused hopen _ _).moves_of_eq h rfl rfl
    | some text =>
      refine .bind_pure (.session hopen (.write_bind _) fun n t' hrun => ?_) ()
      let u : RelationUpdate :=
        ⟨fun r => r.label == label, fun r => { r with properties := text }, fun _ => rfl⟩
      refine .of_updateRelations h u hrun rfl fun r => ?_
      exact (if_congr beq_iff_eq.symm rfl rfl).trans (u.after_eq (fun _ => rfl) now r).symm
  | setEmbedding now id cell =>
    refine .bind_pure (.session hopen (.write_bind _) fun n t' hrun => ?_) ()
    let u : NodeUpdate :=
      ⟨fun n => n.id == id, fun n => { n with embedding := cell.bound }, fun _ => rfl⟩
    refine .of_updateNodes h u hrun (fun n => ?_) rfl
    exact (if_congr beq_iff_eq.symm rfl rfl).trans (u.after_eq (fun _ => rfl) now n).symm
  | stamp now id created updated =>
    cases created with
    | none => exact (settles_refused hopen _ _).moves_of_eq h rfl rfl
    | some created =>
      cases updated with
      | none => exact (settles_refused hopen _ _).moves_of_eq h rfl rfl
      | some updated =>
        refine .bind_pure (.session hopen (.write_bind _) fun n t' hrun => ?_) ()
        let u : NodeUpdate := ⟨fun n => n.id == id,
          fun n => { n with createdAt := created, updatedAt := updated }, fun _ => rfl⟩
        exact .of_updateNodes h u hrun (fun n => if_congr beq_iff_eq.symm rfl rfl) rfl
  | removeRow id =>
    refine .bind_pure (.session hopen (.write_bind _) fun n t' hrun => ?_) ()
    exact .of_shrinks h (GraphTables.shrinks_deleteRows _ none t n t' hrun (.refl t)) rfl rfl

/-- **Rows can be told apart**, whatever has been done to the tables. -/
theorem exists_tables_of_actions (hopen : store.IsOpen s t) (h : t.IsConstrained)
    (actions : List PropertyAction) :
    ∃ t', store.IsOpen (Access.siteAfter (actions.map (PropertyAction.run store)) s) t' ∧
      t'.IsConstrained := by
  induction actions generalizing s t with
  | nil => exact ⟨t, hopen, h⟩
  | cons a rest ih =>
    obtain ⟨r, s', t', hrun, hopen', hok, herror⟩ := moves_action hopen h a
    rw [List.map_cons, Access.siteAfter, hrun]
    refine ih hopen' ?_
    cases r with
    | ok u => exact (hok u rfl).isConstrained
    | error e =>
      rw [herror e rfl]
      exact h

end PropertyStore

end GraphBase
