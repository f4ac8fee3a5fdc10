import GraphBase.Proofs.Graph.Deleting
import GraphBase.Proofs.Graph.Linking
import GraphBase.Proofs.Graph.Runs

/-!
# What a call does to the nodes

A call to a property graph store either succeeds, with an effect on the node rows that depends on
the call alone (`PropertyCall.Effect`), or fails and leaves the tables as they are
(`PropertyStore.settles_call`).  This covers every way to fail, that of a connection which may not
write included.  What a call leads to is what its session leads to on the tables, whoever has
written to them (`PropertyStore.settles_leadsTo`).

A batch of nodes puts them over their rows, relations make rows for their ends, and nothing but a
deletion takes a row away.  Reading changes nothing.
-/

namespace GraphBase

open GraphTables (addRow putRow)

/-- What a call that succeeds does to the node rows. -/
def PropertyCall.Effect (t t' : GraphTables) : PropertyCall → Prop
  | .upsertNodes now batch => t' = { t with nodes := batch.foldl (putRow now) t.nodes }
  | .upsertRelations now batch =>
    t'.nodes = (batch.flatMap Relation.ends).foldl (addRow now) t.nodes
  | .getOrCreateNode now id => t' = { t with nodes := addRow now t.nodes id }
  | .delete _ => t'.nodes.Sublist t.nodes
  | _ => t' = t

/-- The tables that the session of a call leads to on a connection that may write. -/
def PropertyCall.LeadsTo (t t' : GraphTables) : PropertyCall → Prop
  | .upsertNodes now batch => GraphTables.writeNodes now batch none t = .ok ((), t')
  | .upsertRelations now batch => GraphTables.writeRelations now batch none t = .ok ((), t')
  | .getOrCreateNode now id => ∃ p, GraphTables.getOrCreateNode now id none t = .ok (p, t')
  | .delete selection => GraphTables.delete selection none t = .ok ((), t')
  | _ => t' = t

namespace PropertyStore

variable {α β : Type} {store : PropertyStore} {s s' : Site} {t : GraphTables}
  {R R' : GraphTables → Prop}

/-- An operation on a site succeeds with tables of a certain kind, or fails and leaves the tables
as they are. -/
def Settles (store : PropertyStore) (s : Site) (t : GraphTables) (R : GraphTables → Prop)
    (x : Access α) : Prop :=
  ∃ r s' t', x.run s = (r, s') ∧ store.IsOpen s' t' ∧
    (∀ a, r = .ok a → R t') ∧ ∀ e, r = .error e → t' = t

namespace Settles

theorem mono {x : Access α} (hx : store.Settles s t R x) (h : ∀ t', R t' → R' t') :
    store.Settles s t R' x := by
  obtain ⟨r, s', t', hrun, hopen, hok, herror⟩ := hx
  exact ⟨r, s', t', hrun, hopen, fun a ha => h t' (hok a ha), herror⟩

theorem pure (hopen : store.IsOpen s t) (hR : R t) (a : α) :
    store.Settles s t R (Pure.pure a : Access α) :=
  ⟨_, _, t, rfl, hopen, fun _ _ => hR, fun _ _ => rfl⟩

theorem throw (hopen : store.IsOpen s t) (e : Error) :
    store.Settles s t R (MonadExcept.throw e : Access α) :=
  ⟨_, _, t, rfl, hopen, nofun, fun _ _ => rfl⟩

theorem session (hopen : store.IsOpen s t) {body : Session GraphTables α}
    (hbody : Session.Restrained body) (hR : ∀ a t', body none t = .ok (a, t') → R t') :
    store.Settles s t R (store.session body) := by
  obtain ⟨a, t', s', hrun, hsession, hopen'⟩ | ⟨e, hsession, -⟩ :=
    run_session_of_restrained hopen hbody
  · exact ⟨.ok a, s', t', hsession, hopen', fun _ _ => hR a t' hrun, nofun⟩
  · exact ⟨.error e, s, t, hsession, hopen, nofun, fun _ _ => rfl⟩

/-- What only reads leaves the tables as they are. -/
theorem readsOk (hopen : store.IsOpen s t) (read : GraphTables → Except StorageFault α) :
    store.Settles s t (· = t) (store.session (Session.readsOk read)) := by
  refine session hopen (.get_bind fun _ => .ofRead _) fun a t' hrun => ?_
  rw [Session.run_readsOk] at hrun
  cases hread : read t with
  | ok a =>
    rw [hread] at hrun
    cases hrun
    rfl
  | error f =>
    rw [hread] at hrun
    cases hrun

/-- The answer may be thrown away. -/
theorem bind_pure {x : Access α} (hx : store.Settles s t R x) (b : β) :
    store.Settles s t R (x >>= fun _ => Pure.pure b) := by
  obtain ⟨r, s', t', hrun, hopen, hok, herror⟩ := hx
  cases r with
  | ok a =>
    exact ⟨.ok b, s', t', Access.run_bind_ok hrun, hopen, fun _ _ => hok a rfl,
      nofun⟩
  | error e =>
    exact ⟨.error e, s', t', Access.run_bind_error hrun, hopen, nofun,
      fun _ _ => herror e rfl⟩

/-- What is answered without the tables, or else reads, leaves them as they are. -/
theorem ite_readsOk (hopen : store.IsOpen s t) {c : Prop} [Decidable c] (a : α)
    (read : GraphTables → Except StorageFault α) :
    store.Settles s t (· = t)
      (if c then Pure.pure a else store.session (Session.readsOk read)) := by
  split_ifs
  · exact pure (R := (· = t)) hopen rfl a
  · exact readsOk hopen read

end Settles

/-- **A call leads to the tables that its session leads to**, or fails without any effect. -/
theorem settles_leadsTo (hopen : store.IsOpen s t) (c : PropertyCall) :
    store.Settles s t (fun t' => c.LeadsTo t t') (c.run store) := by
  cases c with
  | upsertNodes now nodes =>
    rw [PropertyCall.run, upsertNodes]
    split
    · exact .throw hopen _
    · exact .session hopen (GraphTables.restrained_writeNodes now nodes) fun u t' hrun => hrun
  | upsertRelations now relations =>
    exact .session hopen (GraphTables.restrained_writeRelations now relations)
      fun u t' hrun => hrun
  | getOrCreateNode now id =>
    exact .bind_pure (.session hopen (GraphTables.restrained_getOrCreateNode now id)
      fun p t' hrun => ⟨p, hrun⟩) ()
  | delete selection =>
    rw [PropertyCall.run, delete]
    split_ifs with hempty
    · refine .pure hopen ?_ ()
      rw [PropertyCall.LeadsTo, GraphTables.delete, hempty]
      rfl
    · exact .session hopen (GraphTables.restrained_delete selection) fun u t' hrun => hrun
  | findNode id => exact .bind_pure (.readsOk hopen _) ()
  | nodes properties ids => exact .bind_pure (.readsOk hopen _) ()
  | triplets selection =>
    rw [PropertyCall.run, triplets]
    exact .bind_pure (.ite_readsOk hopen _ _) ()
  | reachable seeds depth limit ignored =>
    rw [PropertyCall.run, reachable]
    exact .bind_pure (.ite_readsOk hopen _ _) ()
  | relMap seeds depth limit ignored =>
    rw [PropertyCall.run, relMap]
    exact .bind_pure (.ite_readsOk hopen _ _) ()
  | nearest point count =>
    rw [PropertyCall.run, nearest]
    split
    · exact .bind_pure (.throw hopen _) ()
    · exact .bind_pure (.ite_readsOk hopen _ _) ()
  | stats =>
    refine .bind_pure (.session hopen ?_ fun a t' hrun => ?_) ()
    · intro f t a t' hrun
      cases hrun
      exact ⟨rfl, rfl⟩
    · cases hrun
      rfl

/-- **A call succeeds with its effect, or fails without any.** -/
theorem settles_call (hopen : store.IsOpen s t) (hwf : t.WellFormed store.schema.dimension)
    (c : PropertyCall) : store.Settles s t (fun t' => c.Effect t t') (c.run store) := by
  refine (settles_leadsTo hopen c).mono fun t' hlead => ?_
  cases c with
  | upsertNodes now nodes =>
    rw [PropertyCall.LeadsTo, GraphTables.run_writeNodes] at hlead
    cases hlead
    rfl
  | upsertRelations now relations =>
    rw [PropertyCall.LeadsTo, GraphTables.run_writeRelations hwf now relations] at hlead
    cases hlead
    rfl
  | getOrCreateNode now id =>
    obtain ⟨p, hlead⟩ := hlead
    obtain ⟨rec, created, hrun⟩ := GraphTables.run_getOrCreateNode now (hwf.faultOf_eq_none id)
    rw [hrun] at hlead
    cases hlead
    rfl
  | delete selection => exact GraphTables.sublist_delete selection none t () t' hlead (.refl _)
  | findNode id => exact hlead
  | nodes properties ids => exact hlead
  | triplets selection => exact hlead
  | reachable seeds depth limit ignored => exact hlead
  | relMap seeds depth limit ignored => exact hlead
  | nearest point count => exact hlead
  | stats => exact hlead

/-- **The outcome of a call**: the tables follow their rules again, and they are as the call says or
as they were. -/
theorem outcome_of_call (hopen : store.IsOpen s t) (hwf : t.WellFormed store.schema.dimension)
    (c : PropertyCall) :
    ∃ r s' t', (c.run store).run s = (r, s') ∧ store.IsOpen s' t' ∧
      t.Follows store.schema.dimension t' ∧ (r = .ok () → c.Effect t t') ∧
      ∀ e, r = .error e → t' = t := by
  obtain ⟨r, s', t', hrun, hopen', hok, herror⟩ := settles_call hopen hwf c
  obtain ⟨t'', hopen'', hfollows⟩ := exists_tables_of_call hopen hwf c
  rw [hrun] at hopen''
  obtain rfl := hopen'.unique hopen''
  exact ⟨r, s', t', hrun, hopen', hfollows, hok (), herror⟩

end PropertyStore

end GraphBase
