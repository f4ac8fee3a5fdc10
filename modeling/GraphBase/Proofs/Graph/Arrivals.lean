import GraphBase.Proofs.Graph.Effects
import Mathlib.Data.List.Dedup

/-!
# In which order rows have come

A node row stays where it is until it goes, and a new one comes behind all others.  So the order of
the rows is the order in which they have been made, and if a row has gone and was made again, the
last time counts.

`PropertyStore.Records` follows a run and writes down each identity when a row is made for it.  The
identities of the rows are among those that have been written down, in this order, each where it
comes last (`Records.sublist`).  Every state that a run leads to has such a record
(`Reaches.exists_records`).
-/

namespace GraphBase

open GraphTables (addRow putRow)

/-- The identities that a call needs rows for, in the order in which it asks for them. -/
def PropertyCall.needed : PropertyCall → List String
  | .upsertNodes _ batch => batch.map Node.id
  | .upsertRelations _ batch => batch.flatMap Relation.ends
  | .getOrCreateNode _ id => [id]
  | _ => []

/-- The identities that a call makes rows for, from its outcome and the tables it finds: those that
are needed and not there. -/
def PropertyCall.arrivals (t : GraphTables) (c : PropertyCall) : Except Error Unit → List String
  | .ok () => newcomers t.ids c.needed
  | .error _ => []

/-- What a call that succeeds does to the identities of the rows: some go, then some come. -/
theorem PropertyCall.Effect.ids {t t' : GraphTables} {c : PropertyCall} (h : c.Effect t t') :
    ∃ kept, kept.Sublist t.ids ∧ t'.ids = kept ++ newcomers t.ids c.needed := by
  cases c with
  | upsertNodes now batch =>
    obtain rfl := h
    refine ⟨t.ids, .refl _, ?_⟩
    rw [GraphTables.ids, GraphTables.ids_foldl_putRow, foldl_addNew]
    rfl
  | upsertRelations now batch =>
    refine ⟨t.ids, .refl _, ?_⟩
    rw [GraphTables.ids, show t'.nodes = _ from h, GraphTables.ids_foldl_addRow, foldl_addNew]
    rfl
  | getOrCreateNode now id =>
    obtain rfl := h
    refine ⟨t.ids, .refl _, ?_⟩
    rw [GraphTables.ids, GraphTables.ids_addRow]
    exact foldl_addNew t.ids [id]
  | delete selection =>
    exact ⟨t'.ids, List.Sublist.map NodeRow.id h, (List.append_nil _).symm⟩
  | _ =>
    obtain rfl := h
    exact ⟨t'.ids, .refl _, (List.append_nil _).symm⟩

/-- What is written down behind a record comes last in it. -/
theorem sublist_dedup_append {kept log new : List String} (h : kept.Sublist log.dedup)
    (hnew : new.Nodup) (hdisjoint : ∀ id ∈ new, id ∉ kept) :
    (kept ++ new).Sublist (log ++ new).dedup := by
  induction log generalizing kept with
  | nil =>
    rw [List.sublist_nil.1 h, List.nil_append, hnew.dedup]
  | cons id log ih =>
    rw [List.cons_append]
    by_cases hlog : id ∈ log
    · rw [List.dedup_cons_of_mem hlog] at h
      rw [List.dedup_cons_of_mem (List.mem_append_left new hlog)]
      exact ih h hdisjoint
    · rw [List.dedup_cons_of_notMem hlog] at h
      by_cases hmem : id ∈ new
      · rw [List.dedup_cons_of_mem (List.mem_append_right log hmem)]
        cases h with
        | cons _ h => exact ih h hdisjoint
        | cons_cons _ _ => exact absurd List.mem_cons_self (hdisjoint id hmem)
      · rw [List.dedup_cons_of_notMem (by simp [hlog, hmem])]
        cases h with
        | cons _ h => exact (ih h hdisjoint).cons id
        | cons_cons _ h =>
          exact (ih h fun x hx hkept => hdisjoint x hx (List.mem_cons_of_mem id hkept)).cons_cons id

namespace PropertyStore

/-- A run leads to a site with its tables, and with a record of the identities that rows have been
made for. -/
inductive Records (store : PropertyStore) : Site → GraphTables → List String → Prop
  | start {h host : Host} {c : StoreConfig} {engine : Engine} {t : GraphTables}
    (hstart : PropertyStore.start h c = (.ok (store, engine), host))
    (htables : store.tables? ⟨host, engine⟩ = some t) (hnew : t.IsNew) :
    Records store ⟨host, engine⟩ t []
  | call {s s' : Site} {t t' : GraphTables} {log : List String} {r : Except Error Unit}
    (h : Records store s t log) (c : PropertyCall) (hrun : (c.run store).run s = (r, s'))
    (htables : store.tables? s' = some t') : Records store s' t' (log ++ c.arrivals t r)
  | reopen {s s' : Site} {t t' : GraphTables} {log : List String} (h : Records store s t log)
    (hstep : store.Step s .reopen s') (htables : store.tables? s' = some t') :
    Records store s' t' log

variable {store : PropertyStore} {s : Site} {t : GraphTables} {log : List String}

/-- **The rows stand in the order in which they have come.** -/
theorem Records.sublist (h : store.Records s t log) :
    store.IsOpen s t ∧ t.WellFormed store.schema.dimension ∧ t.ids.Sublist log.dedup := by
  induction h with
  | start hstart htables hnew =>
    refine ⟨isOpen_of_start hstart htables, hnew.wellFormed _, ?_⟩
    rw [GraphTables.ids, hnew.nodes]
    exact .refl []
  | @call s s' t t' log r _ c hrun htables ih =>
    obtain ⟨hopen, hwf, hsublist⟩ := ih
    obtain ⟨r₁, s₁, t₁, hrun₁, hopen₁, hfollows, hok, herror⟩ := outcome_of_call hopen hwf c
    rw [hrun] at hrun₁
    cases hrun₁
    obtain rfl := Option.some.inj (htables.symm.trans hopen₁.tables)
    refine ⟨hopen₁, hfollows.wellFormed, ?_⟩
    cases r with
    | ok u =>
      obtain ⟨kept, hkept, hids⟩ := (hok rfl).ids
      have hnodup := hfollows.wellFormed.ids_nodup
      rw [hids] at hnodup ⊢
      obtain ⟨-, hnew, hdisjoint⟩ := List.nodup_append.1 hnodup
      exact sublist_dedup_append (hkept.trans hsublist) hnew
        fun id hid hmem => hdisjoint id hmem id hid rfl
    | error e =>
      obtain rfl := herror e rfl
      rw [PropertyCall.arrivals, List.append_nil]
      exact hsublist
  | reopen _ hstep htables ih =>
    obtain ⟨hopen, hwf, hsublist⟩ := ih
    cases hstep with
    | reopen hplace hstart hsame =>
      have hopen' := isOpen_of_reopen hopen hplace hstart hsame
      obtain rfl := Option.some.inj (htables.symm.trans hopen'.tables)
      exact ⟨hopen', hwf, hsublist⟩

/-- **Every state that a run leads to has a record.** -/
theorem Reaches.exists_records (h : store.Reaches s t) : ∃ log, store.Records s t log := by
  refine h.induct (P := fun s t => ∃ log, store.Records s t log) ?_ ?_ ?_
  · exact fun hstart htables hnew => ⟨[], .start hstart htables hnew⟩
  · rintro s s' t t' r c ⟨log, hrecords⟩ hrun htables
    exact ⟨_, .call hrecords c hrun htables⟩
  · rintro s s' t t' ⟨log, hrecords⟩ hstep htables
    exact ⟨log, .reopen hrecords hstep htables⟩

end PropertyStore

end GraphBase
