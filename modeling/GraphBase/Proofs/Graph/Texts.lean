import GraphBase.Proofs.Graph.Written

/-!
# Texts that have been written

A row keeps the text of the last chunk that was written to it, also after nodes of other kinds have
been written over that.  So what the column holds depends on the whole life of the row.

`PropertyStore.Recalls` follows a run and remembers for each identity the last text of a chunk since
its row was made; a row that goes takes its text along.  This is what the column holds
(`Recalls.knows`), and every state that a run leads to has such a memory (`Reaches.exists_recalls`).
-/

namespace GraphBase

open GraphTables (addRow putRow)

/-- The texts that are remembered after a node has been written. -/
def textsWith (texts : String → Option String) : Node → String → Option String
  | .chunk id text _ => Function.update texts id (some text)
  | _ => texts

theorem textsWith_of_ne (texts : String → Option String) {node : Node} {id : String}
    (h : id ≠ node.id) : textsWith texts node id = texts id := by
  cases node with
  | chunk id' text body => exact Function.update_of_ne h _ _
  | _ => rfl

/-- The texts that are remembered after a call, from its outcome and the tables it leads to. -/
def PropertyCall.textsAfter (texts : String → Option String) (t' : GraphTables) :
    PropertyCall → Except Error Unit → String → Option String
  | .upsertNodes _ batch, .ok () => batch.foldl textsWith texts
  | .delete _, .ok () => fun id => if id ∈ t'.ids then texts id else none
  | _, _ => texts

/-- The texts of some rows are those that are remembered, and there are no others. -/
structure KnowsTexts (texts : String → Option String) (rows : List NodeRow) : Prop where
  known : ∀ n ∈ rows, n.text = texts n.id
  unknown : ∀ id ∉ rows.map NodeRow.id, texts id = none

namespace KnowsTexts

variable {texts : String → Option String} {rows : List NodeRow}

theorem addRow (h : KnowsTexts texts rows) (now id : String) :
    KnowsTexts texts (addRow now rows id) := by
  rw [GraphTables.addRow]
  split_ifs with hid
  · exact h
  · refine ⟨fun n hn => ?_, fun x hx => h.unknown x fun hmem => hx ?_⟩
    · rcases List.mem_append.1 hn with hn | hn
      · exact h.known n hn
      · rw [List.mem_singleton.1 hn]
        exact (h.unknown id hid).symm
    · rw [List.map_append]
      exact List.mem_append_left _ hmem

theorem foldl_addRow (h : KnowsTexts texts rows) (now : String) (ids : List String) :
    KnowsTexts texts (ids.foldl (GraphTables.addRow now) rows) := by
  induction ids generalizing rows with
  | nil => exact h
  | cons id ids ih => exact ih (h.addRow now id)

/-- What a node does to its row is what is remembered of it. -/
theorem text_put (now : String) (node : Node) {n : NodeRow} (hn : n.text = texts n.id) :
    (n.put now node).text = textsWith texts node n.id := by
  by_cases hid : n.id = node.id
  · rw [NodeRow.put, if_pos (beq_iff_eq.2 hid)]
    cases node with
    | chunk id text body =>
      rw [textsWith, show n.id = id from hid, Function.update_self]
      rfl
    | _ => exact hn
  · rw [GraphTables.put_of_ne hid, textsWith_of_ne texts hid, hn]

theorem putRow (h : KnowsTexts texts rows) (now : String) (node : Node) :
    KnowsTexts (textsWith texts node) (putRow now rows node) := by
  have hadded := h.addRow now node.id
  refine ⟨fun n hn => ?_, fun id hid => ?_⟩
  · obtain ⟨m, hm, rfl⟩ := List.mem_map.1 hn
    rw [GraphTables.id_put]
    exact text_put now node (hadded.known m hm)
  · rw [GraphTables.ids_putRow, mem_addNew, not_or] at hid
    rw [textsWith_of_ne texts hid.2, h.unknown id hid.1]

theorem foldl_putRow (h : KnowsTexts texts rows) (now : String) (nodes : List Node) :
    KnowsTexts (nodes.foldl textsWith texts) (nodes.foldl (GraphTables.putRow now) rows) := by
  induction nodes generalizing rows texts with
  | nil => exact h
  | cons node nodes ih => exact ih (h.putRow now node)

/-- What has gone is forgotten. -/
theorem sublist (h : KnowsTexts texts rows) {rows' : List NodeRow} (hrows : rows'.Sublist rows) :
    KnowsTexts (fun id => if id ∈ rows'.map NodeRow.id then texts id else none) rows' := by
  refine ⟨fun n hn => ?_, fun id hid => if_neg hid⟩
  rw [if_pos (List.mem_map_of_mem hn)]
  exact h.known n (hrows.subset hn)

/-- What is remembered after a call that succeeds. -/
theorem textsAfter {t t' : GraphTables} (h : KnowsTexts texts t.nodes) {c : PropertyCall}
    (heffect : c.Effect t t') : KnowsTexts (c.textsAfter texts t' (.ok ())) t'.nodes := by
  cases c with
  | upsertNodes now batch =>
    obtain rfl := heffect
    exact h.foldl_putRow now batch
  | upsertRelations now batch =>
    rw [show t'.nodes = _ from heffect]
    exact h.foldl_addRow now _
  | getOrCreateNode now id =>
    obtain rfl := heffect
    exact h.addRow now id
  | delete selection => exact h.sublist heffect
  | _ =>
    obtain rfl := heffect
    exact h

end KnowsTexts

namespace PropertyStore

/-- A run leads to a site with its tables, and with texts that are remembered of it. -/
inductive Recalls (store : PropertyStore) : Site → GraphTables → (String → Option String) → Prop
  | start {h host : Host} {c : StoreConfig} {engine : Engine} {t : GraphTables}
    (hstart : PropertyStore.start h c = (.ok (store, engine), host))
    (htables : store.tables? ⟨host, engine⟩ = some t) (hnew : t.IsNew) :
    Recalls store ⟨host, engine⟩ t fun _ => none
  | call {s s' : Site} {t t' : GraphTables} {texts : String → Option String}
    {r : Except Error Unit} (h : Recalls store s t texts) (c : PropertyCall)
    (hrun : (c.run store).run s = (r, s')) (htables : store.tables? s' = some t') :
    Recalls store s' t' (c.textsAfter texts t' r)
  | reopen {s s' : Site} {t t' : GraphTables} {texts : String → Option String}
    (h : Recalls store s t texts) (hstep : store.Step s .reopen s')
    (htables : store.tables? s' = some t') : Recalls store s' t' texts

variable {store : PropertyStore} {s s' : Site} {t : GraphTables} {texts : String → Option String}

/-- **The texts that are remembered are those of the rows.** -/
theorem Recalls.knows (h : store.Recalls s t texts) :
    store.IsOpen s t ∧ t.WellFormed store.schema.dimension ∧ KnowsTexts texts t.nodes := by
  induction h with
  | start hstart htables hnew =>
    refine ⟨isOpen_of_start hstart htables, hnew.wellFormed _, fun n hn => ?_, fun id _ => rfl⟩
    rw [hnew.nodes] at hn
    cases hn
  | @call s s' t t' texts r _ c hrun htables ih =>
    obtain ⟨hopen, hwf, hknows⟩ := ih
    obtain ⟨r₁, s₁, t₁, hrun₁, hopen₁, hfollows, hok, herror⟩ := outcome_of_call hopen hwf c
    rw [hrun] at hrun₁
    cases hrun₁
    obtain rfl := Option.some.inj (htables.symm.trans hopen₁.tables)
    refine ⟨hopen₁, hfollows.wellFormed, ?_⟩
    cases r with
    | ok u => exact hknows.textsAfter (hok rfl)
    | error e =>
      obtain rfl := herror e rfl
      cases c <;> exact hknows
  | reopen _ hstep htables ih =>
    obtain ⟨hopen, hwf, hknows⟩ := ih
    cases hstep with
    | reopen hplace hstart hsame =>
      have hopen' := isOpen_of_reopen hopen hplace hstart hsame
      obtain rfl := Option.some.inj (htables.symm.trans hopen'.tables)
      exact ⟨hopen', hwf, hknows⟩

/-- **Every state that a run leads to has a memory.** -/
theorem Reaches.exists_recalls (h : store.Reaches s t) : ∃ texts, store.Recalls s t texts := by
  refine h.induct (P := fun s t => ∃ texts, store.Recalls s t texts) ?_ ?_ ?_
  · exact fun hstart htables hnew => ⟨_, .start hstart htables hnew⟩
  · rintro s s' t t' r c ⟨texts, hrecalls⟩ hrun htables
    exact ⟨_, .call hrecalls c hrun htables⟩
  · rintro s s' t t' ⟨texts, hrecalls⟩ hstep htables
    exact ⟨_, .reopen hrecalls hstep htables⟩

end PropertyStore

end GraphBase
