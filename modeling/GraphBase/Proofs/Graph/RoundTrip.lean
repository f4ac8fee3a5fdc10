import GraphBase.Proofs.Graph.Consistency
import GraphBase.Proofs.Graph.Texts
import GraphBase.Proofs.Graph.Written

/-!
# Nodes that come back

A batch of nodes that is accepted can be read at once, and each node comes back in the form in
which it was written last (`PropertyStore.readsBack_of_reaches`).  Nothing else that the row held
before can be seen, except for the text of a chunk that was written there earlier.

An entity and a chunk can be read for as long as nothing is written to their rows and no deletion
means them.  The row of another node may be bare, and then a deletion may take it in passing.
-/

namespace GraphBase

namespace GraphTables

variable {dimension : Nat} {t : GraphTables} {row : NodeRow} {n : Node}

/-- Reading the nodes of one identity reads one row. -/
theorem nodesWith_singleton (h : t.WellFormed dimension) (hrow : row ∈ t.nodes)
    (hwritten : row.IsWritten n) :
    t.nodesWith .empty [n.id] = .ok [n.readBack row.text] := by
  obtain ⟨rec, hrec, -, -, -, -, -, -, hnode⟩ := hwritten.exists_record (h.nodes row hrow)
  have hselect : (t.nodes.filter fun m => [n.id].contains m.id) = [row] := by
    refine (List.filter_congr fun m _ => ?_).trans (filter_key_eq_singleton h.ids_nodup hrow)
    rw [hwritten.id, List.contains_cons, List.contains_nil, Bool.or_false]
  have hall : filterOk (fun m : NodeRow => matchesAll m.properties Properties.empty.entries) [row] =
      .ok [row] := rfl
  have hread : row.node = .ok (n.readBack row.text) := by
    rw [NodeRow.node, hrec, ← hnode]
    rfl
  have hsize : nodeSize .empty [n.id] ≤ 998 := Nat.le_of_ble_eq_true rfl
  rw [nodesWith_of_prepare (prepare_nodeConditions_eq_ok.2 hsize), if_neg (by simp), hselect]
  simp only [hall]
  show [row].mapM NodeRow.node = _
  rw [List.mapM_cons, hread]
  rfl

theorem record?_eq (h : t.WellFormed dimension) (hrow : row ∈ t.nodes) {rec : NodeRecord}
    (hrec : row.record = .ok rec) : t.record? row.id = .ok (some rec) := by
  rw [record?, h.node?_eq_some.2 ⟨hrow, rfl⟩]
  simp only [hrec]
  rfl

end GraphTables

namespace PropertyStore

/-- What a client reads of a node that has been written, on a site where its row has a text. -/
structure ReadsBack (store : PropertyStore) (s : Site) (n : Node) (text : Option String) :
    Prop where
  nodes : ∃ s', (store.nodes .empty [n.id]).run s = (.ok [n.readBack text], s')
  record : ∃ rec s', (store.findNode n.id).run s = (.ok (some rec), s') ∧
    rec.id = n.id ∧ (rec.name = none ∨ rec.name = some n.id) ∧
    (∀ name body, n = .entity name body → rec.name = some name) ∧ rec.text = text ∧
    rec.label = n.label ∧ rec.properties = n.properties.reread ∧ rec.embedding = n.embedding ∧
    rec.node = n.readBack text

variable {store : PropertyStore} {s s' : Site} {t : GraphTables} {row : NodeRow} {n : Node}

/-- **A node is read back from the row that it was written to.** -/
theorem readsBack_of_mem (hopen : store.IsOpen s t) (hwf : t.WellFormed store.schema.dimension)
    (hrow : row ∈ t.nodes) (hwritten : row.IsWritten n) : store.ReadsBack s n row.text := by
  have hstored := hwf.nodes row hrow
  obtain ⟨rec, hrec, hid, hname, htext, hlabel, hproperties, hembedding, hnode⟩ :=
    hwritten.exists_record hstored
  have hfind := GraphTables.record?_eq hwf hrow hrec
  rw [hwritten.id] at hfind
  refine ⟨?_, ?_⟩
  · have hread : ∃ s', (store.nodes .empty [n.id]).run s = (.ok [n.readBack row.text], s') ∧
        store.IsOpen s' t := run_readsOk hopen (GraphTables.nodesWith_singleton hwf hrow hwritten)
    obtain ⟨s', hrun, -⟩ := hread
    exact ⟨s', hrun⟩
  · have hread : ∃ s', (store.findNode n.id).run s = (.ok (some rec), s') ∧ store.IsOpen s' t :=
      run_readsOk hopen hfind
    obtain ⟨s', hrun, -⟩ := hread
    refine ⟨rec, s', hrun, hid, ?_, fun name body heq => ?_, htext, hlabel, hproperties,
      hembedding, hnode⟩
    · rw [hname]
      cases hsome : row.name with
      | none => exact .inl rfl
      | some name => exact .inr (congrArg some ((hstored.name name hsome).trans hwritten.id))
    · rw [hname, hwritten.name name body heq]

/-- A batch that is accepted is in the tables that the next session finds, and the last node of an
identity in its row. -/
theorem exists_isWritten_of_upsertNodes (hopen : store.IsOpen s t)
    (hwf : t.WellFormed store.schema.dimension) {now : String} {before after : List Node}
    (hlast : ∀ m ∈ after, m.id ≠ n.id)
    (hrun : (store.upsertNodes now (before ++ n :: after)).run s = (.ok (), s')) :
    ∃ t' row, store.IsOpen s' t' ∧ t'.WellFormed store.schema.dimension ∧
      (PropertyCall.upsertNodes now (before ++ n :: after)).Effect t t' ∧
      row ∈ t'.nodes ∧ row.IsWritten n := by
  have hcall : ((PropertyCall.upsertNodes now (before ++ n :: after)).run store).run s =
      (.ok (), s') := hrun
  obtain ⟨r, s₁, t₁, hrun₁, hopen₁, hfollows, hok, -⟩ :=
    outcome_of_call hopen hwf (.upsertNodes now (before ++ n :: after))
  rw [hcall] at hrun₁
  cases hrun₁
  have heffect := hok rfl
  obtain ⟨row, hrow, hwritten⟩ := GraphTables.exists_isWritten now before after hlast t.nodes
  refine ⟨t₁, row, hopen₁, hfollows.wellFormed, heffect, ?_, hwritten⟩
  rw [show t₁ = _ from heffect]
  exact hrow

/-- **A node that was written comes back.**  In every state that a run leads to, there is a memory
of texts such that the following holds of every batch that is accepted and of every node in it that
is the last of its identity.

It is read from its row at once.  Entities and chunks whose labels are read as what they are come
back as they were, but for their properties: null and empty texts are dropped, and values are those
that their texts are read as.  All other nodes come back as their label says, a chunk with the text
that was written last.

The row of an entity or of a chunk can be read like this after any run that spares it. -/
theorem readsBack_of_reaches (h : store.Reaches s t) :
    ∃ texts, store.Recalls s t texts ∧
      ∀ (now : String) (before after : List Node) (n : Node) (s' : Site),
        (∀ m ∈ after, m.id ≠ n.id) →
        (store.upsertNodes now (before ++ n :: after)).run s = (.ok (), s') →
        ∃ text t' row,
          text = (before ++ n :: after).foldl textsWith texts n.id ∧
          store.IsOpen s' t' ∧ t'.node? n.id = some row ∧ row.IsWritten n ∧
          store.ReadsBack s' n text ∧
          (n.kind ≠ .other → ∀ events s'', store.Run s' events s'' →
            (∀ e ∈ events, e.Spares row) → store.ReadsBack s'' n text) ∧
          (∀ name body, n = .entity name body → n.label ≠ chunkLabel →
            n.readBack text = n.withProperties n.properties.reread.removeEmpty) ∧
          (∀ id x body, n = .chunk id x body → n.label = chunkLabel →
            n.readBack text = n.withProperties n.properties.reread.removeEmpty) ∧
          ((∀ e ∈ n.properties.entries, e.2.reread = e.2) →
            n.properties.reread = n.properties) := by
  obtain ⟨texts, hrecalls⟩ := h.exists_recalls
  obtain ⟨hopen, hwf, hknows⟩ := hrecalls.knows
  refine ⟨texts, hrecalls, fun now before after n s' hlast hrun => ?_⟩
  obtain ⟨t₁, row, hopen₁, hwf₁, heffect, hmem, hwritten⟩ :=
    exists_isWritten_of_upsertNodes hopen hwf hlast hrun
  have hknows₁ := hknows.textsAfter heffect
  have htext : row.text = (before ++ n :: after).foldl textsWith texts n.id := by
    rw [hknows₁.known row hmem, hwritten.id]
    rfl
  refine ⟨row.text, t₁, row, htext, hopen₁,
    hwf₁.node?_eq_some.2 ⟨hmem, hwritten.id⟩, hwritten,
    readsBack_of_mem hopen₁ hwf₁ hmem hwritten,
    fun hkind events s'' hrun' hspares => ?_, ?_, ?_, Properties.reread_eq_self⟩
  · obtain ⟨t₃, hopen₃, hwf₃, hmem₃⟩ := mem_of_run hrun' hopen₁ hwf₁ hmem
      (hwritten.isBare_eq_false hkind) hspares
    exact readsBack_of_mem hopen₃ hwf₃ hmem₃ hwritten
  · rintro name body rfl hlabel
    exact Node.readBack_entity hlabel row.text
  · rintro id x body rfl hlabel
    rw [hwritten.text id x body rfl]
    exact Node.readBack_chunk hlabel

/-- A batch is accepted if its embeddings have the dimension of the store and the connection may
write. -/
theorem exists_of_upsertNodes (hopen : store.IsOpen s t)
    (hwritable : s.engine.locator.refusal = none)
    {nodes : List Node} (hcheck : store.schema.checkEmbeddings nodes = .ok ()) (now : String) :
    ∃ s', (store.upsertNodes now nodes).run s = (.ok (), s') := by
  have hbody := GraphTables.run_writeNodes now nodes t
  obtain ⟨s', hrun, -⟩ := run_session hopen (hwritable ▸ hbody)
  refine ⟨s', ?_⟩
  rw [upsertNodes, hcheck]
  exact hrun

/-- An entity with the label of chunks, and with a property that is empty. -/
def disguisedEntity : Node :=
  .entity "A" { label := chunkLabel, properties := .ofList [("e", .text ""), ("k", .int 1)] }

/-- Written over a row with a text, it comes back as a chunk with that text. -/
theorem readsBack_disguised : ∃ s s' s'', PropertyStore.Reaches ⟨⟨2⟩⟩ s layeredTables ∧
    (PropertyStore.upsertNodes ⟨⟨2⟩⟩ "now" [.other "A" { label := "x" }, disguisedEntity]).run s =
      (.ok (), s') ∧
    (PropertyStore.nodes ⟨⟨2⟩⟩ .empty ["A"]).run s' = (.ok [.chunk "A" "t"
      { label := chunkLabel, properties := .ofList [("k", .int 1)] }], s'') := by
  obtain ⟨s, h, hwritable⟩ := exists_reaches_layeredTables
  obtain ⟨texts, hrecalls, hreads⟩ := readsBack_of_reaches h
  obtain ⟨hopen, -, hknows⟩ := hrecalls.knows
  have hcheck : PropertySchema.checkEmbeddings ⟨2⟩ [.other "A" { label := "x" }, disguisedEntity] =
      .ok () := rfl
  obtain ⟨s', hrun⟩ := exists_of_upsertNodes hopen hwritable hcheck "now"
  obtain ⟨text, t', row, htext, -, -, -, hback, -⟩ := hreads "now" [.other "A" { label := "x" }] []
    disguisedEntity s' (fun m hm => absurd hm List.not_mem_nil) hrun
  have hknown : texts "A" = some "t" := (hknows.known _ List.mem_cons_self).symm
  obtain rfl : text = some "t" := htext.trans hknown
  obtain ⟨s'', hget⟩ := hback.nodes
  exact ⟨s, s', s'', h, hrun, hget⟩

end PropertyStore

end GraphBase
