import GraphBase.Proofs.Graph.RoundTrip
import GraphBase.Proofs.Traversal.Chains

/-!
# What is shown of an embedding

A client sees embeddings only as parts of nodes.  All calls that answer with nodes read them from
rows, and no call has another way of reading a cell: what is shown is the embedding that the bytes of
some row make (`PropertyStore.yields_shown`).  This asks nothing of the bytes, so it holds of rows
that somebody else has written too, with bytes at the end that make no component.

An embedding that is accepted by a store is written to a row, and the row is there until a node is
written to it or it is deleted (`PropertyStore.mem_of_run`).  No other row has its identity.  So
every call shows the embedding that was accepted, in all its bits, wherever it shows the node
(`PropertyStore.keepsEmbeddings`), because bytes are read as what they were written for.

## Yields

Most of what is here is about calls that may fail, and about what they answer if they do not.  It is
said with `Yields`, which goes through a computation step by step: what the parts yield is what the
whole is made of.
-/

namespace GraphBase

/-! ## What comes out of a computation -/

/-- Whatever a computation yields, if it does not fail, has a property. -/
def Yields {ε α : Type} (P : α → Prop) (x : Except ε α) : Prop := ∀ a, x = .ok a → P a

namespace Yields

variable {ε α β : Type} {P : α → Prop} {Q : β → Prop} {x : Except ε α}

theorem ok {a : α} (h : P a) : Yields P (.ok a : Except ε α) := by
  intro b hb
  cases hb
  exact h

theorem error (e : ε) : Yields P (.error e : Except ε α) := nofun

theorem trivial (x : Except ε α) : Yields (fun _ => True) x := fun _ _ => True.intro

theorem mono (hx : Yields P x) {P' : α → Prop} (h : ∀ a, P a → P' a) : Yields P' x :=
  fun a ha => h a (hx a ha)

theorem bind {f : α → Except ε β} (hx : Yields P x) (hf : ∀ a, P a → Yields Q (f a)) :
    Yields Q (x >>= f) := by
  intro b hb
  cases x with
  | error e => cases hb
  | ok a => exact hf a (hx a rfl) b hb

theorem map {f : α → β} (hx : Yields (fun a => Q (f a)) x) : Yields Q (x.map f) := by
  intro b hb
  cases x with
  | error e => cases hb
  | ok a =>
    cases hb
    exact hx a rfl

/-- Items that are read one after the other. -/
theorem mapM {f : α → Except ε β} {rows : List α} (hf : ∀ a ∈ rows, Yields Q (f a)) :
    Yields (fun bs => ∀ b ∈ bs, Q b) (rows.mapM f) := by
  induction rows with
  | nil => exact ok (List.forall_mem_nil Q)
  | cons a rows ih =>
    rw [List.forall_mem_cons] at hf
    rw [List.mapM_cons]
    exact bind hf.1 fun b hb => bind (ih hf.2) fun bs hbs => ok (List.forall_mem_cons.2 ⟨hb, hbs⟩)

/-- Items that are read as they are selected. -/
theorem filterMapOk {p : α → Except ε Bool} {f : α → Except ε β} {rows : List α}
    (hf : ∀ a ∈ rows, Yields Q (f a)) :
    Yields (fun bs => ∀ b ∈ bs, Q b) (filterMapOk p f rows) := by
  induction rows with
  | nil => exact ok (List.forall_mem_nil Q)
  | cons a rows ih =>
    rw [List.forall_mem_cons] at hf
    rw [GraphBase.filterMapOk]
    refine bind (trivial (p a)) fun keep _ => ?_
    cases keep with
    | false => exact ih hf.2
    | true =>
      exact bind hf.1 fun b hb => bind (ih hf.2) fun bs hbs => ok (List.forall_mem_cons.2 ⟨hb, hbs⟩)

end Yields

/-! ## Rows -/

/-- A cell is read as an embedding, or as none. -/
inductive Cell.IsReadAs : Cell → Option Embedding → Prop
  | null : IsReadAs .null none
  | blob (bytes : List UInt8) : IsReadAs (.blob bytes) (some (Embedding.decode bytes))

/-- A row is read as a node, and its cell as the embedding of the node. -/
structure NodeRow.IsReadAs (row : NodeRow) (x : Node) : Prop where
  node : row.node = .ok x
  embedding : row.embedding.IsReadAs x.embedding

/-- The nodes of a triplet. -/
def Triplet.nodes (x : Triplet) : List Node := [x.source, x.target]

theorem yields_readEmbedding (c : Cell) : Yields c.IsReadAs (readEmbedding c) := by
  cases c with
  | null => exact .ok .null
  | blob bytes => exact .ok (.blob bytes)
  | _ => exact .error _

/-- An embedding that was stored is what its cell is read as. -/
theorem Cell.IsReadAs.eq_of_embeddingCell {v w : Option Embedding}
    (h : (embeddingCell v).IsReadAs w) : w = v := by
  cases v with
  | none =>
    cases h
    rfl
  | some v =>
    cases h
    rw [v.decode_encode]

theorem Node.embedding_readBack (n : Node) (text : Option String) :
    (n.readBack text).embedding = n.embedding := by
  rw [Node.readBack]
  split <;> rfl

theorem NodeRecord.embedding_node (r : NodeRecord) : r.node.embedding = r.embedding := by
  rw [NodeRecord.node]
  split <;> rfl

namespace NodeRow

theorem yields_record (row : NodeRow) : Yields (fun rec => row.IsReadAs rec.node) row.record := by
  have hcell : Yields (fun rec => row.embedding.IsReadAs rec.embedding) row.record :=
    .bind (.trivial _) fun _ _ => .bind (yields_readEmbedding row.embedding) fun _ hv => .ok hv
  intro rec hrec
  refine ⟨by rw [NodeRow.node, hrec]; rfl, ?_⟩
  rw [rec.embedding_node]
  exact hcell rec hrec

theorem yields_node (row : NodeRow) : Yields row.IsReadAs row.node := .map row.yields_record

end NodeRow

namespace GraphTables

/-- A node is what one of the rows is read as. -/
def Stores (t : GraphTables) (x : Node) : Prop := ∃ row ∈ t.nodes, row.IsReadAs x

variable {t : GraphTables} {row : NodeRow} {j : Joined} {r : RelationRow}

theorem yields_stores (hrow : row ∈ t.nodes) : Yields t.Stores row.node :=
  row.yields_node.mono fun _ h => ⟨row, hrow, h⟩

theorem yields_record? (t : GraphTables) (id : String) :
    Yields (fun rec => ∀ x ∈ rec.toList.map NodeRecord.node, t.Stores x) (t.record? id) := by
  rw [record?]
  cases hrow : t.node? id with
  | none => exact .ok (List.forall_mem_nil _)
  | some row =>
    refine .map (row.yields_record.mono fun rec h x hx => ?_)
    obtain rfl := List.mem_singleton.1 hx
    exact ⟨row, List.mem_of_find?_eq_some hrow, h⟩

theorem yields_filterOk {ε α : Type} (p : α → Except ε Bool) (rows : List α) :
    Yields (fun kept => ∀ a ∈ kept, a ∈ rows) (filterOk p rows) :=
  fun _ h _ ha => (mem_of_filterOk h ha).1

theorem yields_nodesWith (t : GraphTables) (properties : Properties) (ids : List String) :
    Yields (fun xs => ∀ x ∈ xs, t.Stores x) (t.nodesWith properties ids) := by
  rw [nodesWith]
  refine .bind (.trivial _) fun _ _ => ?_
  simp only
  split_ifs
  · exact .filterMapOk fun row hrow => yields_stores hrow
  · exact .bind (yields_filterOk _ _) fun rows hrows =>
      .mapM fun row hrow => yields_stores (List.mem_of_mem_filter (hrows row hrow))

/-- Whatever a relation row is joined with are rows of the tables. -/
theorem yields_triplet (hj : t.join? r = some j) :
    Yields (fun x => ∀ y ∈ x.nodes, t.Stores y) j.triplet := by
  rw [join?] at hj
  split at hj
  · rename_i source target hsource htarget
    cases hj
    refine .bind (.trivial _) fun _ _ => .bind source.yields_record fun a ha =>
      .bind target.yields_record fun b hb => .ok ?_
    rw [Triplet.nodes, List.forall_mem_cons, List.forall_mem_singleton]
    exact ⟨⟨source, List.mem_of_find?_eq_some hsource, ha⟩,
      ⟨target, List.mem_of_find?_eq_some htarget, hb⟩⟩
  · cases hj

theorem yields_triplets (t : GraphTables) (s : Selection) :
    Yields (fun xs => ∀ x ∈ xs, ∀ y ∈ x.nodes, t.Stores y) (t.triplets s) := by
  have hread : ∀ j ∈ (t.relations.rows.filterMap t.join?).filter fun j => j.isNamedBy s,
      Yields (fun x => ∀ y ∈ x.nodes, t.Stores y) j.triplet := by
    intro j hj
    obtain ⟨r, -, hjoin⟩ := List.mem_filterMap.1 (List.mem_of_mem_filter hj)
    exact yields_triplet hjoin
  rw [triplets]
  split_ifs
  · exact .ok (List.forall_mem_nil _)
  · exact .bind (.trivial _) fun _ _ => .filterMapOk hread
  · exact .bind (.trivial _) fun _ _ =>
      .bind (yields_filterOk _ _) fun rows hrows => .mapM fun j hj => hread j (hrows j hj)

theorem yields_pathRows (t : GraphTables) (seeds : List String) (depth limit : Nat) :
    Yields (fun rows => ∀ row ∈ rows, ∀ y ∈ row.triplet.nodes, t.Stores y)
      (t.pathRows seeds depth limit) := by
  refine .mapM fun row hrow => .map ?_
  obtain ⟨end_, -, hjoin⟩ := List.mem_filterMap.1 (List.mem_of_mem_take hrow)
  obtain ⟨j, hj, rfl⟩ := Option.map_eq_some_iff.1 hjoin
  exact yields_triplet hj

theorem yields_reachable (t : GraphTables) (seeds : List String) (depth limit : Nat)
    (ignored : List String) : Yields (fun xs => ∀ x ∈ xs, ∀ y ∈ x.nodes, t.Stores y)
      (t.reachable seeds depth limit ignored) := by
  refine .map ((yields_pathRows t seeds depth limit).mono fun rows hrows x hx => ?_)
  obtain ⟨row, hrow, rfl⟩ := List.mem_map.1 (List.mem_of_mem_filter hx)
  exact hrows row hrow

theorem yields_relMap (t : GraphTables) (seeds : List String) (depth limit : Nat)
    (ignored : List String) : Yields (fun m => ∀ e ∈ m, ∀ x ∈ e.2, ∀ y ∈ x.nodes, t.Stores y)
      (t.relMap seeds depth limit ignored) := by
  refine .map ((yields_pathRows t seeds depth limit).mono fun rows hrows e he x hx => ?_)
  rw [((RelMap.mem_iff_get (RelMap.nodup_keys_ofRows _ rows)).1 he).2, RelMap.get_ofRows_eq] at hx
  obtain ⟨row, hrow, rfl⟩ := List.mem_map.1 hx
  exact hrows row (RelMap.mem_listed.1 hrow).1

theorem yields_nearest (t : GraphTables) (point : Embedding) (count : Nat) :
    Yields (fun hits => ∀ hit ∈ hits, t.Stores hit.1) (t.nearest point count) := by
  have hmeasured : Yields (fun cs => ∀ c ∈ cs, c.2 ∈ t.nodes) (t.candidates point) := by
    refine .bind (P := fun ds => ∀ d ∈ ds, ∀ c ∈ d, c.2 ∈ t.nodes) (.mapM fun n hn => .map ?_)
      fun ds hds => .ok fun c hc => ?_
    · refine (Yields.trivial _).mono fun d _ c hc => ?_
      obtain ⟨x, -, rfl⟩ := Option.map_eq_some_iff.1 hc
      exact List.mem_of_mem_filter hn
    · obtain ⟨d, hd, hc⟩ := List.mem_filterMap.1 hc
      exact hds d hd c hc
  rw [nearest]
  split_ifs
  · exact .ok (List.forall_mem_nil _)
  · refine .bind hmeasured fun cs hcs => .mapM fun c hc => .map ?_
    exact yields_stores (hcs c (List.mem_mergeSort.1 (List.mem_of_mem_take hc)))

end GraphTables

/-! ## Calls -/

/-- The nodes in the answer of a call that only reads.  A record is shown as its node. -/
def PropertyCall.shown (store : PropertyStore) : PropertyCall → Access (List Node)
  | findNode id => do
    let record ← store.findNode id
    return record.toList.map NodeRecord.node
  | nodes properties ids => store.nodes properties ids
  | triplets s => do
    let xs ← store.triplets s
    return xs.flatMap Triplet.nodes
  | reachable seeds depth limit ignored => do
    let xs ← store.reachable seeds depth limit ignored
    return xs.flatMap Triplet.nodes
  | relMap seeds depth limit ignored => do
    let m ← store.relMap seeds depth limit ignored
    return m.flatMap fun e => e.2.flatMap Triplet.nodes
  | nearest point count => do
    let hits ← store.nearest point count
    return hits.map Prod.fst
  | _ => return []

theorem Access.yields_bind_pure {α β : Type} {x : Access α} {f : α → β} {Q : β → Prop} {s : Site}
    (hx : Yields (fun a => Q (f a)) (x.run s).1) :
    Yields Q ((x >>= fun a => pure (f a)).run s).1 := by
  cases hrun : x.run s with
  | mk r s' =>
    rw [hrun] at hx
    cases r with
    | error e =>
      rw [run_bind_error hrun]
      exact .error e
    | ok a =>
      rw [run_bind_ok hrun]
      exact .ok (hx a rfl)

namespace PropertyStore

variable {α : Type} {store : PropertyStore} {s s' : Site} {t : GraphTables} {row : NodeRow} {n : Node}
  {v : Embedding}

/-- A session that reads answers what is read from the tables. -/
theorem yields_session (hopen : store.IsOpen s t) {P : α → Prop}
    {read : GraphTables → Except StorageFault α} (hread : Yields P (read t)) :
    Yields P ((store.session (Session.readsOk read)).run s).1 := by
  cases h : read t with
  | error f =>
    rw [run_readsOk_fails hopen h]
    exact .error _
  | ok a =>
    have hsession : ∃ s', (store.session (Session.readsOk read)).run s = (.ok a, s') ∧
        store.IsOpen s' t := run_readsOk hopen h
    obtain ⟨s', hrun, -⟩ := hsession
    rw [hrun]
    exact .ok (hread a h)

/-- **Whatever is shown is what a row is read as**, whoever has written to the row. -/
theorem yields_shown (hopen : store.IsOpen s t) (c : PropertyCall) :
    Yields (fun xs => ∀ x ∈ xs, t.Stores x) ((c.shown store).run s).1 := by
  have hflat : ∀ {xs : List Triplet}, (∀ x ∈ xs, ∀ y ∈ x.nodes, t.Stores y) →
      ∀ y ∈ xs.flatMap Triplet.nodes, t.Stores y := by
    intro xs hxs y hy
    obtain ⟨x, hx, hy⟩ := List.mem_flatMap.1 hy
    exact hxs x hx y hy
  cases c with
  | findNode id => exact Access.yields_bind_pure (yields_session hopen (t.yields_record? id))
  | nodes properties ids => exact yields_session hopen (t.yields_nodesWith properties ids)
  | triplets selection =>
    refine Access.yields_bind_pure (Yields.mono ?_ fun xs => hflat)
    rw [triplets]
    split_ifs
    · exact .ok (List.forall_mem_nil _)
    · exact yields_session hopen (t.yields_triplets selection)
  | reachable seeds depth limit ignored =>
    refine Access.yields_bind_pure (Yields.mono ?_ fun xs => hflat)
    rw [reachable]
    split_ifs
    · exact .ok (List.forall_mem_nil _)
    · exact yields_session hopen (t.yields_reachable _ depth limit ignored)
  | relMap seeds depth limit ignored =>
    refine Access.yields_bind_pure (Yields.mono (P := fun m : RelMap String Triplet =>
      ∀ e ∈ m, ∀ x ∈ e.2, ∀ y ∈ x.nodes, t.Stores y) ?_ fun m hm y hy => ?_)
    · rw [relMap]
      split_ifs
      · exact .ok (List.forall_mem_nil _)
      · exact yields_session hopen (t.yields_relMap _ depth limit ignored)
    · obtain ⟨e, he, hy⟩ := List.mem_flatMap.1 hy
      exact hflat (hm e he) y hy
  | nearest point count =>
    refine Access.yields_bind_pure (Yields.mono (P := fun hits : List (Node × _) =>
      ∀ hit ∈ hits, t.Stores hit.1) ?_ fun hits hhits x hx => ?_)
    · rw [nearest]
      split
      · exact .error _
      · split_ifs
        · exact .ok (List.forall_mem_nil _)
        · exact yields_session hopen (t.yields_nearest point count)
    · obtain ⟨hit, hhit, rfl⟩ := List.mem_map.1 hx
      exact hhits hit hhit
  | _ => exact .ok (List.forall_mem_nil _)

/-! ## Embeddings that are kept -/

/-- What a client is shown of an embedding that is stored under an identity. -/
structure ShowsEmbedding (store : PropertyStore) (s : Site) (id : String) (v : Embedding) :
    Prop where
  find : ∃ rec s', (store.findNode id).run s = (.ok (some rec), s') ∧ rec.embedding = some v
  lookUp : ∀ now, ∃ rec s', (store.getOrCreateNode now id).run s = (.ok (rec, false), s') ∧
    rec.embedding = some v
  get : ∃ x s', (store.nodes .empty [id]).run s = (.ok [x], s') ∧ x.embedding = some v
  /-- Wherever else the node is shown, it is shown with this embedding. -/
  shown : ∀ c xs s', (PropertyCall.shown store c).run s = (.ok xs, s') → ∀ x ∈ xs, x.id = id →
    x.embedding = some v

/-- What a store on a site does with the embeddings that it is given. -/
structure KeepsEmbeddings (store : PropertyStore) (s : Site) : Prop where
  /-- A batch is accepted if all its embeddings have the dimension of the store, and only then. -/
  accepts : ∀ now batch, s.engine.locator.refusal = none →
    ((∃ s', (store.upsertNodes now batch).run s = (.ok (), s')) ↔
      ∀ n ∈ batch, store.schema.Fits n)
  /-- The last embedding of an identity is in the row from then on, and is shown for as long as the
  row is spared. -/
  keeps : ∀ now before after n v s', n.embedding = some v → (∀ m ∈ after, m.id ≠ n.id) →
    (store.upsertNodes now (before ++ n :: after)).run s = (.ok (), s') →
    v.length = store.schema.dimension ∧
      ∃ row, row.id = n.id ∧ row.embedding = .blob v.encode ∧
        ∀ events s'', store.Run s' events s'' → (∀ e ∈ events, e.Spares row) →
          store.ShowsEmbedding s'' n.id v

theorem showsEmbedding_of_mem (hopen : store.IsOpen s t)
    (hwf : t.WellFormed store.schema.dimension) (hrow : row ∈ t.nodes) (hwritten : row.IsWritten n)
    (hv : n.embedding = some v) : store.ShowsEmbedding s n.id v := by
  obtain ⟨hnodes, rec, s', hfind, -, -, -, -, -, -, hrec, -⟩ :=
    readsBack_of_mem hopen hwf hrow hwritten
  constructor
  case find => exact ⟨rec, s', hfind, hrec.trans hv⟩
  case lookUp =>
    intro now
    obtain ⟨rec, hread, -, -, -, -, -, hembedding, -⟩ :=
      hwritten.exists_record (hwf.nodes row hrow)
    have hthere : t.node? n.id = some row := hwf.node?_eq_some.2 ⟨hrow, hwritten.id⟩
    have hbody := GraphTables.run_getOrCreateNode_present now hthere hread s.engine.locator.refusal
    obtain ⟨s', hrun, -⟩ := run_session hopen hbody
    exact ⟨rec, s', hrun, hembedding.trans hv⟩
  case get =>
    obtain ⟨s', hrun⟩ := hnodes
    exact ⟨_, s', hrun, (n.embedding_readBack row.text).trans hv⟩
  case shown =>
    intro c xs s' hrun x hx hid
    obtain ⟨row', hrow', hread⟩ := yields_shown hopen c xs (congrArg Prod.fst hrun) x hx
    obtain ⟨x', hx', hid'⟩ := hwf.exists_node hrow'
    obtain rfl : x' = x := Except.ok.inj (hx'.symm.trans hread.node)
    obtain rfl : row' = row := List.inj_on_of_nodup_map hwf.ids_nodup hrow' hrow
      ((hid'.symm.trans hid).trans hwritten.id.symm)
    rw [← hv]
    exact Cell.IsReadAs.eq_of_embeddingCell (hwritten.embedding ▸ hread.embedding)

/-- Only batches whose embeddings have the dimension of the store are accepted. -/
theorem fits_of_upsertNodes {now : String} {batch : List Node}
    (hrun : (store.upsertNodes now batch).run s = (.ok (), s')) :
    ∀ n ∈ batch, store.schema.Fits n := by
  rw [upsertNodes] at hrun
  split at hrun
  · cases hrun
  · rename_i hcheck
    exact PropertySchema.checkEmbeddings_eq_ok.1 hcheck

/-- **An embedding that is accepted is kept**, in every state that a run leads to. -/
theorem keepsEmbeddings (h : store.Reaches s t) : store.KeepsEmbeddings s := by
  obtain ⟨hopen, hwf⟩ := h.isOpen
  constructor
  case accepts =>
    intro now batch hwritable
    constructor
    · rintro ⟨s', hrun⟩
      exact fits_of_upsertNodes hrun
    · intro hbatch
      exact exists_of_upsertNodes hopen hwritable (PropertySchema.checkEmbeddings_eq_ok.2 hbatch) now
  case keeps =>
    intro now before after n v s' hv hlast hrun
    obtain ⟨t₁, row, hopen₁, hwf₁, -, hmem, hwritten⟩ :=
      exists_isWritten_of_upsertNodes hopen hwf hlast hrun
    have hcell : row.embedding = .blob v.encode := by rw [hwritten.embedding, hv, embeddingCell]
    -- whatever else is in the row, a row with an embedding is not left over from a relation
    have hbare : row.isBare = false := by simp [NodeRow.isBare, hcell]
    refine ⟨fits_of_upsertNodes hrun n (by simp) v hv, row, hwritten.id, hcell,
      fun events s'' hrun' hspares => ?_⟩
    obtain ⟨t₂, hopen₂, hwf₂, hmem₂⟩ := mem_of_run hrun' hopen₁ hwf₁ hmem hbare hspares
    exact showsEmbedding_of_mem hopen₂ hwf₂ hmem₂ hwritten hv

end PropertyStore

/-! ## All together -/

/-- **Embeddings are read bit by bit as they were written, and bytes are written again as they were
read**, but for those at the end that make no component.  The dimension of a blob is the number of
its components, whoever asks for it.  What is shown of a row is what its bytes are read as, whoever
has written them, and an embedding that a store accepts has its dimension and is shown as it was for
as long as its row is spared. -/
theorem embeddings_readBack :
    (∀ v : Embedding, Embedding.decode v.encode = v ∧ v.encode.length = 4 * v.length ∧
      ∀ j i, i < 4 → v.encode[4 * j + i]? =
        v[j]?.map fun x => UInt8.ofNat (x.bits.toNat / 256 ^ i)) ∧
    (∀ bytes : List UInt8, (Embedding.decode bytes).length = bytes.length / 4 ∧
      (Embedding.decode bytes).encode = bytes.rdrop (bytes.length % 4)) ∧
    Function.Injective Embedding.encode ∧
    (∀ bytes, Embedding.HasDimension bytes (bytes.length / 4)) ∧
    (∀ v : Embedding, Embedding.HasDimension v.encode v.length) ∧
    (∀ (store : PropertyStore) (s : Site) (t : GraphTables), store.IsOpen s t →
      ∀ c xs s', (PropertyCall.shown store c).run s = (.ok xs, s') →
        ∀ x ∈ xs, ∃ row ∈ t.nodes, row.IsReadAs x) ∧
    ∀ (store : PropertyStore) (s : Site) (t : GraphTables), store.Reaches s t →
      store.KeepsEmbeddings s := by
  refine ⟨fun v => ⟨v.decode_encode, v.length_encode, fun j i hi => v.getElem?_encode j hi⟩,
    fun bytes => ⟨Embedding.length_decode bytes, Embedding.encode_decode bytes⟩,
    Embedding.encode_injective, Embedding.hasDimension, Embedding.hasDimension_encode, ?_,
    fun store s t h => PropertyStore.keepsEmbeddings h⟩
  intro store s t hopen c xs s' hrun
  exact PropertyStore.yields_shown hopen c xs (congrArg Prod.fst hrun)

/-- A row with bytes that somebody else has written: one component, and one byte more. -/
def raggedTables : GraphTables where
  nodes := [{ NodeRow.bare "now" "A" with embedding := .blob [1, 2, 3, 4, 5] }]

/-- A site with these tables in a file. -/
def raggedSite : Site where
  host := { files := [([[0x61]], .database { graph := some raggedTables })] }
  engine := PropertyStore.fileSite.engine

/-- An embedding with a NaN that has a payload, and with a negative zero. -/
def strangeEmbedding : Embedding := [⟨0x7f800001⟩, ⟨0x80000000⟩]

/-- A byte that is over is not shown, and makes no difference to the dimension.  A strange embedding
is found as it was stored, after something else was. -/
theorem embeddings_readBack_ragged :
    Embedding.encode (Embedding.decode [1, 2, 3, 4, 5]) = [1, 2, 3, 4] ∧
    Embedding.cellDimension? (.blob [1, 2, 3, 4, 5]) = .ok (some 1) ∧
    (∃ x s', (PropertyCall.shown ⟨{}⟩ (.findNode "A")).run raggedSite = (.ok [x], s') ∧
      x.embedding = some [⟨0x04030201⟩]) ∧
    ∃ s s₁ s₂ s₃ rec, PropertyStore.Reaches ⟨⟨2⟩⟩ s PropertyStore.layeredTables ∧
      (PropertyStore.upsertNodes ⟨⟨2⟩⟩ "now"
        [.other "A" { label := "x", embedding := some strangeEmbedding }]).run s = (.ok (), s₁) ∧
      PropertyStore.Run ⟨⟨2⟩⟩ s₁ [.call (.upsertNodes "now" [.other "B" { label := "x" }])] s₂ ∧
      (PropertyStore.findNode ⟨⟨2⟩⟩ "A").run s₂ = (.ok (some rec), s₃) ∧
      rec.embedding = some strangeEmbedding := by
  obtain ⟨-, hbytes, -, hdimension, -, hshown, hkeeps⟩ := embeddings_readBack
  refine ⟨(hbytes [1, 2, 3, 4, 5]).2, (hdimension [1, 2, 3, 4, 5]).counted, ?_, ?_⟩
  · have hopen : PropertyStore.IsOpen ⟨{}⟩ raggedSite raggedTables :=
      ⟨⟨rfl, rfl, nofun⟩, by decide +kernel⟩
    have hfind : ∃ s', (PropertyStore.findNode ⟨{}⟩ "A").run raggedSite =
        (.ok (some { NodeRow.bare "now" "A" with
          properties := .empty, embedding := some [⟨0x04030201⟩] }), s') ∧
        PropertyStore.IsOpen ⟨{}⟩ s' raggedTables :=
      PropertyStore.run_readsOk hopen rfl
    obtain ⟨s', hfind, -⟩ := hfind
    have hrun : ∃ x, (PropertyCall.shown ⟨{}⟩ (.findNode "A")).run raggedSite = (.ok [x], s') :=
      ⟨_, Access.run_bind_ok hfind⟩
    obtain ⟨x, hrun⟩ := hrun
    obtain ⟨row, hrow, hread⟩ := hshown _ _ _ hopen _ _ _ hrun x List.mem_cons_self
    refine ⟨x, s', hrun, ?_⟩
    obtain rfl := List.mem_singleton.1 hrow
    have hcell := hread.embedding
    generalize x.embedding = v at hcell ⊢
    cases hcell
    rfl
  · obtain ⟨s, h, hwritable⟩ := PropertyStore.exists_reaches_layeredTables
    have hkept := hkeeps _ _ _ h
    have hfits : ∀ n ∈ [Node.other "A" { label := "x", embedding := some strangeEmbedding }],
        PropertySchema.Fits ⟨2⟩ n := by
      simp [PropertySchema.Fits, Node.embedding, Node.body, strangeEmbedding]
    obtain ⟨s₁, hrun⟩ := (hkept.accepts "now" _ hwritable).2 hfits
    obtain ⟨-, row, hid, -, hafter⟩ := hkept.keeps "now" [] [] _ strangeEmbedding s₁ rfl
      (fun m hm => absurd hm List.not_mem_nil) hrun
    have hnext : PropertyStore.Run ⟨⟨2⟩⟩ s₁
        [.call (.upsertNodes "now" [.other "B" { label := "x" }])] _ := .cons (.call _) (.nil _)
    have hspares : ∀ e ∈ [PropertyEvent.call (.upsertNodes "now" [.other "B" { label := "x" }])],
        e.Spares row := by
      simp [PropertyEvent.Spares, hid, Node.id]
    obtain ⟨rec, s₃, hfind, hrec⟩ := (hafter _ _ hnext hspares).find
    exact ⟨s, s₁, _, s₃, rec, h, hrun, hnext, hfind, hrec⟩

end GraphBase
