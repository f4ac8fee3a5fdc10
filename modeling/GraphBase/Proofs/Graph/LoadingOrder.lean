import GraphBase.Proofs.Graph.Deletion
import GraphBase.Proofs.Graph.Effects
import GraphBase.Proofs.Graph.Loading

/-!
# In which order a store is loaded

A store is loaded by batches of nodes and batches of relations.  It makes no difference to the rows
which of the two comes first, or into how many calls a batch is divided, or whether it comes twice
(`PropertyStore.loads_of_reaches`).  What may differ are the times and, where relations have made
rows before nodes came, the order of the node rows.

Both kinds of calls have the same shape (`PropertyStore.Loads`): whether a batch is accepted can be
told from the connection and the batch alone, and what is accepted is put into the tables item by
item.  So what is said about pieces and about repetition is shown once for both.

A batch is accepted or not, whatever is there already.  So a batch of nodes with an embedding of a
wrong length fails before a batch of relations and after it.
-/

namespace GraphBase

open GraphTables (addRow putRow putRelation)

/-- The answer to a batch that nothing is wrong with.  A connection that may not write lets only the
empty one through. -/
def answerUnder {ι : Type} : Refusal → List ι → Except Error Unit
  | none, _ | some _, [] => .ok ()
  | some f, _ :: _ => .error (.storage f)

/-- What comes of a batch: all of it, or nothing if the answer is an error. -/
def accepted {ι : Type} : Except Error Unit → List ι → List ι
  | .ok _, batch => batch
  | .error _, _ => []

theorem answerUnder_append {ι : Type} {r : Refusal} {xs ys : List ι}
    (hxs : answerUnder r xs = .ok ()) (hys : answerUnder r ys = .ok ()) :
    answerUnder r (xs ++ ys) = .ok () := by
  cases r with
  | none => rfl
  | some f =>
    cases xs with
    | nil => exact hys
    | cons x xs => cases hxs

namespace GraphTables

/-- The tables after a node has been written. -/
def putNode (now : String) (t : GraphTables) (node : Node) : GraphTables :=
  { t with nodes := putRow now t.nodes node }

/-- The tables after a relation has been written. -/
def link (now : String) (t : GraphTables) (r : Relation) : GraphTables where
  nodes := r.ends.foldl (addRow now) t.nodes
  relations := putRelation now t.relations r

/-- The same nodes, in any order, and the same relations, apart from all times. -/
structure SameContent (t t' : GraphTables) : Prop where
  nodes : (t.nodes.map NodeRow.timeless).Perm (t'.nodes.map NodeRow.timeless)
  relations : t.relations.mapRows RelationRow.timeless = t'.relations.mapRows RelationRow.timeless

variable (now : String) (t : GraphTables)

theorem foldl_putNode (batch : List Node) :
    batch.foldl (putNode now) t = { t with nodes := batch.foldl (putRow now) t.nodes } := by
  induction batch generalizing t with
  | nil => rfl
  | cons node rest ih => exact ih (putNode now t node)

theorem foldl_link (batch : List Relation) :
    batch.foldl (link now) t = {
      nodes := (batch.flatMap Relation.ends).foldl (addRow now) t.nodes
      relations := batch.foldl (putRelation now) t.relations } := by
  induction batch generalizing t with
  | nil => rfl
  | cons r rest ih =>
    rw [List.foldl_cons, ih, List.flatMap_cons, List.foldl_append]
    rfl

theorem timeless_putNode (node : Node) :
    (putNode now t node).timeless = putNode "" t.timeless node :=
  congrArg (GraphTables.mk · _) (timeless_putRow now t.nodes node)

theorem timeless_link (r : Relation) : (link now t r).timeless = link "" t.timeless r := by
  rw [GraphTables.mk.injEq]
  exact ⟨timeless_foldl_addRow now r.ends t.nodes, timeless_putRelation now t.relations r⟩

/-- Nodes that are written again change nothing but the times of last changes, -/
theorem lasting_foldl_putNode (now' : String) (batch : List Node) :
    (batch.foldl (putNode now') (batch.foldl (putNode now) t)).lasting =
      (batch.foldl (putNode now) t).lasting := by
  rw [foldl_putNode, foldl_putNode]
  exact congrArg (GraphTables.mk · _) (lasting_foldl_putRow now now' batch t.nodes)

/-- and neither do relations. -/
theorem lasting_foldl_link (now' : String) (batch : List Relation) :
    (batch.foldl (link now') (batch.foldl (link now) t)).lasting =
      (batch.foldl (link now) t).lasting := by
  have hthere : ∀ id ∈ batch.flatMap Relation.ends,
      id ∈ ((batch.flatMap Relation.ends).foldl (addRow now) t.nodes).map NodeRow.id := by
    intro id hid
    rw [ids_foldl_addRow, mem_foldl_addNew]
    exact .inr hid
  rw [foldl_link, foldl_link, foldl_addRow_of_mem hthere]
  exact congrArg (GraphTables.mk _) (lasting_foldl_putRelation now now' batch t.relations)

/-- **Nodes and relations may change places.** -/
theorem sameContent_foldl (now₁ now₂ now₃ now₄ : String) (nodes : List Node)
    (relations : List Relation) :
    SameContent (relations.foldl (link now₂) (nodes.foldl (putNode now₁) t))
      (nodes.foldl (putNode now₄) (relations.foldl (link now₃) t)) := by
  rw [foldl_putNode, foldl_putNode, foldl_link, foldl_link]
  refine ⟨?_, ?_⟩
  · rw [timeless_foldl_addRow, timeless_foldl_putRow, timeless_foldl_putRow, timeless_foldl_addRow]
    exact foldl_putRow_perm "" nodes _ _
  · rw [timeless_foldl_putRelation, timeless_foldl_putRelation]

end GraphTables

namespace PropertyStore

variable {ι : Type} {store : PropertyStore} {s : Site} {t : GraphTables}
  {call : String → List ι → Access Unit} {answer : Refusal → List ι → Except Error Unit}
  {put : String → GraphTables → ι → GraphTables}

/-! ## Loading -/

/-- A call loads batches: it answers as the connection and the batch will have it, and puts what is
accepted into the tables, item by item. -/
structure Loads (store : PropertyStore) (call : String → List ι → Access Unit)
    (answer : Refusal → List ι → Except Error Unit)
    (put : String → GraphTables → ι → GraphTables) : Prop where
  run : ∀ {s t} (now batch), store.IsOpen s t → t.WellFormed store.schema.dimension →
    ∃ s' t', (call now batch).run s = (answer s.engine.locator.refusal batch, s') ∧
      s'.engine.locator = s.engine.locator ∧ store.IsOpen s' t' ∧
      t'.WellFormed store.schema.dimension ∧
      t' = (accepted (answer s.engine.locator.refusal batch) batch).foldl (put now) t
  append : ∀ {r xs ys}, answer r xs = .ok () → answer r ys = .ok () →
    answer r (xs ++ ys) = .ok ()
  timeless : ∀ now t i, (put now t i).timeless = put "" t.timeless i
  lasting : ∀ now t now' (batch : List ι),
    (batch.foldl (put now') (batch.foldl (put now) t)).lasting = (batch.foldl (put now) t).lasting

/-- Two batches that are accepted one after the other are accepted as one, and this leads to the same
tables apart from the times, which are the same if the clock shows the same. -/
def LoadsInPieces (store : PropertyStore) (s : Site) (call : String → List ι → Access Unit) : Prop :=
  ∀ now₁ now₂ now₃ xs ys s₁ s₂, (call now₁ xs).run s = (.ok (), s₁) →
    (call now₂ ys).run s₁ = (.ok (), s₂) →
    ∃ s₃ t₂ t₃, (call now₃ (xs ++ ys)).run s = (.ok (), s₃) ∧ store.IsOpen s₂ t₂ ∧
      store.IsOpen s₃ t₃ ∧ t₃.timeless = t₂.timeless ∧ (now₁ = now₃ → now₂ = now₃ → t₃ = t₂)

/-- A batch that comes again has the same answer again, makes no row and changes nothing but the
times of last changes. -/
def LoadsAgain (store : PropertyStore) (s : Site) (call : String → List ι → Access Unit) : Prop :=
  ∀ now now' batch, ∃ r s₁ s₂ t₁ t₂, (call now batch).run s = (r, s₁) ∧
    (call now' batch).run s₁ = (r, s₂) ∧ store.IsOpen s₁ t₁ ∧ store.IsOpen s₂ t₂ ∧
    t₂.lasting = t₁.lasting

/-- Nodes and relations may be loaded in either order.  Each call has the same answer in both, which
is an error for nodes with an embedding of a wrong length. -/
def LoadsInEitherOrder (store : PropertyStore) (s : Site) : Prop :=
  ∀ now₁ now₂ now₃ now₄ nodes relations, ∃ r r' s₁ s₂ s₃ s₄ t₂ t₄,
    (store.upsertNodes now₁ nodes).run s = (r, s₁) ∧
    (store.upsertRelations now₂ relations).run s₁ = (r', s₂) ∧
    (store.upsertRelations now₃ relations).run s = (r', s₃) ∧
    (store.upsertNodes now₄ nodes).run s₃ = (r, s₄) ∧
    store.IsOpen s₂ t₂ ∧ store.IsOpen s₄ t₄ ∧ t₂.SameContent t₄ ∧
    ((∃ node ∈ nodes, ¬store.schema.Fits node) → ∃ e, r = .error e) ∧
    (s.engine.locator.refusal = none → r' = .ok () ∧
      ((∀ node ∈ nodes, store.schema.Fits node) → r = .ok ()))

namespace Loads

variable (h : store.Loads call answer put) (hopen : store.IsOpen s t)
  (hwf : t.WellFormed store.schema.dimension)

include h

theorem timeless_foldl (now : String) (t : GraphTables) (batch : List ι) :
    (batch.foldl (put now) t).timeless = batch.foldl (put "") t.timeless :=
  (List.foldl_hom GraphTables.timeless fun t i => (h.timeless now t i).symm).symm

include hopen hwf

/-- **A batch may come in pieces.** -/
theorem inPieces : store.LoadsInPieces s call := by
  intro now₁ now₂ now₃ xs ys s₁ s₂ hrun₁ hrun₂
  obtain ⟨s₁', t₁, hrun₁', hlocator, hopen₁, hwf₁, ht₁⟩ := h.run now₁ xs hopen hwf
  rw [hrun₁, Prod.mk.injEq] at hrun₁'
  obtain ⟨hxs, rfl⟩ := hrun₁'
  obtain ⟨s₂', t₂, hrun₂', -, hopen₂, -, ht₂⟩ := h.run now₂ ys hopen₁ hwf₁
  rw [hrun₂, hlocator, Prod.mk.injEq] at hrun₂'
  obtain ⟨hys, rfl⟩ := hrun₂'
  obtain ⟨s₃, t₃, hrun₃, -, hopen₃, -, ht₃⟩ := h.run now₃ (xs ++ ys) hopen hwf
  rw [h.append hxs.symm hys.symm] at hrun₃ ht₃
  rw [← hxs] at ht₁
  rw [hlocator, ← hys] at ht₂
  have hwhole : t₃ = ys.foldl (put now₃) (xs.foldl (put now₃) t) := ht₃.trans List.foldl_append
  have hpieces : t₂ = ys.foldl (put now₂) (xs.foldl (put now₁) t) := by
    rw [ht₂, ht₁]
    rfl
  refine ⟨s₃, t₂, t₃, hrun₃, hopen₂, hopen₃, ?_, ?_⟩
  · rw [hwhole, hpieces, h.timeless_foldl, h.timeless_foldl, h.timeless_foldl, h.timeless_foldl]
  · rintro rfl rfl
    rw [hwhole, hpieces]

/-- **A batch may come again.** -/
theorem again : store.LoadsAgain s call := by
  intro now now' batch
  obtain ⟨s₁, t₁, hrun₁, hlocator, hopen₁, hwf₁, ht₁⟩ := h.run now batch hopen hwf
  obtain ⟨s₂, t₂, hrun₂, -, hopen₂, -, ht₂⟩ := h.run now' batch hopen₁ hwf₁
  rw [hlocator] at hrun₂ ht₂
  refine ⟨_, s₁, s₂, t₁, t₂, hrun₁, hrun₂, hopen₁, hopen₂, ?_⟩
  rw [ht₂, ht₁, h.lasting]

end Loads

/-! ## The two kinds of batches -/

/-- The answer to a batch of nodes. -/
def nodesAnswer (store : PropertyStore) (r : Refusal) (nodes : List Node) : Except Error Unit :=
  match store.schema.checkEmbeddings nodes with
  | .error e => .error e
  | .ok () => answerUnder r nodes

theorem nodesAnswer_of_fits {nodes : List Node} (h : ∀ node ∈ nodes, store.schema.Fits node)
    (r : Refusal) : store.nodesAnswer r nodes = answerUnder r nodes := by
  rw [nodesAnswer, PropertySchema.checkEmbeddings_eq_ok.2 h]

theorem fits_of_nodesAnswer {r : Refusal} {nodes : List Node}
    (h : store.nodesAnswer r nodes = .ok ()) : ∀ node ∈ nodes, store.schema.Fits node := by
  rw [nodesAnswer] at h
  cases hcheck : store.schema.checkEmbeddings nodes with
  | error e =>
    rw [hcheck] at h
    cases h
  | ok u => exact PropertySchema.checkEmbeddings_eq_ok.1 hcheck

section Batch

variable {body : Session GraphTables Unit} {step : GraphTables → ι → GraphTables} {batch : List ι}

/-- What a session answers that writes a batch, and that fails under a refusal unless the batch is
empty. -/
theorem answer_session_batch (hopen : store.IsOpen s t)
    (hbody : body none t = .ok ((), batch.foldl step t))
    (hrefused : ∀ f, body (some f) t = (answerUnder (some f) batch).map fun u => (u, t)) :
    ∃ s', (store.session body).run s = (answerUnder s.engine.locator.refusal batch, s') ∧
      store.IsOpen s'
        ((accepted (answerUnder s.engine.locator.refusal batch) batch).foldl step t) := by
  cases hrefusal : s.engine.locator.refusal with
  | none =>
    rw [← hrefusal] at hbody
    obtain ⟨s', hrun, hopen'⟩ := run_session hopen hbody
    rw [hrefusal] at hopen'
    exact ⟨s', hrun, hopen'⟩
  | some f =>
    cases batch with
    | nil =>
      have hnothing : body s.engine.locator.refusal t = .ok ((), t) := by
        rw [hrefusal]
        exact hrefused f
      obtain ⟨s', hrun, hopen'⟩ := run_session hopen hnothing
      rw [ite_self] at hopen'
      exact ⟨s', hrun, hopen'⟩
    | cons i rest =>
      have hfails : body s.engine.locator.refusal t = .error (.storage f) := by
        rw [hrefusal]
        exact hrefused f
      exact ⟨s, run_session_fails hopen hfails, hopen⟩

/-- After such a session the store is where it was, and its tables follow their rules. -/
theorem run_session_batch (hopen : store.IsOpen s t) (hwf : t.WellFormed store.schema.dimension)
    (hbody : body none t = .ok ((), batch.foldl step t))
    (hrefused : ∀ f, body (some f) t = (answerUnder (some f) batch).map fun u => (u, t))
    (hkeeps : Session.Keeps (t.Follows store.schema.dimension) body) :
    ∃ s' t', (store.session body).run s = (answerUnder s.engine.locator.refusal batch, s') ∧
      s'.engine.locator = s.engine.locator ∧ store.IsOpen s' t' ∧
      t'.WellFormed store.schema.dimension ∧
      t' = (accepted (answerUnder s.engine.locator.refusal batch) batch).foldl step t := by
  obtain ⟨s', hrun, hopen'⟩ := answer_session_batch hopen hbody hrefused
  have hlocator : ((store.session body).run s).2.engine.locator = s.engine.locator :=
    Engine.locator_run_session hopen.ready.fresh _
  obtain ⟨t', hopen'', hfollows⟩ := exists_tables_of_session hopen (.refl hwf) hkeeps
  rw [hrun] at hlocator hopen''
  obtain rfl := hopen'.unique hopen''
  exact ⟨s', _, hrun, hlocator, hopen', hfollows.wellFormed, rfl⟩

end Batch

/-- **Batches of nodes are loaded** node by node. -/
theorem loads_nodes (store : PropertyStore) :
    store.Loads store.upsertNodes store.nodesAnswer GraphTables.putNode where
  run {s t} now batch hopen hwf := by
    rw [upsertNodes, nodesAnswer]
    cases hcheck : store.schema.checkEmbeddings batch with
    | error e => exact ⟨s, t, rfl, rfl, hopen, hwf, rfl⟩
    | ok u =>
      have hbody := GraphTables.run_writeNodes now batch t
      rw [← GraphTables.foldl_putNode] at hbody
      refine run_session_batch hopen hwf hbody (fun f => ?_)
        (GraphTables.keeps_writeNodes now (PropertySchema.checkEmbeddings_eq_ok.1 hcheck))
      cases batch with
      | nil => rfl
      | cons node rest => exact GraphTables.run_writeNodes_refused now (List.cons_ne_nil _ _) f t
  append {r xs ys} hxs hys := by
    have hfits : ∀ node ∈ xs ++ ys, store.schema.Fits node :=
      List.forall_mem_append.2 ⟨fits_of_nodesAnswer hxs, fits_of_nodesAnswer hys⟩
    rw [nodesAnswer_of_fits (fits_of_nodesAnswer hxs)] at hxs
    rw [nodesAnswer_of_fits (fits_of_nodesAnswer hys)] at hys
    rw [nodesAnswer_of_fits hfits]
    exact answerUnder_append hxs hys
  timeless := GraphTables.timeless_putNode
  lasting := GraphTables.lasting_foldl_putNode

/-- **Batches of relations are loaded** relation by relation. -/
theorem loads_relations (store : PropertyStore) :
    store.Loads store.upsertRelations answerUnder GraphTables.link where
  run {s t} now batch hopen hwf := by
    have hbody := GraphTables.run_writeRelations hwf now batch
    rw [← GraphTables.foldl_link] at hbody
    refine run_session_batch hopen hwf hbody (fun f => ?_)
      (GraphTables.keeps_writeRelations now batch)
    cases batch with
    | nil => rfl
    | cons r rest => exact hwf.run_writeRelations_refused now (List.cons_ne_nil _ _) f
  append := answerUnder_append
  timeless := GraphTables.timeless_link
  lasting := GraphTables.lasting_foldl_link

/-- **Nodes and relations may be loaded in either order.** -/
theorem loadsInEitherOrder_of_isOpen (hopen : store.IsOpen s t)
    (hwf : t.WellFormed store.schema.dimension) : store.LoadsInEitherOrder s := by
  intro now₁ now₂ now₃ now₄ nodes relations
  obtain ⟨s₁, t₁, hrun₁, hlocator₁, hopen₁, hwf₁, ht₁⟩ :=
    (loads_nodes store).run now₁ nodes hopen hwf
  obtain ⟨s₂, t₂, hrun₂, -, hopen₂, -, ht₂⟩ :=
    (loads_relations store).run now₂ relations hopen₁ hwf₁
  obtain ⟨s₃, t₃, hrun₃, hlocator₃, hopen₃, hwf₃, ht₃⟩ :=
    (loads_relations store).run now₃ relations hopen hwf
  obtain ⟨s₄, t₄, hrun₄, -, hopen₄, -, ht₄⟩ := (loads_nodes store).run now₄ nodes hopen₃ hwf₃
  rw [hlocator₁] at hrun₂ ht₂
  rw [hlocator₃] at hrun₄ ht₄
  refine ⟨_, _, s₁, s₂, s₃, s₄, t₂, t₄, hrun₁, hrun₂, hrun₃, hrun₄, hopen₂, hopen₄, ?_, ?_, ?_⟩
  · rw [ht₂, ht₁, ht₄, ht₃]
    exact GraphTables.sameContent_foldl t now₁ now₂ now₃ now₄ _ _
  · rintro ⟨node, hnode, hwrong⟩
    cases hanswer : store.nodesAnswer s.engine.locator.refusal nodes with
    | ok u => exact absurd (fits_of_nodesAnswer hanswer node hnode) hwrong
    | error e => exact ⟨e, rfl⟩
  · intro hwrite
    rw [hwrite]
    refine ⟨rfl, fun hfits => ?_⟩
    rw [nodesAnswer_of_fits hfits]
    rfl

/-- **How a store is loaded makes no difference to its rows**, in every state that a run leads to:
not the order of nodes and relations, not the division of a batch into calls, and not a batch that
comes twice. -/
theorem loads_of_reaches (h : store.Reaches s t) :
    store.LoadsInEitherOrder s ∧
      (store.LoadsInPieces s store.upsertNodes ∧ store.LoadsInPieces s store.upsertRelations) ∧
      store.LoadsAgain s store.upsertNodes ∧ store.LoadsAgain s store.upsertRelations := by
  obtain ⟨hopen, hwf⟩ := h.isOpen
  exact ⟨loadsInEitherOrder_of_isOpen hopen hwf,
    ⟨(loads_nodes store).inPieces hopen hwf, (loads_relations store).inPieces hopen hwf⟩,
    (loads_nodes store).again hopen hwf, (loads_relations store).again hopen hwf⟩

/-- A bare row that becomes an entity and then a chunk, a new entity, and relations of both, one of
them twice. -/
theorem loads_trail : ∃ s s₁ s₂ s₃ s₄ t₂ t₄, PropertyStore.Reaches ⟨{}⟩ s trailTables ∧
    (PropertyStore.upsertNodes ⟨{}⟩ "1" [.entity "B" { label := "x" }, .entity "D" { label := "x" },
      .chunk "B" "text" { label := "y" }]).run s = (.ok (), s₁) ∧
    (PropertyStore.upsertRelations ⟨{}⟩ "2" [⟨"r", "D", "E", .empty⟩, ⟨"r", "B", "D", .empty⟩,
      ⟨"r", "D", "E", .ofList [("k", .int 1)]⟩]).run s₁ = (.ok (), s₂) ∧
    (PropertyStore.upsertRelations ⟨{}⟩ "3" [⟨"r", "D", "E", .empty⟩, ⟨"r", "B", "D", .empty⟩,
      ⟨"r", "D", "E", .ofList [("k", .int 1)]⟩]).run s = (.ok (), s₃) ∧
    (PropertyStore.upsertNodes ⟨{}⟩ "4" [.entity "B" { label := "x" }, .entity "D" { label := "x" },
      .chunk "B" "text" { label := "y" }]).run s₃ = (.ok (), s₄) ∧
    PropertyStore.IsOpen ⟨{}⟩ s₂ t₂ ∧ PropertyStore.IsOpen ⟨{}⟩ s₄ t₄ ∧ t₂.SameContent t₄ := by
  obtain ⟨s, h, hwrite⟩ := exists_reaches_trailTables
  obtain ⟨horder, -⟩ := loads_of_reaches h
  obtain ⟨r, r', s₁, s₂, s₃, s₄, t₂, t₄, h₁, h₂, h₃, h₄, hopen₂, hopen₄, hsame, -, hok⟩ :=
    horder "1" "2" "3" "4"
      [.entity "B" { label := "x" }, .entity "D" { label := "x" },
        .chunk "B" "text" { label := "y" }]
      [⟨"r", "D", "E", .empty⟩, ⟨"r", "B", "D", .empty⟩, ⟨"r", "D", "E", .ofList [("k", .int 1)]⟩]
  obtain ⟨rfl, hr⟩ := hok hwrite
  obtain rfl : r = .ok () := hr (by simp [PropertySchema.Fits, Node.embedding, Node.body])
  exact ⟨s, s₁, s₂, s₃, s₄, t₂, t₄, h, h₁, h₂, h₃, h₄, hopen₂, hopen₄, hsame⟩

end PropertyStore

end GraphBase
