import GraphBase.Proofs.Graph.Inheriting
import GraphBase.Proofs.Graph.Selecting
import GraphBase.Proofs.Graph.Written
import GraphBase.Proofs.Traversal.Cutting
import GraphBase.Proofs.Value.Order
import Mathlib.Data.Prod.Lex
import Mathlib.Data.String.Basic

/-!
# Which nodes are nearest

A request for neighbours looks at the rows with a name and an embedding whose distance from the
point exists and is a number (`NodeRow.distanceTo?`).  Of these it answers as many as were asked
for, and no row that is left out is nearer than one that is answered (`FindsNearest`).

* What has no distance is dropped before the cut and not after it, so it takes no place of another
  row.  In particular this is so for embeddings of another length, which a store finds in a file of
  another dimension, and for embeddings that are zero throughout.
* Rows are compared by their exact distances, and rows of one distance stay in the order of the
  table (`filter_mergeSort`).  The distances that are answered are rounded, and that may make them
  equal.  Hits of one distance are listed by identity.
* Neither comparison is an order on all pairs: what is not a number would be as far as everything
  else.  Both are orders where there is a distance (`isNearer_eq_rank`, `isListedBefore_eq_rank`), and
  sorting sees nothing else.
-/

namespace GraphBase

open GraphBase.Number

/-- The distance of a row from a point, if it has a name, an embedding and a distance, and this is
a number. -/
def NodeRow.distanceTo? (point : Embedding) (n : NodeRow) : Option Binary64 :=
  match n.name, n.embedding with
  | some _, .blob bytes =>
    (Embedding.distance? (Embedding.decode bytes) point).filter fun d => !d.isNaN
  | _, _ => none

/-- A hit is listed before another one: its distance is smaller as it is answered, or it is the same,
and the identity is smaller. -/
def ListedBefore (a b : Node × Binary32) : Prop :=
  ∃ v w, a.2.place? = some v ∧ b.2.place? = some w ∧ (v < w ∨ v = w ∧ a.1.id < b.1.id)

namespace GraphTables

/-- A row with its distance comes before another one: it is nearer, or as near and stands in front of
it in the table. -/
def ComesBefore (t : GraphTables) (a b : Binary64 × NodeRow) : Prop :=
  ∃ v w, a.1.place? = some v ∧ b.1.place? = some w ∧
    (v < w ∨ v = w ∧ [a.2, b.2].Sublist t.nodes)

/-- The rows that have a distance from a point, with their distances. -/
def measured (t : GraphTables) (point : Embedding) : List (Binary64 × NodeRow) :=
  t.nodes.filterMap fun n => (n.distanceTo? point).map (·, n)

/-- What a request for some neighbours finds and answers. -/
structure FindsNearest (t : GraphTables) (point : Embedding) (count : Nat)
    (found : List (Binary64 × NodeRow)) (answer : List (Node × Binary32)) : Prop where
  mem : ∀ c ∈ found, c ∈ t.measured point
  distinct : (found.map fun c => c.2.id).Nodup
  sorted : found.Pairwise t.ComesBefore
  /-- What is left out is behind everything that is found. -/
  cut : ∀ c ∈ t.measured point, c ∉ found → ∀ a ∈ found, t.ComesBefore a c
  /-- Either all rows with a distance are found, or as many as were asked for. -/
  length : found.length = min (Sql.limitOperand count) (t.measured point).length
  /-- The largest limit of a statement makes no difference unless there are more such rows. -/
  length_iff : found.length = min count (t.measured point).length ↔
    count ≤ Sql.limitMax ∨ (t.measured point).length ≤ Sql.limitMax
  /-- Only rows with a name are found whose embedding has the length of the point and is not zero
  throughout. -/
  embedded : ∀ c ∈ found, c.2.name.isSome ∧ ∃ bytes, c.2.embedding = .blob bytes ∧
    (Embedding.decode bytes).length = point.length ∧
    ∃ x ∈ Embedding.decode bytes, x.bits ≠ 0 ∧ x.bits ≠ 0x80000000
  /-- Listed are the same hits, by what is answered for their distances and then by identity. -/
  listed : (listHits answer).Perm answer ∧ (listHits answer).Pairwise ListedBefore
  /-- The answer is what these rows read as, with their distances, rounded. -/
  answer : List.Forall₂ (fun c a => c.2.node = .ok a.1 ∧ Binary32.ofBinary64 c.1 = a.2) found answer

end GraphTables

/-! ## Rows without a distance -/

/-- An embedding that is zero throughout has no length, whatever the signs. -/
theorem Embedding.norm_eq_zero {v : Embedding} (h : ∀ x ∈ v, x.bits = 0 ∨ x.bits = 0x80000000) :
    (norm v == 0.0) = true := by
  have hsquare : ∀ x ∈ v, (0.0 + component x * component x : Float) = 0.0 := by
    intro x hx
    obtain hbits | hbits := h x hx
    · rw [show x = ⟨0⟩ from congrArg Binary32.mk hbits]
      decide +kernel
    · rw [show x = ⟨0x80000000⟩ from congrArg Binary32.mk hbits]
      decide +kernel
  have hsum : v.foldl (fun sum x => sum + component x * component x) 0.0 = 0.0 := by
    induction v with
    | nil => rfl
    | cons x rest ih =>
      rw [List.forall_mem_cons] at h hsquare
      rw [List.foldl_cons, hsquare.1]
      exact ih h.2 hsquare.2
  rw [norm, hsum]
  decide +kernel

/-- **Where there is a distance**, both embeddings have one length, and the first one is not zero
throughout. -/
theorem Embedding.of_distance?_eq_some {v w : Embedding} {d : Binary64}
    (h : distance? v w = some d) :
    v.length = w.length ∧ ∃ x ∈ v, x.bits ≠ 0 ∧ x.bits ≠ 0x80000000 := by
  rw [distance?] at h
  split_ifs at h with hlength
  rw [not_or, ne_eq, not_not] at hlength
  refine ⟨hlength.1, ?_⟩
  by_contra hzero
  have hnorm : (norm v == 0.0) = true := by
    refine norm_eq_zero fun x hx => ?_
    by_contra hne
    exact hzero ⟨x, hx, not_or.1 hne⟩
  simp [hnorm] at h

namespace NodeRow

variable {n : NodeRow} {point : Embedding} {d : Binary64}

theorem distanceTo?_eq_some : n.distanceTo? point = some d ↔ n.name.isSome ∧
    ∃ bytes, n.embedding = .blob bytes ∧
      Embedding.distance? (Embedding.decode bytes) point = some d ∧ d.isNaN = false := by
  rw [distanceTo?]
  cases n.name with
  | none => simp
  | some name => cases n.embedding <;> simp [Option.filter_eq_some_iff]

/-- The distance of a stored row is measured without failure. -/
theorem IsStored.distanceOf?_eq_ok {dimension : Nat} (h : n.IsStored dimension)
    (hname : n.name.isSome = true) (point : Embedding) :
    GraphTables.distanceOf? point n = .ok (n.distanceTo? point) := by
  obtain ⟨name, hname⟩ := Option.isSome_iff_exists.1 hname
  obtain ⟨v, hv, -⟩ := h.embedding
  rw [GraphTables.distanceOf?, distanceTo?, hname, hv]
  cases v with
  | none => rfl
  | some v => rw [embeddingCell, Embedding.cellDistance?_blob, Embedding.decode_encode point]

end NodeRow

namespace GraphTables

variable {t : GraphTables} {point : Embedding} {a b c : Binary64 × NodeRow}

theorem mem_measured : c ∈ t.measured point ↔
    c.2 ∈ t.nodes ∧ c.2.distanceTo? point = some c.1 := by
  rw [measured, List.mem_filterMap]
  constructor
  · rintro ⟨n, hn, hc⟩
    obtain ⟨d, hd, rfl⟩ := Option.map_eq_some_iff.1 hc
    exact ⟨hn, hd⟩
  · rintro ⟨hn, hd⟩
    exact ⟨c.2, hn, by rw [hd]; rfl⟩

/-- **All candidates are measured without failure.** -/
theorem candidates_eq_ok (h : AreLegible t.nodes) (point : Embedding) :
    t.candidates point = .ok (t.measured point) := by
  have hmeasure : ∀ n ∈ t.nodes.filter fun n => n.name.isSome,
      (distanceOf? point n).map (fun d => d.map (·, n)) =
        .ok ((n.distanceTo? point).map (·, n)) := by
    intro n hn
    obtain ⟨hmem, hname⟩ := List.mem_filter.1 hn
    obtain ⟨dimension, hstored⟩ := h.stored n hmem
    rw [hstored.distanceOf?_eq_ok hname]
    rfl
  have hnamed : ∀ n ∈ t.nodes, (if n.name.isSome = true then
      (n.distanceTo? point).map (·, n) else none) = (n.distanceTo? point).map (·, n) := by
    intro n _
    split_ifs with hname
    · rfl
    · rw [NodeRow.distanceTo?, Option.not_isSome_iff_eq_none.1 hname]
      rfl
  rw [candidates, mapM_eq_ok hmeasure]
  show Except.ok (List.filterMap id _) = _
  rw [List.filterMap_map, Function.id_comp, List.filterMap_filter, measured,
    List.filterMap_congr hnamed]

/-- What has a distance stands in the table in the same order. -/
theorem map_snd_measured_sublist (t : GraphTables) (point : Embedding) :
    ((t.measured point).map Prod.snd).Sublist t.nodes := by
  have hguard : ∀ n ∈ t.nodes, ((n.distanceTo? point).map (·, n)).map Prod.snd =
      Option.guard (fun n => (n.distanceTo? point).isSome) n := by
    intro n _
    cases hd : n.distanceTo? point <;> simp [Option.guard, hd]
  rw [measured, List.map_filterMap, List.filterMap_congr hguard, List.filterMap_eq_filter]
  exact List.filter_sublist

/-! ## Sorting by a rank -/

section Ranking

variable {α β : Type} [LinearOrder β] {le : α → α → Bool} {rank : α → β} {l : List α}

/-- Sorting sees nothing of a comparison but what it says of the members. -/
theorem mergeSort_eq_of_rank (h : ∀ a ∈ l, ∀ b ∈ l, le a b = decide (rank a ≤ rank b)) :
    l.mergeSort le = l.mergeSort fun a b => decide (rank a ≤ rank b) := by
  have hmap := List.map_mergeSort (f := id) (l := l) (r := le)
    (s := fun a b => decide (rank a ≤ rank b)) h
  rwa [List.map_id, List.map_id] at hmap

theorem rank_trans (rank : α → β) (a b c : α) (hab : decide (rank a ≤ rank b) = true)
    (hbc : decide (rank b ≤ rank c) = true) : decide (rank a ≤ rank c) = true :=
  decide_eq_true ((of_decide_eq_true hab).trans (of_decide_eq_true hbc))

theorem rank_total (rank : α → β) (a b : α) :
    (decide (rank a ≤ rank b) || decide (rank b ≤ rank a)) = true := by
  simpa using le_total (rank a) (rank b)

theorem pairwise_mergeSort_rank (rank : α → β) (l : List α) :
    (l.mergeSort fun a b => decide (rank a ≤ rank b)).Pairwise fun a b => rank a ≤ rank b :=
  (List.pairwise_mergeSort (rank_trans rank) (rank_total rank) l).imp of_decide_eq_true

/-- **What has one rank stays in its order.** -/
theorem filter_mergeSort (rank : α → β) (v : β) (l : List α) :
    (l.mergeSort fun a b => decide (rank a ≤ rank b)).filter (fun a => rank a = v) =
      l.filter fun a => rank a = v := by
  have hranked : (l.filter fun a => rank a = v).Pairwise
      fun a b => decide (rank a ≤ rank b) = true := by
    refine List.pairwise_of_forall_mem_list fun a ha b hb => ?_
    have hva := of_decide_eq_true (List.mem_filter.1 ha).2
    have hvb := of_decide_eq_true (List.mem_filter.1 hb).2
    rw [hva, hvb]
    exact decide_eq_true le_rfl
  have hsub := (List.sublist_mergeSort (rank_trans rank) (rank_total rank) hranked
    List.filter_sublist).filter fun a => rank a = v
  simp only [List.filter_filter, Bool.and_self] at hsub
  exact (hsub.eq_of_length ((List.mergeSort_perm l _).filter _).length_eq.symm).symm

end Ranking

/-! ## The order of the candidates -/

/-- What a candidate is sorted by. -/
def rank (c : Binary64 × NodeRow) : WithBot (WithTop ℚ) := c.1.place?.getD ⊥

/-- **The comparison is an order** where there are distances. -/
theorem isNearer_eq_rank {v w : WithBot (WithTop ℚ)} (hv : a.1.place? = some v)
    (hw : b.1.place? = some w) : isNearer a b = decide (rank a ≤ rank b) := by
  rw [isNearer, Binary64.compare?, Format.Unpacked.compare?_of_place hv hw, rank, rank, hv, hw,
    Option.getD_some, Option.getD_some]
  rcases lt_trichotomy v w with hlt | rfl | hgt
  · simp [compare_lt_iff_lt.2 hlt, hlt.le]
  · simp
  · simp [compare_gt_iff_gt.2 hgt, hgt.not_ge]

/-- **Sorted candidates** come one before the other. -/
theorem pairwise_mergeSort_measured (t : GraphTables) (point : Embedding) :
    ((t.measured point).mergeSort isNearer).Pairwise t.ComesBefore := by
  have hplace : ∀ c ∈ t.measured point, ∃ v, c.1.place? = some v := by
    intro c hc
    obtain ⟨-, hdistance⟩ := mem_measured.1 hc
    obtain ⟨-, bytes, -, -, hnumber⟩ := NodeRow.distanceTo?_eq_some.1 hdistance
    exact Binary64.exists_place hnumber
  have hsort : (t.measured point).mergeSort isNearer =
      (t.measured point).mergeSort fun a b => decide (rank a ≤ rank b) := by
    refine mergeSort_eq_of_rank fun a ha b hb => ?_
    obtain ⟨v, hv⟩ := hplace a ha
    obtain ⟨w, hw⟩ := hplace b hb
    exact isNearer_eq_rank hv hw
  rw [hsort, List.pairwise_iff_forall_sublist]
  intro a b hab
  have hle := List.pairwise_iff_forall_sublist.1
    (pairwise_mergeSort_rank rank (t.measured point)) hab
  have hmem : ∀ c ∈ [a, b], c ∈ t.measured point := fun c hc =>
    (List.mergeSort_perm (t.measured point) _).mem_iff.1 (hab.subset hc)
  obtain ⟨v, hv⟩ := hplace a (hmem a List.mem_cons_self)
  obtain ⟨w, hw⟩ := hplace b (hmem b (List.mem_cons_of_mem a List.mem_cons_self))
  have hra : rank a = v := by rw [rank, hv, Option.getD_some]
  have hrb : rank b = w := by rw [rank, hw, Option.getD_some]
  rw [hra, hrb] at hle
  refine ⟨v, w, hv, hw, hle.lt_or_eq.imp_right fun heq => ⟨heq, ?_⟩⟩
  -- candidates of one distance are found in the order in which they have been measured
  have hone := hab.filter fun c => rank c = v
  rw [filter_mergeSort, List.filter_cons_of_pos (by simp [hra]),
    List.filter_cons_of_pos (by simp [hrb, heq]), List.filter_nil] at hone
  exact ((hone.trans List.filter_sublist).map Prod.snd).trans (map_snd_measured_sublist t point)

/-! ## The order of the hits -/

/-- What a hit is listed by: its distance as it is answered, and then its identity. -/
def listRank (a : Node × Binary32) : WithBot (WithTop ℚ) ×ₗ String :=
  toLex (a.2.place?.getD ⊥, a.1.id)

theorem isListedBefore_eq_rank {a b : Node × Binary32} {v w : WithBot (WithTop ℚ)}
    (hv : a.2.place? = some v) (hw : b.2.place? = some w) :
    isListedBefore a b = decide (listRank a ≤ listRank b) := by
  rw [isListedBefore, Binary32.compare?, Format.Unpacked.compare?_of_place hv hw, listRank,
    listRank, hv, hw]
  simp only [Option.getD_some, Prod.Lex.toLex_le_toLex]
  rcases lt_trichotomy v w with hlt | rfl | hgt
  · simp [compare_lt_iff_lt.2 hlt, hlt]
  · simp
  · simp [compare_gt_iff_gt.2 hgt, hgt.not_gt, hgt.ne']

/-- **Hits are listed by distance and identity**, if their distances are numbers. -/
theorem pairwise_listHits {answer : List (Node × Binary32)}
    (hplace : ∀ a ∈ answer, ∃ v, a.2.place? = some v)
    (hids : (answer.map fun a => a.1.id).Nodup) : (listHits answer).Pairwise ListedBefore := by
  have hsort : listHits answer =
      answer.mergeSort fun a b => decide (listRank a ≤ listRank b) := by
    refine mergeSort_eq_of_rank fun a ha b hb => ?_
    obtain ⟨v, hv⟩ := hplace a ha
    obtain ⟨w, hw⟩ := hplace b hb
    exact isListedBefore_eq_rank hv hw
  have hperm := List.mergeSort_perm answer fun a b => decide (listRank a ≤ listRank b)
  have hdistinct := (hperm.pairwise_iff fun hne => Ne.symm hne).2 (List.pairwise_map.1 hids)
  rw [hsort]
  refine ((pairwise_mergeSort_rank listRank answer).and hdistinct).imp_of_mem fun ha hb hab => ?_
  obtain ⟨v, hv⟩ := hplace _ (hperm.mem_iff.1 ha)
  obtain ⟨w, hw⟩ := hplace _ (hperm.mem_iff.1 hb)
  obtain ⟨hranks, hne⟩ := hab
  rw [listRank, listRank, hv, hw, Option.getD_some, Option.getD_some,
    Prod.Lex.toLex_le_toLex] at hranks
  exact ⟨v, w, hv, hw, hranks.imp_right fun h => ⟨h.1, lt_of_le_of_ne h.2 hne⟩⟩

section Legible

variable (h : AreLegible t.nodes)

include h

theorem pairwise_ids_measured (point : Embedding) :
    (t.measured point).Pairwise fun a b => a.2.id ≠ b.2.id := by
  rw [measured, List.pairwise_filterMap]
  refine (List.pairwise_map.1 h.ids_nodup).imp fun {m n} hne a ha b hb => ?_
  obtain ⟨d, -, rfl⟩ := Option.map_eq_some_iff.1 ha
  obtain ⟨e, -, rfl⟩ := Option.map_eq_some_iff.1 hb
  exact hne

/-- What a candidate is answered as. -/
theorem exists_hit (hc : c ∈ t.measured point) : ∃ node : Node, c.2.node = .ok node ∧
    node.id = c.2.id ∧ ∃ v, (Binary32.ofBinary64 c.1).place? = some v := by
  obtain ⟨hn, hdistance⟩ := mem_measured.1 hc
  obtain ⟨dimension, hstored⟩ := h.stored c.2 hn
  obtain ⟨rec, hrec, -, hid⟩ := hstored.exists_node
  obtain ⟨-, bytes, -, -, hnumber⟩ := NodeRow.distanceTo?_eq_some.1 hdistance
  exact ⟨rec.node, by rw [NodeRow.node, hrec]; rfl, hid,
    Format.Unpacked.exists_place (Binary32.unpack_ofBinary64_ne_nan hnumber)⟩

/-- Candidates are read without failure.  The hits have their identities, and distances that are
numbers. -/
theorem exists_hits {found : List (Binary64 × NodeRow)} (hfound : ∀ c ∈ found, c ∈ t.measured point) :
    ∃ answer, (found.mapM fun c =>
        c.2.node.map fun n => (n, Binary32.ofBinary64 c.1)) = .ok answer ∧
      List.Forall₂ (fun c a => c.2.node = .ok a.1 ∧ Binary32.ofBinary64 c.1 = a.2) found answer ∧
      found.map (fun c => c.2.id) = answer.map (fun a => a.1.id) ∧
      ∀ a ∈ answer, ∃ v, a.2.place? = some v := by
  have hread : ∀ c ∈ found, ∃ a : Node × Binary32,
      c.2.node.map (fun n => (n, Binary32.ofBinary64 c.1)) = .ok a := by
    intro c hc
    obtain ⟨node, hnode, -⟩ := exists_hit h (hfound c hc)
    exact ⟨_, by rw [hnode]; rfl⟩
  obtain ⟨answer, hanswer, hrows⟩ := exists_mapM_eq_ok hread
  have hhits : List.Forall₂ (fun c a => (c.2.node = .ok a.1 ∧ Binary32.ofBinary64 c.1 = a.2) ∧
      c.2.id = a.1.id ∧ ∃ v, a.2.place? = some v) found answer := by
    refine ((List.forall₂_and_left _ _).2 ⟨hfound, hrows⟩).imp fun c a hca => ?_
    obtain ⟨node, hnode, hid, hplace⟩ := exists_hit h hca.1
    rw [hnode] at hca
    cases hca.2
    exact ⟨⟨hnode, rfl⟩, hid.symm, hplace⟩
  refine ⟨answer, hanswer, hhits.imp fun c a hca => hca.1, ?_, ?_⟩
  · rw [← List.forall₂_eq_eq_eq, List.forall₂_map_left_iff, List.forall₂_map_right_iff]
    exact hhits.imp fun c a hca => hca.2.1
  · exact ((List.forall₂_and_left answer _).1 (hhits.flip.imp fun a c hca => ⟨hca.2.2, hca⟩)).1

/-- **A request for neighbours finds the nearest ones**, whatever the lengths of the embeddings. -/
theorem exists_findsNearest (point : Embedding) (count : Nat) :
    ∃ found answer, t.nearest point count = .ok answer ∧
      t.FindsNearest point count found answer := by
  have hsorted := pairwise_mergeSort_measured t point
  have hperm := List.mergeSort_perm (t.measured point) isNearer
  have hids := (hperm.pairwise_iff fun hne => Ne.symm hne).2 (pairwise_ids_measured h point)
  generalize hall : (t.measured point).mergeSort isNearer = all at hsorted hperm hids
  have hdistinct : ((all.take (Sql.limitOperand count)).map fun c => c.2.id).Nodup :=
    List.pairwise_map.2 (hids.sublist (List.take_sublist _ _))
  have hmem : ∀ c ∈ all.take (Sql.limitOperand count), c ∈ t.measured point :=
    fun c hc => hperm.mem_iff.1 (List.mem_of_mem_take hc)
  obtain ⟨answer, hanswer, hrows, hsame, hplaces⟩ := exists_hits h hmem
  have hlength : (all.take (Sql.limitOperand count)).length =
      min (Sql.limitOperand count) (t.measured point).length := by
    rw [List.length_take, hperm.length_eq]
  refine ⟨all.take (Sql.limitOperand count), answer, ?_, ?_⟩
  · rw [nearest]
    split_ifs with hzero
    · obtain rfl := hzero
      exact hanswer
    · rw [candidates_eq_ok h, ← hall] at *
      exact hanswer
  · constructor
    case mem => exact hmem
    case distinct => exact hdistinct
    case sorted => exact hsorted.sublist (List.take_sublist _ _)
    case cut =>
      intro c hc hnew a ha
      have hdrop : c ∈ all.drop (Sql.limitOperand count) := by
        have hc := hperm.mem_iff.2 hc
        rw [← List.take_append_drop (Sql.limitOperand count) all, List.mem_append] at hc
        exact hc.resolve_left hnew
      rw [← List.take_append_drop (Sql.limitOperand count) all] at hsorted
      exact (List.pairwise_append.1 hsorted).2.2 a ha c hdrop
    case length => exact hlength
    case length_iff => rw [hlength, Sql.min_limitOperand_iff]
    case embedded =>
      intro c hc
      obtain ⟨hname, bytes, hbytes, hdistance, -⟩ :=
        NodeRow.distanceTo?_eq_some.1 (mem_measured.1 (hmem c hc)).2
      exact ⟨hname, bytes, hbytes, Embedding.of_distance?_eq_some hdistance⟩
    case answer => exact hrows
    case listed =>
      exact ⟨List.mergeSort_perm _ _, pairwise_listHits hplaces (hsame ▸ hdistinct)⟩

end Legible

end GraphTables

namespace PropertyStore

variable {store : PropertyStore} {s : Site} {t : GraphTables}

/-- **A request for neighbours answers the nearest nodes**, in every state that a run leads to, also
where the file has been opened by stores of different dimensions.  A point of another length is
refused, however many neighbours are asked for.  Nothing changes. -/
theorem findsNearest_of_inherits (h : store.Inherits s) (htables : store.tables? s = some t)
    (point : Embedding) (count : Nat) :
    (point.length ≠ store.schema.dimension → (store.nearest point count).run s =
      (.error (.dimensionMismatch store.schema.dimension point.length), s)) ∧
    (point.length = store.schema.dimension → ∃ found answer s',
      (store.nearest point count).run s = (.ok answer, s') ∧ store.IsOpen s' t ∧
        t.FindsNearest point count found answer) := by
  obtain ⟨t', hopen, hlegible⟩ := h.isOpen
  obtain rfl := Option.some.inj (htables.symm.trans hopen.tables)
  constructor
  · intro hlength
    rw [nearest, PropertySchema.checkEmbedding, if_neg hlength]
    rfl
  · intro hlength
    obtain ⟨found, answer, hnearest, hfinds⟩ := GraphTables.exists_findsNearest hlegible point count
    rw [nearest, PropertySchema.checkEmbedding, if_pos hlength]
    simp only
    split_ifs with hzero
    · obtain rfl := hzero
      cases hnearest
      exact ⟨found, [], s, rfl, hopen, hfinds⟩
    · have hrun : ∃ s', (store.session (Session.readsOk fun t => t.nearest point count)).run s =
          (.ok answer, s') ∧ store.IsOpen s' t := run_readsOk hopen hnearest
      obtain ⟨s', hrun, hopen'⟩ := hrun
      exact ⟨found, answer, s', hrun, hopen', hfinds⟩

/-- Rows of two dimensions: a row of the one, and of the other a row that is zero throughout, a row
without a name, and two more. -/
def mixedTables : GraphTables where
  nodes := [
    { NodeRow.bare "1" "A" with
      name := some "A", label := "x", embedding := embeddingCell (some [⟨0x3F800000⟩]) },
    { NodeRow.bare "2" "B" with
      name := some "B", label := "x",
      embedding := embeddingCell (some [⟨0x3F800000⟩, ⟨0x3F800000⟩]) },
    { NodeRow.bare "2" "C" with
      name := some "C", label := "x", embedding := embeddingCell (some [⟨0⟩, ⟨0x80000000⟩]) },
    { NodeRow.bare "2" "D" with
      text := some "", label := "x", embedding := embeddingCell (some [⟨0x3F800000⟩, ⟨0⟩]) },
    { NodeRow.bare "2" "E" with
      name := some "E", label := "x", embedding := embeddingCell (some [⟨0x3F800000⟩, ⟨0⟩]) }]

/-- The call that writes the first of these rows. -/
def mixedCall : PropertyCall :=
  .upsertNodes "1" [.entity "A" { label := "x", embedding := some [⟨0x3F800000⟩] }]

/-- A run leads there in which the file is opened again by a store of another dimension. -/
theorem exists_inherits_mixedTables : ∃ s, PropertyStore.Inherits ⟨{ dimension := 2 }⟩ s ∧
    PropertyStore.tables? ⟨{ dimension := 2 }⟩ s = some mixedTables := by
  have hstart : PropertyStore.start {} { database := "a", embeddingDim := 1 } =
      (.ok (⟨{ dimension := 1 }⟩, fileSite.engine), fileSite.host) := by decide +kernel
  have hfirst := (Inherits.start hstart tables?_fileSite ⟨rfl, rfl⟩).call mixedCall
  have hreopen : PropertyStore.start
      (Engine.close ((mixedCall.run ⟨{ dimension := 1 }⟩).run fileSite).2.host
        ((mixedCall.run ⟨{ dimension := 1 }⟩).run fileSite).2.engine)
      { database := "a", embeddingDim := 2 } =
      (.ok (⟨{ dimension := 2 }⟩, fileSite.engine),
        ((mixedCall.run ⟨{ dimension := 1 }⟩).run fileSite).2.host) := by decide +kernel
  have hsecond := (Inherits.reopen hfirst (by decide +kernel) hreopen rfl).call (.upsertNodes "2" [
    .entity "B" { label := "x", embedding := some [⟨0x3F800000⟩, ⟨0x3F800000⟩] },
    .entity "C" { label := "x", embedding := some [⟨0⟩, ⟨0x80000000⟩] },
    .chunk "D" "" { label := "x", embedding := some [⟨0x3F800000⟩, ⟨0⟩] },
    .entity "E" { label := "x", embedding := some [⟨0x3F800000⟩, ⟨0⟩] }])
  exact ⟨_, hsecond, by decide +kernel⟩

/-- Of the five rows two can be found, and a request for three finds both. -/
theorem findsNearest_mixed : ∃ s found answer s',
    PropertyStore.Inherits ⟨{ dimension := 2 }⟩ s ∧
    PropertyStore.tables? ⟨{ dimension := 2 }⟩ s = some mixedTables ∧
    (PropertyStore.nearest ⟨{ dimension := 2 }⟩ [⟨0x3F800000⟩] 3).run s =
      (.error (.dimensionMismatch 2 1), s) ∧
    (PropertyStore.nearest ⟨{ dimension := 2 }⟩ [⟨0x3F800000⟩, ⟨0⟩] 3).run s = (.ok answer, s') ∧
    mixedTables.FindsNearest [⟨0x3F800000⟩, ⟨0⟩] 3 found answer ∧ found.length = 2 := by
  obtain ⟨s, h, htables⟩ := exists_inherits_mixedTables
  obtain ⟨hrefused, -⟩ := findsNearest_of_inherits h htables [⟨0x3F800000⟩] 3
  obtain ⟨-, hfound⟩ := findsNearest_of_inherits h htables [⟨0x3F800000⟩, ⟨0⟩] 3
  obtain ⟨found, answer, s', hrun, -, hfinds⟩ := hfound rfl
  have hcount : (mixedTables.measured [⟨0x3F800000⟩, ⟨0⟩]).length = 2 := by decide +kernel
  exact ⟨s, found, answer, s', h, htables, hrefused (by decide), hrun, hfinds,
    by rw [hfinds.length, hcount]; rfl⟩

end PropertyStore

end GraphBase
