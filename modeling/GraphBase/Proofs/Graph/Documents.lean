import GraphBase.Graph.Codec
import GraphBase.Proofs.Value.Stored

/-!
# Documents that read back

Properties, nodes, relations and triplets are written as JSON and read again.  Nothing in a text
says which kind of scalar a value was, or whether an optional field was meant to be absent, so it
has to be seen from the spelling.

* A scalar is spelled in a way that no scalar of another kind is: a floating point number always
  has a fraction or an exponent, a text always has quotes.
* A node begins with its kind, and the three kinds have different fields behind it.
* An embedding that is absent is left out, and an empty one is an empty array.

## Floating point numbers

What is left is whether a number is read as the one that was written.  This is no matter of
documents, and it is not true of all numbers (`Scalar.reread`), so it is said of each number by
itself: `Binary64.ReadsBack` and `Binary32.ReadsBack` say that the spelling of a number reads as the
number.  **A document reads back exactly if all numbers in it do**, and that is the whole
statement: there is no second condition, on strings, on labels or on keys, and none on the kinds
of the values.

Properties are also stored, so more is said of them.  Whatever their finite numbers are read as,
the keys stay, every value keeps its kind, and what is no floating point number stays the same.
-/

namespace GraphBase

open GraphBase.Number

/-! ## Numbers -/

namespace Number

/-- The number is finite, and its spelling reads as the number. -/
def Binary64.ReadsBack (x : Binary64) : Prop :=
  ∃ n, Json.Numeral.ofBinary64? x = some n ∧ n.toBinary64? = some x

/-- The component is finite, and its spelling reads as the component. -/
def Binary32.ReadsBack (x : Binary32) : Prop :=
  ∃ n, Json.Numeral.ofBinary32? x = some n ∧ n.toBinary32? = some x

theorem Binary32.isProper_toJson (x : Binary32) : x.toJson.IsProper := by
  unfold Binary32.toJson
  cases h : Json.Numeral.ofBinary32? x with
  | none => trivial
  | some n => exact Json.Numeral.isProper_of_ofUnpacked? h

theorem Binary32.ofJson?_toJson_iff {x : Binary32} : ofJson? x.toJson = some x ↔ x.ReadsBack := by
  unfold Binary32.toJson Binary32.ReadsBack
  cases Json.Numeral.ofBinary32? x with
  | none => simp [Binary32.ofJson?]
  | some n => simp [Binary32.ofJson?]

end Number

/-! ## Scalars -/

namespace Scalar

/-- A floating point number reads back; every other scalar does. -/
def ReadsBack : Scalar → Prop
  | float x => x.ReadsBack
  | _ => True

/-- A floating point number is finite. -/
def IsFinite : Scalar → Prop
  | float x => x.isFinite = true
  | _ => True

/-- The same scalar, or another floating point number for a floating point number. -/
def IsOfKind (x y : Scalar) : Prop := x = y ∨ ∃ a b, x = float a ∧ y = float b

/-- A finite number has a spelling, and it reads as a floating point number. -/
theorem ofJson?_toJson_float {x : Binary64} {n : Json.Numeral}
    (h : Json.Numeral.ofBinary64? x = some n) :
    ofJson? (float x).toJson = n.toBinary64?.map float := by
  have hinteger : n.toInt? = none := by
    rw [Json.Numeral.toInt?, Json.Numeral.isInteger_of_ofBinary64? h, if_neg Bool.false_ne_true]
  rw [toJson, h]
  show ofNumeral? n = _
  rw [ofNumeral?, hinteger]

theorem reread_eq_self_iff {x : Scalar} : x.reread = x ↔ x.ReadsBack := by
  cases x with
  | float x =>
    rw [← Option.some_inj, ← ofJson?_toJson]
    unfold ReadsBack Binary64.ReadsBack
    cases h : Json.Numeral.ofBinary64? x with
    | none => simp [toJson, h, ofJson?]
    | some n => simp [ofJson?_toJson_float h, h]
  | _ => exact iff_of_true (reread_of_notFloat (by rintro y ⟨⟩)) trivial

/-- Whatever is read keeps its kind, as long as it has a spelling. -/
theorem isOfKind_reread {x : Scalar} (h : x.IsFinite) : x.IsOfKind x.reread := by
  cases x with
  | float x =>
    obtain ⟨n, hn⟩ : ∃ n, Json.Numeral.ofBinary64? x = some n := by
      have hfinite : x.isFinite = true := h
      unfold Binary64.isFinite at hfinite
      unfold Json.Numeral.ofBinary64?
      cases hx : x.unpack with
      | finite negative m e => exact ⟨_, rfl⟩
      | _ =>
        rw [hx] at hfinite
        cases hfinite
    obtain ⟨y, hy⟩ := Option.isSome_iff_exists.1 (Json.Numeral.isSome_toBinary64?_of_ofBinary64? hn)
    refine .inr ⟨x, y, rfl, ?_⟩
    rw [reread, ofJson?_toJson_float hn, hy]
    rfl
  | _ => exact .inl (reread_of_notFloat (by rintro y ⟨⟩)).symm

end Scalar

/-! ## Properties -/

namespace Properties

/-- All values read back. -/
def ReadsBack (p : Properties) : Prop := ∀ e ∈ p.entries, e.2.ReadsBack

/-- All floating point numbers are finite. -/
def IsFinite (p : Properties) : Prop := ∀ e ∈ p.entries, e.2.IsFinite

/-- What the text of properties says of them. -/
structure IsKept (p : Properties) : Prop where
  /-- They read back if their numbers do. -/
  readsBack : decode? p.encode = some p ↔ p.ReadsBack
  /-- Whatever the numbers are read as, keys and kinds stay. -/
  keepsKinds : p.IsFinite → ∃ q, decode? p.encode = some q ∧
    List.Forall₂ (fun e f => e.1 = f.1 ∧ e.2.IsOfKind f.2) p.entries q.entries
  notBlank : Text.isBlank p.encode = false
  empty_iff : p.encode = "\x7b\x7d" ↔ p = empty

theorem reread_eq_self_iff {p : Properties} : p.reread = p ↔ p.ReadsBack := by
  constructor
  · intro h e he
    have hentries : p.entries.map (fun e => (e.1, e.2.reread)) = p.entries.map id :=
      (congrArg entries h).trans (List.map_id p.entries).symm
    have hvalue := congrArg Prod.snd (List.map_inj_left.1 hentries e he)
    exact Scalar.reread_eq_self_iff.1 hvalue
  · exact fun h => reread_eq_self fun e he => Scalar.reread_eq_self_iff.2 (h e he)

theorem isKept (p : Properties) : p.IsKept where
  readsBack := by
    rw [decode?_encode, Option.some_inj]
    exact reread_eq_self_iff
  keepsKinds h := by
    refine ⟨p.reread, p.decode?_encode, ?_⟩
    rw [reread, List.forall₂_map_right_iff, List.forall₂_same]
    exact fun e he => ⟨rfl, Scalar.isOfKind_reread (h e he)⟩
  notBlank := p.isBlank_encode
  empty_iff := by
    constructor
    · exact fun h => eq_empty_of_encode h
    · rintro rfl
      rfl

end Properties

/-! ## Embeddings -/

namespace Embedding

/-- All components read back. -/
def ReadsBack (v : Embedding) : Prop := ∀ x ∈ v, x.ReadsBack

theorem isProper_toJson (v : Embedding) : v.toJson.IsProper := by
  show Json.AreProper (v.map Binary32.toJson)
  induction v with
  | nil => trivial
  | cons x v ih => exact ⟨x.isProper_toJson, ih⟩

theorem ofJson?_toJson_iff {v : Embedding} : ofJson? v.toJson = some v ↔ v.ReadsBack := by
  show (v.map Binary32.toJson).mapM Binary32.ofJson? = some v ↔ _
  unfold ReadsBack
  induction v with
  | nil => simp
  | cons x v ih =>
    rw [List.forall_mem_cons, ← ih, ← Binary32.ofJson?_toJson_iff, List.map_cons, List.mapM_cons]
    cases Binary32.ofJson? x.toJson with
    | none => simp
    | some y =>
      cases (v.map Binary32.toJson).mapM Binary32.ofJson? with
      | none => simp
      | some w => simp

end Embedding

/-! ## Nodes -/

namespace NodeBody

/-- Properties and embedding read back. -/
def ReadsBack (b : NodeBody) : Prop := b.properties.ReadsBack ∧ ∀ v ∈ b.embedding, v.ReadsBack

theorem haveProper_members (b : NodeBody) : Json.HaveProper b.members := by
  refine ⟨trivial, b.properties.isProper_toJson, ?_⟩
  cases b.embedding with
  | none => trivial
  | some v => exact ⟨v.isProper_toJson, trivial⟩

/-- An absent embedding is read as absent, and one that is there as one that is there. -/
theorem embeddingField?_eq_some_iff {embedding : Option Embedding} :
    embeddingField? (embedding.map Embedding.toJson) = some embedding ↔
      ∀ v ∈ embedding, v.ReadsBack := by
  cases embedding with
  | none => simp [embeddingField?]
  | some v =>
    have hread : embeddingField? (some v.toJson) = (Embedding.ofJson? v.toJson).map some := rfl
    rw [Option.map_some, hread]
    simp [Embedding.ofJson?_toJson_iff]

/-- The fields of a body read as the body if its numbers read back. -/
theorem ofFields?_eq_some_iff {b : NodeBody} :
    ofFields? (some (.string b.label)) (some b.properties.toJson)
      (b.embedding.map Embedding.toJson) = some b ↔ b.ReadsBack := by
  unfold ReadsBack
  rw [← Properties.reread_eq_self_iff, ← embeddingField?_eq_some_iff]
  have hproperties : propertiesField? (some b.properties.toJson) = some b.properties.reread :=
    b.properties.ofJson?_toJson
  unfold ofFields?
  rw [hproperties]
  cases embeddingField? (b.embedding.map Embedding.toJson) with
  | none => simp
  | some embedding =>
    cases b with
    | mk label properties embedding' => simp [textField?]

end NodeBody

namespace Node

/-- All numbers in the node read back. -/
def ReadsBack (n : Node) : Prop := n.body.ReadsBack

/-- The node with another body. -/
def withBody (n : Node) (b : NodeBody) : Node :=
  match n with
  | entity name _ => entity name b
  | chunk id text _ => chunk id text b
  | other id _ => other id b

theorem withBody_eq_self_iff {n : Node} {b : NodeBody} : n.withBody b = n ↔ b = n.body := by
  cases n <;> simp [withBody, body]

theorem isProper_toJson (n : Node) : n.toJson.IsProper := by
  cases n with
  | entity name b => exact ⟨trivial, trivial, b.haveProper_members⟩
  | chunk id text b => exact ⟨trivial, trivial, trivial, b.haveProper_members⟩
  | other id b => exact ⟨trivial, trivial, b.haveProper_members⟩

/-- A node is read as one of its kind, with what the fields of its body read as: all fields are
found under their names, whether there is an embedding or not. -/
theorem ofJson?_toJson (n : Node) : ofJson? n.toJson =
    (NodeBody.ofFields? (some (.string n.label)) (some n.properties.toJson)
      (n.embedding.map Embedding.toJson)).bind fun b => some (n.withBody b) := by
  cases n with
  | entity name b =>
    obtain ⟨label, properties, embedding⟩ := b
    cases embedding <;> simp [toJson, NodeBody.members, ofJson?, Json.lookup, textField?,
      NodeKind.ofName?, ofRecord?, Json.fields?, Node.label, Node.properties, Node.embedding, body,
      withBody]
  | chunk id text b =>
    obtain ⟨label, properties, embedding⟩ := b
    cases embedding <;> simp [toJson, NodeBody.members, ofJson?, Json.lookup, textField?,
      NodeKind.ofName?, ofRecord?, Json.fields?, Node.label, Node.properties, Node.embedding, body,
      withBody]
  | other id b =>
    obtain ⟨label, properties, embedding⟩ := b
    cases embedding <;> simp [toJson, NodeBody.members, ofJson?, Json.lookup, textField?,
      NodeKind.ofName?, ofRecord?, Json.fields?, Node.label, Node.properties, Node.embedding, body,
      withBody]

theorem ofJson?_toJson_iff {n : Node} : ofJson? n.toJson = some n ↔ n.ReadsBack := by
  unfold ReadsBack
  rw [← NodeBody.ofFields?_eq_some_iff, ofJson?_toJson, Option.bind_eq_some_iff]
  constructor
  · rintro ⟨b, hb, hn⟩
    obtain rfl := withBody_eq_self_iff.1 (Option.some.inj hn)
    exact hb
  · intro h
    exact ⟨n.body, h, congrArg some (withBody_eq_self_iff.2 rfl)⟩

end Node

/-! ## Relations and triplets -/

namespace Relation

/-- All numbers in the relation read back. -/
def ReadsBack (r : Relation) : Prop := r.properties.ReadsBack

theorem isProper_toJson (r : Relation) : r.toJson.IsProper :=
  ⟨trivial, trivial, trivial, r.properties.isProper_toJson, trivial⟩

theorem ofJson?_toJson (r : Relation) :
    ofJson? r.toJson = some { r with properties := r.properties.reread } := by
  have hproperties : propertiesField? (some r.properties.toJson) = some r.properties.reread :=
    r.properties.ofJson?_toJson
  simp [toJson, ofJson?, Json.fields?, Json.lookup, textField?, hproperties]

theorem ofJson?_toJson_iff {r : Relation} : ofJson? r.toJson = some r ↔ r.ReadsBack := by
  unfold ReadsBack
  rw [ofJson?_toJson, Option.some_inj, ← Properties.reread_eq_self_iff]
  cases r
  simp

end Relation

namespace Triplet

/-- All numbers in the triplet read back. -/
def ReadsBack (t : Triplet) : Prop :=
  t.source.ReadsBack ∧ t.relation.ReadsBack ∧ t.target.ReadsBack

theorem isProper_toJson (t : Triplet) : t.toJson.IsProper :=
  ⟨t.source.isProper_toJson, t.relation.isProper_toJson, t.target.isProper_toJson, trivial⟩

theorem ofJson?_toJson_iff {t : Triplet} : ofJson? t.toJson = some t ↔ t.ReadsBack := by
  unfold ReadsBack
  rw [← Node.ofJson?_toJson_iff, ← Relation.ofJson?_toJson_iff, ← Node.ofJson?_toJson_iff]
  have hread : ofJson? t.toJson = (Node.ofJson? t.source.toJson).bind fun source =>
      (Relation.ofJson? t.relation.toJson).bind fun relation =>
        (Node.ofJson? t.target.toJson).bind fun target => some ⟨source, relation, target⟩ := by
    simp [toJson, ofJson?, Json.fields?, Json.lookup]
  rw [hread]
  cases Node.ofJson? t.source.toJson with
  | none => simp
  | some source =>
    cases Relation.ofJson? t.relation.toJson with
    | none => simp
    | some relation =>
      cases Node.ofJson? t.target.toJson with
      | none => simp
      | some target =>
        obtain ⟨source', relation', target'⟩ := t
        simp

end Triplet

/-! ## Texts -/

/-- Reads a text as a value of a kind that is read from JSON. -/
def Json.readText? {α : Type} (ofJson? : Json → Option α) (text : String) : Option α :=
  (Json.parse? text).bind ofJson?

theorem Json.readText?_render {α : Type} (ofJson? : Json → Option α) {j : Json} (hj : j.IsProper) :
    Json.readText? ofJson? j.render = ofJson? j := by
  rw [Json.readText?, Json.parse?_render hj, Option.bind_some]

/-- **Reading undoes writing**, on the texts of properties, nodes, relations and triplets, for all
whose floating point numbers read back and for no others. -/
theorem documents_readBack : (∀ p : Properties, p.IsKept) ∧
    (∀ n : Node, Json.readText? Node.ofJson? n.toJson.render = some n ↔ n.ReadsBack) ∧
    (∀ r : Relation, Json.readText? Relation.ofJson? r.toJson.render = some r ↔ r.ReadsBack) ∧
    ∀ t : Triplet, Json.readText? Triplet.ofJson? t.toJson.render = some t ↔ t.ReadsBack := by
  refine ⟨Properties.isKept, fun n => ?_, fun r => ?_, fun t => ?_⟩
  · rw [Json.readText?_render _ n.isProper_toJson]
    exact Node.ofJson?_toJson_iff
  · rw [Json.readText?_render _ r.isProper_toJson]
    exact Relation.ofJson?_toJson_iff
  · rw [Json.readText?_render _ t.isProper_toJson]
    exact Triplet.ofJson?_toJson_iff

/-- Texts that look like other scalars, a whole number, an embedding that is empty and one that is
absent. -/
example :
    let p : Properties := .ofList [("true", .text "true"), ("2", .float ⟨0x4000000000000000⟩)]
    let t : Triplet :=
      { source := .entity "null" { label := "", properties := p, embedding := some [] }
        relation := { label := "\"r\\", source := "1", target := "" }
        target := .textChunk "1" "\n" }
    Json.readText? Triplet.ofJson? t.toJson.render = some t := by
  decide +kernel

end GraphBase
