import GraphBase.Proofs.Graph.Finding
import GraphBase.Proofs.Value.Keys

/-!
# Asking for one key

Three operations take a filter on properties: nodes are answered, triplets are selected, and rows
are deleted by what they have.  A filter on a single key shows what a key addresses
(`PropertyStore.Addresses`).

* A key without quotes, backslashes and NULs addresses itself.  Its path is one label, and all three
  operations take exactly the rows that have the value for this key.
* A key with one of these characters does not.  It can be stored, but a filter on it never looks at
  what is stored for it (`IsOverlooked`).

The path would do for keys with quotes, if a label were read with the escapes of JSON.  Even then it
would not do for a key with a backslash (`PropertyStore.addresses_of_reaches`).
-/

namespace GraphBase

open GraphBase.GraphTables (Joined)

/-- A text is that of properties which have a value for a key that is equal to the given one. -/
def HoldsAt (text key : String) (value : Scalar) : Prop :=
  ∃ p : Properties, text = p.encode ∧ p.HasAt key value

/-- The selection of one property. -/
def Selection.ofProperty (key : String) (value : Scalar) : Selection :=
  { properties := .ofList [(key, value)] }

namespace Selection

variable {HasAt : String → String → Scalar → Prop} {key : String} {value : Scalar}

theorem selectsText_ofProperty (key : String) (value : Scalar) (text : String) :
    (ofProperty key value).selectsText text = hasProperty key value text := by
  have hentries : (ofProperty key value).properties.entries = [(key, value)] := rfl
  have hall : matchesAll text [(key, value)] = matchesProperty text key value := by
    rw [matchesAll]
    split
    · rename_i h
      exact h.symm
    · rfl
  rw [selectsText, Properties.selectsText, hentries, hall]
  exact Bool.true_and _

theorem selectsTriplet_ofProperty {j : Joined}
    (htexts : ∀ text ∈ j.texts, ∃ p : Properties, text = p.encode) :
    (ofProperty key value).SelectsTriplet (fun p => HasAt p.encode) j ↔
      ∃ text ∈ j.texts, HasAt text key value := by
  have hentries : (ofProperty key value).properties.entries = [(key, value)] := rfl
  constructor
  · intro h
    obtain ⟨text, htext, p, rfl, hp⟩ := h.properties (key, value) List.mem_cons_self
    exact ⟨_, htext, hp⟩
  · rintro ⟨text, htext, h⟩
    obtain ⟨p, rfl⟩ := htexts text htext
    refine ⟨.inl rfl, ?_, .inl rfl, .inl rfl⟩
    rw [hentries, List.forall_mem_singleton]
    exact ⟨_, htext, p, rfl, h⟩

end Selection

namespace PropertyStore

/-- A filter on one key takes exactly the rows that have the value for it, whatever it is used for,
and it does not fail. -/
structure Addresses (HasAt : String → String → Scalar → Prop) (store : PropertyStore) (s : Site)
    (t : GraphTables) (key : String) (value : Scalar) : Prop where
  /-- The nodes that have it are answered. -/
  nodes : ∃ rows answer s', (store.nodes (.ofList [(key, value)]) []).run s = (.ok answer, s') ∧
    store.IsOpen s' t ∧ List.Forall₂ (fun n node => n.node = .ok node) rows answer ∧
    rows.Sublist t.nodes ∧ ∀ n, n ∈ rows ↔ n ∈ t.nodes ∧ HasAt n.properties key value
  /-- The triplets are answered of which the relation or one of its ends has it. -/
  triplets : ∃ rows answer s',
    (store.triplets (.ofProperty key value)).run s = (.ok answer, s') ∧ store.IsOpen s' t ∧
    List.Forall₂ t.Shows rows answer ∧ rows.Sublist t.relations.rows ∧
    ∀ r, r ∈ rows ↔ ∃ j : Joined, j.IsIn t ∧ j.relation = r ∧
      ∃ text ∈ j.texts, HasAt text key value
  /-- What has it is deleted, unless the connection may not write. -/
  delete : ∃ t', t.Deletes (fun p _ => HasAt p.encode key value) (.ofProperty key value) t' ∧
    ((∃ s', (store.delete (.ofProperty key value)).run s = (.ok (), s') ∧ store.IsOpen s' t') ∨
      s.engine.locator.refusal ≠ none ∧
        ∃ e, (store.delete (.ofProperty key value)).run s = (.error e, s))

variable {store : PropertyStore} {s : Site} {t : GraphTables}

/-- **A plain key is addressed**, if it is known how a text has a value for it. -/
theorem addresses_of_hasProperty {HasAt : String → String → Scalar → Prop} {key : String}
    {value : Scalar} (hopen : store.IsOpen s t) (hwf : t.WellFormed store.schema.dimension)
    (hkey : IsPlainKey key)
    (h : ∀ text, t.HasText text → (hasProperty key value text = true ↔ HasAt text key value)) :
    store.Addresses HasAt s t key value := by
  have hkeys : ∀ e ∈ (Properties.ofList [(key, value)]).entries, IsPlainKey e.1 :=
    List.forall_mem_singleton.2 hkey
  -- one property makes one condition
  have hnodes : nodeSize (.ofList [(key, value)]) [] ≤ 998 := Nat.le_of_ble_eq_true rfl
  have htriplets : (Selection.ofProperty key value).size ≤ 993 := Nat.le_of_ble_eq_true rfl
  have hfew : ¬(Selection.ofProperty key value).IsCrowded := Nat.not_lt.2 hnodes
  have hencoded : ∀ text, t.HasText text → ((∃ p : Properties, text = p.encode ∧
      HasAt p.encode key value) ↔ HasAt text key value) := by
    intro text htext
    obtain ⟨p, rfl⟩ := hwf.hasText htext
    refine ⟨?_, fun hp => ⟨p, rfl, hp⟩⟩
    rintro ⟨q, hq, hhas⟩
    rwa [hq]
  constructor
  case nodes =>
    have hfinds : t.Finds HasAt (.ofList [(key, value)]) []
        (t.found (.ofList [(key, value)]) []) :=
      GraphTables.finds_found fun n hn =>
        List.forall_mem_singleton.2 (h n.properties (.inl ⟨n, hn, rfl⟩))
    obtain ⟨answer, s', hrun, hopen', hread⟩ := run_nodes hopen hwf hkeys hnodes
    refine ⟨_, answer, s', hrun, hopen', hread, hfinds.sublist, fun n => ?_⟩
    rw [hfinds.mem_rows n]
    exact and_congr_right fun _ => (and_iff_right (.inl rfl)).trans List.forall_mem_singleton
  case triplets =>
    have hselects : t.Selects (fun p => HasAt p.encode) (.ofProperty key value)
        ((t.selected (.ofProperty key value)).map Joined.relation) :=
      GraphTables.selects_selected hwf fun text htext => List.forall_mem_singleton.2
        ((h text htext).trans (hencoded text htext).symm)
    obtain ⟨s', hrun, hopen'⟩ : ∃ s', (store.triplets (.ofProperty key value)).run s =
        (.ok _, s') ∧ store.IsOpen s' t :=
      run_readsOk hopen (GraphTables.triplets_eq_ok hwf rfl hkeys htriplets)
    refine ⟨_, _, s', hrun, hopen', ?_, hselects.sublist, fun r => ?_⟩
    · rw [List.forall₂_map_right_iff, List.forall₂_same]
      exact fun r hr => GraphTables.shows_tripletOf hwf (hselects.sublist.subset hr)
    · rw [hselects.mem_rows r]
      refine exists_congr fun j => and_congr_right fun hj => and_congr_right fun _ => ?_
      exact Selection.selectsTriplet_ofProperty fun text htext =>
        (GraphTables.exists_encode_of_mem_texts hwf hj htext).2
  case delete =>
    obtain ⟨ends, hends, hrun⟩ :=
      GraphTables.run_delete (s := .ofProperty key value) hwf rfl hkeys hfew
    refine ⟨_, GraphTables.deletes_remnant hwf (fun text htext => ?_) hends,
      run_session_of_ok hopen (GraphTables.restrained_delete (.ofProperty key value)) hrun⟩
    rw [Selection.selectsText_ofProperty, h text htext, ← hencoded text htext]
    exact (and_iff_right rfl).symm

/-- **Which keys address what is stored for them**, in every state that a run leads to.

The path of a key has one label.  Read with the escapes of JSON it denotes the key if this has no
backslash, and only then.  The database reads it differently.  If the key has no quote and no NUL
either, the path is one step to the members of that name, and every filter on the key takes what has
the value, as the database reads what was stored, and as the values were given if it reads them so.
The other keys are exactly those that are overlooked. -/
theorem addresses_of_reaches (h : store.Reaches s t) (key : String) :
    (∃ label, (Json.keyPath key).toList = "$.\"".toList ++ label ∧
      (Json.Denotes label key.toList ↔ '\\' ∉ key.toList)) ∧
    (IsPlainKey key →
      Json.readPath (Json.keyPath key) = ⟨[.member key.toList true], .complete⟩ ∧
      ∀ value, store.Addresses SeesAt s t key value ∧
        ((∀ text, t.HasText text → ∃ p : Properties, text = p.encode ∧ p.IsFaithfulAt key) →
          store.Addresses HoldsAt s t key value)) ∧
    (IsOverlooked key ↔ ¬IsPlainKey key) := by
  obtain ⟨hopen, hwf⟩ := h.isOpen
  refine ⟨⟨_, Json.toList_keyPath key, Json.denotes_escapeQuotes_iff key.toList⟩, fun hkey =>
    ⟨readPath_keyPath hkey, fun value => ⟨?_, fun hfaithful => ?_⟩⟩, isOverlooked_iff⟩
  · exact addresses_of_hasProperty hopen hwf hkey fun text htext =>
      hasProperty_iff_matchesAt hkey (hwf.hasText htext)
  · exact addresses_of_hasProperty hopen hwf hkey fun text htext =>
      hasProperty_iff_hasAt hkey (hfaithful text htext)

/-- A floating point number that is read as it was stored is found at its key, in both rows that
have it.  A key with a backslash is overlooked. -/
theorem addresses_returned : ∃ s, PropertyStore.Reaches ⟨{}⟩ s returnedTables ∧
    PropertyStore.Addresses HoldsAt ⟨{}⟩ s returnedTables "x" (.float ⟨0x3fe0000000000000⟩) ∧
    IsOverlooked "c\\d" := by
  obtain ⟨s, h⟩ := exists_reaches_returnedTables
  obtain ⟨-, hplain, -⟩ := addresses_of_reaches h "x"
  obtain ⟨-, -, hoverlooked⟩ := addresses_of_reaches h "c\\d"
  have hfaithful : halfProperties.IsFaithfulAt "x" := by
    refine ⟨by decide, ?_⟩
    rw [entries_halfProperties]
    decide +kernel
  obtain ⟨-, hvalues⟩ := hplain (by decide)
  refine ⟨s, h, (hvalues _).2 ?_, hoverlooked.2 (by decide)⟩
  rintro text (⟨n, hn, rfl⟩ | ⟨r, hr, -⟩)
  · have hall : ∀ n ∈ returnedTables.nodes, n.properties = halfProperties.encode := by decide
    exact ⟨_, hall n hn, hfaithful⟩
  · cases hr

end PropertyStore

end GraphBase
