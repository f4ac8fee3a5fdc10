import GraphBase.Storage.Database
import GraphBase.Proofs.Storage.Sessions
import Mathlib.Data.List.Basic

/-!
# The view of a store

A store sees its own tables through the database.  What it puts there is what it finds there
afterwards, next to the same surroundings (`tripletTables?_withTripletTables`): a session of a
store changes neither what other relationships refer to nor which entities are theirs.

A store creates its tables when it is opened.  If they are there already, nothing happens
(`createTriplets_of_tables`).
-/

namespace GraphBase

/-! ## Items under names -/

section Names

variable {α : Type} {name other : String} {item : α} {items : List (String × α)}

theorem lookupName_replaceName_self (h : (lookupName name items).isSome) :
    lookupName name (replaceName name item items) = some item := by
  induction items with
  | nil => cases h
  | cons e items ih =>
    by_cases hname : e.1 = name
    · simp [lookupName, replaceName, hname]
    · have hrest : (lookupName name items).isSome := by simpa [lookupName, hname] using h
      simpa [lookupName, replaceName, hname] using ih hrest

theorem lookupName_replaceName_of_ne (hne : other ≠ name) :
    lookupName other (replaceName name item items) = lookupName other items := by
  induction items with
  | nil => rfl
  | cons e items ih =>
    by_cases hname : e.1 = name
    · simpa [lookupName, replaceName, hname, hne.symm] using ih
    · by_cases hother : e.1 = other
      · simp [lookupName, replaceName, hother, hne]
      · simpa [lookupName, replaceName, hname, hother] using ih

theorem lookupName_map (f : α → α) :
    lookupName name (items.map fun e => if e.1 = name then (e.1, f e.2) else e) =
      (lookupName name items).map f := by
  induction items with
  | nil => rfl
  | cons e items ih =>
    by_cases hname : e.1 = name
    · simp [lookupName, hname]
    · simpa [lookupName, hname] using ih

end Names

namespace Database

variable {db db' : Database} {s : TripletSchema} {t t' : TripletTables}

/-! ## The tables of a triplet store -/

theorem tripletTables?_eq_some (h : db.tripletTables? s = some t) :
    lookupName (Text.foldCase s.entities) db.entityTables = some t.entities ∧
      ∃ links, lookupName (Text.foldCase s.relationships) db.linkTables = some links ∧
        t.relationships = links.table ∧
        t.surroundings =
          { ends := if links.owner = Text.foldCase s.entities then none
              else some (db.entityIds links.owner)
            pinned := db.pinnedBy (Text.foldCase s.entities) (Text.foldCase s.relationships) } := by
  rw [tripletTables?] at h
  split at h
  · rename_i entities links hentities hlinks
    obtain rfl := Option.some.inj h
    exact ⟨hentities, links, hlinks, rfl, rfl⟩
  · cases h

/-- Writing to one relationship table leaves alone what the others refer to. -/
theorem pinnedBy_map (db : Database) (e r : String) (f : LinkTable → LinkTable) :
    ({ db with linkTables := db.linkTables.map fun l => if l.1 = r then (l.1, f l.2) else l } :
      Database).pinnedBy e r = db.pinnedBy e r := by
  rw [pinnedBy, pinnedBy]
  simp only
  induction db.linkTables with
  | nil => rfl
  | cons l links ih =>
    by_cases hname : l.1 = r
    · simpa [hname] using ih
    · by_cases howner : l.2.owner = e
      · simpa [hname, howner] using ih
      · simpa [hname, howner] using ih

/-- **What a store puts into the database is what it finds there**, next to the same
surroundings. -/
theorem tripletTables?_withTripletTables (h : db.tripletTables? s = some t) (t' : TripletTables) :
    (db.withTripletTables s t').tripletTables? s =
      some { t' with surroundings := t.surroundings } := by
  obtain ⟨hentities, links, hlinks, -, hsurroundings⟩ := tripletTables?_eq_some h
  set e := Text.foldCase s.entities with he
  set r := Text.foldCase s.relationships with hr
  have hentities' : lookupName e (db.withTripletTables s t').entityTables = some t'.entities :=
    lookupName_replaceName_self (by rw [hentities]; rfl)
  have hlinks' : lookupName r (db.withTripletTables s t').linkTables =
      some { links with table := t'.relationships } := by
    refine (lookupName_map fun l : LinkTable => { l with table := t'.relationships }).trans ?_
    rw [hlinks]
    rfl
  have hids : links.owner ≠ e →
      (db.withTripletTables s t').entityIds links.owner = db.entityIds links.owner := by
    intro hne
    rw [entityIds, entityIds, withTripletTables, lookupName_replaceName_of_ne hne]
  have hpinned : (db.withTripletTables s t').pinnedBy e r = db.pinnedBy e r :=
    pinnedBy_map db e r fun l => { l with table := t'.relationships }
  rw [tripletTables?, ← he, ← hr, hentities', hlinks', hsurroundings]
  simp only [hpinned]
  split_ifs with howner
  · rfl
  · rw [hids howner]

theorem mem_map_fst_of_lookupName {α : Type} {name : String} {items : List (String × α)}
    (h : (lookupName name items).isSome) : name ∈ items.map (·.1) := by
  rw [lookupName, Option.isSome_map, List.find?_isSome] at h
  obtain ⟨e, he, hname⟩ := h
  exact List.mem_map.2 ⟨e, he, by simpa using hname⟩

/-- An entity table that is there is not made again. -/
theorem createEntities_of_lookupName {name : String} {r : Refusal}
    (hthere : (lookupName name db.entityTables).isSome)
    (h : createEntities name r db = .ok ((), db')) : db' = db := by
  have hname : db.tableNames.contains name = true := by
    simp [tableNames, mem_map_fst_of_lookupName hthere]
  rw [createEntities, Session.run_get_bind, hname] at h
  split_ifs at h with hreserved hmissing
  · cases h
  · cases h
    rfl
  · exact absurd rfl hmissing

/-- A relationship table that is there is not made again. -/
theorem createLinks_of_lookupName {name owner : String} {r : Refusal}
    (hthere : (lookupName name db.linkTables).isSome)
    (h : createLinks name owner r db = .ok ((), db')) : db' = db := by
  have hname : db.tableNames.contains name = true := by
    simp [tableNames, mem_map_fst_of_lookupName hthere]
  rw [createLinks, Session.run_get_bind, hname, hthere] at h
  split_ifs at h with hreserved hmissing
  · cases h
  · cases h
    rfl
  · exact absurd rfl hmissing

/-- **A triplet store whose tables are there finds them as they are.** -/
theorem createTriplets_of_tables {r : Refusal} (hthere : db.tripletTables? s = some t)
    (h : createTriplets s r db = .ok ((), db')) : db' = db := by
  obtain ⟨hentities, links, hlinks, -, -⟩ := tripletTables?_eq_some hthere
  obtain ⟨u, db₁, hfirst, hsecond⟩ := Session.exists_of_run_bind h
  obtain rfl := createEntities_of_lookupName (by rw [hentities]; rfl) hfirst
  exact createLinks_of_lookupName (by rw [hlinks]; rfl) hsecond

theorem inTriplets_eq {α : Type} (h : db.tripletTables? s = some t)
    (body : Session TripletTables α) (r : Refusal) :
    inTriplets s body r db =
      (body r t).map fun p => (p.1, db.withTripletTables s p.2) := by
  rw [inTriplets, h]

/-! ## The tables of a property graph store -/

/-- A property graph store whose tables are there finds them as they are. -/
theorem createGraph_of_tables {r : Refusal} {g : GraphTables} (hthere : db.graph = some g)
    (h : createGraph r db = .ok ((), db')) : db' = db := by
  rw [createGraph, Session.run_get_bind, hthere] at h
  cases h
  rfl

theorem inGraph_eq {α : Type} {g : GraphTables} (h : db.graph = some g)
    (body : Session GraphTables α) (r : Refusal) :
    inGraph body r db = (body r g).map fun p => (p.1, { db with graph := some p.2 }) := by
  rw [inGraph, h]

end Database

end GraphBase
