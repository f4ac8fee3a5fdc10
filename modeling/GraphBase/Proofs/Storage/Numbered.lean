import GraphBase.Storage.Table
import Mathlib.Data.List.Nodup
import Mathlib.Order.Nat

/-!
# The numbers of the rows

A table gives out numbers, and there are two things to say about them.  At any time the numbers
of the rows go up from one, and none is beyond the last one given out (`Table.Numbered`).  Over
time no number comes back: if the last number given out was `n`, then all rows up to `n` that
there ever are afterwards have been there before (`Table.Grows`).

The second is what keeps a number from being given out again after its row is gone
(`Grows.number_notMem`).

A look-up by a key that is different for all rows finds a row exactly if it is there
(`find?_key_eq_some`); the numbers are such a key, and so are the names of entities.
-/

namespace GraphBase

/-! ## Looking up by a key -/

section Keys

variable {ρ κ : Type} [DecidableEq κ] {key : ρ → κ} {rows : List ρ} {k : κ}

theorem find?_key_eq_some (h : (rows.map key).Nodup) {r : ρ} :
    (rows.find? fun r => key r == k) = some r ↔ r ∈ rows ∧ key r = k := by
  constructor
  · intro hfind
    exact ⟨List.mem_of_find?_eq_some hfind, by simpa using List.find?_some hfind⟩
  · rintro ⟨hr, rfl⟩
    cases hfind : rows.find? fun r' => key r' == key r with
    | none =>
      have hne := List.find?_eq_none.1 hfind r hr
      exact absurd (beq_self_eq_true _) hne
    | some r' =>
      have hkey : key r' = key r := by simpa using List.find?_some hfind
      rw [List.inj_on_of_nodup_map h (List.mem_of_find?_eq_some hfind) hr hkey]

theorem find?_key_eq_none :
    (rows.find? fun r => key r == k) = none ↔ k ∉ rows.map key := by
  rw [List.find?_eq_none, List.mem_map, not_exists]
  refine forall_congr' fun r => ?_
  rw [beq_iff_eq, not_and]

theorem isSome_find?_key :
    (rows.find? fun r => key r == k).isSome = true ↔ k ∈ rows.map key := by
  rw [← Option.ne_none_iff_isSome, Ne, find?_key_eq_none, not_not]

/-- Selecting by the key of a row gives this row alone. -/
theorem filter_key_eq_singleton (h : (rows.map key).Nodup) {r : ρ} (hr : r ∈ rows) :
    (rows.filter fun x => key x == key r) = [r] := by
  induction rows with
  | nil => cases hr
  | cons x rest ih =>
    rw [List.map_cons, List.nodup_cons] at h
    rcases List.mem_cons.1 hr with rfl | hr
    · have hnone : (rest.filter fun x => key x == key r) = [] := by
        refine List.filter_eq_nil_iff.2 fun x hx heq => h.1 ?_
        rw [← beq_iff_eq.1 heq]
        exact List.mem_map_of_mem hx
      rw [List.filter_cons, if_pos (beq_self_eq_true _), hnone]
    · have hne : ¬(key x == key r) = true := by
        rw [beq_iff_eq]
        intro heq
        exact h.1 (heq ▸ List.mem_map_of_mem hr)
      rw [List.filter_cons, if_neg hne, ih h.2 hr]

end Keys

namespace Table

variable {ρ : Type} (number : ρ → Nat)

/-- The numbers of the rows. -/
def numbers (t : Table ρ) : List Nat := t.rows.map number

/-- The numbers go up from one to the last one given out. -/
structure Numbered (t : Table ρ) : Prop where
  ascending : (t.numbers number).Pairwise (· < ·)
  positive : ∀ r ∈ t.rows, 0 < number r
  bounded : ∀ r ∈ t.rows, number r ≤ t.lastId

/-- One table comes after another: whatever is numbered up to the last number of the earlier one
was there already. -/
structure Grows (earlier later : Table ρ) : Prop where
  lastId_le : earlier.lastId ≤ later.lastId
  mem_of_le : ∀ n ∈ later.numbers number, n ≤ earlier.lastId → n ∈ earlier.numbers number

variable {number} {t : Table ρ}

/-! ## At any time -/

namespace Numbered

theorem of_rows_eq_nil (h : t.rows = []) : t.Numbered number := by
  refine ⟨?_, ?_, ?_⟩
  · rw [numbers, h]
    exact .nil
  · rw [h]
    exact fun r hr => absurd hr List.not_mem_nil
  · rw [h]
    exact fun r hr => absurd hr List.not_mem_nil

theorem append (h : t.Numbered number) (row : Nat → ρ) (hrow : number (row t.nextId) = t.nextId) :
    (t.append row).Numbered number := by
  have hnext : t.nextId = t.lastId + 1 := rfl
  refine ⟨?_, fun r hr => ?_, fun r hr => ?_⟩
  · rw [numbers, rows_append, List.map_append, List.map_singleton, hrow]
    refine List.pairwise_append.2 ⟨h.ascending, List.pairwise_singleton _ _, fun a ha b hb => ?_⟩
    obtain ⟨r, hr, rfl⟩ := List.mem_map.1 ha
    have hle := h.bounded r hr
    rw [List.mem_singleton.1 hb]
    omega
  · rcases List.mem_append.1 hr with hr | hr
    · exact h.positive r hr
    · rw [List.mem_singleton.1 hr, hrow]
      omega
  · rw [lastId_append]
    rcases List.mem_append.1 hr with hr | hr
    · have hle := h.bounded r hr
      omega
    · rw [List.mem_singleton.1 hr, hrow]
      exact hnext.le

theorem keep (h : t.Numbered number) (p : ρ → Bool) : (t.keep p).Numbered number := by
  refine ⟨?_, fun r hr => ?_, fun r hr => ?_⟩
  · exact h.ascending.sublist (List.filter_sublist.map number)
  · exact h.positive r (List.mem_of_mem_filter hr)
  · exact h.bounded r (List.mem_of_mem_filter hr)

theorem mapRows (h : t.Numbered number) {f : ρ → ρ} (hf : ∀ r, number (f r) = number r) :
    (t.mapRows f).Numbered number := by
  have hnumbers : (t.mapRows f).numbers number = t.numbers number := by
    rw [numbers, rows_mapRows, List.map_map]
    exact List.map_congr_left fun r _ => hf r
  refine ⟨hnumbers ▸ h.ascending, fun r hr => ?_, fun r hr => ?_⟩
  · obtain ⟨s, hs, rfl⟩ := List.mem_map.1 hr
    exact hf s ▸ h.positive s hs
  · obtain ⟨s, hs, rfl⟩ := List.mem_map.1 hr
    exact hf s ▸ h.bounded s hs

theorem nodup (h : t.Numbered number) : (t.numbers number).Nodup :=
  h.ascending.imp fun hlt => Nat.ne_of_lt hlt

/-- Rows are told apart by their numbers. -/
theorem eq_of_number_eq (h : t.Numbered number) {r s : ρ} (hr : r ∈ t.rows) (hs : s ∈ t.rows)
    (heq : number r = number s) : r = s :=
  List.inj_on_of_nodup_map h.nodup hr hs heq

theorem rows_nodup (h : t.Numbered number) : t.rows.Nodup := List.Nodup.of_map number h.nodup

end Numbered

/-! ## Over time -/

namespace Grows

theorem refl (t : Table ρ) : Grows number t t := ⟨le_rfl, fun _ hn _ => hn⟩

theorem trans {a b c : Table ρ} (hab : Grows number a b) (hbc : Grows number b c) :
    Grows number a c := by
  refine ⟨hab.lastId_le.trans hbc.lastId_le, fun n hn hle => ?_⟩
  exact hab.mem_of_le n (hbc.mem_of_le n hn (hle.trans hab.lastId_le)) hle

theorem append (t : Table ρ) (row : Nat → ρ) (hrow : number (row t.nextId) = t.nextId) :
    Grows number t (t.append row) := by
  refine ⟨Nat.le_succ _, fun n hn hle => ?_⟩
  rw [numbers, rows_append, List.map_append, List.map_singleton, hrow] at hn
  refine (List.mem_append.1 hn).resolve_right fun hlast => ?_
  have hnext : t.nextId = t.lastId + 1 := rfl
  rw [List.mem_singleton.1 hlast] at hle
  omega

theorem keep (t : Table ρ) (p : ρ → Bool) : Grows number t (t.keep p) := by
  refine ⟨le_rfl, fun n hn _ => ?_⟩
  obtain ⟨r, hr, rfl⟩ := List.mem_map.1 hn
  exact List.mem_map_of_mem (List.mem_of_mem_filter hr)

theorem mapRows (t : Table ρ) {f : ρ → ρ} (hf : ∀ r, number (f r) = number r) :
    Grows number t (t.mapRows f) := by
  refine ⟨le_rfl, fun n hn _ => ?_⟩
  rw [numbers, rows_mapRows, List.map_map] at hn
  obtain ⟨r, hr, rfl⟩ := List.mem_map.1 hn
  exact List.mem_map.2 ⟨r, hr, (hf r).symm⟩

/-- **A number that is new is larger than all before it.** -/
theorem lt_of_notMem {a b : Table ρ} (hab : Grows number a b) (ha : a.Numbered number) :
    ∀ n ∈ b.numbers number, n ∉ a.numbers number → ∀ m ∈ a.numbers number, m < n := by
  intro n hn hnew m hm
  obtain ⟨r, hr, rfl⟩ := List.mem_map.1 hm
  refine Nat.lt_of_le_of_lt (ha.bounded r hr) (Nat.lt_of_not_le fun hle => ?_)
  exact hnew (hab.mem_of_le n hn hle)

/-- **A number that is gone does not come back.** -/
theorem number_notMem {a b c : Table ρ} (ha : a.Numbered number) (hab : Grows number a b)
    (hbc : Grows number b c) {n : Nat} (hn : n ∈ a.numbers number)
    (hgone : n ∉ b.numbers number) : n ∉ c.numbers number := by
  intro hback
  obtain ⟨r, hr, rfl⟩ := List.mem_map.1 hn
  have hle := (ha.bounded r hr).trans hab.lastId_le
  exact hgone (hbc.mem_of_le _ hback hle)

end Grows

end Table

end GraphBase
