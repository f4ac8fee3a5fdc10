import GraphBase.Proofs.Storage.Numbered

/-!
# The times of the rows

Every row of every table has two times, that of its insertion and that of its last change.  A
statement puts the current time into both of a row that it inserts.  What it does to a row that it
changes is not up to the statement alone: whenever a row is changed, a trigger moves the second time
to now, unless the statement has moved it itself (`Times.afterUpdate`).

So three kinds of rows are to be told apart after an operation: those that it has inserted, those
that were there and that it has changed, and those that were there and are none of its business.
`TimesMove` says of two states of a table which rows are which, by a key that no row ever changes,
and what the times of each are.  It says nothing of rows that are gone.

Rows are followed backwards: a row that is there in the end comes from a row with its key at the
beginning, or it is fresh.  As all keys are different, there is only one row that it can come from
(`TimesMove.of_rows`).  An operation that makes rows and then changes some does so in this order,
so its effect is that of one insertion and one change of all rows where they are
(`TimesMove.map_of_fresh`).

A table whose rows are numbered gets new ones behind those that are there (`Table.Gains`), or loses
some of those that are there (`Table.Shrinks`).
-/

namespace GraphBase

/-- The times of a row: when it was inserted, and when it was changed last. -/
structure Times where
  created : String
  updated : String
  deriving DecidableEq

namespace Times

/-- The times of a row that has just been inserted. -/
def fresh (now : String) : Times := ⟨now, now⟩

/-- The times of a row after a statement has written some to it, as the trigger leaves them: the
second is the one that was written, or now if that is the old one. -/
def afterUpdate (now : String) (old written : Times) : Times :=
  ⟨written.created, touched now old.updated written.updated⟩

theorem afterUpdate_self (now : String) (old : Times) :
    afterUpdate now old old = ⟨old.created, now⟩ := by
  rw [afterUpdate, touched_self]

theorem created_ite {c : Prop} [Decidable c] (now : String) (times : Times) :
    (if c then ⟨times.created, now⟩ else times).created = times.created := by
  split_ifs <;> rfl

/-- A row that is changed in the moment of its insertion stays fresh. -/
theorem ite_created_of_fresh {c : Prop} [Decidable c] {now : String} {times : Times}
    (h : times = fresh now) : (if c then ⟨times.created, now⟩ else times) = fresh now := by
  rw [h]
  exact ite_self _

end Times

/-- A statement that changes rows: which ones, and what it writes to them.  It may write anything
but what tells them apart. -/
structure RowUpdate {ρ κ : Type} (key : ρ → κ) where
  selects : ρ → Bool
  write : ρ → ρ
  key_write : ∀ r, key (write r) = key r

/-- The times of a row after a statement has run that changes some rows at some time. -/
def RowUpdate.after {ρ κ : Type} {key : ρ → κ} (u : RowUpdate key) (times : ρ → Times)
    (now : String) (r : ρ) : Times :=
  if u.selects r then .afterUpdate now (times r) (times (u.write r)) else times r

/-- A statement that does not write the times moves the second one to now. -/
theorem RowUpdate.after_eq {ρ κ : Type} {key : ρ → κ} (u : RowUpdate key) {times : ρ → Times}
    (h : ∀ r, times (u.write r) = times r) (now : String) (r : ρ) :
    u.after times now r = if u.selects r then ⟨(times r).created, now⟩ else times r := by
  rw [after, h, Times.afterUpdate_self]

/-- A row is changed by such a statement and then by the trigger: it is told apart by what it was told
apart by before. -/
theorem RowUpdate.after_spec {ρ κ : Type} {key : ρ → κ} (u : RowUpdate key) {times : ρ → Times}
    {now : String} {touch : ρ → ρ} (hkey : ∀ r, key (touch r) = key (u.write r))
    (htimes : ∀ r, times (touch r) = .afterUpdate now (times r) (times (u.write r))) (r : ρ) :
    key (if u.selects r then touch r else r) = key r ∧
      times (if u.selects r then touch r else r) = u.after times now r := by
  rw [after]
  split_ifs
  · exact ⟨(hkey r).trans (u.key_write r), htimes r⟩
  · exact ⟨rfl, rfl⟩

variable {ρ κ : Type}

/-- How the times of the rows of a table have moved.  Rows that were there have the times that
`after` says, and new ones those of a clock, so there are none if there is no clock. -/
structure TimesMove (key : ρ → κ) (times : ρ → Times) (clock : Option String) (after : ρ → Times)
    (old new : List ρ) : Prop where
  survivor : ∀ r ∈ old, ∀ r' ∈ new, key r' = key r → times r' = after r
  newcomer : ∀ r' ∈ new, key r' ∉ old.map key → ∃ now, clock = some now ∧ times r' = .fresh now

namespace TimesMove

variable {key : ρ → κ} {times : ρ → Times} {clock : Option String} {after : ρ → Times}
  {old mid new : List ρ}

/-- **A row comes from one row only**, as all keys are different. -/
theorem of_rows (hkeys : (old.map key).Nodup)
    (h : ∀ r' ∈ new, (∃ r ∈ old, key r' = key r ∧ times r' = after r) ∨
      key r' ∉ old.map key ∧ ∃ now, clock = some now ∧ times r' = .fresh now) :
    TimesMove key times clock after old new := by
  refine ⟨fun r hr r' hr' hkey => ?_, fun r' hr' hkey => ?_⟩
  · obtain ⟨s, hs, hkey', htimes⟩ | ⟨hnew, -⟩ := h r' hr'
    · obtain rfl := List.inj_on_of_nodup_map hkeys hs hr (hkey'.symm.trans hkey)
      exact htimes
    · exact absurd (hkey ▸ List.mem_map_of_mem hr) hnew
  · obtain ⟨s, hs, hkey', -⟩ | ⟨-, hfresh⟩ := h r' hr'
    · exact absurd (hkey' ▸ List.mem_map_of_mem hs) hkey
    · exact hfresh

/-- Rows that are left as they are have not moved, whichever of them are gone. -/
theorem of_sublist (hkeys : (old.map key).Nodup) (h : new.Sublist old) :
    TimesMove key times clock times old new :=
  of_rows hkeys fun r hr => .inl ⟨r, h.subset hr, rfl, rfl⟩

/-- Rows that are changed where they are move as they are changed. -/
theorem of_map {f : ρ → ρ} (hkeys : (old.map key).Nodup) (hkey : ∀ r, key (f r) = key r)
    (hafter : ∀ r, times (f r) = after r) : TimesMove key times clock after old (old.map f) := by
  refine of_rows hkeys fun r' hr' => ?_
  obtain ⟨r, hr, rfl⟩ := List.mem_map.1 hr'
  exact .inl ⟨r, hr, hkey r, hafter r⟩

/-- Rows that are inserted and then changed, all of them where they are, move as they are changed,
and those that were inserted stay fresh. -/
theorem map_of_fresh {now : String} {f : ρ → ρ} (hkeys : (old.map key).Nodup)
    (hmid : ∀ r ∈ mid, r ∈ old ∨ key r ∉ old.map key ∧ times r = .fresh now)
    (hkey : ∀ r, key (f r) = key r) (hafter : ∀ r, times (f r) = after r)
    (hfresh : ∀ r, times r = .fresh now → after r = .fresh now) :
    TimesMove key times (some now) after old (mid.map f) := by
  refine of_rows hkeys fun r' hr' => ?_
  obtain ⟨r, hr, rfl⟩ := List.mem_map.1 hr'
  rw [hkey r, hafter r]
  obtain hr | ⟨hnew, htimes⟩ := hmid r hr
  · exact .inl ⟨r, hr, rfl, rfl⟩
  · exact .inr ⟨hnew, now, rfl, hfresh r htimes⟩

/-- Rows that are inserted and nothing else. -/
theorem of_fresh {now : String} (hkeys : (old.map key).Nodup)
    (hnew : ∀ r ∈ new, r ∈ old ∨ key r ∉ old.map key ∧ times r = .fresh now) :
    TimesMove key times (some now) times old new := by
  rw [← List.map_id' new]
  exact map_of_fresh hkeys hnew (fun _ => rfl) (fun _ => rfl) fun _ => id

end TimesMove

/-! ## Numbered rows -/

/-- One table comes after another, and rows are gone in between, but nothing else has happened. -/
structure Table.Shrinks (t t' : Table ρ) : Prop where
  rows : t'.rows.Sublist t.rows
  lastId : t'.lastId = t.lastId

namespace Table.Shrinks

variable {number : ρ → Nat} {t t' t'' : Table ρ}

theorem refl (t : Table ρ) : t.Shrinks t := ⟨.refl _, rfl⟩

theorem trans (h : t.Shrinks t') (h' : t'.Shrinks t'') : t.Shrinks t'' :=
  ⟨h'.rows.trans h.rows, h'.lastId.trans h.lastId⟩

theorem keep (h : t.Shrinks t') (p : ρ → Bool) : t.Shrinks (t'.keep p) :=
  ⟨List.filter_sublist.trans h.rows, h.lastId⟩

theorem numbered (h : t.Shrinks t') (ht : t.Numbered number) : t'.Numbered number := by
  refine ⟨ht.ascending.sublist (h.rows.map _), fun r hr => ?_, fun r hr => ?_⟩
  · exact ht.positive r (h.rows.subset hr)
  · rw [h.lastId]
    exact ht.bounded r (h.rows.subset hr)

/-- **Deletions move nothing that stays.** -/
theorem timesMove (h : t.Shrinks t') (ht : t.Numbered number) {times : ρ → Times}
    {clock : Option String} : TimesMove number times clock times t.rows t'.rows :=
  .of_sublist ht.nodup h.rows

end Table.Shrinks

/-- One table comes after another, and the rows that were inserted in between are fresh. -/
structure Table.Gains (number : ρ → Nat) (times : ρ → Times) (now : String) (t t' : Table ρ) :
    Prop where
  numbered : t'.Numbered number
  lastId_le : t.lastId ≤ t'.lastId
  rows : ∀ r ∈ t'.rows, r ∈ t.rows ∨ t.lastId < number r ∧ times r = .fresh now

namespace Table.Gains

variable {number : ρ → Nat} {times : ρ → Times} {now : String} {t t' : Table ρ}

theorem refl (h : t.Numbered number) : Gains number times now t t := ⟨h, le_rfl, fun _ => .inl⟩

theorem append (h : Gains number times now t t') {row : Nat → ρ}
    (hnumber : number (row t'.nextId) = t'.nextId) (htimes : times (row t'.nextId) = .fresh now) :
    Gains number times now t (t'.append row) := by
  refine ⟨h.numbered.append row hnumber, h.lastId_le.trans (Nat.le_succ _), fun r hr => ?_⟩
  rcases List.mem_append.1 hr with hr | hr
  · exact h.rows r hr
  · obtain rfl := List.mem_singleton.1 hr
    refine .inr ⟨?_, htimes⟩
    rw [hnumber]
    exact Nat.lt_succ_of_le h.lastId_le

/-- Numbers that are new are larger than those that were there. -/
theorem mem_or_fresh (h : Gains number times now t t') (ht : t.Numbered number) :
    ∀ r ∈ t'.rows, r ∈ t.rows ∨ number r ∉ t.rows.map number ∧ times r = .fresh now := by
  refine fun r hr => (h.rows r hr).imp_right fun ⟨hlt, hfresh⟩ => ⟨fun hmem => ?_, hfresh⟩
  obtain ⟨r', hr', heq⟩ := List.mem_map.1 hmem
  have hle := ht.bounded r' hr'
  omega

/-- **Insertions move nothing that was there.** -/
theorem timesMove (h : Gains number times now t t') (ht : t.Numbered number) :
    TimesMove number times (some now) times t.rows t'.rows :=
  .of_fresh ht.nodup (h.mem_or_fresh ht)

end Table.Gains

end GraphBase
