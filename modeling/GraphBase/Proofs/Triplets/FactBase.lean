import GraphBase.Triplets.Query
import Mathlib.Data.Finset.Card
import Mathlib.Data.Finset.Filter
import Mathlib.Data.List.Nodup

/-!
# Fact bases

To a user, a triplet store is a fact base: a list of facts without repetition, in the order of
their insertion, and a set of names that contains the ends of every fact.

* `upsert` appends a fact that is not there, and adds the names of its ends.
* `delete` does nothing if the fact is not there.  Otherwise the fact goes, and with it those of
  its two ends that no other fact has for an end.
* `addName` adds a name.

A deletion has two halves, between which other things may happen: `forget` takes the fact out, and
`sweep` takes out those of its ends that no fact has by then.

Facts and names are kept together in one structure, with the two properties that make them a
fact base.
-/

namespace GraphBase

/-- Whether a fact begins or ends at a name. -/
def Fact.hasEnd (f : Fact) (name : String) : Bool := f.subject == name || f.object == name

/-- Facts in the order of their insertion, and names. -/
structure FactBase where
  facts : List Fact
  names : Finset String
  nodup : facts.Nodup
  closed : ∀ f ∈ facts, f.subject ∈ names ∧ f.object ∈ names

namespace FactBase

@[ext] theorem ext {a b : FactBase} (hfacts : a.facts = b.facts) (hnames : a.names = b.names) :
    a = b := by
  cases a
  cases b
  cases hfacts
  cases hnames
  rfl

/-- The fact base of a new store. -/
def empty : FactBase := ⟨[], ∅, .nil, fun _ h => absurd h List.not_mem_nil⟩

/-- Adds a name. -/
def addName (name : String) (b : FactBase) : FactBase where
  facts := b.facts
  names := insert name b.names
  nodup := b.nodup
  closed := fun f hf =>
    ⟨Finset.mem_insert_of_mem (b.closed f hf).1, Finset.mem_insert_of_mem (b.closed f hf).2⟩

/-- Adds a fact. -/
def upsert (fact : Fact) (b : FactBase) : FactBase where
  facts := if fact ∈ b.facts then b.facts else b.facts ++ [fact]
  names := insert fact.subject (insert fact.object b.names)
  nodup := by
    split_ifs with h
    · exact b.nodup
    · exact List.nodup_append.2 ⟨b.nodup, List.nodup_singleton fact, by
        rintro f hf g hg rfl
        exact h (List.mem_singleton.1 hg ▸ hf)⟩
  closed := fun f hf => by
    have hcases : f ∈ b.facts ∨ f = fact := by
      split_ifs at hf with h
      · exact .inl hf
      · exact (List.mem_append.1 hf).imp id List.mem_singleton.1
    rcases hcases with hf | rfl
    · have hends := b.closed f hf
      simp only [Finset.mem_insert]
      exact ⟨.inr (.inr hends.1), .inr (.inr hends.2)⟩
    · exact ⟨Finset.mem_insert_self _ _,
        Finset.mem_insert_of_mem (Finset.mem_insert_self _ _)⟩

/-- Takes a fact out, and with it those of its ends that no other fact has. -/
def remove (fact : Fact) (b : FactBase) : FactBase where
  facts := b.facts.erase fact
  names := b.names.filter fun n => !fact.hasEnd n || (b.facts.erase fact).any (·.hasEnd n)
  nodup := b.nodup.erase fact
  closed := fun f hf => by
    have hends := b.closed f (List.mem_of_mem_erase hf)
    have hkeep : ∀ n, f.hasEnd n = true → (b.facts.erase fact).any (·.hasEnd n) = true :=
      fun n hn => List.any_eq_true.2 ⟨f, hf, hn⟩
    simp only [Finset.mem_filter, Bool.or_eq_true]
    exact ⟨⟨hends.1, .inr (hkeep _ (by simp [Fact.hasEnd]))⟩,
      ⟨hends.2, .inr (hkeep _ (by simp [Fact.hasEnd]))⟩⟩

/-- Deletes a fact, if it is there. -/
def delete (fact : Fact) (b : FactBase) : FactBase :=
  if fact ∈ b.facts then b.remove fact else b

/-- Takes a fact out and leaves its ends. -/
def forget (fact : Fact) (b : FactBase) : FactBase where
  facts := b.facts.erase fact
  names := b.names
  nodup := b.nodup.erase fact
  closed := fun f hf => b.closed f (List.mem_of_mem_erase hf)

/-- Takes out those ends of a fact that no fact has. -/
def sweep (fact : Fact) (b : FactBase) : FactBase where
  facts := b.facts
  names := b.names.filter fun n => !fact.hasEnd n || b.facts.any (·.hasEnd n)
  nodup := b.nodup
  closed := fun f hf => by
    have hends := b.closed f hf
    have hkeep : ∀ n, f.hasEnd n = true → b.facts.any (·.hasEnd n) = true :=
      fun n hn => List.any_eq_true.2 ⟨f, hf, hn⟩
    simp only [Finset.mem_filter, Bool.or_eq_true]
    exact ⟨⟨hends.1, .inr (hkeep _ (by simp [Fact.hasEnd]))⟩,
      ⟨hends.2, .inr (hkeep _ (by simp [Fact.hasEnd]))⟩⟩

/-- The relations of a subject and their objects. -/
def relations (subject : String) (b : FactBase) : List (String × String) :=
  (b.facts.filter fun f => f.subject == subject).map fun f => (f.relation, f.object)

/-- The counts of a fact base. -/
def stats (b : FactBase) : Stats := ⟨b.names.card, b.facts.length, 0⟩

variable {b : FactBase} {fact : Fact} {name : String}

theorem facts_upsert_of_mem (h : fact ∈ b.facts) : (b.upsert fact).facts = b.facts := if_pos h

theorem facts_upsert_of_notMem (h : fact ∉ b.facts) :
    (b.upsert fact).facts = b.facts ++ [fact] := if_neg h

theorem facts_delete (fact : Fact) (b : FactBase) : (b.delete fact).facts = b.facts.erase fact := by
  rw [delete]
  split_ifs with h
  · rfl
  · rw [List.erase_of_not_mem h]

theorem mem_names_remove :
    name ∈ (b.remove fact).names ↔
      name ∈ b.names ∧
        (fact.hasEnd name = true → ∃ f ∈ b.facts.erase fact, f.hasEnd name = true) := by
  rw [remove, Finset.mem_filter, Bool.or_eq_true, List.any_eq_true, Bool.not_eq_true',
    ← Bool.not_eq_true, ← imp_iff_not_or]

theorem mem_names_sweep :
    name ∈ (b.sweep fact).names ↔
      name ∈ b.names ∧ (fact.hasEnd name = true → ∃ f ∈ b.facts, f.hasEnd name = true) := by
  rw [sweep, Finset.mem_filter, Bool.or_eq_true, List.any_eq_true, Bool.not_eq_true',
    ← Bool.not_eq_true, ← imp_iff_not_or]

end FactBase

end GraphBase
