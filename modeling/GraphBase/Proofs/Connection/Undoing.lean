import GraphBase.Proofs.Connection.Site

/-!
# Operations that leave no trace when they fail

An operation on a site may fail after it has done something, and what it has done stays.  An
operation that is one session does not (`Access.AllOrNothing`): whatever its body has got to, the
site is as it was, with all its databases, files and connections.  This needs nothing of the
database, which may be damaged or missing.  It does not carry over to operations in a row: if the
second of them fails, the first has been done.

So a history of such operations may be read without those that have failed
(`Access.siteAfter_succeeding`).

`Access.Fails` says of one operation on one site that it fails, and how.  A connection that may not
write may have failed for that already, so the cause is only promised where it may.
-/

namespace GraphBase.Access

variable {α β : Type} {x : Access α} {s : Site}

/-- An operation that leaves the site as it was when it fails, and that does not make a connection
due to be replaced. -/
structure AllOrNothing (x : Access α) : Prop where
  undone : ∀ {s s' e}, s.engine.isStale = false → x.run s = (.error e, s') → s' = s
  fresh : ∀ {s}, s.engine.isStale = false → (x.run s).2.engine.isStale = false

namespace AllOrNothing

theorem pure (a : α) : AllOrNothing (Pure.pure a : Access α) := by
  refine ⟨fun _ hrun => ?_, fun h => h⟩
  cases hrun

theorem throw (e : Error) : AllOrNothing (MonadExcept.throw e : Access α) := by
  refine ⟨fun _ hrun => ?_, fun h => h⟩
  cases hrun
  rfl

theorem ite {c : Prop} [Decidable c] {y : Access α} (hx : AllOrNothing x) (hy : AllOrNothing y) :
    AllOrNothing (if c then x else y) := by
  split_ifs
  · exact hx
  · exact hy

/-- The answer may be thrown away. -/
theorem bind_pure (hx : AllOrNothing x) (b : β) :
    AllOrNothing (x >>= fun _ => Pure.pure b) := by
  refine ⟨fun {s s' e} h hrun => ?_, fun {s} h => ?_⟩
  · cases hx' : x.run s with
    | mk r s₁ =>
      cases r with
      | ok a =>
        rw [run_bind_ok hx'] at hrun
        cases hrun
      | error e' =>
        rw [run_bind_error hx'] at hrun
        obtain ⟨-, rfl⟩ := Prod.mk.inj hrun
        exact hx.undone h hx'
  · rw [site_run_bind_pure]
    exact hx.fresh h

/-- **A session leaves no trace when it fails**, whatever its body has done by then. -/
theorem session (body : Session Database α) : AllOrNothing (Engine.session body) := by
  refine ⟨fun {s s' e} h hrun => ?_, fun h => Engine.isStale_run_session h body⟩
  obtain ⟨a, s₁, hrun', -⟩ | ⟨e', hrun'⟩ := Engine.run_session_cases h body
  · rw [hrun'] at hrun
    cases hrun
  · rw [hrun'] at hrun
    exact (Prod.mk.inj hrun).2.symm

end AllOrNothing

/-- An operation fails with the site as it was, and with a certain error if the connection may
write. -/
def Fails (x : Access α) (s : Site) (e : Error) : Prop :=
  ∃ e', x.run s = (.error e', s) ∧ (s.engine.locator.refusal = none → e' = e)

/-! ## Histories -/

/-- The site that operations lead to, one after the other, whether they succeed or not. -/
def siteAfter : List (Access Unit) → Site → Site
  | [], s => s
  | x :: rest, s => siteAfter rest (x.run s).2

/-- Those of the operations that succeed. -/
def succeeding : List (Access Unit) → Site → List (Access Unit)
  | [], _ => []
  | x :: rest, s =>
    match x.run s with
    | (.ok _, s') => x :: succeeding rest s'
    | (.error _, s') => succeeding rest s'

/-- **A history may be read without the operations that have failed.** -/
theorem siteAfter_succeeding {history : List (Access Unit)}
    (hall : ∀ x ∈ history, AllOrNothing x) (hfresh : s.engine.isStale = false) :
    siteAfter (succeeding history s) s = siteAfter history s := by
  induction history generalizing s with
  | nil => rfl
  | cons x rest ih =>
    rw [List.forall_mem_cons] at hall
    have hnext := hall.1.fresh hfresh
    rw [succeeding, siteAfter]
    cases hrun : x.run s with
    | mk r s' =>
      rw [hrun] at hnext
      cases r with
      | ok a =>
        simp only
        rw [siteAfter, hrun]
        exact ih hall.2 hnext
      | error e =>
        obtain rfl := hall.1.undone hfresh hrun
        exact ih hall.2 hnext

end GraphBase.Access
