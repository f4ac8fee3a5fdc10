import GraphBase.Storage.Table

/-!
# Sessions step by step

A session is a function of a refusal and a state, and reads as a sequence of steps.  The lemmas
of the first part take such a sequence apart: forwards, when the outcome of every step is known
(`run_bind`), and backwards, when it is known that the whole succeeds (`exists_of_run_bind`).

`Session.Keeps` says that a session hands on what holds of its state.  It is proved of a sequence
step by step, so an invariant of a store is proved once for each statement.

`Session.Restrained` says what a session may do under a refusal: it fails, or it leaves the state
alone and answers as it would have done anyway.  This holds because whatever writes asks first.
-/

namespace GraphBase

namespace Session

variable {σ α β : Type} {r : Refusal} {s s' s'' : σ}

theorem run_bind {x : Session σ α} {f : α → Session σ β} {a : α} (h : x r s = .ok (a, s')) :
    (x >>= f) r s = f a r s' := by
  show Except.bind (x r s) _ = _
  rw [h]
  rfl

theorem run_bind_error {x : Session σ α} {f : α → Session σ β} {e : Error}
    (h : x r s = .error e) : (x >>= f) r s = .error e := by
  show Except.bind (x r s) _ = _
  rw [h]
  rfl

theorem run_discard {x : Session σ α} {a : α} (h : x r s = .ok (a, s')) :
    discard x r s = .ok ((), s') := by
  show Except.map _ (x r s) = _
  rw [h]
  rfl

theorem run_discard_error {x : Session σ α} {e : Error} (h : x r s = .error e) :
    discard x r s = .error e := by
  show Except.map _ (x r s) = _
  rw [h]
  rfl

theorem exists_of_run_bind {x : Session σ α} {f : α → Session σ β} {b : β}
    (h : (x >>= f) r s = .ok (b, s'')) :
    ∃ a s', x r s = .ok (a, s') ∧ f a r s' = .ok (b, s'') := by
  cases hx : x r s with
  | error e =>
    rw [run_bind_error hx] at h
    cases h
  | ok p =>
    rw [run_bind (show x r s = .ok (p.1, p.2) from hx)] at h
    exact ⟨p.1, p.2, rfl, h⟩

@[simp] theorem run_fault (f : StorageFault) :
    (Session.fault f : Session σ α) r s = .error (.storage f) := rfl

@[simp] theorem run_get_bind (f : σ → Session σ α) : (get >>= f) r s = f s r s := rfl

@[simp] theorem run_write_bind (f : Unit → Session σ α) :
    (Session.write >>= f) none s = f () none s := rfl

@[simp] theorem run_reads (f : σ → α) : Session.reads f r s = .ok (f s, s) := rfl

@[simp] theorem run_ofRead_ok_bind (a : α) (f : α → Session σ β) :
    (Session.ofRead (.ok a) >>= f) r s = f a r s := rfl

/-- Of two ways to begin, the one that is taken says how to go on. -/
theorem run_ite_bind {c : Prop} [Decidable c] {x y : Session σ α} {f : α → Session σ β} {a : α}
    (h : (if c then x else y) r s = .ok (a, s')) :
    (if c then x >>= f else y >>= f) r s = f a r s' := by
  by_cases hc : c
  · rw [if_pos hc] at h ⊢
    exact run_bind h
  · rw [if_neg hc] at h ⊢
    exact run_bind h

theorem run_ofRead (x : Except StorageFault α) :
    (Session.ofRead x : Session σ α) r s =
      match x with
      | .ok a => .ok (a, s)
      | .error f => .error (.storage f) := by
  cases x <;> rfl

/-- Reading leaves the state as it is. -/
theorem eq_of_run_ofRead {x : Except StorageFault α} {a : α}
    (h : (Session.ofRead x : Session σ α) r s = .ok (a, s')) : s' = s := by
  cases x with
  | ok b =>
    cases h
    rfl
  | error f => cases h

theorem run_readsOk (f : σ → Except StorageFault α) :
    Session.readsOk f r s =
      match f s with
      | .ok a => .ok (a, s)
      | .error e => .error (.storage e) := run_ofRead (f s)

/-! ## What a session keeps -/

/-- A session that succeeds hands on what holds of its state. -/
def Keeps (P : σ → Prop) (x : Session σ α) : Prop :=
  ∀ r s a s', x r s = .ok (a, s') → P s → P s'

namespace Keeps

variable {P : σ → Prop}

theorem pure (a : α) : Keeps P (Pure.pure a : Session σ α) := by
  intro r s b s' h hs
  cases h
  exact hs

theorem fault (f : StorageFault) : Keeps P (Session.fault f : Session σ α) := by
  intro r s a s' h
  cases h

theorem ofRead (x : Except StorageFault α) : Keeps P (Session.ofRead x : Session σ α) := by
  cases x with
  | ok a => exact pure a
  | error f => exact fault f

theorem bind {x : Session σ α} {f : α → Session σ β} (hx : Keeps P x) (hf : ∀ a, Keeps P (f a)) :
    Keeps P (x >>= f) := by
  intro r s b s'' h hs
  obtain ⟨a, s', ha, hb⟩ := exists_of_run_bind h
  exact hf a r s' b s'' hb (hx r s a s' ha hs)

theorem ite {c : Prop} [Decidable c] {x y : Session σ α} (hx : Keeps P x) (hy : Keeps P y) :
    Keeps P (if c then x else y) := by
  split
  · exact hx
  · exact hy

theorem discard {x : Session σ α} (hx : Keeps P x) : Keeps P (Functor.discard x) := by
  intro r s u s' h hs
  obtain ⟨a, s₁, ha, hu⟩ := exists_of_run_bind (f := fun _ => Pure.pure ()) h
  cases hu
  exact hx r s a s' ha hs

theorem write : Keeps P (Session.write : Session σ Unit) := by
  intro r s u s' h hs
  cases r with
  | none =>
    cases h
    exact hs
  | some f => cases h

/-- What a session reads may be used to say what it keeps. -/
theorem get_bind {f : σ → Session σ α} (hf : ∀ s, P s → Keeps P (f s)) : Keeps P (get >>= f) :=
  fun r s a s' h hs => hf s hs r s a s' h hs

/-- What was read may be used to say what a session keeps. -/
theorem ofRead_bind {x : Except StorageFault α} {f : α → Session σ β}
    (hf : ∀ a, x = .ok a → Keeps P (f a)) : Keeps P (Session.ofRead x >>= f) := by
  cases x with
  | ok a => exact hf a rfl
  | error e =>
    intro r s b s' h
    cases h

theorem set {s₁ : σ} (h : P s₁) : Keeps P (MonadStateOf.set s₁ : Session σ PUnit) := by
  intro r s u s' hrun _
  cases hrun
  exact h

theorem reads (f : σ → α) : Keeps P (Session.reads f) := by
  intro r s a s' h hs
  cases h
  exact hs

theorem readsOk (f : σ → Except StorageFault α) : Keeps P (Session.readsOk f) :=
  get_bind fun s _ => ofRead (f s)

end Keeps

/-! ## Under a refusal -/

/-- A session that gets through under a refusal has left its state alone, and would have had the
same outcome without one. -/
def Restrained (x : Session σ α) : Prop :=
  ∀ f s a s', x (some f) s = .ok (a, s') → s' = s ∧ x none s = .ok (a, s)

namespace Restrained

theorem pure (a : α) : Restrained (Pure.pure a : Session σ α) := by
  intro f s b s' h
  cases h
  exact ⟨rfl, rfl⟩

theorem ofRead (x : Except StorageFault α) : Restrained (Session.ofRead x : Session σ α) := by
  cases x with
  | ok a => exact pure a
  | error e =>
    intro f s a s' h
    cases h

theorem bind {x : Session σ α} {f : α → Session σ β} (hx : Restrained x)
    (hf : ∀ a, Restrained (f a)) : Restrained (x >>= f) := by
  intro e s b s'' h
  obtain ⟨a, s', ha, hb⟩ := exists_of_run_bind h
  obtain ⟨rfl, hx'⟩ := hx e s a s' ha
  obtain ⟨rfl, hf'⟩ := hf a e s' b s'' hb
  exact ⟨rfl, (run_bind hx').trans hf'⟩

theorem ite {c : Prop} [Decidable c] {x y : Session σ α} (hx : Restrained x)
    (hy : Restrained y) : Restrained (if c then x else y) := by
  split
  · exact hx
  · exact hy

theorem discard {x : Session σ α} (hx : Restrained x) : Restrained (Functor.discard x) :=
  bind hx fun _ => pure _

theorem get_bind {f : σ → Session σ α} (hf : ∀ s, Restrained (f s)) : Restrained (get >>= f) :=
  fun e s a s' h => hf s e s a s' h

/-- What begins with a look at the refusal does not get through under one. -/
theorem write_bind (f : Unit → Session σ α) : Restrained (Session.write >>= f) := by
  intro e s a s' h
  cases h

/-- What fails without a refusal fails under one as well. -/
theorem exists_error {x : Session σ α} {e : Error} (hx : Restrained x) (h : x none s = .error e)
    (r : Refusal) : ∃ e', x r s = .error e' ∧ (r = none → e' = e) := by
  cases r with
  | none => exact ⟨e, h, fun _ => rfl⟩
  | some f =>
    cases hrun : x (some f) s with
    | error e' => exact ⟨e', rfl, nofun⟩
    | ok p =>
      obtain ⟨-, hnone⟩ := hx f s p.1 p.2 hrun
      rw [h] at hnone
      cases hnone

end Restrained

end Session

/-! ## Reading rows -/

/-- What has kept something from being read. -/
def faultIn {α : Type} : Except StorageFault α → Option StorageFault
  | .ok _ => none
  | .error f => some f

theorem faultIn_eq_none {α : Type} {x : Except StorageFault α} :
    faultIn x = none ↔ ∃ a, x = .ok a := by
  cases x with
  | ok a => exact iff_of_true rfl ⟨a, rfl⟩
  | error f => exact iff_of_false nofun nofun

theorem faultIn_eq_some {α : Type} {x : Except StorageFault α} {f : StorageFault} :
    faultIn x = some f ↔ x = .error f := by
  cases x with
  | ok a => exact iff_of_false nofun nofun
  | error f' => rw [faultIn, Option.some.injEq, Except.error.injEq]

/-- Rows that all read, one after the other. -/
theorem mapM_filterMap_eq_ok {ε α β γ : Type} {f : α → Option β} {g : β → Except ε γ}
    {k : α → Option γ} {rows : List α}
    (h : ∀ a ∈ rows, ∃ x y, f a = some x ∧ g x = .ok y ∧ k a = some y) :
    (rows.filterMap f).mapM g = .ok (rows.filterMap k) := by
  induction rows with
  | nil => rfl
  | cons a rows ih =>
    obtain ⟨x, y, hf, hg, hk⟩ := h a List.mem_cons_self
    rw [List.filterMap_cons_some hf, List.filterMap_cons_some hk, List.mapM_cons, hg,
      ih fun a ha => h a (List.mem_cons_of_mem _ ha)]
    rfl

end GraphBase
