import GraphBase.Proofs.Connection.Reopening

/-!
# Connections that are replaced before every session

Two engines that have been connected to the same target differ only in this: one replaces its
connection before every session, and the other never does.  Their sessions answer the same
(`Engine.relates_session_of_lasts`), because a connection that has been replaced finds the database
as it was.

Two things may go wrong, and both are settled when the engine is connected.

* The database may live in the connection.  Then a session finds an empty database
  (`Engine.Forgets.session`).
* The path of a file may go into the file and out of it again.  This is a path while the file is
  missing, so the target can be opened, and the file is made.  Then it is none any more, and no
  session is run (`Engine.IsBarred.session`).

`Access.Relates` carries what holds of sessions over to operations that are made of sessions.
-/

namespace GraphBase

/-! ## Operations on two sites -/

namespace Access

variable {α β : Type} {R : Site → Site → Prop} {x : Access α}

/-- An operation answers the same on sites that are related, and leaves them related. -/
def Relates (R : Site → Site → Prop) (x : Access α) : Prop :=
  ∀ s₁ s₂, R s₁ s₂ → (x.run s₁).1 = (x.run s₂).1 ∧ R (x.run s₁).2 (x.run s₂).2

namespace Relates

theorem pure (a : α) : Relates R (Pure.pure a : Access α) := fun _ _ h => ⟨rfl, h⟩

theorem throw (e : Error) : Relates R (MonadExcept.throw e : Access α) := fun _ _ h => ⟨rfl, h⟩

theorem ite {c : Prop} [Decidable c] {y : Access α} (hx : Relates R x) (hy : Relates R y) :
    Relates R (if c then x else y) := by
  split_ifs
  · exact hx
  · exact hy

theorem bind {f : α → Access β} (hx : Relates R x) (hf : ∀ a, Relates R (f a)) :
    Relates R (x >>= f) := by
  intro s₁ s₂ h
  obtain ⟨hanswer, hsites⟩ := hx s₁ s₂ h
  cases h₁ : x.run s₁ with
  | mk r₁ s₁' =>
    cases h₂ : x.run s₂ with
    | mk r₂ s₂' =>
      rw [h₁, h₂] at hanswer hsites
      obtain rfl : r₁ = r₂ := hanswer
      cases r₁ with
      | ok a =>
        rw [run_bind_ok h₁, run_bind_ok h₂]
        exact hf a s₁' s₂' hsites
      | error e =>
        rw [run_bind_error h₁, run_bind_error h₂]
        exact ⟨rfl, hsites⟩

end Relates

end Access

/-! ## The way to a file -/

/-- The path of a file goes into the file and out of it again. -/
def Locator.DoublesBack (l : Locator) : Prop :=
  ∃ path, l.place = .file path ∧ ∃ step ∈ l.route, step.parent = path

namespace Host

variable {h h' : Host} {asked l : Locator}

/-- Whether the way is free depends on where there are files and directories. -/
theorem CanReach.congr (hreach : h.CanReach l)
    (hfiles : ∀ path, (h'.file? path).isSome = (h.file? path).isSome)
    (hdirectories : h'.directories = h.directories) : h'.CanReach l := by
  intro path hplace
  obtain ⟨hroute, hdirectory⟩ := hreach path hplace
  have hpassable : h'.isPassable = h.isPassable := by
    funext step
    rw [isPassable, isPassable, ← Option.not_isSome, ← Option.not_isSome, hfiles]
  rw [isDirectory, hdirectories, hpassable]
  exact ⟨hroute, hdirectory⟩

/-- A file that could be opened had a free way. -/
theorem canReach_of_attachPlace? (hopen : h.attachPlace? l = some h') : h.CanReach l := by
  intro path hplace
  rw [attachPlace?, hplace] at hopen
  simp only at hopen
  by_cases hblocked : (!l.route.all h.isPassable || h.isDirectory path) = true
  · rw [if_pos hblocked] at hopen
    cases hopen
  · rw [Bool.not_eq_true, Bool.or_eq_false_iff, Bool.not_eq_false'] at hblocked
    exact hblocked

/-- Opening makes no file but the one that is opened. -/
theorem file?_attachPlace?_of_ne (hopen : h.attachPlace? l = some h') {other : Path}
    (hne : ∀ path, l.place = .file path → other ≠ path) : h'.file? other = h.file? other := by
  rw [attachPlace?] at hopen
  split at hopen
  · rw [← Option.some.inj hopen]
  · rw [← Option.some.inj hopen, share]
    split <;> rfl
  · rename_i path hplace
    split_ifs at hopen
    · rw [← Option.some.inj hopen]
    · rw [← Option.some.inj hopen, file?_writeFile_of_ne _ (hne path hplace)]

/-- **The way to a file that has been opened stays free**, unless the file itself blocks it. -/
theorem canReach_of_attach? (hopen : h.attach? asked = some (h', l)) (hback : ¬l.DoublesBack) :
    h'.CanReach l := by
  have hopened := (holds_of_attach? hopen).opened
  obtain ⟨opened, hplace, rfl, -⟩ := attach?_eq_some hopen
  have hsteps : ∀ path, asked.place = .file path → ∀ step ∈ asked.route, step.parent ≠ path := by
    rintro path hpath step hstep hparent
    rw [hopened] at hback
    exact hback ⟨path, hpath, step, hstep, hparent⟩
  rw [hopened]
  intro path hpath
  obtain ⟨hroute, hdirectory⟩ := canReach_of_attachPlace? hplace path hpath
  refine ⟨?_, ?_⟩
  · rw [List.all_eq_true] at hroute ⊢
    intro step hstep
    have hsame : (opened.joinCache asked).file? step.parent = h.file? step.parent := by
      rw [file?, files_joinCache]
      refine file?_attachPlace?_of_ne hplace fun path' hpath' => ?_
      exact hsteps path' hpath' step hstep
    rw [isPassable, hsame]
    exact hroute step hstep
  · rw [isDirectory, directories_joinCache, directories_attachPlace? hplace]
    exact hdirectory

/-- A file blocks a path that goes into it. -/
theorem not_canReach_of_doublesBack (hheld : h.Holds asked l) (hback : l.DoublesBack) :
    ¬h.CanReach l := by
  obtain ⟨path, hplace, step, hstep, rfl⟩ := hback
  intro hreach
  have hpassable := List.all_eq_true.1 (hreach _ hplace).1 step hstep
  rw [isPassable, Bool.and_eq_true, Bool.and_eq_true, Option.isNone_iff_eq_none] at hpassable
  have hfile := hheld.file _ hplace
  rw [hpassable.1.2] at hfile
  cases hfile

end Host

/-- The path of the file `a` is free as long as there is no such file. -/
example : (({} : Host).attach? (Locator.ofFile (Text.utf8 "a/b/.."))).isSome = true ∧
    (({ files := [([[0x61]], .bytes [])] } : Host).attach?
      (Locator.ofFile (Text.utf8 "a/b/.."))).isSome = false := by decide +kernel

namespace Engine

variable {α : Type} {l : Locator} {db : Database} {s s' : Site}

/-- A target can be opened again if the way is free. -/
theorem exists_attach_iff (hconnected : IsConnected s) :
    (∃ r, attach s.host s.engine.target = .ok r) ↔ s.host.CanReach s.engine.locator := by
  obtain ⟨asked, hasked, hheld⟩ := hconnected
  rw [← Host.isSome_attach?_iff hheld, attach, hasked]
  simp only
  cases s.host.attach? asked with
  | none =>
    refine iff_of_false ?_ Bool.false_ne_true
    rintro ⟨_, ⟨⟩⟩
  | some r => exact iff_of_true ⟨r, rfl⟩ rfl

theorem Renews.isStale (h : Renews s s') : s'.engine.isStale = s.engine.isStale := by
  rw [Engine.isStale, Engine.isStale, h.recycle, h.target]

theorem Renews.startsAnew (h : Renews s s') : s'.engine.startsAnew = s.engine.startsAnew := by
  rw [Engine.startsAnew, Engine.startsAnew, h.isStale, h.locator]

theorem startsAnew_commit (s : Site) (db : Database) :
    (commit s db).engine.startsAnew = s.engine.startsAnew := by
  rw [startsAnew, startsAnew, isStale_commit, locator_commit]

theorem directories_commit (s : Site) (db : Database) :
    (commit s db).host.directories = s.host.directories := by
  unfold commit
  split <;> rfl

/-- Committing makes no file. -/
theorem isSome_file?_commit (hconnected : IsConnected s) (db : Database) (path : Path) :
    ((commit s db).host.file? path).isSome = (s.host.file? path).isSome := by
  obtain ⟨asked, -, hheld⟩ := hconnected
  unfold commit
  split
  · rfl
  · rfl
  · rename_i written hplace
    by_cases hpath : path = written
    · rw [hpath, hheld.file written hplace, Host.file?_writeFile_self]
      rfl
    · rw [Host.file?_writeFile_of_ne _ hpath]

/-! ## A database that lasts -/

/-- A site has a database that a connection finds however often it is replaced. -/
structure Lasts (l : Locator) (db : Database) (s : Site) : Prop where
  connected : IsConnected s
  locator : s.engine.locator = l
  healthy : s.engine.isPoisoned = false
  database : Engine.database s = .ok db
  reach : s.engine.isStale = true → s.host.CanReach l
  /-- A database that lives in the connection is empty, and stays so. -/
  kept : s.engine.startsAnew = true → l.refusal ≠ none ∧ db = {}

namespace Lasts

variable (h : Lasts l db s)

include h

/-- **A connection that is replaced finds the database as it was.** -/
theorem exists_prepared : ∃ s', prepare.run s = (.ok (), s') ∧ Lasts l db s' := by
  obtain ⟨hstale, e, hattach, -⟩ | ⟨s', hprepare, hrenews⟩ :=
    run_prepare_cases h.connected h.healthy
  · obtain ⟨r, hopens⟩ := (exists_attach_iff h.connected).2 (h.locator ▸ h.reach hstale)
    rw [hattach] at hopens
    cases hopens
  · refine ⟨s', hprepare, hrenews.connected, hrenews.locator.trans h.locator,
      hrenews.isPoisoned.trans h.healthy, ?_, fun hstale => ?_, fun hnew => ?_⟩
    · rw [hrenews.database h.database]
      split_ifs with hnew
      · rw [(h.kept hnew).2]
      · rfl
    · refine (h.reach (hrenews.isStale ▸ hstale)).congr (fun path => ?_) hrenews.directories
      rw [Host.file?, hrenews.files, Host.file?]
    · exact h.kept (hrenews.startsAnew ▸ hnew)

/-- Committing goes to a place that is there, so it does not block the way. -/
theorem commit (hrefusal : l.refusal = none) (db' : Database) :
    Lasts l db' (Engine.commit s db') := by
  refine ⟨h.connected.commit db', (locator_commit s db').trans h.locator,
    (isPoisoned_commit s db').trans h.healthy, database_commit_of_present h.connected.present db',
    fun hstale => ?_, fun hnew => ?_⟩
  · rw [isStale_commit] at hstale
    exact (h.reach hstale).congr (isSome_file?_commit h.connected db') (directories_commit s db')
  · rw [startsAnew_commit] at hnew
    exact absurd hrefusal (h.kept hnew).1

/-- **A session answers what its body makes of the database.** -/
theorem session (body : Session Database α) :
    ((Engine.session body).run s).1 = (body l.refusal db).map Prod.fst ∧
      Lasts l (made l.refusal db body) ((Engine.session body).run s).2 := by
  obtain ⟨s', hprepare, hs'⟩ := h.exists_prepared
  obtain ⟨hanswer, hsite⟩ := run_session_of_prepare hprepare hs'.database body
  rw [hs'.locator] at hanswer hsite
  refine ⟨hanswer, ?_⟩
  obtain ⟨hsite, hmade⟩ | ⟨hrefusal, hsite⟩ := hsite
  · rw [hsite, hmade]
    exact hs'
  · rw [hsite]
    exact hs'.commit hrefusal _

end Lasts

/-- **Sessions cannot tell two sites apart** that have the same database. -/
theorem relates_session_of_lasts (l : Locator) (body : Session Database α) :
    Access.Relates (fun s₁ s₂ => ∃ db, Lasts l db s₁ ∧ Lasts l db s₂) (session body) := by
  rintro s₁ s₂ ⟨db, h₁, h₂⟩
  obtain ⟨hanswer₁, hs₁⟩ := h₁.session body
  obtain ⟨hanswer₂, hs₂⟩ := h₂.session body
  exact ⟨hanswer₁.trans hanswer₂.symm, _, hs₁, hs₂⟩

/-! ## A database that is forgotten -/

/-- A site has its database in the connection, and replaces the connection. -/
structure Forgets (l : Locator) (s : Site) : Prop where
  connected : IsConnected s
  locator : s.engine.locator = l
  healthy : s.engine.isPoisoned = false
  startsAnew : s.engine.startsAnew = true

namespace Forgets

variable (h : Forgets l s)

include h

theorem exists_prepared :
    ∃ s', prepare.run s = (.ok (), s') ∧ Forgets l s' ∧ database s' = .ok {} := by
  have hown : s.engine.locator.place = .own := by
    have hnew := h.startsAnew
    rw [Engine.startsAnew, Bool.and_eq_true, beq_iff_eq] at hnew
    exact hnew.2
  obtain ⟨hstale, e, hattach, -⟩ | ⟨s', hprepare, hrenews⟩ :=
    run_prepare_cases h.connected h.healthy
  · have hreach : s.host.CanReach s.engine.locator := by
      intro path hplace
      rw [hown] at hplace
      cases hplace
    obtain ⟨r, hopens⟩ := (exists_attach_iff h.connected).2 hreach
    rw [hattach] at hopens
    cases hopens
  · have hdb : database s = .ok s.engine.own := by rw [database, content, hown]
    refine ⟨s', hprepare, ⟨hrenews.connected, hrenews.locator.trans h.locator,
      hrenews.isPoisoned.trans h.healthy, hrenews.startsAnew.trans h.startsAnew⟩, ?_⟩
    rw [hrenews.database hdb, if_pos h.startsAnew]

theorem commit (db' : Database) : Forgets l (Engine.commit s db') :=
  ⟨h.connected.commit db', (locator_commit s db').trans h.locator,
    (isPoisoned_commit s db').trans h.healthy, (startsAnew_commit s db').trans h.startsAnew⟩

/-- **A session finds an empty database**, whatever those before it have committed. -/
theorem session (body : Session Database α) :
    ((Engine.session body).run s).1 = (body l.refusal {}).map Prod.fst ∧
      Forgets l ((Engine.session body).run s).2 := by
  obtain ⟨s', hprepare, hs', hdb⟩ := h.exists_prepared
  obtain ⟨hanswer, hsite⟩ := run_session_of_prepare hprepare hdb body
  rw [hs'.locator] at hanswer
  refine ⟨hanswer, ?_⟩
  obtain ⟨hsite, -⟩ | ⟨-, hsite⟩ := hsite
  · rw [hsite]
    exact hs'
  · rw [hsite]
    exact hs'.commit _

end Forgets

theorem relates_session_of_forgets (l : Locator) (body : Session Database α) :
    Access.Relates (fun s₁ s₂ => s₁ = s₂ ∧ Forgets l s₁) (session body) := by
  rintro s₁ _ ⟨rfl, h⟩
  exact ⟨rfl, rfl, (h.session body).2⟩

/-! ## A file that bars the way -/

/-- A site replaces a connection to a file that cannot be opened again. -/
structure IsBarred (target : Target) (s : Site) : Prop where
  connected : IsConnected s
  target : s.engine.target = target
  healthy : s.engine.isPoisoned = false
  stale : s.engine.isStale = true
  barred : ¬s.host.CanReach s.engine.locator

/-- **No session is run** if the target cannot be opened again, and the site stays as it is. -/
theorem IsBarred.session {target : Target} (h : IsBarred target s) (body : Session Database α) :
    (Engine.session body).run s = (.error (.unavailable target.display), s) := by
  cases hattach : attach s.host s.engine.target with
  | ok r => exact absurd ((exists_attach_iff h.connected).1 ⟨r, hattach⟩) h.barred
  | error e =>
    obtain rfl := attach_eq_error h.connected hattach
    rw [← h.target]
    refine run_session_of_prepare_error ?_ body
    rw [run_prepare_healthy h.healthy]
    exact run_reopen_error h.stale hattach

theorem relates_session_of_isBarred (target : Target) (body : Session Database α) :
    Access.Relates (fun s₁ s₂ => s₁ = s₂ ∧ IsBarred target s₁) (session body) := by
  rintro s₁ _ ⟨rfl, h⟩
  rw [h.session body]
  exact ⟨rfl, rfl, h⟩

end Engine

end GraphBase
