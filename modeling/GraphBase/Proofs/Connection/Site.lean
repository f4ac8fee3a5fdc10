import GraphBase.Config.Basic
import GraphBase.Connection.Engine
import Mathlib.Data.List.Basic

/-!
# Sites that are ready

A session needs a connection that is neither poisoned nor due to be replaced, and a database in
memory that is shared needs a place on the host.  `Engine.IsReady` says that nothing of this is
missing.  It holds when an engine is started (`isReady_of_start`), and every session keeps it.

On a site that is ready a session does what its body does, and no more: if the body succeeds,
its new database is what the next session finds (`run_session`); if it fails, the site is left as
it is (`run_session_fails`).  A connection that may not write leaves the site as it is in either
case.

## Opening a file again

What an engine finds in a file is what was there before (`database_of_start_file`): a file is made
only if it is missing, and closing a connection does not touch the files.
-/

namespace GraphBase

/-- No setting has the connection replaced before every session. -/
theorem StoreConfig.poolRecycle_ne_some_zero (c : StoreConfig) : c.poolRecycle ≠ some 0 := by
  rw [poolRecycle]
  split_ifs with hzero
  · exact (Option.some_ne_none 0).symm
  · exact fun heq => hzero (Option.some.inj heq)

/-! ## Operations on a site -/

namespace Access

variable {α β : Type} {x : Access α} {f : α → Access β} {s s' : Site}

theorem run_bind_ok {a : α} (h : x.run s = (.ok a, s')) : (x >>= f).run s = (f a).run s' := by
  rw [ExceptT.run_bind]
  show StateT.bind x.run _ s = _
  rw [StateT.bind, h]
  rfl

theorem run_bind_error {e : Error} (h : x.run s = (.error e, s')) :
    (x >>= f).run s = (.error e, s') := by
  rw [ExceptT.run_bind]
  show StateT.bind x.run _ s = _
  rw [StateT.bind, h]
  rfl

/-- Operations that leave a site as it is, one after the other. -/
theorem site_run_bind (hx : (x.run s).2 = s) (hf : ∀ a, ((f a).run s).2 = s) :
    ((x >>= f).run s).2 = s := by
  cases hrun : x.run s with
  | mk r s₁ =>
    rw [hrun] at hx
    obtain rfl : s₁ = s := hx
    cases r with
    | ok a =>
      rw [run_bind_ok hrun]
      exact hf a
    | error e => rw [run_bind_error hrun]

/-- The site does not depend on whether the answer is looked at. -/
theorem site_run_bind_pure (x : Access α) (b : β) : ((x >>= fun _ => pure b).run s).2 = (x.run s).2 := by
  cases hrun : x.run s with
  | mk r s₁ =>
    cases r with
    | ok a =>
      rw [run_bind_ok hrun]
      rfl
    | error e => rw [run_bind_error hrun]

end Access

/-! ## The host -/

namespace Host

theorem file?_writeFile_self (h : Host) (path : Path) (content : FileContent) :
    (h.writeFile path content).file? path = some content := by
  have hnone : (h.files.filter fun f => f.1 != path).find? (fun f => f.1 == path) = none := by
    rw [List.find?_eq_none]
    intro f hf
    simpa using (List.mem_filter.1 hf).2
  rw [file?, writeFile, List.find?_append, hnone, Option.none_or, List.find?_singleton]
  simp

theorem file?_writeFile_of_ne (h : Host) {path other : Path} (hne : other ≠ path)
    (content : FileContent) : (h.writeFile path content).file? other = h.file? other := by
  have hsame : (h.files.filter fun f => f.1 != path).find? (fun f => f.1 == other) =
      h.files.find? fun f => f.1 == other := by
    rw [List.find?_filter]
    refine congrArg (List.find? · h.files) (funext fun f => ?_)
    by_cases hf : f.1 = other
    · simp [hf, hne]
    · simp [hf]
  rw [file?, file?, writeFile, List.find?_append, hsame, List.find?_singleton]
  have hpath : (path == other) = false := by simpa using hne.symm
  rw [hpath]
  simp

theorem shared?_map {h : Host} {f : SharedDatabase → SharedDatabase} (hf : ∀ x, (f x).name = x.name)
    (name : MemoryName) :
    (h.shared.map f).find? (fun x => x.name == name) = (h.shared? name).map f := by
  rw [List.find?_map, shared?]
  refine congrArg (Option.map f) (congrArg (List.find? · h.shared) (funext fun x => ?_))
  rw [Function.comp, hf]

theorem name_eq_of_shared? {h : Host} {name : MemoryName} {x : SharedDatabase}
    (hx : h.shared? name = some x) : x.name = name := by
  simpa using List.find?_some hx

/-- A database that is shared once more has one more user. -/
theorem shared?_share_of_some {h : Host} {name : MemoryName} {x : SharedDatabase}
    (hx : h.shared? name = some x) :
    (h.share name).shared? name = some { x with users := x.users + 1 } := by
  rw [share, hx]
  refine (shared?_map (fun x => by split <;> rfl) name).trans ?_
  rw [hx, Option.map_some, if_pos (name_eq_of_shared? hx)]

/-- A database that has just been shared is there, and has a user. -/
theorem exists_shared?_share (h : Host) (name : MemoryName) :
    ∃ x, (h.share name).shared? name = some x ∧ x.users ≠ 0 := by
  cases hfind : h.shared? name with
  | none =>
    rw [share, hfind]
    rw [shared?] at hfind
    exact ⟨⟨name, 1, {}⟩, by simp [shared?, List.find?_append, hfind], Nat.one_ne_zero⟩
  | some x => exact ⟨_, shared?_share_of_some hfind, Nat.succ_ne_zero _⟩

/-! ## Opening -/

theorem shared_joinCache (h : Host) (l : Locator) : (h.joinCache l).shared = h.shared := by
  rw [joinCache]
  split
  · rfl
  · split <;> rfl

theorem files_joinCache (h : Host) (l : Locator) : (h.joinCache l).files = h.files := by
  rw [joinCache]
  split
  · rfl
  · split <;> rfl

theorem files_detach (h : Host) (l : Locator) : (h.detach l).files = h.files := by
  have hleave : (h.leaveCache l).files = h.files := by
    rw [leaveCache]
    split <;> rfl
  rw [detach]
  split
  · exact hleave
  · exact hleave

theorem attachPlace?_shared {h h' : Host} {l : Locator} (hopen : h.attachPlace? l = some h')
    {name : MemoryName} (hplace : l.place = .shared name) : (h'.shared? name).isSome := by
  rw [attachPlace?, hplace] at hopen
  rw [← Option.some.inj hopen]
  obtain ⟨x, hx, -⟩ := exists_shared?_share h name
  rw [hx]
  rfl

/-- Opening leaves the files that are there as they are. -/
theorem file?_attachPlace? {h h' : Host} {l : Locator} (hopen : h.attachPlace? l = some h')
    {path : Path} (hfile : (h.file? path).isSome) : h'.file? path = h.file? path := by
  rw [attachPlace?] at hopen
  split at hopen
  · rw [← Option.some.inj hopen]
  · rw [← Option.some.inj hopen, share]
    split <;> rfl
  · rename_i place hplace
    split_ifs at hopen with hpassable hthere hcreate
    · rw [← Option.some.inj hopen]
    · rw [← Option.some.inj hopen, file?_writeFile_of_ne]
      rintro rfl
      exact hthere hfile

/-- What opening a locator leads to: the place is opened, a cache may be joined. -/
theorem attach?_eq_some {h h' : Host} {l l' : Locator} (hopen : h.attach? l = some (h', l')) :
    ∃ opened, h.attachPlace? l = some opened ∧ h' = opened.joinCache l ∧ l'.place = l.place := by
  rw [attach?, Option.map_eq_some_iff] at hopen
  obtain ⟨opened, hplace, heq⟩ := hopen
  refine ⟨opened, hplace, ?_⟩
  split at heq
  · obtain ⟨rfl, rfl⟩ := Prod.mk.inj heq
    exact ⟨rfl, rfl⟩
  · obtain ⟨rfl, rfl⟩ := Prod.mk.inj heq
    exact ⟨rfl, rfl⟩

end Host

namespace Engine

/-! ## Being ready -/

/-- Nothing stands in the way of a session. -/
structure IsReady (s : Site) : Prop where
  healthy : s.engine.isPoisoned = false
  fresh : s.engine.isStale = false
  present : ∀ name, s.engine.locator.place = .shared name → (s.host.shared? name).isSome

variable {α : Type} {s s' : Site} {db db' : Database}

theorem run_get (s : Site) : (get : Access Site).run s = (.ok s, s) := rfl

theorem run_reopen (h : s.engine.isStale = false) : reopen.run s = (.ok (), s) := by
  refine (Access.run_bind_ok (run_get s)).trans ?_
  rw [h]
  rfl

theorem run_prepare (h : IsReady s) : prepare.run s = (.ok (), s) := by
  refine (Access.run_bind_ok (run_get s)).trans ?_
  rw [h.healthy]
  exact run_reopen h.fresh

theorem run_session_ok (h : IsReady s) {body : Session Database α} {a : α}
    (hbody : outcome body s = .ok (a, s')) : (session body).run s = (.ok a, s') := by
  refine (Access.run_bind_ok (run_prepare h)).trans ?_
  refine (Access.run_bind_ok (run_get s)).trans ?_
  rw [hbody]
  rfl

theorem run_session_error (h : IsReady s) {body : Session Database α} {e : Error}
    (hbody : outcome body s = .error e) : (session body).run s = (.error e, s) := by
  refine (Access.run_bind_ok (run_prepare h)).trans ?_
  refine (Access.run_bind_ok (run_get s)).trans ?_
  rw [hbody]
  rfl

/-! ## Committing -/

theorem locator_commit (s : Site) (db : Database) :
    (commit s db).engine.locator = s.engine.locator := by
  unfold commit
  split <;> rfl

theorem recycle_commit (s : Site) (db : Database) :
    (commit s db).engine.recycle = s.engine.recycle := by
  unfold commit
  split <;> rfl

theorem target_commit (s : Site) (db : Database) :
    (commit s db).engine.target = s.engine.target := by
  unfold commit
  split <;> rfl

theorem isPoisoned_commit (s : Site) (db : Database) :
    (commit s db).engine.isPoisoned = s.engine.isPoisoned := by
  unfold commit
  split <;> rfl

theorem isStale_commit (s : Site) (db : Database) :
    (commit s db).engine.isStale = s.engine.isStale := by
  rw [isStale, isStale, recycle_commit, target_commit]

/-- The host that a shared database is written to. -/
theorem shared?_commit {name : MemoryName} (hplace : s.engine.locator.place = .shared name)
    (db : Database) :
    (commit s db).host.shared? name =
      (s.host.shared? name).map fun x => if x.name = name then { x with content := db } else x := by
  unfold commit
  rw [hplace]
  exact Host.shared?_map (fun x => by split <;> rfl) name

theorem IsReady.commit (h : IsReady s) (db : Database) : IsReady (commit s db) := by
  refine ⟨?_, ?_, fun name hplace => ?_⟩
  · rw [isPoisoned_commit]
    exact h.healthy
  · exact (isStale_commit s db).trans h.fresh
  · rw [locator_commit] at hplace
    rw [shared?_commit hplace, Option.isSome_map]
    exact h.present name hplace

/-- What was committed is found again, if there is a place for it. -/
theorem database_commit_of_present
    (hpresent : ∀ name, s.engine.locator.place = .shared name → (s.host.shared? name).isSome)
    (db : Database) : database (Engine.commit s db) = .ok db := by
  rw [database, content, locator_commit]
  cases hplace : s.engine.locator.place with
  | own =>
    unfold commit
    rw [hplace]
  | shared name =>
    obtain ⟨x, hx⟩ := Option.isSome_iff_exists.1 (hpresent name hplace)
    show Except.ok _ = _
    rw [shared?_commit hplace, hx, Option.map_some, if_pos (Host.name_eq_of_shared? hx)]
    rfl
  | file path =>
    unfold commit
    rw [hplace]
    simp only [Host.file?_writeFile_self]
    rfl

/-- **The next session finds what was committed.** -/
theorem database_commit (h : IsReady s) (db : Database) : database (Engine.commit s db) = .ok db :=
  database_commit_of_present h.present db

/-! ## Sessions on a site that is ready -/

theorem outcome_eq (hdb : database s = .ok db) (body : Session Database α) :
    outcome body s = (body s.engine.locator.refusal db).map fun p =>
      (p.1, if s.engine.locator.refusal.isNone then commit s p.2 else s) := by
  rw [outcome, hdb]
  simp only
  cases body s.engine.locator.refusal db with
  | error e => rfl
  | ok p =>
    simp only [Except.map]
    split <;> rfl

/-- **What a session can lead to**, whatever its body does and whatever the database is like: it
succeeds and leaves the site as it was or with another database, or it fails and leaves the site as
it was.  Only a connection that is due to be replaced is another matter. -/
theorem run_session_cases (h : s.engine.isStale = false) (body : Session Database α) :
    (∃ a s', (session body).run s = (.ok a, s') ∧ (s' = s ∨ ∃ db, s' = commit s db)) ∨
      ∃ e, (session body).run s = (.error e, s) := by
  cases hpoisoned : s.engine.isPoisoned with
  | true =>
    refine .inr ⟨.sessionPoisoned, Access.run_bind_error ?_⟩
    refine (Access.run_bind_ok (run_get s)).trans ?_
    rw [hpoisoned]
    rfl
  | false =>
    have hprepare : prepare.run s = (.ok (), s) := by
      refine (Access.run_bind_ok (run_get s)).trans ?_
      rw [hpoisoned]
      exact run_reopen h
    have hrun : (session body).run s = _ :=
      (Access.run_bind_ok hprepare).trans (Access.run_bind_ok (run_get s))
    rw [hrun]
    cases hout : outcome body s with
    | error e => exact .inr ⟨e, rfl⟩
    | ok p =>
      refine .inl ⟨p.1, p.2, rfl, ?_⟩
      cases hdb : database s with
      | error f =>
        rw [outcome, hdb] at hout
        cases hout
      | ok db =>
        rw [outcome_eq hdb] at hout
        cases hbody : body s.engine.locator.refusal db with
        | error e =>
          rw [hbody] at hout
          cases hout
        | ok q =>
          rw [hbody] at hout
          cases hout
          simp only
          split_ifs
          · exact .inr ⟨q.2, rfl⟩
          · exact .inl rfl

/-- A session does not move to another place. -/
theorem locator_run_session (h : s.engine.isStale = false) (body : Session Database α) :
    ((session body).run s).2.engine.locator = s.engine.locator := by
  obtain ⟨a, s', hrun, rfl | ⟨db, rfl⟩⟩ | ⟨e, hrun⟩ := run_session_cases h body
  · rw [hrun]
  · rw [hrun]
    exact locator_commit s db
  · rw [hrun]

/-- A session does not make a connection due to be replaced. -/
theorem isStale_run_session (h : s.engine.isStale = false) (body : Session Database α) :
    ((session body).run s).2.engine.isStale = false := by
  obtain ⟨a, s', hrun, rfl | ⟨db, rfl⟩⟩ | ⟨e, hrun⟩ := run_session_cases h body
  · rwa [hrun]
  · rw [hrun]
    exact (isStale_commit s db).trans h
  · rwa [hrun]

/-- A connection that may not write leaves the site as it is. -/
theorem site_run_session_of_refusal (h : IsReady s) (hrefusal : s.engine.locator.refusal ≠ none)
    (body : Session Database α) : ((session body).run s).2 = s := by
  cases hout : outcome body s with
  | error e => rw [run_session_error h hout]
  | ok p =>
    rw [run_session_ok h (show outcome body s = .ok (p.1, p.2) from hout)]
    cases hdb : database s with
    | error f =>
      rw [outcome, hdb] at hout
      cases hout
    | ok db =>
      rw [outcome_eq hdb] at hout
      cases hbody : body s.engine.locator.refusal db with
      | error e =>
        rw [hbody] at hout
        cases hout
      | ok q =>
        rw [hbody, Bool.eq_false_iff.2 (mt Option.isNone_iff_eq_none.1 hrefusal)] at hout
        cases hout
        rfl

/-- **After a session, the database is what its body has made of it**, unless the connection may
not write, and the site is as ready as before. -/
theorem run_session (h : IsReady s) (hdb : database s = .ok db) {body : Session Database α} {a : α}
    (hbody : body s.engine.locator.refusal db = .ok (a, db')) :
    ∃ s', (session body).run s = (.ok a, s') ∧ IsReady s' ∧
      s'.engine.locator = s.engine.locator ∧
      database s' = .ok (if s.engine.locator.refusal.isNone then db' else db) := by
  have hout := outcome_eq hdb body
  rw [hbody] at hout
  refine ⟨_, run_session_ok h hout, ?_⟩
  by_cases hrefusal : s.engine.locator.refusal.isNone = true
  · rw [if_pos hrefusal, if_pos hrefusal]
    exact ⟨h.commit db', locator_commit s db', database_commit h db'⟩
  · rw [if_neg hrefusal, if_neg hrefusal]
    exact ⟨h, rfl, hdb⟩

/-- **A session whose body fails leaves no trace.** -/
theorem run_session_fails (h : IsReady s) (hdb : database s = .ok db) {body : Session Database α}
    {e : Error} (hbody : body s.engine.locator.refusal db = .error e) :
    (session body).run s = (.error e, s) := by
  refine run_session_error h ?_
  rw [outcome_eq hdb, hbody]
  rfl

/-! ## Starting -/

/-- What an engine has gone through when it is started: its target was opened, there was a
database, and the first session went through it. -/
theorem start_eq_ok {h h' : Host} {connection : String} {recycle : Option Nat}
    {setup : Session Database Unit} {engine : Engine}
    (hstart : start h connection recycle setup = (.ok engine, h')) :
    ∃ target opened locator, Target.parse connection = .ok target ∧
      attach h target = .ok (opened, locator) ∧
      (∃ db, content opened locator {} = .ok db) ∧
      (session setup).run ⟨opened, { target, locator, recycle }⟩ = (.ok (), ⟨h', engine⟩) := by
  rw [start, connect] at hstart
  cases hparse : Target.parse connection with
  | error e =>
    rw [hparse] at hstart
    cases hstart
  | ok target =>
    rw [hparse] at hstart
    simp only at hstart
    cases hattach : attach h target with
    | error e =>
      rw [hattach] at hstart
      cases hstart
    | ok p =>
      obtain ⟨opened, locator⟩ := p
      rw [hattach] at hstart
      simp only at hstart
      cases hcontent : content opened locator {} with
      | error f =>
        rw [hcontent] at hstart
        cases hstart
      | ok db =>
        rw [hcontent] at hstart
        simp only at hstart
        refine ⟨target, opened, locator, rfl, hattach, ⟨db, hcontent⟩, ?_⟩
        revert hstart
        cases hrun : (session setup).run ⟨opened, { target, locator, recycle }⟩ with
        | mk r s =>
          cases r with
          | error e =>
            intro hstart
            cases hstart
          | ok u =>
            intro hstart
            cases hstart
            rfl

theorem attach_eq_ok {h opened : Host} {target : Target} {l : Locator}
    (hattach : attach h target = .ok (opened, l)) :
    ∃ l₀, Locator.ofTarget target = .ok l₀ ∧ h.attach? l₀ = some (opened, l) := by
  rw [attach] at hattach
  cases hl : Locator.ofTarget target with
  | error f =>
    rw [hl] at hattach
    cases hattach
  | ok l₀ =>
    rw [hl] at hattach
    simp only at hattach
    cases hopen : h.attach? l₀ with
    | none =>
      rw [hopen] at hattach
      cases hattach
    | some r =>
      rw [hopen] at hattach
      cases hattach
      exact ⟨l₀, rfl, hopen⟩

/-- A connection that has just been opened is ready, unless it is due to be replaced at once. -/
theorem isReady_of_attach {h opened : Host} {target : Target} {locator : Locator}
    {recycle : Option Nat} (hattach : attach h target = .ok (opened, locator))
    (hrecycle : recycle ≠ some 0) : IsReady ⟨opened, { target, locator, recycle }⟩ := by
  obtain ⟨l₀, -, hopen⟩ := attach_eq_ok hattach
  obtain ⟨opened₀, hplace, rfl, hsame⟩ := Host.attach?_eq_some hopen
  refine ⟨rfl, ?_, fun name hshared => ?_⟩
  · have hne : (recycle == some 0) = false := by simpa using hrecycle
    rw [isStale, hne, Bool.false_and]
  · rw [Host.shared?, Host.shared_joinCache]
    exact Host.attachPlace?_shared hplace (hsame.symm.trans hshared)

section Start

variable {h h' : Host} {connection : String} {recycle : Option Nat}
  {setup : Session Database Unit} {engine : Engine}

/-- **An engine that has been started is ready**, and its database is what the first session has
made of the one that was there. -/
theorem start_spec (hstart : start h connection recycle setup = (.ok engine, h'))
    (hrecycle : recycle ≠ some 0) :
    ∃ target opened db db', attach h target = .ok (opened, engine.locator) ∧
      content opened engine.locator {} = .ok db ∧
      setup engine.locator.refusal db = .ok ((), db') ∧ IsReady ⟨h', engine⟩ ∧
      database ⟨h', engine⟩ = .ok (if engine.locator.refusal.isNone then db' else db) := by
  obtain ⟨target, opened, locator, -, hattach, ⟨db, hdb⟩, hrun⟩ := start_eq_ok hstart
  have hready := isReady_of_attach hattach hrecycle
  cases hbody : setup locator.refusal db with
  | error e =>
    rw [run_session_fails hready hdb hbody] at hrun
    cases hrun
  | ok p =>
    obtain ⟨s', hok, hready', hlocator, hdb'⟩ :=
      run_session hready hdb (show setup locator.refusal db = .ok ((), p.2) from hbody)
    rw [hok] at hrun
    obtain ⟨-, rfl⟩ := Prod.mk.inj hrun
    rw [show engine.locator = locator from hlocator]
    exact ⟨target, opened, db, p.2, hattach, hdb, hbody, hready', hdb'⟩

theorem isReady_of_start (hstart : start h connection recycle setup = (.ok engine, h'))
    (hrecycle : recycle ≠ some 0) : IsReady ⟨h', engine⟩ := by
  obtain ⟨-, -, -, -, -, -, -, hready, -⟩ := start_spec hstart hrecycle
  exact hready

/-- **An engine finds in a file what was there**, and goes through it with its first session. -/
theorem database_of_start_file (hstart : start h connection recycle setup = (.ok engine, h'))
    (hrecycle : recycle ≠ some 0) {path : Path} (hplace : engine.locator.place = .file path)
    {c : FileContent} (hfile : h.file? path = some c) :
    ∃ db db', c.asDatabase = .ok db ∧ setup engine.locator.refusal db = .ok ((), db') ∧
      database ⟨h', engine⟩ = .ok (if engine.locator.refusal.isNone then db' else db) := by
  obtain ⟨target, opened, db, db', hattach, hdb, hbody, -, hdb'⟩ := start_spec hstart hrecycle
  obtain ⟨l₀, -, hopen⟩ := attach_eq_ok hattach
  obtain ⟨opened₀, hopened, rfl, -⟩ := Host.attach?_eq_some hopen
  have hsame : (opened₀.joinCache l₀).file? path = some c := by
    rw [Host.file?, Host.files_joinCache, ← hfile]
    exact Host.file?_attachPlace? hopened (by rw [hfile]; rfl)
  rw [content, hplace] at hdb
  simp only [hsame] at hdb
  exact ⟨db, db', hdb, hbody, hdb'⟩

end Start

/-- What is in the file of a site stays there when the connection is closed. -/
theorem file?_close {path : Path} (hplace : s.engine.locator.place = .file path)
    (hdb : database s = .ok db) :
    ∃ c, (close s.host s.engine).file? path = some c ∧ c.asDatabase = .ok db := by
  rw [database, content, hplace] at hdb
  simp only at hdb
  cases hfile : s.host.file? path with
  | none =>
    rw [hfile] at hdb
    cases hdb
  | some c =>
    rw [hfile] at hdb
    refine ⟨c, ?_, hdb⟩
    rw [close, Host.file?, Host.files_detach]
    exact hfile

end Engine

end GraphBase
