import GraphBase.Proofs.Connection.Site

/-!
# Opening a second connection

A connection is replaced by opening a second one to the same place and closing the first.  In
between both are open, so nothing that is shared is gone for want of a connection: the host still
counts the first when the second is opened.  This is why the order matters, and why a host has to
count (`Host.Holds`).

* A shared database in memory has one more user and then one less.
* A shared cache is joined and left, and what it settles about writing stays as it is.
* A file is there already, and it is not made anew.

So the host is, for this connection, what it was before (`Host.reopened_spec`).  The database of a
connection that shares it with nobody is not on the host, and nothing is said of it here.

A second opening may fail although the first did not, if the way to the file has been blocked in
the meantime (`Host.isSome_attach?_iff`).  The file itself may block it: a path that goes into the
file and out of it again is only a path as long as the file is not there.
-/

namespace GraphBase

/-- Dropping others does not change what is found first. -/
theorem find?_filter_eq_some {α : Type} {p q : α → Bool} {xs : List α} {x : α}
    (h : xs.find? p = some x) (hq : q x = true) : (xs.filter q).find? p = some x := by
  induction xs with
  | nil => cases h
  | cons y ys ih =>
    rw [List.find?_cons] at h
    cases hp : p y with
    | true =>
      rw [hp] at h
      obtain rfl := Option.some.inj h
      rw [List.filter_cons, if_pos hq, List.find?_cons, hp]
    | false =>
      rw [hp] at h
      rw [List.filter_cons]
      split_ifs
      · rw [List.find?_cons, hp]
        exact ih h
      · exact ih h

/-! ## The host -/

namespace Host

variable {h h' : Host} {asked l l' : Locator} {name : MemoryName} {x : SharedDatabase}
  {c : SharedCache}

/-! ### Counting connections -/

/-- **One user more and one less** is as before, where there was a user already. -/
theorem shared?_unshare_share (hx : h.shared? name = some x) (husers : x.users ≠ 0) :
    ((h.share name).unshare name).shared? name = some x := by
  refine find?_filter_eq_some ?_ (bne_iff_ne.2 husers)
  refine (shared?_map (fun x => by split <;> rfl) name).trans ?_
  rw [shared?_share_of_some hx, Option.map_some, if_pos (name_eq_of_shared? hx)]
  rfl

theorem cache?_map {caches : List SharedCache} {f : SharedCache → SharedCache}
    (hf : ∀ c, (f c).fileSystem = c.fileSystem ∧ (f c).place = c.place) (l : Locator) :
    (caches.map f).find? (isCacheOf l) = (caches.find? (isCacheOf l)).map f := by
  rw [List.find?_map]
  refine congrArg (Option.map f) (congrArg (List.find? · caches) (funext fun c => ?_))
  rw [Function.comp, isCacheOf, isCacheOf, (hf c).1, (hf c).2]

theorem cache?_eq (hl : l.isShared = true) : h.cache? l = h.caches.find? (isCacheOf l) := by
  rw [cache?, if_pos hl]

theorem cache?_eq_none (hl : l.isShared = false) : h.cache? l = none := by
  rw [cache?, hl]
  rfl

theorem isShared_of_cache? (hc : h.cache? l = some c) : l.isShared = true := by
  by_contra hl
  rw [cache?_eq_none (Bool.eq_false_iff.2 hl)] at hc
  cases hc

/-- Joining a cache that is there. -/
theorem cache?_joinCache_of_some (hl : l.isShared = true) (hc : h.cache? l = some c) :
    (h.joinCache l).cache? l = some { c with users := c.users + 1 } := by
  have hfind := hc
  rw [cache?_eq hl] at hfind
  rw [cache?_eq hl, joinCache, hl, hc]
  refine (cache?_map (fun c => by split <;> exact ⟨rfl, rfl⟩) l).trans ?_
  rw [hfind, Option.map_some, if_pos (List.find?_some hfind)]

/-- Joining a cache that is not there makes it. -/
theorem cache?_joinCache_of_none (hl : l.isShared = true) (hc : h.cache? l = none) :
    (h.joinCache l).cache? l = some ⟨l.fileSystem, l.place, 1, l.mayWrite⟩ := by
  have hfind := hc
  rw [cache?_eq hl] at hfind
  rw [cache?_eq hl, joinCache, hl, hc]
  simp [List.find?_append, hfind, isCacheOf]

/-- **Joining a cache and leaving it** is as before, where there was a user already. -/
theorem cache?_leaveCache_joinCache (hl : l.isShared = true) (hc : h.cache? l = some c)
    (husers : c.users ≠ 0) : ((h.joinCache l).leaveCache l).cache? l = some c := by
  have hjoin := cache?_joinCache_of_some hl hc
  rw [cache?_eq hl] at hjoin
  rw [cache?_eq hl, leaveCache, hl]
  refine find?_filter_eq_some ?_ (bne_iff_ne.2 husers)
  refine (cache?_map (fun c => by split <;> exact ⟨rfl, rfl⟩) l).trans ?_
  rw [hjoin, Option.map_some]
  rw [cache?_eq hl] at hc
  exact congrArg some (if_pos (List.find?_some hc))

/-! ### What a connection needs of its host -/

/-- A connection is open on a host: the host has what the connection needs, and counts it.  What may
be written is settled by a cache, if it is shared, and else by the request. -/
structure Holds (h : Host) (asked l : Locator) : Prop where
  opened : l = { asked with mayWrite := l.mayWrite }
  alone : l.isShared = false → l.mayWrite = asked.mayWrite
  shared : ∀ name, l.place = .shared name → ∃ x, h.shared? name = some x ∧ x.users ≠ 0
  cache : l.isShared = true → ∃ c, h.cache? l = some c ∧ c.users ≠ 0 ∧ c.mayWrite = l.mayWrite
  file : ∀ path, l.place = .file path → (h.file? path).isSome

/-- What a connection sees is the same on two hosts: its file, its database in memory, and what its
cache settles. -/
structure Spares (l : Locator) (h h' : Host) : Prop where
  file : ∀ path, l.place = .file path → h'.file? path = h.file? path
  shared : ∀ name, l.place = .shared name →
    (h'.shared? name).map SharedDatabase.content = (h.shared? name).map SharedDatabase.content
  cache : (h'.cache? l).map SharedCache.mayWrite = (h.cache? l).map SharedCache.mayWrite

/-- The way to the file of a locator is free. -/
def CanReach (h : Host) (l : Locator) : Prop :=
  ∀ path, l.place = .file path → l.route.all h.isPassable = true ∧ h.isDirectory path = false

theorem Spares.refl (l : Locator) (h : Host) : Spares l h h :=
  ⟨fun _ _ => rfl, fun _ _ => rfl, rfl⟩

/-- **A connection finds the same database** where it sees the same. -/
theorem Spares.content_eq (hspares : Spares l h h') (own : Database) :
    Engine.content h' l own = Engine.content h l own := by
  rw [Engine.content, Engine.content]
  split
  · rfl
  · rename_i name hplace
    rw [hspares.shared name hplace]
  · rename_i path hplace
    rw [hspares.file path hplace]

/-! ### Opening -/

theorem shared_leaveCache (h : Host) (l : Locator) : (h.leaveCache l).shared = h.shared := by
  rw [leaveCache]
  split <;> rfl

theorem caches_detach (h : Host) (l : Locator) : (h.detach l).caches = (h.leaveCache l).caches := by
  rw [detach]
  split <;> rfl

theorem directories_joinCache (h : Host) (l : Locator) :
    (h.joinCache l).directories = h.directories := by
  rw [joinCache]
  split
  · rfl
  · split <;> rfl

theorem directories_detach (h : Host) (l : Locator) :
    (h.detach l).directories = h.directories := by
  have hleave : (h.leaveCache l).directories = h.directories := by
    rw [leaveCache]
    split <;> rfl
  rw [detach]
  split
  · exact hleave
  · exact hleave

theorem caches_attachPlace? (hopen : h.attachPlace? l = some h') : h'.caches = h.caches := by
  rw [attachPlace?] at hopen
  split at hopen
  · rw [← Option.some.inj hopen]
  · rw [← Option.some.inj hopen, share]
    split <;> rfl
  · split_ifs at hopen
    · rw [← Option.some.inj hopen]
    · rw [← Option.some.inj hopen]
      rfl

theorem directories_attachPlace? (hopen : h.attachPlace? l = some h') :
    h'.directories = h.directories := by
  rw [attachPlace?] at hopen
  split at hopen
  · rw [← Option.some.inj hopen]
  · rw [← Option.some.inj hopen, share]
    split <;> rfl
  · split_ifs at hopen
    · rw [← Option.some.inj hopen]
    · rw [← Option.some.inj hopen]
      rfl

theorem cache?_congr (hcaches : h'.caches = h.caches) : h'.cache? l = h.cache? l := by
  rw [cache?, cache?, hcaches]

theorem isSome_file?_attachPlace? (hopen : h.attachPlace? l = some h') {path : Path}
    (hplace : l.place = .file path) : (h'.file? path).isSome := by
  rw [attachPlace?, hplace] at hopen
  simp only at hopen
  split_ifs at hopen with hblocked hthere hmake
  · rwa [← Option.some.inj hopen]
  · rw [← Option.some.inj hopen, file?_writeFile_self]
    rfl

/-- **What has been opened is held.** -/
theorem holds_of_attach? (hopen : h.attach? asked = some (h', l)) : h'.Holds asked l := by
  rw [attach?, Option.map_eq_some_iff] at hopen
  obtain ⟨opened, hplace, heq⟩ := hopen
  have hfile : ∀ path, asked.place = .file path → ((opened.joinCache asked).file? path).isSome := by
    intro path hpath
    rw [file?, files_joinCache]
    exact isSome_file?_attachPlace? hplace hpath
  have hshared : ∀ name, asked.place = .shared name →
      ∃ x, (opened.joinCache asked).shared? name = some x ∧ x.users ≠ 0 := by
    intro name hname
    rw [attachPlace?, hname] at hplace
    rw [shared?, shared_joinCache, ← Option.some.inj hplace]
    exact exists_shared?_share h name
  have hsame : opened.cache? asked = h.cache? asked := cache?_congr (caches_attachPlace? hplace)
  cases hc : h.cache? asked with
  | some c =>
    rw [hc] at heq hsame
    obtain ⟨rfl, rfl⟩ := Prod.mk.inj heq
    have hjoined := isShared_of_cache? hc
    refine ⟨rfl, fun hl => ?_, hshared, fun _ => ?_, hfile⟩
    · rw [hjoined] at hl
      cases hl
    · exact ⟨_, cache?_joinCache_of_some hjoined hsame, Nat.succ_ne_zero _, rfl⟩
  | none =>
    rw [hc] at heq hsame
    obtain ⟨rfl, rfl⟩ := Prod.mk.inj heq
    exact ⟨rfl, fun _ => rfl, hshared,
      fun hl => ⟨_, cache?_joinCache_of_none hl hsame, Nat.one_ne_zero, rfl⟩, hfile⟩

/-! ### Opening again -/

/-- **A host that holds a connection lets it be opened again** if the way is free. -/
theorem isSome_attach?_iff (hheld : h.Holds asked l) :
    (h.attach? asked).isSome = true ↔ h.CanReach l := by
  rw [attach?, Option.isSome_map, attachPlace?, CanReach, hheld.opened]
  simp only
  cases hplace : asked.place with
  | own => simp
  | shared name => simp
  | file path =>
    have hfile : (h.file? path).isSome = true := hheld.file path (by rw [hheld.opened]; exact hplace)
    simp only [Place.file.injEq, forall_eq', hfile, if_true]
    split_ifs with hblocked
    · simp only [Option.isSome_none, Bool.false_eq_true, false_iff]
      simp only [Bool.or_eq_true, Bool.not_eq_true'] at hblocked
      rintro ⟨hroute, hdirectory⟩
      rcases hblocked with hblocked | hblocked
      · rw [hroute] at hblocked
        cases hblocked
      · rw [hdirectory] at hblocked
        cases hblocked
    · simpa using hblocked

/-- Opening a place that is held makes no file. -/
theorem files_attachPlace? (hheld : h.Holds asked l) (hopen : h.attachPlace? asked = some h') :
    h'.files = h.files := by
  rw [attachPlace?] at hopen
  split at hopen
  · rw [← Option.some.inj hopen]
  · rw [← Option.some.inj hopen, share]
    split <;> rfl
  · rename_i path hplace
    have hfile := hheld.file path (by rw [hheld.opened]; exact hplace)
    split_ifs at hopen
    rw [← Option.some.inj hopen]

/-- A shared database that is held is found again. -/
theorem shared?_reopened (hopen : h.attachPlace? l = some h') (hplace : l.place = .shared name)
    (hx : h.shared? name = some x) (husers : x.users ≠ 0) :
    ((h'.joinCache l).detach l).shared? name = some x := by
  rw [attachPlace?, hplace] at hopen
  have hshared : (((h'.joinCache l).leaveCache l).unshare name).shared =
      ((h.share name).unshare name).shared := by
    rw [unshare, unshare, shared_leaveCache, shared_joinCache, ← Option.some.inj hopen]
  rw [detach, hplace, shared?]
  simp only [hshared]
  exact shared?_unshare_share hx husers

/-- A cache that is held is found again. -/
theorem cache?_reopened (hopen : h.attachPlace? l = some h') (hc : h.cache? l = some c)
    (husers : c.users ≠ 0) : ((h'.joinCache l).detach l).cache? l = some c := by
  have hl := isShared_of_cache? hc
  rw [cache?_congr (caches_detach _ l)]
  rw [← cache?_congr (caches_attachPlace? hopen)] at hc
  exact cache?_leaveCache_joinCache hl hc husers

/-- Opening again settles the same about writing. -/
theorem eq_of_attach? (hheld : h.Holds asked l) (hopen : h.attach? asked = some (h', l')) :
    l' = l := by
  obtain ⟨mayWrite, rfl⟩ : ∃ mayWrite, l = { asked with mayWrite } := ⟨_, hheld.opened⟩
  rw [attach?, Option.map_eq_some_iff] at hopen
  obtain ⟨opened, -, heq⟩ := hopen
  by_cases hl : asked.isShared = true
  · obtain ⟨c, hc, -, hmayWrite⟩ := hheld.cache hl
    rw [show h.cache? asked = some c from hc] at heq
    rw [← (Prod.mk.inj heq).2, hmayWrite]
  · rw [cache?_eq_none (Bool.eq_false_iff.2 hl)] at heq
    rw [← (Prod.mk.inj heq).2]
    obtain rfl : mayWrite = asked.mayWrite := hheld.alone (Bool.eq_false_iff.2 hl)
    rfl

/-- **Opening a second connection and closing the first** leaves everything as it was for this
connection, and no file or directory has changed. -/
theorem reopened_spec (hheld : h.Holds asked l) (hopen : h.attach? asked = some (h', l')) :
    l' = l ∧ (h'.detach l).Holds asked l ∧ Spares l h (h'.detach l) ∧
      (h'.detach l).files = h.files ∧ (h'.detach l).directories = h.directories := by
  obtain rfl := eq_of_attach? hheld hopen
  obtain ⟨mayWrite, rfl⟩ : ∃ mayWrite, l' = { asked with mayWrite } := ⟨_, hheld.opened⟩
  obtain ⟨opened, hplace, rfl, -⟩ := attach?_eq_some hopen
  have hfiles : ((opened.joinCache asked).detach asked).files = h.files := by
    rw [files_detach, files_joinCache, files_attachPlace? hheld hplace]
  have hdirectories : ((opened.joinCache asked).detach asked).directories = h.directories := by
    rw [directories_detach, directories_joinCache, directories_attachPlace? hplace]
  have hfile : ∀ path, ((opened.joinCache asked).detach asked).file? path = h.file? path := by
    intro path
    rw [file?, hfiles, file?]
  have hshared : ∀ name, asked.place = .shared name →
      ∃ x, ((opened.joinCache asked).detach asked).shared? name = some x ∧
        h.shared? name = some x ∧ x.users ≠ 0 := by
    intro name hname
    obtain ⟨x, hx, husers⟩ := hheld.shared name hname
    exact ⟨x, shared?_reopened hplace hname hx husers, hx, husers⟩
  have hcache : asked.isShared = true →
      ∃ c, ((opened.joinCache asked).detach asked).cache? asked = some c ∧
        h.cache? asked = some c ∧ c.users ≠ 0 ∧ c.mayWrite = mayWrite := by
    intro hl
    obtain ⟨c, hc, husers, hmayWrite⟩ := hheld.cache hl
    exact ⟨c, cache?_reopened hplace hc husers, hc, husers, hmayWrite⟩
  refine ⟨rfl, ⟨rfl, hheld.alone, fun name hname => ?_, fun hl => ?_, fun path hpath => ?_⟩,
    ⟨fun path _ => hfile path, fun name hname => ?_, ?_⟩, hfiles, hdirectories⟩
  · obtain ⟨x, hx, -, husers⟩ := hshared name hname
    exact ⟨x, hx, husers⟩
  · obtain ⟨c, hc, -, husers, hmayWrite⟩ := hcache hl
    exact ⟨c, hc, husers, hmayWrite⟩
  · exact (congrArg Option.isSome (hfile path)).trans (hheld.file path hpath)
  · obtain ⟨x, hx, hx', -⟩ := hshared name hname
    exact congrArg _ (hx.trans hx'.symm)
  · by_cases hl : asked.isShared = true
    · obtain ⟨c, hc, hc', -⟩ := hcache hl
      exact congrArg _ (hc.trans hc'.symm)
    · have hnone : ∀ g : Host, g.cache? { asked with mayWrite } = none :=
        fun g => cache?_eq_none (Bool.eq_false_iff.2 hl)
      rw [hnone, hnone]

end Host

/-! ## The engine -/

namespace Engine

variable {α : Type} {s s' : Site} {db : Database}

/-- The connection of a site is open. -/
def IsConnected (s : Site) : Prop :=
  ∃ asked, Locator.ofTarget s.engine.target = .ok asked ∧ s.host.Holds asked s.engine.locator

/-- A connection that is replaced takes its database along. -/
def startsAnew (e : Engine) : Bool := e.isStale && e.locator.place == .own

/-- A site is made ready for a session: the connection is replaced if it is due, and the database
is what it was unless it was in the connection. -/
structure Renews (s s' : Site) : Prop where
  engine : s'.engine = if s.engine.isStale then
    { s.engine with generation := s.engine.generation + 1, own := {} } else s.engine
  connected : IsConnected s'
  spares : Host.Spares s.engine.locator s.host s'.host
  files : s'.host.files = s.host.files
  directories : s'.host.directories = s.host.directories

theorem isConnected_of_attach {h opened : Host} {target : Target} {locator : Locator}
    (hattach : attach h target = .ok (opened, locator)) (recycle : Option Nat) :
    IsConnected ⟨opened, { target, locator, recycle }⟩ := by
  obtain ⟨asked, hasked, hopen⟩ := attach_eq_ok hattach
  exact ⟨asked, hasked, Host.holds_of_attach? hopen⟩

/-- **What connecting can lead to**: it fails, or it opens the target and finds a database there.
How often the connection is to be replaced plays no part. -/
theorem connect_cases (h : Host) (connection : String) :
    (∃ e h', ∀ recycle, connect h connection recycle = (.error e, h')) ∨
      ∃ target locator h' db, Target.parse connection = .ok target ∧
        attach h target = .ok (h', locator) ∧ content h' locator {} = .ok db ∧
        ∀ recycle, connect h connection recycle = (.ok { target, locator, recycle }, h') := by
  cases hparse : Target.parse connection with
  | error e => exact .inl ⟨e, h, fun _ => by simp only [connect, hparse]⟩
  | ok target =>
    cases hattach : attach h target with
    | error e => exact .inl ⟨e, h, fun _ => by simp only [connect, hparse, hattach]⟩
    | ok p =>
      obtain ⟨h', locator⟩ := p
      cases hdb : content h' locator {} with
      | error f => exact .inl ⟨_, _, fun _ => by simp only [connect, hparse, hattach, hdb]; rfl⟩
      | ok db =>
        exact .inr ⟨target, locator, h', db, rfl, hattach, hdb,
          fun _ => by simp only [connect, hparse, hattach, hdb]⟩

/-- An engine that has been connected has opened its target, and there was a database. -/
theorem connect_eq_ok {h h' : Host} {connection : String} {recycle : Option Nat} {engine : Engine}
    (hconnect : connect h connection recycle = (.ok engine, h')) :
    ∃ target locator db, attach h target = .ok (h', locator) ∧ content h' locator {} = .ok db ∧
      engine = { target, locator, recycle } := by
  obtain ⟨e, h₁, hfails⟩ | ⟨target, locator, h₁, db, -, hattach, hdb, hopens⟩ :=
    connect_cases h connection
  · rw [hfails] at hconnect
    cases hconnect
  · rw [hopens] at hconnect
    obtain ⟨hengine, rfl⟩ := Prod.mk.inj hconnect
    exact ⟨target, locator, db, hattach, hdb, (Except.ok.inj hengine).symm⟩

/-- Opening a target again fails only because its file cannot be opened. -/
theorem attach_eq_error (hconnected : IsConnected s) {host : Host} {e : Error}
    (hattach : attach host s.engine.target = .error e) :
    e = .unavailable s.engine.target.display := by
  obtain ⟨asked, hasked, -⟩ := hconnected
  rw [attach, hasked] at hattach
  simp only at hattach
  split at hattach
  · exact (Except.error.inj hattach).symm
  · cases hattach

/-! ### Making ready -/

theorem run_prepare_poisoned (h : s.engine.isPoisoned = true) :
    prepare.run s = (.error .sessionPoisoned, s) := by
  refine (Access.run_bind_ok (run_get s)).trans ?_
  rw [h]
  rfl

theorem run_prepare_healthy (h : s.engine.isPoisoned = false) :
    prepare.run s = reopen.run s := by
  refine (Access.run_bind_ok (run_get s)).trans ?_
  rw [h]
  rfl

theorem run_reopen_error (hstale : s.engine.isStale = true) {e : Error}
    (hattach : attach s.host s.engine.target = .error e) : reopen.run s = (.error e, s) := by
  refine (Access.run_bind_ok (run_get s)).trans ?_
  rw [hstale, hattach]
  rfl

theorem run_reopen_ok (hstale : s.engine.isStale = true) {host : Host} {locator : Locator}
    (hattach : attach s.host s.engine.target = .ok (host, locator)) :
    reopen.run s = (.ok (), ⟨host.detach s.engine.locator,
      { s.engine with locator, generation := s.engine.generation + 1, own := {} }⟩) := by
  refine (Access.run_bind_ok (run_get s)).trans ?_
  rw [hstale, hattach]
  rfl

/-- **What making ready can lead to** while the engine is not poisoned: the target cannot be opened
again and the site is left as it is, or the site is renewed. -/
theorem run_prepare_cases (hconnected : IsConnected s) (hhealthy : s.engine.isPoisoned = false) :
    (s.engine.isStale = true ∧ ∃ e, attach s.host s.engine.target = .error e ∧
      prepare.run s = (.error e, s)) ∨
    ∃ s', prepare.run s = (.ok (), s') ∧ Renews s s' := by
  rw [run_prepare_healthy hhealthy]
  cases hstale : s.engine.isStale with
  | false =>
    refine .inr ⟨s, run_reopen hstale, ⟨?_, hconnected, .refl _ _, rfl, rfl⟩⟩
    rw [hstale]
    rfl
  | true =>
    cases hattach : attach s.host s.engine.target with
    | error e => exact .inl ⟨rfl, e, rfl, run_reopen_error hstale hattach⟩
    | ok p =>
      obtain ⟨host, locator⟩ := p
      obtain ⟨asked, hasked, hheld⟩ := hconnected
      obtain ⟨asked', hasked', hopen⟩ := attach_eq_ok hattach
      obtain rfl := Except.ok.inj (hasked.symm.trans hasked')
      obtain ⟨rfl, hheld', hspares, hfiles, hdirectories⟩ := Host.reopened_spec hheld hopen
      refine .inr ⟨_, run_reopen_ok hstale hattach, ⟨?_, ⟨asked, hasked, hheld'⟩, hspares, hfiles,
        hdirectories⟩⟩
      rw [hstale]
      rfl

/-- Where nothing stands in the way, a site is made ready. -/
theorem run_prepare_begins (hhealthy : s.engine.isPoisoned = false)
    (hopens : s.engine.isStale = true → ∃ r, attach s.host s.engine.target = .ok r) :
    (prepare.run s).1 = .ok () := by
  rw [run_prepare_healthy hhealthy]
  cases hstale : s.engine.isStale with
  | false => rw [run_reopen hstale]
  | true =>
    obtain ⟨r, hattach⟩ := hopens hstale
    rw [run_reopen_ok hstale hattach]

/-- Where something stands in the way, the site is left as it is. -/
theorem exists_run_prepare_error (h : ¬(s.engine.isPoisoned = false ∧
    (s.engine.isStale = true → ∃ r, attach s.host s.engine.target = .ok r))) :
    ∃ e, prepare.run s = (.error e, s) := by
  cases hpoisoned : s.engine.isPoisoned with
  | true => exact ⟨_, run_prepare_poisoned hpoisoned⟩
  | false =>
    rw [hpoisoned, and_iff_right rfl, Classical.not_imp] at h
    obtain ⟨hstale, hattach⟩ := h
    rw [run_prepare_healthy hpoisoned]
    cases hresult : attach s.host s.engine.target with
    | error e => exact ⟨e, run_reopen_error hstale hresult⟩
    | ok r => exact absurd ⟨r, hresult⟩ hattach

/-- **A site is made ready** unless the engine is poisoned or the target cannot be opened again. -/
theorem isBegun_prepare_iff : (prepare.run s).1.toBool = true ↔
    s.engine.isPoisoned = false ∧
      (s.engine.isStale = true → ∃ r, attach s.host s.engine.target = .ok r) := by
  constructor
  · intro hbegun
    by_contra hblocked
    obtain ⟨e, hprepare⟩ := exists_run_prepare_error hblocked
    rw [hprepare] at hbegun
    cases hbegun
  · rintro ⟨hhealthy, hopens⟩
    rw [run_prepare_begins hhealthy hopens]
    rfl

namespace Renews

variable (h : Renews s s')

include h

theorem locator : s'.engine.locator = s.engine.locator := by
  rw [h.engine]
  split <;> rfl

theorem target : s'.engine.target = s.engine.target := by
  rw [h.engine]
  split <;> rfl

theorem recycle : s'.engine.recycle = s.engine.recycle := by
  rw [h.engine]
  split <;> rfl

theorem isPoisoned : s'.engine.isPoisoned = s.engine.isPoisoned := by
  rw [h.engine]
  split <;> rfl

theorem generation : s'.engine.generation =
    s.engine.generation + if s.engine.isStale then 1 else 0 := by
  rw [h.engine]
  split <;> rfl

/-- **A connection that has been replaced finds the same database**, unless it took it along. -/
theorem database (hdb : Engine.database s = .ok db) :
    Engine.database s' = .ok (if s.engine.startsAnew then {} else db) := by
  have hsame : Engine.content s'.host s.engine.locator s.engine.own = .ok db := by
    rw [h.spares.content_eq]
    exact hdb
  have hcontent : Engine.content s'.host s.engine.locator s'.engine.own = .ok
      (if s.engine.startsAnew then {} else db) := by
    rw [h.engine, startsAnew]
    cases hstale : s.engine.isStale with
    | false => exact hsame
    | true =>
      rw [Engine.content] at hsame ⊢
      cases hplace : s.engine.locator.place with
      | own => rfl
      | shared name =>
        rw [hplace] at hsame
        exact hsame
      | file path =>
        rw [hplace] at hsame
        exact hsame
  rw [Engine.database, h.locator]
  exact hcontent

end Renews

/-! ### Committing -/

theorem IsConnected.present (h : IsConnected s) (name : MemoryName)
    (hplace : s.engine.locator.place = .shared name) : (s.host.shared? name).isSome := by
  obtain ⟨asked, -, hheld⟩ := h
  obtain ⟨x, hx, -⟩ := hheld.shared name hplace
  rw [hx]
  rfl

theorem cache?_commit (s : Site) (db : Database) (l : Locator) :
    (commit s db).host.cache? l = s.host.cache? l := by
  unfold commit
  split <;> rfl

/-- What is committed goes to a place that is there already. -/
theorem IsConnected.commit (h : IsConnected s) (db : Database) : IsConnected (commit s db) := by
  obtain ⟨asked, hasked, hheld⟩ := h
  refine ⟨asked, (target_commit s db).symm ▸ hasked, ?_⟩
  rw [locator_commit]
  refine ⟨hheld.opened, hheld.alone, fun name hplace => ?_, fun hl => ?_, fun path hplace => ?_⟩
  · obtain ⟨x, hx, husers⟩ := hheld.shared name hplace
    rw [shared?_commit hplace, hx]
    refine ⟨_, rfl, ?_⟩
    simp only [apply_ite SharedDatabase.users, ite_self]
    exact husers
  · rw [cache?_commit]
    exact hheld.cache hl
  · unfold Engine.commit
    rw [hplace]
    exact Option.isSome_iff_exists.2 ⟨_, Host.file?_writeFile_self _ _ _⟩

/-! ### Sessions -/

/-- What a session makes of a database, if the connection may write. -/
def made (refusal : Refusal) (db : Database) (body : Session Database α) : Database :=
  match body refusal db with
  | .ok (_, db') => if refusal.isNone then db' else db
  | .error _ => db

/-- Nothing is made of a database that may not be written. -/
theorem made_of_refusal {refusal : Refusal} (hrefusal : refusal ≠ none) (db : Database)
    (body : Session Database α) : made refusal db body = db := by
  rw [made]
  split
  · exact if_neg (mt Option.isNone_iff_eq_none.1 hrefusal)
  · rfl

/-- **A session on a site that has been made ready** answers what its body makes of the database that
is found.  It leaves the site as it was made ready, or commits to it. -/
theorem run_session_of_prepare (hprepare : prepare.run s = (.ok (), s'))
    (hdb : database s' = .ok db) (body : Session Database α) :
    ((session body).run s).1 = (body s'.engine.locator.refusal db).map Prod.fst ∧
      (((session body).run s).2 = s' ∧ made s'.engine.locator.refusal db body = db ∨
        s'.engine.locator.refusal = none ∧
          ((session body).run s).2 = commit s' (made s'.engine.locator.refusal db body)) := by
  have hrun : (session body).run s = _ :=
    (Access.run_bind_ok hprepare).trans (Access.run_bind_ok (run_get s'))
  rw [hrun, outcome_eq hdb, made]
  cases body s'.engine.locator.refusal db with
  | error e => exact ⟨rfl, .inl ⟨rfl, rfl⟩⟩
  | ok p =>
    refine ⟨rfl, ?_⟩
    by_cases hrefusal : s'.engine.locator.refusal.isNone = true
    · refine .inr ⟨Option.isNone_iff_eq_none.1 hrefusal, ?_⟩
      simp only [if_pos hrefusal]
      rfl
    · refine .inl ?_
      simp only [if_neg hrefusal]
      exact ⟨rfl, trivial⟩

theorem run_session_of_prepare_error {e : Error} (hprepare : prepare.run s = (.error e, s'))
    (body : Session Database α) : (session body).run s = (.error e, s') :=
  Access.run_bind_error hprepare

end Engine

end GraphBase
