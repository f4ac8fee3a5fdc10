import GraphBase.Proofs.Connection.Reopening

/-!
# The turns of an engine

An engine takes one call after the other.  A call is a session, which succeeds or fails, or a
session that breaks off without an end.  In between, other programs may use the host, and leave
alone what the connection needs.

A call goes through three gates: the engine is not poisoned, the connection is there, and the body
does not fail.

* At the first gate it is turned away, and nothing has happened.
* At the second gate it is turned away if a connection that is due cannot be opened again.  The old
  connection stays, and the next call tries again.
* What passes both is begun, and has a new connection if one was due.  Its body is run on the
  database that is found.  If it fails or breaks off, the database stays as it was found.

So the database is what the sessions that succeeded have made of the first one, one after the other
(`Engine.accounts_of_run`).  There is one exception: a database that lives in a connection is gone
when the connection is replaced (`Engine.LosesContent`).  Then every session starts on an empty
database.
-/

namespace GraphBase.Engine

variable {α : Type}

/-- One use of an engine: a session, or one that breaks off without an end. -/
inductive Call (α : Type) where
  | session (body : Session Database α)
  | breakOff

/-- Runs a call.  A session that breaks off has no answer. -/
def Call.run : Call α → Access (Option α)
  | session body => do
    let a ← Engine.session body
    return some a
  | breakOff => do
    Engine.breakOff
    return none

/-- A call that has been made. -/
structure Turn (α : Type) where
  call : Call α
  /-- Whether the site was made ready for it. -/
  isBegun : Bool
  answer : Except Error (Option α)

/-- The turn that a call takes on a site. -/
def Call.turn (c : Call α) (s : Site) : Turn α := ⟨c, (prepare.run s).1.toBool, (c.run.run s).1⟩

/-- What leads from one site to another: calls, which are written down, and what others do on the
host. -/
inductive Run (first : Site) : List (Turn α) → Site → Prop
  | start : Run first [] first
  | call {log : List (Turn α)} {s : Site} (hrun : Run first log s) (c : Call α) :
    Run first (log ++ [c.turn s]) (c.run.run s).2
  | others {log : List (Turn α)} {s : Site} {host : Host} (hrun : Run first log s)
    (hspares : Host.Spares s.engine.locator s.host host)
    (hheld : ∀ asked, s.host.Holds asked s.engine.locator → host.Holds asked s.engine.locator) :
    Run first log ⟨host, s.engine⟩

/-! ## What a log says -/

namespace Turn

/-- The body of a session that succeeded. -/
def committed? (t : Turn α) : Option (Session Database α) :=
  match t.call, t.answer with
  | .session body, .ok _ => some body
  | _, _ => none

/-- Whether the engine is poisoned by this turn. -/
def breaksOff (t : Turn α) : Bool :=
  match t.call with
  | .session _ => false
  | .breakOff => t.isBegun

end Turn

/-- What the sessions that succeeded make of a database, one after the other. -/
def folded (refusal : Refusal) (db : Database) (log : List (Turn α)) : Database :=
  (log.filterMap Turn.committed?).foldl (made refusal) db

/-- What has been written is lost with the connection, and the connection is replaced. -/
def LosesContent (e : Engine) : Prop := e.startsAnew = true ∧ e.locator.refusal = none

/-- A turn is as it has to be after some others, if a session finds a certain database. -/
structure Turn.Follows (first : Engine) (db : Database) (before : List (Turn α)) (t : Turn α) :
    Prop where
  /-- After a session has broken off, nothing is begun. -/
  poisoned : before.any breaksOff = true → t.isBegun = false ∧ t.answer = .error .sessionPoisoned
  /-- Otherwise what is not begun has found that the target could not be opened again. -/
  blocked : before.any breaksOff = false → t.isBegun = false →
    first.isStale = true ∧ t.answer = .error (.unavailable first.target.display)
  /-- A session that is begun answers what its body answers. -/
  session : ∀ body, t.call = .session body → t.isBegun = true →
    t.answer = (body first.locator.refusal db).map fun p => some p.1
  breakOff : t.call = .breakOff → t.isBegun = true → t.answer = .ok none

/-- What can be said of a site that an engine has been led to by the turns of a log. -/
structure Accounts (first : Engine) (db : Database) (log : List (Turn α)) (s : Site) : Prop where
  /-- The database is what the sessions that succeeded have made of the first one. -/
  database : ¬first.LosesContent → Engine.database s = .ok (folded first.locator.refusal db log)
  /-- Every turn that was begun has opened a connection, if connections are replaced. -/
  generation : s.engine.generation = 1 + if first.isStale then log.countP Turn.isBegun else 0
  poisoned : s.engine.isPoisoned = log.any Turn.breaksOff
  /-- Every turn has been as it had to be.  Where a connection takes its database along, a session
  has found an empty one. -/
  turns : ∀ before t, before ++ [t] <+: log → t.Follows first
    (if first.startsAnew then {} else folded first.locator.refusal db before) before
  /-- The next call is begun unless the engine is poisoned or the target cannot be opened again. -/
  begins : ∀ c : Call α, (c.turn s).isBegun = true ↔ s.engine.isPoisoned = false ∧
    (first.isStale = true → ∃ r, attach s.host first.target = .ok r)
  /-- What is not begun leaves the site as it is, with the old connection. -/
  stays : ∀ c : Call α, (c.turn s).isBegun = false → (c.run.run s).2 = s

/-! ## One call -/

section Call

variable {s s' : Site} {db : Database} {e : Error}

theorem Call.run_error (hprepare : prepare.run s = (.error e, s)) (c : Call α) :
    c.run.run s = (.error e, s) := by
  cases c with
  | session body => exact Access.run_bind_error (run_session_of_prepare_error hprepare body)
  | breakOff => exact Access.run_bind_error (Access.run_bind_error hprepare)

theorem Call.turn_of_error (hprepare : prepare.run s = (.error e, s)) (c : Call α) :
    c.turn s = ⟨c, false, .error e⟩ := by
  rw [turn, hprepare, c.run_error hprepare]
  rfl

theorem Call.run_session (s : Site) (body : Session Database α) :
    (session body).run.run s =
      (((Engine.session body).run s).1.map some, ((Engine.session body).run s).2) := by
  cases hrun : (Engine.session body).run s with
  | mk answer s' =>
    cases answer with
    | error e => exact Access.run_bind_error hrun
    | ok a => exact Access.run_bind_ok hrun

theorem Call.run_breakOff (hprepare : prepare.run s = (.ok (), s')) :
    (breakOff : Call α).run.run s =
      (.ok none, { s' with engine := { s'.engine with isPoisoned := true } }) := by
  have hrun : Engine.breakOff.run s =
      (.ok (), { s' with engine := { s'.engine with isPoisoned := true } }) :=
    (Access.run_bind_ok hprepare).trans rfl
  exact Access.run_bind_ok hrun

theorem engine_commit (hhealthy : s.engine.isPoisoned = false) (db : Database) :
    (commit s db).engine =
      { s.engine with own := (commit s db).engine.own, isPoisoned := false } := by
  rw [← hhealthy]
  unfold commit
  split <;> rfl

/-- What a call leads to that is begun on a site with a database. -/
structure Call.Leads (s s' : Site) (db : Database) (c : Call α) : Prop where
  connected : IsConnected (c.run.run s).2
  engine : (c.run.run s).2.engine = { s'.engine with
    own := (c.run.run s).2.engine.own
    isPoisoned := (c.turn s).breaksOff }
  database : Engine.database (c.run.run s).2 = .ok (match (c.turn s).committed? with
    | some body => made s'.engine.locator.refusal db body
    | none => db)
  session : ∀ body, c = .session body →
    (c.turn s).answer = (body s'.engine.locator.refusal db).map fun p => some p.1
  breakOff : c = .breakOff → (c.turn s).answer = .ok none

/-- **A call that is begun** leads to what its body makes of the database that is found. -/
theorem Call.leads (hprepare : prepare.run s = (.ok (), s'))
    (hhealthy : s'.engine.isPoisoned = false) (hconnected : IsConnected s')
    (hdb : database s' = .ok db) (c : Call α) : c.Leads s s' db := by
  cases c with
  | session body =>
    have hrun := run_session s body
    obtain ⟨hanswer, hsite⟩ := run_session_of_prepare hprepare hdb body
    have hturn : ((session body).turn s).answer =
        (body s'.engine.locator.refusal db).map fun p => some p.1 := by
      rw [turn, hrun, hanswer]
      cases body s'.engine.locator.refusal db <;> rfl
    refine ⟨?_, ?_, ?_, ?_, ?_⟩
    · rw [hrun]
      obtain ⟨hsite, -⟩ | ⟨-, hsite⟩ := hsite
      · rw [hsite]
        exact hconnected
      · rw [hsite]
        exact hconnected.commit _
    · rw [hrun]
      obtain ⟨hsite, -⟩ | ⟨-, hsite⟩ := hsite
      · rw [hsite, Turn.breaksOff, turn, ← hhealthy]
      · rw [hsite]
        exact engine_commit hhealthy _
    · have hmade : Engine.database ((session body).run.run s).2 =
          .ok (made s'.engine.locator.refusal db body) := by
        rw [hrun]
        obtain ⟨hsite, hsame⟩ | ⟨-, hsite⟩ := hsite
        · rw [hsite, hsame]
          exact hdb
        · rw [hsite]
          exact database_commit_of_present hconnected.present _
      rw [hmade, Turn.committed?, hturn]
      cases hbody : body s'.engine.locator.refusal db with
      | ok p => rfl
      | error e =>
        rw [made, hbody]
        rfl
    · rintro _ ⟨rfl⟩
      exact hturn
    · rintro ⟨⟩
  | breakOff =>
    have hrun := run_breakOff (α := α) hprepare
    refine ⟨?_, ?_, ?_, ?_, fun _ => ?_⟩
    · rw [hrun]
      exact hconnected
    · rw [turn, hrun, hprepare]
      rfl
    · rw [turn, hrun]
      exact hdb
    · rintro _ ⟨⟩
    · rw [turn, hrun]

end Call

/-! ## A log that grows -/

section Log

variable {refusal : Refusal} {db : Database} {log : List (Turn α)} {t : Turn α}

theorem folded_concat (refusal : Refusal) (db : Database) (log : List (Turn α)) (t : Turn α) :
    folded refusal db (log ++ [t]) = match t.committed? with
      | some body => made refusal (folded refusal db log) body
      | none => folded refusal db log := by
  rw [folded, List.filterMap_append, List.foldl_append]
  cases h : t.committed? with
  | some body => simp [folded, h]
  | none => simp [folded, h]

/-- Nothing is made of a database that may not be written. -/
theorem folded_of_refusal (hrefusal : refusal ≠ none) : folded refusal db log = db := by
  rw [folded]
  induction log.filterMap Turn.committed? with
  | nil => rfl
  | cons body rest ih => rw [List.foldl_cons, made_of_refusal hrefusal, ih]

/-- What holds of every turn after those before it goes on to hold if it holds of the next one. -/
theorem forall_prefix_concat {P : List (Turn α) → Turn α → Prop}
    (hlog : ∀ before t, before ++ [t] <+: log → P before t) (hlast : P log t) :
    ∀ before t', before ++ [t'] <+: log ++ [t] → P before t' := by
  intro before t' hprefix
  obtain heq | hprefix := List.prefix_concat_iff.1 hprefix
  · obtain ⟨rfl, hturn⟩ := List.append_inj' heq rfl
    obtain rfl := List.singleton_inj.1 hturn
    exact hlast
  · exact hlog before t' hprefix

end Log

/-! ## Many calls -/

/-- What calls keep, and others do not touch. -/
structure IsLed (first : Engine) (db : Database) (log : List (Turn α)) (s : Site) : Prop where
  connected : IsConnected s
  target : s.engine.target = first.target
  recycle : s.engine.recycle = first.recycle
  locator : s.engine.locator = first.locator
  database : ∃ db', Engine.database s = .ok db' ∧
    (¬first.LosesContent → db' = folded first.locator.refusal db log)
  generation : s.engine.generation = 1 + if first.isStale then log.countP Turn.isBegun else 0
  poisoned : s.engine.isPoisoned = log.any Turn.breaksOff
  turns : ∀ before t, before ++ [t] <+: log → t.Follows first
    (if first.startsAnew then {} else folded first.locator.refusal db before) before

namespace IsLed

variable {first : Engine} {db : Database} {log : List (Turn α)} {s : Site} {e : Error}
  (h : IsLed first db log s)

include h

theorem isStale : s.engine.isStale = first.isStale := by
  rw [Engine.isStale, Engine.isStale, h.recycle, h.target]

theorem startsAnew : s.engine.startsAnew = first.startsAnew := by
  rw [Engine.startsAnew, Engine.startsAnew, h.isStale, h.locator]

/-- A call that is turned away leaves no trace but in the log. -/
theorem call_of_error (hprepare : prepare.run s = (.error e, s))
    (hpoisoned : log.any Turn.breaksOff = true → e = .sessionPoisoned)
    (hblocked : log.any Turn.breaksOff = false →
      first.isStale = true ∧ e = .unavailable first.target.display) (c : Call α) :
    IsLed first db (log ++ [c.turn s]) (c.run.run s).2 := by
  have hturn := c.turn_of_error hprepare
  have hbreaks : (c.turn s).breaksOff = false := by
    rw [hturn]
    cases c <;> rfl
  have hnone : (c.turn s).committed? = none := by
    rw [hturn]
    cases c <;> rfl
  rw [c.run_error hprepare]
  refine ⟨h.connected, h.target, h.recycle, h.locator, ?_, ?_, ?_,
    forall_prefix_concat h.turns ⟨fun hany => ?_, fun hany _ => ?_, fun body _ hbegun => ?_,
      fun _ hbegun => ?_⟩⟩
  · rw [folded_concat, hnone]
    exact h.database
  · rw [h.generation, List.countP_append, List.countP_singleton, hturn]
    rfl
  · rw [h.poisoned, List.any_append, List.any_cons, List.any_nil, hbreaks, Bool.or_false,
      Bool.or_false]
  · rw [hturn]
    exact ⟨rfl, congrArg Except.error (hpoisoned hany)⟩
  · rw [hturn]
    exact ⟨(hblocked hany).1, congrArg Except.error (hblocked hany).2⟩
  · rw [hturn] at hbegun
    cases hbegun
  · rw [hturn] at hbegun
    cases hbegun

/-- The database that the next session finds. -/
theorem found_eq {db' : Database}
    (hfolded : ¬first.LosesContent → db' = folded first.locator.refusal db log) :
    (if s.engine.startsAnew then {} else db') =
      if first.startsAnew then {} else folded first.locator.refusal db log := by
  rw [h.startsAnew]
  split_ifs with hnew
  · rfl
  · exact hfolded fun hloses => hnew hloses.1

/-- A call that is begun goes on from the database that is found. -/
theorem call_of_prepare {s' : Site} (hempty : first.startsAnew = true → db = {})
    (hpoisoned : s.engine.isPoisoned = false) (hprepare : prepare.run s = (.ok (), s'))
    (hrenews : Renews s s') (c : Call α) :
    IsLed first db (log ++ [c.turn s]) (c.run.run s).2 := by
  obtain ⟨db', hdb', hfolded⟩ := h.database
  have hfound := hrenews.database hdb'
  rw [h.found_eq hfolded] at hfound
  have hlocator : s'.engine.locator = first.locator := hrenews.locator.trans h.locator
  have hleads := c.leads hprepare (hrenews.isPoisoned.trans hpoisoned) hrenews.connected hfound
  have hbegun : (c.turn s).isBegun = true := by
    rw [Call.turn, hprepare]
    rfl
  have hany : log.any Turn.breaksOff = false := by rw [← h.poisoned, hpoisoned]
  refine ⟨hleads.connected, ?_, ?_, ?_, ⟨_, hleads.database, fun hkept => ?_⟩, ?_, ?_,
    forall_prefix_concat h.turns ⟨fun hbroken => ?_, fun _ hnot => ?_, fun body hbody _ => ?_,
      fun hbody _ => hleads.breakOff hbody⟩⟩
  · rw [hleads.engine]
    exact hrenews.target.trans h.target
  · rw [hleads.engine]
    exact hrenews.recycle.trans h.recycle
  · rw [hleads.engine]
    exact hlocator
  · -- what is found is what has been folded so far, also if both are empty
    have hsame : (if first.startsAnew then {} else folded first.locator.refusal db log) =
        folded first.locator.refusal db log := by
      split_ifs with hnew
      · rw [folded_of_refusal fun hrefusal => hkept ⟨hnew, hrefusal⟩, hempty hnew]
      · rfl
    rw [folded_concat, hsame, hlocator]
  · rw [hleads.engine, List.countP_append, List.countP_singleton, hbegun]
    show s'.engine.generation = _
    rw [hrenews.generation, h.generation, h.isStale]
    cases first.isStale <;> rfl
  · rw [hleads.engine, List.any_append, hany, List.any_cons, List.any_nil, Bool.or_false,
      Bool.false_or]
  · rw [hany] at hbroken
    cases hbroken
  · rw [hbegun] at hnot
    cases hnot
  · have hsession := hleads.session body hbody
    rwa [hlocator] at hsession

/-- **A call keeps the account.** -/
theorem call (hempty : first.startsAnew = true → db = {}) (c : Call α) :
    IsLed first db (log ++ [c.turn s]) (c.run.run s).2 := by
  cases hpoisoned : s.engine.isPoisoned with
  | true =>
    have hany : log.any Turn.breaksOff = true := by rw [← h.poisoned, hpoisoned]
    refine h.call_of_error (run_prepare_poisoned hpoisoned) (fun _ => rfl) (fun hnot => ?_) c
    rw [hany] at hnot
    cases hnot
  | false =>
    have hany : log.any Turn.breaksOff = false := by rw [← h.poisoned, hpoisoned]
    obtain ⟨hstale, e, hattach, hprepare⟩ | ⟨s', hprepare, hrenews⟩ :=
      run_prepare_cases h.connected hpoisoned
    · refine h.call_of_error hprepare (fun hbroken => ?_) (fun _ => ⟨?_, ?_⟩) c
      · rw [hany] at hbroken
        cases hbroken
      · rw [← h.isStale, hstale]
      · rw [← h.target]
        exact attach_eq_error h.connected hattach
    · exact h.call_of_prepare hempty hpoisoned hprepare hrenews c

/-- **What others do does not touch the account**, as long as they spare the connection. -/
theorem others {host : Host} (hspares : Host.Spares s.engine.locator s.host host)
    (hheld : ∀ asked, s.host.Holds asked s.engine.locator → host.Holds asked s.engine.locator) :
    IsLed first db log ⟨host, s.engine⟩ := by
  obtain ⟨asked, hasked, hhost⟩ := h.connected
  obtain ⟨db', hdb', hfolded⟩ := h.database
  refine ⟨⟨asked, hasked, hheld asked hhost⟩, h.target, h.recycle, h.locator, ⟨db', ?_, hfolded⟩,
    h.generation, h.poisoned, h.turns⟩
  exact (hspares.content_eq s.engine.own).trans hdb'

/-- **The account of a site.** -/
theorem accounts : Accounts first db log s := by
  refine ⟨fun hkept => ?_, h.generation, h.poisoned, h.turns, fun c => ?_, fun c hnot => ?_⟩
  · obtain ⟨db', hdb', hfolded⟩ := h.database
    rw [hdb', hfolded hkept]
  · rw [← h.target, ← h.isStale]
    exact isBegun_prepare_iff
  · obtain ⟨e, hprepare⟩ :=
      exists_run_prepare_error (mt isBegun_prepare_iff.2 (Bool.eq_false_iff.1 hnot))
    rw [c.run_error hprepare]

end IsLed

/-- Where a connection takes its database along, it has been opened on an empty one. -/
theorem eq_empty_of_startsAnew {h : Host} {engine : Engine} {db : Database}
    (hdb : content h engine.locator {} = .ok db) (hnew : engine.startsAnew = true) : db = {} := by
  rw [startsAnew, Bool.and_eq_true, beq_iff_eq] at hnew
  rw [content, hnew.2] at hdb
  exact (Except.ok.inj hdb).symm

/-- **Whatever calls an engine has taken since it was connected**, they have made of its database
what those of them have made that are sessions and have succeeded, and nothing else has left a
trace.  After the first that has broken off none is begun any more. -/
theorem accounts_of_run {h h₀ : Host} {connection : String} {recycle : Option Nat}
    {engine : Engine} (hconnect : connect h connection recycle = (.ok engine, h₀))
    {log : List (Turn α)} {s : Site} (hrun : Run ⟨h₀, engine⟩ log s) :
    ∃ db, database ⟨h₀, engine⟩ = .ok db ∧ Accounts engine db log s := by
  obtain ⟨target, locator, db, hattach, hdb, rfl⟩ := connect_eq_ok hconnect
  refine ⟨db, hdb, IsLed.accounts ?_⟩
  induction hrun with
  | start =>
    refine ⟨isConnected_of_attach hattach recycle, rfl, rfl, rfl, ⟨db, hdb, fun _ => rfl⟩, ?_, rfl,
      fun before t hprefix => ?_⟩
    · split_ifs <;> rfl
    · cases before <;> cases List.prefix_nil.1 hprefix
  | call hrun c ih => exact ih.call (eq_empty_of_startsAnew hdb) c
  | others hrun hspares hheld ih => exact ih.others hspares hheld

/-- A new file, with a connection that is replaced before every session. -/
def newSite : Site where
  host := { files := [([[0x61]], .bytes [])] }
  engine := {
    target := .file "a"
    locator := { place := .file [[0x61]], route := [[[0x61]]] }
    recycle := some 0 }

/-- A session, one that breaks off, and another session, which is turned away. -/
theorem accounts_newSite : ∃ (log : List (Turn Unit)) (s : Site),
    connect {} "a" (some 0) = (.ok newSite.engine, newSite.host) ∧
    Run newSite log s ∧ Accounts newSite.engine {} log s ∧
    log.map Turn.isBegun = [true, true, false] ∧ s.engine.generation = 3 := by
  have hconnect : connect {} "a" (some 0) = (.ok newSite.engine, newSite.host) := by
    decide +kernel
  have hstart : Run newSite ([] : List (Turn Unit)) newSite := .start
  have hrun := ((hstart.call (.session Database.createGraph)).call .breakOff).call
    (.session Database.createGraph)
  obtain ⟨db, hdb, haccounts⟩ := accounts_of_run hconnect hrun
  obtain rfl : {} = db := Except.ok.inj hdb
  exact ⟨_, _, hconnect, hrun, haccounts, by decide +kernel, by decide +kernel⟩

end GraphBase.Engine
