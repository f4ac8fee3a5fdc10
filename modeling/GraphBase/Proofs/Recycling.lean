import GraphBase.Proofs.Connection.Recycling
import GraphBase.Proofs.Connection.Turns
import GraphBase.Proofs.Graph.Runs
import GraphBase.Proofs.Triplets.Runs

/-!
# Whether recycling can be seen

A store cannot tell from the answers it gets whether its connection is replaced before every
session or never (`recycling_of_parse`).  The operations of both stores touch the database through
sessions only (`StoreCall.relates_ask`), so this comes down to what is known of sessions.

There are two exceptions.  Both are about targets that count as recyclable for how their names are
spelled, while it is up to the database how names are read.

* A name may stand for a database that lives in the connection.  Then everything that is written is
  gone at once.
* A path may lead through the very file that it leads to.  Then nothing can be done any more, once
  the file has been made.

A database that cannot be written to is no exception, wherever it lives.
-/

namespace GraphBase

open Access (Relates)

/-! ## Calls and their answers -/

/-- What a call to a property graph store is answered. -/
def PropertyCall.Answer : PropertyCall → Type
  | upsertNodes _ _ | upsertRelations _ _ | delete _ => Unit
  | getOrCreateNode _ _ => NodeRecord × Bool
  | findNode _ => Option NodeRecord
  | nodes _ _ => List Node
  | triplets _ | reachable _ _ _ _ => List Triplet
  | relMap _ _ _ _ => RelMap String Triplet
  | nearest _ _ => List (Node × Number.Binary32)
  | stats => Stats

/-- Runs a call for its answer. -/
def PropertyCall.ask (store : PropertyStore) : (c : PropertyCall) → Access c.Answer
  | upsertNodes now batch => store.upsertNodes now batch
  | upsertRelations now batch => store.upsertRelations now batch
  | getOrCreateNode now id => store.getOrCreateNode now id
  | delete s => store.delete s
  | findNode id => store.findNode id
  | nodes properties ids => store.nodes properties ids
  | triplets s => store.triplets s
  | reachable seeds depth limit ignored => store.reachable seeds depth limit ignored
  | relMap seeds depth limit ignored => store.relMap seeds depth limit ignored
  | nearest point count => store.nearest point count
  | stats => store.stats

/-- What a call to a triplet store is answered. -/
def TripletCall.Answer : TripletCall → Type
  | upsert _ _ | delete _ => Unit
  | getOrCreateEntity _ _ => EntityRow × Bool
  | findEntity _ => Option EntityRow
  | relations _ => List (String × String)
  | relMap _ _ _ => RelMap String Fact
  | stats => Stats

/-- Runs a call for its answer. -/
def TripletCall.ask (store : TripletStore) : (c : TripletCall) → Access c.Answer
  | upsert now fact => store.upsert now fact
  | delete fact => store.delete fact
  | getOrCreateEntity now name => store.getOrCreateEntity now name
  | findEntity name => store.findEntity name
  | relations subject => store.relations subject
  | relMap seeds depth limit => store.relMap seeds depth limit
  | stats => store.stats

/-- A call to one of the stores, or the session with which it is opened. -/
inductive StoreCall where
  | openGraph
  | openTriplets (schema : TripletSchema)
  | property (store : PropertyStore) (c : PropertyCall)
  | structuredQuery (store : PropertyStore) (statement : String)
  | triplet (store : TripletStore) (c : TripletCall)
  | query (store : TripletStore) (now : String) (statement : Statement)

namespace StoreCall

/-- What a call is answered. -/
def Answer : StoreCall → Type
  | openGraph | openTriplets _ => Unit
  | property _ c => c.Answer
  | triplet _ c => c.Answer
  | structuredQuery _ _ | query _ _ _ => List (List Cell)

/-- Runs a call for its answer. -/
def ask : (c : StoreCall) → Access c.Answer
  | openGraph => Engine.session Database.createGraph
  | openTriplets schema => Engine.session (Database.createTriplets schema)
  | property store c => c.ask store
  | structuredQuery store statement => store.structuredQuery statement
  | triplet store c => c.ask store
  | query store now statement => store.query now statement

/-- Runs calls one after the other, whether they succeed or not, and keeps what they answer. -/
def converse : List StoreCall → Site → List ((c : StoreCall) × Except Error c.Answer) × Site
  | [], s => ([], s)
  | c :: rest, s =>
    let (answer, s') := c.ask.run s
    let (answers, s'') := converse rest s'
    (⟨c, answer⟩ :: answers, s'')

end StoreCall

/-! ## Calls are made of sessions -/

section Relates

variable {R : Site → Site → Prop}
  (hsession : ∀ {α : Type} (body : Session Database α), Relates R (Engine.session body))

include hsession

theorem PropertyCall.relates_ask (store : PropertyStore) (c : PropertyCall) :
    Relates R (c.ask store) := by
  cases c with
  | upsertNodes now nodes =>
    rw [ask, PropertyStore.upsertNodes]
    split
    · exact .throw _
    · exact hsession _
  | upsertRelations now relations => exact hsession _
  | getOrCreateNode now id => exact hsession _
  | delete selection => exact .ite (.pure ()) (hsession _)
  | findNode id => exact hsession _
  | nodes properties ids => exact hsession _
  | triplets selection => exact .ite (.pure _) (hsession _)
  | reachable seeds depth limit ignored => exact .ite (.pure _) (hsession _)
  | relMap seeds depth limit ignored => exact .ite (.pure _) (hsession _)
  | nearest point count =>
    rw [ask, PropertyStore.nearest]
    split
    · exact .throw _
    · exact .ite (.pure _) (hsession _)
  | stats => exact hsession _

theorem TripletCall.relates_ask (store : TripletStore) (c : TripletCall) :
    Relates R (c.ask store) := by
  cases c with
  | upsert now fact => exact hsession _
  | delete fact => exact .bind (hsession _) fun removed => .ite (hsession _) (.pure _)
  | getOrCreateEntity now name => exact hsession _
  | findEntity name => exact hsession _
  | relations subject => exact hsession _
  | relMap seeds depth limit => exact .ite (.pure _) (hsession _)
  | stats => exact hsession _

namespace StoreCall

/-- **A call touches the database through sessions only.** -/
theorem relates_ask (c : StoreCall) : Relates R c.ask := by
  cases c with
  | openGraph => exact hsession _
  | openTriplets schema => exact hsession _
  | property store c => exact c.relates_ask hsession store
  | structuredQuery store statement => exact .throw _
  | triplet store c => exact c.relates_ask hsession store
  | query store now statement => exact hsession _

/-- **So do calls, one after the other.** -/
theorem relates_converse (calls : List StoreCall) {s₁ s₂ : Site} (h : R s₁ s₂) :
    (converse calls s₁).1 = (converse calls s₂).1 ∧
      R (converse calls s₁).2 (converse calls s₂).2 := by
  induction calls generalizing s₁ s₂ with
  | nil => exact ⟨rfl, h⟩
  | cons c rest ih =>
    obtain ⟨hanswer, hsites⟩ := c.relates_ask hsession s₁ s₂ h
    obtain ⟨hanswers, hend⟩ := ih hsites
    refine ⟨?_, hend⟩
    show ⟨c, (c.ask.run s₁).1⟩ :: (converse rest (c.ask.run s₁).2).1 =
      ⟨c, (c.ask.run s₂).1⟩ :: (converse rest (c.ask.run s₂).2).1
    rw [hanswer, hanswers]

end StoreCall

end Relates

/-! ## Recycling -/

/-- A site with a connection that has just been opened. -/
def Site.opened (host : Host) (target : Target) (locator : Locator) (recycle : Option Nat) : Site :=
  ⟨host, { target, locator, recycle }⟩

open StoreCall (converse)

/-- What replacing the connection before every session means for a store, once its target has been
opened on a host. -/
structure Recycling (target : Target) (locator : Locator) (host : Host) : Prop where
  /-- All answers are the same as if the connection were never replaced, and a connection that is
  replaced finds what was last committed.  This holds unless the target counts as recyclable, and
  is a database that lives in the connection and can be written to, or a file whose path leads
  through itself. -/
  invisible : (target.isRecyclable = true →
      (locator.place = .own → locator.refusal ≠ none) ∧ ¬locator.DoublesBack) →
    ∀ calls : List StoreCall, let recycled := converse calls (.opened host target locator (some 0))
      let kept := converse calls (.opened host target locator none)
      recycled.1 = kept.1 ∧ ∃ s db, Engine.prepare.run recycled.2 = (.ok (), s) ∧
        Engine.database s = .ok db ∧ Engine.database kept.2 = .ok db
  /-- Where the database lives in the connection, every session finds an empty one. -/
  forgotten : target.isRecyclable = true → locator.place = .own →
    ∀ (calls : List StoreCall) {α : Type} (body : Session Database α),
      ((Engine.session body).run (converse calls (.opened host target locator (some 0))).2).1 =
        (body locator.refusal {}).map Prod.fst
  /-- Where the path of a file leads through the file, no session is run. -/
  barred : target.isRecyclable = true → locator.DoublesBack →
    ∀ (calls : List StoreCall) {α : Type} (body : Session Database α),
      ((Engine.session body).run (converse calls (.opened host target locator (some 0))).2).1 =
        .error (.unavailable target.display)

namespace Recycling

variable {h host : Host} {target : Target} {locator : Locator} {db : Database}
  (hattach : Engine.attach h target = .ok (host, locator))

include hattach

/-- A target that has just been opened has a database that lasts, if none of the exceptions is the
case. -/
theorem lasts (hdb : Engine.content host locator {} = .ok db)
    (hlasting : target.isRecyclable = true →
      (locator.place = .own → locator.refusal ≠ none) ∧ ¬locator.DoublesBack)
    (recycle : Option Nat) :
    Engine.Lasts locator db (.opened host target locator recycle) := by
  obtain ⟨asked, -, hopen⟩ := Engine.attach_eq_ok hattach
  refine ⟨Engine.isConnected_of_attach hattach recycle, rfl, rfl, hdb, fun hstale => ?_,
    fun hnew => ?_⟩
  · rw [Engine.isStale, Bool.and_eq_true] at hstale
    exact Host.canReach_of_attach? hopen (hlasting hstale.2).2
  · rw [Engine.startsAnew, Engine.isStale, Bool.and_eq_true, Bool.and_eq_true] at hnew
    have hown : locator.place = .own := beq_iff_eq.1 hnew.2
    refine ⟨(hlasting hnew.1.2).1 hown, ?_⟩
    rw [Engine.content, hown] at hdb
    exact (Except.ok.inj hdb).symm

/-- A database that lives in a connection is forgotten if the connection is replaced. -/
theorem forgets (hrecyclable : target.isRecyclable = true) (hown : locator.place = .own) :
    Engine.Forgets locator (.opened host target locator (some 0)) := by
  refine ⟨Engine.isConnected_of_attach hattach (some 0), rfl, rfl, ?_⟩
  rw [Engine.startsAnew, Engine.isStale, Bool.and_eq_true, Bool.and_eq_true]
  exact ⟨⟨rfl, hrecyclable⟩, beq_iff_eq.2 hown⟩

/-- A file bars the way if its path leads through it. -/
theorem isBarred (hrecyclable : target.isRecyclable = true) (hback : locator.DoublesBack) :
    Engine.IsBarred target (.opened host target locator (some 0)) := by
  obtain ⟨asked, -, hopen⟩ := Engine.attach_eq_ok hattach
  refine ⟨Engine.isConnected_of_attach hattach (some 0), rfl, rfl, ?_,
    Host.not_canReach_of_doublesBack (Host.holds_of_attach? hopen) hback⟩
  rw [Engine.isStale, Bool.and_eq_true]
  exact ⟨rfl, hrecyclable⟩

/-- **What recycling means** for a target that has been opened. -/
theorem of_attach (hdb : Engine.content host locator {} = .ok db) :
    Recycling target locator host := by
  refine ⟨fun hlasting calls => ?_, fun hrecyclable hown calls α body => ?_,
    fun hrecyclable hback calls α body => ?_⟩
  · have hkept := lasts hattach hdb hlasting none
    have hrecycled := lasts hattach hdb hlasting (some 0)
    obtain ⟨hanswers, db', hend, hend'⟩ := StoreCall.relates_converse
      (Engine.relates_session_of_lasts locator) calls ⟨db, hrecycled, hkept⟩
    obtain ⟨s'', hprepare, hfound⟩ := hend.exists_prepared
    exact ⟨hanswers, s'', db', hprepare, hfound.database, hend'.database⟩
  · obtain ⟨-, -, hend⟩ := StoreCall.relates_converse
      (Engine.relates_session_of_forgets locator) calls ⟨rfl, forgets hattach hrecyclable hown⟩
    exact (hend.session body).1
  · obtain ⟨-, -, hend⟩ := StoreCall.relates_converse
      (Engine.relates_session_of_isBarred target) calls ⟨rfl, isBarred hattach hrecyclable hback⟩
    rw [hend.session body]

end Recycling

/-- A target that counts as recyclable, although its database lives in the connection. -/
example : Target.parse "sqlite:file::memory:" = .ok (.file "file::memory:") ∧
    (Target.file "file::memory:").isRecyclable = true ∧
    Locator.ofTarget (.file "file::memory:") = .ok { place := .own } := by decide +kernel

/-- **Recycling cannot be seen**, whatever a connection string says that is accepted, and with two
exceptions.  Either the target cannot be opened in the first place, or the answers of a store are
the same whether its connection is replaced or not. -/
theorem recycling_of_parse {connection : String} {target : Target}
    (hparse : Target.parse connection = .ok target) (h : Host) :
    (∃ e h', ∀ recycle, Engine.connect h connection recycle = (.error e, h')) ∨
      ∃ locator host,
        (∀ recycle, Engine.connect h connection recycle = (.ok { target, locator, recycle }, host)) ∧
        Recycling target locator host := by
  obtain hfails | ⟨target', locator, host, db, hparse', hattach, hdb, hopens⟩ :=
    Engine.connect_cases h connection
  · exact .inl hfails
  · obtain rfl := Except.ok.inj (hparse.symm.trans hparse')
    exact .inr ⟨locator, host, hopens, .of_attach hattach hdb⟩

/-- A file that is made when it is opened is none of the exceptions. -/
theorem recycling_newFile : Target.parse "a" = .ok (.file "a") ∧ ∃ locator host,
    Engine.connect {} "a" none = (.ok { target := .file "a", locator }, host) ∧
    Recycling (.file "a") locator host ∧
    ∀ calls, (converse calls (.opened host (.file "a") locator (some 0))).1 =
      (converse calls (.opened host (.file "a") locator none)).1 := by
  have hparse : Target.parse "a" = .ok (.file "a") := by decide +kernel
  have hconnect : Engine.connect {} "a" none = (.ok { Engine.newSite.engine with
      recycle := none }, Engine.newSite.host) := by decide +kernel
  refine ⟨hparse, ?_⟩
  obtain ⟨e, h', hfails⟩ | ⟨locator, host, hopens, hrecycling⟩ := recycling_of_parse hparse {}
  · rw [hfails] at hconnect
    cases hconnect
  · have hengine := (hopens none).symm.trans hconnect
    obtain rfl : locator = Engine.newSite.engine.locator :=
      congrArg Engine.locator (Except.ok.inj (Prod.mk.inj hengine).1)
    refine ⟨_, host, hopens none, hrecycling, fun calls => (hrecycling.invisible ?_ calls).1⟩
    refine fun _ => ⟨nofun, ?_⟩
    rintro ⟨path, hplace, step, hstep, hparent⟩
    obtain rfl := Place.file.inj hplace
    obtain rfl := List.mem_singleton.1 hstep
    cases hparent

end GraphBase
