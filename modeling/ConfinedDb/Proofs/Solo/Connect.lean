import ConfinedDb.Connection.Connecting
import ConfinedDb.Proofs.Options.Modes
import ConfinedDb.Proofs.Solo.Open
import ConfinedDb.Scenario.Run
/-!
# Connecting

An open of a connection that has no database calls the engine once, and a database that comes with
a failure is closed before the open ends (`open_asks`); so a connection that could not be opened
goes out of use without another call (`drop_unopened`), and what a connect asks is what its open
asks (`connect_connects`). With what opens ask for at any point of a run and with what a URL spells,
this is **`opens_as_requested`**.
-/
namespace ConfinedDb

def EngineCall.isOpen : EngineCall → Bool
  | .open .. => true
  | _ => false

namespace Interleaving

/-! ## Databases that come and go -/

def Exchange.obtains : Exchange → List DbHandle
  | ⟨.open .., (db?, _)⟩ => db?.toList
  | _ => []

def Exchange.closes : Exchange → List DbHandle
  | ⟨.close db, _⟩ => [db]
  | _ => []

/-- The databases that were opened are those that were closed, each as often. -/
def Returned (exchanges : List Exchange) : Prop :=
  exchanges.flatMap Exchange.obtains = exchanges.flatMap Exchange.closes

/-! ## The open -/

variable {c : Connection} {t : ThreadId} {E : Engine} {s : State}

/-- How an open goes on a connection without a database: what was asked, how it ends, and in which
state. Whatever comes with a code that is no success is closed. -/
inductive Opened (c : Connection) (flags : OpenFlags) : List Exchange → Outcome → State → Prop
  | success {db : DbHandle} {rc : ResultCode} {s' : State} (ok : rc.isOk = true)
    (undisposed : s'.disposed = false) :
    Opened c flags [⟨.open c.location flags, (some db, rc)⟩] .finished s'
  | missing {rc : ResultCode} {f : Fault} {s' : State} (ok : rc.isOk = true)
    (undisposed : s'.disposed = false) (closed : s'.handle = none) :
    Opened c flags [⟨.open c.location flags, (none, rc)⟩] ⟨.error f, none⟩ s'
  | failure {db? : Option DbHandle} {rc : ResultCode} {answer : Except Error String}
    {code : ResultCode} {f : Fault} {s' : State} (failed : rc.isOk = false)
    (undisposed : s'.disposed = false) (closed : s'.handle = none) :
    Opened c flags (⟨.open c.location flags, (db?, rc)⟩ :: ⟨.errorMessage db?, answer⟩ ::
      db?.toList.map fun db => ⟨.close db, code⟩) ⟨.error f, none⟩ s'

namespace Opened

variable {flags : OpenFlags} {exchanges : List Exchange} {o : Outcome}

theorem undisposed (h : Opened c flags exchanges o s) : s.disposed = false := by
  cases h <;> assumption

theorem closed {err : Error} (h : Opened c flags exchanges o s) (failed : o.result = .error err) :
    s.handle = none := by
  cases h with
  | success => cases failed
  | missing _ _ closed => exact closed
  | failure _ _ closed => exact closed

theorem once (h : Opened c flags exchanges o s) :
    (exchanges.map Exchange.call).filter EngineCall.isOpen = [.open c.location flags] := by
  cases h with
  | success => rfl
  | missing => rfl
  | @failure db? => cases db? <;> rfl

theorem returned {err : Error} (h : Opened c flags exchanges o s)
    (failed : o.result = .error err) : Returned exchanges := by
  cases h with
  | success => cases failed
  | missing => rfl
  | @failure db? => cases db? <;> rfl

end Opened

/-- An open of a connection without a database goes in one of these ways. -/
theorem opening_asks (undisposed : s.disposed = false) (closed : s.handle = none)
    (flags : OpenFlags) (claimed : Bool) (e : E.State) :
    ∃ (exchanges : List Exchange) (o : Outcome) (s' : State),
      Asks c t E e (pause (.opening flags claimed) s) exchanges o s' ∧
      Opened c flags exchanges o s' := by
  obtain ⟨κ, hanswered, hasks⟩ := answered_asks (c := c) (t := t) undisposed flags claimed e
  have hleft : (if claimed then s.unclaim t else s).disposed = false ∧
      (if claimed then s.unclaim t else s).handle = none := by
    split <;> simp [undisposed, closed]
  refine ⟨_, _, _, hasks, ?_⟩
  cases hanswered with
  | installed ok => exact .success ok (by simp [State.install, undisposed])
  | missing ok => exact .missing ok hleft.1 hleft.2
  | failed failed => exact .failure failed hleft.1 hleft.2

/-- An open asks nothing, or goes as it does on a connection without a database. -/
theorem openChunk_asks (c : Connection) (t : ThreadId) (flags : OpenFlags) (e : E.State)
    (s : State) :
    ∃ (exchanges : List Exchange) (o : Outcome) (s' : State),
      Asks c t E e (openChunk c t flags s) exchanges o s' ∧
      (exchanges = [] ∨ Opened c flags exchanges o s') := by
  unfold openChunk
  split
  · exact ⟨_, _, _, .ends rfl, .inl rfl⟩
  · next hdisposed =>
    split
    · exact ⟨_, _, _, .ends rfl, .inl rfl⟩
    · split
      · exact ⟨_, _, _, ((Asks.ends rfl).after _).after _, .inl rfl⟩
      · next hhandle =>
        obtain ⟨exchanges, o, s', hasks, hopened⟩ :=
          opening_asks (c := c) (t := t) (s := s.claim t) (by simpa using hdisposed)
            (by simpa using hhandle) flags s.owner.isNone e
        exact ⟨exchanges, o, s', hasks.after _, .inr hopened⟩

theorem open_asks (c : Connection) (t : ThreadId) (flags : OpenFlags) (e : E.State) :
    ∃ (exchanges : List Exchange) (o : Outcome) (s' : State),
      Asks c t E e (openChunk c t flags .initial) exchanges o s' ∧
      Opened c flags exchanges o s' := by
  obtain ⟨exchanges, o, s', hasks, hopened⟩ :=
    opening_asks (c := c) (t := t) (s := State.initial.claim t) rfl rfl flags true e
  have hstart : openChunk c t flags .initial
      = (pause (.opening flags true) (State.initial.claim t)).after [.confined t] := rfl
  exact ⟨exchanges, o, s', hstart ▸ hasks.after _, hopened⟩

/-! ## The way out after a failure -/

theorem carryOut_connect (c : Connection) (t : ThreadId) (mode : OpenMode) (e : E.State)
    (s : State) :
    carryOut E (c.connect t mode).run e s =
      match carryOut E (c.openAs t mode).run e s with
      | (.ok (), x) => (.ok (), x)
      | (.error err, e', s') => (.error err, (carryOut E (Connection.drop t) e' s').2) := by
  let recover : Except Error Unit → Operation (Except Error Unit) := fun
    | .ok a => pure (.ok a)
    | .error err => (do
        Connection.drop t
        throw err : Attempt Unit).run
  have hconnect : (c.connect t mode).run = Program.ask (.report .created) fun _ =>
      (c.openAs t mode).run >>= recover := by
    refine congrArg (Program.ask _) (funext fun _ => ?_)
    show ((c.openAs t mode).run >>= fun result => _) = _
    refine congrArg ((c.openAs t mode).run >>= ·) (funext fun result => ?_)
    cases result <;> rfl
  rw [hconnect]
  show carryOut E ((c.openAs t mode).run >>= recover) e s = _
  rw [carryOut_bind]
  rcases carryOut E (c.openAs t mode).run e s with ⟨_ | _, e', s'⟩
  · show carryOut E ((Except.ok <$> Connection.drop t) >>= _) e' s' = _
    rw [carryOut_bind, carryOut_map]
    rfl
  · rfl

/-- A connection that was not opened asks nothing when it goes out of use. -/
theorem drop_unopened (undisposed : s.disposed = false) (closed : s.handle = none)
    (t : ThreadId) (e : E.State) : (carryOut E (Connection.drop t) e s).2 = (e, s.retire) := by
  have halone : Alone inMemory t E e (phaseStart inMemory t s .drop) .finished e s.retire := by
    have hstart : phaseStart inMemory t s .drop
        = (finish .finished s.retire).after [.disposedUnopened] := by
      simp [phaseStart, disposeChunk, undisposed, closed, State.isOpen]
    exact hstart ▸ (Alone.ends rfl).after _
  have hmap := carryOut_map (E := E) (fun _ => Outcome.finished) (Connection.drop t) e s
  exact congrArg Prod.snd (hmap.symm.trans (carryOut_of_alone halone))

/-! ## Connects -/

/-- The database does not have the mode: one in memory is only opened for writing with creation. -/
def Unfit (c : Connection) (mode : OpenMode) : Prop := c.file = none ∧ mode ≠ .readWriteCreate

instance (c : Connection) (mode : OpenMode) : Decidable (Unfit c mode) :=
  inferInstanceAs (Decidable (_ ∧ _))

theorem unfit_iff {mode : OpenMode} : (Task.open mode).unfit c = true ↔ Unfit c mode := by
  cases mode <;> simp [Task.unfit, Unfit, Connection.isMemory]

/-- The intents are those of the mode. -/
structure Intends (mode : OpenMode) (flags : OpenFlags) : Prop where
  reading : flags.readOnly = true ↔ mode = .readOnly
  writing : flags.readWrite = true ↔ mode ≠ .readOnly
  creating : flags.create = true ↔ mode = .readWriteCreate

/-- An open for a mode may ask for this location with these intents: for memory where there is no
file, and then for writing with creation, and for something else where there is one. -/
structure Asked (c : Connection) (mode : OpenMode) (location : String) (flags : OpenFlags) :
    Prop where
  resolved : location = c.location
  intends : Intends mode flags
  memory : c.file = none → location = memoryLocation ∧ mode = .readWriteCreate
  file : c.file ≠ none → location ≠ memoryLocation

theorem asked_fit {mode : OpenMode} (absolute : c.directory.Absolute) (fit : ¬Unfit c mode) :
    Asked c mode c.location mode.flags where
  resolved := rfl
  intends := by cases mode <;> exact ⟨by decide, by decide, by decide⟩
  memory hf := ⟨by simp only [Connection.location, hf], by
    by_contra hmode
    exact fit ⟨hf, hmode⟩⟩
  file hf := by
    obtain ⟨file, hfile⟩ := Option.ne_none_iff_exists'.1 hf
    exact Connection.location_ne_memoryLocation hfile absolute

structure Connects (c : Connection) (mode : OpenMode) (κ : Course (Except Error Unit)) : Prop where
  refused : Unfit c mode →
    κ.exchanges = [] ∧ ∃ text, κ.result = .error (Error.ofFault (.misuse text))
  once : ¬Unfit c mode → ∃ location flags,
    κ.calls.filter EngineCall.isOpen = [.open location flags] ∧ Asked c mode location flags
  returned : ∀ err, κ.result = .error err → Returned κ.exchanges

/-- A connect goes as the open does that it begins with, which leaves the connection as it was, or
with a database. -/
theorem connect_course {mode : OpenMode} {exchanges : List Exchange} {o : Outcome} {s' : State}
    {e : E.State} (asks : Asks c t E e (phaseStart c t .initial (.open mode)) exchanges o s')
    (undisposed : s'.disposed = false) (closed : ∀ err, o.result = .error err → s'.handle = none) :
    (course E (c.connect t mode).run e .initial).exchanges = exchanges ∧
      (course E (c.connect t mode).run e .initial).result.map (fun _ => Reply.done) = o.result := by
  obtain ⟨e', hopen⟩ := asks.carryOut []
  have hmap := (carryOut_map (E := E.noting) Outcome.ofResult (c.openAs t mode).run (e, [])
    .initial).symm.trans hopen
  have hconnect := carryOut_connect (E := E.noting) c t mode (e, []) .initial
  rcases hopened : carryOut E.noting (c.openAs t mode).run (e, []) .initial with ⟨result, x⟩
  rw [hopened] at hmap hconnect
  obtain ⟨rfl, rfl⟩ := Prod.mk.inj hmap
  simp only [course, hconnect]
  cases result with
  | ok _ => exact ⟨rfl, rfl⟩
  | error err =>
    have hdrop : (carryOut E.noting (Connection.drop t) (e', exchanges) s').2
        = ((e', exchanges), s'.retire) := drop_unopened undisposed (closed err rfl) t _
    exact ⟨congrArg (fun x => x.1.2) hdrop, rfl⟩

theorem connect_connects (c : Connection) (absolute : c.directory.Absolute) (t : ThreadId)
    (mode : OpenMode) (e : E.State) :
    Connects c mode (course E (c.connect t mode).run e .initial) := by
  by_cases hunfit : Unfit c mode
  · obtain ⟨text, hstart⟩ := unfit_start (t := t) (s := .initial) (unfit_iff.2 hunfit)
    have hasks : Asks c t E e (phaseStart c t .initial (.open mode)) []
        ⟨.error (Error.ofFault (.misuse text)), none⟩ .initial := hstart ▸ .ends rfl
    obtain ⟨hexchanges, hresult⟩ := connect_course hasks rfl fun _ _ => rfl
    refine ⟨fun _ => ⟨hexchanges, text, ?_⟩, (absurd hunfit ·), fun _ _ => ?_⟩
    · cases h : (course E (c.connect t mode).run e .initial).result with
      | ok _ => rw [h] at hresult; cases hresult
      | error err => rw [h] at hresult; cases hresult; rfl
    · rw [Returned, hexchanges]
      rfl
  · have hstart : phaseStart c t .initial (.open mode) = openChunk c t mode.flags .initial :=
      fit_start (Bool.eq_false_iff.2 (mt unfit_iff.1 hunfit))
    obtain ⟨exchanges, o, s', hasks, hopened⟩ := open_asks (E := E) c t mode.flags e
    obtain ⟨hexchanges, hresult⟩ := connect_course (hstart ▸ hasks) hopened.undisposed
      fun _ => hopened.closed
    refine ⟨(absurd · hunfit), fun _ => ⟨_, _, ?_, asked_fit absolute hunfit⟩, fun err herr => ?_⟩
    · rw [Course.calls, hexchanges]
      exact hopened.once
    · rw [herr] at hresult
      rw [hexchanges]
      exact hopened.returned hresult.symm

/-! ## Steps of a scenario -/

/-- A step that connects to a URL carries out this connect, of a new connection, and nothing else
before it. -/
def ConnectsTo (url : String) (o : Options) : Prop :=
  ∀ (hooks : Scenario.HookRunner) (place : Scenario.Place) (slot : Nat) (w : Scenario.World),
    w.connections.contains slot = false →
    let c : Connection := ⟨w.built + 1, o.file, w.directory⟩
    (Scenario.carryOut hooks place (.connect slot url)).run w =
      match (Scenario.act hooks place c (c.connect place.thread o.mode).run).run
        { w with built := w.built + 1 } with
      | (.error e, w') => (.failed e, w')
      | (.ok (), w') => (.done, ((Scenario.settle hooks place slot c).run w').2)

theorem connect_connectsTo {url : String} {o : Options} (h : Options.parse url = .ok o) :
    ConnectsTo url o := by
  intro hooks place slot w free c
  simp only [Scenario.carryOut, Scenario.build, StateT.run_bind, StateT.run_get,
    StateT.run_modifyGet, pure_bind, free, h, Bool.false_eq_true, if_false]
  rcases (Scenario.act hooks place c (c.connect place.thread o.mode).run).run
    { w with built := w.built + 1 } with ⟨_ | _, w'⟩
  · rfl
  · rfl

theorem connect_unreadable {url : String} {e : Error} (h : Options.parse url = .error e)
    (hooks : Scenario.HookRunner) (place : Scenario.Place) (slot : Nat) (w : Scenario.World)
    (free : w.connections.contains slot = false) :
    (Scenario.carryOut hooks place (.connect slot url)).run w = (.failed e, w) := by
  simp only [Scenario.carryOut, StateT.run_bind, StateT.run_get, pure_bind, free, h]
  rfl

/-! ## Opens of all kinds -/

/-- **Opens ask for what was requested.** In every run a connection asks for its own location with
the intents of the mode, at the start of an open, and in a mode that its database does not have it
asks for nothing. A URL that cannot be read leads nowhere, and any other to one connect of a new
connection in its last mode, which asks likewise and keeps no database when it fails. -/
theorem opens_as_requested {e : E.State} {ls : List (Label E)} {w : World (programs c) E}
    (absolute : c.directory.Absolute) (run : Run (programs c) E e AnyStep ls w) :
    (∀ l t task location flags, w.Calls l t task (.open location flags) →
      (∃ a, l = .start t a) ∧ ∃ mode, task = .open mode ∧ Asked c mode location flags) ∧
    (∀ t mode, Unfit c mode → w.step (.start t (.open mode)) = some w ∧
      ∃ text, w.Ends (.start t (.open mode)) t (.open mode)
        ⟨.error (Error.ofFault (.misuse text)), none⟩) ∧
    (∀ t mode, ¬Unfit c mode → w.state.disposed = false → w.state.handle = none →
      bars w.state t = false →
      ∃ location flags, w.Calls (.start t (.open mode)) t (.open mode) (.open location flags)) ∧
    ∀ url, match Options.parse url with
      | .error e => ∀ hooks place slot (w : Scenario.World),
        w.connections.contains slot = false →
        (Scenario.carryOut hooks place (.connect slot url)).run w = (.failed e, w)
      | .ok o =>
        (∃ path text modes, '?' ∉ path ∧ Options.Spells url path modes ∧
          Utf8.decode (Percent.decode (Utf8.encode (String.ofList path))) = .ok text ∧
          o = ⟨Options.fileOf text, modes.getLast?.getD .readWriteCreate⟩) ∧
        ConnectsTo url o ∧
        ∀ (number : Nat) (directory : Path) (t : ThreadId) (F : Engine) (f : F.State),
          directory.Absolute →
          let c : Connection := ⟨number, o.file, directory⟩
          Connects c o.mode (course F (c.connect t o.mode).run f .initial) := by
  obtain ⟨v, rfl, -⟩ := run_programs_iff.1 run
  refine ⟨fun l t task location flags hcalls => ?_, fun t mode hunfit => ?_,
    fun t mode hfit undisposed closed admitted => ?_, fun url => ?_⟩
  · obtain ⟨hl, mode, rfl, hunfit, rfl, rfl⟩ := asked_open ((realize_calls v l t task _).1 hcalls)
    exact ⟨hl, mode, rfl, asked_fit absolute fun h => by simp [unfit_iff.2 h] at hunfit⟩
  · obtain ⟨hworld, text, hends⟩ := unfit_open (w := v) (t := t) (unfit_iff.2 hunfit)
    refine ⟨?_, text, (realize_ends v _ t _ _).2 hends⟩
    rw [step_realize]
    exact congrArg (fun u => some (World.realize u)) hworld
  · have hfit : (Task.open mode).unfit c = false := Bool.eq_false_iff.2 (mt unfit_iff.1 hfit)
    exact ⟨_, _, (realize_calls v _ t _ _).2 (fit_open hfit undisposed closed admitted)⟩
  · cases hparse : Options.parse url with
    | error e => exact fun _ _ _ _ free => connect_unreadable hparse _ _ _ _ free
    | ok o =>
      exact ⟨Options.parse_spells hparse, connect_connectsTo hparse,
        fun number directory t F f habsolute => connect_connects _ habsolute t o.mode f⟩

/-- A file that is called like a database in memory. -/
def namesake : Connection := ⟨1, some (.ofText memoryLocation), .ofText "/tmp"⟩

/-- It is opened as a file, and read only if so asked; memory itself is not opened like that, and a
URL that means memory cannot be used like that either. -/
theorem namesake_asks :
    (∃ location flags,
      (World.initial .initial : World (programs namesake) recording).Calls
        (.start ⟨0⟩ (.open .readOnly)) ⟨0⟩ (.open .readOnly) (.open location flags) ∧
      location ≠ memoryLocation ∧ Intends .readOnly flags) ∧
    (∃ path text modes,
      Options.Spells "sqlite://%3Amemory%3A?mode=rwc&mode=ro" path modes ∧
      Options.fileOf text = none ∧ modes.getLast?.getD .readWriteCreate = .readOnly) ∧
    let c : Connection := ⟨1, none, .ofText "/tmp"⟩
    ∃ text, (course recording (c.connect ⟨0⟩ .readOnly).run .initial .initial).result
      = .error (Error.ofFault (.misuse text)) := by
  have absolute : namesake.directory.bytes.head? = some Path.slash := by decide +kernel
  obtain ⟨hcalls, -, hfit, hurl⟩ := opens_as_requested (E := recording) absolute
    (.nil : Run (programs namesake) recording .initial AnyStep [] _)
  have hparse : Options.parse "sqlite://%3Amemory%3A?mode=rwc&mode=ro"
      = .ok ⟨none, .readOnly⟩ := by
    have hread : (Options.parse "sqlite://%3Amemory%3A?mode=rwc&mode=ro").toOption
        = some ⟨none, .readOnly⟩ := by decide +kernel
    cases h : Options.parse "sqlite://%3Amemory%3A?mode=rwc&mode=ro" with
    | error e =>
      rw [h] at hread
      cases hread
    | ok o =>
      rw [h] at hread
      cases hread
      rfl
  have hurl := hurl "sqlite://%3Amemory%3A?mode=rwc&mode=ro"
  rw [hparse] at hurl
  obtain ⟨⟨path, text, modes, -, hspells, -, hoptions⟩, -, hconnects⟩ := hurl
  obtain ⟨hfile, hlast⟩ := Options.mk.inj hoptions
  refine ⟨?_, ⟨path, text, modes, hspells, hfile.symm, hlast.symm⟩, ?_⟩
  · obtain ⟨location, flags, hopen⟩ :=
      hfit ⟨0⟩ .readOnly (by decide) rfl rfl rfl
    obtain ⟨-, mode, hmode, hasked⟩ := hcalls _ _ _ _ _ hopen
    cases hmode
    exact ⟨location, flags, hopen, hasked.file nofun, hasked.intends⟩
  · exact ((hconnects 1 _ ⟨0⟩ recording .initial absolute).refused (by decide)).2

end Interleaving

end ConfinedDb
