import ConfinedDb.Proofs.Confinement.Nesting
import ConfinedDb.Proofs.Opening.Requested
import ConfinedDb.Proofs.Solo.Course
/-!
# Opening, all or nothing

An open either installs the database that the engine has brought, and then the connection had none
and is confined to the thread of the open, or it fails and leaves the state as it was. What it asks
the engine after a code that is no success is the message and then, if a database came with the
code, the close of that; the error carries the code of the open. `Refuses` has the reasons for which
an open asks nothing, `Answered` the ways in which it goes on from the answer of the engine, and
**`open_atomic`** says that there are no others.

An open that fails gives up the claim with which it began, and only that. For this to lead back to
the state before, an owner must come with a database and a database with an owner (`Paired`). So it
is between the actions of a connection that carries out one action at a time (`paired_of_idle`), on
whatever threads: an open under way, or one that was nested in another, is what can part the two.
-/
namespace ConfinedDb.Interleaving

/-! ## The native open -/

/-- What an open asks the engine, its result and the state at the end: the one that `brought` says
for the database, or `left` when there is none or it came with a failure and was closed. -/
inductive Answered (c : Connection) (flags : OpenFlags) (left : State) (brought : DbHandle → State) :
    Course (Except Error Unit) → Prop
  | installed {db : DbHandle} {rc : ResultCode} (ok : rc.isOk = true) :
    Answered c flags left brought
      ⟨.ok (), [⟨.open c.location flags, (some db, rc)⟩], brought db⟩
  | missing {rc : ResultCode} (ok : rc.isOk = true) :
    Answered c flags left brought
      ⟨.error (Error.ofFault (.inconsistent "engine didn't return db handle")),
        [⟨.open c.location flags, (none, rc)⟩], left⟩
  | failed {db? : Option DbHandle} {rc : ResultCode} {answer : Except Error String}
    {code : ResultCode} (failed : rc.isOk = false) :
    Answered c flags left brought
      ⟨.error (Error.ofFault (openFault c rc answer.toOption)),
        ⟨.open c.location flags, (db?, rc)⟩ :: ⟨.errorMessage db?, answer⟩ ::
          db?.toList.map fun db => ⟨.close db, code⟩, left⟩

variable {c : Connection} {t : ThreadId} {E : Engine} {s : State}

theorem openFail_asks (claimed : Bool) (f : Fault) (notices : List Notice) (e : E.State) :
    Asks c t E e ((openFailChunk t claimed f s).after notices) [] (.ofResult (.error f))
      (if claimed then s.unclaim t else s) :=
  (Asks.ends rfl).after notices

theorem openFailed_asks (flags : OpenFlags) (rc : ResultCode) (db? : Option DbHandle)
    (claimed : Bool) (e : E.State) :
    ∃ (answer : Except Error String) (code : ResultCode),
      Asks c t E e (pause (.openFailed flags rc db? claimed) s)
        (⟨.errorMessage db?, answer⟩ :: db?.toList.map fun db => ⟨.close db, code⟩)
        (.ofResult (.error (Error.ofFault (openFault c rc answer.toOption))))
        (if claimed then s.unclaim t else s) := by
  obtain ⟨⟨answer : Except Error String, e₁⟩, hmessage⟩ :
      ∃ answered, E.answer e (.errorMessage db?) = answered := ⟨_, rfl⟩
  have hheard : (heard .opening answer).2 = answer.toOption := by cases answer <;> rfl
  refine ⟨answer, ?_⟩
  rw [← hheard]
  cases db? with
  | none =>
    exact ⟨.ok, .goes (q := .openFailed flags rc none claimed) rfl hmessage
      (openFail_asks claimed _ _ e₁)⟩
  | some db =>
    let cleanup := Phase.openCleanup flags rc db (heard .opening answer).2 claimed
    rcases hclose : E.answer e₁ (.close db) with ⟨code, e₂⟩
    have hlast : Asks c t E e₁ (pause cleanup s) [⟨.close db, code⟩] _ _ :=
      .goes (q := cleanup) rfl hclose (openFail_asks claimed _ _ e₂)
    exact ⟨code, .goes (q := .openFailed flags rc (some db) claimed) rfl hmessage
      (hlast.after _)⟩

theorem installed_asks (undisposed : s.disposed = false) (flags : OpenFlags) (claimed : Bool)
    {e e' : E.State} {db : DbHandle} {rc : ResultCode}
    (brings : E.answer e (.open c.location flags) = ((some db, rc), e')) (ok : rc.isOk = true) :
    Asks c t E e (pause (.opening flags claimed) s) [⟨.open c.location flags, (some db, rc)⟩]
      (.ofResult (.ok ())) (s.install db) := by
  have hresume : (Phase.opening flags claimed).resume c t (some db, rc) s
      = (finish .finished (s.install db)).after [.opened flags] := by
    simp [Phase.resume, ok, undisposed]
  have hlast : Asks c t E e' ((Phase.opening flags claimed).resume c t (some db, rc) s) [] _ _ :=
    hresume ▸ (Asks.ends rfl).after _
  exact .goes (q := .opening flags claimed) rfl brings hlast

theorem answered_asks (undisposed : s.disposed = false) (flags : OpenFlags) (claimed : Bool)
    (e : E.State) :
    ∃ κ, Answered c flags (if claimed then s.unclaim t else s) s.install κ ∧
      Asks c t E e (pause (.opening flags claimed) s) κ.exchanges (.ofResult κ.result) κ.state := by
  rcases hopen : E.answer e (.open c.location flags) with ⟨⟨db?, rc⟩, e₁⟩
  have hgoes : ∀ {exchanges o s'},
      Asks c t E e₁ ((Phase.opening flags claimed).resume c t (db?, rc) s) exchanges o s' →
      Asks c t E e (pause (.opening flags claimed) s)
        (⟨.open c.location flags, (db?, rc)⟩ :: exchanges) o s' :=
    fun h => .goes (q := .opening flags claimed) rfl hopen h
  by_cases hok : rc.isOk
  · cases db? with
    | some db => exact ⟨_, .installed hok, installed_asks undisposed flags claimed hopen hok⟩
    | none =>
      have hresume : (Phase.opening flags claimed).resume c t (none, rc) s
          = (openFailChunk t claimed (.inconsistent "engine didn't return db handle") s).after
            [] := by
        simp [Phase.resume, hok]
      exact ⟨_, .missing hok, hgoes (hresume ▸ openFail_asks claimed _ [] e₁)⟩
  · have hresume : (Phase.opening flags claimed).resume c t (db?, rc) s
        = pause (.openFailed flags rc db? claimed) s := by
      simp [Phase.resume, hok]
    obtain ⟨answer, code, hrest⟩ := openFailed_asks flags rc db? claimed e₁
    exact ⟨_, .failed (by simpa using hok), hgoes (hresume.symm ▸ hrest)⟩

/-! ## States without an open under way -/

def Paired (s : State) : Prop := s.owner.isSome = s.handle.isSome

/-- Why an open on thread `t` is refused, and with which fault. -/
inductive Refuses (c : Connection) (t : ThreadId) (mode : OpenMode) (s : State) : Fault → Prop
  | unfit (text : String) (unfit : (Task.open mode).unfit c = true) :
    Refuses c t mode s (.misuse text)
  | disposed (disposed : s.disposed = true) :
    Refuses c t mode s (.misuse "cannot reopen closed connection")
  | alien {owner : ThreadId} (owner_eq : s.owner = some owner) (alien : t ≠ owner) :
    Refuses c t mode s (.confinementViolated
      s!"{c.label} confined({owner.display}) used({t.display})")
  | opened (owner_eq : s.owner = some t) (opened : s.handle.isSome = true) :
    Refuses c t mode s (.misuse s!"{c.label} already opened")

/-- How an open goes on thread `t` in the state `s`: it is refused and asks nothing, or there was
no database and the engine's answer decides. -/
inductive Opens (c : Connection) (t : ThreadId) (mode : OpenMode) (s : State) :
    Course (Except Error Unit) → Prop
  | refused {f : Fault} (refuses : Refuses c t mode s f) :
    Opens c t mode s ⟨.error (Error.ofFault f), [], s⟩
  | answered {κ : Course (Except Error Unit)} (undisposed : s.disposed = false)
    (closed : s.handle = none)
    (answered : Answered c mode.flags s
      (fun db => { s with handle := some db, owner := some t }) κ) :
    Opens c t mode s κ

/-- A failed open leaves the state as it was. -/
theorem Opens.unchanged {mode : OpenMode} {κ : Course (Except Error Unit)} {err : Error}
    (h : Opens c t mode s κ) (failed : κ.result = .error err) : κ.state = s := by
  cases h with
  | refused => rfl
  | answered _ _ answered =>
    cases answered with
    | installed => cases failed
    | missing => rfl
    | failed => rfl

/-- The claim of an open that finds no owner is given up without a trace. -/
theorem unclaim_claim (undisposed : s.disposed = false) (free : s.owner = none) :
    (s.claim t).unclaim t = s := by
  obtain ⟨handle, disposed, owner, statements, cache⟩ := s
  obtain rfl : disposed = false := undisposed
  obtain rfl : owner = none := free
  simp [State.claim, State.unclaim]

/-- An open that finds neither an owner nor a database. -/
theorem openChunk_free (undisposed : s.disposed = false) (free : s.owner = none)
    (closed : s.handle = none) (flags : OpenFlags) :
    openChunk c t flags s = (pause (.opening flags true) (s.claim t)).after [.confined t] ∧
      ∀ db, (s.claim t).install db = { s with handle := some db, owner := some t } := by
  refine ⟨by simp [openChunk, permit, undisposed, free, closed], fun db => ?_⟩
  simp [State.claim, State.install, undisposed, free]

theorem openChunk_opens (paired : Paired s) (mode : OpenMode) (e : E.State) :
    ∃ κ, Opens c t mode s κ ∧
      Asks c t E e (openChunk c t mode.flags s) κ.exchanges (.ofResult κ.result) κ.state := by
  by_cases hd : s.disposed
  · have hclaim : s.claim t = s := if_pos (.inl hd)
    exact ⟨_, .refused (.disposed hd), by simpa [openChunk, hd, hclaim] using .ends rfl⟩
  have hd : s.disposed = false := by simpa using hd
  cases ho : s.owner with
  | none =>
    have hh : s.handle = none := by
      have hnone : s.handle.isSome = false := paired.symm.trans (by simp [ho])
      simpa using hnone
    obtain ⟨hstart, hbrought⟩ := openChunk_free (c := c) (t := t) hd ho hh mode.flags
    obtain ⟨κ, hanswered, hasks⟩ := answered_asks (c := c) (t := t) (s := s.claim t)
      (by simpa using hd) mode.flags true e
    rw [if_pos rfl, unclaim_claim hd ho, funext hbrought] at hanswered
    exact ⟨κ, .answered hd hh hanswered, hstart ▸ hasks.after _⟩
  | some owner =>
    have hclaim : s.claim t = s := claim_owned (by simp [ho]) t
    have hh : s.handle.isSome = true := paired.symm.trans (by simp [ho])
    by_cases ht : t = owner
    · subst ht
      have hstart : openChunk c t mode.flags s
          = (finish (.ofResult (.error (Error.ofFault (.misuse s!"{c.label} already opened"))))
              s).after [.alreadyOpened] := by
        simp [openChunk, permit, Connection.checkOwner, hd, ho, hh, hclaim]
        rfl
      exact ⟨_, .refused (.opened ho hh), hstart ▸ (Asks.ends rfl).after _⟩
    · have hstart : openChunk c t mode.flags s
          = finish (.ofResult (.error (Error.ofFault (.confinementViolated
              s!"{c.label} confined({owner.display}) used({t.display})")))) s := by
        simp [openChunk, permit, Connection.checkOwner, hd, ho, ht, hclaim]
        rfl
      exact ⟨_, .refused (.alien ho ht), hstart ▸ .ends rfl⟩

theorem open_asked (paired : Paired s) (mode : OpenMode) (e : E.State) :
    ∃ κ, Opens c t mode s κ ∧
      Asks c t E e (phaseStart c t s (.open mode)) κ.exchanges (.ofResult κ.result) κ.state := by
  cases hunfit : (Task.open mode).unfit c with
  | true =>
    obtain ⟨text, hstart⟩ := unfit_start (t := t) (s := s) hunfit
    exact ⟨_, .refused (.unfit text hunfit), hstart ▸ .ends rfl⟩
  | false => exact fit_start (t := t) (s := s) hunfit ▸ openChunk_opens paired mode e

theorem ofResult_injective {result result' : Except Error Unit}
    (h : Outcome.ofResult result = Outcome.ofResult result') : result = result' := by
  cases result <;> cases result' <;> cases h <;> rfl

theorem Asks.openAs {mode : OpenMode} {e : E.State} {κ : Course (Except Error Unit)}
    (h : Asks c t E e (phaseStart c t s (.open mode)) κ.exchanges (.ofResult κ.result) κ.state) :
    Interleaving.course E (c.openAs t mode).run e s = κ := by
  have hcourse := h.course
  rw [show (Task.open mode).operation c t = Outcome.ofResult <$> (c.openAs t mode).run from rfl,
    course_map] at hcourse
  injection hcourse with hresult hexchanges hstate
  obtain ⟨result, exchanges, state⟩ := κ
  exact Course.mk.injEq .. ▸ ⟨ofResult_injective hresult, hexchanges, hstate⟩

/-- An open in a paired state is one of these. -/
theorem course_opens (paired : Paired s) (t : ThreadId) (mode : OpenMode) (e : E.State) :
    Opens c t mode s (course E (c.openAs t mode).run e s) := by
  obtain ⟨κ, hopens, hasks⟩ := open_asked (c := c) (t := t) paired mode e
  exact hasks.openAs ▸ hopens

/-- The database that the engine brings is installed on any thread. -/
theorem course_installs (paired : Paired s) (undisposed : s.disposed = false)
    (closed : s.handle = none) {mode : OpenMode} (fit : (Task.open mode).unfit c = false)
    {e e' : E.State} {db : DbHandle} {rc : ResultCode}
    (brings : E.answer e (.open c.location mode.flags) = ((some db, rc), e'))
    (ok : rc.isOk = true) :
    course E (c.openAs t mode).run e s
      = ⟨.ok (), [⟨.open c.location mode.flags, (some db, rc)⟩],
          { s with handle := some db, owner := some t }⟩ := by
  have free : s.owner = none := by
    have hnone : s.owner.isSome = false := paired.trans (by simp [closed])
    simpa using hnone
  obtain ⟨hstart, hbrought⟩ := openChunk_free (c := c) (t := t) undisposed free closed mode.flags
  have hasks := installed_asks (t := t) (s := s.claim t) (by simpa using undisposed)
    mode.flags true brings ok
  rw [hbrought] at hasks
  exact Asks.openAs (κ := ⟨.ok (), _, _⟩) (fit_start fit ▸ hstart ▸ hasks.after _)

/-! ## One action at a time -/

/-- In this step no action starts while another one is under way. -/
def Alternating {M : Machine} {E : Engine} (w : World M E) (l : Label E) (_ : World M E) : Prop :=
  ∀ t a, l = .start t a → w.frames = []

instance {M : Machine} {E : Engine} (w : World M E) (l : Label E) (w' : World M E) :
    Decidable (Alternating w l w') :=
  inferInstanceAs (Decidable (∀ t a, l = .start t a → w.frames = []))

theorem realize_alternating (w : World (phases c) E) (l : Label E) (w' : World (phases c) E) :
    Alternating w.realize l w'.realize ↔ Alternating w l w' := by
  simp [Alternating]

/-- Between two actions there is an owner exactly if there is a database. -/
theorem paired_of_idle {e : E.State} {ls : List (Label E)} {w : World (phases c) E}
    (run : Run (phases c) E e Alternating ls w) (idle : w.frames = []) : Paired w.state := by
  have hflat : Run (phases c) E e NoNesting ls w :=
    run_mono (fun u l _ h t mode hl f hf => by simp [h t _ hl] at hf) run
  by_cases hd : w.state.disposed
  · have hretired := (run_final run).retired hd
    simp [Paired, hretired.handle, hretired.owner]
  · have hposts : w.posts = [] := by simp [World.posts, idle]
    have howned := (run_owned (run_unrevoked hflat).1).owned (by simpa using hd)
    cases hh : w.state.handle with
    | some db =>
      obtain ⟨t, ho, -⟩ := howned.owner db hh
      simp [Paired, hh, ho]
    | none =>
      have hfree : w.state.owner.isSome = false := by
        by_contra ho
        obtain ⟨f, hf, -⟩ := howned.held hh (Bool.not_eq_false _ ▸ ho)
        simp [hposts] at hf
      simp [Paired, hh, hfree]

/-- An open fails, on some thread and with some engine, and takes the first state to the second. -/
def FailedOpen (c : Connection) (s s' : State) : Prop :=
  ∃ (t : ThreadId) (mode : OpenMode) (F : Engine) (f : F.State) (err : Error),
    (course F (c.openAs t mode).run f s).result = .error err ∧
    (course F (c.openAs t mode).run f s).state = s'

theorem failedOpens_unchanged {s' : State} (paired : Paired s)
    (h : Relation.ReflTransGen (FailedOpen c) s s') : s' = s := by
  induction h with
  | refl => rfl
  | tail _ hfails ih =>
    subst ih
    obtain ⟨t, mode, F, f, err, hresult, rfl⟩ := hfails
    exact (course_opens paired t mode f).unchanged hresult

/-- **Between two actions an open either fails and leaves the whole state as it was, having closed
whatever came with the failure, or installs the database that the engine has brought on the thread
of the open. So after any number of failed opens, on whatever threads, every thread can open the
connection, as soon as the engine brings a database.** -/
theorem open_atomic {e : E.State} {ls : List (Label E)} {w : World (programs c) E}
    (run : Run (programs c) E e Alternating ls w) (idle : w.frames = []) :
    (∀ (t : ThreadId) (mode : OpenMode) (F : Engine) (f : F.State),
      Opens c t mode w.state (course F (c.openAs t mode).run f w.state)) ∧
    ∀ s', Relation.ReflTransGen (FailedOpen c) w.state s' →
      s' = w.state ∧
      (w.state.disposed = false → w.state.handle = none →
        ∀ (t : ThreadId) (mode : OpenMode), (Task.open mode).unfit c = false →
        ∀ (F : Engine) (f f' : F.State) (db : DbHandle) (rc : ResultCode),
          F.answer f (.open c.location mode.flags) = ((some db, rc), f') → rc.isOk = true →
          course F (c.openAs t mode).run f s'
            = ⟨.ok (), [⟨.open c.location mode.flags, (some db, rc)⟩],
                { w.state with handle := some db, owner := some t }⟩) := by
  obtain ⟨v, rfl, hv⟩ := (run_programs_congr realize_alternating).1 run
  have paired : Paired v.state := paired_of_idle hv (by simpa using idle)
  refine ⟨fun t mode F f => course_opens paired t mode f, fun s' hfailed => ?_⟩
  obtain rfl : s' = v.state := failedOpens_unchanged paired hfailed
  exact ⟨rfl, fun undisposed closed t mode fit F f f' db rc =>
    course_installs (s := v.state) paired undisposed closed fit⟩

/-! ## A failed open and the next one -/

def failingOpen : RecordingEngine := RecordingEngine.initial.fail .open ⟨14⟩

/-- A thread opens the connection on this engine. -/
def openedInVain : List (Label recording) :=
  [.drift failingOpen, .start ⟨0⟩ (.open .readWriteCreate), .act 0, .resume 0, .act 0, .resume 0,
    .act 0, .resume 0]

/-- After one more failure another thread opens it. -/
theorem openedInVain_opens :
    ∃ w, Run (programs inMemory) recording .initial Alternating openedInVain w ∧ w.frames = [] ∧
      FailedOpen inMemory w.state w.state ∧
      Opens inMemory ⟨1⟩ .readWriteCreate w.state
        (course recording (inMemory.openAs ⟨1⟩ .readWriteCreate).run failingOpen w.state) ∧
      course recording (inMemory.openAs ⟨1⟩ .readWriteCreate).run .initial w.state
        = ⟨.ok (),
            [⟨.open memoryLocation OpenMode.readWriteCreate.flags, (some ⟨8, by decide⟩, .ok)⟩],
            { w.state with handle := some ⟨8, by decide⟩, owner := some ⟨1⟩ }⟩ := by
  obtain ⟨w, run, hw⟩ := exists_run (M := programs inMemory) (e := RecordingEngine.initial)
    Alternating openedInVain
    (fun w => w.frames.isEmpty ∧ w.state = .initial) (by decide +kernel)
  simp only [decide_eq_true_eq, List.isEmpty_iff] at hw
  obtain ⟨idle, hstate⟩ := hw
  have hfails : FailedOpen inMemory w.state w.state := by
    rw [hstate]
    exact ⟨⟨0⟩, .readWriteCreate, recording, failingOpen, _, rfl, rfl⟩
  obtain ⟨hopens, hagain⟩ := open_atomic run idle
  obtain ⟨-, hinstalls⟩ := hagain _ (.single hfails)
  refine ⟨w, run, idle, hfails, hopens _ _ recording _, ?_⟩
  exact hinstalls (by rw [hstate]; rfl) (by rw [hstate]; rfl) ⟨1⟩ .readWriteCreate rfl recording
    .initial _ ⟨8, by decide⟩ .ok rfl rfl

end ConfinedDb.Interleaving
