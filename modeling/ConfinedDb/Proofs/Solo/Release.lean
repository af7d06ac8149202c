import ConfinedDb.Proofs.Reuse.Handover
import ConfinedDb.Proofs.Solo.Course
import ConfinedDb.Proofs.Spent.Undisposed
/-!
# What a release asks and leaves

A statement is released on the thread that owns the connection while nothing else is in progress.
Which calls on the statement the engine gets is decided by the lending, the two flags, the answers
to the calls that come first, and whether the text is served (`ReleaseCalls.Due`); what is left is
decided by whether the last of them was a finalization (`Leaves`): the handle is idle under its
text and has kept its place in the registry, or it is in neither. The engine is any engine, so the
answers are any answers.

The phases of a release are gone through from the last to the first: `finalize_asks` and
`shelve_asks` for what ends it, `unbind_asks` and `release_asks` for what comes before.
-/
namespace ConfinedDb.Interleaving

/-! ## The law -/

/-- The codes that the calls of a release were answered with, as far as they were made. -/
structure ReleaseCalls where
  rewound : Option ResultCode
  unbound : Option ResultCode
  finalized : Option ResultCode

def failed : Option ResultCode → Bool
  | some rc => !rc.isOk
  | none => false

namespace ReleaseCalls

def exchanges (r : ReleaseCalls) (h : StmtHandle) : List Exchange :=
  r.rewound.toList.map (⟨.reset h, ·⟩) ++ r.unbound.toList.map (⟨.clearBindings h, ·⟩) ++
    r.finalized.toList.map (⟨.finalize h, ·⟩)

/-- Which calls the release of a statement makes. -/
structure Due (r : ReleaseCalls) (st : Statement) (s : State) : Prop where
  rewound : r.rewound.isSome ↔ st.lending = .cached ∧ st.hasStepped
  unbound : r.unbound.isSome ↔
    st.lending = .cached ∧ st.hasBindings ∧ failed r.rewound = false
  finalized : r.finalized.isSome ↔
    st.lending = .uncached ∨ failed r.rewound ∨ failed r.unbound ∨
      (s.cache.get? st.sql).isSome

end ReleaseCalls

/-- A statement has become the idle one of its text and nothing else has changed. -/
structure Shelved (h : StmtHandle) (sql : String) (s s' : State) : Prop
    extends SameDatabase s s' where
  entry : (h, sql) ∈ s'.statements.toList
  statements : s'.statements = s.statements
  cache : ∀ text, s'.cache.get? text = if text = sql then some h else s.cache.get? text

/-- A statement is neither registered nor idle and nothing else has changed. -/
structure Forgotten (h : StmtHandle) (s s' : State) : Prop extends SameDatabase s s' where
  statements : s'.statements.toList = s.statements.toList.filter (·.1 ≠ h)
  cache : s'.cache = s.cache
  uncached : ∀ text, s'.cache.get? text ≠ some h

/-- What is left of a released statement, by whether it was finalized. -/
def Leaves (h : StmtHandle) (sql : String) (s s' : State) : Option ResultCode → Prop
  | none => Shelved h sql s s'
  | some _ => Forgotten h s s'

def onStatements (exchanges : List Exchange) : List Exchange :=
  exchanges.filter (·.call.statement?.isSome)

/-! ## Phase by phase -/

/-- A statement is in the hands of a user of an open connection. -/
structure InUse (t : ThreadId) (db : DbHandle) (h : StmtHandle) (sql : String) (s : State) : Prop
    extends Serving t db s where
  entry : s.statements.get? h = some sql
  uncached : ∀ text, s.cache.get? text ≠ some h

variable {c : Connection} {t : ThreadId} {E : Engine} {db : DbHandle} {h : StmtHandle}
  {sql : String} {s : State}

namespace InUse

theorem forgotten (i : InUse t db h sql s) : Forgotten h s (s.forget h sql) := by
  have hs : s.forget h sql = { s with statements := s.statements.remove h } :=
    State.forget_eq i.undisposed (i.uncached sql)
  exact {
    SameDatabase.forget s h sql with
    statements := by
      rw [hs]
      rfl
    cache := by rw [hs]
    uncached := fun text hg => i.uncached text (forget_idle hg) }

theorem shelved (i : InUse t db h sql s) (free : s.cache.get? sql = none) :
    Shelved h sql s (s.shelve h sql) where
  toSameDatabase := .shelve s h sql
  entry := by
    rw [shelve_statements]
    exact (s.statements.table.mem_entries_iff h sql).2 i.entry
  statements := shelve_statements s h sql
  cache text := by
    rw [i.shelve_get?, free]
    rfl

theorem finalize_asks (i : InUse t db h sql s) (e : E.State) :
    ∃ rc, Asks c t E e (finalizeChunk h sql s) [⟨.finalize h, rc⟩] .finished (s.forget h sql) := by
  refine ⟨(E.answer e (.finalize h)).1, ?_⟩
  simp only [finalizeChunk, i.abandoned, Bool.false_eq_true, if_false]
  exact .goes (q := .finalizing h sql) rfl rfl ((Asks.ends rfl).after _)

theorem fail_asks (i : InUse t db h sql s) (e : E.State) (c' : Connection) (code : ResultCode)
    (operation : String) :
    ∃ answer rc, Asks c t E e (failChunk c' code operation none (.discard h sql) s)
      [⟨.errorMessage (some db), answer⟩, ⟨.finalize h, rc⟩] .finished (s.forget h sql) := by
  obtain ⟨rc, hfinal⟩ := i.finalize_asks (c := c) (E.answer e (.errorMessage (some db))).2
  refine ⟨(E.answer e (.errorMessage (some db))).1, rc, ?_⟩
  simp only [failChunk, i.handle]
  exact .goes (q := .failing c' db code operation none (.discard h sql)) rfl rfl
    ((hfinal.after _).after _)

/-- A statement that is ready is shelved, unless its text is served. -/
theorem shelve_asks (i : InUse t db h sql s) (e : E.State) :
    ∃ (finalized : Option ResultCode) (s' : State),
      Asks c t E e (shelveChunk h sql s) (finalized.toList.map (⟨.finalize h, ·⟩)) .finished s' ∧
      (finalized.isSome ↔ (s.cache.get? sql).isSome) ∧ Leaves h sql s s' finalized := by
  simp only [shelveChunk, i.isOpen, if_true, Cache.verdict]
  cases hg : s.cache.get? sql with
  | none => exact ⟨none, s.shelve h sql, .ends rfl, by simp, i.shelved hg⟩
  | some holder =>
    have hne : holder ≠ h := fun heq => i.uncached sql (heq ▸ hg)
    have hs : s.shelve h sql = s := by
      simp [State.shelve, i.isOpen, Cache.offer, hg]
    obtain ⟨rc, hfinal⟩ := i.finalize_asks (c := c) (E := E) e
    simp only [hne, if_false, hs]
    exact ⟨some rc, _, hfinal.after _, by simp, i.forgotten⟩

/-- The parameters are dropped first, if the flag says that there may be any. -/
theorem unbind_asks (i : InUse t db h sql s) (e : E.State) (c' : Connection)
    (hasBindings : Bool) :
    ∃ (unbound finalized : Option ResultCode) (exchanges : List Exchange) (s' : State),
      Asks c t E e (unbindChunk c' h sql hasBindings s) exchanges .finished s' ∧
      onStatements exchanges = unbound.toList.map (⟨.clearBindings h, ·⟩) ++
        finalized.toList.map (⟨.finalize h, ·⟩) ∧
      (unbound.isSome ↔ hasBindings) ∧
      (finalized.isSome ↔ failed unbound ∨ (s.cache.get? sql).isSome) ∧
      Leaves h sql s s' finalized := by
  cases hasBindings with
  | false =>
    obtain ⟨finalized, s', hasks, hdue, hsettled⟩ := i.shelve_asks (c := c) (E := E) e
    refine ⟨none, finalized, _, s', hasks, ?_, by simp, by simpa [failed] using hdue, hsettled⟩
    cases finalized <;> rfl
  | true =>
    let rc := (E.answer e (.clearBindings h)).1
    let e' := (E.answer e (.clearBindings h)).2
    by_cases hok : rc.isOk
    · obtain ⟨finalized, s', hasks, hdue, hsettled⟩ := i.shelve_asks (c := c) (E := E) e'
      have hgoes : Asks c t E e (unbindChunk c' h sql true s)
          (⟨.clearBindings h, rc⟩ :: finalized.toList.map (⟨.finalize h, ·⟩)) .finished s' := by
        have hresume : (Phase.unbinding c' h sql).resume c t rc s = shelveChunk h sql s :=
          if_pos hok
        exact .goes (q := .unbinding c' h sql) rfl rfl (hresume.symm ▸ hasks)
      refine ⟨some rc, finalized, _, s', hgoes, ?_, by simp, by simpa [failed, hok] using hdue,
        hsettled⟩
      cases finalized <;> rfl
    · obtain ⟨answer, code, hasks⟩ :=
        i.fail_asks (c := c) (E := E) e' c' rc "clearBindings()"
      have hgoes : Asks c t E e (unbindChunk c' h sql true s)
          [⟨.clearBindings h, rc⟩, ⟨.errorMessage (some db), answer⟩, ⟨.finalize h, code⟩]
          .finished (s.forget h sql) := by
        have hresume : (Phase.unbinding c' h sql).resume c t rc s
            = failChunk c' rc "clearBindings()" none (.discard h sql) s := if_neg hok
        exact .goes (q := .unbinding c' h sql) rfl rfl (hresume.symm ▸ hasks)
      exact ⟨some rc, some code, _, _, hgoes, rfl, by simp, by simp [failed, hok], i.forgotten⟩

end InUse

/-- **What a release asks and leaves, phase by phase.** -/
theorem release_asks {st : Statement} (i : InUse t db st.handle st.sql s) (e : E.State) :
    ∃ (r : ReleaseCalls) (exchanges : List Exchange) (s' : State),
      Asks c t E e (releaseChunk t st s) exchanges .finished s' ∧
      onStatements exchanges = r.exchanges st.handle ∧ r.Due st s ∧
      Leaves st.handle st.sql s s' r.finalized := by
  have hreg : s.statements.contains st.handle = true := by
    rw [Registry.contains_eq, i.entry]
    rfl
  simp only [releaseChunk, i.permit, hreg, if_true]
  cases hlending : st.lending with
  | uncached =>
    obtain ⟨rc, hasks⟩ := i.finalize_asks (c := c) (E := E) e
    exact ⟨⟨none, none, some rc⟩, _, _, hasks, rfl,
      ⟨by simp [hlending], by simp [hlending], by simp [hlending]⟩, i.forgotten⟩
  | cached =>
    by_cases hstep : st.hasStepped
    · let rewinding := Phase.rewinding st.connection st.handle st.sql st.hasBindings
      let rc := (E.answer e (.reset st.handle)).1
      let e' := (E.answer e (.reset st.handle)).2
      simp only [hstep, if_true]
      by_cases hok : rc.isOk
      · obtain ⟨unbound, finalized, exchanges, s', hasks, hcalls, hunbound, hfinal, hsettled⟩ :=
          i.unbind_asks (c := c) (E := E) e' st.connection st.hasBindings
        have hgoes : Asks c t E e (pause rewinding s)
            (⟨.reset st.handle, rc⟩ :: exchanges) .finished s' := by
          have hresume : rewinding.resume c t rc s
              = unbindChunk st.connection st.handle st.sql st.hasBindings s := if_pos hok
          exact .goes (q := rewinding) rfl rfl (hresume.symm ▸ hasks)
        exact ⟨⟨some rc, unbound, finalized⟩, _, s', hgoes, congrArg (List.cons _) hcalls,
          ⟨by simp [hlending, hstep], by simp [hlending, hunbound, failed, hok],
            by simp [hlending, hfinal, failed, hok]⟩, hsettled⟩
      · obtain ⟨answer, code, hasks⟩ :=
          i.fail_asks (c := c) (E := E) e' st.connection rc "reset()"
        have hgoes : Asks c t E e (pause rewinding s)
            [⟨.reset st.handle, rc⟩, ⟨.errorMessage (some db), answer⟩, ⟨.finalize st.handle, code⟩]
            .finished (s.forget st.handle st.sql) := by
          have hresume : rewinding.resume c t rc s
              = failChunk st.connection rc "reset()" none (.discard st.handle st.sql) s :=
            if_neg hok
          exact .goes (q := rewinding) rfl rfl (hresume.symm ▸ hasks)
        exact ⟨⟨some rc, none, some code⟩, _, _, hgoes, rfl,
          ⟨by simp [hlending, hstep], by simp [failed, hok], by simp [failed, hok]⟩,
          i.forgotten⟩
    · simp only [hstep, Bool.false_eq_true, if_false]
      obtain ⟨unbound, finalized, exchanges, s', hasks, hcalls, hunbound, hfinal, hsettled⟩ :=
        i.unbind_asks (c := c) (E := E) e st.connection st.hasBindings
      exact ⟨⟨none, unbound, finalized⟩, exchanges, s', hasks, hcalls,
        ⟨by simp [hstep], by simp [hlending, hunbound, failed],
          by simp [hlending, hfinal, failed]⟩, hsettled⟩

/-! ## Reachable connections -/

theorem realize_mintsFresh (w : World (phases c) E) (l : Label E) (w' : World (phases c) E) :
    MintsFresh w.realize l w'.realize ↔ MintsFresh w l w' := Iff.rfl

/-- The statements of users of an open connection are in use. -/
theorem inUse_of_run {e : E.State} {ls : List (Label E)} {w : World (phases c) E}
    (run : Run (phases c) E e MintsFresh ls w) (opened : w.state.handle = some db)
    (owner : w.state.owner = some t) {n : Nat} {st : Statement}
    (lent : w.statements.get? n = some st) : InUse t db st.handle st.sql w.state := by
  have hd : w.state.disposed = false :=
    undisposed_of_handle (run_drains run).closed (opened ▸ rfl)
  have hp : w.users.Perm (st.entry :: (w.statements.erase n).values.map Statement.entry) :=
    ((Table.entries_perm lent).map Prod.snd).map Statement.entry
  have b := (booked_of_undisposed run hd).perm hp (.refl _)
  exact ⟨⟨opened, hd, owner⟩, b.named hd st.entry List.mem_cons_self, b.not_cached hd⟩

/-- **A release on the owner's thread, with nothing else in progress, rewinds the statement and
drops its parameters as its flags say, finalizes it if it cannot be kept, and leaves it idle or
gone.** -/
theorem release_settles {e : E.State} {ls : List (Label E)} {w : World (programs c) E}
    (run : Run (programs c) E e MintsFresh ls w) (idle : w.frames = [])
    (opened : w.state.handle = some db) (owner : w.state.owner = some t) {n : Nat}
    {st : Statement} (lent : w.statements.get? n = some st) (F : Engine) (f : F.State) :
    ∃ r : ReleaseCalls,
      onStatements (course F (st.release t) f w.state).exchanges = r.exchanges st.handle ∧
      r.Due st w.state ∧
      Leaves st.handle st.sql w.state (course F (st.release t) f w.state).state r.finalized := by
  obtain ⟨v, rfl, hv⟩ := (run_programs_congr realize_mintsFresh).1 run
  have i := inUse_of_run hv opened owner lent
  obtain ⟨r, exchanges, s', hasks, hcalls, hdue, hsettled⟩ :=
    release_asks (c := c) (E := F) i f
  have hcourse : course F ((fun _ => Outcome.finished) <$> st.release t) f v.state
      = ⟨.finished, exchanges, s'⟩ :=
    show course F ((Task.use n st .release).operation c t) f v.state = _ from hasks.course
  rw [course_map] at hcourse
  injection hcourse with _ hexchanges hstate
  refine ⟨r, ?_, hdue, ?_⟩
  · rw [World.realize_state, hexchanges, hcalls]
  · rw [World.realize_state, hstate]
    exact hsettled

/-! ## A release into a text that is served -/

/-- A thread lends two statements of one text, steps the second and releases the first. -/
def lentTwice : List (Label recording) :=
  let t : ThreadId := ⟨0⟩
  [.start t (.open .readWriteCreate), .act 0, .resume 0,
    .start t (.prepare "SELECT 1" .cached), .act 0, .resume 0,
    .start t (.prepare "SELECT 1" .cached), .act 0, .resume 0,
    .start t (.use 1 .step), .act 0, .resume 0, .start t (.use 0 .release)]

/-- The second statement is rewound and then finalized, and the first stays idle. -/
theorem lentTwice_settles :
    ∃ w st, ∃ r : ReleaseCalls,
      Run (programs inMemory) recording .initial MintsFresh lentTwice w ∧
      w.frames = [] ∧ w.state.handle = some ⟨8, by decide⟩ ∧ w.state.owner = some ⟨0⟩ ∧
      w.statements.get? 1 = some st ∧
      onStatements (course recording (st.release ⟨0⟩) w.engine w.state).exchanges
        = r.exchanges st.handle ∧
      r.Due st w.state ∧
      Leaves st.handle st.sql w.state (course recording (st.release ⟨0⟩) w.engine w.state).state
        r.finalized ∧
      (course recording (st.release ⟨0⟩) w.engine w.state).calls
        = [.reset st.handle, .finalize st.handle] := by
  let st : Statement := ⟨inMemory, .cached, ⟨24, by decide⟩, "SELECT 1", false, true, true⟩
  obtain ⟨w, run, hw⟩ := exists_run (M := programs inMemory) (e := RecordingEngine.initial)
    MintsFresh lentTwice
    (fun w => w.frames.isEmpty ∧ w.state.handle = some ⟨8, by decide⟩ ∧
      w.state.owner = some ⟨0⟩ ∧ w.statements.get? 1 = some st ∧
      (course recording (st.release ⟨0⟩) w.engine w.state).calls
        = [.reset st.handle, .finalize st.handle]) (by decide +kernel)
  simp only [decide_eq_true_eq, List.isEmpty_iff] at hw
  obtain ⟨idle, opened, owner, lent, hcalls⟩ := hw
  obtain ⟨r, hexchanges, hdue, hsettled⟩ :=
    release_settles run idle opened owner lent recording w.engine
  exact ⟨w, st, r, run, idle, opened, owner, lent, hexchanges, hdue, hsettled, hcalls⟩

end ConfinedDb.Interleaving
