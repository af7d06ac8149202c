import ConfinedDb.Proofs.Reuse.Handover
import ConfinedDb.Proofs.Reuse.Session
/-!
# The cache cannot be observed

What a user has in front of him is a desk with sheets (`Desk`): no handles, no registry, no cache.
Every command has its result and its effect there (`Desk.perform`), and a session on an open
connection does the same (**`perform_desk`**), whatever its policy is. So two sessions that begin
with the same open connection and carry out the same commands show the same, even if one lends every
statement from the cache and the other none (**`cache_unobservable`**).

The invariant (`Fit`) is about where the handles are: each is in one place at most, in the hands of
the user or idle (`Place`), and the engine has an idle one blank. A command changes the place of one
handle only (`Beside`), so for each command only that handle has to be looked at.
-/
namespace ConfinedDb.Interleaving

/-! ## Desks -/

/-- What a user has. -/
structure Desk where
  lent : Nat
  sheets : Nat → Option Sheet

namespace Desk

def put (d : Desk) (n : Nat) (sheet? : Option Sheet) : Desk :=
  { d with sheets := fun k => if k = n then sheet? else d.sheets k }

def perform (d : Desk) : Command → Option (Except Error Reply) × Desk
  | .prepare sql => (some (.ok .done), { d.put d.lent (some (.blank sql)) with lent := d.lent + 1 })
  | .exec _ => (some (.ok .done), d)
  | .use n u =>
    match d.sheets n with
    | some s => (some (s.use u).1, d.put n (if u = .release then none else some (s.use u).2))
    | none => (none, d)

def flags (d : Desk) (n : Nat) : Option Flags :=
  (d.sheets n).map fun s => ⟨s.sql, s.hasBindings, s.hasStepped, s.hasRow⟩

/-- What the user sees of a list of commands. -/
def trace : Desk → List Command → List (Option (Except Error Reply) × (Nat → Option Flags))
  | _, [] => []
  | d, cmd :: rest => ((d.perform cmd).1, (d.perform cmd).2.flags) :: (d.perform cmd).2.trace rest

end Desk

/-! ## Where the handles are -/

/-- In the hands of the user, or idle. -/
inductive Place where
  | lent (n : Nat)
  | idle (sql : String)

namespace Session

def handle? (σ : Session) : Place → Option StmtHandle
  | .lent n => (σ.statements.get? n).map Statement.handle
  | .idle sql => σ.state.cache.get? sql

def sheet? (σ : Session) (n : Nat) : Option Sheet :=
  (σ.statements.get? n).bind fun st => (σ.engine.statements.get? st.handle).map (Sheet.of st)

def desk (σ : Session) : Desk := ⟨σ.lent, σ.sheet?⟩

end Session

/-- All is well with a handle. -/
structure Settled (σ : Session) (h : StmtHandle) : Prop where
  /-- It is in one place at most. -/
  place : ∀ x y, σ.handle? x = some h → σ.handle? y = some h → x = y
  registered : ∀ x, σ.handle? x = some h → σ.state.statements.contains h = true
  lent : ∀ n st, σ.statements.get? n = some st → st.handle = h →
    ∃ live, σ.engine.statements.get? h = some live ∧ (Sheet.of st live).Honest
  idle : ∀ sql, σ.state.cache.get? sql = some h → ∃ d, σ.engine.statements.get? h = some ⟨d, 0, ∅⟩

/-- The session is on an open connection, and all is well with its handles. -/
structure Fit (t : ThreadId) (db : DbHandle) (σ : Session) : Prop where
  healthy : σ.engine.Healthy
  sound : Sound σ.engine
  database : db ∈ σ.engine.databases
  serving : Serving t db σ.state
  settled : ∀ h, Settled σ h

/-- What happens to the session concerns one handle and one number of the user only. -/
structure Beside (h : StmtHandle) (n : Nat) (σ σ' : Session) : Prop where
  engine : Touches h σ.engine σ'.engine
  state : Aside h σ.state σ'.state
  lent : ∀ k, k ≠ n → σ'.statements.get? k = σ.statements.get? k
  own : ∀ st, σ'.statements.get? n = some st → st.handle = h

section Invariant

variable {t : ThreadId} {db : DbHandle} {σ σ' : Session} {h : StmtHandle} {n : Nat}
  {st : Statement} {sql : String}

theorem handle?_lent (hst : σ.statements.get? n = some st) :
    σ.handle? (.lent n) = some st.handle := by
  simp [Session.handle?, hst]

theorem lent_of_handle? (hn : σ.handle? (.lent n) = some h) :
    ∃ st, σ.statements.get? n = some st ∧ st.handle = h :=
  Option.map_eq_some_iff.1 hn

namespace Settled

theorem of_nowhere (hx : ∀ x, σ.handle? x ≠ some h) : Settled σ h where
  place x _ hxh := absurd hxh (hx x)
  registered x hxh := absurd hxh (hx x)
  lent n _ hst hh := absurd (hh ▸ handle?_lent hst) (hx (.lent n))
  idle sql hg := absurd hg (hx (.idle sql))

theorem of_lent (hx : ∀ x, σ.handle? x = some h → x = .lent n)
    (hst : σ.statements.get? n = some st) (hr : σ.state.statements.contains h = true)
    (hl : ∃ live, σ.engine.statements.get? h = some live ∧ (Sheet.of st live).Honest) :
    Settled σ h where
  place x y hxh hyh := (hx x hxh).trans (hx y hyh).symm
  registered _ _ := hr
  lent k st' hst' hh := by
    cases hx (.lent k) (hh ▸ handle?_lent hst')
    cases hst.symm.trans hst'
    exact hl
  idle sql hg := by cases hx (.idle sql) hg

theorem of_idle (hx : ∀ x, σ.handle? x = some h → x = .idle sql)
    (hr : σ.state.statements.contains h = true)
    (hb : ∃ d, σ.engine.statements.get? h = some ⟨d, 0, ∅⟩) : Settled σ h where
  place x y hxh hyh := (hx x hxh).trans (hx y hyh).symm
  registered _ _ := hr
  lent k st hst hh := by cases hx (.lent k) (hh ▸ handle?_lent hst)
  idle _ _ := hb

end Settled

theorem Beside.lent_handle? (b : Beside h n σ σ') {k : Nat} (hk : k ≠ n) :
    σ'.handle? (.lent k) = σ.handle? (.lent k) :=
  congrArg (Option.map Statement.handle) (b.lent k hk)

theorem Beside.handle? (b : Beside h n σ σ') {k : StmtHandle} (hk : k ≠ h) {x : Place}
    (hx : σ'.handle? x = some k) : σ.handle? x = some k := by
  cases x with
  | lent m =>
    obtain ⟨st, hst, rfl⟩ := lent_of_handle? hx
    have hm : m ≠ n := fun hm => hk (b.own st (hm ▸ hst))
    exact handle?_lent ((b.lent m hm).symm.trans hst)
  | idle sql => exact b.state.idle sql k hk hx

/-- Only the handle that a change is about has to be looked at. -/
theorem Fit.beside (f : Fit t db σ) (b : Beside h n σ σ') (hs : Settled σ' h) : Fit t db σ' where
  healthy := b.engine.healthy f.healthy
  sound := b.engine.sound f.sound
  database := b.engine.databases ▸ f.database
  serving := f.serving.aside b.state
  settled k := by
    by_cases hk : k = h
    · exact hk ▸ hs
    · have hengine := b.engine.others k hk
      refine ⟨fun x y hx hy => ?_, fun x hx => ?_, fun m st hst hh => ?_, fun sql hg => ?_⟩
      · exact (f.settled k).place x y (b.handle? hk hx) (b.handle? hk hy)
      · rw [b.state.registered k hk]
        exact (f.settled k).registered x (b.handle? hk hx)
      · have hm : m ≠ n := fun hm => hk (hh ▸ b.own st (hm ▸ hst))
        rw [hengine]
        exact (f.settled k).lent m st ((b.lent m hm).symm.trans hst) hh
      · rw [hengine]
        exact (f.settled k).idle sql (b.state.idle sql k hk hg)

/-- Only the sheet with the number is another one. -/
theorem Beside.desk (b : Beside h n σ σ') (hh : ∀ k, k ≠ n → σ.handle? (.lent k) ≠ some h) :
    σ'.desk = { σ.desk.put n (σ'.sheet? n) with lent := σ'.lent } := by
  have hsheets : σ'.sheet? = (σ.desk.put n (σ'.sheet? n)).sheets := by
    funext k
    by_cases hk : k = n
    · simp [Desk.put, hk]
    · simp only [Desk.put, Session.desk, hk, if_false]
      unfold Session.sheet?
      rw [b.lent k hk]
      cases hst : σ.statements.get? k with
      | none => rfl
      | some st =>
        have hne : st.handle ≠ h := fun he => hh k hk (he ▸ handle?_lent hst)
        simp only [Option.bind_some, b.engine.others st.handle hne]
  exact congrArg (Desk.mk σ'.lent) hsheets

theorem Fit.only (f : Fit t db σ) (hst : σ.statements.get? n = some st) {x : Place}
    (hx : σ.handle? x = some st.handle) : x = .lent n :=
  (f.settled st.handle).place x (.lent n) hx (handle?_lent hst)

theorem Fit.not_lent (f : Fit t db σ) (hst : σ.statements.get? n = some st) (k : Nat) (hk : k ≠ n) :
    σ.handle? (.lent k) ≠ some st.handle := by
  intro hx
  cases f.only hst hx
  exact hk rfl

theorem Fit.not_idle (f : Fit t db σ) (hst : σ.statements.get? n = some st) (text : String) :
    σ.state.cache.get? text ≠ some st.handle :=
  fun hx => (nomatch f.only hst (x := .idle text) hx)

theorem Fit.registered (f : Fit t db σ) (hst : σ.statements.get? n = some st) :
    σ.state.statements.contains st.handle = true :=
  (f.settled st.handle).registered _ (handle?_lent hst)

theorem Fit.held (f : Fit t db σ) (hst : σ.statements.get? n = some st) :
    ∃ live, σ.engine.statements.get? st.handle = some live ∧ (Sheet.of st live).Honest ∧
      σ.desk.sheets n = some (Sheet.of st live) := by
  obtain ⟨live, hl, hhonest⟩ := (f.settled st.handle).lent n st hst rfl
  refine ⟨live, hl, hhonest, ?_⟩
  show σ.sheet? n = _
  simp [Session.sheet?, hst, hl]

theorem Fit.live (f : Fit t db σ) {x : Place} (hx : σ.handle? x = some h) :
    σ.engine.statements.get? h ≠ none := by
  cases x with
  | lent n =>
    obtain ⟨st, hst, hh⟩ := lent_of_handle? hx
    obtain ⟨live, hl, -⟩ := (f.settled h).lent n st hst hh
    simp [hl]
  | idle sql =>
    obtain ⟨d, hl⟩ := (f.settled h).idle sql hx
    simp [hl]

variable {e' : RecordingEngine} {s' : State} {live : LiveStatement}

/-- The user has a statement under a number, and its handle is nowhere else. -/
theorem Fit.gains (f : Fit t db σ) (hst : st.handle = h) (ht : Touches h σ.engine e')
    (ha : Aside h σ.state s') (hlent : ∀ k, k ≠ n → σ.handle? (.lent k) ≠ some h)
    (hidle : ∀ text, s'.cache.get? text ≠ some h) (hr : s'.statements.contains h = true)
    (hl : e'.statements.get? h = some live) (hh : (Sheet.of st live).Honest) (lent : Nat) :
    Fit t db ⟨e', s', σ.statements.insert n st, lent⟩ ∧
      Session.desk ⟨e', s', σ.statements.insert n st, lent⟩
        = { σ.desk.put n (some (Sheet.of st live)) with lent := lent } := by
  let σ' : Session := ⟨e', s', σ.statements.insert n st, lent⟩
  have hget : ∀ k, σ'.statements.get? k = if k = n then some st else σ.statements.get? k :=
    fun k => σ.statements.get?_insert n k st
  have hn : σ'.statements.get? n = some st := by rw [hget, if_pos rfl]
  have b : Beside h n σ σ' := by
    refine ⟨ht, ha, fun k hk => ?_, fun st' hst' => ?_⟩
    · rw [hget, if_neg hk]
    · cases hn.symm.trans hst'
      exact hst
  have hplace : ∀ x, σ'.handle? x = some h → x = .lent n := by
    intro x hx
    cases x with
    | lent k =>
      by_cases hk : k = n
      · rw [hk]
      · exact absurd ((b.lent_handle? hk).symm.trans hx) (hlent k hk)
    | idle text => exact absurd hx (hidle text)
  have hsheet : σ'.sheet? n = some (Sheet.of st live) := by
    simp only [Session.sheet?, hn, Option.bind_some, hst]
    exact congrArg (Option.map (Sheet.of st)) hl
  refine ⟨f.beside b (.of_lent hplace hn hr ⟨live, hl, hh⟩), ?_⟩
  rw [← hsheet]
  exact b.desk hlent

/-- The user has given a statement back. -/
theorem Fit.loses (f : Fit t db σ) (hst : σ.statements.get? n = some st)
    (ht : Touches st.handle σ.engine e') (hrel : Released σ.state st.handle st.sql e' s')
    (lent : Nat) :
    Fit t db ⟨e', s', σ.statements.erase n, lent⟩ ∧
      Session.desk ⟨e', s', σ.statements.erase n, lent⟩
        = { σ.desk.put n none with lent := lent } := by
  let σ' : Session := ⟨e', s', σ.statements.erase n, lent⟩
  have hget : ∀ k, σ'.statements.get? k = if k = n then none else σ.statements.get? k :=
    fun k => σ.statements.get?_erase n k
  have hgone : σ'.statements.get? n = none := by rw [hget, if_pos rfl]
  have ha : Aside st.handle σ.state s' := by
    cases hrel with
    | shelved => exact .shelve f.serving ..
    | finalized => exact .forget ..
  have b : Beside st.handle n σ σ' := by
    refine ⟨ht, ha, fun k hk => ?_, fun st' hst' => ?_⟩
    · rw [hget, if_neg hk]
    · cases hgone.symm.trans hst'
  have hlent : ∀ k, σ'.handle? (.lent k) ≠ some st.handle := by
    intro k hx
    by_cases hk : k = n
    · obtain ⟨st', hst', -⟩ := lent_of_handle? hx
      cases (hk ▸ hgone).symm.trans hst'
    · exact f.not_lent hst k hk ((b.lent_handle? hk).symm.trans hx)
  have hsettled : Settled σ' st.handle := by
    cases hrel with
    | shelved free blank =>
      have hreg : (σ.state.shelve st.handle st.sql).statements.contains st.handle = true := by
        rw [shelve_statements]
        exact f.registered hst
      have hplace : ∀ x, σ'.handle? x = some st.handle → x = .idle st.sql := by
        intro x hx
        cases x with
        | lent k => exact absurd hx (hlent k)
        | idle text =>
          by_cases htext : text = st.sql
          · rw [htext]
          · have hx' := (f.serving.shelve_get? st.handle st.sql text).symm.trans hx
            rw [if_neg htext] at hx'
            exact absurd hx' (f.not_idle hst text)
      exact .of_idle hplace hreg blank
    | finalized gone =>
      refine .of_nowhere fun x hx => ?_
      cases x with
      | lent k => exact hlent k hx
      | idle text => exact f.not_idle hst text (forget_idle hx)
  refine ⟨f.beside b hsettled, ?_⟩
  have hsheet : σ'.sheet? n = none := by simp only [Session.sheet?, hgone, Option.bind_none]
  rw [← hsheet]
  exact b.desk (f.not_lent hst)

end Invariant

/-! ## Commands -/

/-- A command has gone as it goes on the desk. -/
structure AsOnDesk (t : ThreadId) (db : DbHandle) (d : Desk) (cmd : Command)
    (done : Option (Except Error Reply) × Session) : Prop where
  result : done.1 = (d.perform cmd).1
  desk : done.2.desk = (d.perform cmd).2
  fit : Fit t db done.2

section Commands

variable {c : Connection} {t : ThreadId} {db : DbHandle} {σ : Session} {n : Nat} {st : Statement}
  {sql : String} {task : Task} {cmd : Command} {lending : Nat → Lending}

theorem perform_of_alone {o : Outcome} {e' : RecordingEngine} {s' : State}
    (ht : σ.task? lending cmd = some task)
    (h : Alone c t recording σ.engine (phaseStart c t σ.state task) o e' s') :
    σ.perform c t lending cmd
      = (some o.result, ⟨e', s', task.handBack σ.lent o (task.takeOver σ.statements),
          σ.lent + task.lends o⟩) := by
  simp only [Session.perform, ht, Session.carry_of_alone h]

theorem perform_exec (f : Fit t db σ) :
    AsOnDesk t db σ.desk (.exec sql) (σ.perform c t lending (.exec sql)) := by
  have hrc : (σ.engine.answer (.exec db sql)).1 = (.ok, none) := by
    simp [RecordingEngine.answer, f.healthy.codeOf, ResultCode.isOk]
  have halone : Alone c t recording σ.engine (phaseStart c t σ.state (.exec sql)) .finished
      (σ.engine.answer (.exec db sql)).2 σ.state := by
    simp only [phaseStart, f.serving.permit, f.serving.openHandle]
    exact Alone.call (q := .executing db sql) _ hrc (.ends rfl)
  rw [perform_of_alone rfl halone]
  refine ⟨rfl, rfl, f.healthy.answer _, (answer_effect _ _).sound f.sound, f.database, f.serving,
    fun h => ?_⟩
  exact ⟨(f.settled h).place, (f.settled h).registered, (f.settled h).lent, (f.settled h).idle⟩

theorem Fit.obtained (f : Fit t db σ) {lending : Lending} {h : StmtHandle}
    {e' : RecordingEngine} (ho : Obtained lending sql σ.state σ.engine h e') :
    (∀ k, σ.handle? (.lent k) ≠ some h) ∧
      ∀ text, ((withdrawn lending sql σ.state).register h sql).cache.get? text ≠ some h := by
  simp only [register_cache, f.serving.withdrawn_get?]
  rcases ho.source with ⟨hc, hidle⟩ | ⟨hgone, -⟩
  · have hplace := fun x hx => (f.settled h).place (.idle sql) x hidle hx
    refine ⟨fun k hk => (nomatch hplace (.lent k) hk), fun text hg => ?_⟩
    split at hg
    · cases hg
    · next hne =>
      cases hplace (.idle text) hg
      exact hne ⟨hc, rfl⟩
  · refine ⟨fun k hk => f.live hk hgone, fun text hg => ?_⟩
    split at hg
    · cases hg
    · exact f.live (x := .idle text) hg hgone

theorem perform_prepare (f : Fit t db σ) :
    AsOnDesk t db σ.desk (.prepare sql) (σ.perform c t lending (.prepare sql)) := by
  obtain ⟨h, e', halone, ho⟩ := prepare_alone (c := c) f.healthy f.sound f.serving f.database
    (fun h hg => (f.settled h).idle sql hg) (lending σ.lent)
  obtain ⟨hlent, hidle⟩ := f.obtained ho
  obtain ⟨d, hblank⟩ := ho.blank
  have haside := (Aside.withdrawn f.serving h (lending σ.lent) sql).trans (.register _ h sql)
  have hreg := register_contains (f.serving.withdrawn_isSome (lending σ.lent) sql) h sql
  rw [perform_of_alone rfl halone]
  have hfresh : (Statement.fresh c (lending σ.lent) h sql).handle = h := rfl
  obtain ⟨fit, hdesk⟩ := f.gains hfresh ho.touches haside (fun k (_ : k ≠ σ.lent) => hlent k) hidle
    hreg hblank (Sheet.honest_blank sql) (σ.lent + 1)
  exact ⟨rfl, hdesk, fit⟩

theorem takeOver_use {u : Use} (hu : u ≠ .release) (statements : Table Nat Statement) :
    (Task.use n st u).takeOver statements = statements := by
  cases u with
  | release => exact absurd rfl hu
  | _ => rfl

theorem perform_use (f : Fit t db σ) (hst : σ.statements.get? n = some st) {u : Use}
    (hu : u ≠ .release) :
    AsOnDesk t db σ.desk (.use n u) (σ.perform c t lending (.use n u)) := by
  obtain ⟨live, hl, hhonest, hsheet⟩ := f.held hst
  obtain ⟨st', e', halone, hc⟩ := use_alone (c := c) f.healthy hl f.serving n hu
  have ht : σ.task? lending (.use n u) = some (.use n st u) := by simp [Session.task?, hst]
  rw [perform_of_alone ht halone, takeOver_use hu]
  obtain ⟨live', hl', hnext⟩ := hc.live
  obtain ⟨fit, hdesk⟩ := f.gains hc.handle hc.touches (.refl _ _) (f.not_lent hst) (f.not_idle hst)
    (f.registered hst) hl' (hnext ▸ hhonest.use u) σ.lent
  refine ⟨?_, ?_, fit⟩ <;> simp only [Desk.perform, hsheet]
  rw [if_neg hu, ← hnext]
  exact hdesk

theorem perform_release (f : Fit t db σ) (hst : σ.statements.get? n = some st) :
    AsOnDesk t db σ.desk (.use n .release) (σ.perform c t lending (.use n .release)) := by
  obtain ⟨live, hl, hhonest, hsheet⟩ := f.held hst
  obtain ⟨e', s', halone, htouch, hrel⟩ := release_alone (c := c) f.healthy hl hhonest f.serving
    (f.registered hst) (f.not_idle hst st.sql)
  have ht : σ.task? lending (.use n .release) = some (.use n st .release) := by
    simp [Session.task?, hst]
  obtain ⟨fit, hdesk⟩ := f.loses hst htouch hrel σ.lent
  rw [perform_of_alone ht halone]
  refine ⟨?_, ?_, fit⟩ <;> simp only [Desk.perform, hsheet]
  · rfl
  · exact hdesk

/-- **A session on an open connection does what the desk does.** -/
theorem perform_desk (f : Fit t db σ) (c : Connection) (lending : Nat → Lending)
    (cmd : Command) :
    AsOnDesk t db σ.desk cmd (σ.perform c t lending cmd) := by
  cases cmd with
  | prepare sql => exact perform_prepare f
  | exec sql => exact perform_exec f
  | use n u =>
    cases hst : σ.statements.get? n with
    | none =>
      have ht : σ.task? lending (.use n u) = none := by simp [Session.task?, hst]
      have hsheet : σ.desk.sheets n = none := by
        show σ.sheet? n = none
        simp [Session.sheet?, hst]
      have hnone : σ.perform c t lending (.use n u) = (none, σ) := by
        simp only [Session.perform, ht]
      rw [hnone]
      refine ⟨?_, ?_, f⟩ <;> simp only [Desk.perform, hsheet]
    | some st =>
      by_cases hu : u = .release
      · subst hu
        exact perform_release f hst
      · exact perform_use f hst hu

/-- The flags of a statement can be read off from the sheet. -/
theorem Fit.flags (f : Fit t db σ) : σ.flags = σ.desk.flags := by
  funext n
  cases hst : σ.statements.get? n with
  | none => simp [Session.flags, Desk.flags, Session.desk, Session.sheet?, hst]
  | some st =>
    obtain ⟨live, -, -, hsheet⟩ := f.held hst
    simp [Session.flags, Desk.flags, hst, hsheet, flagsOf, Sheet.of]

/-- What the user sees does not depend on the policy. -/
theorem trace_desk (f : Fit t db σ) (program : List Command) :
    σ.trace c t lending program = σ.desk.trace program := by
  induction program generalizing σ with
  | nil => rfl
  | cons cmd rest ih =>
    obtain ⟨hresult, hdesk, fit⟩ := perform_desk f c lending cmd
    simp only [Session.trace, Desk.trace, ih fit, fit.flags, hresult, hdesk]

end Commands

/-! ## Open connections -/

section Open

variable {c : Connection} {t : ThreadId} {e : RecordingEngine} {mode : OpenMode} {σ : Session}

/-- **A connection that was opened is fit for a session.** -/
theorem fit_opened (he : e.Healthy) (hs : Sound e)
    (ho : (Session.initial e).carry c t (.open mode) = (.finished, σ)) : ∃ db, Fit t db σ := by
  cases open_start (c := c) (t := t) (s := .initial) mode with
  | refused ends error =>
    obtain ⟨error, herror⟩ := error
    rw [Session.carry_of_alone (.ends ends)] at ho
    cases (congrArg (·.1.result) ho).symm.trans herror
  | @opens flags _ _ _ waits state =>
    have hcode : (e.record (.open c.location flags)).codeOf .open = .ok := he.codeOf .open
    have hwith : (e.record (.open c.location flags)).withheld = [] := he.withheld
    have hrc : (e.answer (.open c.location flags)).1 = (some e.nextHandle, .ok) := by
      simp [RecordingEngine.answer, RecordingEngine.answerOpen, hcode, hwith]
      rfl
    have halone : Alone c t recording e (phaseStart c t .initial (.open mode)) .finished
        (e.answer (.open c.location flags)).2 ⟨some e.nextHandle, false, some t, .empty, .empty⟩ :=
      Alone.answered waits _ hrc (by rw [state]; exact .after (.ends rfl) _)
    have hdb : e.nextHandle ∈ (e.answer (.open c.location flags)).2.databases := by
      simp [RecordingEngine.answer, RecordingEngine.answerOpen, hwith]
      exact .inl rfl
    rw [Session.carry_of_alone halone] at ho
    cases ho
    refine ⟨e.nextHandle, he.answer _, (answer_effect e _).sound hs, hdb, ⟨rfl, rfl, rfl⟩,
      fun h => .of_nowhere fun x hx => ?_⟩
    cases x <;> cases hx

/-- **The statement cache cannot be observed.** On a connection over the recording engine that was
opened with success, and with nothing told to fail, every list of commands has the same results and
leaves the same flags whichever statements are lent from the cache: all, none, or any others. -/
theorem cache_unobservable (he : e.Healthy) (hs : Sound e)
    (ho : (Session.initial e).carry c t (.open mode) = (.finished, σ)) (program : List Command)
    (lending lending' : Nat → Lending) :
    σ.trace c t lending program = σ.trace c t lending' program := by
  obtain ⟨db, f⟩ := fit_opened he hs ho
  rw [trace_desk f, trace_desk f]

end Open

/-! ## An example -/

def openedSession : Session :=
  ((Session.initial .initial).carry inMemory ⟨1⟩ (.open .readWriteCreate)).2

/-- A statement is stepped, bound and released, and another one of its text is used after it. -/
def rereading : List Command :=
  [.prepare "q", .use 0 (.bind 1 (.integer 7)), .use 0 .step, .use 0 (.column 0), .use 0 .release,
    .prepare "q", .use 1 (.column 0), .use 1 .step, .use 1 (.column 0)]

/-- What a policy leaves of the session. -/
def Session.after (c : Connection) (t : ThreadId) (lending : Nat → Lending) (σ : Session)
    (program : List Command) : Session :=
  program.foldl (fun σ cmd => (σ.perform c t lending cmd).2) σ

/-- With the cache one handle is enough, without it there are two; the user sees the same. -/
theorem rereading_unobserved :
    (Session.initial .initial).carry inMemory ⟨1⟩ (.open .readWriteCreate)
        = (.finished, openedSession) ∧
      openedSession.trace inMemory ⟨1⟩ (fun _ => .cached) rereading
        = openedSession.trace inMemory ⟨1⟩ (fun _ => .uncached) rereading ∧
      (openedSession.after inMemory ⟨1⟩ (fun _ => .cached) rereading).engine.minted = 2 ∧
      (openedSession.after inMemory ⟨1⟩ (fun _ => .uncached) rereading).engine.minted = 3 := by
  have hopen : (Session.initial .initial).carry inMemory ⟨1⟩ (.open .readWriteCreate)
      = (.finished, openedSession) := rfl
  refine ⟨hopen, ?_, by decide +kernel, by decide +kernel⟩
  exact cache_unobservable RecordingEngine.healthy_initial sound_initial hopen rereading _ _

end ConfinedDb.Interleaving
