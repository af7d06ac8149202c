import ConfinedDb.Proofs.Accounting.Stretch
/-!
# What a stretch does to the connection

Only two kinds of actions change the database of a connection and the thread that it is confined
to: an open, which begins and goes on in a few ways (`OpenStart`, `OpenRest`), and a disposal, which
takes both out when it starts (`DisposeStart`). All others leave them as they are (`SameDatabase`),
and register a statement only if the database is there. What they do to the statements is one of
seven things (`Change`), and a disposal that goes on does no others.

`start_cases` says all of this of an action that starts; `open_rest` and `resume_change` say it of
one that goes on, and `preparing_rest` in full of a preparation whose call has returned. The rest of
the module is read off from them: what becomes of the database, of the disposal and of the
statements that are registered.
-/
namespace ConfinedDb.Interleaving

/-- The database and the owner are the same, and statements only came if the database was there. -/
structure SameDatabase (s s' : State) : Prop where
  handle : s'.handle = s.handle
  disposed : s'.disposed = s.disposed
  owner : s'.owner = s.owner
  registered : s'.registered ⊆ s.registered ∨ s.handle.isSome = true

namespace SameDatabase

variable {s s' s'' : State}

@[simp] theorem refl (s : State) : SameDatabase s s := ⟨rfl, rfl, rfl, .inl fun _ h => h⟩

theorem trans (h : SameDatabase s s') (h' : SameDatabase s' s'') : SameDatabase s s'' where
  handle := h'.handle.trans h.handle
  disposed := h'.disposed.trans h.disposed
  owner := h'.owner.trans h.owner
  registered := by
    rcases h.registered with hr | hr
    · exact h'.registered.imp (fun hr' _ hk => hr (hr' hk)) (fun hh => h.handle ▸ hh)
    · exact .inr hr

@[simp] theorem lend (s : State) (sql : String) : SameDatabase s (s.lend sql) := by
  unfold State.lend
  split <;> exact ⟨rfl, rfl, rfl, .inl fun _ h => h⟩

@[simp] theorem shelve (s : State) (h : StmtHandle) (sql : String) :
    SameDatabase s (s.shelve h sql) := by
  unfold State.shelve
  split <;> exact ⟨rfl, rfl, rfl, .inl fun _ h => h⟩

@[simp] theorem register (s : State) (h : StmtHandle) (sql : String) :
    SameDatabase s (s.register h sql) := by
  unfold State.register
  split
  · next hh => exact ⟨rfl, rfl, rfl, .inr hh⟩
  · exact refl s

@[simp] theorem forget (s : State) (h : StmtHandle) (sql : String) :
    SameDatabase s (s.forget h sql) where
  handle := s.forget_handle h sql
  disposed := s.forget_disposed h sql
  owner := by
    unfold State.forget
    split <;> rfl
  registered := .inl (s.forget_subset h sql)

@[simp] theorem forgetAll (s : State) : SameDatabase s s.forgetAll :=
  ⟨rfl, rfl, rfl, .inl (List.nil_subset _)⟩

end SameDatabase

variable {c : Connection} {t : ThreadId} {s : State}

/-! ## Actions that are no opens -/

/-- What a stretch does to the state if it neither opens nor disposes the connection; `returned`:
the call that has returned. -/
inductive Change (returned : Option EngineCall) (s : State) (m : Move) : Prop
  | same (state : m.state = s)
  | shelves {h : StmtHandle} {sql : String} (state : m.state = s.shelve h sql)
  | lends {sql : String} (state : m.state = s.lend sql)
  | registers {h : StmtHandle} {sql : String} (state : m.state = s.register h sql)
  | reuses {h : StmtHandle} {sql : String} (state : m.state = (s.lend sql).register h sql)
  | forgets {h : StmtHandle} {sql : String} (final : returned = some (.finalize h))
    (state : m.state = s.forget h sql)
  /-- A disposal is done with the statements. -/
  | sweeps {h : StmtHandle} {sql : String} {db : DbHandle} (final : returned = some (.finalize h))
    (waits : m.next = .inl (.closing db)) (state : m.state = (s.forget h sql).forgetAll)

theorem Change.sameDatabase {returned : Option EngineCall} {m : Move} (h : Change returned s m) :
    SameDatabase s m.state := by
  cases h with
  | same state => exact state ▸ .refl s
  | shelves state => exact state ▸ .shelve s _ _
  | lends state => exact state ▸ .lend s _
  | registers state => exact state ▸ .register s _ _
  | reuses state => exact state ▸ (SameDatabase.lend s _).trans (.register _ _ _)
  | forgets _ state => exact state ▸ .forget s _ _
  | sweeps _ _ state => exact state ▸ (SameDatabase.forget s _ _).trans (.forgetAll _)

@[simp] theorem finalizeChunk_state (h : StmtHandle) (sql : String) :
    (finalizeChunk h sql s).state = s := by
  unfold finalizeChunk
  split <;> rfl

@[simp] theorem shelveChunk_state (h : StmtHandle) (sql : String) :
    (shelveChunk h sql s).state = s.shelve h sql := by
  unfold shelveChunk
  split
  · split
    · rfl
    · rfl
    · exact finalizeChunk_state h sql
  · rfl

theorem unbindChunk_change (returned : Option EngineCall) (h : StmtHandle) (sql : String)
    (hasBindings : Bool) : Change returned s (unbindChunk c h sql hasBindings s) := by
  unfold unbindChunk
  split
  · exact .same rfl
  · exact .shelves (shelveChunk_state h sql)

@[simp] theorem Onward.chunk_state (e : Error) (onward : Onward) :
    (onward.chunk e s).state = s := by
  cases onward with
  | discard h sql => exact finalizeChunk_state h sql
  | _ => rfl

theorem failChunk_state (rc : ResultCode) (operation : String) (about : Option String)
    (onward : Onward) : (failChunk c rc operation about onward s).state = s := by
  unfold failChunk
  split
  · rfl
  · exact Onward.chunk_state _ onward

/-- How a disposal goes on to the next statement, with so many rounds left. -/
inductive DrainNext (s : State) (db : DbHandle) (rounds : Nat) : Move → Prop
  | takes {m : Move} {h : StmtHandle} {sql : String} {left : Nat} (rounds_eq : rounds = left + 1)
    (there : h ∈ s.registered) (waits : m.next = .inl (.draining h sql left db))
    (state : m.state = s) : DrainNext s db rounds m
  | closes {m : Move} (done : rounds = 0 ∨ s.registered = []) (waits : m.next = .inl (.closing db))
    (state : m.state = s.forgetAll) : DrainNext s db rounds m

theorem DrainNext.after {db : DbHandle} {rounds : Nat} {m : Move} (h : DrainNext s db rounds m)
    (notices : List Notice) : DrainNext s db rounds (m.after notices) := by
  cases h with
  | takes rounds_eq there waits state => exact .takes rounds_eq there waits state
  | closes done waits state => exact .closes done waits state

theorem drainChunk_next (db : DbHandle) (rounds : Nat) :
    DrainNext s db rounds (drainChunk db rounds s) := by
  cases rounds with
  | zero => exact .closes (.inl rfl) rfl rfl
  | succ left =>
    cases hf : s.statements.first? with
    | none =>
      have hempty : s.statements.table.entries = [] := List.head?_eq_none_iff.1 hf
      simp only [drainChunk, hf]
      exact .closes (.inr (by simp [State.registered, Table.keys, hempty])) rfl rfl
    | some e =>
      have hr := (s.contains_iff e.1).1 (Registry.contains_first hf)
      simp only [drainChunk, hf]
      exact .takes rfl hr rfl rfl

theorem registerChunk_state (lending : Lending) (h : StmtHandle) (sql : String) (new : Bool) :
    (registerChunk c lending h sql new s).state = s.register h sql := by
  unfold registerChunk
  split <;> rfl

/-- How a preparation goes on once the engine has answered; the handle is that of the answer. -/
inductive PrepareRest (c : Connection) (s : State) (sql : String) (lending : Lending)
    (rc : ResultCode) (m : Move) : Option StmtHandle → Prop
  | nothing (ok : rc.isOk = true)
    (ends : m.next = .inr
      ⟨.error (Error.ofFault (.inconsistent "engine did not return stmt")), none⟩)
    (state : m.state = s) : PrepareRest c s sql lending rc m none
  | lends {h : StmtHandle} (ok : rc.isOk = true) (opened : s.handle.isSome = true)
    (ends : m.next = .inr ⟨.ok .done, some (.fresh c lending h sql)⟩)
    (state : m.state = s.register h sql) : PrepareRest c s sql lending rc m (some h)
  | late {h : StmtHandle} (ok : rc.isOk = true) (closed : ¬s.handle.isSome = true)
    (waits : m.next = .inl (.prepareLate h sql)) (state : m.state = s) :
    PrepareRest c s sql lending rc m (some h)
  | asks {h? : Option StmtHandle} {db : DbHandle} (failed : ¬rc.isOk = true)
    (waits : m.next = .inl (.failing c db rc "prepare()" (some sql) .prepare))
    (state : m.state = s) : PrepareRest c s sql lending rc m h?
  | fails {h? : Option StmtHandle} (failed : ¬rc.isOk = true)
    (ends : m.next = .inr
      ⟨.error (Error.ofFault (failure c rc "prepare()" (some sql) none)), none⟩)
    (state : m.state = s) : PrepareRest c s sql lending rc m h?

theorem preparing_rest (db : DbHandle) (sql : String) (lending : Lending)
    (h? : Option StmtHandle) (rc : ResultCode) :
    PrepareRest c s sql lending rc
      ((Phase.preparing db sql lending).resume c t (h?, rc) s) h? := by
  simp only [Phase.resume]
  by_cases hok : rc.isOk = true
  · rw [if_pos hok]
    cases h? with
    | none => exact .nothing hok rfl rfl
    | some h =>
      simp only [registerChunk]
      by_cases hh : s.handle.isSome = true
      · rw [if_pos hh]
        exact .lends hok hh rfl rfl
      · rw [if_neg hh]
        exact .late hok hh rfl (if_neg hh)
  · rw [if_neg hok, failChunk]
    split
    · exact .asks hok rfl rfl
    · exact .fails hok rfl rfl

theorem stepChunk_state (st : Statement) (rc : ResultCode) :
    (stepChunk st rc s).state = s := by
  unfold stepChunk
  split
  · rfl
  · split
    · rfl
    · exact failChunk_state rc _ _ _

/-- **What an action does to the state when it goes on and is no open.** -/
theorem resume_change {p : Phase} (hp : p.kind ≠ .opens) (answer : (p.call c).Answer) :
    Change (some (p.call c)) s (p.resume c t answer s) := by
  cases p with
  | opening flags claimed => exact absurd rfl hp
  | openFailed flags rc db? claimed => exact absurd rfl hp
  | openCleanup flags rc db message claimed => exact absurd rfl hp
  | openLate db => exact absurd rfl hp
  | executing db sql =>
    obtain ⟨rc, message⟩ := answer
    simp only [Phase.resume]
    split
    · exact .same rfl
    · exact .same (failChunk_state _ _ _ _)
  | preparing db sql lending =>
    obtain ⟨h?, rc⟩ := answer
    simp only [Phase.resume]
    split
    · split
      · exact .registers (registerChunk_state lending _ sql true)
      · exact .same rfl
    · exact .same (failChunk_state _ _ _ _)
  | prepareLate h sql => exact .same rfl
  | binding st index value =>
    simp only [Phase.resume]
    split
    · exact .same rfl
    · exact .same (failChunk_state _ _ _ _)
  | stepping st => exact .same (stepChunk_state st answer)
  | counting st => exact .same rfl
  | reading st index => exact .same rfl
  | resetting st clear =>
    simp only [Phase.resume]
    split
    · split <;> exact .same rfl
    · exact .same (failChunk_state _ _ _ _)
  | clearing st =>
    simp only [Phase.resume]
    split
    · exact .same rfl
    · exact .same (failChunk_state _ _ _ _)
  | failing c' db rc operation about onward => exact .same (Onward.chunk_state _ onward)
  | rewinding c' h sql hasBindings =>
    simp only [Phase.resume]
    split
    · exact unbindChunk_change _ h sql hasBindings
    · exact .same (failChunk_state _ _ _ _)
  | unbinding c' h sql =>
    simp only [Phase.resume]
    split
    · exact .shelves (shelveChunk_state h sql)
    · exact .same (failChunk_state _ _ _ _)
  | finalizing h sql => exact .forgets rfl rfl
  | draining h sql rounds db =>
    simp only [Phase.resume]
    cases drainChunk_next (s := s.forget h sql) db rounds with
    | takes _ _ _ state => exact .forgets rfl state
    | closes _ waits state => exact .sweeps rfl waits state
  | closing db =>
    simp only [Phase.resume]
    split <;> exact .same rfl
  | closeFailed db rc => exact .same rfl

theorem resume_same {p : Phase} (hp : p.kind ≠ .opens) (answer : (p.call c).Answer) :
    SameDatabase s (p.resume c t answer s).state :=
  (resume_change hp answer).sameDatabase

theorem useChunk_change {st : Statement} {go : Move} (hgo : go.state = s) :
    Change none s (useChunk t st s go) := by
  unfold useChunk
  split
  · exact .same rfl
  · split
    · exact .same rfl
    · exact .same hgo

theorem releaseChunk_change (st : Statement) : Change none s (releaseChunk t st s) := by
  unfold releaseChunk
  split
  · exact .same rfl
  · split
    · split
      · split
        · exact .same rfl
        · exact unbindChunk_change _ _ _ _
      · exact .same (finalizeChunk_state _ _)
    · exact .same rfl

theorem prepare_change (sql : String) (lending : Lending) :
    Change none s (phaseStart c t s (.prepare sql lending)) := by
  simp only [phaseStart]
  split
  · exact .same rfl
  · cases lending with
    | cached =>
      simp only [if_true]
      split
      · exact .lends rfl
      · split
        · exact .reuses (registerChunk_state .cached _ sql false)
        · exact .lends rfl
    | uncached => split <;> exact .same rfl

/-- **What it does when it starts and is neither an open nor a disposal.** -/
theorem start_change {task : Task} (ho : task.kind ≠ .opens) (hd : task.kind ≠ .disposes) :
    Change none s (phaseStart c t s task) := by
  cases task with
  | «open» mode => exact absurd rfl ho
  | dispose => exact absurd rfl hd
  | drop => exact absurd rfl hd
  | exec sql =>
    simp only [phaseStart]
    split
    · exact .same rfl
    · split <;> exact .same rfl
  | prepare sql lending => exact prepare_change sql lending
  | use n st u =>
    cases u with
    | release => exact releaseChunk_change st
    | column index =>
      refine useChunk_change ?_
      split <;> rfl
    | reset clear =>
      refine useChunk_change ?_
      split
      · rfl
      · split <;> rfl
    | _ => exact useChunk_change rfl

structure Ready (t : ThreadId) (s : State) : Prop where
  admitted : bars s t = false
  undisposed : s.disposed = false
  opened : s.handle.isSome = true

theorem ready_of_ok (ha : permit c t s = .ok ()) {db : DbHandle} (ho : s.openHandle = .ok db) :
    Ready t s :=
  ⟨permit_eq_ok_iff.1 ha, (openHandle_ok ho).1, by simp [(openHandle_ok ho).2]⟩

theorem exec_next {sql : String} {q : Phase}
    (hq : (phaseStart c t s (.exec sql)).next = .inl q) :
    Ready t s ∧ ∃ db, s.handle = some db ∧ q = .executing db sql := by
  simp only [phaseStart] at hq
  split at hq
  · cases hq
  · next ha =>
    split at hq
    · cases hq
    · next db ho =>
      cases hq
      exact ⟨ready_of_ok ha ho, db, (openHandle_ok ho).2, rfl⟩

theorem prepare_next {sql : String} {lending : Lending} {q : Phase}
    (hq : (phaseStart c t s (.prepare sql lending)).next = .inl q) :
    Ready t s ∧ ∃ db, s.handle = some db ∧ q = .preparing db sql lending := by
  simp only [phaseStart] at hq
  split at hq
  · cases hq
  · next ha =>
    split at hq
    · cases hq
    · next db ho =>
      have hready := ready_of_ok ha ho
      split at hq
      · have hlend : SameDatabase s (if lending = .cached then s.lend sql else s) := by
          split <;> simp
        simp only [registerChunk, if_pos (hlend.handle ▸ hready.opened)] at hq
        cases hq
      · cases hq
        exact ⟨hready, db, (openHandle_ok ho).2, rfl⟩

theorem useChunk_next {st : Statement} {go : Move} {q : Phase}
    (hq : (useChunk t st s go).next = .inl q) : Ready t s ∧ go.next = .inl q := by
  unfold useChunk at hq
  split at hq
  · cases hq
  · next ha =>
    split at hq
    · cases hq
    · next ho => exact ⟨ready_of_ok ha ho, hq⟩

/-! ## Opens -/

inductive OpenStart (t : ThreadId) (s : State) : Move → Prop
  | refused {m : Move} {o : Outcome} (ends : m.next = .inr o) (fails : ∃ e, o.result = .error e)
    (state : m.state = s ∨ m.state = s.claim t) : OpenStart t s m
  | opens {m : Move} {flags : OpenFlags} (undisposed : s.disposed = false)
    (closed : s.handle = none) (admitted : bars s t = false)
    (waits : m.next = .inl (.opening flags s.owner.isNone)) (state : m.state = s.claim t) :
    OpenStart t s m

theorem OpenStart.state_cases {m : Move} (h : OpenStart t s m) :
    m.state = s ∨ m.state = s.claim t := by
  cases h with
  | refused _ _ state => exact state
  | opens _ _ _ _ state => exact .inr state

theorem openChunk_start (flags : OpenFlags) : OpenStart t s (openChunk c t flags s) := by
  unfold openChunk
  by_cases hd : s.disposed
  · rw [if_pos hd]
    exact .refused rfl ⟨_, rfl⟩ (.inr rfl)
  · rw [if_neg hd]
    cases ha : permit c t s with
    | error e => exact .refused rfl ⟨_, rfl⟩ (.inr rfl)
    | ok _ =>
      cases hh : s.handle with
      | some db => exact .refused (by simp; rfl) ⟨_, rfl⟩ (.inr (by simp; rfl))
      | none =>
        exact .opens (by simpa using hd) hh (permit_eq_ok_iff.1 ha) (by simp; rfl) (by simp; rfl)

theorem open_start (mode : OpenMode) : OpenStart t s (phaseStart c t s (.open mode)) := by
  cases mode with
  | readWriteCreate => exact openChunk_start _
  | _ =>
    simp only [phaseStart]
    split
    · exact .refused rfl ⟨_, rfl⟩ (.inl rfl)
    · exact openChunk_start _

theorem open_next {mode : OpenMode} {q : Phase}
    (hq : (phaseStart c t s (.open mode)).next = .inl q) :
    ∃ flags claimed, q = .opening flags claimed := by
  cases open_start mode with
  | refused ends => cases ends.symm.trans hq
  | opens _ _ _ waits => exact ⟨_, _, Sum.inl.inj (hq.symm.trans waits)⟩

/-- Whether an open has confined the connection. -/
def Phase.claims : Phase → Bool
  | .opening _ claimed | .openFailed _ _ _ claimed | .openCleanup _ _ _ _ claimed => claimed
  | _ => false

/-- How an open goes on; `dbs`: the database that has arrived. -/
inductive OpenRest (t : ThreadId) (s : State) (claims : Bool) (dbs : List DbHandle) : Move → Prop
  | waits {m : Move} {q : Phase} (waits : m.next = .inl q) (kind : q.kind = .opens)
    (same : q.claims = claims) (state : m.state = s) : OpenRest t s claims dbs m
  | late {m : Move} {db : DbHandle} (disposed : s.disposed = true)
    (waits : m.next = .inl (.openLate db)) (state : m.state = s) : OpenRest t s claims dbs m
  | installs {m : Move} {db : DbHandle} (undisposed : s.disposed = false) (arrives : db ∈ dbs)
    (ends : m.next = .inr .finished) (state : m.state = { s with handle := some db }) :
    OpenRest t s claims dbs m
  | fails {m : Move} {o : Outcome} (ends : m.next = .inr o) (fails : ∃ e, o.result = .error e)
    (state : m.state = if claims then s.unclaim t else s) : OpenRest t s claims dbs m

theorem openFailChunk_rest (claims : Bool) (dbs : List DbHandle) (f : Fault)
    (notices : List Notice) :
    OpenRest t s claims dbs ((openFailChunk t claims f s).after notices) :=
  .fails rfl ⟨_, rfl⟩ rfl

theorem open_rest {p : Phase} (hp : p.kind = .opens) (answer : (p.call c).Answer) :
    OpenRest t s p.claims (History.databases (minting (p.call c) answer))
      (p.resume c t answer s) := by
  cases p with
  | opening flags claimed =>
    obtain ⟨db?, rc⟩ := answer
    simp only [Phase.resume]
    split
    · split
      · next db =>
        cases hd : s.disposed with
        | true => exact .late hd (by simp; rfl) (by simp [State.install, hd]; rfl)
        | false =>
          exact .installs hd List.mem_cons_self (by simp; rfl) (by simp [State.install, hd]; rfl)
      · exact openFailChunk_rest claimed _ _ []
    · exact .waits rfl rfl rfl rfl
  | openFailed flags rc db? claimed =>
    cases db? with
    | none => exact openFailChunk_rest claimed _ _ _
    | some db => exact .waits rfl rfl rfl rfl
  | openCleanup flags rc db message claimed => exact openFailChunk_rest claimed _ _ _
  | openLate db => exact .fails rfl ⟨_, rfl⟩ rfl
  | failing c' db rc operation about onward => cases onward <;> cases hp
  | _ => cases hp

/-! ## Disposals -/

theorem retire_of_undisposed (hd : s.disposed = false) :
    s.retire = { s with disposed := true, handle := none, owner := none } :=
  if_neg (by simp [hd])

@[simp] theorem retire_disposed (s : State) : s.retire.disposed = true := by
  unfold State.retire
  split
  · next hd => exact hd
  · rfl

@[simp] theorem retire_statements (s : State) : s.retire.statements = s.statements := by
  unfold State.retire
  split <;> rfl

inductive DisposeStart (t : ThreadId) (s : State) : Move → Prop
  | again {m : Move} (disposed : s.disposed = true) (ends : m.next = .inr .finished)
    (state : m.state = s) : DisposeStart t s m
  | unopened {m : Move} (undisposed : s.disposed = false) (closed : s.handle = none)
    (ends : m.next = .inr .finished) (state : m.state = s.retire) : DisposeStart t s m
  | drains {m : Move} {db : DbHandle} (undisposed : s.disposed = false)
    (opened : s.handle = some db) (owner : s.owner = some t)
    (next : DrainNext s.retire db s.registered.length m) : DisposeStart t s m
  /-- The thread is not the owner. -/
  | abandons {m : Move} {db : DbHandle} (undisposed : s.disposed = false)
    (opened : s.handle = some db) (alien : s.owner ≠ some t)
    (waits : m.next = .inl (.closing db)) (state : m.state = s.retire.forgetAll) :
    DisposeStart t s m

theorem disposeChunk_start : DisposeStart t s (disposeChunk t s) := by
  have hlen : s.statements.size = s.registered.length := (List.length_map Prod.fst).symm
  cases hd : s.disposed with
  | true =>
    simp only [disposeChunk, hd, if_true]
    exact .again hd rfl (if_pos hd)
  | false =>
    cases hh : s.handle with
    | none =>
      simp only [disposeChunk, hd, hh]
      exact .unopened hd hh rfl rfl
    | some db =>
      by_cases ho : s.owner = some t
      · simp only [disposeChunk, hd, hh, if_pos ho, hlen]
        exact .drains hd hh ho (drainChunk_next db _)
      · simp only [disposeChunk, hd, hh, if_neg ho]
        exact .abandons hd hh ho rfl rfl

theorem dispose_start {task : Task} (ht : task.isDisposal = true) :
    DisposeStart t s (phaseStart c t s task) := by
  cases task with
  | dispose => exact disposeChunk_start
  | drop =>
    cases disposeChunk_start (t := t) (s := s) with
    | again disposed ends state => exact .again disposed ends state
    | unopened undisposed closed ends state => exact .unopened undisposed closed ends state
    | drains undisposed opened owner next => exact .drains undisposed opened owner (next.after _)
    | abandons undisposed opened alien waits state =>
      exact .abandons undisposed opened alien waits state
  | _ => cases ht

theorem DisposeStart.state_cases {m : Move} (h : DisposeStart t s m) :
    m.state = s ∧ s.disposed = true ∨
      s.disposed = false ∧ (m.state = s.retire ∨ m.state = s.retire.forgetAll) := by
  cases h with
  | again disposed _ state => exact .inl ⟨state, disposed⟩
  | unopened undisposed _ _ state => exact .inr ⟨undisposed, .inl state⟩
  | drains undisposed _ _ next =>
    cases next with
    | takes _ _ _ state => exact .inr ⟨undisposed, .inl state⟩
    | closes _ _ state => exact .inr ⟨undisposed, .inr state⟩
  | abandons undisposed _ _ _ state => exact .inr ⟨undisposed, .inr state⟩

/-! ## All starts -/

inductive Starts (t : ThreadId) (s : State) (task : Task) (m : Move) : Prop
  | opens (kind : task.kind = .opens) (start : OpenStart t s m)
  | disposes (disposal : task.isDisposal = true) (start : DisposeStart t s m)
  | other (no_open : task.kind ≠ .opens) (no_disposal : task.kind ≠ .disposes)
    (change : Change none s m)

theorem start_cases (task : Task) : Starts t s task (phaseStart c t s task) := by
  by_cases ht : task.isDisposal = true
  · exact .disposes ht (dispose_start ht)
  · have hd : task.kind ≠ .disposes := fun hk => ht (isDisposal_of_kind hk)
    by_cases ho : task.kind = .opens
    · obtain ⟨mode, rfl⟩ := open_of_kind ho
      exact .opens ho (open_start mode)
    · exact .other ho hd (start_change ho hd)

/-! ## The database -/

@[simp] theorem claim_handle (s : State) (t : ThreadId) : (s.claim t).handle = s.handle := by
  unfold State.claim
  split <;> rfl

@[simp] theorem unclaim_handle (s : State) (t : ThreadId) : (s.unclaim t).handle = s.handle := by
  unfold State.unclaim
  split <;> rfl

/-- The start of an action brings no database. -/
theorem start_handle {task : Task} {db : DbHandle}
    (h : (phaseStart c t s task).state.handle = some db) : s.handle = some db := by
  cases start_cases (c := c) (t := t) (s := s) task with
  | opens _ start =>
    rcases start.state_cases with hs | hs <;> rw [hs] at h
    · exact h
    · rwa [claim_handle] at h
  | disposes _ start =>
    rcases start.state_cases with ⟨hs, -⟩ | ⟨hd, hs | hs⟩ <;> rw [hs] at h
    · exact h
    · simp [retire_of_undisposed hd] at h
    · simp [State.forgetAll, retire_of_undisposed hd] at h
  | other _ _ change => exact change.sameDatabase.handle ▸ h

/-- An action that goes on brings none but the one that has arrived. -/
theorem resume_handle {p : Phase} {answer : (p.call c).Answer} {db : DbHandle}
    (h : (p.resume c t answer s).state.handle = some db) :
    s.handle = some db ∨ db ∈ History.databases (minting (p.call c) answer) := by
  by_cases hp : p.kind = .opens
  · have hrest := open_rest (t := t) (s := s) hp answer
    generalize p.resume c t answer s = m at hrest h
    cases hrest with
    | waits _ _ _ state => exact .inl (state ▸ h)
    | late _ _ state => exact .inl (state ▸ h)
    | installs _ arrives _ state =>
      rw [state] at h
      exact .inr (Option.some.inj h ▸ arrives)
    | fails _ _ state =>
      rw [state] at h
      split at h
      · exact .inl (by simpa using h)
      · exact .inl h
  · exact .inl ((resume_same hp answer).handle ▸ h)

/-! ## After a disposal -/

@[simp] theorem claim_disposed (s : State) (t : ThreadId) : (s.claim t).disposed = s.disposed := by
  unfold State.claim
  split <;> rfl

@[simp] theorem unclaim_disposed (s : State) (t : ThreadId) :
    (s.unclaim t).disposed = s.disposed := by
  unfold State.unclaim
  split <;> rfl

@[simp] theorem claim_statements (s : State) (t : ThreadId) :
    (s.claim t).statements = s.statements := by
  unfold State.claim
  split <;> rfl

@[simp] theorem unclaim_statements (s : State) (t : ThreadId) :
    (s.unclaim t).statements = s.statements := by
  unfold State.unclaim
  split <;> rfl

abbrev Closed (s : State) : Prop := s.disposed = true → s.handle = none

/-- A connection with a database is not disposed. -/
theorem undisposed_of_handle {s : State} (closed : Closed s) (opened : s.handle.isSome = true) :
    s.disposed = false := by
  by_contra hd
  simp [closed (by simpa using hd)] at opened

structure Shut (s s' : State) : Prop where
  disposed : s'.disposed = true
  handle : s'.handle = none
  registered : s'.registered ⊆ s.registered

theorem SameDatabase.shut {s s' : State} (h : SameDatabase s s') (hc : Closed s)
    (hd : s.disposed = true) : Shut s s' where
  disposed := h.disposed.trans hd
  handle := h.handle.trans (hc hd)
  registered := h.registered.resolve_right (by simp [hc hd])

theorem resume_disposed (p : Phase) (answer : (p.call c).Answer) :
    (p.resume c t answer s).state.disposed = s.disposed := by
  by_cases hp : p.kind = .opens
  · have hrest := open_rest (t := t) (s := s) hp answer
    generalize p.resume c t answer s = m at hrest
    cases hrest with
    | waits _ _ _ state => rw [state]
    | late _ _ state => rw [state]
    | installs _ _ _ state => rw [state]
    | fails _ _ state =>
      rw [state]
      split <;> simp
  · exact (resume_same hp answer).disposed

theorem resume_shut {p : Phase} {answer : (p.call c).Answer} (hc : Closed s)
    (hd : (p.resume c t answer s).state.disposed = true) :
    Shut s (p.resume c t answer s).state := by
  have hs : s.disposed = true := (resume_disposed p answer).symm.trans hd
  by_cases hp : p.kind = .opens
  · have hrest := open_rest (t := t) (s := s) hp answer
    generalize p.resume c t answer s = m at hrest
    cases hrest with
    | waits _ _ _ state =>
      rw [state]
      exact ⟨hs, hc hs, fun _ h => h⟩
    | late _ _ state =>
      rw [state]
      exact ⟨hs, hc hs, fun _ h => h⟩
    | installs undisposed => simp [hs] at undisposed
    | fails _ _ state =>
      rw [state]
      split
      · exact ⟨by simp [hs], (unclaim_handle s t).trans (hc hs), by simp [State.registered]⟩
      · exact ⟨hs, hc hs, fun _ h => h⟩
  · exact (resume_same hp answer).shut hc hs

theorem DisposeStart.shut {m : Move} (h : DisposeStart t s m) (hc : Closed s) : Shut s m.state := by
  rcases h.state_cases with ⟨hs, hd⟩ | ⟨hd, hs | hs⟩ <;> rw [hs]
  · exact ⟨hd, hc hd, fun _ h => h⟩
  · exact ⟨retire_disposed s, by simp [retire_of_undisposed hd], by simp [State.registered]⟩
  · exact ⟨retire_disposed s, by simp [State.forgetAll, retire_of_undisposed hd],
      List.nil_subset _⟩

theorem DisposeStart.disposed {m : Move} (h : DisposeStart t s m) : m.state.disposed = true := by
  rcases h.state_cases with ⟨hs, hd⟩ | ⟨hd, hs | hs⟩ <;> rw [hs]
  · exact hd
  · exact retire_disposed s
  · exact retire_disposed s

theorem start_disposed (task : Task) :
    (phaseStart c t s task).state.disposed = (s.disposed || task.isDisposal) := by
  have hsame : task.kind ≠ .disposes → (s.disposed || task.isDisposal) = s.disposed := by
    intro hk
    rw [not_isDisposal_of_kind hk, Bool.or_false]
  cases start_cases (c := c) (t := t) (s := s) task with
  | opens hk start =>
    rw [hsame (by simp [hk])]
    rcases start.state_cases with hs | hs <;> simp [hs]
  | disposes ht start => rw [start.disposed, ht, Bool.or_true]
  | other _ hd change => rw [hsame hd, change.sameDatabase.disposed]

theorem start_shut {task : Task} (hc : Closed s)
    (hd : (phaseStart c t s task).state.disposed = true) :
    Shut s (phaseStart c t s task).state := by
  have hbefore : task.kind ≠ .disposes → s.disposed = true := by
    intro hk
    simpa [start_disposed, not_isDisposal_of_kind hk] using hd
  cases start_cases (c := c) (t := t) (s := s) task with
  | opens hk start =>
    have hs := hbefore (by simp [hk])
    rcases start.state_cases with h | h <;> rw [h]
    · exact ⟨hs, hc hs, fun _ h => h⟩
    · exact ⟨by simp [hs], (claim_handle s t).trans (hc hs), by simp [State.registered]⟩
  | disposes _ start => exact start.shut hc
  | other _ hk change => exact change.sameDatabase.shut hc (hbefore hk)

/-! ## What stays registered -/

theorem register_subset (s : State) (h : StmtHandle) (sql : String) :
    s.registered ⊆ (s.register h sql).registered := by
  intro k hk
  cases hh : s.handle.isSome with
  | true =>
    rw [State.registered_register h sql hh]
    split
    · exact hk
    · exact List.mem_append_left _ hk
  | false =>
    have hs : s.register h sql = s := if_neg (by simp [hh])
    exact hs.symm ▸ hk

theorem lend_registered (s : State) (sql : String) : (s.lend sql).registered = s.registered := by
  unfold State.lend
  split <;> rfl

theorem shelve_registered (s : State) (h : StmtHandle) (sql : String) :
    (s.shelve h sql).registered = s.registered := by
  unfold State.shelve
  split <;> rfl

/-- A statement stays registered until its finalization has returned, unless a disposal drops it. -/
theorem Change.retains {returned : Option EngineCall} {m : Move} (h : Change returned s m)
    (hs : ∀ db, m.next = .inl (.closing db) →
      ∀ k ∈ s.registered, returned = some (.finalize k)) {k : StmtHandle} (hk : k ∈ s.registered) :
    k ∈ m.state.registered ∨ returned = some (.finalize k) := by
  cases h with
  | same state => exact .inl (state ▸ hk)
  | shelves state => exact .inl (by rwa [state, shelve_registered])
  | lends state => exact .inl (by rwa [state, lend_registered])
  | registers state => exact .inl (state ▸ register_subset s _ _ hk)
  | @reuses h sql state =>
    refine .inl (state ▸ register_subset _ _ _ ?_)
    rwa [lend_registered]
  | @forgets h sql final state =>
    by_cases he : k = h
    · exact .inr (he ▸ final)
    · rw [state, State.registered_forget]
      exact .inl (List.mem_filter.2 ⟨hk, by simpa using he⟩)
  | sweeps _ waits _ => exact .inr (hs _ waits k hk)

theorem resume_retains {p : Phase} {answer : (p.call c).Answer}
    (hs : ∀ db, (p.resume c t answer s).next = .inl (.closing db) →
      ∀ k ∈ s.registered, p.call c = .finalize k) {k : StmtHandle} (hk : k ∈ s.registered) :
    k ∈ (p.resume c t answer s).state.registered ∨ p.call c = .finalize k := by
  by_cases hp : p.kind = .opens
  · refine .inl ?_
    have hrest := open_rest (t := t) (s := s) hp answer
    generalize p.resume c t answer s = m at hrest
    cases hrest with
    | waits _ _ _ state => exact state ▸ hk
    | late _ _ state => exact state ▸ hk
    | installs _ _ _ state => exact state ▸ hk
    | fails _ _ state =>
      rw [state]
      split
      · simpa [State.registered] using hk
      · exact hk
  · have hc := (resume_change (t := t) hp answer).retains
      (fun db hn k hk => congrArg some (hs db hn k hk)) hk
    simpa using hc

theorem start_retains {task : Task}
    (hs : ∀ db, (phaseStart c t s task).next = .inl (.closing db) → s.registered = [])
    {k : StmtHandle} (hk : k ∈ s.registered) : k ∈ (phaseStart c t s task).state.registered := by
  have hstart := start_cases (c := c) (t := t) (s := s) task
  generalize phaseStart c t s task = m at hstart hs
  cases hstart with
  | opens _ start =>
    rcases start.state_cases with h | h <;> simpa [h, State.registered] using hk
  | disposes _ start =>
    have hretire : k ∈ s.retire.registered := by simpa [State.registered] using hk
    cases start with
    | again _ _ state => exact state ▸ hk
    | unopened _ _ _ state => exact state ▸ hretire
    | drains _ _ _ next =>
      cases next with
      | takes _ _ _ state => exact state ▸ hretire
      | closes _ waits _ => simp [hs _ waits] at hk
    | abandons _ _ _ waits _ => simp [hs _ waits] at hk
  | other _ _ change =>
    have hc := change.retains (fun db hn k hk => by simp [hs db hn] at hk) hk
    exact hc.resolve_right (by simp)

end ConfinedDb.Interleaving
