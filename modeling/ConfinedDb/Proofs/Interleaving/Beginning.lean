import ConfinedDb.Proofs.Interleaving.Residue
/-!
# How an action begins

From its start to its first call every action does what `phaseStart` says, and what is left of it
then is what `Phase.rest` has: **`advance_operation`**. The checks that come first are the same in
all uses of a statement (`advance_validated`).
-/
namespace ConfinedDb.Interleaving

open Operation Rest

variable (c : Connection) (t : ThreadId)

theorem advance_checkThread {ω : Type} (f : Except Error Unit → Operation ω) (s : State) :
    advance ((c.checkThread t).run >>= f) s = advance (f (permit c t s)) s := by
  obtain ⟨handle, disposed, owner, statements, cache⟩ := s
  cases owner <;> rfl

theorem advance_admitted {α : Type} (k : Attempt α) (g : Except Error α → Outcome) (s : State) :
    advance (g <$> (c.checkThread t >>= fun _ => k).run) s
      = match permit c t s with
        | .error e => ⟨[], s, .inr (g (.error e))⟩
        | .ok () => advance (g <$> k.run) s := by
  obtain ⟨handle, disposed, owner, statements, cache⟩ := s
  cases owner with
  | none => rfl
  | some owner =>
    show advance (g <$> (Attempt.ofExcept (c.checkOwner t owner) >>= fun _ => k).run) _
      = match c.checkOwner t owner with
        | .error e => _
        | .ok () => _
    cases c.checkOwner t owner <;> rfl

section Uses

variable {α : Type} (reply : α → Reply) (k : OnStatement α) (st : Statement) (s : State)

theorem advance_opened :
    advance (Outcome.ofUse reply <$>
        (OnStatement.ofAttempt (discard openHandle) >>= fun _ => k).run.run st) s
      = match s.openHandle with
        | .error e => ⟨[], s, .inr ⟨.error e, some st⟩⟩
        | .ok _ => advance (Outcome.ofUse reply <$> k.run.run st) s := by
  obtain ⟨handle, disposed, owner, statements, cache⟩ := s
  cases disposed with
  | true => rfl
  | false => cases handle <;> rfl

theorem advance_confined :
    advance (Outcome.ofUse reply <$>
        (OnStatement.ofAttempt (st.connection.checkThread t) >>= fun _ => k).run.run st) s
      = match permit st.connection t s with
        | .error e => ⟨[], s, .inr ⟨.error e, some st⟩⟩
        | .ok () => advance (Outcome.ofUse reply <$> k.run.run st) s := by
  obtain ⟨handle, disposed, owner, statements, cache⟩ := s
  cases owner with
  | none => rfl
  | some owner =>
    show advance (Outcome.ofUse reply <$> (OnStatement.ofAttempt (Attempt.ofExcept
        (st.connection.checkOwner t owner)) >>= fun _ => k).run.run st) _
      = match st.connection.checkOwner t owner with
        | .error e => _
        | .ok () => _
    cases st.connection.checkOwner t owner <;> rfl

omit st s in
theorem get_run (f : Statement → OnStatement α) (st : Statement) :
    (get >>= f).run.run st = (f st).run.run st := rfl

theorem advance_validated {go : Move}
    (hgo : advance (Outcome.ofUse reply <$> k.run.run st) s = go.paused c t) :
    advance (Outcome.ofUse reply <$> (Statement.validate t >>= fun _ => k).run.run st) s
      = (useChunk t st s go).paused c t := by
  have hv : (Statement.validate t >>= fun _ => k)
      = get >>= fun st : Statement => OnStatement.ofAttempt (st.connection.checkThread t)
        >>= fun _ => OnStatement.ofAttempt (discard openHandle) >>= fun _ => k := by
    simp only [Statement.validate, bind_assoc]
  rw [hv, get_run, advance_confined, advance_opened, hgo]
  unfold useChunk
  cases permit st.connection t s with
  | error e => rfl
  | ok _ => cases s.openHandle <;> rfl

end Uses

theorem checkCode_run {α : Type} (st : Statement) (rc : ResultCode) (operation about : String)
    (k : OnStatement α) (reply : α → Reply) :
    Outcome.ofUse reply <$> (Statement.checkCode rc operation about >>= fun _ => k).run.run st
      = checked st rc operation about (Outcome.ofUse reply <$> k.run.run st) := by
  show Outcome.ofUse reply <$> ((do
    let r ← (st.connection.checkCode rc operation (some about)).run
    pure (r, st)) >>= fun r => _) = _
  simp only [map_bind, bind_assoc, pure_bind, checked]
  refine congrArg (_ >>= ·) (funext fun r => ?_)
  cases r <;> rfl

theorem openCleaned_run (rc : ResultCode) (message : Option String) (closed : ResultCode) :
    ExceptT.run (do
        if closed.isOk then pure () else report (.failedOpenNotClosed closed)
        let fault := openFault c rc message
        report (.failed fault)
        throw (Error.ofFault fault) : Attempt DbHandle)
      = openCleaned c rc message closed := by
  unfold openCleaned
  by_cases hc : closed.isOk
  · simp only [if_pos hc]
    rfl
  · simp only [if_neg hc]
    rfl

theorem openEngine_run (flags : OpenFlags) :
    (c.openEngine flags).run
      = engine (.open c.location flags) >>= fun answer => openAnswered c answer.1 answer.2 := by
  refine congrArg (Program.ask _) (funext fun answer => ?_)
  obtain ⟨db?, rc⟩ := answer
  show ExceptT.run (if rc.isOk then _ else _ : Attempt DbHandle) = openAnswered c db? rc
  unfold openAnswered
  by_cases hok : rc.isOk
  · simp only [if_pos hok]
    cases db? <;> rfl
  · simp only [if_neg hok]
    refine congrArg (Program.ask _) (funext fun answer => ?_)
    cases db? with
    | none => cases answer <;> rfl
    | some db =>
      cases answer with
      | error e =>
        exact congrArg (Program.ask _) (funext fun _ =>
          congrArg (Program.ask _) (funext fun closed => openCleaned_run c rc none closed))
      | ok message =>
        exact congrArg (Program.ask _) (funext fun closed =>
          openCleaned_run c rc (some message) closed)

def openStoring (flags : OpenFlags) (claimed : Bool) : Attempt Unit := do
  let h ← tryCatch (c.openEngine flags) fun e => do
    if claimed then discard (locked (.unclaim t))
    throw e
  if (← locked (.install h)).disposed then
    let rc ← engine (.close h)
    report (.disposedWhileOpening rc)
    throw (Error.ofFault (.notOpened "connection disposed while open() was in progress"))
  else report (.opened flags)

theorem openStoring_run (flags : OpenFlags) (claimed : Bool) :
    Outcome.ofResult <$> (openStoring c t flags claimed).run
      = (c.openEngine flags).run >>= openOnward t flags claimed := by
  show Outcome.ofResult <$> (((c.openEngine flags).run >>= fun r => _) >>= fun r => _) = _
  rw [map_bind, bind_assoc]
  refine congrArg (_ >>= ·) (funext fun r => ?_)
  cases r with
  | error e => cases claimed <;> rfl
  | ok db =>
    refine congrArg (Program.ask _) (funext fun before => ?_)
    show Outcome.ofResult <$> ExceptT.run (if before.disposed then _ else _ : Attempt Unit)
      = if before.disposed then _ else _
    by_cases hd : State.disposed before
    · simp only [if_pos hd]
      rfl
    · simp only [if_neg hd]
      rfl

theorem advance_openStoring (flags : OpenFlags) (claimed : Bool) (s : State) :
    advance (Outcome.ofResult <$> (openStoring c t flags claimed).run) s
      = (pause (.opening flags claimed) s).paused c t := by
  rw [openStoring_run, openEngine_run]
  rfl

theorem advance_openWith (flags : OpenFlags) (s : State) :
    advance (Outcome.ofResult <$> (c.openWith t flags).run) s
      = (openChunk c t flags s).paused c t := by
  unfold openChunk
  obtain ⟨handle, disposed, owner, statements, cache⟩ := s
  cases disposed with
  | true => rfl
  | false =>
    cases owner with
    | none =>
      cases handle with
      | some db => rfl
      | none =>
        show (advance (Outcome.ofResult <$> (openStoring c t flags true).run) _).after _ = _
        rw [advance_openStoring]
        rfl
    | some owner =>
      show advance (Outcome.ofResult <$> (Attempt.ofExcept (c.checkOwner t owner) >>= fun _ =>
          if handle.isSome then do
            report .alreadyOpened
            throw (Error.ofFault (.misuse s!"{c.label} already opened"))
          else openStoring c t flags false).run) _ = Move.paused c t
        (match c.checkOwner t owner with
          | .error e => _
          | .ok () => _)
      cases c.checkOwner t owner with
      | error e => rfl
      | ok _ =>
        cases handle with
        | some db => rfl
        | none => exact advance_openStoring c t flags false _

/-- What is left of a disposal once the statements are dealt with. -/
theorem closed_run (db : DbHandle) :
    (fun _ => Outcome.finished) <$> (do
        let rc ← engine (.close db)
        if rc.isOk then pure ()
        else report (.closeFailed rc (← inquire .closing (some db)))
        report .closed : Operation Unit)
      = engine (.close db) >>= closed db := by
  refine congrArg (Program.ask _) (funext fun rc => ?_)
  show (fun _ => Outcome.finished) <$> (if ResultCode.isOk rc then _ else _ : Operation Unit)
    = closed db rc
  unfold closed
  by_cases hok : ResultCode.isOk rc
  · simp only [if_pos hok]
    rfl
  · simp only [if_neg hok]
    refine congrArg (Program.ask _) (funext fun answer => ?_)
    cases answer <;> rfl

theorem finalizeAll_own (rounds : Nat) :
    Connection.finalizeAll t (some t) rounds = Connection.drain rounds >>= fun _ => swept true := by
  simp only [Connection.finalizeAll, swept, if_true]

theorem finalizeAll_alien {owner : Option ThreadId} (ho : owner ≠ some t) (rounds : Nat) :
    Connection.finalizeAll t owner rounds = swept false := by
  simp only [Connection.finalizeAll, swept, if_neg ho, Bool.false_eq_true, if_false]

theorem advance_dispose (s : State) :
    advance ((fun _ => Outcome.finished) <$> Connection.dispose t) s
      = (disposeChunk t s).paused c t := by
  obtain ⟨handle, disposed, owner, statements, cache⟩ := s
  cases disposed with
  | true => rfl
  | false =>
    cases handle with
    | none => rfl
    | some db =>
      show advance ((fun _ => Outcome.finished) <$>
        (Connection.finalizeAll t owner statements.size >>= fun _ => do
          let rc ← engine (.close db)
          if rc.isOk then pure ()
          else report (.closeFailed rc (← inquire .closing (some db)))
          report .closed)) _ = _
      rw [map_bind, closed_run]
      by_cases ho : owner = some t
      · subst ho
        simp only [disposeChunk, if_true]
        rw [finalizeAll_own, bind_assoc]
        exact advance_drained c t statements.size db _
      · simp only [disposeChunk, if_neg ho]
        rw [finalizeAll_alien t ho]
        exact advance_settled c t false db _

theorem checkCode_last (st : Statement) (rc : ResultCode) (operation about : String) :
    Outcome.ofUse (fun _ => .done) <$> (Statement.checkCode rc operation about).run.run st
      = checked st rc operation about (return ⟨.ok .done, some st⟩) := by
  have h : Statement.checkCode rc operation about
      = (Statement.checkCode rc operation about >>= fun _ => pure ()) := (bind_pure _).symm
  rw [h, checkCode_run]
  rfl

theorem advance_bindUse (st : Statement) (index : Nat) (value : Value) (s : State) :
    advance ((Use.bind index value).operation t st) s
      = (useChunk t st s (pause (.binding st index value) s)).paused c t := by
  refine advance_validated c t (fun _ => .done) _ st s ?_
  refine congrArg
    (fun rest => Chunk.mk [] s (Sum.inl (Paused.mk (.bind st.handle index value) rest)))
    (funext fun rc => ?_)
  show Outcome.ofUse (fun _ => .done) <$> (Statement.checkCode rc "bind()"
    s!"parameter {index} of [{st.sql}]").run.run { st with hasBindings := true } = _
  rw [checkCode_last]
  rfl

theorem advance_stepUse (st : Statement) (s : State) :
    advance (Use.step.operation t st) s
      = (useChunk t st s (pause (.stepping st) s)).paused c t := by
  refine advance_validated c t .flag _ st s ?_
  refine congrArg (fun rest => Chunk.mk [] s (Sum.inl (Paused.mk (.step st.handle) rest)))
    (funext fun rc => ?_)
  show Outcome.ofUse .flag <$>
      (ExceptT.run (if rc == ResultCode.row then _ else _ : OnStatement Bool)).run
        { st with hasStepped := true, hasRow := rc == ResultCode.row }
    = stepped st rc
  unfold stepped
  by_cases hrow : rc == ResultCode.row
  · simp only [if_pos hrow]
    rfl
  · simp only [if_neg hrow]
    by_cases hdone : rc == ResultCode.done
    · simp only [if_pos hdone]
      rfl
    · simp only [if_neg hdone, checkCode_run]
      rfl

theorem advance_columnUse (st : Statement) (index : Nat) (s : State) :
    advance ((Use.column index).operation t st) s
      = (phaseStart c t s (.use 0 st (.column index))).paused c t := by
  refine advance_validated c t .value _ st s ?_
  show advance (Outcome.ofUse .value <$>
    (ExceptT.run (if st.hasRow then _ else _ : OnStatement Value)).run st) s = _
  by_cases hr : st.hasRow
  · simp only [if_pos hr]
    rfl
  · simp only [if_neg hr]
    rfl

def resetting (clear : Bool) : OnStatement Unit := do
  if (← get).hasStepped then
    let s ← get
    Statement.checkCode (← OnStatement.engine (.reset s.handle)) "reset()" s.sql
    set { s with hasStepped := false, hasRow := false }
  let s ← get
  if clear && s.hasBindings then
    Statement.checkCode (← OnStatement.engine (.clearBindings s.handle)) "clearBindings()" s.sql
    set { s with hasBindings := false }

def unbinding (clear : Bool) : OnStatement Unit := do
  let s ← get
  if clear && s.hasBindings then
    Statement.checkCode (← OnStatement.engine (.clearBindings s.handle)) "clearBindings()" s.sql
    set { s with hasBindings := false }

theorem unbinding_run (clear : Bool) (st : Statement) :
    Outcome.ofUse (fun _ => .done) <$> (unbinding clear).run.run st = rewound st clear := by
  show Outcome.ofUse _ <$>
    (ExceptT.run (if clear && st.hasBindings then _ else _ : OnStatement Unit)).run st = _
  unfold rewound
  by_cases hb : clear && st.hasBindings
  · simp only [if_pos hb]
    refine congrArg (Program.ask _) (funext fun rc => ?_)
    exact checkCode_run st rc _ _ (set { st with hasBindings := false }) _
  · simp only [if_neg hb]
    rfl

theorem advance_resetUse (st : Statement) (clear : Bool) (s : State) :
    advance ((Use.reset clear).operation t st) s
      = (phaseStart c t s (.use 0 st (.reset clear))).paused c t := by
  show advance (Outcome.ofUse (fun _ => .done) <$>
    (Statement.validate t >>= fun _ => resetting clear).run.run st) s = _
  refine advance_validated c t (fun _ => .done) (resetting clear) st s ?_
  show advance (Outcome.ofUse (fun _ => .done) <$>
    (ExceptT.run (if st.hasStepped then _ else unbinding clear : OnStatement Unit)).run st) s = _
  by_cases hs : st.hasStepped
  · simp only [if_pos hs]
    refine congrArg (fun rest => Chunk.mk [] s (Sum.inl (Paused.mk (.reset st.handle) rest)))
      (funext fun rc => ?_)
    show Outcome.ofUse (fun _ => .done) <$> (Statement.checkCode rc "reset()" st.sql >>= fun _ =>
      set { st with hasStepped := false, hasRow := false } >>= fun _ => unbinding clear).run.run st
      = _
    rw [checkCode_run]
    exact congrArg (checked st rc "reset()" st.sql)
      (unbinding_run clear { st with hasStepped := false, hasRow := false })
  · simp only [if_neg hs]
    rw [unbinding_run]
    unfold rewound
    by_cases hb : clear && st.hasBindings
    · simp only [if_pos hb]
      rfl
    · simp only [if_neg hb]
      rfl

theorem putBack_run (c' : Connection) (h : StmtHandle) (sql : String)
    (hasBindings hasStepped : Bool) :
    (fun _ => Outcome.finished) <$> c'.putBack h sql hasBindings hasStepped
      = (c'.clear h hasBindings hasStepped).run >>= cleared h sql := by
  unfold Connection.putBack
  rw [map_bind]
  refine congrArg (_ >>= ·) (funext fun r => ?_)
  cases r with
  | error e => rfl
  | ok _ =>
    refine congrArg (Program.ask _) (funext fun before => ?_)
    show (fun _ => Outcome.finished) <$> (if State.isOpen before then _ else _ : Operation Unit)
      = if State.isOpen before then _ else _
    by_cases ho : State.isOpen before
    · simp only [if_pos ho]
      cases (State.cache before).verdict sql h <;> rfl
    · simp only [if_neg ho]
      rfl

theorem advance_putBack (c' : Connection) (h : StmtHandle) (sql : String)
    (hasBindings hasStepped : Bool) (s : State) :
    advance ((fun _ => Outcome.finished) <$> c'.putBack h sql hasBindings hasStepped) s
      = Move.paused c t (if hasStepped then pause (.rewinding c' h sql hasBindings) s
        else unbindChunk c' h sql hasBindings s) := by
  rw [putBack_run]
  cases hasStepped with
  | true =>
    refine congrArg (fun rest => Chunk.mk [] s (Sum.inl (Paused.mk (.reset h) rest)))
      (funext fun rc => ?_)
    show ((c'.checkCode rc "reset()" none).run >>= fun r => _) >>= _
      = (c'.checkCode rc "reset()" none).run >>= clearedSteps c' h sql hasBindings
    rw [bind_assoc]
    refine congrArg (_ >>= ·) (funext fun r => ?_)
    cases r with
    | error e => rfl
    | ok _ => cases hasBindings <;> rfl
  | false =>
    simp only [Bool.false_eq_true, if_false, ← advance_unbind c t]
    cases hasBindings <;> rfl

theorem advance_releaseUse (st : Statement) (s : State) :
    advance (Use.release.operation t st) s = (releaseChunk t st s).paused c t := by
  show advance ((fun _ => Outcome.finished) <$> ((st.connection.checkThread t).run >>= fun r => _))
    s = _
  rw [map_bind, advance_checkThread]
  unfold releaseChunk
  cases permit st.connection t s with
  | error e => rfl
  | ok _ =>
    show advance ((fun _ => Outcome.finished) <$>
      (if s.statements.contains st.handle then _ else _ : Operation Unit)) s = _
    by_cases hc : s.statements.contains st.handle
    · simp only [if_pos hc]
      cases st.lending with
      | cached => exact advance_putBack c t st.connection st.handle st.sql _ _ s
      | uncached => exact advance_finalize_last c t st.handle st.sql s
    · simp only [if_neg hc]
      rfl

def registering (lending : Lending) (h : StmtHandle) (sql : String) (new : Bool) :
    Attempt Statement := do
  let before ← locked (.register h sql)
  if before.handle.isSome then
    if new && before.statements.contains h then report (.preparedTwice h)
    return .fresh c lending h sql
  else
    let rc ← engine (.finalize h)
    if rc.isOk then pure () else report (.latePrepareNotFinalized rc sql)
    throw (Error.ofFault (.notOpened "connection closed while prepare() was in progress"))

theorem registering_run (lending : Lending) (h : StmtHandle) (sql : String) (new : Bool) :
    Outcome.ofPrepared <$> (registering c lending h sql new).run
      = registered c lending h sql new := by
  refine congrArg (Program.ask _) (funext fun before => ?_)
  show Outcome.ofPrepared <$>
      ExceptT.run (if (State.handle before).isSome then _ else _ : Attempt Statement)
    = if (State.handle before).isSome then _ else _
  by_cases hh : (State.handle before).isSome
  · simp only [if_pos hh]
    by_cases hn : new && (State.statements before).contains h
    · simp only [if_pos hn]
      rfl
    · simp only [if_neg hn]
      rfl
  · simp only [if_neg hh]
    refine congrArg (Program.ask _) (funext fun rc => ?_)
    show Outcome.ofPrepared <$>
      ExceptT.run (if ResultCode.isOk rc then _ else _ : Attempt Statement)
      = preparedTooLate sql rc
    unfold preparedTooLate
    by_cases hok : ResultCode.isOk rc
    · simp only [if_pos hok]
      rfl
    · simp only [if_neg hok]
      rfl

theorem prepareEngine_run (db : DbHandle) (sql : String) (lending : Lending) :
    Outcome.ofPrepared <$>
        (c.prepareEngine db sql >>= fun h => registering c lending h sql true).run
      = engine (.prepare db sql) >>= fun answer => prepared c sql lending answer.1 answer.2 := by
  refine congrArg (Program.ask _) (funext fun answer => ?_)
  obtain ⟨h?, rc⟩ := answer
  show Outcome.ofPrepared <$> ((((c.checkCode rc "prepare()" (some sql)).run >>= fun r => _)
    >>= fun r => _)) = (c.checkCode rc "prepare()" (some sql)).run >>= fun r => _
  rw [bind_assoc, map_bind]
  refine congrArg (_ >>= ·) (funext fun r => ?_)
  cases r with
  | error e => rfl
  | ok _ =>
    cases h? with
    | none => rfl
    | some h => exact registering_run c lending h sql true

theorem advance_obtained (db : DbHandle) (sql : String) (lending : Lending)
    (reused : Option StmtHandle) (s : State) :
    advance (Outcome.ofPrepared <$> (do
        let h ← match reused with
          | some h => do
            report (.reusing sql)
            pure h
          | none => c.prepareEngine db sql
        registering c lending h sql reused.isNone : Attempt Statement).run) s
      = Move.paused c t (match reused with
        | some h => (registerChunk c lending h sql false s).after [.reusing sql]
        | none => pause (.preparing db sql lending) s) := by
  cases reused with
  | some h =>
    show (advance (Outcome.ofPrepared <$> (registering c lending h sql false).run) s).after _ = _
    rw [registering_run, advance_registered c t]
    rfl
  | none =>
    show advance (Outcome.ofPrepared <$>
      (c.prepareEngine db sql >>= fun h => registering c lending h sql true).run) s = _
    rw [prepareEngine_run]
    rfl

theorem advance_prepare (sql : String) (lending : Lending) (s : State) :
    advance (Outcome.ofPrepared <$> (c.prepare t sql lending).run) s
      = (phaseStart c t s (.prepare sql lending)).paused c t := by
  refine (advance_admitted c t _ _ s).trans ?_
  unfold phaseStart
  cases permit c t s with
  | error e => rfl
  | ok _ =>
    obtain ⟨handle, disposed, owner, statements, cache⟩ := s
    cases disposed with
    | true => cases lending <;> rfl
    | false =>
      cases handle with
      | none => cases lending <;> rfl
      | some db =>
        cases lending with
        | uncached => exact advance_obtained c t db sql .uncached none _
        | cached => exact advance_obtained c t db sql .cached (cache.get? sql) _

theorem advance_exec (sql : String) (s : State) :
    advance (Outcome.ofResult <$> (c.exec t sql).run) s
      = (phaseStart c t s (.exec sql)).paused c t := by
  refine (advance_admitted c t _ _ s).trans ?_
  unfold phaseStart
  cases permit c t s with
  | error e => rfl
  | ok _ =>
    obtain ⟨handle, disposed, owner, statements, cache⟩ := s
    cases disposed with
    | true => rfl
    | false => cases handle <;> rfl

theorem advance_drop (s : State) :
    advance ((fun _ => Outcome.finished) <$> Connection.drop t) s
      = (phaseStart c t s .drop).paused c t := by
  show advance ((fun _ => Outcome.finished) <$> (if s.isOpen then _ else _ : Operation Unit)) s = _
  by_cases ho : s.isOpen
  · simp only [phaseStart, if_pos ho]
    show (advance ((fun _ => Outcome.finished) <$> Connection.dispose t) s).after _ = _
    rw [advance_dispose]
    rfl
  · simp only [phaseStart, if_neg ho]
    exact advance_dispose c t s

/-- **An action begins as its program does.** -/
theorem advance_operation (task : Task) (s : State) :
    advance (task.operation c t) s = (phaseStart c t s task).paused c t := by
  cases task with
  | «open» mode =>
    cases mode with
    | readOnly =>
      show advance (Outcome.ofResult <$> (c.openReadOnly t).run) s = _
      unfold Connection.openReadOnly
      by_cases hm : c.isMemory <;> simp only [phaseStart, hm, if_true, if_false, Bool.false_eq_true]
      · rfl
      · exact advance_openWith c t _ s
    | readWrite =>
      show advance (Outcome.ofResult <$> (c.openWriting t false).run) s = _
      unfold Connection.openWriting
      by_cases hm : c.isMemory <;> simp only [phaseStart, hm, if_true, if_false, Bool.false_eq_true]
      · rfl
      · exact advance_openWith c t _ s
    | readWriteCreate => exact advance_openWith c t _ s
  | exec sql => exact advance_exec c t sql s
  | use s' st u =>
    cases u with
    | bind index value => exact advance_bindUse c t st index value s
    | step => exact advance_stepUse c t st s
    | columnCount => exact advance_validated c t .count _ st _ rfl
    | column index => exact advance_columnUse c t st index s
    | reset clear => exact advance_resetUse c t st clear s
    | release => exact advance_releaseUse c t st s
  | prepare sql lending => exact advance_prepare c t sql lending s
  | dispose => exact advance_dispose c t s
  | drop => exact advance_drop c t s

end ConfinedDb.Interleaving
