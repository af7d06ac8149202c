import ConfinedDb.Proofs.Interleaving.Phase
/-!
# What is left of an action

An action that pauses still has a part of its program before it. Here that part is written out for
every phase (`Phase.rest`), from the operations that it is a part of: a native open that has failed
still has its message, its close and its error to see to (`Rest.openHeard`), a disposal that has
finalized one statement still has the others and the database (`Rest.finalized`, `Rest.settled`).

**`advance_rest`** says that the phases are right: what is left of an action, run to its next pause,
does what `Phase.resume` says, and pauses where that does.
-/
namespace ConfinedDb.Interleaving

open Operation

namespace Rest

def told (inquiry : Inquiry) : Except Error String → Operation (Option String)
  | .ok message => return some message
  | .error e => do
    report (.noMessage inquiry e)
    return none

def finalized (h : StmtHandle) (sql : String) (rc : ResultCode) : Operation Unit := do
  if rc.isOk then pure () else report (.finalizeFailed rc sql)
  let before ← locked (.forget h sql)
  if before.abandoned h then report (.forgottenWhileFinalizing sql)
  else
    match before.statements.get? h with
    | none => report (.alienStatement h sql)
    | some registered =>
      if registered = sql then pure () else report (.differentText h sql registered)

def failed (c : Connection) (rc : ResultCode) (operation : String) (about : Option String)
    (answer : Except Error String) : Operation Error := do
  let message ← told .failing answer
  let fault := failure c rc operation about message
  report (.failed fault)
  return Error.ofFault fault

def openRefused (c : Connection) (rc : ResultCode) (message : Option String) :
    Operation (Except Error DbHandle) := do
  let fault := openFault c rc message
  report (.failed fault)
  return .error (Error.ofFault fault)

def openCleaned (c : Connection) (rc : ResultCode) (message : Option String)
    (closed : ResultCode) : Operation (Except Error DbHandle) := do
  if closed.isOk then pure () else report (.failedOpenNotClosed closed)
  openRefused c rc message

def openHeard (c : Connection) (rc : ResultCode) (db? : Option DbHandle)
    (answer : Except Error String) : Operation (Except Error DbHandle) := do
  let message ← told .opening answer
  match db? with
  | some db =>
    let closed ← engine (.close db)
    openCleaned c rc message closed
  | none => openRefused c rc message

def openAnswered (c : Connection) (db? : Option DbHandle) (rc : ResultCode) :
    Operation (Except Error DbHandle) := do
  if rc.isOk then
    match db? with
    | some db => return .ok db
    | none => return .error (Error.ofFault (.inconsistent "engine didn't return db handle"))
  else
    let answer ← engine (.errorMessage db?)
    openHeard c rc db? answer

def openTooLate (rc : ResultCode) : Operation Outcome := do
  report (.disposedWhileOpening rc)
  return ⟨.error (Error.ofFault
    (.notOpened "connection disposed while open() was in progress")), none⟩

def openOnward (t : ThreadId) (flags : OpenFlags) (claimed : Bool) :
    Except Error DbHandle → Operation Outcome
  | .error e => do
    if claimed then discard (locked (.unclaim t))
    return ⟨.error e, none⟩
  | .ok db => do
    let before ← locked (.install db)
    if before.disposed then
      let rc ← engine (.close db)
      openTooLate rc
    else
      report (.opened flags)
      return .finished

def ran (c : Connection) (rc : ResultCode) (message : Option String) : Operation Outcome :=
  Outcome.ofResult <$> (c.checkCode rc "exec()" message).run

def preparedTooLate (sql : String) (rc : ResultCode) : Operation Outcome := do
  if rc.isOk then pure () else report (.latePrepareNotFinalized rc sql)
  return ⟨.error (Error.ofFault
    (.notOpened "connection closed while prepare() was in progress")), none⟩

def registered (c : Connection) (lending : Lending) (h : StmtHandle) (sql : String) (new : Bool) :
    Operation Outcome := do
  let before ← locked (.register h sql)
  if before.handle.isSome then
    if new && before.statements.contains h then report (.preparedTwice h)
    return ⟨.ok .done, some (.fresh c lending h sql)⟩
  else
    let rc ← engine (.finalize h)
    preparedTooLate sql rc

def prepared (c : Connection) (sql : String) (lending : Lending) (h? : Option StmtHandle)
    (rc : ResultCode) : Operation Outcome := do
  match ← (c.checkCode rc "prepare()" (some sql)).run with
  | .error e => return ⟨.error e, none⟩
  | .ok () =>
    match h? with
    | some h => registered c lending h sql true
    | none =>
      let fault := Fault.inconsistent "engine did not return stmt"
      report (.noStatement fault)
      return ⟨.error (Error.ofFault fault), none⟩

def checked (st : Statement) (rc : ResultCode) (operation about : String) (o : Operation Outcome) :
    Operation Outcome := do
  match ← (st.connection.checkCode rc operation (some about)).run with
  | .error e => return ⟨.error e, some st⟩
  | .ok () => o

def stepped (st : Statement) (rc : ResultCode) : Operation Outcome :=
  let st := { st with hasStepped := true, hasRow := rc == ResultCode.row }
  if rc == ResultCode.row then return ⟨.ok (.flag true), some st⟩
  else if rc == ResultCode.done then return ⟨.ok (.flag false), some st⟩
  else checked st rc "step()" st.sql (return ⟨.ok (.flag false), some st⟩)

def unbound (st : Statement) (rc : ResultCode) : Operation Outcome :=
  checked st rc "clearBindings()" st.sql
    (return ⟨.ok .done, some { st with hasBindings := false }⟩)

def rewound (st : Statement) (clear : Bool) : Operation Outcome :=
  if clear && st.hasBindings then do
    let rc ← engine (.clearBindings st.handle)
    unbound st rc
  else return ⟨.ok .done, some st⟩

def cleared (h : StmtHandle) (sql : String) : Except Error Unit → Operation Outcome
  | .error e => do
    report (.clearFailed e)
    Connection.finalize h sql
    return .finished
  | .ok () => do
    let before ← locked (.shelve h sql)
    if before.isOpen then
      match before.cache.verdict sql h with
      | .cached => pure ()
      | .duplicate => report (.cachedTwice h)
      | .occupied holder =>
        report (.cacheOccupied sql holder h)
        Connection.finalize h sql
    else report (.disposedElsewhere sql)
    return .finished

def clearedBindings (c : Connection) (h : StmtHandle) (sql : String) (rc : ResultCode) :
    Operation Outcome := do
  cleared h sql (← (c.checkCode rc "clearBindings()" none).run)

def clearedSteps (c : Connection) (h : StmtHandle) (sql : String) (hasBindings : Bool) :
    Except Error Unit → Operation Outcome
  | .error e => cleared h sql (.error e)
  | .ok () =>
    if hasBindings then do
      let rc ← engine (.clearBindings h)
      clearedBindings c h sql rc
    else cleared h sql (.ok ())

def closed (h : DbHandle) (rc : ResultCode) : Operation Outcome := do
  if rc.isOk then pure ()
  else report (.closeFailed rc (← inquire .closing (some h)))
  report .closed
  return .finished

def swept (own : Bool) : Operation Unit := do
  let count := (← locked .forgetAll).statements.size
  if count = 0 then return ()
  else if own then report (.notFinalized count)
  else report (.alienDisposal count)

def settled (own : Bool) (h : DbHandle) : Operation Outcome := do
  swept own
  let rc ← engine (.close h)
  closed h rc

end Rest

open Rest

def Onward.operation (e : Error) : Onward → Operation Outcome
  | .exec | .prepare => return ⟨.error e, none⟩
  | .use st => return ⟨.error e, some st⟩
  | .discard h sql => do
    report (.clearFailed e)
    Connection.finalize h sql
    return .finished

/-- What is left of an action when the call of a phase returns. -/
def Phase.rest (c : Connection) (t : ThreadId) :
    (p : Phase) → (p.call c).Answer → Operation Outcome
  | .opening flags claimed, (db?, rc) => openAnswered c db? rc >>= openOnward t flags claimed
  | .openFailed flags rc db? claimed, answer =>
    openHeard c rc db? answer >>= openOnward t flags claimed
  | .openCleanup flags rc _ message claimed, closed =>
    openCleaned c rc message closed >>= openOnward t flags claimed
  | .openLate _, rc => openTooLate rc
  | .executing _ _, (rc, message) => ran c rc message
  | .preparing _ sql lending, (h?, rc) => prepared c sql lending h? rc
  | .prepareLate _ sql, rc => preparedTooLate sql rc
  | .binding st index _, rc =>
    let st := { st with hasBindings := true }
    checked st rc "bind()" s!"parameter {index} of [{st.sql}]" (return ⟨.ok .done, some st⟩)
  | .stepping st, rc => stepped st rc
  | .counting st, n => return ⟨.ok (.count n), some st⟩
  | .reading st _, v => return ⟨v.map .value, some st⟩
  | .resetting st clear, rc =>
    checked st rc "reset()" st.sql (rewound { st with hasStepped := false, hasRow := false } clear)
  | .clearing st, rc => unbound st rc
  | .failing c' _ rc operation about onward, answer =>
    failed c' rc operation about answer >>= fun e => onward.operation e
  | .rewinding c' h sql hasBindings, rc => do
    clearedSteps c' h sql hasBindings (← (c'.checkCode rc "reset()" none).run)
  | .unbinding c' h sql, rc => clearedBindings c' h sql rc
  | .finalizing h sql, rc => do
    finalized h sql rc
    return .finished
  | .draining h sql rounds db, rc => do
    finalized h sql rc
    Connection.drain rounds
    settled true db
  | .closing h, rc => closed h rc
  | .closeFailed _ rc, answer => do
    report (.closeFailed rc (← told .closing answer))
    report .closed
    return .finished

/-- A pause of the programs. -/
def Phase.paused (c : Connection) (t : ThreadId) (p : Phase) : Paused Outcome :=
  ⟨p.call c, p.rest c t⟩

/-- A stretch of the programs. -/
abbrev Move.paused (c : Connection) (t : ThreadId) (m : Move) : Chunk (Paused Outcome) Outcome :=
  m.map (Phase.paused c t)

section Steps

variable {ω : Type} (s : State)

theorem advance_report (notice : Notice) (f : Unit → Operation ω) :
    advance (report notice >>= f) s = (advance (f ()) s).after [notice] := rfl

theorem advance_locked (update : State → State) (f : State → Operation ω) :
    advance (locked update >>= f) s = advance (f s) (update s) := rfl

theorem advance_peek (f : State → Operation ω) :
    advance (peek >>= f) s = advance (f s) s := rfl

end Steps

variable (c : Connection) (t : ThreadId)

/-! ## Stretches that several actions have -/

theorem advance_told {ω : Type} (inquiry : Inquiry) (answer : Except Error String)
    (f : Option String → Operation ω) (s : State) :
    advance (told inquiry answer >>= f) s
      = (advance (f (heard inquiry answer).2) s).after (heard inquiry answer).1 := by
  cases answer <;> rfl

theorem advance_finalized {ω : Type} (h : StmtHandle) (sql : String) (rc : ResultCode)
    (f : Unit → Operation ω) (s : State) :
    advance (finalized h sql rc >>= f) s
      = (advance (f ()) (s.forget h sql)).after (finalizedNotices h sql rc s) := by
  unfold finalized finalizedNotices
  by_cases hok : rc.isOk <;> by_cases ha : s.abandoned h <;>
    simp only [hok, ha, if_true, if_false, bind_assoc, advance_report, advance_locked,
      Chunk.after_after, Bool.false_eq_true, List.nil_append] <;> try rfl
  all_goals
    cases hg : s.statements.get? h with
    | none => rfl
    | some registered =>
      by_cases hr : registered = sql <;> simp only [hr, if_true, if_false] <;> rfl

theorem advance_finalize {ω : Type} (h : StmtHandle) (sql : String) (f : Unit → Operation ω)
    (s : State) :
    advance (Connection.finalize h sql >>= f) s
      = if s.abandoned h then (advance (f ()) s).after [.disposedElsewhere sql]
        else ⟨[], s, .inl ⟨.finalize h, fun rc => finalized h sql rc >>= f⟩⟩ := by
  unfold Connection.finalize
  split
  · simp only [*, bind_assoc, advance_peek, if_true, advance_report]
  · simp only [*, bind_assoc, advance_peek]
    rfl

theorem advance_finalize_last (h : StmtHandle) (sql : String) (s : State) :
    advance (do Connection.finalize h sql; return Outcome.finished) s
      = (finalizeChunk h sql s).paused c t := by
  rw [advance_finalize]
  unfold finalizeChunk
  split <;> rfl

theorem advance_onward (e : Error) (onward : Onward) (s : State) :
    advance (onward.operation e) s = (onward.chunk e s).paused c t := by
  cases onward with
  | exec => rfl
  | prepare => rfl
  | use st => rfl
  | discard h sql =>
    show (advance (do Connection.finalize h sql; return Outcome.finished) s).after _ = _
    rw [advance_finalize_last c t]
    rfl

theorem advance_failed {ω : Type} (c' : Connection) (rc : ResultCode) (operation : String)
    (about : Option String) (answer : Except Error String) (f : Error → Operation ω) (s : State) :
    advance (failed c' rc operation about answer >>= f) s
      = (advance (f (failure c' rc operation about (heard .failing answer).2)) s).after
        ((heard .failing answer).1 ++
          [.failed (failure c' rc operation about (heard .failing answer).2)]) := by
  unfold failed
  simp only [bind_assoc, advance_told, advance_report, pure_bind, Chunk.after_after]

theorem advance_checkCode (c' : Connection) (rc : ResultCode) (operation : String)
    (about : Option String) (onward : Onward) {f : Except Error Unit → Operation Outcome}
    (hf : ∀ e, f (.error e) = onward.operation e) (s : State) :
    advance ((c'.checkCode rc operation about).run >>= f) s
      = if rc.isOk then advance (f (.ok ())) s
        else (failChunk c' rc operation about onward s).paused c t := by
  by_cases hok : rc.isOk
  · simp only [Connection.checkCode, if_pos hok]
    rfl
  · rw [if_neg hok]
    unfold Connection.checkCode failChunk
    rw [if_neg hok]
    obtain ⟨handle, disposed, owner, statements, cache⟩ := s
    cases handle with
    | none =>
      show (advance (f (.error (failure c' rc operation about none))) _).after
        [.failed (failure c' rc operation about none)] = _
      rw [hf, advance_onward c t]
      rfl
    | some db =>
      refine congrArg
        (fun rest => Chunk.mk [] _ (Sum.inl (Paused.mk (.errorMessage (some db)) rest)))
        (funext fun answer => ?_)
      have hrest : Phase.rest c t (.failing c' db rc operation about onward) answer
          = failed c' rc operation about answer >>= fun e => f (.error e) :=
        congrArg (_ >>= ·) (funext fun e => (hf e).symm)
      rw [hrest]
      cases answer <;> rfl

theorem advance_shelved (h : StmtHandle) (sql : String) (s : State) :
    advance (cleared h sql (.ok ())) s = (shelveChunk h sql s).paused c t := by
  show advance (locked (.shelve h sql) >>= fun before => _) s = _
  rw [advance_locked]
  unfold shelveChunk
  by_cases ho : s.isOpen
  · simp only [if_pos ho]
    cases s.cache.verdict sql h with
    | cached => rfl
    | duplicate => rfl
    | occupied holder =>
      simp only [advance_report]
      rw [advance_finalize_last c t]
      rfl
  · simp only [if_neg ho]
    rfl

theorem advance_clearedBindings (c' : Connection) (h : StmtHandle) (sql : String)
    (rc : ResultCode) (s : State) :
    advance (clearedBindings c' h sql rc) s
      = ((Phase.unbinding c' h sql).resume c t rc s).paused c t := by
  unfold clearedBindings
  rw [advance_checkCode c t c' rc "clearBindings()" none (.discard h sql) (fun _ => rfl),
    advance_shelved c t]
  show _ = Move.paused c t (if rc.isOk then _ else _)
  split <;> rfl

theorem advance_unbind (c' : Connection) (h : StmtHandle) (sql : String) (hasBindings : Bool)
    (s : State) :
    advance (clearedSteps c' h sql hasBindings (.ok ())) s
      = (unbindChunk c' h sql hasBindings s).paused c t := by
  cases hasBindings with
  | false => exact advance_shelved c t h sql s
  | true => rfl

theorem advance_openOnward_error (flags : OpenFlags) (claimed : Bool) (f : Fault) (s : State) :
    advance (openOnward t flags claimed (.error f)) s
      = (openFailChunk t claimed f s).paused c t := by
  cases claimed <;> rfl

theorem advance_openRefused (rc : ResultCode) (message : Option String) (flags : OpenFlags)
    (claimed : Bool) (s : State) :
    advance (openRefused c rc message >>= openOnward t flags claimed) s
      = Move.paused c t ((openFailChunk t claimed (openFault c rc message) s).after
        [.failed (openFault c rc message)]) := by
  show (advance (openOnward t flags claimed (.error (openFault c rc message))) s).after _ = _
  rw [advance_openOnward_error c t]
  rfl

theorem advance_openCleaned (rc : ResultCode) (message : Option String) (closed : ResultCode)
    (flags : OpenFlags) (db : DbHandle) (claimed : Bool) (s : State) :
    advance (openCleaned c rc message closed >>= openOnward t flags claimed) s
      = ((Phase.openCleanup flags rc db message claimed).resume c t closed s).paused c t := by
  unfold openCleaned
  by_cases hc : closed.isOk
  · simp only [hc, if_true]
    rw [advance_openRefused]
    simp only [Phase.resume, hc, if_true, List.nil_append]
  · simp only [hc, if_false, bind_assoc, advance_report, Bool.false_eq_true]
    rw [advance_openRefused]
    simp only [Phase.resume, hc, if_false, Bool.false_eq_true, Chunk.map_after, Chunk.after_after]

theorem advance_openHeard (flags : OpenFlags) (rc : ResultCode) (db? : Option DbHandle)
    (claimed : Bool) (answer : Except Error String) (s : State) :
    advance (openHeard c rc db? answer >>= openOnward t flags claimed) s
      = ((Phase.openFailed flags rc db? claimed).resume c t answer s).paused c t := by
  unfold openHeard
  rw [bind_assoc, advance_told]
  cases db? with
  | none =>
    rw [advance_openRefused]
    simp only [Phase.resume, Chunk.map_after, Chunk.after_after]
  | some db => rfl

theorem advance_openAnswered (flags : OpenFlags) (claimed : Bool) (db? : Option DbHandle)
    (rc : ResultCode) (s : State) :
    advance (openAnswered c db? rc >>= openOnward t flags claimed) s
      = ((Phase.opening flags claimed).resume c t (db?, rc) s).paused c t := by
  unfold openAnswered
  by_cases hok : rc.isOk
  · simp only [hok, if_true, Phase.resume]
    cases db? with
    | none => exact advance_openOnward_error c t flags claimed _ s
    | some db =>
      show advance (locked (.install db) >>= fun before => _) s = _
      rw [advance_locked]
      by_cases hd : s.disposed <;> simp only [hd, if_true, if_false, Bool.false_eq_true] <;> rfl
  · simp only [hok, if_false, Phase.resume, Bool.false_eq_true]
    rfl

theorem advance_registered (lending : Lending) (h : StmtHandle) (sql : String) (new : Bool)
    (s : State) :
    advance (registered c lending h sql new) s
      = (registerChunk c lending h sql new s).paused c t := by
  unfold registered registerChunk
  rw [advance_locked]
  by_cases hh : s.handle.isSome
  · by_cases hn : new && s.statements.contains h <;> simp only [hh, hn, if_true] <;> rfl
  · simp only [hh, if_false, Bool.false_eq_true]
    rfl

theorem advance_prepared (db : DbHandle) (sql : String) (lending : Lending)
    (h? : Option StmtHandle) (rc : ResultCode) (s : State) :
    advance (prepared c sql lending h? rc) s
      = ((Phase.preparing db sql lending).resume c t (h?, rc) s).paused c t := by
  unfold prepared
  rw [advance_checkCode c t c rc "prepare()" (some sql) .prepare (fun _ => rfl)]
  by_cases hok : rc.isOk
  · simp only [hok, if_true, Phase.resume]
    cases h? with
    | none => rfl
    | some h => exact advance_registered c t lending h sql true s
  · simp only [hok, if_false, Phase.resume, Bool.false_eq_true]

theorem advance_checked (st : Statement) (rc : ResultCode) (operation about : String)
    (o : Operation Outcome) (s : State) :
    advance (checked st rc operation about o) s
      = if rc.isOk then advance o s
        else (failChunk st.connection rc operation (some about) (.use st) s).paused c t :=
  advance_checkCode c t st.connection rc operation (some about) (.use st) (fun _ => rfl) s

theorem advance_swept {ω : Type} (own : Bool) (f : Unit → Operation ω) (s : State) :
    advance (swept own >>= f) s
      = (advance (f ()) s.forgetAll).after
        (if s.statements.size = 0 then []
        else if own then [.notFinalized s.statements.size]
        else [.alienDisposal s.statements.size]) := by
  unfold swept
  rw [bind_assoc, advance_locked]
  by_cases hc : s.statements.size = 0
  · simp only [if_pos hc]
    rfl
  · simp only [if_neg hc]
    cases own <;> rfl

theorem advance_settled (own : Bool) (db : DbHandle) (s : State) :
    advance (settled own db) s = (settleChunk own db s).paused c t := by
  unfold settled
  rw [advance_swept]
  rfl

theorem not_abandoned_first {s : State} {h : StmtHandle} {sql : String}
    (hf : s.statements.first? = some (h, sql)) : s.abandoned h = false := by
  have hc : s.statements.contains h = true :=
    Registry.contains_first hf
  simp [State.abandoned, hc]

theorem advance_drained (rounds : Nat) (db : DbHandle) (s : State) :
    advance (Connection.drain rounds >>= fun _ => settled true db) s
      = (drainChunk db rounds s).paused c t := by
  cases rounds with
  | zero => exact advance_settled c t true db s
  | succ rounds =>
    unfold Connection.drain drainChunk
    rw [bind_assoc, advance_peek]
    cases hf : s.statements.first? with
    | none => exact advance_settled c t true db s
    | some entry =>
      obtain ⟨h, sql⟩ := entry
      have ha := not_abandoned_first hf
      simp only [bind_assoc]
      rw [advance_finalize, ha]
      rfl

theorem advance_closed (db : DbHandle) (rc : ResultCode) (s : State) :
    advance (closed db rc) s = ((Phase.closing db).resume c t rc s).paused c t := by
  unfold closed
  by_cases hok : rc.isOk
  · simp only [Phase.resume, hok, if_true]
    rfl
  · simp only [Phase.resume, hok, if_false, Bool.false_eq_true]
    show (⟨[], s, .inl ⟨.errorMessage (some db), _⟩⟩ : Chunk (Paused Outcome) Outcome) = _
    refine congrArg (fun rest => Chunk.mk [] s (Sum.inl (Paused.mk (.errorMessage (some db)) rest)))
      (funext fun answer => ?_)
    cases answer <;> rfl

theorem advance_unbound (st : Statement) (rc : ResultCode) (s : State) :
    advance (unbound st rc) s = ((Phase.clearing st).resume c t rc s).paused c t := by
  refine (advance_checked c t st rc _ _ _ s).trans ?_
  by_cases hok : rc.isOk <;> simp only [Phase.resume, hok, if_true, if_false, Bool.false_eq_true]
  rfl

theorem advance_stepped (st : Statement) (rc : ResultCode) (s : State) :
    advance (stepped st rc) s = (stepChunk st rc s).paused c t := by
  unfold stepped stepChunk
  by_cases hrow : rc == ResultCode.row
  · simp only [hrow, if_true]
    rfl
  · by_cases hdone : rc == ResultCode.done
    · simp only [hrow, hdone, if_true, if_false, Bool.true_or, Bool.false_eq_true]
      rfl
    · simp only [hrow, hdone, if_false, Bool.false_or, Bool.false_eq_true, advance_checked c t]
      split <;> rfl

theorem advance_rewound (st : Statement) (rc : ResultCode) (clear : Bool) (s : State) :
    advance (checked st rc "reset()" st.sql
        (rewound { st with hasStepped := false, hasRow := false } clear)) s
      = ((Phase.resetting st clear).resume c t rc s).paused c t := by
  refine (advance_checked c t st rc _ _ _ s).trans ?_
  by_cases hok : rc.isOk
  · simp only [Phase.resume, rewound, hok, if_true]
    by_cases hb : clear && st.hasBindings <;>
      simp only [hb, if_true, if_false, Bool.false_eq_true] <;> rfl
  · simp only [Phase.resume, hok, if_false, Bool.false_eq_true]

theorem advance_preparedTooLate (h : StmtHandle) (sql : String) (rc : ResultCode) (s : State) :
    advance (preparedTooLate sql rc) s
      = ((Phase.prepareLate h sql).resume c t rc s).paused c t := by
  unfold preparedTooLate
  by_cases hok : rc.isOk
  · simp only [Phase.resume, hok, if_true]
    rfl
  · simp only [Phase.resume, hok, if_false, Bool.false_eq_true]
    rfl

theorem advance_bound (st : Statement) (index : Nat) (value : Value) (rc : ResultCode)
    (s : State) :
    advance ((Phase.binding st index value).rest c t rc) s
      = ((Phase.binding st index value).resume c t rc s).paused c t := by
  refine (advance_checked c t _ rc _ _ _ s).trans ?_
  by_cases hok : rc.isOk <;> simp only [Phase.resume, hok, if_true, if_false, Bool.false_eq_true]
  rfl

theorem advance_clearedSteps (c' : Connection) (h : StmtHandle) (sql : String)
    (hasBindings : Bool) (rc : ResultCode) (s : State) :
    advance ((Phase.rewinding c' h sql hasBindings).rest c t rc) s
      = ((Phase.rewinding c' h sql hasBindings).resume c t rc s).paused c t := by
  refine (advance_checkCode c t c' rc "reset()" none (.discard h sql) (fun _ => rfl) s).trans ?_
  by_cases hok : rc.isOk
  · simp only [Phase.resume, hok, if_true]
    exact advance_unbind c t c' h sql hasBindings s
  · simp only [Phase.resume, hok, if_false, Bool.false_eq_true]

/-- **A phase goes on as its program does.** -/
theorem advance_rest (p : Phase) (answer : (p.call c).Answer) (s : State) :
    advance (p.rest c t answer) s = (p.resume c t answer s).paused c t := by
  cases p with
  | opening flags claimed => exact advance_openAnswered c t flags claimed answer.1 answer.2 s
  | openFailed flags rc db? claimed => exact advance_openHeard c t flags rc db? claimed answer s
  | openCleanup flags rc db message claimed =>
    exact advance_openCleaned c t rc message answer flags db claimed s
  | openLate db => rfl
  | executing db sql =>
    obtain ⟨rc, message⟩ := answer
    refine (advance_checkCode c t c rc "exec()" message .exec (fun _ => rfl) s).trans ?_
    by_cases hok : rc.isOk <;> simp only [Phase.resume, hok, if_true, if_false, Bool.false_eq_true]
    rfl
  | preparing db sql lending =>
    exact advance_prepared c t db sql lending answer.1 answer.2 s
  | prepareLate h sql => exact advance_preparedTooLate c t h sql answer s
  | binding st index value => exact advance_bound c t st index value answer s
  | stepping st => exact advance_stepped c t st answer s
  | counting st => rfl
  | reading st index => rfl
  | resetting st clear => exact advance_rewound c t st answer clear s
  | clearing st => exact advance_unbound c t st answer s
  | failing c' db rc operation about onward =>
    refine (advance_failed c' rc operation about answer _ s).trans ?_
    rw [advance_onward c t]
    rfl
  | rewinding c' h sql hasBindings => exact advance_clearedSteps c t c' h sql hasBindings answer s
  | unbinding c' h sql => exact advance_clearedBindings c t c' h sql answer s
  | finalizing h sql => exact advance_finalized h sql answer _ s
  | draining h sql rounds db =>
    refine (advance_finalized h sql answer _ s).trans ?_
    rw [advance_drained c t]
    rfl
  | closing db => exact advance_closed c t db answer s
  | closeFailed db rc => cases answer <;> rfl

end ConfinedDb.Interleaving
