import ConfinedDb.Proofs.Interleaving.World
/-!
# Phases of an action

Everywhere an action can pause, by name. `Phase` has one constructor for each native call of an
action, with what the action still knows when that call returns; `Phase.resume` says how the action
goes on from there, and `phaseStart` how it begins. What several actions do alike is said once: how
a failure is turned into an error (`failChunk`), how a statement is finalized (`finalizeChunk`) and
how it goes to the cache (`shelveChunk`), how a disposal takes the next statement (`drainChunk`).
-/
namespace ConfinedDb.Interleaving

/-- What follows a failure of the engine once it has been reported. -/
inductive Onward where
  /-- An `exec` ends with it. -/
  | exec
  /-- A preparation ends with it. -/
  | prepare
  /-- A use ends with it, and with its statement. -/
  | use (st : Statement)
  /-- A release gives up on the cache and finalizes the statement. -/
  | discard (h : StmtHandle) (sql : String)

/-- Where an action can pause. -/
inductive Phase where
  /-- The native open; `claimed`: this open has confined the connection. -/
  | opening (flags : OpenFlags) (claimed : Bool)
  /-- An open has failed and asks for the message. -/
  | openFailed (flags : OpenFlags) (rc : ResultCode) (db? : Option DbHandle) (claimed : Bool)
  /-- An open has failed and closes the database that came with the code. -/
  | openCleanup (flags : OpenFlags) (rc : ResultCode) (db : DbHandle) (message : Option String)
      (claimed : Bool)
  /-- The connection was disposed while it was opened; the database is closed again. -/
  | openLate (db : DbHandle)
  | executing (db : DbHandle) (sql : String)
  | preparing (db : DbHandle) (sql : String) (lending : Lending)
  /-- The connection was disposed while a statement was prepared; it is finalized again. -/
  | prepareLate (h : StmtHandle) (sql : String)
  | binding (st : Statement) (index : Nat) (value : Value)
  | stepping (st : Statement)
  | counting (st : Statement)
  | reading (st : Statement) (index : Nat)
  /-- The reset that a user asked for; `clear`: the parameters are to be dropped too. -/
  | resetting (st : Statement) (clear : Bool)
  | clearing (st : Statement)
  /-- A call has failed, and the message is asked for. -/
  | failing (c : Connection) (db : DbHandle) (rc : ResultCode) (operation : String)
      (about : Option String) (onward : Onward)
  /-- The reset of a statement on its way to the cache. -/
  | rewinding (c : Connection) (h : StmtHandle) (sql : String) (hasBindings : Bool)
  /-- Its parameters are dropped. -/
  | unbinding (c : Connection) (h : StmtHandle) (sql : String)
  /-- A released statement is finalized. -/
  | finalizing (h : StmtHandle) (sql : String)
  /-- A disposal finalizes a statement, and has so many rounds left. -/
  | draining (h : StmtHandle) (sql : String) (rounds : Nat) (db : DbHandle)
  /-- A disposal closes the database. -/
  | closing (db : DbHandle)
  /-- The close has failed, and the message is asked for. -/
  | closeFailed (db : DbHandle) (rc : ResultCode)

def Phase.call (c : Connection) : Phase → EngineCall
  | .opening flags _ => .open c.location flags
  | .openFailed _ _ db? _ => .errorMessage db?
  | .openCleanup _ _ db _ _ => .close db
  | .openLate db => .close db
  | .executing db sql => .exec db sql
  | .preparing db sql _ => .prepare db sql
  | .prepareLate h _ => .finalize h
  | .binding st index value => .bind st.handle index value
  | .stepping st => .step st.handle
  | .counting st => .columnCount st.handle
  | .reading st index => .columnValue st.handle index
  | .resetting st _ => .reset st.handle
  | .clearing st => .clearBindings st.handle
  | .failing _ db _ _ _ _ => .errorMessage (some db)
  | .rewinding _ h _ _ => .reset h
  | .unbinding _ h _ => .clearBindings h
  | .finalizing h _ => .finalize h
  | .draining h _ _ _ => .finalize h
  | .closing db => .close db
  | .closeFailed db _ => .errorMessage (some db)

/-! ## What actions do alike -/

/-- A stretch of an action, by phases. -/
abbrev Move := Chunk Phase Outcome

def pause (p : Phase) (s : State) : Move := ⟨[], s, .inl p⟩

def finish (o : Outcome) (s : State) : Move := ⟨[], s, .inr o⟩

def failure (c : Connection) (rc : ResultCode) (operation : String)
    (about message : Option String) : Fault :=
  .engine rc ((s!"{c.label} {operation}" ++ (about.map (" " ++ ·)).getD "") ++
    match message with
    | some m => if about = some m then "" else s!" [{m}]"
    | none => "")

/-- The reports on the bookkeeping of a statement that was finalized, from the state before. -/
def finalizedNotices (h : StmtHandle) (sql : String) (rc : ResultCode) (s : State) : List Notice :=
  (if rc.isOk then [] else [.finalizeFailed rc sql]) ++
    if s.abandoned h then [.forgottenWhileFinalizing sql]
    else
      match s.statements.get? h with
      | none => [.alienStatement h sql]
      | some registered => if registered = sql then [] else [.differentText h sql registered]

/-- A released statement is finalized, unless a disposal has dropped it. -/
def finalizeChunk (h : StmtHandle) (sql : String) (s : State) : Move :=
  if s.abandoned h then (finish .finished s).after [.disposedElsewhere sql]
  else pause (.finalizing h sql) s

/-- A statement that is ready for the next use goes to the cache. -/
def shelveChunk (h : StmtHandle) (sql : String) (s : State) : Move :=
  if s.isOpen then
    match s.cache.verdict sql h with
    | .cached => finish .finished (s.shelve h sql)
    | .duplicate => (finish .finished (s.shelve h sql)).after [.cachedTwice h]
    | .occupied holder =>
      (finalizeChunk h sql (s.shelve h sql)).after [.cacheOccupied sql holder h]
  else (finish .finished (s.shelve h sql)).after [.disposedElsewhere sql]

/-- The parameters of a released statement are dropped, if it has any. -/
def unbindChunk (c : Connection) (h : StmtHandle) (sql : String) (hasBindings : Bool) (s : State) :
    Move :=
  if hasBindings then pause (.unbinding c h sql) s else shelveChunk h sql s

def Onward.chunk (e : Error) (s : State) : Onward → Move
  | .exec | .prepare => finish ⟨.error e, none⟩ s
  | .use st => finish ⟨.error e, some st⟩ s
  | .discard h sql => (finalizeChunk h sql s).after [.clearFailed e]

/-- A call has failed: the message is asked for if the database is there. -/
def failChunk (c : Connection) (rc : ResultCode) (operation : String) (about : Option String)
    (onward : Onward) (s : State) : Move :=
  match s.handle with
  | some db => pause (.failing c db rc operation about onward) s
  | none =>
    let fault := failure c rc operation about none
    (onward.chunk fault s).after [.failed fault]

/-- A disposal drops the bookkeeping that is left and closes the database. -/
def settleChunk (own : Bool) (db : DbHandle) (s : State) : Move :=
  let count := s.statements.size
  (pause (.closing db) s.forgetAll).after <|
    if count = 0 then [] else if own then [.notFinalized count] else [.alienDisposal count]

/-- A disposal on the owner takes the oldest statement, if there is one and there are rounds
left. -/
def drainChunk (db : DbHandle) (rounds : Nat) (s : State) : Move :=
  match rounds, s.statements.first? with
  | rounds + 1, some (h, sql) => pause (.draining h sql rounds db) s
  | _, _ => settleChunk true db s

/-- A prepared statement is registered and lent, or finalized again if the database is gone. -/
def registerChunk (c : Connection) (lending : Lending) (h : StmtHandle) (sql : String) (new : Bool)
    (s : State) : Move :=
  if s.handle.isSome then
    (finish ⟨.ok .done, some (.fresh c lending h sql)⟩ (s.register h sql)).after <|
      if new && s.statements.contains h then [.preparedTwice h] else []
  else pause (.prepareLate h sql) (s.register h sql)

def stepChunk (st : Statement) (rc : ResultCode) (s : State) : Move :=
  let st := { st with hasStepped := true, hasRow := rc == ResultCode.row }
  if rc == ResultCode.row then finish ⟨.ok (.flag true), some st⟩ s
  else if rc == ResultCode.done || rc.isOk then finish ⟨.ok (.flag false), some st⟩ s
  else failChunk st.connection rc "step()" (some st.sql) (.use st) s

def openFailChunk (t : ThreadId) (claimed : Bool) (f : Fault) (s : State) : Move :=
  finish ⟨.error f, none⟩ (if claimed then s.unclaim t else s)

/-! ## How an action goes on -/

def openFault (c : Connection) (rc : ResultCode) (message : Option String) : Fault :=
  let detail := message.getD ""
  .engine rc s!"{c.label} open({c.location}) {detail}"

def heard (inquiry : Inquiry) : Except Error String → List Notice × Option String
  | .ok message => ([], some message)
  | .error e => ([.noMessage inquiry e], none)

/-- How an action goes on when the call of a phase has returned. -/
def Phase.resume (c : Connection) (t : ThreadId) :
    (p : Phase) → (p.call c).Answer → State → Move
  | .opening flags claimed, (db?, rc), s =>
    if rc.isOk then
      match db? with
      | some db =>
        if s.disposed then pause (.openLate db) (s.install db)
        else (finish .finished (s.install db)).after [.opened flags]
      | none => openFailChunk t claimed (.inconsistent "engine didn't return db handle") s
    else pause (.openFailed flags rc db? claimed) s
  | .openFailed flags rc db? claimed, answer, s =>
    let (notices, message) := heard .opening answer
    match db? with
    | some db => (pause (.openCleanup flags rc db message claimed) s).after notices
    | none =>
      let fault := openFault c rc message
      (openFailChunk t claimed fault s).after (notices ++ [.failed fault])
  | .openCleanup _ rc _ message claimed, closed, s =>
    let fault := openFault c rc message
    (openFailChunk t claimed fault s).after
      ((if closed.isOk then [] else [.failedOpenNotClosed closed]) ++ [.failed fault])
  | .openLate _, rc, s =>
    (finish ⟨.error (Error.ofFault
      (.notOpened "connection disposed while open() was in progress")), none⟩ s).after
      [.disposedWhileOpening rc]
  | .executing _ _, (rc, message), s =>
    if rc.isOk then finish .finished s else failChunk c rc "exec()" message .exec s
  | .preparing _ sql lending, (h?, rc), s =>
    if rc.isOk then
      match h? with
      | some h => registerChunk c lending h sql true s
      | none =>
        let fault := Fault.inconsistent "engine did not return stmt"
        (finish ⟨.error fault, none⟩ s).after [.noStatement fault]
    else failChunk c rc "prepare()" (some sql) .prepare s
  | .prepareLate _ sql, rc, s =>
    (finish ⟨.error (Error.ofFault
      (.notOpened "connection closed while prepare() was in progress")), none⟩ s).after
      (if rc.isOk then [] else [.latePrepareNotFinalized rc sql])
  | .binding st index _, rc, s =>
    let st := { st with hasBindings := true }
    if rc.isOk then finish ⟨.ok .done, some st⟩ s
    else failChunk st.connection rc "bind()" (some s!"parameter {index} of [{st.sql}]")
      (.use st) s
  | .stepping st, rc, s => stepChunk st rc s
  | .counting st, n, s => finish ⟨.ok (.count n), some st⟩ s
  | .reading st _, v, s => finish ⟨v.map .value, some st⟩ s
  | .resetting st clear, rc, s =>
    if rc.isOk then
      let st := { st with hasStepped := false, hasRow := false }
      if clear && st.hasBindings then pause (.clearing st) s else finish ⟨.ok .done, some st⟩ s
    else failChunk st.connection rc "reset()" (some st.sql) (.use st) s
  | .clearing st, rc, s =>
    if rc.isOk then finish ⟨.ok .done, some { st with hasBindings := false }⟩ s
    else failChunk st.connection rc "clearBindings()" (some st.sql) (.use st) s
  | .failing c' _ rc operation about onward, answer, s =>
    let (notices, message) := heard .failing answer
    let fault := failure c' rc operation about message
    (onward.chunk fault s).after (notices ++ [.failed fault])
  | .rewinding c' h sql hasBindings, rc, s =>
    if rc.isOk then unbindChunk c' h sql hasBindings s
    else failChunk c' rc "reset()" none (.discard h sql) s
  | .unbinding c' h sql, rc, s =>
    if rc.isOk then shelveChunk h sql s
    else failChunk c' rc "clearBindings()" none (.discard h sql) s
  | .finalizing h sql, rc, s =>
    (finish .finished (s.forget h sql)).after (finalizedNotices h sql rc s)
  | .draining h sql rounds db, rc, s =>
    (drainChunk db rounds (s.forget h sql)).after (finalizedNotices h sql rc s)
  | .closing db, rc, s =>
    if rc.isOk then (finish .finished s).after [.closed] else pause (.closeFailed db rc) s
  | .closeFailed _ rc, answer, s =>
    let (notices, message) := heard .closing answer
    (finish .finished s).after (notices ++ [.closeFailed rc message, .closed])

/-! ## How an action begins -/

/-- Whether a thread may use the connection. -/
def permit (c : Connection) (t : ThreadId) (s : State) : Except Error Unit :=
  match s.owner with
  | some owner => c.checkOwner t owner
  | none => .ok ()

/-- An open begins: it confines the connection, unless that is done already. -/
def openChunk (c : Connection) (t : ThreadId) (flags : OpenFlags) (s : State) : Move :=
  if s.disposed then
    finish ⟨.error (Error.ofFault (.misuse "cannot reopen closed connection")), none⟩ (s.claim t)
  else
    match permit c t s with
    | .error e => finish ⟨.error e, none⟩ (s.claim t)
    | .ok () =>
      (if s.handle.isSome then
        (finish ⟨.error (Error.ofFault (.misuse s!"{c.label} already opened")), none⟩
          (s.claim t)).after [.alreadyOpened]
      else pause (.opening flags s.owner.isNone) (s.claim t)).after
        (if s.owner.isNone then [.confined t] else [])

/-- A use of a statement begins, if the thread may use the connection and the database is there. -/
def useChunk (t : ThreadId) (st : Statement) (s : State) (go : Move) : Move :=
  match permit st.connection t s with
  | .error e => finish ⟨.error e, some st⟩ s
  | .ok () =>
    match s.openHandle with
    | .error e => finish ⟨.error e, some st⟩ s
    | .ok _ => go

def releaseChunk (t : ThreadId) (st : Statement) (s : State) : Move :=
  match permit st.connection t s with
  | .error _ => (finish .finished s).after [.releasedByAlien st.lending st.sql]
  | .ok () =>
    if s.statements.contains st.handle then
      match st.lending with
      | .cached =>
        if st.hasStepped then pause (.rewinding st.connection st.handle st.sql st.hasBindings) s
        else unbindChunk st.connection st.handle st.sql st.hasBindings s
      | .uncached => finalizeChunk st.handle st.sql s
    else (finish .finished s).after [.alreadyFinalized st.lending st.sql]

def disposeChunk (t : ThreadId) (s : State) : Move :=
  if s.disposed then finish .finished s.retire
  else
    match s.handle with
    | none => (finish .finished s.retire).after [.disposedUnopened]
    | some db =>
      if s.owner = some t then drainChunk db s.statements.size s.retire
      else settleChunk false db s.retire

def phaseStart (c : Connection) (t : ThreadId) (s : State) : Task → Move
  | .open .readOnly =>
    if c.isMemory then
      finish ⟨.error (Error.ofFault
        (.misuse "cannot open memory database in read-only mode")), none⟩ s
    else openChunk c t OpenMode.readOnly.flags s
  | .open .readWrite =>
    if c.isMemory then
      finish ⟨.error (Error.ofFault
        (.misuse "cannot open memory database without creation")), none⟩ s
    else openChunk c t OpenMode.readWrite.flags s
  | .open .readWriteCreate => openChunk c t OpenMode.readWriteCreate.flags s
  | .exec sql =>
    match permit c t s with
    | .error e => finish ⟨.error e, none⟩ s
    | .ok () =>
      match s.openHandle with
      | .error e => finish ⟨.error e, none⟩ s
      | .ok db => pause (.executing db sql) s
  | .prepare sql lending =>
    match permit c t s with
    | .error e => finish ⟨.error e, none⟩ s
    | .ok () =>
      let s' := if lending = .cached then s.lend sql else s
      match s.openHandle with
      | .error e => finish ⟨.error e, none⟩ s'
      | .ok db =>
        match if lending = .cached then s.cache.get? sql else none with
        | some h => (registerChunk c lending h sql false s').after [.reusing sql]
        | none => pause (.preparing db sql lending) s'
  | .dispose => disposeChunk t s
  | .drop => (disposeChunk t s).after (if s.isOpen then [.droppedWhileOpen] else [])
  | .use _ st (.bind index value) => useChunk t st s (pause (.binding st index value) s)
  | .use _ st .step => useChunk t st s (pause (.stepping st) s)
  | .use _ st .columnCount => useChunk t st s (pause (.counting st) s)
  | .use _ st (.column index) => useChunk t st s <|
    if st.hasRow then pause (.reading st index) s
    else finish ⟨.error (Error.ofText
      s!"No row available to read column {index} from [{st.sql}]"), some st⟩ s
  | .use _ st (.reset clear) => useChunk t st s <|
    if st.hasStepped then pause (.resetting st clear) s
    else if clear && st.hasBindings then pause (.clearing st) s
    else finish ⟨.ok .done, some st⟩ s
  | .use _ st .release => releaseChunk t st s

/-- The operations of a connection, run by phases. -/
def phases (c : Connection) : Machine where
  Point := Phase
  call := Phase.call c
  start t task s := phaseStart c t s task
  resume t p answer s := p.resume c t answer s

end ConfinedDb.Interleaving
