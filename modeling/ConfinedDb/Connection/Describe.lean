import ConfinedDb.Statement
/-!
# Diagnostic descriptions

The one-line forms of connections and statements that name every field.
-/
namespace ConfinedDb

def braced (fields : List String) : String :=
  if fields.isEmpty then "\x7b\x7d" else "\x7b " ++ ", ".intercalate fields ++ " \x7d"

def bracedMap (entries : List String) : String := "\x7b" ++ ", ".intercalate entries ++ "\x7d"

def DbHandle.describe (h : DbHandle) : String := s!"DbHandle({h.raw})"

def StmtHandle.describe (h : StmtHandle) : String := s!"StmtHandle({h.raw})"

def Registry.describe (r : Registry) : String :=
  let entries := r.toList.map fun (h, sql) => s!"{StmtHandle.describe h}: {Text.quote sql}"
  "StatementRegistry " ++ braced ["statements: " ++ bracedMap entries]

def Cache.describe (c : Cache) : String :=
  let entries := c.toList.map fun (sql, h) => s!"{Text.quote sql}: {StmtHandle.describe h}"
  "StatementCache " ++ braced ["statements: " ++ bracedMap entries]

def State.describe (s : State) : String :=
  "ConnectionState " ++ braced
    [s!"handle: {Text.optional DbHandle.describe s.handle}",
     s!"disposed: {s.disposed}",
     s!"confinement: {Text.optional ThreadId.display s.owner}",
     s!"statements: {s.statements.describe}",
     s!"cache: {s.cache.describe}"]

/-- A connection in a given state. -/
def Connection.describe (c : Connection) (s : State) : String :=
  "Connection " ++ braced
    [s!"number: {c.number}", s!"file: {Text.optional Path.quoted c.file}", s!"state: {s.describe}"]

def Lending.describe : Lending → String
  | cached => "Cached"
  | uncached => "Uncached"

def Statement.describe (s : Statement) : String :=
  "Statement " ++ braced
    [s!"connection: {s.connection.number}",
     s!"controller: {s.lending.describe}",
     s!"handle: {StmtHandle.describe s.handle}",
     s!"sql: {Text.quote s.sql}",
     s!"has_bindings: {s.hasBindings}",
     s!"has_stepped: {s.hasStepped}"]

end ConfinedDb
