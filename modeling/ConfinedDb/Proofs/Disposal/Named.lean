import ConfinedDb.Proofs.Disposal.Kept
/-!
# Calls that name a database

An action names a database in a native call only if the connection has that database or the action
itself has it (**`start_database`**, **`resume_database`**), with one exception: a disposal whose
close has failed asks for the message of the database that it wanted to close.
-/
namespace ConfinedDb

/-- A call that names a statement names no database. -/
theorem EngineCall.database?_of_statement? {call : EngineCall} {h : StmtHandle}
    (hc : call.statement? = some h) : call.database? = none := by
  cases call <;> first | rfl | cases hc

namespace Interleaving

open History

/-- The database that the engine has refused to close. -/
def refusedClose? : (call : EngineCall) → call.Answer → Option DbHandle
  | .close db, rc => if rc.isOk then none else some db
  | _, _ => none

variable {c : Connection} {t : ThreadId} {s : State} {db : DbHandle} {q : Phase}

/-! ## Actions that go on -/

theorem failChunk_database {c' : Connection} {rc : ResultCode} {operation : String}
    {about : Option String} {onward : Onward}
    (hq : (failChunk c' rc operation about onward s).next = .inl q)
    (hc : (q.call c).database? = some db) : s.handle = some db := by
  unfold failChunk at hq
  split at hq
  · next hh =>
    cases hq
    cases hc
    exact hh
  · obtain ⟨k, sql, -, rfl, -⟩ := Onward.chunk_next hq
    cases hc

/-- An action that is neither an open nor a disposal names the database of the connection, to ask
for its message. -/
theorem other_database {p : Phase} (ho : p.kind ≠ .opens) (hd : p.kind ≠ .disposes)
    {answer : (p.call c).Answer} (hq : (p.resume c t answer s).next = .inl q)
    (hc : (q.call c).database? = some db) : s.handle = some db := by
  have hcheck : ∀ {rc : ResultCode} {c' : Connection} {operation : String}
      {about : Option String} {onward : Onward} {go : Move},
      (go.next = .inl q → s.handle = some db) →
      Chunk.next (if rc.isOk then go else failChunk c' rc operation about onward s) = .inl q →
        s.handle = some db := by
    intro rc c' operation about onward go hgo hq
    split at hq
    · exact hgo hq
    · exact failChunk_database hq hc
  have hfinal : ∀ {k : StmtHandle} {sql : String}, q = .finalizing k sql → s.handle = some db := by
    rintro k sql rfl
    cases hc
  cases p with
  | opening flags claimed => exact absurd rfl ho
  | openFailed flags rc db? claimed => exact absurd rfl ho
  | openCleanup flags rc db message claimed => exact absurd rfl ho
  | openLate db => exact absurd rfl ho
  | draining h sql rounds db => exact absurd rfl hd
  | closing db => exact absurd rfl hd
  | closeFailed db rc => exact absurd rfl hd
  | executing db sql => exact hcheck (fun hq => by cases hq) hq
  | preparing db sql lending =>
    refine hcheck (fun hq => ?_) hq
    split at hq
    · simp only [registerChunk] at hq
      split at hq <;> cases hq
      cases hc
    · cases hq
  | prepareLate h sql => cases hq
  | binding st index value => exact hcheck (fun hq => by cases hq) hq
  | stepping st =>
    simp only [Phase.resume, stepChunk] at hq
    split at hq
    · cases hq
    · split at hq
      · cases hq
      · exact failChunk_database hq hc
  | counting st => cases hq
  | reading st index => cases hq
  | resetting st clear =>
    refine hcheck (fun hq => ?_) hq
    split at hq <;> cases hq
    cases hc
  | clearing st => exact hcheck (fun hq => by cases hq) hq
  | failing c' db rc operation about onward =>
    obtain ⟨k, sql, -, hfinalizing, -⟩ := Onward.chunk_next hq
    exact hfinal hfinalizing
  | rewinding c' h sql hasBindings =>
    refine hcheck (fun hq => ?_) hq
    rcases unbindChunk_next hq with rfl | ⟨hfinalizing, -⟩
    · cases hc
    · exact hfinal hfinalizing
  | unbinding c' h sql => exact hcheck (fun hq => hfinal (shelveChunk_next hq).1) hq
  | finalizing h sql => cases hq

/-- Opens and disposals that go on name a database that they have. -/
theorem mem_hand (hk : q.kind = .opens ∨ q.kind = .disposes)
    (hc : (q.call c).database? = some db) :
    db ∈ q.hand c ∨ ∃ rc, q = .closeFailed db rc := by
  cases q with
  | opening flags claimed => cases hc
  | openFailed flags rc db? claimed =>
    obtain rfl : db? = some db := hc
    exact .inl (List.mem_singleton_self db)
  | openCleanup flags rc db' message claimed =>
    cases hc
    exact .inl (List.mem_singleton_self db)
  | openLate db' =>
    cases hc
    exact .inl (List.mem_singleton_self db)
  | draining h sql rounds db' => cases hc
  | closing db' =>
    cases hc
    exact .inl (List.mem_singleton_self db)
  | closeFailed db' rc =>
    cases hc
    exact .inr ⟨rc, rfl⟩
  | failing c' db' rc operation about onward =>
    rcases hk with hk | hk <;> cases onward <;> cases hk
  | _ => rcases hk with hk | hk <;> cases hk

theorem closeFailed_next {p : Phase} {answer : (p.call c).Answer} {rc : ResultCode}
    (hq : (p.resume c t answer s).next = .inl (.closeFailed db rc)) :
    refusedClose? (p.call c) answer = some db := by
  have hk := resume_kind hq
  cases p with
  | closing db' =>
    simp only [Phase.resume] at hq
    split at hq
    · cases hq
    · next hrc =>
      cases hq
      exact if_neg hrc
  | draining h sql rounds db' =>
    have hnext := drainChunk_next (s := s.forget h sql) db' rounds
    have hq : (drainChunk db' rounds (s.forget h sql)).next = .inl (.closeFailed db rc) := hq
    generalize drainChunk db' rounds (s.forget h sql) = m at hnext hq
    cases hnext with
    | takes _ _ waits => cases waits.symm.trans hq
    | closes _ waits => cases waits.symm.trans hq
  | closeFailed db' rc => cases hq
  | failing c' db' rc operation about onward => cases onward <;> cases hk
  | _ => cases hk

/-- **An action that goes on names the database of the connection or one of its own, or asks for the
message of one that the engine has refused to close.** -/
theorem resume_database {p : Phase} {answer : (p.call c).Answer}
    (hq : (p.resume c t answer s).next = .inl q) (hc : (q.call c).database? = some db) :
    s.handle = some db ∨ db ∈ databases (minting (p.call c) answer) ++ p.stays ∨
      q.call c = .errorMessage (some db) ∧ refusedClose? (p.call c) answer = some db := by
  by_cases hk : p.kind = .opens ∨ p.kind = .disposes
  · rcases mem_hand (resume_kind hq ▸ hk) hc with hm | ⟨rc, rfl⟩
    · have hstores := resume_stores (t := t) (s := s) p answer
      generalize p.resume c t answer s = m at hq hstores
      cases hstores with
      | keeps _ hand _ => exact .inr (.inl (hand ▸ (hand_pause hq ▸ hm)))
      | stores _ _ ends _ => cases ends.symm.trans hq
    · exact .inr (.inr ⟨rfl, closeFailed_next hq⟩)
  · exact .inl (other_database (fun h => hk (.inl h)) (fun h => hk (.inr h)) hq hc)

/-! ## Actions that start -/

theorem DisposeStart.database {m : Move} (h : DisposeStart t s m) (hq : m.next = .inl q)
    (hc : (q.call c).database? = some db) : s.handle = some db := by
  cases h with
  | again _ ends => cases ends.symm.trans hq
  | unopened _ _ ends => cases ends.symm.trans hq
  | drains _ opened _ next =>
    cases next with
    | takes _ _ waits =>
      cases waits.symm.trans hq
      cases hc
    | closes _ waits =>
      cases waits.symm.trans hq
      cases hc
      exact opened
  | abandons _ opened _ waits =>
    cases waits.symm.trans hq
    cases hc
    exact opened

/-- **An action that starts names no database but that of the connection.** -/
theorem start_database {task : Task} (hq : (phaseStart c t s task).next = .inl q)
    (hc : (q.call c).database? = some db) : s.handle = some db := by
  cases task with
  | «open» mode =>
    obtain ⟨flags, claimed, rfl⟩ := open_next hq
    cases hc
  | exec sql =>
    obtain ⟨-, db', hh, rfl⟩ := exec_next hq
    cases hc
    exact hh
  | prepare sql lending =>
    obtain ⟨-, db', hh, rfl⟩ := prepare_next hq
    cases hc
    exact hh
  | dispose => exact (dispose_start (c := c) (t := t) rfl).database hq hc
  | drop => exact (dispose_start (c := c) (t := t) rfl).database hq hc
  | use n st u =>
    have hnone := EngineCall.database?_of_statement? (use_statement hq)
    cases hnone.symm.trans hc

end Interleaving

end ConfinedDb
