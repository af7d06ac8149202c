import ConfinedDb.Proofs.Flags.Mark
import ConfinedDb.Proofs.Interleaving.Lend
/-!
# Marks of actions

A phase has the mark of the statement that it works on (`Phase.mark?`): the flags of a statement in
use, and what a release still has to undo. If it covers the statement when the call of the phase has
returned, then so does the mark of the next phase, or of the statement that is handed back, and a
blank mark covers what goes to the cache (`Move.Marked`, **`resume_marked`**, **`start_marked`**).
A failure on the way to the cache leaves no mark: the statement is finalized.
-/
namespace ConfinedDb.Interleaving

/-- What is known of a statement after a failure. -/
def Onward.mark? : Onward → Option Mark
  | .use st => some st.mark
  | _ => none

def Phase.mark? : Phase → Option Mark
  | .binding st _ _ | .stepping st | .counting st | .reading st _ => some st.mark
  | .resetting st _ | .clearing st => some st.mark
  | .failing _ _ _ _ _ onward => onward.mark?
  | .rewinding _ h _ hasBindings => some ⟨h, true, hasBindings⟩
  | .unbinding _ h _ => some ⟨h, false, true⟩
  | _ => none

variable {c : Connection} {t : ThreadId} {s s' : State} {mine : List DbHandle}
  {e : RecordingEngine}

/-- The statement of a mark is in use, or a release holds it. -/
theorem mark_cases {p : Phase} {k : Mark} (hk : k ∈ p.mark?) :
    (∃ sql, p.kind = .uses (k.handle, sql)) ∨ ∃ sql, p.grip? = some (.held k.handle sql) := by
  cases p with
  | binding st _ _ | stepping st | counting st | reading st _ | resetting st _ | clearing st =>
    cases hk
    exact .inl ⟨st.sql, rfl⟩
  | failing c' db rc operation about onward =>
    cases onward with
    | use st =>
      cases hk
      exact .inl ⟨st.sql, rfl⟩
    | _ => cases hk
  | rewinding c' h sql hasBindings =>
    cases hk
    exact .inr ⟨sql, rfl⟩
  | unbinding c' h sql =>
    cases hk
    exact .inr ⟨sql, rfl⟩
  | _ => cases hk

/-- The call of a phase is one of its statement, or it does nothing to statements. -/
theorem mark_call {p : Phase} {k : Mark} (hk : k ∈ p.mark?) (answer : (p.call c).Answer) :
    (p.call c).statement? = some k.handle ∨ k.after (p.call c) answer = k := by
  cases p with
  | failing c' db rc operation about onward => exact .inr rfl
  | _ => first | cases hk; exact .inl rfl | cases hk

/-- Whatever statement a stretch goes on with, hands back or leaves idle is covered. -/
structure Move.Marked (mine : List DbHandle) (e : RecordingEngine) (s : State) (m : Move) :
    Prop where
  waits : ∀ q, m.next = .inl q → ∀ k ∈ q.mark?, k.Covers mine e
  ends : ∀ o, m.next = .inr o → ∀ st ∈ o.statement, st.mark.Covers mine e
  idle : ∀ sql h, m.state.cache.get? sql = some h →
    s.cache.get? sql = some h ∨ (Mark.blank h).Covers mine e

abbrev Unshelved (s s' : State) : Prop :=
  ∀ sql h, s'.cache.get? sql = some h → s.cache.get? sql = some h

namespace Move.Marked

variable {m : Move}

theorem after (k : m.Marked mine e s) (notices : List Notice) :
    Move.Marked mine e s (m.after notices) :=
  ⟨k.waits, k.ends, k.idle⟩

theorem pause {q : Phase} (hq : ∀ k ∈ q.mark?, k.Covers mine e) (hc : Unshelved s s') :
    (Interleaving.pause q s').Marked mine e s where
  waits q' hn := by
    cases hn
    exact hq
  ends o hn := by cases hn
  idle sql h hg := .inl (hc sql h hg)

theorem finish {o : Outcome} (ho : ∀ st ∈ o.statement, st.mark.Covers mine e)
    (hc : Unshelved s s') : (Interleaving.finish o s').Marked mine e s where
  waits q hn := by cases hn
  ends o' hn := by
    cases hn
    exact ho
  idle sql h hg := .inl (hc sql h hg)

theorem finish_none {result : Except Error Reply} (hc : Unshelved s s') :
    (Interleaving.finish ⟨result, none⟩ s').Marked mine e s :=
  .finish (fun _ h => by cases h) hc

theorem finish_some {result : Except Error Reply} {st : Statement}
    (k : st.mark.Covers mine e) :
    (Interleaving.finish ⟨result, some st⟩ s).Marked mine e s := by
  refine .finish (fun st' h => ?_) fun _ _ h => h
  cases h
  exact k

/-- An open and a disposal have no statement of a user. -/
theorem of_kind {k : Kind} (hm : m.Of k) (hk : k = .opens ∨ k = .disposes)
    (hc : Unshelved s m.state) : m.Marked mine e s where
  waits q hn k' hk' := by
    have hq : q.kind = k := by simpa [Move.Of, hn] using hm
    have hmark := mark_cases hk'
    rcases hk with rfl | rfl <;> rcases hmark with ⟨sql, hu⟩ | ⟨sql, hg⟩
    · cases hq.symm.trans hu
    · cases hq.symm.trans (kind_of_held hg)
    · cases hq.symm.trans hu
    · cases hq.symm.trans (kind_of_held hg)
  ends o hn st hst := by
    simp only [Move.Of, hn] at hm
    rcases hk with rfl | rfl <;> cases hm.symm.trans hst
  idle sql h hg := .inl (hc sql h hg)

end Move.Marked

/-! ## What actions do alike -/

theorem finalizeChunk_marked (h : StmtHandle) (sql : String) :
    (finalizeChunk h sql s).Marked mine e s := by
  unfold finalizeChunk
  split
  · exact (Move.Marked.finish_none fun _ _ h => h).after _
  · exact .pause (fun _ h => by cases h) fun _ _ h => h

/-- A statement goes to the cache with a blank mark only. -/
theorem shelveChunk_marked {h : StmtHandle} (k : (Mark.blank h).Covers mine e) (sql : String) :
    (shelveChunk h sql s).Marked mine e s where
  waits q hn := by
    obtain ⟨rfl, -⟩ := shelveChunk_next hn
    intro k' hk
    cases hk
  ends o hn st hst := by
    have ho := shelveChunk_of (s := s) h sql
    simp only [Move.Of, hn] at ho
    cases ho.symm.trans hst
  idle text j hg := by
    rw [shelveChunk_state] at hg
    unfold State.shelve at hg
    split at hg
    · have hg : (s.cache.offer sql h).get? text = some j := hg
      rw [Cache.get?_offer] at hg
      split at hg
      · next htext =>
        cases hs : s.cache.get? sql with
        | none =>
          rw [hs] at hg
          cases hg
          exact .inr k
        | some holder =>
          rw [hs] at hg
          exact .inl (by rw [htext, hs]; exact hg)
      · exact .inl hg
    · exact .inl hg

theorem unbindChunk_marked {h : StmtHandle} {hasBindings : Bool}
    (k : (Mark.mk h false hasBindings).Covers mine e) (sql : String) :
    (unbindChunk c h sql hasBindings s).Marked mine e s := by
  unfold unbindChunk
  split
  · next hb => exact .pause (by simpa [Phase.mark?, hb] using k) fun _ _ h => h
  · next hb => exact shelveChunk_marked (k.mono rfl id fun _ => by simpa using hb) sql

theorem Onward.chunk_marked (error : Error) {onward : Onward}
    (k : ∀ k ∈ onward.mark?, k.Covers mine e) : (onward.chunk error s).Marked mine e s := by
  cases onward with
  | discard h sql => exact (finalizeChunk_marked h sql).after _
  | use st => exact .finish_some (k _ rfl)
  | _ => exact .finish_none fun _ _ h => h

theorem failChunk_marked (rc : ResultCode) (operation : String) (about : Option String)
    {onward : Onward} (k : ∀ k ∈ onward.mark?, k.Covers mine e) :
    (failChunk c rc operation about onward s).Marked mine e s := by
  unfold failChunk
  split
  · exact .pause k fun _ _ h => h
  · exact (Onward.chunk_marked _ k).after _

theorem failChunk_use {st : Statement} (k : st.mark.Covers mine e) (rc : ResultCode)
    (operation : String) (about : Option String) :
    (failChunk c rc operation about (.use st) s).Marked mine e s := by
  refine failChunk_marked rc operation about fun k' hk => ?_
  cases hk
  exact k

theorem stepChunk_marked {st : Statement} {rc : ResultCode}
    (k : (Mark.mk st.handle true st.hasBindings).Covers mine e) :
    (stepChunk st rc s).Marked mine e s := by
  unfold stepChunk
  split
  · exact .finish_some k
  · split
    · exact .finish_some k
    · refine failChunk_use ?_ rc _ _
      exact k

theorem settleChunk_marked (own : Bool) (db : DbHandle) :
    (settleChunk own db s').Marked mine e s :=
  (Move.Marked.pause (fun _ h => by cases h) fun _ _ h => by cases h).after _

theorem drainChunk_marked (db : DbHandle) (rounds : Nat) (hc : Unshelved s s') :
    (drainChunk db rounds s').Marked mine e s := by
  unfold drainChunk
  split
  · exact .pause (fun _ h => by cases h) hc
  · exact settleChunk_marked true db

theorem register_unshelved (h : StmtHandle) (sql : String) (hc : Unshelved s s') :
    Unshelved s (s'.register h sql) := by
  unfold State.register
  split <;> exact hc

theorem registerChunk_marked {h : StmtHandle} (k : (Mark.blank h).Covers mine e)
    (lending : Lending) (sql : String) (new : Bool) (hc : Unshelved s s') :
    (registerChunk c lending h sql new s').Marked mine e s := by
  unfold registerChunk
  split
  · refine (Move.Marked.finish (fun st hst => ?_) (register_unshelved h sql hc)).after _
    cases hst
    exact k
  · exact .pause (fun _ h => by cases h) (register_unshelved h sql hc)

/-! ## How an action goes on -/

theorem open_marked {p : Phase} (hp : p.kind = .opens) (answer : (p.call c).Answer) :
    (p.resume c t answer s).Marked mine e s := by
  refine .of_kind (hp ▸ resume_of p answer) (.inl rfl) fun sql h hg => ?_
  have hrest := open_rest (t := t) (s := s) hp answer
  generalize p.resume c t answer s = m at hrest hg
  cases hrest with
  | waits _ _ _ state => exact state ▸ hg
  | late _ _ state => exact state ▸ hg
  | installs _ _ _ state => simpa [state] using hg
  | fails _ _ state =>
    rw [state] at hg
    split at hg
    · exact (Sheds.unclaim s t).idle sql h hg
    · exact hg

/-- **An action goes on with covered statements.** -/
theorem resume_marked (p : Phase) (answer : (p.call c).Answer)
    (hp : ∀ k ∈ p.mark?, (k.after (p.call c) answer).Covers mine e)
    (ha : ∀ h ∈ arriving (p.call c) answer, (Mark.blank h).Covers mine e) :
    (p.resume c t answer s).Marked mine e s := by
  cases p with
  | opening flags claimed => exact open_marked rfl answer
  | openFailed flags rc db? claimed => exact open_marked rfl answer
  | openCleanup flags rc db message claimed => exact open_marked rfl answer
  | openLate db => exact open_marked rfl answer
  | executing db sql =>
    obtain ⟨rc, message⟩ := answer
    simp only [Phase.resume]
    split
    · exact .finish_none fun _ _ h => h
    · exact failChunk_marked rc _ _ fun _ h => by cases h
  | preparing db sql lending =>
    obtain ⟨h?, rc⟩ := answer
    simp only [Phase.resume]
    split
    · split
      · next h =>
        exact registerChunk_marked (ha h List.mem_cons_self) lending sql true fun _ _ h => h
      · exact (Move.Marked.finish_none fun _ _ h => h).after _
    · exact failChunk_marked rc _ _ fun _ h => by cases h
  | prepareLate h sql => exact (Move.Marked.finish_none fun _ _ h => h).after _
  | binding st index value =>
    have k := hp _ rfl
    simp only [Phase.resume]
    split
    · exact .finish_some k
    · refine failChunk_use ?_ _ _ _
      exact k
  | stepping st => exact stepChunk_marked (hp _ rfl)
  | counting st => exact .finish_some (hp _ rfl)
  | reading st index => exact .finish_some (hp _ rfl)
  | resetting st clear =>
    have k := hp _ rfl
    simp only [Phase.resume]
    split
    · next hrc =>
      have k : (Mark.mk st.handle false st.hasBindings).Covers mine e := by
        simpa [Mark.after, Phase.call, Statement.mark, hrc] using k
      split
      · refine .pause (fun k' hk => ?_) fun _ _ h => h
        cases hk
        exact k
      · exact .finish_some k
    · next hrc =>
      refine failChunk_use ?_ _ _ _
      simpa [Mark.after, Phase.call, Statement.mark, hrc] using k
  | clearing st =>
    have k := hp _ rfl
    simp only [Phase.resume]
    split
    · next hrc =>
      have k : (Mark.mk st.handle st.hasStepped false).Covers mine e := by
        simpa [Mark.after, Phase.call, Statement.mark, hrc] using k
      exact .finish_some k
    · next hrc =>
      refine failChunk_use ?_ _ _ _
      simpa [Mark.after, Phase.call, Statement.mark, hrc] using k
  | failing c' db rc operation about onward => exact (Onward.chunk_marked _ hp).after _
  | rewinding c' h sql hasBindings =>
    simp only [Phase.resume]
    split
    · next hrc =>
      refine unbindChunk_marked ?_ sql
      simpa [Mark.after, Phase.call, hrc] using hp _ rfl
    · exact failChunk_marked _ _ _ fun _ h => by cases h
  | unbinding c' h sql =>
    simp only [Phase.resume]
    split
    · next hrc =>
      refine shelveChunk_marked ?_ sql
      simpa [Mark.after, Phase.call, Mark.blank, hrc] using hp _ rfl
    · exact failChunk_marked _ _ _ fun _ h => by cases h
  | finalizing h sql => exact (Move.Marked.finish_none (Sheds.forget s h sql).idle).after _
  | draining h sql rounds db =>
    exact (drainChunk_marked db rounds (Sheds.forget s h sql).idle).after _
  | closing db =>
    simp only [Phase.resume]
    split
    · exact (Move.Marked.finish_none fun _ _ h => h).after _
    · exact .pause (fun _ h => by cases h) fun _ _ h => h
  | closeFailed db rc => exact (Move.Marked.finish_none fun _ _ h => h).after _

/-! ## How an action begins -/

def Task.mark? : Task → Option Mark
  | .use _ st _ => some st.mark
  | _ => none

theorem prepare_marked (sql : String) (lending : Lending)
    (hidle : s.disposed = false → ∀ sql h, s.cache.get? sql = some h →
      (Mark.blank h).Covers mine e) :
    (phaseStart c t s (.prepare sql lending)).Marked mine e s := by
  have hlend : Unshelved s (if lending = .cached then s.lend sql else s) := by
    intro text h hg
    split at hg
    · unfold State.lend at hg
      split at hg
      · have hg : (s.cache.take sql).get? text = some h := hg
        rw [Cache.get?_take] at hg
        split at hg
        · cases hg
        · exact hg
      · exact hg
    · exact hg
  simp only [phaseStart]
  split
  · exact .finish_none fun _ _ h => h
  · split
    · exact .finish_none hlend
    · next db hopen =>
      split
      · next h hreused =>
        split at hreused
        · have k := hidle (openHandle_ok hopen).1 sql h hreused
          exact (registerChunk_marked k lending sql false hlend).after _
        · cases hreused
      · exact .pause (fun _ h => by cases h) hlend

theorem useChunk_marked {st : Statement} {go : Move} (k : st.mark.Covers mine e)
    (hgo : go.Marked mine e s) : (useChunk t st s go).Marked mine e s := by
  unfold useChunk
  split
  · exact .finish_some k
  · split
    · exact .finish_some k
    · exact hgo

/-- What a release has to undo is what the flags say. -/
theorem releaseChunk_marked {st : Statement} (k : st.mark.Covers mine e) :
    (releaseChunk t st s).Marked mine e s := by
  unfold releaseChunk
  split
  · exact (Move.Marked.finish_none fun _ _ h => h).after _
  · split
    · split
      · split
        · refine .pause (fun k' hk => ?_) fun _ _ h => h
          cases hk
          exact k.mono rfl (fun h => by cases h) id
        · next hs =>
          exact unbindChunk_marked (k.mono rfl (fun _ => eq_false_of_ne_true hs) id) st.sql
      · exact finalizeChunk_marked st.handle st.sql
    · exact (Move.Marked.finish_none fun _ _ h => h).after _

theorem dispose_marked {task : Task} (ht : task.isDisposal = true) :
    (phaseStart c t s task).Marked mine e s := by
  refine .of_kind (start_of task) (.inr (kind_of_isDisposal ht)) fun sql h hg => ?_
  rcases (dispose_start (c := c) (t := t) (s := s) ht).state_cases with ⟨hs, -⟩ | ⟨-, hs | hs⟩ <;>
    rw [hs] at hg
  · exact hg
  · exact (Sheds.retire s).idle sql h hg
  · cases hg

/-- **An action begins with covered statements.** -/
theorem start_marked (task : Task) (hp : ∀ k ∈ task.mark?, k.Covers mine e)
    (hidle : s.disposed = false → ∀ sql h, s.cache.get? sql = some h →
      (Mark.blank h).Covers mine e) :
    (phaseStart c t s task).Marked mine e s := by
  have hpause : ∀ {q : Phase} {k : Mark}, q.mark? = some k → k.Covers mine e →
      (pause q s).Marked mine e s := by
    intro q k hq hk
    refine .pause (fun k' hk' => ?_) fun _ _ h => h
    cases hq.symm.trans hk'
    exact hk
  cases task with
  | «open» mode =>
    refine .of_kind (start_of (.open mode)) (.inl rfl) fun sql h hg => ?_
    rcases (open_start (c := c) (t := t) (s := s) mode).state_cases with hs | hs <;> rw [hs] at hg
    · exact hg
    · exact (Sheds.claim s t).idle sql h hg
  | exec sql =>
    simp only [phaseStart]
    split
    · exact .finish_none fun _ _ h => h
    · split
      · exact .finish_none fun _ _ h => h
      · exact .pause (fun _ h => by cases h) fun _ _ h => h
  | prepare sql lending => exact prepare_marked sql lending hidle
  | dispose => exact dispose_marked rfl
  | drop => exact dispose_marked rfl
  | use n st u =>
    have k : st.mark.Covers mine e := hp _ rfl
    cases u with
    | bind index value => exact useChunk_marked k (hpause rfl k)
    | step => exact useChunk_marked k (hpause rfl k)
    | columnCount => exact useChunk_marked k (hpause rfl k)
    | column index =>
      refine useChunk_marked k ?_
      split
      · exact hpause rfl k
      · exact .finish_some k
    | reset clear =>
      refine useChunk_marked k ?_
      split
      · exact hpause rfl k
      · split
        · exact hpause rfl k
        · exact .finish_some k
    | release => exact releaseChunk_marked k

end ConfinedDb.Interleaving
