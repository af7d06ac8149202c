import ConfinedDb.Proofs.Accounting.Run
import ConfinedDb.Proofs.Interleaving.Effect
/-!
# Calls that name a statement

What a thread can be about to do when it starts a native call that names a statement handle:
`resume_names` for an action that goes on, `start_names` for one that starts. Apart from the uses of
a statement, which are only made while the connection is not disposed, there are five: a reset drops
the parameters, a release does, a release finalizes, a preparation that came too late finalizes, and
a disposal goes on to the next statement. How a use or a release begins is said once (`use_next`).
-/
namespace ConfinedDb.Interleaving

variable {c : Connection} {t : ThreadId} {s : State} {h : StmtHandle}

theorem finalizeChunk_next {k : StmtHandle} {sql : String} {q : Phase}
    (hq : (finalizeChunk k sql s).next = .inl q) :
    q = .finalizing k sql ∧ ¬s.abandoned k = true := by
  unfold finalizeChunk at hq
  split at hq
  · cases hq
  · next ha =>
    cases hq
    exact ⟨rfl, ha⟩

theorem shelveChunk_next {k : StmtHandle} {sql : String} {q : Phase}
    (hq : (shelveChunk k sql s).next = .inl q) : q = .finalizing k sql ∧ ¬s.abandoned k = true := by
  unfold shelveChunk at hq
  split at hq
  · next ho =>
    have hd : s.disposed = false := by simpa using (Bool.and_eq_true_iff.1 ho).2
    split at hq
    · cases hq
    · cases hq
    · exact ⟨(finalizeChunk_next hq).1, by simp [State.abandoned, hd]⟩
  · cases hq

theorem unbindChunk_next {c' : Connection} {k : StmtHandle} {sql : String} {b : Bool} {q : Phase}
    (hq : (unbindChunk c' k sql b s).next = .inl q) :
    q = .unbinding c' k sql ∨ q = .finalizing k sql ∧ ¬s.abandoned k = true := by
  unfold unbindChunk at hq
  split at hq
  · cases hq
    exact .inl rfl
  · exact .inr (shelveChunk_next hq)

/-- After a failure only a release names a statement, to finalize it. -/
theorem Onward.chunk_next {e : Error} {onward : Onward} {q : Phase}
    (hq : (onward.chunk e s).next = .inl q) :
    ∃ k sql, onward = .discard k sql ∧ q = .finalizing k sql ∧ ¬s.abandoned k = true := by
  cases onward with
  | discard k sql => exact ⟨k, sql, rfl, finalizeChunk_next hq⟩
  | _ => cases hq

theorem failChunk_names {c' : Connection} {rc : ResultCode} {operation : String}
    {about : Option String} {onward : Onward} {q : Phase}
    (hq : (failChunk c' rc operation about onward s).next = .inl q)
    (hc : (q.call c).statement? = some h) :
    ∃ sql, onward = .discard h sql ∧ q = .finalizing h sql ∧ ¬s.abandoned h = true := by
  unfold failChunk at hq
  split at hq
  · cases hq
    cases hc
  · obtain ⟨k, sql, ho, rfl, ha⟩ := Onward.chunk_next hq
    obtain rfl : k = h := Option.some.inj hc
    exact ⟨sql, ho, rfl, ha⟩

theorem DrainNext.names {db : DbHandle} {rounds : Nat} {m : Move} (hnext : DrainNext s db rounds m)
    {q : Phase} (hq : m.next = .inl q) (hc : (q.call c).statement? = some h) :
    (∃ sql left, q = .draining h sql left db) ∧ h ∈ s.registered := by
  cases hnext with
  | @takes k sql left _ there waits _ =>
    cases waits.symm.trans hq
    obtain rfl : k = h := Option.some.inj hc
    exact ⟨⟨sql, left, rfl⟩, there⟩
  | closes _ waits _ =>
    cases waits.symm.trans hq
    cases hc

/-- How an action that goes on comes to name a statement. -/
inductive Names (c : Connection) (s : State) (h : StmtHandle) :
    (p : Phase) → (p.call c).Answer → Phase → Prop
  | reset {st st' : Statement} {clear : Bool} {answer : ResultCode} (handle : st.handle = h)
    (handle' : st'.handle = h) : Names c s h (.resetting st clear) answer (.clearing st')
  | clear {c' : Connection} {sql : String} {hasBindings : Bool} {answer : ResultCode} :
    Names c s h (.rewinding c' h sql hasBindings) answer (.unbinding c' h sql)
  | finalize {p : Phase} {answer : (p.call c).Answer} {sql : String}
    (held : p.grip? = some (.held h sql)) (there : ¬s.abandoned h = true) :
    Names c s h p answer (.finalizing h sql)
  | late {p : Phase} {answer : (p.call c).Answer} {sql : String}
    (kind : p.kind = .prepares) (arrives : h ∈ arriving (p.call c) answer) :
    Names c s h p answer (.prepareLate h sql)
  | drain {k : StmtHandle} {sql text : String} {rounds left : Nat} {db db' : DbHandle}
    {answer : ResultCode} (there : h ∈ (s.forget k sql).registered) :
    Names c s h (.draining k sql rounds db) answer (.draining h text left db')

theorem resume_names {p : Phase} {answer : (p.call c).Answer} {q : Phase}
    (hq : (p.resume c t answer s).next = .inl q) (hc : (q.call c).statement? = some h) :
    Names c s h p answer q := by
  have hfail : ∀ {c' : Connection} {rc : ResultCode} {operation : String} {about : Option String}
      {onward : Onward}, (∀ sql, onward = .discard h sql → p.grip? = some (.held h sql)) →
      (failChunk c' rc operation about onward s).next = .inl q → Names c s h p answer q := by
    intro c' rc operation about onward hg hq
    obtain ⟨sql, ho, rfl, ha⟩ := failChunk_names hq hc
    exact .finalize (hg sql ho) ha
  have hcheck : ∀ {c' : Connection} {rc : ResultCode} {operation : String} {about : Option String}
      {onward : Onward} {go : Move},
      (∀ sql, onward = .discard h sql → p.grip? = some (.held h sql)) →
      (go.next = .inl q → Names c s h p answer q) →
      Chunk.next (if rc.isOk then go else failChunk c' rc operation about onward s) = .inl q →
        Names c s h p answer q := by
    intro c' rc operation about onward go hg hgo hq
    split at hq
    · exact hgo hq
    · exact hfail hg hq
  cases p with
  | opening flags claimed =>
    obtain ⟨db?, rc⟩ := answer
    simp only [Phase.resume] at hq
    split at hq
    · split at hq
      · split at hq
        · cases hq
          cases hc
        · cases hq
      · cases hq
    · cases hq
      cases hc
  | openFailed flags rc db? claimed =>
    cases db? with
    | none => cases hq
    | some db =>
      cases hq
      cases hc
  | openCleanup flags rc db message claimed => cases hq
  | openLate db => cases hq
  | executing db sql =>
    obtain ⟨rc, message⟩ := answer
    exact hcheck (fun _ h => by cases h) (fun hq => by cases hq) hq
  | preparing db sql lending =>
    obtain ⟨_ | k, rc⟩ := answer
    · exact hcheck (fun _ h => by cases h) (fun hq => by cases hq) hq
    · refine hcheck (fun _ h => by cases h) (fun hq => ?_) hq
      simp only [registerChunk] at hq
      split at hq
      · cases hq
      · cases hq
        obtain rfl : k = h := Option.some.inj hc
        exact .late rfl (by simp [Phase.call, arriving])
  | prepareLate h sql => cases hq
  | binding st index value =>
    exact hcheck (fun _ h => by cases h) (fun hq => by cases hq) hq
  | stepping st =>
    simp only [Phase.resume, stepChunk] at hq
    split at hq
    · cases hq
    · split at hq
      · cases hq
      · exact hfail (fun _ h => by cases h) hq
  | counting st => cases hq
  | reading st index => cases hq
  | resetting st clear =>
    refine hcheck (fun _ h => by cases h) (fun hq => ?_) hq
    split at hq
    · cases hq
      have hh : st.handle = h := Option.some.inj hc
      exact .reset hh hh
    · cases hq
  | clearing st =>
    exact hcheck (fun _ h => by cases h) (fun hq => by cases hq) hq
  | failing c' db rc operation about onward =>
    obtain ⟨k, sql, rfl, rfl, ha⟩ := Onward.chunk_next hq
    obtain rfl : k = h := Option.some.inj hc
    exact .finalize rfl ha
  | rewinding c' k sql hasBindings =>
    refine hcheck (fun _ h => by cases h; rfl) (fun hq => ?_) hq
    rcases unbindChunk_next hq with rfl | ⟨rfl, ha⟩
    · obtain rfl : k = h := Option.some.inj hc
      exact .clear
    · obtain rfl : k = h := Option.some.inj hc
      exact .finalize rfl ha
  | unbinding c' k sql =>
    refine hcheck (fun _ h => by cases h; rfl) (fun hq => ?_) hq
    obtain ⟨rfl, ha⟩ := shelveChunk_next hq
    obtain rfl : k = h := Option.some.inj hc
    exact .finalize rfl ha
  | finalizing h sql => cases hq
  | draining k sql rounds db =>
    obtain ⟨⟨text, left, rfl⟩, hr⟩ := (drainChunk_next db rounds).names hq hc
    exact .drain hr
  | closing db =>
    simp only [Phase.resume] at hq
    split at hq
    · cases hq
    · cases hq
      cases hc
  | closeFailed db rc => cases hq

/-- How an action that starts comes to name a statement. -/
inductive StartNames (s : State) (h : StmtHandle) : Kind → Phase → Prop
  | use {e : Entry} {q : Phase} (handle : e.1 = h) (undisposed : s.disposed = false) :
    StartNames s h (.uses e) q
  | release {e : Entry} {q : Phase} (handle : e.1 = h) (there : h ∈ s.registered) :
    StartNames s h (.releases e) q
  | drain {sql : String} {rounds : Nat} {db : DbHandle} (undisposed : s.disposed = false)
    (there : h ∈ s.registered) : StartNames s h .disposes (.draining h sql rounds db)

/-- How a use or a release of a statement begins, if it comes to a call. -/
inductive UseNext (t : ThreadId) (s : State) (st : Statement) : Use → Phase → Prop
  | binding {index : Nat} {value : Value} (ready : Ready t s) :
    UseNext t s st (.bind index value) (.binding st index value)
  | stepping (ready : Ready t s) : UseNext t s st .step (.stepping st)
  | counting (ready : Ready t s) : UseNext t s st .columnCount (.counting st)
  | reading {index : Nat} (ready : Ready t s) : UseNext t s st (.column index) (.reading st index)
  | resetting {clear : Bool} (ready : Ready t s) :
    UseNext t s st (.reset clear) (.resetting st clear)
  | clearing {clear : Bool} (ready : Ready t s) : UseNext t s st (.reset clear) (.clearing st)
  | rewinding (admitted : bars s t = false) (there : st.handle ∈ s.registered) :
    UseNext t s st .release (.rewinding st.connection st.handle st.sql st.hasBindings)
  | unbinding (admitted : bars s t = false) (there : st.handle ∈ s.registered) :
    UseNext t s st .release (.unbinding st.connection st.handle st.sql)
  | finalizing (admitted : bars s t = false) (there : st.handle ∈ s.registered) :
    UseNext t s st .release (.finalizing st.handle st.sql)

theorem use_next {n : Nat} {st : Statement} {u : Use} {q : Phase}
    (hq : (phaseStart c t s (.use n st u)).next = .inl q) : UseNext t s st u q := by
  cases u with
  | bind index value =>
    obtain ⟨ready, hgo⟩ := useChunk_next hq
    cases hgo
    exact .binding ready
  | step =>
    obtain ⟨ready, hgo⟩ := useChunk_next hq
    cases hgo
    exact .stepping ready
  | columnCount =>
    obtain ⟨ready, hgo⟩ := useChunk_next hq
    cases hgo
    exact .counting ready
  | column index =>
    obtain ⟨ready, hgo⟩ := useChunk_next hq
    split at hgo <;> cases hgo
    exact .reading ready
  | reset clear =>
    obtain ⟨ready, hgo⟩ := useChunk_next hq
    split at hgo
    · cases hgo
      exact .resetting ready
    · split at hgo <;> cases hgo
      exact .clearing ready
  | release =>
    simp only [phaseStart, releaseChunk] at hq
    split at hq
    · cases hq
    · next ha =>
      have admitted := permit_eq_ok_iff.1 ha
      split at hq
      · next hr =>
        have there := (s.contains_iff st.handle).1 hr
        split at hq
        · split at hq
          · cases hq
            exact .rewinding admitted there
          · rcases unbindChunk_next hq with rfl | ⟨rfl, -⟩
            · exact .unbinding admitted there
            · exact .finalizing admitted there
        · obtain ⟨rfl, -⟩ := finalizeChunk_next hq
          exact .finalizing admitted there
      · cases hq

/-- The first call of a use or of a release names the statement. -/
theorem use_statement {n : Nat} {st : Statement} {u : Use} {q : Phase}
    (hq : (phaseStart c t s (.use n st u)).next = .inl q) :
    (q.call c).statement? = some st.handle := by
  cases use_next hq <;> rfl

theorem DisposeStart.names {m : Move} (hstart : DisposeStart t s m) {q : Phase}
    (hq : m.next = .inl q) (hc : (q.call c).statement? = some h) :
    StartNames s h .disposes q := by
  cases hstart with
  | again _ ends => cases ends.symm.trans hq
  | unopened _ _ ends => cases ends.symm.trans hq
  | drains undisposed _ _ next =>
    obtain ⟨⟨sql, left, rfl⟩, hr⟩ := next.names hq hc
    exact .drain undisposed (by simpa [State.registered] using hr)
  | abandons _ _ _ waits =>
    cases waits.symm.trans hq
    cases hc

theorem start_names {task : Task} {q : Phase} (hq : (phaseStart c t s task).next = .inl q)
    (hc : (q.call c).statement? = some h) : StartNames s h task.kind q := by
  cases task with
  | «open» mode =>
    obtain ⟨flags, claimed, rfl⟩ := open_next hq
    cases hc
  | exec sql =>
    obtain ⟨-, db, -, rfl⟩ := exec_next hq
    cases hc
  | prepare sql lending =>
    obtain ⟨-, db, -, rfl⟩ := prepare_next hq
    cases hc
  | dispose => exact (dispose_start (c := c) (t := t) rfl).names hq hc
  | drop => exact (dispose_start (c := c) (t := t) rfl).names hq hc
  | use n st u =>
    have hh : st.handle = h := Option.some.inj ((use_statement hq).symm.trans hc)
    cases use_next hq with
    | rewinding _ there | unbinding _ there | finalizing _ there => exact .release hh (hh ▸ there)
    | binding ready | stepping ready | counting ready => exact .use hh ready.undisposed
    | reading ready | resetting ready | clearing ready => exact .use hh ready.undisposed

end ConfinedDb.Interleaving
