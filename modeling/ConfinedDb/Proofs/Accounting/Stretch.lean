import ConfinedDb.Proofs.Accounting.Books
import ConfinedDb.Proofs.Interleaving.Tidy
/-!
# A stretch keeps the books

What an action does between two calls is a move of the books, whatever it is: if they are right when
its call returns, they are right when it makes the next one or ends (**`resume_keeps`**,
**`start_keeps`**). The one condition is that the next call does not name a handle that is spent
(`Move.Spares`).
-/
namespace ConfinedDb.Interleaving

open History

/-- What is left to a release when a failure was reported. -/
def Onward.grip? : Onward → Option Grip
  | .discard h sql => some (.held h sql)
  | _ => none

def Phase.grip? : Phase → Option Grip
  | .failing _ _ _ _ _ onward => onward.grip?
  | .rewinding _ h sql _ | .unbinding _ h sql => some (.held h sql)
  | .finalizing h sql => some (.finalizing h sql)
  | .draining h _ _ _ => some (.draining h)
  | .prepareLate h _ => some (.late h)
  | .closing _ | .closeFailed .. => some .closing
  | _ => none

/-- What the end of an action of a kind adds to the statements of users. -/
def Kind.brings (o : Outcome) : Kind → List Entry
  | .prepares => (o.statement.map Statement.entry).toList
  | _ => []

/-- What the end of an action of a kind adds to the history. -/
def Kind.closing (t : ThreadId) (own : Bool) (s : State) (o : Outcome) : Kind → History
  | .opens =>
    match o.result, s.handle with
    | .ok _, some db => [.installed t db]
    | _, _ => []
  | .disposes => if own then [.disposed] else []
  | _ => []

theorem Task.brings_eq (task : Task) (o : Outcome) : task.brings o = task.kind.brings o := by
  cases task with
  | use n st u => cases u <;> rfl
  | _ => rfl

theorem Task.closing_eq (task : Task) (t : ThreadId) (own : Bool) (s : State) (o : Outcome) :
    task.closing t own s o = task.kind.closing t own s o := by
  cases task with
  | use n st u => cases u <;> rfl
  | _ => rfl

/-- The books are right once a stretch of an action of kind `k` has been taken over. -/
def Move.Keeps (c : Connection) (t : ThreadId) (own : Bool) (k : Kind) (m : Move)
    (users : List Entry) (grips : List Grip) (past : History) : Prop :=
  match m.next with
  | .inl q => Books m.state users (q.grip?.toList ++ grips) (.called t (q.call c) :: past)
  | .inr o => Books m.state (k.brings o ++ users) grips (k.closing t own m.state o ++ past)

/-- The next call does not name a handle that is spent. -/
def Move.Spares (c : Connection) (m : Move) (past : History) : Prop :=
  ∀ q, m.next = .inl q → ∀ h, (q.call c).statement? = some h → h ∉ spent past

variable {c : Connection} {t : ThreadId} {own : Bool} {s : State} {users : List Entry}
  {grips : List Grip} {past : History} {h : StmtHandle} {sql : String} {e : Entry}

/-- Calls that are no finalization are not in the books. -/
theorem Books.called (b : Books s users grips past) (call : EngineCall)
    (hc : ∀ h, call ≠ .finalize h) : Books s users grips (.called t call :: past) := by
  refine b.congr_past rfl ?_ rfl rfl
  cases call with
  | finalize h => exact absurd rfl (hc h)
  | _ => rfl

theorem Books.returned (b : Books s users grips past) (call : EngineCall)
    (hc : ∀ h, call ≠ .finalize h) : Books s users grips (.returned t call :: past) := by
  refine b.congr_past ?_ rfl rfl rfl
  cases call with
  | finalize h => exact absurd rfl (hc h)
  | _ => rfl

/-! ## Releases -/

theorem finalizeChunk_keeps (b : Books s ((h, sql) :: users) grips past)
    (hs : (finalizeChunk h sql s).Spares c past) :
    (finalizeChunk h sql s).Keeps c t own (.releases e) users grips past := by
  unfold finalizeChunk at hs ⊢
  by_cases ha : s.abandoned h
  · rw [if_pos ha]
    exact b.leave (Bool.and_eq_true_iff.1 ha).1
  · rw [if_neg ha] at hs ⊢
    exact b.start_finalizing (b.registered_of_kept ha) (hs _ rfl h rfl) t

/-- Without an open database a statement can only be there after a disposal. -/
theorem Books.disposed_of_closed (b : Books s ((h, sql) :: users) grips past)
    (ho : ¬s.isOpen = true) : s.disposed = true := by
  by_contra hd
  have hd : s.disposed = false := by simpa using hd
  have hh : s.handle = none := by simpa [State.isOpen, hd] using ho
  have hr := b.mem_registered hd (e := (h, sql)) List.mem_cons_self
  rw [b.opened hd hh] at hr
  cases hr

theorem shelveChunk_keeps (b : Books s ((h, sql) :: users) grips past)
    (hs : (shelveChunk h sql s).Spares c past) :
    (shelveChunk h sql s).Keeps c t own (.releases e) users grips past := by
  unfold shelveChunk at hs ⊢
  by_cases ho : s.isOpen
  · rw [if_pos ho] at hs ⊢
    have hd : s.disposed = false := by
      simpa using (Bool.and_eq_true_iff.1 ho).2
    cases hg : s.cache.get? sql with
    | none =>
      simp only [Cache.verdict, hg]
      exact b.shelve ho hg
    | some holder =>
      have hne : holder ≠ h := by
        intro he
        exact b.not_cached hd sql (he ▸ hg)
      have hshelve : s.shelve h sql = s := by
        unfold State.shelve Cache.offer
        rw [if_pos ho, hg]
      simp only [Cache.verdict, hg, if_neg hne, hshelve] at hs ⊢
      exact finalizeChunk_keeps b hs
  · rw [if_neg ho]
    have hshelve : s.shelve h sql = s := if_neg ho
    rw [hshelve]
    exact b.leave (b.disposed_of_closed ho)

theorem unbindChunk_keeps {c' : Connection} {hasBindings : Bool}
    (b : Books s ((h, sql) :: users) grips past)
    (hs : (unbindChunk c' h sql hasBindings s).Spares c past) :
    (unbindChunk c' h sql hasBindings s).Keeps c t own (.releases e) users grips past := by
  unfold unbindChunk at hs ⊢
  cases hasBindings with
  | true => exact b.take.called _ (fun _ => by simp [Phase.call])
  | false => exact shelveChunk_keeps b hs

/-! ## Failures -/

/-- An action of a kind, with what it has to do with a statement. -/
theorem Onward.chunk_keeps {error : Error} {onward : Onward}
    (b : Books s users (onward.grip?.toList ++ grips) past)
    (hs : (onward.chunk error s).Spares c past) :
    (onward.chunk error s).Keeps c t own onward.kind users grips past := by
  cases onward with
  | exec => exact b
  | prepare => exact b
  | use st => exact b
  | discard h sql => exact finalizeChunk_keeps b.user_of_held hs

theorem failChunk_keeps {c' : Connection} {rc : ResultCode} {operation : String}
    {about : Option String} (onward : Onward)
    (b : Books s users (onward.grip?.toList ++ grips) past)
    (hs : (failChunk c' rc operation about onward s).Spares c past) :
    (failChunk c' rc operation about onward s).Keeps c t own onward.kind users grips past := by
  unfold failChunk at hs ⊢
  cases hh : s.handle with
  | some db => exact b.called _ (fun _ => by simp [Phase.call])
  | none =>
    simp only [hh] at hs
    exact Onward.chunk_keeps b hs

theorem checked_keeps {c' : Connection} {rc : ResultCode} {operation : String}
    {about : Option String} {go : Move} (onward : Onward)
    (b : Books s users (onward.grip?.toList ++ grips) past)
    (hgo : go.Spares c past → go.Keeps c t own onward.kind users grips past)
    (hs : Move.Spares c (if rc.isOk then go else failChunk c' rc operation about onward s) past) :
    Move.Keeps c t own onward.kind
      (if rc.isOk then go else failChunk c' rc operation about onward s) users grips past := by
  by_cases hok : rc.isOk
  · rw [if_pos hok] at hs ⊢
    exact hgo hs
  · rw [if_neg hok] at hs ⊢
    exact failChunk_keeps onward b hs

/-! ## Disposals -/

theorem settleChunk_keeps {db : DbHandle} {o : Bool} (b : Books s users grips past)
    (hd : s.disposed = true) (hg : ∀ g ∈ grips, g.disposal = false) :
    (settleChunk o db s).Keeps c t own .disposes users grips past :=
  (b.sweep hd hg).called _ (fun _ => by simp [Phase.call])

theorem drainChunk_keeps {db : DbHandle} {rounds : Nat} (b : Books s users grips past)
    (hd : s.disposed = true) (hg : ∀ g ∈ grips, g.disposal = false)
    (hs : (drainChunk db rounds s).Spares c past) :
    (drainChunk db rounds s).Keeps c t own .disposes users grips past := by
  unfold drainChunk at hs ⊢
  split
  · next rounds h sql hf =>
    simp only [hf] at hs
    have hr : h ∈ s.registered := (s.contains_iff h).1 (Registry.contains_first hf)
    exact b.start_draining hd hg hr (hs _ rfl h rfl) t
  · exact settleChunk_keeps b hd hg

/-! ## Preparations and opens -/

theorem registerChunk_keeps {lending : Lending} (b : Books s users (.pending h :: grips) past) :
    (registerChunk c lending h sql true s).Keeps c t own .prepares users grips past := by
  unfold registerChunk
  by_cases hh : s.handle.isSome
  · rw [if_pos hh]
    exact b.register hh sql
  · rw [if_neg hh]
    have hr : s.register h sql = s := if_neg hh
    rw [hr]
    exact b.start_late t

theorem Books.claim (b : Books s users grips past) (t : ThreadId) :
    Books (s.claim t) users grips past := by
  unfold State.claim
  split
  · exact b
  · exact b.congr_state rfl rfl rfl (fun _ => rfl) id

theorem Books.unclaim (b : Books s users grips past) (t : ThreadId) :
    Books (s.unclaim t) users grips past := by
  unfold State.unclaim
  split
  · exact b.congr_state rfl rfl rfl (fun _ => rfl) id
  · exact b

theorem Books.install (b : Books s users grips past) (db : DbHandle) :
    Books (s.install db) users grips past := by
  unfold State.install
  split
  · exact b
  · next hd => exact b.congr_state rfl rfl rfl (fun h => absurd h hd) (fun h => by cases h)

/-- What an open that ends writes down is not in the books. -/
theorem Books.installed (b : Books s users grips past) (o : Outcome) :
    Books s users grips (Kind.opens.closing t own s o ++ past) := by
  obtain ⟨handle, disposed, owner, statements, cache⟩ := s
  obtain ⟨_ | _, statement⟩ := o
  · exact b
  · cases handle with
    | none => exact b
    | some db => exact b.congr_past rfl rfl rfl rfl

theorem openFailChunk_keeps {claimed : Bool} {f : Fault} (b : Books s users grips past) :
    (openFailChunk t claimed f s).Keeps c t own .opens users grips past := by
  cases claimed with
  | true => exact b.unclaim t
  | false => exact b

theorem stepChunk_keeps {st : Statement} {rc : ResultCode} (b : Books s users grips past)
    (hs : (stepChunk st rc s).Spares c past) :
    (stepChunk st rc s).Keeps c t own (.uses st.entry) users grips past := by
  unfold stepChunk at hs ⊢
  by_cases hrow : rc == ResultCode.row
  · simp only [hrow, if_true]
    exact b
  · by_cases hdone : rc == ResultCode.done || rc.isOk
    · simp only [hrow, hdone, if_true]
      exact b
    · simp only [hrow, hdone, if_false, Bool.false_eq_true] at hs ⊢
      exact failChunk_keeps (.use _) b hs

/-! ## A stretch -/

/-- **What follows a call keeps the books.** -/
theorem resume_keeps (p : Phase) (answer : (p.call c).Answer)
    (b : Books s users
      (p.grip?.toList ++ ((arriving (p.call c) answer).map Grip.pending ++ grips)) past)
    (hs : (p.resume c t answer s).Spares c past) :
    (p.resume c t answer s).Keeps c t true p.kind users grips (.returned t (p.call c) :: past) := by
  cases p with
  | opening flags claimed =>
    have b := b.returned (t := t) (.open c.location flags) (fun _ => by simp)
    obtain ⟨db?, rc⟩ := answer
    simp only [Phase.resume] at hs ⊢
    split
    · split
      · split
        · exact (b.install _).called _ (fun _ => by simp [Phase.call])
        · exact (b.install _).installed _
      · exact openFailChunk_keeps (c := c) b
    · exact b.called _ (fun _ => by simp [Phase.call])
  | openFailed flags rc db? claimed =>
    have b := b.returned (t := t) (.errorMessage db?) (fun _ => by simp)
    cases db? with
    | none => exact openFailChunk_keeps (c := c) b
    | some db => exact b.called _ (fun _ => by simp [Phase.call])
  | openCleanup flags rc db message claimed =>
    exact openFailChunk_keeps (c := c) (b.returned _ (fun _ => by simp [Phase.call]))
  | openLate db => exact b.returned _ (fun _ => by simp [Phase.call])
  | executing db sql =>
    have b := b.returned (t := t) (.exec db sql) (fun _ => by simp)
    obtain ⟨rc, message⟩ := answer
    exact checked_keeps .exec b (fun _ => b) hs
  | preparing db sql lending =>
    have b := b.returned (t := t) (.prepare db sql) (fun _ => by simp)
    obtain ⟨_ | h, rc⟩ := answer
    · exact checked_keeps .prepare b (fun _ => b) hs
    · exact checked_keeps .prepare b.arrive (fun _ => registerChunk_keeps b) hs
  | prepareLate h sql => exact b.finish_late t
  | binding st index value =>
    have b := b.returned (t := t) (.bind st.handle index value) (fun _ => by simp)
    exact checked_keeps (.use _) b (fun _ => b) hs
  | stepping st => exact stepChunk_keeps (b.returned _ (fun _ => by simp [Phase.call])) hs
  | counting st => exact b.returned _ (fun _ => by simp [Phase.call])
  | reading st index => exact b.returned _ (fun _ => by simp [Phase.call])
  | resetting st clear =>
    have b := b.returned (t := t) (.reset st.handle) (fun _ => by simp)
    refine checked_keeps (.use _) b (fun _ => ?_) hs
    split
    · exact b.called _ (fun _ => by simp [Phase.call])
    · exact b
  | clearing st =>
    have b := b.returned (t := t) (.clearBindings st.handle) (fun _ => by simp)
    exact checked_keeps (.use _) b (fun _ => b) hs
  | failing c' db rc operation about onward =>
    exact Onward.chunk_keeps (b.returned _ (fun _ => by simp [Phase.call])) hs
  | rewinding c' h sql hasBindings =>
    have b := b.returned (t := t) (.reset h) (fun _ => by simp)
    exact checked_keeps (.discard h sql) b (unbindChunk_keeps b.user_of_held) hs
  | unbinding c' h sql =>
    have b := b.returned (t := t) (.clearBindings h) (fun _ => by simp)
    exact checked_keeps (.discard h sql) b (shelveChunk_keeps b.user_of_held) hs
  | finalizing h sql => exact b.finish_finalizing t
  | draining h sql rounds db =>
    obtain ⟨hd, hg⟩ := b.no_disposal rfl
    exact drainChunk_keeps (b.finish_draining sql t) (by simp [hd]) hg hs
  | closing db =>
    have b := b.returned (t := t) (.close db) (fun _ => by simp)
    simp only [Phase.resume] at hs ⊢
    split
    · exact b.closed
    · exact b.called _ (fun _ => by simp [Phase.call])
  | closeFailed db rc => exact (b.returned _ (fun _ => by simp [Phase.call])).closed

theorem openChunk_keeps {flags : OpenFlags} (b : Books s users grips past) :
    (openChunk c t flags s).Keeps c t own .opens users grips past := by
  have b := b.claim t
  unfold openChunk
  split
  · exact b
  · split
    · exact b
    · split
      · exact b
      · exact b.called _ (fun _ => by simp [Phase.call])

theorem useChunk_keeps {st : Statement} {go : Move} (b : Books s users grips past)
    (hgo : go.Keeps c t own (.uses st.entry) users grips past) :
    (useChunk t st s go).Keeps c t own (.uses st.entry) users grips past := by
  unfold useChunk
  split
  · exact b
  · split
    · exact b
    · exact hgo

theorem disposeChunk_keeps (b : Books s users grips past)
    (hs : (disposeChunk t s).Spares c past) :
    (disposeChunk t s).Keeps c t (!s.disposed) .disposes users grips
      (Task.opening t s .dispose ++ past) := by
  unfold disposeChunk at hs ⊢
  by_cases hd : s.disposed
  · have hr : s.retire = s := if_pos hd
    simp only [if_pos hd, hr, Task.opening]
    simpa [Move.Keeps, finish, Kind.brings, Kind.closing, hd] using b
  · have hd' : s.disposed = false := by simpa using hd
    have hretire : s.retire = { s with disposed := true, handle := none, owner := none } :=
      if_neg hd
    have b' := b.retire hd' t
    have hg := (b.unretired hd').2
    have ht : Task.opening t s .dispose = [.retired t s.registered] := if_neg hd
    rw [if_neg hd] at hs ⊢
    rw [ht, hd']
    cases hh : s.handle with
    | none =>
      exact b'.dispose (by rw [hretire]) (by rw [hretire]; exact b.opened hd' hh)
    | some db =>
      simp only [hh] at hs ⊢
      split
      · next ho =>
        rw [if_pos ho] at hs
        exact drainChunk_keeps b' (by rw [hretire]) hg hs
      · exact settleChunk_keeps b' (by rw [hretire]) hg

theorem lend_of_closed (ho : ¬s.isOpen = true) : s.lend sql = s := if_neg ho

theorem lend_of_none (hg : s.cache.get? sql = none) : s.lend sql = s := by
  have hk : sql ∉ s.cache.table.keys := by
    rw [← s.cache.table.contains_iff, s.cache.table.contains_eq]
    simp [show s.cache.table.get? sql = none from hg]
  have ht : s.cache.take sql = s.cache := by
    obtain ⟨handle, disposed, owner, statements, ⟨⟨entries, distinct⟩⟩⟩ := s
    have he := Table.erase_of_not_mem hk
    simp only [Cache.take, Cache.mk.injEq, Table.erase, Table.mk.injEq]
    exact he
  unfold State.lend
  rw [ht]
  split <;> rfl

theorem openHandle_ok {db : DbHandle} (ho : s.openHandle = .ok db) :
    s.disposed = false ∧ s.handle = some db := by
  unfold State.openHandle at ho
  cases hd : s.disposed <;> cases hh : s.handle <;> simp_all

theorem openHandle_error {error : Error} (ho : s.openHandle = .error error) :
    ¬s.isOpen = true := by
  unfold State.openHandle at ho
  cases hd : s.disposed <;> cases hh : s.handle <;> simp_all [State.isOpen]

theorem prepare_keeps {lending : Lending} (b : Books s users grips past) :
    (phaseStart c t s (.prepare sql lending)).Keeps c t own .prepares users grips past := by
  simp only [phaseStart]
  split
  · exact b
  · split
    · next error ho =>
      have hs : (if lending = .cached then s.lend sql else s) = s := by
        rw [lend_of_closed (openHandle_error ho), ite_self]
      rw [hs]
      exact b
    · next db ho =>
      have hh : s.handle.isSome := by simp [(openHandle_ok ho).2]
      cases lending with
      | uncached => exact b.called _ (fun _ => by simp [Phase.call])
      | cached =>
        simp only [if_true]
        cases hg : s.cache.get? sql with
        | none =>
          rw [lend_of_none hg]
          exact b.called _ (fun _ => by simp [Phase.call])
        | some h =>
          have hl : (s.lend sql).handle.isSome := by
            unfold State.lend
            split <;> exact hh
          simp only [registerChunk, if_pos hl]
          exact b.reuse hh hg

/-- **The start of an action that is no release keeps the books.** -/
theorem start_keeps (task : Task) (hk : ∀ e, task.kind ≠ .releases e)
    (b : Books s users grips past) (hs : (phaseStart c t s task).Spares c past) :
    (phaseStart c t s task).Keeps c t (!s.disposed) task.kind users grips
      (task.opening t s ++ past) := by
  cases task with
  | «open» mode =>
    cases mode with
    | readOnly =>
      simp only [phaseStart]
      split
      · exact b
      · exact openChunk_keeps b
    | readWrite =>
      simp only [phaseStart]
      split
      · exact b
      · exact openChunk_keeps b
    | readWriteCreate => exact openChunk_keeps b
  | exec sql =>
    simp only [phaseStart]
    split
    · exact b
    · split
      · exact b
      · exact b.called _ (fun _ => by simp [Phase.call])
  | prepare sql lending => exact prepare_keeps b
  | dispose => exact disposeChunk_keeps b hs
  | drop => exact disposeChunk_keeps b hs
  | use n st u =>
    cases u with
    | release => exact absurd rfl (hk st.entry)
    | bind index value => exact useChunk_keeps b (b.called _ (fun _ => by simp [Phase.call]))
    | step => exact useChunk_keeps b (b.called _ (fun _ => by simp [Phase.call]))
    | columnCount => exact useChunk_keeps b (b.called _ (fun _ => by simp [Phase.call]))
    | column index =>
      refine useChunk_keeps b ?_
      split
      · exact b.called _ (fun _ => by simp [Phase.call])
      · exact b
    | reset clear =>
      refine useChunk_keeps b ?_
      split
      · exact b.called _ (fun _ => by simp [Phase.call])
      · split
        · exact b.called _ (fun _ => by simp [Phase.call])
        · exact b

theorem permit_eq_ok_iff {c' : Connection} : permit c' t s = .ok () ↔ bars s t = false := by
  unfold permit bars Connection.checkOwner
  cases s.owner with
  | none => simp
  | some owner => by_cases h : t = owner <;> simp [h]

/-- **The start of a release keeps the books.** -/
theorem release_keeps {st : Statement} (b : Books s (st.entry :: users) grips past)
    (hs : (releaseChunk t st s).Spares c past) :
    (releaseChunk t st s).Keeps c t own (.releases st.entry) users grips
      ((if bars s t then [.leaked st.handle] else []) ++ past) := by
  unfold releaseChunk at hs ⊢
  cases ha : permit st.connection t s with
  | error e =>
    have hb : bars s t = true := by
      cases hb : bars s t with
      | true => rfl
      | false => simp [permit_eq_ok_iff.2 hb] at ha
    rw [if_pos hb]
    exact b.leak
  | ok _ =>
    have hb : bars s t = false := permit_eq_ok_iff.1 ha
    simp only [ha] at hs
    rw [hb]
    simp only [Bool.false_eq_true, if_false, List.nil_append]
    by_cases hc : s.statements.contains st.handle
    · simp only [if_pos hc] at hs ⊢
      cases hl : st.lending with
      | cached =>
        simp only [hl] at hs ⊢
        split
        · exact b.take.called _ (fun _ => by simp [Phase.call])
        · next hst =>
          rw [if_neg hst] at hs
          exact unbindChunk_keeps b hs
      | uncached =>
        simp only [hl] at hs ⊢
        exact finalizeChunk_keeps b hs
    · rw [if_neg hc]
      refine b.leave ?_
      by_contra hd
      have hr := b.mem_registered (by simpa using hd) (e := st.entry) List.mem_cons_self
      exact hc ((s.contains_iff _).2 hr)

end ConfinedDb.Interleaving
