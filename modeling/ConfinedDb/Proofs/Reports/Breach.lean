import ConfinedDb.Proofs.Interleaving.Lend
import ConfinedDb.Proofs.Interleaving.Realize
import ConfinedDb.Proofs.Spent.Undisposed
/-!
# Reports of a broken bookkeeping

Five reports say that the books of a connection are wrong: a statement that was just prepared is
registered already, one that is released is idle already, one that was finalized is registered under
another text or not at all though no disposal has dropped it, and a disposal has drained the
statements and some are left (`Notice.isBreach`). **None of them is ever made**
(`breaches_unreachable`), whatever actions overlap and whatever the engine answers, as long as it
mints no live handle.

Until the connection is disposed its books are right, and they say that what a user or a release
has is registered under its text and not idle (`filed_of_booked`). After that the books may be
wrong: a statement can be finalized twice. But by then no text comes to the registry, so what is
registered still is what it was (`step_filed`); a handle that is missing was dropped by the
disposal, which is no breach; and the rounds of the disposal suffice (`Phase.Paced`).
-/
namespace ConfinedDb

/-- Whether a report says that the bookkeeping is broken. -/
def Notice.isBreach : Notice → Bool
  | .preparedTwice _ | .cachedTwice _ | .alienStatement .. | .differentText .. | .notFinalized _ =>
    true
  | _ => false

namespace Interleaving

variable {c : Connection} {t : ThreadId} {s s' : State} {h : StmtHandle} {sql : String}

/-! ## Stretches -/

/-- How a statement that is not idle is registered: under its text if at all, and until the
connection is disposed it is. -/
structure Filed (s : State) (e : Entry) : Prop where
  text : ∀ sql, s.statements.get? e.1 = some sql → sql = e.2
  kept : s.disposed = false → s.statements.get? e.1 = some e.2
  busy : s.disposed = false → ∀ sql, s.cache.get? sql ≠ some e.1

def Move.Sound (m : Move) : Prop := ∀ n ∈ m.notices, n.isBreach = false

theorem Move.Sound.after {m : Move} (hm : m.Sound) {notices : List Notice}
    (hn : ∀ n ∈ notices, n.isBreach = false) : Move.Sound (m.after notices) := by
  intro n hmem
  rcases List.mem_append.1 hmem with h | h
  · exact hn n h
  · exact hm n h

theorem pause_sound (q : Phase) : (pause q s).Sound := fun _ hn => nomatch hn

theorem finish_sound (o : Outcome) : (finish o s).Sound := fun _ hn => nomatch hn

theorem finalizedNotices_sound (f : Filed s (h, sql)) (rc : ResultCode) :
    ∀ n ∈ finalizedNotices h sql rc s, n.isBreach = false := by
  intro n hn
  rcases List.mem_append.1 hn with hn | hn
  · split at hn
    · cases hn
    · rw [List.mem_singleton.1 hn]
      rfl
  · by_cases ha : s.abandoned h
    · rw [if_pos ha] at hn
      rw [List.mem_singleton.1 hn]
      rfl
    · rw [if_neg ha] at hn
      cases hg : s.statements.get? h with
      | some registered => simp [hg, f.text registered hg] at hn
      | none =>
        have hd : s.disposed = false := by
          simpa [State.abandoned, s.statements.contains_eq, hg] using ha
        simp [f.kept hd] at hg

theorem finalizeChunk_sound (h : StmtHandle) (sql : String) : (finalizeChunk h sql s).Sound := by
  unfold finalizeChunk
  split
  · exact (finish_sound _).after (by simp [Notice.isBreach])
  · exact pause_sound _

theorem shelveChunk_sound (f : Filed s (h, sql)) : (shelveChunk h sql s).Sound := by
  unfold shelveChunk
  split
  · next ho =>
    have hd : s.disposed = false := by simpa using (Bool.and_eq_true_iff.1 ho).2
    cases hg : s.cache.get? sql with
    | none =>
      simp only [Cache.verdict, hg]
      exact finish_sound _
    | some holder =>
      have hne : holder ≠ h := fun he => f.busy hd sql (he ▸ hg)
      simp only [Cache.verdict, hg, if_neg hne]
      exact (finalizeChunk_sound h sql).after (by simp [Notice.isBreach])
  · exact (finish_sound _).after (by simp [Notice.isBreach])

theorem unbindChunk_sound (f : Filed s (h, sql)) (hasBindings : Bool) :
    (unbindChunk c h sql hasBindings s).Sound := by
  unfold unbindChunk
  split
  · exact pause_sound _
  · exact shelveChunk_sound f

theorem Onward.chunk_sound (e : Error) (onward : Onward) : (onward.chunk e s).Sound := by
  cases onward with
  | discard h sql => exact (finalizeChunk_sound h sql).after (by simp [Notice.isBreach])
  | _ => exact finish_sound _

theorem failChunk_sound (rc : ResultCode) (operation : String) (about : Option String)
    (onward : Onward) : (failChunk c rc operation about onward s).Sound := by
  unfold failChunk
  split
  · exact pause_sound _
  · exact (Onward.chunk_sound _ onward).after (by simp [Notice.isBreach])

/-- If the rounds suffice, nothing is left when they are over. -/
theorem drainChunk_sound {rounds : Nat} (hr : s.registered.length ≤ rounds) (db : DbHandle) :
    (drainChunk db rounds s).Sound := by
  have hsettle : s.registered = [] → (settleChunk true db s).Sound := by
    intro hnil
    have hsize : s.statements.size = 0 :=
      (List.length_map Prod.fst).symm.trans (List.length_eq_zero_iff.2 hnil)
    exact (pause_sound _).after (by simp [hsize])
  unfold drainChunk
  cases rounds with
  | zero => exact hsettle (List.length_eq_zero_iff.1 (Nat.le_zero.1 hr))
  | succ left =>
    cases hf : s.statements.first? with
    | none => exact hsettle (congrArg (List.map Prod.fst) (List.head?_eq_none_iff.1 hf))
    | some e => exact pause_sound _

theorem registerChunk_sound {lending : Lending} {new : Bool}
    (hnew : new = true → s.handle.isSome → h ∉ s.registered) :
    (registerChunk c lending h sql new s).Sound := by
  unfold registerChunk
  split
  · next hh =>
    refine (finish_sound _).after ?_
    have hcheck : (new && s.statements.contains h) = false := by
      by_contra hboth
      obtain ⟨hn, hc⟩ := Bool.and_eq_true_iff.1 (by simpa using hboth)
      exact hnew hn hh ((s.contains_iff h).1 hc)
    simp [hcheck]
  · exact pause_sound _

theorem stepChunk_sound (st : Statement) (rc : ResultCode) : (stepChunk st rc s).Sound := by
  unfold stepChunk
  split
  · exact finish_sound _
  · split
    · exact finish_sound _
    · exact failChunk_sound _ _ _ _

theorem checked_sound {c' : Connection} {rc : ResultCode} {operation : String}
    {about : Option String} {onward : Onward} {go : Move} (hgo : go.Sound) :
    Move.Sound (if rc.isOk then go else failChunk c' rc operation about onward s) := by
  split
  · exact hgo
  · exact failChunk_sound _ _ _ _

theorem heard_sound (inquiry : Inquiry) (answer : Except Error String) :
    ∀ n ∈ (heard inquiry answer).1, n.isBreach = false := by
  cases answer <;> simp [heard, Notice.isBreach]

def Phase.entry? : Phase → Option Entry
  | .failing _ _ _ _ _ (.discard h sql) => some (h, sql)
  | .rewinding _ h sql _ | .unbinding _ h sql | .finalizing h sql | .draining h sql _ _ =>
    some (h, sql)
  | _ => none

/-- **An action that goes on reports no breach.** -/
theorem resume_sound {p : Phase} {answer : (p.call c).Answer}
    (hf : ∀ e, p.entry? = some e → Filed s e) (hp : p.Paced s)
    (ha : ∀ h ∈ arriving (p.call c) answer, s.handle.isSome → h ∉ s.registered) :
    (p.resume c t answer s).Sound := by
  have hfail : ∀ claimed f, (openFailChunk t claimed f s).Sound := fun _ _ => finish_sound _
  cases p with
  | opening flags claimed =>
    obtain ⟨db?, rc⟩ := answer
    simp only [Phase.resume]
    split
    · split
      · split
        · exact pause_sound _
        · exact (finish_sound _).after (by simp [Notice.isBreach])
      · exact hfail _ _
    · exact pause_sound _
  | openFailed flags rc db? claimed =>
    cases db? with
    | none =>
      refine (hfail _ _).after fun n hn => ?_
      rcases List.mem_append.1 hn with hn | hn
      · exact heard_sound _ _ n hn
      · rw [List.mem_singleton.1 hn]
        rfl
    | some db => exact (pause_sound _).after (heard_sound _ _)
  | openCleanup flags rc db message claimed =>
    refine (hfail _ _).after fun n hn => ?_
    rcases List.mem_append.1 hn with hn | hn
    · split at hn
      · cases hn
      · rw [List.mem_singleton.1 hn]
        rfl
    · rw [List.mem_singleton.1 hn]
      rfl
  | openLate db => exact (finish_sound _).after (by simp [Notice.isBreach])
  | executing db sql => exact checked_sound (finish_sound _)
  | preparing db sql lending =>
    obtain ⟨h?, rc⟩ := answer
    refine checked_sound ?_
    cases h? with
    | none => exact (finish_sound _).after (by simp [Notice.isBreach])
    | some h => exact registerChunk_sound fun _ hh => ha h List.mem_cons_self hh
  | prepareLate h sql =>
    refine (finish_sound _).after ?_
    split <;> simp [Notice.isBreach]
  | binding st index value => exact checked_sound (finish_sound _)
  | stepping st => exact stepChunk_sound _ _
  | counting st => exact finish_sound _
  | reading st index => exact finish_sound _
  | resetting st clear =>
    refine checked_sound ?_
    split
    · exact pause_sound _
    · exact finish_sound _
  | clearing st => exact checked_sound (finish_sound _)
  | failing c' db rc operation about onward =>
    refine (Onward.chunk_sound _ onward).after fun n hn => ?_
    rcases List.mem_append.1 hn with hn | hn
    · exact heard_sound _ _ n hn
    · rw [List.mem_singleton.1 hn]
      rfl
  | rewinding c' h sql hasBindings => exact checked_sound (unbindChunk_sound (hf _ rfl) _)
  | unbinding c' h sql => exact checked_sound (shelveChunk_sound (hf _ rfl))
  | finalizing h sql => exact (finish_sound _).after (finalizedNotices_sound (hf _ rfl) answer)
  | draining h sql rounds db =>
    have hr : (s.forget h sql).registered.length ≤ rounds := by
      rw [State.registered_forget]
      exact hp
    exact (drainChunk_sound hr db).after (finalizedNotices_sound (hf _ rfl) answer)
  | closing db =>
    simp only [Phase.resume]
    split
    · exact (finish_sound _).after (by simp [Notice.isBreach])
    · exact pause_sound _
  | closeFailed db rc =>
    refine (finish_sound _).after fun n hn => ?_
    rcases List.mem_append.1 hn with hn | hn
    · exact heard_sound _ _ n hn
    · simp only [List.mem_cons, List.not_mem_nil, or_false] at hn
      rcases hn with rfl | rfl <;> rfl

theorem openChunk_sound (flags : OpenFlags) : (openChunk c t flags s).Sound := by
  unfold openChunk
  split
  · exact finish_sound _
  · split
    · exact finish_sound _
    · refine Move.Sound.after ?_ (by split <;> simp [Notice.isBreach])
      split
      · exact (finish_sound _).after (by simp [Notice.isBreach])
      · exact pause_sound _

theorem useChunk_sound {st : Statement} {go : Move} (hgo : go.Sound) :
    (useChunk t st s go).Sound := by
  unfold useChunk
  split
  · exact finish_sound _
  · split
    · exact finish_sound _
    · exact hgo

theorem releaseChunk_sound {st : Statement} (f : Filed s st.entry) :
    (releaseChunk t st s).Sound := by
  unfold releaseChunk
  split
  · exact (finish_sound _).after (by simp [Notice.isBreach])
  · split
    · split
      · split
        · exact pause_sound _
        · exact unbindChunk_sound f _
      · exact finalizeChunk_sound _ _
    · exact (finish_sound _).after (by simp [Notice.isBreach])

theorem disposeChunk_sound : (disposeChunk t s).Sound := by
  unfold disposeChunk
  split
  · exact finish_sound _
  · split
    · exact (finish_sound _).after (by simp [Notice.isBreach])
    · split
      · refine drainChunk_sound ?_ _
        simp [State.registered, Table.keys, Registry.size, Table.size]
      · refine (pause_sound _).after ?_
        split <;> simp [Notice.isBreach]

/-- **An action that starts reports no breach.** -/
theorem start_sound {task : Task} (hf : ∀ e, task.kind = .releases e → Filed s e) :
    (phaseStart c t s task).Sound := by
  cases task with
  | «open» mode =>
    cases mode with
    | readWriteCreate => exact openChunk_sound _
    | _ =>
      simp only [phaseStart]
      split
      · exact finish_sound _
      · exact openChunk_sound _
  | exec sql =>
    simp only [phaseStart]
    split
    · exact finish_sound _
    · split
      · exact finish_sound _
      · exact pause_sound _
  | prepare sql lending =>
    simp only [phaseStart]
    split
    · exact finish_sound _
    · split
      · exact finish_sound _
      · split
        · exact (registerChunk_sound (by simp)).after (by simp [Notice.isBreach])
        · exact pause_sound _
  | dispose => exact disposeChunk_sound
  | drop =>
    refine disposeChunk_sound.after ?_
    split <;> simp [Notice.isBreach]
  | use n st u =>
    cases u with
    | release => exact releaseChunk_sound (hf _ rfl)
    | column index =>
      refine useChunk_sound ?_
      split
      · exact pause_sound _
      · exact finish_sound _
    | reset clear =>
      refine useChunk_sound ?_
      split
      · exact pause_sound _
      · split
        · exact pause_sound _
        · exact finish_sound _
    | _ => exact useChunk_sound (pause_sound _)

/-! ## Which statement comes next -/

/-- What an action has is what a release was started for, or what a disposal has taken from the
registry. -/
theorem entry_cases {q : Phase} {e : Entry} (he : q.entry? = some e) :
    (q.kind = .releases e ∧ ∃ g, q.grip? = some g ∧ g.entryOf = some e) ∨
      ∃ rounds db, q = .draining e.1 e.2 rounds db := by
  cases q with
  | failing c' db rc operation about onward =>
    cases onward <;> cases he
    exact .inl ⟨rfl, _, rfl, rfl⟩
  | rewinding c' h sql hasBindings =>
    cases he
    exact .inl ⟨rfl, _, rfl, rfl⟩
  | unbinding c' h sql =>
    cases he
    exact .inl ⟨rfl, _, rfl, rfl⟩
  | finalizing h sql =>
    cases he
    exact .inl ⟨rfl, _, rfl, rfl⟩
  | draining h sql rounds db =>
    cases he
    exact .inr ⟨rounds, db, rfl⟩
  | _ => cases he

theorem entry_of_kind {p : Phase} {e : Entry} (hk : p.kind = .releases e) : p.entry? = some e := by
  cases p with
  | failing c' db rc operation about onward =>
    cases onward <;> cases hk
    rfl
  | rewinding c' h sql hasBindings =>
    cases hk
    rfl
  | unbinding c' h sql =>
    cases hk
    rfl
  | finalizing h sql =>
    cases hk
    rfl
  | _ => cases hk

/-- A disposal takes statements under the text that they are registered under. -/
theorem drainChunk_takes {db db' : DbHandle} {rounds left : Nat}
    (hq : (drainChunk db rounds s).next = .inl (.draining h sql left db')) :
    (drainChunk db rounds s).state.statements.get? h = some sql := by
  unfold drainChunk at hq ⊢
  split at hq
  · next k text hf =>
    cases hq
    exact (s.statements.table.mem_entries_iff h sql).1 (List.mem_of_mem_head? hf)
  · cases hq

theorem start_takes {task : Task} {rounds : Nat} {db : DbHandle}
    (hq : (phaseStart c t s task).next = .inl (.draining h sql rounds db)) :
    (phaseStart c t s task).state.statements.get? h = some sql := by
  have hdispose : (disposeChunk t s).next = .inl (.draining h sql rounds db) →
      (disposeChunk t s).state.statements.get? h = some sql := by
    intro hq
    unfold disposeChunk at hq ⊢
    split at hq
    · cases hq
    · next hd =>
      simp only [if_neg hd]
      split at hq
      · cases hq
      · split at hq
        · next ho =>
          rw [if_pos ho]
          exact drainChunk_takes hq
        · cases hq
  have hk := isDisposal_of_kind (start_kind hq).symm
  cases task with
  | dispose => exact hdispose hq
  | drop => exact hdispose hq
  | _ => cases hk

theorem resume_takes {p : Phase} {answer : (p.call c).Answer} {rounds : Nat} {db : DbHandle}
    (hq : (p.resume c t answer s).next = .inl (.draining h sql rounds db)) :
    (p.resume c t answer s).state.statements.get? h = some sql := by
  have hk := resume_kind hq
  cases p with
  | draining k text rounds' db' => exact drainChunk_takes hq
  | closing db' =>
    simp only [Phase.resume] at hq
    split at hq <;> cases hq
  | closeFailed db' rc => cases hq
  | failing c' db' rc operation about onward => cases onward <;> cases hk
  | _ => cases hk

/-! ## Worlds -/

variable {E : Engine} {w w' : World (phases c) E} {l : Label E}

/-- What users have is filed, and what a release or a disposal has. -/
structure World.Filed (w : World (phases c) E) : Prop where
  users : ∀ e ∈ w.users, Interleaving.Filed w.state e
  actions : ∀ f ∈ w.frames, ∀ e, f.point.entry? = some e → Interleaving.Filed w.state e

/-- If the books are right, what a user or a release has is filed. -/
theorem Books.filed {users : List Entry} {grips : List Grip} {past : History} {e : Entry}
    (b : Books s users grips past) (hd : s.disposed = false) (he : e ∈ owned users grips) :
    Filed s e := by
  have hkept : s.statements.get? e.1 = some e.2 := b.named hd e he
  refine ⟨fun sql hg => Option.some.inj (hg.symm.trans hkept), fun _ => hkept, fun _ sql hg => ?_⟩
  have hnodup := (b.balanced hd).nodup_iff.1 s.statements.table.distinct
  have howned : e.1 ∈ (owned users grips).map Prod.fst := List.mem_map_of_mem (f := Prod.fst) he
  have hidle : e.1 ∈ s.cache.table.values :=
    List.mem_map_of_mem (f := Prod.snd) ((s.cache.table.mem_entries_iff sql e.1).2 hg)
  exact (List.nodup_append.1 hnodup).2.2 _ howned _ (List.mem_append_right _ hidle) rfl

/-- **Until the connection is disposed everything is filed.** -/
theorem filed_of_booked (d : Drains w) (b : w.Booked) (hd : w.state.disposed = false) :
    w.Filed := by
  refine ⟨fun e he => b.filed hd (List.mem_append_left _ he), fun f hf e he => ?_⟩
  rcases entry_cases he with ⟨-, g, hg, hentry⟩ | ⟨rounds, db, hdraining⟩
  · have hgrips : g ∈ w.grips := mem_grips.2 ⟨f, hf, .inl hg⟩
    exact b.filed hd (List.mem_append_right _ (List.mem_filterMap.2 ⟨g, hgrips, hentry⟩))
  · have := d.effective f hf (by rw [hdraining]; rfl)
    simp [hd] at this

theorem filed_of_disposed {e : Entry} (hd : s.disposed = true)
    (text : ∀ sql, s.statements.get? e.1 = some sql → sql = e.2) : Filed s e :=
  ⟨text, fun hf => absurd hd (by simp [hf]), fun hf => absurd hd (by simp [hf])⟩

theorem Filed.later {e : Entry} (f : Filed s e) (sheds : Sheds s s') (hd : s'.disposed = true) :
    Filed s' e :=
  filed_of_disposed hd fun sql hg => f.text sql (sheds.texts e.1 sql hg)

theorem actions_filed {task : Task} {own : Bool} {m : Move} (f : w.Filed)
    (hd : (w.proceed t task own m).state.disposed = true)
    (sheds : Sheds w.state (w.proceed t task own m).state)
    (hnext : ∀ q e, m.next = .inl q → q.entry? = some e →
      Filed (w.proceed t task own m).state e) :
    ∀ g ∈ (w.proceed t task own m).frames, ∀ e, g.point.entry? = some e →
      Filed (w.proceed t task own m).state e :=
  forall_proceed (fun g hg e he => (f.actions g hg e he).later sheds hd)
    fun q hq e he => hnext q e hq he

/-- **Every step keeps everything filed.** -/
theorem step_filed (tidy : Tidy w) (d : Drains w) (f : w.Filed) (h : w.step l = some w')
    (hbooked : w'.state.disposed = false → w'.Booked) : w'.Filed := by
  cases hd' : w'.state.disposed with
  | false => exact filed_of_booked (d.step h) (hbooked hd') hd'
  | true =>
    have sheds := step_sheds d.closed h hd'
    refine ⟨fun e he => (f.users e (users_of_disposed tidy d.closed h hd' he)).later sheds hd', ?_⟩
    cases World.step_cases h with
    | @start t a task ht =>
      have fentered : (w.entered t task).Filed :=
        ⟨fun e he => f.users e (users_entered task he), f.actions⟩
      refine actions_filed fentered hd' sheds fun q e hq he => ?_
      rcases entry_cases he with ⟨hk, -⟩ | ⟨rounds, db, rfl⟩
      · have hkind : task.kind = .releases e := (start_kind hq).symm.trans hk
        exact (f.users e (mem_users_of_start ht (.inr hkind))).later sheds hd'
      · refine filed_of_disposed hd' fun sql hg => ?_
        rw [proceed_state] at hg
        exact Option.some.inj (hg.symm.trans (start_takes hq))
    | @act i t task p hf => exact forall_acted hf f.actions id
    | @resume i t task p answer hf hn =>
      have hmem := List.mem_of_getElem? hf
      have freturned : (w.returned i t (p.call c)).Filed :=
        ⟨f.users, fun g hg => f.actions g (List.mem_of_mem_eraseIdx hg)⟩
      refine actions_filed freturned hd' sheds fun q e hq he => ?_
      rcases entry_cases he with ⟨hkind, -⟩ | ⟨rounds, db, rfl⟩
      · have hentry : p.entry? = some e := entry_of_kind ((resume_kind hq).symm.trans hkind)
        exact (f.actions _ hmem e hentry).later sheds hd'
      · refine filed_of_disposed hd' fun sql hg => ?_
        rw [proceed_state] at hg
        exact Option.some.inj (hg.symm.trans (resume_takes hq))
    | drift e => exact f.actions

theorem run_filed {e : E.State} {ls : List (Label E)} (run : Run (phases c) E e MintsFresh ls w) :
    w.Filed := by
  induction run with
  | nil =>
    constructor
    · intro e he
      cases he
    · intro f hf
      cases hf
  | snoc run hs hfresh ih =>
    exact step_filed (run_tidy run) (run_drains run) ih hs
      fun hd => booked_of_undisposed (run.snoc hs hfresh) hd

/-! ## Reports -/

def History.Sound (past : History) : Prop := ∀ n, .reported n ∈ past → n.isBreach = false

theorem History.Sound.append {es past : History} (hp : History.Sound past)
    (hes : ∀ n, .reported n ∈ es → n.isBreach = false) : History.Sound (es ++ past) := by
  intro n hn
  rcases List.mem_append.1 hn with hn | hn
  · exact hes n hn
  · exact hp n hn

theorem sound_opening {past : History} (hp : History.Sound past) (task : Task) (t : ThreadId)
    (s : State) : History.Sound (task.opening t s ++ past) := by
  refine hp.append fun n hn => ?_
  rcases mem_opening hn with h | ⟨k, h⟩ <;> cases h

theorem sound_closing {past : History} (hp : History.Sound past) (task : Task) (t : ThreadId)
    (own : Bool) (s : State) (o : Outcome) : History.Sound (task.closing t own s o ++ past) := by
  refine hp.append fun n hn => ?_
  rcases mem_closing hn with ⟨db, h⟩ | h <;> cases h

theorem sound_proceed {task : Task} {own : Bool} {m : Move} (hw : History.Sound w.history)
    (hm : m.Sound) : History.Sound (w.proceed t task own m).history := by
  have hreports : History.Sound ((m.notices.map Event.reported).reverse ++ w.history) := by
    refine hw.append fun n hn => hm n ?_
    simpa using hn
  cases hn : m.next with
  | inl q =>
    rw [w.proceed_pause t task own hn]
    intro n hmem
    exact hreports n (by simpa using hmem)
  | inr o =>
    rw [w.proceed_end t task own hn]
    exact sound_closing hreports task t own m.state o

/-- **No step reports a breach.** -/
theorem step_sound (d : Drains w) (f : w.Filed)
    (hbooked : w.state.disposed = false → w.Booked) (hw : History.Sound w.history)
    (h : w.step l = some w') : History.Sound w'.history := by
  cases World.step_cases h with
  | @start t a task ht =>
    refine sound_proceed (w := w.entered t task) (sound_opening hw task t w.state) ?_
    exact start_sound fun e hk => f.users e (mem_users_of_start ht (.inr hk))
  | @act i t task p hf =>
    refine hw.append fun n hn => ?_
    rcases mem_minting hn with ⟨db, h⟩ | ⟨db, k, h⟩ <;> cases h
  | @resume i t task p answer hf hn =>
    have hmem := List.mem_of_getElem? hf
    refine sound_proceed (w := w.returned i t (p.call c)) ?_ ?_
    · intro n hn
      exact hw n (by simpa [World.returned] using hn)
    · refine resume_sound (fun e he => f.actions _ hmem e he) (d.paced _ hmem) fun k hk hh => ?_
      have hd : w.state.disposed = false := undisposed_of_handle d.closed hh
      have hpending : Grip.pending k ∈ w.grips :=
        mem_grips.2 ⟨_, hmem, .inr (List.mem_map_of_mem (f := Grip.pending) hk)⟩
      exact ((hbooked hd).lives.pending k (List.mem_filterMap.2 ⟨_, hpending, rfl⟩)).2.2.2
  | drift e => exact hw

theorem run_sound {e : E.State} {ls : List (Label E)} (run : Run (phases c) E e MintsFresh ls w) :
    History.Sound w.history := by
  induction run with
  | nil =>
    intro n hn
    cases hn
  | snoc run hs _ ih =>
    exact step_sound (run_drains run) (run_filed run) (booked_of_undisposed run) ih hs

/-- **A connection whose engine mints no live handle never reports that its bookkeeping is
broken.** -/
theorem breaches_unreachable {e : E.State} {ls : List (Label E)} {w : World (programs c) E}
    (run : Run (programs c) E e MintsFresh ls w) :
    ∀ notice, .reported notice ∈ w.history → notice.isBreach = false := by
  obtain ⟨v, rfl, hv⟩ := run_programs_iff.1 run
  exact run_sound hv

/-- A thread lends a statement and steps it. While the release of it is resetting it, a second one
is prepared of the same text. The first goes to the cache, the second finds its place taken; while
the release finalizes it, a disposal finalizes both. -/
def releasedTwice : List (Label recording) :=
  let t : ThreadId := ⟨0⟩
  [.start t (.open .readWriteCreate), .act 0, .resume 0,
    .start t (.prepare "SELECT 1" .cached), .act 0, .resume 0,
    .start t (.use 0 .step), .act 0, .resume 0,
    .start t (.use 0 .release), .act 0,
    .start t (.prepare "SELECT 1" .cached), .act 0, .resume 0, .resume 0,
    .start t (.use 1 .release),
    .start t .dispose, .act 0, .resume 0, .act 0, .resume 0, .act 0, .resume 0, .act 0, .resume 0]

/-- What it reports on these statements is no breach. -/
theorem releasedTwice_sound :
    ∃ w, Run (programs inMemory) recording .initial MintsFresh releasedTwice w ∧ w.frames = [] ∧
      .reported (.cacheOccupied "SELECT 1" ⟨16, by decide⟩ ⟨24, by decide⟩) ∈ w.history ∧
      ∀ notice, .reported notice ∈ w.history → notice.isBreach = false := by
  obtain ⟨w, run, hw⟩ := exists_run (M := programs inMemory) (e := RecordingEngine.initial)
    MintsFresh releasedTwice
    (fun w => w.frames.isEmpty ∧ Event.reported
      (.cacheOccupied "SELECT 1" ⟨16, by decide⟩ ⟨24, by decide⟩) ∈ w.history) (by decide +kernel)
  simp only [decide_eq_true_eq, List.isEmpty_iff] at hw
  exact ⟨w, run, hw.1, hw.2, breaches_unreachable run⟩

end Interleaving

end ConfinedDb
