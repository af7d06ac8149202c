import ConfinedDb.Proofs.Disposal.Named
/-!
# Databases are closed once

A disposed connection has closed every database as often as it was opened, and has named none in a
native call after that, but for the message of a close that failed, exactly in the runs in which two
things never happen (**`closed_once_iff`**): an open stores its database in the place of another,
which then is never closed (`World.Displaces`), and the engine opens a database again that was not
closed (`OpensFresh`). `openedTwice_unclosed` is a run with a step of the first kind.

A step does one of four things with databases (`Deal`): one arrives, one is about to be closed, one
is displaced, or none of these. The databases at hand (`World.held`) are with the connection or with
an action under way. With those that were closed they make up all that were opened, unless one was
displaced (**`accounted_iff`**), and they are the ones that are yet to be closed. A database that
arrives while it is at hand has to be closed twice in a row, or is never closed (`Doubled`).
-/
namespace ConfinedDb.Interleaving

open History

namespace History

/-- The databases that the engine was asked to close. -/
def closes : History → List DbHandle
  | [] => []
  | .called _ (.close db) :: past => db :: closes past
  | _ :: past => closes past

/-- The databases that were opened and that the engine was not asked to close since. -/
def unclosed : History → List DbHandle
  | [] => []
  | .opened db :: past => db :: unclosed past
  | .called _ (.close db) :: past => (unclosed past).erase db
  | _ :: past => unclosed past

/-- The databases that are not to be used any more, until they are opened again: a close of them has
started. -/
def shut : History → List DbHandle
  | [] => []
  | .opened db :: past => (shut past).filter (· ≠ db)
  | .called _ (.close db) :: past => db :: shut past
  | _ :: past => shut past

end History

namespace World

variable {M : Machine} {E : Engine}

/-- In this step a close of the database returns that the engine has refused. -/
def CloseFails (w : World M E) (l : Label E) (db : DbHandle) : Prop :=
  ∃ i f answer, l = .resume i ∧ w.frames[i]? = some f ∧ f.answer = some answer ∧
    refusedClose? f.call answer = some db

/-- In this step an open succeeds although the database is there. -/
def Displaces (w : World M E) (l : Label E) : Prop :=
  ∃ t task o r, w.Ends l t task o ∧ task.isOpen = true ∧ o.result = .ok r ∧
    w.state.handle.isSome = true

end World

/-- If the call that a step starts names a database whose close has started, it asks for the message
of that close, which has failed. -/
def Timely {M : Machine} {E : Engine} (w : World M E) (l : Label E) (_ : World M E) : Prop :=
  ∀ t task call db, w.Calls l t task call → call.database? = some db → db ∈ shut w.history →
    call = .errorMessage (some db) ∧ w.CloseFails l db

/-- In this step the engine opens no database that was not closed. -/
def OpensFresh {M : Machine} {E : Engine} (w : World M E) (_ : Label E) (w' : World M E) : Prop :=
  ∀ db, w'.history = .opened db :: w.history → db ∉ unclosed w.history

/-- The step displaces no database, and the engine opens none that was not closed. -/
def Orderly {M : Machine} {E : Engine} (w : World M E) (l : Label E) (w' : World M E) : Prop :=
  ¬w.Displaces l ∧ OpensFresh w l w'

/-! ## Histories -/

/-- What is written down beside the calls and the databases that come of them. -/
def Event.Beside : Event → Prop
  | .called .. | .opened _ => False
  | _ => True

theorem Event.Quiet.beside {e : Event} (h : e.Quiet) : e.Beside := by
  cases e <;> trivial

theorem beside_closing (task : Task) (t : ThreadId) (own : Bool) (s : State) (o : Outcome) :
    ∀ e ∈ task.closing t own s o, e.Beside := by
  intro e he
  rcases mem_closing he with ⟨db, rfl⟩ | rfl <;> trivial

/-- Two histories tell the same of databases. -/
structure SameBooks (past past' : History) : Prop where
  databases : databases past' = databases past
  closes : closes past' = closes past
  unclosed : unclosed past' = unclosed past
  shut : shut past' = shut past

namespace SameBooks

variable {past past' past'' : History}

theorem trans (h : SameBooks past past') (h' : SameBooks past' past'') : SameBooks past past'' :=
  ⟨h'.databases.trans h.databases, h'.closes.trans h.closes, h'.unclosed.trans h.unclosed,
    h'.shut.trans h.shut⟩

theorem beside {es : History} (hes : ∀ e ∈ es, e.Beside) (past : History) :
    SameBooks past (es ++ past) := by
  induction es with
  | nil => exact ⟨rfl, rfl, rfl, rfl⟩
  | cons e es ih =>
    obtain ⟨he, hrest⟩ := List.forall_mem_cons.1 hes
    have h := ih hrest
    cases e with
    | called t call => exact he.elim
    | opened db => exact he.elim
    | _ => exact ⟨h.databases, h.closes, h.unclosed, h.shut⟩

theorem cons {e : Event} (he : e.Beside) (past : History) : SameBooks past (e :: past) :=
  .beside (List.forall_mem_singleton.2 he) past

theorem called (h : SameBooks past past') (t : ThreadId) (call : EngineCall) :
    SameBooks (.called t call :: past) (.called t call :: past') := by
  cases call with
  | close db =>
    exact ⟨h.databases, congrArg (db :: ·) h.closes, congrArg (·.erase db) h.unclosed,
      congrArg (db :: ·) h.shut⟩
  | _ => exact ⟨h.databases, h.closes, h.unclosed, h.shut⟩

theorem of_closed (t : ThreadId) {call : EngineCall} (hc : closed call = []) :
    SameBooks past (.called t call :: past) := by
  cases call with
  | close db => cases hc
  | _ => exact ⟨rfl, rfl, rfl, rfl⟩

end SameBooks

theorem closed_cases (call : EngineCall) : closed call = [] ∨ ∃ db, call = .close db := by
  cases call with
  | close db => exact .inr ⟨db, rfl⟩
  | _ => exact .inl rfl

/-- The engine opens a database, or nothing that is of account comes of its answer. -/
theorem minting_books (call : EngineCall) (answer : call.Answer) :
    (∃ db, minting call answer = [.opened db]) ∨
      (∀ e ∈ minting call answer, e.Beside) ∧ databases (minting call answer) = [] := by
  unfold minting
  split
  · exact .inl ⟨_, rfl⟩
  · exact .inr ⟨by simp [Event.Beside], rfl⟩
  · exact .inr ⟨by simp, rfl⟩

/-- The database is open twice over, or is to be closed although its close has started. -/
def Doubled (past : History) (db : DbHandle) : Prop :=
  2 ≤ (unclosed past).count db ∨ db ∈ unclosed past ∧ db ∈ shut past

/-- Every database is open once, and its close has not started. -/
structure Neat (past : History) : Prop where
  distinct : (unclosed past).Nodup
  apart : ∀ db ∈ unclosed past, db ∉ shut past

section Books

variable {past past' : History} {db db' : DbHandle} {t : ThreadId}

theorem Doubled.same (h : SameBooks past past') (hd : Doubled past db) : Doubled past' db := by
  unfold Doubled
  rw [h.unclosed, h.shut]
  exact hd

theorem Neat.same (h : SameBooks past past') (n : Neat past) : Neat past' := by
  refine ⟨?_, ?_⟩
  · rw [h.unclosed]
    exact n.distinct
  · rw [h.unclosed, h.shut]
    exact n.apart

/-- A database that is opened before it was closed is open twice over. -/
theorem doubled_of_opened (hm : db ∈ unclosed past) : Doubled (.opened db :: past) db := by
  have hpos : 0 < (unclosed past).count db := List.count_pos_iff.2 hm
  refine .inl ?_
  show 2 ≤ (db :: unclosed past).count db
  rw [List.count_cons_self]
  omega

/-- It stays so when others are opened, and when it is opened itself. -/
theorem Doubled.opened (hd : Doubled past db) (db' : DbHandle) :
    Doubled (.opened db' :: past) db := by
  by_cases he : db' = db
  · subst he
    refine doubled_of_opened ?_
    rcases hd with hd | ⟨hm, -⟩
    · exact List.count_pos_iff.1 (by omega)
    · exact hm
  · refine hd.imp (fun hd => ?_) fun ⟨hm, hs⟩ => ⟨List.mem_cons_of_mem _ hm, ?_⟩
    · show 2 ≤ (db' :: unclosed past).count db
      rwa [List.count_cons_of_ne he]
    · exact List.mem_filter.2 ⟨hs, by simpa using fun h => he h.symm⟩

/-- It stays so when a database is closed whose close has not started yet. -/
theorem Doubled.called (hd : Doubled past db) (hs : db' ∉ shut past) :
    Doubled (.called t (.close db') :: past) db := by
  by_cases he : db' = db
  · subst he
    have hcount : 2 ≤ (unclosed past).count db' := hd.resolve_right fun h => hs h.2
    refine .inr ⟨List.count_pos_iff.1 ?_, List.mem_cons_self⟩
    show 0 < ((unclosed past).erase db').count db'
    rw [List.count_erase_self]
    omega
  · refine hd.imp (fun hd => ?_) fun ⟨hm, hs⟩ => ⟨?_, List.mem_cons_of_mem _ hs⟩
    · show 2 ≤ ((unclosed past).erase db').count db
      rwa [List.count_erase_of_ne fun h => he h.symm]
    · exact (List.mem_erase_of_ne fun h => he h.symm).2 hm

theorem Neat.opened (n : Neat past) (hf : db ∉ unclosed past) : Neat (.opened db :: past) where
  distinct := List.nodup_cons.2 ⟨hf, n.distinct⟩
  apart db' hm hs := by
    obtain ⟨hs, hne⟩ := List.mem_filter.1 hs
    rcases List.mem_cons.1 hm with rfl | hm
    · simp at hne
    · exact n.apart db' hm hs

theorem Neat.called (n : Neat past) : Neat (.called t (.close db) :: past) where
  distinct := n.distinct.erase db
  apart db' hm hs := by
    rcases List.mem_cons.1 hs with rfl | hs
    · exact n.distinct.not_mem_erase hm
    · exact n.apart db' (List.mem_of_mem_erase hm) hs

end Books

/-! ## The databases at hand -/

variable {c : Connection} {E : Engine} {w w' : World (phases c) E} {l : Label E} {t : ThreadId}
  {task : Task} {own : Bool} {m : Move} {i : Nat} {p : Phase} {db : DbHandle}

/-- The databases that an action under way has, without one that it has asked the engine to
close. -/
def Frame.held (f : Frame (phases c)) : List DbHandle :=
  match f.answer with
  | none => f.point.stays
  | some answer => databases (minting f.call answer) ++ f.point.stays

/-- The databases that the connection or an action under way has. -/
def World.held (w : World (phases c) E) : List DbHandle :=
  w.state.handle.toList ++ w.frames.flatMap Frame.held

theorem held_perm {f : Frame (phases c)} (hf : w.frames[i]? = some f) :
    w.held.Perm ((w.state.handle.toList ++ f.held) ++ (w.frames.eraseIdx i).flatMap Frame.held) := by
  rw [List.append_assoc]
  exact (flatMap_perm Frame.held hf).append_left _

theorem held_pause (w : World (phases c) E) (t : ThreadId) (task : Task) (own : Bool) {q : Phase}
    (hn : m.next = .inl q) :
    (closed (q.call c) ++ (w.proceed t task own m).held).Perm
      ((m.state.handle.toList ++ m.hand c) ++ w.frames.flatMap Frame.held) := by
  rw [w.proceed_pause t task own hn, hand_pause hn]
  simp only [World.held, Phase.hand, Frame.held, List.flatMap_cons, List.perm_iff_count,
    List.count_append]
  intro db
  omega

theorem held_end (w : World (phases c) E) (t : ThreadId) (task : Task) (own : Bool) {o : Outcome}
    (hn : m.next = .inr o) : (w.proceed t task own m).held
      = (m.state.handle.toList ++ m.hand c) ++ w.frames.flatMap Frame.held := by
  rw [w.proceed_end t task own hn, hand_end hn, List.append_nil]
  rfl

theorem proceed_books (w : World (phases c) E) (t : ThreadId) (task : Task) (own : Bool) (m : Move) :
    SameBooks
      ((m.next.elim (fun q => [.called t (q.call c)]) fun _ => []) ++ w.history)
      (w.proceed t task own m).history := by
  have hr := SameBooks.beside (fun e he => (quiet_reported m.notices e he).beside) w.history
  cases hn : m.next with
  | inl q =>
    rw [w.proceed_pause t task own hn]
    exact hr.called t (q.call c)
  | inr o =>
    rw [w.proceed_end t task own hn]
    exact hr.trans (.beside (beside_closing task t own m.state o) _)

/-! ## What a step does with databases -/

/-- What a step does with databases. -/
inductive Deal (w : World (phases c) E) (l : Label E) (w' : World (phases c) E) : Prop
  /-- One arrives. -/
  | opens {db : DbHandle} (history : w'.history = .opened db :: w.history)
    (held : w'.held.Perm (db :: w.held)) (quiet : ¬w.Displaces l) : Deal w l w'
  /-- The engine is asked to close one. -/
  | closes {t : ThreadId} {task : Task} {db : DbHandle} (calls : w.Calls l t task (.close db))
    (books : SameBooks (.called t (.close db) :: w.history) w'.history)
    (held : (db :: w'.held).Perm w.held) (quiet : ¬w.Displaces l) : Deal w l w'
  /-- None comes or goes. -/
  | keeps (books : SameBooks w.history w'.history) (held : w'.held.Perm w.held)
    (quiet : ¬w.Displaces l) : Deal w l w'
  /-- An open stores one in the place of another. -/
  | loses {db : DbHandle} (books : SameBooks w.history w'.history)
    (held : (db :: w'.held).Perm w.held) (displaces : w.Displaces l) : Deal w l w'

theorem deal_proceed {v : World (phases c) E} (hbooks : SameBooks w.history v.history)
    (hheld : ((m.state.handle.toList ++ m.hand c) ++ v.frames.flatMap Frame.held).Perm w.held)
    (hquiet : ¬w.Displaces l)
    (hcalls : ∀ q, m.next = .inl q → w.Calls l t task (q.call c)) :
    Deal w l (v.proceed t task own m) := by
  have hp := proceed_books v t task own m
  cases hn : m.next with
  | inl q =>
    rw [hn] at hp
    have hq := (held_pause v t task own hn).trans hheld
    rcases closed_cases (q.call c) with hc | ⟨db, hc⟩
    · rw [hc] at hq
      exact .keeps ((hbooks.trans (.of_closed t hc)).trans hp) hq hquiet
    · have hcalls := hcalls q hn
      simp only [Sum.elim_inl, hc] at hq hcalls hp
      exact .closes hcalls ((hbooks.called t (.close db)).trans hp) hq hquiet
  | inr o =>
    rw [hn] at hp
    exact .keeps (hbooks.trans hp) (held_end v t task own hn ▸ hheld) hquiet

theorem start_deal {a : Action} (ht : w.task? a = some task) :
    Deal w (.start t a) (w.start t task) := by
  have hquiet : ¬w.Displaces (.start t a) := by
    rintro ⟨t', task', o, r, ⟨rfl, ht', hend⟩, hopen, hr, -⟩
    cases ht.symm.trans ht'
    obtain ⟨mode, rfl⟩ := open_of_kind (isOpen_iff.1 hopen)
    cases open_start (c := c) (t := t) (s := w.state) mode with
    | refused ends fails _ =>
      cases ends.symm.trans hend
      obtain ⟨e, he⟩ := fails
      cases hr.symm.trans he
    | opens _ _ _ waits _ => cases waits.symm.trans hend
  refine deal_proceed
    (.beside (fun e he => (quiet_opening task t w.state e he).beside) w.history) ?_ hquiet
    fun q hq => ⟨rfl, ht, q, hq, rfl⟩
  exact (start_hands (c := c) (t := t) (s := w.state) task).append_right _

theorem acted_deal (hf : w.frames[i]? = some ⟨t, task, p, none⟩) :
    Deal w (.act i) (w.acted i t task p) := by
  have hquiet : ¬w.Displaces (.act i) := fun ⟨_, _, _, _, hend, _⟩ => hend
  have hold := held_perm hf
  have hnew := (flatMap_set_perm Frame.held (List.getElem?_eq_some_iff.1 hf).1
    (⟨t, task, p, some (E.answer w.engine (p.call c)).1⟩ : Frame (phases c))).append_left
    w.state.handle.toList
  have hheld : (w.acted i t task p).held.Perm
      (databases (minting (p.call c) (E.answer w.engine (p.call c)).1) ++ w.held) := by
    generalize w.held = held at hold
    refine hnew.trans (.trans ?_ (hold.symm.append_left _))
    simp only [Frame.held, Frame.call, List.perm_iff_count, List.count_append]
    intro db
    show _ + (((databases (minting (p.call c) _)).count db + _) + _) = _
    omega
  have hhistory : (w.acted i t task p).history
    = minting (p.call c) (E.answer w.engine (p.call c)).1 ++ w.history := rfl
  rcases minting_books (p.call c) (E.answer w.engine (p.call c)).1 with
    ⟨db, hm⟩ | ⟨hbeside, hm⟩
  · rw [hm] at hheld hhistory
    exact .opens hhistory hheld hquiet
  · rw [hm] at hheld
    exact .keeps (hhistory ▸ .beside hbeside w.history) hheld hquiet

theorem resume_deal (tidy : Tidy w) {answer : (p.call c).Answer}
    (hf : w.frames[i]? = some ⟨t, task, p, some answer⟩) :
    Deal w (.resume i)
      ((w.returned i t (p.call c)).proceed t task true (p.resume c t answer w.state)) := by
  have hk : p.kind = task.kind := tidy.kinds _ (List.mem_of_getElem? hf)
  have hp := held_perm hf
  have hbooks : SameBooks w.history (w.returned i t (p.call c)).history :=
    .cons (e := .returned t (p.call c)) trivial w.history
  have hstores := resume_stores (t := t) (s := w.state) p answer
  have hends : ∀ {o}, w.Ends (.resume i) t task o →
      (p.resume c t answer w.state).next = .inr o := by
    rintro o ⟨p', answer', hf', hend⟩
    cases hf.symm.trans hf'
    exact hend
  have hcalls : ∀ q, (p.resume c t answer w.state).next = .inl q →
      w.Calls (.resume i) t task (q.call c) := fun q hq => ⟨p, answer, hf, q, hq, rfl⟩
  have hquiet : (w.state.handle.isSome = true → p.kind = .opens →
      ∀ o, (p.resume c t answer w.state).next = .inr o → ∃ e, o.result = .error e) →
      ¬w.Displaces (.resume i) := by
    rintro hfails ⟨t', task', o, r, ⟨p', answer', hf', hend⟩, hopen, hr, hh⟩
    cases hf.symm.trans hf'
    obtain ⟨e, he⟩ := hfails hh (hk.trans (isOpen_iff.1 hopen)) o hend
    cases hr.symm.trans he
  have hdisplaces : ∀ o r, (p.resume c t answer w.state).next = .inr o → o.result = .ok r →
      p.kind = .opens → w.state.handle.isSome = true → w.Displaces (.resume i) := by
    intro o r hend hr ho hh
    exact ⟨t, task, o, r, ⟨p, answer, hf, hend⟩, isOpen_iff.2 (hk.symm.trans ho), hr, hh⟩
  generalize p.resume c t answer w.state = m at hstores hcalls hquiet hdisplaces
  cases hstores with
  | keeps handle hand fails =>
    refine deal_proceed hbooks ?_ (hquiet fun _ => fails) hcalls
    rw [handle, hand]
    exact hp.symm
  | @stores db arrived opens ends handle =>
    have hbooks' : SameBooks w.history ((w.returned i t (p.call c)).proceed t task true m).history := by
      have hproceed := proceed_books (w.returned i t (p.call c)) t task true m
      rw [ends] at hproceed
      exact hbooks.trans hproceed
    have hheld : ((w.returned i t (p.call c)).proceed t task true m).held
        = db :: (w.frames.eraseIdx i).flatMap Frame.held := by
      rw [held_end _ t task true ends, handle, hand_end ends]
      rfl
    have hframe : Frame.held (⟨t, task, p, some answer⟩ : Frame (phases c)) = [db] := arrived
    rw [hframe] at hp
    cases hh : w.state.handle with
    | none =>
      refine .keeps hbooks' ?_ (hquiet fun h => by simp [hh] at h)
      rw [hheld]
      rw [hh] at hp
      exact hp.symm
    | some old =>
      refine .loses hbooks' (?_ : (old :: _).Perm _) (hdisplaces _ _ ends rfl opens (by simp [hh]))
      rw [hheld]
      rw [hh] at hp
      exact hp.symm

/-- **Every step does one of the four.** -/
theorem step_deal (tidy : Tidy w) (h : w.step l = some w') : Deal w l w' := by
  cases World.step_cases h with
  | start ht => exact start_deal ht
  | act hf => exact acted_deal hf
  | resume hf hn => exact resume_deal tidy hf
  | drift e =>
    exact .keeps ⟨rfl, rfl, rfl, rfl⟩ (.refl _) fun ⟨_, _, _, _, hend, _⟩ => hend

/-- Apart from what is displaced, as many databases are at hand and closed as were opened. -/
theorem deal_balance (d : Deal w l w') : ∃ lost : List DbHandle, (lost = [] ↔ ¬w.Displaces l) ∧
    ∀ db, lost.count db + w'.held.count db + (closes w'.history).count db +
      (databases w.history).count db
        = w.held.count db + (closes w.history).count db + (databases w'.history).count db := by
  cases d with
  | @opens db' history held quiet =>
    refine ⟨[], iff_of_true rfl quiet, fun db => ?_⟩
    have hheld := held.count_eq db
    rw [List.count_cons] at hheld
    rw [history, hheld, List.count_nil]
    show _ + (closes w.history).count db + _ = _ + _ + (db' :: databases w.history).count db
    rw [List.count_cons]
    omega
  | @closes t task db' calls books held quiet =>
    refine ⟨[], iff_of_true rfl quiet, fun db => ?_⟩
    have hheld := held.count_eq db
    rw [List.count_cons] at hheld
    rw [books.closes, books.databases, ← hheld, List.count_nil]
    show _ + (db' :: closes w.history).count db + _ = _ + (databases w.history).count db
    rw [List.count_cons]
    omega
  | keeps books held quiet =>
    refine ⟨[], iff_of_true rfl quiet, fun db => ?_⟩
    rw [books.closes, books.databases, held.count_eq, List.count_nil]
    omega
  | @loses db' books held displaces =>
    refine ⟨[db'], iff_of_false (by simp) fun h => h displaces, fun db => ?_⟩
    have hheld := held.count_eq db
    rw [List.count_cons] at hheld
    rw [books.closes, books.databases, ← hheld, List.count_singleton]
    omega

/-! ## Databases that are displaced -/

/-- With the databases that were closed, those at hand are all that were opened. -/
def World.Accounted (w : World (phases c) E) : Prop :=
  ∀ db, w.held.count db + (closes w.history).count db = (databases w.history).count db

def Undisplaced {M : Machine} {E : Engine} (w : World M E) (l : Label E) (_ : World M E) : Prop :=
  ¬w.Displaces l

section Displaced

variable {ls : List (Label E)} {e : E.State}

/-- No more databases are at hand and closed than were opened. -/
theorem run_within {ok : World (phases c) E → Label E → World (phases c) E → Prop}
    (run : Run (phases c) E e ok ls w) (db : DbHandle) :
    w.held.count db + (closes w.history).count db ≤ (databases w.history).count db := by
  induction run with
  | nil => exact Nat.le_refl 0
  | snoc run hs _ ih =>
    obtain ⟨lost, -, hbalance⟩ := deal_balance (step_deal (run_tidy run) hs)
    have := hbalance db
    omega

theorem accounted_step (hwithin : ∀ db, w.held.count db + (closes w.history).count db
      ≤ (databases w.history).count db) (d : Deal w l w') :
    w'.Accounted ↔ w.Accounted ∧ ¬w.Displaces l := by
  obtain ⟨lost, hlost, hbalance⟩ := deal_balance d
  rw [← hlost]
  constructor
  · intro h
    have hcount : ∀ db, lost.count db = 0 ∧
        w.held.count db + (closes w.history).count db = (databases w.history).count db := by
      intro db
      have := h db
      have := hbalance db
      have := hwithin db
      omega
    refine ⟨fun db => (hcount db).2, List.eq_nil_iff_forall_not_mem.2 fun db => ?_⟩
    exact List.count_eq_zero.1 (hcount db).1
  · rintro ⟨h, rfl⟩ db
    have := h db
    have := hbalance db
    rw [List.count_nil] at this
    omega

/-- **The databases that were opened are at hand or closed exactly if none was displaced.** -/
theorem accounted_iff (run : Run (phases c) E e AnyStep ls w) :
    w.Accounted ↔ Run (phases c) E e Undisplaced ls w := by
  constructor
  · intro h
    induction run with
    | nil => exact .nil
    | snoc run hs _ ih =>
      obtain ⟨h, hno⟩ := (accounted_step (run_within run) (step_deal (run_tidy run) hs)).1 h
      exact (ih h).snoc hs hno
  · intro h
    clear run
    induction h with
    | nil => exact fun _ => rfl
    | snoc run hs hno ih =>
      exact (accounted_step (run_within run) (step_deal (run_tidy run) hs)).2
        ⟨ih, hno⟩

/-- While none is displaced, those at hand are those that are yet to be closed. -/
theorem run_held (run : Run (phases c) E e Undisplaced ls w) :
    w.held.Perm (unclosed w.history) := by
  induction run with
  | nil => exact .refl _
  | snoc run hs hno ih =>
    cases step_deal (run_tidy run) hs with
    | opens history held _ =>
      rw [history]
      exact held.trans (ih.cons _)
    | @closes t task db _ books held _ =>
      rw [books.unclosed]
      have h := (held.trans ih).erase db
      rwa [List.erase_cons_head] at h
    | keeps books held _ =>
      rw [books.unclosed]
      exact held.trans ih
    | loses _ _ displaces => exact absurd displaces hno

end Displaced

/-! ## Calls in time -/

section Calls

variable {ls : List (Label E)} {e : E.State}

/-- A call names a database at hand, or asks for the message of a close that has failed. -/
theorem held_of_calls {call : EngineCall} (hcalls : w.Calls l t task call)
    (hc : call.database? = some db) :
    db ∈ w.held ∨ call = .errorMessage (some db) ∧ w.CloseFails l db := by
  have hhandle : w.state.handle = some db → db ∈ w.held := fun hh =>
    List.mem_append_left _ (by simp [hh])
  cases l with
  | start t' a =>
    obtain ⟨rfl, ht, q, hq, rfl⟩ := hcalls
    exact .inl (hhandle (start_database hq hc))
  | resume i =>
    obtain ⟨p, answer, hf, q, hq, rfl⟩ := hcalls
    rcases resume_database hq hc with hh | hm | ⟨hmessage, hfails⟩
    · exact .inl (hhandle hh)
    · refine .inl (List.mem_append_right _ (List.mem_flatMap.2 ⟨_, List.mem_of_getElem? hf, hm⟩))
    · exact .inr ⟨hmessage, i, ⟨t, task, p, some answer⟩, answer, rfl, hf, rfl, hfails⟩
  | act i => exact hcalls.elim
  | drift e => exact hcalls.elim

/-- In an orderly run every database is open once. -/
theorem run_neat (run : Run (phases c) E e Orderly ls w) : Neat w.history := by
  induction run with
  | nil => exact ⟨List.nodup_nil, fun _ h => by cases h⟩
  | snoc run hs hok ih =>
    cases step_deal (run_tidy run) hs with
    | opens history _ _ => exact history ▸ ih.opened (hok.2 _ history)
    | closes _ books _ _ => exact ih.called.same books
    | keeps books _ _ => exact ih.same books
    | loses books _ _ => exact ih.same books

theorem timely_of_orderly (run : Run (phases c) E e Orderly ls w) : Timely w l w' := by
  intro t task call db hcalls hc hs
  have hheld := run_held (run_mono (fun _ _ _ h => h.1) run)
  refine (held_of_calls hcalls hc).resolve_left fun hm => ?_
  exact (run_neat run).apart db (hheld.subset hm) hs

/-- While calls are in time, a database that is open twice over stays so. -/
theorem doubled_step (d : Deal w l w') (hok : Timely w l w') (h : Doubled w.history db) :
    Doubled w'.history db := by
  cases d with
  | opens history _ _ => exact history ▸ h.opened _
  | @closes t task db' calls books _ _ =>
    refine (h.called fun hs => ?_).same books
    cases (hok t task _ db' calls rfl hs).1
  | keeps books _ _ => exact h.same books
  | loses books _ _ => exact h.same books

/-- With calls in time, no database displaced and none open twice over, the run was orderly. -/
theorem orderly_of_timely (run : Run (phases c) E e Timely ls w) (ha : w.Accounted)
    (hnone : ∀ db, ¬Doubled w.history db) : Run (phases c) E e Orderly ls w := by
  induction run with
  | nil => exact .nil
  | @snoc ls w w' l run hs hok ih =>
    have d := step_deal (run_tidy run) hs
    obtain ⟨ha, hno⟩ := (accounted_step (run_within run) d).1 ha
    refine (ih ha fun db h => hnone db (doubled_step d hok h)).snoc hs ⟨hno, fun db history hm => ?_⟩
    exact hnone db (history ▸ doubled_of_opened hm)

end Calls

/-! ## The end of a run -/

/-- Once nothing is under way, a disposed connection has no database at hand. -/
theorem held_ended (d : Drains w) (ended : w.frames = []) (disposed : w.state.disposed = true) :
    w.held = [] := by
  simp [World.held, ended, d.closed disposed]

theorem phases_closed_once_iff {e : E.State} {ls : List (Label E)}
    (run : Run (phases c) E e AnyStep ls w) (ended : w.frames = [])
    (disposed : w.state.disposed = true) :
    ((∀ db, (closes w.history).count db = (databases w.history).count db) ∧
        Run (phases c) E e Timely ls w) ↔ Run (phases c) E e Orderly ls w := by
  have hheld := held_ended (run_drains run) ended disposed
  have haccounted : w.Accounted ↔
      ∀ db, (closes w.history).count db = (databases w.history).count db := by
    simp [World.Accounted, hheld]
  constructor
  · rintro ⟨hcount, htimely⟩
    have ha := haccounted.2 hcount
    have hunclosed : unclosed w.history = [] :=
      (hheld ▸ run_held ((accounted_iff run).1 ha)).nil_eq.symm
    exact orderly_of_timely htimely ha fun db h => by simp [Doubled, hunclosed] at h
  · intro horderly
    refine ⟨haccounted.1 ((accounted_iff run).2 (run_mono (fun _ _ _ h => h.1) horderly)), ?_⟩
    clear hheld haccounted ended disposed run
    induction horderly with
    | nil => exact .nil
    | snoc run hs _ ih => exact ih.snoc hs (timely_of_orderly run)

theorem realize_displaces (w : World (phases c) E) (l : Label E) :
    w.realize.Displaces l ↔ w.Displaces l := by
  simp only [World.Displaces, realize_ends, World.realize_state]

theorem realize_closeFails (w : World (phases c) E) (l : Label E) (db : DbHandle) :
    w.realize.CloseFails l db ↔ w.CloseFails l db := by
  constructor
  · rintro ⟨i, _, answer, rfl, hf, ha, hr⟩
    rw [World.realize_frames, List.getElem?_map] at hf
    obtain ⟨f, hg, rfl⟩ := Option.map_eq_some_iff.1 hf
    exact ⟨i, f, answer, rfl, hg, ha, hr⟩
  · rintro ⟨i, f, answer, rfl, hf, ha, hr⟩
    refine ⟨i, f.realize, answer, rfl, ?_, ha, hr⟩
    rw [World.realize_frames, List.getElem?_map, hf]
    rfl

theorem realize_timely (w : World (phases c) E) (l : Label E) (w' : World (phases c) E) :
    Timely w.realize l w'.realize ↔ Timely w l w' := by
  simp only [Timely, realize_calls, realize_closeFails, World.realize_history]

theorem realize_orderly (w : World (phases c) E) (l : Label E) (w' : World (phases c) E) :
    Orderly w.realize l w'.realize ↔ Orderly w l w' :=
  and_congr (not_congr (realize_displaces w l)) Iff.rfl

/-- **A disposed connection has closed every database as often as it was opened, and named none
after that, exactly in the runs in which no open displaces the database of another and the engine
opens none that was not closed.** -/
theorem closed_once_iff {e : E.State} {ls : List (Label E)} {w : World (programs c) E}
    (ended : w.frames = []) (disposed : w.state.disposed = true) :
    ((∀ db, (closes w.history).count db = (databases w.history).count db) ∧
        Run (programs c) E e Timely ls w) ↔ Run (programs c) E e Orderly ls w := by
  constructor
  · rintro ⟨hcount, htimely⟩
    obtain ⟨v, rfl, hv⟩ := (run_programs_congr realize_timely).1 htimely
    have run : Run (phases c) E e AnyStep ls v := run_mono (fun _ _ _ _ => trivial) hv
    have hiff := phases_closed_once_iff run (by simpa using ended) disposed
    exact (run_programs_congr realize_orderly).2 ⟨v, rfl, hiff.1 ⟨hcount, hv⟩⟩
  · intro horderly
    obtain ⟨v, rfl, hv⟩ := (run_programs_congr realize_orderly).1 horderly
    have run : Run (phases c) E e AnyStep ls v := run_mono (fun _ _ _ _ => trivial) hv
    obtain ⟨hcount, htimely⟩ :=
      (phases_closed_once_iff run (by simpa using ended) disposed).2 hv
    exact ⟨hcount, (run_programs_congr realize_timely).2 ⟨v, rfl, htimely⟩⟩

/-! ## A database that is never closed -/

/-- A thread opens a database while another open of its own is in progress, and disposes the
connection once both have succeeded. -/
def openedTwice : List (Label recording) :=
  let t : ThreadId := ⟨0⟩
  [.start t (.open .readWriteCreate), .act 0, .start t (.open .readWriteCreate), .act 0, .resume 0,
    .resume 0, .start t .dispose, .act 0, .resume 0]

/-- The database that was stored first is not closed. -/
theorem openedTwice_unclosed :
    ∃ w, Run (programs inMemory) recording .initial AnyStep openedTwice w ∧
      w.frames = [] ∧ w.state.disposed = true ∧
      ∃ db ∈ databases w.history, db ∉ closes w.history := by
  obtain ⟨w, run, hw⟩ := exists_run (M := programs inMemory) (e := RecordingEngine.initial)
    AnyStep openedTwice
    (fun w => w.frames.isEmpty ∧ w.state.disposed = true ∧
      ∃ db ∈ databases w.history, db ∉ closes w.history) (by decide +kernel)
  simp only [decide_eq_true_eq, List.isEmpty_iff] at hw
  exact ⟨w, run, hw⟩

/-- Its open is not orderly. -/
theorem openedTwice_not_orderly :
    ∃ w, Run (programs inMemory) recording .initial AnyStep openedTwice w ∧
      ¬Run (programs inMemory) recording .initial Orderly openedTwice w := by
  obtain ⟨w, run, hw⟩ := exists_run (M := programs inMemory) (e := RecordingEngine.initial)
    AnyStep openedTwice
    (fun w => w.frames.isEmpty ∧ w.state.disposed = true ∧
      ∃ db ∈ databases w.history, db ∉ closes w.history) (by decide +kernel)
  simp only [decide_eq_true_eq, List.isEmpty_iff] at hw
  obtain ⟨hf, hd, db, hm, hnot⟩ := hw
  refine ⟨w, run, fun horderly => hnot ?_⟩
  have hcount := ((closed_once_iff hf hd).2 horderly).1 db
  exact List.count_pos_iff.1 (hcount ▸ List.count_pos_iff.2 hm)

end ConfinedDb.Interleaving
