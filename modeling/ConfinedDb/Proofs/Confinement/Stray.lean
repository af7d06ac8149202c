import ConfinedDb.Proofs.Confinement.Guard
import ConfinedDb.Proofs.Interleaving.Realize
import ConfinedDb.Proofs.Spent.Names
/-!
# Confined calls on other threads

Calls that need the thread whose open has installed the database are made on that thread
(`History.Confined`), but for two kinds of starts (`World.Stray`):

* the owner is not the opener any more although the database is there, so another thread gets in.
  This comes about when an open that has set the owner fails after another open of the same
  thread, nested in a native call of the first, has installed its database: the failure takes the
  owner back;
* a disposal, which has taken the owner out, is finalizing statements, and a release of a statement
  that is still registered is started on another thread.

`Guarded` is kept by every step that is none of these (`guarded_step`), so a run makes its confined
calls on the opener's thread exactly if no step of it is stray (**`confined_iff`**).
`released_elsewhere` is a run with a stray step of the second kind.
-/
namespace ConfinedDb.Interleaving

open History

/-- Every confined call was made on the opener's thread. -/
def History.Confined : History → Prop :=
  EachCall fun past t call => call.isConfined = true → opener? past = some t

instance : DecidablePred Confined :=
  inferInstanceAs (DecidablePred
    (EachCall fun past t call => call.isConfined = true → opener? past = some t))

namespace World

variable {M : Machine} {E : Engine}

/-- The confined call that a step starts is on the opener's thread. -/
def Inside (w : World M E) (l : Label E) : Prop :=
  ∀ t task call, w.Calls l t task call → call.isConfined = true → opener? w.history = some t

/-- In this step another thread than the opener's starts an action with a confined call. -/
inductive Stray (w : World M E) : Label E → Prop
  /-- The owner is not the opener, although the database is there. -/
  | unguarded {t : ThreadId} {a : Action} {task : Task} {call : EngineCall}
    (calls : w.Calls (.start t a) t task call) (confined : call.isConfined = true)
    (other : opener? w.history ≠ some t) (undisposed : w.state.disposed = false)
    (owner : w.state.owner ≠ opener? w.history) : Stray w (.start t a)
  /-- A statement is released while a disposal finalizes statements. -/
  | release {t : ThreadId} {a : Action} {task : Task} {call : EngineCall} {h : StmtHandle}
    (calls : w.Calls (.start t a) t task call) (confined : call.isConfined = true)
    (other : opener? w.history ≠ some t) (release : task.isRelease = true)
    (disposal : w.Finalizes Task.isDisposal h) : Stray w (.start t a)

end World

/-! ## Histories -/

theorem opener_quiet {es : History} (hes : ∀ e ∈ es, e.Quiet) (past : History) :
    opener? (es ++ past) = opener? past := by
  refine view_append (fun e he past => ?_) past
  have hquiet := hes e he
  cases e with
  | returned t call => rfl
  | retired t hs => rfl
  | leaked h => rfl
  | reported notice => rfl
  | _ => exact hquiet.elim

theorem opener_append {past past' : History} (h : opener? past = opener? past') (es : History) :
    opener? (es ++ past) = opener? (es ++ past') := by
  induction es with
  | nil => exact h
  | cons e es ih => cases e <;> first | exact ih | rfl

theorem confined_step {M : Machine} {E : Engine} {w w' : World M E} {l : Label E}
    (h : w.step l = some w') : Confined w'.history ↔ Confined w.history ∧ w.Inside l := by
  refine eachCall_step ?_ h
  intro e past t call he
  have hquiet : ∀ e' ∈ [e], e'.Quiet := by simpa using he
  have ho : opener? (e :: past) = opener? past := opener_quiet hquiet past
  rw [ho]

def World.posts {c : Connection} {E : Engine} (w : World (phases c) E) : List Post :=
  w.frames.map fun f => (f.thread, f.point)

def World.Guarded {c : Connection} {E : Engine} (w : World (phases c) E) : Prop :=
  Interleaving.Guarded w.state w.posts w.history

variable {c : Connection} {E : Engine} {w w' : World (phases c) E} {t : ThreadId} {s : State}
  {posts : List Post} {past : History} {own : Bool}

/-! ## How a call is reached -/

/-- An action that starts with a confined call is admitted: the database is there, or a statement is
released. -/
theorem start_inside {task : Task} {q : Phase} (hq : (phaseStart c t s task).next = .inl q)
    (hi : q.inside = true) :
    Ready t s ∨ bars s t = false ∧ s.registered ≠ [] ∧ ∃ e, task.kind = .releases e := by
  have hdispose : task.isDisposal = true → Ready t s := by
    intro ht
    have hstart := dispose_start (c := c) (t := t) (s := s) ht
    generalize phaseStart c t s task = m at hstart hq
    cases hstart with
    | again _ ends => cases ends.symm.trans hq
    | unopened _ _ ends => cases ends.symm.trans hq
    | drains undisposed opened owner _ =>
      exact ⟨by simp [bars, owner], undisposed, by simp [opened]⟩
    | abandons _ _ _ waits =>
      cases waits.symm.trans hq
      cases hi
  cases task with
  | «open» mode =>
    obtain ⟨flags, claimed, rfl⟩ := open_next hq
    cases hi
  | exec sql => exact .inl (exec_next hq).1
  | prepare sql lending => exact .inl (prepare_next hq).1
  | dispose => exact .inl (hdispose rfl)
  | drop => exact .inl (hdispose rfl)
  | use n st u =>
    cases use_next hq with
    | rewinding admitted there | unbinding admitted there | finalizing admitted there =>
      exact .inr ⟨admitted, List.ne_nil_of_mem there, st.entry, rfl⟩
    | binding ready | stepping ready | counting ready => exact .inl ready
    | reading ready | resetting ready | clearing ready => exact .inl ready

/-- The first call of an action that is inside is confined. -/
theorem start_confined {task : Task} {q : Phase} (hq : (phaseStart c t s task).next = .inl q)
    (hi : q.inside = true) : (q.call c).isConfined = true := by
  have hdispose : q.kind = .disposes → (q.call c).isConfined = true := by
    intro hk
    have hdrains := drains_of_inside hi hk
    cases q <;> first | rfl | cases hdrains
  cases task with
  | «open» mode =>
    obtain ⟨flags, claimed, rfl⟩ := open_next hq
    cases hi
  | exec sql =>
    obtain ⟨-, db, -, rfl⟩ := exec_next hq
    rfl
  | prepare sql lending =>
    obtain ⟨-, db, -, rfl⟩ := prepare_next hq
    rfl
  | dispose => exact hdispose (start_kind hq)
  | drop => exact hdispose (start_kind hq)
  | use n st u => cases use_next hq <;> rfl

theorem resume_inside {p q : Phase} {answer : (p.call c).Answer}
    (hq : (p.resume c t answer s).next = .inl q) (hi : q.inside = true) : p.inside = true := by
  have hk := resume_kind hq
  by_cases ho : p.kind = .opens
  · simp [not_inside_of_opens (hk.trans ho)] at hi
  · by_cases hd : p.kind = .disposes
    · have hdrains := drains_of_inside hi (hk.trans hd)
      cases q with
      | draining h sql rounds db =>
        cases resume_names hq (h := h) rfl with
        | drain => rfl
      | _ => cases hdrains
    · exact inside_of_kind ho hd

/-! ## The guard holds -/

/-- Every step that is not stray makes its confined call on the opener's thread. -/
theorem inside_of_not_stray (tidy : Tidy w) (d : Drains w) (g : w.Guarded) {l : Label E}
    (hn : ¬w.Stray l) : w.Inside l := by
  intro t task call hcalls hc
  cases l with
  | start t' a =>
    have hcalls' := hcalls
    obtain ⟨rfl, ht, q, hq, rfl⟩ := hcalls'
    by_contra hother
    have howner : bars w.state t' = false → (opener? w.history).isSome = true →
        w.state.owner ≠ opener? w.history := by
      intro hb hs he
      obtain ⟨o, ho⟩ := Option.isSome_iff_exists.1 hs
      rw [ho] at he
      have : t' = o := by simpa [bars, he] using hb
      exact hother (this ▸ ho)
    rcases start_inside hq (inside_of_confined hc) with hready | ⟨hb, hr, e, hk⟩
    · exact hn (.unguarded hcalls hc hother hready.undisposed
        (howner hready.admitted ((g.opened hready.undisposed).1 hready.opened)))
    · cases hd : w.state.disposed with
      | false => exact hn (.unguarded hcalls hc hother hd (howner hb (g.stocked hr)))
      | true =>
        obtain ⟨f, hf, hdrains⟩ := (d.lasts hd).resolve_left hr
        obtain ⟨h, hcall⟩ : ∃ h, f.call = .finalize h := by
          obtain ⟨t, task, p, answer⟩ := f
          cases p <;> first | exact ⟨_, rfl⟩ | cases hdrains
        have hkind : f.task.kind = .disposes := (tidy.kinds f hf).symm.trans (drains_kind hdrains)
        exact hn (.release hcalls hc hother (isRelease_of_kind hk)
          ⟨f, hf, isDisposal_of_kind hkind, hcall⟩)
  | resume i =>
    obtain ⟨p, answer, hf, q, hq, rfl⟩ := hcalls
    exact g.inside (t, p) (List.mem_map.2 ⟨_, List.mem_of_getElem? hf, rfl⟩)
      (resume_inside hq (inside_of_confined hc))
  | act i => exact hcalls.elim
  | drift e => exact hcalls.elim

def Move.Guards (t : ThreadId) (own : Bool) (k : Kind) (m : Move) (posts : List Post)
    (past : History) : Prop :=
  match m.next with
  | .inl q => Guarded m.state ((t, q) :: posts) past
  | .inr o => Guarded m.state posts (k.closing t own m.state o ++ past)

theorem guarded_proceed {task : Task} {m : Move}
    (h : m.Guards t own task.kind w.posts w.history) : (w.proceed t task own m).Guarded := by
  have hr := opener_quiet (quiet_reported m.notices) w.history
  unfold Move.Guards at h
  cases hn : m.next with
  | inl q =>
    rw [hn] at h
    rw [w.proceed_pause t task own hn]
    exact h.congr_past hr
  | inr o =>
    rw [w.proceed_end t task own hn]
    simp only [hn, ← Task.closing_eq] at h
    exact h.congr_past (opener_append hr _)

theorem opener_closing {k : Kind} (hk : k ≠ .opens) (s : State) (o : Outcome) :
    opener? (k.closing t own s o ++ past) = opener? past := by
  cases k with
  | opens => exact absurd rfl hk
  | disposes =>
    simp only [Kind.closing]
    split <;> rfl
  | _ => rfl

theorem guards_same {k : Kind} {m : Move} (g : Guarded s posts past) (hc : Closed s)
    (hk : k ≠ .opens) (hm : m.Of k) (hs : SameDatabase s m.state)
    (hin : ∀ q, m.next = .inl q → q.inside = true → opener? past = some t) :
    m.Guards t own k posts past := by
  unfold Move.Guards
  unfold Move.Of at hm
  have g := g.same hc hs
  cases hn : m.next with
  | inl q =>
    rw [hn] at hm
    exact g.push (fun _ hq => hk (hm.symm.trans hq)) (hin q hn)
  | inr o => exact g.congr_past (opener_closing hk _ _)

theorem guards_open_start {m : Move} (g : Guarded s posts past) (hstart : OpenStart t s m) :
    m.Guards t own .opens posts past := by
  unfold Move.Guards
  cases hstart with
  | @refused o ends fails state =>
    obtain ⟨e, he⟩ := fails
    rw [ends]
    have gs : Guarded m.state posts past := by
      rcases state with h | h <;> rw [h]
      · exact g
      · exact g.claim t
    refine gs.congr_past ?_
    simp [Kind.closing, he]
  | opens undisposed closed admitted waits state =>
    rw [waits, state]
    exact g.opening undisposed closed admitted _

theorem guards_open_rest {i : Nat} {p : Phase} (g : Guarded s posts past)
    (hi : posts[i]? = some (t, p)) (hp : p.kind = .opens) (hn : ∀ f ∈ posts.take i, f.1 ≠ t)
    (answer : (p.call c).Answer) :
    (p.resume c t answer s).Guards t own .opens (posts.eraseIdx i) past := by
  unfold Move.Guards
  have hrest := open_rest (t := t) (s := s) hp answer
  generalize p.resume c t answer s = m at hrest
  cases hrest with
  | waits waits kind same state =>
    rw [waits, state]
    exact g.waiting hi hp hn kind same
  | late disposed waits state =>
    rw [waits, state]
    exact (g.erase i).push (fun hd => absurd disposed (by simp [hd])) (fun h => by cases h)
  | @installs db undisposed _ ends state =>
    rw [ends, state]
    exact g.installs hi hp undisposed db
  | @fails o ends fails state =>
    obtain ⟨e, he⟩ := fails
    rw [ends, state]
    refine (g.fails hi hp hn).congr_past ?_
    simp [Kind.closing, he]

theorem guards_dispose {m : Move} (g : Guarded s posts past) (hc : Closed s)
    (hstart : DisposeStart t s m) (hof : m.Of .disposes)
    (hq : ∀ q, m.next = .inl q → q.inside = true → opener? past = some t) :
    m.Guards t own .disposes posts past := by
  have hretire : s.retire.disposed = true := retire_disposed s
  have hpush : ∀ q, m.next = .inl q → q.kind ≠ .opens → Guarded m.state posts past →
      m.Guards t own .disposes posts past := by
    intro q hn hk gm
    unfold Move.Guards
    rw [hn]
    exact gm.push (fun _ => hk) (hq q hn)
  cases hstart with
  | again _ _ state => exact guards_same g hc (by simp) hof (state ▸ .refl s) hq
  | unopened undisposed closed ends state =>
    have hr : s.registered = [] := by
      by_contra hr
      simpa [closed] using (g.opened undisposed).2 (g.stocked hr)
    unfold Move.Guards
    rw [ends, state]
    refine Guarded.congr_past (.of_disposed hretire g.inside fun h => ?_)
      (opener_closing (by simp) _ _)
    exact absurd hr (by simpa [State.registered] using h)
  | drains _ _ _ next =>
    have hstocked : s.retire.registered ≠ [] → (opener? past).isSome = true := by
      intro hr
      exact g.stocked (by simpa [State.registered] using hr)
    cases next with
    | takes _ _ waits state =>
      exact hpush _ waits (by simp [Phase.kind]) (state ▸ .of_disposed hretire g.inside hstocked)
    | closes _ waits state =>
      exact hpush _ waits (by simp [Phase.kind]) (state ▸ .sweep hretire g.inside)
  | abandons _ _ _ waits state =>
    exact hpush _ waits (by simp [Phase.kind]) (state ▸ .sweep hretire g.inside)

theorem posts_getElem? {i : Nat} {task : Task} {p : Phase} {answer : Option (p.call c).Answer}
    (hf : w.frames[i]? = some ⟨t, task, p, answer⟩) : w.posts[i]? = some (t, p) := by
  rw [World.posts, List.getElem?_map, hf]
  rfl

theorem posts_acted {i : Nat} {task : Task} {p : Phase}
    (hf : w.frames[i]? = some ⟨t, task, p, none⟩) : (w.acted i t task p).posts = w.posts := by
  obtain ⟨hlt, hget⟩ := List.getElem?_eq_some_iff.1 (posts_getElem? hf)
  have hset : (w.acted i t task p).posts = w.posts.set i (t, p) := List.map_set
  rw [hset, ← hget, List.set_getElem_self]

theorem newest_posts {i : Nat} (hn : (w.frames.take i).all (·.thread ≠ t)) :
    ∀ f ∈ w.posts.take i, f.1 ≠ t := by
  intro f hm
  rw [World.posts, ← List.map_take] at hm
  obtain ⟨f', hf', rfl⟩ := List.mem_map.1 hm
  simpa using List.all_eq_true.1 hn f' hf'

theorem guarded_start (d : Drains w) (g : w.Guarded) {a : Action} {task : Task}
    (ht : w.task? a = some task) (hin : w.Inside (.start t a)) : (w.start t task).Guarded := by
  have hpast := opener_quiet (quiet_opening task t w.state) w.history
  have ge : Guarded w.state (w.entered t task).posts (w.entered t task).history :=
    g.congr_past hpast
  have hq : ∀ q, (phaseStart c t w.state task).next = .inl q → q.inside = true →
      opener? (w.entered t task).history = some t := by
    intro q hq hi
    exact hpast.trans (hin t task _ ⟨rfl, ht, q, hq, rfl⟩ (start_confined hq hi))
  have hof := start_of (c := c) (t := t) (s := w.state) task
  refine guarded_proceed ?_
  show (phaseStart c t w.state task).Guards t _ task.kind _ _
  cases start_cases (c := c) (t := t) (s := w.state) task with
  | opens hk start =>
    rw [hk]
    exact guards_open_start ge start
  | disposes htask start =>
    have hk := kind_of_isDisposal htask
    rw [hk]
    exact guards_dispose ge d.closed start (hk ▸ hof) hq
  | other ho _ change => exact guards_same ge d.closed ho hof change.sameDatabase hq

theorem guarded_acted (g : w.Guarded) {i : Nat} {task : Task} {p : Phase}
    (hf : w.frames[i]? = some ⟨t, task, p, none⟩) : (w.acted i t task p).Guarded := by
  have hposts : (w.acted i t task p).posts = w.posts := posts_acted hf
  have hpast : opener? (w.acted i t task p).history = opener? w.history := by
    simp only [World.acted, minting]
    split <;> rfl
  have g : Guarded w.state (w.acted i t task p).posts w.history := hposts ▸ g
  exact g.congr_past hpast

theorem guarded_resume (tidy : Tidy w) (d : Drains w) (g : w.Guarded) {i : Nat} {task : Task}
    {p : Phase} {answer : (p.call c).Answer}
    (hf : w.frames[i]? = some ⟨t, task, p, some answer⟩)
    (hn : (w.frames.take i).all (·.thread ≠ t)) :
    ((w.returned i t (p.call c)).proceed t task true (p.resume c t answer w.state)).Guarded := by
  have hi := posts_getElem? hf
  have hk : p.kind = task.kind := tidy.kinds _ (List.mem_of_getElem? hf)
  have hposts : (w.returned i t (p.call c)).posts = w.posts.eraseIdx i :=
    (List.eraseIdx_map ..).symm
  have hnewest := newest_posts hn
  have hq : ∀ q, (p.resume c t answer w.state).next = .inl q → q.inside = true →
      opener? w.history = some t := by
    intro q hq hi'
    exact g.inside (t, p) (List.mem_of_getElem? hi) (resume_inside hq hi')
  have g : Guarded w.state w.posts (.returned t (p.call c) :: w.history) := g.congr_past rfl
  refine guarded_proceed ?_
  show (p.resume c t answer w.state).Guards t true task.kind (w.returned i t (p.call c)).posts
    (.returned t (p.call c) :: w.history)
  rw [hposts, ← hk]
  by_cases ho : p.kind = .opens
  · rw [ho]
    exact guards_open_rest g hi ho hnewest answer
  · exact guards_same (g.erase i) d.closed ho (resume_of p answer) (resume_same ho answer) hq

/-- **A step with its confined call on the opener's thread keeps the guard.** -/
theorem guarded_step (tidy : Tidy w) (d : Drains w) (g : w.Guarded) {l : Label E}
    (h : w.step l = some w') (hin : w.Inside l) : w'.Guarded := by
  cases World.step_cases h with
  | start ht => exact guarded_start d g ht hin
  | act hf => exact guarded_acted g hf
  | resume hf hn => exact guarded_resume tidy d g hf hn
  | drift e => exact g

/-- A step is stray exactly if its confined call is not on the opener's thread. -/
theorem stray_iff (tidy : Tidy w) (d : Drains w) (g : w.Guarded) (l : Label E) :
    w.Stray l ↔ ¬w.Inside l := by
  constructor
  · rintro (⟨hcalls, hc, hother, -, -⟩ | ⟨hcalls, hc, hother, -, -⟩) hin <;>
      exact hother (hin _ _ _ hcalls hc)
  · intro hin
    by_contra hn
    exact hin (inside_of_not_stray tidy d g hn)

/-! ## Runs -/

def Kept {M : Machine} {E : Engine} (w : World M E) (l : Label E) (_ : World M E) : Prop :=
  ¬w.Stray l

/-- Without a stray step the guard holds, and confined calls are on the opener's thread. -/
theorem run_kept {e : E.State} {ls : List (Label E)} (run : Run (phases c) E e Kept ls w) :
    w.Guarded ∧ Confined w.history := by
  induction run with
  | nil => exact ⟨Guarded.initial, trivial⟩
  | snoc run hs hok ih =>
    obtain ⟨g, hconf⟩ := ih
    have hin := inside_of_not_stray (run_tidy run) (run_drains run) g hok
    exact ⟨guarded_step (run_tidy run) (run_drains run) g hs hin, (confined_step hs).2 ⟨hconf, hin⟩⟩

theorem phases_confined_iff {e : E.State} {ls : List (Label E)}
    (run : Run (phases c) E e AnyStep ls w) :
    Confined w.history ↔ Run (phases c) E e Kept ls w := by
  refine ⟨fun hconf => ?_, fun hk => (run_kept hk).2⟩
  induction run with
  | nil => exact .nil
  | snoc run hs _ ih =>
    obtain ⟨hconf, hin⟩ := (confined_step hs).1 hconf
    have hk := ih hconf
    exact hk.snoc hs fun hstray =>
      (stray_iff (run_tidy run) (run_drains run) (run_kept hk).1 _).1 hstray hin

theorem realize_stray (w : World (phases c) E) (l : Label E) : w.realize.Stray l ↔ w.Stray l := by
  have hfinal : ∀ p h, w.realize.Finalizes p h ↔ w.Finalizes p h := by
    intro p h
    simp [World.Finalizes]
  constructor
  · rintro (⟨hcalls, hc, hother, hd, ho⟩ | ⟨hcalls, hc, hother, hr, hd⟩)
    · exact .unguarded ((realize_calls w _ _ _ _).1 hcalls) hc hother hd ho
    · exact .release ((realize_calls w _ _ _ _).1 hcalls) hc hother hr ((hfinal _ _).1 hd)
  · rintro (⟨hcalls, hc, hother, hd, ho⟩ | ⟨hcalls, hc, hother, hr, hd⟩)
    · exact .unguarded ((realize_calls w _ _ _ _).2 hcalls) hc hother hd ho
    · exact .release ((realize_calls w _ _ _ _).2 hcalls) hc hother hr ((hfinal _ _).2 hd)

theorem realize_kept (w : World (phases c) E) (l : Label E) (w' : World (phases c) E) :
    Kept w.realize l w'.realize ↔ Kept w l w' :=
  not_congr (realize_stray w l)

/-- **Confined calls are made on the opener's thread exactly in the runs without a stray step.** -/
theorem confined_iff {e : E.State} {ls : List (Label E)} {w : World (programs c) E}
    (run : Run (programs c) E e AnyStep ls w) :
    Confined w.history ↔ Run (programs c) E e Kept ls w := by
  constructor
  · intro hconf
    obtain ⟨v, rfl, hv⟩ := run_programs_iff.1 run
    have hv : Run (phases c) E e AnyStep ls v := run_mono (fun _ _ _ _ => trivial) hv
    exact (run_programs_congr realize_kept).2 ⟨v, rfl, (phases_confined_iff hv).1 hconf⟩
  · intro hk
    obtain ⟨v, rfl, hv⟩ := (run_programs_congr realize_kept).1 hk
    exact (run_kept hv).2

/-! ## Stray steps -/

/-- A thread opens a database, prepares two statements, steps the second and disposes the
connection. While the disposal finalizes the first, another thread releases the second. -/
def releasedElsewhere : List (Label recording) :=
  let t : ThreadId := ⟨0⟩
  [.start t (.open .readWriteCreate), .act 0, .resume 0,
    .start t (.prepare "SELECT 1" .uncached), .act 0, .resume 0,
    .start t (.prepare "SELECT 2" .cached), .act 0, .resume 0,
    .start t (.use 1 .step), .act 0, .resume 0,
    .start t .dispose, .start ⟨1⟩ (.use 1 .release)]

/-- The statement is reset on the other thread. -/
theorem released_elsewhere :
    ∃ w, Run (programs inMemory) recording .initial AnyStep releasedElsewhere w ∧
      opener? w.history = some ⟨0⟩ ∧
      w.history.head? = some (.called ⟨1⟩ (.reset ⟨24, by decide⟩)) ∧
      ¬Confined w.history := by
  obtain ⟨w, run, hw⟩ := exists_run (M := programs inMemory) (e := RecordingEngine.initial)
    AnyStep releasedElsewhere
    (fun w => opener? w.history = some ⟨0⟩ ∧
      w.history.head? = some (.called ⟨1⟩ (.reset ⟨24, by decide⟩)) ∧ ¬Confined w.history)
    (by decide +kernel)
  exact ⟨w, run, by simpa using hw⟩

/-- A thread opens a database, and while the engine fails it opens the database again, with success.
Another thread runs a statement. -/
def openedWithin : List (Label recording) :=
  let t : ThreadId := ⟨0⟩
  let failing := RecordingEngine.initial.fail .open .error
  let call := EngineCall.open inMemory.location OpenMode.readWriteCreate.flags
  [.drift failing, .start t (.open .readWriteCreate), .act 0, .drift (failing.answer call).2.heal,
    .start t (.open .readWriteCreate), .act 0, .resume 0,
    .resume 0, .act 0, .resume 0, .act 0, .resume 0, .start ⟨1⟩ (.exec "SELECT 1")]

/-- Its step is stray. -/
theorem openedWithin_not_kept :
    ∃ w, Run (programs inMemory) recording .initial AnyStep openedWithin w ∧
      ¬Run (programs inMemory) recording .initial Kept openedWithin w := by
  obtain ⟨w, run, hw⟩ := exists_run (M := programs inMemory) (e := RecordingEngine.initial)
    AnyStep openedWithin (fun w => ¬Confined w.history)
    (by decide +kernel)
  exact ⟨w, run, fun hk => by simp [(confined_iff run).2 hk] at hw⟩

end ConfinedDb.Interleaving
