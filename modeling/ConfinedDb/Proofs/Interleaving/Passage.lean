import ConfinedDb.Proofs.Interleaving.Realize
import ConfinedDb.Proofs.Solo.Course
import Mathlib.Data.List.Perm.Basic
/-!
# From the start of an action to its end

The actions of a thread are nested: one that is under way goes on only when all that its thread has
started since have ended. So it is told from the others by its thread and by the number of actions
of that thread that it is nested in (`World.At`), and it is under way exactly as long as its thread
has more actions under way than when it was started.

`World.Underway` are the steps from the start of an action up to some moment at which it is under
way, those of other actions included, and `World.Passage` those up to its end. A step does one of
four things with an action that is under way (**`at_step`**), so what is said of an action from its
start to its end is proved by induction over `World.Underway`: that it leaves the state as it was if
it changes nothing and no other one overlaps it (**`passage_state`**), or that the programs take the
same way as the phases (**`passage_realize`**).
-/
namespace ConfinedDb.Interleaving

variable {M : Machine} {E : Engine}

theorem mem_take_of_getElem? {α : Type} {l : List α} {i n : Nat} {a : α} (h : l[i]? = some a)
    (hn : i < n) : a ∈ l.take n :=
  List.mem_of_getElem? ((List.getElem?_take_of_lt hn).trans h)

/-! ## Nested actions -/

def World.depth (w : World M E) (t : ThreadId) : Nat := w.frames.countP (·.thread = t)

/-- The `i`-th action under way is of thread `t` and nested in `k` others of that thread. -/
structure World.At (w : World M E) (t : ThreadId) (k i : Nat) (f : Frame M) : Prop where
  frame : w.frames[i]? = some f
  thread : f.thread = t
  below : (w.frames.drop (i + 1)).countP (·.thread = t) = k

def Frame.exchange? (f : Frame M) : Option Exchange := f.answer.map fun answer => ⟨f.call, answer⟩

/-- The action of thread `t` that is nested in `k` others has got this answer to its call. -/
def World.Answered (w : World M E) (t : ThreadId) (k : Nat) (x : Exchange) : Prop :=
  ∃ i f, w.At t k i f ∧ f.exchange? = some x

section At

variable {w w' : World M E} {t u : ThreadId} {task : Task} {k i : Nat} {f : Frame M}
  {chunk : Chunk M.Point Outcome} {own : Bool}

namespace World.At

theorem of_append {newer older : List (Frame M)} (hframes : w.frames = newer ++ f :: older)
    (thread : f.thread = t) : w.At t (older.countP (·.thread = t)) newer.length f where
  frame := by rw [hframes, List.getElem?_append_right (Nat.le_refl _), Nat.sub_self]; rfl
  thread := thread
  below := by rw [hframes, List.append_cons, List.drop_left' (by simp)]

theorem exists_append (h : w.At t k i f) : ∃ newer older, w.frames = newer ++ f :: older ∧
    newer.length = i ∧ older.countP (·.thread = t) = k := by
  obtain ⟨hi, hf⟩ := List.getElem?_eq_some_iff.1 h.frame
  refine ⟨w.frames.take i, w.frames.drop (i + 1), ?_, ?_, h.below⟩
  · rw [← hf, List.getElem_cons_drop, List.take_append_drop]
  · rw [List.length_take, Nat.min_eq_left (Nat.le_of_lt hi)]

theorem countP_drop (h : w.At t k i f) : (w.frames.drop i).countP (·.thread = t) = k + 1 := by
  obtain ⟨hi, hf⟩ := List.getElem?_eq_some_iff.1 h.frame
  rw [List.drop_eq_getElem_cons hi, hf, List.countP_cons, h.below, if_pos (by simp [h.thread])]

/-- It is under way as long as its thread has more actions under way. -/
theorem lt_depth (h : w.At t k i f) : k < w.depth t := by
  have hle := (List.drop_sublist i w.frames).countP_le (p := fun f => decide (f.thread = t))
  rw [h.countP_drop] at hle
  exact hle

/-- An action goes on only if its thread has started none since. -/
theorem le_of_newest {j : Nat} (h : w.At t k i f)
    (newest : (w.frames.take j).all (·.thread ≠ t)) : j ≤ i := by
  by_contra hlt
  have hnot := List.all_eq_true.1 newest f
    (mem_take_of_getElem? h.frame (Nat.lt_of_not_le hlt))
  simp [h.thread] at hnot

theorem unique {j : Nat} {g : Frame M} (h : w.At t k i f) (h' : w.At t k j g) : i = j := by
  have hnot : ∀ {i j : Nat} {f g : Frame M}, w.At t k i f → w.At t k j g → ¬i < j := by
    intro i j f g h h' hij
    -- it would be nested in the other one too
    have hsub : (w.frames.drop j).Sublist (w.frames.drop (i + 1)) := by
      have hj : j = i + 1 + (j - (i + 1)) := by omega
      rw [hj, ← List.drop_drop]
      exact List.drop_sublist _ _
    have hle := hsub.countP_le (p := fun f => decide (f.thread = t))
    rw [h'.countP_drop, h.below] at hle
    omega
  exact Nat.le_antisymm (Nat.not_lt.1 (hnot h' h)) (Nat.not_lt.1 (hnot h h'))

end World.At

/-! ## One step -/

theorem at_proceed (h : w.At t k i f) (u : ThreadId) (task : Task) (own : Bool)
    (chunk : Chunk M.Point Outcome) : ∃ j, (w.proceed u task own chunk).At t k j f := by
  cases hn : chunk.next with
  | inl p =>
    rw [w.proceed_pause u task own hn]
    exact ⟨i + 1, h.frame, h.thread, h.below⟩
  | inr o =>
    rw [w.proceed_end u task own hn]
    exact ⟨i, h.frame, h.thread, h.below⟩

/-- An action that pauses is nested in those that were under way before. -/
theorem proceed_at {p : M.Point} (hn : chunk.next = .inl p) :
    (w.proceed t task own chunk).At t (w.depth t) 0 ⟨t, task, p, none⟩ := by
  rw [w.proceed_pause t task own hn]
  exact ⟨rfl, rfl, rfl⟩

theorem depth_proceed_end {o : Outcome} (hn : chunk.next = .inr o) :
    (w.proceed u task own chunk).depth t = w.depth t := by
  rw [w.proceed_end u task own hn]
  rfl

theorem countP_threads (fs : List (Frame M)) :
    fs.countP (·.thread = t) = (fs.map Frame.thread).countP (· = t) := by
  rw [List.countP_map]
  rfl

theorem map_thread_set {j : Nat} {g : Frame M} (hg : w.frames[j]? = some g) {g' : Frame M}
    (same : g'.thread = g.thread) :
    (w.frames.set j g').map Frame.thread = w.frames.map Frame.thread := by
  obtain ⟨hj, rfl⟩ := List.getElem?_eq_some_iff.1 hg
  rw [List.map_set, same, ← List.getElem_map Frame.thread (h := by simpa using hj),
    List.set_getElem_self]

theorem below_acted {j : Nat} {p : M.Point} (hg : w.frames[j]? = some ⟨u, task, p, none⟩)
    (n : Nat) : ((w.acted j u task p).frames.drop n).countP (·.thread = t)
      = (w.frames.drop n).countP (·.thread = t) := by
  have hsame : (w.acted j u task p).frames.map Frame.thread = w.frames.map Frame.thread :=
    map_thread_set hg rfl
  rw [countP_threads, countP_threads, List.map_drop, List.map_drop, hsame]

theorem at_acted {j : Nat} {p : M.Point} (h : w.At t k i f)
    (hg : w.frames[j]? = some ⟨u, task, p, none⟩) (hne : j ≠ i) :
    (w.acted j u task p).At t k i f where
  frame := (List.getElem?_set_ne hne).trans h.frame
  thread := h.thread
  below := (below_acted hg _).trans h.below

theorem acted_at {p : M.Point} (h : w.At t k i ⟨u, task, p, none⟩) :
    (w.acted i u task p).At t k i ⟨u, task, p, some (E.answer w.engine (M.call p)).1⟩ where
  frame := List.getElem?_set_self (List.getElem?_eq_some_iff.1 h.frame).1
  thread := h.thread
  below := (below_acted h.frame _).trans h.below

theorem at_returned {j : Nat} {g : Frame M} (h : w.At t k i f) (hg : w.frames[j]? = some g)
    (newest : (w.frames.take j).all (·.thread ≠ g.thread)) (hne : j ≠ i) (call : EngineCall) :
    ∃ j', (w.returned j u call).At t k j' f ∧
      ((w.returned j u call).frames.take j').Sublist (w.frames.take i) := by
  obtain ⟨fs, older, hframes, rfl, rfl⟩ := h.exists_append
  have hfs : w.frames.take fs.length = fs := by rw [hframes, List.take_left' rfl]
  rcases Nat.lt_or_gt_of_ne hne with hlt | hgt
  · have herase : (w.returned j u call).frames = fs.eraseIdx j ++ f :: older := by
      show w.frames.eraseIdx j = _
      rw [hframes, List.eraseIdx_append_of_lt_length hlt]
    refine ⟨_, .of_append herase h.thread, ?_⟩
    rw [herase, List.take_left' rfl, hfs]
    exact List.eraseIdx_sublist _ _
  · obtain ⟨n, rfl⟩ : ∃ n, j = fs.length + (n + 1) := ⟨j - fs.length - 1, by omega⟩
    have herase : (w.returned (fs.length + (n + 1)) u call).frames
        = fs ++ f :: older.eraseIdx n := by
      show w.frames.eraseIdx _ = _
      rw [hframes, List.eraseIdx_append_of_length_le (Nat.le_add_right _ _),
        Nat.add_sub_cancel_left, List.eraseIdx_cons_succ]
    -- what lies below goes on only after this one, so it is of another thread
    have hother : g.thread ≠ t := fun he => absurd (h.le_of_newest (he ▸ newest)) (by omega)
    have hcount : (older.eraseIdx n).countP (·.thread = t) = older.countP (·.thread = t) := by
      rw [hframes, List.getElem?_append_right (Nat.le_add_right _ _), Nat.add_sub_cancel_left,
        List.getElem?_cons_succ] at hg
      obtain ⟨hn, rfl⟩ := List.getElem?_eq_some_iff.1 hg
      rw [← (List.getElem_cons_eraseIdx_perm hn).countP_eq, List.countP_cons_of_neg]
      simpa using hother
    have hat := World.At.of_append herase h.thread
    rw [hcount] at hat
    refine ⟨_, hat, ?_⟩
    rw [herase, List.take_left' rfl, hfs]

theorem depth_returned (h : w.At t k i f) (newest : (w.frames.take i).all (·.thread ≠ t))
    (call : EngineCall) : (w.returned i u call).depth t = k := by
  obtain ⟨fs, older, hframes, rfl, rfl⟩ := h.exists_append
  have hfs : fs.countP (·.thread = t) = 0 := by
    rw [hframes, List.take_left'] at newest
    · simpa using newest
    · rfl
  show (w.frames.eraseIdx _).countP _ = _
  rw [hframes, List.eraseIdx_append_of_length_le (Nat.le_refl _), Nat.sub_self,
    List.eraseIdx_cons_zero, List.countP_append, hfs, Nat.zero_add]

inductive World.Treats (w : World M E) (t : ThreadId) (k i : Nat) :
    Frame M → Label E → World M E → Prop
  | waits {f : Frame M} {l : Label E} {w' : World M E} {j : Nat} (unacted : l ≠ .act i)
    (unresumed : l ≠ .resume i) (after : w'.At t k j f) : w.Treats t k i f l w'
  | acts {task : Task} {p : M.Point}
    (after : (w.acted i t task p).At t k i ⟨t, task, p, some (E.answer w.engine (M.call p)).1⟩) :
    w.Treats t k i ⟨t, task, p, none⟩ (.act i) (w.acted i t task p)
  | goes {task : Task} {p q : M.Point} {answer : (M.call p).Answer} {w' : World M E}
    (next : (M.resume t p answer w.state).next = .inl q)
    (world : w' = (w.returned i t (M.call p)).proceed t task true (M.resume t p answer w.state))
    (after : w'.At t k 0 ⟨t, task, q, none⟩) :
    w.Treats t k i ⟨t, task, p, some answer⟩ (.resume i) w'
  | ends {task : Task} {p : M.Point} {answer : (M.call p).Answer} {o : Outcome} {w' : World M E}
    (next : (M.resume t p answer w.state).next = .inr o)
    (world : w' = (w.returned i t (M.call p)).proceed t task true (M.resume t p answer w.state))
    (after : w'.depth t = k) :
    w.Treats t k i ⟨t, task, p, some answer⟩ (.resume i) w'

/-- **A step leaves an action that is under way alone, or answers its call, or carries it on.** -/
theorem at_step (h : w.At t k i f) {l : Label E} (hs : w.step l = some w') :
    w.Treats t k i f l w' := by
  cases World.step_cases hs with
  | @start u a task ht =>
    have hentered : (w.entered u task).At t k i f := ⟨h.frame, h.thread, h.below⟩
    obtain ⟨j, hj⟩ := at_proceed hentered u task (!w.state.disposed) (M.start u task w.state)
    exact .waits (by simp) (by simp) hj
  | @act j u task p hf =>
    by_cases hj : j = i
    · subst hj
      obtain rfl : f = ⟨u, task, p, none⟩ := Option.some.inj (h.frame.symm.trans hf)
      obtain rfl : u = t := h.thread
      exact .acts (acted_at h)
    · exact .waits (by simpa using hj) (by simp) (at_acted h hf hj)
  | @resume j u task p answer hf hn =>
    by_cases hj : j = i
    · subst hj
      obtain rfl : f = ⟨u, task, p, some answer⟩ := Option.some.inj (h.frame.symm.trans hf)
      obtain rfl : u = t := h.thread
      have hdepth := depth_returned (u := u) h hn (M.call p)
      cases hnext : (M.resume u p answer w.state).next with
      | inl q => exact .goes hnext rfl (hdepth ▸ proceed_at hnext)
      | inr o => exact .ends hnext rfl ((depth_proceed_end hnext).trans hdepth)
    · obtain ⟨j', hj', -⟩ := at_returned (u := u) h hf hn hj (M.call p)
      obtain ⟨j'', hj''⟩ := at_proceed hj' u task true (M.resume u p answer w.state)
      exact .waits (by simp) (by simpa using hj) hj''
  | drift e => exact .waits (by simp) (by simp) ⟨h.frame, h.thread, h.below⟩

end At

/-! ## All steps on the way -/

/-- A step of a run, with the worlds before and after it. -/
structure Hop (M : Machine) (E : Engine) where
  before : World M E
  label : Label E
  after : World M E

/-- The step is one of the action that was started when `k` actions of thread `t` were under way:
it starts it, or has its call return. -/
def Hop.Own (hop : Hop M E) (t : ThreadId) (k : Nat) : Prop :=
  match hop.label with
  | .start u _ => u = t ∧ hop.before.depth t = k
  | .resume i => ∃ f, hop.before.At t k i f
  | _ => False

/-- The step is one of another action. -/
def Hop.Foreign (hop : Hop M E) (t : ThreadId) (k : Nat) : Prop :=
  match hop.label with
  | .start .. | .resume _ => ¬hop.Own t k
  | _ => False

/-- These steps lead from the first world to the second, one after the other. -/
def World.Linked : World M E → List (Hop M E) → World M E → Prop
  | w, [], v => w = v
  | w, hop :: hops, v =>
    hop.before = w ∧ w.step hop.label = some hop.after ∧ hop.after.Linked hops v

section Steps

variable (ok : World M E → Label E → World M E → Prop) (w : World M E) (t : ThreadId) (task : Task)

/-- A task that thread `t` has started in `w` is under way, after these steps. -/
inductive World.Underway : List (Hop M E) → World M E → Prop
  | start {a : Action} {v : World M E} {call : EngineCall}
    (calls : w.Calls (.start t a) t task call) (step_eq : w.step (.start t a) = some v)
    (allowed : ok w (.start t a) v) : Underway [⟨w, .start t a, v⟩] v
  | step {hops : List (Hop M E)} {v v' : World M E} {l : Label E} (underway : Underway hops v)
    (step_eq : v.step l = some v') (allowed : ok v l v') (deeper : w.depth t < v'.depth t) :
    Underway (hops ++ [⟨v, l, v'⟩]) v'

/-- These are the steps from the start of the task by thread `t` in `w` to its end; `last` is the
one in which it ends, with this outcome. -/
inductive World.Passage : (hops : List (Hop M E)) → (last : Hop M E) → Outcome → Prop
  | atOnce {a : Action} {v : World M E} {o : Outcome} (ends : w.Ends (.start t a) t task o)
    (step_eq : w.step (.start t a) = some v) (allowed : ok w (.start t a) v) :
    Passage [⟨w, .start t a, v⟩] ⟨w, .start t a, v⟩ o
  | later {hops : List (Hop M E)} {v v' : World M E} {l : Label E} {o : Outcome}
    (underway : w.Underway ok t task hops v) (step_eq : v.step l = some v') (allowed : ok v l v')
    (back : v'.depth t = w.depth t) (ends : v.Ends l t task o) :
    Passage (hops ++ [⟨v, l, v'⟩]) ⟨v, l, v'⟩ o

end Steps

section Runs

variable {ok : World M E → Label E → World M E → Prop} {w v : World M E} {t : ThreadId}
  {task : Task} {hops : List (Hop M E)}

theorem at_underway (h : w.Underway ok t task hops v) :
    ∃ i f, v.At t (w.depth t) i f ∧ f.task = task := by
  induction h with
  | @start a v call hcalls hs hok =>
    obtain ⟨-, ht, p, hn, -⟩ := hcalls
    obtain rfl : w.start t task = v := by simpa [World.step, ht] using hs
    exact ⟨0, _, proceed_at (w := w.entered t task) hn, rfl⟩
  | step _ hs _ hdeep ih =>
    obtain ⟨i, f, hat, htask⟩ := ih
    cases at_step hat hs with
    | waits _ _ after => exact ⟨_, f, after, htask⟩
    | acts after => exact ⟨i, _, after, htask⟩
    | goes _ _ after => exact ⟨0, _, after, htask⟩
    | ends _ _ after => exact absurd hdeep (by simp [after])

theorem run_underway {e : E.State} {ls : List (Label E)} (run : Run M E e ok ls w)
    (h : w.Underway ok t task hops v) : ∃ ls', Run M E e ok ls' v := by
  induction h with
  | start _ hs hok => exact ⟨_, run.snoc hs hok⟩
  | step _ hs hok _ ih =>
    obtain ⟨ls', run'⟩ := ih
    exact ⟨_, run'.snoc hs hok⟩

theorem linked_append {hops' : List (Hop M E)} :
    w.Linked (hops ++ hops') v ↔ ∃ u, w.Linked hops u ∧ u.Linked hops' v := by
  induction hops generalizing w with
  | nil => simp [World.Linked]
  | cons hop hops ih => simp [World.Linked, ih, and_assoc]

theorem linked_underway (h : w.Underway ok t task hops v) : w.Linked hops v := by
  induction h with
  | start _ hs _ => exact ⟨rfl, hs, rfl⟩
  | step _ hs _ _ ih => exact linked_append.2 ⟨_, ih, rfl, hs, rfl⟩

theorem linked_passage {last : Hop M E} {o : Outcome} (h : w.Passage ok t task hops last o) :
    w.Linked hops last.after := by
  cases h with
  | atOnce _ hs _ => exact ⟨rfl, hs, rfl⟩
  | later underway hs _ _ _ =>
    exact linked_append.2 ⟨_, linked_underway underway, rfl, hs, rfl⟩

/-- A step that is none of another action changes the state only if it is one of this action. -/
theorem hop_state {v' : World M E} {l : Label E} {k : Nat} (hs : v.step l = some v')
    (alone : ¬(Hop.mk v l v').Foreign t k) (same : (Hop.mk v l v').Own t k → v'.state = v.state) :
    v'.state = v.state := by
  cases World.step_cases hs with
  | start _ => exact same (not_not.1 alone)
  | resume _ _ => exact same (not_not.1 alone)
  | act _ => rfl
  | drift e => rfl

/-- Nothing in these steps is done by another action, and the action itself changes nothing. -/
def Still (t : ThreadId) (k : Nat) (hops : List (Hop M E)) : Prop :=
  ∀ hop ∈ hops, ¬hop.Foreign t k ∧ (hop.Own t k → hop.after.state = hop.before.state)

theorem underway_state (h : w.Underway ok t task hops v) (still : Still t (w.depth t) hops) :
    v.state = w.state := by
  induction h with
  | @start a v call _ hs _ =>
    obtain ⟨alone, same⟩ := still _ (List.mem_singleton_self (Hop.mk w (.start t a) v))
    exact hop_state hs alone same
  | @step hops v v' l _ hs _ _ ih =>
    obtain ⟨hrest, hlast⟩ := List.forall_mem_append.1 still
    obtain ⟨alone, same⟩ := hlast _ (List.mem_singleton_self (Hop.mk v l v'))
    exact (hop_state hs alone same).trans (ih hrest)

/-- **An action that no other one overlaps and that changes nothing leaves the state as it was.** -/
theorem passage_state {last : Hop M E} {o : Outcome} (h : w.Passage ok t task hops last o)
    (still : Still t (w.depth t) hops) : last.after.state = w.state := by
  cases h with
  | @atOnce a v _ _ hs _ =>
    obtain ⟨alone, same⟩ := still _ (List.mem_singleton_self (Hop.mk w (.start t a) v))
    exact hop_state hs alone same
  | @later hops v v' l _ hv hs _ _ _ =>
    obtain ⟨hrest, hlast⟩ := List.forall_mem_append.1 still
    obtain ⟨alone, same⟩ := hlast _ (List.mem_singleton_self (Hop.mk v l v'))
    exact (hop_state hs alone same).trans (underway_state hv hrest)

/-! ### Given steps -/

/-- The steps of a list, one after the other, as far as they are possible. -/
def World.trail (w : World M E) : List (Label E) → List (Hop M E)
  | [] => []
  | l :: ls =>
    match w.step l with
    | some v => ⟨w, l, v⟩ :: v.trail ls
    | none => []

/-- A start that leaves its thread with more actions under way. -/
theorem underway_start {a : Action} (ht : w.task? a = some task)
    (hs : w.step (.start t a) = some v) (allowed : ok w (.start t a) v)
    (deeper : w.depth t < v.depth t) : w.Underway ok t task [⟨w, .start t a, v⟩] v := by
  obtain rfl : w.start t task = v := by simpa [World.step, ht] using hs
  cases hn : (M.start t task w.state).next with
  | inl p => exact .start ⟨rfl, ht, p, hn, rfl⟩ hs allowed
  | inr o =>
    have hdepth : (w.start t task).depth t = w.depth t := depth_proceed_end hn
    exact absurd deeper (by simp [hdepth])

/-- The action ends where its thread has as many actions under way as before. -/
theorem passage_of_back (h : w.Underway ok t task hops v) {l : Label E} {v' : World M E}
    (hs : v.step l = some v') (allowed : ok v l v') (back : v'.depth t = w.depth t) :
    ∃ o, w.Passage ok t task (hops ++ [⟨v, l, v'⟩]) ⟨v, l, v'⟩ o := by
  obtain ⟨i, f, hat, htask⟩ := at_underway h
  cases at_step hat hs with
  | waits _ _ after => exact absurd after.lt_depth (by simp [back])
  | acts after => exact absurd after.lt_depth (by simp [back])
  | goes _ _ after => exact absurd after.lt_depth (by simp [back])
  | @ends _ p answer o _ next _ _ =>
    obtain rfl : _ = task := htask
    exact ⟨o, .later h hs allowed back ⟨p, answer, hat.frame, next⟩⟩

theorem passage_last {last : Hop M E} {o : Outcome} (h : w.Passage ok t task hops last o) :
    hops.getLast? = some last := by
  cases h with
  | atOnce _ _ _ => rfl
  | later _ _ _ _ _ => exact List.getLast?_concat

variable [∀ w l w', Decidable (ok w l w')]

theorem underway_follow (h : w.Underway ok t task hops v) {ls : List (Label E)} {v' : World M E}
    (hf : v.follow (fun u l u' => ok u l u' ∧ w.depth t < u'.depth t) ls = some v') :
    w.Underway ok t task (hops ++ v.trail ls) v' := by
  induction ls generalizing hops v with
  | nil =>
    cases hf
    rwa [World.trail, List.append_nil]
  | cons l ls ih =>
    simp only [World.follow] at hf
    split at hf
    · next u hu =>
      split at hf
      · next hok =>
        obtain ⟨hok, hdeep⟩ := hok
        rw [World.trail, hu, List.append_cons]
        exact ih (h.step hu hok hdeep) hf
      · cases hf
    · cases hf

theorem trail_concat {ls : List (Label E)} {l : Label E} {v' : World M E}
    (hf : w.follow ok ls = some v) (hs : v.step l = some v') :
    w.trail (ls ++ [l]) = w.trail ls ++ [⟨v, l, v'⟩] := by
  induction ls generalizing w with
  | nil =>
    cases hf
    simp [World.trail, hs]
  | cons m ls ih =>
    simp only [World.follow] at hf
    split at hf
    · next u hu =>
      split at hf
      · simp [World.trail, hu, ih hf]
      · cases hf
    · cases hf

/-- A passage that can be computed: the thread has more actions under way after the start and the
steps `ls`, and as many as before after one more step. -/
theorem exists_passage {a : Action} (ht : w.task? a = some task) (ls : List (Label E))
    (l : Label E)
    (h : (w.follow (fun u m u' => ok u m u' ∧ w.depth t < u'.depth t) (.start t a :: ls)).any
      (fun v => (v.step l).any fun v' => ok v l v' ∧ v'.depth t = w.depth t) = true) :
    ∃ last o, w.Passage ok t task (w.trail (.start t a :: ls ++ [l])) last o := by
  obtain ⟨v, hf, h⟩ := (Option.any_eq_true _ _).1 h
  obtain ⟨v', hs, h⟩ := (Option.any_eq_true _ _).1 h
  obtain ⟨hok, hback⟩ := of_decide_eq_true h
  rw [trail_concat hf hs]
  simp only [World.follow] at hf
  split at hf
  · next u hu =>
    split at hf
    · next hfirst =>
      obtain ⟨hfirst, hdeep⟩ := hfirst
      have hunderway := underway_follow (underway_start ht hu hfirst hdeep) hf
      have htrail : w.trail (.start t a :: ls) = [⟨w, .start t a, u⟩] ++ u.trail ls := by
        simp [World.trail, hu]
      obtain ⟨o, hpassage⟩ := passage_of_back hunderway hs hok hback
      exact ⟨_, o, htrail ▸ hpassage⟩
    · cases hf
  · cases hf

end Runs

/-! ## Programs and phases -/

section Realize

variable {c : Connection} {w : World (phases c) E} {t : ThreadId} {k i : Nat}
  {f : Frame (phases c)}

theorem World.realize_depth (w : World (phases c) E) (t : ThreadId) :
    w.realize.depth t = w.depth t := by
  simp only [World.depth, World.realize_frames, List.countP_map]
  rfl

theorem realize_at (h : w.At t k i f) : w.realize.At t k i f.realize where
  frame := by rw [World.realize_frames, List.getElem?_map, h.frame]; rfl
  thread := h.thread
  below := by
    rw [World.realize_frames, ← List.map_drop, List.countP_map]
    exact h.below

theorem at_of_realize {g : Frame (programs c)} (h : w.realize.At t k i g) :
    ∃ f, w.At t k i f := by
  have hframe := h.frame
  rw [World.realize_frames, List.getElem?_map, Option.map_eq_some_iff] at hframe
  obtain ⟨f, hf, rfl⟩ := hframe
  have hbelow := h.below
  rw [World.realize_frames, ← List.map_drop, List.countP_map] at hbelow
  exact ⟨f, hf, h.thread, hbelow⟩

theorem realize_answered {x : Exchange} (h : w.Answered t k x) : w.realize.Answered t k x := by
  obtain ⟨i, ⟨u, task, p, answer⟩, hat, hx⟩ := h
  exact ⟨i, _, realize_at hat, hx⟩

def Hop.realize (hop : Hop (phases c) E) : Hop (programs c) E :=
  ⟨hop.before.realize, hop.label, hop.after.realize⟩

theorem Hop.realize_own (hop : Hop (phases c) E) : hop.realize.Own t k ↔ hop.Own t k := by
  obtain ⟨v, l, v'⟩ := hop
  cases l with
  | start u a => exact and_congr_right fun _ => by rw [← World.realize_depth v]; rfl
  | act i => exact Iff.rfl
  | resume i =>
    constructor
    · rintro ⟨g, hg⟩
      exact at_of_realize hg
    · rintro ⟨f, hf⟩
      exact ⟨_, realize_at hf⟩
  | drift e => exact Iff.rfl

variable {ok : World (programs c) E → Label E → World (programs c) E → Prop}
  {ok' : World (phases c) E → Label E → World (phases c) E → Prop} {task : Task}
  {hops : List (Hop (programs c) E)}

theorem underway_realize (hok : ∀ w l w', ok w.realize l w'.realize ↔ ok' w l w')
    {z : World (programs c) E} (h : w.realize.Underway ok t task hops z) :
    ∃ hops' v, hops'.map Hop.realize = hops ∧ v.realize = z ∧ w.Underway ok' t task hops' v := by
  induction h with
  | @start a z call hcalls hs hallowed =>
    rw [step_realize, Option.map_eq_some_iff] at hs
    obtain ⟨v, hv, rfl⟩ := hs
    exact ⟨[⟨w, .start t a, v⟩], v, rfl, rfl,
      .start ((realize_calls w _ t task call).1 hcalls) hv ((hok ..).1 hallowed)⟩
  | @step hops z z' l _ hs hallowed hdeep ih =>
    obtain ⟨hops', v, rfl, rfl, hv⟩ := ih
    rw [step_realize, Option.map_eq_some_iff] at hs
    obtain ⟨v', hv', rfl⟩ := hs
    refine ⟨hops' ++ [⟨v, l, v'⟩], v', by simp [Hop.realize], rfl,
      hv.step hv' ((hok ..).1 hallowed) ?_⟩
    simpa only [World.realize_depth] using hdeep

/-- **The passages of the programs are those of the phases.** -/
theorem passage_realize (hok : ∀ w l w', ok w.realize l w'.realize ↔ ok' w l w')
    {last : Hop (programs c) E} {o : Outcome} (h : w.realize.Passage ok t task hops last o) :
    ∃ hops' last', hops'.map Hop.realize = hops ∧ last'.realize = last ∧
      w.Passage ok' t task hops' last' o := by
  cases h with
  | @atOnce a z _ hends hs hallowed =>
    rw [step_realize, Option.map_eq_some_iff] at hs
    obtain ⟨v, hv, rfl⟩ := hs
    exact ⟨[⟨w, .start t a, v⟩], _, rfl, rfl,
      .atOnce ((realize_ends w _ t task o).1 hends) hv ((hok ..).1 hallowed)⟩
  | @later hops z z' l _ hunderway hs hallowed hback hends =>
    obtain ⟨hops', v, rfl, rfl, hv⟩ := underway_realize hok hunderway
    rw [step_realize, Option.map_eq_some_iff] at hs
    obtain ⟨v', hv', rfl⟩ := hs
    refine ⟨hops' ++ [⟨v, l, v'⟩], ⟨v, l, v'⟩, by simp [Hop.realize], rfl,
      .later hv hv' ((hok ..).1 hallowed) ?_ ((realize_ends v l t task o).1 hends)⟩
    simpa only [World.realize_depth] using hback

end Realize

end ConfinedDb.Interleaving
