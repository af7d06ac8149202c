import ConfinedDb.Proofs.Confinement.Ownership
/-!
# Opens that are not nested

An open that fails takes the owner back from a database only if another open of the same thread,
nested in a native call of the first, has installed it (`World.Revokes`). Where no open starts
within another one of the same thread, each thread has one open under way at most, and there is no
database while the one that has set the owner is under way (`Lone`). So no owner is taken back from
a database (**`run_unrevoked`**).
-/
namespace ConfinedDb.Interleaving

/-- In this step no open starts while another one of the same thread is under way. -/
def World.Unnested {M : Machine} {E : Engine} (w : World M E) (l : Label E) : Prop :=
  ∀ t mode, l = .start t (.open mode) → ∀ f ∈ w.frames, f.task.isOpen = true → f.thread ≠ t

instance {M : Machine} {E : Engine} (w : World M E) : DecidablePred w.Unnested
  | .start t (.open _) =>
    decidable_of_iff (∀ f ∈ w.frames, f.task.isOpen = true → f.thread ≠ t)
      (by simp [World.Unnested])
  | .start _ (.exec _) | .start _ (.prepare ..) | .start _ .dispose | .start _ .drop
  | .start _ (.use ..) | .act _ | .resume _ | .drift _ => .isTrue (by simp [World.Unnested])

/-- The opens under way are on different threads, and while the one that has set the owner is under
way there is no database. -/
structure Lone (s : State) (posts : List Post) : Prop where
  threads : posts.Pairwise fun f g => f.2.kind = .opens → g.2.kind = .opens → f.1 ≠ g.1
  unopened : s.disposed = false → ∀ f ∈ posts, f.2.claims = true → s.handle = none

namespace Lone

variable {s s' : State} {posts : List Post} {i : Nat} {t : ThreadId} {p q : Phase}

theorem initial : Lone .initial [] := ⟨.nil, fun _ _ hf => nomatch hf⟩

theorem others (g : Lone s posts) (hi : posts[i]? = some (t, p)) (hp : p.kind = .opens) {f : Post}
    (hf : f ∈ posts.eraseIdx i) (hk : f.2.kind = .opens) : f.1 ≠ t := by
  obtain ⟨hlt, hget⟩ := List.getElem?_eq_some_iff.1 hi
  have hperm : ((t, p) :: posts.eraseIdx i).Perm posts :=
    hget ▸ List.getElem_cons_eraseIdx_perm hlt
  have hsymm : ∀ {f g : Post}, (f.2.kind = .opens → g.2.kind = .opens → f.1 ≠ g.1) →
      g.2.kind = .opens → f.2.kind = .opens → g.1 ≠ f.1 := fun h hg hf => (h hf hg).symm
  have hpair := (hperm.pairwise_iff hsymm).2 g.threads
  exact ((List.pairwise_cons.1 hpair).1 f hf hp hk).symm

theorem erase (g : Lone s posts) (i : Nat) : Lone s (posts.eraseIdx i) where
  threads := g.threads.sublist (List.eraseIdx_sublist ..)
  unopened hd f hf := g.unopened hd f (List.mem_of_mem_eraseIdx hf)

/-- The state changes, and no database comes while the open that has set the owner is under way. -/
theorem after (g : Lone s posts) (hs : s'.disposed = false → s.disposed = false)
    (hh : s'.disposed = false → ∀ f ∈ posts, f.2.claims = true → s.handle = none →
      s'.handle = none) : Lone s' posts where
  threads := g.threads
  unopened hd f hf hc := hh hd f hf hc (g.unopened (hs hd) f hf hc)

theorem push (g : Lone s posts) (hopens : q.kind = .opens → ∀ f ∈ posts, f.2.kind = .opens →
      f.1 ≠ t) (hclaims : s.disposed = false → q.claims = true → s.handle = none) :
    Lone s ((t, q) :: posts) where
  threads := List.pairwise_cons.2 ⟨fun f hf hq hk => (hopens hq f hf hk).symm, g.threads⟩
  unopened hd f hf hc := by
    rcases List.mem_cons.1 hf with rfl | hf
    · exact hclaims hd hc
    · exact g.unopened hd f hf hc

end Lone

variable {c : Connection} {E : Engine} {w w' : World (phases c) E} {t : ThreadId} {l : Label E}

theorem lone_proceed {task : Task} {own : Bool} {m : Move} (g : Lone m.state w.posts)
    (hopens : ∀ q, m.next = .inl q → q.kind = .opens → ∀ f ∈ w.posts, f.2.kind = .opens →
      f.1 ≠ t)
    (hclaims : ∀ q, m.next = .inl q → m.state.disposed = false → q.claims = true →
      m.state.handle = none) :
    Lone (w.proceed t task own m).state (w.proceed t task own m).posts := by
  cases hn : m.next with
  | inl q =>
    rw [w.proceed_pause t task own hn]
    exact g.push (hopens q hn) (hclaims q hn)
  | inr o =>
    rw [w.proceed_end t task own hn]
    exact g

theorem action_of_open {a : Action} {mode : OpenMode} (ht : w.task? a = some (.open mode)) :
    a = .open mode := by
  cases a with
  | «open» mode' =>
    cases ht
    rfl
  | use n u =>
    simp only [World.task?] at ht
    split at ht
    · split at ht <;> cases ht
    · cases ht
  | drop =>
    simp only [World.task?] at ht
    split at ht <;> cases ht
  | _ => cases ht

theorem lone_start (g : Lone w.state w.posts) (tidy : Tidy w) {a : Action} {task : Task}
    (ht : w.task? a = some task) (hu : w.Unnested (.start t a)) :
    Lone (w.start t task).state (w.start t task).posts := by
  have hopens : task.kind = .opens → ∀ f ∈ w.posts, f.2.kind = .opens → f.1 ≠ t := by
    intro hk f hf hfk
    obtain ⟨mode, rfl⟩ := open_of_kind hk
    obtain ⟨f', hf', rfl⟩ := List.mem_map.1 hf
    exact hu t mode (by rw [action_of_open ht]) f' hf'
      (isOpen_iff.2 ((tidy.kinds f' hf').symm.trans hfk))
  have hhandle : w.state.handle = none → (phaseStart c t w.state task).state.handle = none := by
    intro hn
    by_contra hsome
    obtain ⟨db, hdb⟩ := Option.ne_none_iff_exists'.1 hsome
    have hbefore := start_handle hdb
    simp [hn] at hbefore
  refine lone_proceed (w := w.entered t task) (m := phaseStart c t w.state task) ?_ ?_ ?_
  · exact g.after (fun hd => (Bool.or_eq_false_iff.1 (start_disposed task ▸ hd)).1)
      fun _ _ _ _ => hhandle
  · exact fun q hq hk => hopens ((start_kind hq).symm.trans hk)
  · intro q hq _ hc
    obtain ⟨mode, rfl⟩ := open_of_kind ((start_kind hq).symm.trans (opens_of_claims hc))
    have hstart := open_start (c := c) (t := t) (s := w.state) mode
    generalize phaseStart c t w.state (.open mode) = m at hstart hq
    cases hstart with
    | refused ends => cases ends.symm.trans hq
    | opens _ closed _ _ state => rw [state, claim_handle, closed]

theorem lone_resume (g : Lone w.state w.posts) (o : w.Owned) {i : Nat} {task : Task} {p : Phase}
    {answer : (p.call c).Answer} (hf : w.frames[i]? = some ⟨t, task, p, some answer⟩) :
    Lone ((w.returned i t (p.call c)).proceed t task true (p.resume c t answer w.state)).state
      ((w.returned i t (p.call c)).proceed t task true (p.resume c t answer w.state)).posts := by
  have hi := posts_getElem? hf
  have hposts : (w.returned i t (p.call c)).posts = w.posts.eraseIdx i :=
    (List.eraseIdx_map ..).symm
  have hdisposed : (p.resume c t answer w.state).state.disposed = w.state.disposed :=
    resume_disposed p answer
  refine lone_proceed (w := w.returned i t (p.call c)) ?_ ?_ ?_
  · rw [hposts]
    refine (g.erase i).after (fun hd => hdisposed ▸ hd) fun hd f hm hc hn => ?_
    by_cases hp : p.kind = .opens
    · -- all opens are on the owner's thread, so the one that has set the owner is not another one
      have howners := (o.guarded (hdisposed ▸ hd)).owners (hdisposed ▸ hd)
      have hthread := howners f (List.mem_of_mem_eraseIdx hm) (opens_of_claims hc)
      have hown := howners (t, p) (List.mem_of_getElem? hi) hp
      exact absurd (Option.some.inj (hthread.symm.trans hown))
        (g.others hi hp hm (opens_of_claims hc))
    · exact (resume_same hp answer).handle.trans hn
  · intro q hq hk f hm hfk
    rw [hposts] at hm
    exact g.others hi ((resume_kind hq).symm.trans hk) hm hfk
  · intro q hq hd hc
    have hp : p.kind = .opens := (resume_kind hq).symm.trans (opens_of_claims hc)
    have hrest := open_rest (t := t) (s := w.state) hp answer
    have hunopened := g.unopened (hdisposed ▸ hd) (t, p) (List.mem_of_getElem? hi)
    generalize p.resume c t answer w.state = m at hrest hq
    cases hrest with
    | waits waits _ same state =>
      cases waits.symm.trans hq
      rw [state]
      exact hunopened (same.symm.trans hc)
    | late _ waits _ =>
      cases waits.symm.trans hq
      cases hc
    | installs _ _ ends => cases ends.symm.trans hq
    | fails ends => cases ends.symm.trans hq

/-- **Such a step takes no owner back from a database.** -/
theorem unrevoked_of_lone (g : Lone w.state w.posts) (o : w.Owned) (tidy : Tidy w) (d : Drains w)
    (h : w.step l = some w') : Unrevoked w l w' := by
  rintro ⟨i, t, task, out, e, rfl, ⟨p, answer, hf, hend⟩, hopen, he, hh, hall⟩
  have hd : w.state.disposed = false := undisposed_of_handle d.closed hh
  cases World.step_cases h with
  | @resume _ t' task' p' answer' hf' hn =>
    cases hf.symm.trans hf'
    have hk : p.kind = .opens :=
      (tidy.kinds _ (List.mem_of_getElem? hf)).trans (isOpen_iff.1 hopen)
    have hc : p.claims = true := (o.claims_iff tidy hd hf hn hk).2 hall
    have hnone := g.unopened hd (t, p) (List.mem_of_getElem? (posts_getElem? hf)) hc
    simp [hnone] at hh

/-- No open of the run was started within another one of the same thread. -/
def NoNesting {M : Machine} {E : Engine} (w : World M E) (l : Label E) (_ : World M E) : Prop :=
  w.Unnested l

/-- **Where no opens are nested, no owner is taken back from a database.** -/
theorem run_unrevoked {e : E.State} {ls : List (Label E)}
    (run : Run (phases c) E e NoNesting ls w) :
    Run (phases c) E e Unrevoked ls w ∧ Lone w.state w.posts := by
  induction run with
  | nil => exact ⟨.nil, .initial⟩
  | @snoc ls w w' l run hs hu ih =>
    obtain ⟨run', g⟩ := ih
    have o := run_owned run'
    have hr := unrevoked_of_lone g o (run_tidy run) (run_drains run) hs
    refine ⟨run'.snoc hs hr, ?_⟩
    cases World.step_cases hs with
    | start ht => exact lone_start g (run_tidy run) ht hu
    | @act i t task p hf =>
      have hposts : (w.acted i t task p).posts = w.posts := posts_acted hf
      exact hposts ▸ g
    | resume hf hn => exact lone_resume g o hf
    | drift e => exact g

end ConfinedDb.Interleaving
