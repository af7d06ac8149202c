import ConfinedDb.Proofs.Interleaving.Calls
import ConfinedDb.Proofs.Interleaving.Realize
import ConfinedDb.Proofs.Spent.Names
/-!
# Calls on a statement that is spent

A statement handle is spent once a finalization of it has started, or once the disposal that had it
registered has returned. A connection should not touch it any more (`History.Untouched`), and three
times it does (`World.Clash`):

* a release starts a call on a statement that a disposal is finalizing: the handle stays registered
  until that call has returned, and being registered is all that a release looks at;
* a disposal finalizes a statement that a release is finalizing, for the same reason;
* the parameters of a statement are dropped after a reset that has returned, and nobody looks
  whether the statement was finalized while the reset was in progress.

There is no fourth: in a run whose engine mints no live handle, a step starts a call on a spent
statement exactly if it is one of these (`clash_iff`), and so a run leaves spent statements alone
exactly if no step of it is a clash (**`untouched_iff`**). `finalized_twice` is a run with one.
-/
namespace ConfinedDb.Interleaving

open History

/-! ## Clashes -/

/-- No call has named a handle that was spent when the call started. -/
def History.Untouched : History → Prop :=
  EachCall fun past _ call => ∀ h ∈ call.statement?, h ∉ spent past

instance : DecidablePred Untouched :=
  inferInstanceAs (DecidablePred
    (EachCall fun past _ call => ∀ h ∈ call.statement?, h ∉ spent past))

namespace World

variable {M : Machine} {E : Engine}

/-- In this step a reset of the statement returns. -/
def Rewound (w : World M E) (l : Label E) (h : StmtHandle) : Prop :=
  ∃ i f, l = .resume i ∧ w.frames[i]? = some f ∧ f.call = .reset h

/-- In this step an action starts a call on a statement that another action has finalized or is
finalizing. -/
inductive Clash (w : World M E) (l : Label E) : Prop
  /-- A release does, while a disposal finalizes the statement. -/
  | release {t : ThreadId} {task : Task} {call : EngineCall} {h : StmtHandle}
    (calls : w.Calls l t task call) (names : call.statement? = some h)
    (release : task.isRelease = true) (disposal : w.Finalizes Task.isDisposal h)
  /-- A disposal does, while a release finalizes the statement. -/
  | disposal {t : ThreadId} {task : Task} {call : EngineCall} {h : StmtHandle}
    (calls : w.Calls l t task call) (names : call.statement? = some h)
    (disposal : task.isDisposal = true) (release : w.Finalizes Task.isRelease h)
  /-- The parameters are dropped after a reset during which the statement was spent. -/
  | unbinding {t : ThreadId} {task : Task} {h : StmtHandle}
    (calls : w.Calls l t task (.clearBindings h)) (rewound : w.Rewound l h)
    (spent : h ∈ spent w.history)

end World

/-- A step leaves the history untouched if it spares the handles that are spent. -/
theorem untouched_step {M : Machine} {E : Engine} {w w' : World M E} {l : Label E}
    (h : w.step l = some w') : Untouched w'.history ↔ Untouched w.history ∧ w.Spares l := by
  have quiet : ∀ (e : Event) (past : History) (t : ThreadId) (call : EngineCall), e.Quiet →
      ((∀ h ∈ call.statement?, h ∉ spent (e :: past)) ↔
        ∀ h ∈ call.statement?, h ∉ spent past) := by
    intro e past t call he
    cases e <;> first | exact Iff.rfl | exact he.elim
  refine (eachCall_step quiet h).trans (and_congr_right fun _ => ?_)
  exact forall_congr' fun t => forall_congr' fun task => forall_congr' fun call =>
    forall_comm

/-! ## What is spent -/

variable {c : Connection} {E : Engine} {w w' : World (phases c) E} {h : StmtHandle}

theorem mem_grips {g : Grip} :
    g ∈ w.grips ↔ ∃ f ∈ w.frames, f.point.grip? = some g ∨ g ∈ f.pending.map Grip.pending := by
  simp only [World.grips, List.mem_flatMap, Frame.grips, List.mem_append,
    Option.mem_toList]

/-- A disposal finalizes a statement where it has the grip of it. -/
theorem finalizes_disposal_iff (tidy : Tidy w) :
    w.Finalizes Task.isDisposal h ↔ Grip.draining h ∈ w.grips := by
  rw [mem_grips]
  constructor
  · rintro ⟨⟨t, task, p, answer⟩, hf, ht, hc⟩
    refine ⟨_, hf, .inl ?_⟩
    have hk : p.kind = task.kind := tidy.kinds _ hf
    rw [kind_of_isDisposal ht] at hk
    cases p with
    | draining k sql rounds db =>
      cases hc
      rfl
    | failing c' db rc operation about onward => cases onward <;> cases hk
    | closing db => cases hc
    | closeFailed db rc => cases hc
    | _ => cases hk
  · rintro ⟨⟨t, task, p, answer⟩, hf, hg | hg⟩
    · have hk : p.kind = task.kind := tidy.kinds _ hf
      refine ⟨_, hf, ?_⟩
      cases p with
      | draining k sql rounds db =>
        cases hg
        exact ⟨isDisposal_of_kind hk.symm, rfl⟩
      | failing c' db rc operation about onward => cases onward <;> cases hg
      | _ => cases hg
    · obtain ⟨_, _, hg⟩ := List.mem_map.1 hg
      cases hg

/-- A release finalizes a statement where it has the grip of it. -/
theorem finalizes_release_iff (tidy : Tidy w) :
    w.Finalizes Task.isRelease h ↔ ∃ sql, Grip.finalizing h sql ∈ w.grips := by
  simp only [mem_grips]
  constructor
  · rintro ⟨⟨t, task, p, answer⟩, hf, ht, hc⟩
    have hk : p.kind = task.kind := tidy.kinds _ hf
    obtain ⟨e, hr⟩ : ∃ e, task.kind = .releases e := by
      cases task with
      | use n st u => cases u <;> first | exact ⟨_, rfl⟩ | cases ht
      | _ => cases ht
    rw [hr] at hk
    cases p with
    | finalizing k sql =>
      cases hc
      exact ⟨sql, _, hf, .inl rfl⟩
    | failing c' db rc operation about onward => cases hc
    | rewinding c' k sql b => cases hc
    | unbinding c' k sql => cases hc
    | _ => cases hk
  · rintro ⟨sql, ⟨t, task, p, answer⟩, hf, hg | hg⟩
    · have hk : p.kind = task.kind := tidy.kinds _ hf
      refine ⟨_, hf, ?_⟩
      cases p with
      | finalizing k sql =>
        cases hg
        exact ⟨isRelease_of_kind hk.symm, rfl⟩
      | failing c' db rc operation about onward => cases onward <;> cases hg
      | _ => cases hg
    · obtain ⟨_, _, hg⟩ := List.mem_map.1 hg
      cases hg

/-- Until the connection is disposed no statement in the hands of a user is spent. -/
theorem not_spent_of_user (b : w.Booked) (hd : w.state.disposed = false) {e : Entry}
    (he : e ∈ w.users) : e.1 ∉ spent w.history :=
  (b.perm (List.perm_cons_erase he) (.refl _)).not_spent hd

theorem mem_users {n : Nat} {e : Entry} (he : w.entryOf n = some e) : e ∈ w.users :=
  w.mem_users_iff.2 ⟨n, he⟩

theorem mem_users_of_start {a : Action} {task : Task} (ht : w.task? a = some task) {e : Entry}
    (hk : task.kind = .uses e ∨ task.kind = .releases e) : e ∈ w.users := by
  cases task with
  | use n st u =>
    have he : st.entry = e := by
      cases u <;> rcases hk with hk | hk <;> cases hk <;> rfl
    rw [← he]
    exact mem_users (n := n) (congrArg (Option.map Statement.entry) (Tidy.task?_use ht).1)
  | _ => rcases hk with hk | hk <;> cases hk

theorem spares_start (tidy : Tidy w) (b : w.Booked) {t : ThreadId} {a : Action}
    (hn : ¬w.Clash (.start t a)) : w.Spares (.start t a) := by
  intro t' task call k hcalls hk hs
  have hcalls' := hcalls
  obtain ⟨rfl, ht, q, hq, rfl⟩ := hcalls'
  have hnames := start_names hq hk
  generalize hkind : task.kind = kind at hnames
  cases hnames with
  | use handle undisposed =>
    exact not_spent_of_user b undisposed (mem_users_of_start ht (.inl hkind)) (handle ▸ hs)
  | @release e q handle there =>
    subst handle
    have b' := b.perm (List.perm_cons_erase (mem_users_of_start ht (.inr hkind))) (.refl _)
    have hd := (finalizes_disposal_iff tidy).2 (b'.draining_of_spent there hs)
    exact hn (.release hcalls hk (isRelease_of_kind hkind) hd)
  | drain undisposed there =>
    rcases b.ending_of_spent there hs with hf | hd
    · exact hn (.disposal hcalls hk (isDisposal_of_kind hkind)
        ((finalizes_release_iff tidy).2 hf))
    · have hg := (b.unretired undisposed).2 _ hd
      cases hg

theorem kind_of_held {p : Phase} {sql : String} (hg : p.grip? = some (.held h sql)) :
    p.kind = .releases (h, sql) := by
  cases p with
  | failing c' db rc operation about onward =>
    cases onward <;> cases hg
    rfl
  | rewinding c' k text hasBindings =>
    cases hg
    rfl
  | unbinding c' k text =>
    cases hg
    rfl
  | _ => cases hg

theorem spares_resume (tidy : Tidy w) (b : w.Booked) {i : Nat}
    (hn : ¬w.Clash (.resume i)) : w.Spares (.resume i) := by
  intro t task call k hcalls hk hs
  have hcalls' := hcalls
  obtain ⟨p, answer, hf, q, hq, rfl⟩ := hcalls'
  have hmem := List.mem_of_getElem? hf
  have hkind : p.kind = task.kind := tidy.kinds _ hmem
  have hp := grips_perm hf
  have hin : ∀ g, g ∈ (w.frames.eraseIdx i).flatMap Frame.grips → g ∈ w.grips := by
    intro g hg
    exact hp.mem_iff.2 (List.mem_append_right _ hg)
  have b' := b.perm (.refl _) hp
  cases resume_names hq hk with
  | reset handle handle' =>
    have hclear : w.Calls (.resume i) t task (.clearBindings k) := handle' ▸ hcalls
    exact hn (.unbinding hclear ⟨i, _, rfl, hf, congrArg EngineCall.reset handle⟩ hs)
  | clear => exact hn (.unbinding hcalls ⟨i, _, rfl, hf, rfl⟩ hs)
  | @finalize p answer sql held there =>
    have hg : (⟨t, task, p, some answer⟩ : Frame (phases c)).grips
        = .held k sql :: (arriving (p.call c) answer).map Grip.pending := by
      simp only [Frame.grips, held]
      rfl
    rw [hg] at b'
    have b' := b'.user_of_held
    have hr : k ∈ w.state.registered := b'.registered_of_kept there
    have hdrain : Grip.draining k ∈ w.grips := by
      rcases List.mem_append.1 (b'.draining_of_spent hr hs) with hm | hm
      · obtain ⟨_, _, hm⟩ := List.mem_map.1 hm
        cases hm
      · exact hin _ hm
    have hrelease : task.kind = .releases (k, sql) := hkind.symm.trans (kind_of_held held)
    exact hn (.release hcalls hk (isRelease_of_kind hrelease)
      ((finalizes_disposal_iff tidy).2 hdrain))
  | @late p answer sql kind arrives =>
    have hpending : Grip.pending k ∈ w.grips :=
      mem_grips.2 ⟨_, hmem, .inr (List.mem_map_of_mem (f := Grip.pending) arrives)⟩
    have hl := b.lives.pending k (List.mem_filterMap.2 ⟨_, hpending, rfl⟩)
    exact hl.2.1 hs
  | @drain k' sql text rounds left db db' answer there =>
    rw [State.registered_forget] at there
    obtain ⟨hr, hne⟩ := List.mem_filter.1 there
    have hg : (⟨t, task, .draining k' sql rounds db, some answer⟩ : Frame (phases c)).grips
        = [.draining k'] := rfl
    rw [hg] at b'
    have hfinal : ∃ text, Grip.finalizing k text ∈ w.grips := by
      rcases b'.ending_of_spent hr hs with ⟨text, hm⟩ | hm
      · exact ⟨text, hp.mem_iff.2 hm⟩
      · rcases List.mem_cons.1 hm with hm | hm
        · cases hm
          simp at hne
        · have hno := (b'.no_disposal rfl).2 _ hm
          cases hno
    exact hn (.disposal hcalls hk (isDisposal_of_kind hkind.symm)
      ((finalizes_release_iff tidy).2 hfinal))

/-- **A step starts a call on a spent statement exactly if it is a clash.** -/
theorem clash_iff (tidy : Tidy w) (b : w.Booked) (l : Label E) : w.Clash l ↔ ¬w.Spares l := by
  constructor
  · rintro (@⟨t, task, call, h, hcalls, hk, -, hd⟩ | @⟨t, task, call, h, hcalls, hk, -, hr⟩ |
        @⟨t, task, h, hcalls, -, hspent⟩) hs
    · have hg := (finalizes_disposal_iff tidy).1 hd
      exact hs t task call h hcalls hk (b.spent_of_ending hg rfl)
    · obtain ⟨sql, hg⟩ := (finalizes_release_iff tidy).1 hr
      exact hs t task call h hcalls hk (b.spent_of_ending hg rfl)
    · exact hs t task _ h hcalls rfl hspent
  · intro hs
    by_contra hn
    refine hs ?_
    cases l with
    | start t a => exact spares_start tidy b hn
    | resume i => exact spares_resume tidy b hn
    | act i => exact fun _ _ _ _ hc => hc.elim
    | drift e => exact fun _ _ _ _ hc => hc.elim

/-! ## Runs -/

def Peaceful {M : Machine} (w : World M E) (l : Label E) (w' : World M E) : Prop :=
  MintsFresh w l w' ∧ ¬w.Clash l

/-- Without a clash the books are kept and what is spent is left alone. -/
theorem run_peaceful {e : E.State} {ls : List (Label E)}
    (run : Run (phases c) E e Peaceful ls w) : w.Booked ∧ Untouched w.history := by
  induction run with
  | nil => exact ⟨booked_initial e, trivial⟩
  | @snoc ls w w' l run hs hok ih =>
    obtain ⟨b, hu⟩ := ih
    have tidy := run_tidy run
    have hspares : w.Spares l := by
      by_contra hn
      exact hok.2 ((clash_iff tidy b l).2 hn)
    exact ⟨step_booked tidy b hs hok.1 hspares, (untouched_step hs).2 ⟨hu, hspares⟩⟩

theorem phases_untouched_iff {e : E.State} {ls : List (Label E)}
    (run : Run (phases c) E e MintsFresh ls w) :
    Untouched w.history ↔ Run (phases c) E e Peaceful ls w := by
  refine ⟨fun hu => ?_, fun hp => (run_peaceful hp).2⟩
  induction run with
  | nil => exact .nil
  | @snoc ls w w' l run hs hfresh ih =>
    obtain ⟨hu, hspares⟩ := (untouched_step hs).1 hu
    have hp := ih hu
    have hclash : ¬w.Clash l := by
      intro hc
      exact (clash_iff (run_tidy run) (run_peaceful hp).1 l).1 hc hspares
    exact hp.snoc hs ⟨hfresh, hclash⟩

theorem realize_clash (w : World (phases c) E) (l : Label E) : w.realize.Clash l ↔ w.Clash l := by
  have hfinal : ∀ p h, w.realize.Finalizes p h ↔ w.Finalizes p h := by
    intro p h
    simp [World.Finalizes]
  have hrewound : ∀ h, w.realize.Rewound l h ↔ w.Rewound l h := by
    intro h
    simp [World.Rewound]
  constructor
  · rintro (⟨hc, hk, ht, hd⟩ | ⟨hc, hk, ht, hr⟩ | ⟨hc, hr, hs⟩)
    · exact .release ((realize_calls w l _ _ _).1 hc) hk ht ((hfinal _ _).1 hd)
    · exact .disposal ((realize_calls w l _ _ _).1 hc) hk ht ((hfinal _ _).1 hr)
    · exact .unbinding ((realize_calls w l _ _ _).1 hc) ((hrewound _).1 hr) hs
  · rintro (⟨hc, hk, ht, hd⟩ | ⟨hc, hk, ht, hr⟩ | ⟨hc, hr, hs⟩)
    · exact .release ((realize_calls w l _ _ _).2 hc) hk ht ((hfinal _ _).2 hd)
    · exact .disposal ((realize_calls w l _ _ _).2 hc) hk ht ((hfinal _ _).2 hr)
    · exact .unbinding ((realize_calls w l _ _ _).2 hc) ((hrewound _).2 hr) hs

theorem realize_peaceful (w : World (phases c) E) (l : Label E) (w' : World (phases c) E) :
    Peaceful w.realize l w'.realize ↔ Peaceful w l w' :=
  and_congr Iff.rfl (not_congr (realize_clash w l))

/-- **A connection leaves the statements that are spent alone exactly in the runs without a clash.**
-/
theorem untouched_iff {e : E.State} {ls : List (Label E)} {w : World (programs c) E}
    (run : Run (programs c) E e MintsFresh ls w) :
    Untouched w.history ↔ Run (programs c) E e Peaceful ls w := by
  constructor
  · intro hu
    obtain ⟨v, rfl, hv⟩ := run_programs_iff.1 run
    exact (run_programs_congr realize_peaceful).2 ⟨v, rfl, (phases_untouched_iff hv).1 hu⟩
  · intro hp
    obtain ⟨v, rfl, hv⟩ := (run_programs_congr realize_peaceful).1 hp
    exact (run_peaceful hv).2

/-! ## A clash -/

/-- A thread opens a database, prepares a statement and disposes the connection. While the disposal
finalizes the statement, the thread releases it. -/
def releasedInDrain : List (Label recording) :=
  let t : ThreadId := ⟨0⟩
  [.start t (.open .readWriteCreate), .act 0, .resume 0,
    .start t (.prepare "SELECT 1" .uncached), .act 0, .resume 0,
    .start t .dispose, .start t (.use 0 .release)]

/-- The statement is finalized twice. -/
theorem finalized_twice :
    ∃ w, Run (programs inMemory) recording .initial MintsFresh releasedInDrain w ∧
      w.history.count (.called ⟨0⟩ (.finalize ⟨16, by decide⟩)) = 2 ∧ ¬Untouched w.history := by
  obtain ⟨w, run, hw⟩ := exists_run (M := programs inMemory) (e := RecordingEngine.initial)
    MintsFresh releasedInDrain
    (fun w => w.history.count (.called ⟨0⟩ (.finalize ⟨16, by decide⟩)) = 2 ∧
      ¬Untouched w.history) (by decide +kernel)
  exact ⟨w, run, by simpa using hw⟩

/-- A clash it is. -/
theorem releasedInDrain_not_peaceful :
    ∃ w, Run (programs inMemory) recording .initial MintsFresh releasedInDrain w ∧
      ¬Run (programs inMemory) recording .initial Peaceful releasedInDrain w := by
  obtain ⟨w, run, hw⟩ := exists_run (M := programs inMemory) (e := RecordingEngine.initial)
    MintsFresh releasedInDrain (fun w => ¬Untouched w.history)
    (by decide +kernel)
  exact ⟨w, run, fun hp => by simp [(untouched_iff run).2 hp] at hw⟩

end ConfinedDb.Interleaving
