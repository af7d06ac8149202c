import ConfinedDb.Proofs.Flags.Actions
import ConfinedDb.Proofs.Flags.Exclusive
/-!
# Lent statements are as new

A statement that a preparation lends is not under way and has no parameters, whatever has failed
before; and while no action is on a statement, its flags say no less than what the engine has of it
(**`lent_pristine`**). The engine may be used by others and told to fail at any moment.

What every step keeps (`Flagged`, **`Flagged.step`**) is that marks cover statements: those of the
actions under way, the flags of the statements that no action changes, and a blank mark for each
idle statement. Where the engine adds to a statement, nobody else has it (`user_of_adds`,
`idle_of_adds`, `mark_of_adds`), and whatever else it does leaves all marks right (`covers_acted`).
That a lent statement is live at all is in the books.

Once the connection is disposed the books say nothing of releases and preparations under way, but
then their statements are not lent any more, so only the marks of uses are kept.
-/
namespace ConfinedDb.Interleaving

open History

variable {c : Connection} {w w' : World (phases c) recording} {t : ThreadId} {task : Task}
  {own : Bool} {m : Move} {i : Nat} {l : Label recording} {h : StmtHandle}

/-! ## The marks of a world -/

/-- The marks of an action under way: of its statement, and of one that was compiled for it. -/
def Frame.marks (f : Frame (phases c)) : List Mark :=
  match f.answer with
  | some answer => (f.point.mark?.map (·.after f.call answer)).toList ++ f.pending.map Mark.blank
  | none => f.point.mark?.toList

def World.Covers (w : World (phases c) recording) (k : Mark) : Prop :=
  k.Covers (databases w.history) w.recorder

/-- Marks cover what the engine has. The flags of a statement do unless an action changes it, which
is under way or, as one of `aside`, has just been taken out to go on. -/
structure Flagged (aside : List Task) (w : World (phases c) recording) : Prop where
  resting : ∀ n st, w.statements.get? n = some st → (∀ a ∈ aside, ∀ e, a.changes ≠ some (n, e)) →
    (∀ f ∈ w.frames, ∀ e, f.task.changes ≠ some (n, e)) → w.Covers st.mark
  working : ∀ f ∈ w.frames, w.state.disposed = false ∨ f.task.inUse.isSome = true →
    ∀ k ∈ f.marks, w.Covers k
  idle : w.state.disposed = false → ∀ sql h, w.state.cache.get? sql = some h →
    w.Covers (.blank h)

theorem mem_marks {f : Frame (phases c)} {k : Mark} (hk : k ∈ f.marks) :
    (∃ k' ∈ f.point.mark?, k'.handle = k.handle) ∨ k.handle ∈ f.pending := by
  obtain ⟨t, task, p, _ | answer⟩ := f
  · exact .inl ⟨k, Option.mem_toList.1 hk, rfl⟩
  · rcases List.mem_append.1 hk with hk | hk
    · obtain ⟨k', hk', rfl⟩ := Option.map_eq_some_iff.1 (Option.mem_toList.1 hk)
      exact .inl ⟨k', hk', (k'.after_handle _ _).symm⟩
    · obtain ⟨j, hj, rfl⟩ := List.mem_map.1 hk
      exact .inr hj

theorem covers_proceed {k : Mark} : (w.proceed t task own m).Covers k ↔ w.Covers k := by
  have hd := (proceed_history w t task own m).1
  simp only [World.Covers, hd, proceed_recorder]

/-- What users have when an action has ended was handed back by it, or was there before and the
action has not changed it. -/
theorem handBack_get? {o : Outcome} (ho : o.Of task.kind) {lent n : Nat}
    {statements : Table Nat Statement} {st : Statement}
    (hg : (task.handBack lent o statements).get? n = some st) :
    (o.statement = some st ∧ (task.inUse.isSome = true ∨ task.brings o ≠ [])) ∨
      statements.get? n = some st ∧ ∀ e, task.changes ≠ some (n, e) := by
  cases task with
  | prepare sql lending =>
    cases hs : o.statement with
    | none =>
      simp only [Task.handBack, hs, Option.elim] at hg
      exact .inr ⟨hg, by simp [Task.changes]⟩
    | some st' =>
      simp only [Task.handBack, hs, Option.elim, Table.get?_insert] at hg
      split at hg
      · exact .inl ⟨hg, .inr (by simp [Task.brings, hs])⟩
      · exact .inr ⟨hg, by simp [Task.changes]⟩
  | use k st' u =>
    by_cases hu : u = .release
    · subst hu
      have hs : o.statement = none := ho
      simp only [Task.handBack, hs, Option.elim] at hg
      exact .inr ⟨hg, by simp [Task.changes]⟩
    · have hof : o.Of (.uses st'.entry) := by cases u <;> first | exact ho | exact absurd rfl hu
      obtain ⟨st'', hs, -⟩ := hof
      simp only [Task.handBack, hs, Option.elim, Table.get?_insert] at hg
      split at hg
      · refine .inl ⟨hs.trans hg, .inl ?_⟩
        cases u <;> first | rfl | exact absurd rfl hu
      · next hne =>
        refine .inr ⟨hg, fun e hc => hne ?_⟩
        cases u <;> cases hc <;> rfl
  | _ => exact .inr ⟨hg, by simp [Task.changes]⟩

namespace Flagged

theorem initial : Flagged [] (.initial .initial : World (phases c) recording) where
  resting _ _ hg := by cases hg
  working _ hf := by cases hf
  idle _ _ _ hg := by cases hg

theorem proceed (k : Flagged [task] w) (hof : m.Of task.kind)
    (hd : m.state.disposed = false → w.state.disposed = false)
    (hm : m.state.disposed = false ∨ task.inUse.isSome = true →
      m.Marked (databases w.history) w.recorder w.state)
    (hbrings : m.state.disposed = true → ∀ o, m.next = .inr o → task.brings o = []) :
    Flagged [] (w.proceed t task own m) := by
  have hstate : (w.proceed t task own m).state = m.state := proceed_state ..
  refine ⟨fun n st hg _ hf => ?_, fun f hf hcond k' hk' => ?_, fun hd' sql h hg => ?_⟩ <;>
    rw [covers_proceed]
  · cases hn : m.next with
    | inl q =>
      rw [w.proceed_pause t task own hn] at hg hf
      refine k.resting n st hg ?_ fun f hm => hf f (List.mem_cons_of_mem _ hm)
      simpa using hf _ List.mem_cons_self
    | inr o =>
      have ho : o.Of task.kind := by simpa [Move.Of, hn] using hof
      rw [w.proceed_end t task own hn] at hg hf
      rcases handBack_get? ho hg with ⟨hs, hlent⟩ | ⟨hg, hkept⟩
      · refine (hm ?_).ends o hn st hs
        refine hlent.symm.imp (fun hb => ?_) id
        by_contra hd'
        exact hb (hbrings (by simpa using hd') o hn)
      · exact k.resting n st hg (by simpa using hkept) hf
  · rw [hstate] at hcond
    rcases mem_proceed.1 hf with hf | ⟨q, hn, rfl⟩
    · exact k.working f hf (hcond.imp hd id) k' hk'
    · exact (hm hcond).waits q hn k' (Option.mem_toList.1 hk')
  · rw [hstate] at hd' hg
    rcases (hm (.inl hd')).idle sql h hg with hg | hk
    · exact k.idle (hd hd') sql h hg
    · exact hk

end Flagged

/-! ## The engine acts -/

theorem databases_acted {p : Phase} :
    databases w.history ⊆ databases (w.acted i t task p).history := by
  have happend : databases (w.acted i t task p).history = _ := databases_append _ w.history
  rw [happend]
  exact List.subset_append_right _ _

theorem covers_acted {p : Phase} {k : Mark} (hk : w.Covers k)
    (hc : (p.call c).adds? ≠ some k.handle) : (w.acted i t task p).Covers k :=
  (hk.answer hc).subset databases_acted

/-- The mark of the action itself changes with the answer. -/
theorem marks_acted {p : Phase} (hs : Sources w) (hf : w.frames[i]? = some ⟨t, task, p, none⟩)
    (hp : ∀ k ∈ p.mark?, w.Covers k) :
    ∀ k ∈ (⟨t, task, p, some (w.recorder.answer (p.call c)).1⟩ : Frame (phases c)).marks,
      (w.acted i t task p).Covers k := by
  intro k hk
  rcases List.mem_append.1 hk with hk | hk
  · obtain ⟨k', hk', rfl⟩ := Option.map_eq_some_iff.1 (Option.mem_toList.1 hk)
    by_cases hc : (p.call c).statement? = some k'.handle
    · exact ((hp k' hk').after hc).subset databases_acted
    · have hsame := (mark_call hk' (w.recorder.answer (p.call c)).1).resolve_left hc
      have hsame : k'.after ((phases c).call p) (w.recorder.answer (p.call c)).1 = k' := hsame
      show (w.acted i t task p).Covers (k'.after ((phases c).call p) _)
      rw [hsame]
      exact covers_acted (hp k' hk') fun ha => hc (adds_statement ha)
  · obtain ⟨j, hj, rfl⟩ := List.mem_map.1 hk
    refine .arriving hj fun db sql hc => databases_acted ?_
    exact hs.preparing _ (List.mem_of_getElem? hf) db sql hc

section Adding

variable {f : Frame (phases c)} (x : Exclusive w) (tidy : Tidy w) (hf : w.frames[i]? = some f)
  (ha : f.call.adds? = some h)
include x tidy hf ha

/-- What a call adds to is in the hands of a user, and the action changes it. -/
theorem changed_of_adds : ∃ n sql, f.task.changes = some (n, (h, sql)) ∧
    w.entryOf n = some (h, sql) := by
  have hmem := List.mem_of_getElem? hf
  obtain ⟨n, sql, hn⟩ := x.adding f hmem h ha
  exact ⟨n, sql, hn, tidy.inHand f hmem n _ (inUse_of_changes hn)⟩

theorem user_of_adds (hdistinct : w.Distinct) {n : Nat} {st : Statement}
    (hg : w.statements.get? n = some st) (hn : ∀ e, f.task.changes ≠ some (n, e)) :
    st.handle ≠ h := by
  intro he
  obtain ⟨k, sql, hk, hentry⟩ := changed_of_adds x tidy hf ha
  obtain rfl := hdistinct n k st.entry _ (congrArg (Option.map Statement.entry) hg) hentry he
  exact hn _ hk

theorem idle_of_adds (b : w.Booked) (hd : w.state.disposed = false) {sql : String}
    {j : StmtHandle} (hg : w.state.cache.get? sql = some j) : j ≠ h := by
  rintro rfl
  obtain ⟨n, text, -, hentry⟩ := changed_of_adds x tidy hf ha
  have b' := b.perm (List.perm_cons_erase (mem_users hentry)) (.refl _)
  exact b'.not_cached hd sql hg

theorem mark_of_adds (hdistinct : w.Distinct) (hb : w.state.disposed = false → w.Booked)
    {g : Frame (phases c)} (hg : g ∈ w.frames.eraseIdx i)
    (hcond : w.state.disposed = false ∨ g.task.inUse.isSome = true) {k : Mark}
    (hk : k ∈ g.marks) : k.handle ≠ h := by
  intro he
  obtain ⟨n, sql, hn, hentry⟩ := changed_of_adds x tidy hf ha
  have hmem := List.mem_of_mem_eraseIdx hg
  have hkind : g.point.kind = g.task.kind := tidy.kinds g hmem
  -- Apart from uses only those up to the disposal matter, and these are in the books.
  have hbooks : (∀ e, g.point.kind ≠ .uses e) → w.state.disposed = false ∧
      Books w.state ((h, sql) :: w.users.erase (h, sql)) w.grips w.history := by
    intro hno
    have hd : w.state.disposed = false := by
      refine hcond.resolve_right fun hu => ?_
      obtain ⟨⟨j, e⟩, hu⟩ := Option.isSome_iff_exists.1 hu
      exact hno e (hkind.trans (kind_of_inUse hu))
    exact ⟨hd, (hb hd).perm (List.perm_cons_erase (mem_users hentry)) (.refl _)⟩
  rcases mem_marks hk with ⟨k', hk', hh⟩ | hp
  · rcases mark_cases hk' with ⟨text, hu⟩ | ⟨text, hheld⟩
    · obtain ⟨j, hj⟩ := inUse_of_kind (hkind.symm.trans hu)
      obtain rfl := hdistinct j n _ _ (tidy.inHand g hmem j _ hj) hentry (hh.trans he)
      exact (x.others hf g hg j _ _).1 hn hj
    · have hno : ∀ e, g.point.kind ≠ .uses e := by simp [kind_of_held hheld]
      have hgrip := mem_grips.2 ⟨g, hmem, .inl hheld⟩
      exact (hbooks hno).2.not_released hgrip text (by simp [Grip.entryOf, hh, he])
  · have hno : ∀ e, g.point.kind ≠ .uses e := by simp [prepares_of_pending hp]
    obtain ⟨hd, b⟩ := hbooks hno
    have hgrip := mem_grips.2 ⟨g, hmem, .inr (List.mem_map_of_mem (f := Grip.pending) hp)⟩
    have hpending := b.lives.pending _ (List.mem_filterMap.2 ⟨_, hgrip, rfl⟩)
    exact hpending.2.2.2 (he ▸ b.mem_registered hd (e := (h, sql)) List.mem_cons_self)

end Adding

/-! ## Steps and runs -/

namespace Flagged

theorem acted (k : Flagged [] w) (x : Exclusive w) (hdistinct : w.Distinct) (tidy : Tidy w)
    (hs : Sources w) (hb : w.state.disposed = false → w.Booked) {p : Phase}
    (hf : w.frames[i]? = some ⟨t, task, p, none⟩) : Flagged [] (w.acted i t task p) := by
  have hi := (List.getElem?_eq_some_iff.1 hf).1
  have hmem := List.mem_of_getElem? hf
  have hframes : ∀ f, f ∈ (w.acted i t task p).frames ↔
      f = ⟨t, task, p, some (w.recorder.answer (p.call c)).1⟩ ∨ f ∈ w.frames.eraseIdx i := by
    intro f
    exact (List.set_perm_cons_eraseIdx hi _).mem_iff.trans List.mem_cons
  have hsame : ∀ f ∈ w.frames, ∃ g ∈ (w.acted i t task p).frames, g.task = f.task := by
    intro f hfm
    rcases mem_acted hf hfm with rfl | hfm
    · exact ⟨_, acted_mem hf, rfl⟩
    · exact ⟨f, hfm, rfl⟩
  refine ⟨fun n st hg ha hn => ?_, fun g hg hcond k' hk' => ?_, fun hd sql j hg => ?_⟩
  · have hn : ∀ f ∈ w.frames, ∀ e, f.task.changes ≠ some (n, e) := by
      intro f hfm
      obtain ⟨g, hg, he⟩ := hsame f hfm
      exact he ▸ hn g hg
    refine covers_acted (k.resting n st hg ha hn) fun hadds => ?_
    exact user_of_adds x tidy hf hadds hdistinct hg (hn _ hmem) rfl
  · rcases (hframes g).1 hg with rfl | hg
    · refine marks_acted hs hf (fun k'' hk'' => ?_) k' hk'
      exact k.working _ hmem hcond k'' (Option.mem_toList.2 hk'')
    · refine covers_acted (k.working g (List.mem_of_mem_eraseIdx hg) hcond k' hk') fun hadds => ?_
      exact mark_of_adds x tidy hf hadds hdistinct hb hg hcond hk' rfl
  · refine covers_acted (k.idle hd sql j hg) fun hadds => ?_
    exact idle_of_adds x tidy hf hadds (hb hd) hd hg rfl

theorem start (k : Flagged [] w) {a : Action} (ht : w.task? a = some task) :
    Flagged [] (w.start t task) := by
  have hdbs := (inert_append (inert_opening task t w.state) w.history).1
  have hcovers : ∀ {k}, w.Covers k → (w.entered t task).Covers k := by
    intro k hk
    have hk : k.Covers (databases (task.opening t w.state ++ w.history)) w.recorder := by
      rw [hdbs]
      exact hk
    exact hk
  have hentered : Flagged [task] (w.entered t task) :=
    ⟨fun n st hg _ hn => hcovers (k.resting n st (get?_takeOver hg) (by simp) hn),
      fun f hf hcond k' hk' => hcovers (k.working f hf hcond k' hk'),
      fun hd sql j hg => hcovers (k.idle hd sql j hg)⟩
  have huse : ∀ k ∈ task.mark?, (w.entered t task).Covers k := by
    intro k' hk'
    cases task with
    | use n st u =>
      cases hk'
      obtain ⟨hg, hall⟩ := Tidy.task?_use ht
      refine hcovers (k.resting n st hg (by simp) fun f hf e hn => ?_)
      have hnone := (reads_of_allows (hall f hf) (inUse_of_changes hn)).2
      cases hnone.symm.trans hn
    | _ => cases hk'
  exact hentered.proceed (start_of task)
    (fun hd => (Bool.or_eq_false_iff.1 ((start_disposed task).symm.trans hd)).1)
    (fun _ => start_marked task huse fun hd sql j hg => hentered.idle hd sql j hg)
    fun hd o ho => start_brings hd ho

theorem resume (k : Flagged [] w) (tidy : Tidy w) (hc : Closed w.state) {p : Phase}
    {answer : (p.call c).Answer} (hf : w.frames[i]? = some ⟨t, task, p, some answer⟩) :
    Flagged [] ((w.returned i t (p.call c)).proceed t task true
      (p.resume c t answer w.state)) := by
  have hmem := List.mem_of_getElem? hf
  have hk : p.kind = task.kind := tidy.kinds _ hmem
  have hreturned : Flagged [task] (w.returned i t (p.call c)) := by
    refine ⟨fun n st hg ha hn => k.resting n st hg (by simp) fun f hfm => ?_,
      fun f hfm => k.working f (List.mem_of_mem_eraseIdx hfm), k.idle⟩
    rcases mem_returned hf hfm with rfl | hfm
    · exact ha task List.mem_cons_self
    · exact hn f hfm
  have hd := resume_disposed (c := c) (t := t) (s := w.state) p answer
  refine hreturned.proceed (hk ▸ resume_of p answer) (fun hd' => hd ▸ hd') (fun hcond => ?_)
    fun hd' o ho => resume_brings hc (hd ▸ hd') hk ho
  have hmarks := k.working _ hmem (hcond.imp (fun hd' => hd ▸ hd') id)
  refine resume_marked p answer (fun k' hk' => hmarks _ ?_) fun j hj => hmarks _ ?_
  · exact List.mem_append_left _ (Option.mem_toList.2 (Option.mem_map_of_mem _ hk'))
  · exact List.mem_append_right _ (List.mem_map_of_mem hj)

/-- **Every step keeps flags and marks right.** -/
theorem step (k : Flagged [] w) (x : Exclusive w) (hdistinct : w.Distinct) (tidy : Tidy w)
    (hs : Sources w) (hc : Closed w.state) (hb : w.state.disposed = false → w.Booked)
    (h : w.step l = some w') (hok : Shared w l w') : Flagged [] w' := by
  cases World.step_cases h with
  | @start t a task ht => exact k.start ht
  | act hf => exact k.acted x hdistinct tidy hs hb hf
  | resume hf hn => exact k.resume tidy hc hf
  | drift e =>
    have hshared : ∀ k, w.Covers k → World.Covers { w with engine := e } k :=
      fun k hk => hk.shared (hok e rfl)
    exact ⟨fun n st hg ha hn => hshared _ (k.resting n st hg ha hn),
      fun f hf hcond k' hk' => hshared _ (k.working f hf hcond k' hk'),
      fun hd sql j hg => hshared _ (k.idle hd sql j hg)⟩

end Flagged

section Runs

variable {ls : List (Label recording)}

theorem run_flagged (run : Run (phases c) recording .initial Shared ls w) : Flagged [] w := by
  induction run with
  | nil => exact .initial
  | snoc run hs hok ih =>
    have fresh := run_mintsFresh run
    exact ih.step (run_exclusive run) (run_distinct fresh) (run_tidy run) (run_sources run)
      (run_drains run).closed (booked_of_undisposed fresh) hs hok

/-- **The flags of a statement that no action changes say no less than what the engine has.** -/
theorem flags_cover (run : Run (phases c) recording .initial Shared ls w) {n : Nat}
    {st : Statement} (hg : w.statements.get? n = some st)
    (hn : ∀ f ∈ w.frames, ∀ e, f.task.changes ≠ some (n, e)) : w.Covers st.mark :=
  (run_flagged run).resting n st hg (by simp) hn

/-- A statement of which the books are right is live in the engine unless it is being finalized. -/
theorem mine_of_booked (run : Run (phases c) recording .initial Shared ls w)
    (hl : h ∈ live w.history) (hn : h ∉ ending w.grips) : w.Mine h := by
  refine (run_mirror run).alive h hl fun f hf hfin => hn ?_
  obtain ⟨g, hg, he⟩ := finalize_grip hfin.1
  exact List.mem_filterMap.2 ⟨g, mem_grips.2 ⟨f, hf, .inl hg⟩, he⟩

/-- A statement is live, not under way and without parameters. -/
def World.Pristine {M : Machine} (w : World M recording) (h : StmtHandle) : Prop :=
  ∃ live, w.recorder.statements.get? h = some live ∧ live.steps = 0 ∧ live.bindings = ∅

theorem pristine_proceed : (w.proceed t task own m).Pristine h ↔ w.Pristine h := by
  simp only [World.Pristine, proceed_recorder]

theorem pristine_of_covers (hk : w.Covers (.blank h)) (hm : w.Mine h) : w.Pristine h := by
  obtain ⟨db, -, hh⟩ := hm
  obtain ⟨live, hg, -⟩ := Option.map_eq_some_iff.1 hh
  exact ⟨live, hg, hk.steps live hg rfl, hk.bindings live hg rfl⟩

/-- An idle statement is pristine. -/
theorem pristine_of_idle (run : Run (phases c) recording .initial Shared ls w)
    (hd : w.state.disposed = false) {sql : String} (hg : w.state.cache.get? sql = some h) :
    w.Pristine h := by
  have b := booked_of_undisposed (run_mintsFresh run) hd
  refine pristine_of_covers ((run_flagged run).idle hd sql h hg) ?_
  have hentry := (w.state.cache.table.mem_entries_iff sql h).2 hg
  have hr : h ∈ w.state.registered := State.mem_registered (b.shelved hd _ hentry)
  refine mine_of_booked run (b.lives.registered h hr).1 fun hending => ?_
  have hvalue : h ∈ w.state.cache.table.values := List.mem_map_of_mem (f := Prod.snd) hentry
  have hnodup := (b.balanced hd).nodup_iff.1 w.state.statements.table.distinct
  rcases Books.mem_ending hending with ⟨text, hf⟩ | hdrain | hlate
  · have howned : (h, text) ∈ owned w.users w.grips :=
      List.mem_append_right _ (List.mem_filterMap.2 ⟨_, hf, rfl⟩)
    exact (List.nodup_append.1 hnodup).2.2 h (List.mem_map_of_mem (f := Prod.fst) howned) h
      (List.mem_append_right _ hvalue) rfl
  · have hno := (b.unretired hd).2 _ hdrain
    cases hno
  · exact b.late h hlate hr

theorem pristine_of_pending (run : Run (phases c) recording .initial Shared ls w)
    (hd : w.state.disposed = false) {f : Frame (phases c)} (hf : f ∈ w.frames)
    (hp : h ∈ f.pending) : w.Pristine h := by
  have b := booked_of_undisposed (run_mintsFresh run) hd
  have hmarks : Mark.blank h ∈ f.marks := by
    obtain ⟨t, task, p, _ | answer⟩ := f
    · cases hp
    · exact List.mem_append_right _ (List.mem_map_of_mem hp)
  refine pristine_of_covers ((run_flagged run).working f hf (.inl hd) _ hmarks) ?_
  have hgrip := mem_grips.2 ⟨f, hf, .inr (List.mem_map_of_mem (f := Grip.pending) hp)⟩
  have hpending := b.lives.pending h (List.mem_filterMap.2 ⟨_, hgrip, rfl⟩)
  exact mine_of_booked run hpending.1 fun hending => hpending.2.1 (b.lives.ending h hending).2

/-- **A preparation lends pristine statements.** -/
theorem pristine_of_lent (run : Run (phases c) recording .initial Shared ls w)
    (hs : w.step l = some w') {sql : String} {lending : Lending} {o : Outcome} {st : Statement}
    (hends : w.Ends l t (.prepare sql lending) o) (ho : o.statement = some st) :
    w'.Pristine st.handle := by
  cases World.step_cases hs with
  | @start t' a task ht =>
    obtain ⟨rfl, ht', hn⟩ := hends
    cases ht.symm.trans ht'
    obtain ⟨hready, -, h, hg, rfl, -⟩ := start_lends hn ho
    exact pristine_proceed.2 (pristine_of_idle run hready.undisposed hg)
  | @resume i t' task p answer hf hn =>
    obtain ⟨p', answer', hf', hnext⟩ := hends
    cases hf.symm.trans hf'
    have hmem := List.mem_of_getElem? hf
    have hk : p.kind = .prepares := (run_tidy run).kinds _ hmem
    obtain ⟨db, sql, lending, h, -, harr, hh, rfl, -⟩ := resume_lends hk hnext ho
    have hd : w.state.disposed = false := undisposed_of_handle (run_drains run).closed hh
    have hp : w.Pristine h := pristine_of_pending run hd hmem harr
    exact pristine_proceed.2 hp
  | act _ => exact hends.elim
  | drift e => exact hends.elim

end Runs

def World.Rests {M : Machine} {E : Engine} (w : World M E) (n : Nat) : Prop :=
  ∀ f ∈ w.frames, ∀ st u, f.task ≠ .use n st u

/-- **A statement is pristine when it is lent, and while it rests its flags say no less than what
the engine has.** -/
theorem lent_pristine (c : Connection) {ls : List (Label recording)}
    {w : World (programs c) recording} (run : Run (programs c) recording .initial Shared ls w) :
    (∀ l w' t sql lending o st, w.step l = some w' → w.Ends l t (.prepare sql lending) o →
      o.statement = some st → w'.Pristine st.handle) ∧
    ∀ n st, w.statements.get? n = some st → w.Rests n →
      ∀ live, w.recorder.statements.get? st.handle = some live →
        (live.steps ≠ 0 → st.hasStepped = true) ∧
          (live.bindings ≠ ∅ → st.hasBindings = true) := by
  obtain ⟨v, rfl, hv⟩ := run_programs_iff.1 run
  refine ⟨fun l w' t sql lending o st hs hends ho => ?_, fun n st hg hrests live hl => ?_⟩
  · rw [step_realize] at hs
    obtain ⟨v', hs', rfl⟩ := Option.map_eq_some_iff.1 hs
    exact pristine_of_lent hv hs' ((realize_ends v l t _ o).1 hends) ho
  · have k := flags_cover hv hg fun f hf e hc => ?_
    · refine ⟨fun hsteps => ?_, fun hbindings => ?_⟩
      · by_contra hno
        exact hsteps (k.steps live hl (eq_false_of_ne_true hno))
      · by_contra hno
        exact hbindings (k.bindings live hl (eq_false_of_ne_true hno))
    · obtain ⟨st', u, hu⟩ := use_of_changes hc
      exact hrests f.realize (List.mem_map_of_mem hf) st' u hu

/-- In between nothing happens but that the engine is told to refuse to drop parameters. -/
def Refusing {M : Machine} (w : World M recording) (l : Label recording) (_ : World M recording) :
    Prop :=
  ∀ e, l = .drift e → e = w.recorder.fail .clearBindings .busy

instance {M : Machine} (w : World M recording) (l : Label recording) (w' : World M recording) :
    Decidable (Refusing w l w') :=
  letI : ∀ e : recording.State, Decidable (e = w.recorder.fail .clearBindings .busy) :=
    fun e => decEq (α := RecordingEngine) e _
  inferInstanceAs (Decidable (∀ e, l = .drift e → e = w.recorder.fail .clearBindings .busy))

theorem run_of_refusing {M : Machine} {w : World M recording} {ls : List (Label recording)}
    (run : Run M recording .initial Refusing ls w) : Run M recording .initial Shared ls w :=
  run_mono (fun _ _ _ h e he => .inr (h e he ▸ .fail _ _)) run

/-- The engine refuses to drop parameters. A statement is bound and stepped, and a second one is
prepared while the step is in progress. The first is reset but keeps its parameters, the second goes
to the cache. -/
def halfReset : List (Label recording) :=
  let t : ThreadId := ⟨0⟩
  [.drift (RecordingEngine.initial.fail .clearBindings .busy),
    .start t (.open .readWriteCreate), .act 0, .resume 0,
    .start t (.prepare "SELECT 1" .uncached), .act 0, .resume 0,
    .start t (.use 0 (.bind 1 (.integer 7))), .act 0, .resume 0,
    .start t (.use 0 .step), .act 0,
    .start t (.prepare "SELECT 2" .cached), .act 0, .resume 0, .resume 0,
    .start t (.use 0 (.reset true)), .act 0, .resume 0, .act 0, .resume 0, .act 0, .resume 0,
    .start t (.use 1 .release)]

/-- The parameters that are left are marked, and the second statement is lent again as new. -/
theorem halfReset_pristine :
    ∃ w w' : World (programs inMemory) recording, ∃ o st st₀ live,
      Run (programs inMemory) recording .initial Shared halfReset w ∧
      w.step (.start ⟨0⟩ (.prepare "SELECT 2" .cached)) = some w' ∧
      w.Ends (.start ⟨0⟩ (.prepare "SELECT 2" .cached)) ⟨0⟩ (.prepare "SELECT 2" .cached) o ∧
      o.statement = some st ∧ w'.Pristine st.handle ∧
      w.statements.get? 0 = some st₀ ∧ w.Rests 0 ∧
      w.recorder.statements.get? st₀.handle = some live ∧ live.bindings ≠ ∅ ∧
      st₀.hasBindings = true := by
  obtain ⟨w, run, hw⟩ := exists_run (M := programs inMemory) (e := RecordingEngine.initial)
    Refusing halfReset
    (fun w => w.frames.isEmpty &&
      ((w.statements.get? 0).bind fun st => w.recorder.statements.get? st.handle).any
        (·.bindings ≠ ∅) &&
      ((programs inMemory).start ⟨0⟩ (.prepare "SELECT 2" .cached) w.state).next.elim
        (fun _ => false) (·.statement.isSome)) (by decide +kernel)
  simp only [Bool.and_eq_true, List.isEmpty_iff] at hw
  obtain ⟨⟨hframes, hleft⟩, hends⟩ := hw
  obtain ⟨live, hlive, hbindings⟩ := (Option.any_eq_true _ _).1 hleft
  obtain ⟨st₀, hst₀, hlive⟩ := Option.bind_eq_some_iff.1 hlive
  have hbindings : live.bindings ≠ ∅ := by simpa using hbindings
  have hrests : w.Rests 0 := by simp [World.Rests, hframes]
  have shared := run_of_refusing run
  obtain ⟨lent, flags⟩ := lent_pristine inMemory shared
  have hmarked := (flags 0 st₀ hst₀ hrests live hlive).2 hbindings
  cases hn : ((programs inMemory).start ⟨0⟩ (.prepare "SELECT 2" .cached) w.state).next with
  | inl p => simp [hn] at hends
  | inr o =>
    simp only [hn, Sum.elim_inr] at hends
    obtain ⟨st, hst⟩ := Option.isSome_iff_exists.1 hends
    have hstep : w.step (.start ⟨0⟩ (.prepare "SELECT 2" .cached))
        = some (w.start ⟨0⟩ (.prepare "SELECT 2" .cached)) := rfl
    have hended : w.Ends (.start ⟨0⟩ (.prepare "SELECT 2" .cached)) ⟨0⟩
        (.prepare "SELECT 2" .cached) o := ⟨rfl, rfl, hn⟩
    have hpristine := lent _ _ _ _ _ o st hstep hended hst
    exact ⟨w, _, o, st, st₀, live, shared, hstep, hended, hst, hpristine, hst₀, hrests, hlive,
      hbindings, hmarked⟩

end ConfinedDb.Interleaving
