import ConfinedDb.Proofs.Recording.Sources
import ConfinedDb.Proofs.Spent.Undisposed
/-!
# The live statements of a connection

Which statements of a connection are live in the recording engine (`World.Mine`). A statement is
live from the moment the engine compiles it to the moment the engine finalizes it, and these are
not the moments when the connection learns of it. What lies in between is with the actions under
way: an action holds a statement (`Frame.Holds`) that was prepared and is not registered, and it
is finished with one (`Frame.Finished`) that the engine has finalized and that is still
registered. `Mirror` and `Cover` say so, and every step keeps them (**`Mirror.step`**,
**`Cover.step`**), but for a disposal that drops statements which it has not finalized.

For `Mirror` it matters that the engine never mints a handle again that an action is finished with.
That is `Known`: all handles that are registered or named in a finalization have been minted.
-/
namespace ConfinedDb.Interleaving

open History
open RecordingEngine (minted_next not_minted_next)

/-! ## Actions under way -/

def Task.isPreparation : Task → Bool
  | .prepare .. => true
  | _ => false

/-- The engine has finalized the statement, and the call has not returned. -/
def Frame.Finished {M : Machine} (f : Frame M) (h : StmtHandle) : Prop :=
  f.call = .finalize h ∧ f.answer.isSome = true

def Frame.compiledWell {M : Machine} (f : Frame M) : Bool :=
  f.answer.all (Interleaving.compiledWell f.call)

/-- A preparation has the statement, which is live and not registered. -/
def Frame.Holds {M : Machine} (f : Frame M) (h : StmtHandle) : Prop :=
  f.task.isPreparation = true ∧ (h ∈ f.pending ∨ f.call = .finalize h ∧ f.answer = none)

/-- The statement is live, and of the connection. -/
def World.Mine {M : Machine} (w : World M recording) (h : StmtHandle) : Prop :=
  ∃ db ∈ databases w.history, w.recorder.home h = some db

variable {c : Connection} {w w' : World (phases c) recording} {t : ThreadId} {task : Task}
  {own : Bool} {m : Move} {i : Nat}

theorem mintsFresh_of_sources (hs : Sources w) {l : Label recording} (h : w.step l = some w') :
    MintsFresh w l w' := by
  intro db k hk
  cases World.step_cases h with
  | @start t a task ht =>
    have hl := (start_history w t task).2
    rw [hk] at hl
    exact absurd (congrArg List.length hl) (by simp [live])
  | @act i t task p hf =>
    have hl : arriving (p.call c) (w.recorder.answer (p.call c)).1 ++ live w.history
        = [k] ++ live w.history := (live_minting _ _ _).symm.trans (congrArg live hk)
    have harr : k ∈ arriving (p.call c) (w.recorder.answer (p.call c)).1 :=
      List.append_cancel_right hl ▸ List.mem_singleton_self k
    have f := answer_effect w.recorder (p.call c)
    have hnext : k = w.recorder.nextHandle := (f.compiled harr).1
    exact fun hlive => not_minted_next w.recorder (hnext ▸ hs.live k hlive)
  | @resume i t task p answer hf hn =>
    have hl := (proceed_history (w.returned i t (p.call c)) t task true
      (p.resume c t answer w.state)).2
    have hle : (live (.returned t (p.call c) :: w.history)).length ≤ (live w.history).length := by
      generalize p.call c = call
      cases call with
      | finalize k => exact List.length_filter_le _ _
      | _ => exact Nat.le_refl _
    have hlen := congrArg List.length ((congrArg live hk).symm.trans hl)
    simp only [live, List.length_cons] at hlen
    exact absurd hle (by simp only [World.returned] at hlen; omega)
  | drift e => exact absurd (congrArg List.length hk) (by simp)

/-! ## Handles that are known -/

/-- The handles that a connection may finalize have been minted. -/
structure Known (w : World (phases c) recording) : Prop where
  registered : ∀ h ∈ w.state.registered, w.recorder.Minted h
  finalizes : ∀ f ∈ w.frames, ∀ h, f.call = .finalize h → w.recorder.Minted h
  pending : ∀ f ∈ w.frames, ∀ h ∈ f.pending, w.recorder.Minted h

theorem finalize_grip {p : Phase} {h : StmtHandle} (hc : p.call c = .finalize h) :
    ∃ g, p.grip? = some g ∧ g.ending? = some h := by
  cases p with
  | prepareLate k sql => cases hc; exact ⟨_, rfl, rfl⟩
  | finalizing k sql => cases hc; exact ⟨_, rfl, rfl⟩
  | draining k sql rounds db => cases hc; exact ⟨_, rfl, rfl⟩
  | _ => cases hc

namespace Known

theorem of_booked (hs : Sources w) (b : w.Booked) : Known w where
  registered h hm := hs.live h (b.lives.registered h hm).1
  finalizes f hm h hc := by
    obtain ⟨g, hg, he⟩ := finalize_grip hc
    have hin : g ∈ w.grips := mem_grips.2 ⟨f, hm, .inl hg⟩
    exact hs.live h (b.lives.ending h (List.mem_filterMap.2 ⟨g, hin, he⟩)).1
  pending f hm h hp := by
    have hin : Grip.pending h ∈ w.grips :=
      mem_grips.2 ⟨f, hm, .inr (List.mem_map_of_mem (f := Grip.pending) hp)⟩
    exact hs.live h (b.lives.pending h (List.mem_filterMap.2 ⟨_, hin, rfl⟩)).1

theorem proceed (k : Known w) (hd : Shut w.state m.state)
    (hq : ∀ q, m.next = .inl q → ∀ h, q.call c = .finalize h → w.recorder.Minted h) :
    Known (w.proceed t task own m) := by
  have hr : (w.proceed t task own m).recorder = w.recorder := proceed_recorder
  refine ⟨fun h hm => ?_, ?_, ?_⟩ <;> rw [hr]
  · have hstate : (w.proceed t task own m).state = m.state := proceed_state ..
    exact k.registered h (hd.registered (hstate ▸ hm))
  · exact forall_proceed k.finalizes hq
  · refine forall_proceed k.pending fun q _ h hp => ?_
    cases hp

theorem acted (k : Known w) {p : Phase} (hf : w.frames[i]? = some ⟨t, task, p, none⟩) :
    Known (w.acted i t task p) := by
  have f := answer_effect w.recorder (p.call c)
  have hmono : ∀ {h : StmtHandle}, w.recorder.Minted h → (w.acted i t task p).recorder.Minted h :=
    fun hm => hm.mono f.minted_le
  exact {
    registered := fun h hm => hmono (k.registered h hm)
    finalizes := forall_acted hf (fun f hm h hc => hmono (k.finalizes f hm h hc)) id
    pending := forall_acted hf (fun f hm h hp => hmono (k.pending f hm h hp))
      fun _ h hp => (f.compiled hp).2.1 }

theorem step (k : Known w) (hc : Closed w.state)
    (hb : w.state.disposed = false → w.Booked) {l : Label recording} (h : w.step l = some w')
    (hdrift : ∀ e, l = .drift e → Apart (databases w.history) w.recorder e)
    (hd' : w'.state.disposed = true) : Known w' := by
  cases World.step_cases h with
  | @start t a task ht =>
    have hd' : (phaseStart c t w.state task).state.disposed = true :=
      (congrArg State.disposed (proceed_state ..)).symm.trans hd'
    have ke : Known (w.entered t task) := ⟨k.registered, k.finalizes, k.pending⟩
    refine ke.proceed (start_shut hc hd') fun q hq h hcall => ?_
    have hnames := start_names hq (congrArg EngineCall.statement? hcall)
    generalize hkind : task.kind = kind at hnames
    cases hnames with
    | use handle undisposed =>
      have b := hb undisposed
      have hm := b.mem_registered undisposed
        (List.mem_append_left _ (mem_users_of_start ht (.inl hkind)))
      exact handle ▸ k.registered _ hm
    | release handle there => exact k.registered h there
    | drain undisposed there => exact k.registered h there
  | act hf => exact k.acted hf
  | @resume i t task p answer hf hn =>
    have hmem := List.mem_of_getElem? hf
    have hd' : (p.resume c t answer w.state).state.disposed = true :=
      (congrArg State.disposed (proceed_state ..)).symm.trans hd'
    have hd : w.state.disposed = true := (resume_disposed p answer).symm.trans hd'
    have ke : Known (w.returned i t (p.call c)) :=
      ⟨k.registered, fun f hm => k.finalizes f (List.mem_of_mem_eraseIdx hm),
        fun f hm => k.pending f (List.mem_of_mem_eraseIdx hm)⟩
    refine ke.proceed (resume_shut hc hd') fun q hq j hcall => ?_
    have hnames := resume_names hq (congrArg EngineCall.statement? hcall)
    cases hnames with
    | reset => cases hcall
    | clear => cases hcall
    | finalize held there =>
      refine k.registered j ?_
      rw [← w.state.contains_iff]
      simpa [State.abandoned, hd] using there
    | late kind arrives => exact k.pending _ hmem j arrives
    | drain there => exact k.registered j (w.state.forget_subset _ _ there)
  | drift e =>
    have hle := (hdrift e rfl).minted
    exact ⟨fun h hm => (k.registered h hm).mono hle,
      fun f hm h hc => (k.finalizes f hm h hc).mono hle,
      fun f hm h hp => (k.pending f hm h hp).mono hle⟩

end Known

/-! ## The mirror -/

/-- What the history says of the statements is what the engine has, but for calls that have not
returned. -/
structure Mirror (w : World (phases c) recording) : Prop where
  alive : ∀ h ∈ live w.history, (∀ f ∈ w.frames, ¬f.Finished h) → w.Mine h
  done : ∀ f ∈ w.frames, ∀ h, f.Finished h → ¬w.Mine h
  compiled : ∀ f ∈ w.frames, f.compiledWell = true

/-- What is live is registered, or a preparation holds it. -/
def Cover (w : World (phases c) recording) : Prop :=
  ∀ h, w.Mine h → h ∈ w.state.registered ∨ ∃ f ∈ w.frames, f.Holds h

theorem mine_proceed {h : StmtHandle} : (w.proceed t task own m).Mine h ↔ w.Mine h := by
  have hd := (proceed_history w t task own m).1
  simp only [World.Mine, hd, proceed_recorder]

theorem mine_entered {h : StmtHandle} : (w.entered t task).Mine h ↔ w.Mine h := by
  have hd := (inert_append (inert_opening task t w.state) w.history).1
  simp only [World.Mine, World.entered, hd]
  exact Iff.rfl

theorem mine_drift {e : RecordingEngine} (ha : Apart (databases w.history) w.recorder e)
    {h : StmtHandle} : (({ w with engine := e } : World (phases c) recording)).Mine h ↔ w.Mine h :=
  exists_congr fun db => and_congr_right fun hm => ha.home h db hm

/-- What the engine does makes no statement live but the one that it compiles. -/
theorem mine_acted (hs : Sources w) {p : Phase} (hf : w.frames[i]? = some ⟨t, task, p, none⟩)
    {h : StmtHandle} (hm : (w.acted i t task p).Mine h) :
    (w.Mine h ∧ p.call c ≠ .finalize h) ∨
      h = w.recorder.nextHandle ∧ h ∈ arriving (p.call c) (w.recorder.answer (p.call c)).1 ∧
        p.kind = .prepares := by
  obtain ⟨db, hdb, hhome⟩ := hm
  have f := answer_effect w.recorder (p.call c)
  rcases f.home_before hhome with ⟨hh, hc⟩ | harr
  · refine .inl ⟨⟨db, ?_, hh⟩, hc⟩
    rcases List.mem_append.1 (databases_append _ w.history ▸ hdb) with hnew | hdb
    · have hminted := (hs.sound.statements h db hh).2
      exact absurd ((f.opened hnew).1 ▸ hminted) (not_minted_next w.recorder)
    · exact hdb
  · obtain ⟨hnext, -, db, sql, hc, -⟩ := f.compiled harr
    refine .inr ⟨hnext, harr, ?_⟩
    cases p <;> first | rfl | cases hc

/-- Nor does it end a statement but the one that it finalizes. -/
theorem mine_of_acted {p : Phase} {h : StmtHandle} (hm : w.Mine h)
    (hn : w.recorder.Minted h) (hc : p.call c ≠ .finalize h) : (w.acted i t task p).Mine h := by
  obtain ⟨db, hdb, hhome⟩ := hm
  exact ⟨db, databases_append _ w.history ▸ List.mem_append_right _ hdb,
    (answer_effect w.recorder (p.call c)).home_after hhome hn hc⟩

namespace Mirror

theorem initial : Mirror (.initial .initial : World (phases c) recording) :=
  ⟨fun _ h => by (cases h), fun _ h => by (cases h), fun _ h => by (cases h)⟩

theorem proceed (r : Mirror w) : Mirror (w.proceed t task own m) := by
  have hl := (proceed_history w t task own m).2
  refine ⟨fun h hm hf => mine_proceed.2 (r.alive h (hl ▸ hm) fun f hfm => ?_), ?_, ?_⟩
  · exact hf f (mem_proceed.2 (.inl hfm))
  · refine forall_proceed (fun f hm h hf => ?_) fun q _ h hf => ?_
    · rw [mine_proceed]
      exact r.done f hm h hf
    · cases hf.2
  · exact forall_proceed r.compiled fun q _ => rfl

theorem returned (r : Mirror w) {p : Phase} {answer : (p.call c).Answer}
    (hf : w.frames[i]? = some ⟨t, task, p, some answer⟩) : Mirror (w.returned i t (p.call c)) := by
  refine ⟨fun h hm hno => ?_, fun f hm h hfin => r.done f (List.mem_of_mem_eraseIdx hm) h hfin,
    fun f hm => r.compiled f (List.mem_of_mem_eraseIdx hm)⟩
  have hm : h ∈ live (.returned t (p.call c) :: w.history) := hm
  have hlive : h ∈ live w.history ∧ p.call c ≠ .finalize h := by
    generalize p.call c = call at hm
    cases call with
    | finalize k =>
      obtain ⟨hm, hne⟩ := List.mem_filter.1 hm
      exact ⟨hm, by simpa using fun he : k = h => (by simpa using hne : h ≠ k) he.symm⟩
    | _ => exact ⟨hm, by simp⟩
  refine r.alive h hlive.1 fun f hfm hfin => ?_
  rcases mem_returned hf hfm with rfl | hfm
  · exact hlive.2 hfin.1
  · exact hno f hfm hfin

theorem acted (r : Mirror w) (hs : Sources w) (k : Known w) {p : Phase}
    (hf : w.frames[i]? = some ⟨t, task, p, none⟩) : Mirror (w.acted i t task p) := by
  have f := answer_effect w.recorder (p.call c)
  refine ⟨fun h hm hno => ?_, fun f' hm h hfin hmine => ?_,
    forall_acted hf r.compiled fun _ => f.compiledWell⟩
  · have hlive : live (w.acted i t task p).history
        = arriving (p.call c) (w.recorder.answer (p.call c)).1 ++ live w.history :=
      live_minting _ _ _
    rw [hlive] at hm
    rcases List.mem_append.1 hm with harr | hm
    · obtain ⟨-, -, db, sql, hc, hh⟩ := f.compiled harr
      have hdb := hs.preparing _ (List.mem_of_getElem? hf) db sql hc
      exact ⟨db, databases_append _ w.history ▸ List.mem_append_right _ hdb, hh⟩
    · have hc : p.call c ≠ .finalize h := fun hc => hno _ (acted_mem hf) ⟨hc, rfl⟩
      refine mine_of_acted (r.alive h hm fun f hfm hfin => ?_) (hs.live h hm) hc
      rcases mem_acted hf hfm with rfl | hfm
      · cases hfin.2
      · exact hno f hfm hfin
  · have hnew := mine_acted hs hf hmine
    rcases List.mem_or_eq_of_mem_set hm with hm | rfl
    · rcases hnew with ⟨hmine, -⟩ | ⟨rfl, -⟩
      · exact r.done f' hm h hfin hmine
      · exact not_minted_next w.recorder (k.finalizes f' hm _ hfin.1)
    · rcases hnew with ⟨-, hc⟩ | ⟨-, harr, -⟩
      · exact hc hfin.1
      · obtain ⟨-, -, db, sql, hc, -⟩ := f.compiled harr
        cases hfin.1.symm.trans hc

/-- **Every step keeps the mirror.** -/
theorem step (r : Mirror w) (hs : Sources w) (k : Known w) {l : Label recording}
    (h : w.step l = some w')
    (hdrift : ∀ e, l = .drift e → Apart (databases w.history) w.recorder e) : Mirror w' := by
  cases World.step_cases h with
  | @start t a task ht =>
    have hl := (inert_append (inert_opening task t w.state) w.history).2
    have re : Mirror (w.entered t task) :=
      ⟨fun h hm hno => mine_entered.2 (r.alive h (hl ▸ hm) hno),
        fun f hm h hfin hmine => r.done f hm h hfin (mine_entered.1 hmine), r.compiled⟩
    exact re.proceed
  | act hf => exact r.acted hs k hf
  | resume hf hn => exact (r.returned hf).proceed
  | drift e =>
    have ha := hdrift e rfl
    exact ⟨fun h hm hno => (mine_drift ha).2 (r.alive h hm hno),
      fun f hm h hfin hmine => r.done f hm h hfin ((mine_drift ha).1 hmine), r.compiled⟩

end Mirror

/-! ## The cover -/

theorem isPreparation_of_kind {task : Task} (hk : task.kind = .prepares) :
    task.isPreparation = true := by
  cases task with
  | use n st u => cases u <;> cases hk
  | prepare sql lending => rfl
  | _ => cases hk

/-- A disposal that goes on to close the database in this step has finalized all statements. -/
def World.Drained (w : World (phases c) recording) : Label recording → Prop
  | .start t a => ∀ task, w.task? a = some task →
      ∀ db, (phaseStart c t w.state task).next = .inl (.closing db) → w.state.registered = []
  | .resume i => ∀ t task p answer, w.frames[i]? = some ⟨t, task, p, some answer⟩ →
      ∀ db, ((phases c).resume t p answer w.state).next = .inl (.closing db) →
        ∀ k ∈ w.state.registered, (phases c).call p = .finalize k
  | _ => True

/-- A statement that has arrived is registered, or finalized again. -/
theorem resume_arrives {p : Phase} {answer : (p.call c).Answer} {s : State} {h : StmtHandle}
    (hh : h ∈ arriving (p.call c) answer) (hw : compiledWell (p.call c) answer = true) :
    h ∈ (p.resume c t answer s).state.registered ∨
      ∃ q, (p.resume c t answer s).next = .inl q ∧ q.call c = .finalize h := by
  cases p with
  | preparing db sql lending =>
    obtain ⟨_ | k, rc⟩ := answer
    · cases hh
    · obtain rfl := List.mem_singleton.1 hh
      have hok : rc.isOk = true := hw
      simp only [Phase.resume, if_pos hok, registerChunk]
      split
      · next hs =>
        refine .inl ?_
        show h ∈ (s.register h sql).registered
        rw [State.registered_register h sql hs]
        split
        · next hk => exact hk
        · simp
      · exact .inr ⟨_, rfl, rfl⟩
  | _ => cases hh

namespace Cover

theorem initial : Cover (.initial .initial : World (phases c) recording) := by
  rintro h ⟨db, hdb, -⟩
  cases hdb

theorem proceed (hc : ∀ h, w.Mine h → h ∈ m.state.registered ∨ (∃ f ∈ w.frames, f.Holds h) ∨
      ∃ q, m.next = .inl q ∧ task.isPreparation = true ∧ q.call c = .finalize h) :
    Cover (w.proceed t task own m) := by
  intro h hm
  rw [mine_proceed] at hm
  have hstate : (w.proceed t task own m).state = m.state := proceed_state ..
  rw [hstate]
  rcases hc h hm with hr | ⟨f, hf, hh⟩ | ⟨q, hq, ht, hcall⟩
  · exact .inl hr
  · exact .inr ⟨f, mem_proceed.2 (.inl hf), hh⟩
  · exact .inr ⟨_, mem_proceed.2 (.inr ⟨q, hq, rfl⟩), ht, .inr ⟨hcall, rfl⟩⟩

/-- **Every step keeps what is live covered, unless a disposal drops statements.** -/
theorem step (hc : Cover w) (tidy : Tidy w) (hs : Sources w) (r : Mirror w) {l : Label recording}
    (h : w.step l = some w') (hd : w.Drained l)
    (hdrift : ∀ e, l = .drift e → Apart (databases w.history) w.recorder e) : Cover w' := by
  cases World.step_cases h with
  | @start t a task ht =>
    refine proceed fun h hm => ?_
    rcases hc h (mine_entered.1 hm) with hr | hf
    · exact .inl (start_retains (hd task ht) hr)
    · exact .inr (.inl hf)
  | @act i t task p hf =>
    have hkind : p.kind = task.kind := tidy.kinds _ (List.mem_of_getElem? hf)
    intro h hm
    rcases mine_acted hs hf hm with ⟨hm, hcall⟩ | ⟨-, harr, hk⟩
    · rcases hc h hm with hr | ⟨f, hfm, ht, hh⟩
      · exact .inl hr
      · rcases mem_acted hf hfm with rfl | hfm
        · rcases hh with hp | ⟨hp, -⟩
          · cases hp
          · exact absurd hp hcall
        · exact .inr ⟨f, hfm, ht, hh⟩
    · exact .inr ⟨_, acted_mem hf, isPreparation_of_kind (hkind.symm.trans hk), .inl harr⟩
  | @resume i t task p answer hf hn =>
    have hmem := List.mem_of_getElem? hf
    have hkind : p.kind = task.kind := tidy.kinds _ hmem
    refine proceed fun h hm => ?_
    have hm : w.Mine h := hm
    rcases hc h hm with hr | ⟨f, hfm, ht, hh⟩
    · rcases resume_retains (hd t task p answer hf) hr with hr | hcall
      · exact .inl hr
      · exact absurd hm (r.done _ hmem h ⟨hcall, rfl⟩)
    · rcases mem_returned hf hfm with rfl | hfm
      · rcases hh with hp | ⟨-, hno⟩
        · rcases resume_arrives hp (r.compiled _ hmem) with hr | ⟨q, hq, hcall⟩
          · exact .inl hr
          · exact .inr (.inr ⟨q, hq, ht, hcall⟩)
        · cases hno
      · exact .inr (.inl ⟨f, hfm, ht, hh⟩)
  | drift e =>
    exact fun h hm => hc h ((mine_drift (hdrift e rfl)).1 hm)

end Cover

end ConfinedDb.Interleaving
