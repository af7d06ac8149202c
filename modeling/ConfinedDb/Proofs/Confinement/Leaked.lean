import ConfinedDb.Proofs.Confinement.Alien
import ConfinedDb.Proofs.Confinement.Nesting
import ConfinedDb.Proofs.Disposal.Sole
import ConfinedDb.Proofs.Interleaving.Lend
import ConfinedDb.Proofs.Reuse.Alone
import ConfinedDb.Proofs.Spent.Undisposed
/-!
# Other threads are without effect

As long as a connection is confined to a thread, whatever another thread asks of it is refused and
changes nothing, and a statement that another thread releases is leaked: it stays registered, nobody
gets it again, and a disposal of the owner that nothing overlaps finalizes it once
(**`alien_without_effect`**). This holds in every state, also while native calls are in progress, of
the runs in which no open is nested in another one of its thread; with such opens an owner can be
taken back (`openedWithin_unowned`).

That a leaked statement is registered, not lent and not idle can be read off from the books until
the connection is disposed, and so can that nobody finalizes it (`not_finalized`). After that
statements only go.
-/
namespace ConfinedDb.Interleaving

open History

/-- The engine mints no live handle, and no open starts within another one of its thread. -/
def Flat {M : Machine} {E : Engine} (w : World M E) (l : Label E) (w' : World M E) : Prop :=
  MintsFresh w l w' ∧ w.Unnested l

instance {M : Machine} {E : Engine} (w : World M E) (l : Label E) (w' : World M E) :
    Decidable (Flat w l w') := inferInstanceAs (Decidable (_ ∧ _))

namespace World

variable {M : Machine} {E : Engine}

/-- Nobody has the statement or gets it from the cache, and until the connection is disposed it is
registered and the owner is the thread. -/
structure Strands (w : World M E) (o : ThreadId) (h : StmtHandle) : Prop where
  unlent : ∀ n st, w.statements.get? n = some st → st.handle ≠ h
  busy : ∀ sql, w.state.cache.get? sql ≠ some h
  registered : w.state.disposed = false → h ∈ w.state.registered
  owner : w.state.disposed = false → w.state.owner = some o

/-- A disposal that the thread starts now comes to an end if nothing overlaps it, and then the
statement has been finalized once since the past. -/
def FinalizesOnce (w : World M E) (o : ThreadId) (h : StmtHandle) (past : History) : Prop :=
  ∃ u, w.step (.start o .dispose) = some u ∧ (∃ z, u.Later Unstarted z ∧ z.frames = []) ∧
    ∀ z, u.Later Unstarted z → z.frames = [] → finalizers h z.history = o :: finalizers h past

end World

variable {c : Connection} {E : Engine} {w w' : World (phases c) E} {l : Label E} {o t : ThreadId}
  {h : StmtHandle} {before : List ThreadId}

/-! ## Until the connection is disposed -/

theorem place_of_leaked (b : w.Booked) (hd : w.state.disposed = false)
    (hl : h ∈ leaked w.history) :
    h ∈ w.state.registered ∧ (∀ e ∈ owned w.users w.grips, e.1 ≠ h) ∧
      ∀ sql, w.state.cache.get? sql ≠ some h := by
  have hperm := b.balanced hd
  have hnodup := hperm.nodup_iff.1 w.state.statements.table.distinct
  obtain ⟨-, hrest, hapart⟩ := List.nodup_append.1 hnodup
  refine ⟨hperm.mem_iff.2 (List.mem_append_right _ (List.mem_append_left _ hl)), ?_, ?_⟩
  · intro e he
    exact hapart _ (List.mem_map_of_mem (f := Prod.fst) he) _ (List.mem_append_left _ hl)
  · intro sql hg
    have hidle : h ∈ w.state.cache.table.values :=
      List.mem_map_of_mem (f := Prod.snd) ((w.state.cache.table.mem_entries_iff sql h).2 hg)
    exact (List.nodup_append.1 hrest).2.2 h hl h hidle rfl

/-- **Until the connection is disposed no call that starts names a leaked statement.** -/
theorem leaked_unnamed (tidy : Tidy w) (d : Drains w) (b : w.Booked) (hs : w.step l = some w')
    (hd' : w'.state.disposed = false) (hl : h ∈ leaked w.history) {task : Task}
    {call : EngineCall} (hcalls : w.Calls l t task call) : call.statement? ≠ some h := by
  have hd := undisposed_of_step hs hd'
  obtain ⟨hreg, howned, -⟩ := place_of_leaked b hd hl
  have huser : ∀ e ∈ w.users, e.1 ≠ h := fun e he => howned e (List.mem_append_left _ he)
  intro hc
  cases l with
  | start t' a =>
    obtain ⟨rfl, ht, q, hq, rfl⟩ := hcalls
    have hnames := start_names hq hc
    generalize hkind : task.kind = kind at hnames
    cases hnames with
    | use handle _ => exact huser _ (mem_users_of_start ht (.inl hkind)) handle
    | release handle _ => exact huser _ (mem_users_of_start ht (.inr hkind)) handle
    | drain _ _ =>
      cases World.step_cases hs with
      | start ht' =>
        cases ht.symm.trans ht'
        have hno := not_isDisposal_of_start hd'
        simp [isDisposal_of_kind hkind] at hno
  | resume i =>
    obtain ⟨p, answer, hf, q, hq, rfl⟩ := hcalls
    have hmem := List.mem_of_getElem? hf
    have hheld : ∀ sql, p.grip? = some (.held h sql) → False := by
      intro sql hg
      have hgrip : Grip.held h sql ∈ w.grips := mem_grips.2 ⟨_, hmem, .inl hg⟩
      have hentry : (h, sql) ∈ owned w.users w.grips :=
        List.mem_append_right _ (List.mem_filterMap.2 ⟨_, hgrip, rfl⟩)
      exact howned _ hentry rfl
    cases resume_names hq hc with
    | @reset st st' clear answer handle _ =>
      obtain ⟨n, hn⟩ := inUse_of_kind (tidy.kinds _ hmem).symm
      exact huser _ (mem_users (tidy.inHand _ hmem n st.entry hn)) handle
    | clear => exact hheld _ rfl
    | finalize held _ => exact hheld _ held
    | late _ arrives =>
      have hpending : Grip.pending h ∈ w.grips :=
        mem_grips.2 ⟨_, hmem, .inr (List.mem_map_of_mem (f := Grip.pending) arrives)⟩
      exact (b.lives.pending h (List.mem_filterMap.2 ⟨_, hpending, rfl⟩)).2.2.2 hreg
    | drain _ =>
      have hdisposed := d.effective _ hmem rfl
      simp [hd] at hdisposed
  | act i => exact hcalls
  | drift e => exact hcalls

/-! ## Afterwards -/

theorem leaked_suffix {past past' : History} (hsuffix : past <:+ past') :
    leaked past ⊆ leaked past' := by
  obtain ⟨es, rfl⟩ := hsuffix
  induction es with
  | nil => exact List.Subset.refl _
  | cons e es ih =>
    cases e with
    | leaked k => exact fun h hm => List.mem_cons_of_mem k (ih hm)
    | _ => exact ih

/-- What holds of a leaked statement from then on. -/
structure Stranded (o : ThreadId) (h : StmtHandle) (before : List ThreadId)
    (w : World (phases c) E) : Prop where
  leaked : h ∈ leaked w.history
  unlent : ∀ e ∈ w.users, e.1 ≠ h
  busy : ∀ sql, w.state.cache.get? sql ≠ some h
  owner : w.state.disposed = false → w.state.owner = some o
  finalizers : w.state.disposed = false → finalizers h w.history = before

namespace Stranded

theorem of_leaked (b : w.Booked) (hd : w.state.disposed = false) (hl : h ∈ History.leaked w.history)
    (ho : w.state.owner = some o) : Stranded o h (History.finalizers h w.history) w := by
  obtain ⟨-, howned, hbusy⟩ := place_of_leaked b hd hl
  exact ⟨hl, fun e he => howned e (List.mem_append_left _ he), hbusy, fun _ => ho, fun _ => rfl⟩

/-- **Every step keeps this up.** -/
theorem step (g : Stranded o h before w) (tidy : Tidy w) (d : Drains w) (owned : w.Owned)
    (hbooked : w.state.disposed = false → w.Booked)
    (hbooked' : w'.state.disposed = false → w'.Booked) (hs : w.step l = some w')
    (hr : ¬w.Revokes l) : Stranded o h before w' := by
  have hleaked : h ∈ History.leaked w'.history := leaked_suffix (step_suffix hs) g.leaked
  have hplace : w'.state.disposed = false → _ := fun hd' =>
    place_of_leaked (hbooked' hd') hd' hleaked
  refine ⟨hleaked, fun e he => ?_, fun sql => ?_, fun hd' => ?_, fun hd' => ?_⟩
  · cases hd' : w'.state.disposed with
    | false => exact (hplace hd').2.1 e (List.mem_append_left _ he)
    | true => exact g.unlent e (users_of_disposed tidy d.closed hs hd' he)
  · cases hd' : w'.state.disposed with
    | false => exact (hplace hd').2.2 sql
    | true => exact fun hg => g.busy sql ((step_sheds d.closed hs hd').idle sql h hg)
  · have hd := undisposed_of_step hs hd'
    have hopened : w.state.handle.isSome = true := by
      by_contra hclosed
      have hreg := (place_of_leaked (hbooked hd) hd g.leaked).1
      simp [d.unstocked hd (by simpa using hclosed)] at hreg
    exact (owned.keeps_owner tidy hs hr hopened hd').trans (g.owner hd)
  · have hd := undisposed_of_step hs hd'
    refine (finalizers_step hs fun t task hcalls => ?_).trans (g.finalizers hd)
    exact leaked_unnamed tidy d (hbooked hd) hs hd' g.leaked hcalls rfl

end Stranded

/-- **What was leaked in a run stays stranded.** -/
theorem later_stranded {e : E.State} {ls : List (Label E)} (run : Run (phases c) E e Flat ls w)
    (g : Stranded o h before w) (later : w.Later Flat w') :
    ∃ ls', Run (phases c) E e Flat ls' w' ∧ Stranded o h before w' := by
  refine later.keeps (fun v => ∃ ls, Run (phases c) E e Flat ls v ∧ Stranded o h before v) ?_
    ⟨ls, run, g⟩
  rintro v l v' hs hok ⟨ls, run, g⟩
  have hbooked : ∀ {ls v}, Run (phases c) E e Flat ls v → v.state.disposed = false → v.Booked :=
    fun run => booked_of_undisposed (run_mono (fun _ _ _ hok => hok.1) run)
  obtain ⟨unrevoked, lone⟩ := run_unrevoked (run_mono (fun _ _ _ hok => hok.2) run)
  have owned := run_owned unrevoked
  have hr := unrevoked_of_lone lone owned (run_tidy run) (run_drains run) hs
  have run' := run.snoc hs hok
  exact ⟨_, run', g.step (run_tidy run) (run_drains run) owned (hbooked run) (hbooked run') hs hr⟩

theorem undisposed_of_owner {e : E.State}
    {ok : World (phases c) E → Label E → World (phases c) E → Prop} {ls : List (Label E)}
    (run : Run (phases c) E e ok ls w) (ho : w.state.owner = some o) :
    w.state.disposed = false := by
  by_contra hd
  have hnone := ((run_final run).retired (by simpa using hd)).owner
  cases ho.symm.trans hnone

/-- **A release on another thread than the owner's strands its statement.** -/
theorem stranded_of_release {e : E.State} {ls : List (Label E)}
    (run : Run (phases c) E e Flat ls w) (ho : w.state.owner = some o) (alien : t ≠ o) {n : Nat}
    {st : Statement}
    (hs : w.step (.start t (.use n .release)) = some (w.start t (.use n st .release))) :
    ∃ ls', Run (phases c) E e Flat ls' (w.start t (.use n st .release)) ∧
      Stranded o st.handle (finalizers st.handle w.history) (w.start t (.use n st .release)) := by
  have hleaks := release_alien ho alien n st
  have hflat : Flat w (.start t (.use n .release)) (w.start t (.use n st .release)) := by
    refine ⟨fun db k hk => ?_, fun _ _ he => nomatch he⟩
    rw [hleaks] at hk
    simp at hk
  have run' := run.snoc hs hflat
  have ho' : (w.start t (.use n st .release)).state.owner = some o := by
    rw [hleaks]
    exact ho
  have hd' := undisposed_of_owner run' ho'
  have hl : st.handle ∈ leaked (w.start t (.use n st .release)).history := by
    rw [hleaks]
    exact List.mem_cons_self
  have hlist : finalizers st.handle (w.start t (.use n st .release)).history
      = finalizers st.handle w.history := by
    rw [hleaks]
    rfl
  have b := booked_of_undisposed (run_mono (fun _ _ _ hok => hok.1) run') hd'
  exact ⟨_, run', hlist ▸ .of_leaked b hd' hl ho'⟩

/-! ## The programs -/

theorem realize_flat (w : World (phases c) E) (l : Label E) (w' : World (phases c) E) :
    Flat w.realize l w'.realize ↔ Flat w l w' := by
  have hunnested : w.realize.Unnested l ↔ w.Unnested l := by
    simp [World.Unnested]
  exact and_congr Iff.rfl hunnested

theorem strands_realize {e : E.State} {ls : List (Label E)} (run : Run (phases c) E e Flat ls w)
    (g : Stranded o h before w) : w.realize.Strands o h where
  unlent n _ hg := g.unlent _ (mem_users (n := n) (congrArg (Option.map Statement.entry) hg))
  busy := g.busy
  registered hd := (place_of_leaked (booked_of_undisposed
    (run_mono (fun _ _ _ hok => hok.1) run) hd) hd g.leaked).1
  owner := g.owner

theorem finalizesOnce_realize (d : Drains w) (hd : w.state.disposed = false)
    (ho : w.state.owner = some o) (hreg : h ∈ w.state.registered) (idle : w.frames = [])
    {past : History} (hpast : finalizers h w.history = finalizers h past) :
    w.realize.FinalizesOnce o h past := by
  have hidle : w.realize.frames = [] := by simp [idle]
  refine ⟨w.realize.start o .dispose, rfl, alone_ends hidle o .dispose, fun z later done => ?_⟩
  rw [World.realize_start, later_realize_iff fun _ _ _ => Iff.rfl] at later
  obtain ⟨z', rfl, later⟩ := later
  have hdone : z'.frames = [] := by simpa using done
  exact (sole_finalizes d idle hd ho hreg later hdone).trans (congrArg _ hpast)

/-- **What another thread than the owner asks is refused and changes nothing; a statement that it
releases stays registered, is neither lent nor cached again, and is finalized once by a disposal of
the owner that nothing overlaps.** -/
theorem alien_without_effect {e : E.State} {ls : List (Label E)} {w : World (programs c) E}
    (run : Run (programs c) E e Flat ls w) (owner : w.state.owner = some o) (alien : t ≠ o) :
    (∀ a task, w.task? a = some task → task.isDisposal = false → task.isRelease = false →
      w.step (.start t a) = some w ∧ ∃ out text, w.Ends (.start t a) t task out ∧
        out.result = .error (Error.ofFault
          (if task.unfit c then .misuse text else .confinementViolated text))) ∧
      ∀ n st, w.task? (.use n .release) = some (.use n st .release) →
        ∃ w', w.step (.start t (.use n .release)) = some w' ∧
          w' = { w with
            statements := w.statements.erase n
            history := .reported (.releasedByAlien st.lending st.sql) :: .leaked st.handle
              :: w.history } ∧
          ∀ v, w'.Later Flat v → v.Strands o st.handle ∧
            (v.state.disposed = false → v.frames = [] →
              v.FinalizesOnce o st.handle w.history) := by
  obtain ⟨u, rfl, hu⟩ := (run_programs_congr realize_flat).1 run
  have hd := undisposed_of_owner hu owner
  refine ⟨fun a task htask hdisposal hrelease => ?_, fun n st htask => ?_⟩
  · rw [World.realize_task?] at htask
    obtain ⟨hsame, out, text, hends, hout⟩ := start_alien owner alien hd htask hdisposal hrelease
    refine ⟨?_, out, text, (realize_ends ..).2 hends, hout⟩
    rw [step_realize]
    simp [World.step, htask, hsame]
  · rw [World.realize_task?] at htask
    have hs : u.step (.start t (.use n .release)) = some (u.start t (.use n st .release)) := by
      simp [World.step, htask]
    refine ⟨(u.start t (.use n st .release)).realize, ?_, ?_, fun v later => ?_⟩
    · rw [step_realize, hs]
      rfl
    · rw [release_alien owner alien n st]
      rfl
    · obtain ⟨ls', hu', g⟩ := stranded_of_release hu owner alien hs
      obtain ⟨v, rfl, hlater⟩ := (later_realize_iff realize_flat).1 later
      obtain ⟨ls'', hv, g'⟩ := later_stranded hu' g hlater
      have strands := strands_realize hv g'
      refine ⟨strands, fun hdv idle => ?_⟩
      exact finalizesOnce_realize (run_drains hv) hdv (strands.owner hdv)
        (strands.registered hdv) (by simpa using idle) (g'.finalizers hdv)

/-! ## A statement that another thread releases -/

/-- A thread lends a statement and prepares another one. While that is in progress a second thread
is refused and releases the first statement; then the preparation completes. -/
def releasedMeanwhile : List (Label recording) × List (Label recording) :=
  let t : ThreadId := ⟨0⟩
  ([.start t (.open .readWriteCreate), .act 0, .resume 0,
    .start t (.prepare "SELECT 1" .cached), .act 0, .resume 0,
    .start t (.prepare "SELECT 2" .uncached), .act 0],
  [.resume 0])

/-- The first statement is stranded, and the disposal of the first thread finalizes it. -/
theorem releasedMeanwhile_stranded :
    ∃ w w' v u z, Run (programs inMemory) recording .initial Flat releasedMeanwhile.1 w ∧
      w.frames ≠ [] ∧ w.step (.start ⟨1⟩ (.exec "DELETE FROM t")) = some w ∧
      w.step (.start ⟨1⟩ (.use 0 .release)) = some w' ∧ w'.Later Flat v ∧
      v.Strands ⟨0⟩ ⟨16, by decide⟩ ∧ v.step (.start ⟨0⟩ .dispose) = some u ∧
      u.Later Unstarted z ∧ z.frames = [] ∧ finalizers ⟨16, by decide⟩ z.history = [⟨0⟩] := by
  let st : Statement := .fresh inMemory .cached ⟨16, by decide⟩ "SELECT 1"
  obtain ⟨w, run, hw⟩ := exists_run (M := programs inMemory) (e := RecordingEngine.initial)
    Flat releasedMeanwhile.1
    (fun w => w.state.owner = some ⟨0⟩ ∧ w.frames.isEmpty = false ∧
      w.task? (.use 0 .release) = some (.use 0 st .release) ∧
      finalizers st.handle w.history = [] ∧
      (w.step (.start ⟨1⟩ (.use 0 .release))).any fun w' =>
        (w'.follow Flat releasedMeanwhile.2).any fun v =>
          v.frames.isEmpty ∧ v.state.disposed = false) (by decide +kernel)
  simp only [decide_eq_true_eq, Option.any_eq_true, List.isEmpty_iff] at hw
  obtain ⟨howner, hframes, htask, hnone, w', hw', v, hv, hidle, hd⟩ := hw
  obtain ⟨hrefused, hreleased⟩ :=
    alien_without_effect run howner (t := ⟨1⟩) (by decide)
  obtain ⟨hexec, -⟩ := hrefused (.exec "DELETE FROM t") _ rfl rfl rfl
  obtain ⟨w'', hw'', -, hlater⟩ := hreleased 0 st htask
  cases hw'.symm.trans hw''
  have later := later_follow hv
  obtain ⟨strands, honce⟩ := hlater v later
  obtain ⟨u, hu, ⟨z, hz, hdone⟩, hall⟩ := honce hd hidle
  exact ⟨w, w', v, u, z, run, by simpa using hframes, hexec, hw', later, strands, hu, hz, hdone,
    (hall z hz hdone).trans (congrArg _ hnone)⟩

end ConfinedDb.Interleaving
