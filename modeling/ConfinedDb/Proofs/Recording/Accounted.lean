import ConfinedDb.Proofs.Recording.Mirror
/-!
# All statements are accounted for

While a connection is not disposed and nothing is under way, each registered statement is in the
hands of a user, was leaked or is idle in the cache, and in one of these places only (`Accounted`).
That holds with any engine that mints no live handle. On the recording engine the registered
statements are moreover the ones that are live there. Both are **`statements_accounted`**.

The engine of a run on the recording engine may be used by others and told to fail in between
(`Shared`).
-/
namespace ConfinedDb.Interleaving

open History

/-! ## Runs on a shared engine -/

/-- In between the steps of the connection, others use the engine or tell it to fail. -/
def Shared {M : Machine} (w : World M recording) (l : Label recording) (_ : World M recording) :
    Prop :=
  ∀ e, l = .drift e → Elsewhere (databases w.history) w.recorder e ∨ Told w.recorder e

/-- In between the steps of the connection nothing happens. -/
def Unshared {M : Machine} (_ : World M recording) (l : Label recording) (_ : World M recording) :
    Prop :=
  ∀ e, l = .drift e → False

instance {M : Machine} (w : World M recording) (l : Label recording) (w' : World M recording) :
    Decidable (Unshared w l w') := inferInstanceAs (Decidable (∀ e, l = .drift e → False))

variable {c : Connection} {w w' : World (phases c) recording} {l : Label recording}
  {ls : List (Label recording)}

theorem Shared.apart (h : Shared w l w') (hs : Sources w) :
    ∀ e, l = .drift e → Apart (databases w.history) w.recorder e := by
  intro e he
  rcases h e he with h | h
  · exact h.apart hs.sound hs.mine
  · exact h.apart hs.sound

theorem run_sources (run : Run (phases c) recording .initial Shared ls w) : Sources w := by
  induction run with
  | nil => exact .initial
  | snoc run hstep hok ih => exact ih.step hstep (hok.apart ih)

theorem run_mintsFresh (run : Run (phases c) recording .initial Shared ls w) :
    Run (phases c) recording .initial MintsFresh ls w := by
  induction run with
  | nil => exact .nil
  | snoc run hstep hok ih => exact ih.snoc hstep (mintsFresh_of_sources (run_sources run) hstep)

theorem run_known (run : Run (phases c) recording .initial Shared ls w) : Known w := by
  have of_undisposed : ∀ {ls : List (Label recording)} {w : World (phases c) recording},
      Run (phases c) recording .initial Shared ls w → w.state.disposed = false → Known w := by
    intro ls w run hd
    exact .of_booked (run_sources run) (booked_of_undisposed (run_mintsFresh run) hd)
  induction run with
  | nil => exact of_undisposed .nil rfl
  | @snoc ls w w' l run hstep hok ih =>
    cases hd : w'.state.disposed with
    | false => exact of_undisposed (run.snoc hstep hok) hd
    | true =>
      exact ih.step (run_drains run).closed (booked_of_undisposed (run_mintsFresh run)) hstep
        (hok.apart (run_sources run)) hd

theorem run_mirror (run : Run (phases c) recording .initial Shared ls w) : Mirror w := by
  induction run with
  | nil => exact .initial
  | snoc run hstep hok ih =>
    exact ih.step (run_sources run) (run_known run) hstep (hok.apart (run_sources run))

/-! ## Up to the disposal -/

/-- No step drops statements that leaves the connection undisposed. -/
theorem drained_of_undisposed (d : Drains w) (h : w.step l = some w')
    (hd' : w'.state.disposed = false) : w.Drained l := by
  have hd := undisposed_of_step h hd'
  cases World.step_cases h with
  | @start t a task ht =>
    intro task' ht' db hq
    cases ht.symm.trans ht'
    have htask := isDisposal_of_kind (start_kind hq).symm
    simp [not_isDisposal_of_start hd'] at htask
  | act hf => trivial
  | @resume i t task p answer hf hn =>
    intro t' task' p' answer' hf' db hq
    cases hf.symm.trans hf'
    have hk : Kind.disposes = p.kind := resume_kind hq
    have hs := d.effective _ (List.mem_of_getElem? hf) hk.symm
    simp [hd] at hs
  | drift e => trivial

theorem cover_of_undisposed (run : Run (phases c) recording .initial Shared ls w)
    (hd : w.state.disposed = false) : Cover w := by
  induction run with
  | nil => exact .initial
  | @snoc ls w w' l run hstep hok ih =>
    have hd' := undisposed_of_step hstep hd
    exact (ih hd').step (run_tidy run) (run_sources run) (run_mirror run) hstep
      (drained_of_undisposed (run_drains run) hstep hd) (hok.apart (run_sources run))

/-! ## Nothing under way -/

/-- Each registered statement is in one place, under its text. -/
structure Accounted {M : Machine} {E : Engine} (w : World M E) : Prop where
  places : w.state.registered.Perm
    (w.users.map Prod.fst ++ (leaked w.history ++ w.state.cache.table.values))
  /-- So no handle is in two places or twice in one. -/
  distinct : (w.users.map Prod.fst ++ (leaked w.history ++ w.state.cache.table.values)).Nodup
  users : ∀ e ∈ w.users, w.state.statements.get? e.1 = some e.2
  cache : ∀ e ∈ w.state.cache.table.entries, w.state.statements.get? e.2 = some e.1

theorem accounted_of_booked {E : Engine} {w : World (phases c) E} (b : w.Booked)
    (hd : w.state.disposed = false) (hf : w.frames = []) : Accounted w := by
  have ho : owned w.users w.grips = w.users := by simp [owned, World.grips, hf]
  have hp := b.balanced hd
  have hnamed := b.named hd
  rw [ho] at hp hnamed
  exact ⟨hp, hp.nodup_iff.1 w.state.statements.table.distinct, hnamed, b.shelved hd⟩

/-- With nothing under way, the registered statements are the live ones. -/
theorem registered_iff_mine (run : Run (phases c) recording .initial Shared ls w)
    (hd : w.state.disposed = false) (hf : w.frames = []) (h : StmtHandle) :
    h ∈ w.state.registered ↔ w.Mine h := by
  constructor
  · intro hm
    have b := booked_of_undisposed (run_mintsFresh run) hd
    exact (run_mirror run).alive h (b.lives.registered h hm).1 (by simp [hf])
  · intro hm
    rcases cover_of_undisposed run hd h hm with hr | ⟨f, hin, -⟩
    · exact hr
    · simp [hf] at hin

/-- **While nothing is under way and the connection is not disposed, all statements are accounted
for.** On the recording engine they are the live ones. -/
theorem statements_accounted (c : Connection) :
    (∀ (E : Engine) (e : E.State) (ls : List (Label E)) (w : World (programs c) E),
      Run (programs c) E e MintsFresh ls w → w.frames = [] → w.state.disposed = false →
        Accounted w) ∧
    ∀ (ls : List (Label recording)) (w : World (programs c) recording),
      Run (programs c) recording .initial Shared ls w → w.frames = [] →
        w.state.disposed = false →
          Accounted w ∧ ∀ h, h ∈ w.state.registered ↔ w.Mine h := by
  have accounted : ∀ (E : Engine) (e : E.State) (ls : List (Label E)) (w : World (programs c) E),
      Run (programs c) E e MintsFresh ls w → w.frames = [] → w.state.disposed = false →
        Accounted w := by
    intro E e ls w run hf hd
    obtain ⟨v, rfl, hv⟩ := run_programs_iff.1 run
    have b := booked_of_undisposed hv hd
    have h := accounted_of_booked b hd (by simpa using hf)
    exact ⟨h.places, h.distinct, h.users, h.cache⟩
  refine ⟨accounted, fun ls w run hf hd => ?_⟩
  obtain ⟨v, rfl, hv⟩ := run_programs_iff.1 run
  have hfresh : Run (programs c) recording .initial MintsFresh ls v.realize :=
    run_programs_iff.2 ⟨v, rfl, run_mintsFresh hv⟩
  exact ⟨accounted _ _ _ _ hfresh hf hd, registered_iff_mine hv hd (by simpa using hf)⟩

/-- Three statements are prepared. One stays in use, one goes to the cache, and one is released on
another thread. -/
def threePlaces : List (Label recording) :=
  let t : ThreadId := ⟨0⟩
  [.start t (.open .readWriteCreate), .act 0, .resume 0,
    .start t (.prepare "SELECT 1" .uncached), .act 0, .resume 0,
    .start t (.prepare "SELECT 2" .cached), .act 0, .resume 0,
    .start t (.prepare "SELECT 3" .uncached), .act 0, .resume 0,
    .start t (.use 1 .release), .start ⟨1⟩ (.use 2 .release)]

theorem threePlaces_accounted :
    ∃ w, Run (programs inMemory) recording .initial Shared threePlaces w ∧
      w.state.registered.length = 3 ∧ w.users.length = 1 ∧ w.state.cache.size = 1 ∧
      (leaked w.history).length = 1 ∧ Accounted w ∧ ∀ h, h ∈ w.state.registered ↔ w.Mine h := by
  obtain ⟨w, run, hw⟩ := exists_run (M := programs inMemory) (e := RecordingEngine.initial)
    (fun w l w' => Unshared w l w' ∧ MintsFresh w l w') threePlaces
    (fun w => w.frames.isEmpty ∧ w.state.disposed = false ∧ w.state.registered.length = 3 ∧
      w.users.length = 1 ∧ w.state.cache.size = 1 ∧ (leaked w.history).length = 1)
    (by decide +kernel)
  simp only [decide_eq_true_eq, List.isEmpty_iff] at hw
  obtain ⟨hf, hd, hr, hu, hc, hl⟩ := hw
  have shared : Run (programs inMemory) recording .initial Shared threePlaces w :=
    run_mono (fun _ _ _ h e he => (h.1 e he).elim) run
  have fresh := run_mono (fun _ _ _ h => h.2) run
  have accounted := (statements_accounted inMemory).1 recording .initial threePlaces w fresh hf hd
  obtain ⟨-, hm⟩ := (statements_accounted inMemory).2 threePlaces w shared hf hd
  exact ⟨w, shared, hr, hu, hc, hl, accounted, hm⟩

end ConfinedDb.Interleaving
