import ConfinedDb.Proofs.Disposal.Order
import ConfinedDb.Proofs.Solo.Course
/-!
# What a disposal on the owner asks

A disposal on the thread that owns the connection looks the oldest statement up in every round, has
it finalized whatever the code, and forgets it; then it closes the database. So it asks for one
finalization of each registered statement, in the order of the registry, for the close, and for the
message if the close fails (`drain_asks`, by induction on the rounds). Where actions run one at a
time that order is the one in which the live handles were minted (**`dispose_drains`**), whether
they are lent, idle, or leaked by another thread.
-/
namespace ConfinedDb.Interleaving

open History

variable {c : Connection} {t : ThreadId} {E : Engine} {db : DbHandle} {s : State}

/-- What is asked once no statement is left: the close, and the message if it fails. -/
def closeCalls (db : DbHandle) (rc : ResultCode) : List EngineCall :=
  .close db :: if rc.isOk then [] else [.errorMessage (some db)]

/-- The calls of a drain of these statements. -/
def drainCalls (hs : List StmtHandle) (db : DbHandle) (rc : ResultCode) : List EngineCall :=
  hs.map .finalize ++ closeCalls db rc

theorem settle_asks (e : E.State) (own : Bool) (db : DbHandle) (s : State) :
    ∃ (exchanges : List Exchange) (rc : ResultCode),
      Asks c t E e (settleChunk own db s) exchanges .finished s.forgetAll ∧
      ⟨.close db, rc⟩ ∈ exchanges ∧ exchanges.map Exchange.call = closeCalls db rc := by
  let rc := (E.answer e (.close db)).1
  let e' := (E.answer e (.close db)).2
  by_cases hok : rc.isOk
  · have hresume : (Phase.closing db).resume c t rc s.forgetAll
        = (finish .finished s.forgetAll).after [.closed] := if_pos hok
    have hend : Asks c t E e' ((finish .finished s.forgetAll).after [.closed]) [] .finished
        s.forgetAll := (Asks.ends rfl).after _
    refine ⟨[⟨.close db, rc⟩], rc, .goes (q := .closing db) rfl rfl (hresume.symm ▸ hend),
      List.mem_singleton_self _, ?_⟩
    rw [closeCalls, if_pos hok]
    rfl
  · let answer := (E.answer e' (.errorMessage (some db))).1
    have hresume : (Phase.closing db).resume c t rc s.forgetAll
        = pause (.closeFailed db rc) s.forgetAll := if_neg hok
    have hend : Asks c t E e' (pause (.closeFailed db rc) s.forgetAll)
        [⟨.errorMessage (some db), answer⟩] .finished s.forgetAll :=
      .goes (q := .closeFailed db rc) rfl rfl ((Asks.ends rfl).after _)
    refine ⟨[⟨.close db, rc⟩, ⟨.errorMessage (some db), answer⟩], rc,
      .goes (q := .closing db) rfl rfl (hresume.symm ▸ hend), List.mem_cons_self, ?_⟩
    rw [closeCalls, if_neg hok]
    rfl

/-- A drain does not leave more behind for what it has forgotten. -/
theorem forget_forgetAll (s : State) (h : StmtHandle) (sql : String) :
    (s.forget h sql).forgetAll = s.forgetAll := by
  unfold State.forget
  split <;> rfl

/-- The oldest registered statement is forgotten, and the others stay in their order. -/
theorem registered_forget_first {h : StmtHandle} {sql : String}
    {rest : List (StmtHandle × String)} (hentries : s.statements.toList = (h, sql) :: rest) :
    s.registered = h :: rest.map Prod.fst ∧ (s.forget h sql).registered = rest.map Prod.fst := by
  have hregistered : s.registered = h :: rest.map Prod.fst :=
    congrArg (List.map Prod.fst) hentries
  have hnodup : s.registered.Nodup := s.statements.table.distinct
  rw [hregistered, List.nodup_cons] at hnodup
  refine ⟨hregistered, ?_⟩
  rw [State.registered_forget, hregistered, List.filter_cons_of_neg (by simp)]
  refine List.filter_eq_self.2 fun k hk => ?_
  simpa using fun heq : k = h => hnodup.1 (heq ▸ hk)

/-- **A drain with rounds enough finalizes the registered statements in their order.** -/
theorem drain_asks (rounds : Nat) (hd : s.disposed = true) (hr : s.registered.length ≤ rounds)
    (e : E.State) :
    ∃ (exchanges : List Exchange) (rc : ResultCode),
      Asks c t E e (drainChunk db rounds s) exchanges .finished s.forgetAll ∧
      ⟨.close db, rc⟩ ∈ exchanges ∧
      exchanges.map Exchange.call = drainCalls s.registered db rc := by
  induction rounds generalizing s e with
  | zero =>
    have hnone : s.registered = [] := List.eq_nil_of_length_eq_zero (Nat.le_zero.1 hr)
    rw [hnone]
    exact settle_asks e true db s
  | succ rounds ih =>
    cases hentries : s.statements.toList with
    | nil =>
      have hfirst : s.statements.first? = none := congrArg List.head? hentries
      have hnone : s.registered = [] := congrArg (List.map Prod.fst) hentries
      simp only [drainChunk, hfirst, hnone]
      exact settle_asks e true db s
    | cons entry rest =>
      obtain ⟨h, sql⟩ := entry
      have hfirst : s.statements.first? = some (h, sql) := congrArg List.head? hentries
      obtain ⟨hregistered, hleft⟩ := registered_forget_first hentries
      have hlen : (s.forget h sql).registered.length ≤ rounds := by
        rw [hregistered, List.length_cons] at hr
        rw [hleft]
        omega
      obtain ⟨exchanges, rc, hasks, hmem, hcalls⟩ :=
        ih ((s.forget_disposed h sql).trans hd) hlen (E.answer e (.finalize h)).2
      rw [forget_forgetAll] at hasks
      refine ⟨⟨.finalize h, (E.answer e (.finalize h)).1⟩ :: exchanges, rc, ?_,
        List.mem_cons_of_mem _ hmem, ?_⟩
      · simp only [drainChunk, hfirst]
        exact .goes (q := .draining h sql rounds db) rfl rfl (hasks.after _)
      · rw [List.map_cons, hcalls, hleft, hregistered]
        rfl

theorem carryOut_peek {ω : Type} (next : State → Operation ω) (e : E.State) (s : State) :
    carryOut E (Operation.peek >>= next) e s = carryOut E (next s) e s := rfl

theorem carryOut_finalize {ω : Type} (h : StmtHandle) (sql : String) (next : Operation ω)
    (e : E.State) (s : State) :
    ∃ e', carryOut E (Connection.finalize h sql >>= fun _ => next) e s
      = carryOut E next e' (s.forget h sql) := by
  rw [carryOut_advance, advance_finalize]
  by_cases ha : s.abandoned h
  · rw [if_pos ha, State.forget, if_pos ha]
    exact ⟨e, (carryOut_advance next e s).symm⟩
  · rw [if_neg ha]
    let answered := E.answer e (.finalize h)
    refine ⟨answered.2, ?_⟩
    show carryOut E (Rest.finalized h sql answered.1 >>= fun _ => next) answered.2 s = _
    rw [carryOut_advance, advance_finalized]
    exact (carryOut_advance next answered.2 _).symm

/-- Rounds enough are as good as no limit: a drain with them stops because nothing is left. -/
theorem drain_empties (rounds : Nat) (hr : s.registered.length ≤ rounds) (e : E.State) :
    (carryOut E (Connection.drain rounds) e s).2.2.registered = [] := by
  induction rounds generalizing s e with
  | zero => exact List.eq_nil_of_length_eq_zero (Nat.le_zero.1 hr)
  | succ rounds ih =>
    cases hentries : s.statements.toList with
    | nil =>
      have hfirst : s.statements.first? = none := congrArg List.head? hentries
      rw [Connection.drain, carryOut_peek, hfirst]
      exact congrArg (List.map Prod.fst) hentries
    | cons entry rest =>
      obtain ⟨h, sql⟩ := entry
      have hfirst : s.statements.first? = some (h, sql) := congrArg List.head? hentries
      rw [Connection.drain, carryOut_peek, hfirst]
      obtain ⟨hregistered, hleft⟩ := registered_forget_first hentries
      obtain ⟨e', hfinalize⟩ := carryOut_finalize h sql (Connection.drain rounds) e s
      rw [hregistered, List.length_cons] at hr
      refine (congrArg (fun x => x.2.2.registered) hfinalize).trans (ih ?_ e')
      rw [hleft]
      omega

theorem realize_oneByOne (w : World (phases c) E) (l : Label E) (w' : World (phases c) E) :
    OneByOne w.realize l w'.realize ↔ OneByOne w l w' := by
  constructor
  · rintro ⟨halternating, hfresh, hcandid⟩
    refine ⟨fun t a hl => by simpa using halternating t a hl, hfresh, fun i f hl hf => ?_⟩
    exact hcandid i f.realize hl (by simp [hf])
  · rintro ⟨halternating, hfresh, hcandid⟩
    refine ⟨fun t a hl => by simpa using halternating t a hl, hfresh, fun i f hl hf => ?_⟩
    rw [World.realize_frames, List.getElem?_map, Option.map_eq_some_iff] at hf
    obtain ⟨g, hg, rfl⟩ := hf
    exact hcandid i g hl hg

/-- **On the owner's thread a disposal finalizes every live statement once, in the order in which
they were minted, then closes the database once, and leaves no bookkeeping behind.** -/
theorem dispose_drains {e : E.State} {ls : List (Label E)} {w : World (programs c) E}
    (run : Run (programs c) E e OneByOne ls w) (idle : w.frames = [])
    (opened : w.state.handle = some db) (owner : w.state.owner = some t) (F : Engine)
    (f : F.State) :
    (live w.history).Nodup ∧
    (course F (Connection.drain w.state.statements.size) f w.state.retire).state.statements.first?
      = none ∧
    ∃ rc, ⟨.close db, rc⟩ ∈ (course F (Connection.dispose t) f w.state).exchanges ∧
      (course F (Connection.dispose t) f w.state).calls
        = (live w.history).reverse.map .finalize ++
          .close db :: (if rc.isOk then [] else [.errorMessage (some db)]) ∧
      (course F (Connection.dispose t) f w.state).state = ⟨none, true, none, .empty, .empty⟩ := by
  obtain ⟨v, rfl, hv⟩ := (run_programs_congr realize_oneByOne).1 run
  have hd : v.state.disposed = false := by
    by_contra hd
    have hnone := (run_drains hv).closed (by simpa using hd)
    simp [show v.state.handle = some db from opened] at hnone
  have hframes : v.frames = [] := by simpa using idle
  have hord : v.state.registered = (live v.history).reverse := by
    have hord := (run_inOrder hv).ordered hd
    rwa [hframes, List.flatMap_nil, List.append_nil] at hord
  have hretire : v.state.retire.registered = v.state.registered :=
    congrArg (fun r => r.table.keys) (retire_statements v.state)
  have hsize : v.state.retire.registered.length ≤ v.state.statements.size := by
    rw [hretire]
    exact Nat.le_of_eq (List.length_map ..)
  obtain ⟨exchanges, rc, hasks, hmem, hcalls⟩ :=
    drain_asks v.state.statements.size (retire_disposed v.state) hsize f
  have hstart : phaseStart c t v.state .dispose
      = drainChunk db v.state.statements.size v.state.retire := by
    have hopened : v.state.handle = some db := opened
    have howner : v.state.owner = some t := owner
    simp [phaseStart, disposeChunk, hd, hopened, howner]
  have hcourse : course F ((fun _ => Outcome.finished) <$> Connection.dispose t) f v.state
      = ⟨.finished, exchanges, v.state.retire.forgetAll⟩ :=
    (hstart ▸ hasks : Asks c t F f (phaseStart c t v.state .dispose) _ _ _).course
  rw [course_map] at hcourse
  injection hcourse with _ hexchanges hstate
  refine ⟨?_, ?_, rc, ?_, ?_, ?_⟩
  · refine (List.reverse_perm _).nodup_iff.1 ?_
    rw [World.realize_history, ← hord]
    exact v.state.statements.table.distinct
  · have hempty := drain_empties (E := F.noting) _ hsize (f, [])
    exact congrArg List.head? (List.map_eq_nil_iff.1 hempty)
  · rw [World.realize_state, hexchanges]
    exact hmem
  · rw [World.realize_state, World.realize_history, ← hord, ← hretire, Course.calls, hexchanges]
    exact hcalls
  · rw [World.realize_state, hstate, State.forgetAll, State.retire, if_neg (by simp [hd])]

/-! ## A drain after reuse and releases -/

/-- A thread prepares four statements. It releases the first and lends it again, the second is
finalized, another thread releases the third, and the fourth becomes idle. -/
def mixedReleases : List (Label recording) :=
  let t : ThreadId := ⟨0⟩
  [.start t (.open .readWriteCreate), .act 0, .resume 0,
    .start t (.prepare "SELECT 1" .cached), .act 0, .resume 0,
    .start t (.prepare "SELECT 2" .uncached), .act 0, .resume 0,
    .start t (.prepare "SELECT 3" .cached), .act 0, .resume 0,
    .start t (.prepare "SELECT 4" .cached), .act 0, .resume 0,
    .start t (.use 0 .release), .start t (.use 1 .release), .act 0, .resume 0,
    .start t (.prepare "SELECT 1" .cached), .start ⟨1⟩ (.use 2 .release),
    .start t (.use 3 .release)]

/-- The lent, the leaked and the idle statement are finalized in the order of their preparation. -/
theorem mixedReleases_drains :
    ∃ w, Run (programs inMemory) recording .initial OneByOne mixedReleases w ∧ w.frames = [] ∧
      w.state.handle = some ⟨8, by decide⟩ ∧ w.state.owner = some ⟨0⟩ ∧
      (live w.history).reverse = [⟨16, by decide⟩, ⟨32, by decide⟩, ⟨40, by decide⟩] ∧
      (live w.history).Nodup ∧
      (course recording (Connection.drain w.state.statements.size) w.engine
        w.state.retire).state.statements.first? = none ∧
      ∃ rc, ⟨.close ⟨8, by decide⟩, rc⟩
          ∈ (course recording (Connection.dispose ⟨0⟩) w.engine w.state).exchanges ∧
        (course recording (Connection.dispose ⟨0⟩) w.engine w.state).calls
          = (live w.history).reverse.map .finalize ++
            .close ⟨8, by decide⟩ ::
              (if rc.isOk then [] else [.errorMessage (some ⟨8, by decide⟩)]) ∧
        (course recording (Connection.dispose ⟨0⟩) w.engine w.state).state
          = ⟨none, true, none, .empty, .empty⟩ := by
  obtain ⟨w, run, hw⟩ := exists_run (M := programs inMemory) (e := RecordingEngine.initial)
    OneByOne mixedReleases
    (fun w => w.frames.isEmpty ∧ w.state.handle = some ⟨8, by decide⟩ ∧
      w.state.owner = some ⟨0⟩ ∧
      (live w.history).reverse = [⟨16, by decide⟩, ⟨32, by decide⟩, ⟨40, by decide⟩])
    (by decide +kernel)
  simp only [decide_eq_true_eq, List.isEmpty_iff] at hw
  obtain ⟨idle, opened, owner, hlive⟩ := hw
  exact ⟨w, run, idle, opened, owner, hlive,
    dispose_drains run idle opened owner recording w.engine⟩

end ConfinedDb.Interleaving
