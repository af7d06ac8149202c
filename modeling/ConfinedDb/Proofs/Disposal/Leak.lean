import ConfinedDb.Proofs.Disposal.Kept
/-!
# What a disposal on the owner leaves open

After a disposal on the owner no statement of the connection is live, but a database may be. It
stays open for one of two reasons:

* two opens are under way at the same time, and the database that comes second takes the place of
  the first (`World.Overwrites`);
* a disposal closes the database while a preparation holds a statement of it that is not registered,
  and the engine keeps a database that has live statements (`World.Blocked`).

Otherwise none does: **`nothing_left_iff`**. `left_open` is a run in which one stays open.

The invariant is that all databases that are kept are open, each in one place (`Keeps`), and that
nobody has used a database that an open has not stored (`Idle`). A database that is open and not
kept is lost for good, so a run loses one exactly if some step does (**`tended_step`**).
-/
namespace ConfinedDb.Interleaving

open History
open RecordingEngine (not_minted_next)

/-! ## Steps that lose a database -/

def World.Overwrites {M : Machine} {E : Engine} (w w' : World M E) : Prop :=
  ∃ db db', w.state.handle = some db ∧ w'.state.handle = some db' ∧ db' ≠ db

/-- In this step the engine is asked to close a database of which a preparation holds a
statement. -/
def World.Blocked {M : Machine} (w : World M recording) (l : Label recording) : Prop :=
  ∃ i f db, l = .act i ∧ w.frames[i]? = some f ∧ f.call = .close db ∧
    ∃ f' ∈ w.frames, ∃ h, f'.Holds h ∧ w.recorder.home h = some db

/-! ## Databases that are kept -/

variable {c : Connection} {w w' : World (phases c) recording} {l : Label recording}
  {ls : List (Label recording)} {t : ThreadId} {task : Task} {own : Bool} {m : Move} {i : Nat}
  {p : Phase} {db : DbHandle}

/-- Databases that are kept are open, each in one place. -/
structure Keeps (w : World (phases c) recording) : Prop where
  distinct : w.kept.Nodup
  mine : ∀ db ∈ w.kept, db ∈ databases w.history
  there : ∀ db ∈ w.kept, db ∈ w.recorder.databases

/-- A stretch changes nothing but what is kept. -/
structure Quiet (w w' : World (phases c) recording) : Prop where
  databases : databases w'.history = databases w.history
  recorder : w'.recorder = w.recorder

theorem quiet_start : Quiet w (w.start t task) := ⟨(start_history w t task).1, proceed_recorder⟩

theorem quiet_resume : Quiet w ((w.returned i t (p.call c)).proceed t task own m) :=
  ⟨(proceed_history (w.returned i t (p.call c)) t task own m).1, proceed_recorder⟩

theorem kept_of_closed (hf : w.frames[i]? = some ⟨t, task, p, none⟩) (hm : db ∈ closed (p.call c)) :
    db ∈ w.kept :=
  (kept_perm hf).mem_iff.2 <|
    List.mem_append_left _ (List.mem_append_right _ (List.mem_append_left _ hm))

theorem not_minted_of_minting {e : RecordingEngine} {call : EngineCall}
    (hm : db ∈ databases (minting call (e.answer call).1)) : ¬e.Minted db := by
  rw [((answer_effect e call).opened hm).1]
  exact not_minted_next e

namespace Keeps

theorem initial : Keeps (.initial .initial : World (phases c) recording) where
  distinct := List.nodup_nil
  mine _ h := by cases h
  there _ h := by cases h

theorem subset (k : Keeps w) (q : Quiet w w') (hs : w'.kept ⊆ w.kept) (hd : w'.kept.Nodup) :
    Keeps w' where
  distinct := hd
  mine db hm := q.databases ▸ k.mine db (hs hm)
  there db hm := q.recorder ▸ k.there db (hs hm)

/-- The engine mints a database that is not kept. -/
theorem distinct_minting (k : Keeps w) (hs : Sources w) (call : EngineCall) :
    (databases (minting call (w.recorder.answer call).1) ++ w.kept).Nodup := by
  have hnew : ∀ db ∈ databases (minting call (w.recorder.answer call).1), ¬w.recorder.Minted db :=
    fun db hm => not_minted_of_minting hm
  refine List.nodup_append.2 ⟨?_, k.distinct, fun db hm db' hk he => ?_⟩
  · generalize (w.recorder.answer call).1 = a
    cases call with
    | «open» location flags =>
      obtain ⟨_ | db, rc⟩ := a
      · exact List.nodup_nil
      · exact List.nodup_cons.2 ⟨List.not_mem_nil, List.nodup_nil⟩
    | _ =>
      rw [databases_minting _ (by simp)]
      exact List.nodup_nil
  · exact hnew db hm (he ▸ hs.mine db' (k.mine db' hk))

theorem acted (k : Keeps w) (hs : Sources w) (hf : w.frames[i]? = some ⟨t, task, p, none⟩) :
    Keeps (w.acted i t task p) := by
  have hp : (closed (p.call c) ++ (w.acted i t task p).kept).Perm
    (databases (minting (p.call c) (w.recorder.answer (p.call c)).1) ++ w.kept) := kept_acted hf
  have hnodup := hp.nodup_iff.2 (k.distinct_minting hs (p.call c))
  have hnew : ∀ db ∈ (w.acted i t task p).kept, db ∉ closed (p.call c) ∧
      (db ∈ databases (minting (p.call c) (w.recorder.answer (p.call c)).1) ∨ db ∈ w.kept) := by
    intro db hm
    exact ⟨fun hc => (List.nodup_append.1 hnodup).2.2 db hc db hm rfl,
      List.mem_append.1 (hp.mem_iff.1 (List.mem_append_right _ hm))⟩
  refine ⟨(List.nodup_append.1 hnodup).2.1, fun db hm => ?_, fun db hm => ?_⟩
  · show db ∈ databases (minting (p.call c) (w.recorder.answer (p.call c)).1 ++ w.history)
    rw [databases_append, List.mem_append]
    exact (hnew db hm).2.imp_right (k.mine db)
  · obtain ⟨hclosed, hm⟩ := hnew db hm
    have f := answer_effect w.recorder (p.call c)
    exact (f.mem_databases hclosed).2 (hm.imp_right (k.there db))

/-- **Every step keeps databases open.** -/
theorem step (k : Keeps w) (hs : Sources w) (h : w.step l = some w')
    (hdrift : ∀ e, l = .drift e → Apart (databases w.history) w.recorder e) : Keeps w' := by
  cases World.step_cases h with
  | start ht => exact k.subset quiet_start kept_start.subset (kept_start.nodup_iff.2 k.distinct)
  | act hf => exact k.acted hs hf
  | resume hf hn =>
    rcases kept_resume hf rfl with ⟨-, hp⟩ | ⟨db, db', -, -, hp⟩
    · exact k.subset quiet_resume hp.subset (hp.nodup_iff.2 k.distinct)
    · exact k.subset quiet_resume (fun db hm => hp.subset (List.mem_cons_of_mem _ hm))
        (List.nodup_cons.1 (hp.nodup_iff.2 k.distinct)).2
  | drift e =>
    refine ⟨k.distinct, k.mine, fun db hm => ?_⟩
    exact ((hdrift e rfl).databases db (k.mine db hm)).2 (k.there db hm)

end Keeps

/-! ## Databases that are not in use -/

/-- Nobody has prepared a statement of the database. -/
structure World.Unused (w : World (phases c) recording) (db : DbHandle) : Prop where
  statements : ∀ h, w.recorder.home h ≠ some db
  calls : ∀ f ∈ w.frames, ∀ sql, f.call ≠ .prepare db sql

/-- The databases that opens have are not in use. -/
def Idle (w : World (phases c) recording) : Prop :=
  ∀ f ∈ w.frames, f.point.kind = .opens → ∀ db ∈ f.hand, w.Unused db

theorem not_prepare_of_opens {q : Phase} (hk : q.kind = .opens) {sql : String} :
    q.call c ≠ .prepare db sql := by
  intro hc
  cases q with
  | preparing db' sql' lending => cases hk
  | _ => cases hc

namespace Idle

theorem proceed (idle : Idle w)
    (hopens : ∀ q, m.next = .inl q → q.kind = .opens → ∀ db ∈ q.hand c, w.Unused db)
    (hcalls : ∀ q, m.next = .inl q → ∀ db sql, q.call c = .prepare db sql →
      ∀ f ∈ w.frames, f.point.kind = .opens → db ∉ f.hand) :
    Idle (w.proceed t task own m) := by
  have hadd : ∀ db, w.Unused db →
      (∀ q, m.next = .inl q → ∀ sql, q.call c ≠ .prepare db sql) →
        (w.proceed t task own m).Unused db := by
    intro db hu hne
    refine ⟨fun h => ?_, forall_proceed hu.calls hne⟩
    rw [proceed_recorder]
    exact hu.statements h
  refine forall_proceed (fun f hf ho db hm => ?_) fun q hn ho db hm => ?_
  · exact hadd db (idle f hf ho db hm) fun q hn sql hc => hcalls q hn db sql hc f hf ho hm
  · refine hadd db (hopens q hn ho db hm) fun q' hn' sql => ?_
    cases hn.symm.trans hn'
    exact not_prepare_of_opens ho

theorem unused_acted (hf : w.frames[i]? = some ⟨t, task, p, none⟩) (hu : w.Unused db) :
    (w.acted i t task p).Unused db := by
  have f := answer_effect w.recorder (p.call c)
  refine ⟨fun h hh => ?_, forall_acted hf hu.calls id⟩
  rcases f.home_before hh with ⟨hh, -⟩ | harr
  · exact hu.statements h hh
  · obtain ⟨-, -, db', sql, hc, hh'⟩ := f.compiled harr
    have hdb : db' = db := Option.some.inj (hh'.symm.trans hh)
    exact hu.calls _ (List.mem_of_getElem? hf) sql (hdb ▸ hc)

/-- A database that the engine opens is not in use. -/
theorem unused_minted (hs : Sources w)
    (hm : db ∈ databases (minting (p.call c) (w.recorder.answer (p.call c)).1)) : w.Unused db := by
  have hnot := not_minted_of_minting hm
  exact ⟨fun h hh => hnot (hs.sound.statements h db hh).2,
    fun f hf sql hc => hnot (hs.mine db (hs.preparing f hf db sql hc))⟩

theorem acted (idle : Idle w) (hs : Sources w) (hf : w.frames[i]? = some ⟨t, task, p, none⟩) :
    Idle (w.acted i t task p) := by
  intro f hm ho db hdb
  refine unused_acted hf ?_
  rcases List.mem_or_eq_of_mem_set hm with hm | rfl
  · exact idle f hm ho db hdb
  · rcases List.mem_append.1 hdb with hdb | hdb
    · exact unused_minted hs hdb
    · exact idle _ (List.mem_of_getElem? hf) ho db (List.mem_append_right _ hdb)

/-- **Every step keeps the databases of opens out of use.** -/
theorem step (idle : Idle w) (k : Keeps w) (hs : Sources w) (h : w.step l = some w')
    (hdrift : ∀ e, l = .drift e → Apart (databases w.history) w.recorder e) : Idle w' := by
  cases World.step_cases h with
  | @start t a task ht =>
    have idle' : Idle (w.entered t task) := by
      intro f hf ho db hm
      exact ⟨(idle f hf ho db hm).statements, (idle f hf ho db hm).calls⟩
    refine idle'.proceed (fun q hq hk db hm => ?_) fun q hq db sql hc f hf ho hm => ?_
    · have hopen := start_kind hq
      cases task with
      | «open» mode =>
        obtain ⟨flags, claimed, rfl⟩ := open_next hq
        cases hm
      | use n st u => cases u <;> cases hopen.symm.trans hk
      | _ => cases hopen.symm.trans hk
    · have hh := start_prepares hq hc
      refine (List.nodup_append.1 k.distinct).2.2 db (by simp [hh]) db ?_ rfl
      exact List.mem_flatMap.2 ⟨f, hf, hm⟩
  | act hf => exact idle.acted hs hf
  | @resume i t task p answer hf hn =>
    have hless : ∀ db, w.Unused db → (w.returned i t (p.call c)).Unused db := by
      intro db hu
      exact ⟨hu.statements, fun f hm => hu.calls f (List.mem_of_mem_eraseIdx hm)⟩
    have idle' : Idle (w.returned i t (p.call c)) := by
      intro f hm ho db hdb
      exact hless db (idle f (List.mem_of_mem_eraseIdx hm) ho db hdb)
    refine idle'.proceed (fun q hq hk db hm => hless db ?_)
      fun q hq db sql hc => absurd hc (resume_prepares hq)
    have hk : p.kind = .opens := (resume_kind hq).symm.trans hk
    exact idle _ (List.mem_of_getElem? hf) hk db (open_hand hk hq hm)
  | drift e =>
    refine fun f hf ho db hm => ⟨fun h hh => ?_, (idle f hf ho db hm).calls⟩
    have hmine : db ∈ databases w.history :=
      k.mine db (List.mem_append_right _ (List.mem_flatMap.2 ⟨f, hf, hm⟩))
    exact (idle f hf ho db hm).statements h (((hdrift e rfl).home h db hmine).1 hh)

end Idle

/-! ## Databases that are lost -/

/-- All open databases of the connection are kept. -/
def Tended (w : World (phases c) recording) : Prop :=
  ∀ db ∈ databases w.history, db ∈ w.recorder.databases → db ∈ w.kept

theorem tended_congr (q : Quiet w w') (hp : w'.kept.Perm w.kept) : Tended w' ↔ Tended w := by
  simp only [Tended, q.databases, q.recorder, hp.mem_iff]

/-- A close is blocked exactly if a statement of the database is live. -/
theorem blocked_iff (k : Keeps w) (idle : Idle w) (cover : Cover w) (d : Drains w)
    (hf : w.frames[i]? = some ⟨t, task, p, none⟩) (hc : p.call c = .close db) :
    w.Blocked (.act i) ↔ ∃ h, w.recorder.home h = some db := by
  have hmem := List.mem_of_getElem? hf
  constructor
  · rintro ⟨j, f, db', hl, hf', hc', f', -, h, -, hh⟩
    cases hl
    cases hf.symm.trans hf'
    cases hc.symm.trans hc'
    exact ⟨h, hh⟩
  · rintro ⟨h, hh⟩
    refine ⟨i, _, db, rfl, hf, hc, ?_⟩
    have hclosed : db ∈ closed (p.call c) := by
      rw [hc]
      exact List.mem_singleton_self db
    have hmine := k.mine db (kept_of_closed hf hclosed)
    rcases cover h ⟨db, hmine, hh⟩ with hr | ⟨f', hf', hholds⟩
    · have hnot : p.kind ≠ .opens := fun ho =>
        (idle _ hmem ho db (List.mem_append_left _ hclosed)).statements h hh
      have hpaced : p.Paced w.state := d.paced _ hmem
      cases p with
      | closing db' =>
        have hnone : w.state.registered = [] := hpaced
        simp [hnone] at hr
      | openCleanup flags rc db' message claimed => exact absurd rfl hnot
      | openLate db' => exact absurd rfl hnot
      | _ => cases hc
    · exact ⟨f', hf', h, hholds, hh⟩

theorem tended_acted (hs : Sources w) (hf : w.frames[i]? = some ⟨t, task, p, none⟩)
    (hc : ∀ db, p.call c ≠ .close db) : Tended (w.acted i t task p) ↔ Tended w := by
  have hp : (closed (p.call c) ++ (w.acted i t task p).kept).Perm
    (databases (minting (p.call c) (w.recorder.answer (p.call c)).1) ++ w.kept) := kept_acted hf
  have hnone : closed (p.call c) = [] := by
    cases hcall : p.call c with
    | close db => exact absurd hcall (hc db)
    | _ => rfl
  rw [hnone, List.nil_append] at hp
  have hkept := fun db => hp.mem_iff (a := db)
  simp only [List.mem_append] at hkept
  have hthere : ∀ db, db ∈ (w.recorder.answer (p.call c)).2.databases ↔
      db ∈ databases (minting (p.call c) (w.recorder.answer (p.call c)).1) ∨
        db ∈ w.recorder.databases := by
    intro db
    exact (answer_effect w.recorder (p.call c)).mem_databases (hnone ▸ List.not_mem_nil)
  have hmine : ∀ db, db ∈ databases (w.acted i t task p).history ↔
      db ∈ databases (minting (p.call c) (w.recorder.answer (p.call c)).1) ∨
        db ∈ databases w.history := by
    intro db
    rw [← List.mem_append, ← databases_append]
    exact Iff.rfl
  constructor
  · intro ht db hm hl
    refine ((hkept db).1 (ht db ((hmine db).2 (.inr hm)) ((hthere db).2 (.inr hl)))).resolve_left ?_
    exact fun hnew => not_minted_of_minting hnew (hs.mine db hm)
  · intro ht db hm hl
    rcases (hmine db).1 hm with hnew | hm
    · exact (hkept db).2 (.inl hnew)
    · exact (hkept db).2 (((hthere db).1 hl).imp_right (ht db hm))

theorem tended_closed (k : Keeps w) (healthy : w.recorder.Healthy)
    (hf : w.frames[i]? = some ⟨t, task, p, none⟩) (hc : p.call c = .close db) :
    Tended (w.acted i t task p) ↔ Tended w ∧ ¬∃ h, w.recorder.home h = some db := by
  have hp : (closed (p.call c) ++ (w.acted i t task p).kept).Perm
    (databases (minting (p.call c) (w.recorder.answer (p.call c)).1) ++ w.kept) := kept_acted hf
  have hnone : databases (minting (p.call c) (w.recorder.answer (p.call c)).1) = [] :=
    databases_minting _ (by simp [hc])
  have hclosed : closed (p.call c) = [db] := by rw [hc, closed]
  rw [hnone, hclosed] at hp
  have hdb : db ∈ w.kept := hp.subset List.mem_cons_self
  have hlost : db ∉ (w.acted i t task p).kept :=
    (List.nodup_cons.1 (hp.nodup_iff.2 k.distinct)).1
  have hmine : databases (w.acted i t task p).history = databases w.history := by
    refine (databases_append _ w.history).trans ?_
    exact congrArg (· ++ databases w.history) hnone
  have hthere : (w.acted i t task p).recorder.databases
      = (w.recorder.answer (.close db)).2.databases := by rw [← hc]; rfl
  rcases healthy.close db with ⟨hs, hsame⟩ | ⟨hs, hless⟩
  · refine iff_of_false (fun ht => hlost (ht db ?_ ?_)) fun h => h.2 hs
    · exact hmine ▸ k.mine db hdb
    · rw [hthere, hsame]
      exact k.there db hdb
  · have hnot : ¬∃ h, w.recorder.home h = some db := fun ⟨h, hh⟩ => hs h hh
    rw [and_iff_left hnot]
    constructor
    · intro ht db' hm hl
      by_cases he : db' = db
      · exact he ▸ hdb
      · refine hp.subset (List.mem_cons_of_mem _ (ht db' (hmine ▸ hm) ?_))
        rw [hthere, hless]
        exact List.mem_filter.2 ⟨hl, by simpa using he⟩
    · intro ht db' hm hl
      rw [hthere, hless] at hl
      obtain ⟨hl, hne⟩ := List.mem_filter.1 hl
      have hk := hp.symm.subset (ht db' (hmine ▸ hm) hl)
      exact (List.mem_cons.1 hk).resolve_left (by simpa using hne)

/-- **A step loses a database exactly if another one takes its place or its close is blocked.** -/
theorem tended_step (hs : Sources w) (k : Keeps w) (idle : Idle w) (cover : Cover w)
    (d : Drains w) (healthy : w.recorder.Healthy) (h : w.step l = some w')
    (hdrift : ∀ e, l = .drift e → Apart (databases w.history) w.recorder e) :
    Tended w' ↔ Tended w ∧ ¬w.Overwrites w' ∧ ¬w.Blocked l := by
  have hsame : w'.state.handle = w.state.handle ∨ w.state.handle = none → ¬w.Overwrites w' := by
    rintro hh ⟨db, db', old, new, hne⟩
    rcases hh with hh | hh
    · exact hne (Option.some.inj (new.symm.trans (hh.trans old)))
    · cases hh.symm.trans old
  have hidle : (∀ i, l ≠ .act i) → ¬w.Blocked l := fun hl ⟨i, _, _, he, _⟩ => hl i he
  cases World.step_cases h with
  | @start t a task ht =>
    have hno : ¬w.Overwrites (w.start t task) := by
      rintro ⟨db, db', old, new, hne⟩
      have hst : (w.start t task).state = (phaseStart c t w.state task).state := proceed_state ..
      rw [hst] at new
      exact hne (Option.some.inj ((start_handle new).symm.trans old))
    rw [tended_congr quiet_start kept_start]
    exact (and_iff_left ⟨hno, hidle (by simp)⟩).symm
  | @act i t task p hf =>
    have hno := hsame (.inl rfl)
    by_cases hc : ∃ db, p.call c = .close db
    · obtain ⟨db, hc⟩ := hc
      rw [tended_closed k healthy hf hc, blocked_iff k idle cover d hf hc, and_iff_right hno]
    · have hblocked : ¬w.Blocked (.act i) := by
        rintro ⟨j, f, db, hl, hf', hc', -⟩
        cases hl
        cases hf.symm.trans hf'
        exact hc ⟨db, hc'⟩
      rw [tended_acted hs hf fun db hdb => hc ⟨db, hdb⟩]
      exact (and_iff_left ⟨hno, hblocked⟩).symm
  | @resume i t task p answer hf hn =>
    have hblocked : ¬w.Blocked (.resume i) := hidle (by simp)
    rcases kept_resume hf rfl with ⟨hh, hp⟩ | ⟨db, db', old, new, hp⟩
    · exact (tended_congr quiet_resume hp).trans (and_iff_left ⟨hsame hh, hblocked⟩).symm
    · have hdb : db ∈ w.kept := hp.subset List.mem_cons_self
      have hlost := (List.nodup_cons.1 (hp.nodup_iff.2 k.distinct)).1
      have q : Quiet w ((w.returned i t (p.call c)).proceed t task true
        (p.resume c t answer w.state)) := quiet_resume
      refine iff_of_false (fun ht => hlost (ht db ?_ ?_)) fun h => h.2.1 ⟨db, db', old, new, ?_⟩
      · exact q.databases ▸ k.mine db hdb
      · exact q.recorder ▸ k.there db hdb
      · rintro rfl
        exact hlost (List.mem_append_left _ (by simp [new]))
  | drift e =>
    have ha := hdrift e rfl
    have hiff : Tended ({ w with engine := e } : World (phases c) recording) ↔ Tended w :=
      forall₂_congr fun db hm => imp_congr_left (ha.databases db hm)
    rw [hiff]
    exact (and_iff_left ⟨hsame (.inl rfl), hidle (by simp)⟩).symm

/-! ## Runs -/

/-- The disposal is the owner's, and no database is lost in this step. -/
def Tending {M : Machine} (w : World M recording) (l : Label recording) (w' : World M recording) :
    Prop :=
  OwnDisposal w l w' ∧ ¬w.Overwrites w' ∧ ¬w.Blocked l

theorem run_healthy (run : Run (phases c) recording .initial OwnDisposal ls w) :
    w.recorder.Healthy := by
  induction run with
  | nil => exact RecordingEngine.healthy_initial
  | @snoc ls w w' l run hstep hok ih =>
    cases World.step_cases hstep with
    | start ht => exact (proceed_recorder (w := w.entered _ _)).symm ▸ ih
    | act hf => exact ih.answer _
    | resume hf hn => exact (proceed_recorder (w := w.returned _ _ _)).symm ▸ ih
    | drift e => exact (hok.1 e rfl).healthy ih

theorem run_keeps (run : Run (phases c) recording .initial OwnDisposal ls w) :
    Keeps w ∧ Idle w := by
  induction run with
  | nil => exact ⟨.initial, fun _ h => by cases h⟩
  | snoc run hstep hok ih =>
    have hs := run_sources (run_shared run)
    have hdrift := hok.shared.apart hs
    exact ⟨ih.1.step hs hstep hdrift, ih.2.step ih.1 hs hstep hdrift⟩

/-- A run loses a database exactly if a step does. -/
theorem tended_iff (run : Run (phases c) recording .initial OwnDisposal ls w) :
    Tended w ↔ Run (phases c) recording .initial Tending ls w := by
  have step : ∀ {ls : List (Label recording)} {w w' : World (phases c) recording}
      {l : Label recording}, Run (phases c) recording .initial OwnDisposal ls w →
      w.step l = some w' → OwnDisposal w l w' →
      (Tended w' ↔ Tended w ∧ ¬w.Overwrites w' ∧ ¬w.Blocked l) := by
    intro ls w w' l run hstep hok
    have hs := run_sources (run_shared run)
    exact tended_step hs (run_keeps run).1 (run_keeps run).2 (cover_of_owned run) (run_drains run)
      (run_healthy run) hstep (hok.shared.apart hs)
  constructor
  · intro ht
    induction run with
    | nil => exact .nil
    | snoc run hstep hok ih =>
      obtain ⟨ht, hno⟩ := (step run hstep hok).1 ht
      exact (ih ht).snoc hstep ⟨hok, hno⟩
  · intro ht
    induction ht with
    | nil => exact fun db hm => by cases hm
    | @snoc ls w w' l ht hstep hok ih =>
      have run := run_mono (fun _ _ _ h => h.1) ht
      exact (step run hstep hok.1).2 ⟨ih run, hok.2⟩

/-- With nothing under way, a disposed connection keeps no database. -/
theorem tended_iff_closed {ok : World (phases c) recording → Label recording →
    World (phases c) recording → Prop} (run : Run (phases c) recording .initial ok ls w)
    (ended : w.frames = []) (disposed : w.state.disposed = true) :
    Tended w ↔ ∀ db ∈ databases w.history, db ∉ w.recorder.databases := by
  have hkept : w.kept = [] := by simp [World.kept, ended, (run_drains run).closed disposed]
  simp [Tended, hkept]

theorem realize_holds (f : Frame (phases c)) (h : StmtHandle) : f.realize.Holds h ↔ f.Holds h := by
  obtain ⟨t, task, p, answer⟩ := f
  cases answer <;> exact Iff.rfl

theorem realize_blocked (w : World (phases c) recording) (l : Label recording) :
    w.realize.Blocked l ↔ w.Blocked l := by
  constructor
  · rintro ⟨i, _, db, rfl, hf, hc, _, hf', h, hh, hhome⟩
    rw [World.realize_frames, List.getElem?_map] at hf
    obtain ⟨f, hg, rfl⟩ := Option.map_eq_some_iff.1 hf
    obtain ⟨f', hg', rfl⟩ := List.mem_map.1 hf'
    exact ⟨i, f, db, rfl, hg, hc, f', hg', h, (realize_holds f' h).1 hh, hhome⟩
  · rintro ⟨i, f, db, rfl, hf, hc, f', hf', h, hh, hhome⟩
    refine ⟨i, f.realize, db, rfl, ?_, hc, f'.realize, List.mem_map_of_mem hf', h,
      (realize_holds f' h).2 hh, hhome⟩
    rw [World.realize_frames, List.getElem?_map, hf]
    rfl

theorem realize_tending (w : World (phases c) recording) (l : Label recording)
    (w' : World (phases c) recording) : Tending w.realize l w'.realize ↔ Tending w l w' :=
  and_congr Iff.rfl (and_congr Iff.rfl (not_congr (realize_blocked w l)))

/-- **A disposal on the owner leaves no statement, and it leaves no database exactly in the runs in
which no step loses one.** -/
theorem nothing_left_iff {w : World (programs c) recording}
    (run : Run (programs c) recording .initial OwnDisposal ls w) (ended : w.frames = [])
    (disposed : w.state.disposed = true) :
    (∀ h, ¬w.Mine h) ∧
      ((∀ db ∈ databases w.history, db ∉ w.recorder.databases) ↔
        Run (programs c) recording .initial Tending ls w) := by
  refine ⟨?_, fun hnone => ?_, fun ht => ?_⟩
  · obtain ⟨v, rfl, hv⟩ := run_programs_iff.1 run
    exact not_mine_of_disposed hv (by simpa using ended) disposed
  · obtain ⟨v, rfl, hv⟩ := run_programs_iff.1 run
    have ht := (tended_iff_closed hv (by simpa using ended) disposed).2 hnone
    exact (run_programs_congr realize_tending).2 ⟨v, rfl, (tended_iff hv).1 ht⟩
  · obtain ⟨v, rfl, hv⟩ := (run_programs_congr realize_tending).1 ht
    have ht := (tended_iff (run_mono (fun _ _ _ h => h.1) hv)).2 hv
    exact (tended_iff_closed hv (by simpa using ended) disposed).1 ht

/-! ## A database that is left open -/

/-- A thread prepares a statement. After the engine has compiled it and before the call returns, the
thread disposes the connection. -/
def disposedInPrepare : List (Label recording) :=
  let t : ThreadId := ⟨0⟩
  [.start t (.open .readWriteCreate), .act 0, .resume 0,
    .start t (.prepare "SELECT 1" .uncached), .act 0,
    .start t .dispose, .act 0, .resume 0, .act 0, .resume 0,
    .resume 0, .act 0, .resume 0]

/-- Nobody else uses the engine, and the disposal that takes effect is the owner's. -/
def OwnUnshared {M : Machine} (w : World M recording) (l : Label recording)
    (w' : World M recording) : Prop :=
  Unshared w l w' ∧ ∀ t a, l = .start t a → w.state.disposed = false → w'.state.disposed = true →
    w.state.owner = some t

instance {M : Machine} (w : World M recording) (l : Label recording) (w' : World M recording) :
    Decidable (OwnUnshared w l w') := inferInstanceAs (Decidable (_ ∧ ∀ t a, l = .start t a → _))

theorem run_ownDisposal {M : Machine} {w : World M recording} {ls : List (Label recording)}
    (run : Run M recording .initial OwnUnshared ls w) :
    Run M recording .initial OwnDisposal ls w :=
  run_mono (fun _ _ _ h => ⟨fun e he => (h.1 e he).elim, h.2⟩) run

/-- The database stays open. -/
theorem left_open :
    ∃ w, Run (programs inMemory) recording .initial OwnDisposal disposedInPrepare w ∧
      w.frames = [] ∧ w.state.disposed = true ∧
      ∃ db ∈ databases w.history, db ∈ w.recorder.databases := by
  obtain ⟨w, run, hw⟩ := exists_run (M := programs inMemory) (e := RecordingEngine.initial)
    OwnUnshared disposedInPrepare
    (fun w => w.frames.isEmpty ∧ w.state.disposed = true ∧
      ∃ db ∈ databases w.history, db ∈ RecordingEngine.databases w.engine) (by decide +kernel)
  simp only [decide_eq_true_eq, List.isEmpty_iff] at hw
  exact ⟨w, run_ownDisposal run, hw⟩

/-- Its close is blocked. -/
theorem disposedInPrepare_not_tending :
    ∃ w, Run (programs inMemory) recording .initial OwnDisposal disposedInPrepare w ∧
      ¬Run (programs inMemory) recording .initial Tending disposedInPrepare w := by
  obtain ⟨w, run, hw⟩ := exists_run (M := programs inMemory) (e := RecordingEngine.initial)
    OwnUnshared disposedInPrepare
    (fun w => w.frames.isEmpty ∧ w.state.disposed = true ∧
      ∃ db ∈ databases w.history, db ∈ RecordingEngine.databases w.engine) (by decide +kernel)
  simp only [decide_eq_true_eq, List.isEmpty_iff] at hw
  obtain ⟨hf, hd, db, hm, hopen⟩ := hw
  have owned := run_ownDisposal run
  exact ⟨w, owned, fun ht => ((nothing_left_iff owned hf hd).2.2 ht) db hm hopen⟩

end ConfinedDb.Interleaving
