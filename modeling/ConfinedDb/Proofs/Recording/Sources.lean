import ConfinedDb.Proofs.Interleaving.Calls
import ConfinedDb.Proofs.Interleaving.Effect
import ConfinedDb.Proofs.Recording.Effect
/-!
# Where handles come from

A connection on the recording engine, which other connections may use at the same time (`Elsewhere`)
and which may be told to fail (`Told`). Neither touches the databases of the connection and their
statements (`Apart`). Every handle that the connection has got has been minted (`Sources`), so the
engine, which counts upwards, never mints one that is live (**`mintsFresh_of_sources`**).
-/
namespace ConfinedDb.Interleaving

open History
open RecordingEngine (minted_next not_minted_next)

/-! ## The engine on its own -/

structure Sound (e : RecordingEngine) : Prop where
  statements : ∀ h db, e.home h = some db → e.Minted h ∧ e.Minted db
  databases : ∀ db ∈ e.databases, e.Minted db

theorem sound_initial : Sound .initial where
  statements _ _ h := by cases h
  databases _ h := by cases h

/-- What happens to the engine apart from a connection, whose databases are `mine`: it answers
others, or forgets the calls. -/
inductive Elsewhere (mine : List DbHandle) (e : RecordingEngine) : RecordingEngine → Prop
  | answer {call : EngineCall} (database : ∀ db ∈ call.database?, db ∉ mine)
    (statement : ∀ h ∈ call.statement?, ∀ db ∈ e.home h, db ∉ mine) :
    Elsewhere mine e (e.answer call).2
  | clearCalls : Elsewhere mine e e.clearCalls

inductive Told (e : RecordingEngine) : RecordingEngine → Prop
  | fail (p : Primitive) (rc : ResultCode) : Told e (e.fail p rc)
  | withhold (p : Primitive) : Told e (e.withhold p)
  | heal : Told e e.heal

/-- Databases and their statements are left alone. -/
structure Apart (mine : List DbHandle) (e e' : RecordingEngine) : Prop where
  minted : e.minted ≤ e'.minted
  home : ∀ h, ∀ db ∈ mine, e'.home h = some db ↔ e.home h = some db
  databases : ∀ db ∈ mine, db ∈ e'.databases ↔ db ∈ e.databases
  sound : Sound e'

section Engine

variable {e e' : RecordingEngine} {call : EngineCall} {answer : call.Answer}
  {mine : List DbHandle}

theorem Effect.sound (f : Effect e call answer e') (s : Sound e) : Sound e' := by
  have hle := f.minted_le
  have hs : ∀ h db, e.home h = some db → e'.Minted h ∧ e'.Minted db := by
    intro h db hh
    exact ⟨(s.statements h db hh).1.mono hle, (s.statements h db hh).2.mono hle⟩
  have hd : ∀ db ∈ e.databases, e'.Minted db := by
    intro db hm
    exact (s.databases db hm).mono hle
  cases f with
  | quiet home databases => exact ⟨by rwa [home], by rwa [databases]⟩
  | opens home databases minted =>
    refine ⟨by rwa [home], fun db hm => ?_⟩
    rw [databases] at hm
    rcases List.mem_cons.1 hm with rfl | hm
    · exact minted_next minted
    · exact hd db hm
  | prepares _ there home databases minted =>
    refine ⟨fun h db hh => ?_, by rwa [databases]⟩
    rw [home] at hh
    split at hh
    · next hk =>
      cases hh
      exact ⟨hk ▸ minted_next minted, hd _ there⟩
    · exact hs h db hh
  | finalizes home databases =>
    refine ⟨fun h db hh => ?_, by rwa [databases]⟩
    rw [home] at hh
    split at hh
    · cases hh
    · exact hs h db hh
  | closes _ home databases =>
    refine ⟨by rwa [home], fun db hm => ?_⟩
    rw [databases] at hm
    exact hd db (List.mem_filter.1 hm).1

theorem Elsewhere.apart (h : Elsewhere mine e e') (s : Sound e)
    (hmine : ∀ db ∈ mine, e.Minted db) : Apart mine e e' := by
  cases h with
  | clearCalls => exact ⟨Nat.le_refl _, fun _ _ _ => Iff.rfl, fun _ _ => Iff.rfl, ⟨s.1, s.2⟩⟩
  | @answer call database statement =>
    have f := answer_effect e call
    generalize (e.answer call).1 = a, (e.answer call).2 = e' at f
    refine ⟨f.minted_le, fun h db hm => ⟨fun hh => ?_, fun hh => ?_⟩, fun db hm => ?_, f.sound s⟩
    · rcases f.home_before hh with ⟨hh, -⟩ | harr
      · exact hh
      · obtain ⟨-, -, db', sql, rfl, hh'⟩ := f.compiled harr
        have hdb : db' = db := Option.some.inj (hh'.symm.trans hh)
        exact absurd (hdb ▸ hm) (database db' rfl)
    · refine f.home_after hh (s.statements h db hh).1 fun hc => ?_
      subst hc
      exact statement h rfl db hh hm
    · have hopen : db ∉ databases (minting call a) := fun hnew =>
        not_minted_next e ((f.opened hnew).1 ▸ hmine db hm)
      have hclosed : db ∉ closed call := by
        intro hc
        cases call with
        | close db' => exact database db' rfl (List.mem_singleton.1 hc ▸ hm)
        | _ => cases hc
      rw [f.mem_databases hclosed, or_iff_right hopen]

theorem Elsewhere.healthy (h : Elsewhere mine e e') (hh : e.Healthy) : e'.Healthy := by
  cases h with
  | answer => exact hh.answer _
  | clearCalls => exact ⟨hh.failures, hh.withheld⟩

theorem Told.apart (h : Told e e') (s : Sound e) : Apart mine e e' := by
  cases h <;> exact ⟨Nat.le_refl _, fun _ _ _ => Iff.rfl, fun _ _ => Iff.rfl, ⟨s.1, s.2⟩⟩

end Engine

/-! ## The handles of a connection -/

variable {c : Connection} {w w' : World (phases c) recording} {t : ThreadId} {s : State}

def World.recorder {M : Machine} (w : World M recording) : RecordingEngine := w.engine

theorem proceed_recorder {task : Task} {own : Bool} {m : Move} :
    (w.proceed t task own m).recorder = w.recorder :=
  proceed_engine

/-- What has come with the answer to a call. -/
def Frame.brought {M : Machine} (f : Frame M) : History :=
  match f.answer with
  | some answer => minting f.call answer
  | none => []

/-- All handles have been minted, and the databases that a connection deals with are its own. -/
structure Sources (w : World (phases c) recording) : Prop where
  sound : Sound w.recorder
  mine : ∀ db ∈ databases w.history, w.recorder.Minted db
  live : ∀ h ∈ live w.history, w.recorder.Minted h
  handle : ∀ db ∈ w.state.handle, db ∈ databases w.history
  arrived : ∀ f ∈ w.frames, ∀ db ∈ databases f.brought, db ∈ databases w.history
  preparing : ∀ f ∈ w.frames, ∀ db sql, f.call = .prepare db sql → db ∈ databases w.history

theorem start_prepares {task : Task} {q : Phase} (hq : (phaseStart c t s task).next = .inl q)
    {db : DbHandle} {sql : String} (hc : q.call c = .prepare db sql) : s.handle = some db := by
  have hof := start_kind hq
  cases q with
  | preparing db' sql' lending =>
    cases hc
    cases task with
    | prepare sql lending =>
      obtain ⟨-, db, hh, he⟩ := prepare_next hq
      cases he
      exact hh
    | use n st u => cases u <;> cases hof
    | _ => cases hof
  | _ => cases hc

theorem resume_prepares {p q : Phase} {answer : (p.call c).Answer}
    (hq : (p.resume c t answer s).next = .inl q) {db : DbHandle} {sql : String} :
    q.call c ≠ .prepare db sql := by
  intro hc
  have hof := resume_kind hq
  cases q with
  | preparing db' sql' lending =>
    cases p with
    | preparing db sql lending =>
      obtain ⟨h?, rc⟩ := answer
      simp only [Phase.resume] at hq
      split at hq
      · cases h? with
        | none => cases hq
        | some h =>
          simp only [registerChunk] at hq
          split at hq <;> cases hq
      · unfold failChunk at hq
        split at hq <;> cases hq
    | prepareLate h sql => cases hq
    | failing c' db rc operation about onward =>
      cases onward with
      | prepare => cases hq
      | _ => cases hof
    | _ => cases hof
  | _ => cases hc

namespace Sources

theorem initial : Sources (.initial .initial : World (phases c) recording) := by
  refine ⟨sound_initial, ?_, ?_, ?_, ?_, ?_⟩
  · intro db hm
    cases hm
  · intro h hm
    cases hm
  · intro db hm
    cases hm
  · intro f hm
    cases hm
  · intro f hm
    cases hm

theorem proceed (hs : Sources w) {task : Task} {own : Bool} {m : Move}
    (hh : ∀ db ∈ m.state.handle, db ∈ databases w.history)
    (hq : ∀ q, m.next = .inl q → ∀ db sql, q.call c = .prepare db sql → db ∈ databases w.history) :
    Sources (w.proceed t task own m) := by
  obtain ⟨hdbs, hlive⟩ := proceed_history w t task own m
  have hr : (w.proceed t task own m).recorder = w.recorder := proceed_recorder
  refine ⟨hr ▸ hs.sound, ?_, ?_, ?_, ?_, ?_⟩
  · rw [hdbs, hr]
    exact hs.mine
  · rw [hlive, hr]
    exact hs.live
  · have hstate : (w.proceed t task own m).state = m.state := proceed_state ..
    rw [hstate, hdbs]
    exact hh
  · rw [hdbs]
    refine forall_proceed hs.arrived fun q _ db hb => ?_
    cases hb
  · rw [hdbs]
    exact forall_proceed hs.preparing hq

theorem acted (hs : Sources w) {i : Nat} {task : Task} {p : Phase}
    (hf : w.frames[i]? = some ⟨t, task, p, none⟩) : Sources (w.acted i t task p) := by
  have f := answer_effect w.recorder (p.call c)
  have hle := f.minted_le
  have hdbs : databases (w.acted i t task p).history
      = databases (minting (p.call c) (w.recorder.answer (p.call c)).1) ++ databases w.history :=
    databases_append _ _
  have hlive : History.live (w.acted i t task p).history
      = arriving (p.call c) (w.recorder.answer (p.call c)).1 ++ History.live w.history :=
    live_minting _ _ _
  have hsub : databases w.history ⊆ databases (w.acted i t task p).history := by
    rw [hdbs]
    exact List.subset_append_right _ _
  refine ⟨f.sound hs.sound, fun db hm => ?_, fun h hm => ?_, fun db hm => hsub (hs.handle db hm),
    ?_, ?_⟩
  · rw [hdbs] at hm
    rcases List.mem_append.1 hm with hm | hm
    · exact (f.opened hm).2
    · exact (hs.mine db hm).mono hle
  · rw [hlive] at hm
    rcases List.mem_append.1 hm with hm | hm
    · exact (f.compiled hm).2.1
    · exact (hs.live h hm).mono hle
  · refine forall_acted hf (fun f hm db hb => hsub (hs.arrived f hm db hb)) fun _ db hb => ?_
    rw [hdbs]
    exact List.mem_append_left _ hb
  · exact forall_acted hf (fun f hm db sql hc => hsub (hs.preparing f hm db sql hc)) id

/-- **Every step keeps to handles that have been minted.** -/
theorem step (hs : Sources w) {l : Label recording} (h : w.step l = some w')
    (hdrift : ∀ e, l = .drift e → Apart (databases w.history) w.recorder e) : Sources w' := by
  cases World.step_cases h with
  | @start t a task ht =>
    obtain ⟨hd, hl⟩ := inert_append (inert_opening task t w.state) w.history
    have hs' : Sources (w.entered t task) := by
      refine ⟨hs.sound, ?_, ?_, ?_, ?_, ?_⟩
      · exact hd ▸ hs.mine
      · exact hl ▸ hs.live
      · exact hd ▸ hs.handle
      · exact hd ▸ hs.arrived
      · exact hd ▸ hs.preparing
    exact hs'.proceed (fun db hm => hs'.handle db (start_handle hm))
      fun q hq db sql hc => hs'.handle db (start_prepares hq hc)
  | act hf => exact hs.acted hf
  | @resume i t task p answer hf hn =>
    have hmem := List.mem_of_getElem? hf
    have hs' : Sources (w.returned i t (p.call c)) := by
      refine ⟨hs.sound, hs.mine, fun h hm => ?_, hs.handle, fun f hm => ?_, fun f hm => ?_⟩
      · have hsub : h ∈ History.live w.history := by
          have hm : h ∈ History.live (.returned t (p.call c) :: w.history) := hm
          generalize p.call c = call at hm
          cases call with
          | finalize k => exact (List.mem_filter.1 hm).1
          | _ => exact hm
        exact hs.live h hsub
      · exact hs.arrived f (List.mem_of_mem_eraseIdx hm)
      · exact hs.preparing f (List.mem_of_mem_eraseIdx hm)
    refine hs'.proceed (fun db hm => ?_) fun q hq db sql hc => absurd hc (resume_prepares hq)
    rcases resume_handle hm with hm | hm
    · exact hs.handle db hm
    · exact hs.arrived _ hmem db hm
  | drift e =>
    have ha := hdrift e rfl
    exact ⟨ha.sound, fun db hm => (hs.mine db hm).mono ha.minted,
      fun h hm => (hs.live h hm).mono ha.minted, hs.handle, hs.arrived, hs.preparing⟩

end Sources

end ConfinedDb.Interleaving
