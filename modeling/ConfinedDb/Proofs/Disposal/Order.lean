import ConfinedDb.Proofs.Spent.Undisposed
/-!
# The order of the registry

Where no two actions overlap and the engine brings a statement only with a code that reports success
and only under a handle that is not live (`OneByOne`), the registry of a connection that is not
disposed has the live handles in the order in which they were minted, but for one that has not
arrived yet (`InOrder`, **`run_inOrder`**). How often a handle was idle and lent again, and what was
finalized in between, is nowhere in this order: a handle that is registered again keeps its place.

A stretch lets the registry grow by one handle at most if no finalization has returned (`Grows`).
The books say that what is registered is live, so only a handle that arrives can come in.
-/
namespace ConfinedDb

/-- An answer that brings a statement reports success. -/
def EngineCall.Candid : (call : EngineCall) → call.Answer → Prop
  | .prepare .., (some _, rc) => rc.isOk
  | _, _ => True

instance : (call : EngineCall) → (answer : call.Answer) → Decidable (call.Candid answer)
  | .prepare .., (some _, rc) => inferInstanceAs (Decidable (rc.isOk = true))
  | .prepare .., (none, _) | .open .., _ | .close _, _ | .finalize _, _ | .reset _, _
  | .clearBindings _, _ | .exec .., _ | .errorMessage _, _ | .step _, _ | .bind .., _
  | .columnCount _, _ | .columnValue .., _ => .isTrue trivial

namespace Interleaving

open History

/-- In this step no action starts while another one is under way, and the engine brings statements
only with success and under handles that are not live. -/
structure OneByOne {M : Machine} {E : Engine} (w : World M E) (l : Label E) (w' : World M E) :
    Prop where
  alternating : ∀ t a, l = .start t a → w.frames = []
  fresh : MintsFresh w l w'
  candid : ∀ i f, l = .act i → w.frames[i]? = some f →
    f.call.Candid (E.answer w.engine f.call).1

instance {M : Machine} {E : Engine} (w : World M E) (l : Label E) (w' : World M E) :
    Decidable (OneByOne w l w') :=
  decidable_of_iff
    ((∀ t a, l = .start t a → w.frames = []) ∧ MintsFresh w l w' ∧
      ∀ i, l = .act i → ∀ f ∈ w.frames[i]?, f.call.Candid (E.answer w.engine f.call).1)
    ⟨fun ⟨alternating, fresh, candid⟩ => ⟨alternating, fresh, fun i f hl => candid i hl f⟩,
      fun ⟨alternating, fresh, candid⟩ => ⟨alternating, fresh, fun i hl f => candid i f hl⟩⟩

/-! ## Stretches -/

/-- The registry is the same, or one handle has come in last. -/
def Grows (s s' : State) : Prop :=
  s'.registered = s.registered ∨ ∃ h, h ∉ s.registered ∧ s'.registered = s.registered ++ [h]

namespace Grows

variable {s s' : State}

theorem of_statements (h : s'.statements = s.statements) : Grows s s' :=
  .inl (congrArg (fun r => r.table.keys) h)

theorem register (s : State) (h : StmtHandle) (sql : String) : Grows s (s.register h sql) := by
  cases hh : s.handle.isSome with
  | false => exact .inl (congrArg State.registered (if_neg (by simp [hh])))
  | true =>
    have hr := State.registered_register h sql hh
    by_cases hm : h ∈ s.registered
    · exact .inl (hr.trans (if_pos hm))
    · exact .inr ⟨h, hm, hr.trans (if_neg hm)⟩

theorem reuse (s : State) (h : StmtHandle) (sql : String) :
    Grows s ((s.lend sql).register h sql) := by
  have hg := register (s.lend sql) h sql
  rwa [Grows, lend_registered] at hg

/-- If nothing has come in that was not there, the registry is the same. -/
theorem same (h : Grows s s') (hs : s'.registered ⊆ s.registered) :
    s'.registered = s.registered := by
  rcases h with h | ⟨k, hk, h⟩
  · exact h
  · exact absurd (hs (h ▸ List.mem_append_right _ (List.mem_singleton_self k))) hk

end Grows

section Stretches

variable {c : Connection} {t : ThreadId} {s : State}

theorem Change.grows {returned : Option EngineCall} {m : Move} (h : Change returned s m)
    (hn : ∀ k, returned ≠ some (.finalize k)) : Grows s m.state := by
  cases h with
  | same state => exact state ▸ .inl rfl
  | shelves state => exact state ▸ .inl (shelve_registered s _ _)
  | lends state => exact state ▸ .inl (lend_registered s _)
  | registers state => exact state ▸ .register s _ _
  | reuses state => exact state ▸ .reuse s _ _
  | forgets final _ => exact absurd final (hn _)
  | sweeps final _ _ => exact absurd final (hn _)

theorem start_grows {task : Task} (hd : (phaseStart c t s task).state.disposed = false) :
    Grows s (phaseStart c t s task).state := by
  cases start_cases (c := c) (t := t) (s := s) task with
  | opens _ start => rcases start.state_cases with h | h <;> exact .of_statements (by simp [h])
  | disposes _ start => simp [start.disposed] at hd
  | other _ _ change => exact change.grows (by simp)

theorem resume_grows (p : Phase) (answer : (p.call c).Answer)
    (hn : ∀ k, p.call c ≠ .finalize k) : Grows s (p.resume c t answer s).state := by
  by_cases hp : p.kind = .opens
  · have hrest := open_rest (t := t) (s := s) hp answer
    generalize p.resume c t answer s = m at hrest
    cases hrest with
    | waits _ _ _ state => exact state ▸ .inl rfl
    | late _ _ state => exact state ▸ .inl rfl
    | installs _ _ _ state => exact state ▸ .of_statements rfl
    | fails _ _ state =>
      rw [state]
      split
      · exact .of_statements (unclaim_statements s t)
      · exact .inl rfl
  · exact (resume_change hp answer).grows fun k hk => hn k (Option.some.inj hk)

theorem preparing_registered {db : DbHandle} {sql : String} {lending : Lending}
    {answer : (EngineCall.prepare db sql).Answer} (hh : s.handle.isSome = true)
    (hcandid : (EngineCall.prepare db sql).Candid answer)
    (hnew : ∀ h ∈ arriving (.prepare db sql) answer, h ∉ s.registered) :
    ((Phase.preparing db sql lending).resume c t answer s).state.registered
      = s.registered ++ arriving (.prepare db sql) answer := by
  obtain ⟨h?, rc⟩ := answer
  have hnone : ¬rc.isOk = true →
      s.registered = s.registered ++ arriving (.prepare db sql) (h?, rc) := by
    intro hfailed
    cases h? with
    | none => exact (List.append_nil _).symm
    | some h => exact absurd hcandid hfailed
  have hrest := preparing_rest (c := c) (t := t) (s := s) db sql lending h? rc
  generalize (Phase.preparing db sql lending).resume c t (h?, rc) s = m at hrest
  cases hrest with
  | nothing _ _ state =>
    rw [state]
    exact (List.append_nil _).symm
  | @lends h _ _ _ state =>
    rw [state]
    exact (State.registered_register h sql hh).trans
      (if_neg (hnew h (List.mem_singleton_self h)))
  | late _ closed => exact absurd hh closed
  | asks failed _ state | fails failed _ state =>
    rw [state]
    exact hnone failed

end Stretches

/-! ## Worlds -/

variable {c : Connection} {E : Engine} {w w' : World (phases c) E} {l : Label E}

/-- The registry follows the history. -/
structure InOrder (w : World (phases c) E) : Prop where
  single : w.frames.length ≤ 1
  candid : ∀ f ∈ w.frames, ∀ answer, f.answer = some answer → f.call.Candid answer
  served : w.state.disposed = false → ∀ f ∈ w.frames, ∀ db sql lending,
    f.point = .preparing db sql lending → w.state.handle.isSome = true
  ordered : w.state.disposed = false →
    w.state.registered ++ w.frames.flatMap Frame.pending = (live w.history).reverse

namespace InOrder

theorem initial (e : E.State) : InOrder (.initial e : World (phases c) E) where
  single := Nat.zero_le 1
  candid _ hf := by cases hf
  served _ _ hf := by cases hf
  ordered _ := rfl

theorem frames_eq (o : InOrder w) {i : Nat} {f : Frame (phases c)} (hf : w.frames[i]? = some f) :
    i = 0 ∧ w.frames = [f] := by
  obtain ⟨hi, hget⟩ := List.getElem?_eq_some_iff.1 hf
  have hlen := o.single
  obtain rfl : i = 0 := by omega
  obtain ⟨g, hg⟩ := List.length_eq_one_iff.1 (by omega : w.frames.length = 1)
  rw [hg] at hf ⊢
  exact ⟨rfl, congrArg (fun g => [g]) (Option.some.inj hf)⟩

theorem proceed {t : ThreadId} {task : Task} {own : Bool} {m : Move} (hframes : w.frames = [])
    (hserved : ∀ db sql lending, m.next = .inl (.preparing db sql lending) →
      m.state.handle.isSome = true)
    (hordered : m.state.disposed = false → m.state.registered = (live w.history).reverse) :
    InOrder (w.proceed t task own m) := by
  have hlive := (proceed_history w t task own m).2
  have hstate := proceed_state w t task own m
  have hall : ∀ f ∈ (w.proceed t task own m).frames, f.answer = none ∧
      ∀ db sql lending, f.point = .preparing db sql lending → m.state.handle.isSome = true := by
    refine forall_proceed (by simp [hframes]) fun q hq => ⟨rfl, fun db sql lending hp => ?_⟩
    exact hserved db sql lending (hq.trans (congrArg Sum.inl hp))
  refine ⟨?_, fun f hf answer ha => ?_, fun _ f hf => ?_, fun hd => ?_⟩
  · cases hn : m.next with
    | inl q => simp [w.proceed_pause t task own hn, hframes]
    | inr o => simp [w.proceed_end t task own hn, hframes]
  · simp [(hall f hf).1] at ha
  · rw [hstate]
    exact (hall f hf).2
  · have hpending : (w.proceed t task own m).frames.flatMap Frame.pending = [] := by
      refine List.flatMap_eq_nil_iff.2 fun f hf => ?_
      simp [Frame.pending, (hall f hf).1]
    rw [hpending, List.append_nil, hlive, hstate]
    exact hordered (hstate ▸ hd)

/-- What is registered is live, so it was there if it has not just arrived. -/
theorem registered_eq (b : w'.Booked) {s : State} (hg : Grows s w'.state)
    (hl : s.registered = (live w'.history).reverse) : w'.state.registered = s.registered := by
  refine hg.same fun k hk => ?_
  rw [hl, List.mem_reverse]
  exact (b.lives.registered k hk).1

theorem start (o : InOrder w) (hframes : w.frames = []) {t : ThreadId} {task : Task}
    (hb : (w.start t task).state.disposed = false → (w.start t task).Booked) :
    InOrder (w.start t task) := by
  have hstate : (w.start t task).state = (phaseStart c t w.state task).state := proceed_state ..
  have hentered : live (w.entered t task).history = live w.history :=
    (inert_append (inert_opening task t w.state) w.history).2
  have hlive : live (w.start t task).history = live w.history :=
    (start_history w t task).2
  refine proceed hframes (fun db sql lending hn => ?_) fun hd => ?_
  · have hk := start_kind hn
    cases task with
    | prepare sql' lending' =>
      have hready := (prepare_next hn).1
      have hs : SameDatabase w.state (phaseStart c t w.state (.prepare sql' lending')).state :=
        (prepare_change sql' lending').sameDatabase
      exact (congrArg Option.isSome hs.handle).trans hready.opened
    | use n st u => cases u <;> cases hk
    | _ => cases hk
  · have hd : (phaseStart c t w.state task).state.disposed = false := hd
    have hd' : w.state.disposed = false := by
      rw [start_disposed, Bool.or_eq_false_iff] at hd
      exact hd.1
    have hord := o.ordered hd'
    rw [hframes, List.flatMap_nil, List.append_nil] at hord
    have hg : Grows w.state (w.start t task).state := hstate ▸ start_grows hd
    have hreg := registered_eq (hb (hstate ▸ hd)) hg (by rw [hlive, hord])
    rw [hentered, ← hord]
    exact (congrArg State.registered hstate).symm.trans hreg

theorem act (o : InOrder w) {i : Nat} {t : ThreadId} {task : Task} {p : Phase}
    (hf : w.frames[i]? = some ⟨t, task, p, none⟩)
    (hcandid : (p.call c).Candid (E.answer w.engine (p.call c)).1) :
    InOrder (w.acted i t task p) := by
  obtain ⟨rfl, hframes⟩ := o.frames_eq hf
  have hframes' : (w.acted 0 t task p).frames
      = [⟨t, task, p, some (E.answer w.engine (p.call c)).1⟩] := by
    simp only [World.acted, hframes]
    rfl
  refine ⟨by simp [hframes'], ?_, fun hd => forall_acted hf (o.served hd) id, fun hd => ?_⟩
  · intro f hm answer ha
    rw [hframes', List.mem_singleton] at hm
    subst hm
    cases ha
    exact hcandid
  · have hord := o.ordered hd
    have hnone : (⟨t, task, p, none⟩ : Frame (phases c)).pending = [] := rfl
    rw [hframes, List.flatMap_singleton, hnone, List.append_nil] at hord
    rw [hframes', List.flatMap_singleton]
    show w.state.registered ++ arriving (p.call c) (E.answer w.engine (p.call c)).1
      = (live (minting (p.call c) (E.answer w.engine (p.call c)).1 ++ w.history)).reverse
    rcases minting_cases (p.call c) (E.answer w.engine (p.call c)).1 w.history with
      ⟨db, h, hm, ha⟩ | ⟨ha, hm⟩
    · rw [hm, ha, hord]
      exact (List.reverse_cons ..).symm
    · rw [ha, List.append_nil, hm.live, hord]

theorem resume_ordered (o : InOrder w) (d : Drains w) (b : w.Booked) {i : Nat} {t : ThreadId}
    {task : Task} {p : Phase} {answer : (p.call c).Answer}
    (hf : w.frames[i]? = some ⟨t, task, p, some answer⟩) (hd : w.state.disposed = false)
    (hb : ∀ k ∈ (p.resume c t answer w.state).state.registered,
      k ∈ live (.returned t (p.call c) :: w.history)) :
    (p.resume c t answer w.state).state.registered
      = (live (.returned t (p.call c) :: w.history)).reverse := by
  obtain ⟨rfl, hframes⟩ := o.frames_eq hf
  have hmem := List.mem_of_getElem? hf
  have hord := o.ordered hd
  rw [hframes, List.flatMap_singleton] at hord
  have hord : w.state.registered ++ arriving (p.call c) answer = (live w.history).reverse := hord
  have hgrips : w.grips = p.grip?.toList ++ (arriving (p.call c) answer).map Grip.pending := by
    rw [World.grips, hframes, List.flatMap_singleton]
    rfl
  have hplain : arriving (p.call c) answer = [] → (∀ k, p.call c ≠ .finalize k) →
      live (.returned t (p.call c) :: w.history) = live w.history →
      (p.resume c t answer w.state).state.registered
        = (live (.returned t (p.call c) :: w.history)).reverse := by
    intro hnone hn hlive
    rw [hnone, List.append_nil] at hord
    rw [hlive, ← hord]
    refine (resume_grows p answer hn).same fun k hk => ?_
    rw [hord, List.mem_reverse, ← hlive]
    exact hb k hk
  cases p with
  | preparing db sql lending =>
    have hh := o.served hd _ hmem db sql lending rfl
    refine (preparing_registered hh (o.candid _ hmem answer rfl) fun h hm => ?_).trans hord
    have hpending : h ∈ Interleaving.pending w.grips := by
      rw [hgrips]
      exact List.mem_filterMap.2
        ⟨.pending h, List.mem_append_right _ (List.mem_map_of_mem hm), rfl⟩
    exact (b.lives.pending h hpending).2.2.2
  | finalizing h sql =>
    have hord : w.state.registered = (live w.history).reverse := (List.append_nil _).symm.trans hord
    refine (State.registered_forget w.state h sql).trans ?_
    rw [hord, List.filter_reverse]
    rfl
  | draining h sql rounds db =>
    have hs := d.effective _ hmem rfl
    simp [hd] at hs
  | prepareLate h sql =>
    -- the registry would be all that is live, and this handle is live but not registered
    have hm : Grip.late h ∈ w.grips := by
      rw [hgrips]
      exact List.mem_cons_self
    have hlive : h ∈ live w.history :=
      (b.lives.ending h (List.mem_filterMap.2 ⟨_, hm, rfl⟩)).1
    rw [← List.mem_reverse, ← hord] at hlive
    exact absurd ((List.append_nil _).subst hlive) (b.late h hm)
  | _ => exact hplain rfl (by simp [Phase.call]) rfl

/-- **Every step keeps this up.** -/
theorem step (o : InOrder w) (d : Drains w) (b : w.state.disposed = false → w.Booked)
    (b' : w'.state.disposed = false → w'.Booked) (h : w.step l = some w')
    (hone : OneByOne w l w') : InOrder w' := by
  cases World.step_cases h with
  | start ht => exact o.start (hone.alternating _ _ rfl) b'
  | @act i t task p hf => exact o.act hf (hone.candid i _ rfl hf)
  | @resume i t task p answer hf hn =>
    have hstate : ((w.returned i t (p.call c)).proceed t task true
        (p.resume c t answer w.state)).state = (p.resume c t answer w.state).state :=
      proceed_state ..
    have hframes : (w.returned i t (p.call c)).frames = [] := by
      obtain ⟨rfl, hframes⟩ := o.frames_eq hf
      simp [World.returned, hframes]
    refine proceed hframes (fun db sql lending hq => ?_) fun hd' => ?_
    · cases resume_begins hq
    · have hd : w.state.disposed = false := (resume_disposed p answer).symm.trans hd'
      refine o.resume_ordered d (b hd) hf hd fun k hk => ?_
      have hlive := ((b' (hstate ▸ hd')).lives.registered k (hstate ▸ hk)).1
      rwa [(proceed_history ..).2] at hlive
  | drift e => exact ⟨o.single, o.candid, o.served, o.ordered⟩

end InOrder

/-- **The registry of an undisposed connection follows the history.** -/
theorem run_inOrder {e : E.State} {ls : List (Label E)}
    (run : Run (phases c) E e OneByOne ls w) : InOrder w := by
  induction run with
  | nil => exact .initial e
  | @snoc ls w w' l run hs hone ih =>
    have fresh : Run (phases c) E e MintsFresh ls w := run_mono (fun _ _ _ h => h.fresh) run
    exact ih.step (run_drains run) (booked_of_undisposed fresh)
      (booked_of_undisposed (fresh.snoc hs hone.fresh)) hs hone

end Interleaving

end ConfinedDb
