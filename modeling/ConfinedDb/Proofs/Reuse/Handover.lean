import ConfinedDb.Proofs.Reuse.Sheet
/-!
# How handles change hands

On an open connection whose engine is told to fail at nothing, a preparation always succeeds: it
brings the idle statement of its text if it may, and a handle that was not live before otherwise
(**`prepare_alone`**). A release always succeeds as well: the engine has the statement blank and it
is the idle one of its text from now on, or the engine has finalized it and the connection has
forgotten it (**`release_alone`**).
-/
namespace ConfinedDb.Interleaving

variable {c : Connection} {t : ThreadId} {db d : DbHandle} {s : State} {e : RecordingEngine}
  {h : StmtHandle} {sql : String} {st : Statement} {live : LiveStatement}

/-! ## Preparing -/

theorem answer_prepare (he : e.Healthy) (hdb : db ∈ e.databases) (sql : String) :
    (e.answer (.prepare db sql)).1 = (some e.nextHandle, .ok) ∧
      (e.answer (.prepare db sql)).2.databases = e.databases ∧
      ∀ k, (e.answer (.prepare db sql)).2.statements.get? k =
        if k = e.nextHandle then some ⟨db, 0, ∅⟩ else e.statements.get? k := by
  have hcode : (e.record (.prepare db sql)).codeOf .prepare = .ok := he.codeOf .prepare
  have hwith : (e.record (.prepare db sql)).withheld = [] := he.withheld
  have hmem : db ∈ (e.record (.prepare db sql)).databases := hdb
  simp only [RecordingEngine.answer, RecordingEngine.answerPrepare, hcode, hwith, hmem]
  refine ⟨rfl, rfl, fun k => ?_⟩
  exact Table.get?_insert ..

theorem nextHandle_not_live (hs : Sound e) : e.statements.get? e.nextHandle = none := by
  cases hg : e.statements.get? e.nextHandle with
  | none => rfl
  | some live =>
    have hhome : e.home e.nextHandle = some live.db := by simp [RecordingEngine.home, hg]
    exact absurd (hs.statements _ _ hhome).1 (RecordingEngine.not_minted_next e)

/-- The state in which a preparation goes to the engine: what may be lent is out of the cache. -/
def withdrawn (lending : Lending) (sql : String) (s : State) : State :=
  if lending = .cached then s.lend sql else s

theorem withdrawn_sameDatabase (lending : Lending) (sql : String) (s : State) :
    SameDatabase s (withdrawn lending sql s) := by
  unfold withdrawn
  split
  · exact .lend s sql
  · exact .refl s

theorem Serving.withdrawn_get? (hv : Serving t db s) (lending : Lending) (sql text : String) :
    (withdrawn lending sql s).cache.get? text
      = if lending = .cached ∧ text = sql then none else s.cache.get? text := by
  cases lending with
  | cached => simp [withdrawn, State.lend, hv.isOpen, Cache.get?_take]
  | uncached => simp [withdrawn]

theorem Serving.withdrawn_isSome (hv : Serving t db s) (lending : Lending) (sql : String) :
    (withdrawn lending sql s).handle.isSome = true := by
  rw [(withdrawn_sameDatabase lending sql s).handle, hv.handle]
  rfl

/-- The handle that a preparation brings, and where it comes from. -/
structure Obtained (lending : Lending) (sql : String) (s : State) (e : RecordingEngine)
    (h : StmtHandle) (e' : RecordingEngine) : Prop where
  blank : ∃ d, e'.statements.get? h = some ⟨d, 0, ∅⟩
  touches : Touches h e e'
  source : lending = .cached ∧ s.cache.get? sql = some h ∨
    e.statements.get? h = none ∧ (lending = .cached → s.cache.get? sql = none)

/-- **A preparation brings a blank statement.** -/
theorem prepare_alone (he : e.Healthy) (hs : Sound e) (hv : Serving t db s)
    (hdb : db ∈ e.databases)
    (hidle : ∀ h, s.cache.get? sql = some h → ∃ d, e.statements.get? h = some ⟨d, 0, ∅⟩)
    (lending : Lending) :
    ∃ h e', Alone c t recording e (phaseStart c t s (.prepare sql lending))
        ⟨.ok .done, some (.fresh c lending h sql)⟩ e'
        ((withdrawn lending sql s).register h sql) ∧
      Obtained lending sql s e h e' := by
  have hopen := hv.withdrawn_isSome lending sql
  have hfold : (if lending = .cached then s.lend sql else s) = withdrawn lending sql s := rfl
  simp only [phaseStart, hv.permit, hv.openHandle, hfold]
  cases hr : (if lending = .cached then s.cache.get? sql else none) with
  | some h =>
    have hcached : lending = .cached ∧ s.cache.get? sql = some h := by
      split at hr
      · exact ⟨‹_›, hr⟩
      · cases hr
    refine ⟨h, e, ?_, ⟨hidle h hcached.2, .refl h e, .inl hcached⟩⟩
    simp only [registerChunk, hopen, if_true]
    exact (((Alone.ends rfl).after _).after _)
  | none =>
    obtain ⟨hrc, hdbs, hget⟩ := answer_prepare he hdb sql
    refine ⟨e.nextHandle, (e.answer (.prepare db sql)).2, ?_, ?_, ?_, ?_⟩
    · refine Alone.call (q := .preparing db sql lending) _ hrc ?_
      simp only [Phase.resume, registerChunk, hopen, if_true]
      exact (Alone.ends rfl).after _
    · exact ⟨db, by rw [hget, if_pos rfl]⟩
    · refine ⟨⟨hdbs, fun k hk => ?_⟩, fun h => h.answer _, (answer_effect e _).sound⟩
      rw [hget, if_neg hk]
    · refine .inr ⟨nextHandle_not_live hs, fun hc => ?_⟩
      rwa [if_pos hc] at hr

/-! ## Releasing -/

/-- What has become of a released statement. -/
inductive Released (s : State) (h : StmtHandle) (sql : String) : RecordingEngine → State → Prop
  /-- It is idle and can be lent again. -/
  | shelved {e' : RecordingEngine} (free : s.cache.get? sql = none)
    (blank : ∃ d, e'.statements.get? h = some ⟨d, 0, ∅⟩) : Released s h sql e' (s.shelve h sql)
  /-- It was finalized. -/
  | finalized {e' : RecordingEngine} (gone : e'.statements.get? h = none) :
    Released s h sql e' (s.forget h sql)

theorem finalize_alone (he : e.Healthy) (hl : e.statements.get? h = some live)
    (hv : Serving t db s) (sql : String) :
    ∃ e', Alone c t recording e (finalizeChunk h sql s) .finished e' (s.forget h sql) ∧
      Touches h e e' ∧ e'.statements.get? h = none := by
  obtain ⟨hrc, hgone⟩ := answer_finalize he hl
  refine ⟨_, ?_, touches_answer rfl, hgone⟩
  simp only [finalizeChunk, hv.abandoned, Bool.false_eq_true, if_false]
  exact Alone.call (q := .finalizing h sql) _ hrc ((Alone.ends rfl).after _)

/-- A blank statement goes to the cache, unless its text is served. -/
theorem shelve_alone (he : e.Healthy) (hl : e.statements.get? h = some ⟨d, 0, ∅⟩)
    (hv : Serving t db s) (hlent : s.cache.get? sql ≠ some h) :
    ∃ e' s', Alone c t recording e (shelveChunk h sql s) .finished e' s' ∧
      Touches h e e' ∧ Released s h sql e' s' := by
  simp only [shelveChunk, hv.isOpen, if_true, Cache.verdict]
  cases hg : s.cache.get? sql with
  | none => exact ⟨e, _, .ends rfl, .refl h e, .shelved hg ⟨d, hl⟩⟩
  | some holder =>
    have hne : holder ≠ h := fun heq => hlent (heq ▸ hg)
    have hs : s.shelve h sql = s := by
      simp [State.shelve, hv.isOpen, Cache.offer, hg]
    obtain ⟨e', halone, htouch, hgone⟩ := finalize_alone (c := c) he hl hv sql
    simp only [hne, if_false, hs]
    exact ⟨e', _, halone.after _, htouch, .finalized hgone⟩

/-- The parameters are dropped if the flag says that there may be any. -/
theorem unbinding_alone (he : e.Healthy) {bindings : Table Nat Value}
    (hl : e.statements.get? h = some ⟨d, 0, bindings⟩) (hv : Serving t db s)
    (hlent : s.cache.get? sql ≠ some h) {hasBindings : Bool}
    (hb : hasBindings = false → bindings = ∅) (c' : Connection) :
    ∃ e' s', Alone c t recording e (unbindChunk c' h sql hasBindings s) .finished e' s' ∧
      Touches h e e' ∧ Released s h sql e' s' := by
  cases hasBindings with
  | false =>
    rw [hb rfl] at hl
    exact shelve_alone he hl hv hlent
  | true =>
    obtain ⟨hrc, hblank⟩ := answer_clear he hl
    obtain ⟨e', s', halone, htouch, hrel⟩ :=
      shelve_alone (c := c) (he.answer (.clearBindings h)) hblank hv hlent
    exact ⟨e', s', Alone.call (q := .unbinding c' h sql) _ hrc halone,
      (touches_answer rfl).trans htouch, hrel⟩

/-- **A released statement is blank or gone.** -/
theorem release_alone (he : e.Healthy) (hl : e.statements.get? st.handle = some live)
    (hhonest : (Sheet.of st live).Honest) (hv : Serving t db s)
    (hreg : s.statements.contains st.handle = true)
    (hlent : s.cache.get? st.sql ≠ some st.handle) :
    ∃ e' s', Alone c t recording e (releaseChunk t st s) .finished e' s' ∧
      Touches st.handle e e' ∧ Released s st.handle st.sql e' s' := by
  simp only [releaseChunk, hv.permit, hreg, if_true]
  cases hlending : st.lending with
  | uncached =>
    obtain ⟨e', halone, htouch, hgone⟩ := finalize_alone (c := c) he hl hv st.sql
    exact ⟨e', _, halone, htouch, .finalized hgone⟩
  | cached =>
    by_cases hstep : st.hasStepped
    · obtain ⟨hrc, hrewound⟩ := answer_reset he hl
      obtain ⟨e', s', halone, htouch, hrel⟩ := unbinding_alone (c := c)
        (he.answer (.reset st.handle)) hrewound hv hlent hhonest.bindings st.connection
      simp only [hstep, if_true]
      exact ⟨e', s',
        Alone.call (q := .rewinding st.connection st.handle st.sql st.hasBindings) _ hrc halone,
        (touches_answer rfl).trans htouch, hrel⟩
    · have hsteps : live.steps = 0 := hhonest.steps (Bool.eq_false_iff.2 hstep)
      have hl' : e.statements.get? st.handle = some ⟨live.db, 0, live.bindings⟩ := by
        rw [hl, ← hsteps]
      simp only [hstep, Bool.false_eq_true, if_false]
      exact unbinding_alone he hl' hv hlent hhonest.bindings st.connection

/-! ## The state and one handle -/

theorem register_cache (s : State) (h : StmtHandle) (sql : String) :
    (s.register h sql).cache = s.cache := by
  unfold State.register
  split <;> rfl

theorem register_contains (hh : s.handle.isSome = true) (h : StmtHandle) (sql : String) :
    (s.register h sql).statements.contains h = true := by
  simp [State.register, hh, Registry.contains_eq, Registry.get?_insert]

theorem shelve_statements (s : State) (h : StmtHandle) (sql : String) :
    (s.shelve h sql).statements = s.statements := by
  unfold State.shelve
  split <;> rfl

theorem Serving.shelve_get? (hv : Serving t db s) (h : StmtHandle) (sql text : String) :
    (s.shelve h sql).cache.get? text
      = if text = sql then (s.cache.get? sql).or (some h) else s.cache.get? text := by
  simp [State.shelve, hv.isOpen, Cache.get?_offer]

theorem forget_idle {text : String} {k : StmtHandle}
    (hg : (s.forget h sql).cache.get? text = some k) : s.cache.get? text = some k := by
  unfold State.forget at hg
  split at hg
  · exact hg
  · rw [Cache.get?_removeIf] at hg
    split at hg
    · cases hg
    · exact hg

/-- What happens to the state concerns one handle only. -/
structure Aside (h : StmtHandle) (s s' : State) : Prop where
  database : SameDatabase s s'
  registered : ∀ k, k ≠ h → s'.statements.contains k = s.statements.contains k
  idle : ∀ sql k, k ≠ h → s'.cache.get? sql = some k → s.cache.get? sql = some k

namespace Aside

variable {s' s'' : State}

theorem refl (h : StmtHandle) (s : State) : Aside h s s :=
  ⟨.refl s, fun _ _ => rfl, fun _ _ _ hg => hg⟩

theorem trans (ha : Aside h s s') (ha' : Aside h s' s'') : Aside h s s'' where
  database := ha.database.trans ha'.database
  registered k hk := (ha'.registered k hk).trans (ha.registered k hk)
  idle sql k hk hg := ha.idle sql k hk (ha'.idle sql k hk hg)

theorem withdrawn (hv : Serving t db s) (h : StmtHandle) (lending : Lending) (sql : String) :
    Aside h s (withdrawn lending sql s) where
  database := withdrawn_sameDatabase lending sql s
  registered k _ := by
    unfold Interleaving.withdrawn State.lend
    split
    · split <;> rfl
    · rfl
  idle text k _ hg := by
    rw [hv.withdrawn_get?] at hg
    split at hg
    · cases hg
    · exact hg

theorem register (s : State) (h : StmtHandle) (sql : String) : Aside h s (s.register h sql) where
  database := .register s h sql
  registered k hk := by
    unfold State.register
    split
    · rw [Registry.contains_eq, Registry.contains_eq, Registry.get?_insert, if_neg hk]
    · rfl
  idle _ _ _ hg := register_cache s h sql ▸ hg

theorem shelve (hv : Serving t db s) (h : StmtHandle) (sql : String) :
    Aside h s (s.shelve h sql) where
  database := .shelve s h sql
  registered k _ := by rw [shelve_statements]
  idle text k hk hg := by
    rw [hv.shelve_get?] at hg
    split at hg
    · next ht =>
      subst ht
      cases hc : s.cache.get? text with
      | none =>
        rw [hc] at hg
        exact absurd (Option.some.inj hg).symm hk
      | some holder =>
        rw [hc] at hg
        exact hg
    · exact hg

theorem forget (s : State) (h : StmtHandle) (sql : String) : Aside h s (s.forget h sql) where
  database := .forget s h sql
  registered k hk := by
    unfold State.forget
    split
    · rfl
    · rw [Registry.contains_eq, Registry.contains_eq, Registry.get?_remove, if_neg hk]
  idle _ _ _ := forget_idle

end Aside

theorem Serving.aside {s' : State} (hv : Serving t db s) (ha : Aside h s s') : Serving t db s' :=
  ⟨ha.database.handle.trans hv.handle, ha.database.disposed.trans hv.undisposed,
    ha.database.owner.trans hv.owner⟩

end ConfinedDb.Interleaving
