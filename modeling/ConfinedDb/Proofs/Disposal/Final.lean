import ConfinedDb.Proofs.Interleaving.Drain
import ConfinedDb.Proofs.Interleaving.Realize
import ConfinedDb.Proofs.Interleaving.Written
/-!
# A disposal is final

Once a disposal has taken effect, whatever was under way at that moment, the connection has no
database and no owner, and every action that asks for something is refused before it makes a call.
Once that disposal has returned, no statement is registered and none is idle. All of this stays so
in everything that comes after (**`disposal_is_final`**).

What could break it are actions that complete late: an open that has its database, a preparation
that has its statement, a release on its way to the cache, a finalization that has returned. None of
them finds a database, and without one nothing is registered and nothing goes to the cache
(`Change.bare`). The disposal that took effect is under way or has returned, once
(`World.disposals`), and as long as something is left it is finalizing statements (`Final.bare`).
-/
namespace ConfinedDb.Interleaving

open History

structure Bare (s : State) : Prop where
  statements : s.statements = .empty
  cache : s.cache = .empty

/-! ## Stretches -/

section Stretches

variable {c : Connection} {t : ThreadId} {s : State}

theorem bare_forgetAll (s : State) : Bare s.forgetAll := ⟨rfl, rfl⟩

theorem Bare.forget (b : Bare s) (h : StmtHandle) (sql : String) : Bare (s.forget h sql) := by
  unfold State.forget
  split
  · exact b
  · exact ⟨by rw [b.statements]; rfl, by rw [b.cache]; rfl⟩

theorem register_of_closed {h : StmtHandle} {sql : String} (hh : s.handle = none) :
    s.register h sql = s := if_neg (by simp [hh])

theorem not_isOpen (hh : s.handle = none) : ¬s.isOpen = true := by simp [State.isOpen, hh]

theorem Change.bare {returned : Option EngineCall} {m : Move} (h : Change returned s m)
    (hh : s.handle = none) (b : Bare s) : Bare m.state := by
  have hlend : ∀ sql, s.lend sql = s := fun sql => lend_of_closed (not_isOpen hh)
  cases h with
  | same state => exact state ▸ b
  | @shelves k sql state =>
    have hs : s.shelve k sql = s := if_neg (not_isOpen hh)
    rw [state, hs]
    exact b
  | lends state =>
    rw [state, hlend]
    exact b
  | registers state =>
    rw [state, register_of_closed hh]
    exact b
  | reuses state =>
    rw [state, hlend, register_of_closed hh]
    exact b
  | forgets _ state => exact state ▸ b.forget _ _
  | sweeps _ _ state => exact state ▸ bare_forgetAll _

theorem DrainNext.bare {db : DbHandle} {rounds : Nat} {m : Move} (h : DrainNext s db rounds m) :
    Bare m.state ∨ ∃ q, m.next = .inl q ∧ q.drains = true := by
  cases h with
  | takes _ _ waits _ => exact .inr ⟨_, waits, rfl⟩
  | closes _ _ state => exact .inl (state ▸ bare_forgetAll s)

/-- A disposal that finalizes statements goes on until none is left. -/
theorem resume_drains {p : Phase} (hp : p.drains = true) (answer : (p.call c).Answer) :
    Bare (p.resume c t answer s).state ∨
      ∃ q, (p.resume c t answer s).next = .inl q ∧ q.drains = true := by
  cases p with
  | draining h sql rounds db => exact ((drainChunk_next db rounds).after _).bare
  | _ => cases hp

theorem unclaim_bare (t : ThreadId) (b : Bare s) : Bare (s.unclaim t) := by
  unfold State.unclaim
  split
  · exact ⟨b.statements, b.cache⟩
  · exact b

theorem claim_bare (t : ThreadId) (b : Bare s) : Bare (s.claim t) := by
  unfold State.claim
  split
  · exact b
  · exact ⟨b.statements, b.cache⟩

/-- An action goes on: what was bare stays so until there is a database. -/
theorem resume_bare {p : Phase} {answer : (p.call c).Answer} (hs : s.handle = none → Bare s)
    (hh : (p.resume c t answer s).state.handle = none) : Bare (p.resume c t answer s).state := by
  by_cases hp : p.kind = .opens
  · have hrest := open_rest (t := t) (s := s) hp answer
    generalize p.resume c t answer s = m at hrest hh
    cases hrest with
    | waits _ _ _ state =>
      rw [state] at hh ⊢
      exact hs hh
    | late _ _ state =>
      rw [state] at hh ⊢
      exact hs hh
    | installs _ _ _ state =>
      rw [state] at hh
      cases hh
    | fails _ _ state =>
      rw [state] at hh ⊢
      split
      · next hc =>
        rw [if_pos hc, unclaim_handle] at hh
        exact unclaim_bare t (hs hh)
      · next hc =>
        rw [if_neg hc] at hh
        exact hs hh
  · have hclosed : s.handle = none := (resume_same hp answer).handle ▸ hh
    exact (resume_change hp answer).bare hclosed (hs hclosed)

/-- An action starts: what was bare stays so, and a disposal sees to the rest. -/
theorem start_bare {task : Task} (hs : s.handle = none → Bare s)
    (hh : (phaseStart c t s task).state.handle = none) :
    Bare (phaseStart c t s task).state ∨
      ∃ q, (phaseStart c t s task).next = .inl q ∧ q.drains = true := by
  cases start_cases (c := c) (t := t) (s := s) task with
  | opens _ start =>
    rcases start.state_cases with h | h <;> rw [h] at hh ⊢
    · exact .inl (hs hh)
    · exact .inl (claim_bare t (hs (by simpa using hh)))
  | disposes _ start =>
    cases start with
    | again _ _ state =>
      rw [state] at hh ⊢
      exact .inl (hs hh)
    | unopened undisposed closed _ state =>
      rw [state, retire_of_undisposed undisposed]
      exact .inl ⟨(hs closed).statements, (hs closed).cache⟩
    | drains _ _ _ next => exact next.bare
    | abandons _ _ _ _ state => exact .inl (state ▸ bare_forgetAll _)
  | other _ _ change =>
    have hclosed : s.handle = none := change.sameDatabase.handle ▸ hh
    exact .inl (change.bare hclosed (hs hclosed))

/-- A disposed connection has no database and no owner. -/
structure Retired (s : State) : Prop where
  handle : s.handle = none
  owner : s.owner = none

theorem start_retired {task : Task} (hs : s.disposed = true → Retired s)
    (hd : (phaseStart c t s task).state.disposed = true) :
    Retired (phaseStart c t s task).state := by
  cases start_cases (c := c) (t := t) (s := s) task with
  | opens _ start =>
    rcases start.state_cases with h | h <;> rw [h] at hd ⊢
    · exact hs hd
    · have hd : s.disposed = true := by simpa using hd
      have hclaim : s.claim t = s := if_pos (.inl hd)
      exact hclaim.symm ▸ hs hd
  | disposes _ start =>
    rcases start.state_cases with ⟨h, hd⟩ | ⟨hd, h | h⟩ <;> rw [h]
    · exact hs hd
    · rw [retire_of_undisposed hd]
      exact ⟨rfl, rfl⟩
    · rw [retire_of_undisposed hd]
      exact ⟨rfl, rfl⟩
  | other _ _ change =>
    have same := change.sameDatabase
    have r := hs (same.disposed ▸ hd)
    exact ⟨same.handle.trans r.handle, same.owner.trans r.owner⟩

theorem resume_retired {p : Phase} {answer : (p.call c).Answer}
    (hs : s.disposed = true → Retired s) (hd : (p.resume c t answer s).state.disposed = true) :
    Retired (p.resume c t answer s).state := by
  have hd : s.disposed = true := (resume_disposed p answer).symm.trans hd
  have r := hs hd
  by_cases hp : p.kind = .opens
  · have hrest := open_rest (t := t) (s := s) hp answer
    generalize p.resume c t answer s = m at hrest
    cases hrest with
    | waits _ _ _ state => exact state ▸ r
    | late _ _ state => exact state ▸ r
    | installs undisposed => simp [hd] at undisposed
    | fails _ _ state =>
      have hunclaim : s.unclaim t = s := if_neg (by simp [r.owner])
      rw [state, hunclaim, ite_self]
      exact r
  · have same := resume_same (t := t) (s := s) hp answer
    exact ⟨same.handle.trans r.handle, same.owner.trans r.owner⟩

/-- **A disposed connection refuses whatever asks for something, and leaves everything as it is.** -/
theorem start_refused (hd : s.disposed = true) (r : Retired s) {task : Task}
    (ht : task.isDisposal = false) (hr : task.isRelease = false) :
    ∃ text st?, phaseStart c t s task = finish ⟨.error (Error.ofFault (.misuse text)), st?⟩ s := by
  have hpermit : ∀ c', permit c' t s = .ok () := fun c' => by simp [permit, r.owner]
  have hopen : s.openHandle = .error (Error.ofFault (.misuse "connection is disposed")) := by
    simp [State.openHandle, hd]
  have hclaim : s.claim t = s := if_pos (.inl hd)
  have hchunk : ∀ flags, openChunk c t flags s = finish ⟨.error (Error.ofFault
      (.misuse "cannot reopen closed connection")), none⟩ s := by
    intro flags
    simp [openChunk, hd, hclaim]
  have huse : ∀ (st : Statement) (go : Move), useChunk t st s go = finish ⟨.error (Error.ofFault
      (.misuse "connection is disposed")), some st⟩ s := by
    intro st go
    simp [useChunk, hpermit, hopen]
  cases task with
  | «open» mode =>
    cases mode with
    | readWriteCreate => exact ⟨_, _, hchunk _⟩
    | _ =>
      simp only [phaseStart]
      split
      · exact ⟨_, _, rfl⟩
      · exact ⟨_, _, hchunk _⟩
  | exec sql =>
    simp only [phaseStart, hpermit, hopen]
    exact ⟨_, _, rfl⟩
  | prepare sql lending =>
    have hlend : s.lend sql = s := lend_of_closed (not_isOpen r.handle)
    simp only [phaseStart, hpermit, hopen, hlend, ite_self]
    exact ⟨_, _, rfl⟩
  | dispose => cases ht
  | drop => cases ht
  | use n st u =>
    cases u with
    | release => cases hr
    | _ => exact ⟨_, _, huse st _⟩

end Stretches

/-! ## Worlds -/

/-- The disposals that are under way, and those that took effect and have returned. -/
def World.disposals {M : Machine} {E : Engine} (w : World M E) : Nat :=
  w.frames.countP (·.task.isDisposal) + w.history.count .disposed

section Count

variable {M : Machine} {E : Engine}

theorem count_append_of_not_mem {es : History} (hes : .disposed ∉ es) (past : History) :
    (es ++ past).count .disposed = past.count .disposed := by
  rw [List.count_append, List.count_eq_zero_of_not_mem hes, Nat.zero_add]

theorem count_reported (notices : List Notice) (past : History) :
    ((notices.map Event.reported).reverse ++ past).count .disposed = past.count .disposed :=
  count_append_of_not_mem (by simp) past

theorem count_opening (task : Task) (t : ThreadId) (s : State) (past : History) :
    (task.opening t s ++ past).count .disposed = past.count .disposed := by
  refine count_append_of_not_mem (fun hm => ?_) past
  rcases mem_opening hm with h | ⟨k, h⟩ <;> cases h

theorem count_minting (call : EngineCall) (answer : call.Answer) (past : History) :
    (minting call answer ++ past).count .disposed = past.count .disposed := by
  refine count_append_of_not_mem (fun hm => ?_) past
  rcases mem_minting hm with ⟨db, h⟩ | ⟨db, k, h⟩ <;> cases h

/-- Only the disposal that took effect is written down when it returns. -/
theorem count_closing (task : Task) (t : ThreadId) (own : Bool) (s : State) (o : Outcome) :
    (task.closing t own s o).count .disposed = (task.isDisposal && own).toNat := by
  cases task with
  | «open» mode =>
    simp only [Task.closing]
    split <;> rfl
  | dispose => cases own <;> rfl
  | drop => cases own <;> rfl
  | _ => rfl

/-- A disposal counts once it is under way or has returned, if it took effect. -/
theorem disposals_proceed (w : World M E) (t : ThreadId) (task : Task) (own : Bool)
    (chunk : Chunk M.Point Outcome) :
    (w.proceed t task own chunk).disposals
      = w.disposals + (task.isDisposal && (own || chunk.next.isLeft)).toNat := by
  unfold World.disposals
  cases hn : chunk.next with
  | inl p =>
    rw [w.proceed_pause t task own hn, Sum.isLeft_inl, Bool.or_true, Bool.and_true]
    show (_ :: w.frames).countP _ + (Event.called t (M.call p) :: _).count .disposed = _
    rw [List.countP_cons, List.count_cons_of_ne (by simp), count_reported]
    cases task.isDisposal <;> simp; omega
  | inr o =>
    rw [w.proceed_end t task own hn, Sum.isLeft_inr, Bool.or_false]
    show w.frames.countP _ + (task.closing t own chunk.state o ++ _).count .disposed = _
    rw [List.count_append, count_closing, count_reported]
    omega

theorem disposals_entered (w : World M E) (t : ThreadId) (task : Task) :
    (w.entered t task).disposals = w.disposals :=
  congrArg (w.frames.countP (·.task.isDisposal) + ·) (count_opening task t w.state w.history)

theorem countP_frames {w : World M E} {i : Nat} {f : Frame M} (hf : w.frames[i]? = some f) :
    w.frames.countP (·.task.isDisposal)
      = (w.frames.eraseIdx i).countP (·.task.isDisposal) + f.task.isDisposal.toNat := by
  obtain ⟨hi, rfl⟩ := List.getElem?_eq_some_iff.1 hf
  rw [← (List.getElem_cons_eraseIdx_perm hi).countP_eq, List.countP_cons]
  cases w.frames[i].task.isDisposal <;> rfl

theorem disposals_acted {w : World M E} {i : Nat} {t : ThreadId} {task : Task} {p : M.Point}
    (hf : w.frames[i]? = some ⟨t, task, p, none⟩) :
    (w.acted i t task p).disposals = w.disposals := by
  have hi := (List.getElem?_eq_some_iff.1 hf).1
  have hframes : (w.acted i t task p).frames.countP (·.task.isDisposal)
      = w.frames.countP (·.task.isDisposal) := by
    rw [countP_frames hf]
    refine ((List.set_perm_cons_eraseIdx hi _).countP_eq _).trans ?_
    rw [List.countP_cons]
    cases task.isDisposal <;> rfl
  have hhistory : (w.acted i t task p).history.count .disposed = w.history.count .disposed :=
    count_minting _ _ w.history
  unfold World.disposals
  rw [hframes, hhistory]

theorem disposals_returned {w : World M E} {i : Nat} {t : ThreadId} {task : Task} {p : M.Point}
    {answer : Option (M.call p).Answer} (hf : w.frames[i]? = some ⟨t, task, p, answer⟩) :
    (w.returned i t (M.call p)).disposals + task.isDisposal.toNat = w.disposals := by
  unfold World.disposals
  rw [countP_frames hf]
  show (w.frames.eraseIdx i).countP _ + (Event.returned t (M.call p) :: w.history).count _ + _
    = (w.frames.eraseIdx i).countP _ + task.isDisposal.toNat + w.history.count _
  rw [List.count_cons_of_ne (by simp)]
  omega

end Count

variable {c : Connection} {E : Engine} {w w' : World (phases c) E} {l : Label E}

/-- What holds from the moment on in which a disposal takes effect. -/
structure Final (w : World (phases c) E) : Prop where
  retired : w.state.disposed = true → Retired w.state
  /-- One disposal takes effect. -/
  once : w.disposals = w.state.disposed.toNat
  bare : w.state.handle = none → Bare w.state ∨ ∃ f ∈ w.frames, f.point.drains = true

namespace Final

theorem initial (e : E.State) : Final (.initial e : World (phases c) E) where
  retired hd := by cases hd
  once := rfl
  bare _ := .inl ⟨rfl, rfl⟩

theorem start (f : Final w) (t : ThreadId) (task : Task) :
    Final (w.start t task) := by
  have hstate : (w.start t task).state = (phaseStart c t w.state task).state := proceed_state ..
  have hframes : ∀ g ∈ w.frames, g ∈ (w.start t task).frames := fun g hg =>
    mem_proceed.2 (.inl hg)
  refine ⟨fun hd => ?_, ?_, fun hh => ?_⟩
  · rw [hstate] at hd ⊢
    exact start_retired f.retired hd
  · have hcount : (w.start t task).disposals = w.disposals + (task.isDisposal &&
        (!w.state.disposed || (phaseStart c t w.state task).next.isLeft)).toNat :=
      (disposals_proceed _ t task _ _).trans (congrArg (· + _) (disposals_entered w t task))
    rw [hcount, f.once, hstate, start_disposed]
    cases ht : task.isDisposal with
    | false => simp
    | true =>
      cases hd : w.state.disposed with
      | false => rfl
      | true =>
        have hstart := dispose_start (c := c) (t := t) (s := w.state) ht
        cases hstart with
        | again _ ends => simp [ends]
        | unopened undisposed => simp [hd] at undisposed
        | drains undisposed => simp [hd] at undisposed
        | abandons undisposed => simp [hd] at undisposed
  · rw [hstate] at hh ⊢
    by_cases hdrain : ∃ g ∈ w.frames, g.point.drains = true
    · obtain ⟨g, hg, hdrains⟩ := hdrain
      exact .inr ⟨g, mem_proceed.2 (.inl hg), hdrains⟩
    · rcases start_bare (fun hn => (f.bare hn).resolve_right hdrain) hh with b | ⟨q, hq, hdrains⟩
      · exact .inl b
      · exact .inr ⟨_, mem_proceed.2 (.inr ⟨q, hq, rfl⟩), hdrains⟩

theorem acted (f : Final w) {i : Nat} {t : ThreadId} {task : Task} {p : Phase}
    (hf : w.frames[i]? = some ⟨t, task, p, none⟩) : Final (w.acted i t task p) := by
  refine ⟨f.retired, (disposals_acted hf).trans f.once, fun hh => (f.bare hh).imp_right ?_⟩
  rintro ⟨g, hg, hdrains⟩
  rcases mem_acted hf hg with rfl | hg
  · exact ⟨_, acted_mem hf, hdrains⟩
  · exact ⟨g, hg, hdrains⟩

theorem resume (f : Final w) {i : Nat} {t : ThreadId} {task : Task} {p : Phase}
    {answer : (p.call c).Answer}
    (hf : w.frames[i]? = some ⟨t, task, p, some answer⟩) :
    Final ((w.returned i t (p.call c)).proceed t task true (p.resume c t answer w.state)) := by
  have hstate := proceed_state (w.returned i t (p.call c)) t task true (p.resume c t answer w.state)
  refine ⟨fun hd => ?_, ?_, fun hh => ?_⟩
  · rw [hstate] at hd ⊢
    exact resume_retired f.retired hd
  · have hcount := disposals_proceed (w.returned i t (p.call c)) t task true
      (p.resume c t answer w.state)
    rw [Bool.true_or, Bool.and_true] at hcount
    rw [hstate, resume_disposed]
    exact hcount.trans ((disposals_returned hf).trans f.once)
  · rw [hstate] at hh ⊢
    have hnext : (∃ q, (p.resume c t answer w.state).next = .inl q ∧ q.drains = true) →
        ∃ g ∈ ((w.returned i t (p.call c)).proceed t task true
          (p.resume c t answer w.state)).frames, g.point.drains = true := by
      rintro ⟨q, hq, hdrains⟩
      exact ⟨_, mem_proceed.2 (.inr ⟨q, hq, rfl⟩), hdrains⟩
    by_cases hdrain : ∃ g ∈ w.frames, g.point.drains = true
    · obtain ⟨g, hg, hdrains⟩ := hdrain
      rcases mem_returned hf hg with rfl | hg
      · exact (resume_drains hdrains answer).imp_right hnext
      · exact .inr ⟨g, mem_proceed.2 (.inl hg), hdrains⟩
    · exact .inl (resume_bare (fun hn => (f.bare hn).resolve_right hdrain) hh)

/-- **Every step keeps this up.** -/
theorem step (f : Final w) (h : w.step l = some w') : Final w' := by
  cases World.step_cases h with
  | start ht => exact f.start _ _
  | act hf => exact f.acted hf
  | resume hf hn => exact f.resume hf
  | drift e => exact ⟨f.retired, f.once, f.bare⟩

/-- Once the disposal that took effect has returned, nothing is left. -/
theorem bare_of_returned (f : Final w) (tidy : Tidy w) (hm : .disposed ∈ w.history) :
    Bare w.state := by
  have hpos : 0 < w.history.count .disposed := List.count_pos_iff.2 hm
  have honce := f.once
  unfold World.disposals at honce
  have hle : w.state.disposed.toNat ≤ 1 := Bool.toNat_le _
  have hd : w.state.disposed = true := by
    cases hd : w.state.disposed with
    | true => rfl
    | false =>
      rw [hd, Bool.toNat_false] at honce
      omega
  refine (f.bare (f.retired hd).handle).resolve_right ?_
  rintro ⟨g, hg, hdrains⟩
  have htask : g.task.isDisposal = true :=
    isDisposal_of_kind ((tidy.kinds g hg).symm.trans (drains_kind hdrains))
  have hframes : 0 < w.frames.countP (·.task.isDisposal) := List.countP_pos_iff.2 ⟨g, hg, htask⟩
  omega

end Final

theorem run_final {e : E.State} {ok : World (phases c) E → Label E → World (phases c) E → Prop}
    {ls : List (Label E)} (run : Run (phases c) E e ok ls w) : Final w := by
  induction run with
  | nil => exact .initial e
  | snoc _ hs _ ih => exact ih.step hs

/-- An action that is refused ends at once, and nothing is written down of it. -/
theorem refused_start (f : Final w) (hd : w.state.disposed = true) {t : ThreadId} {a : Action}
    {task : Task} (ht : w.task? a = some task) (hnot : task.isDisposal = false)
    (hr : task.isRelease = false) :
    ∃ o text, w.Ends (.start t a) t task o ∧ o.result = .error (Error.ofFault (.misuse text)) ∧
      (w.start t task).history = w.history := by
  obtain ⟨text, st?, hstart⟩ := start_refused (c := c) (t := t) hd (f.retired hd) hnot hr
  refine ⟨_, text, ⟨rfl, ht, congrArg Chunk.next hstart⟩, rfl, ?_⟩
  have hnext : (phaseStart c t w.state task).next
      = .inr ⟨.error (Error.ofFault (.misuse text)), st?⟩ := congrArg Chunk.next hstart
  have hnotices : (phaseStart c t w.state task).notices = [] := congrArg Chunk.notices hstart
  refine (congrArg World.history ((w.entered t task).proceed_end t task _ hnext)).trans ?_
  show task.closing t _ _ _ ++ (((phaseStart c t w.state task).notices.map Event.reported).reverse
    ++ (task.opening t w.state ++ w.history)) = _
  rw [closing_eq_nil hnot, opening_eq_nil hnot hr, hnotices]
  rfl

theorem disposed_of_leads {v : World (phases c) E} {w : World (programs c) E}
    (hd : v.state.disposed = true) (h : v.realize.Leads w) : w.state.disposed = true := by
  have hkeeps : ∀ w l w', World.step w l = some w' →
      (∃ v : World (phases c) E, v.realize = w ∧ v.state.disposed = true) →
      ∃ v : World (phases c) E, v.realize = w' ∧ v.state.disposed = true := by
    rintro _ l w' hs ⟨v, rfl, hd⟩
    rw [step_realize, Option.map_eq_some_iff] at hs
    obtain ⟨v', hv', rfl⟩ := hs
    exact ⟨v', rfl, step_disposed hv' hd⟩
  obtain ⟨v', rfl, hd⟩ := h.keeps hkeeps ⟨v, rfl, hd⟩
  exact hd

/-- **Once a disposal has taken effect the connection stays disposed and closed, it refuses whatever
asks for something, and once the disposal has returned, nothing is registered or idle.** -/
theorem disposal_is_final {e : E.State} {ls : List (Label E)} {w w' : World (programs c) E}
    (run : Run (programs c) E e AnyStep ls w) (disposed : w.state.disposed = true)
    (later : w.Leads w') :
    (w'.state.disposed = true ∧ w'.state.handle = none ∧ w'.state.owner = none ∧
        w'.state.isOpen = false) ∧
      (∀ t a task, w'.task? a = some task → task.isDisposal = false → task.isRelease = false →
        ∃ o text w'', w'.step (.start t a) = some w'' ∧ w'.Ends (.start t a) t task o ∧
          o.result = .error (Error.ofFault (.misuse text)) ∧ w''.history = w'.history) ∧
      (.disposed ∈ w'.history → w'.state.statements = .empty ∧ w'.state.cache = .empty) := by
  obtain ⟨ls', run'⟩ := run_leads run later
  obtain ⟨v, rfl, -⟩ := run_programs_iff.1 run
  have hd := disposed_of_leads (v := v) disposed later
  obtain ⟨v', rfl, hv'⟩ := run_programs_iff.1 run'
  have f := run_final hv'
  have r := f.retired hd
  refine ⟨⟨hd, r.handle, r.owner, by simp [State.isOpen, r.handle]⟩, ?_, fun hm => ?_⟩
  · intro t a task ht hnot hr
    rw [World.realize_task?] at ht
    obtain ⟨o, text, hends, ho, hhistory⟩ := refused_start (t := t) f hd ht hnot hr
    refine ⟨o, text, (v'.start t task).realize, ?_, (realize_ends ..).2 hends, ho, hhistory⟩
    rw [step_realize]
    simp [World.step, ht]
  · have b := f.bare_of_returned (run_tidy hv') hm
    exact ⟨b.statements, b.cache⟩

/-! ## A disposal that is overtaken -/

/-- A thread opens a database, lends a statement and prepares another one. In the call of that
preparation it starts to release the first, which was stepped, and in the call of the release it
disposes the connection. Then the disposal, the release and the preparation complete, one after
another. -/
def completedLate : List (Label recording) × List (Label recording) :=
  let t : ThreadId := ⟨0⟩
  ([.start t (.open .readWriteCreate), .act 0, .resume 0,
    .start t (.prepare "SELECT 1" .cached), .act 0, .resume 0,
    .start t (.use 0 .step), .act 0, .resume 0,
    .start t (.prepare "SELECT 2" .cached), .act 0,
    .start t (.use 0 .release), .act 0, .start t .dispose],
  [.act 0, .resume 0, .act 0, .resume 0, .act 0, .resume 0,
    .resume 0, .resume 0, .act 0, .resume 0])

/-- Both end with nothing registered, and the connection refuses another open. -/
theorem completedLate_final :
    ∃ w w', Run (programs inMemory) recording .initial AnyStep completedLate.1 w ∧
      w.state.disposed = true ∧ w.Leads w' ∧ w'.frames = [] ∧ .disposed ∈ w'.history ∧
      w'.state.statements = .empty ∧ w'.state.cache = .empty ∧
      ∃ o text, w'.Ends (.start ⟨1⟩ (.open .readWriteCreate)) ⟨1⟩ (.open .readWriteCreate) o ∧
        o.result = .error (Error.ofFault (.misuse text)) := by
  obtain ⟨w, run, hw⟩ := exists_run (M := programs inMemory) (e := RecordingEngine.initial)
    AnyStep completedLate.1
    (fun w => w.state.disposed = true ∧ (w.follow AnyStep completedLate.2).any
      fun w' => w'.frames.isEmpty ∧ .disposed ∈ w'.history) (by decide +kernel)
  simp only [decide_eq_true_eq, Option.any_eq_true] at hw
  obtain ⟨hd, w', hlater, hw'⟩ := hw
  simp only [List.isEmpty_iff] at hw'
  have later : w.Leads w' := ⟨_, hlater⟩
  obtain ⟨-, hrefused, hbare⟩ := disposal_is_final run hd later
  obtain ⟨o, text, -, -, hends, ho, -⟩ := hrefused ⟨1⟩ (.open .readWriteCreate) _ rfl rfl rfl
  exact ⟨w, w', run, hd, later, hw'.1, hw'.2, (hbare hw'.2).1, (hbare hw'.2).2, o, text, hends, ho⟩

end ConfinedDb.Interleaving
