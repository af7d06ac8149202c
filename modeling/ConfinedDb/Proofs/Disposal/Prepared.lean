import ConfinedDb.Proofs.Disposal.Order
import ConfinedDb.Proofs.Disposal.Unchallenged
import ConfinedDb.Proofs.Disposal.Withheld
/-!
# A preparation is all or nothing

While a statement is prepared any thread may do anything with the connection, and the thread that
prepares it may dispose it. If the engine mints no live handle, and brings a statement only with
success (`Reliable`), a preparation of the owner ends in one of three ways (`Ending`,
**`prepared_or_undone`**). It lends a statement that was registered and taken out of the cache while
the connection was open (`Lent`). Or the connection was disposed in the meantime, and the statement
that the engine has brought is finalized once, by the preparation, and is at no moment registered
(`Withdrawn`). Or the engine has brought none, and no step of the preparation changes anything
(`Refused`).

A handle is live until a finalization of it returns, but a release and a disposal may both have
started one (`finalized_twice`). So when the first of these returns the engine may bring the handle
to the preparation, and when the second one returns it may bring it again, to a rival, while the
preparation has it still. Each of the two then finalizes what it got. That is why `Withdrawn` says
of each finalization of the handle whose it is; there is one in all exactly if there is no rival.
From the moment on at which the native call returns there is one in any case if what overlaps the
preparation was started meanwhile, or at least no open and no preparation of another thread was
under way before (`World.Unchallenged`).

The proof follows the action from pause to pause (`Midway`). A handle that has arrived is not
registered (`Withheld`), so nobody but the preparation and its rivals finalizes it.
-/
namespace ConfinedDb.Interleaving

open History

/-- In this step the engine brings a statement only with success, and never under a handle that is
live. -/
structure Reliable {M : Machine} {E : Engine} (w : World M E) (l : Label E) (w' : World M E) :
    Prop where
  fresh : MintsFresh w l w'
  candid : ∀ i f, l = .act i → w.frames[i]? = some f →
    f.call.Candid (E.answer w.engine f.call).1

instance {M : Machine} {E : Engine} (w : World M E) (l : Label E) (w' : World M E) :
    Decidable (Reliable w l w') :=
  decidable_of_iff
    (MintsFresh w l w' ∧
      ∀ i, l = .act i → ∀ f ∈ w.frames[i]?, f.call.Candid (E.answer w.engine f.call).1)
    ⟨fun ⟨fresh, candid⟩ => ⟨fresh, fun i f hl => candid i hl f⟩,
      fun ⟨fresh, candid⟩ => ⟨fresh, fun i hl f => candid i f hl⟩⟩

theorem realize_reliable {c : Connection} {E : Engine} (w : World (phases c) E) (l : Label E)
    (w' : World (phases c) E) : Reliable w.realize l w'.realize ↔ Reliable w l w' := by
  constructor
  · rintro ⟨fresh, candid⟩
    exact ⟨fresh, fun i f hl hf => candid i f.realize hl (by simp [hf])⟩
  · rintro ⟨fresh, candid⟩
    refine ⟨fresh, fun i f hl hf => ?_⟩
    rw [World.realize_frames, List.getElem?_map, Option.map_eq_some_iff] at hf
    obtain ⟨g, hg, rfl⟩ := hf
    exact candid i g hl hg

section Endings

variable {M : Machine} {E : Engine} (t : ThreadId) (k : Nat) (sql : String)

def Unchanging (hops : List (Hop M E)) : Prop :=
  ∀ hop ∈ hops, hop.Own t k → hop.after.state = hop.before.state

def Got (hops : List (Hop M E)) (answer : Option StmtHandle × ResultCode) : Prop :=
  ∃ db, ∃ hop ∈ hops, hop.after.Answered t k ⟨.prepare db sql, answer⟩

/-- In the step `mint` the engine has compiled a statement for the action. From then on, which is
`since`, it was not registered. -/
structure Acquired (h : StmtHandle) (hops : List (Hop M E)) (mint : Hop M E)
    (since : List (Hop M E)) : Prop where
  split : ∃ before, hops = before ++ mint :: since
  answered : ∃ db rc, rc.isOk = true ∧ mint.after.history = .minted db h :: mint.before.history ∧
    mint.after.Answered t k ⟨.prepare db sql, (some h, rc)⟩
  unregistered : ∀ hop ∈ mint :: since, h ∉ hop.after.state.registered

/-- In this step the action finds the connection disposed and starts to finalize the statement. -/
structure Hop.Withdraws (hop : Hop M E) (lending : Lending) (h : StmtHandle) : Prop where
  own : hop.Own t k
  disposed : hop.before.state.disposed = true
  calls : hop.before.Calls hop.label t (.prepare sql lending) (.finalize h)

variable {t k sql}

theorem Acquired.linked {h : StmtHandle} {hops since : List (Hop M E)} {mint : Hop M E}
    (g : Acquired t k sql h hops mint since) {w v : World M E} (linked : w.Linked hops v) :
    mint.after.Linked since v := by
  obtain ⟨before, rfl⟩ := g.split
  obtain ⟨_, -, -, -, hsince⟩ := linked_append.1 linked
  exact hsince

theorem Acquired.snoc {h : StmtHandle} {hops since : List (Hop M E)} {mint : Hop M E}
    (g : Acquired t k sql h hops mint since) (hop : Hop M E)
    (hh : h ∉ hop.after.state.registered) :
    Acquired t k sql h (hops ++ [hop]) mint (since ++ [hop]) where
  split := by
    obtain ⟨before, rfl⟩ := g.split
    exact ⟨before, by simp⟩
  answered := g.answered
  unregistered := by
    intro hop' hm
    rw [← List.cons_append, List.mem_append, List.mem_singleton] at hm
    rcases hm with hm | rfl
    · exact g.unregistered hop' hm
    · exact hh

theorem Unchanging.snoc {hops : List (Hop M E)} (g : Unchanging t k hops) {hop : Hop M E}
    (hh : hop.Own t k → hop.after.state = hop.before.state) : Unchanging t k (hops ++ [hop]) := by
  intro hop' hm
  rcases List.mem_append.1 hm with hm | hm
  · exact g hop' hm
  · rwa [List.mem_singleton.1 hm]

theorem Got.snoc {hops : List (Hop M E)} {answer : Option StmtHandle × ResultCode}
    (g : Got t k sql hops answer) (hop : Hop M E) : Got t k sql (hops ++ [hop]) answer := by
  obtain ⟨db, hop', hm, ha⟩ := g
  exact ⟨db, hop', List.mem_append_left _ hm, ha⟩

end Endings

/-! ## How a preparation can end -/

section Endings

variable {M : Machine} {E : Engine} (c : Connection) (w : World M E) (t : ThreadId) (sql : String)
  (lending : Lending) (hops : List (Hop M E)) (last : Hop M E) (o : Outcome)

/-- A statement is lent. It was idle, or the engine has brought it; in the last step, which found
the connection open, it was registered and it is not idle. -/
structure Lent (h : StmtHandle) : Prop where
  outcome : o = ⟨.ok .done, some (.fresh c lending h sql)⟩
  origin : lending = .cached ∧ w.state.cache.get? sql = some h ∨
    ∃ rc, rc.isOk = true ∧ Got t (w.depth t) sql hops (some h, rc)
  opened : last.before.state.isOpen = true
  registered : last.after.state.statements = last.before.state.statements.insert h sql
  busy : ∀ text, last.after.state.cache.get? text ≠ some h

/-- The connection was disposed in the meantime. The statement that the engine has brought in the
step `mint` was at no moment registered, and when the call returned, in the step `back`, the
preparation started to finalize it. Whoever else finalizes this handle is a rival. So one
finalization was started since the handle was brought exactly if there was no rival, and there is
none if the engine brings no handle twice. Since the call returned one was started exactly if no
rival came after that. None comes if no open and no preparation of another thread was under way when
the preparation started, whatever was started meanwhile, or if no other action was carried on any
more. -/
structure Withdrawn (h : StmtHandle) (mint : Hop M E) (before : List (Hop M E)) (back : Hop M E)
    (after : List (Hop M E)) : Prop where
  outcome : o = ⟨.error (Error.ofFault
    (.notOpened "connection closed while prepare() was in progress")), none⟩
  undisposed : w.state.disposed = false
  obtained : Acquired t (w.depth t) sql h hops mint (before ++ back :: after)
  finalized : back.Withdraws t (w.depth t) sql lending h
  apart : OnlyRivals t (w.depth t) h (before ++ after)
  once_iff : finalizers h last.after.history = t :: finalizers h mint.after.history ↔
    ∀ hop ∈ before ++ after, ¬hop.Rival t (w.depth t) h
  once : (∀ hop ∈ hops, ¬hop.Doubles) →
    finalizers h last.after.history = t :: finalizers h mint.after.history
  returned_iff : finalizers h last.after.history = t :: finalizers h back.before.history ↔
    ∀ hop ∈ after, ¬hop.Rival t (w.depth t) h
  returned : w.Unchallenged t ∨ (∀ hop ∈ after, ¬hop.Foreign t (w.depth t)) →
    finalizers h last.after.history = t :: finalizers h back.before.history

/-- The engine has brought no statement: its code is the code of the error, or, if it reports
success, the error is an inconsistency. No step of the preparation has changed the state. -/
structure Refused (rc : ResultCode) : Prop where
  got : Got t (w.depth t) sql hops (none, rc)
  outcome : if rc.isOk then
      o = ⟨.error (Error.ofFault (.inconsistent "engine did not return stmt")), none⟩
    else ∃ message, o = ⟨.error (Error.ofFault (failure c rc "prepare()" (some sql) message)), none⟩
  unchanging : Unchanging t (w.depth t) hops

inductive Ending where
  | lent
  | withdrawn
  | refused

def Ending.Holds : Ending → Prop
  | .lent => ∃ h, Lent c w t sql lending hops last o h
  | .withdrawn => ∃ h mint before back after,
    Withdrawn w t sql lending hops last o h mint before back after
  | .refused => ∃ rc, Refused c w t sql hops o rc

end Endings

section Endings

variable {M : Machine} {E : Engine} {c : Connection} {w : World M E} {t : ThreadId} {sql : String}
  {lending : Lending} {hops : List (Hop M E)} {last : Hop M E} {o : Outcome}

/-- The count of the finalizations follows from whose they are. -/
theorem Withdrawn.of_linked {h : StmtHandle} {mint back : Hop M E} {before after : List (Hop M E)}
    (outcome : o = ⟨.error (Error.ofFault
      (.notOpened "connection closed while prepare() was in progress")), none⟩)
    (undisposed : w.state.disposed = false)
    (obtained : Acquired t (w.depth t) sql h hops mint (before ++ back :: after))
    (finalized : back.Withdraws t (w.depth t) sql lending h)
    (apart : OnlyRivals t (w.depth t) h (before ++ after))
    (unrivalled : (∀ hop ∈ hops, ¬hop.Doubles) →
      ∀ hop ∈ before ++ after, ¬hop.Rival t (w.depth t) h)
    (settled : w.Unchallenged t → ∀ hop ∈ after, ¬hop.Rival t (w.depth t) h)
    (linked : w.Linked hops last.after) :
    Withdrawn w t sql lending hops last o h mint before back after := by
  have hsince := obtained.linked linked
  obtain ⟨_, -, hback⟩ := linked_append.1 hsince
  obtain rfl := hback.1
  have hback : back.before.Linked ([] ++ back :: after) last.after := hback
  have once_iff : finalizers h last.after.history = t :: finalizers h mint.after.history ↔
      ∀ hop ∈ before ++ after, ¬hop.Rival t (w.depth t) h := by
    rw [finalizers_once_iff hsince finalized.calls]
    exact forall₂_congr fun hop hm => not_congr ⟨apart hop hm, Hop.Rival.finalizes⟩
  have returned_iff : finalizers h last.after.history = t :: finalizers h back.before.history ↔
      ∀ hop ∈ after, ¬hop.Rival t (w.depth t) h := by
    rw [finalizers_once_iff hback finalized.calls]
    exact forall₂_congr fun hop hm =>
      not_congr ⟨apart hop (List.mem_append_right _ hm), Hop.Rival.finalizes⟩
  refine ⟨outcome, undisposed, obtained, finalized, apart, once_iff,
    fun single => once_iff.2 (unrivalled single), returned_iff, fun h => returned_iff.2 ?_⟩
  rcases h with unchallenged | alone
  · exact settled unchallenged
  · exact fun hop hm r => alone hop hm r.foreign

/-- The ending that an outcome tells of. -/
def Ending.told (o : Outcome) : Ending :=
  match o.result with
  | .ok _ => .lent
  | .error e =>
    match e.cause with
    | .fault (.notOpened _) => .withdrawn
    | _ => .refused

theorem Ending.Holds.eq_told {x : Ending} (hx : x.Holds c w t sql lending hops last o) :
    x = .told o := by
  cases x with
  | lent =>
    obtain ⟨h, hlent⟩ := hx
    rw [hlent.outcome]
    rfl
  | withdrawn =>
    obtain ⟨h, mint, before, back, after, hwithdrawn⟩ := hx
    rw [hwithdrawn.outcome]
    rfl
  | refused =>
    obtain ⟨rc, hrefused⟩ := hx
    have houtcome := hrefused.outcome
    split at houtcome
    · rw [houtcome]
      rfl
    · obtain ⟨message, houtcome⟩ := houtcome
      rw [houtcome]
      rfl

end Endings

/-! ## From pause to pause -/

section Midway

variable {c : Connection} {E : Engine} {w v v' : World (phases c) E} {l : Label E} {t : ThreadId}
  {sql : String} {lending : Lending} {hops : List (Hop (phases c) E)}

/-- The preparation has come too late, and finalizes what it has got. -/
structure TooLate (t : ThreadId) (k : Nat) (sql : String) (lending : Lending) (h : StmtHandle)
    (hops : List (Hop (phases c) E)) (mint : Hop (phases c) E) (before : List (Hop (phases c) E))
    (back : Hop (phases c) E) (after : List (Hop (phases c) E)) (v : World (phases c) E)
    (f : Frame (phases c)) : Prop where
  acquired : Acquired t k sql h hops mint (before ++ back :: after)
  finalized : back.Withdraws t k sql lending h
  apart : OnlyRivals t k h (before ++ after)
  unrivalled : Unrivalled t k h hops (before ++ after) v f
  disposed : v.state.disposed = true
  settled : back.before.Unchallenged t →
    v.Unchallenged t ∧ v.Innermost t k ∧ ∀ hop ∈ after, ¬hop.Rival t k h

theorem TooLate.snoc {k : Nat} {h : StmtHandle} {mint back : Hop (phases c) E}
    {before after : List (Hop (phases c) E)} {f g : Frame (phases c)}
    (late : TooLate t k sql lending h hops mint before back after v f) (tidy : Tidy v)
    (hs : v.step l = some v') (hother : ∀ i f, v.At t k i f → l ≠ .resume i)
    (hr : h ∉ v'.state.registered)
    (hhop : (Hop.mk v l v').Finalizes h → (Hop.mk v l v').Rival t k h)
    (unrivalled : Unrivalled t k h (hops ++ [⟨v, l, v'⟩]) (before ++ after ++ [⟨v, l, v'⟩]) v' g) :
    TooLate t k sql lending h (hops ++ [⟨v, l, v'⟩]) mint before back (after ++ [⟨v, l, v'⟩])
      v' g := by
  have acquired := late.acquired.snoc ⟨v, l, v'⟩ hr
  have apart := late.apart.snoc hhop
  rw [List.append_assoc] at acquired apart unrivalled
  refine ⟨acquired, late.finalized, apart, unrivalled, step_disposed hs late.disposed, fun a => ?_⟩
  obtain ⟨a, top, hnone⟩ := late.settled a
  exact ⟨unchallenged_step tidy a hs, innermost_step top late.disposed hs hother,
    List.forall_mem_append.2 ⟨hnone, List.forall_mem_singleton.2 (top.not_rival tidy a hs)⟩⟩

/-- How far a preparation has come when it waits for a call. -/
inductive Midway (t : ThreadId) (k : Nat) (sql : String) (lending : Lending)
    (hops : List (Hop (phases c) E)) (v : World (phases c) E) : Frame (phases c) → Prop
  | waits {task : Task} {db : DbHandle} (unchanging : Unchanging t k hops) :
    Midway t k sql lending hops v ⟨t, task, .preparing db sql lending, none⟩
  /-- The engine has answered. -/
  | answered {task : Task} {db : DbHandle} {h? : Option StmtHandle} {rc : ResultCode}
    (unchanging : Unchanging t k hops) (got : Got t k sql hops (h?, rc))
    (candid : ¬rc.isOk = true → h? = none)
    (acquired : ∀ h, h? = some h → ∃ mint since, Acquired t k sql h hops mint since ∧
      OnlyRivals t k h since ∧ Unrivalled t k h hops since v ⟨t, task, .preparing db sql lending,
        some ((h?, rc) : (EngineCall.prepare db sql).Answer)⟩) :
    Midway t k sql lending hops v
      ⟨t, task, .preparing db sql lending, some ((h?, rc) : (EngineCall.prepare db sql).Answer)⟩
  /-- The engine has failed and is asked for the message. -/
  | failing {task : Task} {db : DbHandle} {rc : ResultCode} {answer : Option (Except Error String)}
    (unchanging : Unchanging t k hops) (got : Got t k sql hops (none, rc))
    (failed : ¬rc.isOk = true) :
    Midway t k sql lending hops v
      ⟨t, task, .failing c db rc "prepare()" (some sql) .prepare, answer⟩
  /-- The connection was disposed, and the statement is finalized. -/
  | late {task : Task} {h : StmtHandle} {mint back : Hop (phases c) E}
    {before after : List (Hop (phases c) E)} {answer : Option ResultCode}
    (late : TooLate t k sql lending h hops mint before back after v
      ⟨t, task, .prepareLate h sql, answer⟩) :
    Midway t k sql lending hops v ⟨t, task, .prepareLate h sql, answer⟩

theorem not_own {k i : Nat} {f : Frame (phases c)} (hat : v.At t k i f) (hresume : l ≠ .resume i) :
    ¬(Hop.mk v l v').Own t k := by
  intro hown
  cases l with
  | start u a => exact absurd hat.lt_depth (by rw [hown.2]; exact Nat.lt_irrefl k)
  | resume j =>
    obtain ⟨g, hg⟩ := hown
    exact hresume (by rw [hg.unique hat])
  | act j => exact hown
  | drift e => exact hown

variable {k i : Nat} {task : Task} {f : Frame (phases c)}

/-- A statement that is not registered is finalized by the action that it has just come to. -/
theorem rival_of_finalizes (hbooked : v.state.disposed = false → v.Booked) {h : StmtHandle}
    (hr : h ∉ v.state.registered) (hown : ¬(Hop.mk v l v').Own t k)
    (hf : (Hop.mk v l v').Finalizes h) : (Hop.mk v l v').Rival t k h := by
  obtain ⟨u, task, hcalls⟩ := hf
  rcases finalize_called hbooked hcalls with hreg | harrives
  · exact absurd hreg hr
  · exact ⟨hown, ⟨u, task, hcalls⟩, harrives⟩

theorem Midway.foreign (m : Midway t k sql lending hops v f)
    (a : Withheld v.state v.frames v.history) (a' : Withheld v'.state v'.frames v'.history)
    (hbooked : v.state.disposed = false → v.Booked) (tidy : Tidy v) (hs : v.step l = some v')
    (hat : v.At t k i f) (htask : f.task = .prepare sql lending) {j : Nat} (hat' : v'.At t k j f)
    (hresume : l ≠ .resume i) : Midway t k sql lending (hops ++ [⟨v, l, v'⟩]) v' f := by
  have hown : ¬(Hop.mk v l v').Own t k := not_own hat hresume
  have hmem := List.mem_of_getElem? hat.frame
  have hmem' := List.mem_of_getElem? hat'.frame
  cases m with
  | waits unchanging => exact .waits (unchanging.snoc fun h => absurd h hown)
  | answered unchanging got candid acquired =>
    refine .answered (unchanging.snoc fun h => absurd h hown) (got.snoc _) candid ?_
    rintro h rfl
    have hh := List.mem_singleton_self h
    obtain ⟨mint, since, hacquired, hapart, unrivalled⟩ := acquired h rfl
    exact ⟨mint, _, hacquired.snoc _ (a'.pending _ hmem' h hh),
      hapart.snoc (rival_of_finalizes hbooked (a.pending _ hmem h hh) hown),
      unrivalled.foreign hs hat (.inl hh)⟩
  | failing unchanging got failed =>
    exact .failing (unchanging.snoc fun h => absurd h hown) (got.snoc _) failed
  | late late =>
    have hother : ∀ i f, v.At t k i f → l ≠ .resume i := fun _ _ hat' => hat'.unique hat ▸ hresume
    exact .late (late.snoc tidy hs hother (a'.late _ hmem' _ _ rfl)
      (rival_of_finalizes hbooked (a.late _ hmem _ _ rfl) hown)
      (late.unrivalled.foreign hs hat (.inr ⟨⟨_, _, htask⟩, rfl⟩)))

theorem ok_of_candid {db : DbHandle} {answer : (EngineCall.prepare db sql).Answer}
    (h : (EngineCall.prepare db sql).Candid answer) (hh : answer.1.isSome = true) :
    answer.2.isOk = true := by
  obtain ⟨_ | k, rc⟩ := answer
  · cases hh
  · exact h

theorem Midway.acts {p : Phase} (m : Midway t k sql lending hops v ⟨t, task, p, none⟩)
    (a' : Withheld (v.acted i t task p).state (v.acted i t task p).frames
      (v.acted i t task p).history)
    (tidy : Tidy v) (hs : v.step (.act i) = some (v.acted i t task p))
    (hcandid : (p.call c).Candid (E.answer v.engine (p.call c)).1)
    (hat : v.At t k i ⟨t, task, p, none⟩)
    (hat' : (v.acted i t task p).At t k i ⟨t, task, p, some (E.answer v.engine (p.call c)).1⟩) :
    Midway t k sql lending (hops ++ [⟨v, .act i, v.acted i t task p⟩]) (v.acted i t task p)
      ⟨t, task, p, some (E.answer v.engine (p.call c)).1⟩ := by
  have hmem' := List.mem_of_getElem? hat'.frame
  cases m with
  | @waits _ db unchanging =>
    refine .answered (unchanging.snoc fun h => h.elim)
      ⟨db, _, List.mem_append_right _ (List.mem_singleton_self _), i, _, hat', rfl⟩
      (fun hok => Option.not_isSome_iff_eq_none.1 (mt (ok_of_candid hcandid) hok)) fun h hh => ?_
    have hanswer : (E.answer v.engine (.prepare db sql)).1 = (some h, _) := Prod.ext hh rfl
    have hminting : minting (.prepare db sql) (E.answer v.engine (.prepare db sql)).1
        = [.minted db h] := by rw [hanswer]; rfl
    have hpending : h ∈ arriving (.prepare db sql) (E.answer v.engine (.prepare db sql)).1 := by
      rw [hanswer]
      exact List.mem_singleton_self h
    have hmint : (v.acted i t task (.preparing db sql lending)).history
        = .minted db h :: v.history := congrArg (· ++ v.history) hminting
    refine ⟨⟨v, .act i, _⟩, [], ⟨⟨hops, rfl⟩, ⟨db, _, ok_of_candid hcandid (by rw [hh]; rfl),
      hmint, i, _, hat', ?_⟩, ?_⟩, List.forall_mem_nil _, .minted hat.frame hmint⟩
    · exact congrArg (fun answer => some (Exchange.mk (.prepare db sql) answer)) hanswer
    · rintro hop hm
      rw [List.mem_singleton.1 hm]
      exact a'.pending _ hmem' h hpending
  | failing unchanging got failed =>
    exact .failing (unchanging.snoc fun h => h.elim) (got.snoc _) failed
  | late late =>
    refine .late (late.snoc tidy hs (by simp) (a'.late _ hmem' _ _ rfl)
      (fun hf => absurd hf Hop.not_finalizes_act)
      (late.unrivalled.snoc fun _ hwait => ⟨?_, fun r => Hop.not_finalizes_act r.finalizes⟩))
    rw [awaiting_acted hat.frame]
    exact Nat.add_le_add_left hwait _

section Resumes

variable {p : Phase} {answer : (p.call c).Answer}

theorem resumed_state {m : Move} :
    ((v.returned i t (p.call c)).proceed t task true m).state = m.state := proceed_state ..

theorem Midway.goes {q : Phase} (m : Midway t k sql lending hops v ⟨t, task, p, some answer⟩)
    (htask : task = .prepare sql lending) (tidy : Tidy v) (hs : v.step (.resume i) = some v')
    (hat : v.At t k i ⟨t, task, p, some answer⟩)
    (opened : v.state.disposed = false → v.state.handle.isSome = true)
    (next : (p.resume c t answer v.state).next = .inl q)
    (world : v' = (v.returned i t (p.call c)).proceed t task true (p.resume c t answer v.state))
    (a' : Withheld v'.state v'.frames v'.history) (hat' : v'.At t k 0 ⟨t, task, q, none⟩) :
    Midway t k sql lending (hops ++ [⟨v, .resume i, v'⟩]) v' ⟨t, task, q, none⟩ := by
  subst htask
  have hmem' := List.mem_of_getElem? hat'.frame
  have hstate : v'.state = (p.resume c t answer v.state).state := world ▸ resumed_state
  have hnext := next
  cases m with
  | @answered _ db h? rc unchanging got candid acquired =>
    have hrest := preparing_rest (c := c) (t := t) (s := v.state) db sql lending h? rc
    generalize (Phase.preparing db sql lending).resume c t (h?, rc) v.state = m at next hstate hrest
    cases hrest with
    | nothing _ ends => cases ends.symm.trans next
    | lends _ _ ends => cases ends.symm.trans next
    | fails _ ends => cases ends.symm.trans next
    | @late h _ closed waits =>
      cases waits.symm.trans next
      have hd : v.state.disposed = true := by
        by_contra hd
        exact closed (opened (by simpa using hd))
      obtain ⟨mint, since, hacquired, hapart, unrivalled⟩ := acquired h rfl
      have innermost : v'.Innermost t k := ⟨0, _, hat', List.forall_mem_nil _⟩
      refine .late ⟨hacquired.snoc ⟨v, .resume i, v'⟩ (a'.late _ hmem' _ _ rfl),
        ⟨⟨_, hat⟩, hd, _, _, hat.frame, _, hnext, rfl⟩, by rwa [List.append_nil], fun hnot => ?_,
        step_disposed hs hd,
        fun a => ⟨unchallenged_step tidy a hs, innermost, List.forall_mem_nil _⟩⟩
      obtain ⟨hwait, hnone⟩ := unrivalled (List.forall_mem_append.1 hnot).1
      refine ⟨?_, by rwa [List.append_nil]⟩
      -- the handle that the action waited with has arrived
      rw [awaiting_erase hat.frame] at hwait
      have hrest : ((v.frames.eraseIdx i).flatMap Frame.pending).count h = 0 := by omega
      rw [world]
      exact Nat.le_trans (Nat.le_of_eq (awaiting_proceed.trans hrest)) (Nat.zero_le _)
    | asks failed waits state =>
      cases waits.symm.trans next
      obtain rfl := candid failed
      exact .failing (unchanging.snoc fun _ => hstate.trans state) (got.snoc _) failed
  | failing _ _ _ => cases next
  | late _ => cases next

theorem Midway.ends {o : Outcome}
    (m : Midway t (w.depth t) sql lending hops v ⟨t, task, p, some answer⟩)
    (hat : v.At t (w.depth t) i ⟨t, task, p, some answer⟩) (undisposed : w.state.disposed = false)
    (hbooked : v.state.disposed = false → v.Booked) (closed : Closed v.state)
    (next : (p.resume c t answer v.state).next = .inr o)
    (world : v' = (v.returned i t (p.call c)).proceed t task true (p.resume c t answer v.state))
    (a : Withheld v.state v.frames v.history) (tidy : Tidy w)
    (linked : w.Linked (hops ++ [⟨v, .resume i, v'⟩]) v') :
    ∃ x : Ending,
      x.Holds c w t sql lending (hops ++ [⟨v, .resume i, v'⟩]) ⟨v, .resume i, v'⟩ o := by
  have hmem := List.mem_of_getElem? hat.frame
  have hstate : v'.state = (p.resume c t answer v.state).state := world ▸ resumed_state
  have hnext := next
  cases m with
  | @answered _ db h? rc unchanging got candid acquired =>
    have hrest := preparing_rest (c := c) (t := t) (s := v.state) db sql lending h? rc
    generalize (Phase.preparing db sql lending).resume c t (h?, rc) v.state = m at next hstate hrest
    cases hrest with
    | late _ _ waits => cases waits.symm.trans next
    | asks _ waits => cases waits.symm.trans next
    | nothing ok ends state =>
      cases ends.symm.trans next
      exact ⟨.refused, rc, got.snoc _, by rw [if_pos ok],
        unchanging.snoc fun _ => hstate.trans state⟩
    | fails failed ends state =>
      cases ends.symm.trans next
      obtain rfl := candid failed
      exact ⟨.refused, rc, got.snoc _, by rw [if_neg failed]; exact ⟨_, rfl⟩,
        unchanging.snoc fun _ => hstate.trans state⟩
    | @lends h ok opened ends state =>
      cases ends.symm.trans next
      have hd : v.state.disposed = false := undisposed_of_handle closed opened
      have hafter : v'.state
          = { v.state with statements := v.state.statements.insert h sql } :=
        (hstate.trans state).trans (if_pos opened)
      refine ⟨.lent, h, rfl, .inr ⟨rc, ok, got.snoc _⟩, ?_, ?_, fun text hidle => ?_⟩
      · simp [State.isOpen, opened, hd]
      · rw [hafter]
      · -- what is idle is registered, and this handle has just arrived
        have hidle : v.state.cache.get? text = some h := by rwa [hafter] at hidle
        have hentry := (v.state.cache.table.mem_entries_iff text h).2 hidle
        have hreg := State.mem_registered ((hbooked hd).shelved hd _ hentry)
        exact a.pending _ hmem h (List.mem_singleton_self h) hreg
  | @failing _ db rc _ unchanging got failed =>
    cases next
    exact ⟨.refused, rc, got.snoc _, by rw [if_neg failed]; exact ⟨_, rfl⟩,
      unchanging.snoc fun _ => hstate⟩
  | @late _ h mint back before after _ late =>
    cases next
    have hreg : h ∉ v'.state.registered := by
      rw [hstate]
      exact a.late _ hmem h sql rfl
    have hlast : ¬(Hop.mk v (.resume i) v').Finalizes h := by
      rintro ⟨_, _, _, _, hf, q, hq, -⟩
      cases hat.frame.symm.trans hf
      cases hnext.symm.trans hq
    have hacquired := late.acquired.snoc ⟨v, .resume i, v'⟩ hreg
    have hapart := late.apart.snoc fun hf => absurd hf hlast
    rw [List.append_assoc, List.cons_append] at hacquired
    rw [List.append_assoc] at hapart
    refine ⟨.withdrawn, h, mint, before, back, after ++ [⟨v, .resume i, v'⟩],
      .of_linked rfl undisposed hacquired late.finalized hapart (fun hnot => ?_)
        (fun unchallenged => ?_) linked⟩
    · have hnone := (late.unrivalled (List.forall_mem_append.1 hnot).1).2
      rw [← List.append_assoc]
      exact List.forall_mem_append.2 ⟨hnone, List.forall_mem_singleton.2 fun r => hlast r.finalizes⟩
    · obtain ⟨past, hpast⟩ := late.acquired.split
      have hsplit : hops = (past ++ mint :: before) ++ back :: after := by simp [hpast]
      rw [hsplit, List.append_assoc] at linked
      obtain ⟨_, hback, rfl, -⟩ := linked_append.1 linked
      have hnone := (late.settled (unchallenged_linked tidy unchallenged hback)).2.2
      exact List.forall_mem_append.2 ⟨hnone, List.forall_mem_singleton.2 fun r => hlast r.finalizes⟩

end Resumes

/-- How a preparation begins that may go on: it asks the engine and has changed nothing, or it lends
the idle statement of the text. -/
theorem prepare_cases {s : State} (ready : Ready t s) (sql : String) (lending : Lending) :
    (∃ db, (phaseStart c t s (.prepare sql lending)).next = .inl (.preparing db sql lending) ∧
      (phaseStart c t s (.prepare sql lending)).state = s) ∨
    ∃ h, lending = .cached ∧ s.cache.get? sql = some h ∧
      (phaseStart c t s (.prepare sql lending)).next
        = .inr ⟨.ok .done, some (.fresh c lending h sql)⟩ ∧
      (phaseStart c t s (.prepare sql lending)).state
        = { s with cache := s.cache.take sql, statements := s.statements.insert h sql } := by
  obtain ⟨db, hdb⟩ := Option.isSome_iff_exists.1 ready.opened
  have hpermit : permit c t s = .ok () := permit_eq_ok_iff.2 ready.admitted
  have hopen : s.openHandle = .ok db := by simp [State.openHandle, ready.undisposed, hdb]
  have hlend : s.lend sql = { s with cache := s.cache.take sql } :=
    if_pos (by simp [State.isOpen, ready.undisposed, hdb])
  simp only [phaseStart, hpermit, hopen]
  cases lending with
  | uncached => exact .inl ⟨db, rfl, rfl⟩
  | cached =>
    cases hg : s.cache.get? sql with
    | none => exact .inl ⟨db, rfl, lend_of_none hg⟩
    | some h =>
      refine .inr ⟨h, rfl, rfl, ?_⟩
      simp only [if_true, registerChunk, hlend, hdb, Option.isSome_some, State.register]
      exact ⟨rfl, rfl⟩

variable {e : E.State} {ls : List (Label E)}

theorem run_fresh (run : Run (phases c) E e Reliable ls w) : Run (phases c) E e MintsFresh ls w :=
  run_mono (fun _ _ _ h => h.fresh) run

/-- **How far a preparation has come.** -/
theorem midway_underway (run : Run (phases c) E e Reliable ls w)
    (h : w.Underway Reliable t (.prepare sql lending) hops v) :
    (v.state.disposed = false → v.state.handle.isSome = true) ∧
      ∃ i f, v.At t (w.depth t) i f ∧ f.task = .prepare sql lending ∧
        Midway t (w.depth t) sql lending hops v f := by
  induction h with
  | @start a v call hcalls hs hr =>
    obtain ⟨-, ht, q, hq, -⟩ := hcalls
    have hq : (phaseStart c t w.state (.prepare sql lending)).next = .inl q := hq
    obtain ⟨ready, db, -, rfl⟩ := prepare_next hq
    obtain rfl : w.start t (.prepare sql lending) = v := by simpa [World.step, ht] using hs
    have hstate : (w.start t (.prepare sql lending)).state = w.state := by
      rcases prepare_cases (c := c) ready sql lending with ⟨_, _, hsame⟩ | ⟨_, _, _, hn, _⟩
      · exact (proceed_state ..).trans hsame
      · cases hn.symm.trans hq
    refine ⟨fun _ => hstate ▸ ready.opened, 0, _,
      proceed_at (w := w.entered t (.prepare sql lending)) hq, rfl, .waits fun hop hm _ => ?_⟩
    rw [List.mem_singleton.1 hm]
    exact hstate
  | @step hops v v' l underway hs hr hdeep ih =>
    obtain ⟨opened, i, f, hat, htask, m⟩ := ih
    obtain ⟨ls', run'⟩ := run_underway run underway
    have a := run_withheld (run_fresh run')
    have a' := run_withheld (run_fresh (run'.snoc hs hr))
    have tidy := run_tidy run'
    refine ⟨fun hd' => step_opened hs (opened (undisposed_of_step hs hd')) hd', ?_⟩
    cases at_step hat hs with
    | waits hact hresume after =>
      exact ⟨_, f, after, htask,
        m.foreign a a' (booked_of_undisposed (run_fresh run')) tidy hs hat htask after hresume⟩
    | acts after =>
      exact ⟨i, _, after, htask, m.acts a' tidy hs (hr.candid i _ rfl hat.frame) hat after⟩
    | goes next world after =>
      exact ⟨0, _, after, htask, m.goes htask tidy hs hat opened next world a' after⟩
    | ends _ _ after => exact absurd hdeep (by simp [after])

/-- A preparation that may go on ends in one of the three ways. -/
theorem passage_ends (run : Run (phases c) E e Reliable ls w) (ready : Ready t w.state)
    {last : Hop (phases c) E} {o : Outcome}
    (h : w.Passage Reliable t (.prepare sql lending) hops last o) :
    ∃ x : Ending, x.Holds c w t sql lending hops last o := by
  cases h with
  | @atOnce a v _ hends hs hr =>
    obtain ⟨-, ht, hn⟩ := hends
    have hn : (phaseStart c t w.state (.prepare sql lending)).next = .inr o := hn
    obtain rfl : w.start t (.prepare sql lending) = v := by simpa [World.step, ht] using hs
    rcases prepare_cases (c := c) ready sql lending with
      ⟨_, hpauses, _⟩ | ⟨h, hcached, hidle, hends, hstate⟩
    · cases hpauses.symm.trans hn
    · cases hends.symm.trans hn
      have hstate : (w.start t (.prepare sql lending)).state = _ := (proceed_state ..).trans hstate
      refine ⟨.lent, h, rfl, .inl ⟨hcached, hidle⟩, ?_, by rw [hstate], fun text htext => ?_⟩
      · simp [State.isOpen, ready.undisposed, ready.opened]
      · -- it was idle for its own text only
        have b := booked_of_undisposed (run_fresh run) ready.undisposed
        have hnamed : ∀ {text}, w.state.cache.get? text = some h →
            w.state.statements.get? h = some text := fun hg =>
          b.shelved ready.undisposed _ ((w.state.cache.table.mem_entries_iff _ h).2 hg)
        have htake : (w.state.cache.take sql).get? text = some h := by rwa [hstate] at htext
        rw [Cache.get?_take] at htake
        split at htake
        · cases htake
        · next hne =>
          exact hne (Option.some.inj ((hnamed htake).symm.trans (hnamed hidle)))
  | @later hops v v' l _ underway hs hr back hends =>
    have linked := linked_passage (World.Passage.later underway hs hr back hends)
    obtain ⟨opened, i, f, hat, htask, m⟩ := midway_underway run underway
    obtain ⟨ls', run'⟩ := run_underway run underway
    cases at_step hat hs with
    | waits _ _ after => exact absurd after.lt_depth (by simp [back])
    | acts after => exact absurd after.lt_depth (by simp [back])
    | goes _ _ after => exact absurd after.lt_depth (by simp [back])
    | ends next world _ =>
      obtain ⟨p, answer, hf, hn⟩ := hends
      cases hf.symm.trans hat.frame
      exact m.ends hat ready.undisposed (booked_of_undisposed (run_fresh run'))
        (run_drains run').closed hn world (run_withheld (run_fresh run')) (run_tidy run) linked

end Midway

/-! ## Programs -/

section Realize

variable {c : Connection} {E : Engine} {w : World (phases c) E} {t : ThreadId} {k : Nat}
  {sql : String} {lending : Lending} {hops : List (Hop (phases c) E)} {last : Hop (phases c) E}
  {o : Outcome}

theorem Got.realize {answer : Option StmtHandle × ResultCode} (g : Got t k sql hops answer) :
    Got t k sql (hops.map Hop.realize) answer := by
  obtain ⟨db, hop, hm, ha⟩ := g
  exact ⟨db, _, List.mem_map_of_mem hm, realize_answered ha⟩

theorem Unchanging.realize (g : Unchanging t k hops) :
    Unchanging t k (hops.map Hop.realize) := by
  intro hop hm hown
  obtain ⟨hop', hm', rfl⟩ := List.mem_map.1 hm
  exact g hop' hm' (hop'.realize_own.1 hown)

theorem Acquired.realize {h : StmtHandle} {mint : Hop (phases c) E}
    {since : List (Hop (phases c) E)} (g : Acquired t k sql h hops mint since) :
    Acquired t k sql h (hops.map Hop.realize) mint.realize (since.map Hop.realize) where
  split := by
    obtain ⟨before, rfl⟩ := g.split
    exact ⟨before.map Hop.realize, by simp⟩
  answered := by
    obtain ⟨db, rc, hok, hminted, ha⟩ := g.answered
    exact ⟨db, rc, hok, hminted, realize_answered ha⟩
  unregistered := by
    intro hop hm
    rw [← List.map_cons] at hm
    obtain ⟨hop', hm', rfl⟩ := List.mem_map.1 hm
    exact g.unregistered hop' hm'

theorem Frame.realize_pending (f : Frame (phases c)) : f.realize.pending = f.pending := by
  obtain ⟨u, task, p, _ | answer⟩ := f <;> rfl

theorem Frame.Has.realize {f : Frame (phases c)} {h : StmtHandle} (has : f.Has h) :
    f.realize.Has h :=
  has.imp_left fun hh => f.realize_pending ▸ hh

theorem Hop.Doubles.realize {hop : Hop (phases c) E} (d : hop.Doubles) : hop.realize.Doubles := by
  obtain ⟨db, h, hmint, f, hf, has⟩ := d
  exact ⟨db, h, hmint, _, List.mem_map_of_mem hf, has.realize⟩

theorem Hop.realize_finalizes (hop : Hop (phases c) E) {h : StmtHandle} :
    hop.realize.Finalizes h ↔ hop.Finalizes h :=
  exists_congr fun u => exists_congr fun task => realize_calls hop.before hop.label u task _

theorem Hop.realize_rival (hop : Hop (phases c) E) {h : StmtHandle} :
    hop.realize.Rival t k h ↔ hop.Rival t k h := by
  have hframes : hop.realize.before.frames = hop.before.frames.map Frame.realize := rfl
  constructor
  · rintro ⟨other, finalizes, i, g, hl, hg, hh⟩
    rw [hframes, List.getElem?_map, Option.map_eq_some_iff] at hg
    obtain ⟨f, hf, rfl⟩ := hg
    exact ⟨fun hown => other (hop.realize_own.2 hown), hop.realize_finalizes.1 finalizes, i, f, hl,
      hf, f.realize_pending ▸ hh⟩
  · rintro ⟨other, finalizes, i, f, hl, hf, hh⟩
    refine ⟨fun hown => other (hop.realize_own.1 hown), hop.realize_finalizes.2 finalizes, i,
      f.realize, hl, ?_, f.realize_pending ▸ hh⟩
    rw [hframes, List.getElem?_map, hf]
    rfl

theorem World.Unchallenged.of_realize (a : w.realize.Unchallenged t) : w.Unchallenged t :=
  ⟨a.owned, fun f hf => a.opens f.realize (List.mem_map_of_mem hf),
    fun f hf => a.prepares f.realize (List.mem_map_of_mem hf)⟩

theorem OnlyRivals.realize {h : StmtHandle} (a : OnlyRivals t k h hops) :
    OnlyRivals t k h (hops.map Hop.realize) := by
  intro hop hm hf
  obtain ⟨hop', hm', rfl⟩ := List.mem_map.1 hm
  exact hop'.realize_rival.2 (a hop' hm' (hop'.realize_finalizes.1 hf))

theorem Hop.Withdraws.realize {hop : Hop (phases c) E} {h : StmtHandle}
    (d : hop.Withdraws t k sql lending h) : hop.realize.Withdraws t k sql lending h :=
  ⟨hop.realize_own.2 d.own, d.disposed, (realize_calls ..).2 d.calls⟩

theorem Ending.Holds.realize {x : Ending} (h : x.Holds c w t sql lending hops last o)
    (linked : w.realize.Linked (hops.map Hop.realize) last.realize.after) :
    x.Holds c w.realize t sql lending (hops.map Hop.realize) last.realize o := by
  have hdepth := w.realize_depth t
  cases x with
  | lent =>
    obtain ⟨h, ⟨houtcome, horigin, hopened, hregistered, hbusy⟩⟩ := h
    refine ⟨h, houtcome, ?_, hopened, hregistered, hbusy⟩
    rcases horigin with horigin | ⟨rc, hok, hgot⟩
    · exact .inl horigin
    · exact .inr ⟨rc, hok, hdepth ▸ hgot.realize⟩
  | withdrawn =>
    obtain ⟨h, mint, before, back, after, withdrawn⟩ := h
    have hacquired := withdrawn.obtained.realize
    have hapart := withdrawn.apart.realize
    have hunrivalled : (∀ hop ∈ hops.map Hop.realize, ¬hop.Doubles) →
        ∀ hop ∈ (before ++ after).map Hop.realize, ¬hop.Rival t (w.depth t) h := by
      intro hnot hop hm r
      obtain ⟨hop', hm', rfl⟩ := List.mem_map.1 hm
      have hsingle := withdrawn.once fun hop hm d => hnot _ (List.mem_map_of_mem hm) d.realize
      exact withdrawn.once_iff.1 hsingle hop' hm' (hop'.realize_rival.1 r)
    have hsettled : w.realize.Unchallenged t →
        ∀ hop ∈ after.map Hop.realize, ¬hop.Rival t (w.depth t) h := by
      intro a hop hm r
      obtain ⟨hop', hm', rfl⟩ := List.mem_map.1 hm
      have hreturned := withdrawn.returned (.inl a.of_realize)
      exact withdrawn.returned_iff.1 hreturned hop' hm' (hop'.realize_rival.1 r)
    rw [List.map_append] at hacquired hapart hunrivalled
    exact ⟨h, mint.realize, _, back.realize, _, .of_linked withdrawn.outcome withdrawn.undisposed
      (hdepth ▸ hacquired) (hdepth ▸ withdrawn.finalized.realize) (hdepth ▸ hapart)
      (hdepth ▸ hunrivalled) (hdepth ▸ hsettled) linked⟩
  | refused =>
    obtain ⟨rc, hgot, houtcome, hunchanging⟩ := h
    exact ⟨rc, hdepth ▸ hgot.realize, houtcome, hdepth ▸ hunchanging.realize⟩

end Realize

/-- **A preparation of the owner of an open connection is all or nothing.** Whatever the engine
answers and whatever any thread does meanwhile, it ends in exactly one of three ways: a statement is
lent, or it is withdrawn because the connection was disposed, or the engine has brought none. In the
last case, if no other action was carried on meanwhile, the connection is as before. -/
theorem prepared_or_undone {c : Connection} {E : Engine} {e : E.State} {ls : List (Label E)}
    {w : World (programs c) E} (run : Run (programs c) E e Reliable ls w) {t : ThreadId}
    (owner : w.state.owner = some t) (opened : w.state.isOpen = true) {sql : String}
    {lending : Lending} {hops : List (Hop (programs c) E)} {last : Hop (programs c) E} {o : Outcome}
    (passage : w.Passage Reliable t (.prepare sql lending) hops last o) :
    (∃! x : Ending, x.Holds c w t sql lending hops last o) ∧
    (Ending.refused.Holds c w t sql lending hops last o →
      (∀ hop ∈ hops, ¬hop.Foreign t (w.depth t)) → last.after.state = w.state) := by
  refine ⟨?_, fun ⟨rc, hrefused⟩ alone => ?_⟩
  · obtain ⟨v, rfl, hv⟩ := (run_programs_congr realize_reliable).1 run
    obtain ⟨hops', last', rfl, rfl, hpassage⟩ := passage_realize realize_reliable passage
    have hopened := Bool.and_eq_true_iff.1 opened
    have ready : Ready t v.state :=
      ⟨by simp [bars, show v.state.owner = some t from owner], by simpa using hopened.2, hopened.1⟩
    obtain ⟨x, hx⟩ := passage_ends hv ready hpassage
    have hx := hx.realize (linked_passage passage)
    exact ⟨x, hx, fun y hy => hy.eq_told.trans hx.eq_told.symm⟩
  · exact passage_state passage fun hop hm => ⟨alone hop hm, hrefused.unchanging hop hm⟩

/-- A thread prepares a statement. When the engine has compiled it, and before it returns, the
thread disposes the connection. -/
def disposedMeanwhile : List (Label recording) :=
  [.act 0, .start ⟨0⟩ .dispose, .act 0, .resume 0, .act 0, .resume 0, .resume 0, .act 0]

/-- The engine has answered a preparation and brought no statement. -/
def Frame.barren {M : Machine} (f : Frame M) : Bool :=
  match f.exchange? with
  | some ⟨.prepare .., (none, _)⟩ => true
  | _ => false

/-- Its statement is withdrawn. -/
theorem disposedMeanwhile_withdrawn :
    ∃ w last o, Run (programs inMemory) recording .initial Reliable
        [.start ⟨0⟩ (.open .readWriteCreate), .act 0, .resume 0] w ∧
      w.Passage Reliable ⟨0⟩ (.prepare "SELECT 1" .cached)
        (w.trail (.start ⟨0⟩ (.prepare "SELECT 1" .cached) :: disposedMeanwhile ++ [.resume 0]))
        last o ∧
      Ending.withdrawn.Holds inMemory w ⟨0⟩ "SELECT 1" .cached
        (w.trail (.start ⟨0⟩ (.prepare "SELECT 1" .cached) :: disposedMeanwhile ++ [.resume 0]))
        last o := by
  let start : Label recording := .start ⟨0⟩ (.prepare "SELECT 1" .cached)
  obtain ⟨w, run, hw⟩ := exists_run (M := programs inMemory) (e := RecordingEngine.initial)
    Reliable [.start ⟨0⟩ (.open .readWriteCreate), .act 0, .resume 0]
    (fun w => w.state.owner = some ⟨0⟩ ∧ w.state.isOpen ∧
      ((w.follow (fun u m u' => Reliable u m u' ∧ w.depth ⟨0⟩ < u'.depth ⟨0⟩)
        (start :: disposedMeanwhile)).any (fun v => (v.step (.resume 0)).any fun v' =>
          Reliable v (.resume 0) v' ∧ v'.depth ⟨0⟩ = w.depth ⟨0⟩)) ∧
      ((w.trail (start :: disposedMeanwhile ++ [.resume 0])).getLast?.all
        fun hop => !hop.before.state.isOpen) ∧
      (w.trail (start :: disposedMeanwhile ++ [.resume 0])).all
        fun hop => hop.after.frames.all fun f => !f.barren)
    (by decide +kernel)
  simp only [decide_eq_true_eq] at hw
  obtain ⟨owner, opened, hpassage, hlast, hbarren⟩ := hw
  obtain ⟨last, o, passage⟩ :=
    exists_passage rfl disposedMeanwhile (.resume 0) hpassage
  obtain ⟨⟨x, hx, -⟩, -⟩ := prepared_or_undone run owner opened passage
  refine ⟨w, last, o, run, passage, ?_⟩
  cases x with
  | lent =>
    obtain ⟨h, lent⟩ := hx
    rw [passage_last passage] at hlast
    simp [lent.opened] at hlast
  | withdrawn => exact hx
  | refused =>
    obtain ⟨rc, ⟨db, hop, hm, i, f, hat, hexchange⟩, -⟩ := hx
    have hnot := List.all_eq_true.1 (List.all_eq_true.1 hbarren hop hm) f
      (List.mem_of_getElem? hat.frame)
    simp [Frame.barren, hexchange] at hnot

end ConfinedDb.Interleaving
