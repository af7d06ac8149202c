import ConfinedDb.Proofs.Interleaving.World
/-!
# What is written down

Beside calls and their returns a history has the reports of the stretches, what the start of an
action brings about, what its end does, and what the engine's answers do. `mem_reported`,
`mem_opening`, `mem_closing` and `mem_minting` say which events these can be, so what a law says of
single events is checked against the events and not against the actions.

A view of histories that passes over events one by one passes over all of them (`view_append`). The
databases and the live handles pass over whatever an action writes down itself (`Event.Inert`), so
a stretch changes neither (**`proceed_history`**, **`start_history`**).
-/
namespace ConfinedDb.Interleaving

open History

/-! ## Events -/

section Events

variable {task : Task} {t : ThreadId} {s : State} {own : Bool} {o : Outcome} {e : Event}

theorem mem_reported {notices : List Notice} :
    e ∈ (notices.map Event.reported).reverse ↔ ∃ notice ∈ notices, .reported notice = e :=
  List.mem_reverse.trans List.mem_map

/-- The start of an action: a disposal takes effect, or a handle leaks. -/
theorem mem_opening (he : e ∈ task.opening t s) :
    e = .retired t s.statements.table.keys ∨ ∃ h, e = .leaked h := by
  have hdispose : e ∈ (if s.disposed then [] else [.retired t s.statements.table.keys]) →
      e = .retired t s.statements.table.keys := by
    split <;> simp
  cases task with
  | dispose => exact .inl (hdispose he)
  | drop => exact .inl (hdispose he)
  | use n st u =>
    cases u with
    | release =>
      simp only [Task.opening] at he
      split at he
      · exact .inr ⟨_, List.mem_singleton.1 he⟩
      · cases he
    | _ => cases he
  | _ => cases he

/-- The end of an action: an open has stored its database, or the disposal that took effect
returns. -/
theorem mem_closing (he : e ∈ task.closing t own s o) :
    (∃ db, e = .installed t db) ∨ e = .disposed := by
  have hdispose : e ∈ (if own then [.disposed] else []) → e = .disposed := by
    split <;> simp
  cases task with
  | «open» mode =>
    simp only [Task.closing] at he
    split at he
    · exact .inl ⟨_, List.mem_singleton.1 he⟩
    · cases he
  | dispose => exact .inr (hdispose he)
  | drop => exact .inr (hdispose he)
  | _ => cases he

/-- An answer of the engine: it has opened a database, or compiled a statement. -/
theorem mem_minting {call : EngineCall} {answer : call.Answer} (he : e ∈ minting call answer) :
    (∃ db, e = .opened db) ∨ ∃ db h, e = .minted db h := by
  unfold minting at he
  split at he
  · exact .inl ⟨_, List.mem_singleton.1 he⟩
  · exact .inr ⟨_, _, List.mem_singleton.1 he⟩
  · cases he

end Events

/-! ## Views -/

theorem view_append {α : Type} {view : History → α} {es : History}
    (hes : ∀ e ∈ es, ∀ past, view (e :: past) = view past) (past : History) :
    view (es ++ past) = view past := by
  induction es with
  | nil => rfl
  | cons e es ih =>
    obtain ⟨he, hrest⟩ := List.forall_mem_cons.1 hes
    exact (he _).trans (ih hrest)

theorem databases_append (es past : History) :
    databases (es ++ past) = databases es ++ databases past := by
  induction es with
  | nil => rfl
  | cons e es ih => cases e <;> simp [databases, ih]

theorem live_minting (call : EngineCall) (answer : call.Answer) (past : History) :
    live (minting call answer ++ past) = arriving call answer ++ live past := by
  cases call with
  | «open» location flags => obtain ⟨_ | db, rc⟩ := answer <;> rfl
  | prepare db sql => obtain ⟨_ | h, rc⟩ := answer <;> rfl
  | _ => rfl

/-- Nothing that makes a handle live or ends its life. -/
def Event.Plain : Event → Prop
  | .minted .. | .returned _ (.finalize _) => False
  | _ => True

/-- What is written down without a word of a handle that comes or goes. -/
def Event.Inert : Event → Prop
  | .opened _ | .minted .. | .returned .. => False
  | _ => True

theorem Event.Inert.plain {e : Event} (h : e.Inert) : e.Plain := by
  cases e with
  | minted db k => exact h.elim
  | returned t call => exact h.elim
  | _ => trivial

theorem live_append {es : History} (hes : ∀ e ∈ es, e.Plain) (past : History) :
    live (es ++ past) = live past := by
  refine view_append (fun e he past => ?_) past
  have hplain := hes e he
  cases e with
  | minted db h => exact hplain.elim
  | returned t call => cases call <;> first | exact hplain.elim | rfl
  | _ => rfl

theorem inert_append {es : History} (hes : ∀ e ∈ es, e.Inert) (past : History) :
    databases (es ++ past) = databases past ∧ live (es ++ past) = live past := by
  refine ⟨view_append (fun e he past => ?_) past, live_append (fun e he => (hes e he).plain) past⟩
  have hinert := hes e he
  cases e with
  | opened db => exact hinert.elim
  | _ => rfl

/-! ## Stretches -/

theorem inert_reported (notices : List Notice) :
    ∀ e ∈ (notices.map Event.reported).reverse, e.Inert := by
  intro e he
  obtain ⟨notice, -, rfl⟩ := mem_reported.1 he
  trivial

theorem inert_opening (task : Task) (t : ThreadId) (s : State) :
    ∀ e ∈ task.opening t s, e.Inert := by
  intro e he
  rcases mem_opening he with rfl | ⟨h, rfl⟩ <;> trivial

theorem inert_closing (task : Task) (t : ThreadId) (own : Bool) (s : State) (o : Outcome) :
    ∀ e ∈ task.closing t own s o, e.Inert := by
  intro e he
  rcases mem_closing he with ⟨db, rfl⟩ | rfl <;> trivial

theorem proceed_history {M : Machine} {E : Engine} (w : World M E) (t : ThreadId) (task : Task)
    (own : Bool) (chunk : Chunk M.Point Outcome) :
    databases (w.proceed t task own chunk).history = databases w.history ∧
      live (w.proceed t task own chunk).history = live w.history := by
  obtain ⟨hd, hl⟩ := inert_append (inert_reported chunk.notices) w.history
  cases hn : chunk.next with
  | inl p =>
    rw [w.proceed_pause t task own hn]
    exact ⟨hd, hl⟩
  | inr o =>
    rw [w.proceed_end t task own hn]
    obtain ⟨hd', hl'⟩ := inert_append (inert_closing task t own chunk.state o)
      ((chunk.notices.map Event.reported).reverse ++ w.history)
    exact ⟨hd'.trans hd, hl'.trans hl⟩

theorem start_history {M : Machine} {E : Engine} (w : World M E) (t : ThreadId) (task : Task) :
    databases (w.start t task).history = databases w.history ∧
      live (w.start t task).history = live w.history := by
  obtain ⟨hd, hl⟩ := inert_append (inert_opening task t w.state) w.history
  obtain ⟨hd', hl'⟩ := proceed_history (w.entered t task) t task (!w.state.disposed)
    (M.start t task w.state)
  exact ⟨hd'.trans hd, hl'.trans hl⟩

end ConfinedDb.Interleaving
