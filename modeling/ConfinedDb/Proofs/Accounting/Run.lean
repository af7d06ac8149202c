import ConfinedDb.Proofs.Accounting.Stretch
/-!
# Runs keep the books

The books of a world (`World.Booked`) are those of its state, its users, the grips of the actions
under way and its history. A step of a run in which the engine mints no live handle keeps them, if
no call that it starts names a handle that is spent (**`step_booked`**).
-/
namespace ConfinedDb.Interleaving

open History

variable {c : Connection} {E : Engine}

/-! ## Histories -/

/-- Two histories say the same of handles. -/
structure Alike (past past' : History) : Prop where
  live : live past' = live past
  spent : spent past' = spent past
  retired : retired past' = retired past
  leaked : leaked past' = leaked past

namespace Alike

variable {past past' : History}

theorem refl (past : History) : Alike past past := ⟨rfl, rfl, rfl, rfl⟩

theorem cons (h : Alike past past') (e : Event) : Alike (e :: past) (e :: past') := by
  obtain ⟨hl, hs, hr, hk⟩ := h
  cases e with
  | called t call => cases call <;> exact ⟨hl, by simp [History.spent, hs], hr, hk⟩
  | returned t call => cases call <;> exact ⟨by simp [History.live, hl], hs, hr, hk⟩
  | minted db h =>
    exact ⟨by simp [History.live, hl], by simp [History.spent, hs],
      by simp [History.retired, hr], hk⟩
  | retired t hs' => exact ⟨hl, hs, by simp [History.retired, hr], hk⟩
  | disposed => exact ⟨hl, by simp [History.spent, hs, hr], hr, hk⟩
  | leaked h => exact ⟨hl, hs, hr, by simp [History.leaked, hk]⟩
  | opened db => exact ⟨hl, hs, hr, hk⟩
  | installed t db => exact ⟨hl, hs, hr, hk⟩
  | reported notice => exact ⟨hl, hs, hr, hk⟩

theorem append (h : Alike past past') (es : History) : Alike (es ++ past) (es ++ past') := by
  induction es with
  | nil => exact h
  | cons e es ih => exact ih.cons e

theorem reported (notices : List Notice) (past : History) :
    Alike past ((notices.map Event.reported).reverse ++ past) := by
  rw [← List.map_reverse]
  induction notices.reverse with
  | nil => exact refl past
  | cons notice notices ih => exact ⟨ih.live, ih.spent, ih.retired, ih.leaked⟩

end Alike

theorem Books.alike {s : State} {users : List Entry} {grips : List Grip} {past past' : History}
    (b : Books s users grips past) (h : Alike past past') : Books s users grips past' :=
  b.congr_past h.live h.spent h.retired h.leaked

/-! ## Worlds -/

def Frame.grips (f : Frame (phases c)) : List Grip :=
  f.point.grip?.toList ++ f.pending.map Grip.pending

def World.grips (w : World (phases c) E) : List Grip := w.frames.flatMap Frame.grips

def World.Booked (w : World (phases c) E) : Prop := Books w.state w.users w.grips w.history

/-- No call that a step starts names a handle that is spent. -/
def World.Spares {M : Machine} (w : World M E) (l : Label E) : Prop :=
  ∀ t task call h, w.Calls l t task call → call.statement? = some h → h ∉ spent w.history

variable {w w' : World (phases c) E} {t : ThreadId} {task : Task} {own : Bool} {m : Move}

theorem booked_initial (e : E.State) : (World.initial e : World (phases c) E).Booked :=
  Books.initial

/-- A stretch that keeps the books is taken over. -/
theorem booked_proceed (tidy : Tidy w) (hm : m.Of task.kind)
    (huse : ∀ n e, task.inUse = some (n, e) → w.entryOf n = some e)
    (hk : m.Keeps c t own task.kind w.users w.grips w.history) :
    (w.proceed t task own m).Booked := by
  have hr := Alike.reported m.notices w.history
  unfold Move.Keeps at hk
  cases hn : m.next with
  | inl q =>
    rw [w.proceed_pause t task own hn]
    rw [hn] at hk
    have hg : (⟨t, task, q, none⟩ : Frame (phases c)).grips = q.grip?.toList := by
      simp [Frame.grips, Frame.pending]
    have hk' := hk.alike (hr.cons _)
    rw [← hg] at hk'
    exact hk'
  | inr o =>
    have ho : o.Of task.kind := by simpa [Move.Of, hn] using hm
    rw [w.proceed_end t task own hn]
    rw [hn] at hk
    have hk' := (hk.alike (hr.append _))
    rw [← Task.brings_eq, ← Task.closing_eq] at hk'
    exact hk'.perm (tidy.users_handBack ho huse).symm (.refl _)

theorem flatMap_perm {α β : Type} (g : α → List β) {l : List α} {i : Nat} {a : α}
    (ha : l[i]? = some a) : (l.flatMap g).Perm (g a ++ (l.eraseIdx i).flatMap g) := by
  obtain ⟨hi, rfl⟩ := List.getElem?_eq_some_iff.1 ha
  exact (List.getElem_cons_eraseIdx_perm hi).symm.flatMap_right _

theorem flatMap_set_perm {α β : Type} (g : α → List β) {l : List α} {i : Nat} (hi : i < l.length)
    (a : α) : ((l.set i a).flatMap g).Perm (g a ++ (l.eraseIdx i).flatMap g) :=
  (List.set_perm_cons_eraseIdx hi a).flatMap_right _

theorem grips_perm {i : Nat} {f : Frame (phases c)} (hf : w.frames[i]? = some f) :
    w.grips.Perm (f.grips ++ (w.frames.eraseIdx i).flatMap Frame.grips) :=
  flatMap_perm Frame.grips hf

/-- What the engine's answer brings about. -/
theorem minting_cases (call : EngineCall) (answer : call.Answer) (past : History) :
    (∃ db h, minting call answer = [.minted db h] ∧ arriving call answer = [h]) ∨
      arriving call answer = [] ∧ Alike past (minting call answer ++ past) := by
  cases call with
  | «open» location flags =>
    obtain ⟨_ | db, rc⟩ := answer
    · exact .inr ⟨rfl, .refl _⟩
    · exact .inr ⟨rfl, rfl, rfl, rfl, rfl⟩
  | prepare db sql =>
    obtain ⟨_ | h, rc⟩ := answer
    · exact .inr ⟨rfl, .refl _⟩
    · exact .inl ⟨db, h, rfl, rfl⟩
  | _ => exact .inr ⟨rfl, .refl _⟩

theorem booked_acted (b : w.Booked) {i : Nat} {p : Phase}
    (hf : w.frames[i]? = some ⟨t, task, p, none⟩)
    (hfresh : MintsFresh w (.act i) (w.acted i t task p)) : (w.acted i t task p).Booked := by
  have hi : i < w.frames.length := (List.getElem?_eq_some_iff.1 hf).1
  have b' := b.perm (.refl _) (grips_perm hf)
  have hset := flatMap_set_perm Frame.grips hi
    (⟨t, task, p, some (E.answer w.engine (p.call c)).1⟩ : Frame (phases c))
  have hgrips : (⟨t, task, p, none⟩ : Frame (phases c)).grips = p.grip?.toList := by
    simp [Frame.grips, Frame.pending]
  rw [hgrips] at b'
  refine Books.perm ?_ (.refl _) hset.symm
  show Books w.state w.users ((p.grip?.toList ++
    (arriving (p.call c) (E.answer w.engine (p.call c)).1).map Grip.pending) ++ _)
    (minting (p.call c) (E.answer w.engine (p.call c)).1 ++ w.history)
  rcases minting_cases (p.call c) (E.answer w.engine (p.call c)).1 w.history with
    ⟨db, h, hm, ha⟩ | ⟨ha, hm⟩
  · have hnot : h ∉ live w.history := hfresh db h (congrArg (· ++ w.history) hm)
    rw [hm, ha, List.append_assoc]
    exact (b'.mint db hnot).perm (.refl _) List.perm_middle.symm
  · rw [ha, List.map_nil, List.append_nil]
    exact b'.alike hm

theorem booked_start (tidy : Tidy w) (b : w.Booked) {a : Action} (ht : w.task? a = some task)
    (hs : w.Spares (.start t a)) : (w.start t task).Booked := by
  have hspares : (phaseStart c t w.state task).Spares c w.history := by
    intro q hq h hc
    exact hs t task (q.call c) h ⟨rfl, ht, q, hq, rfl⟩ hc
  refine booked_proceed (tidy.entered ht) (start_of task)
    (fun n e hu => Tidy.entryOf_inUse ht hu) ?_
  rcases Tidy.takeOver_cases task w.statements with ⟨n, st, rfl⟩ | ⟨hk, htake⟩
  · have hget := (Tidy.task?_use ht).1
    have hp : w.users.Perm (st.entry :: (w.entered t (.use n st .release)).users) :=
      ((Table.entries_perm hget).map Prod.snd).map Statement.entry
    exact release_keeps (b.perm hp (.refl _)) hspares
  · have hu : (w.entered t task).users = w.users :=
      congrArg (fun table => (Table.values table).map Statement.entry) htake
    rw [hu]
    exact start_keeps task hk b hspares

theorem booked_resume (tidy : Tidy w) (b : w.Booked) {i : Nat} {p : Phase}
    {answer : (p.call c).Answer} (hf : w.frames[i]? = some ⟨t, task, p, some answer⟩)
    (hs : w.Spares (.resume i)) :
    ((w.returned i t (p.call c)).proceed t task true (p.resume c t answer w.state)).Booked := by
  have hmem := List.mem_of_getElem? hf
  have hk : p.kind = task.kind := tidy.kinds _ hmem
  have hspares : (p.resume c t answer w.state).Spares c w.history := by
    intro q hq h hc
    exact hs t task (q.call c) h ⟨p, answer, hf, q, hq, rfl⟩ hc
  have b' := b.perm (.refl _) (grips_perm hf)
  refine booked_proceed tidy.returned (hk ▸ resume_of p answer) (tidy.inHand _ hmem) ?_
  rw [← hk]
  refine resume_keeps p answer ?_ hspares
  rw [← List.append_assoc]
  exact b'

/-- **A step that spares the spent handles keeps the books.** -/
theorem step_booked (tidy : Tidy w) (b : w.Booked) {l : Label E} (h : w.step l = some w')
    (hf : MintsFresh w l w') (hs : w.Spares l) : w'.Booked := by
  cases World.step_cases h with
  | start ht => exact booked_start tidy b ht hs
  | act hframe => exact booked_acted b hframe hf
  | resume hframe hn => exact booked_resume tidy b hframe hs
  | drift e => exact b

end ConfinedDb.Interleaving
