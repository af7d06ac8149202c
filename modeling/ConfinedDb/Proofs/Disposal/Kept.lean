import ConfinedDb.Proofs.Disposal.Owner
/-!
# Where the open databases are

A database that a connection has opened is with the connection or with an action under way: with an
open that has not stored it yet, or with a disposal that has not closed it yet (`World.kept`). No
stretch of an action loses one, but for an open that stores its database in the place of another
(**`resume_hands`**).
-/
namespace ConfinedDb.Interleaving

open History

/-! ## Stretches -/

/-- The database that an action has before and after the engine acts on its call. -/
def Phase.stays : Phase → List DbHandle
  | .openFailed _ _ db? _ => db?.toList
  | .draining _ _ _ db => [db]
  | _ => []

/-- The database that an action has until the engine acts on its call. -/
def Phase.hand (c : Connection) (p : Phase) : List DbHandle := closed (p.call c) ++ p.stays

/-- The databases that an action goes on with. -/
def Move.hand (c : Connection) (m : Move) : List DbHandle :=
  match m.next with
  | .inl q => q.hand c
  | .inr _ => []

section Stretches

variable {c : Connection} {t : ThreadId} {s : State}

theorem hand_pause {m : Move} {q : Phase} (hn : m.next = .inl q) : m.hand c = q.hand c := by
  simp [Move.hand, hn]

theorem hand_end {m : Move} {o : Outcome} (hn : m.next = .inr o) : m.hand c = [] := by
  simp [Move.hand, hn]

/-- Only opens and disposals have databases. -/
theorem hand_of_kind {p : Phase} (ho : p.kind ≠ .opens) (hd : p.kind ≠ .disposes) :
    p.hand c = [] ∧ p.stays = [] := by
  cases p with
  | opening flags claimed => exact absurd rfl ho
  | openFailed flags rc db? claimed => exact absurd rfl ho
  | openCleanup flags rc db message claimed => exact absurd rfl ho
  | openLate db => exact absurd rfl ho
  | draining h sql rounds db => exact absurd rfl hd
  | closing db => exact absurd rfl hd
  | closeFailed db rc => exact absurd rfl hd
  | _ => exact ⟨rfl, rfl⟩

theorem DrainNext.hand {db : DbHandle} {rounds : Nat} {m : Move} (h : DrainNext s db rounds m) :
    m.hand c = [db] := by
  cases h with
  | takes _ _ waits _ => exact hand_pause waits
  | closes _ waits _ => exact hand_pause waits

theorem DrainNext.handle {db : DbHandle} {rounds : Nat} {m : Move}
    (h : DrainNext s db rounds m) : m.state.handle = s.handle := by
  cases h with
  | takes _ _ _ state => rw [state]
  | closes _ _ state => rw [state]; rfl

theorem start_hands (task : Task) :
    ((phaseStart c t s task).state.handle.toList ++ (phaseStart c t s task).hand c).Perm
      s.handle.toList := by
  have hkind : ∀ q, (phaseStart c t s task).next = .inl q → q.kind = task.kind := by
    intro q hq
    exact start_kind hq
  have hstart := start_cases (c := c) (t := t) (s := s) task
  generalize phaseStart c t s task = m at hstart hkind
  cases hstart with
  | opens _ start =>
    cases start with
    | refused ends _ state =>
      rw [hand_end ends, List.append_nil]
      rcases state with hs | hs <;> simp [hs]
    | opens _ _ _ waits state =>
      rw [state, hand_pause waits, claim_handle]
      exact .of_eq (List.append_nil _)
  | disposes _ start =>
    cases start with
    | again _ ends state => rw [state, hand_end ends, List.append_nil]
    | unopened undisposed closed ends state =>
      rw [state, hand_end ends, retire_of_undisposed undisposed, closed]
      rfl
    | drains undisposed opened _ next =>
      rw [next.hand, next.handle, retire_of_undisposed undisposed, opened]
      rfl
    | abandons undisposed opened _ waits state =>
      rw [state, hand_pause waits, retire_of_undisposed undisposed, opened]
      rfl
  | other ho hd change =>
    rw [change.sameDatabase.handle]
    cases hn : m.next with
    | inl q =>
      have hk := hkind q hn
      rw [hand_pause hn, (hand_of_kind (hk ▸ ho) (hk ▸ hd)).1, List.append_nil]
    | inr o => rw [hand_end hn, List.append_nil]

/-- What becomes of the databases that were at hand in a state: all of them still are, or the one of
the connection is replaced and lost. -/
inductive Hands (s : State) (before : List DbHandle) (s' : State) (after : List DbHandle) : Prop
  | keeps (handle : s'.handle = s.handle ∨ s.handle = none)
    (all : (s'.handle.toList ++ after).Perm (s.handle.toList ++ before)) : Hands s before s' after
  | loses {db db' : DbHandle} (old : s.handle = some db) (new : s'.handle = some db')
    (rest : (db :: (s'.handle.toList ++ after)).Perm (s.handle.toList ++ before)) :
    Hands s before s' after

theorem Hands.of_same {s' : State} {before after : List DbHandle} (hh : s'.handle = s.handle)
    (ha : after = before) : Hands s before s' after :=
  .keeps (.inl hh) (by rw [hh, ha])

/-- Only an open brings a database. -/
theorem databases_minting {call : EngineCall} (answer : call.Answer)
    (hc : ∀ location flags, call ≠ .open location flags) :
    databases (minting call answer) = [] := by
  cases call with
  | «open» location flags => exact absurd rfl (hc location flags)
  | prepare db sql => obtain ⟨_ | h, rc⟩ := answer <;> rfl
  | _ => rfl

theorem unclaim_if_handle (claimed : Bool) :
    (if claimed then s.unclaim t else s).handle = s.handle := by
  split <;> simp

/-- What becomes of them when an action of a kind goes on: the connection and the action still have
them, or an open has stored the one that has arrived. -/
inductive Stores (c : Connection) (s : State) (k : Kind) (before : List DbHandle) (m : Move) : Prop
  | keeps (handle : m.state.handle = s.handle) (hand : m.hand c = before)
    (fails : k = .opens → ∀ o, m.next = .inr o → ∃ e, o.result = .error e) : Stores c s k before m
  | stores {db : DbHandle} (arrived : before = [db]) (opens : k = .opens)
    (ends : m.next = .inr .finished) (handle : m.state.handle = some db) : Stores c s k before m

theorem Stores.hands {k : Kind} {before : List DbHandle} {m : Move} (h : Stores c s k before m) :
    Hands s before m.state (m.hand c) := by
  cases h with
  | keeps handle hand _ => exact .of_same handle hand
  | stores arrived _ ends handle =>
    cases hh : s.handle with
    | none => exact .keeps (.inr hh) (by simp [hand_end ends, handle, hh, arrived])
    | some old => exact .loses hh handle (by simp [hand_end ends, handle, hh, arrived])

theorem openFailChunk_stores (claimed : Bool) (f : Fault) (notices : List Notice) :
    Stores c s .opens [] ((openFailChunk t claimed f s).after notices) :=
  .keeps (unclaim_if_handle claimed) rfl fun _ o ho => by
    cases ho
    exact ⟨_, rfl⟩

theorem opening_stores (flags : OpenFlags) (claimed : Bool) (db? : Option DbHandle)
    (rc : ResultCode) :
    Stores c s .opens db?.toList ((Phase.opening flags claimed).resume c t (db?, rc) s) := by
  simp only [Phase.resume]
  split
  · cases db? with
    | none => exact openFailChunk_stores claimed _ []
    | some db =>
      cases hd : s.disposed with
      | true =>
        refine .keeps (by simp [pause, State.install, hd]) (by simp; rfl) fun _ o ho => ?_
        simp only [if_true] at ho
        cases ho
      | false => exact .stores rfl rfl (by simp; rfl) (by simp [finish, State.install, hd])
  · exact .keeps rfl rfl fun _ o ho => by cases ho

theorem other_stores {p : Phase} (ho : p.kind ≠ .opens) (hd : p.kind ≠ .disposes)
    (answer : (p.call c).Answer) :
    Stores c s p.kind (databases (minting (p.call c) answer) ++ p.stays)
      (p.resume c t answer s) := by
  refine .keeps (resume_same ho answer).handle ?_ fun hk => absurd hk ho
  have hcall : ∀ location flags, p.call c ≠ .open location flags := by
    intro location flags hc
    cases p with
    | opening flags claimed => exact ho rfl
    | _ => cases hc
  rw [databases_minting answer hcall, (hand_of_kind (c := c) ho hd).2]
  cases hn : (p.resume c t answer s).next with
  | inl q =>
    have hk := resume_kind hn
    exact (hand_pause hn).trans (hand_of_kind (hk ▸ ho) (hk ▸ hd)).1
  | inr o => exact hand_end hn

/-- **An action that goes on keeps all databases at hand, or is an open that stores its own.** -/
theorem resume_stores (p : Phase) (answer : (p.call c).Answer) :
    Stores c s p.kind (databases (minting (p.call c) answer) ++ p.stays)
      (p.resume c t answer s) := by
  cases p with
  | opening flags claimed =>
    obtain ⟨db?, rc⟩ := answer
    have h := opening_stores (c := c) (t := t) (s := s) flags claimed db? rc
    cases db? <;> exact h
  | openFailed flags rc db? claimed =>
    cases db? with
    | none => exact openFailChunk_stores claimed _ _
    | some db => exact .keeps rfl rfl fun _ o ho => by cases ho
  | openCleanup flags rc db message claimed => exact openFailChunk_stores claimed _ _
  | openLate db =>
    refine .keeps rfl rfl fun _ o ho => ?_
    cases ho
    exact ⟨_, rfl⟩
  | draining h sql rounds db =>
    have hnext := (drainChunk_next (s := s.forget h sql) db rounds).after
      (finalizedNotices h sql answer s)
    exact .keeps (hnext.handle.trans (s.forget_handle h sql)) hnext.hand fun hk => by cases hk
  | closing db =>
    simp only [Phase.resume]
    split <;> exact .keeps rfl rfl fun hk => by cases hk
  | closeFailed db rc => exact .keeps rfl rfl fun hk => by cases hk
  | failing c' db rc operation about onward =>
    exact other_stores (by cases onward <;> simp [Phase.kind, Onward.kind])
      (by cases onward <;> simp [Phase.kind, Onward.kind]) answer
  | _ => exact other_stores (by simp [Phase.kind]) (by simp [Phase.kind]) answer

/-- **An action that goes on keeps all databases, but for one that an open replaces.** -/
theorem resume_hands (p : Phase) (answer : (p.call c).Answer) :
    Hands s (databases (minting (p.call c) answer) ++ p.stays) (p.resume c t answer s).state
      ((p.resume c t answer s).hand c) :=
  (resume_stores p answer).hands

theorem open_hand {p q : Phase} {answer : (p.call c).Answer} (hk : p.kind = .opens)
    (hq : (p.resume c t answer s).next = .inl q) {db : DbHandle} (hm : db ∈ q.hand c) :
    db ∈ databases (minting (p.call c) answer) ++ p.stays := by
  cases p with
  | opening flags claimed =>
    obtain ⟨db?, rc⟩ := answer
    simp only [Phase.resume] at hq
    split at hq
    · cases db? with
      | none => cases hq
      | some db' =>
        cases hd : s.disposed with
        | true =>
          simp only [hd, if_true] at hq
          cases hq
          exact hm
        | false =>
          simp only [hd, Bool.false_eq_true, if_false] at hq
          cases hq
    · cases hq
      cases db? <;> exact hm
  | openFailed flags rc db? claimed =>
    cases db? <;> cases hq
    exact hm
  | openCleanup flags rc db' message claimed => cases hq
  | openLate db' => cases hq
  | failing c' db' rc operation about onward => cases onward <;> cases hk
  | _ => cases hk

end Stretches

/-! ## Worlds -/

/-- The databases that an action under way has. -/
def Frame.hand {c : Connection} (f : Frame (phases c)) : List DbHandle :=
  match f.answer with
  | none => f.point.hand c
  | some answer => databases (minting f.call answer) ++ f.point.stays

/-- The databases that the connection or an action under way has. -/
def World.kept {c : Connection} {E : Engine} (w : World (phases c) E) : List DbHandle :=
  w.state.handle.toList ++ w.frames.flatMap Frame.hand

section Worlds

variable {c : Connection} {E : Engine} {w w' : World (phases c) E} {t : ThreadId} {task : Task}
  {own : Bool} {m : Move} {i : Nat} {p : Phase}

theorem kept_proceed : (w.proceed t task own m).kept
    = (m.state.handle.toList ++ m.hand c) ++ w.frames.flatMap Frame.hand := by
  cases hn : m.next with
  | inl q =>
    rw [w.proceed_pause t task own hn, hand_pause hn, List.append_assoc]
    rfl
  | inr o =>
    rw [w.proceed_end t task own hn, hand_end hn, List.append_nil]
    rfl

theorem kept_start : (w.start t task).kept.Perm w.kept := by
  have h := (start_hands (c := c) (t := t) (s := w.state) task).append_right
    (w.frames.flatMap Frame.hand)
  exact (List.Perm.of_eq kept_proceed).trans h

theorem kept_perm {f : Frame (phases c)} (hf : w.frames[i]? = some f) :
    w.kept.Perm
      ((w.state.handle.toList ++ f.hand) ++ (w.frames.eraseIdx i).flatMap Frame.hand) := by
  rw [List.append_assoc]
  exact (flatMap_perm Frame.hand hf).append_left _

/-- The database that a call closes is gone, and the one that it opens has come. -/
theorem kept_acted (hf : w.frames[i]? = some ⟨t, task, p, none⟩) :
    (closed (p.call c) ++ (w.acted i t task p).kept).Perm
      (databases (minting (p.call c) (E.answer w.engine (p.call c)).1) ++ w.kept) := by
  have hold := kept_perm hf
  have hnew := (flatMap_set_perm Frame.hand (List.getElem?_eq_some_iff.1 hf).1
    (⟨t, task, p, some (E.answer w.engine (p.call c)).1⟩ : Frame (phases c))).append_left
    w.state.handle.toList
  generalize w.kept = kept at hold
  refine ((hnew.append_left (closed (p.call c))).trans ?_).trans (hold.symm.append_left _)
  simp only [Frame.hand, Phase.hand, Frame.call, List.perm_iff_count, List.count_append]
  intro db
  show _ + (_ + ((databases (minting (p.call c) _)).count db + _ + _)) = _
  omega

/-- When a call returns, a database is lost if another one takes its place. -/
theorem kept_resume {answer : (p.call c).Answer}
    (hf : w.frames[i]? = some ⟨t, task, p, some answer⟩)
    (hw : w' = (w.returned i t (p.call c)).proceed t task true (p.resume c t answer w.state)) :
    (w'.state.handle = w.state.handle ∨ w.state.handle = none) ∧ w'.kept.Perm w.kept ∨
      ∃ db db', w.state.handle = some db ∧ w'.state.handle = some db' ∧
        (db :: w'.kept).Perm w.kept := by
  have hp := kept_perm hf
  have hstate : w'.state = (p.resume c t answer w.state).state := by
    rw [hw]
    exact proceed_state ..
  have hkept : w'.kept = (w'.state.handle.toList ++ (p.resume c t answer w.state).hand c) ++
      (w.frames.eraseIdx i).flatMap Frame.hand := by
    rw [hstate, hw]
    exact kept_proceed
  rw [hkept, hstate]
  cases resume_hands (t := t) (s := w.state) p answer with
  | keeps handle all => exact .inl ⟨handle, (all.append_right _).trans hp.symm⟩
  | loses old new rest => exact .inr ⟨_, _, old, new, (rest.append_right _).trans hp.symm⟩

end Worlds

end ConfinedDb.Interleaving
