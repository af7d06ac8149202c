import ConfinedDb.Proofs.Confinement.Stray
import ConfinedDb.Proofs.Disposal.Final
/-!
# The owner of an open connection

While a connection has a database, its owner is the thread whose open has installed it, and stays so
until a disposal takes both out (`Owning`). One kind of step breaks this (`World.Revokes`): the last
open under way fails while the database is there. It is the one that has set the owner, since it
found none, and so it takes the owner back; the database was installed by another open of the same
thread, nested in a native call of the first. In all other steps this holds, so it holds in a run
exactly if no step of it is such a failure (**`owning_iff`**). `openedWithin_unowned` is a run with
one.

Before a disposal no other thread than the owner is inside a confined call (`World.Guarded`). With
that, `Owned` is what every step keeps but for such a failure: as long as an open is under way, so
is the one that has set the owner, and only such an open can have left an owner without a database.
-/
namespace ConfinedDb.Interleaving

open History

/-- The open that has installed the database last: its thread and the database. -/
def History.installation? : History → Option (ThreadId × DbHandle)
  | [] => none
  | .installed t db :: _ => some (t, db)
  | _ :: past => installation? past

namespace World

variable {M : Machine} {E : Engine}

/-- In this step the last open under way fails, and the database is there. -/
def Revokes (w : World M E) (l : Label E) : Prop :=
  ∃ i t task o e, l = .resume i ∧ w.Ends l t task o ∧ task.isOpen = true ∧ o.result = .error e ∧
    w.state.handle.isSome = true ∧ ∀ f ∈ w.frames.eraseIdx i, f.task.isOpen = false

end World

/-- After the step a database that is there belongs to the owner, who is the thread that has
installed it and was the owner before, if there was a database; a disposed connection has neither. -/
structure Owning {M : Machine} {E : Engine} (w : World M E) (_ : Label E) (w' : World M E) :
    Prop where
  opener : ∀ db, w'.state.handle = some db →
    ∃ t, w'.state.owner = some t ∧ installation? w'.history = some (t, db)
  same : w.state.handle.isSome = true → w'.state.disposed = false →
    w'.state.owner = w.state.owner
  disposed : w'.state.disposed = true → w'.state.handle = none ∧ w'.state.owner = none

def Unrevoked {M : Machine} {E : Engine} (w : World M E) (l : Label E) (_ : World M E) : Prop :=
  ¬w.Revokes l

/-! ## Histories -/

theorem opener_installation (past : History) :
    opener? past = (installation? past).map Prod.fst := by
  induction past with
  | nil => rfl
  | cons e past ih => cases e <;> first | exact ih | rfl

theorem installation_quiet {es : History} (hes : ∀ e ∈ es, e.Quiet) (past : History) :
    installation? (es ++ past) = installation? past := by
  refine view_append (fun e he past => ?_) past
  have hquiet := hes e he
  cases e with
  | returned t call => rfl
  | retired t hs => rfl
  | leaked h => rfl
  | reported notice => rfl
  | _ => exact hquiet.elim

theorem installation_append {past past' : History}
    (h : installation? past = installation? past') (es : History) :
    installation? (es ++ past) = installation? (es ++ past') := by
  induction es with
  | nil => exact h
  | cons e es ih => cases e <;> first | exact ih | rfl

theorem installation_minting {call : EngineCall} (answer : call.Answer) (past : History) :
    installation? (minting call answer ++ past) = installation? past := by
  unfold minting
  split <;> rfl

/-- Apart from an open no action that ends changes who has installed the database. -/
theorem installation_closing {k : Kind} (hk : k ≠ .opens) (t : ThreadId) (own : Bool) (s : State)
    (o : Outcome) (past : History) :
    installation? (k.closing t own s o ++ past) = installation? past := by
  cases k with
  | opens => exact absurd rfl hk
  | disposes =>
    simp only [Kind.closing]
    split <;> rfl
  | _ => rfl

variable {c : Connection} {E : Engine} {w w' : World (phases c) E} {t : ThreadId} {s s' : State}
  {posts : List Post} {past past' : History} {own : Bool} {p q : Phase} {i : Nat}

/-! ## The owner -/

theorem claim_owned (h : s.owner.isSome = true) (t : ThreadId) : s.claim t = s := if_pos (.inr h)

/-- An open that is refused leaves the state as it is, if an open database has an owner. -/
theorem refused_same {mode : OpenMode} (hd : s.disposed = false)
    (ho : s.handle.isSome = true → s.owner.isSome = true) {o : Outcome}
    (hn : (phaseStart c t s (.open mode)).next = .inr o) :
    (phaseStart c t s (.open mode)).state = s := by
  have hchunk : ∀ flags, (openChunk c t flags s).next = .inr o →
      (openChunk c t flags s).state = s := by
    intro flags hn
    unfold openChunk at hn ⊢
    simp only [hd, Bool.false_eq_true, if_false] at hn ⊢
    cases ha : permit c t s with
    | error e =>
      have howner : s.owner.isSome = true := by
        cases h : s.owner with
        | none => simp [permit, h] at ha
        | some _ => rfl
      exact claim_owned howner t
    | ok _ =>
      cases hh : s.handle with
      | none => simp [ha, hh, pause] at hn
      | some db => simp [finish, claim_owned (ho (by simp [hh])) t]
  cases mode with
  | readWriteCreate => exact hchunk _ hn
  | _ =>
    simp only [phaseStart] at hn ⊢
    split
    · rfl
    · next hm =>
      rw [if_neg hm] at hn
      exact hchunk _ hn

/-- The owner of an open connection stays when an action starts, unless it is a disposal. -/
theorem start_owner {task : Task} (ho : s.owner.isSome = true) (ht : task.kind ≠ .disposes) :
    (phaseStart c t s task).state.owner = s.owner := by
  cases start_cases (c := c) (t := t) (s := s) task with
  | opens _ start =>
    rcases start.state_cases with h | h <;> rw [h]
    rw [claim_owned ho]
  | disposes hd _ => exact absurd (kind_of_isDisposal hd) ht
  | other _ _ change => exact change.sameDatabase.owner

/-- It stays when an action goes on, unless that is an open which has set the owner and fails. -/
theorem resume_owner {answer : (p.call c).Answer}
    (hn : p.claims = true → ∀ o e, (p.resume c t answer s).next = .inr o → o.result ≠ .error e) :
    (p.resume c t answer s).state.owner = s.owner := by
  by_cases hp : p.kind = .opens
  · have hrest := open_rest (t := t) (s := s) hp answer
    generalize p.resume c t answer s = m at hrest hn
    cases hrest with
    | waits _ _ _ state => rw [state]
    | late _ _ state => rw [state]
    | installs _ _ _ state => rw [state]
    | fails ends fails state =>
      obtain ⟨e, he⟩ := fails
      rw [state, if_neg fun hc => hn hc _ e ends he]
  · exact (resume_same hp answer).owner

/-! ## Owned connections -/

/-- What holds of a connection that is not disposed. -/
structure Owned (s : State) (posts : List Post) (past : History) : Prop where
  owner : ∀ db, s.handle = some db → ∃ t, s.owner = some t ∧ installation? past = some (t, db)
  /-- With any open the one that has set the owner is under way. -/
  claimed : ∀ f ∈ posts, f.2.kind = .opens → ∃ f ∈ posts, f.2.claims = true
  /-- Only an open under way owns a connection without a database. -/
  held : s.handle = none → s.owner.isSome = true → ∃ f ∈ posts, f.2.claims = true

theorem opens_of_claims (h : p.claims = true) : p.kind = .opens := by
  by_contra hk
  simp [claims_of_kind hk] at h

namespace Owned

theorem initial : Owned .initial [] [] where
  owner _ h := by cases h
  claimed _ hf := by cases hf
  held _ h := by cases h

theorem congr_past (g : Owned s posts past) (h : installation? past' = installation? past) :
    Owned s posts past' :=
  { g with owner := fun db hdb => h ▸ g.owner db hdb }

theorem owner_isSome (g : Owned s posts past) (hh : s.handle.isSome = true) :
    s.owner.isSome = true := by
  obtain ⟨db, hdb⟩ := Option.isSome_iff_exists.1 hh
  obtain ⟨t, ht, -⟩ := g.owner db hdb
  simp [ht]

theorem same (g : Owned s posts past) (h : SameDatabase s s') : Owned s' posts past where
  owner db hdb := h.owner ▸ g.owner db (h.handle ▸ hdb)
  claimed := g.claimed
  held hh ho := g.held (h.handle ▸ hh) (h.owner ▸ ho)

theorem push (g : Owned s posts past) (hq : q.kind ≠ .opens) : Owned s ((t, q) :: posts) past where
  owner := g.owner
  claimed f hf hk := by
    rcases List.mem_cons.1 hf with rfl | hf
    · exact absurd hk hq
    · obtain ⟨f', hf', hc⟩ := g.claimed f hf hk
      exact ⟨f', List.mem_cons_of_mem _ hf', hc⟩
  held hh ho := by
    obtain ⟨f', hf', hc⟩ := g.held hh ho
    exact ⟨f', List.mem_cons_of_mem _ hf', hc⟩

theorem mem_eraseIdx_of_claims (hi : posts[i]? = some (t, p)) (hp : p.claims = false) {f : Post}
    (hf : f ∈ posts) (hc : f.2.claims = true) : f ∈ posts.eraseIdx i := by
  obtain ⟨j, hj⟩ := List.mem_iff_getElem?.1 hf
  refine List.mem_eraseIdx_iff_getElem?.2 ⟨j, ?_, hj⟩
  rintro rfl
  cases hi.symm.trans hj
  simp [hp] at hc

theorem erase (g : Owned s posts past) (hi : posts[i]? = some (t, p)) (hp : p.claims = false) :
    Owned s (posts.eraseIdx i) past where
  owner := g.owner
  claimed f hf hk := by
    obtain ⟨f', hf', hc⟩ := g.claimed f (List.mem_of_mem_eraseIdx hf) hk
    exact ⟨f', mem_eraseIdx_of_claims hi hp hf' hc, hc⟩
  held hh ho := by
    obtain ⟨f', hf', hc⟩ := g.held hh ho
    exact ⟨f', mem_eraseIdx_of_claims hi hp hf' hc, hc⟩

theorem opening (g : Owned s posts past) (hh : s.handle = none) (flags : OpenFlags) :
    Owned (s.claim t) ((t, .opening flags s.owner.isNone) :: posts) past := by
  have hclaimed : ∃ f ∈ (t, Phase.opening flags s.owner.isNone) :: posts, f.2.claims = true := by
    cases ho : s.owner with
    | none => exact ⟨_, List.mem_cons_self, rfl⟩
    | some o =>
      obtain ⟨f, hf, hc⟩ := g.held hh (by simp [ho])
      exact ⟨f, List.mem_cons_of_mem _ hf, hc⟩
  refine ⟨fun db hdb => ?_, fun _ _ _ => hclaimed, fun _ _ => hclaimed⟩
  rw [claim_handle, hh] at hdb
  cases hdb

theorem waiting (g : Owned s posts past) (hi : posts[i]? = some (t, p)) (hp : p.kind = .opens)
    (hc : q.claims = p.claims) : Owned s ((t, q) :: posts.eraseIdx i) past := by
  have hclaimed : ∃ f ∈ (t, q) :: posts.eraseIdx i, f.2.claims = true := by
    cases hpc : p.claims with
    | true => exact ⟨_, List.mem_cons_self, hc.trans hpc⟩
    | false =>
      obtain ⟨f, hf, hfc⟩ := g.claimed _ (List.mem_of_getElem? hi) hp
      exact ⟨f, List.mem_cons_of_mem _ (mem_eraseIdx_of_claims hi hpc hf hfc), hfc⟩
  exact ⟨g.owner, fun _ _ _ => hclaimed, fun _ _ => hclaimed⟩

/-- When an open ends and another one is under way, one of these has set the owner. -/
theorem rest (g : Owned s posts past) (gd : Guarded s posts past) (hd : s.disposed = false)
    (hi : posts[i]? = some (t, p)) (hp : p.kind = .opens) (hn : ∀ f ∈ posts.take i, f.1 ≠ t)
    {f : Post} (hf : f ∈ posts.eraseIdx i) (hk : f.2.kind = .opens) :
    ∃ f ∈ posts.eraseIdx i, f.2.claims = true := by
  have hpc : p.claims = false := gd.alone hd hi hp hn f hf hk
  obtain ⟨f', hf', hc⟩ := g.claimed f (List.mem_of_mem_eraseIdx hf) hk
  exact ⟨f', mem_eraseIdx_of_claims hi hpc hf' hc, hc⟩

/-- An open installs its database. -/
theorem installs (g : Owned s posts past) (gd : Guarded s posts past) (hd : s.disposed = false)
    (hi : posts[i]? = some (t, p)) (hp : p.kind = .opens) (hn : ∀ f ∈ posts.take i, f.1 ≠ t)
    (db : DbHandle) :
    Owned { s with handle := some db } (posts.eraseIdx i) (.installed t db :: past) where
  owner db' hdb' := by
    cases hdb'
    exact ⟨t, gd.owners hd (t, p) (List.mem_of_getElem? hi) hp, rfl⟩
  claimed f hf hk := g.rest gd hd hi hp hn hf hk
  held hh := by cases hh

/-- An open fails. If the database is there, it is not the one that has set the owner. -/
theorem fails (g : Owned s posts past) (gd : Guarded s posts past) (hd : s.disposed = false)
    (hi : posts[i]? = some (t, p)) (hp : p.kind = .opens) (hn : ∀ f ∈ posts.take i, f.1 ≠ t)
    (hr : s.handle.isSome = true → p.claims = false) :
    Owned (if p.claims then s.unclaim t else s) (posts.eraseIdx i) past := by
  cases hc : p.claims with
  | false => exact g.erase hi hc
  | true =>
    have hh : s.handle = none := by
      cases hh : s.handle with
      | none => rfl
      | some db => simp [hr (by simp [hh])] at hc
    have howner : (s.unclaim t).owner = none := by
      simp [State.unclaim, gd.owners hd (t, p) (List.mem_of_getElem? hi) hp]
    rw [if_pos rfl]
    refine ⟨fun db hdb => ?_, fun f hf hk => g.rest gd hd hi hp hn hf hk, fun _ ho => ?_⟩
    · rw [unclaim_handle, hh] at hdb
      cases hdb
    · simp [howner] at ho

end Owned

/-! ## Steps -/

/-- The connection is owned, unless it is disposed, and guarded. -/
structure World.Owned (w : World (phases c) E) : Prop where
  guarded : w.state.disposed = false → w.Guarded
  owned : w.state.disposed = false → Interleaving.Owned w.state w.posts w.history

def Move.Owns (t : ThreadId) (own : Bool) (k : Kind) (m : Move) (posts : List Post)
    (past : History) : Prop :=
  match m.next with
  | .inl q => Owned m.state ((t, q) :: posts) past
  | .inr o => Owned m.state posts (k.closing t own m.state o ++ past)

theorem owned_proceed {task : Task} {m : Move} (h : m.Owns t own task.kind w.posts w.history) :
    Owned (w.proceed t task own m).state (w.proceed t task own m).posts
      (w.proceed t task own m).history := by
  have hr := installation_quiet (quiet_reported m.notices) w.history
  unfold Move.Owns at h
  cases hn : m.next with
  | inl q =>
    rw [hn] at h
    rw [w.proceed_pause t task own hn]
    exact h.congr_past hr
  | inr o =>
    rw [w.proceed_end t task own hn]
    simp only [hn, ← Task.closing_eq] at h
    exact h.congr_past (installation_append hr _)

theorem owns_same {k : Kind} {m : Move} (g : Owned s posts past) (hk : k ≠ .opens) (hm : m.Of k)
    (hs : SameDatabase s m.state) : m.Owns t own k posts past := by
  unfold Move.Owns
  unfold Move.Of at hm
  have g := g.same hs
  cases hn : m.next with
  | inl q =>
    rw [hn] at hm
    exact g.push (hm.trans_ne hk)
  | inr o => exact g.congr_past (installation_closing hk _ _ _ _ _)

theorem owns_open_start {mode : OpenMode} (g : Owned s posts past) (hd : s.disposed = false) :
    (phaseStart c t s (.open mode)).Owns t own .opens posts past := by
  have hsame : ∀ o, (phaseStart c t s (.open mode)).next = .inr o →
      (phaseStart c t s (.open mode)).state = s := fun o => refused_same hd g.owner_isSome
  have hstart := open_start (c := c) (t := t) (s := s) mode
  generalize phaseStart c t s (.open mode) = m at hstart hsame
  unfold Move.Owns
  cases hstart with
  | @refused o ends fails _ =>
    obtain ⟨e, he⟩ := fails
    rw [ends, hsame o ends]
    refine g.congr_past ?_
    simp [Kind.closing, he]
  | opens _ closed _ waits state =>
    rw [waits, state]
    exact g.opening closed _

theorem owns_open_rest (g : Owned s posts past) (gd : Guarded s posts past)
    (hd : s.disposed = false) (hi : posts[i]? = some (t, p)) (hp : p.kind = .opens)
    (hn : ∀ f ∈ posts.take i, f.1 ≠ t) (answer : (p.call c).Answer)
    (hr : p.claims = true → s.handle.isSome = true →
      ∀ o e, (p.resume c t answer s).next = .inr o → o.result ≠ .error e) :
    (p.resume c t answer s).Owns t own .opens (posts.eraseIdx i) past := by
  unfold Move.Owns
  have hrest := open_rest (t := t) (s := s) hp answer
  generalize p.resume c t answer s = m at hrest hr
  cases hrest with
  | waits waits _ same state =>
    rw [waits, state]
    exact g.waiting hi hp same
  | late disposed _ _ => simp [hd] at disposed
  | @installs db _ _ ends state =>
    rw [ends, state]
    exact g.installs gd hd hi hp hn db
  | @fails o ends fails state =>
    obtain ⟨e, he⟩ := fails
    have hfree : s.handle.isSome = true → p.claims = false := by
      intro hh
      by_contra hc
      exact hr (by simpa using hc) hh o e ends he
    rw [ends, state]
    refine (g.fails gd hd hi hp hn hfree).congr_past ?_
    simp [Kind.closing, he]

theorem World.Owned.not_stray (o : w.Owned) (tidy : Tidy w) (d : Drains w)
    (hd : w.state.disposed = false) (l : Label E) : ¬w.Stray l := by
  have g := o.guarded hd
  rintro (⟨hcalls, hc, -, -, howner⟩ | ⟨-, -, -, -, f, hf, hdisposal, -⟩)
  · refine howner ?_
    obtain ⟨-, -, q, hq, rfl⟩ := hcalls
    have hopened : w.state.handle.isSome = true := by
      rcases start_inside hq (inside_of_confined hc) with hready | ⟨-, hr, -⟩
      · exact hready.opened
      · exact (g.opened hd).2 (g.stocked hr)
    obtain ⟨db, hdb⟩ := Option.isSome_iff_exists.1 hopened
    obtain ⟨t, ht, hinst⟩ := (o.owned hd).owner db hdb
    rw [ht, opener_installation, hinst]
    rfl
  · have hkind := (tidy.kinds f hf).trans (kind_of_isDisposal hdisposal)
    simp [d.effective f hf hkind] at hd

/-- The open that fails in a step has set the owner exactly if no other one is under way. -/
theorem World.Owned.claims_iff (o : w.Owned) (tidy : Tidy w) (hd : w.state.disposed = false)
    {task : Task} {answer : (p.call c).Answer} (hf : w.frames[i]? = some ⟨t, task, p, some answer⟩)
    (hn : (w.frames.take i).all (·.thread ≠ t)) (hp : p.kind = .opens) :
    p.claims = true ↔ ∀ f ∈ w.frames.eraseIdx i, f.task.isOpen = false := by
  have hi := posts_getElem? hf
  have hposts : w.posts.eraseIdx i = (w.frames.eraseIdx i).map fun f => (f.thread, f.point) :=
    List.eraseIdx_map ..
  have hnewest := newest_posts hn
  constructor
  · intro hc f hm
    by_contra ho
    have hk := isOpen_iff.1 (Bool.not_eq_false _ ▸ ho)
    have hmem : (f.thread, f.point) ∈ w.posts.eraseIdx i := hposts ▸ List.mem_map_of_mem hm
    have := (o.guarded hd).alone hd hi hp hnewest _ hmem
      ((tidy.kinds f (List.mem_of_mem_eraseIdx hm)).trans hk)
    simp [hc] at this
  · intro hall
    by_contra hc
    have hpc : p.claims = false := by simpa using hc
    obtain ⟨f, hm, hfc⟩ := (o.owned hd).claimed _ (List.mem_of_getElem? hi) hp
    have hm := Owned.mem_eraseIdx_of_claims hi hpc hm hfc
    rw [hposts] at hm
    obtain ⟨f', hm', rfl⟩ := List.mem_map.1 hm
    have hk := (tidy.kinds f' (List.mem_of_mem_eraseIdx hm')).symm.trans (opens_of_claims hfc)
    exact Bool.noConfusion ((isOpen_iff.2 hk).symm.trans (hall f' hm'))

theorem World.Owned.step (o : w.Owned) (tidy : Tidy w) (d : Drains w) {l : Label E}
    (h : w.step l = some w') (hr : ¬w.Revokes l) : w'.Owned := by
  have hbefore := undisposed_of_step h
  refine ⟨fun hd' => ?_, fun hd' => ?_⟩
  · exact guarded_step tidy d (o.guarded (hbefore hd')) h
      (inside_of_not_stray tidy d (o.guarded (hbefore hd')) (o.not_stray tidy d (hbefore hd') l))
  · have hd := hbefore hd'
    have g := o.owned hd
    cases World.step_cases h with
    | @start t a task ht =>
      have ge : Interleaving.Owned w.state (w.entered t task).posts (w.entered t task).history :=
        g.congr_past (installation_quiet (quiet_opening task t w.state) w.history)
      refine owned_proceed ?_
      show (phaseStart c t w.state task).Owns t _ task.kind _ _
      cases start_cases (c := c) (t := t) (s := w.state) task with
      | opens hk _ =>
        obtain ⟨mode, rfl⟩ := open_of_kind hk
        exact owns_open_start ge hd
      | disposes htask _ => simp [not_isDisposal_of_start hd'] at htask
      | other ho _ change => exact owns_same ge ho (start_of task) change.sameDatabase
    | @act i t task p hf =>
      have hposts : (w.acted i t task p).posts = w.posts := posts_acted hf
      exact hposts ▸ g.congr_past (installation_minting _ w.history)
    | @resume i t task p answer hf hn =>
      have hi := posts_getElem? hf
      have hk : p.kind = task.kind := tidy.kinds _ (List.mem_of_getElem? hf)
      have hposts : (w.returned i t (p.call c)).posts = w.posts.eraseIdx i :=
        (List.eraseIdx_map ..).symm
      have g' : Interleaving.Owned w.state w.posts (.returned t (p.call c) :: w.history) :=
        g.congr_past rfl
      refine owned_proceed ?_
      show (p.resume c t answer w.state).Owns t true task.kind (w.returned i t (p.call c)).posts
        (.returned t (p.call c) :: w.history)
      rw [hposts, ← hk]
      by_cases ho : p.kind = .opens
      · rw [ho]
        refine owns_open_rest g' ((o.guarded hd).congr_past rfl) hd hi ho (newest_posts hn) answer ?_
        intro hc hh out e hend he
        exact hr ⟨i, t, task, out, e, rfl, ⟨p, answer, hf, hend⟩,
          isOpen_iff.2 (hk.symm.trans ho), he, hh, (o.claims_iff tidy hd hf hn ho).1 hc⟩
      · exact owns_same (g'.erase hi (claims_of_kind ho)) ho (resume_of p answer)
          (resume_same ho answer)
    | drift e => exact g

/-- The owner of an open connection stays in every step but a disposal that takes effect and a
failure that takes it back. -/
theorem World.Owned.keeps_owner (o : w.Owned) (tidy : Tidy w) {l : Label E}
    (h : w.step l = some w') (hr : ¬w.Revokes l) (hh : w.state.handle.isSome = true)
    (hd' : w'.state.disposed = false) : w'.state.owner = w.state.owner := by
  have hd := undisposed_of_step h hd'
  cases World.step_cases h with
  | @start t a task ht =>
    have hstate : (w.start t task).state = (phaseStart c t w.state task).state := proceed_state ..
    rw [hstate]
    refine start_owner ((o.owned hd).owner_isSome hh) fun hk => ?_
    simpa [isDisposal_of_kind hk] using not_isDisposal_of_start hd'
  | act _ => rfl
  | @resume i t task p answer hf hn =>
    have hstate := proceed_state (w.returned i t (p.call c)) t task true
      (p.resume c t answer w.state)
    refine (congrArg State.owner hstate).trans (resume_owner fun hc out e hend he => ?_)
    have hk : p.kind = .opens := opens_of_claims hc
    exact hr ⟨i, t, task, out, e, rfl, ⟨p, answer, hf, hend⟩,
      isOpen_iff.2 ((tidy.kinds _ (List.mem_of_getElem? hf)).symm.trans hk), he, hh,
      (o.claims_iff tidy hd hf hn hk).1 hc⟩
  | drift e => rfl

/-- A failure that takes the owner back leaves a database without an owner. -/
theorem World.Owned.revoked (o : w.Owned) (tidy : Tidy w) (d : Drains w) {l : Label E}
    (h : w.step l = some w') (hr : w.Revokes l) :
    w'.state.handle.isSome = true ∧ w'.state.owner = none := by
  obtain ⟨i, t, task, out, e, rfl, ⟨p, answer, hf, hend⟩, hopen, he, hh, hall⟩ := hr
  have hd : w.state.disposed = false := undisposed_of_handle d.closed hh
  cases World.step_cases h with
  | @resume _ t' task' p' answer' hf' hn =>
    cases hf.symm.trans hf'
    have hk : p.kind = .opens :=
      (tidy.kinds _ (List.mem_of_getElem? hf)).trans (isOpen_iff.1 hopen)
    have hc : p.claims = true := (o.claims_iff tidy hd hf hn hk).2 hall
    have howner : w.state.owner = some t :=
      (o.guarded hd).owners hd (t, p) (List.mem_of_getElem? (posts_getElem? hf)) hk
    have hstate := proceed_state (w.returned i t (p.call c)) t task true
      (p.resume c t answer w.state)
    have hafter : (p.resume c t answer w.state).state = w.state.unclaim t := by
      have hends : (p.resume c t answer w.state).next = .inr out := hend
      have hrest := open_rest (t := t) (s := w.state) hk answer
      generalize p.resume c t answer w.state = m at hrest hends
      cases hrest with
      | waits waits => cases waits.symm.trans hends
      | late _ waits => cases waits.symm.trans hends
      | installs _ _ ends =>
        cases ends.symm.trans hends
        cases he
      | fails _ _ state => rw [state, if_pos hc]
    refine ⟨?_, ?_⟩
    · refine (congrArg (fun s => s.handle.isSome) (hstate.trans hafter)).trans ?_
      simpa using hh
    · refine (congrArg State.owner (hstate.trans hafter)).trans ?_
      simp [State.unclaim, howner]

/-! ## Runs -/

/-- A run without such a failure keeps the connection owned. -/
theorem run_owned {e : E.State} {ls : List (Label E)}
    (run : Run (phases c) E e Unrevoked ls w) : w.Owned := by
  induction run with
  | nil => exact ⟨fun _ => Guarded.initial, fun _ => Owned.initial⟩
  | snoc run hs hok ih => exact ih.step (run_tidy run) (run_drains run) hs hok

/-- A step of an owned connection keeps the owner of its database exactly if no failure takes it
back. -/
theorem World.Owned.step_iff (o : w.Owned) (tidy : Tidy w) (d : Drains w) (f : Final w)
    {l : Label E} (h : w.step l = some w') : Owning w l w' ↔ Unrevoked w l w' := by
  constructor
  · intro owning hr
    obtain ⟨hh, hnone⟩ := o.revoked tidy d h hr
    obtain ⟨db, hdb⟩ := Option.isSome_iff_exists.1 hh
    obtain ⟨t, ht, -⟩ := owning.opener db hdb
    cases hnone.symm.trans ht
  · intro hr
    have o' := o.step tidy d h hr
    have f' := f.step h
    refine ⟨fun db hdb => ?_, o.keeps_owner tidy h hr, fun hd => ?_⟩
    · have hd' : w'.state.disposed = false := by
        by_contra hd
        simp [(f'.retired (by simpa using hd)).handle] at hdb
      exact (o'.owned hd').owner db hdb
    · exact ⟨(f'.retired hd).handle, (f'.retired hd).owner⟩

theorem phases_owning_iff {e : E.State} {ls : List (Label E)} :
    Run (phases c) E e Owning ls w ↔ Run (phases c) E e Unrevoked ls w := by
  constructor
  · intro run
    induction run with
    | nil => exact .nil
    | snoc _ hs hok ih =>
      exact ih.snoc hs (((run_owned ih).step_iff (run_tidy ih) (run_drains ih) (run_final ih)
        hs).1 hok)
  · intro run
    induction run with
    | nil => exact .nil
    | snoc run hs hok ih =>
      exact ih.snoc hs (((run_owned run).step_iff (run_tidy run) (run_drains run) (run_final run)
        hs).2 hok)

theorem run_owner {M : Machine} {e : E.State} {ls : List (Label E)} {w : World M E}
    (run : Run M E e Owning ls w) {db : DbHandle} (hdb : w.state.handle = some db) :
    ∃ t, w.state.owner = some t := by
  cases run with
  | nil => cases hdb
  | snoc _ _ hok =>
    obtain ⟨t, ht, -⟩ := hok.opener db hdb
    exact ⟨t, ht⟩

theorem realize_revokes (w : World (phases c) E) (l : Label E) :
    w.realize.Revokes l ↔ w.Revokes l := by
  have hothers : ∀ i, (∀ f ∈ w.realize.frames.eraseIdx i, f.task.isOpen = false) ↔
      ∀ f ∈ w.frames.eraseIdx i, f.task.isOpen = false := by
    intro i
    rw [World.realize_frames, List.eraseIdx_map]
    simp
  simp only [World.Revokes, realize_ends, hothers, World.realize_state]

theorem realize_owning (w : World (phases c) E) (l : Label E) (w' : World (phases c) E) :
    Owning w.realize l w'.realize ↔ Owning w l w' :=
  ⟨fun h => ⟨h.opener, h.same, h.disposed⟩, fun h => ⟨h.opener, h.same, h.disposed⟩⟩

/-- **An open connection keeps its opener as the owner exactly in the runs in which no last open
under way fails while the database is there.** -/
theorem owning_iff {e : E.State} {ls : List (Label E)} {w : World (programs c) E} :
    Run (programs c) E e Owning ls w ↔ Run (programs c) E e Unrevoked ls w := by
  rw [run_programs_congr realize_owning,
    run_programs_congr fun w l _ => not_congr (realize_revokes w l)]
  exact exists_congr fun v => and_congr_right fun _ => phases_owning_iff

/-! ## An owner that is taken back -/

/-- The database is there and nobody owns it. -/
theorem openedWithin_unowned :
    ∃ w, Run (programs inMemory) recording .initial AnyStep openedWithin w ∧
      w.state.handle.isSome = true ∧ w.state.disposed = false ∧ w.state.owner = none ∧
      ¬Run (programs inMemory) recording .initial Owning openedWithin w := by
  obtain ⟨w, run, hw⟩ := exists_run (M := programs inMemory) (e := RecordingEngine.initial)
    AnyStep openedWithin
    (fun w => w.state.handle.isSome = true ∧ w.state.disposed = false ∧ w.state.owner = none)
    (by decide +kernel)
  simp only [decide_eq_true_eq] at hw
  obtain ⟨hh, hd, ho⟩ := hw
  refine ⟨w, run, hh, hd, ho, fun howning => ?_⟩
  obtain ⟨db, hdb⟩ := Option.isSome_iff_exists.1 hh
  obtain ⟨t, ht⟩ := run_owner howning hdb
  cases ho.symm.trans ht

end ConfinedDb.Interleaving
