import ConfinedDb.Proofs.Interleaving.Calls
import ConfinedDb.Proofs.Interleaving.Drain
/-!
# What guards the confinement

A connection is to be used on the thread whose open has installed its database (`opener?`). All
that keeps other threads out is the owner, which the first open sets, which a failed open takes
back and which a disposal takes out before it is done with the statements. `Guarded` is what makes
this enough for every action that is under way. Opens under way are all on the owner's thread, the
one that has set the owner is the oldest of them, so when it fails no other is left; and an action
that has made a confined call is on the opener's thread and stays there.

Each lemma of the last part is one move: an open waits, installs or fails, an action goes on to a
call, a disposal takes effect.
-/
namespace ConfinedDb

/-- Whether a call is only to be made on the thread that opened the database. -/
def EngineCall.isConfined : EngineCall → Bool
  | .open .. | .close _ | .errorMessage _ => false
  | _ => true

namespace Interleaving

/-- The thread whose open has installed the database, the last if there were several. -/
def History.opener? : History → Option ThreadId
  | [] => none
  | .installed t _ :: _ => some t
  | _ :: past => opener? past

open History

/-! ## Phases -/

/-- Whether an action in this phase has made a confined call. -/
def Phase.inside : Phase → Bool
  | .opening .. | .openFailed .. | .openCleanup .. | .openLate _ | .closing _ | .closeFailed .. =>
    false
  | _ => true

variable {c : Connection} {t : ThreadId} {p q : Phase}

theorem inside_of_confined (h : (p.call c).isConfined = true) : p.inside = true := by
  cases p <;> first | rfl | cases h

theorem not_inside_of_opens (h : p.kind = .opens) : p.inside = false := by
  cases p with
  | failing c' db rc operation about onward => cases onward <;> cases h
  | _ => first | rfl | cases h

theorem claims_of_kind (h : p.kind ≠ .opens) : p.claims = false := by
  cases p <;> first | rfl | exact absurd rfl h

/-- An action is inside from its first call on, but for opens and disposals. -/
theorem inside_of_kind (ho : p.kind ≠ .opens) (hd : p.kind ≠ .disposes) : p.inside = true := by
  cases p <;> first | rfl | exact absurd rfl ho | exact absurd rfl hd

theorem drains_of_inside (h : p.inside = true) (hd : p.kind = .disposes) : p.drains = true := by
  cases p with
  | failing c' db rc operation about onward => cases onward <;> cases hd
  | draining h sql rounds db => rfl
  | closing db => cases h
  | closeFailed db rc => cases h
  | _ => cases hd

/-! ## The guard -/

/-- An action under way: its thread and where it is. -/
abbrev Post := ThreadId × Phase

/-- What the confinement rests on. -/
structure Guarded (s : State) (posts : List Post) (past : History) : Prop where
  owners : s.disposed = false → ∀ f ∈ posts, f.2.kind = .opens → s.owner = some f.1
  oldest : s.disposed = false →
    posts.Pairwise fun newer older => older.2.kind = .opens → newer.2.claims = false
  opened : s.disposed = false → (s.handle.isSome = true ↔ (opener? past).isSome = true)
  sole : s.disposed = false → ∀ o, opener? past = some o → ∀ f ∈ posts, f.2.kind = .opens → f.1 = o
  inside : ∀ f ∈ posts, f.2.inside = true → opener? past = some f.1
  stocked : s.registered ≠ [] → (opener? past).isSome = true

namespace Guarded

variable {s s' : State} {posts posts' : List Post} {past past' : History} {i : Nat}

theorem initial : Guarded .initial [] [] := by
  constructor <;> simp [State.initial, Registry.empty, opener?, Table.keys,
    EmptyCollection.emptyCollection, Table.empty]

theorem congr_past (g : Guarded s posts past) (h : opener? past' = opener? past) :
    Guarded s posts past' :=
  { g with
    opened := h ▸ g.opened
    sole := h ▸ g.sole
    inside := h ▸ g.inside
    stocked := h ▸ g.stocked }

theorem of_disposed (hd : s.disposed = true)
    (inside : ∀ f ∈ posts, f.2.inside = true → opener? past = some f.1)
    (stocked : s.registered ≠ [] → (opener? past).isSome = true) : Guarded s posts past where
  owners hf := absurd hd (by simp [hf])
  oldest hf := absurd hd (by simp [hf])
  opened hf := absurd hd (by simp [hf])
  sole hf := absurd hd (by simp [hf])
  inside := inside
  stocked := stocked

theorem erase (g : Guarded s posts past) (i : Nat) : Guarded s (posts.eraseIdx i) past where
  owners hf f hm := g.owners hf f (List.mem_of_mem_eraseIdx hm)
  oldest hf := (g.oldest hf).sublist (List.eraseIdx_sublist ..)
  opened := g.opened
  sole hf o ho f hm := g.sole hf o ho f (List.mem_of_mem_eraseIdx hm)
  inside f hm := g.inside f (List.mem_of_mem_eraseIdx hm)
  stocked := g.stocked

theorem same (g : Guarded s posts past) (hc : Closed s) (h : SameDatabase s s') :
    Guarded s' posts past where
  owners hd := h.owner ▸ g.owners (h.disposed ▸ hd)
  oldest hd := g.oldest (h.disposed ▸ hd)
  opened hd := h.handle ▸ g.opened (h.disposed ▸ hd)
  sole hd := g.sole (h.disposed ▸ hd)
  inside := g.inside
  stocked hr := by
    rcases h.registered with hsub | hh
    · exact g.stocked fun he => hr (List.subset_nil.1 (he ▸ hsub))
    · cases hd : s.disposed with
      | false => exact (g.opened hd).1 hh
      | true => simp [hc hd] at hh

theorem push (g : Guarded s posts past) (hq : s.disposed = false → q.kind ≠ .opens)
    (hi : q.inside = true → opener? past = some t) : Guarded s ((t, q) :: posts) past where
  owners hd f hm hk := by
    rcases List.mem_cons.1 hm with rfl | hm
    · exact absurd hk (hq hd)
    · exact g.owners hd f hm hk
  oldest hd := List.pairwise_cons.2 ⟨fun _ _ _ => claims_of_kind (hq hd), g.oldest hd⟩
  opened := g.opened
  sole hd o ho f hm hk := by
    rcases List.mem_cons.1 hm with rfl | hm
    · exact absurd hk (hq hd)
    · exact g.sole hd o ho f hm hk
  inside f hm h := by
    rcases List.mem_cons.1 hm with rfl | hm
    · exact hi h
    · exact g.inside f hm h
  stocked := g.stocked

/-! ### Opens -/

theorem claim (g : Guarded s posts past) (t : ThreadId) : Guarded (s.claim t) posts past := by
  unfold State.claim
  split
  · exact g
  · next h =>
    have hn : s.owner = none := by
      cases ho : s.owner with
      | none => rfl
      | some o => exact absurd (.inr (by simp [ho])) h
    exact { g with
      owners := fun hd f hm hk => by
        have ho := g.owners hd f hm hk
        rw [hn] at ho
        cases ho }

theorem opening (g : Guarded s posts past) (hd : s.disposed = false) (hh : s.handle = none)
    (ha : bars s t = false) (flags : OpenFlags) :
    Guarded (s.claim t) ((t, .opening flags s.owner.isNone) :: posts) past := by
  have gc := g.claim t
  have hno : ¬(opener? past).isSome = true := by
    intro ho
    simpa [hh] using (g.opened hd).2 ho
  have howner : (s.claim t).owner = some t := by
    unfold State.claim
    cases ho : s.owner with
    | none => simp [hd]
    | some o =>
      have : t = o := by simpa [bars, ho] using ha
      simp [ho, this]
  refine ⟨fun hd' f hm hk => ?_, fun hd' => ?_, gc.opened, fun hd' o ho => ?_, fun f hm hi => ?_,
    gc.stocked⟩
  · rcases List.mem_cons.1 hm with rfl | hm
    · exact howner
    · exact gc.owners hd' f hm hk
  · refine List.pairwise_cons.2 ⟨fun f hm hk => ?_, gc.oldest hd'⟩
    have ho := g.owners hd f hm hk
    simp [Phase.claims, ho]
  · exact absurd (by simp [ho]) hno
  · rcases List.mem_cons.1 hm with rfl | hm
    · cases hi
    · exact g.inside f hm hi

/-- Beside an open that has set the owner no other is under way, once it is the newest action of its
thread. -/
theorem alone (g : Guarded s posts past) (hd : s.disposed = false) (hi : posts[i]? = some (t, p))
    (hp : p.kind = .opens) (hn : ∀ f ∈ posts.take i, f.1 ≠ t) :
    ∀ f ∈ posts.eraseIdx i, f.2.kind = .opens → p.claims = false := by
  intro f hm hk
  have hmem := List.mem_of_getElem? hi
  have hthread : f.1 = t := by
    have hf := g.owners hd f (List.mem_of_mem_eraseIdx hm) hk
    rw [g.owners hd _ hmem hp] at hf
    exact (Option.some.inj hf).symm
  rw [List.eraseIdx_eq_take_drop_succ] at hm
  rcases List.mem_append.1 hm with hm | hm
  · exact absurd hthread (hn f hm)
  · obtain ⟨hlt, hget⟩ := List.getElem?_eq_some_iff.1 hi
    have hpost : posts.drop i = (t, p) :: posts.drop (i + 1) := by
      rw [List.drop_eq_getElem_cons hlt, hget]
    have hpair := (g.oldest hd).sublist (List.drop_sublist i posts)
    rw [hpost] at hpair
    exact (List.pairwise_cons.1 hpair).1 f hm hk

theorem waiting (g : Guarded s posts past) (hi : posts[i]? = some (t, p)) (hp : p.kind = .opens)
    (hn : ∀ f ∈ posts.take i, f.1 ≠ t) (hq : q.kind = .opens) (hc : q.claims = p.claims) :
    Guarded s ((t, q) :: posts.eraseIdx i) past := by
  have hmem := List.mem_of_getElem? hi
  have ge := g.erase i
  refine ⟨fun hd f hm hk => ?_, fun hd => ?_, ge.opened, fun hd o ho f hm hk => ?_,
    fun f hm hin => ?_, ge.stocked⟩
  · rcases List.mem_cons.1 hm with rfl | hm
    · exact g.owners hd (t, p) hmem hp
    · exact ge.owners hd f hm hk
  · exact List.pairwise_cons.2 ⟨fun f hm hk => hc.trans (g.alone hd hi hp hn f hm hk), ge.oldest hd⟩
  · rcases List.mem_cons.1 hm with rfl | hm
    · exact g.sole hd o ho (t, p) hmem hp
    · exact ge.sole hd o ho f hm hk
  · rcases List.mem_cons.1 hm with rfl | hm
    · simp [not_inside_of_opens hq] at hin
    · exact ge.inside f hm hin

/-- An open installs its database: the opener stays the same thread if there was one. -/
theorem installs (g : Guarded s posts past) (hi : posts[i]? = some (t, p)) (hp : p.kind = .opens)
    (hd : s.disposed = false) (db : DbHandle) :
    Guarded { s with handle := some db } (posts.eraseIdx i) (.installed t db :: past) := by
  have hmem := List.mem_of_getElem? hi
  have ge := g.erase i
  exact {
    owners := ge.owners
    oldest := ge.oldest
    opened := fun _ => by simp [opener?]
    sole := fun _ o ho f hm hk => by
      have hf := ge.owners hd f hm hk
      rw [g.owners hd _ hmem hp] at hf
      exact (Option.some.inj hf).symm.trans (Option.some.inj ho)
    inside := fun f hm hin => by
      have ht : t = f.1 := g.sole hd f.1 (ge.inside f hm hin) _ hmem hp
      exact congrArg some ht
    stocked := fun _ => rfl }

/-- An open fails, and takes the owner back if it has set it. -/
theorem fails (g : Guarded s posts past) (hi : posts[i]? = some (t, p)) (hp : p.kind = .opens)
    (hn : ∀ f ∈ posts.take i, f.1 ≠ t) :
    Guarded (if p.claims then s.unclaim t else s) (posts.eraseIdx i) past := by
  have ge := g.erase i
  split
  · next hc =>
    unfold State.unclaim
    split
    · exact { ge with
        owners := fun hd f hm hk => by
          have := g.alone hd hi hp hn f hm hk
          simp [hc] at this }
    · exact ge
  · exact ge

/-! ### Disposals -/

theorem sweep (hd : s.disposed = true)
    (hin : ∀ f ∈ posts, f.2.inside = true → opener? past = some f.1) :
    Guarded s.forgetAll posts past :=
  of_disposed hd hin fun h => absurd rfl h

end Guarded

end Interleaving

end ConfinedDb
