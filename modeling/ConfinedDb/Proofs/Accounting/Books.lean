import ConfinedDb.Proofs.Interleaving.Kind
import Mathlib.Data.List.Perm.Basic
/-!
# The books of a connection

Who has which statement, while actions are under way. A registered statement is in the hands of a
user, idle in the cache, leaked, or held by a release that is under way; what an action under way
has to do with a statement is its `Grip`. `Books` says how the four are kept apart, how they go
with the registry, and how registry and grips go with the history: which handles are live, which
are spent.

The equation of the registry is kept until the connection is disposed. What is kept after that is
what decides whether a handle is touched once it is spent: no two owners have the same handle, and a
registered handle is spent only while an action finalizes it.

Each lemma of the last part is one move: a statement is registered, released, finalized, goes to
the cache, a disposal takes it.
-/
namespace ConfinedDb

abbrev State.registered (s : State) : List StmtHandle := s.statements.table.keys

theorem State.contains_iff (s : State) (h : StmtHandle) :
    s.statements.contains h = true ↔ h ∈ s.registered :=
  s.statements.table.contains_iff h

theorem State.registered_register {s : State} (h : StmtHandle) (sql : String)
    (hh : s.handle.isSome) :
    (s.register h sql).registered
      = if h ∈ s.registered then s.registered else s.registered ++ [h] := by
  unfold State.register
  rw [if_pos hh]
  exact s.statements.table.keys_insert h sql

theorem State.registered_forget (s : State) (h : StmtHandle) (sql : String) :
    (s.forget h sql).registered = s.registered.filter (· ≠ h) := by
  unfold State.forget
  split
  · next ha =>
    have hm : h ∉ s.registered := by
      rw [← s.contains_iff]
      simp only [State.abandoned, Bool.and_eq_true, Bool.not_eq_true'] at ha
      simp [ha.2]
    rw [List.filter_eq_self.2 fun k hk => by simpa using fun e : k = h => hm (e ▸ hk)]
  · exact s.statements.table.keys_erase h

theorem State.forget_subset (s : State) (h : StmtHandle) (sql : String) :
    (s.forget h sql).registered ⊆ s.registered := by
  rw [State.registered_forget]
  exact List.filter_sublist.subset

@[simp] theorem State.forget_disposed (s : State) (h : StmtHandle) (sql : String) :
    (s.forget h sql).disposed = s.disposed := by
  unfold State.forget
  split <;> rfl

@[simp] theorem State.forget_handle (s : State) (h : StmtHandle) (sql : String) :
    (s.forget h sql).handle = s.handle := by
  unfold State.forget
  split <;> rfl

theorem State.forget_eq {s : State} (hd : s.disposed = false) {h : StmtHandle} {sql : String}
    (hc : s.cache.get? sql ≠ some h) :
    s.forget h sql = { s with statements := s.statements.remove h } := by
  unfold State.forget Cache.removeIf
  rw [if_neg (by simp [State.abandoned, hd]), if_neg hc]

theorem State.mem_registered {s : State} {h : StmtHandle} {sql : String}
    (hg : s.statements.get? h = some sql) : h ∈ s.registered := by
  rw [← s.contains_iff, s.statements.contains_eq, hg]
  rfl

namespace Interleaving

open History

theorem perm_of_filter_ne {α : Type} [DecidableEq α] {l rest : List α} {a : α}
    (hp : l.Perm (a :: rest)) (hn : l.Nodup) : (l.filter (· ≠ a)).Perm rest := by
  have hrest := (List.nodup_cons.1 (hp.nodup_iff.1 hn)).1
  have hf := hp.filter (· ≠ a)
  rw [List.filter_cons_of_neg (by simp)] at hf
  have hself : rest.filter (· ≠ a) = rest := List.filter_eq_self.2 fun k hk => by
    simpa using fun e : k = a => hrest (e ▸ hk)
  exact hself ▸ hf

/-! ## Lives of handles -/

/-- How registered handles (`regs`), handles that are being finalized (`ends`) and handles that have
not arrived yet (`pends`) go with the history. -/
structure Lives (regs ends pends : List StmtHandle) (past : History) : Prop where
  registered : ∀ h ∈ regs, h ∈ live past ∧ (h ∈ spent past → h ∈ ends)
  ending : ∀ h ∈ ends, h ∈ live past ∧ h ∈ spent past
  endingDistinct : ends.Nodup
  pending : ∀ h ∈ pends, h ∈ live past ∧ h ∉ spent past ∧ h ∉ retired past ∧ h ∉ regs
  pendingDistinct : pends.Nodup

namespace Lives

variable {regs regs' ends ends' pends pends' : List StmtHandle} {past past' : History}
  {h : StmtHandle}

theorem perm (l : Lives regs ends pends past) (he : ends.Perm ends') (hp : pends.Perm pends') :
    Lives regs ends' pends' past where
  registered k hk := ⟨(l.registered k hk).1, fun hs => he.mem_iff.1 ((l.registered k hk).2 hs)⟩
  ending k hk := l.ending k (he.mem_iff.2 hk)
  endingDistinct := he.nodup_iff.1 l.endingDistinct
  pending k hk := l.pending k (hp.mem_iff.2 hk)
  pendingDistinct := hp.nodup_iff.1 l.pendingDistinct

theorem congr_past (l : Lives regs ends pends past) (hl : live past' = live past)
    (hs : spent past' = spent past) (hr : retired past' = retired past) :
    Lives regs ends pends past' where
  registered := by simpa only [hl, hs] using l.registered
  ending := by simpa only [hl, hs] using l.ending
  endingDistinct := l.endingDistinct
  pending := by simpa only [hl, hs, hr] using l.pending
  pendingDistinct := l.pendingDistinct

theorem subset (l : Lives regs ends pends past) (hr : regs' ⊆ regs) :
    Lives regs' ends pends past :=
  { l with
    registered := fun k hk => l.registered k (hr hk)
    pending := fun k hk =>
      have hp := l.pending k hk
      ⟨hp.1, hp.2.1, hp.2.2.1, fun hm => hp.2.2.2 (hr hm)⟩ }

theorem mint (l : Lives regs ends pends past) (db : DbHandle) (hf : h ∉ live past) :
    Lives regs ends (h :: pends) (.minted db h :: past) := by
  have hne : ∀ k, k ∈ live past → k ≠ h := by
    intro k hk e
    exact hf (e ▸ hk)
  have hspent : ∀ k, k ∈ spent (.minted db h :: past) ↔ k ∈ spent past ∧ k ≠ h := by
    simp [spent]
  have hretired : ∀ k, k ∈ retired (.minted db h :: past) ↔ k ∈ retired past ∧ k ≠ h := by
    simp [retired]
  refine ⟨fun k hk => ?_, fun k hk => ?_, l.endingDistinct, fun k hk => ?_, ?_⟩
  · have hr := l.registered k hk
    exact ⟨List.mem_cons_of_mem _ hr.1, fun hs => hr.2 ((hspent k).1 hs).1⟩
  · have he := l.ending k hk
    exact ⟨List.mem_cons_of_mem _ he.1, (hspent k).2 ⟨he.2, hne k he.1⟩⟩
  · rcases List.mem_cons.1 hk with rfl | hk
    · exact ⟨List.mem_cons_self, fun hs => ((hspent k).1 hs).2 rfl,
        fun hs => ((hretired k).1 hs).2 rfl, fun hm => hf (l.registered k hm).1⟩
    · obtain ⟨hl, hs, hr, hm⟩ := l.pending k hk
      exact ⟨List.mem_cons_of_mem _ hl, fun h' => hs ((hspent k).1 h').1,
        fun h' => hr ((hretired k).1 h').1, hm⟩
  · exact List.nodup_cons.2 ⟨fun hm => hf (l.pending h hm).1, l.pendingDistinct⟩

theorem arrive (l : Lives regs ends (h :: pends) past) : Lives regs ends pends past :=
  { l with
    pending := fun k hk => l.pending k (List.mem_cons_of_mem _ hk)
    pendingDistinct := (List.nodup_cons.1 l.pendingDistinct).2 }

theorem register (l : Lives regs ends (h :: pends) past) :
    Lives (regs ++ [h]) ends pends past := by
  obtain ⟨hl, hs, -, -⟩ := l.pending h List.mem_cons_self
  obtain ⟨hnot, hd⟩ := List.nodup_cons.1 l.pendingDistinct
  refine ⟨fun k hk => ?_, l.ending, l.endingDistinct, fun k hk => ?_, hd⟩
  · rcases List.mem_append.1 hk with hk | hk
    · exact l.registered k hk
    · obtain rfl := List.mem_singleton.1 hk
      exact ⟨hl, fun h' => absurd h' hs⟩
  · obtain ⟨hl, hs, hr, hm⟩ := l.pending k (List.mem_cons_of_mem _ hk)
    refine ⟨hl, hs, hr, fun h' => (List.mem_append.1 h').elim hm fun h' => ?_⟩
    exact hnot (List.mem_singleton.1 h' ▸ hk)

theorem begin (l : Lives regs ends pends past) (hl : h ∈ live past) (hs : h ∉ spent past)
    (hp : h ∉ pends) (t : ThreadId) :
    Lives regs (h :: ends) pends (.called t (.finalize h) :: past) := by
  refine ⟨fun k hk => ⟨(l.registered k hk).1, fun h' => ?_⟩, fun k hk => ?_, ?_, fun k hk => ?_,
    l.pendingDistinct⟩
  · rcases List.mem_cons.1 h' with rfl | h'
    · exact List.mem_cons_self
    · exact List.mem_cons_of_mem _ ((l.registered k hk).2 h')
  · rcases List.mem_cons.1 hk with rfl | hk
    · exact ⟨hl, List.mem_cons_self⟩
    · exact ⟨(l.ending k hk).1, List.mem_cons_of_mem _ (l.ending k hk).2⟩
  · exact List.nodup_cons.2 ⟨fun hm => hs (l.ending h hm).2, l.endingDistinct⟩
  · obtain ⟨hl', hs', hrest⟩ := l.pending k hk
    refine ⟨hl', fun h' => ?_, hrest⟩
    rcases List.mem_cons.1 h' with rfl | h'
    · exact hp hk
    · exact hs' h'

theorem finish (l : Lives regs (h :: ends) pends past) (t : ThreadId) :
    Lives (regs.filter (· ≠ h)) ends pends (.returned t (.finalize h) :: past) := by
  obtain ⟨hnot, hd⟩ := List.nodup_cons.1 l.endingDistinct
  have hlive : ∀ k, k ∈ live past → k ≠ h → k ∈ live (.returned t (.finalize h) :: past) := by
    intro k hk hne
    exact List.mem_filter.2 ⟨hk, by simpa using hne⟩
  refine ⟨fun k hk => ?_, fun k hk => ?_, hd, fun k hk => ?_, l.pendingDistinct⟩
  · obtain ⟨hk, hne⟩ := List.mem_filter.1 hk
    have hne : k ≠ h := by simpa using hne
    refine ⟨hlive k (l.registered k hk).1 hne, fun hs => ?_⟩
    exact (List.mem_cons.1 ((l.registered k hk).2 hs)).resolve_left hne
  · have he := l.ending k (List.mem_cons_of_mem _ hk)
    exact ⟨hlive k he.1 fun e => hnot (e ▸ hk), he.2⟩
  · obtain ⟨hl, hs, hr, hm⟩ := l.pending k hk
    have hne : k ≠ h := by
      intro e
      exact hs (e ▸ (l.ending h List.mem_cons_self).2)
    exact ⟨hlive k hl hne, hs, hr, fun h' => hm (List.mem_filter.1 h').1⟩

theorem retire (l : Lives regs ends pends past) (t : ThreadId) :
    Lives regs ends pends (.retired t regs :: past) :=
  { l with
    pending := fun k hk =>
      have ⟨hl, hs, hr, hm⟩ := l.pending k hk
      ⟨hl, hs, fun h' => (List.mem_append.1 h').elim hm hr, hm⟩ }

theorem dispose (l : Lives [] ends pends past) : Lives [] ends pends (.disposed :: past) where
  registered _ hk := by cases hk
  ending k hk := ⟨(l.ending k hk).1, List.mem_append_right _ (l.ending k hk).2⟩
  endingDistinct := l.endingDistinct
  pending k hk :=
    have ⟨hl, hs, hr, hm⟩ := l.pending k hk
    ⟨hl, fun h' => (List.mem_append.1 h').elim hr hs, hr, hm⟩
  pendingDistinct := l.pendingDistinct

end Lives

/-! ## Grips -/

/-- What an action under way has to do with a statement. -/
inductive Grip where
  /-- A release holds the statement. -/
  | held (h : StmtHandle) (sql : String)
  /-- A release finalizes it. -/
  | finalizing (h : StmtHandle) (sql : String)
  /-- A disposal finalizes it. -/
  | draining (h : StmtHandle)
  /-- A preparation that came too late finalizes it. -/
  | late (h : StmtHandle)
  /-- The engine has compiled it, and its handle has not arrived. -/
  | pending (h : StmtHandle)
  /-- A disposal is done with the statements. -/
  | closing
deriving DecidableEq

namespace Grip

/-- The statement that a release has. -/
def entryOf : Grip → Option Entry
  | .held h sql | .finalizing h sql => some (h, sql)
  | _ => none

/-- The statement that is being finalized. -/
def ending? : Grip → Option StmtHandle
  | .finalizing h _ | .draining h | .late h => some h
  | _ => none

def pending? : Grip → Option StmtHandle
  | .pending h => some h
  | _ => none

/-- Whether it is a disposal's. -/
def disposal : Grip → Bool
  | .draining _ | .closing => true
  | _ => false

end Grip

/-- The statements of users and releases. -/
def owned (users : List Entry) (grips : List Grip) : List Entry :=
  users ++ grips.filterMap Grip.entryOf

abbrev ending (grips : List Grip) : List StmtHandle := grips.filterMap Grip.ending?

abbrev pending (grips : List Grip) : List StmtHandle := grips.filterMap Grip.pending?

/-! ## The books -/

/-- How the statements are accounted for. -/
structure Books (s : State) (users : List Entry) (grips : List Grip) (past : History) : Prop where
  balanced : s.disposed = false →
    s.registered.Perm ((owned users grips).map Prod.fst ++ (leaked past ++ s.cache.table.values))
  named : s.disposed = false → ∀ e ∈ owned users grips, s.statements.get? e.1 = some e.2
  shelved : s.disposed = false → ∀ e ∈ s.cache.table.entries, s.statements.get? e.2 = some e.1
  opened : s.disposed = false → s.handle = none → s.registered = []
  unretired : s.disposed = false → retired past = [] ∧ ∀ g ∈ grips, g.disposal = false
  disposed : s.disposed = true → s.handle = none
  distinct : ((owned users grips).map Prod.fst).Nodup
  lives : Lives s.registered (ending grips) (pending grips) past
  late : ∀ h, Grip.late h ∈ grips → h ∉ s.registered
  closing : Grip.closing ∈ grips → s.registered = []
  single : (grips.filter Grip.disposal).length ≤ 1

namespace Books

variable {s s' : State} {users users' : List Entry} {grips grips' : List Grip}
  {past past' : History} {h : StmtHandle} {sql : String} {g : Grip}

theorem initial : Books .initial [] [] [] := by
  constructor <;> simp [owned, State.initial, leaked, retired, Cache.empty, Registry.empty,
    Table.values, Table.keys, EmptyCollection.emptyCollection, Table.empty]
  constructor <;> simp

theorem perm (b : Books s users grips past) (hu : users.Perm users') (hg : grips.Perm grips') :
    Books s users' grips' past := by
  have ho : (owned users grips).Perm (owned users' grips') := hu.append (hg.filterMap _)
  exact {
    balanced := fun hd => (b.balanced hd).trans ((ho.map _).append_right _)
    named := fun hd e hm => b.named hd e (ho.mem_iff.2 hm)
    shelved := b.shelved
    opened := b.opened
    unretired := fun hd => ⟨(b.unretired hd).1, fun g hm => (b.unretired hd).2 g (hg.mem_iff.2 hm)⟩
    disposed := b.disposed
    distinct := (ho.map _).nodup_iff.1 b.distinct
    lives := b.lives.perm (hg.filterMap _) (hg.filterMap _)
    late := fun h hm => b.late h (hg.mem_iff.2 hm)
    closing := fun hm => b.closing (hg.mem_iff.2 hm)
    single := (hg.filter _).length_eq ▸ b.single }

/-- Only what the history says of handles matters. -/
theorem congr_past (b : Books s users grips past) (hl : live past' = live past)
    (hs : spent past' = spent past) (hr : retired past' = retired past)
    (hk : leaked past' = leaked past) : Books s users grips past' :=
  { b with
    balanced := by simpa only [hk] using b.balanced
    unretired := by simpa only [hr] using b.unretired
    lives := b.lives.congr_past hl hs hr }

theorem congr_state (b : Books s users grips past) (hst : s'.statements = s.statements)
    (hc : s'.cache = s.cache) (hd : s'.disposed = s.disposed)
    (hh : s'.disposed = true → s'.handle = s.handle)
    (hn : s'.handle = none → s.handle = none) : Books s' users grips past := by
  obtain ⟨handle, disposed, owner, statements, cache⟩ := s'
  simp only at hst hc hd hh hn
  subst hst hc hd
  exact { b with
    opened := fun hd he => b.opened hd (hn he)
    disposed := fun hd => (hh hd).trans (b.disposed hd) }

/-- Of a disposed connection less is kept. -/
theorem of_disposed (hd : s.disposed = true) (hh : s.handle = none)
    (distinct : ((owned users grips).map Prod.fst).Nodup)
    (lives : Lives s.registered (ending grips) (pending grips) past)
    (late : ∀ h, Grip.late h ∈ grips → h ∉ s.registered)
    (closing : Grip.closing ∈ grips → s.registered = [])
    (single : (grips.filter Grip.disposal).length ≤ 1) : Books s users grips past where
  balanced hf := absurd hd (by simp [hf])
  named hf := absurd hd (by simp [hf])
  shelved hf := absurd hd (by simp [hf])
  opened hf := absurd hd (by simp [hf])
  unretired hf := absurd hd (by simp [hf])
  disposed _ := hh
  distinct := distinct
  lives := lives
  late := late
  closing := closing
  single := single

/-! ## What holds of an owned statement -/

theorem mem_registered (b : Books s users grips past) (hd : s.disposed = false) {e : Entry}
    (he : e ∈ owned users grips) : e.1 ∈ s.registered :=
  State.mem_registered (b.named hd e he)

/-- A statement that no disposal has dropped is registered. -/
theorem registered_of_kept (b : Books s ((h, sql) :: users) grips past)
    (ha : ¬s.abandoned h = true) : h ∈ s.registered := by
  cases hd : s.disposed with
  | false => exact b.mem_registered hd (e := (h, sql)) List.mem_cons_self
  | true =>
    rw [← s.contains_iff]
    simpa [State.abandoned, hd] using ha

/-- What is finalized is finalized by a release, a disposal or a late preparation. -/
theorem mem_ending (hm : h ∈ ending grips) :
    (∃ sql, Grip.finalizing h sql ∈ grips) ∨ Grip.draining h ∈ grips ∨ Grip.late h ∈ grips := by
  obtain ⟨g, hg, he⟩ := List.mem_filterMap.1 hm
  cases g <;> simp only [Grip.ending?, Option.some.injEq, reduceCtorEq] at he <;> subst he
  · exact .inl ⟨_, hg⟩
  · exact .inr (.inl hg)
  · exact .inr (.inr hg)

theorem spent_of_ending (b : Books s users grips past) (hg : g ∈ grips)
    (he : g.ending? = some h) : h ∈ spent past :=
  (b.lives.ending h (List.mem_filterMap.2 ⟨g, hg, he⟩)).2

/-- A registered handle that is spent is finalized by a release or by a disposal. -/
theorem ending_of_spent (b : Books s users grips past) (hr : h ∈ s.registered)
    (hs : h ∈ spent past) : (∃ sql, Grip.finalizing h sql ∈ grips) ∨ Grip.draining h ∈ grips := by
  rcases mem_ending ((b.lives.registered h hr).2 hs) with hf | hd | hl
  · exact .inl hf
  · exact .inr hd
  · exact absurd hr (b.late h hl)

/-- The statement of a user is not one that a release has. -/
theorem not_released (b : Books s ((h, sql) :: users) grips past) (hg : g ∈ grips)
    (text : String) : g.entryOf ≠ some (h, text) := by
  intro he
  have hm : (h, text) ∈ owned users grips :=
    List.mem_append_right _ (List.mem_filterMap.2 ⟨_, hg, he⟩)
  have hk : h ∈ (owned users grips).map Prod.fst := List.mem_map_of_mem (f := Prod.fst) hm
  exact (List.nodup_cons.1 b.distinct).1 hk

theorem not_finalizing (b : Books s ((h, sql) :: users) grips past) (text : String) :
    Grip.finalizing h text ∉ grips :=
  fun hf => b.not_released hf text rfl

/-- The statement of a user is spent only while a disposal finalizes it. -/
theorem draining_of_spent (b : Books s ((h, sql) :: users) grips past) (hr : h ∈ s.registered)
    (hs : h ∈ spent past) : Grip.draining h ∈ grips := by
  rcases b.ending_of_spent hr hs with ⟨text, hf⟩ | hd
  · exact absurd hf (b.not_finalizing text)
  · exact hd

/-- Until the connection is disposed no statement of a user is spent. -/
theorem not_spent (b : Books s ((h, sql) :: users) grips past) (hd : s.disposed = false) :
    h ∉ spent past := by
  intro hs
  have hr := b.mem_registered hd (e := (h, sql)) List.mem_cons_self
  have hg := (b.unretired hd).2 _ (b.draining_of_spent hr hs)
  cases hg

theorem not_cached (b : Books s ((h, sql) :: users) grips past) (hd : s.disposed = false)
    (text : String) : s.cache.get? text ≠ some h := by
  intro hg
  have hv : h ∈ s.cache.table.values :=
    List.mem_map_of_mem (f := Prod.snd) ((s.cache.table.mem_entries_iff text h).2 hg)
  have hn := (b.balanced hd).nodup_iff.1 s.statements.table.distinct
  exact (List.nodup_cons.1 hn).1 (List.mem_append_right _ (List.mem_append_right _ hv))

theorem owned_held (users : List Entry) (grips : List Grip) (h : StmtHandle) (sql : String) :
    (owned users (.held h sql :: grips)).Perm ((h, sql) :: owned users grips) :=
  List.perm_middle

/-- What a release holds is kept apart as if a user had it. -/
theorem user_of_held (b : Books s users (.held h sql :: grips) past) :
    Books s ((h, sql) :: users) grips past := by
  have ho := owned_held users grips h sql
  exact { b with
    balanced := fun hd => (b.balanced hd).trans ((ho.map _).append_right _)
    named := fun hd e he => b.named hd e (ho.mem_iff.2 he)
    unretired := fun hd => ⟨(b.unretired hd).1, fun g hg =>
      (b.unretired hd).2 g (List.mem_cons_of_mem _ hg)⟩
    distinct := (ho.map _).nodup_iff.1 b.distinct
    late := fun k hk => b.late k (List.mem_cons_of_mem _ hk)
    closing := fun hc => b.closing (List.mem_cons_of_mem _ hc) }

/-! ## Statements come -/

theorem mint (b : Books s users grips past) (db : DbHandle) (hf : h ∉ live past) :
    Books s users (.pending h :: grips) (.minted db h :: past) :=
  { b with
    unretired := fun hd => ⟨by simp [retired, (b.unretired hd).1], by
      simpa [Grip.disposal] using (b.unretired hd).2⟩
    lives := b.lives.mint db hf
    late := by simpa using b.late
    closing := by simpa using b.closing }

theorem arrive (b : Books s users (.pending h :: grips) past) : Books s users grips past :=
  { b with
    unretired := fun hd => ⟨(b.unretired hd).1, fun g hg =>
      (b.unretired hd).2 g (List.mem_cons_of_mem _ hg)⟩
    lives := b.lives.arrive
    late := fun k hk => b.late k (List.mem_cons_of_mem _ hk)
    closing := fun hc => b.closing (List.mem_cons_of_mem _ hc) }

theorem undisposed (b : Books s users grips past) (hh : s.handle.isSome) :
    s.disposed = false := by
  by_contra hd
  simp [b.disposed (by simpa using hd)] at hh

theorem register (b : Books s users (.pending h :: grips) past) (hh : s.handle.isSome)
    (sql : String) : Books (s.register h sql) ((h, sql) :: users) grips past := by
  have hd := b.undisposed hh
  have hnot : h ∉ s.registered := (b.lives.pending h List.mem_cons_self).2.2.2
  have hr : (s.register h sql).registered = s.registered ++ [h] := by
    rw [State.registered_register h sql hh, if_neg hnot]
  have hget : ∀ k text, s.statements.get? k = some text →
      (s.statements.insert h sql).get? k = some text := by
    intro k text hk
    have hne : k ≠ h := by
      intro e
      exact hnot (e ▸ State.mem_registered hk)
    rw [Registry.get?_insert, if_neg hne, hk]
  have hs : s.register h sql = { s with statements := s.statements.insert h sql } := if_pos hh
  have hdistinct : h ∉ (owned users grips).map Prod.fst := by
    intro hm
    obtain ⟨e, he, rfl⟩ := List.mem_map.1 hm
    exact hnot (b.mem_registered hd he)
  have b' := b.arrive
  rw [hs] at hr ⊢
  exact {
    balanced := fun _ => by
      rw [hr]
      exact ((b.balanced hd).append_right [h]).trans List.perm_append_comm
    named := fun _ e he => by
      rcases List.mem_cons.1 he with rfl | he
      · simp [Registry.get?_insert]
      · exact hget e.1 e.2 (b.named hd e he)
    shelved := fun _ e he => hget e.2 e.1 (b.shelved hd e he)
    opened := fun _ hn => absurd hh (by simp [show s.handle = none from hn])
    unretired := b'.unretired
    disposed := b.disposed
    distinct := List.nodup_cons.2 ⟨hdistinct, b.distinct⟩
    lives := hr ▸ b.lives.register
    late := fun k hk => by
      rw [hr]
      intro hm
      rcases List.mem_append.1 hm with hm | hm
      · exact b'.late k hk hm
      · obtain rfl := List.mem_singleton.1 hm
        exact (b.lives.pending k List.mem_cons_self).2.1 (b'.spent_of_ending hk rfl)
    closing := fun hc => by
      have := (b'.unretired hd).2 _ hc
      cases this
    single := b'.single }

theorem reuse (b : Books s users grips past) (hh : s.handle.isSome)
    (hg : s.cache.get? sql = some h) :
    Books ((s.lend sql).register h sql) ((h, sql) :: users) grips past := by
  have hd := b.undisposed hh
  have hmem : (sql, h) ∈ s.cache.table.entries := (s.cache.table.mem_entries_iff sql h).2 hg
  have hget : s.statements.get? h = some sql := b.shelved hd _ hmem
  have hlend : s.lend sql = { s with cache := s.cache.take sql } :=
    if_pos (by simp [State.isOpen, hh, hd])
  have hs : (s.lend sql).register h sql
      = { s with statements := s.statements.insert h sql, cache := s.cache.take sql } := by
    rw [hlend]
    exact if_pos hh
  have hr : ((s.lend sql).register h sql).registered = s.registered := by
    rw [State.registered_register h sql (by rw [hlend]; exact hh), hlend]
    exact if_pos (State.mem_registered hget)
  have hkeep : ∀ k, (s.statements.insert h sql).get? k = s.statements.get? k := by
    intro k
    rw [Registry.get?_insert]
    split
    · next e => rw [e, hget]
    · rfl
  have hvalues : s.cache.table.values.Perm (h :: (s.cache.take sql).table.values) :=
    (Table.entries_perm hg).map Prod.snd
  have hbal : s.registered.Perm
      (h :: ((owned users grips).map Prod.fst ++
        (leaked past ++ (s.cache.take sql).table.values))) :=
    (b.balanced hd).trans (((hvalues.append_left _).trans List.perm_middle).append_left _ |>.trans
      List.perm_middle)
  have hnodup := hbal.nodup_iff.1 s.statements.table.distinct
  rw [hs] at hr ⊢
  exact {
    balanced := fun _ => hr ▸ hbal
    named := fun _ e he => by
      rcases List.mem_cons.1 he with rfl | he
      · exact (hkeep h).trans hget
      · exact (hkeep e.1).trans (b.named hd e he)
    shelved := fun _ e he => (hkeep e.2).trans (b.shelved hd e (List.mem_of_mem_filter he))
    opened := fun _ hn => absurd hh (by simp [show s.handle = none from hn])
    unretired := b.unretired
    disposed := b.disposed
    distinct := hnodup.sublist ((List.sublist_append_left _ _).cons_cons h)
    lives := hr ▸ b.lives
    late := hr ▸ b.late
    closing := hr ▸ b.closing
    single := b.single }

/-! ## Statements are released -/

theorem take (b : Books s ((h, sql) :: users) grips past) :
    Books s users (.held h sql :: grips) past := by
  have ho := owned_held users grips h sql
  exact { b with
    balanced := fun hd => (b.balanced hd).trans ((ho.map _).append_right _).symm
    named := fun hd e he => b.named hd e (ho.mem_iff.1 he)
    unretired := fun hd => ⟨(b.unretired hd).1, by
      simpa [Grip.disposal] using (b.unretired hd).2⟩
    distinct := (ho.map _).nodup_iff.2 b.distinct
    late := by simpa using b.late
    closing := by simpa using b.closing }

/-- A release on a thread that is kept out leaks the statement. -/
theorem leak (b : Books s ((h, sql) :: users) grips past) :
    Books s users grips (.leaked h :: past) :=
  { b with
    balanced := fun hd => (b.balanced hd).trans List.perm_middle.symm
    named := fun hd e he => b.named hd e (List.mem_cons_of_mem _ he)
    distinct := (List.nodup_cons.1 b.distinct).2
    lives := b.lives.congr_past rfl rfl rfl }

/-- Once the connection is disposed a release may leave the statement alone. -/
theorem leave (b : Books s ((h, sql) :: users) grips past) (hd : s.disposed = true) :
    Books s users grips past :=
  { b with
    balanced := fun hf => absurd hd (by simp [hf])
    named := fun hf => absurd hd (by simp [hf])
    distinct := (List.nodup_cons.1 b.distinct).2 }

theorem shelve (b : Books s ((h, sql) :: users) grips past) (hopen : s.isOpen = true)
    (hg : s.cache.get? sql = none) : Books (s.shelve h sql) users grips past := by
  have hd : s.disposed = false := by simpa [State.isOpen] using (Bool.and_eq_true_iff.1 hopen).2
  have hs : s.shelve h sql = { s with cache := ⟨s.cache.table.insert sql h⟩ } := by
    unfold State.shelve Cache.offer
    rw [if_pos hopen, hg]
  have hkeys : sql ∉ s.cache.table.keys := by
    rw [← s.cache.table.contains_iff, s.cache.table.contains_eq]
    simp [show s.cache.table.get? sql = none from hg]
  have hperm : (s.cache.table.insert sql h).entries.Perm ((sql, h) :: s.cache.table.entries) :=
    Table.erase_of_not_mem hkeys ▸ s.cache.table.entries_insert_perm sql h
  have hvalues : (s.cache.table.insert sql h).values.Perm (h :: s.cache.table.values) :=
    hperm.map Prod.snd
  rw [hs]
  exact { b with
    balanced := fun _ => (b.balanced hd).trans <|
      (((hvalues.append_left _).trans List.perm_middle).append_left _ |>.trans
        List.perm_middle).symm
    named := fun hd e he => b.named hd e (List.mem_cons_of_mem _ he)
    shelved := fun _ e he => by
      rcases List.mem_cons.1 (hperm.mem_iff.1 he) with rfl | he
      · exact b.named hd (h, sql) List.mem_cons_self
      · exact b.shelved hd e he
    distinct := (List.nodup_cons.1 b.distinct).2 }

/-! ## Statements are finalized -/

theorem start_finalizing (b : Books s ((h, sql) :: users) grips past) (hr : h ∈ s.registered)
    (hs : h ∉ spent past) (t : ThreadId) :
    Books s users (.finalizing h sql :: grips) (.called t (.finalize h) :: past) := by
  have ho : (owned users (.finalizing h sql :: grips)).Perm ((h, sql) :: owned users grips) :=
    List.perm_middle
  exact { b with
    balanced := fun hd => (b.balanced hd).trans ((ho.map _).append_right _).symm
    named := fun hd e he => b.named hd e (ho.mem_iff.1 he)
    unretired := fun hd => ⟨(b.unretired hd).1, by simpa [Grip.disposal] using (b.unretired hd).2⟩
    distinct := (ho.map _).nodup_iff.2 b.distinct
    lives := b.lives.begin (b.lives.registered h hr).1 hs
      (fun hp => (b.lives.pending h hp).2.2.2 hr) t
    late := by simpa using b.late
    closing := by simpa using b.closing }

theorem start_draining (b : Books s users grips past) (hd : s.disposed = true)
    (hg : ∀ g ∈ grips, g.disposal = false) (hr : h ∈ s.registered) (hs : h ∉ spent past)
    (t : ThreadId) :
    Books s users (.draining h :: grips) (.called t (.finalize h) :: past) :=
  { b with
    unretired := fun hf => absurd hd (by simp [hf])
    lives := b.lives.begin (b.lives.registered h hr).1 hs
      (fun hp => (b.lives.pending h hp).2.2.2 hr) t
    late := by simpa using b.late
    closing := by simpa using b.closing
    single := by
      rw [List.filter_cons_of_pos rfl, List.filter_eq_nil_iff.2 (by simpa using hg)]
      exact Nat.le_refl 1 }

theorem start_late (b : Books s users (.pending h :: grips) past) (t : ThreadId) :
    Books s users (.late h :: grips) (.called t (.finalize h) :: past) := by
  have hp := b.lives.pending h List.mem_cons_self
  have b' := b.arrive
  exact { b' with
    unretired := fun hd => ⟨(b'.unretired hd).1, by
      simpa [Grip.disposal] using (b'.unretired hd).2⟩
    lives := b'.lives.begin hp.1 hp.2.1 (List.nodup_cons.1 b.lives.pendingDistinct).1 t
    late := fun k hk => by
      rcases List.mem_cons.1 hk with hk | hk
      · obtain rfl : k = h := by simpa using hk
        exact hp.2.2.2
      · exact b'.late k hk
    closing := by simpa using b'.closing }

theorem finish_finalizing (b : Books s users (.finalizing h sql :: grips) past) (t : ThreadId) :
    Books (s.forget h sql) users grips (.returned t (.finalize h) :: past) := by
  have ho : (owned users (.finalizing h sql :: grips)).Perm ((h, sql) :: owned users grips) :=
    List.perm_middle
  obtain ⟨hnot, hdistinct⟩ := List.nodup_cons.1 ((ho.map Prod.fst).nodup_iff.1 b.distinct)
  have hlives := b.lives.finish t
  rw [← State.registered_forget s h sql] at hlives
  have hlate : ∀ k, Grip.late k ∈ grips → k ∉ (s.forget h sql).registered := by
    intro k hk hm
    exact b.late k (List.mem_cons_of_mem _ hk) (s.forget_subset h sql hm)
  have hclosing : Grip.closing ∈ grips → (s.forget h sql).registered = [] := by
    intro hc
    exact List.subset_nil.1 (b.closing (List.mem_cons_of_mem _ hc) ▸ s.forget_subset h sql)
  cases hd : s.disposed with
  | true =>
    exact of_disposed (by simp [hd]) (by simp [b.disposed hd]) hdistinct hlives hlate hclosing
      b.single
  | false =>
    have hbal := (b.balanced hd).trans ((ho.map Prod.fst).append_right _)
    have hrest := (List.nodup_cons.1 (hbal.nodup_iff.1 s.statements.table.distinct)).1
    have hvalue : ∀ e ∈ s.cache.table.entries, e.2 ≠ h := by
      intro e he e'
      have hm : h ∈ s.cache.table.values := e' ▸ List.mem_map_of_mem (f := Prod.snd) he
      exact hrest (List.mem_append_right _ (List.mem_append_right _ hm))
    have hcache : s.cache.get? sql ≠ some h := by
      intro hg
      exact hvalue _ ((s.cache.table.mem_entries_iff sql h).2 hg) rfl
    have hkeep : ∀ k text, k ≠ h → s.statements.get? k = some text →
        (s.statements.remove h).get? k = some text := by
      intro k text hne hg
      rw [Registry.get?_remove, if_neg hne, hg]
    have hr := State.registered_forget s h sql
    rw [State.forget_eq hd hcache] at hr hlives hlate hclosing ⊢
    exact {
      balanced := fun _ => hr ▸ perm_of_filter_ne hbal s.statements.table.distinct
      named := fun _ e he => by
        have hm : e.1 ∈ (owned users grips).map Prod.fst := List.mem_map_of_mem (f := Prod.fst) he
        exact hkeep e.1 e.2 (fun e' => hnot (e' ▸ hm))
          (b.named hd e (ho.mem_iff.2 (List.mem_cons_of_mem _ he)))
      shelved := fun _ e he => hkeep e.2 e.1 (hvalue e he) (b.shelved hd e he)
      opened := fun _ hn => by
        rw [hr, b.opened hd hn]
        rfl
      unretired := fun _ => ⟨(b.unretired hd).1, fun g hg =>
        (b.unretired hd).2 g (List.mem_cons_of_mem _ hg)⟩
      disposed := b.disposed
      distinct := hdistinct
      lives := hlives
      late := hlate
      closing := hclosing
      single := b.single }

theorem no_disposal (b : Books s users (g :: grips) past) (hg : g.disposal = true) :
    s.disposed = true ∧ ∀ g' ∈ grips, g'.disposal = false := by
  constructor
  · by_contra hd
    have := (b.unretired (by simpa using hd)).2 g List.mem_cons_self
    simp [hg] at this
  · have hs := b.single
    rw [List.filter_cons_of_pos hg, List.length_cons] at hs
    have hnil : grips.filter Grip.disposal = [] := List.eq_nil_of_length_eq_zero (by omega)
    simpa using List.filter_eq_nil_iff.1 hnil

theorem finish_draining (b : Books s users (.draining h :: grips) past) (sql : String)
    (t : ThreadId) : Books (s.forget h sql) users grips (.returned t (.finalize h) :: past) := by
  obtain ⟨hd, hg⟩ := b.no_disposal rfl
  have hlives := b.lives.finish t
  rw [← State.registered_forget s h sql] at hlives
  refine of_disposed (by simp [hd]) (by simp [b.disposed hd]) b.distinct hlives
    (fun k hk hm => ?_) (fun hc => ?_) ?_
  · exact b.late k (List.mem_cons_of_mem _ hk) (s.forget_subset h sql hm)
  · cases hg _ hc
  · rw [List.filter_eq_nil_iff.2 (by simpa using hg)]
    exact Nat.zero_le 1

theorem finish_late (b : Books s users (.late h :: grips) past) (t : ThreadId) :
    Books s users grips (.returned t (.finalize h) :: past) := by
  have hnot := b.late h List.mem_cons_self
  have hself : s.registered.filter (· ≠ h) = s.registered := List.filter_eq_self.2 fun k hk => by
    simpa using fun e : k = h => hnot (e ▸ hk)
  have hlives := b.lives.finish t
  rw [hself] at hlives
  exact { b with
    unretired := fun hd => ⟨(b.unretired hd).1, fun g hg =>
      (b.unretired hd).2 g (List.mem_cons_of_mem _ hg)⟩
    lives := hlives
    late := fun k hk => b.late k (List.mem_cons_of_mem _ hk)
    closing := fun hc => b.closing (List.mem_cons_of_mem _ hc) }

/-! ## A disposal -/

theorem retire (b : Books s users grips past) (hd : s.disposed = false) (t : ThreadId) :
    Books s.retire users grips (.retired t s.registered :: past) := by
  have hs : s.retire = { s with disposed := true, handle := none, owner := none } :=
    if_neg (by simp [hd])
  rw [hs]
  exact of_disposed rfl rfl b.distinct (b.lives.retire t) b.late b.closing b.single

theorem sweep (b : Books s users grips past) (hd : s.disposed = true)
    (hg : ∀ g ∈ grips, g.disposal = false) :
    Books s.forgetAll users (.closing :: grips) past := by
  refine of_disposed hd (b.disposed hd) b.distinct (b.lives.subset (List.nil_subset _)) ?_
    (fun _ => rfl) ?_
  · intro k _ hm
    cases hm
  · rw [List.filter_cons_of_pos rfl, List.filter_eq_nil_iff.2 (by simpa using hg)]
    exact Nat.le_refl 1

theorem dispose (b : Books s users grips past) (hd : s.disposed = true) (hr : s.registered = []) :
    Books s users grips (.disposed :: past) := by
  have hl := b.lives
  rw [hr] at hl
  exact of_disposed hd (b.disposed hd) b.distinct (hr ▸ hl.dispose) b.late (fun _ => hr) b.single

theorem closed (b : Books s users (.closing :: grips) past) :
    Books s users grips (.disposed :: past) := by
  obtain ⟨hd, hg⟩ := b.no_disposal rfl
  have hr := b.closing List.mem_cons_self
  refine dispose (of_disposed hd (b.disposed hd) b.distinct b.lives
    (fun k hk => b.late k (List.mem_cons_of_mem _ hk)) (fun _ => hr) ?_) hd hr
  rw [List.filter_eq_nil_iff.2 (by simpa using hg)]
  exact Nat.zero_le 1

end Books

end Interleaving

end ConfinedDb
