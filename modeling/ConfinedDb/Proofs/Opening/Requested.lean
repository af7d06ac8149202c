import ConfinedDb.Proofs.Confinement.Alien
import ConfinedDb.Proofs.Opening.Lossy
/-!
# What the engine is asked to open

Whether a database is in memory shows in three places: the file of the connection, the mode that is
asked for, and the location that the engine is told. They agree: without a file the location names
memory, and a file is resolved against an absolute directory, so its location starts with a slash
(`Path.toText_head`) or is empty; a database in memory is opened for writing with creation or not at
all (**`asked_open`**, **`unfit_open`**).
-/
namespace ConfinedDb

/-! ## Locations -/

namespace Path

def Absolute (p : Path) : Prop := p.bytes.head? = some slash

theorem head?_push {base : Bytes} (h : base.head? = some slash) (component : Bytes) :
    (push base component).head? = some slash := by
  obtain ⟨rest, rfl⟩ := List.head?_eq_some_iff.1 h
  unfold push
  split <;> rfl

theorem head?_foldl_push (components : List Bytes) {base : Bytes}
    (h : base.head? = some slash) : (components.foldl push base).head? = some slash := by
  induction components generalizing base with
  | nil => exact h
  | cons component components ih => exact ih (head?_push h component)

theorem head?_anchor (p : Path) {directory : Path} (h : directory.Absolute) :
    (p.anchor directory).head? = some slash := by
  unfold anchor
  split <;> first | rfl | exact h

/-- What a path is resolved to against an absolute directory is absolute. -/
theorem absolute_of_absolute? {p directory q : Path} (h : directory.Absolute)
    (hq : p.absolute? directory = some q) : q.Absolute := by
  unfold absolute? at hq
  split at hq
  · cases hq
  · cases hq
    have hbody := head?_foldl_push p.components (head?_anchor p h)
    show List.head? (if _ then _ else _) = some slash
    split
    · exact head?_push hbody []
    · exact hbody

theorem absolute?_eq_none {p directory : Path} : p.absolute? directory = none ↔ p.bytes = [] := by
  unfold absolute?
  split <;> simp [*]

theorem toText_head {p : Path} (h : p.Absolute) : p.toText.toList.head? = some '/' := by
  obtain ⟨rest, hrest⟩ := List.head?_eq_some_iff.1 h
  have hchars : p.toText.toList = Utf8.chars (slash :: rest) := by rw [toText, hrest, Utf8.chars]
  rw [hchars, Utf8.chars_slash, List.head?_cons]

end Path

theorem head?_memoryLocation : memoryLocation.toList.head? = some ':' := by decide

namespace Connection

/-- The location of a file names no database in memory, whatever the file is called. -/
theorem location_ne_memoryLocation {c : Connection} {file : Path} (hf : c.file = some file)
    (hd : c.directory.Absolute) : c.location ≠ memoryLocation := by
  intro h
  have hhead := head?_memoryLocation
  rw [← h] at hhead
  simp only [location, hf] at hhead
  cases ha : file.absolute? c.directory with
  | none =>
    rw [ha, Option.getD_none, Path.toText, Path.absolute?_eq_none.1 ha, Utf8.lossy,
      Utf8.pieces] at hhead
    exact absurd hhead (by decide)
  | some q =>
    rw [ha, Option.getD_some, Path.toText_head (Path.absolute_of_absolute? hd ha)] at hhead
    exact absurd hhead (by decide)

end Connection

namespace Interleaving

/-! ## Opens -/

variable {c : Connection} {t : ThreadId} {s : State}

theorem unfit_start {mode : OpenMode} (h : (Task.open mode).unfit c = true) :
    ∃ text, phaseStart c t s (.open mode)
      = finish ⟨.error (Error.ofFault (.misuse text)), none⟩ s := by
  cases mode with
  | readOnly => exact ⟨_, if_pos h⟩
  | readWrite => exact ⟨_, if_pos h⟩
  | readWriteCreate => cases h

theorem fit_start {mode : OpenMode} (h : (Task.open mode).unfit c = false) :
    phaseStart c t s (.open mode) = openChunk c t mode.flags s := by
  cases mode with
  | readOnly => exact if_neg (Bool.eq_false_iff.1 h)
  | readWrite => exact if_neg (Bool.eq_false_iff.1 h)
  | readWriteCreate => rfl

theorem openChunk_next {flags : OpenFlags} {q : Phase}
    (hq : (openChunk c t flags s).next = .inl q) : q = .opening flags s.owner.isNone := by
  unfold openChunk at hq
  split at hq
  · cases hq
  · split at hq
    · cases hq
    · split at hq <;> cases hq
      rfl

variable {E : Engine} {w : World (phases c) E} {l : Label E}

/-- **A call that opens a database belongs to the start of an open in a mode that the database has,
and it is for the location of the connection and with the flags of the mode.** -/
theorem asked_open {task : Task} {location : String} {flags : OpenFlags}
    (h : w.Calls l t task (.open location flags)) :
    (∃ a, l = .start t a) ∧ ∃ mode, task = .open mode ∧ task.unfit c = false ∧
      location = c.location ∧ flags = mode.flags := by
  have hphase : ∀ q : Phase, q.call c = .open location flags →
      ∃ claimed, q = .opening flags claimed ∧ location = c.location := by
    intro q hq
    cases q <;> simp only [Phase.call, reduceCtorEq, EngineCall.open.injEq] at hq
    obtain ⟨rfl, rfl⟩ := hq
    exact ⟨_, rfl, rfl⟩
  cases l with
  | start t' a =>
    obtain ⟨rfl, -, q, hn, hq⟩ := h
    obtain ⟨claimed, rfl, rfl⟩ := hphase q hq
    have hn : (phaseStart c t' w.state task).next = .inl (.opening flags claimed) := hn
    obtain ⟨mode, rfl⟩ := open_of_kind (start_kind hn).symm
    refine ⟨⟨a, rfl⟩, mode, rfl, ?_⟩
    cases hunfit : (Task.open mode).unfit c with
    | true =>
      obtain ⟨text, hstart⟩ := unfit_start (t := t') (s := w.state) hunfit
      cases (congrArg Chunk.next hstart).symm.trans hn
    | false =>
      rw [fit_start hunfit] at hn
      cases openChunk_next hn
      exact ⟨rfl, rfl, rfl⟩
  | resume i =>
    obtain ⟨p, answer, -, q, hn, hq⟩ := h
    obtain ⟨claimed, rfl, -⟩ := hphase q hq
    cases resume_begins (q := .opening flags claimed) hn
  | act i => exact h.elim
  | drift e => exact h.elim

/-- **An open in a mode that the database does not have ends where it begins, and the world is the
same as before.** -/
theorem unfit_open {mode : OpenMode} (h : (Task.open mode).unfit c = true) :
    w.start t (.open mode) = w ∧
      ∃ text, w.Ends (.start t (.open mode)) t (.open mode)
        ⟨.error (Error.ofFault (.misuse text)), none⟩ := by
  obtain ⟨text, hstart⟩ := unfit_start (t := t) (s := w.state) h
  refine ⟨?_, text, rfl, rfl, congrArg Chunk.next hstart⟩
  show w.proceed t (.open mode) _ (phaseStart c t w.state (.open mode)) = w
  rw [hstart]
  exact (w.proceed_end t (.open mode) _ rfl).trans rfl

/-- **An open in any other mode calls the engine, if the connection is neither open nor disposed and
does not keep the thread out.** -/
theorem fit_open {mode : OpenMode} (h : (Task.open mode).unfit c = false)
    (undisposed : w.state.disposed = false) (closed : w.state.handle = none)
    (admitted : bars w.state t = false) :
    w.Calls (.start t (.open mode)) t (.open mode) (.open c.location mode.flags) := by
  have hpermit : permit c t w.state = .ok () := permit_eq_ok_iff.2 admitted
  refine ⟨rfl, rfl, .opening mode.flags w.state.owner.isNone, ?_, rfl⟩
  show (phaseStart c t w.state (.open mode)).next = .inl (Phase.opening mode.flags _)
  rw [fit_start h]
  simp [openChunk, undisposed, hpermit, closed, pause]

end Interleaving

end ConfinedDb
