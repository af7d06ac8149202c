import ConfinedDb.Proofs.Native.Narrowing
import ConfinedDb.Proofs.Options.RoundTrip
/-!
# Reading what was bound

A value is bound by one call (`binding`), which passes its storage class and its payload: a number,
or a pointer and a byte count. A column is read by asking for the class first and then for a payload
of that class (`payload`). When the library tells of this column what was passed to it (`Tells`),
the value comes back, whatever it would tell of other columns.

* **`bound_value_returns`**: a column is read by calls about that column only; every value whose
  data has a length that fits comes back as it was bound, whatever the pointers of empty data are;
  and a text column is always read as a text, with the bytes of the column if these are UTF-8.
-/
namespace ConfinedDb.Native

/-! ## Pointers and counts -/

/-- The pointer leads to these bytes, and there may be more behind them. Where no bytes are to be
read it may be any pointer, a null pointer too. -/
def LeadsTo (memory : Option Bytes) (bytes : Bytes) : Prop :=
  bytes = [] ∨ ∃ rest, memory = some (bytes ++ rest)

theorem sizeOf_ofNat {n : Nat} (fits : Fits n) : sizeOf (.ofNat n) = n := by
  unfold Fits at fits
  rw [sizeOf, (toInt_ofNat_eq_iff n).2 fits]
  omega

/-- The bytes that a pointer leads to are read by their count. -/
theorem content_of_leadsTo {memory : Option Bytes} {bytes : Bytes} {count : Int32}
    (leads : LeadsTo memory bytes) (all : sizeOf count = bytes.length) :
    content memory count = bytes := by
  rw [content, all]
  rcases leads with rfl | ⟨rest, rfl⟩
  · exact List.take_zero
  · exact List.take_left

/-! ## What is passed and what is told -/

def binding (stmt : StmtHandle) (index : Int32) : Value → LibraryCall
  | .null => .bindNull stmt index
  | .integer v => .bindInteger stmt index v
  | .real v => .bindReal stmt index v
  | .text v => .bindText stmt index (Utf8.encode v) (.ofNat (Utf8.encode v).length)
  | .blob v => .bindBlob stmt index v (.ofNat v.length)

theorem bind_binding (L : Library) (stmt : StmtHandle) (index : Nat) (value : Value) (l : L.State) :
    ∃ x, (L.run (bind stmt index value) l).exchanges = [x] ∧
      x.call = binding stmt (.ofNat index) value := by
  cases value <;> exact ⟨_, rfl, rfl⟩

def storageClass? : LibraryCall → Option Int32
  | .bindNull .. => some typeNull
  | .bindInteger .. => some typeInteger
  | .bindReal .. => some typeReal
  | .bindText .. => some typeText
  | .bindBlob .. => some typeBlob
  | _ => none

/-- What the library answers about a column is what a call has passed to be bound. -/
def Tells : (bound : LibraryCall) → Exchange → Prop
  | bound, ⟨.columnType .., type⟩ => storageClass? bound = some type
  | .bindInteger _ _ v, ⟨.columnInteger .., told⟩ => told = v
  | .bindReal _ _ v, ⟨.columnReal .., told⟩ => told = v
  | .bindText _ _ bytes _, ⟨.columnText .., memory⟩ => LeadsTo memory bytes
  | .bindBlob _ _ bytes _, ⟨.columnBlob .., memory⟩ => LeadsTo memory bytes
  | .bindText _ _ _ length, ⟨.columnBytes .., count⟩ => count = length
  | .bindBlob _ _ _ length, ⟨.columnBytes .., count⟩ => count = length
  | _, _ => True

/-- Whenever the library was asked about the column, it has told what the call has passed. -/
def TellsOf (bound : LibraryCall) (column : StmtHandle × Int32) (log : List Exchange) : Prop :=
  ∀ x ∈ log, x.call.column? = some column → Tells bound x

/-! ## Reading a column -/

/-- What is left of reading a column once its storage class is known. -/
def payload (stmt : StmtHandle) (index type : Int32) : Routine (Except Error Value) := do
  if type = typeNull then return .ok .null
  else if type = typeInteger then return .ok (.integer (← Routine.call (.columnInteger stmt index)))
  else if type = typeReal then return .ok (.real (← Routine.call (.columnReal stmt index)))
  else if type = typeBlob then
    let memory ← Routine.call (.columnBlob stmt index)
    return .ok (.blob (content memory (← Routine.call (.columnBytes stmt index))))
  else if type = typeText then
    let memory ← Routine.call (.columnText stmt index)
    return .ok (.text (Utf8.lossy (content memory (← Routine.call (.columnBytes stmt index)))))
  else return .error (.ofText s!"Unexpected column type {type.toInt}")

variable (L : Library) {stmt stmt' : StmtHandle} {index index' : Int32} {bound : LibraryCall}

/-- The class comes first, and what is read then depends on it. -/
theorem readColumn_told {type : Int32} (bindsClass : storageClass? bound = some type) {l : L.State}
    (told : ∀ x ∈ (L.run (readColumn stmt index) l).exchanges, Tells bound x) :
    ∃ l', (L.run (readColumn stmt index) l).result = (L.run (payload stmt index type) l').result ∧
      ∀ x ∈ (L.run (payload stmt index type) l').exchanges, Tells bound x := by
  have hrun : L.run (readColumn stmt index) l =
      let (type, l') := L.answer l (.columnType stmt index)
      let rest := L.run (payload stmt index type) l'
      ⟨rest.result, ⟨.columnType stmt index, type⟩ :: rest.exchanges, rest.library⟩ := rfl
  rw [hrun] at told ⊢
  obtain ⟨hclass, told⟩ := List.forall_mem_cons.1 told
  have htype : (L.answer l (.columnType stmt index)).1 = type :=
    Option.some.inj (Eq.trans (Eq.symm hclass) bindsClass)
  rw [← htype]
  exact ⟨_, rfl, told⟩

/-- A column that is told to be a text is read as one, by its pointer and its count. -/
theorem readColumn_text {bytes : Bytes} {length : Int32} {l : L.State}
    (told : ∀ x ∈ (L.run (readColumn stmt index) l).exchanges,
      Tells (.bindText stmt' index' bytes length) x) :
    ∃ memory, LeadsTo memory bytes ∧
      (L.run (readColumn stmt index) l).result
        = .ok (.text (Utf8.lossy (content memory length))) := by
  obtain ⟨l', hresult, told⟩ := readColumn_told L rfl told
  obtain ⟨hmemory, told⟩ := List.forall_mem_cons.1 told
  have hcount := told _ List.mem_cons_self
  refine ⟨_, hmemory, hresult.trans ?_⟩
  rw [← show _ = length from hcount]
  rfl

/-- **A column is read as the value that was passed to be bound.** -/
theorem readColumn_value {value : Value} (fits : ∀ bytes ∈ bytesOf value, Fits bytes.length)
    {l : L.State}
    (told : ∀ x ∈ (L.run (readColumn stmt index) l).exchanges,
      Tells (binding stmt' index' value) x) :
    (L.run (readColumn stmt index) l).result = .ok value := by
  cases value with
  | null =>
    obtain ⟨l', hresult, -⟩ := readColumn_told L rfl told
    exact hresult
  | integer v =>
    obtain ⟨l', hresult, told⟩ := readColumn_told L rfl told
    have hv : (L.answer l' (.columnInteger stmt index)).1 = v := told _ List.mem_cons_self
    exact hresult.trans (congrArg (Except.ok <| Value.integer ·) hv)
  | real v =>
    obtain ⟨l', hresult, told⟩ := readColumn_told L rfl told
    have hv : (L.answer l' (.columnReal stmt index)).1 = v := told _ List.mem_cons_self
    exact hresult.trans (congrArg (Except.ok <| Value.real ·) hv)
  | text v =>
    obtain ⟨memory, leads, hresult⟩ := readColumn_text L told
    rw [hresult, content_of_leadsTo leads (sizeOf_ofNat (fits _ rfl)), Utf8.lossy_encode]
  | blob v =>
    obtain ⟨l', hresult, told⟩ := readColumn_told L rfl told
    obtain ⟨leads, told⟩ := List.forall_mem_cons.1 told
    have hcount := told _ List.mem_cons_self
    have hv := content_of_leadsTo leads (sizeOf_ofNat (fits _ rfl))
    rw [← show _ = Int32.ofNat v.length from hcount] at hv
    exact hresult.trans (congrArg (Except.ok <| Value.blob ·) hv)

/-- A column that the statement has is read, after the columns were counted. -/
theorem columnValue_reads {index : Nat} {l : L.State} (inside : index < sizeOf (counted L stmt l)) :
    ∃ l', (L.run (columnValue stmt index) l).result
        = (L.run (readColumn stmt (.ofNat index)) l').result ∧
      (L.run (columnValue stmt index) l).exchanges = ⟨.columnCount stmt, counted L stmt l⟩ ::
        (L.run (readColumn stmt (.ofNat index)) l').exchanges := by
  refine ⟨(L.answer l (.columnCount stmt)).2, ?_⟩
  simp only [run_columnValue, if_pos inside, and_self]

theorem TellsOf.reading {first : Exchange} {l : L.State}
    (told : TellsOf bound (stmt, index) (first :: (L.run (readColumn stmt index) l).exchanges)) :
    ∀ x ∈ (L.run (readColumn stmt index) l).exchanges, Tells bound x :=
  fun x hx => told x (List.mem_cons_of_mem _ hx) (L.readColumn_each stmt index l x hx)

/-! ## All values -/

/-- **What was bound is what is read.** Reading a column that the statement has asks for the number
of its columns and then about this column only. If the library tells of it what was passed for a
value whose data has a length that fits, then the reading returns this value. A column that is told
to be a text is always read as a text, and as the bytes that are told if these are UTF-8. -/
theorem bound_value_returns (stmt : StmtHandle) (index : Nat) (l : L.State)
    (inside : index < sizeOf (counted L stmt l)) :
    let (result, _, log) := L.engine.answer (l, []) (.columnValue stmt index)
    (∃ reading, log = ⟨.columnCount stmt, counted L stmt l⟩ :: reading ∧
      ∀ x ∈ reading, x.call.column? = some (stmt, .ofNat index)) ∧
    (∀ value stmt' index' l',
      let (_, _, bound) := L.engine.answer (l', []) (.bind stmt' index' value)
      (∀ bytes ∈ bytesOf value, Fits bytes.length) →
        (∀ b ∈ bound, TellsOf b.call (stmt, .ofNat index) log) → result = .ok value) ∧
    ∀ bytes count stmt' index', sizeOf count = bytes.length →
      TellsOf (.bindText stmt' index' bytes count) (stmt, .ofNat index) log →
        ∃ s, result = .ok (.text s) ∧ s = Utf8.lossy bytes ∧
          (Utf8.Valid bytes → Utf8.encode s = bytes) := by
  simp only [L.engine_answer, List.nil_append, routine]
  obtain ⟨lRead, hresult, hlog⟩ := columnValue_reads L inside
  rw [hresult, hlog]
  refine ⟨⟨_, rfl, L.readColumn_each stmt (.ofNat index) lRead⟩,
    fun value stmt' index' l' fits told => ?_, fun bytes count stmt' index' all told => ?_⟩
  · obtain ⟨b, hbound, hb⟩ := bind_binding L stmt' index' value l'
    rw [hbound, List.forall_mem_singleton, hb] at told
    exact readColumn_value L fits (told.reading L)
  · obtain ⟨memory, leads, hresult⟩ := readColumn_text L (told.reading L)
    rw [content_of_leadsTo leads all] at hresult
    refine ⟨_, hresult, rfl, ?_⟩
    rintro ⟨s, hdecode⟩
    exact Utf8.encode_lossy_of_decode hdecode

/-- A library with a text that holds a NUL, an empty blob without a pointer, and a text that is not
UTF-8. -/
def stored : ScriptedLibrary :=
  { ScriptedLibrary.initial with
    row := [⟨typeText, 0, ⟨0⟩, [0x61, 0x00, 0x62], false⟩, ⟨typeBlob, 0, ⟨0⟩, [], true⟩,
      ⟨typeText, 0, ⟨0⟩, [0x61, 0xFF], false⟩] }

/-- The text comes back with its NUL, the blob as a blob, and what is not UTF-8 as a text. -/
theorem stored_returns :
    let stmt : StmtHandle := ⟨24, by decide⟩
    let read := fun index => (scripted.engine.answer (stored, []) (.columnValue stmt index)).1
    read 0 = .ok (.text "a\x00b") ∧ read 1 = .ok (.blob []) ∧ read 2 = .ok (.text "a\uFFFD") := by
  intro stmt read
  obtain ⟨-, hvalue, -⟩ := bound_value_returns scripted stmt 0 stored (by decide)
  obtain ⟨-, hblob, -⟩ := bound_value_returns scripted stmt 1 stored (by decide)
  obtain ⟨-, -, hlossy⟩ := bound_value_returns scripted stmt 2 stored (by decide)
  refine ⟨hvalue (.text "a\x00b") stmt 1 stored (by decide) ?_,
    hblob (.blob []) stmt 1 stored (by decide) ?_, ?_⟩
  · refine List.forall_mem_singleton.2 (List.forall_mem_cons.2 ⟨fun _ => trivial, ?_⟩)
    refine List.forall_mem_cons.2 ⟨fun _ => rfl, List.forall_mem_cons.2 ⟨fun _ => ?_, ?_⟩⟩
    · exact .inr ⟨[], by decide⟩
    · exact List.forall_mem_singleton.2 fun _ => rfl
  · refine List.forall_mem_singleton.2 (List.forall_mem_cons.2 ⟨fun _ => trivial, ?_⟩)
    refine List.forall_mem_cons.2 ⟨fun _ => rfl, List.forall_mem_cons.2 ⟨fun _ => .inl rfl, ?_⟩⟩
    exact List.forall_mem_singleton.2 fun _ => rfl
  · have told : TellsOf (.bindText stmt 1 [0x61, 0xFF] 2) (stmt, .ofNat 2)
        (scripted.engine.answer (stored, []) (.columnValue stmt 2)).2.2 := by
      refine List.forall_mem_cons.2 ⟨fun _ => trivial, List.forall_mem_cons.2 ⟨fun _ => rfl, ?_⟩⟩
      refine List.forall_mem_cons.2 ⟨fun _ => .inr ⟨[], rfl⟩, ?_⟩
      exact List.forall_mem_singleton.2 fun _ => rfl
    obtain ⟨s, hs, rfl, -⟩ := hlossy [0x61, 0xFF] 2 stmt 1 (by decide) told
    exact hs.trans (by decide +kernel)

end ConfinedDb.Native
