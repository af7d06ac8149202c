import ConfinedDb.Proofs.Native.Pointers
/-!
# Sizes at the native boundary

The library takes positions and lengths as C integers of 32 bits. A number from zero on that is less
than `2 ^ 31` goes over as it is (`Fits`), and no other does: it is cut to its residue, which may be
negative (`toInt_ofNat_eq_iff`, `ofNat_eq_iff`).

Whether the numbers fit is nowhere asked when a parameter is bound or a statement prepared, so a
primitive passes on what it was given exactly if they do, or if it does not get to the library at
all (`bind_passedOn_iff`, `prepare_passedOn_iff`). A column is asked for only below the number of
columns, and that is a check also of this: the wrong one could only be read from a library that
counts a negative number of columns (`columnValue_named_iff`). Together this is
**`narrowed_exactly`**; `farParameter_bound` is a parameter that is mistaken for another one.
-/
namespace ConfinedDb.Native

/-! ## C integers -/

/-- The number is one of the C integers. -/
def Fits (n : Nat) : Prop := n < 2147483648

instance (n : Nat) : Decidable (Fits n) := inferInstanceAs (Decidable (_ < _))

theorem toInt_ofNat_eq_iff (n : Nat) : (Int32.ofNat n).toInt = n ↔ Fits n := by
  constructor
  · intro h
    have hlt := (Int32.ofNat n).toInt_lt
    rw [h] at hlt
    exact_mod_cast hlt
  · exact Int32.toInt_ofNat_of_lt

/-- Two numbers become one C integer if they have the same residue. -/
theorem ofNat_eq_iff (m n : Nat) :
    Int32.ofNat m = Int32.ofNat n ↔ m % 4294967296 = n % 4294967296 := by
  have hbmod : (m : Int).bmod 4294967296 = (n : Int).bmod 4294967296 ↔
      (m : Int) % (4294967296 : Nat) = (n : Int) % (4294967296 : Nat) := by
    constructor
    · intro h
      rw [← Int.bmod_emod, h, Int.bmod_emod]
    · intro h
      rw [← Int.emod_bmod, h, Int.emod_bmod]
  rw [← Int32.toInt_inj, Int32.toInt_ofNat', Int32.toInt_ofNat']
  exact hbmod.trans (by exact_mod_cast Iff.rfl)

/-- A count from zero on, taken for a size, is a C integer too. -/
theorem sizeOf_le {count : Int32} (h : 0 ≤ count.toInt) : sizeOf count ≤ 2147483648 := by
  have hlt := count.toInt_lt
  unfold sizeOf
  omega

/-! ## What calls pass on -/

/-- The bytes that a call passes by their length, with the length that it says. -/
def LibraryCall.data? : LibraryCall → Option (Bytes × Int32)
  | prepare _ sql length => some (Utf8.encode sql, length)
  | bindText _ _ bytes length | bindBlob _ _ bytes length => some (bytes, length)
  | _ => none

def bytesOf : Value → Option Bytes
  | .text v => some (Utf8.encode v)
  | .blob v => some v
  | _ => none

/-- The call names this parameter and passes these bytes, all of them and no more. -/
structure Faithful (index? : Option Nat) (bytes? : Option Bytes) (call : LibraryCall) : Prop where
  index : call.index?.map Int32.toInt = index?.map Int.ofNat
  data : call.data?.map (fun d => (d.1, d.2.toInt))
    = bytes?.map fun bytes => (bytes, Int.ofNat bytes.length)

/-- The library was first called faithfully, or it was not called and the code is no success. -/
def PassedOn (index? : Option Nat) (bytes? : Option Bytes) (log : List Exchange)
    (rc : ResultCode) : Prop :=
  (∃ x, log.head? = some x ∧ Faithful index? bytes? x.call) ∨ (log = [] ∧ rc.isOk = false)

/-- All numbers that go with a call fit. -/
def AllFit (index? : Option Nat) (bytes? : Option Bytes) : Prop :=
  (∀ index ∈ index?, Fits index) ∧ ∀ bytes ∈ bytes?, Fits bytes.length

/-- A call whose numbers are cut is faithful if they fit. -/
theorem faithful_iff {index? : Option Nat} {bytes? : Option Bytes} {call : LibraryCall}
    (index : call.index? = index?.map Int32.ofNat)
    (data : call.data? = bytes?.map fun bytes => (bytes, Int32.ofNat bytes.length)) :
    Faithful index? bytes? call ↔ AllFit index? bytes? := by
  have hindex : call.index?.map Int32.toInt = index?.map Int.ofNat ↔
      ∀ index ∈ index?, Fits index := by
    cases index? with
    | none => simp [index]
    | some index' => simpa [index] using toInt_ofNat_eq_iff index'
  have hdata : call.data?.map (fun d => (d.1, d.2.toInt))
        = bytes?.map (fun bytes => (bytes, Int.ofNat bytes.length)) ↔
      ∀ bytes ∈ bytes?, Fits bytes.length := by
    cases bytes? with
    | none => simp [data]
    | some bytes => simpa [data] using toInt_ofNat_eq_iff bytes.length
  exact ⟨fun h => ⟨hindex.1 h.index, hdata.1 h.data⟩, fun h => ⟨hindex.2 h.1, hdata.2 h.2⟩⟩

variable (L : Library)

/-! ## Parameters -/

theorem bind_calls (stmt : StmtHandle) (index : Nat) (value : Value) (l : L.State) :
    ∃ x, (L.run (bind stmt index value) l).exchanges = [x] ∧
      x.call.index? = some (.ofNat index) ∧
      x.call.data? = (bytesOf value).map fun bytes => (bytes, .ofNat bytes.length) := by
  cases value <;> exact ⟨_, rfl, rfl, rfl⟩

theorem bind_passedOn_iff (stmt : StmtHandle) (index : Nat) (value : Value) (l : L.State) :
    PassedOn (some index) (bytesOf value) (L.run (bind stmt index value) l).exchanges
      (L.run (bind stmt index value) l).result ↔ AllFit (some index) (bytesOf value) := by
  obtain ⟨x, hx, hindex, hdata⟩ := bind_calls L stmt index value l
  rw [← faithful_iff hindex hdata, hx]
  simp [PassedOn]

/-! ## Statements -/

theorem prepare_passedOn_iff (db : DbHandle) (sql : String) (l : L.State) :
    PassedOn none (some (Utf8.encode sql)) (L.run (prepare db sql) l).exchanges
        (L.run (prepare db sql) l).result.2 ↔
      0 ∈ Utf8.encode sql ∨ AllFit none (some (Utf8.encode sql)) := by
  have hprepares := prepare_prepares L db sql l
  by_cases hnul : 0 ∈ Utf8.encode sql
  · obtain ⟨hlog, hanswer⟩ := hprepares.unpassable hnul
    rw [hlog, hanswer]
    simp only [hnul, true_or, iff_true]
    exact .inr ⟨rfl, by decide⟩
  · obtain ⟨prepared, rest, hlog, -⟩ := hprepares.passed hnul
    have hcall : Faithful none (some (Utf8.encode sql))
          (.prepare db sql (.ofNat (Utf8.encode sql).length)) ↔
        AllFit none (some (Utf8.encode sql)) := faithful_iff rfl rfl
    rw [hlog, ← hcall]
    simp [PassedOn, hnul]

/-! ## Columns -/

def counted (stmt : StmtHandle) (l : L.State) : Int32 := (L.answer l (.columnCount stmt)).1

/-- The columns are counted first, and then the column is read or refused. -/
theorem run_columnValue (stmt : StmtHandle) (index : Nat) (l : L.State) :
    L.run (columnValue stmt index) l =
      let count := sizeOf (counted L stmt l)
      let rest := L.run (if index < count then readColumn stmt (.ofNat index)
        else return .error (.ofText
          s!"Column {index} out of range, the statement has {count} columns"))
        (L.answer l (.columnCount stmt)).2
      ⟨rest.result, ⟨.columnCount stmt, counted L stmt l⟩ :: rest.exchanges, rest.library⟩ := rfl

theorem columnValue_calls (stmt : StmtHandle) (index : Nat) (l : L.State) :
    ∃ l', (L.run (columnValue stmt index) l).exchanges = ⟨.columnCount stmt, counted L stmt l⟩ ::
      if index < sizeOf (counted L stmt l) then
        (L.run (readColumn stmt (.ofNat index)) l').exchanges
      else [] := by
  refine ⟨(L.answer l (.columnCount stmt)).2, ?_⟩
  simp only [run_columnValue]
  split_ifs <;> rfl

/-- **No other column is read, but for a library that counts a negative number of them.** -/
theorem columnValue_named_iff (stmt : StmtHandle) (index : Nat) (l : L.State) :
    (∀ x ∈ (L.run (columnValue stmt index) l).exchanges, ∀ i ∈ x.call.index?, i.toInt = index) ↔
      ¬((counted L stmt l).toInt < 0 ∧ ¬Fits index ∧ index < sizeOf (counted L stmt l)) := by
  obtain ⟨l', hlog⟩ := columnValue_calls L stmt index l
  rw [hlog, List.forall_mem_cons]
  by_cases hin : index < sizeOf (counted L stmt l)
  · simp only [if_pos hin]
    constructor
    · rintro ⟨-, hnamed⟩ ⟨-, hfits, -⟩
      refine hfits ((toInt_ofNat_eq_iff index).1 ?_)
      exact hnamed ⟨.columnType stmt (.ofNat index), _⟩ List.mem_cons_self _ rfl
    · intro hcount
      have hfits : Fits index := by
        by_contra hfits
        refine hcount ⟨?_, hfits, hin⟩
        by_contra hneg
        exact hfits (Nat.lt_of_lt_of_le hin (sizeOf_le (Int.not_lt.1 hneg)))
      refine ⟨nofun, fun x hx i hi => ?_⟩
      have hindex : x.call.index? = some (.ofNat index) :=
        LibraryCall.index_of_column (L.readColumn_each stmt _ l' x hx)
      rw [hindex] at hi
      cases hi
      exact (toInt_ofNat_eq_iff index).2 hfits
  · simp [hin, LibraryCall.index?]

/-! ## All together -/

/-- **Numbers go over to the library as they are exactly if they fit.** Binding and preparing pass
on what they were given if and only if the number of the parameter and the lengths fit, or the text
cannot be passed at all; two numbers go to one parameter if they differ by a multiple of `2 ^ 32`;
and the column that is read is the one that was asked for, unless the library counts a negative
number of columns. -/
theorem narrowed_exactly (l : L.State) :
    (∀ stmt index value,
      let (rc, _, log) := L.engine.answer (l, []) (.bind stmt index value)
      PassedOn (some index) (bytesOf value) log rc ↔ AllFit (some index) (bytesOf value)) ∧
    (∀ db sql,
      let ((_, rc), _, log) := L.engine.answer (l, []) (.prepare db sql)
      PassedOn none (some (Utf8.encode sql)) log rc ↔
        0 ∈ Utf8.encode sql ∨ AllFit none (some (Utf8.encode sql))) ∧
    (∀ stmt index index' value value',
      let (_, _, log) := L.engine.answer (l, []) (.bind stmt index value)
      let (_, _, log') := L.engine.answer (l, []) (.bind stmt index' value')
      log.map (·.call.index?) = log'.map (·.call.index?) ↔
        index % 4294967296 = index' % 4294967296) ∧
    ∀ stmt index,
      let (_, _, log) := L.engine.answer (l, []) (.columnValue stmt index)
      (∀ x ∈ log, ∀ i ∈ x.call.index?, i.toInt = index) ↔
        ¬((counted L stmt l).toInt < 0 ∧ ¬Fits index ∧ index < sizeOf (counted L stmt l)) := by
  simp only [L.engine_answer, List.nil_append, routine]
  refine ⟨(bind_passedOn_iff L · · · l), (prepare_passedOn_iff L · · l),
    fun stmt index index' value value' => ?_, (columnValue_named_iff L · · l)⟩
  obtain ⟨x, hx, hindex, -⟩ := bind_calls L stmt index value l
  obtain ⟨x', hx', hindex', -⟩ := bind_calls L stmt index' value' l
  rw [hx, hx', ← ofNat_eq_iff]
  simp [hindex, hindex']

def unasked : scripted.State := ScriptedLibrary.initial

/-- A blob of `2 ^ 31` bytes. -/
def longBlob : Bytes := List.replicate 2147483648 0

theorem run_bind_scripted (stmt : StmtHandle) (index : Nat) (value : Value) :
    (scripted.run (bind stmt index value) unasked).result = .ok := by
  cases value <;> rfl

/-- A number beyond the C integers goes to the first parameter, with success, and a long blob goes
over with a negative length. -/
theorem farParameter_bound :
    let stmt : StmtHandle := ⟨24, by decide⟩
    let (rc, _, log) :=
      scripted.engine.answer (unasked, []) (.bind stmt 4294967297 (.integer 7))
    let (rc', _, log') := scripted.engine.answer (unasked, []) (.bind stmt 1 (.blob longBlob))
    log.map Exchange.call = [.bindInteger stmt 1 7] ∧ rc = .ok ∧
      ¬PassedOn (some 4294967297) none log rc ∧
      log'.map Exchange.call = [.bindBlob stmt 1 longBlob (-2147483648)] ∧ rc' = .ok ∧
      ¬PassedOn (some 1) (some longBlob) log' rc' := by
  intro stmt
  have hlength : longBlob.length = 2147483648 := List.length_replicate
  simp only [scripted.engine_answer, List.nil_append, routine]
  refine ⟨rfl, run_bind_scripted .., fun h => ?_, ?_, run_bind_scripted .., fun h => ?_⟩
  · have hfit := (bind_passedOn_iff scripted stmt 4294967297 (.integer 7) unasked).1 h
    exact absurd (hfit.1 _ rfl) (by decide)
  · have hcut : Int32.ofNat longBlob.length = -2147483648 := by
      rw [hlength]
      decide
    show [LibraryCall.bindBlob stmt 1 longBlob (.ofNat longBlob.length)] = _
    rw [hcut]
  · have hfit := (bind_passedOn_iff scripted stmt 1 (.blob longBlob) unasked).1 h
    have hlong := hfit.2 _ rfl
    rw [hlength] at hlong
    exact absurd hlong (by decide)

end ConfinedDb.Native
