import ViOS.Task.CopyString

/-! # The local buffers of the handlers that take a string

`print`, `process_load_start` and `invoke_system_command` copy a string of the task into arrays on the
kernel's stack.  `strncpy` puts its NUL behind the `count` bytes, and the prefix of a path takes three
of its bytes; so the longest strings are written past the ends.

The tables are in `ViOS.Task.CopyString`; here each byte is recorded that the string functions write.

* `copyStringWrites` — the two copies of `copy_string_from_task`.
* `isr80hCommand1Print`, `isr80hCommand6ProcessLoadStart`, `isr80hCommand7InvokeSystemCommand` — the writes
  of the handlers.
* `copyStringFromTask_copies` — memory behind `copy_string_from_task`.
* `handlers_inside_iff` — the strings for which the handlers stay in their buffers.
-/

namespace ViOS.Process

open ViOS.Memory

/-! ## The code -/

/-- The buffer `copy_string_from_task` allocates, and the arrays of the handlers. -/
inductive LocalBuffer where
  | tmp (max : Nat)
  | buf
  | filename
  | path

def LocalBuffer.size : LocalBuffer → Nat
  | .tmp max => max
  | .buf => 1024
  | .filename => viosMaxPath
  | .path => viosMaxPath

/-- One byte that is written. -/
structure BufferWrite where
  buffer : LocalBuffer
  index : Nat

/-- A string of some length with its NUL, written from `dest` on. -/
def stringWrites (buffer : LocalBuffer) (dest length : Nat) : List BufferWrite :=
  (List.range (length + 1)).map fun i => ⟨buffer, dest + i⟩

/-- The loop of `strlen` and `strcpy`; there is no result when it is not over after `fuel` rounds. -/
def strlen (src : Nat → UInt8) : (fuel i : Nat) → Option Nat
  | 0, _ => none
  | fuel + 1, i => if src i = 0 then some i else strlen src fuel (i + 1)

/-- The bytes that `strcpy` writes. -/
def strcpyWrites (fuel : Nat) (buffer : LocalBuffer) (dest : Nat) (src : Nat → UInt8) : Option (List BufferWrite) :=
  (strlen src fuel 0).map (stringWrites buffer dest)

/-- What `copy_string_from_task` returns, the bytes at `phys`, and the writes. -/
structure CopiedString where
  res : Int
  bytes : Nat → UInt8
  writes : List BufferWrite

/-- `copy_string_from_task` into a buffer; `allocated` says whether `kzalloc` succeeds. -/
def copyStringWrites (allocated : Bool) (string tmp : Nat → UInt8) (phys : LocalBuffer) (bytes : Nat → UInt8)
    (max : Nat) : CopiedString :=
  if pagingPageSize ≤ max then ⟨-einvarg, bytes, []⟩
  else if allocated = false then ⟨-enomem, bytes, []⟩
  else
    let tmpString := strncpy tmp 0 string max
    ⟨0, strncpy bytes 0 tmpString max,
      stringWrites (.tmp max) 0 (strncpyLength string max) ++ stringWrites phys 0 (strncpyLength tmpString max)⟩

section Handlers

variable (allocated : Bool) (string tmp : Nat → UInt8)

/-- `isr80h_command1_print`. -/
def isr80hCommand1Print (buf : Nat → UInt8) : List BufferWrite :=
  (copyStringWrites allocated string tmp .buf buf 1024).writes

/-- The bytes of a literal. -/
def literalBytes (chars : List UInt8) (i : Nat) : UInt8 := chars.getD i 0

/-- `isr80h_command6_process_load_start` up to `process_load_switch`. -/
def isr80hCommand6ProcessLoadStart (filename : Nat → UInt8) (fuel : Nat) : Option (List BufferWrite) :=
  let copied := copyStringWrites allocated string tmp .filename filename viosMaxPath
  if copied.res < 0 then some copied.writes
  else
    (strcpyWrites fuel .path 0 (literalBytes [48, 58, 47])).bind fun drive =>
      (strcpyWrites fuel .path 3 copied.bytes).map fun file => copied.writes ++ (drive ++ file)

/-- `isr80h_command7_invoke_system_command` up to `process_load_switch`; `argument` is what the pointer of the task
leads to, if it leads anywhere. -/
def isr80hCommand7InvokeSystemCommand (argument : Option (Nat → UInt8)) (fuel : Nat) : Option (List BufferWrite) :=
  match argument with
  | none => some []
  | some programName =>
    match strlen programName fuel 0 with
    | none => none
    | some 0 => some []
    | some _ =>
      (strcpyWrites fuel .path 0 (literalBytes [64, 58, 47])).map fun drive =>
        drive ++ stringWrites .path 3 (strncpyLength programName viosMaxPath)

end Handlers

/-- No byte is written outside the buffers. -/
def WritesInside (writes : List BufferWrite) : Prop := ∀ write ∈ writes, write.index < write.buffer.size

/-- The handler comes to `process_load_switch` or returns, and has not written outside its buffers. -/
def StaysInside (handler : (fuel : Nat) → Option (List BufferWrite)) : Prop :=
  ∃ fuel writes, handler fuel = some writes ∧ WritesInside writes

/-! ## The two copies -/

/-- A copy does not depend on where it is made. -/
theorem strncpy_shift (ram : Nat → UInt8) (dest : Nat) (src : Nat → UInt8) (count i : Nat) :
    strncpy ram dest src count (dest + i) = strncpy (fun i => ram (dest + i)) 0 src count i := by
  unfold strncpy
  simp only [Nat.zero_add, Nat.add_right_inj, Nat.le_add_right, true_and, Nat.add_lt_add_iff_left,
    Nat.add_sub_cancel_left, Nat.zero_le, Nat.sub_zero]

/-- The bytes at `phys` are those of the two copies. -/
theorem copyStringFromTask_copies {α : Type*} {kzalloc : α → Nat → Nat × α} {kfree : α → Nat → α} {width : Nat}
    {kernelDesc taskDesc : PagingDesc} {string : Nat → UInt8} {phys : Nat} {max res : Int} {state state' : CopyState α}
    (nonneg : 0 ≤ max)
    (ran : copyStringFromTask kzalloc kfree width kernelDesc taskDesc string phys max state = some (res, state'))
    (buffer : LocalBuffer) :
    ∃ allocated tmp bytes, (copyStringWrites allocated string tmp buffer bytes max.toNat).res = res ∧
      ∀ i, state'.ram (phys + i) = (copyStringWrites allocated string tmp buffer bytes max.toNat).bytes i := by
  unfold copyStringFromTask at ran
  split at ran
  next long =>
    obtain ⟨rfl, rfl⟩ := Prod.mk.inj (Option.some.inj ran)
    refine ⟨false, string, fun i => state.ram (phys + i), ?_⟩
    rw [copyStringWrites, if_pos (by omega)]
    exact ⟨rfl, fun i => rfl⟩
  next short =>
    dsimp only at ran
    split at ran
    next =>
      obtain ⟨rfl, rfl⟩ := Prod.mk.inj (Option.some.inj ran)
      refine ⟨false, string, fun i => state.ram (phys + i), ?_⟩
      rw [copyStringWrites, if_neg (by omega), if_pos rfl]
      exact ⟨rfl, fun i => rfl⟩
    next =>
      generalize pagingGetPhysicalAddress state.paging.mem kernelDesc
        (kzalloc state.paging.alloc (max % addressSpace).toNat).1 = physTmp at ran
      split at ran
      next => cases ran
      next =>
        obtain ⟨rfl, rfl⟩ := Prod.mk.inj (Option.some.inj ran)
        refine ⟨true, fun i => state.ram (physTmp + i), fun i => strncpy state.ram physTmp string max.toNat (phys + i), ?_⟩
        rw [copyStringWrites, if_neg (by omega), if_neg Bool.true_eq_false.mp]
        refine ⟨rfl, fun i => ?_⟩
        dsimp only
        rw [strncpy_shift]
        simp only [strncpy_shift]

/-! ## Strings -/

section Strings

/-- A string with its NUL. -/
structure StringAt (src : Nat → UInt8) (length : Nat) : Prop where
  chars : ∀ i < length, src i ≠ 0
  nul : src length = 0

variable {src : Nat → UInt8} {length : Nat}

theorem strncpyLength_eq (string : StringAt src length) (count : Nat) : strncpyLength src count = min length count := by
  unfold strncpyLength
  induction count with
  | zero => exact (Nat.min_zero length).symm
  | succ count ih =>
    rw [List.range_succ, List.takeWhile_append, ih, List.length_range]
    by_cases short : length ≤ count
    · by_cases last : length = count
      · rw [if_pos (by omega), List.takeWhile_cons_of_neg (by simp [← last, string.nul]), List.append_nil, List.length_range]
        omega
      · rw [if_neg (by omega), ih]
        omega
    · have isChar := string.chars count (by omega)
      rw [if_pos (by omega), List.takeWhile_cons_of_pos (by simpa using isChar), List.takeWhile_nil, List.length_append,
        List.length_range, List.length_singleton]
      omega

theorem strncpy_stringAt (string : StringAt src length) (ram : Nat → UInt8) (count : Nat) :
    StringAt (strncpy ram 0 src count) (min length count) where
  chars i inside := by
    unfold strncpy
    rw [strncpyLength_eq string, if_neg (by omega), if_pos ⟨Nat.zero_le i, by omega⟩]
    exact string.chars i (by omega)
  nul := by
    unfold strncpy
    rw [strncpyLength_eq string]
    exact if_pos (Nat.zero_add _).symm

theorem strlen_eq (string : StringAt src length) {fuel i : Nat} (inside : i ≤ length) (enough : length < fuel + i) :
    strlen src fuel i = some length := by
  induction fuel generalizing i with
  | zero => omega
  | succ fuel ih =>
    rw [strlen]
    by_cases stops : i = length
    · rw [stops, if_pos string.nul]
    · rw [if_neg (string.chars i (by omega)), ih (by omega) (by omega)]

/-- The loop finds the same end with any fuel that is enough for it. -/
theorem strlen_unique (string : StringAt src length) {fuel i found : Nat} (inside : i ≤ length)
    (ran : strlen src fuel i = some found) : found = length := by
  induction fuel generalizing i with
  | zero => cases ran
  | succ fuel ih =>
    rw [strlen] at ran
    by_cases stops : i = length
    · rw [stops, if_pos string.nul] at ran
      exact (Option.some.inj ran).symm
    · rw [if_neg (string.chars i (by omega))] at ran
      exact ih (by omega) ran

theorem strcpyWrites_eq (string : StringAt src length) {fuel : Nat} (enough : length < fuel) (buffer : LocalBuffer)
    (dest : Nat) : strcpyWrites fuel buffer dest src = some (stringWrites buffer dest length) := by
  rw [strcpyWrites, strlen_eq string (Nat.zero_le _) enough]
  rfl

theorem strcpyWrites_unique (string : StringAt src length) {fuel dest : Nat} {buffer : LocalBuffer}
    {writes : List BufferWrite} (ran : strcpyWrites fuel buffer dest src = some writes) :
    writes = stringWrites buffer dest length := by
  obtain ⟨found, stops, rfl⟩ := Option.map_eq_some_iff.mp ran
  rw [strlen_unique string (Nat.zero_le _) stops]

end Strings

/-! ## The writes -/

section Writes

theorem writesInside_append {first second : List BufferWrite} :
    WritesInside (first ++ second) ↔ WritesInside first ∧ WritesInside second := List.forall_mem_append

/-- A handler that comes to its end with some writes, and with no others. -/
theorem staysInside_iff {handler : Nat → Option (List BufferWrite)} {writes : List BufferWrite} (fuel : Nat)
    (ends : handler fuel = some writes) (only : ∀ fuel other, handler fuel = some other → other = writes) :
    StaysInside handler ↔ WritesInside writes := by
  constructor
  · rintro ⟨fuel', other, ran, inside⟩
    exact only fuel' other ran ▸ inside
  · exact fun inside => ⟨fuel, writes, ends, inside⟩

/-- A string stays in a buffer when its NUL does. -/
theorem stringWrites_inside_iff (buffer : LocalBuffer) (dest length : Nat) :
    WritesInside (stringWrites buffer dest length) ↔ dest + length < buffer.size := by
  constructor
  · intro inside
    exact inside ⟨buffer, dest + length⟩ (List.mem_map.mpr ⟨length, List.mem_range.mpr (Nat.lt_succ_self _), rfl⟩)
  · rintro fits write member
    obtain ⟨i, inRange, rfl⟩ := List.mem_map.mp member
    have := List.mem_range.mp inRange
    exact show dest + i < buffer.size by omega

/-- `copy_string_from_task` stays in both buffers when the string is shorter than `max`. -/
theorem copyStringWrites_inside_iff {string : Nat → UInt8} {length max : Nat} (isString : StringAt string length)
    (allocated : Bool) (tmp bytes : Nat → UInt8) (phys : LocalBuffer) (small : max < pagingPageSize)
    (size : phys.size = max) :
    WritesInside (copyStringWrites allocated string tmp phys bytes max).writes ↔ allocated = false ∨ length < max := by
  rw [copyStringWrites, if_neg (by omega)]
  cases allocated with
  | false => exact iff_of_true (List.forall_mem_nil _) (.inl rfl)
  | true =>
    rw [if_neg Bool.true_eq_false.mp]
    dsimp only
    rw [writesInside_append, stringWrites_inside_iff, stringWrites_inside_iff, strncpyLength_eq isString,
      strncpyLength_eq (strncpy_stringAt isString tmp max), size]
    change 0 + min length max < max ∧ _ ↔ _
    simp only [Bool.true_eq_false, false_or]
    omega

end Writes

/-! ## The handlers -/

section Handlers

variable {string : Nat → UInt8} {length : Nat} (isString : StringAt string length)
include isString

theorem print_inside_iff (allocated : Bool) (tmp buf : Nat → UInt8) :
    WritesInside (isr80hCommand1Print allocated string tmp buf) ↔ allocated = false ∨ length < 1024 :=
  copyStringWrites_inside_iff isString allocated tmp buf .buf (by decide) rfl

omit isString in
theorem literal_drive (first : UInt8) (isChar : first ≠ 0) : StringAt (literalBytes [first, 58, 47]) 3 where
  chars i inside := by
    obtain rfl | rfl | rfl : i = 0 ∨ i = 1 ∨ i = 2 := by omega
    · exact isChar
    · exact show (58 : UInt8) ≠ 0 by decide
    · exact show (47 : UInt8) ≠ 0 by decide
  nul := rfl

theorem loadStart_inside_iff (allocated : Bool) (tmp filename : Nat → UInt8) :
    StaysInside (isr80hCommand6ProcessLoadStart allocated string tmp filename) ↔ allocated = false ∨ length ≤ 104 := by
  have copies := copyStringWrites_inside_iff isString allocated tmp filename .filename
    (show viosMaxPath < pagingPageSize by decide) rfl
  cases allocated with
  | false =>
    refine iff_of_true ⟨0, _, rfl, ?_⟩ (.inl rfl)
    exact copies.mpr (.inl rfl)
  | true =>
    have drive := literal_drive 48 (by decide)
    have file := strncpy_stringAt (strncpy_stringAt isString tmp viosMaxPath) filename viosMaxPath
    have shorter : min (min length viosMaxPath) viosMaxPath = min length 108 := Nat.min_eq_left (Nat.min_le_right _ _)
    rw [shorter] at file
    have handler : ∀ fuel, isr80hCommand6ProcessLoadStart true string tmp filename fuel =
        (strcpyWrites fuel .path 0 (literalBytes [48, 58, 47])).bind fun drive =>
          (strcpyWrites fuel .path 3 (strncpy filename 0 (strncpy tmp 0 string viosMaxPath) viosMaxPath)).map fun file =>
            (copyStringWrites true string tmp .filename filename viosMaxPath).writes ++ (drive ++ file) := fun fuel => rfl
    have whole : StaysInside (isr80hCommand6ProcessLoadStart true string tmp filename) ↔
        WritesInside ((copyStringWrites true string tmp .filename filename viosMaxPath).writes ++
          (stringWrites .path 0 3 ++ stringWrites .path 3 (min length 108))) := by
      refine staysInside_iff 112 ?_ fun fuel other ran => ?_
      · rw [handler, strcpyWrites_eq drive (by decide), strcpyWrites_eq file (by omega)]
        rfl
      · rw [handler] at ran
        obtain ⟨first, here, ran⟩ := Option.bind_eq_some_iff.mp ran
        obtain ⟨second, there, rfl⟩ := Option.map_eq_some_iff.mp ran
        rw [strcpyWrites_unique drive here, strcpyWrites_unique file there]
    rw [whole, writesInside_append, writesInside_append, copies, stringWrites_inside_iff, stringWrites_inside_iff]
    change (true = false ∨ length < 108) ∧ 0 + 3 < 108 ∧ 3 + min length 108 < 108 ↔ _
    simp only [Bool.true_eq_false, false_or]
    omega

theorem invoke_inside_iff : StaysInside (isr80hCommand7InvokeSystemCommand (some string)) ↔ length ≤ 104 := by
  have drive := literal_drive 64 (by decide)
  have measured : ∀ fuel found, strlen string fuel 0 = some found → found = length :=
    fun fuel found ran => strlen_unique isString (Nat.zero_le _) ran
  by_cases empty : length = 0
  · subst empty
    refine iff_of_true ⟨1, [], ?_, List.forall_mem_nil _⟩ (Nat.zero_le _)
    rw [isr80hCommand7InvokeSystemCommand, strlen_eq isString (Nat.le_refl _) (by decide)]
    rfl
  · obtain ⟨length, rfl⟩ : ∃ less, length = less + 1 := ⟨length - 1, by omega⟩
    have whole : StaysInside (isr80hCommand7InvokeSystemCommand (some string)) ↔
        WritesInside (stringWrites .path 0 3 ++ stringWrites .path 3 (strncpyLength string viosMaxPath)) := by
      refine staysInside_iff (length + 5) ?_ fun fuel other ran => ?_
      · rw [isr80hCommand7InvokeSystemCommand, strlen_eq isString (Nat.zero_le _) (by omega), strcpyWrites_eq drive (by omega)]
        rfl
      · rw [isr80hCommand7InvokeSystemCommand] at ran
        cases ended : strlen string fuel 0 with
        | none =>
          rw [ended] at ran
          cases ran
        | some found =>
          rw [ended, measured fuel found ended] at ran
          obtain ⟨first, here, rfl⟩ := Option.map_eq_some_iff.mp ran
          rw [strcpyWrites_unique drive here]
    rw [whole, writesInside_append, stringWrites_inside_iff, stringWrites_inside_iff, strncpyLength_eq isString]
    change 0 + 3 < 108 ∧ 3 + min (length + 1) 108 < 108 ↔ _
    omega

end Handlers

/-- A string that is printed may have 1023 bytes, and the name of a program 104; without memory for the copy nothing
is written. -/
theorem handlers_inside_iff (string : Nat → UInt8) (length : Nat) (isString : StringAt string length) (allocated : Bool)
    (tmp buf filename : Nat → UInt8) :
    (WritesInside (isr80hCommand1Print allocated string tmp buf) ↔ allocated = false ∨ length < 1024) ∧
      (StaysInside (isr80hCommand6ProcessLoadStart allocated string tmp filename) ↔
        allocated = false ∨ length ≤ 104) ∧
      (StaysInside (isr80hCommand7InvokeSystemCommand (some string)) ↔ length ≤ 104) :=
  ⟨print_inside_iff isString allocated tmp buf, loadStart_inside_iff isString allocated tmp filename,
    invoke_inside_iff isString⟩

/-- A string of one letter, so many times. -/
def letters (length i : Nat) : UInt8 := if i < length then 97 else 0

theorem letters_stringAt (length : Nat) : StringAt (letters length) length where
  chars i inside := by
    rw [letters, if_pos inside]
    decide
  nul := if_neg (Nat.lt_irrefl length)

/-- A name of 104 letters. -/
theorem handlers_inside_longest : WritesInside (isr80hCommand1Print true (letters 104) (fun _ => 0) fun _ => 0) ∧
    StaysInside (isr80hCommand6ProcessLoadStart true (letters 104) (fun _ => 0) fun _ => 0) ∧
    StaysInside (isr80hCommand7InvokeSystemCommand (some (letters 104))) := by
  have inside := handlers_inside_iff (letters 104) 104 (letters_stringAt 104) true (fun _ => 0) (fun _ => 0) fun _ => 0
  exact ⟨inside.1.mpr (.inr (by decide)), inside.2.1.mpr (.inr (Nat.le_refl _)), inside.2.2.mpr (Nat.le_refl _)⟩

/-- 1024 letters that are printed, and a name of 105 letters that is loaded or invoked. -/
theorem handlers_past_end : StringAt (letters 1024) 1024 ∧ StringAt (letters 105) 105 ∧
    ¬ WritesInside (isr80hCommand1Print true (letters 1024) (fun _ => 0) fun _ => 0) ∧
    ¬ StaysInside (isr80hCommand6ProcessLoadStart true (letters 105) (fun _ => 0) fun _ => 0) ∧
    ¬ StaysInside (isr80hCommand7InvokeSystemCommand (some (letters 105))) := by
  refine ⟨letters_stringAt 1024, letters_stringAt 105, fun inside => ?_, fun inside => ?_, fun inside => ?_⟩
  · have short := ((print_inside_iff (letters_stringAt 1024) true _ _).mp inside).resolve_left (by decide)
    exact absurd short (by decide)
  · have short := ((loadStart_inside_iff (letters_stringAt 105) true _ _).mp inside).resolve_left (by decide)
    exact absurd short (by decide)
  · exact absurd ((invoke_inside_iff (letters_stringAt 105)).mp inside) (by decide)

end ViOS.Process
