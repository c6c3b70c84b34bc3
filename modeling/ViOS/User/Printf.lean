import ViOS.User.Stdlib

/-! # `printf`

The pointer into the format is moved in the header of the loop, and once more behind a `%`.  A
program prints what it read from a file as a format, so any string can be one.

* `printfLoop` — the code, with the bytes of the format it reads.
* `pieces`, `endsInPercent` — a format as characters and conversions, and what may be left at its end.
* `printsFormat_iff` — the formats that are printed as they should be.
-/

namespace ViOS.User

open ViOS.Lib

/-! ## The code -/

/-- What is behind `...`: an argument as an `int`, and the string it points to. -/
structure VarArg where
  intValue : Int
  string : List UInt8

/-- The bytes that were printed, the places of the format that were read, and the number of arguments
that were taken. -/
structure PrintfTrace where
  output : List UInt8
  reads : List Int
  taken : Nat

def PrintfTrace.read (trace : PrintfTrace) (place : Int) : PrintfTrace := { trace with reads := trace.reads ++ [place] }

def PrintfTrace.print (trace : PrintfTrace) (bytes : List UInt8) : PrintfTrace :=
  { trace with output := trace.output ++ bytes }

def PrintfTrace.take (trace : PrintfTrace) : PrintfTrace := { trace with taken := trace.taken + 1 }

/-- The `switch` of `printf` on the character behind a `%`. -/
def printfConversion (args : Nat → VarArg) (c : UInt8) (trace : PrintfTrace) : PrintfTrace :=
  if c = 105 then (trace.print (numeral (args trace.taken).intValue)).take
  else if c = 115 then (trace.print (args trace.taken).string).take
  else trace.print [c]

/-- The loop of `printf`; there is no result when it is not over after `fuel` rounds. -/
def printfLoop (memory : Int → UInt8) (args : Nat → VarArg) : (fuel : Nat) → (p : Int) → PrintfTrace →
    Option PrintfTrace
  | 0, _, _ => none
  | fuel + 1, p, trace =>
    let trace := trace.read p
    if memory p = 0 then some trace
    else if memory p ≠ 37 then printfLoop memory args fuel (p + 1) (trace.print [memory p])
    else printfLoop memory args fuel (p + 2) (printfConversion args (memory (p + 1)) (trace.read (p + 1)))

/-- `printf`. -/
def printf (memory : Int → UInt8) (args : Nat → VarArg) (fuel : Nat) (fmt : Int) : Option PrintfTrace :=
  printfLoop memory args fuel fmt ⟨[], [], 0⟩

/-! ## Formats -/

/-- A character that stands for itself, or a conversion with its character. -/
inductive Piece where
  | literal (c : UInt8)
  | conversion (c : UInt8)

/-- The pieces of a format; a `%` with nothing behind it is none. -/
def pieces : List UInt8 → List Piece
  | [] => []
  | [c] => if c = 37 then [] else [.literal c]
  | c :: k :: rest => if c = 37 then .conversion k :: pieces rest else .literal c :: pieces (k :: rest)

/-- Behind the pieces there is a `%`. -/
def endsInPercent : List UInt8 → Bool
  | [] => false
  | [c] => c = 37
  | c :: k :: rest => if c = 37 then endsInPercent rest else endsInPercent (k :: rest)

def Piece.takesArg : Piece → Bool
  | .literal _ => false
  | .conversion c => c = 105 ∨ c = 115

/-- What a piece prints, with the argument that is next. -/
def Piece.text (arg : VarArg) : Piece → List UInt8
  | .literal c => [c]
  | .conversion c => if c = 105 then numeral arg.intValue else if c = 115 then arg.string else [c]

/-- What the pieces print when `taken` arguments are used up. -/
def formatText (args : Nat → VarArg) : (taken : Nat) → List Piece → List UInt8
  | _, [] => []
  | taken, piece :: rest =>
    piece.text (args taken) ++ formatText args (if piece.takesArg then taken + 1 else taken) rest

theorem pieces_literal {c : UInt8} (noPercent : c ≠ 37) (rest : List UInt8) :
    pieces (c :: rest) = .literal c :: pieces rest := by
  cases rest with
  | nil => simp [pieces, noPercent]
  | cons k rest => rw [pieces, if_neg noPercent]

theorem endsInPercent_literal {c : UInt8} (noPercent : c ≠ 37) (rest : List UInt8) :
    endsInPercent (c :: rest) = endsInPercent rest := by
  cases rest with
  | nil => exact decide_eq_false noPercent
  | cons k rest => rw [endsInPercent, if_neg noPercent]

/-- The induction on the pieces of a format. -/
theorem format_induction {motive : List UInt8 → Prop} (nil : motive []) (percent : motive [37])
    (literal : ∀ c rest, c ≠ 37 → motive rest → motive (c :: rest))
    (conversion : ∀ k rest, motive rest → motive (37 :: k :: rest)) (string : List UInt8) : motive string := by
  induction string using pieces.induct with
  | case1 => exact nil
  | case2 => exact percent
  | case3 c noPercent => exact literal c [] noPercent nil
  | case4 k rest ih => exact conversion k rest ih
  | case5 c k rest noPercent ih => exact literal c (k :: rest) noPercent ih

/-- The call returns, reads the format up to its NUL and no further, prints the pieces in their order, and takes
one argument for each `%i` and `%s`. -/
def PrintsFormat (memory : Int → UInt8) (args : Nat → VarArg) (fmt : Int) (string : List UInt8) : Prop :=
  ∃ fuel trace, printf memory args fuel fmt = some trace ∧
    (∀ place ∈ trace.reads, place ≤ fmt + string.length) ∧
    trace.output = formatText args 0 (pieces string) ∧ trace.taken = (pieces string).countP Piece.takesArg

/-! ## The loop on the pieces -/

section Loop

variable {memory : Int → UInt8} {args : Nat → VarArg} {p : Int} {string : List UInt8}

/-- One round, on a character that is neither the NUL nor a `%`. -/
theorem printfLoop_literal (noNul : memory p ≠ 0) (noPercent : memory p ≠ 37) (fuel : Nat) (trace : PrintfTrace) :
    printfLoop memory args (fuel + 1) p trace =
      printfLoop memory args fuel (p + 1) ((trace.read p).print [memory p]) := by
  rw [printfLoop, if_neg noNul, if_pos noPercent]

theorem printfLoop_conversion (percent : memory p = 37) (fuel : Nat) (trace : PrintfTrace) :
    printfLoop memory args (fuel + 1) p trace =
      printfLoop memory args fuel (p + 2)
        (printfConversion args (memory (p + 1)) ((trace.read p).read (p + 1))) := by
  have noNul : memory p ≠ 0 := by rw [percent]; decide
  rw [printfLoop, if_neg noNul, if_neg (not_not_intro percent)]

theorem printfConversion_reads (c : UInt8) (trace : PrintfTrace) :
    (printfConversion args c trace).reads = trace.reads := by
  unfold printfConversion
  split
  · rfl
  · split <;> rfl

theorem printfConversion_output (c : UInt8) (trace : PrintfTrace) :
    (printfConversion args c trace).output = trace.output ++ (Piece.conversion c).text (args trace.taken) := by
  unfold printfConversion Piece.text
  by_cases isInt : c = 105
  · simp [isInt, PrintfTrace.take, PrintfTrace.print]
  · by_cases isString : c = 115
    · simp [isString, PrintfTrace.take, PrintfTrace.print]
    · simp [isInt, isString, PrintfTrace.print]

theorem printfConversion_taken (c : UInt8) (trace : PrintfTrace) : (printfConversion args c trace).taken =
    if (Piece.conversion c).takesArg then trace.taken + 1 else trace.taken := by
  unfold printfConversion Piece.takesArg
  by_cases isInt : c = 105
  · simp [isInt, PrintfTrace.take, PrintfTrace.print]
  · by_cases isString : c = 115
    · simp [isString, PrintfTrace.take, PrintfTrace.print]
    · simp [isInt, isString, PrintfTrace.print]

/-- What is left of the work: the reads stay in the rest of the format, and its pieces are printed. -/
structure Prints (args : Nat → VarArg) (p : Int) (string : List UInt8) (trace result : PrintfTrace) : Prop where
  reads : ∀ place ∈ result.reads, place ∈ trace.reads ∨ place ≤ p + string.length
  output : result.output = trace.output ++ formatText args trace.taken (pieces string)
  taken : result.taken = trace.taken + (pieces string).countP Piece.takesArg

theorem Prints.literal {c : UInt8} (noPercent : c ≠ 37) {trace result : PrintfTrace}
    (prints : Prints args (p + 1) string ((trace.read p).print [c]) result) :
    Prints args p (c :: string) trace result where
  reads place member := by
    rw [List.length_cons, Nat.cast_succ]
    rcases prints.reads place member with before | inRest
    · rcases List.mem_append.mp before with before | here
      · exact .inl before
      · rw [List.mem_singleton.mp here]
        exact .inr (by omega)
    · exact .inr (by omega)
  output := by
    rw [prints.output, pieces_literal noPercent]
    exact List.append_assoc _ _ _
  taken := by
    rw [prints.taken, pieces_literal noPercent]
    rfl

theorem Prints.conversion {k : UInt8} {trace result : PrintfTrace}
    (prints : Prints args (p + 2) string (printfConversion args k ((trace.read p).read (p + 1))) result) :
    Prints args p (37 :: k :: string) trace result where
  reads place member := by
    rw [List.length_cons, List.length_cons, Nat.cast_succ, Nat.cast_succ]
    rcases prints.reads place member with before | inRest
    · rw [printfConversion_reads] at before
      rcases List.mem_append.mp before with before | next
      · rcases List.mem_append.mp before with before | here
        · exact .inl before
        · rw [List.mem_singleton.mp here]
          exact .inr (by omega)
      · rw [List.mem_singleton.mp next]
        exact .inr (by omega)
    · exact .inr (by omega)
  output := by
    rw [prints.output, printfConversion_output, printfConversion_taken]
    exact List.append_assoc _ _ _
  taken := by
    rw [prints.taken, printfConversion_taken, pieces, if_pos rfl, List.countP_cons]
    change (if _ then trace.taken + 1 else trace.taken) + _ = _
    cases (Piece.conversion k).takesArg with
    | true => rw [if_pos rfl, if_pos rfl, Nat.add_assoc, Nat.add_comm 1]
    | false => rfl

theorem printfLoop_prints (shown : ShowsString memory p string) (complete : endsInPercent string = false)
    {fuel : Nat} (enough : string.length < fuel) (trace : PrintfTrace) :
    ∃ result, printfLoop memory args fuel p trace = some result ∧ Prints args p string trace result := by
  obtain ⟨fuel, rfl⟩ : ∃ rest, fuel = rest + 1 := ⟨fuel - 1, by omega⟩
  induction string using format_induction generalizing p fuel trace with
  | nil =>
    refine ⟨trace.read p, by rw [printfLoop, if_pos shown.nul], ⟨?_, (List.append_nil _).symm, rfl⟩⟩
    intro place member
    rcases List.mem_append.mp member with before | last
    · exact .inl before
    · rw [List.mem_singleton.mp last]
      exact .inr (by simp)
  | percent => cases complete
  | literal c rest noPercent ih =>
    rw [List.length_cons] at enough
    obtain ⟨fuel, rfl⟩ : ∃ rest, fuel = rest + 1 := ⟨fuel - 1, by omega⟩
    rw [endsInPercent_literal noPercent] at complete
    have noNul := shown.noNul c List.mem_cons_self
    have here := shown.head
    obtain ⟨result, ran, prints⟩ := ih shown.tail complete ((trace.read p).print [c]) fuel (by omega)
    subst here
    exact ⟨result, (printfLoop_literal noNul noPercent _ trace).trans ran, prints.literal noPercent⟩
  | conversion k rest ih =>
    rw [List.length_cons, List.length_cons] at enough
    obtain ⟨fuel, rfl⟩ : ∃ rest, fuel = rest + 1 := ⟨fuel - 1, by omega⟩
    have next := shown.tail.head
    have behind := shown.tail.tail
    rw [Int.add_assoc] at behind
    obtain ⟨result, ran, prints⟩ := ih behind complete
      (printfConversion args k ((trace.read p).read (p + 1))) fuel (by omega)
    subst next
    exact ⟨result, (printfLoop_conversion shown.head _ trace).trans ran, prints.conversion⟩

/-! ## A `%` at the end -/

theorem printfLoop_reads {fuel : Nat} {trace result : PrintfTrace}
    (ran : printfLoop memory args fuel p trace = some result) : ∀ place ∈ (trace.read p).reads, place ∈ result.reads := by
  induction fuel generalizing p trace with
  | zero => cases ran
  | succ fuel ih =>
    intro place member
    by_cases nul : memory p = 0
    · rw [printfLoop, if_pos nul] at ran
      exact Option.some.inj ran ▸ member
    · by_cases percent : memory p = 37
      · rw [printfLoop_conversion percent] at ran
        refine ih ran place (List.mem_append_left _ ?_)
        rw [printfConversion_reads]
        exact List.mem_append_left _ member
      · rw [printfLoop_literal nul percent] at ran
        exact ih ran place (List.mem_append_left _ member)

/-- Behind a last `%` the loop goes on past the NUL. -/
theorem printfLoop_past (shown : ShowsString memory p string) (left : endsInPercent string = true) {fuel : Nat}
    {trace result : PrintfTrace} (ran : printfLoop memory args fuel p trace = some result) :
    p + string.length + 1 ∈ result.reads := by
  induction string using format_induction generalizing p fuel trace with
  | nil => cases left
  | percent =>
    cases fuel with
    | zero => cases ran
    | succ fuel =>
      rw [printfLoop_conversion shown.head] at ran
      refine printfLoop_reads ran _ (List.mem_append_right _ (List.mem_singleton.mpr ?_))
      rw [List.length_singleton, Nat.cast_one, Int.add_assoc]
      rfl
  | literal c rest noPercent ih =>
    cases fuel with
    | zero => cases ran
    | succ fuel =>
      have here := shown.head
      rw [endsInPercent_literal noPercent] at left
      rw [printfLoop_literal (here ▸ shown.noNul c List.mem_cons_self) (here ▸ noPercent)] at ran
      have past := ih shown.tail left ran
      rwa [List.length_cons, Nat.cast_succ, Int.add_comm (rest.length : Int), ← Int.add_assoc p]
  | conversion k rest ih =>
    cases fuel with
    | zero => cases ran
    | succ fuel =>
      have behind := shown.tail.tail
      rw [Int.add_assoc] at behind
      rw [printfLoop_conversion shown.head] at ran
      have past := ih behind left ran
      have place : p + (37 :: k :: rest).length + 1 = p + (1 + 1) + rest.length + 1 := by
        rw [List.length_cons, List.length_cons]
        omega
      rw [place]
      exact past

end Loop

/-- A format is printed as it should be just when no `%` is left at its end. -/
theorem printsFormat_iff (memory : Int → UInt8) (args : Nat → VarArg) (fmt : Int) (string : List UInt8)
    (shown : ShowsString memory fmt string) : PrintsFormat memory args fmt string ↔ endsInPercent string = false := by
  constructor
  · rintro ⟨fuel, trace, ran, inside, -, -⟩
    by_contra left
    have past := inside _ (printfLoop_past shown (Bool.not_eq_false _ ▸ left) ran)
    omega
  · intro complete
    obtain ⟨trace, ran, prints⟩ : ∃ result, printfLoop memory args (string.length + 1) fmt ⟨[], [], 0⟩ = some result ∧
        Prints args fmt string ⟨[], [], 0⟩ result := printfLoop_prints shown complete (Nat.lt_succ_self _) _
    refine ⟨_, trace, ran, fun place member => ?_, prints.output, prints.taken.trans (Nat.zero_add _)⟩
    exact (prints.reads place member).resolve_left List.not_mem_nil

/-- `%i%%`, with any arguments. -/
theorem printsFormat_percents : PrintsFormat (memoryOf [37, 105, 37, 37]) (fun _ => ⟨7, []⟩) 0 [37, 105, 37, 37] :=
  (printsFormat_iff (memoryOf [37, 105, 37, 37]) (fun _ => ⟨7, []⟩) 0 [37, 105, 37, 37]
    (memoryOf_shows (by simp))).mpr (by decide)

/-- `5%`. -/
theorem printsFormat_lastPercent : ShowsString (memoryOf [53, 37]) 0 [53, 37] ∧
    ¬ PrintsFormat (memoryOf [53, 37]) (fun _ => ⟨7, []⟩) 0 [53, 37] := by
  have shown : ShowsString (memoryOf [53, 37]) 0 [53, 37] := memoryOf_shows (by simp)
  refine ⟨shown, ?_⟩
  rintro ⟨fuel, trace, ran, inside, -, -⟩
  have past := inside _ (printfLoop_past shown (by decide) ran)
  exact absurd past (by decide)

end ViOS.User
