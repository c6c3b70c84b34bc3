import ViOS.Lib.Run
import ViOS.User.Strtok

/-! # Earlier calls of `strtok` and `vios_parse_command`

The static `sp` is only zero again when a tokenisation has run to its end.  `vios_parse_command` leaves
its loop when `vios_malloc` fails, with `sp` in the buffer that ends with the call; the next call finds
`sp`, and `strtok` does not look at the new command.

A run is any sequence of calls that return.  Memory is in every call what the program has made of it;
each call of `vios_parse_command` has an `scommand` of its own.

* `fuel_unique` — loops with fuel have one result.
* `Step` — the calls; `Independent` — a command is parsed into its own words, and nothing else is read.
* `independent_iff_idle` — when no command depends on the calls before it.
-/

namespace ViOS.User

open ViOS.Lib

/-! ## Fuel -/

/-- A result that stays with more fuel is the only one. -/
theorem fuel_unique {β : Type*} {f : Nat → Option β} (more : ∀ fuel result, f fuel = some result → f (fuel + 1) = some result)
    {m n : Nat} {a b : β} (first : f m = some a) (second : f n = some b) : a = b := by
  have stays : ∀ {k : Nat} {c : β}, f k = some c → ∀ extra, f (k + extra) = some c := by
    intro k c here extra
    induction extra with
    | zero => exact here
    | succ extra ih => exact more _ _ ih
  have atFirst := stays first n
  have atSecond := stays second m
  rw [Nat.add_comm] at atSecond
  exact Option.some.inj (atFirst.symm.trans atSecond)

section Fuel

variable {delimiters : List UInt8}

theorem strtokSkip_more {fuel : Nat} {scan start : Scan} (ran : strtokSkip delimiters fuel scan = some start) :
    strtokSkip delimiters (fuel + 1) scan = some start := by
  induction fuel generalizing scan with
  | zero => cases ran
  | succ fuel ih =>
    rw [strtokSkip] at ran ⊢
    split at ran
    next stops => rwa [if_pos stops]
    next goesOn =>
      rw [if_neg goesOn]
      exact ih ran

theorem strtokEnd_more {fuel : Nat} {scan stop : Scan} (ran : strtokEnd delimiters fuel scan = some stop) :
    strtokEnd delimiters (fuel + 1) scan = some stop := by
  induction fuel generalizing scan with
  | zero => cases ran
  | succ fuel ih =>
    rw [strtokEnd] at ran ⊢
    split at ran
    next nul => rwa [if_pos nul]
    next isChar =>
      rw [if_neg isChar]
      split at ran
      next found => rwa [if_pos found]
      next goesOn =>
        rw [if_neg goesOn]
        exact ih ran

/-- What a call of `strtok` does when there is a string to walk over. -/
theorem strtok_walks {fuel : Nat} {str : Option Pointer} {state : Strtok} {p : Pointer} (walks : state.sp.or str = some p)
    {token : Option Pointer} {state' : Strtok} (ran : strtok delimiters fuel str state = some (token, state')) :
    ∃ start, strtokSkip delimiters fuel (state.scan p) = some start ∧
      (start.text start.place = 0 ∧ token = none ∧ state' = state.leave p.buffer start none ∨
        start.text start.place ≠ 0 ∧ ∃ stop, strtokEnd delimiters fuel start = some stop ∧
          token = some ⟨p.buffer, start.place⟩ ∧
          state' = state.leave p.buffer stop (some ⟨p.buffer, stop.place⟩)) := by
  rw [strtok, walks] at ran
  dsimp only at ran
  cases skip : strtokSkip delimiters fuel (state.scan p) with
  | none =>
    rw [skip] at ran
    cases ran
  | some start =>
    rw [skip] at ran
    dsimp only at ran
    refine ⟨start, rfl, ?_⟩
    split at ran
    next nul =>
      obtain ⟨rfl, rfl⟩ := Prod.mk.inj (Option.some.inj ran)
      exact .inl ⟨nul, rfl, rfl⟩
    next isChar =>
      cases finish : strtokEnd delimiters fuel start with
      | none =>
        rw [finish] at ran
        cases ran
      | some stop =>
        rw [finish] at ran
        obtain ⟨rfl, rfl⟩ := Prod.mk.inj (Option.some.inj ran)
        exact .inr ⟨isChar, stop, rfl, rfl, rfl⟩

theorem strtok_idle {fuel : Nat} {str : Option Pointer} {state : Strtok} (idle : state.sp.or str = none) :
    strtok delimiters fuel str state = some (none, state) := by
  rw [strtok, idle]

theorem strtok_more {fuel : Nat} {str : Option Pointer} {state : Strtok} {result : Option Pointer × Strtok}
    (ran : strtok delimiters fuel str state = some result) : strtok delimiters (fuel + 1) str state = some result := by
  obtain ⟨token, state'⟩ := result
  cases walks : state.sp.or str with
  | none => rwa [strtok_idle walks] at ran ⊢
  | some p =>
    obtain ⟨start, skip, ⟨nul, rfl, rfl⟩ | ⟨isChar, stop, finish, rfl, rfl⟩⟩ := strtok_walks walks ran
    · rw [strtok, walks]
      dsimp only
      rw [strtokSkip_more skip]
      exact if_pos nul
    · rw [strtok, walks]
      dsimp only
      rw [strtokSkip_more skip]
      dsimp only
      rw [if_neg isChar, strtokEnd_more finish]

end Fuel

section Parse

variable {alloc : Nat → Bool}

/-- One more argument of a command. -/
theorem parseLoop_succ {fuel count : Nat} {token : Option Pointer} {arguments : List (List UInt8)} {state : Strtok}
    {result : List (List UInt8) × Strtok} (ran : parseLoop alloc (fuel + 1) count token arguments state = some result) :
    (token = none ∨ alloc count = false) ∧ result = (arguments, state) ∨
      ∃ here token' state', token = some here ∧ alloc count = true ∧
        strtok [32] fuel none (copyArgument here state).2 = some (token', state') ∧
        parseLoop alloc fuel (count + 1) token' (arguments ++ [(copyArgument here state).1]) state' = some result := by
  cases token with
  | none => exact .inl ⟨.inl rfl, (Option.some.inj ran).symm⟩
  | some here =>
    rw [parseLoop] at ran
    cases succeeds : alloc count with
    | false =>
      rw [succeeds, if_pos rfl] at ran
      exact .inl ⟨.inr rfl, (Option.some.inj ran).symm⟩
    | true =>
      rw [succeeds, if_neg Bool.true_eq_false.mp] at ran
      dsimp only at ran
      cases next : strtok [32] fuel none (copyArgument here state).2 with
      | none =>
        rw [next] at ran
        cases ran
      | some answer =>
        obtain ⟨token', state'⟩ := answer
        rw [next] at ran
        exact .inr ⟨here, token', state', rfl, rfl, next, ran⟩

theorem parseLoop_more {fuel count : Nat} {token : Option Pointer} {arguments : List (List UInt8)} {state : Strtok}
    {result : List (List UInt8) × Strtok} (ran : parseLoop alloc fuel count token arguments state = some result) :
    parseLoop alloc (fuel + 1) count token arguments state = some result := by
  induction fuel generalizing count token arguments state with
  | zero => cases ran
  | succ fuel ih =>
    rcases parseLoop_succ ran with ⟨rfl | fails, rfl⟩ | ⟨here, token', state', rfl, succeeds, next, rest⟩
    · rfl
    · cases token with
      | none => rfl
      | some here =>
        rw [parseLoop]
        exact if_pos fails
    · rw [parseLoop, if_neg (by rw [succeeds]; exact Bool.true_eq_false.mp)]
      dsimp only
      rw [strtok_more next]
      exact ih rest

theorem viosParseCommand_more {fuel frame : Nat} {command : List UInt8} {max : Int} {state : Strtok}
    {result : List (List UInt8) × Strtok} (ran : viosParseCommand alloc fuel frame command max state = some result) :
    viosParseCommand alloc (fuel + 1) frame command max state = some result := by
  unfold viosParseCommand at ran ⊢
  split at ran
  next large => rwa [if_pos large]
  next small =>
    rw [if_neg small]
    dsimp only at ran ⊢
    generalize Strtok.mk _ _ _ = copied at ran ⊢
    cases next : strtok [32] fuel (some ⟨frame, 0⟩) copied with
    | none =>
      rw [next] at ran
      cases ran
    | some answer =>
      rw [next] at ran
      rw [strtok_more next]
      exact parseLoop_more ran

end Parse

/-! ## Where `sp` points and what was read -/

section Frame

variable {delimiters : List UInt8}

theorem strtokSkip_reads {fuel : Nat} {scan start : Scan} (ran : strtokSkip delimiters fuel scan = some start) :
    ∀ place ∈ scan.read.reads, place ∈ start.reads := by
  induction fuel generalizing scan with
  | zero => cases ran
  | succ fuel ih =>
    rw [strtokSkip] at ran
    split at ran
    next stops => exact Option.some.inj ran ▸ fun place member => member
    next goesOn => exact fun place member => ih ran place (List.mem_append_left _ member)

theorem strtokEnd_reads {fuel : Nat} {scan stop : Scan} (ran : strtokEnd delimiters fuel scan = some stop) :
    ∀ place ∈ scan.reads, place ∈ stop.reads := by
  induction fuel generalizing scan with
  | zero => cases ran
  | succ fuel ih =>
    intro place member
    rw [strtokEnd] at ran
    split at ran
    next nul => exact Option.some.inj ran ▸ List.mem_append_left _ member
    next isChar =>
      split at ran
      next found => exact Option.some.inj ran ▸ List.mem_append_left _ member
      next goesOn => exact ih ran place (List.mem_append_left _ member)

theorem mem_leave {state : Strtok} {buffer : Nat} {scan : Scan} {sp : Option Pointer} {place : Int}
    (member : place ∈ scan.reads) : Pointer.mk buffer place ∈ (state.leave buffer scan sp).reads :=
  List.mem_append_right _ (List.mem_map_of_mem member)

/-- A call reads the place it begins at, and `sp` stays in that buffer. -/
theorem strtok_frame {fuel : Nat} {str : Option Pointer} {state : Strtok} {token : Option Pointer} {state' : Strtok}
    (ran : strtok delimiters fuel str state = some (token, state')) :
    (∀ place ∈ state.reads, place ∈ state'.reads) ∧ (∀ p ∈ state.sp.or str, p ∈ state'.reads) ∧
      ∀ q ∈ state'.sp, ∃ p ∈ state.sp.or str, q.buffer = p.buffer := by
  cases walks : state.sp.or str with
  | none =>
    rw [strtok_idle walks] at ran
    obtain ⟨rfl, rfl⟩ := Prod.mk.inj (Option.some.inj ran)
    have idle := (Option.or_eq_none_iff.mp walks).1
    refine ⟨fun place member => member, (fun p member => by cases member), fun q member => ?_⟩
    rw [idle] at member
    cases member
  | some p =>
    obtain ⟨start, skip, ended⟩ := strtok_walks walks ran
    have first := strtokSkip_reads skip p.offset (List.mem_append_right _ List.mem_cons_self)
    rcases ended with ⟨nul, rfl, rfl⟩ | ⟨isChar, stop, finish, rfl, rfl⟩
    · refine ⟨fun place member => List.mem_append_left _ member, fun q member => ?_, (fun q member => by cases member)⟩
      cases member
      exact mem_leave first
    · refine ⟨fun place member => List.mem_append_left _ member, fun q member => ?_, fun q member => ?_⟩
      · cases member
        exact mem_leave (strtokEnd_reads finish _ first)
      · cases member
        exact ⟨p, rfl, rfl⟩

theorem parseLoop_frame {alloc : Nat → Bool} {fuel count : Nat} {token : Option Pointer}
    {arguments result : List (List UInt8)} {state state' : Strtok}
    (ran : parseLoop alloc fuel count token arguments state = some (result, state')) :
    (∀ place ∈ state.reads, place ∈ state'.reads) ∧ ∀ q ∈ state'.sp, ∃ p ∈ state.sp, q.buffer = p.buffer := by
  induction fuel generalizing count token arguments state with
  | zero => cases ran
  | succ fuel ih =>
    rcases parseLoop_succ ran with ⟨-, same⟩ | ⟨here, token', next, rfl, -, called, rest⟩
    · obtain ⟨rfl, rfl⟩ := Prod.mk.inj same
      exact ⟨fun place member => member, fun q member => ⟨q, member, rfl⟩⟩
    · obtain ⟨reads, -, sp⟩ := strtok_frame called
      obtain ⟨readsRest, spRest⟩ := ih rest
      refine ⟨fun place member => readsRest place (reads place (List.mem_append_left _ member)), fun q member => ?_⟩
      obtain ⟨p, inNext, same⟩ := spRest q member
      obtain ⟨o, inState, same'⟩ := sp p inNext
      rw [Option.or_none] at inState
      exact ⟨o, inState, same.trans same'⟩

/-- When a tokenisation is in progress, the call reads where `sp` points. -/
theorem viosParseCommand_frame {alloc : Nat → Bool} {fuel frame : Nat} {command : List UInt8} {max : Int}
    {result : List (List UInt8)} {state state' : Strtok}
    (ran : viosParseCommand alloc fuel frame command max state = some (result, state')) :
    (max < 1025 → ∀ p ∈ state.sp, p ∈ state'.reads) ∧
      ∀ q ∈ state'.sp, q.buffer = frame ∨ ∃ p ∈ state.sp, q.buffer = p.buffer := by
  unfold viosParseCommand at ran
  split at ran
  next large =>
    obtain ⟨rfl, rfl⟩ := Prod.mk.inj (Option.some.inj ran)
    exact ⟨fun small => absurd large (by omega), fun q member => .inr ⟨q, member, rfl⟩⟩
  next small =>
    dsimp only at ran
    cases next : strtok [32] fuel (some ⟨frame, 0⟩)
        { state with memory := Function.update state.memory frame (storeString (state.memory frame) (command.take 1025)) } with
    | none =>
      rw [next] at ran
      cases ran
    | some answer =>
      obtain ⟨token, between⟩ := answer
      rw [next] at ran
      obtain ⟨-, first, sp⟩ := strtok_frame next
      obtain ⟨reads, spRest⟩ := parseLoop_frame ran
      refine ⟨fun _ p member => reads p (first p ?_), fun q member => ?_⟩
      · exact Option.mem_def.mpr (by rw [Option.mem_def.mp member]; rfl)
      · obtain ⟨p, inBetween, same⟩ := spRest q member
        obtain ⟨o, inState, same'⟩ := sp p inBetween
        rw [same, same']
        change o ∈ state.sp.or (some ⟨frame, 0⟩) at inState
        rcases Option.or_eq_some_iff.mp inState with before | ⟨-, here⟩
        · exact .inr ⟨o, before, rfl⟩
        · cases here
          exact .inl rfl

end Frame

/-! ## Runs -/

/-- The static `sp`, and how many buffers there have been. -/
structure Tokeniser where
  sp : Option Pointer
  buffers : Nat

/-- A call of `vios_parse_command` with its list and the places that `strtok` and `strncpy` read in it, a call of
`strtok`, and a new buffer of the program. -/
inductive Event
  | parse (alloc : Nat → Bool) (command : List UInt8) (max : Int) (arguments : List (List UInt8)) (reads : List Pointer)
  | strtok (str : Option Pointer) (delimiters : List UInt8)
  | buffer

/-- The memory a call finds is any; the buffers it may be given are the ones that there are. -/
def Step (state : Tokeniser) : Event → Tokeniser → Prop
  | .parse alloc command max arguments reads, state' =>
    (∀ c ∈ command, c ≠ 0) ∧ ∃ memory fuel after,
      viosParseCommand alloc fuel state.buffers command max ⟨memory, state.sp, []⟩ = some (arguments, after) ∧
        reads = after.reads ∧ state' = ⟨after.sp, state.buffers + 1⟩
  | .strtok str delimiters, state' =>
    (∀ p ∈ str, p.buffer < state.buffers) ∧ ∃ memory fuel token after,
      strtok delimiters fuel str ⟨memory, state.sp, []⟩ = some (token, after) ∧ state' = ⟨after.sp, state.buffers⟩
  | .buffer, state' => state' = { state with buffers := state.buffers + 1 }

/-- The list is the one of the command, `max` and the allocations, and only `scommand` is read. -/
def Independent (state : Tokeniser) : Event → Prop
  | .parse alloc command max arguments reads =>
    arguments = parsedCommand alloc command max ∧ ∀ p ∈ reads, p.buffer = state.buffers
  | _ => True

/-- A command is parsed when no tokenisation is in progress, or is refused. -/
def Idle (state : Tokeniser) : Event → Prop
  | .parse _ _ max _ _ => state.sp = none ∨ 1025 ≤ max
  | _ => True

/-- `sp` points to a buffer that there is. -/
def SpKnown (state : Tokeniser) : Prop := ∀ p ∈ state.sp, p.buffer < state.buffers

theorem step_spKnown (state : Tokeniser) (event : Event) (state' : Tokeniser) (step : Step state event state')
    (known : SpKnown state) : SpKnown state' := by
  cases event with
  | parse alloc command max arguments reads =>
    obtain ⟨-, memory, fuel, after, ran, -, rfl⟩ := step
    intro q member
    rcases (viosParseCommand_frame ran).2 q member with here | ⟨p, before, same⟩
    · exact Nat.lt_succ_of_le (Nat.le_of_eq here)
    · exact same ▸ Nat.lt_succ_of_lt (known p before)
  | strtok str delimiters =>
    obtain ⟨given, memory, fuel, token, after, ran, rfl⟩ := step
    intro q member
    obtain ⟨p, walks, same⟩ := (strtok_frame ran).2.2 q member
    rcases Option.or_eq_some_iff.mp walks with before | ⟨-, here⟩
    · exact same ▸ known p before
    · exact same ▸ given p here
  | buffer =>
    subst step
    exact fun p member => Nat.lt_succ_of_lt (known p member)

/-- What a command is parsed into when `sp` is zero. -/
theorem viosParseCommand_idle {alloc : Nat → Bool} {fuel frame : Nat} {command : List UInt8}
    (noNul : ∀ c ∈ command, c ≠ 0) {max : Int} {memory : Nat → Int → UInt8} {arguments : List (List UInt8)}
    {after : Strtok}
    (ran : viosParseCommand alloc fuel frame command max ⟨memory, none, []⟩ = some (arguments, after)) :
    arguments = parsedCommand alloc command max ∧ ∀ p ∈ after.reads, p.buffer = frame := by
  obtain ⟨fuel', after', ran', reads, -⟩ := viosParseCommand_parses ⟨memory, none, []⟩ rfl alloc frame
    noNul max
  have same := fuel_unique (f := fun fuel => viosParseCommand alloc fuel frame command max ⟨memory, none, []⟩)
    (fun fuel result => viosParseCommand_more) ran ran'
  obtain ⟨rfl, rfl⟩ := Prod.mk.inj same
  exact ⟨rfl, fun p member => ((reads p member).resolve_left List.not_mem_nil).1⟩

theorem step_independent_iff (state : Tokeniser) (event : Event) (state' : Tokeniser) (step : Step state event state')
    (known : SpKnown state) : Independent state event ↔ Idle state event := by
  cases event with
  | parse alloc command max arguments reads =>
    obtain ⟨noNul, memory, fuel, after, ran, rfl, -⟩ := step
    by_cases large : 1025 ≤ max
    · refine ⟨fun _ => .inr large, fun _ => ?_⟩
      rw [viosParseCommand, if_pos large] at ran
      obtain ⟨rfl, rfl⟩ := Prod.mk.inj (Option.some.inj ran)
      exact ⟨(if_pos large).symm, List.forall_mem_nil _⟩
    · cases isSp : state.sp with
      | none =>
        rw [isSp] at ran
        exact ⟨fun _ => .inl isSp, fun _ => viosParseCommand_idle noNul ran⟩
      | some p =>
        refine ⟨fun independent => ?_, fun idle => ?_⟩
        · have read := (viosParseCommand_frame ran).1 (by omega) p isSp
          exact absurd (independent.2 p read) (Nat.ne_of_lt (known p isSp))
        · rcases idle with none | refused
          · cases isSp.symm.trans none
          · exact absurd refused large
  | strtok => exact Iff.rfl
  | buffer => exact Iff.rfl

/-- In a run, each command is parsed by itself just when no tokenisation is in progress at any. -/
theorem independent_iff_idle {state : Tokeniser} (idle : state.sp = none) {run : List (Event × Tokeniser)}
    (isRun : IsRun Step state run) : EveryStep Independent state run ↔ EveryStep Idle state run := by
  have known : SpKnown state := by
    intro p member
    rw [idle] at member
    cases member
  exact everyStep_congr (everyStep_of_inv step_spKnown step_independent_iff isRun known)

/-- `ls` and then `cat x`, with all allocations. -/
theorem independent_two_commands : ∃ run : List (Event × Tokeniser), run.length = 2 ∧ IsRun Step ⟨none, 0⟩ run ∧
    EveryStep Independent ⟨none, 0⟩ run := by
  obtain ⟨fuel, after, ran, -, done⟩ := viosParseCommand_parses ⟨fun _ _ => 0, none, []⟩ rfl (fun _ => true) 0
    (show ∀ c ∈ ([108, 115] : List UInt8), c ≠ 0 by simp) 80
  obtain ⟨fuel', after', ran', -⟩ := viosParseCommand_parses ⟨fun _ _ => 0, none, []⟩ rfl (fun _ => true) 1
    (show ∀ c ∈ ([99, 97, 116, 32, 120] : List UInt8), c ≠ 0 by simp) 80
  have isRun : IsRun Step ⟨none, 0⟩
      [(.parse (fun _ => true) [108, 115] 80 (parsedCommand (fun _ => true) [108, 115] 80) after.reads, ⟨none, 1⟩),
        (.parse (fun _ => true) [99, 97, 116, 32, 120] 80
          (parsedCommand (fun _ => true) [99, 97, 116, 32, 120] 80) after'.reads, ⟨after'.sp, 2⟩)] :=
    ⟨⟨by simp, _, fuel, after, ran, rfl, by rw [done fun _ => rfl]⟩,
      ⟨by simp, _, fuel', after', ran', rfl, rfl⟩, trivial⟩
  exact ⟨_, rfl, isRun, (independent_iff_idle rfl isRun).mpr ⟨.inl rfl, .inl rfl, trivial⟩⟩

/-- `a b c` without memory for its second argument, and then `x`: the list is `c`. -/
theorem independent_interrupted : ∃ run : List (Event × Tokeniser), IsRun Step ⟨none, 0⟩ run ∧
    ¬ EveryStep Independent ⟨none, 0⟩ run := by
  have first : (viosParseCommand (fun count => count = 0) 9 0 [97, 32, 98, 32, 99] 80 ⟨fun _ _ => 0, none, []⟩).map
      (fun result => (result.1, result.2.sp)) = some ([[97]], some ⟨0, 4⟩) := by decide
  have second : (viosParseCommand (fun _ => true) 9 1 [120] 80
      ⟨fun _ => memoryOf [97, 0, 98, 0, 99], some ⟨0, 4⟩, []⟩).map (fun result => (result.1, result.2.sp)) =
      some ([[99]], none) := by decide
  obtain ⟨⟨arguments, after⟩, ran, here⟩ := Option.map_eq_some_iff.mp first
  obtain ⟨⟨arguments', after'⟩, ran', here'⟩ := Option.map_eq_some_iff.mp second
  obtain ⟨rfl, sp⟩ := Prod.mk.inj here
  obtain ⟨rfl, sp'⟩ := Prod.mk.inj here'
  refine ⟨[(.parse (fun count => count = 0) [97, 32, 98, 32, 99] 80 [[97]] after.reads, ⟨some ⟨0, 4⟩, 1⟩),
    (.parse (fun _ => true) [120] 80 [[99]] after'.reads, ⟨none, 2⟩)],
    ⟨⟨by simp, _, 9, after, ran, rfl, by rw [← sp]⟩, ⟨by simp, _, 9, after', ran', rfl, by rw [← sp']⟩, trivial⟩, ?_⟩
  rintro ⟨-, ⟨list, -⟩, -⟩
  exact absurd list (by decide)

end ViOS.User
