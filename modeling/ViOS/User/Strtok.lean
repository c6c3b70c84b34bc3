import ViOS.Lib.Tokens
import ViOS.User.Stdlib

/-! # `strtok` and `vios_parse_command`

`strtok` walks over the delimiters in front of a token and then to its end, where it puts a NUL; the
static `sp` is kept from call to call, and is zero again when no token was left.  The tokens of
`vios_parse_command` are copied into a list whose nodes are allocated on the way.

* `strtok`, `viosParseCommand` — the code, on buffers.
* `Answers` — what a call of `strtok` leaves, and the tokens that are still to come.
* `Tokenises` — the calls up to the one that returns zero.
* `strtok_words` — the tokens are returned in their order, and a command is parsed into its words.
-/

namespace ViOS.User

open ViOS.Lib

/-! ## The code -/

/-- A place in a buffer. -/
structure Pointer where
  buffer : Nat
  offset : Int
  deriving DecidableEq

/-- A pointer that walks over the text of a buffer, and the places it has read. -/
structure Scan where
  text : Int → UInt8
  place : Int
  reads : List Int

def Scan.read (scan : Scan) : Scan := { scan with reads := scan.reads ++ [scan.place] }

def Scan.next (scan : Scan) : Scan := { scan with place := scan.place + 1 }

/-- `*sp = '\0'`. -/
def Scan.terminate (scan : Scan) : Scan := { scan with text := Function.update scan.text scan.place 0 }

/-- The loop over the delimiters in front of a token.  The inner loop ends with the index of the delimiter, or
with `len`.  There is no result when the loop is not over after `fuel` rounds. -/
def strtokSkip (delimiters : List UInt8) : (fuel : Nat) → Scan → Option Scan
  | 0, _ => none
  | fuel + 1, scan =>
    let scan := scan.read
    if delimiters.idxOf (scan.text scan.place) = delimiters.length then some scan
    else strtokSkip delimiters fuel scan.next

/-- The loop that finds the end of the token. -/
def strtokEnd (delimiters : List UInt8) : (fuel : Nat) → Scan → Option Scan
  | 0, _ => none
  | fuel + 1, scan =>
    let scan := scan.read
    if scan.text scan.place = 0 then some scan
    else if delimiters.idxOf (scan.text scan.place) < delimiters.length then some scan.terminate.next
    else strtokEnd delimiters fuel scan.next

/-- The buffers, the static `sp`, and the places that were read. -/
structure Strtok where
  memory : Nat → Int → UInt8
  sp : Option Pointer
  reads : List Pointer

def Strtok.scan (state : Strtok) (p : Pointer) : Scan := ⟨state.memory p.buffer, p.offset, []⟩

/-- The state behind a walk over a buffer. -/
def Strtok.leave (state : Strtok) (buffer : Nat) (scan : Scan) (sp : Option Pointer) : Strtok where
  memory := Function.update state.memory buffer scan.text
  sp
  reads := state.reads ++ scan.reads.map (Pointer.mk buffer)

/-- `strtok`; `str` is not looked at when `sp` is not zero. -/
def strtok (delimiters : List UInt8) (fuel : Nat) (str : Option Pointer) (state : Strtok) :
    Option (Option Pointer × Strtok) :=
  match state.sp.or str with
  | none => some (none, state)
  | some p =>
    match strtokSkip delimiters fuel (state.scan p) with
    | none => none
    | some start =>
      if start.text start.place = 0 then some (none, state.leave p.buffer start none)
      else
        match strtokEnd delimiters fuel start with
        | none => none
        | some stop => some (some ⟨p.buffer, start.place⟩, state.leave p.buffer stop (some ⟨p.buffer, stop.place⟩))

/-- The bytes that `strncpy` copies. -/
def strncpyBytes (text : Int → UInt8) : (count : Nat) → (src : Int) → List UInt8
  | 0, _ => []
  | count + 1, src => if text src = 0 then [] else text src :: strncpyBytes text count (src + 1)

/-- A buffer with a string and its NUL at its beginning. -/
def storeString (text : Int → UInt8) (string : List UInt8) (place : Int) : UInt8 :=
  if place = string.length then 0
  else if 0 ≤ place then string.getD place.toNat (text place)
  else text place

/-- `strncpy(argument, token, 512)`, with the places it reads. -/
def copyArgument (token : Pointer) (state : Strtok) : List UInt8 × Strtok :=
  let argument := strncpyBytes (state.memory token.buffer) 512 token.offset
  let reads := (List.range (min (argument.length + 1) 512)).map fun i : Nat => Pointer.mk token.buffer (token.offset + i)
  (argument, { state with reads := state.reads ++ reads })

/-- The nodes of the list, the root before the others; `alloc` says which calls of `vios_malloc` succeed. -/
def parseLoop (alloc : Nat → Bool) : (fuel count : Nat) → (token : Option Pointer) → (arguments : List (List UInt8)) →
    Strtok → Option (List (List UInt8) × Strtok)
  | 0, _, _, _, _ => none
  | fuel + 1, count, token, arguments, state =>
    match token with
    | none => some (arguments, state)
    | some token =>
      if alloc count = false then some (arguments, state)
      else
        let (argument, state) := copyArgument token state
        match strtok [32] fuel none state with
        | none => none
        | some (token, state) => parseLoop alloc fuel (count + 1) token (arguments ++ [argument]) state

/-- `vios_parse_command`, whose `scommand` is the buffer `frame`; the result is the list of the arguments, and
empty for the null pointer. -/
def viosParseCommand (alloc : Nat → Bool) (fuel frame : Nat) (command : List UInt8) (max : Int) (state : Strtok) :
    Option (List (List UInt8) × Strtok) :=
  if 1025 ≤ max then some ([], state)
  else
    let scommand := storeString (state.memory frame) (command.take 1025)
    let state := { state with memory := Function.update state.memory frame scommand }
    match strtok [32] fuel (some ⟨frame, 0⟩) state with
    | none => none
    | some (token, state) => parseLoop alloc fuel 0 token [] state

/-! ## Tokenising -/

/-- Whether a byte is one of the delimiters. -/
def isDelimiter (delimiters : List UInt8) (c : UInt8) : Bool := delimiters.contains c

/-- The new places that were read lie in a part of one buffer. -/
def ReadsIn (buffer : Nat) (first last : Int) (before after : Strtok) : Prop :=
  ∀ place ∈ after.reads, place ∈ before.reads ∨ place.buffer = buffer ∧ first ≤ place.offset ∧ place.offset ≤ last

/-- The calls `strtok(str, delimiters)`, `strtok(NULL, delimiters)` and so on up to the one that returns zero, with
the tokens that are returned and what each shows. -/
inductive Tokenises (delimiters : List UInt8) : Option Pointer → Strtok → List (Pointer × List UInt8) → Strtok → Prop
  | over {fuel : Nat} {str : Option Pointer} {state state' : Strtok} :
    strtok delimiters fuel str state = some (none, state') → Tokenises delimiters str state [] state'
  | token {fuel : Nat} {str : Option Pointer} {state state' last : Strtok} {p : Pointer} {word : List UInt8}
      {rest : List (Pointer × List UInt8)} :
    strtok delimiters fuel str state = some (some p, state') → ShowsString (state'.memory p.buffer) p.offset word →
    Tokenises delimiters none state' rest last → Tokenises delimiters str state ((p, word) :: rest) last

/-! ## The two loops -/

section Loops

variable {delimiters : List UInt8} (noNul : 0 ∉ delimiters) {scan : Scan} {string : List UInt8}

theorem idxOf_eq_length {c : UInt8} : delimiters.idxOf c = delimiters.length ↔ isDelimiter delimiters c = false := by
  rw [List.idxOf_eq_length_iff, isDelimiter, ← Bool.not_eq_true, List.contains_iff_mem]

theorem idxOf_lt_length {c : UInt8} : delimiters.idxOf c < delimiters.length ↔ isDelimiter delimiters c = true := by
  rw [List.idxOf_lt_length_iff, isDelimiter, List.contains_iff_mem]

/-- What the first loop leaves: it stands at the rest of the string behind the delimiters. -/
structure Skipped (delimiters : List UInt8) (scan : Scan) (string : List UInt8) (start : Scan) (rest : List UInt8) :
    Prop where
  text : start.text = scan.text
  shows : ShowsString start.text start.place rest
  tokens : tokens (isDelimiter delimiters) scan.place string = tokens (isDelimiter delimiters) start.place rest
  stopped : ∀ c ∈ rest.head?, isDelimiter delimiters c = false
  after : scan.place ≤ start.place
  ends : start.place + rest.length = scan.place + string.length
  reads : ∀ place ∈ start.reads, place ∈ scan.reads ∨ scan.place ≤ place ∧ place ≤ scan.place + string.length

theorem mem_read {place : Int} (member : place ∈ scan.read.reads) : place ∈ scan.reads ∨ place = scan.place := by
  rcases List.mem_append.mp member with before | last
  · exact .inl before
  · exact .inr (List.mem_singleton.mp last)

/-- The place that is read lies in the string or is its end. -/
theorem mem_read_inside {place : Int} (length : Nat) (member : place ∈ scan.read.reads) :
    place ∈ scan.reads ∨ scan.place ≤ place ∧ place ≤ scan.place + length := by
  rcases mem_read member with before | rfl
  · exact .inl before
  · exact .inr ⟨Int.le_refl _, by omega⟩

theorem isDelimiter_nul (noNul : 0 ∉ delimiters) : isDelimiter delimiters 0 = false := by
  rw [isDelimiter, ← Bool.not_eq_true, List.contains_iff_mem]
  exact noNul

include noNul in
theorem strtokSkip_skips (shown : ShowsString scan.text scan.place string) {fuel : Nat}
    (enough : string.length < fuel) :
    ∃ start rest, strtokSkip delimiters fuel scan = some start ∧ Skipped delimiters scan string start rest := by
  obtain ⟨fuel, rfl⟩ : ∃ rest, fuel = rest + 1 := ⟨fuel - 1, by omega⟩
  induction string generalizing scan fuel with
  | nil =>
    have nul := isDelimiter_nul noNul
    rw [← shown.nul] at nul
    refine ⟨scan.read, [], if_pos (idxOf_eq_length.mpr nul), ?_⟩
    exact {
      text := rfl
      shows := shown
      tokens := rfl
      stopped := fun c head => by cases head
      after := Int.le_refl _
      ends := rfl
      reads := fun place => mem_read_inside _ }
  | cons c string ih =>
    cases isDelim : isDelimiter delimiters c with
    | false =>
      refine ⟨scan.read, c :: string, if_pos (idxOf_eq_length.mpr (shown.head ▸ isDelim)), ?_⟩
      exact {
        text := rfl
        shows := shown
        tokens := rfl
        stopped := fun d head => by cases head; exact isDelim
        after := Int.le_refl _
        ends := rfl
        reads := fun place => mem_read_inside _ }
    | true =>
      rw [List.length_cons] at enough
      obtain ⟨fuel, rfl⟩ : ∃ rest, fuel = rest + 1 := ⟨fuel - 1, by omega⟩
      have shownTail : ShowsString scan.read.next.text scan.read.next.place string := shown.tail
      obtain ⟨start, rest, ran, skipped⟩ := ih shownTail fuel (by omega)
      have goesOn : ¬ delimiters.idxOf (scan.text scan.place) = delimiters.length := by
        rw [idxOf_eq_length, shown.head, isDelim]
        exact Bool.true_eq_false.mp
      have length : scan.place + 1 + string.length = scan.place + (string.length + 1 : Nat) := by omega
      refine ⟨start, rest, (if_neg goesOn).trans ran, ?_⟩
      exact {
        text := skipped.text
        shows := skipped.shows
        tokens := (tokens_sep isDelim _ _).trans skipped.tokens
        stopped := skipped.stopped
        after := Int.le_trans (Int.le_of_lt (Int.lt_succ scan.place)) skipped.after
        ends := skipped.ends.trans length
        reads := fun place member => by
          rcases skipped.reads place member with here | behind
          · exact mem_read_inside _ here
          · exact .inr ⟨by have := behind.1; exact Int.le_of_lt this, by rw [List.length_cons, ← length]; exact behind.2⟩ }

/-- What the second loop leaves: the word is terminated, and `sp` stands behind it. -/
structure Ended (delimiters : List UInt8) (scan : Scan) (string : List UInt8) (stop : Scan) (word rest : List UInt8) :
    Prop where
  shows : ShowsString stop.text scan.place word
  showsRest : ShowsString stop.text stop.place rest
  frame : ∀ place < scan.place, stop.text place = scan.text place
  clean : ∀ c ∈ word, isDelimiter delimiters c = false
  splits : ∃ behind, string = word ++ behind ∧ (∀ c ∈ behind.head?, isDelimiter delimiters c = true) ∧
    tokens (isDelimiter delimiters) (scan.place + word.length) behind =
      tokens (isDelimiter delimiters) stop.place rest
  after : scan.place + word.length ≤ stop.place
  ends : stop.place + rest.length = scan.place + string.length
  reads : ∀ place ∈ stop.reads, place ∈ scan.reads ∨ scan.place ≤ place ∧ place ≤ scan.place + string.length

theorem strtokEnd_ends (shown : ShowsString scan.text scan.place string) {fuel : Nat} (enough : string.length < fuel) :
    ∃ stop word rest, strtokEnd delimiters fuel scan = some stop ∧ Ended delimiters scan string stop word rest := by
  obtain ⟨fuel, rfl⟩ : ∃ rest, fuel = rest + 1 := ⟨fuel - 1, by omega⟩
  induction string generalizing scan fuel with
  | nil =>
    refine ⟨scan.read, [], [], if_pos shown.nul, ?_⟩
    exact {
      shows := shown
      showsRest := shown
      frame := fun _ _ => rfl
      clean := List.forall_mem_nil _
      splits := ⟨[], rfl, (fun c head => by cases head), rfl⟩
      after := Int.le_of_eq (Int.add_zero _)
      ends := rfl
      reads := fun place => mem_read_inside _ }
  | cons c string ih =>
    have isChar : scan.text scan.place ≠ 0 := shown.head ▸ shown.noNul c List.mem_cons_self
    cases isDelim : isDelimiter delimiters c with
    | true =>
      have found : delimiters.idxOf (scan.text scan.place) < delimiters.length := by
        rw [idxOf_lt_length, shown.head, isDelim]
      refine ⟨scan.read.terminate.next, [], string, (if_neg isChar).trans (if_pos found), ?_⟩
      exact {
        shows := showsString_nil (Function.update_self ..)
        showsRest := shown.tail.congr fun place behind =>
          Function.update_of_ne (Int.ne_of_gt (Int.lt_of_add_one_le behind)) _ _
        frame := fun place before => Function.update_of_ne (Int.ne_of_lt before) _ _
        clean := List.forall_mem_nil _
        splits := ⟨c :: string, rfl, (fun d head => by cases head; exact isDelim), by
          rw [tokens_sep isDelim, List.length_nil, Nat.cast_zero, Int.add_zero]
          rfl⟩
        after := by
          change scan.place + 0 ≤ scan.place + 1
          omega
        ends := by
          change scan.place + 1 + string.length = scan.place + (string.length + 1 : Nat)
          omega
        reads := fun place => mem_read_inside _ }
    | false =>
      rw [List.length_cons] at enough
      obtain ⟨fuel, rfl⟩ : ∃ rest, fuel = rest + 1 := ⟨fuel - 1, by omega⟩
      have shownTail : ShowsString scan.read.next.text scan.read.next.place string := shown.tail
      obtain ⟨stop, word, rest, ran, ended⟩ := ih shownTail fuel (by omega)
      have goesOn : ¬ delimiters.idxOf (scan.text scan.place) < delimiters.length := by
        rw [idxOf_lt_length, shown.head, isDelim]
        exact Bool.false_ne_true
      obtain ⟨behind, whole, isSep, same⟩ := ended.splits
      refine ⟨stop, c :: word, rest, (if_neg isChar).trans ((if_neg goesOn).trans ran), ?_⟩
      have step : scan.read.next.place = scan.place + 1 := rfl
      have shows := ended.shows
      have after := ended.after
      have ends := ended.ends
      rw [step] at shows same after ends
      have longer : scan.place + 1 + word.length = scan.place + (word.length + 1 : Nat) := by omega
      have whole' : scan.place + 1 + string.length = scan.place + (string.length + 1 : Nat) := by omega
      exact {
        shows := shows.cons ((ended.frame _ (Int.lt_succ _)).trans shown.head) (shown.noNul c List.mem_cons_self)
        showsRest := ended.showsRest
        frame := fun place before => ended.frame place (Int.lt_trans before (Int.lt_succ _))
        clean := List.forall_mem_cons.mpr ⟨isDelim, ended.clean⟩
        splits := ⟨behind, congrArg (c :: ·) whole, isSep, by rw [List.length_cons, ← longer, same]⟩
        after := by rwa [List.length_cons, ← longer]
        ends := by rwa [List.length_cons, ← whole']
        reads := fun place member => by
          rw [List.length_cons, ← whole']
          rcases ended.reads place member with here | inRest
          · have inside := mem_read_inside (string.length + 1) here
            rwa [← whole'] at inside
          · exact .inr ⟨Int.le_of_lt inRest.1, inRest.2⟩ }

end Loops

/-! ## One call -/

section Calls

variable {delimiters : List UInt8} (noNul : 0 ∉ delimiters)

/-- What a call in a buffer leaves: the token it returns, and the tokens that are left of a string that ends at
`last`. -/
inductive Answers (delimiters : List UInt8) (buffer : Nat) (origin last : Int) (state : Strtok) :
    Option Pointer → List (Int × List UInt8) → Prop
  | over : state.sp = none → Answers delimiters buffer origin last state none []
  | token {first place : Int} {word rest : List UInt8} : state.sp = some ⟨buffer, place⟩ →
    ShowsString (state.memory buffer) first word → ShowsString (state.memory buffer) place rest →
    origin ≤ first → first + word.length ≤ place → place + rest.length = last →
    Answers delimiters buffer origin last state (some ⟨buffer, first⟩)
      ((first, word) :: tokens (isDelimiter delimiters) place rest)

theorem ReadsIn.trans {buffer : Nat} {first last : Int} {before between after : Strtok}
    (reads : ReadsIn buffer first last before between) (more : ReadsIn buffer first last between after) :
    ReadsIn buffer first last before after := by
  intro place member
  rcases more place member with here | inside
  · exact reads place here
  · exact .inr inside

theorem readsIn_leave (state : Strtok) {buffer : Nat} {scan : Scan} {first last : Int} (sp : Option Pointer)
    (inside : ∀ place ∈ scan.reads, first ≤ place ∧ place ≤ last) :
    ReadsIn buffer first last state (state.leave buffer scan sp) := by
  intro place member
  rcases List.mem_append.mp member with before | walk
  · exact .inl before
  · obtain ⟨offset, walked, rfl⟩ := List.mem_map.mp walk
    exact .inr ⟨rfl, inside offset walked⟩

theorem Strtok.leave_memory (state : Strtok) (buffer : Nat) (scan : Scan) (sp : Option Pointer) :
    (state.leave buffer scan sp).memory buffer = scan.text := Function.update_self ..

include noNul in
/-- A call that walks over a string answers with its first token. -/
theorem strtok_answers (state : Strtok) (str : Option Pointer) {p : Pointer} {string : List UInt8} {origin : Int}
    (walks : state.sp.or str = some p) (shown : ShowsString (state.memory p.buffer) p.offset string)
    (lower : origin ≤ p.offset) (fuel : Nat) (enough : string.length < fuel) :
    ∃ token state', strtok delimiters fuel str state = some (token, state') ∧
      Answers delimiters p.buffer origin (p.offset + string.length) state' token
        (tokens (isDelimiter delimiters) p.offset string) ∧
      ReadsIn p.buffer origin (p.offset + string.length) state state' := by
  have shownScan : ShowsString (state.scan p).text (state.scan p).place string := shown
  obtain ⟨start, rest, ran, skipped⟩ := strtokSkip_skips noNul shownScan enough
  have reads : ∀ place ∈ start.reads, origin ≤ place ∧ place ≤ p.offset + string.length := by
    intro place member
    have inside := (skipped.reads place member).resolve_left List.not_mem_nil
    exact ⟨Int.le_trans lower inside.1, inside.2⟩
  have same := skipped.tokens
  change tokens _ p.offset string = _ at same
  unfold strtok
  rw [walks]
  dsimp only
  rw [ran, same]
  dsimp only
  cases rest with
  | nil =>
    rw [if_pos skipped.shows.nul]
    exact ⟨none, _, rfl, .over rfl, readsIn_leave state none reads⟩
  | cons c rest =>
    have isChar : start.text start.place ≠ 0 :=
      skipped.shows.head ▸ skipped.shows.noNul c List.mem_cons_self
    have after := skipped.after
    have ends := skipped.ends
    change p.offset ≤ start.place at after
    change start.place + (c :: rest).length = p.offset + string.length at ends
    obtain ⟨stop, word, left, ran', ended⟩ : ∃ stop word left, strtokEnd delimiters fuel start = some stop ∧
        Ended delimiters start (c :: rest) stop word left := strtokEnd_ends skipped.shows (by omega)
    obtain ⟨behind, whole, isSep, same'⟩ := ended.splits
    have someWord : word ≠ [] := by
      rintro rfl
      have isDelim := isSep c (by rw [← List.nil_append behind, ← whole]; rfl)
      exact absurd ((skipped.stopped c rfl).symm.trans isDelim) Bool.false_ne_true
    rw [if_neg isChar, ran', whole, tokens_word someWord ended.clean isSep, same']
    dsimp only
    refine ⟨_, _, rfl, .token rfl ?_ ?_ (Int.le_trans lower after) ended.after ?_, readsIn_leave state _ ?_⟩
    · rw [Strtok.leave_memory]
      exact ended.shows
    · rw [Strtok.leave_memory]
      exact ended.showsRest
    · exact ended.ends.trans ends
    · intro place member
      rcases ended.reads place member with before | inside
      · exact reads place before
      · exact ⟨by omega, by omega⟩

include noNul in
/-- The calls behind one that has answered return the tokens that are left. -/
theorem tokenises_of_answers {buffer : Nat} {origin last : Int} {left : List (Int × List UInt8)}
    {str token : Option Pointer} {fuel : Nat} {before state : Strtok}
    (ran : strtok delimiters fuel str before = some (token, state))
    (answers : Answers delimiters buffer origin last state token left) :
    ∃ state', Tokenises delimiters str before (left.map fun token => (⟨buffer, token.1⟩, token.2)) state' ∧
      state'.sp = none ∧ ReadsIn buffer origin last state state' := by
  induction left generalizing str token fuel before state with
  | nil =>
    cases answers with
    | «over» idle => exact ⟨state, .over ran, idle, fun place => .inl⟩
  | cons head left ih =>
    generalize whole : head :: left = all at answers
    cases answers with
    | «over» => cases whole
    | @token first place word rest sp shows showsRest lower after ends =>
      obtain ⟨rfl, rfl⟩ := List.cons.inj whole
      have lower' : origin ≤ place := Int.le_trans lower (by omega)
      obtain ⟨token, next, ran', answers, reads⟩ := strtok_answers noNul state none (by rw [sp]; rfl)
        showsRest lower' _ (Nat.lt_succ_self _)
      rw [ends] at answers reads
      obtain ⟨state', tokenises, idle, more⟩ := ih ran' answers
      exact ⟨state', .token ran shows tokenises, idle, reads.trans more⟩

end Calls

/-! ## Parsing a command -/

/-- The words a command is split into; a command that is too long for `scommand` is cut off. -/
def commandWords (command : List UInt8) : List (List UInt8) := words (isDelimiter [32]) (command.take 1025)

/-- The first elements, as long as the allocations succeed. -/
def allocated {β : Type*} (alloc : Nat → Bool) : (count : Nat) → List β → List β
  | _, [] => []
  | count, x :: rest => if alloc count then x :: allocated alloc (count + 1) rest else []

/-- The arguments a command is parsed into; an argument that is too long is cut off. -/
def parsedCommand (alloc : Nat → Bool) (command : List UInt8) (max : Int) : List (List UInt8) :=
  if 1025 ≤ max then [] else (allocated alloc 0 (commandWords command)).map (List.take 512)

section Parse

theorem strncpyBytes_shows {text : Int → UInt8} {src : Int} {string : List UInt8} (shown : ShowsString text src string)
    (count : Nat) : strncpyBytes text count src = string.take count := by
  induction count generalizing src string with
  | zero => rfl
  | succ count ih =>
    cases string with
    | nil => exact if_pos shown.nul
    | cons c string =>
      have isChar := shown.noNul c List.mem_cons_self
      rw [strncpyBytes, shown.head, if_neg isChar, ih shown.tail]
      rfl

theorem storeString_shows (text : Int → UInt8) {string : List UInt8} (noNul : ∀ c ∈ string, c ≠ 0) :
    ShowsString (storeString text string) 0 string where
  shows k inside := by
    rw [storeString, Int.zero_add, if_neg (by omega), if_pos (Int.natCast_nonneg k), Int.toNat_natCast,
      List.getD_eq_getElem?_getD, List.getElem?_eq_getElem inside, Option.getD_some]
  terminated := by rw [Int.zero_add, storeString, if_pos rfl]
  noNul := noNul

/-- An argument is the word that memory shows, and no byte is read behind its NUL. -/
theorem copyArgument_shows (token : Pointer) {state : Strtok} {word : List UInt8} {origin last : Int}
    (shown : ShowsString (state.memory token.buffer) token.offset word) (lower : origin ≤ token.offset)
    (upper : token.offset + word.length ≤ last) :
    (copyArgument token state).1 = word.take 512 ∧ (copyArgument token state).2.memory = state.memory ∧
      (copyArgument token state).2.sp = state.sp ∧
      ReadsIn token.buffer origin last state (copyArgument token state).2 := by
  have argument := strncpyBytes_shows shown 512
  refine ⟨argument, rfl, rfl, fun place member => ?_⟩
  rcases List.mem_append.mp member with before | copied
  · exact .inl before
  · obtain ⟨i, inside, rfl⟩ := List.mem_map.mp copied
    rw [List.mem_range, argument, List.length_take] at inside
    exact .inr ⟨rfl, by change origin ≤ token.offset + i; omega, by change token.offset + i ≤ last; omega⟩

/-- The loop lists the tokens that are left, as long as the allocations succeed; when they all do, the last call of
`strtok` has returned zero. -/
theorem parseLoop_lists (alloc : Nat → Bool) {buffer : Nat} {origin last : Int} {left : List (Int × List UInt8)}
    {token : Option Pointer} {state : Strtok} (answers : Answers [32] buffer origin last state token left)
    (ordered : origin ≤ last) (count fuel : Nat) (enough : last - origin + left.length < fuel) (arguments : List (List UInt8)) :
    ∃ state', parseLoop alloc fuel count token arguments state =
        some (arguments ++ (allocated alloc count (left.map Prod.snd)).map (List.take 512), state') ∧
      ReadsIn buffer origin last state state' ∧ ((∀ count, alloc count = true) → state'.sp = none) := by
  induction left generalizing token state count fuel arguments with
  | nil =>
    cases answers with
    | «over» idle =>
      obtain ⟨fuel, rfl⟩ : ∃ rest, fuel = rest + 1 := ⟨fuel - 1, by omega⟩
      exact ⟨state, congrArg (fun all => some (all, state)) (List.append_nil _).symm, fun place => .inl, fun _ => idle⟩
  | cons head left ih =>
    generalize whole : head :: left = all at answers
    cases answers with
    | «over» => cases whole
    | @token first place word rest sp shows showsRest lower after ends =>
      obtain ⟨rfl, rfl⟩ := List.cons.inj whole
      rw [List.length_cons] at enough
      obtain ⟨fuel, rfl⟩ : ∃ rest, fuel = rest + 1 := ⟨fuel - 1, by omega⟩
      rw [List.map_cons, allocated, parseLoop]
      cases succeeds : alloc count with
      | false =>
        rw [if_pos rfl, if_neg Bool.false_ne_true, List.map_nil, List.append_nil]
        exact ⟨state, rfl, fun place => .inl, fun all => absurd (succeeds.symm.trans (all count)) Bool.false_ne_true⟩
      | true =>
        obtain ⟨argument, memory, sp', copies⟩ := copyArgument_shows ⟨buffer, first⟩ shows lower
           (show first + word.length ≤ last by omega)
        rw [← memory] at showsRest
        obtain ⟨token, next, ran, answers, reads⟩ := strtok_answers (show 0 ∉ ([32] : List UInt8) by decide)
          (copyArgument ⟨buffer, first⟩ state).2 none (by rw [sp', sp]; rfl) showsRest
          (Int.le_trans lower (show first ≤ place by omega)) fuel (by omega)
        rw [ends] at answers reads
        obtain ⟨state', ran', more, idle⟩ := ih answers (count + 1) fuel (by omega)
          (arguments ++ [word.take 512])
        rw [if_neg Bool.true_eq_false.mp, if_pos rfl, List.map_cons, List.append_cons]
        dsimp only
        rw [ran, argument]
        exact ⟨state', ran', copies.trans (reads.trans more), idle⟩

/-- With no tokenisation in progress a command is parsed into its words, and no other buffer is read. -/
theorem viosParseCommand_parses (state : Strtok) (idle : state.sp = none) (alloc : Nat → Bool) (frame : Nat)
    {command : List UInt8} (noNul : ∀ c ∈ command, c ≠ 0) (max : Int) :
    ∃ fuel state', viosParseCommand alloc fuel frame command max state =
        some (parsedCommand alloc command max, state') ∧
      ReadsIn frame 0 (command.take 1025).length state state' ∧ ((∀ count, alloc count = true) → state'.sp = none) := by
  by_cases large : 1025 ≤ max
  · refine ⟨0, state, ?_, fun place => .inl, fun _ => idle⟩
    rw [viosParseCommand, if_pos large, parsedCommand, if_pos large]
  · have shown := storeString_shows (state.memory frame) fun c member => noNul c (List.mem_of_mem_take (i := 1025) member)
    have update := Function.update_self (f := state.memory) frame (storeString (state.memory frame) (command.take 1025))
    rw [← update] at shown
    obtain ⟨fuel, enough⟩ : ∃ fuel, (command.take 1025).length +
        (tokens (isDelimiter [32]) 0 (command.take 1025)).length < fuel := ⟨_, Nat.lt_succ_self _⟩
    obtain ⟨token, next, ran, answers, reads⟩ := strtok_answers (show 0 ∉ ([32] : List UInt8) by decide)
      { state with memory := Function.update state.memory frame _ } (some ⟨frame, 0⟩) (by rw [idle]; rfl) shown
      (Int.le_refl 0) fuel (by omega)
    rw [Int.zero_add] at answers reads
    change Answers [32] frame 0 _ next token (tokens (isDelimiter [32]) 0 (command.take 1025)) at answers
    obtain ⟨state', ran', more, done⟩ := parseLoop_lists alloc answers (Int.natCast_nonneg _) 0 fuel (by omega) []
    refine ⟨fuel, state', ?_, fun place member => ?_, done⟩
    · rw [viosParseCommand, if_neg large, parsedCommand, if_neg large, commandWords, words]
      dsimp only
      rw [ran]
      exact ran'
    · exact reads.trans more place member

end Parse

theorem allocated_all {β : Type*} {alloc : Nat → Bool} (all : ∀ count, alloc count = true) (count : Nat) (l : List β) :
    allocated alloc count l = l := by
  induction l generalizing count with
  | nil => rfl
  | cons x rest ih => rw [allocated, if_pos (all count), ih]

/-- With no tokenisation in progress the calls of `strtok` return the maximal pieces without a delimiter, in their
order, and read no byte behind the string; so a command is parsed into the pieces between its spaces. -/
theorem strtok_words (state : Strtok) (idle : state.sp = none) :
    (∀ (p : Pointer) (string delimiters : List UInt8), 0 ∉ delimiters →
      ShowsString (state.memory p.buffer) p.offset string →
      ∃ found state', AreTokens (isDelimiter delimiters) p.offset string found ∧
        Tokenises delimiters (some p) state (found.map fun token => (⟨p.buffer, token.1⟩, token.2)) state' ∧
        state'.sp = none ∧ ReadsIn p.buffer p.offset (p.offset + string.length) state state') ∧
    ∀ (alloc : Nat → Bool) (frame : Nat) (command : List UInt8) (max : Int), (∀ count, alloc count = true) →
      max < 1025 → command.length < 1025 → (∀ c ∈ command, c ≠ 0) →
      (∀ start word, IsToken (isDelimiter [32]) command start word → word.length < 512) →
      ∃ found fuel state', AreTokens (isDelimiter [32]) 0 command found ∧
        viosParseCommand alloc fuel frame command max state = some (found.map Prod.snd, state') ∧
        state'.sp = none ∧ ReadsIn frame 0 command.length state state' := by
  refine ⟨fun p string delimiters noNul shown => ?_, fun alloc frame command max all small short noNul shortWords => ?_⟩
  · obtain ⟨token, next, ran, answers, reads⟩ := strtok_answers noNul state (some p) (by rw [idle]; rfl) shown
      (Int.le_refl _) _ (Nat.lt_succ_self _)
    obtain ⟨state', tokenises, done, more⟩ := tokenises_of_answers noNul ran answers
    exact ⟨_, state', areTokens _ _ _, tokenises, done, reads.trans more⟩
  · obtain ⟨fuel, state', ran, reads, done⟩ := viosParseCommand_parses state idle alloc frame noNul max
    have whole : command.take 1025 = command := List.take_of_length_le (Nat.le_of_lt short)
    have found := areTokens (isDelimiter [32]) 0 command
    have uncut : (words (isDelimiter [32]) command).map (List.take 512) = words (isDelimiter [32]) command := by
      refine (List.map_congr_left fun word member => ?_).trans (List.map_id _)
      obtain ⟨⟨first, word⟩, isFound, rfl⟩ := List.mem_map.mp member
      obtain ⟨start, -, token⟩ := (found.exact first word).mp isFound
      exact List.take_of_length_le (Nat.le_of_lt (shortWords start word token))
    rw [parsedCommand, if_neg (by omega), commandWords, whole, allocated_all all, uncut] at ran
    rw [whole] at reads
    exact ⟨_, fuel, state', found, ran, done all, reads⟩

/-- `ls -l` with blanks around it, as a string and as a command. -/
theorem strtok_words_ls :
    (∃ found state', AreTokens (isDelimiter [32]) 0 [32, 108, 115, 32, 32, 45, 108, 32] found ∧
      Tokenises [32] (some ⟨0, 0⟩) ⟨fun _ => memoryOf [32, 108, 115, 32, 32, 45, 108, 32], none, []⟩
        (found.map fun token => (⟨0, token.1⟩, token.2)) state' ∧
      state'.sp = none ∧
      ReadsIn 0 0 (0 + ([32, 108, 115, 32, 32, 45, 108, 32] : List UInt8).length)
        ⟨fun _ => memoryOf [32, 108, 115, 32, 32, 45, 108, 32], none, []⟩ state') ∧
    ∃ found fuel state', AreTokens (isDelimiter [32]) 0 [32, 108, 115, 32, 32, 45, 108, 32] found ∧
      viosParseCommand (fun _ => true) fuel 1 [32, 108, 115, 32, 32, 45, 108, 32] 1024
        ⟨fun _ => memoryOf [32, 108, 115, 32, 32, 45, 108, 32], none, []⟩ = some (found.map Prod.snd, state') ∧
      state'.sp = none ∧
      ReadsIn 1 0 ([32, 108, 115, 32, 32, 45, 108, 32] : List UInt8).length
        ⟨fun _ => memoryOf [32, 108, 115, 32, 32, 45, 108, 32], none, []⟩ state' := by
  have both := strtok_words ⟨fun _ => memoryOf [32, 108, 115, 32, 32, 45, 108, 32], none, []⟩ rfl
  refine ⟨both.1 ⟨0, 0⟩ _ [32] (by decide) (memoryOf_shows (by simp)),
    both.2 (fun _ => true) 1 _ 1024 (fun _ => rfl) (by decide) (by decide) (by simp) fun start word token => ?_⟩
  obtain ⟨before, behind, whole, -⟩ := token
  have length := congrArg List.length whole
  rw [List.length_append, List.length_append] at length
  change 8 = _ at length
  omega

end ViOS.User
