import ViOS.User.Stdlib

/-! # `vios_terminal_readline`

The loop takes a backspace back when there is a character in front of it; on an empty line the
backspace is stored like any other key, and the next backspace takes it out again.  So the line
is the edited one, or the edited one behind a backspace.

* `viosTerminalReadline` — the code, on the keys that come.
* `editLine` — line editing, with what a backspace makes of the empty line.
* `leavesBackspace` — reading ends while a backspace is stored.
* `readsLine_iff` — when the line is edited as it should be.
-/

namespace ViOS.User

/-! ## The code -/

/-- The buffer of `vios_terminal_readline` with `i`, the places that were written, and the characters that were
put out. -/
structure Readline where
  out : Int → UInt8
  i : Int
  writes : List Int
  echoed : List UInt8

/-- `out[place] = c`. -/
def Readline.store (line : Readline) (place : Int) (c : UInt8) : Readline :=
  { line with out := Function.update line.out place c, writes := line.writes ++ [place] }

/-- `vios_putchar`, when the keys are put out. -/
def Readline.echo (line : Readline) (outputWhileTyping : Bool) (key : UInt8) : Readline :=
  if outputWhileTyping then { line with echoed := line.echoed ++ [key] } else line

/-- One key that is not the carriage return, with the `i++` behind it. -/
def Readline.key (line : Readline) (key : UInt8) : Readline :=
  if key = 8 ∧ 1 ≤ line.i then { line.store (line.i - 1) 0 with i := line.i - 2 + 1 }
  else { line.store line.i key with i := line.i + 1 }

/-- The loop; `vios_getkeyblock` asks again while the key is zero.  With the line come the keys that are left, or
nothing while the loop waits for the next one. -/
def readlineLoop (max : Int) (outputWhileTyping : Bool) : (keys : List UInt8) → Readline →
    Readline × Option (List UInt8)
  | [], line => (line, if line.i < max - 1 then none else some [])
  | key :: keys, line =>
    if line.i < max - 1 then
      if key = 0 then readlineLoop max outputWhileTyping keys line
      else if key = 13 then (line, some keys)
      else readlineLoop max outputWhileTyping keys ((line.echo outputWhileTyping key).key key)
    else (line, some (key :: keys))

/-- `vios_terminal_readline`. -/
def viosTerminalReadline (out : Int → UInt8) (max : Int) (outputWhileTyping : Bool) (keys : List UInt8) :
    Readline × Option (List UInt8) :=
  match readlineLoop max outputWhileTyping keys ⟨out, 0, [], []⟩ with
  | (line, some rest) => (line.store line.i 0, some rest)
  | (line, none) => (line, none)

/-! ## Line editing -/

/-- A line with one more key; `empty` is what a backspace makes of the empty line. -/
def editKey (empty line : List UInt8) (key : UInt8) : List UInt8 :=
  if key = 8 then if line = [] then empty else line.dropLast else line ++ [key]

/-- The line when a carriage return comes or `room` characters are stored, and the keys that are left. -/
def editLine (empty : List UInt8) (room : Nat) : (keys line : List UInt8) → Option (List UInt8 × List UInt8)
  | [], line => if line.length < room then none else some (line, [])
  | key :: keys, line =>
    if line.length < room then
      if key = 0 then editLine empty room keys line
      else if key = 13 then some (line, keys)
      else editLine empty room keys (editKey empty line key)
    else some (line, key :: keys)

/-- The call ends when line editing does, with the edited line and a NUL in the buffer; it writes inside the
buffer, and there is no backspace in the line. -/
structure ReadsLine (out : Int → UInt8) (max : Int) (outputWhileTyping : Bool) (keys : List UInt8) : Prop where
  ends : (viosTerminalReadline out max outputWhileTyping keys).2 =
    (editLine [] (max - 1).toNat keys []).map Prod.snd
  stores : ∀ line rest, editLine [] (max - 1).toNat keys [] = some (line, rest) →
    ShowsString (viosTerminalReadline out max outputWhileTyping keys).1.out 0 line ∧ 8 ∉ line
  inside : ∀ place ∈ (viosTerminalReadline out max outputWhileTyping keys).1.writes, 0 ≤ place ∧ place < max

/-- Reading ends while a backspace that was typed on an empty line is stored: `length` characters are on the line
behind it, and a second backspace on an empty line takes it out. -/
def leavesBackspace (room : Nat) : (keys : List UInt8) → (length : Nat) → (stored : Bool) → Bool
  | [], length, stored => decide (room ≤ length + stored.toNat) && stored
  | key :: keys, length, stored =>
    if length + stored.toNat < room then
      if key = 0 then leavesBackspace room keys length stored
      else if key = 13 then stored
      else if key = 8 then
        if length = 0 then leavesBackspace room keys 0 (!stored) else leavesBackspace room keys (length - 1) stored
      else leavesBackspace room keys (length + 1) stored
    else stored

/-! ## The code edits with a stored backspace -/

/-- The first `i` bytes of the buffer are the line. -/
structure Readline.Holds (reader : Readline) (line : List UInt8) : Prop where
  length : reader.i = line.length
  shows : ∀ k (inside : k < line.length), reader.out k = (line)[k]
  noNul : ∀ c ∈ line, c ≠ 0

section Holds

variable {reader : Readline} {line : List UInt8}

theorem Readline.store_out (reader : Readline) (place : Int) (c : UInt8) :
    (reader.store place c).out = Function.update reader.out place c := rfl

theorem Readline.Holds.echo (holds : reader.Holds line) (outputWhileTyping : Bool) (key : UInt8) :
    (reader.echo outputWhileTyping key).Holds line := by
  unfold Readline.echo
  cases outputWhileTyping with
  | true => exact ⟨holds.length, holds.shows, holds.noNul⟩
  | false => exact holds

theorem Readline.Holds.append (holds : reader.Holds line) {key : UInt8} (isKey : key ≠ 0) :
    Readline.Holds { reader.store reader.i key with i := reader.i + 1 } (line ++ [key]) where
  length := by
    rw [List.length_append, List.length_singleton, Nat.cast_succ, ← holds.length]
  shows k inside := by
    rw [List.length_append, List.length_singleton] at inside
    rw [Readline.store_out, holds.length]
    by_cases before : k < line.length
    · rw [List.getElem_append_left before, Function.update_of_ne (by omega)]
      exact holds.shows k before
    · obtain rfl : k = line.length := by omega
      rw [Function.update_self, List.getElem_concat_length rfl]
  noNul c member := by
    rcases List.mem_append.mp member with before | last
    · exact holds.noNul c before
    · rw [List.mem_singleton.mp last]
      exact isKey

theorem Readline.Holds.dropLast (holds : reader.Holds line) (some : line ≠ []) :
    Readline.Holds { reader.store (reader.i - 1) 0 with i := reader.i - 2 + 1 } line.dropLast where
  length := by
    have positive := List.length_pos_iff.mpr some
    have length := holds.length
    rw [List.length_dropLast]
    change reader.i - 2 + 1 = _
    omega
  shows k inside := by
    have length := holds.length
    have short := inside
    rw [List.length_dropLast] at short
    rw [Readline.store_out, Function.update_of_ne (by omega), List.getElem_dropLast]
    exact holds.shows k (by omega)
  noNul c member := holds.noNul c (List.dropLast_subset _ member)

/-- A backspace goes the way of the other keys on an empty line. -/
theorem Readline.Holds.key (holds : reader.Holds line) {key : UInt8} (isKey : key ≠ 0) :
    (reader.key key).Holds (editKey [8] line key) := by
  have length := holds.length
  unfold Readline.key editKey
  by_cases backspace : key = 8
  · by_cases empty : line = []
    · have appended := holds.append isKey
      rw [empty, List.length_nil] at length
      rw [if_neg (by omega), if_pos backspace, if_pos empty, ← backspace]
      rwa [empty, List.nil_append] at appended
    · have positive := List.length_pos_iff.mpr empty
      rw [if_pos ⟨backspace, by omega⟩, if_pos backspace, if_neg empty]
      exact holds.dropLast empty
  · rw [if_neg (not_and_of_not_left _ backspace), if_neg backspace]
    exact holds.append isKey

theorem Readline.Holds.showsString (holds : reader.Holds line) :
    ShowsString (reader.store reader.i 0).out 0 line where
  shows k inside := by
    have length := holds.length
    rw [Readline.store_out, Int.zero_add, Function.update_of_ne (by omega)]
    exact holds.shows k inside
  terminated := by
    rw [Readline.store_out, Int.zero_add, holds.length, Function.update_self]
  noNul := holds.noNul

end Holds

/-! ## A run of the loop -/

section Loop

variable {max : Int} {outputWhileTyping : Bool} {reader : Readline} {line : List UInt8}

/-- The writes stay before the last byte that a full line leaves for the NUL. -/
def Readline.WritesInside (max : Int) (reader : Readline) : Prop := ∀ place ∈ reader.writes, 0 ≤ place ∧ place < max

theorem Readline.WritesInside.store (inside : reader.WritesInside max) {place : Int} (lower : 0 ≤ place)
    (upper : place < max) (c : UInt8) : (reader.store place c).WritesInside max := by
  intro other member
  rcases List.mem_append.mp member with before | last
  · exact inside other before
  · rw [List.mem_singleton.mp last]
    exact ⟨lower, upper⟩

theorem Readline.WritesInside.key (inside : reader.WritesInside max) (nonneg : 0 ≤ reader.i)
    (room : reader.i < max - 1) (key : UInt8) : ((reader.echo outputWhileTyping key).key key).WritesInside max := by
  have echoed : (reader.echo outputWhileTyping key).WritesInside max ∧
      (reader.echo outputWhileTyping key).i = reader.i := by
    unfold Readline.echo
    cases outputWhileTyping with
    | true => exact ⟨inside, rfl⟩
    | false => exact ⟨inside, rfl⟩
  unfold Readline.key
  rw [echoed.2]
  split
  · exact echoed.1.store (by omega) (by omega) 0
  · exact echoed.1.store nonneg (by omega) key

theorem editKey_length_le {empty : List UInt8} (short : empty.length ≤ 1) (line : List UInt8) (key : UInt8) :
    (editKey empty line key).length ≤ line.length + 1 := by
  unfold editKey
  split
  · split
    · exact Nat.le_add_left_of_le short
    · rw [List.length_dropLast]
      omega
  · exact Nat.le_of_eq List.length_append

/-- The loop edits the line that the buffer holds, and stores a backspace on an empty line. -/
theorem readlineLoop_edits (outputWhileTyping : Bool) (keys : List UInt8) (holds : reader.Holds line) (inside : reader.WritesInside max)
    (short : (line.length : Int) ≤ max - 1) :
    ∃ edited, (readlineLoop max outputWhileTyping keys reader).1.Holds edited ∧
      (readlineLoop max outputWhileTyping keys reader).1.WritesInside max ∧ (edited.length : Int) ≤ max - 1 ∧
      editLine [8] (max - 1).toNat keys line =
        (readlineLoop max outputWhileTyping keys reader).2.map fun rest => (edited, rest) := by
  induction keys generalizing reader line with
  | nil =>
    have length := holds.length
    refine ⟨line, holds, inside, short, ?_⟩
    unfold readlineLoop editLine
    by_cases room : reader.i < max - 1
    · rw [if_pos room, if_pos (by omega)]
      rfl
    · rw [if_neg room, if_neg (by omega)]
      rfl
  | cons key keys ih =>
    have length := holds.length
    by_cases room : reader.i < max - 1
    · have room' : line.length < (max - 1).toNat := by omega
      rw [readlineLoop, if_pos room, editLine, if_pos room']
      by_cases again : key = 0
      · rw [if_pos again, if_pos again]
        exact ih holds inside short
      · rw [if_neg again, if_neg again]
        by_cases done : key = 13
        · rw [if_pos done, if_pos done]
          exact ⟨line, holds, inside, short, rfl⟩
        · rw [if_neg done, if_neg done]
          have grows := editKey_length_le (show [8].length ≤ 1 from Nat.le_refl 1) line key
          exact ih ((holds.echo outputWhileTyping key).key again) (inside.key (by omega) room key) (by omega)
    · have full : ¬ line.length < (max - 1).toNat := by omega
      rw [readlineLoop, if_neg room, editLine, if_neg full]
      exact ⟨line, holds, inside, short, rfl⟩

/-- What the call leaves when the loop has ended, and while it waits. -/
theorem viosTerminalReadline_edits (out : Int → UInt8) (positive : 1 ≤ max) (outputWhileTyping : Bool)
    (keys : List UInt8) :
    (viosTerminalReadline out max outputWhileTyping keys).1.WritesInside max ∧
      (viosTerminalReadline out max outputWhileTyping keys).2 =
        (editLine [8] (max - 1).toNat keys []).map Prod.snd ∧
      ∀ line rest, editLine [8] (max - 1).toNat keys [] = some (line, rest) →
        ShowsString (viosTerminalReadline out max outputWhileTyping keys).1.out 0 line := by
  have empty : (Readline.mk out 0 [] []).Holds [] :=
    ⟨rfl, fun k inside => absurd inside (Nat.not_lt_zero k), List.forall_mem_nil _⟩
  obtain ⟨edited, holds, inside, short, edits⟩ := readlineLoop_edits outputWhileTyping keys
    empty (List.forall_mem_nil _) (show ((0 : Nat) : Int) ≤ max - 1 by omega)
  have length := holds.length
  rw [edits]
  unfold viosTerminalReadline
  generalize readlineLoop max outputWhileTyping keys ⟨out, 0, [], []⟩ = result at *
  rcases result with ⟨reader, _ | rest⟩
  · exact ⟨inside, rfl, fun line rest waiting => by cases waiting⟩
  · change reader.i = edited.length at length
    refine ⟨inside.store (by omega) (by omega) 0, rfl, fun line rest ended => ?_⟩
    obtain ⟨rfl, -⟩ := Prod.mk.inj (Option.some.inj ended)
    exact holds.showsString

end Loop

/-! ## The stored backspace -/

/-- The line of the code, with the backspace in front that it may have stored. -/
def withBackspace (stored : Bool) (line : List UInt8) : List UInt8 := if stored then 8 :: line else line

theorem withBackspace_length (stored : Bool) (line : List UInt8) :
    (withBackspace stored line).length = line.length + stored.toNat := by
  cases stored <;> rfl

theorem editKey_append {stored : Bool} {line : List UInt8} {key : UInt8} (char : key ≠ 8) :
    editKey [8] (withBackspace stored line) key = withBackspace stored (editKey [] line key) := by
  rw [editKey, if_neg char, editKey, if_neg char]
  cases stored <;> rfl

theorem editKey_dropLast {stored : Bool} {line : List UInt8} (some : line ≠ []) :
    editKey [8] (withBackspace stored line) 8 = withBackspace stored (editKey [] line 8) := by
  rw [editKey, if_pos rfl, editKey, if_pos rfl, if_neg some]
  cases stored with
  | true => exact (if_neg (List.cons_ne_nil 8 line)).trans (List.dropLast_cons_of_ne_nil some)
  | false => exact if_neg some

theorem editKey_empty (stored : Bool) : editKey [8] (withBackspace stored []) 8 = withBackspace (!stored) [] := by
  cases stored <;> rfl

/-- Either no backspace is left and the line is the edited one, or it stands in front of the line. -/
def KeepsOrEdits (leaves : Bool) (reached edited : Option (List UInt8 × List UInt8)) : Prop :=
  leaves = false ∧ reached = edited ∨ leaves = true ∧ ∃ line rest, reached = some (8 :: line, rest)

/-- At the end of the reading. -/
theorem keepsOrEdits_ended {stored : Bool} {line rest : List UInt8} {edited : Option (List UInt8 × List UInt8)}
    (ended : stored = false → edited = some (line, rest)) :
    KeepsOrEdits stored (some (withBackspace stored line, rest)) edited := by
  cases stored with
  | true => exact .inr ⟨rfl, line, rest, rfl⟩
  | false => exact .inl ⟨rfl, (ended rfl).symm⟩

theorem editLine_stored (room : Nat) (keys line : List UInt8) (stored : Bool) :
    KeepsOrEdits (leavesBackspace room keys line.length stored)
      (editLine [8] room keys (withBackspace stored line)) (editLine [] room keys line) := by
  have length := withBackspace_length stored line
  induction keys generalizing line stored with
  | nil =>
    by_cases full : room ≤ line.length + stored.toNat
    · rw [leavesBackspace, decide_eq_true full, Bool.true_and, editLine, length, if_neg (by omega)]
      refine keepsOrEdits_ended fun none => ?_
      rw [none, Bool.toNat_false] at full
      rw [editLine, if_neg (by omega)]
    · rw [leavesBackspace, decide_eq_false full, Bool.false_and, editLine, length, if_pos (by omega), editLine,
        if_pos (by omega)]
      exact .inl ⟨rfl, rfl⟩
  | cons key keys ih =>
    by_cases short : line.length + stored.toNat < room
    · have short' : line.length < room := by omega
      rw [leavesBackspace, if_pos short, editLine, length, if_pos short, editLine, if_pos short']
      by_cases again : key = 0
      · rw [if_pos again, if_pos again, if_pos again]
        exact ih line stored length
      · rw [if_neg again, if_neg again, if_neg again]
        by_cases done : key = 13
        · rw [if_pos done, if_pos done, if_pos done]
          exact keepsOrEdits_ended fun _ => rfl
        · rw [if_neg done, if_neg done, if_neg done]
          by_cases backspace : key = 8
          · rw [if_pos backspace, backspace]
            by_cases empty : line = []
            · rw [empty, List.length_nil, if_pos rfl, editKey_empty]
              exact ih [] (!stored) (withBackspace_length _ _)
            · have some := List.length_pos_iff.mpr empty
              have edits := ih (editKey [] line 8) stored (withBackspace_length _ _)
              have removed : (editKey [] line 8).length = line.length - 1 := by
                rw [editKey, if_pos rfl, if_neg empty, List.length_dropLast]
              rw [if_neg (by omega), editKey_dropLast empty]
              rwa [removed] at edits
          · have edits := ih (editKey [] line key) stored (withBackspace_length _ _)
            have added : (editKey [] line key).length = line.length + 1 := by
              rw [editKey, if_neg backspace, List.length_append, List.length_singleton]
            rw [if_neg backspace, editKey_append backspace]
            rwa [added] at edits
    · rw [leavesBackspace, if_neg short, editLine, length, if_neg short]
      refine keepsOrEdits_ended fun none => ?_
      rw [none, Bool.toNat_false, Nat.add_zero] at short
      rw [editLine, if_neg short]

/-- Edited lines have no backspace. -/
theorem editLine_noBackspace {room : Nat} {keys line edited rest : List UInt8} (clean : 8 ∉ line)
    (ended : editLine [] room keys line = some (edited, rest)) : 8 ∉ edited := by
  induction keys generalizing line with
  | nil =>
    rw [editLine] at ended
    split at ended
    · cases ended
    · cases ended
      exact clean
  | cons key keys ih =>
    rw [editLine] at ended
    split at ended
    · split at ended
      · exact ih clean ended
      · split at ended
        · cases ended
          exact clean
        · refine ih ?_ ended
          unfold editKey
          split
          · split
            · exact List.not_mem_nil
            · exact fun member => clean (List.dropLast_subset _ member)
          · intro member
            rcases List.mem_append.mp member with before | last
            · exact clean before
            · exact absurd (List.mem_singleton.mp last).symm ‹_›
    · cases ended
      exact clean

/-! ## The call -/

/-- A line is edited as it should be just when no backspace is left in it. -/
theorem readsLine_iff (out : Int → UInt8) (max : Int) (positive : 1 ≤ max) (outputWhileTyping : Bool)
    (keys : List UInt8) :
    ReadsLine out max outputWhileTyping keys ↔ leavesBackspace (max - 1).toNat keys 0 false = false := by
  obtain ⟨inside, ends, shows⟩ := viosTerminalReadline_edits out positive outputWhileTyping keys
  have edits := editLine_stored (max - 1).toNat keys [] false
  change KeepsOrEdits (leavesBackspace (max - 1).toNat keys 0 false) (editLine [8] (max - 1).toNat keys [])
    (editLine [] (max - 1).toNat keys []) at edits
  rcases edits with ⟨none, same⟩ | ⟨left, line, rest, ended⟩
  · rw [same] at ends shows
    refine ⟨fun _ => none, fun _ => ⟨ends, fun line rest ended => ?_, inside⟩⟩
    exact ⟨shows line rest ended, editLine_noBackspace List.not_mem_nil ended⟩
  · refine ⟨fun reads => ?_, fun none => absurd (none.symm.trans left) Bool.false_ne_true⟩
    -- the line is the one in the buffer, and a backspace is its first character
    have finished := reads.ends
    rw [ends, ended] at finished
    obtain ⟨⟨edited, rest'⟩, edits, -⟩ := Option.map_eq_some_iff.mp finished.symm
    obtain ⟨stored, clean⟩ := reads.stores edited rest' edits
    rw [stored.unique (shows _ rest ended)] at clean
    exact absurd List.mem_cons_self clean

/-- `a`, a backspace, `b` and the carriage return. -/
theorem readsLine_corrected : ReadsLine (fun _ => 1) 80 true [97, 8, 98, 13] :=
  (readsLine_iff (fun _ => 1) 80 (by decide) true [97, 8, 98, 13]).mpr (by decide)

/-- A backspace and the carriage return. -/
theorem readsLine_backspace : ¬ ReadsLine (fun _ => 1) 80 true [8, 13] := by
  intro reads
  have shown := (reads.stores [] [] (by decide)).1.nul
  exact absurd shown (by decide)

end ViOS.User
