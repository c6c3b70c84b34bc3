import ViOS.Fs.PathParser
import Mathlib.Data.List.Infix

/-! # What the path parser accepts and what it returns

`joinParts` writes components back with slashes between them.  A path rendered
from components parses to these components, each inside the buffer allocated for
it (`pathparserParse_render`).  In the other direction the loop stops at the first
component that is empty or for which there is no memory, and drops what stands
behind it, so an accepted path is read to its end exactly when no two slashes follow
each other and every component finds memory (`pathparserParse_accounted_iff`).

* `pathparserGetPathPart_cases` — what one component read can do.
* `copyPathPart`, `pathparserPartBuffers` — the same reads with the bytes they write.
-/

namespace ViOS.Fs

/-- A component a path can be rendered from. -/
structure IsComponent (c : CStr) : Prop where
  nonempty : c ≠ []
  slashFree : charSlash ∉ c
  nulFree : (0 : UInt8) ∉ c

def joinParts (parts : List CStr) : CStr := [charSlash].intercalate parts

def digitChar (d : Fin 10) : UInt8 := UInt8.ofNat (48 + d)

/-- The path `d:/c1/c2/.../cn`. -/
def renderPath (d : Fin 10) (parts : List CStr) : CStr :=
  digitChar d :: charColon :: charSlash :: joinParts parts

/-- Nothing of the path is left out: the parts give it back, up to one trailing slash. -/
def Accounted (path : CStr) (parts : List CStr) : Prop :=
  path = joinParts parts ∨ path = joinParts parts ++ [charSlash]

instance (path : CStr) (parts : List CStr) : Decidable (Accounted path parts) :=
  inferInstanceAs (Decidable (_ ∨ _))

@[simp] theorem joinParts_nil : joinParts [] = [] := rfl

@[simp] theorem joinParts_singleton (c : CStr) : joinParts [c] = c :=
  List.intercalate_singleton

theorem joinParts_cons {parts : List CStr} (more : parts ≠ []) (c : CStr) :
    joinParts (c :: parts) = c ++ charSlash :: joinParts parts := by
  rw [joinParts, List.intercalate_cons_of_ne_nil more]
  simp [joinParts]

/-! ## One component -/

theorem pathparserGetPathPart_append {part : CStr} (slashFree : charSlash ∉ part) (rest : CStr) :
    pathparserGetPathPart (part ++ charSlash :: rest) = (part, rest) := by
  induction part with
  | nil => simp [pathparserGetPathPart]
  | cons c part ih =>
    simp only [List.mem_cons, not_or] at slashFree
    simp [pathparserGetPathPart, ih slashFree.2, Ne.symm slashFree.1]

theorem pathparserGetPathPart_last {part : CStr} (slashFree : charSlash ∉ part) :
    pathparserGetPathPart part = (part, []) := by
  induction part with
  | nil => rfl
  | cons c part ih =>
    simp only [List.mem_cons, not_or] at slashFree
    simp [pathparserGetPathPart, ih slashFree.2, Ne.symm slashFree.1]

/-- A component reaches to the end of the path or to its first slash. -/
theorem pathparserGetPathPart_cases (path : CStr) :
    (charSlash ∉ path ∧ pathparserGetPathPart path = (path, [])) ∨
    (∃ part rest, charSlash ∉ part ∧ path = part ++ charSlash :: rest ∧
      pathparserGetPathPart path = (part, rest)) := by
  by_cases slashFree : charSlash ∈ path
  · obtain ⟨part, rest, split, notBefore⟩ := List.eq_append_cons_of_mem slashFree
    exact .inr ⟨part, rest, notBefore, split, split ▸ pathparserGetPathPart_append notBefore rest⟩
  · exact .inl ⟨slashFree, pathparserGetPathPart_last slashFree⟩

/-- There is memory for a component whose string is call `n` of `kzalloc`. -/
def PartServed (memory : Nat → Bool) (n : Nat) : Prop := memory n = true ∧ memory (n + 1) = true

/-- A component that is not empty is returned exactly when there is memory for it. -/
theorem pathparserParsePathPart_eq (memory : Nat → Bool) (n : Nat) {path part rest : CStr}
    (nonempty : part ≠ []) (read : pathparserGetPathPart path = (part, rest)) :
    (PartServed memory n ∧ pathparserParsePathPart memory n path = some (part, rest)) ∨
      (¬ PartServed memory n ∧ pathparserParsePathPart memory n path = none) := by
  cases part with
  | nil => exact absurd rfl nonempty
  | cons c part =>
    unfold PartServed pathparserParsePathPart
    cases string : memory n <;> cases struct : memory (n + 1) <;> simp [read]

section Parts

variable {memory : Nat → Bool} {fuel n : Nat} {path part rest : CStr}

@[simp] theorem pathparserParts_nil : pathparserParts memory fuel n [] = [] := by
  cases fuel with
  | zero => rfl
  | succ fuel => simp [pathparserParts, pathparserParsePathPart, pathparserGetPathPart]

theorem pathparserParts_step (nonempty : part ≠ [])
    (read : pathparserGetPathPart path = (part, rest)) (served : PartServed memory n) :
    pathparserParts memory (fuel + 1) n path = part :: pathparserParts memory fuel (n + 2) rest := by
  rcases pathparserParsePathPart_eq memory n nonempty read with ⟨-, returned⟩ | ⟨unserved, -⟩
  · simp only [pathparserParts, returned]
  · exact absurd served unserved

/-- A component without memory ends the loop. -/
theorem pathparserParts_unserved (nonempty : part ≠ [])
    (read : pathparserGetPathPart path = (part, rest)) (unserved : ¬ PartServed memory n) :
    pathparserParts memory fuel n path = [] := by
  cases fuel with
  | zero => rfl
  | succ fuel =>
    rcases pathparserParsePathPart_eq memory n nonempty read with ⟨served, -⟩ | ⟨-, returned⟩
    · exact absurd served unserved
    · simp only [pathparserParts, returned]

/-- An empty component ends the loop, whatever stands behind it. -/
theorem pathparserParts_slash : pathparserParts memory fuel n (charSlash :: rest) = [] := by
  cases fuel with
  | zero => rfl
  | succ fuel => simp [pathparserParts, pathparserParsePathPart, pathparserGetPathPart]

end Parts

/-- The loop gives back the components of a joined path, with or without a trailing slash. -/
theorem pathparserParts_join {memory : Nat → Bool} {parts : List CStr}
    (components : ∀ c ∈ parts, IsComponent c) {trailing : CStr}
    (slash : trailing = [] ∨ trailing = [charSlash]) {fuel n : Nat} (enough : parts.length ≤ fuel)
    (served : ∀ k < parts.length, PartServed memory (n + 2 * k)) :
    pathparserParts memory fuel n (joinParts parts ++ trailing) = parts := by
  induction parts generalizing fuel n with
  | nil =>
    cases slash with
    | inl none => simp [none]
    | inr one => simp [one, pathparserParts_slash]
  | cons c parts ih =>
    have first : IsComponent c := components c List.mem_cons_self
    have firstServed : PartServed memory n := served 0 (by simp)
    have restServed : ∀ k < parts.length, PartServed memory (n + 2 + 2 * k) := by
      intro k inside
      have later := served (k + 1) (by simpa using inside)
      rwa [show n + 2 * (k + 1) = n + 2 + 2 * k by omega] at later
    cases fuel with
    | zero => simp at enough
    | succ fuel =>
      by_cases more : parts = []
      -- The last component: its read ends at the end of the path or at the trailing slash.
      · subst more
        have read : pathparserGetPathPart (joinParts [c] ++ trailing) = (c, []) := by
          cases slash with
          | inl none => simp [none, pathparserGetPathPart_last first.slashFree]
          | inr one => simp [one, pathparserGetPathPart_append first.slashFree]
        rw [pathparserParts_step first.nonempty read firstServed, pathparserParts_nil]
      · rw [joinParts_cons more, List.append_assoc, List.cons_append,
          pathparserParts_step first.nonempty (pathparserGetPathPart_append first.slashFree _)
            firstServed,
          ih (fun d member => components d (List.mem_cons_of_mem _ member))
            (by simpa using enough) restServed]

/-! ## The buffers -/

/-- The copy loop of `pathparser_get_path_part`: the buffer, the index `i` behind the last
byte written, and the rest of the path.  `none` is a write behind the end of the buffer. -/
def copyPathPart (buffer : List UInt8) (i : Nat) : CStr → Option (List UInt8 × Nat × CStr)
  | [] => some (buffer, i, [])
  | c :: rest =>
    if c == charSlash then some (buffer, i, rest)
    else if i < buffer.length then copyPathPart (buffer.set i c) (i + 1) rest
    else none

/-- The buffers of the components that the loop of `pathparser_parse` returns, each from
`kzalloc(VIOS_MAX_PATH)`. -/
def pathparserPartBuffers (memory : Nat → Bool) : (fuel n : Nat) → CStr → Option (List (List UInt8))
  | 0, _, _ => some []
  | fuel + 1, n, path =>
    if memory n then
      match copyPathPart (List.replicate viosMaxPath 0) 0 path with
      | none => none
      | some (_, 0, _) => some []
      | some (buffer, _ + 1, rest) =>
        if memory (n + 1) then (pathparserPartBuffers memory fuel (n + 2) rest).map (buffer :: ·)
        else some []
    else some []

/-- A component at the start of a zeroed buffer. -/
def partBuffer (part : CStr) : List UInt8 :=
  part ++ List.replicate (viosMaxPath - part.length) 0

theorem copyPathPart_eq (path done : CStr) {room : Nat}
    (fits : (pathparserGetPathPart path).1.length ≤ room) :
    copyPathPart (done ++ List.replicate room 0) done.length path =
      some (done ++ (pathparserGetPathPart path).1 ++
          List.replicate (room - (pathparserGetPathPart path).1.length) 0,
        done.length + (pathparserGetPathPart path).1.length, (pathparserGetPathPart path).2) := by
  induction path generalizing done room with
  | nil => simp [copyPathPart, pathparserGetPathPart]
  | cons c path ih =>
    by_cases slash : c = charSlash
    · simp [copyPathPart, pathparserGetPathPart, slash]
    · simp only [pathparserGetPathPart, beq_iff_eq, slash, if_false, List.length_cons] at fits ⊢
      cases room with
      | zero => omega
      | succ room =>
        -- The byte goes to the first zero, so the written part grows by it.
        have written : (done ++ List.replicate (room + 1) 0).set done.length c =
            (done ++ [c]) ++ List.replicate room 0 := by
          simp [List.replicate_succ, List.set_append_right]
        have next := ih (done ++ [c]) (show _ ≤ room by omega)
        simp only [List.length_append, List.length_singleton] at next
        simp only [copyPathPart, beq_iff_eq, slash, if_false, written, next]
        simp [Nat.add_assoc, Nat.add_comm 1]

/-- On a path no longer than a buffer every write is inside its buffer, and the buffers hold
the components. -/
theorem pathparserPartBuffers_eq (memory : Nat → Bool) (fuel n : Nat) {path : CStr}
    (short : path.length ≤ viosMaxPath) :
    pathparserPartBuffers memory fuel n path =
      some ((pathparserParts memory fuel n path).map partBuffer) := by
  induction fuel generalizing n path with
  | zero => rfl
  | succ fuel ih =>
    have sizes : (pathparserGetPathPart path).1.length ≤ path.length ∧
        (pathparserGetPathPart path).2.length ≤ path.length := by
      rcases pathparserGetPathPart_cases path with ⟨-, read⟩ | ⟨part, rest, -, split, read⟩
      · simp [read]
      · rw [read, split]
        simp only [List.length_append, List.length_cons]
        omega
    have copied := copyPathPart_eq path [] (sizes.1.trans short)
    simp only [List.nil_append, List.length_nil, Nat.zero_add] at copied
    have behind := ih (n + 2) (sizes.2.trans short)
    rcases read : pathparserGetPathPart path with ⟨part, rest⟩
    rw [read] at copied behind
    cases string : memory n with
    | false => simp [pathparserPartBuffers, pathparserParts, pathparserParsePathPart, string]
    | true =>
      cases part with
      | nil =>
        simp [pathparserPartBuffers, copied, pathparserParts, pathparserParsePathPart, read, string]
      | cons c part =>
        simp only [List.length_cons] at copied
        cases struct : memory (n + 1) <;>
          simp [pathparserPartBuffers, copied, pathparserParts, pathparserParsePathPart, read,
            behind, partBuffer, string, struct]

/-! ## Rendered paths -/

theorem pathparserGetDriveByPath_render (disk : Option Nat) (d : Fin 10) (rest : CStr) :
    pathparserGetDriveByPath disk (digitChar d :: charColon :: charSlash :: rest) =
      .ok (d.val, rest) := by
  have digit : isDigit (digitChar d) = true ∧ (digitChar d == charAt) = false ∧
      toNumericDigit (digitChar d) = d.val := by
    revert d
    decide
  simp [pathparserGetDriveByPath, pathparserPathValidFormat, digit]

theorem length_le_joinParts {parts : List CStr} (components : ∀ c ∈ parts, IsComponent c) :
    parts.length ≤ (joinParts parts).length ∧ ∀ c ∈ parts, c.length ≤ (joinParts parts).length := by
  induction parts with
  | nil => simp
  | cons c parts ih =>
    have positive : 0 < c.length :=
      List.length_pos_iff.mpr (components c List.mem_cons_self).nonempty
    by_cases more : parts = []
    · subst more
      simp only [joinParts_singleton, List.length_singleton, List.mem_singleton, forall_eq]
      exact ⟨positive, le_rfl⟩
    · obtain ⟨count, each⟩ := ih fun d member => components d (List.mem_cons_of_mem _ member)
      rw [joinParts_cons more]
      simp only [List.length_cons, List.length_append, List.mem_cons, forall_eq_or_imp]
      refine ⟨by omega, by omega, fun d member => ?_⟩
      have := each d member
      omega

/-- A path rendered from components parses to them, if `kzalloc` finds memory for the root and for
the components.  Each component with its terminator fits in the buffer allocated for it, and no
byte is written behind a buffer.  A trailing slash changes nothing unless it makes the path longer
than `VIOS_MAX_PATH`. -/
theorem pathparserParse_render (memory : Nat → Bool) (disk : Option Nat) (d : Fin 10)
    (parts : List CStr) (some_part : parts ≠ []) (components : ∀ c ∈ parts, IsComponent c)
    (short : (renderPath d parts).length ≤ viosMaxPath)
    (served : ∀ n ≤ 2 * parts.length, memory n = true) :
    pathparserParse memory disk (renderPath d parts) = some ⟨d, parts⟩ ∧
    (∀ c ∈ parts, c.length + 1 ≤ viosMaxPath) ∧
    pathparserPartBuffers memory (renderPath d parts).length 1 ((renderPath d parts).drop 3) =
      some (parts.map partBuffer) ∧
    pathparserParse memory disk (renderPath d parts ++ [charSlash]) =
      if (renderPath d parts).length + 1 ≤ viosMaxPath then some ⟨d, parts⟩ else none := by
  obtain ⟨count, each⟩ := length_le_joinParts components
  have size : (renderPath d parts).length = (joinParts parts).length + 3 := by simp [renderPath]
  have rootServed : memory 0 = true := served 0 (Nat.zero_le _)
  have read : ∀ trailing, trailing = [] ∨ trailing = [charSlash] → ∀ fuel, parts.length ≤ fuel →
      pathparserParts memory fuel 1 (joinParts parts ++ trailing) = parts :=
    fun trailing slash fuel enough => pathparserParts_join components slash enough
      fun k inside => ⟨served _ (by omega), served _ (by omega)⟩
  have plain : pathparserParts memory (renderPath d parts).length 1 (joinParts parts) = parts := by
    have := read [] (.inl rfl) (renderPath d parts).length (by omega)
    rwa [List.append_nil] at this
  refine ⟨?_, ?_, ?_, ?_⟩
  · rw [pathparserParse, if_neg (by omega)]
    simp only [renderPath] at plain ⊢
    simp only [pathparserGetDriveByPath_render, rootServed, if_true, plain]
  · intro c member
    have := each c member
    omega
  · rw [show (renderPath d parts).drop 3 = joinParts parts from rfl,
      pathparserPartBuffers_eq _ _ _ (by omega), plain]
  · have longer : (renderPath d parts ++ [charSlash]).length = (renderPath d parts).length + 1 := by
      simp
    have slashed := read [charSlash] (.inr rfl) (renderPath d parts ++ [charSlash]).length
      (by omega)
    rw [pathparserParse, longer]
    rw [longer] at slashed
    by_cases fits : (renderPath d parts).length + 1 ≤ viosMaxPath
    · rw [if_pos fits, if_neg (by omega)]
      simp only [renderPath, List.cons_append] at slashed ⊢
      simp only [pathparserGetDriveByPath_render, rootServed, if_true, slashed]
    · rw [if_neg fits, if_pos (by omega)]

def charA : UInt8 := 0x61

/-- `7:/a/aa`. -/
theorem pathparserParse_render_short :
    (∀ c ∈ [[charA], [charA, charA]], IsComponent c) ∧
    pathparserParse allServed none (renderPath 7 [[charA], [charA, charA]] ++ [charSlash]) =
      some ⟨7, [[charA], [charA, charA]]⟩ := by
  have components : ∀ c ∈ [[charA], [charA, charA]], IsComponent c := by
    intro c member
    simp only [List.mem_cons, List.not_mem_nil, or_false] at member
    cases member with
    | inl same => subst same; exact ⟨by decide, by decide, by decide⟩
    | inr same => subst same; exact ⟨by decide, by decide, by decide⟩
  have parsed := pathparserParse_render allServed none 7 [[charA], [charA, charA]] (by decide)
    components (by decide) fun _ _ => rfl
  exact ⟨components, parsed.2.2.2⟩

/-- A component of 105 bytes renders to a path of exactly `VIOS_MAX_PATH` bytes, which is
accepted; with a trailing slash it is one byte too long.  Without memory for the string of its second
component `7:/a/aa` is parsed as `7:/a`. -/
theorem pathparserParse_render_limits :
    (IsComponent (List.replicate 105 charA) ∧
      (renderPath 0 [List.replicate 105 charA]).length = viosMaxPath ∧
      (pathparserParse allServed none (renderPath 0 [List.replicate 105 charA])).isSome = true ∧
      pathparserParse allServed none (renderPath 0 [List.replicate 105 charA] ++ [charSlash]) = none) ∧
    pathparserParse (fun n => n ≠ 3) none (renderPath 7 [[charA], [charA, charA]]) =
      some ⟨7, [[charA]]⟩ := by
  refine ⟨⟨⟨by decide, by decide, by decide⟩, by decide, by decide, by decide⟩, by decide⟩

/-! ## Accepted paths -/

theorem doubleSlash_cons (c : UInt8) (rest : CStr) :
    [charSlash, charSlash] <:+: c :: rest ↔
      (c = charSlash ∧ [charSlash] <+: rest) ∨ [charSlash, charSlash] <:+: rest := by
  rw [List.infix_cons_iff, List.cons_prefix_cons, eq_comm]

/-- No two slashes stand inside a component or across the slash that ends it, unless the
next component is empty. -/
theorem doubleSlash_append {part : CStr} (slashFree : charSlash ∉ part) (rest : CStr) :
    [charSlash, charSlash] <:+: part ++ charSlash :: rest ↔
      [charSlash] <+: rest ∨ [charSlash, charSlash] <:+: rest := by
  induction part with
  | nil => simp [doubleSlash_cons]
  | cons c part ih =>
    simp only [List.mem_cons, not_or] at slashFree
    rw [List.cons_append, doubleSlash_cons, ih slashFree.2]
    simp [Ne.symm slashFree.1]

theorem not_doubleSlash_of_slashFree {part : CStr} (slashFree : charSlash ∉ part) :
    ¬ [charSlash, charSlash] <:+: part :=
  fun twice => slashFree (twice.subset List.mem_cons_self)

/-- The components of a path: what stands between its slashes, as far as something does. -/
def pathComponents (path : CStr) : List CStr := (path.splitOn charSlash).filter (· ≠ [])

theorem pathComponents_last {part : CStr} (slashFree : charSlash ∉ part) (nonempty : part ≠ []) :
    pathComponents part = [part] := by
  rw [pathComponents, List.splitOn_eq_singleton slashFree]
  simp [nonempty]

theorem pathComponents_append {part : CStr} (slashFree : charSlash ∉ part) (nonempty : part ≠ [])
    (rest : CStr) : pathComponents (part ++ charSlash :: rest) = part :: pathComponents rest := by
  rw [pathComponents, List.splitOn_append_cons_self, List.splitOn_eq_singleton slashFree]
  simp [pathComponents, nonempty]

theorem pathComponents_nil : pathComponents [] = [] := by
  simp [pathComponents]

/-- A path that does not begin with a slash has a first component. -/
theorem first_component {c : UInt8} (notSlash : c ≠ charSlash) (rest : CStr) :
    ∃ part behind, part ≠ [] ∧ pathparserGetPathPart (c :: rest) = (part, behind) ∧
      part ∈ pathComponents (c :: rest) := by
  rcases pathparserGetPathPart_cases (c :: rest) with
    ⟨slashFree, read⟩ | ⟨part, behind, slashFree, split, read⟩
  · refine ⟨_, _, List.cons_ne_nil _ _, read, ?_⟩
    rw [pathComponents_last slashFree (List.cons_ne_nil _ _)]
    exact List.mem_cons_self
  · have nonempty : part ≠ [] := by
      rintro rfl
      rw [List.nil_append, List.cons.injEq] at split
      exact notSlash split.1
    refine ⟨part, behind, nonempty, read, ?_⟩
    rw [split, pathComponents_append slashFree nonempty]
    exact List.mem_cons_self

/-- With a first component read, the parts account for the whole path exactly when no two
slashes follow each other and there is memory for every component. -/
theorem pathparserParts_accounted_iff {memory : Nat → Bool} {fuel n : Nat} {path : CStr}
    (enough : path.length ≤ fuel) (some_part : pathparserParts memory fuel n path ≠ []) :
    Accounted path (pathparserParts memory fuel n path) ↔
      ¬ [charSlash, charSlash] <:+: path ∧
        ∀ k < (pathComponents path).length, PartServed memory (n + 2 * k) := by
  induction fuel generalizing n path with
  | zero => exact absurd rfl some_part
  | succ fuel ih =>
    -- The first component was returned, so it is not empty and there was memory for it.
    have served : ∀ {part rest}, part ≠ [] → pathparserGetPathPart path = (part, rest) →
        PartServed memory n := by
      intro part rest nonempty read
      by_contra unserved
      exact some_part (pathparserParts_unserved nonempty read unserved)
    rcases pathparserGetPathPart_cases path with
      ⟨slashFree, read⟩ | ⟨part, rest, slashFree, split, read⟩
    -- The last component: everything is read.
    · have nonempty : path ≠ [] := by
        rintro rfl
        exact some_part pathparserParts_nil
      rw [pathparserParts_step nonempty read (served nonempty read), pathparserParts_nil, Accounted,
        joinParts_singleton, pathComponents_last slashFree nonempty]
      refine iff_of_true (.inl rfl) ⟨not_doubleSlash_of_slashFree slashFree, fun k inside => ?_⟩
      obtain rfl : k = 0 := Nat.lt_one_iff.mp inside
      exact served nonempty read
    · have nonempty : part ≠ [] := by
        rintro rfl
        rw [List.nil_append] at split
        exact some_part (split ▸ pathparserParts_slash)
      have shorter : rest.length ≤ fuel := by
        rw [split, List.length_append, List.length_cons] at enough
        omega
      have firstServed := served nonempty read
      have later : (∀ k < (pathComponents rest).length + 1, PartServed memory (n + 2 * k)) ↔
          ∀ k < (pathComponents rest).length, PartServed memory (n + 2 + 2 * k) := by
        rw [Nat.forall_lt_succ_left']
        simp only [Nat.mul_zero, Nat.add_zero, firstServed, true_and]
        refine forall₂_congr fun k _ => ?_
        rw [show n + 2 * (k + 1) = n + 2 + 2 * k by omega]
      rw [pathparserParts_step nonempty read firstServed, split, doubleSlash_append slashFree,
        pathComponents_append slashFree nonempty, List.length_cons, later]
      cases rest with
      | nil => simp [Accounted, pathComponents_nil]
      | cons c rest =>
        by_cases slash : c = charSlash
        -- An empty component follows: the loop stops and the rest is lost.
        · subst slash
          rw [pathparserParts_slash]
          simp [Accounted]
        · have notFirst : ¬ [charSlash] <+: c :: rest := by
            simp [List.cons_prefix_cons, Ne.symm slash]
          rw [or_iff_right notFirst]
          by_cases more : pathparserParts memory fuel (n + 2) (c :: rest) = []
          -- There is no memory for the next component: the loop stops here, too.
          · have unserved : ¬ ∀ k < (pathComponents (c :: rest)).length,
                PartServed memory (n + 2 + 2 * k) := by
              intro all
              obtain ⟨next, behind, notEmpty, readNext, member⟩ := first_component slash rest
              obtain ⟨fuel, rfl⟩ : ∃ f, fuel = f + 1 := ⟨fuel - 1, by
                rw [List.length_cons] at shorter
                omega⟩
              have nextServed := all 0 (List.length_pos_of_mem member)
              rw [pathparserParts_step notEmpty readNext nextServed] at more
              exact List.cons_ne_nil _ _ more
            rw [more]
            simp [Accounted, unserved]
          · rw [← ih shorter more]
            simp [Accounted, joinParts_cons more]

theorem pathparserGetDriveByPath_rest {disk : Option Nat} {path rest : CStr} {driveNo : Nat}
    (drive : pathparserGetDriveByPath disk path = .ok (driveNo, rest)) : rest = path.drop 3 := by
  unfold pathparserGetDriveByPath at drive
  grind

theorem pathparserParse_cases {memory : Nat → Bool} {disk : Option Nat} {s : CStr} {root : PathRoot}
    (accepted : pathparserParse memory disk s = some root) :
    root.parts = pathparserParts memory s.length 1 (s.drop 3) ∧ root.parts ≠ [] := by
  unfold pathparserParse at accepted
  split at accepted
  · simp at accepted
  · split at accepted
    · simp at accepted
    · rename_i driveNo rest drive
      rw [← pathparserGetDriveByPath_rest drive]
      split at accepted
      · split at accepted
        · simp at accepted
        · rename_i parts read
          simp only [Option.some.injEq] at accepted
          subst accepted
          exact ⟨rfl, read⟩
      · simp at accepted

/-- An accepted path is read to its end exactly when no two slashes follow each other in it and
`kzalloc` finds memory for all its components. -/
theorem pathparserParse_accounted_iff (memory : Nat → Bool) (disk : Option Nat) (s : CStr)
    (root : PathRoot) (accepted : pathparserParse memory disk s = some root) :
    Accounted (s.drop 3) root.parts ↔ ¬ [charSlash, charSlash] <:+: s.drop 3 ∧
      ∀ k < (pathComponents (s.drop 3)).length, PartServed memory (1 + 2 * k) := by
  obtain ⟨parts, some_part⟩ := pathparserParse_cases accepted
  rw [parts] at some_part ⊢
  exact pathparserParts_accounted_iff (by simp) some_part

/-- `0:/a/a/` is read to its end. -/
theorem pathparserParse_accounted_nested :
    pathparserParse allServed none (renderPath 0 [[charA], [charA]] ++ [charSlash]) =
      some ⟨0, [[charA], [charA]]⟩ ∧
    Accounted ((renderPath 0 [[charA], [charA]] ++ [charSlash]).drop 3) [[charA], [charA]] := by
  have accepted : pathparserParse allServed none (renderPath 0 [[charA], [charA]] ++ [charSlash]) =
      some ⟨0, [[charA], [charA]]⟩ := by decide
  exact ⟨accepted, (pathparserParse_accounted_iff allServed none _ _ accepted).mpr
    ⟨by decide, fun _ _ => ⟨rfl, rfl⟩⟩⟩

/-- `0:/a//a` is accepted as `0:/a`, and so is `0:/a/a` when there is no memory for its second
component. -/
theorem pathparserParse_ignoresRest :
    (pathparserParse allServed none (renderPath 0 [[charA], [], [charA]]) = some ⟨0, [[charA]]⟩ ∧
      ¬ Accounted ((renderPath 0 [[charA], [], [charA]]).drop 3) [[charA]]) ∧
    pathparserParse (fun n => n ≠ 3) none (renderPath 0 [[charA], [charA]]) = some ⟨0, [[charA]]⟩ ∧
      ¬ Accounted ((renderPath 0 [[charA], [charA]]).drop 3) [[charA]] := by
  decide

end ViOS.Fs
