import ViOS.Fs.ClusterWalk
import ViOS.Fs.PathParserLaws
import Mathlib.Data.List.TakeWhile

/-! # Names of root entries

`fat16_create_file_in_root` puts a path component into the eleven bytes of an entry, and
`fat16_find_item_in_directory` makes a name of those bytes again and compares it with a
component.  The two are inverse, up to case, for names of the 8.3 form only.

* `baseName`, `extension` — the two parts of a component.
* `istrncmp_eq_zero_iff` — the comparison.
* `fullName_newItem` — the name that is read back.
* `ShortName`, `NameKept`, `nameKept_iff` — the names that are kept.
-/

namespace ViOS.Fs

/-! ## Bytes -/

theorem toLower_toUpper (c : UInt8) : toLower (toUpper c) = toLower c := by
  rw [← UInt8.toNat_inj]
  simp only [toLower, toUpper, apply_ite UInt8.toNat, UInt8.le_iff_toNat_le, UInt8.toNat_add, UInt8.toNat_sub,
    UInt8.reduceToNat]
  have small := c.toNat_lt
  split_ifs <;> omega

/-- A byte that is not a letter is not a letter's other case. -/
theorem toLower_eq_iff {d : UInt8} (noLetter : ¬ (65 ≤ d ∧ d ≤ 90) ∧ ¬ (97 ≤ d ∧ d ≤ 122)) (c : UInt8) :
    toLower c = d ↔ c = d := by
  rw [← UInt8.toNat_inj, ← UInt8.toNat_inj]
  simp only [toLower, apply_ite UInt8.toNat, UInt8.le_iff_toNat_le, UInt8.toNat_add,
    UInt8.reduceToNat] at noLetter ⊢
  have small := c.toNat_lt
  split_ifs <;> omega

theorem toUpper_eq_iff {d : UInt8} (noLetter : ¬ (65 ≤ d ∧ d ≤ 90) ∧ ¬ (97 ≤ d ∧ d ≤ 122)) (c : UInt8) :
    toUpper c = d ↔ c = d := by
  rw [← UInt8.toNat_inj, ← UInt8.toNat_inj]
  simp only [toUpper, apply_ite UInt8.toNat, UInt8.le_iff_toNat_le, UInt8.toNat_sub,
    UInt8.reduceToNat] at noLetter ⊢
  have small := c.toNat_lt
  split_ifs <;> omega

/-! ## Components -/

/-- The two names differ in the case of letters at most. -/
def EqualIgnoringCase (s t : CStr) : Prop := s.map toLower = t.map toLower

/-- The part in front of the first dot. -/
def baseName (s : CStr) : CStr := s.takeWhile fun c => c ≠ charDot

/-- The part behind the first dot. -/
def extension (s : CStr) : CStr := s.drop ((baseName s).length + 1)

/-- The names of the 8.3 form: at most eight bytes in front of the first dot and, if there is a dot, one
to three behind it, none of them a space, and no name that begins like a deleted entry. -/
structure ShortName (s : CStr) : Prop where
  base : (baseName s).length ≤ 8
  baseSpaces : charSpace ∉ baseName s
  notDeleted : s.headD 0 ≠ 0xE5
  ext : charDot ∈ s → extension s ≠ [] ∧ (extension s).length ≤ 3 ∧ charSpace ∉ extension s

theorem baseName_dot (s : CStr) : baseName (charDot :: s) = [] := rfl

theorem baseName_cons {c : UInt8} (notDot : c ≠ charDot) (s : CStr) : baseName (c :: s) = c :: baseName s :=
  List.takeWhile_cons_of_pos (decide_eq_true notDot)

theorem extension_cons {c : UInt8} (notDot : c ≠ charDot) (s : CStr) : extension (c :: s) = extension s := by
  unfold extension
  rw [baseName_cons notDot, List.length_cons, List.drop_succ_cons]

/-- A component with a dot is its two parts with a dot between them. -/
theorem split_eq {s : CStr} (dot : charDot ∈ s) : s = baseName s ++ charDot :: extension s := by
  induction s with
  | nil => exact absurd dot List.not_mem_nil
  | cons c s ih =>
    by_cases isDot : c = charDot
    · subst isDot
      rfl
    · have later : charDot ∈ s := (List.mem_cons.mp dot).resolve_left fun same => isDot same.symm
      rw [baseName_cons isDot, extension_cons isDot, List.cons_append, ← ih later]

theorem baseName_eq {s : CStr} (noDot : charDot ∉ s) : baseName s = s := by
  induction s with
  | nil => rfl
  | cons c s ih =>
    have notDot : c ≠ charDot := fun isDot => noDot (isDot ▸ List.mem_cons_self)
    rw [baseName_cons notDot, ih fun member => noDot (List.mem_cons_of_mem _ member)]

theorem dot_not_mem_baseName (s : CStr) : charDot ∉ baseName s := by
  induction s with
  | nil => exact List.not_mem_nil
  | cons c s ih =>
    by_cases isDot : c = charDot
    · subst isDot
      exact List.not_mem_nil
    · rw [baseName_cons isDot]
      intro member
      cases List.mem_cons.mp member with
      | inl same => exact isDot same.symm
      | inr later => exact ih later

theorem extension_eq_nil {s : CStr} (noDot : charDot ∉ s) : extension s = [] := by
  unfold extension
  rw [baseName_eq noDot]
  exact List.drop_eq_nil_of_le (Nat.le_succ _)

/-- Only one way leads to the first dot. -/
theorem split_unique {x y : CStr} : ∀ {a b : CStr}, charDot ∉ a → charDot ∉ b →
    (a ++ charDot :: x = b ++ charDot :: y ↔ a = b ∧ x = y) := by
  intro a
  induction a with
  | nil =>
    intro b _ noDot
    cases b with
    | nil => simp
    | cons c b =>
      have isDot : charDot ≠ c := fun same => noDot (same ▸ List.mem_cons_self)
      simp [isDot]
  | cons c a ih =>
    intro b aDot bDot
    cases b with
    | nil =>
      have isDot : c ≠ charDot := fun same => aDot (same ▸ List.mem_cons_self)
      simp [isDot]
    | cons c' b =>
      have rest := ih (fun member => aDot (List.mem_cons_of_mem _ member))
        (fun member => bDot (List.mem_cons_of_mem _ member))
      rw [List.cons_append, List.cons_append, List.cons_eq_cons, rest, List.cons_eq_cons, and_assoc]

/-! ## The comparison -/

/-- `istrncmp` compares up to case. -/
theorem istrncmp_eq_zero_iff (n : Nat) : ∀ {s t : CStr}, (0 : UInt8) ∉ s → (0 : UInt8) ∉ t →
    s.length < n → (istrncmp s t n = 0 ↔ EqualIgnoringCase s t) := by
  induction n with
  | zero => exact fun _ _ short => absurd short (Nat.not_lt_zero _)
  | succ n ih =>
    intro s t sNul tNul short
    -- The sign of the answer is the difference of the two bytes as read.
    have differ : ∀ {u v : UInt8}, u ≠ v → ((u.toNat : Int) - v.toNat ≠ 0) := by
      intro u v different zero
      exact different (UInt8.toNat.inj (by omega))
    unfold EqualIgnoringCase
    cases s with
    | nil =>
      cases t with
      | nil => simp [istrncmp]
      | cons v t =>
        -- One string ends: the other byte is compared with its terminator.
        have notNul : (0 : UInt8) ≠ v := fun same => tNul (same ▸ List.mem_cons_self)
        have lower : toLower 0 ≠ toLower v := fun same =>
          notNul ((toLower_eq_iff (d := 0) (by decide) v).mp (same.symm.trans (by decide))).symm
        have notZero := differ notNul
        rw [istrncmp, List.headD_nil, List.headD_cons, if_pos ⟨notNul, lower⟩]
        exact ⟨fun zero => absurd zero notZero, fun equal => absurd equal (by simp)⟩
    | cons u s =>
      have uNotNul : u ≠ 0 := fun same => sNul (same ▸ List.mem_cons_self)
      cases t with
      | nil =>
        have lower : toLower u ≠ toLower 0 := fun same =>
          uNotNul ((toLower_eq_iff (d := 0) (by decide) u).mp (same.trans (by decide)))
        have notZero := differ uNotNul
        rw [istrncmp, List.headD_cons, List.headD_nil, if_pos ⟨uNotNul, lower⟩]
        exact ⟨fun zero => absurd zero notZero, fun equal => absurd equal (by simp)⟩
      | cons v t =>
        have rest := ih (fun member => sNul (List.mem_cons_of_mem _ member))
          (fun member => tNul (List.mem_cons_of_mem _ member)) (by simpa using short)
        rw [istrncmp, List.headD_cons, List.headD_cons, List.tail_cons, List.tail_cons]
        by_cases same : toLower u = toLower v
        · rw [if_neg fun both => both.2 same, if_neg uNotNul, rest]
          simp [EqualIgnoringCase, same]
        · have different : u ≠ v := fun equal => same (equal ▸ rfl)
          rw [if_pos ⟨different, same⟩]
          simp [differ different, same]

/-! ## The name of a new entry -/

/-- A part of an entry is read up to its first space. -/
def readable (part : CStr) : CStr := part.takeWhile fun c => c ≠ charSpace

/-- What is read back of a part of a name. -/
theorem properString_padded (n : Nat) : ∀ {part : CStr}, (0 : UInt8) ∉ part → part.length ≤ n →
    fat16ToProperString (List.ofFn fun i : Fin n => paddedName part i) = (readable part).map toUpper := by
  induction n with
  | zero =>
    intro part _ short
    obtain rfl := List.length_eq_zero_iff.mp (Nat.le_zero.mp short)
    rfl
  | succ n ih =>
    intro part noNul short
    rw [List.ofFn_succ]
    unfold fat16ToProperString readable
    cases part with
    | nil =>
      have first : paddedName [] (0 : Fin (n + 1)) = charSpace := rfl
      rw [first]
      exact List.takeWhile_cons_of_neg (by decide)
    | cons c rest =>
      have notNul : c ≠ 0 := fun same => noNul (same ▸ List.mem_cons_self)
      have tail := ih (fun member => noNul (List.mem_cons_of_mem _ member)) (Nat.le_of_succ_le_succ short)
      have first : paddedName (c :: rest) (0 : Fin (n + 1)) = toUpper c := rfl
      have later : (fun i : Fin n => paddedName (c :: rest) i.succ) = fun i : Fin n => paddedName rest i := rfl
      rw [first, later]
      by_cases isSpace : c = charSpace
      · subst isSpace
        rw [List.takeWhile_cons_of_neg (by decide), List.takeWhile_cons_of_neg (by simp)]
        rfl
      · have allowed : toUpper c ≠ 0 ∧ toUpper c ≠ charSpace :=
          ⟨fun zero => notNul ((toUpper_eq_iff (d := 0) (by decide) c).mp zero),
            fun space => isSpace ((toUpper_eq_iff (d := charSpace) (by decide) c).mp space)⟩
        simp only [List.takeWhile_cons, decide_eq_true allowed, decide_eq_true isSpace, if_true, List.map_cons]
        exact congrArg _ tail

section Name

variable {s : CStr}

theorem not_mem_of_sublist {l : CStr} {c : UInt8} (absent : c ∉ s) (sublist : l.Sublist s) : c ∉ l :=
  fun member => absent (sublist.subset member)

theorem baseName_sublist (s : CStr) : (baseName s).Sublist s := List.takeWhile_sublist _

theorem extension_sublist (s : CStr) : (extension s).Sublist s := List.drop_sublist _ _

/-- The name that is read back from a new entry. -/
theorem fullName_newItem (noNul : (0 : UInt8) ∉ s) :
    fat16GetFullRelativeFilename (newItem s) = (readable ((baseName s).take 8)).map toUpper ++
      if (extension s).headD charSpace = charSpace then []
      else charDot :: (readable ((extension s).take 3)).map toUpper := by
  have base : fat16ToProperString (List.ofFn (newItem s).filename) =
      (readable ((baseName s).take 8)).map toUpper :=
    properString_padded 8 (not_mem_of_sublist noNul ((List.take_sublist _ _).trans (baseName_sublist s)))
      (List.length_take_le _ _)
  have ext : fat16ToProperString (List.ofFn (newItem s).ext) = (readable ((extension s).take 3)).map toUpper :=
    properString_padded 3 (not_mem_of_sublist noNul ((List.take_sublist _ _).trans (extension_sublist s)))
      (List.length_take_le _ _)
  have first : (newItem s).ext 0 = toUpper ((extension s).headD charSpace) := by
    change toUpper (((extension s).take 3).getD 0 charSpace) = _
    cases extension s with
    | nil => rfl
    | cons c rest => rfl
  have notNul : (extension s).headD charSpace ≠ 0 := by
    cases isExt : extension s with
    | nil => decide
    | cons c rest =>
      intro zero
      have member : c ∈ s := (extension_sublist s).subset (isExt ▸ List.mem_cons_self)
      exact noNul (zero ▸ member)
  unfold fat16GetFullRelativeFilename
  rw [base, ext, first]
  congr 1
  by_cases isSpace : (extension s).headD charSpace = charSpace
  · rw [if_pos isSpace, if_neg]
    rintro ⟨-, notSpace⟩
    exact notSpace ((toUpper_eq_iff (d := charSpace) (by decide) _).mpr isSpace)
  · rw [if_neg isSpace, if_pos]
    exact ⟨fun zero => notNul ((toUpper_eq_iff (d := 0) (by decide) _).mp zero),
      fun space => isSpace ((toUpper_eq_iff (d := charSpace) (by decide) _).mp space)⟩

/-- A part of a name is kept if it is short enough and has no space. -/
theorem readable_take_iff {n : Nat} :
    (readable (s.take n)).map toLower = s.map toLower ↔ s.length ≤ n ∧ charSpace ∉ s := by
  constructor
  · intro equal
    have lengths := congrArg List.length equal
    rw [List.length_map, List.length_map] at lengths
    have read : (readable (s.take n)).length ≤ (s.take n).length := (List.takeWhile_sublist _).length_le
    rw [List.length_take] at read
    have short : s.length ≤ n := by omega
    refine ⟨short, fun space => ?_⟩
    rw [List.take_of_length_le short] at lengths
    -- everything is read, so the space would be read too
    have all : readable s = s := (List.takeWhile_prefix _).eq_of_length lengths
    rw [← all] at space
    exact of_decide_eq_true (List.mem_takeWhile_imp (p := fun c => decide (c ≠ charSpace)) space) rfl
  · rintro ⟨short, noSpace⟩
    have all : readable s = s := by
      apply List.takeWhile_eq_self_iff.mpr
      exact fun c member => decide_eq_true fun isSpace => noSpace (isSpace ▸ member)
    rw [List.take_of_length_le short, all]

/-- The name that is read back from a new entry is the name of the file, up to case, exactly for these. -/
theorem fullName_equal_iff (noNul : (0 : UInt8) ∉ s) :
    EqualIgnoringCase (fat16GetFullRelativeFilename (newItem s)) s ↔
      ((baseName s).length ≤ 8 ∧ charSpace ∉ baseName s) ∧
        (charDot ∈ s → extension s ≠ [] ∧ (extension s).length ≤ 3 ∧ charSpace ∉ extension s) := by
  have lowered : ∀ part : CStr, (part.map toUpper).map toLower = part.map toLower := by
    intro part
    rw [List.map_map]
    exact List.map_congr_left fun c _ => toLower_toUpper c
  have noDotIn : ∀ {part : CStr}, charDot ∉ part → charDot ∉ part.map toLower := by
    intro part noDot member
    obtain ⟨c, isByte, lower⟩ := List.mem_map.mp member
    exact noDot ((toLower_eq_iff (d := charDot) (by decide) c).mp lower ▸ isByte)
  have readNoDot : charDot ∉ (readable ((baseName s).take 8)).map toLower := noDotIn
    (not_mem_of_sublist (dot_not_mem_baseName s) ((List.takeWhile_sublist _).trans (List.take_sublist _ _)))
  rw [fullName_newItem noNul]
  unfold EqualIgnoringCase
  rw [List.map_append, lowered]
  by_cases dot : charDot ∈ s
  · by_cases missing : (extension s).headD charSpace = charSpace
    · -- without a dot nothing is equal to a name with one
      rw [if_pos missing, List.map_nil, List.append_nil]
      constructor
      · intro equal
        rw [equal] at readNoDot
        exact absurd (List.mem_map.mpr ⟨charDot, dot, by decide⟩) readNoDot
      · rintro ⟨-, ext⟩
        obtain ⟨notEmpty, -, noSpace⟩ := ext dot
        cases isExt : extension s with
        | nil => exact absurd isExt notEmpty
        | cons c rest =>
          rw [isExt] at missing noSpace
          exact absurd (missing ▸ List.mem_cons_self) noSpace
    · have notEmpty : extension s ≠ [] := by
        intro empty
        rw [empty] at missing
        exact missing rfl
      have parts : s.map toLower = (baseName s).map toLower ++ charDot :: (extension s).map toLower := by
        conv_lhs => rw [split_eq dot, List.map_append, List.map_cons]
        rfl
      have isDot : toLower charDot = charDot := by decide
      rw [if_neg missing, List.map_cons, lowered, isDot, parts,
        split_unique readNoDot (noDotIn (dot_not_mem_baseName s)), readable_take_iff, readable_take_iff]
      exact ⟨fun both => ⟨both.1, fun _ => ⟨notEmpty, both.2⟩⟩, fun both => ⟨both.1, (both.2 dot).2⟩⟩
  · have noExt := extension_eq_nil dot
    rw [noExt, List.headD_nil, if_pos rfl, List.map_nil, List.append_nil, baseName_eq dot, readable_take_iff]
    exact ⟨fun short => ⟨short, fun isDot => absurd isDot dot⟩, fun both => both.1⟩

end Name

/-! ## Names of entries -/

theorem fullName_noNul (item : FatDirectoryItem) : (0 : UInt8) ∉ fat16GetFullRelativeFilename item := by
  have part : ∀ input : List UInt8, (0 : UInt8) ∉ fat16ToProperString input := by
    intro input member
    exact (of_decide_eq_true (List.mem_takeWhile_imp (p := fun c => decide (c ≠ 0 ∧ c ≠ charSpace)) member)).1 rfl
  unfold fat16GetFullRelativeFilename
  rw [List.mem_append]
  rintro (inName | inExt)
  · exact part _ inName
  · split at inExt
    · cases List.mem_cons.mp inExt with
      | inl isDot => exact absurd isDot (by decide)
      | inr inExt => exact part _ inExt
    · exact List.not_mem_nil inExt

/-- Eight bytes, a dot and three bytes at most. -/
theorem fullName_length_le (item : FatDirectoryItem) : (fat16GetFullRelativeFilename item).length ≤ 12 := by
  have part : ∀ input : List UInt8, (fat16ToProperString input).length ≤ input.length :=
    fun _ => (List.takeWhile_sublist _).length_le
  have name := part (List.ofFn item.filename)
  have ext := part (List.ofFn item.ext)
  rw [List.length_ofFn] at name ext
  unfold fat16GetFullRelativeFilename
  rw [List.length_append]
  split
  · rw [List.length_cons]
    omega
  · rw [List.length_nil]
    omega

theorem fullName_length (item : FatDirectoryItem) : (fat16GetFullRelativeFilename item).length < viosMaxPath :=
  (fullName_length_le item).trans_lt (by decide)

/-- The entry is in use and has the name. -/
def Matches (name : CStr) (item : FatDirectoryItem) : Prop :=
  item.mark ≠ 0xE5 ∧ istrncmp (fat16GetFullRelativeFilename item) name viosMaxPath = 0

/-- What a lookup compares. -/
theorem matches_iff {name : CStr} (component : IsComponent name) (item : FatDirectoryItem) :
    Matches name item ↔
      item.filename 0 ≠ 0xE5 ∧ EqualIgnoringCase (fat16GetFullRelativeFilename item) name :=
  and_congr_right fun _ => istrncmp_eq_zero_iff viosMaxPath (fullName_noNul item) component.nulFree
    (fullName_length item)

/-! ## The lookup -/

section Lookup

variable {name : CStr} {item : FatDirectoryItem}

theorem le_of_findItemLoop {items : List FatDirectoryItem} :
    ∀ {i found : Nat}, findItemLoop name i items = some found → i ≤ found := by
  induction items with
  | nil => exact fun isFound => nomatch isFound
  | cons item rest ih =>
    intro i found isFound
    rw [findItemLoop] at isFound
    split at isFound
    · cases isFound
    · split at isFound
      · exact Nat.le_of_succ_le (ih isFound)
      · split at isFound
        · cases isFound
          exact Nat.le_refl _
        · exact Nat.le_of_succ_le (ih isFound)

/-- The entries that were passed do not match. -/
theorem not_matches_of_findItemLoop {before rest : List FatDirectoryItem} :
    ∀ {i : Nat}, (∀ x ∈ before, x.filename 0 ≠ 0) → findItemLoop name i (before ++ rest) = none →
      ∀ x ∈ before, ¬ Matches name x := by
  induction before with
  | nil => exact fun _ _ _ member => absurd member List.not_mem_nil
  | cons first before ih =>
    intro i live absent x member
    have later : ∀ x ∈ before, x.filename 0 ≠ 0 := fun x member => live x (List.mem_cons_of_mem _ member)
    rw [List.cons_append, findItemLoop, if_neg (live first List.mem_cons_self)] at absent
    cases List.mem_cons.mp member with
    | inl same =>
      subst same
      rintro ⟨notDeleted, equal⟩
      rw [if_neg notDeleted, if_pos equal] at absent
      cases absent
    | inr member =>
      split at absent
      · exact ih later absent x member
      · split at absent
        · cases absent
        · exact ih later absent x member

/-- An entry behind entries in use is found if it is the first one with the name. -/
theorem findItemLoop_behind_iff (live : item.filename 0 ≠ 0) {before after : List FatDirectoryItem} :
    ∀ {i : Nat}, (∀ x ∈ before, x.filename 0 ≠ 0) →
      (findItemLoop name i (before ++ item :: after) = some (i + before.length) ↔
        (∀ x ∈ before, ¬ Matches name x) ∧ Matches name item) := by
  induction before with
  | nil =>
    intro i _
    -- The loop does not go back to an index it has passed.
    have behind : findItemLoop name (i + 1) after ≠ some i := fun isFound =>
      absurd (le_of_findItemLoop isFound) (Nat.not_succ_le_self i)
    rw [List.nil_append, findItemLoop, if_neg live, List.length_nil, Nat.add_zero]
    unfold Matches
    split
    · rename_i deleted
      exact ⟨fun isFound => absurd isFound behind, fun both => absurd deleted both.2.1⟩
    · split
      · rename_i notDeleted equal
        exact ⟨fun _ => ⟨fun _ member => absurd member List.not_mem_nil, notDeleted, equal⟩, fun _ => rfl⟩
      · rename_i differs
        exact ⟨fun isFound => absurd isFound behind, fun both => absurd both.2.2 differs⟩
  | cons first before ih =>
    intro i allLive
    have next := ih (i := i + 1) fun x member => allLive x (List.mem_cons_of_mem _ member)
    have place : i + (before.length + 1) = i + 1 + before.length := by omega
    rw [List.cons_append, findItemLoop, if_neg (allLive first List.mem_cons_self), List.length_cons, place,
      List.forall_mem_cons]
    -- An item before it is skipped when it is deleted, and ends the loop when it matches.
    by_cases deleted : first.filename 0 = 0xE5
    · have passed : ¬ Matches name first := fun matching => matching.1 deleted
      rw [if_pos deleted, next, and_assoc, and_iff_right passed]
    · rw [if_neg deleted]
      by_cases equal : istrncmp (fat16GetFullRelativeFilename first) name viosMaxPath = 0
      · rw [if_pos equal]
        constructor
        · intro same
          have equal := Option.some.inj same
          omega
        · exact fun all => absurd ⟨deleted, equal⟩ all.1.1
      · have passed : ¬ Matches name first := fun matching => equal matching.2
        rw [if_neg equal, next, and_assoc, and_iff_right passed]

/-- The entry that is found is read from the disk. -/
theorem findItem_of_index {volume : FatVolume} (mounted : Mounted volume) {i : Nat}
    (inRoot : i < volume.header.rootDirEntries)
    (isFound : findItemLoop name 0 volume.rootDirectory.item = some i) :
    fat16FindItemInDirectory volume volume.rootDirectory name = some
      (fat16NewFatItemForDirectoryItem volume (volume.entry i) (entryLocation volume.rootDirectory i).1
        (entryLocation volume.rootDirectory i).2) := by
  have position := entryLocation_pos mounted i
  have read := readEntry_eq mounted inRoot
  unfold fat16FindItemInDirectory
  rw [isFound, Option.map_some]
  simp only [← Nat.cast_mul, ← Nat.cast_add, position, ByteStore.read_stream, read]
  rfl

/-- Two entries are not in one place. -/
theorem entryLocation_injective {directory : FatDirectory} {i j : Nat}
    (sector : (entryLocation directory i).1 = (entryLocation directory j).1)
    (offset : (entryLocation directory i).2 = (entryLocation directory j).2) : i = j := by
  have first := Nat.div_add_mod (i * directoryItemSize) viosSectorSize
  have second := Nat.div_add_mod (j * directoryItemSize) viosSectorSize
  unfold entryLocation at sector offset
  simp only at sector offset
  have quotient := Nat.add_left_cancel sector
  rw [quotient, offset, second] at first
  exact Nat.eq_of_mul_eq_mul_right (by decide : 0 < directoryItemSize) first.symm

end Lookup

/-! ## Creation -/

/-- A slot of the root directory is free. -/
def RootHasRoom (volume : FatVolume) : Prop :=
  ∃ item ∈ volume.rootDirectory.item, item.mark = 0 ∨ item.mark = 0xE5

theorem RootHasRoom.freeSlot {volume : FatVolume} (room : RootHasRoom volume) :
    ∃ slot, volume.rootDirectory.item.findIdx? (fun item =>
      decide (item.filename 0 = 0 ∨ item.filename 0 = 0xE5)) = some slot := by
  rw [← Option.isSome_iff_exists, List.findIdx?_isSome, List.any_eq_true]
  obtain ⟨item, member, free⟩ := room
  exact ⟨item, member, decide_eq_true free⟩

/-- The file was created behind the given entries. -/
structure Created (volume : FatVolume) (s : CStr) (before after : List FatDirectoryItem)
    (volume' : FatVolume) : Prop where
  result : fat16CreateFileInRoot volume s = (some ⟨.file (newItem s),
    (entryLocation volume.rootDirectory before.length).1,
    (entryLocation volume.rootDirectory before.length).2⟩, volume')
  old : ∃ item, volume.rootDirectory.item = before ++ item :: after
  new : volume'.rootDirectory.item = before ++ newItem s :: after
  used : ∀ x ∈ before, x.filename 0 ≠ 0
  mounted : Mounted volume'
  stored : volume'.entry before.length = newItem s
  place : entryLocation volume'.rootDirectory = entryLocation volume.rootDirectory

section Creation

variable {volume : FatVolume} {s : CStr}

theorem newItem_file (s : CStr) : (newItem s).attr &&& fatFileSubdirectory = 0 :=
  (by decide : fatFileArchived &&& fatFileSubdirectory = 0)

theorem createFile_spec (mounted : Mounted volume) (room : RootHasRoom volume) (s : CStr) :
    ∃ before after volume', Created volume s before after volume' := by
  obtain ⟨slot, isSlot⟩ := room.freeSlot
  obtain ⟨inRange, isFirst⟩ := List.findIdx?_eq_some_iff_findIdx_eq.mp isSlot
  let items := volume.rootDirectory.item
  have lengths : (items.take slot).length = slot := List.length_take_of_le inRange.le
  have split : items = items.take slot ++ items[slot] :: items.drop (slot + 1) := by
    rw [← List.drop_eq_getElem_cons inRange, List.take_append_drop]
  have replaced : items.set slot (newItem s) = items.take slot ++ newItem s :: items.drop (slot + 1) := by
    rw [List.set_eq_take_append_cons_drop, if_pos inRange]
  have used : ∀ x ∈ items.take slot, x.filename 0 ≠ 0 := by
    intro x member isEnd
    have passed := List.false_of_mem_take_findIdx (isFirst.symm ▸ member)
    rw [isEnd] at passed
    exact absurd passed (by simp)
  -- the table is changed in memory first, then on the disk
  let changed : FatVolume := { volume with rootDirectory :=
    { volume.rootDirectory with item := items.set slot (newItem s) } }
  have changedMounted : Mounted changed := ⟨mounted.consistent, mounted.sectorPos, mounted.endingSectorPos,
    (List.length_set ..).trans mounted.length⟩
  have inRoot : slot < changed.header.rootDirEntries := mounted.length ▸ inRange
  obtain ⟨volume', write, written⟩ := writeEntry_spec changedMounted inRoot (newItem s)
  have position : (entryLocation volume.rootDirectory slot).1 * viosSectorSize +
      (entryLocation volume.rootDirectory slot).2 = changed.rootPos + slot * directoryItemSize :=
    entryLocation_pos changedMounted slot
  have isFile : ¬ (newItem s).attr &&& fatFileSubdirectory ≠ 0 := fun isDirectory => isDirectory (newItem_file s)
  refine ⟨items.take slot, items.drop (slot + 1), volume', ?_, ⟨items[slot], split⟩, ?_, used,
    written.same.mounted changedMounted, ?_, ?_⟩
  · rw [lengths]
    simp only [fat16CreateFileInRoot, isSlot, ← Nat.cast_mul, ← Nat.cast_add, position]
    change (some (fat16NewFatItemForDirectoryItem (changed.write _ _ _).2 _ _ _), (changed.write _ _ _).2) = _
    rw [write, fat16NewFatItemForDirectoryItem, if_neg isFile]
  · rw [written.same.rootDirectory]
    exact replaced
  · rw [lengths, written.entry slot inRoot, if_pos rfl]
  · rw [written.same.rootDirectory]
    rfl

/-- The first byte of a new entry. -/
theorem newItem_first (s : CStr) : (newItem s).filename 0 = toUpper ((baseName s).headD charSpace) := by
  change toUpper (((baseName s).take 8).getD 0 charSpace) = _
  cases baseName s with
  | nil => rfl
  | cons c rest => rfl

theorem newItem_live (component : IsComponent s) : (newItem s).filename 0 ≠ 0 := by
  rw [newItem_first]
  intro zero
  have isNul := (toUpper_eq_iff (d := 0) (by decide) _).mp zero
  cases base : baseName s with
  | nil =>
    rw [base] at isNul
    exact absurd isNul (by decide)
  | cons c rest =>
    rw [base] at isNul
    have member : c ∈ s := (baseName_sublist s).subset (base ▸ List.mem_cons_self)
    exact component.nulFree (isNul ▸ member)

/-- A new entry begins like a deleted one if its name does. -/
theorem newItem_deleted_iff (s : CStr) : (newItem s).filename 0 = 0xE5 ↔ s.headD 0 = 0xE5 := by
  rw [newItem_first, toUpper_eq_iff (d := 0xE5) (by decide)]
  cases s with
  | nil => decide
  | cons c s =>
    by_cases isDot : c = charDot
    · subst isDot
      rw [baseName_dot, List.headD_nil, List.headD_cons]
      decide
    · rw [baseName_cons isDot]
      exact Iff.rfl

/-- A new entry has the name it was created with exactly if the name is of the 8.3 form. -/
theorem newItem_matches_iff (component : IsComponent s) : Matches s (newItem s) ↔ ShortName s := by
  rw [matches_iff component, fullName_equal_iff component.nulFree, Ne, newItem_deleted_iff]
  constructor
  · rintro ⟨notDeleted, ⟨base, baseSpaces⟩, ext⟩
    exact ⟨base, baseSpaces, notDeleted, ext⟩
  · rintro ⟨base, baseSpaces, notDeleted, ext⟩
    exact ⟨notDeleted, ⟨base, baseSpaces⟩, ext⟩

end Creation

/-! ## Names that are kept -/

/-- A lookup of the name comes to the place of the slot. -/
def LeadsTo (volume : FatVolume) (name : CStr) (slot : FatItem) : Prop :=
  ∃ item, fat16FindItemInDirectory volume volume.rootDirectory name = some item ∧
    item.directorySector = slot.directorySector ∧ item.directoryOffset = slot.directoryOffset

/-- The name leads to the slot, and no other one does. -/
structure NameOf (volume : FatVolume) (s : CStr) (slot : FatItem) : Prop where
  found : fat16FindItemInDirectory volume volume.rootDirectory s = some slot
  onlyThis : ∀ t, IsComponent t → LeadsTo volume t slot → EqualIgnoringCase t s

/-- The file that is created is found by its name, and by no other one. -/
def NameKept (volume : FatVolume) (s : CStr) : Prop :=
  ∃ slot volume', fat16CreateFileInRoot volume s = (some slot, volume') ∧ NameOf volume' s slot

theorem newFatItem_place (volume : FatVolume) (item : FatDirectoryItem) (sector offset : Nat) :
    (fat16NewFatItemForDirectoryItem volume item sector offset).directorySector = sector ∧
      (fat16NewFatItemForDirectoryItem volume item sector offset).directoryOffset = offset := by
  unfold fat16NewFatItemForDirectoryItem
  split
  · exact ⟨rfl, rfl⟩
  · exact ⟨rfl, rfl⟩

theorem LeadsTo.index {volume : FatVolume} {name : CStr} {data : FatItemData} {i : Nat}
    (leads : LeadsTo volume name ⟨data, (entryLocation volume.rootDirectory i).1,
      (entryLocation volume.rootDirectory i).2⟩) :
    findItemLoop name 0 volume.rootDirectory.item = some i := by
  obtain ⟨item, isFound, sector, offset⟩ := leads
  obtain ⟨j, index, same⟩ := Option.map_eq_some_iff.mp isFound
  rw [← same] at sector offset
  rw [index, entryLocation_injective ((newFatItem_place volume _ _ _).1.symm.trans sector)
    ((newFatItem_place volume _ _ _).2.symm.trans offset)]

/-- A file that is created in the root directory under a name that is not there is found again by this
name, and by no other one, exactly if the name is of the 8.3 form. -/
theorem nameKept_iff {volume : FatVolume} {s : CStr} (mounted : Mounted volume) (room : RootHasRoom volume)
    (component : IsComponent s)
    (absent : fat16FindItemInDirectory volume volume.rootDirectory s = none) :
    NameKept volume s ↔ ShortName s := by
  obtain ⟨before, after, volume', created⟩ := createFile_spec mounted room s
  -- The new item is found exactly when no item before it matches.
  have index : ∀ name, findItemLoop name 0 volume'.rootDirectory.item = some before.length ↔
      (∀ x ∈ before, ¬ Matches name x) ∧ Matches name (newItem s) := by
    intro name
    have behind : findItemLoop name 0 (before ++ newItem s :: after) = some (0 + before.length) ↔ _ :=
      findItemLoop_behind_iff (newItem_live component) created.used
    rwa [Nat.zero_add, ← created.new] at behind
  have toIndex : ∀ {name}, LeadsTo volume' name ⟨.file (newItem s),
      (entryLocation volume.rootDirectory before.length).1,
      (entryLocation volume.rootDirectory before.length).2⟩ → Matches name (newItem s) := by
    intro name leads
    rw [← created.place] at leads
    exact ((index name).mp leads.index).2
  constructor
  · rintro ⟨slot, volume'', result, nameOf⟩
    rw [created.result] at result
    cases result
    exact (newItem_matches_iff component).mp (toIndex ⟨_, nameOf.found, rfl, rfl⟩)
  · intro short
    have matching := (newItem_matches_iff component).mpr short
    refine ⟨_, volume', created.result, ?_, fun t isComponent leads => ?_⟩
    · obtain ⟨old, split⟩ := created.old
      have notFound : findItemLoop s 0 (before ++ old :: after) = none := by
        rw [← split]
        exact Option.map_eq_none_iff.mp absent
      have passed := not_matches_of_findItemLoop created.used notFound
      have inRoot : before.length < volume'.header.rootDirEntries := by
        rw [← created.mounted.length, created.new, List.length_append, List.length_cons]
        omega
      rw [findItem_of_index created.mounted inRoot ((index s).mpr ⟨passed, matching⟩), created.stored,
        created.place, fat16NewFatItemForDirectoryItem, if_neg fun isDirectory => isDirectory (newItem_file s)]
    · -- Any other name that leads to the item spells it the same way.
      have other := ((matches_iff isComponent _).mp (toIndex leads)).2
      have own := ((matches_iff component _).mp matching).2
      exact other.symm.trans own

/-! ## Two names -/

theorem tableVolume_room (table : List (Nat × UInt8)) : RootHasRoom (tableVolume table) :=
  ⟨.zero, List.mem_cons_self, Or.inl rfl⟩

theorem tableVolume_empty (table : List (Nat × UInt8)) (name : CStr) :
    fat16FindItemInDirectory (tableVolume table) (tableVolume table).rootDirectory name = none := rfl

/-- `file.txt` -/
def txtName : CStr := [0x66, 0x69, 0x6C, 0x65, 0x2E, 0x74, 0x78, 0x74]

theorem txtName_kept : IsComponent txtName ∧ ShortName txtName ∧ NameKept (tableVolume []) txtName := by
  have component : IsComponent txtName := ⟨by decide, by decide, by decide⟩
  have short : ShortName txtName := ⟨by decide, by decide, by decide, fun _ => by decide⟩
  exact ⟨component, short, (nameKept_iff (tableVolume_mounted []) (tableVolume_room []) component
    (tableVolume_empty [] txtName)).mpr short⟩

/-- `a.html` -/
def htmlName : CStr := [0x61, 0x2E, 0x68, 0x74, 0x6D, 0x6C]

/-- The entry of `a.html` has the name `A.HTM`. -/
theorem htmlName_lost :
    Mounted (tableVolume []) ∧ RootHasRoom (tableVolume []) ∧ IsComponent htmlName ∧
      fat16FindItemInDirectory (tableVolume []) (tableVolume []).rootDirectory htmlName = none ∧
      ¬ NameKept (tableVolume []) htmlName := by
  have component : IsComponent htmlName := ⟨by decide, by decide, by decide⟩
  refine ⟨tableVolume_mounted [], tableVolume_room [], component, tableVolume_empty [] htmlName, ?_⟩
  rintro ⟨slot, volume', result, nameOf⟩
  have lost : (fat16FindItemInDirectory (fat16CreateFileInRoot (tableVolume []) htmlName).2
      (fat16CreateFileInRoot (tableVolume []) htmlName).2.rootDirectory htmlName).isNone = true := by
    decide +kernel
  rw [result, nameOf.found] at lost
  cases lost

end ViOS.Fs
